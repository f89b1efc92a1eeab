import Tilibs.Lib.Bytes

/-!
# Tilibs.Evo.Kermit

The Kermit data layer of the TI-84 Evo (`evo_cmd.cc`): session parameters,
printable encodings of small numbers, and the quoting of the data field.

A data field is quoted in three nested ways: `~` starts a repeat count, `#`
quotes control characters and the prefixes themselves, and a negotiated eighth
bit prefix may stand before either.  `evoEncode` never emits the last one, so
the roundtrip holds for sessions that keep the default prefixes.
-/

namespace Tilibs.Evo

open Tilibs.Lib

/-! ## Constants -/

def evoQctl : UInt8 := 0x23
def evoRept : UInt8 := 0x7E
def evoCharBase : Nat := 0x20
def evoSeqMod : Nat := 64
def evoChecksumMask : Nat := 0x3f
def evoCtlMask : UInt8 := 0x40
def evoShortBodyMax : Nat := 94
def evoExtBodyBase : Nat := 95
def evoMaxRun : Nat := 94
def evoMaxPacketLen : Nat := 2040

/-- Error codes the Evo layer returns. -/
inductive EvoErr
  | invalidPacket
  | nack
  | readTimeout
  | writeError
  | calcError (text : List UInt8)
  deriving DecidableEq, Repr

/-! ## Printable characters -/

def tochar (x : Nat) : UInt8 := UInt8.ofNat (x + evoCharBase)

/-- `unchar` returns an `unsigned int`, so a character below the base wraps. -/
def unchar (x : UInt8) : Nat := (x.toNat + (2 ^ 32 - evoCharBase)) % 2 ^ 32

def ctl (x : UInt8) : UInt8 := x ^^^ evoCtlMask

/-- Small numbers survive the printable encoding. -/
theorem unchar_tochar {x : Nat} (h : x < 224) : unchar (tochar x) = x := by
  have hx : (x + evoCharBase) % 256 = x + evoCharBase :=
    Nat.mod_eq_of_lt (by simp [evoCharBase]; omega)
  simp only [unchar, tochar, UInt8.toNat_ofNat', evoCharBase] at *
  omega

/-! ## Session parameters -/

/-- The block checks a packet can end with.  The source keeps a byte that it
only ever sets to 1, 2 or 3. -/
inductive CheckType
  | checksum
  | checksum2
  | crc16
  deriving DecidableEq, Repr

/-- The number the source stores, which is also the number of check bytes. -/
def CheckType.size : CheckType → Nat
  | .checksum => 1
  | .checksum2 => 2
  | .crc16 => 3

/-- The block check a reply asks for with one of the digits `1` to `3`. -/
def CheckType.ofChar (c : UInt8) : Option CheckType :=
  if c = 0x31 then some .checksum
  else if c = 0x32 then some .checksum2
  else if c = 0x33 then some .crc16
  else none

/-- Parameters of one Kermit exchange; `binaryQuote` is the C `int` that is
negative while no eighth bit prefix is installed. -/
structure EvoKermitSession where
  checkType : CheckType
  controlQuote : UInt8
  binaryQuote : Option UInt8
  repeatQuote : UInt8
  maxPacketLen : Nat
  deriving DecidableEq, Repr

def evoSessionInit : EvoKermitSession where
  checkType := .checksum
  controlQuote := evoQctl
  binaryQuote := none
  repeatQuote := evoRept
  maxPacketLen := evoMaxPacketLen

/-- Take over the parameters in the data field of the calculator's S reply. -/
def evoSessionUpdateFromSinit (session : EvoKermitSession) (data : List UInt8) :
    EvoKermitSession :=
  { checkType := (data[7]? >>= CheckType.ofChar).getD session.checkType
    controlQuote := match data[5]? with
      | some c => if c ≠ 0x20 then c else session.controlQuote
      | none => session.controlQuote
    binaryQuote := match data[6]? with
      | some c => if c ≠ 0x59 ∧ c ≠ 0x4E ∧ c ≠ 0x20 then some c else session.binaryQuote
      | none => session.binaryQuote
    repeatQuote := match data[8]? with
      | some c => if c ≠ 0x20 then c else session.repeatQuote
      | none => session.repeatQuote
    maxPacketLen := match data[11]?, data[12]? with
      | some hi, some lo =>
          -- the product and the sum are unsigned ints
          let n := (unchar hi * evoExtBodyBase + unchar lo) % 2 ^ 32
          if 60 ≤ n then (if n < evoMaxPacketLen then n else evoMaxPacketLen)
          else session.maxPacketLen
      | _, _ => session.maxPacketLen }

/-- The session still uses the prefixes `evoSessionInit` installs. -/
structure EvoKermitSession.DefaultQuoting (session : EvoKermitSession) : Prop where
  control : session.controlQuote = evoQctl
  binary : session.binaryQuote = none
  repeated : session.repeatQuote = evoRept

theorem defaultQuoting_init : evoSessionInit.DefaultQuoting := ⟨rfl, rfl, rfl⟩

/-- A reply that asks for no other prefix than the defaults: each field is
missing, blank, or names the default (`Y` and `N` for the eighth bit). -/
def RepliesDefault (data : List UInt8) : Prop :=
  (∀ c, data[5]? = some c → c = 0x20 ∨ c = evoQctl) ∧
  (∀ c, data[6]? = some c → c = 0x59 ∨ c = 0x4E ∨ c = 0x20) ∧
  (∀ c, data[8]? = some c → c = 0x20 ∨ c = evoRept)

/-- Such a reply leaves the default prefixes installed. -/
theorem defaultQuoting_update {session : EvoKermitSession} {data : List UInt8}
    (h : session.DefaultQuoting) (hr : RepliesDefault data) :
    (evoSessionUpdateFromSinit session data).DefaultQuoting := by
  obtain ⟨hc, hb, hp⟩ := hr
  constructor
  · simp only [evoSessionUpdateFromSinit]
    split
    · next c hd => rcases hc c hd with rfl | rfl <;> simp [h.control, evoQctl]
    · exact h.control
  · simp only [evoSessionUpdateFromSinit]
    split
    · next c hd => rcases hb c hd with rfl | rfl | rfl <;> simp [h.binary]
    · exact h.binary
  · simp only [evoSessionUpdateFromSinit]
    split
    · next c hd => rcases hp c hd with rfl | rfl <;> simp [h.repeated, evoRept]
    · exact h.repeated

/-! ## Encoding -/

def encodeByte (b : UInt8) : List UInt8 :=
  if b &&& 0x7f < 0x20 ∨ b &&& 0x7f = 0x7f then [evoQctl, ctl b]
  else if b = evoQctl ∨ b = evoRept then [evoQctl, b]
  else [b]

/-- How many of the next bytes equal `b`, counting at most `limit`. -/
def runLength (b : UInt8) : Nat → List UInt8 → Nat
  | limit + 1, c :: cs => if c = b then runLength b limit cs + 1 else 0
  | _, _ => 0

/-- The loop of `evo_encode`; every turn consumes at least one byte, so `fuel`
is the number of bytes left. -/
def evoEncodeLoop : Nat → List UInt8 → List UInt8
  | fuel + 1, b :: rest =>
      let more := runLength b (evoMaxRun - 1) rest
      let run := more + 1
      (if 3 ≤ run then evoRept :: tochar run :: encodeByte b
       else (List.replicate run (encodeByte b)).flatten) ++ evoEncodeLoop fuel (rest.drop more)
  | _, _ => []

def evoEncode (out data : List UInt8) : List UInt8 := out ++ evoEncodeLoop data.length data

/-! ## Decoding -/

def evoUnctl (b : UInt8) : UInt8 :=
  if b &&& 0x7f = 0x3f ∨ b &&& 0x60 = evoCtlMask then b ^^^ evoCtlMask else b

def evoKermitSizeWithinLimit (current additional limit : Nat) : Bool :=
  current ≤ limit && additional ≤ limit - current

/-- The loop of `evo_decode`: what has been produced, and the input not yet
consumed.  Every turn consumes at least one byte. -/
def evoDecodeLoop (controlQuote : UInt8) (binaryQuote : Option UInt8) (repeatQuote : UInt8)
    (maxOutputLen : Nat) :
    Nat → List UInt8 → List UInt8 → Except EvoErr (List UInt8 × List UInt8)
  | 0, out, data => .ok (out, data)
  | fuel + 1, out, data =>
      if data = [] then .ok (out, data) else
      -- a repeat prefix counts only when two more bytes follow it
      let counted := data.head? = some repeatQuote ∧ 2 < data.length
      let count := if counted then unchar (data.getD 1 0) else 1
      let data := if counted then data.drop 2 else data
      let high := binaryQuote.isSome ∧ data.head? = binaryQuote
      let highBit : UInt8 := if high then 0x80 else 0
      let data := if high then data.drop 1 else data
      match data with
      | [] => .ok (out, [])
      | b :: data =>
          let quoted := b = controlQuote ∧ data ≠ []
          let b := if quoted then evoUnctl (data.headD 0) else b
          let data := if quoted then data.drop 1 else data
          let b := b ||| highBit
          if evoKermitSizeWithinLimit out.length count maxOutputLen then
            evoDecodeLoop controlQuote binaryQuote repeatQuote maxOutputLen fuel
              (out ++ List.replicate count b) data
          else .error .invalidPacket

/-- Decode a data field onto `out`; without a session the defaults apply. -/
def evoDecode (out data : List UInt8) (session : Option EvoKermitSession)
    (maxOutputLen : Nat) : Except EvoErr (List UInt8 × List UInt8) :=
  let s := session.getD evoSessionInit
  evoDecodeLoop s.controlQuote s.binaryQuote s.repeatQuote maxOutputLen data.length out data

/-! ## Bytes that alias a prefix -/

/-- A property of bytes is checked on the 256 of them. -/
private theorem forall_byte {p : UInt8 → Prop} (h : ∀ n : Fin 256, p (UInt8.ofNat n))
    (b : UInt8) : p b := by
  simpa using h ⟨b.toNat, b.toNat_lt⟩

/-- Masking a quoted control character off and on again gives it back. -/
theorem evoUnctl_ctl {b : UInt8} (h : b &&& 0x7f < 0x20 ∨ b &&& 0x7f = 0x7f) :
    evoUnctl (ctl b) = b := by
  revert b
  refine @(forall_byte ?_)
  decide +kernel

/-- The quoted prefixes are not control characters, so they are not masked. -/
theorem evoUnctl_prefix {b : UInt8} (h : b = evoQctl ∨ b = evoRept) : evoUnctl b = b := by
  rcases h with rfl | rfl <;> decide

theorem one_le_length_encodeByte (b : UInt8) : 1 ≤ (encodeByte b).length := by
  unfold encodeByte
  split
  · simp
  · split <;> simp

/-! ## Roundtrip -/

/-- The counted run is a run of `b`. -/
theorem take_runLength (b : UInt8) (limit : Nat) (cs : List UInt8) :
    cs.take (runLength b limit cs) = List.replicate (runLength b limit cs) b := by
  induction limit, cs using runLength.induct b with
  | case1 limit cs ih => simpa [runLength, List.replicate_succ] using ih
  | case2 limit c cs hc => simp [runLength, hc]
  | case3 limit cs h =>
      have hzero : runLength b limit cs = 0 := by
        unfold runLength
        split
        · exact absurd rfl (h _ _ _ rfl)
        · rfl
      simp [hzero]

theorem runLength_le (b : UInt8) (limit : Nat) (cs : List UInt8) :
    runLength b limit cs ≤ limit := by
  induction limit generalizing cs with
  | zero => simp [runLength]
  | succ limit ih =>
      cases cs with
      | nil => simp [runLength]
      | cons c cs =>
          have h := ih cs
          by_cases hc : c = b <;> simp [runLength, hc, h]

/-- What one turn of `evo_encode` consumes is a run of the first byte. -/
theorem replicate_runLength_append (b : UInt8) (limit : Nat) (cs : List UInt8) :
    List.replicate (runLength b limit cs + 1) b ++ cs.drop (runLength b limit cs) = b :: cs := by
  rw [List.replicate_succ, List.cons_append, ← take_runLength, List.take_append_drop]

section Roundtrip

variable {limit fuel : Nat} {out rest : List UInt8}

theorem evoDecodeLoop_nil :
    evoDecodeLoop evoQctl none evoRept limit fuel out [] = .ok (out, []) := by
  cases fuel <;> simp [evoDecodeLoop]

/-- One turn on a byte sent by itself. -/
theorem evoDecodeLoop_encodeByte (b : UInt8) (h : out.length + 1 ≤ limit) :
    evoDecodeLoop evoQctl none evoRept limit (fuel + 1) out (encodeByte b ++ rest) =
      evoDecodeLoop evoQctl none evoRept limit fuel (out ++ [b]) rest := by
  have hfit : evoKermitSizeWithinLimit out.length 1 limit = true := by
    simp [evoKermitSizeWithinLimit]; omega
  have hne : evoQctl ≠ evoRept := by decide
  by_cases hctl : b &&& 0x7f < 0x20 ∨ b &&& 0x7f = 0x7f
  · simp [evoDecodeLoop, encodeByte, hctl, hne, hfit, evoUnctl_ctl hctl]
  · by_cases hq : b = evoQctl ∨ b = evoRept
    · simp [evoDecodeLoop, encodeByte, hctl, hq, hne, hfit, evoUnctl_prefix hq]
    · have ⟨hb, hr⟩ := not_or.mp hq
      simp [evoDecodeLoop, encodeByte, hctl, hb, hr, hfit]

/-- One turn on a counted run. -/
theorem evoDecodeLoop_repeat {run : Nat} (b : UInt8) (hrun : run < 224)
    (h : out.length + run ≤ limit) :
    evoDecodeLoop evoQctl none evoRept limit (fuel + 1) out
        (evoRept :: tochar run :: encodeByte b ++ rest) =
      evoDecodeLoop evoQctl none evoRept limit fuel (out ++ List.replicate run b) rest := by
  have hfit : evoKermitSizeWithinLimit out.length run limit = true := by
    simp [evoKermitSizeWithinLimit]; omega
  have hcount := unchar_tochar hrun
  by_cases hctl : b &&& 0x7f < 0x20 ∨ b &&& 0x7f = 0x7f
  · simp [evoDecodeLoop, encodeByte, hctl, hfit, evoUnctl_ctl hctl, hcount]
  · by_cases hq : b = evoQctl ∨ b = evoRept
    · simp [evoDecodeLoop, encodeByte, hctl, hq, hfit, evoUnctl_prefix hq, hcount]
    · have ⟨hb, hr⟩ := not_or.mp hq
      simp [evoDecodeLoop, encodeByte, hctl, hb, hr, hfit, hcount]

/-- A short run is sent byte by byte, and takes a turn for each. -/
theorem evoDecodeLoop_replicate (run : Nat) (b : UInt8) (h : out.length + run ≤ limit) :
    evoDecodeLoop evoQctl none evoRept limit (fuel + run) out
        ((List.replicate run (encodeByte b)).flatten ++ rest) =
      evoDecodeLoop evoQctl none evoRept limit fuel (out ++ List.replicate run b) rest := by
  induction run generalizing out with
  | zero => simp
  | succ run ih =>
      rw [List.replicate_succ, List.flatten_cons, List.append_assoc, ← Nat.add_assoc,
        evoDecodeLoop_encodeByte b (by omega), ih (by simp; omega), List.append_assoc,
        List.replicate_succ, List.singleton_append]

theorem le_length_flatten_encodeByte (run : Nat) (b : UInt8) :
    run ≤ (List.replicate run (encodeByte b)).flatten.length := by
  have h := Nat.mul_le_mul_left run (one_le_length_encodeByte b)
  simpa using h

/-- The decoding loop undoes the encoding loop and leaves no input. -/
theorem evoDecodeLoop_evoEncodeLoop {steps : Nat} {data : List UInt8}
    (hfuel : data.length ≤ fuel) (hsteps : (evoEncodeLoop fuel data).length ≤ steps)
    (hlimit : out.length + data.length ≤ limit) :
    evoDecodeLoop evoQctl none evoRept limit steps out (evoEncodeLoop fuel data) =
      .ok (out ++ data, []) := by
  induction fuel generalizing data out steps with
  | zero =>
      have hdata : data = [] := List.length_eq_zero_iff.mp (by omega)
      simp [hdata, evoEncodeLoop, evoDecodeLoop_nil]
  | succ fuel ih =>
      cases data with
      | nil => simp [evoEncodeLoop, evoDecodeLoop_nil]
      | cons b cs =>
          have hrun := runLength_le b (evoMaxRun - 1) cs
          have hdata := replicate_runLength_append b (evoMaxRun - 1) cs
          have hlen := congrArg List.length hdata
          simp only [evoEncodeLoop] at hsteps ⊢
          generalize runLength b (evoMaxRun - 1) cs = more at *
          simp only [List.length_append, List.length_replicate, List.length_cons] at hlen hfuel hlimit
          simp only [evoMaxRun] at hrun
          split at hsteps
          · next hthree =>
            rw [if_pos hthree]
            obtain ⟨steps, rfl⟩ : ∃ k, steps = k + 1 :=
              ⟨steps - 1, by simp only [List.length_append, List.length_cons] at hsteps; omega⟩
            rw [evoDecodeLoop_repeat b (by omega) (by omega), ih (by omega)
              (by simp only [List.length_append, List.length_cons] at hsteps; omega)
              (by simp only [List.length_append, List.length_replicate]; omega),
              List.append_assoc, hdata]
          · next hthree =>
            have hlong := le_length_flatten_encodeByte (more + 1) b
            rw [List.length_append] at hsteps
            rw [if_neg hthree]
            obtain ⟨steps, rfl⟩ : ∃ k, steps = k + (more + 1) := ⟨steps - (more + 1), by omega⟩
            rw [evoDecodeLoop_replicate (more + 1) b (by omega), ih (by omega) (by omega)
              (by simp only [List.length_append, List.length_replicate]; omega),
              List.append_assoc, hdata]

end Roundtrip

theorem evoDecode_default {session : EvoKermitSession} {out data : List UInt8} {limit : Nat}
    (hsession : session.DefaultQuoting) (hlimit : out.length + data.length ≤ limit) :
    evoDecode out (evoEncode [] data) (some session) limit = .ok (out ++ data, []) := by
  simp only [evoDecode, Option.getD_some, hsession.control, hsession.binary, hsession.repeated]
  exact evoDecodeLoop_evoEncodeLoop le_rfl (by simp [evoEncode]) hlimit

/-- Decoding undoes quoting for every byte string: the original bytes come back
behind what `out` already held, and the whole encoding is consumed. -/
theorem evoDecode_evoEncode {session : Option EvoKermitSession} {out data : List UInt8}
    {limit : Nat} (hsession : ∀ s ∈ session, s.DefaultQuoting)
    (hlimit : out.length + data.length ≤ limit) :
    evoDecode out (evoEncode [] data) session limit = .ok (out ++ data, []) := by
  cases session with
  | none => exact evoDecode_default defaultQuoting_init hlimit
  | some s => exact evoDecode_default (hsession s rfl) hlimit

theorem evoDecode_evoEncode_replied :
    evoDecode [0x41] (evoEncode [] [0x7E, 0x7E, 0x7E, 0x00, 0xA3, 0x23])
        (some (evoSessionUpdateFromSinit evoSessionInit
          [0x7E, 0x30, 0x20, 0x40, 0x2D, 0x23, 0x59, 0x33, 0x7E])) 7 =
      .ok ([0x41] ++ [0x7E, 0x7E, 0x7E, 0x00, 0xA3, 0x23], []) :=
  evoDecode_evoEncode
    (by
      intro s hs
      obtain rfl := Option.some_inj.mp hs
      exact defaultQuoting_update defaultQuoting_init
        ⟨by simp [evoQctl], by simp, by simp [evoRept]⟩)
    (by decide)

end Tilibs.Evo
