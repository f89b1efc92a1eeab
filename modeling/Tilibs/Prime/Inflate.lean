import Tilibs.Prime.File

/-!
# Tilibs.Prime.Inflate

The loop of `inflate_v2_file_message` (`prime_cmd.c`), with the decoder of zlib and the allocator
as parameters.

The output buffer has the advertised size, or grows by doubling up to 64 MB.  Every call of the
decoder writes inside the buffer; the loop ends when the decoder makes progress whenever it says
`Z_OK`, which zlib documents, and a decoder that does not keeps it for ever.
-/

namespace Tilibs.Prime

open Lib

/-! ## zlib -/

/-- What `inflate` returns; `error` is everything that is neither `Z_OK` nor `Z_STREAM_END`. -/
inductive ZlibCode
  | ok
  | streamEnd
  | error
  deriving DecidableEq

/-- A call of `inflate`: how far `next_in` moves, and what is written at `next_out`. -/
structure ZlibCall (σ : Type) where
  code : ZlibCode
  consumed : Nat
  produced : List UInt8
  next : σ

/-- A decoder with states in `σ`: `inflateInit`, which may fail, and `inflate` on the bytes from
`next_in` on and `avail_out`. -/
structure Zlib (σ : Type) where
  init : Option σ
  inflate : σ → List UInt8 → Nat → ZlibCall σ

variable {σ : Type}

/-- The decoder consumes and produces at most what it is given. -/
structure Zlib.Bounded (z : Zlib σ) : Prop where
  consumed : ∀ s input room, (z.inflate s input room).consumed ≤ input.length
  produced : ∀ s input room, (z.inflate s input room).produced.length ≤ room

/-- `Z_OK` says that some progress has been made. -/
def Zlib.Progress (z : Zlib σ) : Prop :=
  ∀ s input room, (z.inflate s input room).code = .ok →
    0 < (z.inflate s input room).consumed ∨ (z.inflate s input room).produced ≠ []

/-- Which sizes the allocator has: for the first buffer, a grown one, and the new packet. -/
structure InflateMem where
  malloc : Nat → Bool
  realloc : Nat → Bool
  mallocRebuilt : Nat → Bool

/-! ## the loop -/

/-- What the function returns, and the packet behind its pointer. -/
structure InflateResult where
  error : Option PrimeErr
  packet : List UInt8
  deriving DecidableEq

/-- What the loop keeps between two calls; `out` is what has been written to the buffer. -/
structure InflateState (σ : Type) where
  packet : List UInt8
  capacity : Nat
  decoder : σ
  input : List UInt8
  out : List UInt8

/-- The capacity after the next `realloc`. -/
def inflateGrown (capacity : Nat) : Nat :=
  if capacity > primeMaxDecompressedFileSize / 2 then primeMaxDecompressedFileSize else capacity * 2

/-- What is done with a full buffer: its capacity from now on. -/
def InflateState.grow (mem : InflateMem) (expected : Nat) (st : InflateState σ) :
    Except PrimeErr Nat :=
  if st.out.length ≠ st.capacity then .ok st.capacity
  else if expected ≠ 0 ∨ st.capacity ≥ primeMaxDecompressedFileSize then .error .packetFormat
  else if mem.realloc (inflateGrown st.capacity) = false then .error .malloc
  else .ok (inflateGrown st.capacity)

/-- The call of the decoder. -/
def InflateState.call (z : Zlib σ) (st : InflateState σ) (capacity : Nat) : ZlibCall σ :=
  z.inflate st.decoder st.input (capacity - st.out.length)

/-- What is done with a whole stream: the packet is rebuilt around it. -/
def inflateEnd (mem : InflateMem) (expected : Nat) (packet out : List UInt8) : InflateResult :=
  if expected ≠ 0 ∧ out.length ≠ expected then ⟨some .packetFormat, packet⟩
  else if out.length > primeMaxDecompressedFileSize - 6 then ⟨some .packetFormat, packet⟩
  else if mem.mallocRebuilt (out.length + 6) = false then ⟨some .malloc, packet⟩
  else ⟨none, rebuiltPacket out⟩

/-- What a turn does with what the decoder returned; what is read behind the input or written
behind the buffer is undefined. -/
def inflateAfter (mem : InflateMem) (expected capacity : Nat) (st : InflateState σ)
    (call : ZlibCall σ) : Except InflateResult (InflateState σ) :=
  if st.input.length < call.consumed ∨ capacity < st.out.length + call.produced.length then
    .error ⟨some .undefinedBehaviour, st.packet⟩
  else
    let input := st.input.drop call.consumed
    let out := st.out ++ call.produced
    match call.code with
    | .streamEnd => .error (inflateEnd mem expected st.packet out)
    | .error => .error ⟨some .packetFormat, st.packet⟩
    | .ok =>
        if input = [] ∧ capacity ≠ out.length then .error ⟨some .packetFormat, st.packet⟩
        else .ok { st with capacity, decoder := call.next, input, out }

/-- A turn of the loop; it stops with a result, or the loop goes on. -/
def inflateTurn (z : Zlib σ) (mem : InflateMem) (expected : Nat) (st : InflateState σ) :
    Except InflateResult (InflateState σ) := do
  let capacity ← (st.grow mem expected).mapError fun e => ⟨some e, st.packet⟩
  inflateAfter mem expected capacity st (st.call z capacity)

/-- The loop; nothing when the fuel is used up. -/
def inflateLoop (z : Zlib σ) (mem : InflateMem) (expected : Nat) :
    Nat → InflateState σ → Option InflateResult
  | 0, _ => none
  | fuel + 1, st =>
      match inflateTurn z mem expected st with
      | .error result => some result
      | .ok st => inflateLoop z mem expected fuel st

/-- The capacity of the first buffer. -/
def inflateCapacity (expected compressedSize : Nat) : Nat :=
  if expected ≠ 0 then expected
  else
    let capacity := if compressedSize > 1024 then compressedSize * 4 % 2 ^ 32 else 4096
    if capacity < compressedSize ∨ capacity > primeMaxDecompressedFileSize then
      primeMaxDecompressedFileSize
    else capacity

/-- How the loop begins, unless there is a result before it. -/
def inflateBegin (z : Zlib σ) (mem : InflateMem) (packet : List UInt8) :
    Except InflateResult (InflateState σ) :=
  if looksCompressed packet = false then .error ⟨none, packet⟩
  else if expectedSize packet > primeMaxDecompressedFileSize then
    .error ⟨some .packetFormat, packet⟩
  else
    let capacity := inflateCapacity (expectedSize packet) (packet.length - 10)
    if mem.malloc capacity = false then .error ⟨some .malloc, packet⟩
    else
      match z.init with
      | none => .error ⟨some .packetFormat, packet⟩
      | some decoder => .ok ⟨packet, capacity, decoder, packet.drop 10, []⟩

/-- `inflate_v2_file_message`; a packet without data is the empty one. -/
def inflateMessage (z : Zlib σ) (mem : InflateMem) (fuel : Nat) (packet : List UInt8) :
    Option InflateResult :=
  match inflateBegin z mem packet with
  | .error result => some result
  | .ok st => inflateLoop z mem (expectedSize packet) fuel st

/-! ## every state of the loop -/

/-- The states that the loop comes to. -/
inductive Inflating (z : Zlib σ) (mem : InflateMem) (packet : List UInt8) :
    InflateState σ → Prop
  | start {st : InflateState σ} : inflateBegin z mem packet = .ok st → Inflating z mem packet st
  | turn {st st' : InflateState σ} : Inflating z mem packet st →
      inflateTurn z mem (expectedSize packet) st = .ok st' → Inflating z mem packet st'

/-- What has been written fits the buffer, which has at most 64 MB. -/
structure InflateState.Inside (packet : List UInt8) (st : InflateState σ) : Prop where
  unchanged : st.packet = packet
  written : st.out.length ≤ st.capacity
  positive : 0 < st.capacity
  capacity : st.capacity ≤ primeMaxDecompressedFileSize
  input : st.input.length ≤ packet.length

section Loop

variable {z : Zlib σ} {mem : InflateMem} {packet : List UInt8} {expected capacity : Nat}
  {st st' : InflateState σ} {result : InflateResult}

theorem inflateGrown_bounds (hpositive : 0 < capacity)
    (h : capacity < primeMaxDecompressedFileSize) :
    capacity < inflateGrown capacity ∧ inflateGrown capacity ≤ primeMaxDecompressedFileSize := by
  unfold inflateGrown
  split <;> omega

/-- A buffer that is full grows. -/
theorem InflateState.Inside.grow (hst : st.Inside packet)
    (h : st.grow mem expected = .ok capacity) :
    st.out.length < capacity ∧ capacity ≤ primeMaxDecompressedFileSize := by
  have hwritten := hst.written
  have hcapacity := hst.capacity
  unfold InflateState.grow at h
  by_cases hroom : st.out.length ≠ st.capacity
  · rw [if_pos hroom] at h
    cases h
    omega
  · rw [if_neg hroom] at h
    obtain ⟨hmore, h⟩ := check_eq_ok_iff.mp h
    obtain ⟨-, h⟩ := check_eq_ok_iff.mp h
    cases h
    have hbounds := inflateGrown_bounds hst.positive (by omega)
    omega

theorem InflateState.grow_error {e : PrimeErr} (h : st.grow mem expected = .error e) :
    e ≠ .undefinedBehaviour := by
  rintro rfl
  unfold InflateState.grow at h
  split at h
  · cases h
  split at h
  · cases h
  split at h
  · cases h
  · cases h

theorem inflateCapacity_bounds {compressedSize : Nat}
    (h : expected ≤ primeMaxDecompressedFileSize) :
    0 < inflateCapacity expected compressedSize
      ∧ inflateCapacity expected compressedSize ≤ primeMaxDecompressedFileSize := by
  have hmax : primeMaxDecompressedFileSize = 67108864 := rfl
  unfold inflateCapacity
  by_cases hexpected : expected ≠ 0
  · rw [if_pos hexpected]
    omega
  · rw [if_neg hexpected]
    dsimp only
    by_cases hlarge : compressedSize > 1024
    · rw [if_pos hlarge]
      split <;> omega
    · rw [if_neg hlarge]
      split <;> omega

/-- The first state. -/
theorem inflateBegin_inside (h : inflateBegin z mem packet = .ok st) : st.Inside packet := by
  unfold inflateBegin at h
  obtain ⟨-, h⟩ := check_eq_ok_iff.mp h
  obtain ⟨hexpected, h⟩ := check_eq_ok_iff.mp h
  obtain ⟨-, h⟩ := check_eq_ok_iff.mp h
  split at h
  · cases h
  · cases h
    have hbounds := @inflateCapacity_bounds (expectedSize packet) (packet.length - 10) (by omega)
    refine ⟨rfl, Nat.zero_le _, hbounds.1, hbounds.2, ?_⟩
    rw [List.length_drop]
    omega

/-- What a turn does when the loop goes on. -/
theorem inflateTurn_ok (h : inflateTurn z mem expected st = .ok st') :
    ∃ capacity, st.grow mem expected = .ok capacity ∧ (st.call z capacity).code = .ok
      ∧ (st.call z capacity).consumed ≤ st.input.length
      ∧ st.out.length + (st.call z capacity).produced.length ≤ capacity
      ∧ st' = ⟨st.packet, capacity, (st.call z capacity).next,
        st.input.drop (st.call z capacity).consumed, st.out ++ (st.call z capacity).produced⟩ := by
  obtain ⟨capacity, hgrow, h⟩ := bind_eq_ok_iff.mp h
  unfold inflateAfter at h
  obtain ⟨hinside, h⟩ := check_eq_ok_iff.mp h
  dsimp only at h
  split at h
  · cases h
  · cases h
  · next hcode =>
    obtain ⟨-, h⟩ := check_eq_ok_iff.mp h
    cases h
    exact ⟨capacity, mapError_eq_ok_iff.mp hgrow, hcode, by omega, by omega, rfl⟩

/-- What a turn does when the loop ends: an error leaves the packet, and otherwise the decoder has
come to the end of the stream. -/
theorem inflateTurn_error (hz : z.Bounded) (hst : st.Inside packet)
    (h : inflateTurn z mem expected st = .error result) :
    (∃ e, result = ⟨some e, packet⟩ ∧ e ≠ .undefinedBehaviour)
      ∨ ∃ capacity, st.grow mem expected = .ok capacity ∧ (st.call z capacity).code = .streamEnd
        ∧ result = inflateEnd mem expected packet (st.out ++ (st.call z capacity).produced) := by
  unfold inflateTurn at h
  cases hgrow : st.grow mem expected with
  | error e =>
      rw [hgrow] at h
      cases h
      exact .inl ⟨e, by rw [hst.unchanged], st.grow_error hgrow⟩
  | ok capacity =>
      rw [hgrow] at h
      change inflateAfter mem expected capacity st (st.call z capacity) = _ at h
      have hconsumed : (st.call z capacity).consumed ≤ st.input.length := hz.consumed ..
      have hproduced : (st.call z capacity).produced.length ≤ capacity - st.out.length :=
        hz.produced ..
      have hroom := hst.grow hgrow
      unfold inflateAfter at h
      rw [if_neg (by omega), hst.unchanged] at h
      dsimp only at h
      split at h
      · next hcode =>
        cases h
        exact .inr ⟨capacity, rfl, hcode, rfl⟩
      · cases h
        exact .inl ⟨_, rfl, by decide⟩
      · split at h
        · cases h
          exact .inl ⟨_, rfl, by decide⟩
        · cases h

theorem InflateState.Inside.turn (hst : st.Inside packet)
    (h : inflateTurn z mem expected st = .ok st') : st'.Inside packet := by
  obtain ⟨capacity, hgrow, -, -, hfits, rfl⟩ := inflateTurn_ok h
  have hroom := hst.grow hgrow
  have hinput := hst.input
  refine ⟨hst.unchanged, ?_, by dsimp only; omega, hroom.2, ?_⟩
  · rw [List.length_append]
    exact hfits
  · rw [List.length_drop]
    omega

/-- Every state of the loop is inside. -/
theorem Inflating.inside (h : Inflating z mem packet st) : st.Inside packet := by
  induction h with
  | start hbegin => exact inflateBegin_inside hbegin
  | turn _ hturn ih => exact ih.turn hturn

/-! ## the result -/

/-- What the decoder has written when it comes to the end of the stream. -/
def Decompressed (z : Zlib σ) (mem : InflateMem) (packet out : List UInt8) : Prop :=
  ∃ st capacity, Inflating z mem packet st ∧ st.grow mem (expectedSize packet) = .ok capacity
    ∧ (st.call z capacity).code = .streamEnd ∧ out = st.out ++ (st.call z capacity).produced

/-- With success the packet is the one that was received, or is rebuilt around what was
decompressed, which has the advertised size; with an error it is the one that was received. -/
def InflateResult.Correct (z : Zlib σ) (mem : InflateMem) (packet : List UInt8)
    (result : InflateResult) : Prop :=
  match result.error with
  | none => result.packet = packet ∨ ∃ out, Decompressed z mem packet out
      ∧ result.packet.take 2 = [cmdPrimeRecvFile, 0x03]
      ∧ getBE ((result.packet.drop 2).take 4) = out.length ∧ result.packet.drop 6 = out
      ∧ (expectedSize packet ≠ 0 → out.length = expectedSize packet)
  | some e => e ≠ .undefinedBehaviour ∧ result.packet = packet

theorem inflateEnd_correct {out : List UInt8} (h : Decompressed z mem packet out) :
    (inflateEnd mem (expectedSize packet) packet out).Correct z mem packet := by
  unfold inflateEnd
  by_cases hexpected : expectedSize packet ≠ 0 ∧ out.length ≠ expectedSize packet
  · rw [if_pos hexpected]
    exact ⟨by decide, rfl⟩
  by_cases hsize : out.length > primeMaxDecompressedFileSize - 6
  · rw [if_neg hexpected, if_pos hsize]
    exact ⟨by decide, rfl⟩
  by_cases hmalloc : mem.mallocRebuilt (out.length + 6) = false
  · rw [if_neg hexpected, if_neg hsize, if_pos hmalloc]
    exact ⟨by decide, rfl⟩
  rw [if_neg hexpected, if_neg hsize, if_neg hmalloc]
  have hmax : primeMaxDecompressedFileSize = 67108864 := rfl
  refine .inr ⟨out, h, rfl, ?_, ?_, fun hadvertised => by omega⟩
  · change getBE ((putBE 4 out.length ++ out).take 4) = out.length
    rw [List.take_left' (length_putBE 4 _), getBE_putBE (by omega)]
  · change (putBE 4 out.length ++ out).drop 4 = out
    exact List.drop_left' (length_putBE 4 _)

theorem inflateBegin_correct (h : inflateBegin z mem packet = .error result) :
    result.Correct z mem packet := by
  unfold inflateBegin at h
  split at h
  · cases h
    exact .inl rfl
  split at h
  · cases h
    exact ⟨by decide, rfl⟩
  dsimp only at h
  split at h
  · cases h
    exact ⟨by decide, rfl⟩
  split at h
  · cases h
    exact ⟨by decide, rfl⟩
  · cases h

/-- The loop ends with an error, or at the end of the stream. -/
theorem inflateLoop_result (hz : z.Bounded) {fuel : Nat} (hst : Inflating z mem packet st)
    (h : inflateLoop z mem (expectedSize packet) fuel st = some result) :
    (∃ e, result = ⟨some e, packet⟩ ∧ e ≠ .undefinedBehaviour)
      ∨ ∃ out, Decompressed z mem packet out
        ∧ result = inflateEnd mem (expectedSize packet) packet out := by
  induction fuel generalizing st with
  | zero => cases h
  | succ fuel ih =>
      unfold inflateLoop at h
      split at h
      · next hturn =>
        cases h
        obtain herror | ⟨capacity, hgrow, hcode, rfl⟩ := inflateTurn_error hz hst.inside hturn
        · exact .inl herror
        · exact .inr ⟨_, ⟨st, capacity, hst, hgrow, hcode, rfl⟩, rfl⟩
      · next hturn => exact ih (hst.turn hturn) h

theorem inflateLoop_correct (hz : z.Bounded) {fuel : Nat} (hst : Inflating z mem packet st)
    (h : inflateLoop z mem (expectedSize packet) fuel st = some result) :
    result.Correct z mem packet := by
  obtain ⟨e, rfl, he⟩ | ⟨out, hout, rfl⟩ := inflateLoop_result hz hst h
  · exact ⟨he, rfl⟩
  · exact inflateEnd_correct hout

/-- With progress in every turn the loop ends. -/
theorem exists_inflateLoop (hprogress : z.Progress) {fuel : Nat} (hst : st.Inside packet)
    (hfuel : st.input.length + (primeMaxDecompressedFileSize - st.out.length) < fuel) :
    ∃ result, inflateLoop z mem expected fuel st = some result := by
  induction fuel generalizing st with
  | zero => omega
  | succ fuel ih =>
      unfold inflateLoop
      split
      · exact ⟨_, rfl⟩
      · next st' hturn =>
        refine ih (hst.turn hturn) ?_
        obtain ⟨capacity, hgrow, hcode, hconsumed, hfits, rfl⟩ := inflateTurn_ok hturn
        have hroom := hst.grow hgrow
        have hmoved : 0 < (st.call z capacity).consumed
            ∨ 0 < (st.call z capacity).produced.length :=
          (hprogress _ _ _ hcode).imp_right List.length_pos_iff.mpr
        dsimp only
        rw [List.length_drop, List.length_append]
        omega

/-- Every call of the decoder has a buffer of at most 64 MB and writes inside of it, the packet is
as it should be whenever the function returns, and with progress it does. -/
theorem inflateMessage_correct (hz : z.Bounded) :
    (∀ st capacity, Inflating z mem packet st → st.grow mem (expectedSize packet) = .ok capacity →
      st.out.length + (st.call z capacity).produced.length ≤ capacity
        ∧ capacity ≤ primeMaxDecompressedFileSize)
      ∧ (∀ fuel result, inflateMessage z mem fuel packet = some result →
        result.Correct z mem packet)
      ∧ (z.Progress → ∀ fuel, packet.length + primeMaxDecompressedFileSize < fuel →
        ∃ result, inflateMessage z mem fuel packet = some result) := by
  refine ⟨?_, ?_, ?_⟩
  · intro st capacity hst hgrow
    have hroom := hst.inside.grow hgrow
    have hproduced : (st.call z capacity).produced.length ≤ capacity - st.out.length :=
      hz.produced ..
    omega
  · intro fuel result h
    unfold inflateMessage at h
    split at h
    · next hbegin =>
      cases h
      exact inflateBegin_correct hbegin
    · next hbegin => exact inflateLoop_correct hz (.start hbegin) h
  · intro hprogress fuel hfuel
    unfold inflateMessage
    split
    · exact ⟨_, rfl⟩
    · next hbegin =>
      have hst := inflateBegin_inside hbegin
      have hinput := hst.input
      exact exists_inflateLoop hprogress hst (by omega)

theorem inflateBegin_compressed (hcompressed : looksCompressed packet = true)
    (h : inflateBegin z mem packet = .error result) : result.error ≠ none := by
  unfold inflateBegin at h
  rw [if_neg (by rw [hcompressed]; decide)] at h
  split at h
  · cases h
    nofun
  dsimp only at h
  split at h
  · cases h
    nofun
  split at h
  · cases h
    nofun
  · cases h

theorem inflateEnd_success {out : List UInt8}
    (h : (inflateEnd mem expected packet out).error = none) :
    (expected = 0 ∨ out.length = expected) ∧ out.length ≤ primeMaxDecompressedFileSize - 6
      ∧ (inflateEnd mem expected packet out).packet = rebuiltPacket out := by
  unfold inflateEnd at h ⊢
  by_cases hexpected : expected ≠ 0 ∧ out.length ≠ expected
  · rw [if_pos hexpected] at h
    cases h
  by_cases hsize : out.length > primeMaxDecompressedFileSize - 6
  · rw [if_neg hexpected, if_pos hsize] at h
    cases h
  by_cases hmalloc : mem.mallocRebuilt (out.length + 6) = false
  · rw [if_neg hexpected, if_neg hsize, if_pos hmalloc] at h
    cases h
  rw [if_neg hexpected, if_neg hsize, if_neg hmalloc]
  exact ⟨by omega, by omega, rfl⟩

/-- What the loop makes of a packet is what `inflateV2FileMessage` makes of it with the stream
that the decoder comes to the end of. -/
theorem inflateMessage_refines (hz : z.Bounded) {fuel : Nat}
    (h : inflateMessage z mem fuel packet = some result) (hsuccess : result.error = none) :
    ∃ inflate : Inflate, inflateV2FileMessage inflate packet = .ok result.packet
      ∧ ∀ out, inflate (packet.drop 10) = some out → Decompressed z mem packet out := by
  unfold inflateMessage at h
  by_cases hcompressed : looksCompressed packet = true
  · split at h
    · next hbegin =>
      cases h
      exact absurd hsuccess (inflateBegin_compressed hcompressed hbegin)
    · next hbegin =>
      obtain ⟨e, rfl, -⟩ | ⟨out, hout, rfl⟩ := inflateLoop_result hz (.start hbegin) h
      · cases hsuccess
      · obtain ⟨hadvertised, hsize, hpacket⟩ := inflateEnd_success hsuccess
        have hexpected : expectedSize packet ≤ primeMaxDecompressedFileSize := by
          unfold inflateBegin at hbegin
          obtain ⟨-, hbegin⟩ := check_eq_ok_iff.mp hbegin
          have hnot := (check_eq_ok_iff.mp hbegin).1
          omega
        refine ⟨fun _ => some out, ?_, fun out' heq => Option.some.inj heq ▸ hout⟩
        rw [hpacket]
        exact (if_pos hcompressed).trans
          (if_pos (decide_eq_true ⟨hexpected, hadvertised, hsize⟩))
  · have hbegin : inflateBegin z mem packet = .error ⟨none, packet⟩ :=
      if_pos (Bool.eq_false_iff.mpr hcompressed)
    rw [hbegin] at h
    cases h
    exact ⟨fun _ => none, if_neg hcompressed, nofun⟩

end Loop

/-! ## decoders -/

/-- Everything that is asked for is there. -/
def allMem : InflateMem := ⟨fun _ => true, fun _ => true, fun _ => true⟩

/-- The zlib stream of the letter A, in a stored block. -/
def letterStream : List UInt8 :=
  [0x78, 0x01, 0x01, 0x01, 0x00, 0xFE, 0xFF, 0x41, 0x00, 0x42, 0x00, 0x42]

/-- A packet with a zlib stream whose size is not advertised. -/
def streamPacket (stream : List UInt8) : List UInt8 :=
  [cmdPrimeRecvFile, 0x03, 0, 0, 0, 0, 0, 0, 0, 0] ++ stream

/-- What zlib does with the stream of a letter; every other input is an error. -/
def letterZlib : Zlib Unit where
  init := some ()
  inflate _ input room :=
    if input = letterStream ∧ 1 ≤ room then ⟨.streamEnd, 12, [0x41], ()⟩ else ⟨.error, 0, [], ()⟩

theorem letterZlib_bounded : letterZlib.Bounded := by
  constructor
  · intro s input room
    unfold letterZlib
    dsimp only
    split
    · next h =>
      rw [h.1]
      decide
    · exact Nat.zero_le _
  · intro s input room
    unfold letterZlib
    dsimp only
    split
    · next h => exact h.2
    · exact Nat.zero_le _

theorem letterZlib_progress : letterZlib.Progress := by
  intro s input room hcode
  unfold letterZlib at hcode
  dsimp only at hcode
  split at hcode <;> cases hcode

/-- The packet of the letter is inflated. -/
theorem inflateMessage_correct_letter :
    ∃ result, inflateMessage letterZlib allMem (2 ^ 27) (streamPacket letterStream) = some result
      ∧ result.Correct letterZlib allMem (streamPacket letterStream) := by
  obtain ⟨-, hcorrect, hreturns⟩ :=
    @inflateMessage_correct _ letterZlib allMem (streamPacket letterStream) letterZlib_bounded
  obtain ⟨result, hresult⟩ := hreturns letterZlib_progress (2 ^ 27) (by decide)
  exact ⟨result, hresult, hcorrect _ _ hresult⟩

/-- A decoder that says `Z_OK` and does nothing. -/
def idleZlib : Zlib Unit := ⟨some (), fun _ _ _ => ⟨.ok, 0, [], ()⟩⟩

theorem inflateMessage_idle (fuel : Nat) :
    inflateMessage idleZlib allMem fuel (streamPacket letterStream) = none := by
  have hbegin : inflateBegin idleZlib allMem (streamPacket letterStream)
      = .ok ⟨streamPacket letterStream, 4096, (), letterStream, []⟩ := rfl
  unfold inflateMessage
  rw [hbegin]
  dsimp only
  induction fuel with
  | zero => rfl
  | succ fuel ih =>
      unfold inflateLoop
      exact ih

/-- The message is inflated with every decoder that consumes and produces at most what it is
given. -/
def AllInflated : Prop :=
  ∀ (σ : Type) (z : Zlib σ) (mem : InflateMem) (packet : List UInt8), z.Bounded →
    ∃ fuel result, inflateMessage z mem fuel packet = some result
      ∧ result.Correct z mem packet

/-- The loop does not end when the decoder does nothing. -/
theorem not_allInflated : ¬AllInflated := by
  intro h
  have hbounded : idleZlib.Bounded := ⟨fun _ _ _ => Nat.zero_le _, fun _ _ _ => Nat.zero_le _⟩
  obtain ⟨fuel, result, hresult, -⟩ := h Unit idleZlib allMem (streamPacket letterStream) hbounded
  rw [inflateMessage_idle] at hresult
  cases hresult

end Tilibs.Prime
