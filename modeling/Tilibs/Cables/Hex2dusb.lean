import Tilibs.Cables.Summary
import Tilibs.Dusb.Raw
import Tilibs.Lib.Framing

/-!
# Tilibs.Cables.Hex2dusb

The decompiler for logs of the DUSB protocol (`hex2dusb.cc`): a state machine that takes the bytes
of raw packets one by one and writes what they are to a log.

The machine counts the bytes of a packet in its state.  It looks at the header of a continuation
fragment only when four of its bytes are there, and expects a byte behind the header of a first
fragment that announces any; shorter fragments leave it in the middle of a packet
(`dusbWrite_correct_iff`).
-/

namespace Tilibs.Cables

open Lib Dusb

/-! ## names -/

/-- `packets` -/
def packets : List (UInt8 × String) :=
  [(0x01, "Buffer Size Request"),
    (0x02, "Buffer Size Allocation"),
    (0x03, "Virtual Packet Data with Continuation"),
    (0x04, "Virtual Packet Data Final"),
    (0x05, "Virtual Packet Data Acknowledgement")]

/-- `opcodes` -/
def opcodes : List (UInt16 × String) :=
  [(0x0001, "Ping / Set Mode"),
    (0x0002, "Begin OS Transfer"),
    (0x0003, "Acknowledgement of OS Transfer"),
    (0x0004, "OS Header"),
    (0x0005, "OS Data"),
    (0x0006, "Acknowledgement of EOT"),
    (0x0007, "Parameter Request"),
    (0x0008, "Parameter Data"),
    (0x0009, "Request Directory Listing"),
    (0x000A, "Variable Header"),
    (0x000B, "Request to Send"),
    (0x000C, "Request Variable"),
    (0x000D, "Variable Contents"),
    (0x000E, "Parameter Set"),
    (0x0010, "Modify Variable"),
    (0x0011, "Remote Control"),
    (0x0012, "Acknowledgement of Mode Setting"),
    (0xAA00, "Acknowledgement of Data"),
    (0xBB00, "Acknowledgement of Parameter Request"),
    (0xDD00, "End of Transmission"),
    (0xEE00, "Error")]

def nameOfPacket (id : UInt8) : String := (packets.lookup id).getD ""

def nameOfData (id : UInt16) : String := (opcodes.lookup id).getD "unknown"

def epWay (ep : Nat) : String :=
  if ep = 0x01 then "TI>PC" else if ep = 0x02 then "PC>TI" else "XX>XX"

/-! ## the machine -/

/-- What is written to the log: the values of a `fprintf`. -/
inductive LogItem
  | rawSize (size : Nat)
  | rawType (type : UInt8)
  | packet (way name : String)
  | ack (code : UInt16)
  | bufSize (size : Nat)
  | vtlSize (size : Nat)
  | three (a b c : UInt8)
  | vtlType (type : UInt16)
  | command (name : String)
  | byte (b : UInt8)
  | indent
  | newline
  deriving DecidableEq

/-- The static variables of `dusb_write`, the tables, and the log, last item first. -/
structure Hex2dusb where
  array : Nat → UInt8
  i : Nat
  state : Nat
  rawSize : Nat
  rawType : UInt8
  vtlSize : Nat
  vtlType : UInt16
  cnt : Nat
  first : Bool
  types : FoundTable UInt8
  codes : FoundTable UInt16
  log : List LogItem

/-- The values at the start of the program. -/
def Hex2dusb.start : Hex2dusb where
  array := fun _ => 0
  i := 0
  state := 1
  rawSize := 0
  rawType := 0
  vtlSize := 0
  vtlType := 0
  cnt := 0
  first := true
  types := FoundTable.start
  codes := FoundTable.start
  log := []

/-- An `int` is counted up; that it overflows is undefined. -/
def incr (n : Nat) : Option Nat := if n + 1 < 2 ^ 31 then some (n + 1) else none

/-- A `uint32_t` is counted down. -/
def sub32 (n k : Nat) : Nat := (n + (2 ^ 32 - k)) % 2 ^ 32

def uint32At (array : Nat → UInt8) (k : Nat) : Nat :=
  getBE [array k, array (k + 1), array (k + 2), array (k + 3)]

def uint16At (array : Nat → UInt8) (k : Nat) : UInt16 :=
  UInt16.ofNat (getBE [array k, array (k + 1)])

/-- The part behind the label `push`. -/
def push (s : Hex2dusb) (data : UInt8) : Option Hex2dusb := do
  let cnt ← incr s.cnt
  let log := if cnt % 12 = 0 then .indent :: .byte data :: s.log else .byte data :: s.log
  let rawSize := sub32 s.rawSize 1
  if rawSize = 0 then some { s with cnt, rawSize, log := .newline :: log, state := 0 }
  else some { s with cnt, rawSize, log }

/-- The cases of the state. -/
def dusbState (dir : Nat) (s : Hex2dusb) (data : UInt8) : Option Hex2dusb :=
  match s.state with
  | 1 | 2 | 3 | 6 | 8 | 10 => some s
  | 4 =>
      let rawSize := uint32At s.array 0
      some { s with rawSize, log := .rawSize rawSize :: s.log }
  | 5 =>
      let rawType := s.array 4
      some { s with
        rawType
        types := (addPktType s.types rawType).2
        log := .packet (epWay dir) (nameOfPacket rawType) :: .rawType rawType :: s.log }
  | 7 =>
      if s.rawType = 5 then
        some { s with log := .ack (uint16At s.array 5) :: s.log, state := 0 }
      else some s
  | 9 =>
      if s.rawType = 1 ∨ s.rawType = 2 then
        some { s with log := .bufSize (uint32At s.array 5) :: s.log, state := 0 }
      else if s.first = true ∧ (s.rawType = 3 ∨ s.rawType = 4) then
        let vtlSize := uint32At s.array 5
        some { s with
          vtlSize
          log := .vtlSize vtlSize :: s.log
          cnt := 0
          first := decide (s.rawType ≠ 3)
          rawSize := sub32 s.rawSize 6 }
      else if s.first = false ∧ (s.rawType = 3 ∨ s.rawType = 4) then
        push
          { s with
            log := .three (s.array 5) (s.array 6) (s.array 7) :: s.log
            cnt := 3
            rawSize := sub32 s.rawSize 3
            first := decide (s.rawType ≠ 3)
            state := 12 }
          data
      else some s
  | 11 =>
      let vtlType := uint16At s.array 9
      let s := { s with
        vtlType
        codes := (addDataCode s.codes vtlType).2
        log := .command (nameOfData vtlType) :: .vtlType vtlType :: s.log }
      if s.vtlSize = 0 then some { s with log := .newline :: s.log, state := 0 } else some s
  | _ => push s data

/-- What is behind the cases: a packet that has ended begins the next one. -/
def endState (s : Hex2dusb) : Hex2dusb :=
  if s.state = 0 then { s with log := .newline :: s.log, i := 0, state := 1 }
  else { s with state := s.state + 1 }

/-- The array with a byte stored. -/
def store (array : Nat → UInt8) (n : Nat) (data : UInt8) : Nat → UInt8 :=
  fun k => if k = n then data else array k

/-- `dusb_write` -/
def dusbWrite (dir : Nat) (s : Hex2dusb) (data : UInt8) : Option Hex2dusb := do
  let i ← incr s.i
  let s ← dusbState dir { s with array := store s.array (s.i % 16) data, i } data
  return endState s

/-- The machine is in its start state. -/
def Hex2dusb.Home (s : Hex2dusb) : Prop := s.state = 1

/-! ## packets -/

/-- A raw packet of a log. -/
inductive RawPacket
  | bufSize (alloc : Bool) (size : UInt32)
  | ack (code : UInt16)
  | first (final : Bool) (size : UInt32) (type : UInt16) (data : List UInt8)
  | more (final : Bool) (data : List UInt8)
  deriving DecidableEq

/-- The type of a fragment. -/
def fragmentType (final : Bool) : UInt8 := if final then dusbRpktVirtDataLast else dusbRpktVirtData

def RawPacket.type : RawPacket → UInt8
  | .bufSize alloc _ => if alloc then dusbRpktBufSizeAlloc else dusbRpktBufSizeReq
  | .ack _ => dusbRpktVirtDataAck
  | .first final .. => fragmentType final
  | .more final _ => fragmentType final

def RawPacket.payload : RawPacket → List UInt8
  | .bufSize _ size => putBE 4 size.toNat
  | .ack code => putBE 2 code.toNat
  | .first _ size type data => putBE 4 size.toNat ++ (putBE 2 type.toNat ++ data)
  | .more _ data => data

/-- The bytes of a packet in the log. -/
def RawPacket.bytes (p : RawPacket) : List UInt8 := rawBytes p.type p.payload

/-- The data code of the message that the packet begins. -/
def RawPacket.code : RawPacket → Option UInt16
  | .first _ _ type _ => some type
  | _ => none

/-- The packet may follow when `left` bytes of a message are to come; `none` is between messages. -/
inductive RawPacket.Follows : Option Nat → RawPacket → Option Nat → Prop
  | bufSize {left : Option Nat} {alloc : Bool} {size : UInt32} :
      Follows left (.bufSize alloc size) left
  | ack {left : Option Nat} {code : UInt16} : Follows left (.ack code) left
  | whole {size : UInt32} {type : UInt16} {data : List UInt8} :
      data.length = size.toNat → data.length + 6 < 2 ^ 32 →
      Follows none (.first true size type data) none
  | first {size : UInt32} {type : UInt16} {data : List UInt8} :
      data.length < size.toNat → data.length + 6 < 2 ^ 32 →
      Follows none (.first false size type data) (some (size.toNat - data.length))
  | last {left : Nat} {data : List UInt8} :
      data ≠ [] → data.length = left → data.length < 2 ^ 32 →
      Follows (some left) (.more true data) none
  | more {left : Nat} {data : List UInt8} :
      data ≠ [] → data.length < left → data.length < 2 ^ 32 →
      Follows (some left) (.more false data) (some (left - data.length))

/-- The packets of a log, from a place where `left` bytes of a message are to come. -/
inductive WellFormed : Option Nat → List RawPacket → Prop
  | nil {left : Option Nat} : WellFormed left []
  | cons {left left' : Option Nat} {p : RawPacket} {ps : List RawPacket} :
      p.Follows left left' → WellFormed left' ps → WellFormed left (p :: ps)

/-- The bytes of the payload that an item shows. -/
def LogItem.payload : LogItem → List UInt8
  | .ack code => putBE 2 code.toNat
  | .bufSize size | .vtlSize size => putBE 4 size
  | .three a b c => [a, b, c]
  | .vtlType type => putBE 2 type.toNat
  | .byte b => [b]
  | _ => []

/-- The bytes of payloads that are printed, in order. -/
def Hex2dusb.printed (s : Hex2dusb) : List UInt8 := s.log.reverse.flatMap LogItem.payload

/-- The machine is in its start state exactly where a packet ends, and prints the payloads. -/
def Decompiles (dir : Nat) (ps : List RawPacket) : Prop :=
  Synchronised (dusbWrite dir) Hex2dusb.Home Hex2dusb.start (ps.map RawPacket.bytes) ∧
    ∃ s, ((ps.map RawPacket.bytes).flatten).foldlM (dusbWrite dir) Hex2dusb.start = some s
      ∧ s.printed = ps.flatMap RawPacket.payload

/-- A packet that the machine does not lose: a continuation has four bytes or more, and a first
fragment has data if the message has; the bytes of a packet are counted in an `int`. -/
def RawPacket.InStep (p : RawPacket) : Prop :=
  p.bytes.length < 2 ^ 31 ∧
    match p with
    | .bufSize .. | .ack _ => True
    | .first _ size _ data => size = 0 ∨ data ≠ []
    | .more _ data => 4 ≤ data.length

/-! ## the steps -/

section Steps

variable {dir : Nat} {s t u : Hex2dusb}

theorem incr_of_lt {n : Nat} (h : n + 1 < 2 ^ 31) : incr n = some (n + 1) := if_pos h

theorem sub32_of_le {n k : Nat} (hpos : 0 < k) (hle : k ≤ n) (hlt : n < 2 ^ 32) :
    sub32 n k = n - k := by
  unfold sub32
  omega

/-- What the machine keeps to the end of a packet, with the bytes that it shows. -/
structure Hex2dusb.Ends (s t : Hex2dusb) (shown : List UInt8) : Prop where
  state : t.state = 1
  i : t.i = 0
  first : t.first = s.first
  types : t.types = s.types
  codes : t.codes = s.codes
  printed : t.printed = s.printed ++ shown

theorem printed_cons (item : LogItem) (log : List LogItem) (h : s.log = item :: log) :
    s.printed = { s with log }.printed ++ item.payload := by
  unfold Hex2dusb.printed
  rw [h, List.reverse_cons, List.flatMap_append, List.flatMap_singleton]

/-- A byte that is stored and no more. -/
def Hex2dusb.next (s : Hex2dusb) (data : UInt8) : Hex2dusb :=
  { s with array := store s.array (s.i % 16) data, i := s.i + 1, state := s.state + 1 }

theorem dusbWrite_eq {data : UInt8} (hi : s.i + 1 < 2 ^ 31) : dusbWrite dir s data
    = (dusbState dir { s with array := store s.array (s.i % 16) data, i := s.i + 1 } data).map
        endState := by
  unfold dusbWrite
  rw [incr_of_lt hi]
  exact Option.map_eq_bind.symm

/-- The counter of the bytes and the state. -/
structure Hex2dusb.At (s : Hex2dusb) (i state : Nat) : Prop where
  i : s.i = i
  state : s.state = state

theorem Hex2dusb.At.next {i n : Nat} (h : s.At i n) (data : UInt8) :
    (s.next data).At (i + 1) (n + 1) :=
  ⟨congrArg (· + 1) h.i, congrArg (· + 1) h.state⟩

theorem Hex2dusb.At.not_home {i n : Nat} (h : s.At i n) (hn : n ≠ 1) : ¬s.Home :=
  fun hhome => hn (h.state.symm.trans hhome)

/-- In these states nothing happens. -/
theorem write_skip {data : UInt8} {i n : Nat} (h : s.At i n) (hi : i + 1 < 2 ^ 31)
    (hn : n ∈ [1, 2, 3, 6, 8, 10]) : dusbWrite dir s data = some (s.next data) := by
  rw [dusbWrite_eq (by rw [h.i]; exact hi)]
  obtain ⟨array, i, state, rawSize, rawType, vtlSize, vtlType, cnt, first, types, codes, log⟩ := s
  obtain ⟨rfl, rfl⟩ := h
  dsimp only at hn
  fin_cases hn <;> rfl

theorem write_four {data : UInt8} {i : Nat} (h : s.At i 4) (hi : i + 1 < 2 ^ 31) :
    dusbWrite dir s data = some
      { s.next data with
        rawSize := uint32At (s.next data).array 0
        log := .rawSize (uint32At (s.next data).array 0) :: s.log } := by
  rw [dusbWrite_eq (by rw [h.i]; exact hi)]
  obtain ⟨array, i, state, rawSize, rawType, vtlSize, vtlType, cnt, first, types, codes, log⟩ := s
  obtain ⟨rfl, rfl⟩ := h
  rfl

theorem write_five {data : UInt8} (h : s.At 4 5) :
    dusbWrite dir s data = some
      { s.next data with
        rawType := data
        types := (addPktType s.types data).2
        log := .packet (epWay dir) (nameOfPacket data) :: .rawType data :: s.log } := by
  rw [dusbWrite_eq (by rw [h.i]; decide)]
  obtain ⟨array, i, state, rawSize, rawType, vtlSize, vtlType, cnt, first, types, codes, log⟩ := s
  obtain ⟨rfl, rfl⟩ := h
  rfl

theorem write_seven {data : UInt8} {i : Nat} (h : s.At i 7) (hi : i + 1 < 2 ^ 31) :
    dusbWrite dir s data = some (if s.rawType = 5 then
      { s.next data with
        i := 0
        state := 1
        log := .newline :: .ack (uint16At (s.next data).array 5) :: s.log }
      else s.next data) := by
  rw [dusbWrite_eq (by rw [h.i]; exact hi)]
  obtain ⟨array, i, state, rawSize, rawType, vtlSize, vtlType, cnt, first, types, codes, log⟩ := s
  obtain ⟨rfl, rfl⟩ := h
  unfold dusbState
  dsimp only
  by_cases htype : rawType = 5
  · rw [if_pos htype, if_pos htype]
    rfl
  · rw [if_neg htype, if_neg htype]
    rfl

theorem write_nine_bufSize {data : UInt8} {i : Nat} (h : s.At i 9) (hi : i + 1 < 2 ^ 31)
    (htype : s.rawType = 1 ∨ s.rawType = 2) : dusbWrite dir s data = some
      { s.next data with
        i := 0
        state := 1
        log := .newline :: .bufSize (uint32At (s.next data).array 5) :: s.log } := by
  rw [dusbWrite_eq (by rw [h.i]; exact hi)]
  obtain ⟨array, i, state, rawSize, rawType, vtlSize, vtlType, cnt, first, types, codes, log⟩ := s
  obtain ⟨rfl, rfl⟩ := h
  unfold dusbState
  dsimp only
  rw [if_pos htype]
  rfl

theorem write_nine_first {data : UInt8} {i : Nat} (h : s.At i 9) (hi : i + 1 < 2 ^ 31)
    {final : Bool} (htype : s.rawType = fragmentType final) (hfirst : s.first = true) :
    dusbWrite dir s data = some
      { s.next data with
        vtlSize := uint32At (s.next data).array 5
        log := .vtlSize (uint32At (s.next data).array 5) :: s.log
        cnt := 0
        first := final
        rawSize := sub32 s.rawSize 6 } := by
  rw [dusbWrite_eq (by rw [h.i]; exact hi)]
  obtain ⟨array, i, state, rawSize, rawType, vtlSize, vtlType, cnt, first, types, codes, log⟩ := s
  obtain ⟨rfl, rfl⟩ := h
  obtain rfl : first = true := hfirst
  obtain rfl : rawType = fragmentType final := htype
  cases final <;> rfl

theorem write_eleven {data : UInt8} {i : Nat} (h : s.At i 11) (hi : i + 1 < 2 ^ 31) :
    dusbWrite dir s data = some (
      let vtlType := uint16At (s.next data).array 9
      let t := { s.next data with
        vtlType
        codes := (addDataCode s.codes vtlType).2
        log := .command (nameOfData vtlType) :: .vtlType vtlType :: s.log }
      if s.vtlSize = 0 then
        { t with i := 0, state := 1, log := .newline :: .newline :: t.log }
      else t) := by
  rw [dusbWrite_eq (by rw [h.i]; exact hi)]
  obtain ⟨array, i, state, rawSize, rawType, vtlSize, vtlType, cnt, first, types, codes, log⟩ := s
  obtain ⟨rfl, rfl⟩ := h
  unfold dusbState
  dsimp only
  by_cases hsize : vtlSize = 0
  · rw [if_pos hsize, if_pos hsize]
    rfl
  · rw [if_neg hsize, if_neg hsize]
    rfl

/-- The fourth byte of a continuation is its first byte of data. -/
theorem write_nine_more {data : UInt8} (h : s.At 8 9) {final : Bool}
    (htype : s.rawType = fragmentType final) (hfirst : s.first = false) :
    dusbWrite dir s data = dusbWrite dir
      { s with
        log := .three (s.array 5) (s.array 6) (s.array 7) :: s.log
        cnt := 3
        rawSize := sub32 s.rawSize 3
        first := final
        state := 12 } data := by
  obtain ⟨array, i, state, rawSize, rawType, vtlSize, vtlType, cnt, first, types, codes, log⟩ := s
  obtain ⟨rfl, rfl⟩ := h
  obtain rfl : first = false := hfirst
  obtain rfl : rawType = fragmentType final := htype
  cases final <;> rfl

theorem push_eq {data : UInt8} (hcnt : s.cnt + 1 < 2 ^ 31) :
    ∃ log, { s with log }.printed = s.printed ++ [data] ∧ push s data = some (
      if sub32 s.rawSize 1 = 0 then
        { s with cnt := s.cnt + 1, rawSize := 0, log := .newline :: log, state := 0 }
      else { s with cnt := s.cnt + 1, rawSize := sub32 s.rawSize 1, log }) := by
  refine ⟨if (s.cnt + 1) % 12 = 0 then .indent :: .byte data :: s.log else .byte data :: s.log,
    ?_, ?_⟩
  · by_cases hline : (s.cnt + 1) % 12 = 0
    · rw [if_pos hline, printed_cons _ _ rfl, printed_cons _ _ rfl]
      exact List.append_nil _
    · rw [if_neg hline, printed_cons _ _ rfl]
      rfl
  · unfold push
    rw [incr_of_lt hcnt, Option.bind_eq_bind, Option.bind_some]
    by_cases hsize : sub32 s.rawSize 1 = 0
    · rw [if_pos hsize, if_pos hsize, hsize]
    · rw [if_neg hsize, if_neg hsize]

theorem dusbState_data {data : UInt8} (hstate : 12 ≤ s.state) :
    dusbState dir s data = push s data := by
  obtain ⟨n, hn⟩ := Nat.exists_eq_add_of_le' hstate
  unfold dusbState
  rw [hn]
  rfl

/-- A byte of data. -/
theorem write_data {data : UInt8} (hi : s.i + 1 < 2 ^ 31) (hcnt : s.cnt + 1 < 2 ^ 31)
    (hstate : 12 ≤ s.state) : ∃ log, { s with log }.printed = s.printed ++ [data] ∧
      dusbWrite dir s data = some (
        if sub32 s.rawSize 1 = 0 then
          { s.next data with
            cnt := s.cnt + 1
            rawSize := 0
            i := 0
            state := 1
            log := .newline :: .newline :: log }
        else { s.next data with cnt := s.cnt + 1, rawSize := sub32 s.rawSize 1, log }) := by
  obtain ⟨log, hprinted, hstep⟩ := @push_eq
    { s with array := store s.array (s.i % 16) data, i := s.i + 1 } data hcnt
  refine ⟨log, hprinted, ?_⟩
  rw [dusbWrite_eq hi, dusbState_data (by exact hstate), hstep]
  by_cases hsize : sub32 s.rawSize 1 = 0
  · rw [if_pos hsize]
    dsimp only
    rw [if_pos hsize]
    rfl
  · rw [if_neg hsize]
    dsimp only
    rw [if_neg hsize]
    unfold endState
    refine congrArg some (if_neg ?_)
    dsimp only
    omega

variable (dir)

/-- The data of a fragment, to its end. -/
theorem data_trip {data : List UInt8} (hne : data ≠ []) (hstate : 12 ≤ s.state)
    (hsize : s.rawSize = data.length) (hlt : data.length < 2 ^ 32)
    (hi : s.i + data.length < 2 ^ 31) (hcnt : s.cnt + data.length < 2 ^ 31) :
    ∃ t, Trip (dusbWrite dir) Hex2dusb.Home s data t ∧ s.Ends t data := by
  induction data generalizing s with
  | nil => exact absurd rfl hne
  | cons b bs ih =>
      rw [List.length_cons] at hsize hlt hi hcnt
      have hless : sub32 s.rawSize 1 = bs.length := by
        rw [sub32_of_le Nat.one_pos (by omega) (by omega), hsize]
        rfl
      obtain ⟨log, hprinted, hstep⟩ := @write_data dir s b (by omega) (by omega) hstate
      rw [hless] at hstep
      by_cases hbs : bs = []
      · subst hbs
        rw [if_pos List.length_nil] at hstep
        refine ⟨_, .last hstep, rfl, rfl, rfl, rfl, rfl, ?_⟩
        rw [printed_cons _ _ rfl, printed_cons _ _ rfl, ← hprinted]
        exact (List.append_nil _).trans (List.append_nil _)
      · rw [if_neg (fun hnil => hbs (List.length_eq_zero_iff.mp hnil))] at hstep
        obtain ⟨t, htrip, hends⟩ := @ih
          { s.next b with cnt := s.cnt + 1, rawSize := bs.length, log } hbs
          (Nat.le_succ_of_le hstate) rfl (by omega)
          (show s.i + 1 + bs.length < 2 ^ 31 by omega)
          (show s.cnt + 1 + bs.length < 2 ^ 31 by omega)
        refine ⟨t, .cons hstep ?_ htrip, hends.state, hends.i, hends.first, hends.types,
          hends.codes, ?_⟩
        · show ¬s.state + 1 = 1
          omega
        · have hlog : { s.next b with cnt := s.cnt + 1, rawSize := bs.length, log }.printed
              = s.printed ++ [b] := hprinted
          rw [hends.printed, hlog, List.append_assoc]
          rfl

/-! ## the trips over the packets -/

theorem putBE_uint16At {array : Nat → UInt8} (k : Nat) :
    putBE 2 (uint16At array k).toNat = [array k, array (k + 1)] := by
  have hlt : getBE [array k, array (k + 1)] < 2 ^ 16 := (getBE_lt _).trans_le (by simp)
  unfold uint16At
  rw [UInt16.toNat_ofNat', Nat.mod_eq_of_lt hlt]
  exact putBE_getBE [array k, array (k + 1)]

theorem putBE_uint32At {array : Nat → UInt8} (k : Nat) :
    putBE 4 (uint32At array k) = [array k, array (k + 1), array (k + 2), array (k + 3)] :=
  putBE_getBE [array k, array (k + 1), array (k + 2), array (k + 3)]

/-- The state behind the header of a packet. -/
structure Hex2dusb.Header (s : Hex2dusb) (type : UInt8) (size : Nat) : Prop extends s.At 5 6 where
  rawType : s.rawType = type
  rawSize : s.rawSize = size

/-- The header of a packet. -/
theorem header_trip (h : s.At 0 1) (type : UInt8) {size : Nat}
    (hsize : size < 2 ^ 32) : ∃ t, Trip (dusbWrite dir) Hex2dusb.Home s (putBE 4 size ++ [type]) t
      ∧ t.Header type size ∧ t.first = s.first ∧ t.types = (addPktType s.types type).2
      ∧ t.codes = s.codes ∧ t.printed = s.printed := by
  have hget := getBE_putBE (show size < 256 ^ 4 from hsize)
  obtain ⟨b₀, b₁, b₂, b₃, hbytes⟩ : ∃ b₀ b₁ b₂ b₃, putBE 4 size = [b₀, b₁, b₂, b₃] :=
    ⟨_, _, _, _, rfl⟩
  rw [hbytes] at hget ⊢
  have h₁ := h.next b₀
  have h₂ := h₁.next b₁
  have h₃ := h₂.next b₂
  have h₄ := h₃.next b₃
  refine ⟨_, .cons (write_skip h (by decide) (by decide)) (h₁.not_home (by decide))
    (.cons (write_skip h₁ (by decide) (by decide)) (h₂.not_home (by decide))
    (.cons (write_skip h₂ (by decide) (by decide)) (h₃.not_home (by decide))
    (.cons (write_four h₃ (by decide)) ?_ (.last (write_five ?_))))),
    ⟨⟨?_, ?_⟩, rfl, ?_⟩, rfl, rfl, rfl, ?_⟩
  · exact h₄.not_home (by decide)
  · exact ⟨h₄.i, h₄.state⟩
  · exact congrArg (· + 1) h₄.i
  · exact congrArg (· + 1) h₄.state
  · unfold Hex2dusb.next store uint32At
    dsimp only
    rw [h.i]
    exact hget
  · rw [printed_cons _ _ rfl, printed_cons _ _ rfl, printed_cons _ _ rfl]
    exact (List.append_nil _).trans ((List.append_nil _).trans (List.append_nil _))

section Payload

variable {type : UInt8} {size : Nat}

theorem ack_trip (h : s.Header 5 size) (x₀ x₁ : UInt8) :
    ∃ t, Trip (dusbWrite dir) Hex2dusb.Home s [x₀, x₁] t ∧ s.Ends t [x₀, x₁] := by
  have h₁ := h.toAt.next x₀
  have hstep := @write_seven dir (s.next x₀) x₁ _ h₁ (by decide)
  rw [if_pos (show (s.next x₀).rawType = 5 from h.rawType)] at hstep
  refine ⟨_, .cons (write_skip h.toAt (by decide) (by decide)) (h₁.not_home (by decide))
    (.last hstep), rfl, rfl, rfl, rfl, rfl, ?_⟩
  rw [printed_cons _ _ rfl, printed_cons _ _ rfl]
  show s.printed ++ putBE 2 (uint16At _ 5).toNat ++ [] = _
  rw [putBE_uint16At, List.append_nil]
  unfold Hex2dusb.next store
  dsimp only
  rw [h.i]
  rfl

/-- Three bytes of a payload, which tell nothing yet. -/
theorem three_trip (h : s.At 5 6) (htype : s.rawType ≠ 5) (x₀ x₁ x₂ : UInt8) :
    Trip (dusbWrite dir) Hex2dusb.Home s [x₀, x₁, x₂] (((s.next x₀).next x₁).next x₂) := by
  have h₁ := h.next x₀
  have h₂ := h₁.next x₁
  have hstep := @write_seven dir (s.next x₀) x₁ _ h₁ (by decide)
  rw [if_neg (show (s.next x₀).rawType ≠ 5 from htype)] at hstep
  exact .cons (write_skip h (by decide) (by decide)) (h₁.not_home (by decide))
    (.cons hstep (h₂.not_home (by decide)) (.last (write_skip h₂ (by decide) (by decide))))

/-- What the array holds behind four bytes of a payload. -/
theorem array_of_four (h : s.At 5 6) (x₀ x₁ x₂ x₃ : UInt8) :
    let t := (((s.next x₀).next x₁).next x₂).next x₃
    t.array 5 = x₀ ∧ t.array 6 = x₁ ∧ t.array 7 = x₂ ∧ t.array 8 = x₃ := by
  unfold Hex2dusb.next store
  dsimp only
  rw [h.i]
  exact ⟨rfl, rfl, rfl, rfl⟩

theorem array_of_three (h : s.At 5 6) (x₀ x₁ x₂ : UInt8) :
    let t := ((s.next x₀).next x₁).next x₂
    t.array 5 = x₀ ∧ t.array 6 = x₁ ∧ t.array 7 = x₂ := by
  unfold Hex2dusb.next store
  dsimp only
  rw [h.i]
  exact ⟨rfl, rfl, rfl⟩

theorem fragmentType_ne (final : Bool) : fragmentType final ≠ 5 := by
  cases final <;> decide

theorem bufSize_trip (h : s.Header type size) (htype : type = 1 ∨ type = 2)
    (x₀ x₁ x₂ x₃ : UInt8) : ∃ t, Trip (dusbWrite dir) Hex2dusb.Home s [x₀, x₁, x₂, x₃] t
      ∧ s.Ends t [x₀, x₁, x₂, x₃] := by
  have hne : s.rawType ≠ 5 := by
    rw [h.rawType]
    rcases htype with rfl | rfl <;> decide
  have h₃ := ((h.toAt.next x₀).next x₁).next x₂
  obtain ⟨h5, h6, h7, h8⟩ := array_of_four h.toAt x₀ x₁ x₂ x₃
  have hstep := @write_nine_bufSize dir (((s.next x₀).next x₁).next x₂) x₃ _ h₃ (by decide)
    (show s.rawType = 1 ∨ s.rawType = 2 from h.rawType.symm ▸ htype)
  refine ⟨_, (three_trip dir h.toAt hne x₀ x₁ x₂).append (h₃.not_home (by decide)) (.last hstep),
    rfl, rfl, rfl, rfl, rfl, ?_⟩
  rw [printed_cons _ _ rfl, printed_cons _ _ rfl]
  show s.printed ++ putBE 4 (uint32At _ 5) ++ [] = _
  rw [putBE_uint32At, List.append_nil, h5, h6, h7, h8]

theorem uint16At_putBE {array : Nat → UInt8} {k : Nat} (code : UInt16)
    (h : [array k, array (k + 1)] = putBE 2 code.toNat) : uint16At array k = code := by
  unfold uint16At
  rw [h, getBE_putBE (show code.toNat < 256 ^ 2 from code.toNat_lt), UInt16.ofNat_toNat]

/-- The size in the data header of a first fragment. -/
theorem vtlSize_trip {final : Bool} (h : s.Header (fragmentType final) size)
    (hfirst : s.first = true) (length : UInt32) :
    ∃ t, Trip (dusbWrite dir) Hex2dusb.Home s (putBE 4 length.toNat) t
      ∧ t.At 9 10 ∧ t.vtlSize = length.toNat ∧ t.cnt = 0 ∧ t.rawSize = sub32 size 6
      ∧ t.first = final ∧ t.types = s.types ∧ t.codes = s.codes
      ∧ t.printed = s.printed ++ putBE 4 length.toNat := by
  have hget := getBE_putBE (show length.toNat < 256 ^ 4 from length.toNat_lt)
  obtain ⟨x₀, x₁, x₂, x₃, hlength⟩ : ∃ x₀ x₁ x₂ x₃, putBE 4 length.toNat = [x₀, x₁, x₂, x₃] :=
    ⟨_, _, _, _, rfl⟩
  have hne : s.rawType ≠ 5 := h.rawType ▸ fragmentType_ne final
  have h₃ := ((h.toAt.next x₀).next x₁).next x₂
  have h₄ := h₃.next x₃
  obtain ⟨h5, h6, h7, h8⟩ := array_of_four h.toAt x₀ x₁ x₂ x₃
  have hnine := @write_nine_first dir (((s.next x₀).next x₁).next x₂) x₃ _ h₃ (by decide) final
    h.rawType hfirst
  have hsize : uint32At ((((s.next x₀).next x₁).next x₂).next x₃).array 5 = length.toNat := by
    rw [← hget, hlength]
    unfold uint32At
    rw [h5, h6, h7, h8]
  rw [hsize] at hnine
  have htrip := (three_trip dir h.toAt hne x₀ x₁ x₂).append (h₃.not_home (by decide))
    (.last hnine)
  rw [show [x₀, x₁, x₂] ++ [x₃] = putBE 4 length.toNat from hlength.symm] at htrip
  exact ⟨_, htrip, ⟨h₄.i, h₄.state⟩, rfl, rfl, congrArg (sub32 · 6) h.rawSize, rfl, rfl, rfl,
    (printed_cons _ _ rfl).trans rfl⟩

/-- The type in it: the machine is at home behind it when no data is announced. -/
theorem vtlType_trip (h : s.At 9 10) (code : UInt16) :
    ∃ t, Trip (dusbWrite dir) Hex2dusb.Home s (putBE 2 code.toNat) t
      ∧ t.cnt = s.cnt ∧ t.rawSize = s.rawSize ∧ t.first = s.first ∧ t.types = s.types
      ∧ t.codes = (addDataCode s.codes code).2
      ∧ t.printed = s.printed ++ putBE 2 code.toNat
      ∧ if s.vtlSize = 0 then t.At 0 1 else t.At 11 12 := by
  obtain ⟨x₀, x₁, hcode⟩ : ∃ x₀ x₁, putBE 2 code.toNat = [x₀, x₁] := ⟨_, _, rfl⟩
  have h₁ := h.next x₀
  have h₂ := h₁.next x₁
  have htype : uint16At ((s.next x₀).next x₁).array 9 = code := by
    refine uint16At_putBE code ?_
    rw [hcode]
    unfold Hex2dusb.next store
    dsimp only
    rw [h.i]
    rfl
  have hstep := @write_eleven dir (s.next x₀) x₁ _ h₁ (by decide)
  dsimp only at hstep
  rw [htype] at hstep
  have hskip := @write_skip dir s x₀ _ _ h (by decide) (by decide)
  have htrip := Trip.cons hskip (h₁.not_home (by decide)) (.last hstep)
  refine ⟨_, hcode ▸ htrip, ?_⟩
  show _ ∧ _
  by_cases hsize : s.vtlSize = 0
  · rw [if_pos (show (s.next x₀).vtlSize = 0 from hsize), if_pos hsize]
    refine ⟨rfl, rfl, rfl, rfl, rfl, ?_, rfl, rfl⟩
    rw [printed_cons _ _ rfl, printed_cons _ _ rfl, printed_cons _ _ rfl, printed_cons _ _ rfl]
    exact (List.append_nil _).trans ((List.append_nil _).trans (List.append_nil _))
  · rw [if_neg (show ¬(s.next x₀).vtlSize = 0 from hsize), if_neg hsize]
    refine ⟨rfl, rfl, rfl, rfl, rfl, ?_, h₂.i, h₂.state⟩
    rw [printed_cons _ _ rfl, printed_cons _ _ rfl]
    exact List.append_nil _

/-- The payload of a first fragment that has data exactly when the message has. -/
theorem first_trip {final : Bool} {data : List UInt8} (h : s.Header (fragmentType final) size)
    (hfirst : s.first = true) (length : UInt32) (code : UInt16)
    (hdata : data = [] ↔ length = 0) (hsize : size = data.length + 6)
    (hlt : data.length + 11 < 2 ^ 31) :
    ∃ t, Trip (dusbWrite dir) Hex2dusb.Home s
        (putBE 4 length.toNat ++ (putBE 2 code.toNat ++ data)) t
      ∧ t.At 0 1 ∧ t.first = final ∧ t.types = s.types
      ∧ t.codes = (addDataCode s.codes code).2
      ∧ t.printed = s.printed ++ (putBE 4 length.toNat ++ (putBE 2 code.toNat ++ data)) := by
  obtain ⟨t, htrip, ht, hvtl, hcnt, hraw, htfirst, htypes, hcodes, hprinted⟩ :=
    vtlSize_trip dir h hfirst length
  obtain ⟨u, hcode, hucnt, huraw, hufirst, hutypes, hucodes, huprinted, hu⟩ :=
    vtlType_trip dir ht code
  have hheader := htrip.append (ht.not_home (by decide)) hcode
  rw [hprinted, List.append_assoc] at huprinted
  by_cases hlength : length = 0
  · have hnone : data = [] := hdata.mpr hlength
    subst hnone
    rw [if_pos (by rw [hvtl, hlength]; rfl)] at hu
    rw [List.append_nil]
    exact ⟨u, hheader, hu, hufirst.trans htfirst, hutypes.trans htypes, hcodes ▸ hucodes, huprinted⟩
  · have hannounced : t.vtlSize ≠ 0 := fun hzero =>
      hlength (UInt32.toNat_inj.mp (hvtl.symm.trans hzero))
    rw [if_neg hannounced] at hu
    have hsub : u.rawSize = data.length := by
      rw [huraw, hraw, sub32_of_le (by decide) (by omega) (by omega), hsize]
      rfl
    obtain ⟨v, hrest, hends⟩ := data_trip dir (fun hnil => hlength (hdata.mp hnil))
      hu.state.ge hsub (by omega) (by rw [hu.i]; omega) (by rw [hucnt, hcnt]; omega)
    refine ⟨v, ?_, ⟨hends.i, hends.state⟩, hends.first.trans (hufirst.trans htfirst),
      hends.types.trans (hutypes.trans htypes), ?_, ?_⟩
    · rw [← List.append_assoc]
      exact hheader.append (hu.not_home (by decide)) hrest
    · rw [hends.codes, hucodes, hcodes]
    · rw [hends.printed, huprinted]
      simp only [List.append_assoc]

/-- The data of a continuation of four bytes or more. -/
theorem more_trip {final : Bool} (h : s.Header (fragmentType final) size)
    (hfirst : s.first = false) {data : List UInt8} (hsize : size = data.length)
    (hfour : 4 ≤ data.length) (hlt : data.length + 5 < 2 ^ 31) :
    ∃ t, Trip (dusbWrite dir) Hex2dusb.Home s data t ∧ { s with first := final }.Ends t data := by
  obtain ⟨x₀, x₁, x₂, x₃, rest, rfl⟩ : ∃ x₀ x₁ x₂ x₃ rest,
      data = x₀ :: x₁ :: x₂ :: x₃ :: rest := by
    match data, hfour with
    | x₀ :: x₁ :: x₂ :: x₃ :: rest, _ => exact ⟨x₀, x₁, x₂, x₃, rest, rfl⟩
  simp only [List.length_cons] at hsize hlt
  have hne : s.rawType ≠ 5 := h.rawType ▸ fragmentType_ne final
  have h₃ := ((h.toAt.next x₀).next x₁).next x₂
  obtain ⟨h5, h6, h7⟩ := array_of_three h.toAt x₀ x₁ x₂
  have hless : sub32 s.rawSize 3 = (x₃ :: rest).length := by
    rw [h.rawSize, sub32_of_le (by decide) (by omega) (by omega), hsize]
    rfl
  have hnine := @write_nine_more dir (((s.next x₀).next x₁).next x₂) x₃ h₃ final h.rawType hfirst
  obtain ⟨t, htrip, hends⟩ := @data_trip dir
    { ((s.next x₀).next x₁).next x₂ with
      log := .three ((((s.next x₀).next x₁).next x₂).array 5)
        ((((s.next x₀).next x₁).next x₂).array 6) ((((s.next x₀).next x₁).next x₂).array 7) :: s.log
      cnt := 3
      rawSize := sub32 s.rawSize 3
      first := final
      state := 12 } (x₃ :: rest) (List.cons_ne_nil _ _) le_rfl hless
    (by rw [List.length_cons]; omega)
    (show s.i + 1 + 1 + 1 + (rest.length + 1) < 2 ^ 31 by rw [h.i]; omega)
    (show 3 + (rest.length + 1) < 2 ^ 31 by omega)
  refine ⟨t, (three_trip dir h.toAt hne x₀ x₁ x₂).append (h₃.not_home (by decide))
    (htrip.of_step_eq hnine), hends.state, hends.i, hends.first, hends.types, hends.codes, ?_⟩
  rw [hends.printed, printed_cons _ _ rfl]
  show s.printed ++ [_, _, _] ++ (x₃ :: rest) = s.printed ++ x₀ :: x₁ :: x₂ :: x₃ :: rest
  rw [List.append_assoc, h5, h6, h7]
  rfl

end Payload

/-- The machine between two packets; `left` are the bytes of a message that are to come. -/
structure Hex2dusb.Ready (s : Hex2dusb) (left : Option Nat) : Prop extends s.At 0 1 where
  first : s.first = left.isNone

/-- What the machine has done with a packet that it is behind of. -/
structure Hex2dusb.Done (s t : Hex2dusb) (p : RawPacket) (left : Option Nat) : Prop where
  ready : t.Ready left
  types : t.types = (addPktType s.types p.type).2
  codes : t.codes = (p.code.map fun code => (addDataCode s.codes code).2).getD s.codes
  printed : t.printed = s.printed ++ p.payload

theorem RawPacket.bytes_eq (p : RawPacket) :
    p.bytes = putBE 4 p.payload.length ++ [p.type] ++ p.payload := by
  unfold RawPacket.bytes rawBytes
  rw [List.append_assoc]
  rfl

theorem length_payload_first (final : Bool) (size : UInt32) (code : UInt16) (data : List UInt8) :
    (RawPacket.first final size code data).payload.length = data.length + 6 := by
  unfold RawPacket.payload
  rw [List.length_append, List.length_append, length_putBE, length_putBE]
  omega

/-- A packet without a data code, whose payload has been shown behind its header. -/
theorem Hex2dusb.Ends.done {p : RawPacket} {left : Option Nat} {shown : List UInt8}
    (h : t.Ends u shown) (hpayload : p.payload = shown) (hcode : p.code = none)
    (hfirst : t.first = left.isNone) (htypes : t.types = (addPktType s.types p.type).2)
    (hcodes : t.codes = s.codes) (hprinted : t.printed = s.printed) : s.Done u p left where
  ready := ⟨⟨h.i, h.state⟩, h.first.trans hfirst⟩
  types := h.types.trans htypes
  codes := by
    rw [h.codes, hcodes, hcode]
    rfl
  printed := by rw [h.printed, hprinted, hpayload]

/-- A packet that the machine does not lose brings it home. -/
theorem packet_trip {p : RawPacket} {left left' : Option Nat} (hs : s.Ready left)
    (hp : p.Follows left left') (hstep : p.InStep) :
    ∃ t, Trip (dusbWrite dir) Hex2dusb.Home s p.bytes t ∧ s.Done t p left' := by
  obtain ⟨hlength, hshape⟩ := hstep
  rw [RawPacket.bytes_eq] at hlength ⊢
  rw [List.length_append, List.length_append, length_putBE, List.length_singleton] at hlength
  obtain ⟨t, hheader, ht, hfirst, htypes, hcodes, hprinted⟩ := header_trip dir hs.toAt
    p.type (show p.payload.length < 2 ^ 32 by omega)
  have hnot := ht.toAt.not_home (by decide)
  rw [hs.first] at hfirst
  cases hp with
  | @bufSize _ alloc size =>
      obtain ⟨x₀, x₁, x₂, x₃, hbytes⟩ : ∃ x₀ x₁ x₂ x₃, putBE 4 size.toNat = [x₀, x₁, x₂, x₃] :=
        ⟨_, _, _, _, rfl⟩
      have htype : (RawPacket.bufSize alloc size).type = 1
          ∨ (RawPacket.bufSize alloc size).type = 2 := by
        cases alloc
        · exact .inl rfl
        · exact .inr rfl
      obtain ⟨u, htrip, hends⟩ := bufSize_trip dir ht htype x₀ x₁ x₂ x₃
      rw [← hbytes] at htrip
      exact ⟨u, hheader.append hnot htrip, hends.done hbytes rfl hfirst htypes hcodes hprinted⟩
  | @ack _ code =>
      obtain ⟨x₀, x₁, hbytes⟩ : ∃ x₀ x₁, putBE 2 code.toNat = [x₀, x₁] := ⟨_, _, rfl⟩
      obtain ⟨u, htrip, hends⟩ := ack_trip dir ht x₀ x₁
      rw [← hbytes] at htrip
      exact ⟨u, hheader.append hnot htrip, hends.done hbytes rfl hfirst htypes hcodes hprinted⟩
  | @whole size code data hsize _ =>
      have hdata : data = [] ↔ size = 0 := by
        rw [← List.length_eq_zero_iff, hsize]
        exact UInt32.toNat_inj (b := 0)
      obtain ⟨u, htrip, hu, hufirst, hutypes, hucodes, huprinted⟩ := first_trip dir ht hfirst size
        code hdata (length_payload_first ..) (by rw [length_payload_first] at hlength; omega)
      exact ⟨u, hheader.append hnot htrip, ⟨hu, hufirst⟩, hutypes.trans htypes,
        hucodes.trans (by rw [hcodes]; rfl), huprinted.trans (by rw [hprinted]; rfl)⟩
  | @first size code data hless _ =>
      have hdata : data = [] ↔ size = 0 := by
        constructor
        · intro hnil
          exact hshape.resolve_right (not_not_intro hnil)
        · rintro rfl
          exact absurd hless (Nat.not_lt_zero _)
      obtain ⟨u, htrip, hu, hufirst, hutypes, hucodes, huprinted⟩ := first_trip dir ht hfirst size
        code hdata (length_payload_first ..) (by rw [length_payload_first] at hlength; omega)
      exact ⟨u, hheader.append hnot htrip, ⟨hu, hufirst⟩, hutypes.trans htypes,
        hucodes.trans (by rw [hcodes]; rfl), huprinted.trans (by rw [hprinted]; rfl)⟩
  | @last left data hne _ _ =>
      obtain ⟨u, htrip, hends⟩ := more_trip dir ht hfirst rfl hshape
        (by rw [Nat.add_comm]; exact hlength)
      exact ⟨u, hheader.append hnot htrip,
        hends.done rfl rfl rfl htypes hcodes hprinted⟩
  | @more left data hne hless _ =>
      obtain ⟨u, htrip, hends⟩ := more_trip dir ht hfirst rfl hshape
        (by rw [Nat.add_comm]; exact hlength)
      exact ⟨u, hheader.append hnot htrip,
        hends.done rfl rfl rfl htypes hcodes hprinted⟩

/-! ## packets that are lost -/

omit dir in
theorem incr_eq_some {n k : Nat} (h : incr n = some k) : k = n + 1 ∧ n + 1 < 2 ^ 31 := by
  unfold incr at h
  split at h
  · next hlt =>
    cases h
    exact ⟨rfl, hlt⟩
  · cases h

omit dir in
theorem push_kept {data : UInt8} (h : push s data = some t) : t.i = s.i ∧ t.types = s.types := by
  have hcnt : s.cnt + 1 < 2 ^ 31 := by
    unfold push at h
    obtain ⟨cnt, hcnt, -⟩ := Option.bind_eq_some_iff.mp h
    exact (incr_eq_some hcnt).2
  obtain ⟨log, -, hstep⟩ := @push_eq s data hcnt
  rw [hstep] at h
  obtain rfl := Option.some.inj h
  split <;> exact ⟨rfl, rfl⟩

variable {dir} in
/-- The cases leave the counter of the bytes as it is, and at most add a packet type. -/
theorem dusbState_kept {data : UInt8} (h : dusbState dir s data = some t) :
    t.i = s.i ∧ (t.types = s.types ∨ ∃ type, t.types = (addPktType s.types type).2) := by
  unfold dusbState at h
  split at h
  case h_7 => cases h; exact ⟨rfl, .inl rfl⟩
  case h_8 => cases h; exact ⟨rfl, .inr ⟨_, rfl⟩⟩
  case h_9 => split at h <;> cases h <;> exact ⟨rfl, .inl rfl⟩
  case h_10 =>
    split at h
    · cases h; exact ⟨rfl, .inl rfl⟩
    · split at h
      · cases h; exact ⟨rfl, .inl rfl⟩
      · split at h
        · have hkept := push_kept h
          exact ⟨hkept.1, .inl hkept.2⟩
        · cases h; exact ⟨rfl, .inl rfl⟩
  case h_11 =>
    dsimp only at h
    split at h <;> cases h <;> exact ⟨rfl, .inl rfl⟩
  case h_12 =>
    have hkept := push_kept h
    exact ⟨hkept.1, .inl hkept.2⟩
  all_goals cases h; exact ⟨rfl, .inl rfl⟩

variable {dir} in
theorem dusbWrite_types {data : UInt8} (h : dusbWrite dir s data = some t) :
    t.types = s.types ∨ ∃ type, t.types = (addPktType s.types type).2 := by
  obtain ⟨i, -, h⟩ := Option.bind_eq_some_iff.mp h
  obtain ⟨u, hu, h⟩ := Option.bind_eq_some_iff.mp h
  cases h
  have hend : (endState u).types = u.types := by
    unfold endState
    split <;> rfl
  rw [hend]
  exact (dusbState_kept hu).2

variable {dir} in
/-- The bytes of a packet are counted. -/
theorem dusbWrite_i {data : UInt8} (h : dusbWrite dir s data = some t) :
    s.i + 1 < 2 ^ 31 ∧ (¬t.Home → t.i = s.i + 1) := by
  obtain ⟨i, hi, h⟩ := Option.bind_eq_some_iff.mp h
  obtain ⟨rfl, hlt⟩ := incr_eq_some hi
  obtain ⟨u, hu, h⟩ := Option.bind_eq_some_iff.mp h
  cases h
  refine ⟨hlt, fun hnot => ?_⟩
  unfold endState at hnot ⊢
  split at hnot
  · exact absurd rfl hnot
  · next hstate =>
    rw [if_neg hstate]
    exact (dusbState_kept hu).1

variable {dir} in
/-- A packet is not longer than an `int` can count. -/
theorem trip_length {bytes : List UInt8} (h : Trip (dusbWrite dir) Hex2dusb.Home s bytes t) :
    s.i + bytes.length < 2 ^ 31 := by
  induction h with
  | last hstep => exact (dusbWrite_i hstep).1
  | cons hstep hnot _ ih =>
      rw [(dusbWrite_i hstep).2 hnot] at ih
      rw [List.length_cons]
      omega

/-- Three bytes of a continuation or less do not end it. -/
theorem short_trip (h : s.At 5 6) (htype : s.rawType ≠ 5) {data : List UInt8} (hne : data ≠ [])
    (hshort : data.length < 4) :
    ∃ t, Trip (dusbWrite dir) Hex2dusb.Home s data t ∧ ¬t.Home := by
  match data, hne, hshort with
  | [x₀], _, _ =>
      exact ⟨_, .last (write_skip h (by decide) (by decide)), (h.next x₀).not_home (by decide)⟩
  | [x₀, x₁], _, _ =>
      have h₁ := h.next x₀
      have hstep := @write_seven dir (s.next x₀) x₁ _ h₁ (by decide)
      rw [if_neg (show (s.next x₀).rawType ≠ 5 from htype)] at hstep
      exact ⟨_, .cons (write_skip h (by decide) (by decide)) (h₁.not_home (by decide))
        (.last hstep), (h₁.next x₁).not_home (by decide)⟩
  | [x₀, x₁, x₂], _, _ =>
      exact ⟨_, three_trip dir h htype x₀ x₁ x₂,
        (((h.next x₀).next x₁).next x₂).not_home (by decide)⟩

/-- A first fragment without data does not end when the message has some. -/
theorem empty_trip {final : Bool} {size : Nat} (h : s.Header (fragmentType final) size)
    (hfirst : s.first = true) {length : UInt32} (hlength : length ≠ 0) (code : UInt16) :
    ∃ t, Trip (dusbWrite dir) Hex2dusb.Home s (putBE 4 length.toNat ++ putBE 2 code.toNat) t
      ∧ ¬t.Home := by
  obtain ⟨t, htrip, ht, hvtl, -⟩ := vtlSize_trip dir h hfirst length
  obtain ⟨u, hcode, -, -, -, -, -, -, hu⟩ := vtlType_trip dir ht code
  have hannounced : t.vtlSize ≠ 0 := fun hzero =>
    hlength (UInt32.toNat_inj.mp (hvtl.symm.trans hzero))
  rw [if_neg hannounced] at hu
  exact ⟨u, htrip.append (ht.not_home (by decide)) hcode, hu.not_home (by decide)⟩

variable {dir} in
/-- Only a packet that is in step brings the machine home. -/
theorem inStep_of_trip {p : RawPacket} {left left' : Option Nat} (hs : s.Ready left)
    (hp : p.Follows left left') (htrip : Trip (dusbWrite dir) Hex2dusb.Home s p.bytes t)
    (hhome : t.Home) : p.InStep := by
  have hlength := trip_length htrip
  rw [hs.i, Nat.zero_add] at hlength
  refine ⟨hlength, ?_⟩
  rw [RawPacket.bytes_eq] at hlength htrip
  rw [List.length_append, List.length_append, length_putBE, List.length_singleton] at hlength
  obtain ⟨u, hheader, hu, hfirst, -⟩ := header_trip dir hs.toAt p.type
    (show p.payload.length < 2 ^ 32 by omega)
  have hnot := hu.toAt.not_home (by decide)
  rw [hs.first] at hfirst
  -- what does not bring the machine home behind the header is not the payload
  have hlost (v : Hex2dusb) (hv : Trip (dusbWrite dir) Hex2dusb.Home u p.payload v) : v.Home := by
    rw [(hheader.append hnot hv).unique htrip]
    exact hhome
  have hshort (final : Bool) (data : List UInt8) (hne : data ≠ [])
      (hpayload : p.payload = data) (htype : p.type = fragmentType final) : 4 ≤ data.length := by
    by_contra hshort
    obtain ⟨v, hv, haway⟩ := short_trip dir hu.toAt
      (by rw [hu.rawType, htype]; exact fragmentType_ne final) hne (Nat.not_le.mp hshort)
    exact haway (hlost v (hpayload ▸ hv))
  cases hp with
  | bufSize => exact trivial
  | ack => exact trivial
  | @whole size code data hsize _ =>
      by_cases hnil : data = []
      · left
        rw [hnil] at hsize
        exact UInt32.toNat_inj.mp hsize.symm
      · exact .inr hnil
  | @first size code data hless _ =>
      by_contra hbad
      rw [not_or, not_not] at hbad
      obtain ⟨hsize, rfl⟩ := hbad
      obtain ⟨v, hv, haway⟩ := empty_trip dir hu hfirst hsize code
      refine haway (hlost v ?_)
      show Trip _ _ u (putBE 4 size.toNat ++ (putBE 2 code.toNat ++ [])) v
      rw [List.append_nil]
      exact hv
  | @last left data hne _ _ => exact hshort true data hne rfl rfl
  | @more left data hne _ _ => exact hshort false data hne rfl rfl

/-! ## logs -/

theorem RawPacket.bytes_ne_nil (p : RawPacket) : p.bytes ≠ [] := by
  rw [RawPacket.bytes_eq]
  simp

/-- The machine stays synchronised exactly with the packets that are in step. -/
theorem synchronised_iff {ps : List RawPacket} {left : Option Nat} (hs : s.Ready left)
    (hps : WellFormed left ps) :
    Synchronised (dusbWrite dir) Hex2dusb.Home s (ps.map RawPacket.bytes)
      ↔ ∀ p ∈ ps, p.InStep := by
  induction hps generalizing s with
  | nil => exact ⟨fun _ p hp => absurd hp List.not_mem_nil, fun _ => synchronised_nil hs.state⟩
  | @cons left left' p ps hp _ ih =>
      have hhome : s.Home := hs.state
      rw [List.map_cons, synchronised_cons hhome p.bytes_ne_nil, List.forall_mem_cons]
      constructor
      · rintro ⟨t, htrip, hhome, hrest⟩
        have hstep := inStep_of_trip hs hp htrip hhome
        obtain ⟨u, hu, hdone⟩ := packet_trip dir hs hp hstep
        obtain rfl := htrip.unique hu
        exact ⟨hstep, (ih hdone.ready).mp hrest⟩
      · rintro ⟨hstep, hall⟩
        obtain ⟨u, hu, hdone⟩ := packet_trip dir hs hp hstep
        exact ⟨u, hu, hdone.ready.state, (ih hdone.ready).mpr hall⟩

/-- The data codes of a log. -/
def dataCodes (ps : List RawPacket) : List UInt16 := ps.filterMap RawPacket.code

/-- What the machine has done behind the packets of a log. -/
theorem run_packets {ps : List RawPacket} {left : Option Nat} (hs : s.Ready left)
    (hps : WellFormed left ps) (hall : ∀ p ∈ ps, p.InStep) :
    ∃ t, ((ps.map RawPacket.bytes).flatten).foldlM (dusbWrite dir) s = some t
      ∧ t.printed = s.printed ++ ps.flatMap RawPacket.payload
      ∧ t.types
        = (ps.map RawPacket.type).foldl (fun table type => (addPktType table type).2) s.types
      ∧ t.codes = (dataCodes ps).foldl (fun table code => (addDataCode table code).2) s.codes := by
  induction hps generalizing s with
  | nil => exact ⟨s, rfl, (List.append_nil _).symm, rfl, rfl⟩
  | @cons left left' p ps hp _ ih =>
      obtain ⟨hstep, hall⟩ := List.forall_mem_cons.mp hall
      obtain ⟨u, hu, hdone⟩ := packet_trip dir hs hp hstep
      obtain ⟨t, hrun, hprinted, htypes, hcodes⟩ := ih hdone.ready hall
      refine ⟨t, ?_, ?_, ?_, ?_⟩
      · rw [List.map_cons, List.flatten_cons, List.foldlM_append, hu.run]
        exact hrun
      · rw [hprinted, hdone.printed, List.append_assoc]
        rfl
      · rw [htypes, hdone.types]
        rfl
      · rw [hcodes, hdone.codes]
        unfold dataCodes
        cases hcode : p.code with
        | none => rw [List.filterMap_cons_none hcode]; rfl
        | some code => rw [List.filterMap_cons_some hcode]; rfl

end Steps

theorem start_ready : Hex2dusb.start.Ready none := ⟨⟨rfl, rfl⟩, rfl⟩

/-- The decompiler is right about a log exactly when all of its packets are in step. -/
theorem dusbWrite_correct_iff (dir : Nat) (ps : List RawPacket) (hps : WellFormed none ps) :
    Decompiles dir ps ↔ ∀ p ∈ ps, p.InStep := by
  constructor
  · exact fun h => (synchronised_iff dir start_ready hps).mp h.1
  · intro hall
    obtain ⟨t, hrun, hprinted, -⟩ := run_packets dir start_ready hps hall
    exact ⟨(synchronised_iff dir start_ready hps).mpr hall, t, hrun, hprinted⟩

/-- A message of eight bytes in two fragments, with the acknowledgement of the first. -/
def sampleLog : List RawPacket :=
  [.first false 8 0x000D [1, 2, 3, 4], .ack 0xE000, .more true [5, 6, 7, 8]]

theorem dusbWrite_correct_iff_sample : Decompiles 0 sampleLog := by
  refine (dusbWrite_correct_iff 0 sampleLog ?_).mpr ?_
  · exact .cons (.first (by decide) (by decide)) (.cons .ack (.cons
      (.last (by decide) (by decide) (by decide)) .nil))
  · intro p hp
    fin_cases hp
    · exact ⟨by decide, .inr (by decide)⟩
    · exact ⟨by decide, trivial⟩
    · exact ⟨by decide, by decide⟩

/-- A message of five bytes in two fragments. -/
def lostLog : List RawPacket := [.first false 5 0x000D [1, 2, 3, 4], .more true [5]]

/-- The machine waits for three more bytes of the second fragment. -/
theorem not_allDecompile :
    WellFormed none lostLog ∧ ¬∀ dir ps, WellFormed none ps → Decompiles dir ps := by
  have hlog : WellFormed none lostLog :=
    .cons (.first (by decide) (by decide)) (.cons (.last (by decide) (by decide) (by decide)) .nil)
  refine ⟨hlog, fun hall => ?_⟩
  obtain ⟨t, hrun, hiff⟩ := (hall 0 lostLog hlog).1 21 (by decide)
  have hstate : ((((lostLog.map RawPacket.bytes).flatten.take 21).foldlM (dusbWrite 0)
      Hex2dusb.start).map Hex2dusb.state) = some 7 := by decide
  rw [hrun] at hstate
  have hhome := hiff.mpr ⟨2, by decide⟩
  exact absurd (hhome.symm.trans (Option.some.inj hstate)) (by decide)

end Tilibs.Cables
