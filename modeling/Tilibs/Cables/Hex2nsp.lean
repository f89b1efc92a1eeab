import Tilibs.Cables.Hex2dusb

/-!
# Tilibs.Cables.Hex2nsp

The decompiler for logs of the NSP protocol of the Nspire (`hex2nsp.cc`), and the lists of values
that both decompilers print behind a log.

A packet is a header of 16 bytes and at most 255 bytes of data, so that the counters of the state
machine do not overflow.  Behind the header it adds the source service to its table a second time,
and the destination service never.
-/

namespace Tilibs.Cables

open Lib Dusb

/-! ## names -/

/-- `addrs` -/
def addrs : List (UInt16 × String) := [(0x0000, "TI"), (0x6400, "PC"), (0x6401, "TI")]

/-- `sids` -/
def sids : List (UInt16 × String) :=
  [(0x00FE, "Reception Acknowledgment"),
    (0x00FF, "Reception Ack"),
    (0x4001, "Null"),
    (0x4002, "Echo"),
    (0x4003, "Device Address Request/Assignment"),
    (0x4020, "Device Information"),
    (0x4021, "Screen Capture"),
    (0x4022, "Event"),
    (0x4023, "Shutdown"),
    (0x4024, "Screen Capture w/ RLE"),
    (0x4041, "Activity"),
    (0x4042, "Keypresses"),
    (0x4043, "RPC"),
    (0x4050, "Login"),
    (0x4051, "Messages"),
    (0x4054, "Hub Connection"),
    (0x4060, "File Management"),
    (0x4080, "OS Installation"),
    (0x4090, "Remote Handheld Management"),
    (0x40DE, "Service Disconnect"),
    (0x5000, "Ext Echo"),
    (0x8003, "8003"),
    (0x8004, "8004"),
    (0x8005, "8005"),
    (0x8006, "8006"),
    (0x8007, "8007"),
    (0x8009, "8009")]

def nameOfSid (id : UInt16) : String := (sids.lookup id).getD "???"

def nameOfAddr (addr : UInt16) : String := (addrs.lookup addr).getD "??"

/-! ## the machine -/

/-- `HEXDUMP_SIZE` -/
def hexdumpSize : Nat := 12

/-- What is written to the log: the values of a `fprintf`. -/
inductive NspItem
  | srcAddr (addr : UInt16)
  | srcId (id : UInt16)
  | dstAddr (addr : UInt16)
  | dstId (id : UInt16)
  | ack (b : UInt8)
  | seq (b : UInt8)
  | size (n : UInt8)
  | route (srcAddr srcId dstAddr dstId : String)
  | dataIndent
  | byte (b : UInt8)
  | bar
  | char (b : UInt8)
  | pad
  | indent
  | newline
  deriving DecidableEq

/-- The static variables of `dusb_write`, the tables, and the log, last item first. -/
structure Hex2nsp where
  array : Nat → UInt8
  i : Nat
  state : Nat
  srcAddr : UInt16
  srcId : UInt16
  dstAddr : UInt16
  dstId : UInt16
  dataSize : UInt8
  ack : UInt8
  sq : UInt8
  cnt : Nat
  ascii : Nat → UInt8
  sids : FoundTable UInt16
  addrs : FoundTable UInt16
  log : List NspItem

/-- The values at the start of the program. -/
def Hex2nsp.start : Hex2nsp where
  array := fun _ => 0
  i := 0
  state := 1
  srcAddr := 0
  srcId := 0
  dstAddr := 0
  dstId := 0
  dataSize := 0
  ack := 0
  sq := 0
  cnt := 0
  ascii := fun _ => 0
  sids := FoundTable.start
  addrs := FoundTable.start
  log := []

/-- `isalnum` -/
def isalnum (b : UInt8) : Bool :=
  decide (0x30 ≤ b ∧ b ≤ 0x39 ∨ 0x41 ≤ b ∧ b ≤ 0x5A ∨ 0x61 ≤ b ∧ b ≤ 0x7A)

/-- The characters of the first `n` bytes, last one first. -/
def asciiItems (ascii : Nat → UInt8) (n : Nat) : List NspItem :=
  ((List.range n).map fun k => .char (if isalnum (ascii k) then ascii k else 0x2E)).reverse

/-- A byte of data; the loops that print characters count with the index of the header. -/
def nspData (s : Hex2nsp) (data : UInt8) : Hex2nsp :=
  let log := if s.cnt = 0 then .dataIndent :: s.log else s.log
  let ascii := store s.ascii (s.cnt % hexdumpSize) data
  let cnt := s.cnt + 1
  let s := { s with ascii, cnt, log := .byte data :: log }
  let s :=
    if cnt % hexdumpSize = 0 then
      { s with
        log := .indent :: (asciiItems ascii hexdumpSize ++ .bar :: s.log)
        i := hexdumpSize }
    else s
  let dataSize := s.dataSize - 1
  if dataSize = 0 then
    { s with
      dataSize
      i := cnt % hexdumpSize
      log := .newline :: (asciiItems ascii (cnt % hexdumpSize) ++ .bar
        :: (List.replicate (hexdumpSize - cnt % hexdumpSize) .pad ++ s.log))
      state := 0 }
  else { s with dataSize }

/-- The cases of the state. -/
def nspState (s : Hex2nsp) (data : UInt8) : Hex2nsp :=
  match s.state with
  | 1 | 2 | 3 | 5 | 7 | 9 | 11 | 12 => s
  | 4 =>
      let srcAddr := uint16At s.array 2
      { s with srcAddr, addrs := (addAddr s.addrs srcAddr).2, log := .srcAddr srcAddr :: s.log }
  | 6 =>
      let srcId := uint16At s.array 4
      { s with srcId, sids := (addSid s.sids srcId).2, log := .srcId srcId :: s.log }
  | 8 =>
      let dstAddr := uint16At s.array 6
      { s with dstAddr, addrs := (addAddr s.addrs dstAddr).2, log := .dstAddr dstAddr :: s.log }
  | 10 =>
      let dstId := uint16At s.array 8
      -- the source service again
      { s with dstId, sids := (addSid s.sids s.srcId).2, log := .dstId dstId :: s.log }
  | 13 => { s with dataSize := s.array 12 }
  | 14 => { s with ack := s.array 13, log := .ack (s.array 13) :: s.log }
  | 15 => { s with sq := s.array 14, log := .seq (s.array 14) :: s.log }
  | 16 =>
      let route := NspItem.route (nameOfAddr s.srcAddr) (nameOfSid s.srcId)
        (nameOfAddr s.dstAddr) (nameOfSid s.dstId)
      let s := { s with cnt := 0, log := route :: .size s.dataSize :: s.log }
      if s.dataSize = 0 then { s with state := 0 } else s
  | _ => nspData s data

/-- What is behind the cases: a packet that has ended begins the next one. -/
def nspEnd (s : Hex2nsp) : Hex2nsp :=
  if s.state = 0 then { s with log := .newline :: s.log, i := 0, state := 1 }
  else { s with state := s.state + 1 }

/-- `dusb_write` -/
def nspWrite (s : Hex2nsp) (data : UInt8) : Hex2nsp :=
  nspEnd (nspState { s with array := store s.array (s.i % 16) data, i := s.i + 1 } data)

/-! ## packets -/

/-- A packet of a log. -/
structure NspPacket where
  unused : UInt16
  srcAddr : UInt16
  srcId : UInt16
  dstAddr : UInt16
  dstId : UInt16
  dataSum : UInt16
  ack : UInt8
  seq : UInt8
  hdrSum : UInt8
  data : List UInt8
  fits : data.length < 256

/-- The bytes of a packet in the log. -/
def NspPacket.bytes (p : NspPacket) : List UInt8 :=
  putBE 2 p.unused.toNat ++ (putBE 2 p.srcAddr.toNat ++ (putBE 2 p.srcId.toNat
    ++ (putBE 2 p.dstAddr.toNat ++ (putBE 2 p.dstId.toNat ++ (putBE 2 p.dataSum.toNat
    ++ ([UInt8.ofNat p.data.length, p.ack, p.seq, p.hdrSum] ++ p.data))))))

/-- The bytes of a log. -/
def nspBytes (ps : List NspPacket) : List UInt8 := ps.flatMap NspPacket.bytes

/-! ## the steps -/

section Steps

variable {s t : Hex2nsp} {data : UInt8}

/-- A byte that is stored and no more. -/
def Hex2nsp.next (s : Hex2nsp) (data : UInt8) : Hex2nsp :=
  { s with array := store s.array (s.i % 16) data, i := s.i + 1, state := s.state + 1 }

/-- The counter of the bytes and the state. -/
structure Hex2nsp.At (s : Hex2nsp) (i state : Nat) : Prop where
  i : s.i = i
  state : s.state = state

theorem Hex2nsp.At.next {i n : Nat} (h : s.At i n) (data : UInt8) :
    (s.next data).At (i + 1) (n + 1) :=
  ⟨congrArg (· + 1) h.i, congrArg (· + 1) h.state⟩

/-- In these states nothing happens. -/
theorem nsp_skip {i n : Nat} (h : s.At i n) (hn : n ∈ [1, 2, 3, 5, 7, 9, 11, 12]) :
    nspWrite s data = s.next data := by
  obtain ⟨array, i, state, srcAddr, srcId, dstAddr, dstId, dataSize, ack, sq, cnt, ascii, sids,
    addrs, log⟩ := s
  obtain ⟨rfl, rfl⟩ := h
  dsimp only at hn
  fin_cases hn <;> rfl

theorem nsp_four {i : Nat} (h : s.At i 4) : nspWrite s data =
    { s.next data with
      srcAddr := uint16At (s.next data).array 2
      addrs := (addAddr s.addrs (uint16At (s.next data).array 2)).2
      log := .srcAddr (uint16At (s.next data).array 2) :: s.log } := by
  obtain ⟨array, i, state, srcAddr, srcId, dstAddr, dstId, dataSize, ack, sq, cnt, ascii, sids,
    addrs, log⟩ := s
  obtain ⟨rfl, rfl⟩ := h
  rfl

theorem nsp_six {i : Nat} (h : s.At i 6) : nspWrite s data =
    { s.next data with
      srcId := uint16At (s.next data).array 4
      sids := (addSid s.sids (uint16At (s.next data).array 4)).2
      log := .srcId (uint16At (s.next data).array 4) :: s.log } := by
  obtain ⟨array, i, state, srcAddr, srcId, dstAddr, dstId, dataSize, ack, sq, cnt, ascii, sids,
    addrs, log⟩ := s
  obtain ⟨rfl, rfl⟩ := h
  rfl

theorem nsp_eight {i : Nat} (h : s.At i 8) : nspWrite s data =
    { s.next data with
      dstAddr := uint16At (s.next data).array 6
      addrs := (addAddr s.addrs (uint16At (s.next data).array 6)).2
      log := .dstAddr (uint16At (s.next data).array 6) :: s.log } := by
  obtain ⟨array, i, state, srcAddr, srcId, dstAddr, dstId, dataSize, ack, sq, cnt, ascii, sids,
    addrs, log⟩ := s
  obtain ⟨rfl, rfl⟩ := h
  rfl

theorem nsp_ten {i : Nat} (h : s.At i 10) : nspWrite s data =
    { s.next data with
      dstId := uint16At (s.next data).array 8
      sids := (addSid s.sids s.srcId).2
      log := .dstId (uint16At (s.next data).array 8) :: s.log } := by
  obtain ⟨array, i, state, srcAddr, srcId, dstAddr, dstId, dataSize, ack, sq, cnt, ascii, sids,
    addrs, log⟩ := s
  obtain ⟨rfl, rfl⟩ := h
  rfl

theorem nsp_thirteen (h : s.At 12 13) :
    nspWrite s data = { s.next data with dataSize := data } := by
  obtain ⟨array, i, state, srcAddr, srcId, dstAddr, dstId, dataSize, ack, sq, cnt, ascii, sids,
    addrs, log⟩ := s
  obtain ⟨rfl, rfl⟩ := h
  rfl

theorem nsp_fourteen (h : s.At 13 14) :
    nspWrite s data = { s.next data with ack := data, log := .ack data :: s.log } := by
  obtain ⟨array, i, state, srcAddr, srcId, dstAddr, dstId, dataSize, ack, sq, cnt, ascii, sids,
    addrs, log⟩ := s
  obtain ⟨rfl, rfl⟩ := h
  rfl

theorem nsp_fifteen (h : s.At 14 15) :
    nspWrite s data = { s.next data with sq := data, log := .seq data :: s.log } := by
  obtain ⟨array, i, state, srcAddr, srcId, dstAddr, dstId, dataSize, ack, sq, cnt, ascii, sids,
    addrs, log⟩ := s
  obtain ⟨rfl, rfl⟩ := h
  rfl

/-- What a byte of data does but for the log. -/
theorem nspData_eq (s : Hex2nsp) (data : UInt8) :
    (nspData s data).addrs = s.addrs ∧ (nspData s data).sids = s.sids
      ∧ (nspData s data).dataSize = s.dataSize - 1
      ∧ (nspData s data).state = if s.dataSize - 1 = 0 then 0 else s.state := by
  unfold nspData
  dsimp only
  by_cases hline : (s.cnt + 1) % hexdumpSize = 0
  · rw [if_pos hline]
    dsimp only
    split <;> exact ⟨rfl, rfl, rfl, rfl⟩
  · rw [if_neg hline]
    dsimp only
    split <;> exact ⟨rfl, rfl, rfl, rfl⟩

/-- What the array holds behind the two bytes of a value. -/
theorem uint16At_next {i n : Nat} (h : s.At i n) (hi : i + 1 < 16) {x y : UInt8} (value : UInt16)
    (hvalue : putBE 2 value.toNat = [x, y]) :
    uint16At ((s.next x).next y).array i = value := by
  refine uint16At_putBE value ?_
  rw [hvalue]
  unfold Hex2nsp.next store
  dsimp only
  rw [h.i, Nat.mod_eq_of_lt hi, Nat.mod_eq_of_lt (by omega), if_neg (by omega), if_pos rfl,
    if_pos rfl]

/-- Two bytes of a value, of which the second one is stored in a state of its own. -/
theorem nsp_value {i n : Nat} (h : s.At i n) (hn : n ∈ [1, 2, 3, 5, 7, 9, 11, 12])
    (value : UInt16) :
    ∃ x y, putBE 2 value.toNat = [x, y]
      ∧ (putBE 2 value.toNat).foldl nspWrite s = nspWrite (s.next x) y := by
  obtain ⟨x, y, hvalue⟩ : ∃ x y, putBE 2 value.toNat = [x, y] := ⟨_, _, rfl⟩
  refine ⟨x, y, hvalue, ?_⟩
  rw [hvalue, List.foldl_cons, List.foldl_cons, nsp_skip h hn]
  rfl

/-- A value that is skipped. -/
theorem skip_run {i n : Nat} (h : s.At i n) (hn : n ∈ [1, 11]) (value : UInt16) :
    ∃ t, (putBE 2 value.toNat).foldl nspWrite s = t ∧ t.At (i + 2) (n + 2)
      ∧ t.addrs = s.addrs ∧ t.sids = s.sids := by
  obtain ⟨x, y, hvalue, hrun⟩ := nsp_value h (by fin_cases hn <;> decide) value
  have h₁ := h.next x
  refine ⟨_, hrun, ?_⟩
  rw [nsp_skip h₁ (by fin_cases hn <;> decide)]
  exact ⟨h₁.next y, rfl, rfl⟩

theorem srcAddr_run (h : s.At 2 3) (addr : UInt16) :
    ∃ t, (putBE 2 addr.toNat).foldl nspWrite s = t ∧ t.At 4 5
      ∧ t.addrs = (addAddr s.addrs addr).2 ∧ t.sids = s.sids := by
  obtain ⟨x, y, hvalue, hrun⟩ := nsp_value h (by decide) addr
  have h₁ := h.next x
  have h₂ := h₁.next y
  have hget := uint16At_next h (by decide) addr hvalue
  rw [nsp_four h₁, hget] at hrun
  exact ⟨_, hrun, ⟨h₂.i, h₂.state⟩, rfl, rfl⟩

theorem srcId_run (h : s.At 4 5) (id : UInt16) :
    ∃ t, (putBE 2 id.toNat).foldl nspWrite s = t ∧ t.At 6 7 ∧ t.srcId = id
      ∧ t.addrs = s.addrs ∧ t.sids = (addSid s.sids id).2 := by
  obtain ⟨x, y, hvalue, hrun⟩ := nsp_value h (by decide) id
  have h₁ := h.next x
  have h₂ := h₁.next y
  have hget := uint16At_next h (by decide) id hvalue
  rw [nsp_six h₁, hget] at hrun
  exact ⟨_, hrun, ⟨h₂.i, h₂.state⟩, rfl, rfl, rfl⟩

theorem dstAddr_run (h : s.At 6 7) (addr : UInt16) :
    ∃ t, (putBE 2 addr.toNat).foldl nspWrite s = t ∧ t.At 8 9 ∧ t.srcId = s.srcId
      ∧ t.addrs = (addAddr s.addrs addr).2 ∧ t.sids = s.sids := by
  obtain ⟨x, y, hvalue, hrun⟩ := nsp_value h (by decide) addr
  have h₁ := h.next x
  have h₂ := h₁.next y
  have hget := uint16At_next h (by decide) addr hvalue
  rw [nsp_eight h₁, hget] at hrun
  exact ⟨_, hrun, ⟨h₂.i, h₂.state⟩, rfl, rfl, rfl⟩

/-- The destination service is not added, but the source service again. -/
theorem dstId_run (h : s.At 8 9) (id : UInt16) :
    ∃ t, (putBE 2 id.toNat).foldl nspWrite s = t ∧ t.At 10 11
      ∧ t.addrs = s.addrs ∧ t.sids = (addSid s.sids s.srcId).2 := by
  obtain ⟨x, y, hvalue, hrun⟩ := nsp_value h (by decide) id
  have h₁ := h.next x
  have h₂ := h₁.next y
  rw [nsp_ten h₁] at hrun
  exact ⟨_, hrun, ⟨h₂.i, h₂.state⟩, rfl, rfl⟩

/-- The machine goes on to the next packet, with the tables as they are. -/
structure Hex2nsp.Ends (s t : Hex2nsp) : Prop extends t.At 0 1 where
  addrs : t.addrs = s.addrs
  sids : t.sids = s.sids

theorem nspEnd_ends {u : Hex2nsp} (hstate : u.state = 0) (haddrs : u.addrs = s.addrs)
    (hsids : u.sids = s.sids) : s.Ends (nspEnd u) := by
  unfold nspEnd
  rw [if_pos hstate]
  exact ⟨⟨rfl, rfl⟩, haddrs, hsids⟩

/-- The packet goes on, with the tables as they are. -/
structure Hex2nsp.GoesOn (s t : Hex2nsp) : Prop where
  state : t.state = s.state + 1
  addrs : t.addrs = s.addrs
  sids : t.sids = s.sids

theorem nspEnd_goesOn {u : Hex2nsp} (hne : s.state ≠ 0) (hstate : u.state = s.state)
    (haddrs : u.addrs = s.addrs) (hsids : u.sids = s.sids) : s.GoesOn (nspEnd u) := by
  unfold nspEnd
  rw [if_neg (by rw [hstate]; exact hne)]
  exact ⟨congrArg (· + 1) hstate, haddrs, hsids⟩

theorem nspEnd_dataSize (s : Hex2nsp) : (nspEnd s).dataSize = s.dataSize := by
  unfold nspEnd
  split <;> rfl

theorem Hex2nsp.GoesOn.ends {u : Hex2nsp} (h : s.GoesOn t) (h' : t.Ends u) : s.Ends u :=
  ⟨h'.toAt, h'.addrs.trans h.addrs, h'.sids.trans h.sids⟩

/-- A byte of data ends the packet when it is the last one. -/
theorem nsp_data (hstate : 17 ≤ s.state) :
    (nspWrite s data).dataSize = s.dataSize - 1
      ∧ if s.dataSize - 1 = 0 then s.Ends (nspWrite s data) else s.GoesOn (nspWrite s data) := by
  have hdata : nspWrite s data = nspEnd (nspData
      { s with array := store s.array (s.i % 16) data, i := s.i + 1 } data) := by
    obtain ⟨n, hn⟩ := Nat.exists_eq_add_of_le' hstate
    unfold nspWrite nspState
    dsimp only
    rw [hn]
    rfl
  obtain ⟨haddrs, hsids, hdataSize, hnext⟩ :=
    nspData_eq { s with array := store s.array (s.i % 16) data, i := s.i + 1 } data
  rw [hdata, nspEnd_dataSize]
  refine ⟨hdataSize, ?_⟩
  by_cases hzero : s.dataSize - 1 = 0
  · rw [if_pos hzero] at hnext ⊢
    exact nspEnd_ends hnext haddrs hsids
  · rw [if_neg hzero] at hnext ⊢
    exact nspEnd_goesOn (by omega) hnext haddrs hsids

/-- The last byte of the header ends a packet without data. -/
theorem nsp_sixteen {i : Nat} (h : s.At i 16) :
    (nspWrite s data).dataSize = s.dataSize
      ∧ if s.dataSize = 0 then s.Ends (nspWrite s data) else s.GoesOn (nspWrite s data) := by
  unfold nspWrite
  rw [nspEnd_dataSize]
  have hcases : nspState { s with array := store s.array (s.i % 16) data, i := s.i + 1 } data
      = { s with
        array := store s.array (s.i % 16) data
        i := s.i + 1
        cnt := 0
        state := if s.dataSize = 0 then 0 else 16
        log := .route (nameOfAddr s.srcAddr) (nameOfSid s.srcId) (nameOfAddr s.dstAddr)
          (nameOfSid s.dstId) :: .size s.dataSize :: s.log } := by
    obtain ⟨array, i, state, srcAddr, srcId, dstAddr, dstId, dataSize, ack, sq, cnt, ascii, sids,
      addrs, log⟩ := s
    obtain ⟨rfl, rfl⟩ := h
    dsimp only
    by_cases hzero : dataSize = 0
    · rw [if_pos hzero]
      exact if_pos hzero
    · rw [if_neg hzero]
      exact if_neg hzero
  generalize hnext : (if s.dataSize = 0 then 0 else 16) = next at hcases
  rw [hcases]
  refine ⟨rfl, ?_⟩
  by_cases hzero : s.dataSize = 0
  · rw [if_pos hzero] at hnext ⊢
    exact nspEnd_ends hnext.symm rfl rfl
  · rw [if_neg hzero] at hnext ⊢
    exact nspEnd_goesOn (by rw [h.state]; decide) (hnext.symm.trans h.state.symm) rfl rfl

/-- The data of a packet. -/
theorem data_run {bytes : List UInt8} (hne : bytes ≠ []) (hstate : 17 ≤ s.state)
    (hsize : s.dataSize.toNat = bytes.length) : s.Ends (bytes.foldl nspWrite s) := by
  induction bytes generalizing s with
  | nil => exact absurd rfl hne
  | cons b bs ih =>
      rw [List.length_cons] at hsize
      have hless : (s.dataSize - 1).toNat = bs.length := by
        have hle : 1 ≤ s.dataSize := UInt8.le_iff_toNat_le.mpr (by
          rw [hsize]
          exact Nat.le_add_left 1 _)
        rw [UInt8.toNat_sub_of_le _ _ hle, hsize]
        rfl
      obtain ⟨hdataSize, hnext⟩ := @nsp_data s b hstate
      rw [List.foldl_cons]
      by_cases hbs : bs = []
      · subst hbs
        rw [if_pos (UInt8.toNat_inj.mp hless)] at hnext
        exact hnext
      · have hnonzero : s.dataSize - 1 ≠ 0 := fun hzero =>
          hbs (List.length_eq_zero_iff.mp (hless.symm.trans (congrArg UInt8.toNat hzero)))
        rw [if_neg hnonzero] at hnext
        exact hnext.ends (ih hbs (by rw [hnext.state]; omega) (by rw [hdataSize, hless]))

/-- The end of the header, and the data. -/
theorem size_run (h : s.At 12 13) {bytes : List UInt8} (hlt : bytes.length < 256) (a b c : UInt8) :
    s.Ends (([UInt8.ofNat bytes.length, a, b, c] ++ bytes).foldl nspWrite s) := by
  have h₁ := h.next (UInt8.ofNat bytes.length)
  obtain ⟨t₁, ht₁, hat₁, hsize₁, haddrs₁, hsids₁⟩ : ∃ t, nspWrite s (UInt8.ofNat bytes.length) = t
      ∧ t.At 13 14 ∧ t.dataSize = UInt8.ofNat bytes.length ∧ t.addrs = s.addrs ∧ t.sids = s.sids :=
    ⟨_, nsp_thirteen h, ⟨h₁.i, h₁.state⟩, rfl, rfl, rfl⟩
  obtain ⟨t₂, ht₂, hat₂, hsize₂, haddrs₂, hsids₂⟩ : ∃ t, nspWrite t₁ a = t ∧ t.At 14 15
      ∧ t.dataSize = t₁.dataSize ∧ t.addrs = t₁.addrs ∧ t.sids = t₁.sids :=
    ⟨_, nsp_fourteen hat₁, ⟨(hat₁.next a).i, (hat₁.next a).state⟩, rfl, rfl, rfl⟩
  obtain ⟨t, ht, hat, hsize, haddrs, hsids⟩ : ∃ t, nspWrite t₂ b = t ∧ t.At 15 16
      ∧ t.dataSize = t₂.dataSize ∧ t.addrs = t₂.addrs ∧ t.sids = t₂.sids :=
    ⟨_, nsp_fifteen hat₂, ⟨(hat₂.next b).i, (hat₂.next b).state⟩, rfl, rfl, rfl⟩
  rw [hsize₂, hsize₁] at hsize
  rw [haddrs₂, haddrs₁] at haddrs
  rw [hsids₂, hsids₁] at hsids
  have hlength : t.dataSize.toNat = bytes.length := by
    rw [hsize, UInt8.toNat_ofNat', Nat.mod_eq_of_lt hlt]
  obtain ⟨hsame, hnext⟩ := @nsp_sixteen t c _ hat
  have hfold : ([UInt8.ofNat bytes.length, a, b, c] ++ bytes).foldl nspWrite s
      = bytes.foldl nspWrite (nspWrite t c) := by
    rw [List.foldl_append, List.foldl_cons, List.foldl_cons, List.foldl_cons, List.foldl_cons,
      List.foldl_nil, ht₁, ht₂, ht]
  rw [hfold]
  by_cases hnil : bytes = []
  · subst hnil
    rw [if_pos (UInt8.toNat_inj.mp hlength)] at hnext
    exact ⟨hnext.toAt, hnext.addrs.trans haddrs, hnext.sids.trans hsids⟩
  · have hnonzero : t.dataSize ≠ 0 := fun hzero =>
      hnil (List.length_eq_zero_iff.mp (hlength.symm.trans (congrArg UInt8.toNat hzero)))
    rw [if_neg hnonzero] at hnext
    have hends := hnext.ends
      (data_run hnil (by rw [hnext.state, hat.state]) (by rw [hsame, hlength]))
    exact ⟨hends.toAt, hends.addrs.trans haddrs, hends.sids.trans hsids⟩

/-- The tables behind a packet. -/
theorem packet_run (h : s.At 0 1) (p : NspPacket) :
    (p.bytes.foldl nspWrite s).At 0 1
      ∧ (p.bytes.foldl nspWrite s).addrs = (addAddr (addAddr s.addrs p.srcAddr).2 p.dstAddr).2
      ∧ (p.bytes.foldl nspWrite s).sids = (addSid (addSid s.sids p.srcId).2 p.srcId).2 := by
  obtain ⟨s₁, hrun₁, h₁, haddrs₁, hsids₁⟩ := skip_run h (by decide) p.unused
  obtain ⟨s₂, hrun₂, h₂, haddrs₂, hsids₂⟩ := srcAddr_run h₁ p.srcAddr
  obtain ⟨s₃, hrun₃, h₃, hid₃, haddrs₃, hsids₃⟩ := srcId_run h₂ p.srcId
  obtain ⟨s₄, hrun₄, h₄, hid₄, haddrs₄, hsids₄⟩ := dstAddr_run h₃ p.dstAddr
  obtain ⟨s₅, hrun₅, h₅, haddrs₅, hsids₅⟩ := dstId_run h₄ p.dstId
  obtain ⟨s₆, hrun₆, h₆, haddrs₆, hsids₆⟩ := skip_run h₅ (by decide) p.dataSum
  have hends := size_run h₆ p.fits p.ack p.seq p.hdrSum
  unfold NspPacket.bytes
  rw [List.foldl_append, hrun₁, List.foldl_append, hrun₂, List.foldl_append, hrun₃,
    List.foldl_append, hrun₄, List.foldl_append, hrun₅, List.foldl_append, hrun₆]
  refine ⟨hends.toAt, ?_, ?_⟩
  · rw [hends.addrs, haddrs₆, haddrs₅, haddrs₄, haddrs₃, haddrs₂, haddrs₁]
  · rw [hends.sids, hsids₆, hsids₅, hid₄, hsids₄, hid₃, hsids₃, hsids₂, hsids₁]

end Steps

/-! ## the lists behind a log -/

/-- What `dusb_decomp` prints behind the bytes of a log: the packet types and the data codes. -/
def dusbDecomp (bytes : List UInt8) : Option (List UInt8 × List UInt16) :=
  (bytes.foldlM (dusbWrite 0) Hex2dusb.start).map fun s => (s.types.printed, s.codes.printed)

/-- What `nsp_decomp` prints behind the bytes of a log: the service ids and the addresses. -/
def nspDecomp (bytes : List UInt8) : List UInt16 × List UInt16 :=
  let s := bytes.foldl nspWrite Hex2nsp.start
  (s.sids.printed, s.addrs.printed)

def addressesIn (ps : List NspPacket) : List UInt16 := ps.flatMap fun p => [p.srcAddr, p.dstAddr]

/-- The service ids of a log, as source or destination. -/
def servicesIn (ps : List NspPacket) : List UInt16 := ps.flatMap fun p => [p.srcId, p.dstId]

/-- The service ids that are added to the table. -/
def servicesAdded (ps : List NspPacket) : List UInt16 := ps.flatMap fun p => [p.srcId, p.srcId]

/-- The lists behind a DUSB log are exact. -/
def DusbSummaryExact (ps : List RawPacket) : Prop :=
  ∃ types codes, dusbDecomp (ps.map RawPacket.bytes).flatten = some (types, codes)
    ∧ Exact types (ps.map RawPacket.type) ∧ Exact codes (dataCodes ps)

/-- The lists behind an NSP log are exact. -/
def NspSummaryExact (ps : List NspPacket) : Prop :=
  Exact (nspDecomp (nspBytes ps)).1 (servicesIn ps)
    ∧ Exact (nspDecomp (nspBytes ps)).2 (addressesIn ps)

section Dusb

variable {dir : Nat} {s t : Hex2dusb}

/-- Once a packet type is in the table, one stays there. -/
theorem run_types {bytes : List UInt8} (h : bytes.foldlM (dusbWrite dir) s = some t)
    (hs : ∃ r, r ≠ [] ∧ s.types.Holds r) : ∃ r, r ≠ [] ∧ t.types.Holds r := by
  induction bytes generalizing s with
  | nil =>
      cases h
      exact hs
  | cons b bs ih =>
      rw [List.foldlM_cons] at h
      obtain ⟨u, hstep, h⟩ := Option.bind_eq_some_iff.mp h
      refine ih h ?_
      obtain ⟨r, hne, hr⟩ := hs
      rcases dusbWrite_types hstep with hsame | ⟨type, hadd⟩
      · exact ⟨r, hne, hsame ▸ hr⟩
      · exact ⟨type :: r, List.cons_ne_nil _ _, hadd ▸ hr.add type⟩

theorem payload_lt {p : RawPacket} {left left' : Option Nat} (hp : p.Follows left left') :
    p.payload.length < 2 ^ 32 := by
  cases hp with
  | bufSize => exact (length_putBE 4 _).trans_lt (by decide)
  | ack => exact (length_putBE 2 _).trans_lt (by decide)
  | whole _ hlt => exact (length_payload_first ..).trans_lt hlt
  | first _ hlt => exact (length_payload_first ..).trans_lt hlt
  | last _ _ hlt => exact hlt
  | more _ _ hlt => exact hlt

theorem RawPacket.type_ne_zero (p : RawPacket) : p.type ≠ 0 := by
  unfold RawPacket.type
  cases p with
  | bufSize alloc size =>
      dsimp only
      cases alloc <;> decide
  | ack code =>
      dsimp only
      decide
  | first final size type data =>
      dsimp only
      cases final <;> decide
  | more final data =>
      dsimp only
      cases final <;> decide

/-- The first value that is printed is a zero, which is the type of no packet. -/
theorem dusbSummary_iff {ps : List RawPacket} (hps : WellFormed none ps) :
    DusbSummaryExact ps ↔ ps = [] := by
  constructor
  · rintro ⟨types, codes, hdecomp, ⟨-, hmem⟩, -⟩
    cases hps with
    | nil => rfl
    | @cons _ left' p ps hp _ =>
        exfalso
        obtain ⟨s, hrun, hprinted⟩ := Option.map_eq_some_iff.mp hdecomp
        obtain ⟨t, htrip, -, -, htypes, -⟩ := header_trip 0 start_ready.toAt p.type (payload_lt hp)
        rw [List.map_cons, List.flatten_cons, RawPacket.bytes_eq, List.append_assoc,
          List.foldlM_append, htrip.run] at hrun
        have hadded : t.types.Holds [p.type] := htypes ▸ FoundTable.start_holds.add p.type
        obtain ⟨r, hne, hr⟩ := run_types hrun ⟨_, List.cons_ne_nil _ _, hadded⟩
        have hzero := zero_mem_printed hne
        rw [← hr.printed, (Prod.mk.inj hprinted).1] at hzero
        obtain ⟨q, -, hq⟩ := List.mem_map.mp ((hmem 0).mp hzero)
        exact q.type_ne_zero hq
  · rintro rfl
    exact ⟨[], [], rfl, ⟨List.nodup_nil, fun v => Iff.rfl⟩, ⟨List.nodup_nil, fun v => Iff.rfl⟩⟩

end Dusb

section Nsp

variable {s : Hex2nsp} {ps : List NspPacket}

/-- The tables behind a log. -/
theorem nsp_run (h : s.At 0 1) (ps : List NspPacket) :
    ((nspBytes ps).foldl nspWrite s).addrs
        = (addressesIn ps).foldl (fun table addr => (addAddr table addr).2) s.addrs
      ∧ ((nspBytes ps).foldl nspWrite s).sids
        = (servicesAdded ps).foldl (fun table id => (addSid table id).2) s.sids := by
  induction ps generalizing s with
  | nil => exact ⟨rfl, rfl⟩
  | cons p ps ih =>
      obtain ⟨hat, haddrs, hsids⟩ := packet_run h p
      obtain ⟨hrestAddrs, hrestSids⟩ := ih hat
      unfold nspBytes
      rw [List.flatMap_cons, List.foldl_append]
      refine ⟨hrestAddrs.trans ?_, hrestSids.trans ?_⟩
      · rw [haddrs]
        rfl
      · rw [hsids]
        rfl

/-- The condition for the lists behind an NSP log that has packets. -/
structure NspSettled (ps : List NspPacket) : Prop where
  services : Settled (servicesAdded ps).reverse
  serviceZero : 0 ∈ servicesIn ps
  destinations : ∀ id ∈ servicesIn ps, id = 0 ∨ id ∈ servicesAdded ps
  addresses : Settled (addressesIn ps).reverse
  addressZero : 0 ∈ addressesIn ps

theorem nspSummary_iff (hservices : (servicesIn ps).toFinset.card < arraySize)
    (haddresses : (addressesIn ps).toFinset.card < arraySize) :
    NspSummaryExact ps ↔ ps = [] ∨ NspSettled ps := by
  obtain ⟨haddrs, hsids⟩ := nsp_run (s := Hex2nsp.start) ⟨rfl, rfl⟩ ps
  have hsub : ∀ id ∈ servicesAdded ps, id ∈ servicesIn ps := by
    intro id hid
    obtain ⟨p, hp, hid⟩ := List.mem_flatMap.mp hid
    refine List.mem_flatMap.mpr ⟨p, hp, ?_⟩
    simp only [List.mem_cons, List.not_mem_nil, or_false, or_self] at hid ⊢
    exact .inl hid
  unfold NspSummaryExact nspDecomp
  dsimp only
  rw [hsids, haddrs]
  refine (and_congr (FoundTable.exact_addAll_iff hsub hservices)
    (FoundTable.exact_addAll_iff (fun _ h => h) haddresses)).trans ?_
  cases ps with
  | nil => exact ⟨fun _ => .inl rfl, fun _ => ⟨.inl ⟨rfl, rfl⟩, .inl ⟨rfl, rfl⟩⟩⟩
  | cons p ps =>
      constructor
      · rintro ⟨⟨hnil, -⟩ | ⟨hservices, hserviceZero, hdestinations⟩,
          ⟨hnil', -⟩ | ⟨haddresses, haddressZero, -⟩⟩
        · cases hnil
        · cases hnil
        · cases hnil'
        · exact .inr ⟨hservices, hserviceZero, hdestinations, haddresses, haddressZero⟩
      · rintro (hnil | h)
        · cases hnil
        · exact ⟨.inr ⟨h.services, h.serviceZero, h.destinations⟩,
            .inr ⟨h.addresses, h.addressZero, fun _ hv => .inr hv⟩⟩

end Nsp

/-- The lists behind a DUSB log are exact for the empty log only; those behind an NSP log are when
its services and addresses settle on their last new value and zero is among them. -/
theorem summaries_exact_iff {ps : List RawPacket} {qs : List NspPacket}
    (hps : WellFormed none ps) (hservices : (servicesIn qs).toFinset.card < arraySize)
    (haddresses : (addressesIn qs).toFinset.card < arraySize) :
    (DusbSummaryExact ps ↔ ps = []) ∧ (NspSummaryExact qs ↔ qs = [] ∨ NspSettled qs) :=
  ⟨dusbSummary_iff hps, nspSummary_iff hservices haddresses⟩

/-- A packet without data. -/
def emptyPacket (srcAddr srcId dstAddr dstId : UInt16) : NspPacket where
  unused := 0x54FD
  srcAddr
  srcId
  dstAddr
  dstId
  dataSum := 0
  ack := 0
  seq := 0
  hdrSum := 0
  data := []
  fits := by decide

/-- An acknowledgement, whose type is not in the list, and two packets between services and
addresses of which one is zero. -/
theorem summaries_exact_iff_sample :
    ¬DusbSummaryExact [.ack 0xE000]
    ∧ NspSummaryExact
      [emptyPacket 0x6400 0x4003 0x6400 0x4003, emptyPacket 0x0000 0x0000 0x6400 0x4003] := by
  obtain ⟨hdusb, hnsp⟩ := @summaries_exact_iff [.ack 0xE000]
    [emptyPacket 0x6400 0x4003 0x6400 0x4003, emptyPacket 0x0000 0x0000 0x6400 0x4003]
    (.cons .ack .nil) ((List.toFinset_card_le _).trans_lt (by decide))
    ((List.toFinset_card_le _).trans_lt (by decide))
  constructor
  · intro hexact
    cases hdusb.mp hexact
  · refine hnsp.mpr (.inr ⟨by decide, by decide, ?_, by decide, by decide⟩)
    simp [servicesIn, servicesAdded, emptyPacket]

/-- A log of an acknowledgement, and one of a packet from the computer to the calculator. -/
theorem not_allSummariesExact :
    (¬∀ ps, WellFormed none ps → (dataCodes ps).toFinset.card < arraySize → DusbSummaryExact ps)
    ∧ ¬∀ ps, (servicesIn ps).toFinset.card < arraySize →
      (addressesIn ps).toFinset.card < arraySize → NspSummaryExact ps := by
  constructor
  · intro hall
    obtain ⟨types, codes, hdecomp, ⟨-, hmem⟩, -⟩ := hall [.ack 0xE000] (.cons .ack .nil) (by decide)
    have hprinted : dusbDecomp ([RawPacket.ack 0xE000].map RawPacket.bytes).flatten
        = some ([0], []) := by decide
    cases hdecomp.symm.trans hprinted
    exact absurd ((hmem 0).mp List.mem_cons_self) (by decide)
  · intro hall
    obtain ⟨⟨-, hmem⟩, -⟩ := hall [emptyPacket 0x6400 0x8001 0x6401 0x4003]
      ((List.toFinset_card_le _).trans_lt (by decide))
      ((List.toFinset_card_le _).trans_lt (by decide))
    have hprinted : (nspDecomp (nspBytes [emptyPacket 0x6400 0x8001 0x6401 0x4003])).1
        = [0, 0x8001] := by decide
    rw [hprinted] at hmem
    exact absurd ((hmem 0).mp List.mem_cons_self) (by decide)

end Tilibs.Cables
