import Mathlib
import Tilibs.Dbus.Packet
import Tilibs.Lib.Bytes
import Tilibs.Lib.Chunk
import Tilibs.Lib.Frame
import Tilibs.Lib.Poke
import Tilibs.Lib.Proc

/-!
# Tilibs.Calcs.RomDump

The packets and the commands of the ROM dumper (`romdump.cc`), on a handle without an event hook.

A packet is received into the handle's buffer, and as many bytes as it declares are then copied
to where the caller wants them.  Nobody looks at the declared length: the reply to a request for
the size is copied to a variable of four bytes, and a block with repeated data is taken for four
bytes (`lengthChecked_iff`).
-/

namespace Tilibs.Calcs.RomDump

open Lib Lib.Proc Dbus

/-! ## commands and error codes -/

def cmdIsReady : UInt16 := 0xAA55
def cmdKo : UInt16 := 0x0000
def cmdOk : UInt16 := 0x0001
def cmdExit : UInt16 := 0x0002
def cmdReqSize : UInt16 := 0x0003
def cmdError : UInt16 := 0x0004
def cmdReqBlock : UInt16 := 0x0005
def cmdData1 : UInt16 := 0x0006
def cmdData2 : UInt16 := 0x0007

def errAbort : Int := 256
def errChecksum : Int := 258
def errInvalidCmd : Int := 261
def errOpenFile : Int := 274
def errSaveFile : Int := 275
def errRomError : Int := 280

/-! ## the handle and its surroundings -/

/-- What the functions meet outside: the code of each write to the cable, the code of each read
and the bytes it delivers, the cancel flag each time it is looked at, and whether the file can be
opened and written to. -/
structure RomLink where
  send : Nat → Int
  recv : Nat → Int × (Nat → UInt8)
  cancel : Nat → Bool
  fopen : Bool
  fwrite : Nat → Bool

/-- A packet that went over the cable whole. -/
inductive RomWire
  | sent (cmd : UInt16) (data : List UInt8)
  | reply (cmd : UInt16) (data : List UInt8)
  deriving DecidableEq, Repr

/-- The handle, the variables of the functions, the file that is written, and how often the
surroundings have been asked. -/
structure RomHandle where
  buffer : Memory
  /-- The four bytes of the variable that takes the size. -/
  size : Memory
  cmd : UInt16
  len : UInt16
  /-- The length of the last block. -/
  length : UInt16
  file : List UInt8
  wire : List RomWire
  sends : Nat
  reads : Nat
  polls : Nat
  writes : Nat

/-- The size of `handle->buffer`. -/
def romBufferSize : Nat := 65536 + 6

/-- A code other than 0, a store outside of the memory it is for, or a loop that still runs. -/
inductive RomStop
  | ret (code : Int)
  | outside
  | running
  deriving DecidableEq, Repr

abbrev RomProc := Proc RomHandle RomStop

def check (ret : Int) : RomProc Unit := if ret = 0 then pure () else throw (.ret ret)

/-- Store bytes in the handle's buffer. -/
def pokeBuffer (pos : Nat) (bytes : List UInt8) : RomProc Unit :=
  if pos + bytes.length ≤ romBufferSize then
    modify fun h => { h with buffer := h.buffer.poke (block pos bytes) }
  else throw .outside

/-- `memset` of the handle's buffer. -/
def fillBuffer (length : Nat) (b : UInt8) : RomProc Unit :=
  if length ≤ romBufferSize then modify fun h => { h with buffer := h.buffer.fill length b }
  else throw .outside

/-- Store bytes in the variable that takes the size. -/
def pokeSize (bytes : List UInt8) : RomProc Unit :=
  if bytes.length ≤ 4 then modify fun h => { h with size := h.size.poke (block 0 bytes) }
  else throw .outside

/-! ## packets -/

/-- Command, length, data and checksum. -/
def romPacket (cmd : UInt16) (data : List UInt8) : List UInt8 :=
  let front := putLE 2 cmd.toNat ++ putLE 2 data.length ++ data
  front ++ putLE 2 (tifilesChecksum front)

/-- `send_pkt` -/
def sendPkt (link : RomLink) (cmd : UInt16) (data : List UInt8) : RomProc Unit := do
  pokeBuffer 0 (romPacket cmd data)
  let n := (← get).sends
  modify fun h => { h with sends := h.sends + 1 }
  check (link.send n)
  modify fun h => { h with wire := h.wire ++ [.sent cmd data] }

/-- `cmd_is_valid` -/
def cmdIsValid (cmd : UInt16) : Bool :=
  cmd = cmdIsReady || cmd = cmdOk || cmd = cmdKo || cmd = cmdExit || cmd = cmdReqSize
    || cmd = cmdError || cmd = cmdReqBlock || cmd = cmdData1 || cmd = cmdData2

/-- Where a packet is copied to: nowhere, the variable for the size, or the start of the handle's
buffer. -/
inductive RomDest
  | none
  | size
  | buffer
  deriving DecidableEq, Repr

def store : RomDest → List UInt8 → RomProc Unit
  | .none, _ => pure ()
  | .size, bytes => pokeSize bytes
  | .buffer, bytes => pokeBuffer 0 bytes

def cableRecv (link : RomLink) (pos n : Nat) : RomProc Unit := do
  let (ret, bytes) := link.recv (← get).reads
  modify fun h => { h with reads := h.reads + 1 }
  check ret
  pokeBuffer pos ((List.range n).map bytes)

/-- `progress_blk_size` -/
def romBlkSize (len : Nat) : Nat := if len / 20 = 0 then 1 else len / 20

/-- The chunks behind the first four bytes; the checksum comes with the last one. -/
def romRanges (len : Nat) : List (Nat × Nat) :=
  chunkRanges (romBlkSize len) (len % romBlkSize len + 2) (len / romBlkSize len) 4

def recvRanges (link : RomLink) : List (Nat × Nat) → RomProc Unit
  | [] => pure ()
  | range :: ranges => do
      cableRecv link range.1 range.2
      recvRanges link ranges

def cancelPoint (link : RomLink) : RomProc Unit := do
  let n := (← get).polls
  modify fun h => { h with polls := h.polls + 1 }
  if link.cancel n then throw (.ret errAbort) else pure ()

/-- The checksum of the packet in the buffer. -/
def verify (len : Nat) : RomProc Unit := do
  let buf := (← get).buffer
  if getLE (buf.read (len + 4) 2) ≠ tifilesChecksum (buf.read 0 (len + 4)) then
    throw (.ret errChecksum)
  else pure ()

/-- The packet in the buffer goes to its destination. -/
def deliver (dest : RomDest) : RomProc Unit := do
  let h ← get
  let data := h.buffer.read 4 h.len.toNat
  store dest data
  modify fun h => { h with wire := h.wire ++ [.reply h.cmd data] }

/-- `recv_pkt` -/
def recvPkt (link : RomLink) (dest : RomDest) : RomProc Unit := do
  cableRecv link 0 4
  modify fun h => { h with
    cmd := UInt16.ofNat (getLE (h.buffer.read 0 2)), len := UInt16.ofNat (getLE (h.buffer.read 2 2)) }
  let h ← get
  if cmdIsValid h.cmd = false then throw (.ret errInvalidCmd)
  else if h.cmd = cmdError then throw (.ret errRomError)
  else do
    recvRanges link (romRanges h.len.toNat)
    cancelPoint link
    verify h.len.toNat
    deliver dest

/-! ## commands -/

/-- A command whose variables for the reply are its own. -/
def recvOwn (link : RomLink) (dest : RomDest) : RomProc Unit := do
  modify fun h => { h with cmd := 0, len := 0 }
  recvPkt link dest

def romSendRDY (link : RomLink) : RomProc Unit := sendPkt link cmdIsReady []

def romRecvRDY (link : RomLink) : RomProc Unit := recvOwn link .none

def romSendEXIT (link : RomLink) : RomProc Unit := sendPkt link cmdExit []

def romRecvEXIT (link : RomLink) : RomProc Unit := recvOwn link .none

def romSendSIZE (link : RomLink) : RomProc Unit := sendPkt link cmdReqSize []

def romRecvSIZE (link : RomLink) : RomProc Unit := recvOwn link .size

def romSendDATA (link : RomLink) (addr : UInt32) : RomProc Unit :=
  sendPkt link cmdReqBlock (putLE 4 addr.toNat)

/-- The size and the byte of a block with repeated data. -/
def expandData2 : RomProc Unit := do
  let buf := (← get).buffer
  let size := UInt16.ofNat (getLE (buf.read 0 2))
  modify fun h => { h with length := size }
  fillBuffer size.toNat (buf 2)

/-- `rom_recv_DATA`; the length of the reply goes to the caller's variable even when the reply is
refused. -/
def romRecvDATA (link : RomLink) : RomProc Unit := do
  modify fun h => { h with cmd := 0, len := h.length }
  let ret ← attempt (recvPkt link .buffer)
  modify fun h => { h with length := h.len }
  Proc.ofExcept ret
  let cmd := (← get).cmd
  if cmd = cmdData1 then pure ()
  else if cmd = cmdData2 then expandData2
  else throw (.ret errInvalidCmd)

/-! ## what a reply is -/

section Reply

variable (link : RomLink) (n p : Nat)

/-- The bytes of the `n`-th read. -/
def readBytes (len : Nat) : List UInt8 := (List.range len).map (link.recv n).2

/-- The bytes of the reads from the `n`-th on. -/
def restBytes : Nat → List (Nat × Nat) → List UInt8
  | _, [] => []
  | n, range :: ranges => readBytes link n range.2 ++ restBytes (n + 1) ranges

def replyHeader : List UInt8 := readBytes link n 4

def replyCmd : UInt16 := UInt16.ofNat (getLE ((replyHeader link n).take 2))

def replyLen : UInt16 := UInt16.ofNat (getLE ((replyHeader link n).drop 2))

/-- What follows the header: the data and the checksum. -/
def replyRest : List UInt8 := restBytes link (n + 1) (romRanges (replyLen link n).toNat)

def replyData : List UInt8 := (replyRest link n).take (replyLen link n).toNat

/-- So many reads from the `n`-th on go well. -/
def AllRead (count : Nat) : Prop := ∀ i < count, (link.recv (n + i)).1 = 0

/-- A reply that is not refused: all reads go well, the command is known and no error, the
transfer is not cancelled, and the checksum is right. -/
structure Taken : Prop where
  header : (link.recv n).1 = 0
  known : cmdIsValid (replyCmd link n) = true
  noError : replyCmd link n ≠ cmdError
  rest : AllRead link (n + 1) (romRanges (replyLen link n).toNat).length
  goesOn : link.cancel p = false
  sum : getLE ((replyRest link n).drop (replyLen link n).toNat)
    = tifilesChecksum (replyHeader link n ++ replyData link n)

end Reply

/-! ## receiving -/

section Receive

variable {link : RomLink}

@[simp] theorem length_readBytes (n len : Nat) : (readBytes link n len).length = len := by
  simp [readBytes]

theorem length_restBytes (n : Nat) (ranges : List (Nat × Nat)) :
    (restBytes link n ranges).length = (ranges.map Prod.snd).sum := by
  induction ranges generalizing n with
  | nil => rfl
  | cons range ranges ih => simp [restBytes, ih]

theorem sum_chunkRanges (n r q offset : Nat) :
    ((chunkRanges n r q offset).map Prod.snd).sum = q * n + r := by
  induction q generalizing offset with
  | zero => simp [chunkRanges]
  | succ q ih =>
      rw [chunkRanges, List.map_cons, List.sum_cons, ih, Nat.succ_mul]
      omega

theorem length_replyRest (n : Nat) :
    (replyRest link n).length = (replyLen link n).toNat + 2 := by
  rw [replyRest, length_restBytes, romRanges, sum_chunkRanges, ← Nat.add_assoc, Nat.div_add_mod']

theorem length_replyData (n : Nat) : (replyData link n).length = (replyLen link n).toNat := by
  rw [replyData, List.length_take, length_replyRest]
  omega

theorem exec_check (ret : Int) (h : RomHandle) :
    exec (check ret) h = if ret = 0 then (.ok (), h) else (.error (.ret ret), h) := by
  unfold check
  split <;> rfl

theorem exec_pokeBuffer {pos : Nat} {bytes : List UInt8} (hroom : pos + bytes.length ≤ romBufferSize)
    (h : RomHandle) : exec (pokeBuffer pos bytes) h
      = (.ok (), { h with buffer := h.buffer.poke (block pos bytes) }) := by
  rw [pokeBuffer, if_pos hroom]
  rfl

theorem exec_cableRecv {pos n : Nat} (hroom : pos + n ≤ romBufferSize) (h : RomHandle) :
    exec (cableRecv link pos n) h =
      if (link.recv h.reads).1 = 0 then
        (.ok (), { h with reads := h.reads + 1
                          buffer := h.buffer.poke (block pos (readBytes link h.reads n)) })
      else (.error (.ret (link.recv h.reads).1), { h with reads := h.reads + 1 }) := by
  have hpoke := @exec_pokeBuffer pos (readBytes link h.reads n)
    (by rw [length_readBytes]; exact hroom) { h with reads := h.reads + 1 }
  unfold cableRecv
  rw [exec_bind_ok (exec_get h)]
  dsimp only
  rw [exec_bind_ok (exec_modify _ h), exec_bind, exec_check]
  by_cases hret : (link.recv h.reads).1 = 0
  · rw [if_pos hret, if_pos hret]
    exact hpoke
  · rw [if_neg hret, if_neg hret]

theorem allRead_succ (n count : Nat) :
    AllRead link n (count + 1) ↔ (link.recv n).1 = 0 ∧ AllRead link (n + 1) count := by
  constructor
  · intro h
    refine ⟨h 0 (Nat.succ_pos _), fun i hi => ?_⟩
    rw [Nat.add_assoc, Nat.add_comm 1 i]
    exact h (i + 1) (Nat.succ_lt_succ hi)
  · rintro ⟨hfirst, hrest⟩ i hi
    cases i with
    | zero => exact hfirst
    | succ i =>
        rw [Nat.add_comm i 1, ← Nat.add_assoc]
        exact hrest i (Nat.lt_of_succ_lt_succ hi)

theorem length_chunkRanges (size r q pos : Nat) : (chunkRanges size r q pos).length = q + 1 := by
  induction q generalizing pos with
  | zero => rfl
  | succ q ih => rw [chunkRanges, List.length_cons, ih]

/-- The chunks end up in the buffer one behind the other. -/
theorem exec_recvRanges {size r q pos : Nat} (hroom : pos + (q * size + r) ≤ romBufferSize)
    (h : RomHandle) (hall : AllRead link h.reads (q + 1)) :
    exec (recvRanges link (chunkRanges size r q pos)) h =
      (.ok (), { h with
        reads := h.reads + (q + 1)
        buffer := h.buffer.poke (block pos (restBytes link h.reads (chunkRanges size r q pos))) }) := by
  induction q generalizing pos h with
  | zero =>
      have hread := @exec_cableRecv link pos r (by omega) h
      have hcode : (link.recv h.reads).1 = 0 := hall 0 (Nat.succ_pos 0)
      rw [if_pos hcode] at hread
      rw [chunkRanges, recvRanges, exec_bind_ok hread, restBytes, restBytes, List.append_nil]
      rfl
  | succ q ih =>
      obtain ⟨hfirst, hrest⟩ := (allRead_succ h.reads (q + 1)).mp hall
      rw [Nat.succ_mul] at hroom
      have hread := @exec_cableRecv link pos size (by omega) h
      rw [if_pos hfirst] at hread
      have hnext := @ih (pos + size) (by omega)
        { h with
          reads := h.reads + 1
          buffer := h.buffer.poke (block pos (readBytes link h.reads size)) } hrest
      rw [chunkRanges, recvRanges, exec_bind_ok hread]
      refine hnext.trans ?_
      rw [restBytes, block_append, Memory.poke_append, length_readBytes, Nat.add_assoc,
        Nat.add_comm 1 (q + 1)]

/-- A chunk that fails ends the loop with its code. -/
theorem exec_recvRanges_error {size r q pos : Nat} (hroom : pos + (q * size + r) ≤ romBufferSize)
    (h : RomHandle) (hall : ¬ AllRead link h.reads (q + 1)) :
    ∃ code buffer reads, code ≠ 0 ∧ exec (recvRanges link (chunkRanges size r q pos)) h
      = (.error (.ret code), { h with buffer, reads }) := by
  induction q generalizing pos h with
  | zero =>
      have hread := @exec_cableRecv link pos r (by omega) h
      have hcode : (link.recv h.reads).1 ≠ 0 := by
        intro hzero
        refine hall fun i hi => ?_
        obtain rfl : i = 0 := by omega
        exact hzero
      rw [if_neg hcode] at hread
      exact ⟨_, _, _, hcode, exec_bind_error hread⟩
  | succ q ih =>
      rw [Nat.succ_mul] at hroom
      have hread := @exec_cableRecv link pos size (by omega) h
      by_cases hfirst : (link.recv h.reads).1 = 0
      · rw [if_pos hfirst] at hread
        have hrest : ¬ AllRead link (h.reads + 1) (q + 1) :=
          fun hrest => hall ((allRead_succ h.reads (q + 1)).mpr ⟨hfirst, hrest⟩)
        obtain ⟨code, buffer, reads, hcode, hrun⟩ := @ih (pos + size) (by omega)
          { h with
            reads := h.reads + 1
            buffer := h.buffer.poke (block pos (readBytes link h.reads size)) } hrest
        refine ⟨code, buffer, reads, hcode, ?_⟩
        rw [chunkRanges, recvRanges, exec_bind_ok hread]
        exact hrun
      · rw [if_neg hfirst] at hread
        exact ⟨_, _, _, hfirst, exec_bind_error hread⟩

/-- The handle when the header of a packet has been read. -/
def afterHeader (link : RomLink) (h : RomHandle) : RomHandle :=
  { h with
    reads := h.reads + 1
    buffer := h.buffer.poke (block 0 (replyHeader link h.reads))
    cmd := replyCmd link h.reads
    len := replyLen link h.reads }

/-- The handle when a whole packet has been read. -/
def afterReply (link : RomLink) (h : RomHandle) : RomHandle :=
  { h with
    reads := h.reads + 1 + (romRanges (replyLen link h.reads).toNat).length
    polls := h.polls + 1
    buffer := h.buffer.poke (block 0 (replyHeader link h.reads ++ replyRest link h.reads))
    cmd := replyCmd link h.reads
    len := replyLen link h.reads }

/-- The variables that an exchange leaves alone when it fails. -/
structure Untouched (h h' : RomHandle) : Prop where
  size : h'.size = h.size
  length : h'.length = h.length
  file : h'.file = h.file
  wire : h'.wire = h.wire

theorem length_replyHeader (n : Nat) : (replyHeader link n).length = 4 := length_readBytes n 4

/-- What `recv_pkt` does behind a header that came in. -/
theorem exec_recvPkt_header (dest : RomDest) {h : RomHandle} (hread : (link.recv h.reads).1 = 0) :
    exec (recvPkt link dest) h =
      exec (if cmdIsValid (replyCmd link h.reads) = false then throw (.ret errInvalidCmd)
        else if replyCmd link h.reads = cmdError then throw (.ret errRomError)
        else do
          recvRanges link (romRanges (replyLen link h.reads).toNat)
          cancelPoint link
          verify (replyLen link h.reads).toNat
          deliver dest) (afterHeader link h) := by
  have hfirst := @exec_cableRecv link 0 4 (by decide) h
  rw [if_pos hread] at hfirst
  have hfront := @Memory.read_poke_block h.buffer 0 0 2
    (replyHeader link h.reads) (by rw [length_replyHeader]; decide)
  have hback := @Memory.read_poke_block h.buffer 0 2 2
    (replyHeader link h.reads) (by rw [length_replyHeader])
  rw [List.drop_zero] at hfront
  rw [List.take_of_length_le (by rw [List.length_drop, length_replyHeader])] at hback
  unfold recvPkt
  rw [exec_bind_ok hfirst, exec_bind_ok (exec_modify _ _), exec_bind_ok (exec_get _)]
  have hcmd : UInt16.ofNat (getLE ((h.buffer.poke (block 0 (readBytes link h.reads 4))).read 0 2))
      = replyCmd link h.reads := by rw [replyCmd, ← hfront]; rfl
  have hlen : UInt16.ofNat (getLE ((h.buffer.poke (block 0 (readBytes link h.reads 4))).read 2 2))
      = replyLen link h.reads := by rw [replyLen, ← hback]; rfl
  dsimp only
  rw [hcmd, hlen]
  rfl

theorem romRanges_room (len : UInt16) :
    4 + (len.toNat / romBlkSize len.toNat * romBlkSize len.toNat
      + (len.toNat % romBlkSize len.toNat + 2)) ≤ romBufferSize := by
  have hlt := len.toNat_lt
  have hsum := Nat.div_add_mod' len.toNat (romBlkSize len.toNat)
  rw [romBufferSize]
  omega

/-- The rest of a packet, when all of it comes in. -/
theorem exec_recvRest {h : RomHandle}
    (hall : AllRead link (h.reads + 1) (romRanges (replyLen link h.reads).toNat).length) :
    exec (recvRanges link (romRanges (replyLen link h.reads).toNat)) (afterHeader link h) =
      (.ok (), { afterReply link h with polls := h.polls }) := by
  have hrun := @exec_recvRanges link _ _ _ _ (romRanges_room (replyLen link h.reads))
    (afterHeader link h)
  rw [romRanges, length_chunkRanges] at hall
  unfold romRanges
  rw [hrun hall]
  unfold afterReply afterHeader replyRest romRanges
  rw [length_chunkRanges, block_append, Memory.poke_append, length_replyHeader]

theorem exec_recvRest_error {h : RomHandle}
    (hall : ¬ AllRead link (h.reads + 1) (romRanges (replyLen link h.reads).toNat).length) :
    ∃ code h', code ≠ 0 ∧
      exec (recvRanges link (romRanges (replyLen link h.reads).toNat)) (afterHeader link h)
        = (.error (.ret code), h') ∧ Untouched h h' := by
  rw [romRanges, length_chunkRanges] at hall
  obtain ⟨code, buffer, reads, hcode, hrun⟩ := exec_recvRanges_error
    (romRanges_room (replyLen link h.reads)) (afterHeader link h) hall
  exact ⟨code, _, hcode, hrun, rfl, rfl, rfl, rfl⟩

theorem exec_cancelPoint (h : RomHandle) :
    exec (cancelPoint link) h = if link.cancel h.polls then
        (.error (.ret errAbort), { h with polls := h.polls + 1 })
      else (.ok (), { h with polls := h.polls + 1 }) := by
  unfold cancelPoint
  rw [exec_bind_ok (exec_get h)]
  dsimp only
  rw [exec_bind_ok (exec_modify _ h), exec_ite]
  rfl

/-- The parts of the packet in the buffer. -/
theorem read_afterReply (h : RomHandle) :
    (afterReply link h).buffer.read 4 (replyLen link h.reads).toNat = replyData link h.reads
      ∧ (afterReply link h).buffer.read ((replyLen link h.reads).toNat + 4) 2
        = (replyRest link h.reads).drop (replyLen link h.reads).toNat
      ∧ (afterReply link h).buffer.read 0 ((replyLen link h.reads).toNat + 4)
        = replyHeader link h.reads ++ replyData link h.reads := by
  have hheader := @length_replyHeader link h.reads
  have hrest := @length_replyRest link h.reads
  have hread : ∀ i n, i + n ≤ (replyLen link h.reads).toNat + 6 →
      (afterReply link h).buffer.read i n
        = ((replyHeader link h.reads ++ replyRest link h.reads).drop i).take n := by
    intro i n hle
    have hslice := @Memory.read_poke_block h.buffer 0 i n
      (replyHeader link h.reads ++ replyRest link h.reads)
      (by rw [List.length_append, hheader, hrest]; omega)
    rw [Nat.zero_add] at hslice
    exact hslice
  refine ⟨?_, ?_, ?_⟩
  · rw [hread _ _ (by omega), List.drop_left' hheader]
    rfl
  · rw [hread _ _ (by omega), Nat.add_comm _ 4, ← List.drop_drop, List.drop_left' hheader]
    apply List.take_of_length_le
    rw [List.length_drop, hrest]
    omega
  · rw [hread _ _ (by omega), List.drop_zero, Nat.add_comm _ 4, ← hheader, List.take_length_add_append]
    rfl

theorem exec_verify {len : Nat} (h : RomHandle) :
    exec (verify len) h = if getLE (h.buffer.read (len + 4) 2)
        ≠ tifilesChecksum (h.buffer.read 0 (len + 4)) then (.error (.ret errChecksum), h)
      else (.ok (), h) := by
  unfold verify
  rw [exec_bind_ok (exec_get h)]
  dsimp only
  rw [exec_ite]
  rfl

/-- A packet that is taken is delivered. -/
theorem exec_recvPkt_taken (dest : RomDest) {h : RomHandle} (ht : Taken link h.reads h.polls) :
    exec (recvPkt link dest) h = exec (deliver dest) (afterReply link h) := by
  obtain ⟨-, hsum, hdata⟩ := @read_afterReply link h
  have hcancel := @exec_cancelPoint link { afterReply link h with polls := h.polls }
  rw [if_neg (by rw [ht.goesOn]; decide)] at hcancel
  have hverify := @exec_verify (replyLen link h.reads).toNat (afterReply link h)
  rw [hsum, hdata, if_neg (not_not.mpr ht.sum)] at hverify
  rw [exec_recvPkt_header dest ht.header, if_neg (by rw [ht.known]; decide), if_neg ht.noError,
    exec_bind_ok (exec_recvRest ht.rest), exec_bind_ok hcancel]
  exact exec_bind_ok hverify

/-- A packet that is refused leaves an error code. -/
theorem exec_recvPkt_refused (dest : RomDest) {h : RomHandle}
    (ht : ¬ Taken link h.reads h.polls) :
    ∃ code h', code ≠ 0 ∧ exec (recvPkt link dest) h = (.error (.ret code), h')
      ∧ Untouched h h' := by
  by_cases hread : (link.recv h.reads).1 = 0
  case neg =>
    have hfirst := @exec_cableRecv link 0 4 (by decide) h
    rw [if_neg hread] at hfirst
    exact ⟨_, _, hread, exec_bind_error hfirst, rfl, rfl, rfl, rfl⟩
  rw [exec_recvPkt_header dest hread]
  by_cases hknown : cmdIsValid (replyCmd link h.reads) = true
  case neg =>
    rw [if_pos (Bool.eq_false_iff.mpr hknown)]
    exact ⟨errInvalidCmd, _, by decide, rfl, rfl, rfl, rfl, rfl⟩
  rw [if_neg (by rw [hknown]; decide)]
  by_cases herror : replyCmd link h.reads = cmdError
  · rw [if_pos herror]
    exact ⟨errRomError, _, by decide, rfl, rfl, rfl, rfl, rfl⟩
  rw [if_neg herror]
  by_cases hrest : AllRead link (h.reads + 1) (romRanges (replyLen link h.reads).toNat).length
  case neg =>
    obtain ⟨code, h', hcode, hrun, hsame⟩ := exec_recvRest_error hrest
    exact ⟨code, h', hcode, exec_bind_error hrun, hsame⟩
  rw [exec_bind_ok (exec_recvRest hrest)]
  have hcancel := @exec_cancelPoint link { afterReply link h with polls := h.polls }
  cases hgoes : link.cancel h.polls with
  | true =>
      rw [if_pos hgoes] at hcancel
      exact ⟨errAbort, _, by decide, exec_bind_error hcancel, rfl, rfl, rfl, rfl⟩
  | false =>
      rw [if_neg (by rw [hgoes]; decide)] at hcancel
      obtain ⟨-, hsum, hdata⟩ := @read_afterReply link h
      have hverify := @exec_verify (replyLen link h.reads).toNat (afterReply link h)
      have hwrong : getLE ((replyRest link h.reads).drop (replyLen link h.reads).toNat)
          ≠ tifilesChecksum (replyHeader link h.reads ++ replyData link h.reads) :=
        fun hright => ht ⟨hread, hknown, herror, hrest, hgoes, hright⟩
      rw [hsum, hdata, if_pos hwrong] at hverify
      rw [exec_bind_ok hcancel]
      exact ⟨errChecksum, _, by decide, exec_bind_error hverify, rfl, rfl, rfl, rfl⟩

/-- The handle when a whole packet has been received. -/
def received (link : RomLink) (h : RomHandle) : RomHandle :=
  { afterReply link h with
    wire := h.wire ++ [.reply (replyCmd link h.reads) (replyData link h.reads)] }

theorem exec_deliver_none (h : RomHandle) :
    exec (deliver .none) (afterReply link h) = (.ok (), received link h) := by
  obtain ⟨hdata, -, -⟩ := @read_afterReply link h
  have hdata' : (afterReply link h).buffer.read 4 (afterReply link h).len.toNat
      = replyData link h.reads := hdata
  unfold deliver
  rw [exec_bind_ok (exec_get _)]
  dsimp only
  rw [hdata', store, exec_bind_ok (exec_pure () _)]
  rfl

theorem exec_deliver_size (h : RomHandle) :
    exec (deliver .size) (afterReply link h) = if (replyLen link h.reads).toNat ≤ 4 then
        (.ok (), { received link h with size := h.size.poke (block 0 (replyData link h.reads)) })
      else (.error .outside, afterReply link h) := by
  obtain ⟨hdata, -, -⟩ := @read_afterReply link h
  have hdata' : (afterReply link h).buffer.read 4 (afterReply link h).len.toNat
      = replyData link h.reads := hdata
  have hlen := @length_replyData link h.reads
  unfold deliver
  rw [exec_bind_ok (exec_get _)]
  dsimp only
  rw [hdata', store, pokeSize, hlen]
  split
  · rw [exec_bind_ok (exec_modify _ _)]
    rfl
  · exact exec_bind_error (exec_throw _ _)

theorem exec_deliver_buffer (h : RomHandle) :
    exec (deliver .buffer) (afterReply link h) = (.ok (), { received link h with
      buffer := (afterReply link h).buffer.poke (block 0 (replyData link h.reads)) }) := by
  obtain ⟨hdata, -, -⟩ := @read_afterReply link h
  have hdata' : (afterReply link h).buffer.read 4 (afterReply link h).len.toNat
      = replyData link h.reads := hdata
  have hlen := @length_replyData link h.reads
  have hlt := (replyLen link h.reads).toNat_lt
  have hroom : 0 + (replyData link h.reads).length ≤ romBufferSize := by
    rw [hlen, romBufferSize]
    omega
  unfold deliver
  rw [exec_bind_ok (exec_get _)]
  dsimp only
  rw [hdata', store, exec_bind_ok (exec_pokeBuffer hroom _)]
  rfl

/-- The length that a block of repeated data stands for. -/
def data2Size (buf : Memory) : UInt16 := UInt16.ofNat (getLE (buf.read 0 2))

theorem exec_fillBuffer {length : Nat} (hroom : length ≤ romBufferSize) (b : UInt8) (h : RomHandle) :
    exec (fillBuffer length b) h = (.ok (), { h with buffer := h.buffer.fill length b }) := by
  rw [fillBuffer, if_pos hroom]
  rfl

theorem exec_expandData2 (h : RomHandle) :
    exec expandData2 h = (.ok (), { h with
      length := data2Size h.buffer
      buffer := h.buffer.fill (data2Size h.buffer).toNat (h.buffer 2) }) := by
  have hlt := (data2Size h.buffer).toNat_lt
  have hroom : (data2Size h.buffer).toNat ≤ romBufferSize := by
    rw [romBufferSize]
    omega
  unfold expandData2
  rw [exec_bind_ok (exec_get _)]
  dsimp only
  rw [exec_bind_ok (exec_modify _ _)]
  exact exec_fillBuffer hroom _ _

end Receive

/-! ## replies of the wrong length -/

/-- The commands whose reply is copied. -/
inductive Receiver
  | size
  | block
  deriving DecidableEq, Repr

def Receiver.receive (link : RomLink) : Receiver → RomProc Unit
  | .size => romRecvSIZE link
  | .block => romRecvDATA link

/-- The length that a receiver expects: a size is four bytes, and so is a block of repeated data;
the length of another block is free. -/
def Receiver.Expects : Receiver → UInt16 → UInt16 → Prop
  | .size, _, len => len = 4
  | .block, cmd, len => cmd = cmdData2 → len = 4

/-- A receiver that stores no more than its destination holds, and refuses a reply whose length is
not the expected one. -/
def LengthChecked (link : RomLink) (h : RomHandle) (receiver : Receiver) : Prop :=
  (exec (receiver.receive link) h).1 ≠ .error .outside ∧
    ((exec (receiver.receive link) h).1 = .ok () →
      receiver.Expects (replyCmd link h.reads) (replyLen link h.reads))

section Lengths

variable {link : RomLink}

theorem exec_recvOwn_taken {dest : RomDest} {h : RomHandle} (ht : Taken link h.reads h.polls) :
    exec (recvOwn link dest) h = exec (deliver dest) (afterReply link { h with cmd := 0, len := 0 }) := by
  unfold recvOwn
  rw [exec_bind_ok (exec_modify _ h)]
  exact exec_recvPkt_taken dest ht

theorem exec_recvOwn_refused {dest : RomDest} {h : RomHandle}
    (ht : ¬ Taken link h.reads h.polls) :
    ∃ code h', code ≠ 0 ∧ exec (recvOwn link dest) h = (.error (.ret code), h')
      ∧ Untouched h h' := by
  unfold recvOwn
  rw [exec_bind_ok (exec_modify _ h)]
  obtain ⟨code, h', hcode, hrun, hsame⟩ :=
    exec_recvPkt_refused dest (h := { h with cmd := 0, len := 0 }) ht
  exact ⟨code, h', hcode, hrun, hsame.size, hsame.length, hsame.file, hsame.wire⟩

theorem lengthChecked_size_iff (h : RomHandle) :
    LengthChecked link h .size ↔
      (Taken link h.reads h.polls → replyLen link h.reads = 4) := by
  by_cases ht : Taken link h.reads h.polls
  case neg =>
    obtain ⟨code, h', hcode, hrun, -⟩ := @exec_recvOwn_refused link .size _ ht
    refine iff_of_true ⟨?_, ?_⟩ fun h => absurd h ht
    · show (exec (recvOwn link .size) h).1 ≠ _
      rw [hrun]
      simp
    · show (exec (recvOwn link .size) h).1 = _ → _
      rw [hrun]
      simp
  have hrun := @exec_deliver_size link { h with cmd := 0, len := 0 }
  rw [← exec_recvOwn_taken ht] at hrun
  have hrun' : exec (Receiver.size.receive link) h = _ := hrun
  have hfour : replyLen link h.reads = 4 ↔ (replyLen link h.reads).toNat = 4 :=
    UInt16.toNat_inj.symm
  rw [LengthChecked, hrun', forall_prop_of_true ht]
  split
  · exact ⟨fun h => h.2 rfl, fun h => ⟨by simp, fun _ => h⟩⟩
  · next hlong =>
    constructor
    · intro h
      exact absurd rfl h.1
    · intro h
      rw [hfour] at h
      exact absurd h.le hlong

/-- The handle when a reply is in the caller's buffer. -/
def blockReceived (link : RomLink) (h : RomHandle) : RomHandle :=
  { received link h with
    length := replyLen link h.reads
    buffer := (afterReply link h).buffer.poke (block 0 (replyData link h.reads)) }

/-- What `rom_recv_DATA` does with a reply that is taken. -/
theorem exec_romRecvDATA_taken {h : RomHandle} (ht : Taken link h.reads h.polls) :
    exec (romRecvDATA link) h = exec (if replyCmd link h.reads = cmdData1 then pure ()
      else if replyCmd link h.reads = cmdData2 then expandData2
      else throw (.ret errInvalidCmd)) (blockReceived link h) := by
  have htaken := exec_recvPkt_taken .buffer (h := { h with cmd := 0, len := h.length }) ht
  have hdeliver := @exec_deliver_buffer link { h with cmd := 0, len := h.length }
  rw [← htaken] at hdeliver
  unfold romRecvDATA
  rw [exec_bind_ok (exec_modify _ h), exec_bind_ok (exec_attempt _ _), hdeliver,
    exec_bind_ok (exec_modify _ _), exec_bind_ok (exec_ofExcept _ _), exec_bind_ok (exec_get _)]
  rfl

theorem exec_romRecvDATA_refused {h : RomHandle} (ht : ¬ Taken link h.reads h.polls) :
    ∃ code h', code ≠ 0 ∧ exec (romRecvDATA link) h = (.error (.ret code), h')
      ∧ h'.file = h.file ∧ h'.wire = h.wire := by
  obtain ⟨code, h', hcode, hrun, hsame⟩ :=
    exec_recvPkt_refused .buffer (h := { h with cmd := 0, len := h.length }) ht
  refine ⟨code, { h' with length := h'.len }, hcode, ?_, hsame.file, hsame.wire⟩
  unfold romRecvDATA
  rw [exec_bind_ok (exec_modify _ h), exec_bind_ok (exec_attempt _ _), hrun,
    exec_bind_ok (exec_modify _ _)]
  exact exec_bind_error (exec_ofExcept _ _)

theorem lengthChecked_block_iff (h : RomHandle) :
    LengthChecked link h .block ↔ (Taken link h.reads h.polls →
      replyCmd link h.reads = cmdData2 → replyLen link h.reads = 4) := by
  by_cases ht : Taken link h.reads h.polls
  case neg =>
    obtain ⟨code, h', hcode, hrun, -⟩ := exec_romRecvDATA_refused ht
    refine iff_of_true ⟨?_, ?_⟩ fun h => absurd h ht
    · show (exec (romRecvDATA link) h).1 ≠ _
      rw [hrun]
      simp
    · show (exec (romRecvDATA link) h).1 = _ → _
      rw [hrun]
      simp
  have hrun : exec (Receiver.block.receive link) h = _ := exec_romRecvDATA_taken ht
  rw [LengthChecked, hrun, forall_prop_of_true ht]
  by_cases hone : replyCmd link h.reads = cmdData1
  · rw [if_pos hone]
    refine iff_of_true ⟨by simp, fun _ => ?_⟩ ?_ <;>
    · intro htwo
      rw [hone] at htwo
      exact absurd htwo (by decide)
  rw [if_neg hone]
  by_cases htwo : replyCmd link h.reads = cmdData2
  · rw [if_pos htwo, exec_expandData2]
    exact ⟨fun h => h.2 rfl, fun h => ⟨by simp, fun _ => h⟩⟩
  · rw [if_neg htwo]
    refine iff_of_true ⟨by simp, fun h => ?_⟩ fun h => absurd h htwo
    simp at h

/-- **The length of a reply.**  A receiver stays inside of its destination, and refuses a reply of
another length than it expects, just when the replies that are taken have that length. -/
theorem lengthChecked_iff (link : RomLink) (h : RomHandle) (receiver : Receiver) :
    LengthChecked link h receiver ↔ (Taken link h.reads h.polls →
      receiver.Expects (replyCmd link h.reads) (replyLen link h.reads)) := by
  cases receiver with
  | size => exact lengthChecked_size_iff h
  | block => exact lengthChecked_block_iff h

/-- A size of five bytes, and its checksum. -/
def longSizeLink : RomLink where
  send := fun _ => 0
  recv := fun n => (0, fun i => match n with
    | 0 => [0x03, 0x00, 0x05, 0x00].getD i 0
    | 6 => [0x08, 0x00].getD i 0
    | _ => 0)
  cancel := fun _ => false
  fopen := true
  fwrite := fun _ => true

/-- A handle that nothing has been done with. -/
def idleHandle : RomHandle where
  buffer := fun _ => 0
  size := fun _ => 0
  cmd := 0
  len := 0
  length := 0
  file := []
  wire := []
  sends := 0
  reads := 0
  polls := 0
  writes := 0

theorem not_lengthChecked_longSize :
    ¬ ∀ (link : RomLink) (h : RomHandle) (receiver : Receiver), LengthChecked link h receiver := by
  intro h
  have hinside := (h longSizeLink idleHandle .size).1
  exact hinside rfl

end Lengths

end Tilibs.Calcs.RomDump
