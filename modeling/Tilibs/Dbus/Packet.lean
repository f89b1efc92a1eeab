import Tilibs.Lib.Bytes
import Tilibs.Lib.Chunk
import Tilibs.Lib.Proc

/-!
# Tilibs.Dbus.Packet

Packets on the DBUS link (`dbus_pkt.cc`): machine ID, command and length, then
data and a checksum for the commands that have data.

Both sides move the data in chunks, to keep a progress bar going.  The sender
cuts the whole packet, the receiver the data only, each with a size of its own.
-/

namespace Tilibs.Dbus

open Tilibs.Lib

/-! ## Constants -/

def dbusMidPcTi80 : UInt8 := 0x00
def dbusMidTi80Pc : UInt8 := 0x80

def dbusCmdVar : UInt8 := 0x06
def dbusCmdCts : UInt8 := 0x09
def dbusCmdXdp : UInt8 := 0x15
def dbusCmdSkp : UInt8 := 0x36
def dbusCmdSid : UInt8 := 0x47
def dbusCmdAck : UInt8 := 0x56
def dbusCmdErr : UInt8 := 0x5A
def dbusCmdRdy : UInt8 := 0x68
def dbusCmdScr : UInt8 := 0x6D
def dbusCmdRid : UInt8 := 0x74
def dbusCmdCnt : UInt8 := 0x78
def dbusCmdKey : UInt8 := 0x87
def dbusCmdDel : UInt8 := 0x88
def dbusCmdEot : UInt8 := 0x92
def dbusCmdReq : UInt8 := 0xA2
def dbusCmdErr2 : UInt8 := 0xB4
def dbusCmdInd : UInt8 := 0xB7
def dbusCmdRts : UInt8 := 0xC9

/-! ## The cable -/

inductive DbusErr
  | readTimeout
  | writeError
  | checksum
  | invalidCmd
  deriving DecidableEq, Repr

abbrev DbusProc := Proc (Port UInt8 UInt8) DbusErr

def cableSend (bytes : List UInt8) : DbusProc Unit := do
  match (← get).sendAll bytes with
  | some port => set port
  | none => throw .writeError

def cableRecv (len : Nat) : DbusProc (List UInt8) := do
  match (← get).recvN len with
  | some (bytes, port) => set port; pure bytes
  | none => throw .readTimeout

theorem exec_cableSend (bytes rx tx : List UInt8) :
    Proc.exec (cableSend bytes) ⟨rx, tx, none⟩ = (.ok (), ⟨rx, tx ++ bytes, none⟩) := by
  simp [cableSend, Proc.exec_bind]

theorem exec_cableRecv {len : Nat} {bytes : List UInt8} (rest tx : List UInt8)
    (h : bytes.length = len) :
    Proc.exec (cableRecv len) ⟨bytes ++ rest, tx, none⟩ = (.ok bytes, ⟨rest, tx, none⟩) := by
  simp [cableRecv, Proc.exec_bind, Port.recvN_append rest tx none h, Except.map]

/-! ## Sending -/

def tifilesChecksum (buffer : List UInt8) : Nat := byteSum buffer % 2 ^ 16

/-- How many bytes `dbus_send` hands to the cable at a time. -/
def dbusSendBlkSize (length : Nat) : Nat :=
  let blkSize := (length + 6) / 20
  let blkSize := if blkSize = 0 then length + 6 else blkSize
  -- SilverLink doesn't like small blocks
  if blkSize < 32 then 128 else blkSize

/-- The transfers of `dbus_send`: full chunks, and then the last one. -/
def dbusSendRanges (length : Nat) : List (Nat × Nat) :=
  let blkSize := dbusSendBlkSize length
  chunkRanges blkSize ((length + 6) % blkSize) ((length + 6) / blkSize) 0

def sendRanges (buf : List UInt8) : List (Nat × Nat) → DbusProc Unit
  | [] => pure ()
  | range :: ranges => do
      cableSend (slice buf range)
      sendRanges buf ranges

/-- The bytes of a packet with data. -/
def dbusPacket (target cmd : UInt8) (data : List UInt8) : List UInt8 :=
  target :: cmd :: (putLE 2 data.length ++ data ++ putLE 2 (tifilesChecksum data))

theorem length_dbusPacket (target cmd : UInt8) (data : List UInt8) :
    (dbusPacket target cmd data).length = data.length + 6 := by
  simp [dbusPacket]
  omega

def dbusSend (target cmd : UInt8) (len : UInt16) (data : Option (List UInt8)) : DbusProc Unit :=
  let length := if len = 0 then 65536 else len.toNat
  match data with
  -- the TI-80 does not use a length
  | none => cableSend (if target = dbusMidPcTi80 then [target, cmd] else [target, cmd, 0x00, 0x00])
  | some data => sendRanges (dbusPacket target cmd (data.take length)) (dbusSendRanges length)

/-! ## Receiving -/

/-- Machine ID, command and length of the next packet. -/
def dbusRecvHeader : DbusProc (UInt8 × UInt8 × Nat) := do
  let buf ← cableRecv 2
  let host := buf.getD 0 0
  let cmd := buf.getD 1 0
  -- packets of a TI-80 have no length, unless they are data packets
  if host ≠ dbusMidTi80Pc ∨ cmd = dbusCmdXdp then
    let buf ← cableRecv 2
    pure (host, cmd, getLE buf)
  else pure (host, cmd, 0)

def dbusRecvBlkSize (length : Nat) : Nat := if length / 20 = 0 then 1 else length / 20

/-- The transfers of `dbus_recv_data`. -/
def dbusRecvRanges (length : Nat) : List (Nat × Nat) :=
  let blkSize := dbusRecvBlkSize length
  chunkRanges blkSize (length % blkSize) (length / blkSize) 0

def recvRanges : List (Nat × Nat) → List UInt8 → DbusProc (List UInt8)
  | [], data => pure data
  | range :: ranges, data => do
      let bytes ← cableRecv range.2
      recvRanges ranges (writeAt data range.1 bytes)

/-- Read the data of a packet into the caller's buffer, and the checksum. -/
def dbusRecvData (length : Nat) (data : List UInt8) : DbusProc (List UInt8) := do
  let data ← recvRanges (dbusRecvRanges length) data
  let buf ← cableRecv 2
  if getLE buf ≠ tifilesChecksum (data.take length) then throw .checksum else pure data

/-- The commands `dbus_recv` expects data behind. -/
def dbusHasData (cmd : UInt8) : Bool :=
  cmd = dbusCmdVar || cmd = dbusCmdXdp || cmd = dbusCmdSkp || cmd = dbusCmdSid ||
    cmd = dbusCmdReq || cmd = dbusCmdInd || cmd = dbusCmdRts

/-- The commands `dbus_recv` takes without data. -/
def dbusHasNoData (cmd : UInt8) : Bool :=
  cmd = dbusCmdCts || cmd = dbusCmdAck || cmd = dbusCmdErr || cmd = dbusCmdErr2 ||
    cmd = dbusCmdRdy || cmd = dbusCmdScr || cmd = dbusCmdRid || cmd = dbusCmdKey ||
    cmd = dbusCmdEot || cmd = dbusCmdCnt

/-- What `dbus_recv` hands to its caller. -/
structure DbusReceived where
  host : UInt8
  cmd : UInt8
  length : Nat
  data : List UInt8
  deriving DecidableEq, Repr

def dbusRecv (data : List UInt8) : DbusProc DbusReceived := do
  let (host, cmd, length) ← dbusRecvHeader
  if cmd = dbusCmdErr ∨ cmd = dbusCmdErr2 then throw .checksum
  else if dbusHasData cmd then
    let data ← dbusRecvData length data
    pure ⟨host, cmd, length, data⟩
  else if dbusHasNoData cmd then pure ⟨host, cmd, length, data⟩
  else throw .invalidCmd

/-! ## A packet there and back -/

section Transfer

variable {rx tx : List UInt8}

theorem exec_sendRanges (buf : List UInt8) (ranges : List (Nat × Nat)) :
    Proc.exec (sendRanges buf ranges) ⟨rx, tx, none⟩ =
      (.ok (), ⟨rx, tx ++ (ranges.map (slice buf)).flatten, none⟩) := by
  induction ranges generalizing tx with
  | nil => simp [sendRanges]
  | cons range ranges ih =>
      rw [sendRanges, Proc.exec_bind_ok (exec_cableSend _ _ _), ih, List.map_cons,
        List.flatten_cons, List.append_assoc]

/-- The chunks of the sender are the packet. -/
theorem exec_dbusSend (target cmd : UInt8) {len : UInt16} {data : List UInt8}
    (hdata : data.length = if len = 0 then 65536 else len.toNat) :
    Proc.exec (dbusSend target cmd len (some data)) ⟨rx, tx, none⟩ =
      (.ok (), ⟨rx, tx ++ dbusPacket target cmd data, none⟩) := by
  have hlen := length_dbusPacket target cmd data
  simp only [dbusSend]
  rw [← hdata, List.take_length, exec_sendRanges, dbusSendRanges, flatten_slices, List.drop_zero,
    Nat.div_add_mod', List.take_of_length_le hlen.le]

/-- The receiver's buffer takes the data at its start. -/
theorem exec_recvRanges {n r q offset : Nat} {bytes buf : List UInt8}
    (hbytes : bytes.length = q * n + r) (hroom : offset + bytes.length ≤ buf.length) :
    Proc.exec (recvRanges (chunkRanges n r q offset) buf) ⟨bytes ++ rx, tx, none⟩ =
      (.ok (writeAt buf offset bytes), ⟨rx, tx, none⟩) := by
  induction q generalizing offset bytes buf with
  | zero =>
      have hlen : bytes.length = r := by omega
      rw [chunkRanges, recvRanges, Proc.exec_bind_ok (exec_cableRecv rx tx hlen), recvRanges,
        Proc.exec_pure]
  | succ q ih =>
      rw [Nat.succ_mul] at hbytes
      have htake : (bytes.take n).length = n := by rw [List.length_take]; omega
      have hdrop : (bytes.drop n).length = q * n + r := by rw [List.length_drop]; omega
      have hbuf : (writeAt buf offset (bytes.take n)).length = buf.length := by
        simp only [writeAt, List.length_append, List.length_take, List.length_drop]
        omega
      have hnext := writeAt_writeAt (bytes.take n) (bytes.drop n)
        (show offset ≤ buf.length by omega)
      rw [htake, List.take_append_drop] at hnext
      have hsplit : bytes ++ rx = bytes.take n ++ (bytes.drop n ++ rx) := by
        rw [← List.append_assoc, List.take_append_drop]
      rw [hsplit, chunkRanges, recvRanges, Proc.exec_bind_ok (exec_cableRecv _ tx htake),
        ih hdrop (by rw [hbuf]; omega), hnext]

theorem exec_dbusRecvData {data buf : List UInt8} (hroom : data.length ≤ buf.length) :
    Proc.exec (dbusRecvData data.length buf)
        ⟨data ++ (putLE 2 (tifilesChecksum data) ++ rx), tx, none⟩ =
      (.ok (data ++ buf.drop data.length), ⟨rx, tx, none⟩) := by
  have hranges : Proc.exec (recvRanges (dbusRecvRanges data.length) buf)
      ⟨data ++ (putLE 2 (tifilesChecksum data) ++ rx), tx, none⟩ =
        (.ok (writeAt buf 0 data), ⟨putLE 2 (tifilesChecksum data) ++ rx, tx, none⟩) :=
    exec_recvRanges (Nat.div_add_mod' data.length (dbusRecvBlkSize data.length)).symm
      (by omega)
  have hbuf : writeAt buf 0 data = data ++ buf.drop data.length := by simp [writeAt]
  have hsum : tifilesChecksum data < 256 ^ 2 := Nat.mod_lt _ (by decide)
  rw [dbusRecvData, Proc.exec_bind_ok hranges,
    Proc.exec_bind_ok (exec_cableRecv rx tx (length_putLE 2 _)), hbuf, List.take_left' rfl,
    getLE_putLE hsum, if_neg (not_not.mpr rfl), Proc.exec_pure]

theorem exec_dbusRecvHeader {target cmd : UInt8} {n : Nat} (hn : n < 2 ^ 16)
    (htarget : target ≠ dbusMidTi80Pc ∨ cmd = dbusCmdXdp) :
    Proc.exec dbusRecvHeader ⟨[target, cmd] ++ (putLE 2 n ++ rx), tx, none⟩ =
      (.ok (target, cmd, n), ⟨rx, tx, none⟩) := by
  have hids : [target, cmd].length = 2 := rfl
  have hhost : [target, cmd].getD 0 0 = target := rfl
  have hid : [target, cmd].getD 1 0 = cmd := rfl
  rw [dbusRecvHeader, Proc.exec_bind_ok (exec_cableRecv _ tx hids)]
  dsimp only
  rw [hhost, hid, if_pos htarget, Proc.exec_bind_ok (exec_cableRecv rx tx (length_putLE 2 n)),
    getLE_putLE hn, Proc.exec_pure]

/-- The packet of a command with data is received whole, when its length fits
the length field; each side's transfers meet every byte once. -/
theorem dbusSend_received {target cmd : UInt8} (hcmd : dbusHasData cmd = true)
    (htarget : target ≠ dbusMidTi80Pc ∨ cmd = dbusCmdXdp) {len : UInt16} (hlen : len ≠ 0)
    {data : List UInt8} (hdata : data.length = len.toNat) {buf : List UInt8}
    (hroom : data.length ≤ buf.length) (rest rx tx tx' : List UInt8) :
    ∃ wire, Proc.exec (dbusSend target cmd len (some data)) ⟨rx, tx, none⟩ =
        (.ok (), ⟨rx, tx ++ wire, none⟩) ∧
      Proc.exec (dbusRecv buf) ⟨wire ++ rest, tx', none⟩ =
        (.ok ⟨target, cmd, len.toNat, data ++ buf.drop data.length⟩, ⟨rest, tx', none⟩) ∧
      (dbusSendRanges data.length).flatMap (fun range => List.range' range.1 range.2) =
        List.range' 0 wire.length ∧
      (dbusRecvRanges data.length).flatMap (fun range => List.range' range.1 range.2) =
        List.range' 0 data.length := by
  have hwire : data.length = if len = 0 then 65536 else len.toNat := by rw [if_neg hlen, hdata]
  have hsmall : data.length < 2 ^ 16 := hdata ▸ len.toNat_lt
  have herr : ¬ (cmd = dbusCmdErr ∨ cmd = dbusCmdErr2) := by
    rintro (rfl | rfl) <;> contradiction
  refine ⟨dbusPacket target cmd data, exec_dbusSend target cmd hwire, ?_, ?_, ?_⟩
  · have hpacket : dbusPacket target cmd data ++ rest =
        [target, cmd] ++ (putLE 2 data.length ++
          (data ++ (putLE 2 (tifilesChecksum data) ++ rest))) := by
      simp [dbusPacket]
    rw [hpacket, dbusRecv, Proc.exec_bind_ok (exec_dbusRecvHeader hsmall htarget)]
    dsimp only
    rw [if_neg herr, if_pos hcmd, Proc.exec_bind_ok (exec_dbusRecvData hroom), Proc.exec_pure,
      hdata]
  · rw [dbusSendRanges, flatMap_chunkRanges, Nat.div_add_mod', length_dbusPacket]
  · rw [dbusRecvRanges, flatMap_chunkRanges, Nat.div_add_mod']

end Transfer

theorem dbusSend_received_var :
    ∃ wire, Proc.exec (dbusSend 0x08 dbusCmdVar 3 (some [1, 2, 3])) ⟨[], [], none⟩ =
        (.ok (), ⟨[], [] ++ wire, none⟩) ∧
      Proc.exec (dbusRecv [0, 0, 0, 9]) ⟨wire ++ [], [], none⟩ =
        (.ok ⟨0x08, dbusCmdVar, (3 : UInt16).toNat, [1, 2, 3] ++ [0, 0, 0, 9].drop 3⟩,
          ⟨[], [], none⟩) ∧
      (dbusSendRanges 3).flatMap (fun range => List.range' range.1 range.2) =
        List.range' 0 wire.length ∧
      (dbusRecvRanges 3).flatMap (fun range => List.range' range.1 range.2) = List.range' 0 3 :=
  dbusSend_received (by decide) (.inl (by decide)) (by decide) rfl (by decide) [] [] [] []

/-- A deletion carries data only towards the calculator, and a packet of a
TI-80 that is not a data packet has no length. -/
theorem dbusSend_not_received :
    (∃ wire, Proc.exec (dbusSend 0x73 dbusCmdDel 1 (some [1])) ⟨[], [], none⟩ =
        (.ok (), ⟨[], wire, none⟩) ∧
      (Proc.exec (dbusRecv [0]) ⟨wire, [], none⟩).1 = .error .invalidCmd) ∧
    ∃ wire, Proc.exec (dbusSend 0x80 dbusCmdVar 1 (some [1])) ⟨[], [], none⟩ =
        (.ok (), ⟨[], wire, none⟩) ∧
      (Proc.exec (dbusRecv [0]) ⟨wire, [], none⟩).1 = .error .checksum := by
  refine ⟨⟨dbusPacket 0x73 dbusCmdDel [1], ?_, by decide⟩,
    dbusPacket 0x80 dbusCmdVar [1], ?_, by decide⟩
  · exact exec_dbusSend 0x73 dbusCmdDel (by decide)
  · exact exec_dbusSend 0x80 dbusCmdVar (by decide)

end Tilibs.Dbus
