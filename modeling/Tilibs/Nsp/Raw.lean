import Tilibs.Nsp.Nnse

/-!
# Tilibs.Nsp.Raw

Sending and receiving raw packets on both transports (`nsp_rpkt.cc`), and the
acknowledgements of the NavNet protocol itself (`nsp_vpkt.cc`).

On NNSE `nsp_recv` takes one packet from the front of each stream message.  A
packet longer than a raw packet is returned in pieces, of which all but the
first are queued as payloads of their own.
-/

namespace Tilibs.Nsp

open Tilibs.Lib

/-! ## The cable -/

def cableRecv (len : Nat) : NspProc (List UInt8) := do
  let h ← get
  match h.cable.recvN len with
  | some (bytes, cable) =>
      set { h with cable := cable }
      pure bytes
  | none => throw .readTimeout

def cableSend (bytes : List UInt8) : NspProc Unit := do
  let h ← get
  match h.cable.sendAll bytes with
  | some cable => set { h with cable := cable }
  | none => throw .writeError

section Cable

variable {h : NspHandle} {rest tx : List UInt8}

theorem exec_cableRecv {len : Nat} {bytes : List UInt8} (hlen : bytes.length = len)
    (hcable : h.cable = ⟨bytes ++ rest, tx, none⟩) :
    Proc.exec (cableRecv len) h = (.ok bytes, { h with cable := ⟨rest, tx, none⟩ }) := by
  simp [cableRecv, Proc.exec_bind, hcable, Port.recvN_append rest tx none hlen, Except.map]

theorem exec_cableRecv_nil {len : Nat} (hlen : 0 < len) (hcable : h.cable = ⟨[], tx, none⟩) :
    Proc.exec (cableRecv len) h = (.error .readTimeout, h) := by
  have hshort : Port.recvN (⟨[], tx, none⟩ : Port UInt8 UInt8) len = none :=
    Port.recvN_short hlen
  simp [cableRecv, Proc.exec_bind, hcable, hshort]

theorem exec_cableSend (bytes : List UInt8) (hcable : h.cable = ⟨rest, tx, none⟩) :
    Proc.exec (cableSend bytes) h = (.ok (), { h with cable := ⟨rest, tx ++ bytes, none⟩ }) := by
  simp [cableSend, Proc.exec_bind, hcable]

end Cable

/-! ## Sending -/

def NSPRawPacket.isControl (srcPort : UInt16) : Bool :=
  srcPort = nspPortPktAck1 || srcPort = nspPortPktAck2 || srcPort = nspPortPktNack

/-- A packet as it is built to be sent; the header fields that are computed
are left at zero. -/
def nspNewPacket (srcAddr srcPort dstAddr dstPort : UInt16) (data : List UInt8)
    (fits : data.length ≤ nspDataSize) : NSPRawPacket :=
  ⟨0, srcAddr, srcPort, dstAddr, dstPort, 0, 0, 0, 0, data, fits⟩

/-- The sequence number a packet from the given port is sent with. -/
def nspSendSequence (srcPort : UInt16) : NspProc UInt8 := do
  let h ← get
  if NSPRawPacket.isControl srcPort then pure h.seq
  else if h.nnse then pure 0
  else if h.seqPc = 0 then
    set { h with seqPc := 1 }
    pure 1
  else pure h.seqPc

def nspSend (pkt : NSPRawPacket) : NspProc Unit := do
  let h ← get
  if h.nnse ∧ (pkt.srcPort = nspPortPktAck1 ∨ pkt.srcPort = nspPortPktAck2) then pure ()
  else
    let seq ← nspSendSequence pkt.srcPort
    let ack := if NSPRawPacket.isControl pkt.srcPort then 0x0A else pkt.ack
    let buf := nspPackHeader pkt.srcAddr pkt.srcPort pkt.dstAddr pkt.dstPort
      (nspComputeCrc pkt.data) (UInt8.ofNat pkt.data.length) ack seq ++ pkt.data
    if h.nnse then nspNnseSendStream buf else cableSend buf

/-! ## Receiving -/

/-- Keep the sequence numbers of a packet that has arrived. -/
def nspNoteSequence (srcPort : UInt16) (seq : UInt8) : NspProc Unit :=
  modify fun h =>
    if NSPRawPacket.isControl srcPort then { h with seqPc := h.seqPc + 1 } else { h with seq := seq }

/-- `nsp_pack_raw_message`: the bytes of a packet with the addresses of `pkt`. -/
def nspPackRawMessage (pkt : NSPRawPacket) (data : List UInt8) : List UInt8 :=
  nspPackHeader pkt.srcAddr pkt.srcPort pkt.dstAddr pkt.dstPort (nspComputeCrc data)
    (UInt8.ofNat data.length) pkt.ack pkt.seq ++ data

/-- The loop of `nsp_queue_nnse_split_packet`; every turn queues at least one
byte. -/
def nspQueueSplitLoop (pkt : NSPRawPacket) (cmd : UInt8) : Nat → List UInt8 → NspProc Unit
  | 0, _ => pure ()
  | fuel + 1, data =>
      if data = [] then pure ()
      else do
        nspNnseQueueStream (nspPackRawMessage pkt (cmd :: data.take (nspDataSize - 1)))
        nspQueueSplitLoop pkt cmd fuel (data.drop (nspDataSize - 1))

def nspQueueNnseSplitPacket (pkt : NSPRawPacket) (cmd : UInt8) (data : List UInt8) :
    NspProc Unit := do
  nspQueueSplitLoop pkt cmd data.length data
  -- a short packet behind a last full one
  if 0 < data.length ∧ data.length % (nspDataSize - 1) = 0 then
    nspNnseQueueStream (nspPackRawMessage pkt [cmd])

/-- The first packet of a longer one; the others are queued. -/
def nspRecvExtended (msg : List UInt8) : NspProc NSPRawPacket := do
  let extSize := getBE ((msg.drop 16).take 4)
  if msg.length < nspHeaderSize + 4 then throw .invalidPacket
  else if extSize < 1 ∨ msg.length < (extSize + nspHeaderSize + 4) % 2 ^ 32 then throw .invalidPacket
  -- the sum has wrapped, and the copies run past the message
  else if msg.length < extSize + nspHeaderSize + 4 then throw .undefinedBehaviour
  else
    let cmd := msg.getD (nspHeaderSize + 4) 0
    let extData := (msg.drop (nspHeaderSize + 5)).take (extSize - 1)
    let data := cmd :: extData.take (nspDataSize - 1)
    if fits : data.length ≤ nspDataSize then
      let pkt := { nspReadPacket msg data fits with dataSum := nspComputeCrc data }
      let rest := extData.drop (nspDataSize - 1)
      if rest ≠ [] then
        nspQueueNnseSplitPacket pkt cmd rest
        pure pkt
      else if data.length = nspDataSize then
        nspNnseQueueStream (nspPackRawMessage pkt [cmd])
        pure pkt
      else pure pkt
    else throw .invalidPacket

/-- The loop of `nsp_recv` on NNSE; every turn takes a payload from the list or
an event from the cable. -/
def nspRecvNnseLoop : Nat → NspProc NSPRawPacket
  | 0 => throw .readTimeout
  | fuel + 1 => do
      let msg ← nspNnseRecvStream nspNnseMaxPayload
      let h ← get
      let data := (msg.drop nspHeaderSize).take (msg.getD 12 0).toNat
      if msg.length < nspHeaderSize then throw .invalidPacket
      else if ¬ h.portMatches (getWord msg 8) then
        nspNnseDropQueuedStreams
        nspRecvNnseLoop fuel
      else if msg.getD 12 0 = 0xFF then
        let pkt ← nspRecvExtended msg
        nspNoteSequence pkt.srcPort pkt.seq
        pure pkt
      else if msg.length < (msg.getD 12 0).toNat + nspHeaderSize then throw .invalidPacket
      else if fits : data.length ≤ nspDataSize then
        nspNoteSequence (getWord msg 4) (msg.getD 14 0)
        pure (nspReadPacket msg data fits)
      else throw .invalidPacket

def nspRecvCable : NspProc NSPRawPacket := do
  let buf ← cableRecv nspHeaderSize
  let dataSize := (buf.getD 12 0).toNat
  if nspDataSize < dataSize then throw .invalidPacket
  else
    nspNoteSequence (getWord buf 4) (buf.getD 14 0)
    let data ← cableRecv dataSize
    if fits : data.length ≤ nspDataSize then pure (nspReadPacket buf data fits)
    else throw .invalidPacket

def nspRecv : NspProc NSPRawPacket := do
  let h ← get
  if h.nnse then nspRecvNnseLoop (h.pending.length + h.link.rx.length + 1) else nspRecvCable

/-! ## Packets on the cable -/

/-- A packet as it went out: the same ends and the same data. -/
structure NSPRawPacket.Carries (sent pkt : NSPRawPacket) : Prop where
  srcAddr : sent.srcAddr = pkt.srcAddr
  srcPort : sent.srcPort = pkt.srcPort
  dstAddr : sent.dstAddr = pkt.dstAddr
  dstPort : sent.dstPort = pkt.dstPort
  data : sent.data = pkt.data

/-- A packed header and the data are the bytes of a packet. -/
theorem nspPackHeader_append (srcAddr srcPort dstAddr dstPort dataSum : UInt16) (ack seq : UInt8)
    {data : List UInt8} (fits : data.length ≤ nspDataSize) :
    ∃ hdrSum, nspPackHeader srcAddr srcPort dstAddr dstPort dataSum (UInt8.ofNat data.length) ack
        seq ++ data =
      NSPRawPacket.bytes
        ⟨0x54FD, srcAddr, srcPort, dstAddr, dstPort, dataSum, ack, seq, hdrSum, data, fits⟩ := by
  obtain ⟨hdrSum, hpack⟩ : ∃ hdrSum, nspPackHeader srcAddr srcPort dstAddr dstPort dataSum
      (UInt8.ofNat data.length) ack seq =
        0x54 :: 0xFD :: (putWord srcAddr ++ putWord srcPort ++ putWord dstAddr ++
          putWord dstPort ++ putWord dataSum) ++ [UInt8.ofNat data.length, ack, seq] ++ [hdrSum] :=
    ⟨_, rfl⟩
  have hmagic : putWord 0x54FD = [0x54, 0xFD] := by decide
  refine ⟨hdrSum, ?_⟩
  simp [hpack, NSPRawPacket.bytes, NSPRawPacket.header, hmagic]

section Cable

variable {h : NspHandle} {rx tx : List UInt8}

theorem exec_nspSendSequence (h : NspHandle) (srcPort : UInt16) :
    ∃ seq seqPc, Proc.exec (nspSendSequence srcPort) h =
      (.ok seq, { h with seqPc := seqPc }) := by
  unfold nspSendSequence
  rw [Proc.exec_bind_ok (Proc.exec_get _)]
  split
  · exact ⟨h.seq, h.seqPc, rfl⟩
  · split
    · exact ⟨0, h.seqPc, rfl⟩
    · split
      · exact ⟨1, 1, rfl⟩
      · exact ⟨h.seqPc, h.seqPc, rfl⟩

theorem exec_nspSend_cable (pkt : NSPRawPacket) (hmode : h.nnse = false)
    (hcable : h.cable = ⟨rx, tx, none⟩) :
    ∃ (sent : NSPRawPacket) (seqPc : UInt8), sent.Carries pkt ∧ Proc.exec (nspSend pkt) h =
      (.ok (), { h with cable := ⟨rx, tx ++ sent.bytes, none⟩, seqPc := seqPc }) := by
  obtain ⟨seq, seqPc, hseq⟩ := exec_nspSendSequence h pkt.srcPort
  obtain ⟨hdrSum, hbytes⟩ := nspPackHeader_append pkt.srcAddr pkt.srcPort pkt.dstAddr
    pkt.dstPort (nspComputeCrc pkt.data)
    (if NSPRawPacket.isControl pkt.srcPort then 0x0A else pkt.ack) seq pkt.fits
  refine ⟨⟨0x54FD, pkt.srcAddr, pkt.srcPort, pkt.dstAddr, pkt.dstPort, nspComputeCrc pkt.data,
    if NSPRawPacket.isControl pkt.srcPort then 0x0A else pkt.ack, seq, hdrSum, pkt.data,
    pkt.fits⟩, seqPc, ⟨rfl, rfl, rfl, rfl, rfl⟩, ?_⟩
  rw [nspSend, Proc.exec_bind_ok (Proc.exec_get _), if_neg (by simp [hmode]),
    Proc.exec_bind_ok hseq, if_neg (by simp [hmode]), hbytes]
  exact exec_cableSend (h := { h with seqPc := seqPc }) _ hcable

theorem exec_nspNoteSequence (h : NspHandle) (srcPort : UInt16) (n : UInt8) :
    ∃ seq seqPc, Proc.exec (nspNoteSequence srcPort n) h =
      (.ok (), { h with seq := seq, seqPc := seqPc }) := by
  unfold nspNoteSequence
  rw [Proc.exec_modify]
  split
  · exact ⟨h.seq, h.seqPc + 1, rfl⟩
  · exact ⟨n, h.seqPc, rfl⟩

/-- A packet is received as it stands on the cable. -/
theorem exec_nspRecv_cable (pkt : NSPRawPacket) (hmode : h.nnse = false)
    (hcable : h.cable = ⟨pkt.bytes ++ rx, tx, none⟩) :
    ∃ seq seqPc, Proc.exec nspRecv h =
      (.ok pkt, { h with cable := ⟨rx, tx, none⟩, seq := seq, seqPc := seqPc }) := by
  rw [NSPRawPacket.bytes, List.append_assoc] at hcable
  have hhead := exec_cableRecv (length_header pkt) hcable
  have hsize : (pkt.header.getD 12 0).toNat = pkt.data.length := by
    have hbyte := getD_header_12 pkt []
    rw [List.append_nil] at hbyte
    rw [hbyte, toNat_dataSize]
  have hread : nspReadPacket pkt.header pkt.data pkt.fits = pkt := by
    have hpkt := nspReadPacket_header pkt []
    rwa [List.append_nil] at hpkt
  obtain ⟨seq, seqPc, hnote⟩ := exec_nspNoteSequence
    { h with cable := ⟨pkt.data ++ rx, tx, none⟩ } (getWord pkt.header 4) (pkt.header.getD 14 0)
  have hlen : pkt.data.length = pkt.data.length := rfl
  have hdata := exec_cableRecv hlen (h := { h with
    cable := ⟨pkt.data ++ rx, tx, none⟩, seq := seq, seqPc := seqPc }) rfl
  refine ⟨seq, seqPc, ?_⟩
  rw [nspRecv, Proc.exec_bind_ok (Proc.exec_get _), if_neg (by simp [hmode]), nspRecvCable,
    Proc.exec_bind_ok hhead, hsize, if_neg (Nat.not_lt.mpr pkt.fits), Proc.exec_bind_ok hnote,
    Proc.exec_bind_ok hdata, dif_pos pkt.fits, Proc.exec_pure, hread]

theorem exec_nspRecv_cable_nil (hmode : h.nnse = false) (hcable : h.cable = ⟨[], tx, none⟩) :
    Proc.exec nspRecv h = (.error .readTimeout, h) := by
  rw [nspRecv, Proc.exec_bind_ok (Proc.exec_get _), if_neg (by simp [hmode]), nspRecvCable,
    Proc.exec_bind_error (exec_cableRecv_nil (by decide) hcable)]

end Cable

/-! ## Acknowledgements -/

def nspSendAck : NspProc Unit := do
  let h ← get
  nspSend (nspNewPacket nspSrcAddr nspPortPktAck2 nspDevAddr h.dstPort (putWord h.srcPort)
    (by simp [nspDataSize]))

def nspSendAckForRaw (pkt : NSPRawPacket) : NspProc Unit :=
  nspSend (nspNewPacket nspSrcAddr (if pkt.seq = 0 then nspPortPktAck1 else nspPortPktAck2)
    nspDevAddr pkt.srcPort (putWord pkt.dstPort) (by simp [nspDataSize]))

def nspSendNackEx (port : UInt16) : NspProc Unit :=
  nspSend (nspNewPacket nspSrcAddr nspPortPktNack nspDevAddr port (putWord nspPortLogin)
    (by simp [nspDataSize]))

/-- `usb_errors`: the status codes with an error number of their own. -/
def usbErrors : List UInt8 :=
  [0x02, 0x04, 0x07, 0x0A, 0x0F, 0x10, 0x11, 0x12, 0x13, 0x14, 0x15, 0x16, 0x20, 0x80]

/-- The error a status code stands for. -/
def nspStatusError (status : UInt8) : NspErr :=
  .calcError3 (match usbErrors.idxOf? status with
    | some i => i + 1
    | none => 0)

/-- The packet is the acknowledgement `nsp_recv_ack` waits for. -/
def NspHandle.acknowledges (h : NspHandle) (pkt : NSPRawPacket) : Bool :=
  let ack2 := pkt.srcPort = nspPortPktAck2
  (ack2 || pkt.srcPort = h.dstPort) && pkt.dstPort = h.srcPort && 2 ≤ pkt.data.length &&
    getWord pkt.data 0 = (if ack2 then h.dstPort else h.srcPort) && pkt.ack = 0x0A

/-- A status that arrives instead of an acknowledgement. -/
def nspRecvStatus (pkt : NSPRawPacket) : NspProc Unit := do
  modify fun h => { h with pendingCmd := pkt.data.getD 0 0, pendingStatus := none }
  if pkt.data.getD 0 0 = nspCmdOsOk then nspSendAckForRaw pkt
  else if 2 ≤ pkt.data.length then
    modify fun h => { h with pendingStatus := some (pkt.data.getD 1 0) }
    if pkt.data.getD 1 0 = 0x00 then nspSendAckForRaw pkt
    else throw (nspStatusError (pkt.data.getD 1 0))

/-- The loop of `nsp_recv_ack`; every turn reads at least a header. -/
def nspRecvAckLoop : Nat → NspProc Unit
  | 0 => throw .readTimeout
  | fuel + 1 => do
      let pkt ← nspRecv
      let h ← get
      if 1 ≤ pkt.data.length ∧
          (pkt.data.getD 0 0 = nspCmdOsOk ∨ pkt.data.getD 0 0 = nspCmdStatus) then
        nspRecvStatus pkt
        nspRecvAckLoop fuel
      else if pkt.ack = 0x00 ∧ 0 < pkt.data.length then
        nspSendAckForRaw pkt
        nspRecvAckLoop fuel
      else if h.acknowledges pkt then pure ()
      else nspRecvAckLoop fuel

def nspRecvAck : NspProc Unit := do
  let h ← get
  if h.nnse then pure () else nspRecvAckLoop (h.cable.rx.length + 1)

end Tilibs.Nsp
