import Tilibs.Lib.Chunk
import Tilibs.Nsp.Virtual

/-!
# Tilibs.Nsp.RoundTrip

What `nsp_send_data` sends and what `nsp_recv_data` makes of it, on both
transports.

The sender cuts the payload into pieces of 253 bytes on the cable, and of 1439
bytes in NNSE messages.  It sends nothing behind a last piece that is full; a
receiver that does not know the size then waits for one more packet.
-/

namespace Tilibs.Nsp

open Tilibs.Lib

/-! ## Pieces -/

/-- The payload bytes of a full packet. -/
def capacity (nnse : Bool) : Nat := if nnse then nspNnseDataSize - 1 else nspDataSize - 1

theorem capacity_pos (nnse : Bool) : 0 < capacity nnse := by
  cases nnse <;> decide

/-- The pieces a payload goes out in; an empty payload goes out as one. -/
def sentPieces (n : Nat) (data : List UInt8) : List (List UInt8) :=
  if data = [] then [[]] else pieces n data

theorem length_le_of_mem_sentPieces {n : Nat} {data p : List UInt8} (hn : 0 < n)
    (hp : p ∈ sentPieces n data) : p.length ≤ n := by
  unfold sentPieces at hp
  split at hp
  · rw [List.mem_singleton.mp hp]
    exact Nat.zero_le n
  · exact length_le_of_mem_pieces hn hp

theorem sentPieces_of_length_le {n : Nat} {data : List UInt8} (h : data.length ≤ n) :
    sentPieces n data = [data] := by
  unfold sentPieces
  split
  · next hnil => rw [hnil]
  · next hdata => exact pieces_of_length_le hdata h

theorem sentPieces_of_lt_length {n : Nat} {data : List UInt8} (hn : 0 < n) (h : n < data.length) :
    sentPieces n data = data.take n :: sentPieces n (data.drop n) := by
  have hdata : data ≠ [] := List.length_pos_iff.mp (by omega)
  have hdrop : data.drop n ≠ [] := by rw [Ne, List.drop_eq_nil_iff]; omega
  rw [sentPieces, if_neg hdata, pieces_of_le_length hn h.le, sentPieces, if_neg hdrop]

/-- What a receiver makes of packets with the given pieces, and what it leaves
of them; `full` is the size of a full packet. -/
def reassemble (size full : Nat) (cmd : UInt8) :
    NspReceived → List (List UInt8) → Except NspErr (NspReceived × List (List UInt8))
  | _, [] => .error .readTimeout
  | got, p :: ps =>
      match got.append size (cmd :: p) with
      | .error e => .error e
      | .ok got' =>
          if got'.complete size (p.length + 1) full then .ok (got', ps)
          else reassemble size full cmd got' ps

section Reassemble

variable {size n total : Nat} {cmd : UInt8}

/-- A piece is appended whole, unless the buffer for it needs 2^32 bytes. -/
theorem append_piece (got : NspReceived) (p : List UInt8) (hsize : size = 0 ∨ size = total)
    (htotal : total < 2 ^ 32) (hlen : got.data.length + p.length ≤ total) :
    got.append size (cmd :: p) =
      if got.data.length + p.length + 1 = 2 ^ 32 then .error .malloc
      else .ok ⟨cmd, got.data ++ p⟩ := by
  have hmod : (got.data.length + p.length) % 2 ^ 32 = got.data.length + p.length :=
    Nat.mod_eq_of_lt (by omega)
  have hwhole : ¬ (size ≠ 0 ∧ size < (got.data.length + p.length) % 2 ^ 32) := by
    rw [hmod]
    omega
  simp only [NspReceived.append, List.tail_cons, List.headD_cons, hwhole, if_false,
    List.take_length]
  by_cases hfull : got.data.length + p.length + 1 = 2 ^ 32
  · rw [if_pos hfull, hfull, if_pos (Nat.mod_self _)]
  · rw [if_neg hfull, if_neg (by rw [Nat.mod_eq_of_lt (by omega)]; omega), if_neg (by omega)]

/-- The pieces behind what has been received already. -/
theorem reassemble_pieces (hn : 0 < n) (hsize : size = 0 ∨ size = total) (htotal : total < 2 ^ 32)
    (got : NspReceived) {rest : List UInt8} (hrest : rest ≠ [])
    (hlen : got.data.length + rest.length = total) :
    reassemble size (n + 1) cmd got (pieces n rest) =
      if total + 1 = 2 ^ 32 then .error .malloc
      else if size = 0 ∧ n ∣ rest.length then .error .readTimeout
      else .ok (⟨cmd, got.data ++ rest⟩, []) := by
  induction hk : rest.length using Nat.strong_induction_on generalizing got rest with
  | _ k ih =>
      have hpos : 0 < rest.length := List.length_pos_iff.mpr hrest
      by_cases hlast : rest.length ≤ n
      · -- the last piece
        rw [pieces_of_length_le hrest hlast, reassemble,
          append_piece got rest hsize htotal (by omega), hlen]
        by_cases hmalloc : total + 1 = 2 ^ 32
        · rw [if_pos hmalloc, if_pos hmalloc]
        · rw [if_neg hmalloc, if_neg hmalloc]
          by_cases hwaits : size = 0 ∧ n ∣ rest.length
          · have hfull : rest.length = n :=
              Nat.le_antisymm hlast (Nat.le_of_dvd hpos hwaits.2)
            have hmore : ¬ NspReceived.complete ⟨cmd, got.data ++ rest⟩ size (rest.length + 1)
                (n + 1) := by
              simp [NspReceived.complete, hwaits.1, hfull]
            rw [← hk, if_pos hwaits]
            dsimp only
            rw [if_neg hmore, reassemble]
          · have hdone : NspReceived.complete ⟨cmd, got.data ++ rest⟩ size (rest.length + 1)
                (n + 1) := by
              simp only [NspReceived.complete, List.length_append, Bool.or_eq_true,
                Bool.and_eq_true, decide_eq_true_eq]
              by_cases hzero : size = 0
              · have hne : rest.length ≠ n := fun h => hwaits ⟨hzero, h ▸ Nat.dvd_refl n⟩
                omega
              · omega
            rw [← hk, if_neg hwaits]
            dsimp only
            rw [if_pos hdone]
      · -- a full piece with more behind it
        have htake : (rest.take n).length = n := by rw [List.length_take]; omega
        have hdrop : (rest.drop n).length = rest.length - n := List.length_drop
        have hne : rest.drop n ≠ [] := by rw [Ne, List.drop_eq_nil_iff]; exact hlast
        have hdvd : n ∣ rest.length - n ↔ n ∣ rest.length :=
          Nat.dvd_sub_iff_left (by omega) (Nat.dvd_refl n)
        have hmore : ¬ NspReceived.complete ⟨cmd, got.data ++ rest.take n⟩ size (n + 1)
            (n + 1) := by
          simp only [NspReceived.complete, List.length_append, htake, Bool.or_eq_true,
            Bool.and_eq_true, decide_eq_true_eq]
          omega
        rw [pieces_of_le_length hn (by omega), reassemble,
          append_piece got (rest.take n) hsize htotal (by omega), htake, if_neg (by omega)]
        dsimp only
        rw [if_neg hmore, ih (rest.length - n) (by omega) ⟨cmd, got.data ++ rest.take n⟩ hne
          (by rw [List.length_append, htake, hdrop]; omega) hdrop, List.append_assoc,
          List.take_append_drop, ← hk]
        simp only [hdvd]

theorem reassemble_sentPieces (cmd : UInt8) (hn : 0 < n) {data : List UInt8} (hfits : data.length < 2 ^ 32)
    (hsize : size = 0 ∨ size = data.length) :
    reassemble size (n + 1) cmd ⟨0, []⟩ (sentPieces n data) =
      if data.length + 1 = 2 ^ 32 then .error .malloc
      else if size = 0 ∧ 0 < data.length ∧ n ∣ data.length then .error .readTimeout
      else .ok (⟨cmd, data⟩, []) := by
  unfold sentPieces
  by_cases hdata : data = []
  · subst hdata
    rw [if_pos rfl, reassemble, append_piece ⟨0, []⟩ [] hsize hfits (Nat.le_refl 0)]
    have hdone : NspReceived.complete ⟨cmd, []⟩ size 1 (n + 1) := by
      simp only [NspReceived.complete, Bool.or_eq_true, decide_eq_true_eq]
      omega
    simp [hdone]
  · have hpos : 0 < data.length := List.length_pos_iff.mpr hdata
    rw [if_neg hdata, reassemble_pieces hn hsize hfits ⟨0, []⟩ hdata (Nat.zero_add _)]
    simp [hpos]

end Reassemble

theorem length_le_sum_map {α : Type} (f : α → Nat) (hf : ∀ a, 1 ≤ f a) (xs : List α) :
    xs.length ≤ (xs.map f).sum := by
  rw [← List.length_map f]
  refine List.length_le_sum_of_one_le _ fun n hn => ?_
  obtain ⟨a, -, rfl⟩ := List.mem_map.mp hn
  exact hf a

/-- Nothing the peer has sent is left over. -/
def NspHandle.AllRead (h : NspHandle) : Prop :=
  if h.nnse then h.link.rx = [] ∧ h.pending = [] else h.cable.rx = []

/-! ## The cable -/

section Cable

variable {h : NspHandle} {rx tx : List UInt8}

/-- The sender takes the packet for an acknowledgement of its own. -/
def NspHandle.Accepts (h : NspHandle) (ack : NSPRawPacket) : Prop :=
  h.acknowledges ack = true ∧ ack.data.getD 0 0 ≠ nspCmdOsOk ∧ ack.data.getD 0 0 ≠ nspCmdStatus

theorem exec_nspRecvAck_cable (ack : NSPRawPacket) (hmode : h.nnse = false) (hack : h.Accepts ack)
    (hcable : h.cable = ⟨ack.bytes ++ rx, tx, none⟩) :
    ∃ seq seqPc, Proc.exec nspRecvAck h =
      (.ok (), { h with cable := ⟨rx, tx, none⟩, seq := seq, seqPc := seqPc }) := by
  obtain ⟨seq, seqPc, hrecv⟩ := exec_nspRecv_cable ack hmode hcable
  obtain ⟨hack, hok, hstatus⟩ := hack
  have hflag : ack.ack = 0x0A := by
    simp only [NspHandle.acknowledges, Bool.and_eq_true, decide_eq_true_eq] at hack
    exact hack.2
  refine ⟨seq, seqPc, ?_⟩
  rw [nspRecvAck, Proc.exec_bind_ok (Proc.exec_get _), if_neg (by simp [hmode]), nspRecvAckLoop,
    Proc.exec_bind_ok hrecv, Proc.exec_bind_ok (Proc.exec_get _), if_neg (fun hcmd => hcmd.2.elim hok hstatus),
    if_neg (by simp [hflag]), if_pos (by simpa [NspHandle.acknowledges] using hack), Proc.exec_pure]

/-- The bytes of packets in a row. -/
def packetBytes (pkts : List NSPRawPacket) : List UInt8 := (pkts.map NSPRawPacket.bytes).flatten

theorem length_le_packetBytes (pkts : List NSPRawPacket) : pkts.length ≤ (packetBytes pkts).length := by
  rw [packetBytes, List.length_flatten, List.map_map]
  refine length_le_sum_map _ ?_ pkts
  intro pkt
  rw [Function.comp_apply, length_bytes]
  exact Nat.le_add_right_of_le (by decide)

/-- How many acknowledgements the sender reads behind a packet. -/
def acksEach (vtl : NSPVirtualPacket) : Nat := if noAcks vtl.srcPort vtl.dstPort then 0 else 1

/-- The packet carries a piece of a virtual packet. -/
def CarriesPiece (vtl : NSPVirtualPacket) (sent : NSPRawPacket) (piece : List UInt8) : Prop :=
  sent.srcPort = vtl.srcPort ∧ sent.dstPort = vtl.dstPort ∧ sent.data = vtl.cmd :: piece

theorem exec_nspSendPiece_cable {vtl : NSPVirtualPacket} {piece : List UInt8}
    (hfits : (vtl.cmd :: piece).length ≤ nspDataSize) {acks : List NSPRawPacket}
    (hacks : ∀ a ∈ acks, h.Accepts a) (hcount : acks.length = acksEach vtl)
    (hmode : h.nnse = false) (hcable : h.cable = ⟨packetBytes acks ++ rx, tx, none⟩) :
    ∃ (sent : NSPRawPacket) (seq seqPc : UInt8), CarriesPiece vtl sent piece ∧
      Proc.exec (nspSendPiece vtl piece) h =
        (.ok (), { h with
          cable := ⟨rx, tx ++ sent.bytes, none⟩, seq := seq, seqPc := seqPc }) := by
  obtain ⟨sent, seqPc, hcarries, hsend⟩ := exec_nspSend_cable
    (nspNewPacket vtl.srcAddr vtl.srcPort vtl.dstAddr vtl.dstPort (vtl.cmd :: piece) hfits)
    hmode hcable
  have hpiece : CarriesPiece vtl sent piece := ⟨hcarries.srcPort, hcarries.dstPort, hcarries.data⟩
  unfold nspSendPiece
  rw [dif_pos hfits, Proc.exec_bind_ok hsend]
  by_cases hnone : noAcks vtl.srcPort vtl.dstPort
  · rw [acksEach, if_pos hnone] at hcount
    rw [List.length_eq_zero_iff.mp hcount]
    refine ⟨sent, h.seq, seqPc, hpiece, ?_⟩
    rw [if_neg (not_not.mpr hnone)]
    rfl
  · rw [acksEach, if_neg hnone] at hcount
    obtain ⟨a, rfl⟩ := List.length_eq_one_iff.mp hcount
    have hone : packetBytes [a] = a.bytes := by simp [packetBytes]
    rw [hone]
    obtain ⟨seq, seqPc', hack⟩ := exec_nspRecvAck_cable
      (h := { h with cable := ⟨a.bytes ++ rx, tx ++ sent.bytes, none⟩, seqPc := seqPc })
      a hmode (hacks a (List.mem_singleton_self a)) rfl
    refine ⟨sent, seq, seqPc', hpiece, ?_⟩
    rw [if_pos hnone, hack]

/-- The pieces the cable sender cuts: `q` full ones and the rest. -/
def cablePieces (vtl : NSPVirtualPacket) : Nat → List UInt8 → List (List UInt8)
  | 0, rest => if rest ≠ [] ∨ vtl.data.length = 0 then [rest] else []
  | q + 1, data => data.take (nspDataSize - 1) :: cablePieces vtl q (data.drop (nspDataSize - 1))

theorem cablePieces_eq (vtl : NSPVirtualPacket) :
    cablePieces vtl (vtl.data.length / (nspDataSize - 1)) vtl.data =
      sentPieces (capacity false) vtl.data := by
  have hcut (q : Nat) (data : List UInt8) : cablePieces vtl q data =
      chunks (nspDataSize - 1) q data ++
        if data.drop (q * (nspDataSize - 1)) ≠ [] ∨ vtl.data.length = 0 then
          [data.drop (q * (nspDataSize - 1))] else [] := by
    induction q generalizing data with
    | zero => simp [cablePieces, chunks]
    | succ q ih =>
        rw [cablePieces, ih, chunks, List.cons_append, List.drop_drop, Nat.succ_mul,
          Nat.add_comm (q * _)]
  have hmod := Nat.div_add_mod' vtl.data.length (nspDataSize - 1)
  rw [hcut]
  by_cases hdata : vtl.data = []
  · simp [hdata, sentPieces, chunks]
  · have hpos : 0 < vtl.data.length := List.length_pos_iff.mpr hdata
    have hrest : (vtl.data.drop (vtl.data.length / (nspDataSize - 1) * (nspDataSize - 1)) ≠ [] ∨
        vtl.data.length = 0) ↔ ¬ vtl.data.length % (nspDataSize - 1) = 0 := by
      rw [Ne, List.drop_eq_nil_iff]
      omega
    have hcapacity : capacity false = nspDataSize - 1 := rfl
    rw [sentPieces, if_neg hdata, hcapacity, pieces]
    simp only [hrest, ite_not]

/-- The sender on the cable: its packets carry the pieces. -/
theorem exec_nspSendCable {vtl : NSPVirtualPacket} (q : Nat) {data : List UInt8}
    (hfits : data.length < (q + 1) * (nspDataSize - 1)) {acks : List NSPRawPacket}
    (hacks : ∀ a ∈ acks, h.Accepts a)
    (hcount : acks.length = acksEach vtl * (cablePieces vtl q data).length)
    (hmode : h.nnse = false) (hcable : h.cable = ⟨packetBytes acks, tx, none⟩) :
    ∃ (sent : List NSPRawPacket) (seq seqPc : UInt8),
      List.Forall₂ (CarriesPiece vtl) sent (cablePieces vtl q data) ∧
      Proc.exec (nspSendCable vtl q data) h =
        (.ok (), { h with
          cable := ⟨[], tx ++ packetBytes sent, none⟩, seq := seq, seqPc := seqPc }) := by
  induction q generalizing h tx data acks with
  | zero =>
      unfold nspSendCable
      by_cases hlast : data ≠ [] ∨ vtl.data.length = 0
      · have hpieces : cablePieces vtl 0 data = [data] := by rw [cablePieces, if_pos hlast]
        rw [hpieces, List.length_singleton, Nat.mul_one] at hcount
        have hlen : (vtl.cmd :: data).length ≤ nspDataSize := by
          simp only [nspDataSize, List.length_cons] at hfits ⊢
          omega
        rw [← List.append_nil (packetBytes acks)] at hcable
        obtain ⟨sent, seq, seqPc, hpiece, hsend⟩ :=
          exec_nspSendPiece_cable hlen hacks hcount hmode hcable
        refine ⟨[sent], seq, seqPc, ?_, ?_⟩
        · rw [hpieces]
          exact .cons hpiece .nil
        · rw [if_pos hlast, hsend]
          simp [packetBytes]
      · have hpieces : cablePieces vtl 0 data = [] := by rw [cablePieces, if_neg hlast]
        rw [hpieces, List.length_nil, Nat.mul_zero] at hcount
        refine ⟨[], h.seq, h.seqPc, ?_, ?_⟩
        · rw [hpieces]
          exact .nil
        · rw [if_neg hlast, Proc.exec_pure]
          rw [List.length_eq_zero_iff.mp hcount] at hcable
          simp [packetBytes] at hcable ⊢
          rw [← hcable]
  | succ q ih =>
      have hlen : (vtl.cmd :: data.take (nspDataSize - 1)).length ≤ nspDataSize := by
        simp only [nspDataSize, List.length_cons, List.length_take]
        omega
      have hshort : (data.drop (nspDataSize - 1)).length < (q + 1) * (nspDataSize - 1) := by
        have hpos : 0 < nspDataSize - 1 := by decide
        have hmore : 0 < (q + 1) * (nspDataSize - 1) := Nat.mul_pos (Nat.succ_pos q) hpos
        rw [Nat.succ_mul] at hfits
        rw [List.length_drop]
        omega
      rw [cablePieces, List.length_cons, Nat.mul_succ, Nat.add_comm] at hcount
      have hfirst : (acks.take (acksEach vtl)).length = acksEach vtl := by
        rw [List.length_take]
        omega
      have hrest : (acks.drop (acksEach vtl)).length =
          acksEach vtl * (cablePieces vtl q (data.drop (nspDataSize - 1))).length := by
        rw [List.length_drop]
        omega
      have hsplit : packetBytes acks =
          packetBytes (acks.take (acksEach vtl)) ++ packetBytes (acks.drop (acksEach vtl)) := by
        rw [packetBytes, packetBytes, packetBytes, ← List.flatten_append, ← List.map_append,
          List.take_append_drop]
      rw [hsplit] at hcable
      obtain ⟨sent, seq, seqPc, hpiece, hsend⟩ := exec_nspSendPiece_cable hlen
        (fun a ha => hacks a (List.mem_of_mem_take ha)) hfirst hmode hcable
      obtain ⟨sent', seq', seqPc', hpieces, hloop⟩ := ih
        (h := { h with
          cable := ⟨packetBytes (acks.drop (acksEach vtl)), tx ++ sent.bytes, none⟩
          seq := seq
          seqPc := seqPc })
        hshort (fun a ha => hacks a (List.mem_of_mem_drop ha)) hrest hmode rfl
      refine ⟨sent :: sent', seq', seqPc', .cons hpiece hpieces, ?_⟩
      rw [nspSendCable, Proc.exec_bind_ok hsend, hloop]
      simp [packetBytes]

theorem exec_nspAnswerRaw_cable (raw : NSPRawPacket) (hmode : h.nnse = false)
    (hcable : h.cable = ⟨rx, tx, none⟩) :
    ∃ tx' seqPc, Proc.exec (nspAnswerRaw raw) h =
      (.ok (), { h with cable := ⟨rx, tx', none⟩, seqPc := seqPc }) := by
  unfold nspAnswerRaw
  split
  · obtain ⟨sent, seqPc, -, hsend⟩ := exec_nspSend_cable (nspNewPacket nspSrcAddr nspPortPktNack
      nspDevAddr raw.srcPort (putWord nspPortLogin) (by simp [nspDataSize])) hmode hcable
    refine ⟨tx ++ sent.bytes, seqPc, ?_⟩
    rw [nspSendNackEx, hsend]
  · split
    · obtain ⟨sent, seqPc, -, hsend⟩ := exec_nspSend_cable (nspNewPacket nspSrcAddr
        nspPortPktAck2 nspDevAddr h.dstPort (putWord h.srcPort) (by simp [nspDataSize])) hmode
        hcable
      refine ⟨tx ++ sent.bytes, seqPc, ?_⟩
      rw [nspSendAck, Proc.exec_bind_ok (Proc.exec_get _), hsend]
    · refine ⟨tx, h.seqPc, ?_⟩
      rw [Proc.exec_pure, ← hcable]

/-- One packet of the message: it is appended and answered. -/
theorem exec_nspRecvDataCable_cons {vtl : NSPVirtualPacket} {sent : NSPRawPacket}
    {piece : List UInt8} (hpiece : CarriesPiece vtl sent piece) (size fuel : Nat)
    (got : NspReceived) (hmode : h.nnse = false)
    (hcable : h.cable = ⟨sent.bytes ++ rx, tx, none⟩) :
    match got.append size (vtl.cmd :: piece) with
    | .error e => (Proc.exec (nspRecvDataCable size (fuel + 1) got) h).1 = .error e
    | .ok got' => ∃ tx' seq seqPc, Proc.exec (nspRecvDataCable size (fuel + 1) got) h =
        Proc.exec
          (if got'.complete size (piece.length + 1) nspDataSize then pure got'
            else nspRecvDataCable size fuel got')
          { h with cable := ⟨rx, tx', none⟩, seq := seq, seqPc := seqPc } := by
  obtain ⟨-, -, hdata⟩ := hpiece
  obtain ⟨seq, seqPc, hrecv⟩ := exec_nspRecv_cable sent hmode hcable
  have hlen : sent.data.length = piece.length + 1 := by rw [hdata, List.length_cons]
  rw [nspRecvDataCable, Proc.exec_bind_ok hrecv, if_neg (by omega), hdata]
  cases happend : got.append size (vtl.cmd :: piece) with
  | error e => exact Proc.exec_bind_fst_error (by rw [Proc.exec_ofExcept])
  | ok got' =>
      dsimp only
      obtain ⟨tx', seqPc', hanswer⟩ := exec_nspAnswerRaw_cable
        (h := { h with cable := ⟨rx, tx, none⟩, seq := seq, seqPc := seqPc }) sent hmode rfl
      refine ⟨tx', seq, seqPc', ?_⟩
      rw [Proc.exec_bind_ok (Proc.exec_ofExcept _ _), Proc.exec_bind_ok hanswer, List.length_cons]

theorem exec_nspRecvDataCable {vtl : NSPVirtualPacket} {sent : List NSPRawPacket}
    {ps : List (List UInt8)} (hsent : List.Forall₂ (CarriesPiece vtl) sent ps) (size : Nat) {fuel : Nat}
    (hfuel : ps.length < fuel) (got : NspReceived) (hmode : h.nnse = false)
    (hcable : h.cable = ⟨packetBytes sent, tx, none⟩) :
    (∀ got', reassemble size nspDataSize vtl.cmd got ps = .ok (got', []) →
      ∃ h', Proc.exec (nspRecvDataCable size fuel got) h = (.ok got', h') ∧ h'.AllRead) ∧
    (∀ e, reassemble size nspDataSize vtl.cmd got ps = .error e →
      (Proc.exec (nspRecvDataCable size fuel got) h).1 = .error e) := by
  induction hsent generalizing h tx got fuel with
  | nil =>
      obtain ⟨fuel, rfl⟩ := Nat.exists_eq_succ_of_ne_zero (Nat.ne_zero_of_lt hfuel)
      have hrecv := exec_nspRecv_cable_nil hmode hcable
      constructor
      · intro got' h
        cases h
      · intro e h
        cases h
        rw [nspRecvDataCable, Proc.exec_bind_error hrecv]
  | @cons s p sent ps hpiece hsent ih =>
      obtain ⟨fuel, rfl⟩ := Nat.exists_eq_succ_of_ne_zero (Nat.ne_zero_of_lt hfuel)
      have hbytes : packetBytes (s :: sent) = s.bytes ++ packetBytes sent := by
        simp [packetBytes]
      rw [hbytes] at hcable
      have hstep := exec_nspRecvDataCable_cons hpiece size fuel got hmode hcable
      rw [reassemble]
      cases happend : got.append size (vtl.cmd :: p) with
      | error e' =>
          simp only [happend] at hstep
          constructor
          · intro got' h
            cases h
          · intro e h
            cases h
            exact hstep
      | ok next =>
          simp only [happend] at hstep
          obtain ⟨tx₁, seq, seqPc, hstep⟩ := hstep
          dsimp only
          rw [hstep]
          by_cases hdone : next.complete size (p.length + 1) nspDataSize
          · rw [if_pos hdone, if_pos hdone]
            constructor
            · intro got' h
              cases h
              cases hsent
              refine ⟨_, rfl, ?_⟩
              rw [NspHandle.AllRead, if_neg (by simp [hmode])]
              rfl
            · intro e h
              cases h
          · rw [if_neg hdone, if_neg hdone]
            exact ih (h := { h with
              cable := ⟨packetBytes sent, tx₁, none⟩, seq := seq, seqPc := seqPc })
              (Nat.lt_of_succ_lt_succ hfuel) next hmode rfl

end Cable

/-! ## NNSE -/

section Nnse

variable {h : NspHandle} {rx : List NnseEvent} {tx : List NnseMessage}

/-- Acknowledgements of messages with consecutive sequence numbers. -/
inductive StreamAcks : UInt16 → List NnseMessage → Prop
  | nil (seqno : UInt16) : StreamAcks seqno []
  | cons {seqno : UInt16} {m : NnseMessage} {acks : List NnseMessage} (hack : m.Acks seqno)
      (hacks : StreamAcks (seqno + 1) acks) : StreamAcks seqno (m :: acks)

/-- How many acknowledgements the sender reads behind a message. -/
def streamAcksEach (vtl : NSPVirtualPacket) : Nat :=
  if vtl.dstPort = nspPortKeypresses then 0 else 1

/-- The message carries a piece of a virtual packet, and is no repetition. -/
def MessageCarries (vtl : NSPVirtualPacket) (sent : NnseMessage) (piece : List UInt8) : Prop :=
  ∃ reqack seqno payload, sent = streamMessage reqack seqno payload ∧ reqack &&& 0x08 = 0 ∧
    nspNnseRawData vtl.srcAddr vtl.srcPort vtl.dstAddr vtl.dstPort 0 0 (vtl.cmd :: piece) =
      .ok payload

theorem nspNnseRawData_ok (vtl : NSPVirtualPacket) {piece : List UInt8}
    (hfits : piece.length + 1 ≤ nspNnseDataSize) :
    ∃ payload, nspNnseRawData vtl.srcAddr vtl.srcPort vtl.dstAddr vtl.dstPort 0 0
        (vtl.cmd :: piece) = .ok payload ∧ payload.length ≤ nspNnseMaxPayload ∧
      nnseStreamRequiresAck payload = decide (vtl.dstPort ≠ nspPortKeypresses) := by
  have hsize : ¬ ((vtl.cmd :: piece).length < 1 ∨ nspNnseDataSize < (vtl.cmd :: piece).length) := by
    rw [List.length_cons]
    omega
  simp only [nspNnseRawData]
  rw [if_neg hsize]
  refine ⟨_, rfl, ?_, ?_⟩
  · rw [List.length_append, length_nspPackHeader]
    simp only [nspNnseDataSize] at hfits
    simp only [nspHeaderSize, nspNnseMaxPayload]
    split
    · rw [List.length_append, length_putBE, List.length_cons]
      omega
    · rw [List.length_cons]
      omega
  · generalize hmsg : nspPackHeader _ _ _ _ _ _ _ _ ++ _ = msg
    obtain ⟨h0, h1, -, -, -, hport, -⟩ := fields_nspPackHeader _ _ _ _ _ _ _ _ _ hmsg.symm
    have hlong : ¬ msg.length < nspHeaderSize := by
      rw [← hmsg, List.length_append, length_nspPackHeader]
      omega
    rw [nnseStreamRequiresAck, h0, h1, hport, decide_eq_false hlong]
    simp

/-- The acknowledgements of a series start with those of the first message. -/
theorem StreamAcks.split {vtl : NSPVirtualPacket} {seqno : UInt16} {acks : List NnseMessage}
    (hacks : StreamAcks seqno acks) {n : Nat} (hcount : acks.length = streamAcksEach vtl * (n + 1)) :
    ∃ first rest, acks = first ++ rest ∧
      StreamAcks seqno first ∧ first.length = streamAcksEach vtl ∧
      StreamAcks (seqno + 1) rest ∧ rest.length = streamAcksEach vtl * n := by
  by_cases hnone : vtl.dstPort = nspPortKeypresses
  · rw [streamAcksEach, if_pos hnone] at hcount ⊢
    rw [Nat.zero_mul, List.length_eq_zero_iff] at hcount
    exact ⟨[], [], hcount, .nil seqno, rfl, .nil (seqno + 1), (Nat.zero_mul n).symm⟩
  · rw [streamAcksEach, if_neg hnone] at hcount ⊢
    cases hacks with
    | nil => rw [Nat.one_mul] at hcount; contradiction
    | @cons _ m acks hack hacks =>
        rw [Nat.one_mul, List.length_cons, Nat.succ_inj] at hcount
        exact ⟨[m], acks, rfl, .cons hack (.nil (seqno + 1)), rfl, hacks,
          hcount.trans (Nat.one_mul n).symm⟩

theorem exec_nspNnseSendRawData (vtl : NSPVirtualPacket) (piece : List UInt8)
    (hfits : piece.length + 1 ≤ nspNnseDataSize) {acks : List NnseMessage}
    (hacks : StreamAcks h.nnseSeqno acks) (hcount : acks.length = streamAcksEach vtl)
    (hready : h.handshakeDone = true) (hlink : h.link = ⟨acks.map .ok ++ rx, tx, none⟩) :
    ∃ sent, MessageCarries vtl sent piece ∧
      Proc.exec (nspNnseSendRawData vtl (vtl.cmd :: piece)) h =
        (.ok (), { h with link := ⟨rx, tx ++ [sent], none⟩, nnseSeqno := h.nnseSeqno + 1 }) := by
  obtain ⟨payload, hpayload, hlen, hneeds⟩ := nspNnseRawData_ok vtl hfits
  unfold nspNnseSendRawData
  rw [hpayload, Proc.exec_bind_ok (Proc.exec_ofExcept _ _)]
  by_cases hkey : vtl.dstPort = nspPortKeypresses
  · rw [streamAcksEach, if_pos hkey, List.length_eq_zero_iff] at hcount
    rw [hcount, List.map_nil, List.nil_append] at hlink
    exact ⟨_, ⟨0, h.nnseSeqno, payload, rfl, by decide, hpayload⟩,
      exec_nspNnseSendStream_plain hready (by simp [hneeds, hkey]) hlen hlink⟩
  · rw [streamAcksEach, if_neg hkey] at hcount
    cases hacks with
    | nil => contradiction
    | @cons _ ack rest hack _ =>
        rw [List.length_cons, Nat.succ_inj, List.length_eq_zero_iff] at hcount
        rw [hcount] at hlink
        exact ⟨_, ⟨1, h.nnseSeqno, payload, rfl, by decide, hpayload⟩,
          exec_nspNnseSendStream_acked hready (by simp [hneeds, hkey]) hlen hack hlink⟩

/-- The sender on NNSE: its messages carry the pieces. -/
theorem exec_nspSendNnse {vtl : NSPVirtualPacket} (fuel : Nat) {data : List UInt8}
    (hfuel : data.length < fuel) {acks : List NnseMessage} (hacks : StreamAcks h.nnseSeqno acks)
    (hcount : acks.length = streamAcksEach vtl * (sentPieces (capacity true) data).length)
    (hready : h.handshakeDone = true) (hlink : h.link = ⟨acks.map .ok, tx, none⟩) :
    ∃ sent seqno, List.Forall₂ (MessageCarries vtl) sent (sentPieces (capacity true) data) ∧
      Proc.exec (nspSendNnse vtl fuel data) h =
        (.ok (), { h with link := ⟨[], tx ++ sent, none⟩, nnseSeqno := seqno }) := by
  have hcapacity : capacity true = nspNnseDataSize - 1 := rfl
  have hsize : 1 ≤ nspNnseDataSize := by decide
  have hpos := capacity_pos true
  induction fuel generalizing h tx data acks with
  | zero => omega
  | succ fuel ih =>
      by_cases hlast : data.length ≤ capacity true
      · rw [sentPieces_of_length_le hlast, List.length_singleton, Nat.mul_one] at hcount
        rw [← List.append_nil (acks.map _)] at hlink
        obtain ⟨sent, hcarries, hsend⟩ := exec_nspNnseSendRawData vtl data (by omega) hacks
          hcount hready hlink
        refine ⟨[sent], h.nnseSeqno + 1, ?_, ?_⟩
        · rw [sentPieces_of_length_le hlast]
          exact .cons hcarries .nil
        · rw [nspSendNnse, List.take_of_length_le (hcapacity ▸ hlast), Proc.exec_bind_ok hsend,
            if_pos (List.drop_eq_nil_iff.mpr (hcapacity ▸ hlast)), Proc.exec_pure]
      · have hmore : data.drop (nspNnseDataSize - 1) ≠ [] := by
          rw [Ne, List.drop_eq_nil_iff, ← hcapacity]
          exact hlast
        rw [sentPieces_of_lt_length (capacity_pos true) (by omega), List.length_cons] at hcount
        obtain ⟨first, rest, rfl, hfirst, hone, hrest, hothers⟩ := hacks.split hcount
        rw [List.map_append] at hlink
        obtain ⟨sent, hcarries, hsend⟩ := exec_nspNnseSendRawData vtl
          (data.take (nspNnseDataSize - 1)) (by rw [List.length_take]; omega) hfirst hone hready
          hlink
        obtain ⟨sent', seqno, hpieces, hloop⟩ := ih
          (h := { h with
            link := ⟨rest.map .ok, tx ++ [sent], none⟩, nnseSeqno := h.nnseSeqno + 1 })
          (by rw [List.length_drop]; omega) hrest hothers hready rfl
        refine ⟨sent :: sent', seqno, ?_, ?_⟩
        · rw [sentPieces_of_lt_length (capacity_pos true) (by omega)]
          exact .cons hcarries hpieces
        · rw [nspSendNnse, Proc.exec_bind_ok hsend, if_neg hmore]
          exact hloop.trans (by rw [List.append_assoc, List.singleton_append])

/-- The associated receiver, with nothing queued. -/
structure NspHandle.Listening (h : NspHandle) (dstPort : UInt16) : Prop where
  mode : h.nnse = true
  ready : h.handshakeDone = true
  pending : h.pending = []
  port : h.portMatches dstPort = true

theorem NspHandle.Listening.allRead {dstPort : UInt16} (hlistening : h.Listening dstPort)
    (hrx : h.link.rx = []) : h.AllRead := by
  rw [NspHandle.AllRead, if_pos hlistening.mode]
  exact ⟨hrx, hlistening.pending⟩

/-- A message of the sender is taken for the packet in it. -/
theorem exec_nspNnseRecvRawPacket {vtl : NSPVirtualPacket} {sent : NnseMessage}
    {piece : List UInt8} (hpiece : MessageCarries vtl sent piece)
    (hfits : piece.length + 1 ≤ nspNnseDataSize) (hlistening : h.Listening vtl.dstPort)
    (hlink : h.link = ⟨fromPeer sent :: rx, tx, none⟩) :
    ∃ pkt h', Proc.exec nspNnseRecvRawPacket h = (.ok pkt, h') ∧ pkt.data = vtl.cmd :: piece ∧
      h'.Listening vtl.dstPort ∧ ∃ tx', h'.link = ⟨rx, tx', none⟩ := by
  obtain ⟨reqack, seqno, payload, rfl, hretry, hpayload⟩ := hpiece
  obtain ⟨payload', hpayload', hlen, -⟩ := nspNnseRawData_ok vtl hfits
  rw [hpayload] at hpayload'
  cases hpayload'
  obtain ⟨tx', seqno', hrecv⟩ := exec_nspNnseRecvStream_fromPeer hlistening.ready
    hlistening.pending hretry hlen hlink
  obtain ⟨dataSum, hdrSum, hfound⟩ := nspFindRawPacketBoundary_nspNnseRawData hpayload
  obtain ⟨seq, seqPc, hnote⟩ := exec_nspNoteSequence
    { h with link := ⟨rx, tx', none⟩, nnseSeqno := seqno', lastStreamSeqno := some seqno }
    vtl.srcPort 0
  have hnone : ¬ 0 + payload.length < payload.length := by omega
  have hport : ¬ ¬ NspHandle.portMatches { h with
      link := ⟨rx, tx', none⟩
      nnseSeqno := seqno'
      lastStreamSeqno := some seqno } vtl.dstPort = true := not_not.mpr hlistening.port
  unfold nspNnseRecvRawPacket
  rw [Proc.exec_bind_ok (Proc.exec_get _), NspHandle.turns, nspNnseRecvRawPacketLoop,
    Proc.exec_bind_ok hrecv, hfound]
  dsimp only
  rw [if_neg hnone, Proc.exec_bind_ok (Proc.exec_get _), if_neg hport, Proc.exec_bind_ok hnote]
  exact ⟨_, _, rfl, rfl,
    ⟨hlistening.mode, hlistening.ready, hlistening.pending, hlistening.port⟩, tx', rfl⟩

theorem exec_nspNnseRecvRawPacket_nil {dstPort : UInt16} (hlistening : h.Listening dstPort)
    (hlink : h.link = ⟨[], tx, none⟩) :
    (Proc.exec nspNnseRecvRawPacket h).1 = .error .readTimeout := by
  have htake : Proc.exec (nnseTakePending nspNnseMaxPayload h.pending) h = (.ok none, h) := by
    rw [hlistening.pending]
    rfl
  have hrecv : Proc.exec (nspNnseRecvStream nspNnseMaxPayload) h = (.error .readTimeout, h) := by
    rw [nspNnseRecvStream, Proc.exec_bind_ok (exec_nspNnseEnsureReady hlistening.ready),
      Proc.exec_bind_ok (Proc.exec_get _), Proc.exec_bind_ok htake]
    dsimp only
    rw [nspNnseMaxIterations, nnseRecvStreamLoop,
      Proc.exec_bind_ok (exec_nnseRecvMessage_nil hlink)]
    rfl
  unfold nspNnseRecvRawPacket
  rw [Proc.exec_bind_ok (Proc.exec_get _), NspHandle.turns, nspNnseRecvRawPacketLoop,
    Proc.exec_bind_error hrecv]

theorem length_lt_turns (h : NspHandle) : h.link.rx.length < h.turns := by
  refine Nat.lt_succ_of_le ((length_le_sum_map _ ?_ h.link.rx).trans (Nat.le_add_left _ _))
  intro event
  cases event with
  | error e => exact Nat.le_refl 1
  | ok m => exact Nat.le_add_left 1 m.payload.length

/-- The receiver on NNSE, with the pieces of a message still to come. -/
theorem exec_nspRecvDataNnse {vtl : NSPVirtualPacket} {sent : List NnseMessage}
    {ps : List (List UInt8)} (hsent : List.Forall₂ (MessageCarries vtl) sent ps)
    (hfits : ∀ p ∈ ps, p.length + 1 ≤ nspNnseDataSize) (size : Nat) {fuel : Nat}
    (hfuel : ps.length < fuel) (got : NspReceived) (hlistening : h.Listening vtl.dstPort)
    (hlink : h.link = ⟨sent.map fromPeer, tx, none⟩) :
    (∀ got', reassemble size nspNnseDataSize vtl.cmd got ps = .ok (got', []) →
      ∃ h', Proc.exec (nspRecvDataNnse size fuel got) h = (.ok got', h') ∧ h'.AllRead) ∧
    (∀ e, reassemble size nspNnseDataSize vtl.cmd got ps = .error e →
      (Proc.exec (nspRecvDataNnse size fuel got) h).1 = .error e) := by
  induction hsent generalizing h tx got fuel with
  | nil =>
      obtain ⟨fuel, rfl⟩ := Nat.exists_eq_succ_of_ne_zero (Nat.ne_zero_of_lt hfuel)
      constructor
      · intro got' h
        cases h
      · intro e h
        cases h
        exact Proc.exec_bind_fst_error (exec_nspNnseRecvRawPacket_nil hlistening hlink)
  | @cons s p sent ps hpiece hsent ih =>
      obtain ⟨fuel, rfl⟩ := Nat.exists_eq_succ_of_ne_zero (Nat.ne_zero_of_lt hfuel)
      obtain ⟨pkt, h₁, hrecv, hdata, hlistening₁, tx₁, hlink₁⟩ := exec_nspNnseRecvRawPacket hpiece
        (hfits p List.mem_cons_self) hlistening hlink
      rw [reassemble, nspRecvDataNnse, Proc.exec_bind_ok hrecv, hdata]
      cases happend : got.append size (vtl.cmd :: p) with
      | error e' =>
          constructor
          · intro got' h
            cases h
          · intro e h
            cases h
            exact Proc.exec_bind_fst_error (by rw [Proc.exec_ofExcept])
      | ok next =>
          rw [Proc.exec_bind_ok (Proc.exec_ofExcept _ _), List.length_cons]
          dsimp only
          by_cases hdone : next.complete size (p.length + 1) nspNnseDataSize
          · rw [if_pos hdone, if_pos hdone]
            constructor
            · intro got' h
              cases h
              cases hsent
              exact ⟨h₁, rfl, hlistening₁.allRead (by rw [hlink₁, List.map_nil])⟩
            · intro e h
              cases h
          · rw [if_neg hdone, if_neg hdone]
            exact ih (fun q hq => hfits q (List.mem_cons_of_mem p hq))
              (Nat.lt_of_succ_lt_succ hfuel) next hlistening₁ hlink₁

end Nnse

/-! ## Delivery -/

/-- The handle reads what another one has sent. -/
def NspHandle.reading (h peer : NspHandle) : NspHandle :=
  { h with
    cable := ⟨peer.cable.tx, [], none⟩
    link := ⟨peer.link.tx.map fromPeer, [], none⟩ }

@[simp] theorem NspHandle.reading_nnse (h peer : NspHandle) : (h.reading peer).nnse = h.nnse := rfl

/-- The payload goes out, and the receiver puts it together from just the
packets that were sent. -/
def Arrives (size : Nat) (vtl : NSPVirtualPacket) (sender receiver : NspHandle) : Prop :=
  ∃ sender' receiver',
    Proc.exec (nspSendData vtl) sender = (.ok (), sender') ∧
    Proc.exec (nspRecvData size) (receiver.reading sender') =
      (.ok ⟨vtl.cmd, vtl.data⟩, receiver') ∧
    receiver'.AllRead

/-- Every packet that needs an acknowledgement gets it. -/
inductive Answered (vtl : NSPVirtualPacket) (h : NspHandle) : Prop
  | cable (acks : List NSPRawPacket) (hmode : h.nnse = false) (haccepts : ∀ a ∈ acks, h.Accepts a)
      (hcount : acks.length = acksEach vtl * (sentPieces (capacity false) vtl.data).length)
      (hcable : h.cable = ⟨packetBytes acks, [], none⟩)
  | nnse (acks : List NnseMessage) (hmode : h.nnse = true) (hready : h.handshakeDone = true)
      (hacks : StreamAcks h.nnseSeqno acks)
      (hcount : acks.length = streamAcksEach vtl * (sentPieces (capacity true) vtl.data).length)
      (hlink : h.link = ⟨acks.map .ok, [], none⟩)

section Deliver

variable {vtl : NSPVirtualPacket} {sender receiver : NspHandle}

theorem exec_nspRecvData_cable {h : NspHandle} (size : Nat) (hmode : h.nnse = false) :
    Proc.exec (nspRecvData size) h =
      Proc.exec (nspRecvDataCable size (h.cable.rx.length + 1) ⟨0, []⟩) h := by
  rw [nspRecvData, Proc.exec_bind_ok (Proc.exec_get _), if_neg (by simp [hmode])]

theorem exec_nspRecvData_nnse {h : NspHandle} (size : Nat) (hmode : h.nnse = true) :
    Proc.exec (nspRecvData size) h = Proc.exec (nspRecvDataNnse size h.turns ⟨0, []⟩) h := by
  rw [nspRecvData, Proc.exec_bind_ok (Proc.exec_get _), if_pos hmode]

/-- The receiver makes of the packets what it can make of their pieces. -/
theorem exec_nspRecvData_reading (hsender : Answered vtl sender)
    (hmode : receiver.nnse = sender.nnse)
    (hlistening : receiver.nnse = true → receiver.Listening vtl.dstPort) (size : Nat) :
    ∃ sender', Proc.exec (nspSendData vtl) sender = (.ok (), sender') ∧
      (∀ got, reassemble size (capacity receiver.nnse + 1) vtl.cmd ⟨0, []⟩
          (sentPieces (capacity receiver.nnse) vtl.data) = .ok (got, []) →
        ∃ receiver', Proc.exec (nspRecvData size) (receiver.reading sender') =
          (.ok got, receiver') ∧ receiver'.AllRead) ∧
      (∀ e, reassemble size (capacity receiver.nnse + 1) vtl.cmd ⟨0, []⟩
          (sentPieces (capacity receiver.nnse) vtl.data) = .error e →
        (Proc.exec (nspRecvData size) (receiver.reading sender')).1 = .error e) := by
  cases hsender with
  | cable acks hcableMode haccepts hcount hcable =>
      have hsmall : vtl.data.length < (vtl.data.length / (nspDataSize - 1) + 1) * (nspDataSize - 1) := by
        rw [Nat.mul_comm]
        exact Nat.lt_mul_div_succ _ (by decide)
      rw [← cablePieces_eq] at hcount
      obtain ⟨sent, seq, seqPc, hsent, hsend⟩ := exec_nspSendCable _ hsmall haccepts hcount
        hcableMode hcable
      rw [List.nil_append] at hsend
      rw [cablePieces_eq] at hsent
      rw [hcableMode] at hmode
      have hmode' := (receiver.reading_nnse { sender with
        cable := ⟨[], packetBytes sent, none⟩, seq := seq, seqPc := seqPc }).trans hmode
      have hfuel := hsent.length_eq ▸ length_le_packetBytes sent
      obtain ⟨hok, herror⟩ := exec_nspRecvDataCable hsent size
        (Nat.lt_succ_of_le hfuel) ⟨0, []⟩
        (h := receiver.reading { sender with
          cable := ⟨[], packetBytes sent, none⟩, seq := seq, seqPc := seqPc }) hmode rfl
      refine ⟨{ sender with
        cable := ⟨[], packetBytes sent, none⟩, seq := seq, seqPc := seqPc }, ?_, ?_, ?_⟩
      · rw [nspSendData, Proc.exec_bind_ok (Proc.exec_get _), if_neg (by simp [hcableMode])]
        exact hsend
      · intro got hgot
        rw [hmode] at hgot
        obtain ⟨receiver', hrecv, hread⟩ := hok got hgot
        exact ⟨receiver', (exec_nspRecvData_cable size hmode').trans hrecv, hread⟩
      · intro e he
        rw [hmode] at he
        rw [exec_nspRecvData_cable size hmode']
        exact herror e he
  | nnse acks hnnseMode hready hacks hcount hlink =>
      obtain ⟨sent, seqno, hsent, hsend⟩ := exec_nspSendNnse _ (Nat.lt_succ_self vtl.data.length)
        hacks hcount hready hlink
      rw [List.nil_append] at hsend
      rw [hnnseMode] at hmode
      have hmode' := (receiver.reading_nnse { sender with
        link := ⟨[], sent, none⟩, nnseSeqno := seqno }).trans hmode
      obtain ⟨-, hready', hpending, hport⟩ := hlistening hmode
      have hfits : ∀ p ∈ sentPieces (capacity true) vtl.data, p.length + 1 ≤ nspNnseDataSize :=
        fun p hp => Nat.succ_le_succ (length_le_of_mem_sentPieces (capacity_pos true) hp)
      have hfuel := length_lt_turns (receiver.reading { sender with
        link := ⟨[], sent, none⟩, nnseSeqno := seqno })
      have hcount' : (sent.map fromPeer).length = (sentPieces (capacity true) vtl.data).length :=
        (List.length_map fromPeer).trans hsent.length_eq
      rw [show (receiver.reading _).link.rx = sent.map fromPeer from rfl, hcount'] at hfuel
      obtain ⟨hok, herror⟩ := exec_nspRecvDataNnse hsent hfits size hfuel ⟨0, []⟩
        (h := receiver.reading { sender with link := ⟨[], sent, none⟩, nnseSeqno := seqno })
        ⟨hmode, hready', hpending, hport⟩ rfl
      refine ⟨{ sender with link := ⟨[], sent, none⟩, nnseSeqno := seqno }, ?_, ?_, ?_⟩
      · rw [nspSendData, Proc.exec_bind_ok (Proc.exec_get _), if_pos hnnseMode]
        exact hsend
      · intro got hgot
        rw [hmode] at hgot
        obtain ⟨receiver', hrecv, hread⟩ := hok got hgot
        exact ⟨receiver', (exec_nspRecvData_nnse size hmode').trans hrecv, hread⟩
      · intro e he
        rw [hmode] at he
        rw [exec_nspRecvData_nnse size hmode']
        exact herror e he

/-- The payload arrives, unless its buffer would need 2^32 bytes, or its last
packet is full and the receiver does not know the size. -/
theorem arrives_iff {size : Nat} (hsender : Answered vtl sender)
    (hmode : receiver.nnse = sender.nnse)
    (hlistening : receiver.nnse = true → receiver.Listening vtl.dstPort)
    (hsize : size = 0 ∨ size = vtl.data.length) :
    Arrives size vtl sender receiver ↔
      vtl.data.length + 1 ≠ 2 ^ 32 ∧
        ¬ (size = 0 ∧ 0 < vtl.data.length ∧ capacity receiver.nnse ∣ vtl.data.length) := by
  obtain ⟨sender', hsend, hok, herror⟩ :=
    exec_nspRecvData_reading hsender hmode hlistening size
  have hpieces := reassemble_sentPieces vtl.cmd (capacity_pos receiver.nnse) vtl.fits hsize
  constructor
  · rintro ⟨sender'', receiver', hsend', hrecv, -⟩
    rw [hsend] at hsend'
    cases hsend'
    constructor
    · intro hmalloc
      rw [if_pos hmalloc] at hpieces
      have hstop := herror _ hpieces
      rw [hrecv] at hstop
      cases hstop
    · intro hwaits
      by_cases hmalloc : vtl.data.length + 1 = 2 ^ 32
      · rw [if_pos hmalloc] at hpieces
        have hstop := herror _ hpieces
        rw [hrecv] at hstop
        cases hstop
      · rw [if_neg hmalloc, if_pos hwaits] at hpieces
        have hstop := herror _ hpieces
        rw [hrecv] at hstop
        cases hstop
  · rintro ⟨hmalloc, hends⟩
    rw [if_neg hmalloc, if_neg hends] at hpieces
    obtain ⟨receiver', hrecv, hread⟩ := hok _ hpieces
    exact ⟨sender', receiver', hsend, hrecv, hread⟩

end Deliver

/-- A packet to the file management port. -/
def filePacket (data : List UInt8) (hdata : data.length ≤ 253) : NSPVirtualPacket :=
  ⟨nspSrcAddr, 0x8001, nspDevAddr, 0x4060, 0x05, data, by omega⟩

/-- The acknowledgement of a packet to the file management port. -/
def fileAck : NSPRawPacket :=
  ⟨0x54FD, nspDevAddr, nspPortPktAck2, nspSrcAddr, 0x8001, 0, 0x0A, 1, 0, [0x40, 0x60], by decide⟩

/-- A session with the file management port, which acknowledges one packet. -/
def fileSession : NspHandle :=
  { NspHandle.new false with dstPort := 0x4060, cable := ⟨packetBytes [fileAck], [], none⟩ }

theorem answered_fileSession (data : List UInt8) (hdata : data.length ≤ 253) :
    Answered (filePacket data hdata) fileSession := by
  have haccepts : fileSession.Accepts fileAck := ⟨by decide, by decide, by decide⟩
  refine .cable [fileAck] rfl ?_ ?_ rfl
  · intro a ha
    rwa [List.mem_singleton.mp ha]
  · have hone : sentPieces (capacity false) (filePacket data hdata).data = [data] :=
      sentPieces_of_length_le hdata
    rw [hone]
    rfl

theorem arrives_iff_three :
    Arrives 0 (filePacket [1, 2, 3] (by decide)) fileSession (NspHandle.new false) ↔
      [(1 : UInt8), 2, 3].length + 1 ≠ 2 ^ 32 ∧
        ¬ (0 = 0 ∧ 0 < [(1 : UInt8), 2, 3].length ∧ capacity false ∣ [(1 : UInt8), 2, 3].length) :=
  arrives_iff (answered_fileSession [1, 2, 3] (by decide)) rfl (by intro h; contradiction) (.inl rfl)

/-- A payload of one full packet: the receiver waits for another one. -/
theorem not_arrives_253 :
    ¬ Arrives 0 (filePacket (List.replicate 253 0x41) List.length_replicate.le) fileSession
      (NspHandle.new false) := by
  have hmode : (NspHandle.new false).nnse = fileSession.nnse := rfl
  have hcable : (NspHandle.new false).nnse = true → (NspHandle.new false).Listening 0x4060 := nofun
  rintro ⟨sender', receiver', hsend, hrecv, -⟩
  obtain ⟨sender'', hsend', -, herror⟩ := exec_nspRecvData_reading
    (answered_fileSession (List.replicate 253 0x41) List.length_replicate.le) hmode hcable 0
  have hwaits : reassemble 0 (capacity false + 1) 0x05 ⟨0, []⟩
      (sentPieces (capacity false) (List.replicate 253 0x41)) = .error .readTimeout := by
    have hlen : (List.replicate 253 (0x41 : UInt8)).length = 253 := List.length_replicate
    have hsmall : (List.replicate 253 (0x41 : UInt8)).length < 2 ^ 32 := hlen.trans_lt (by decide)
    rw [reassemble_sentPieces 0x05 (capacity_pos false) hsmall (.inl rfl), if_neg (by rw [hlen]; decide),
      if_pos (by rw [hlen]; decide)]
  rw [hsend] at hsend'
  cases hsend'
  have hstop := herror .readTimeout hwaits
  rw [hrecv] at hstop
  cases hstop

end Tilibs.Nsp
