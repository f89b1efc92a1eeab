import Tilibs.Dusb.Virtual

/-!
# Tilibs.Dusb.Acknowledge

Which packets `dusb_recv_acknowledge` takes for an acknowledgement: the packet
that arrives, or after a buffer size request the one behind it.

The function rejects a packet only when both of its first two bytes are wrong.
-/

namespace Tilibs.Dusb

open Tilibs.Lib

/-! ## The packets in the traffic -/

/-- The packet at the front of the traffic, and what follows it. -/
def nextPacket (rx : List UInt8) : Option (DUSBRawPacket × List UInt8) :=
  let size := getBE (rx.take 4)
  let data := (rx.drop 5).take size
  if rx.length < 5 ∨ (rx.drop 5).length < size then none
  else if fits : data.length ≤ dusbDataSize then
    some (⟨rx.getD 4 0, data, fits⟩, (rx.drop 5).drop size)
  else none

theorem exec_cableRecv_of_le {h : DusbHandle} {len : Nat} (hlen : len ≤ h.port.rx.length) :
    Proc.exec (cableRecv len) h
      = (.ok (h.port.rx.take len), { h with port := { h.port with rx := h.port.rx.drop len } }) := by
  simp [cableRecv, Proc.exec_bind, Port.recvN, hlen, Except.map]

theorem exec_cableRecv_of_lt {h : DusbHandle} {len : Nat} (hlen : h.port.rx.length < len) :
    Proc.exec (cableRecv len) h = (.error .readTimeout, h) := by
  simp [cableRecv, Proc.exec_bind, Port.recvN, Nat.not_le.mpr hlen]

/-- `dusb_recv` takes the packet at the front. -/
theorem exec_dusbRecv_of_next {h : DusbHandle} {raw : DUSBRawPacket} {rest : List UInt8}
    (hnext : nextPacket h.port.rx = some (raw, rest)) :
    Proc.exec dusbRecv h = (.ok raw, { h with port := { h.port with rx := rest } }) := by
  unfold nextPacket at hnext
  dsimp only at hnext
  split at hnext
  · cases hnext
  · rename_i hlong
    split at hnext
    · rename_i fits
      cases hnext
      have hhead : 5 ≤ h.port.rx.length := by omega
      have hsize : getBE (h.port.rx.take 4) ≤ (h.port.rx.drop 5).length := by omega
      have hmax : ¬dusbDataSize < getBE (h.port.rx.take 4) := by
        rw [List.length_take, Nat.min_eq_left hsize] at fits
        omega
      have htake : (h.port.rx.take 5).take 4 = h.port.rx.take 4 := by
        rw [List.take_take]
        rfl
      have htype : (h.port.rx.take 5).getD 4 0 = h.port.rx.getD 4 0 := by
        simp [List.getD_eq_getElem?_getD]
      rw [dusbRecv, Proc.exec_bind_ok (exec_cableRecv_of_le hhead)]
      dsimp only
      rw [htake, htype, if_neg hmax, Proc.exec_bind_ok (exec_cableRecv_of_le hsize)]
      unfold DUSBRawPacket.fill
      rw [dif_pos fits]
      rfl
    · cases hnext

theorem exec_dusbRecv_of_none {h : DusbHandle} (hnext : nextPacket h.port.rx = none) :
    ∃ e t, Proc.exec dusbRecv h = (.error e, t) := by
  unfold dusbRecv
  by_cases hhead : 5 ≤ h.port.rx.length
  · have htake : (h.port.rx.take 5).take 4 = h.port.rx.take 4 := by
      rw [List.take_take]
      rfl
    rw [Proc.exec_bind_ok (exec_cableRecv_of_le hhead)]
    dsimp only
    rw [htake]
    by_cases hmax : dusbDataSize < getBE (h.port.rx.take 4)
    · rw [if_pos hmax]
      exact ⟨_, _, rfl⟩
    · rw [if_neg hmax]
      by_cases hsize : getBE (h.port.rx.take 4) ≤ (h.port.rx.drop 5).length
      · have hfits : ((h.port.rx.drop 5).take (getBE (h.port.rx.take 4))).length
            ≤ dusbDataSize := by
          rw [List.length_take]
          omega
        unfold nextPacket at hnext
        dsimp only at hnext
        rw [if_neg (by omega), dif_pos hfits] at hnext
        cases hnext
      · exact ⟨_, _, Proc.exec_bind_error (exec_cableRecv_of_lt (Nat.lt_of_not_le hsize))⟩
  · exact ⟨_, _, Proc.exec_bind_error (exec_cableRecv_of_lt (Nat.lt_of_not_le hhead))⟩

/-- The packet of a handle's traffic is received, or receiving fails. -/
theorem exec_dusbRecv_eq_ok_iff {h t : DusbHandle} {raw : DUSBRawPacket} :
    Proc.exec dusbRecv h = (.ok raw, t)
      ↔ ∃ rest, nextPacket h.port.rx = some (raw, rest)
        ∧ t = { h with port := { h.port with rx := rest } } := by
  cases hnext : nextPacket h.port.rx with
  | none =>
      obtain ⟨e, u, hrun⟩ := exec_dusbRecv_of_none hnext
      simp [hrun]
  | some p =>
      obtain ⟨found, rest⟩ := p
      rw [exec_dusbRecv_of_next hnext]
      constructor
      · intro heq
        cases heq
        exact ⟨rest, rfl, rfl⟩
      · rintro ⟨rest', hsome, rfl⟩
        cases hsome
        rfl

theorem nextPacket_rawBytes {type : UInt8} {data : List UInt8} (rest : List UInt8)
    (h : data.length ≤ dusbDataSize) :
    nextPacket (rawBytes type data ++ rest) = some (⟨type, data, h⟩, rest) := by
  have hrun := exec_dusbRecv [] rest ⟨0, Nat.zero_le _⟩ type data h
  obtain ⟨rest', hnext, hhandle⟩ := exec_dusbRecv_eq_ok_iff.mp hrun
  simp only [DusbHandle.mk.injEq, Port.mk.injEq, and_true] at hhandle
  rw [hnext, hhandle]

/-! ## The packet that is checked -/

/-- The packet that `dusb_recv_acknowledge` checks at its end, and the first
bytes of the array that it is in.  A packet behind a buffer size request is
stored over the request. -/
inductive Checked (h : DusbHandle) : DUSBRawPacket → List UInt8 → Prop
  | plain {raw : DUSBRawPacket} {rest : List UInt8}
      (hnext : nextPacket h.port.rx = some (raw, rest)) (htype : raw.type ≠ dusbRpktBufSizeReq)
      (hsize : raw.data.length = 2 ∨ raw.data.length = 4) : Checked h raw raw.data
  | renegotiated {request ack : DUSBRawPacket} {rest rest' : List UInt8}
      (hnext : nextPacket h.port.rx = some (request, rest))
      (htype : request.type = dusbRpktBufSizeReq) (hsize : request.data.length = 4)
      (hwrite : h.port.fault ≠ some 0) (hack : nextPacket rest = some (ack, rest')) :
      Checked h ack (ack.data ++ request.data.drop ack.data.length)

theorem Checked.unique {h : DusbHandle} {ack ack' : DUSBRawPacket} {bytes bytes' : List UInt8}
    (hchecked : Checked h ack bytes) (hother : Checked h ack' bytes') :
    ack = ack' ∧ bytes = bytes' := by
  cases hchecked with
  | plain hnext htype =>
      cases hother with
      | plain hnext' =>
          cases hnext.symm.trans hnext'
          exact ⟨rfl, rfl⟩
      | renegotiated hnext' htype' =>
          cases hnext.symm.trans hnext'
          exact absurd htype' htype
  | renegotiated hnext htype _ _ hack =>
      cases hother with
      | plain hnext' htype' =>
          cases hnext.symm.trans hnext'
          exact absurd htype htype'
      | renegotiated hnext' _ _ _ hack' =>
          cases hnext.symm.trans hnext'
          cases hack.symm.trans hack'
          exact ⟨rfl, rfl⟩

/-- Type and content of a packet that is taken for an acknowledgement. -/
def TakenAsAck (ack : DUSBRawPacket) (bytes : List UInt8) : Prop :=
  ack.type = dusbRpktVirtDataAck ∧ (bytes.getD 0 0 = 0xE0 ∨ bytes.getD 1 0 = 0x00)

/-- The acknowledgement a calculator sends. -/
def IsAck (ack : DUSBRawPacket) : Prop := ack.type = dusbRpktVirtDataAck ∧ ack.data = [0xE0, 0x00]

theorem exec_acknowledges_eq_ok_iff {type : UInt8} {bytes : List UInt8} {s : DusbHandle} :
    (Proc.exec (acknowledges type bytes) s).1 = .ok ()
      ↔ type = dusbRpktVirtDataAck ∧ (bytes.getD 0 0 = 0xE0 ∨ bytes.getD 1 0 = 0x00) := by
  unfold acknowledges
  by_cases htype : type = dusbRpktVirtDataAck
  · by_cases hbytes : bytes.getD 0 0 ≠ 0xE0 ∧ bytes.getD 1 0 ≠ 0x00
    · rw [if_neg (not_not.mpr htype), if_pos hbytes]
      simp only [Proc.exec_throw, reduceCtorEq, false_iff]
      rintro ⟨-, hfirst | hsecond⟩
      · exact hbytes.1 hfirst
      · exact hbytes.2 hsecond
    · rw [if_neg (not_not.mpr htype), if_neg hbytes]
      simp only [Proc.exec_pure, htype, true_and, true_iff]
      rw [not_and_or, not_not, not_not] at hbytes
      exact hbytes
  · rw [if_pos htype]
    simp [htype]

/-- The reply to a request goes out unless the cable refuses it. -/
theorem exec_dusbSendBufSizeAlloc_handle (size : Nat) (h : DusbHandle) :
    (h.port.fault ≠ some 0 → ∃ t, Proc.exec (dusbSendBufSizeAlloc size) h = (.ok (), t)
        ∧ t.port.rx = h.port.rx)
      ∧ (h.port.fault = some 0 →
        ∃ t, Proc.exec (dusbSendBufSizeAlloc size) h = (.error .writeError, t)) := by
  obtain ⟨⟨rx, tx, fault⟩, limit⟩ := h
  cases fault with
  | none =>
      simp [dusbSendBufSizeAlloc, Proc.exec_bind, DUSBRawPacket.fill, dusbDataSize, dusbSend,
        cableSend]
  | some n =>
      cases n with
      | zero =>
          simp [dusbSendBufSizeAlloc, Proc.exec_bind, DUSBRawPacket.fill, dusbDataSize, dusbSend,
            cableSend, Port.sendAll]
      | succ n =>
          simp [dusbSendBufSizeAlloc, Proc.exec_bind, DUSBRawPacket.fill, dusbDataSize, dusbSend,
            cableSend, Port.sendAll]

/-- The path through a buffer size request. -/
theorem exec_renegotiated {h : DusbHandle} {raw : DUSBRawPacket} {rest : List UInt8}
    (hnext : nextPacket h.port.rx = some (raw, rest)) (htype : raw.type = dusbRpktBufSizeReq)
    (hsize : raw.data.length = 4) :
    (Proc.exec (do
        dusbSendBufSizeAlloc (getBE raw.data)
        let ack ← dusbRecv
        acknowledges ack.type (ack.data ++ raw.data.drop ack.data.length))
      { h with port := { h.port with rx := rest } }).1 = .ok ()
      ↔ ∃ ack bytes, Checked h ack bytes ∧ TakenAsAck ack bytes := by
  have hchecks : ∀ ack bytes, Checked h ack bytes → h.port.fault ≠ some 0
      ∧ ∃ rest', nextPacket rest = some (ack, rest')
        ∧ bytes = ack.data ++ raw.data.drop ack.data.length := by
    intro ack bytes hchecked
    cases hchecked with
    | plain hsome hother =>
        simp only [hnext, Option.some.injEq, Prod.mk.injEq] at hsome
        obtain ⟨rfl, -⟩ := hsome
        exact absurd htype hother
    | renegotiated hsome _ _ hwrite hack =>
        simp only [hnext, Option.some.injEq, Prod.mk.injEq] at hsome
        obtain ⟨rfl, rfl⟩ := hsome
        exact ⟨hwrite, _, hack, rfl⟩
  have hreply := exec_dusbSendBufSizeAlloc_handle (getBE raw.data)
    { h with port := { h.port with rx := rest } }
  by_cases hfault : h.port.fault = some 0
  · obtain ⟨t, hrun⟩ := hreply.2 hfault
    rw [Proc.exec_bind_error hrun]
    simp only [reduceCtorEq, false_iff]
    rintro ⟨ack, bytes, hchecked, -⟩
    exact (hchecks ack bytes hchecked).1 hfault
  · obtain ⟨t, hrun, hrx⟩ := hreply.1 hfault
    rw [Proc.exec_bind_ok hrun]
    cases hack : nextPacket rest with
    | none =>
        obtain ⟨e, u, hfail⟩ := exec_dusbRecv_of_none (h := t) (by rw [hrx]; exact hack)
        rw [Proc.exec_bind_error hfail]
        simp only [reduceCtorEq, false_iff]
        rintro ⟨ack, bytes, hchecked, -⟩
        obtain ⟨-, rest', hsome, -⟩ := hchecks ack bytes hchecked
        rw [hack] at hsome
        cases hsome
    | some p =>
        obtain ⟨ack, rest'⟩ := p
        have hrecv := exec_dusbRecv_of_next (h := t) (by rw [hrx]; exact hack)
        rw [Proc.exec_bind_ok hrecv, exec_acknowledges_eq_ok_iff]
        constructor
        · intro htaken
          exact ⟨ack, _, .renegotiated hnext htype hsize hfault hack, htaken⟩
        · rintro ⟨other, bytes, hchecked, htaken⟩
          obtain ⟨-, rest'', hsome, rfl⟩ := hchecks other bytes hchecked
          rw [hack] at hsome
          cases hsome
          exact htaken

/-- The function succeeds on the packets that it takes for an acknowledgement. -/
theorem exec_dusbRecvAcknowledge_eq_ok_iff {h : DusbHandle} :
    (Proc.exec dusbRecvAcknowledge h).1 = .ok ()
      ↔ ∃ ack bytes, Checked h ack bytes ∧ TakenAsAck ack bytes := by
  unfold dusbRecvAcknowledge
  cases hnext : nextPacket h.port.rx with
  | none =>
      obtain ⟨e, t, hrun⟩ := exec_dusbRecv_of_none hnext
      rw [Proc.exec_bind_error hrun]
      simp only [reduceCtorEq, false_iff]
      rintro ⟨ack, bytes, hchecked, -⟩
      cases hchecked with
      | plain hsome => simp [hnext] at hsome
      | renegotiated hsome => simp [hnext] at hsome
  | some p =>
      obtain ⟨raw, rest⟩ := p
      rw [Proc.exec_bind_ok (exec_dusbRecv_of_next hnext)]
      by_cases hsize : raw.data.length ≠ 2 ∧ raw.data.length ≠ 4
      · rw [if_pos hsize]
        simp only [Proc.exec_throw, reduceCtorEq, false_iff]
        rintro ⟨ack, bytes, hchecked, -⟩
        cases hchecked with
        | plain hsome htype hlen =>
            simp only [hnext, Option.some.injEq, Prod.mk.injEq] at hsome
            obtain ⟨rfl, -⟩ := hsome
            omega
        | renegotiated hsome htype hlen =>
            simp only [hnext, Option.some.injEq, Prod.mk.injEq] at hsome
            obtain ⟨rfl, -⟩ := hsome
            omega
      · rw [if_neg hsize]
        by_cases htype : raw.type = dusbRpktBufSizeReq
        · rw [if_pos htype]
          by_cases hfour : raw.data.length ≠ 4
          · rw [if_pos hfour]
            simp only [Proc.exec_throw, reduceCtorEq, false_iff]
            rintro ⟨ack, bytes, hchecked, -⟩
            cases hchecked with
            | plain hsome hother =>
                simp only [hnext, Option.some.injEq, Prod.mk.injEq] at hsome
                obtain ⟨rfl, -⟩ := hsome
                exact hother htype
            | renegotiated hsome hreq hlen =>
                simp only [hnext, Option.some.injEq, Prod.mk.injEq] at hsome
                obtain ⟨rfl, -⟩ := hsome
                exact hfour hlen
          · rw [if_neg hfour]
            exact exec_renegotiated hnext htype (not_not.mp hfour)
        · rw [if_neg htype, exec_acknowledges_eq_ok_iff]
          constructor
          · intro htaken
            exact ⟨raw, raw.data, .plain hnext htype (by omega), htaken⟩
          · rintro ⟨ack, bytes, hchecked, htaken⟩
            cases hchecked with
            | plain hsome =>
                simp only [hnext, Option.some.injEq, Prod.mk.injEq] at hsome
                obtain ⟨rfl, -⟩ := hsome
                exact htaken
            | renegotiated hsome hreq =>
                simp only [hnext, Option.some.injEq, Prod.mk.injEq] at hsome
                obtain ⟨rfl, -⟩ := hsome
                exact absurd hreq htype

/-- Success means a proper acknowledgement exactly when no packet comes that is
wrong in one of its bytes only. -/
theorem dusbRecvAcknowledge_isAck_iff (h : DusbHandle) :
    ((Proc.exec dusbRecvAcknowledge h).1 = .ok () →
        ∃ ack bytes, Checked h ack bytes ∧ IsAck ack)
      ↔ ∀ ack bytes, Checked h ack bytes → TakenAsAck ack bytes → IsAck ack := by
  rw [exec_dusbRecvAcknowledge_eq_ok_iff]
  constructor
  · intro hok ack bytes hchecked htaken
    obtain ⟨found, found_bytes, hfound, his⟩ := hok ⟨ack, bytes, hchecked, htaken⟩
    obtain ⟨rfl, rfl⟩ := hchecked.unique hfound
    exact his
  · rintro hgood ⟨ack, bytes, hchecked, htaken⟩
    exact ⟨ack, bytes, hchecked, hgood ack bytes hchecked htaken⟩

/-- `E0 01` passes for an acknowledgement. -/
theorem dusbRecvAcknowledge_takes_E0_01 :
    ∃ h : DusbHandle, (Proc.exec dusbRecvAcknowledge h).1 = .ok ()
      ∧ ¬∃ ack bytes, Checked h ack bytes ∧ IsAck ack := by
  let raw : DUSBRawPacket := ⟨dusbRpktVirtDataAck, [0xE0, 0x01], by decide⟩
  let h : DusbHandle := ⟨⟨rawBytes dusbRpktVirtDataAck [0xE0, 0x01] ++ [], [], none⟩,
    ⟨1023, by decide⟩⟩
  have hchecked : Checked h raw [0xE0, 0x01] :=
    .plain (nextPacket_rawBytes [] (by decide)) (by decide) (Or.inl rfl)
  refine ⟨h, ?_, ?_⟩
  · exact exec_dusbRecvAcknowledge_eq_ok_iff.mpr ⟨raw, _, hchecked, rfl, Or.inl rfl⟩
  · rintro ⟨ack, bytes, hother, -, hdata⟩
    obtain ⟨rfl, -⟩ := hchecked.unique hother
    exact absurd hdata (by decide)

end Tilibs.Dusb
