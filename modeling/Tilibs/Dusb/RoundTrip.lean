import Tilibs.Dusb.Virtual

/-!
# Tilibs.Dusb.RoundTrip

What `dusb_send_data` puts on the cable, delivered with acknowledgements, is
what `dusb_recv_data_varsize` and `dusb_recv_data` put together again — exactly
when the limit leaves room for the data header and stays within a raw packet,
or the payload fits a single raw packet anyway (`delivers_iff`).
-/

namespace Tilibs.Dusb

open Tilibs.Lib

/-! ## Traffic -/

def ackBytes : List UInt8 := rawBytes dusbRpktVirtDataAck [0xE0, 0x00]

/-- `n` acknowledgements in a row. -/
def acks (n : Nat) : List UInt8 := (List.replicate n ackBytes).flatten

@[simp] theorem acks_zero : acks 0 = [] := rfl

theorem acks_succ (n : Nat) : acks (n + 1) = ackBytes ++ acks n := by
  simp [acks, List.replicate_succ]

/-- Fragments on the cable: the last one is marked. -/
def fragmentBytes : List (List UInt8) → List UInt8
  | [] => []
  | [p] => rawBytes dusbRpktVirtDataLast p
  | p :: ps => rawBytes dusbRpktVirtData p ++ fragmentBytes ps

theorem fragmentBytes_cons (p : List UInt8) {ps : List (List UInt8)} (h : ps ≠ []) :
    fragmentBytes (p :: ps) = rawBytes dusbRpktVirtData p ++ fragmentBytes ps := by
  cases ps with
  | nil => exact absurd rfl h
  | cons q ps => rfl

section Ack

variable (rx tx : List UInt8) (limit : PacketLimit)

theorem exec_dusbSendAcknowledge :
    Proc.exec dusbSendAcknowledge ⟨⟨rx, tx, none⟩, limit⟩ =
      (.ok (), ⟨⟨rx, tx ++ ackBytes, none⟩, limit⟩) := by
  simp [dusbSendAcknowledge, Proc.exec_bind, DUSBRawPacket.fill, dusbDataSize, exec_dusbSend,
    ackBytes]

theorem exec_dusbRecvAcknowledge :
    Proc.exec dusbRecvAcknowledge ⟨⟨ackBytes ++ rx, tx, none⟩, limit⟩ =
      (.ok (), ⟨⟨rx, tx, none⟩, limit⟩) := by
  have hrecv := exec_dusbRecv tx rx limit dusbRpktVirtDataAck [0xE0, 0x00] (by decide)
  have htype : dusbRpktVirtDataAck ≠ dusbRpktBufSizeReq := by decide
  rw [dusbRecvAcknowledge, ackBytes, Proc.exec_bind_ok hrecv]
  simp [htype, acknowledges]

/-- Without an acknowledgement on the way the sender gives up. -/
theorem exec_dusbRecvAcknowledge_nil :
    Proc.exec dusbRecvAcknowledge ⟨⟨[], tx, none⟩, limit⟩ =
      (.error .readTimeout, ⟨⟨[], tx, none⟩, limit⟩) :=
  Proc.exec_bind_error (exec_dusbRecv_nil tx limit)

end Ack

/-! ## The sender -/

section Send

variable {limit : PacketLimit}

variable {type : UInt8} {data : List UInt8}

/-- One fragment and its acknowledgement. -/
theorem exec_dusbSendFragment (h : data.length ≤ dusbDataSize) (n : Nat) (tx : List UInt8) :
    Proc.exec (dusbSendFragment type data) ⟨⟨acks (n + 1), tx, none⟩, limit⟩ =
      (.ok (), ⟨⟨acks n, tx ++ rawBytes type data, none⟩, limit⟩) := by
  have hfill : DUSBRawPacket.fill type data = .ok ⟨type, data, h⟩ := by
    simp [DUSBRawPacket.fill, h]
  rw [dusbSendFragment, hfill, acks_succ, Proc.exec_bind_ok (Proc.exec_ofExcept _ _),
    Proc.exec_bind_ok (exec_dusbSend _ _ _ _), exec_dusbRecvAcknowledge]

theorem exec_dusbSendFragment_unacked (h : data.length ≤ dusbDataSize) (tx : List UInt8) :
    (Proc.exec (dusbSendFragment type data) ⟨⟨[], tx, none⟩, limit⟩).1 = .error .readTimeout := by
  have hfill : DUSBRawPacket.fill type data = .ok ⟨type, data, h⟩ := by
    simp [DUSBRawPacket.fill, h]
  rw [dusbSendFragment, hfill, Proc.exec_bind_ok (Proc.exec_ofExcept _ _),
    Proc.exec_bind_ok (exec_dusbSend _ _ _ _), exec_dusbRecvAcknowledge_nil]

/-- A fragment that does not fit the array of a raw packet is never sent. -/
theorem exec_dusbSendFragment_overrun (h : dusbDataSize < data.length) (s : DusbHandle) :
    (Proc.exec (dusbSendFragment type data) s).1 = .error .undefinedBehaviour := by
  have hfill : DUSBRawPacket.fill type data = .error .undefinedBehaviour := by
    simp [DUSBRawPacket.fill, Nat.not_le.mpr h]
  rw [dusbSendFragment, hfill, Proc.exec_bind_error (Proc.exec_ofExcept _ _)]

theorem exec_memcpy (bytes : List UInt8) (offset len : Nat) (h : offset + len ≤ bytes.length)
    (s : DusbHandle) :
    Proc.exec (memcpy bytes offset len) s = (.ok ((bytes.drop offset).take len), s) := by
  simp [memcpy, h]

/-- The fragments of `dusbSendRest`. -/
def restFragments (data : List UInt8) (maxlen r k offset : Nat) : List (List UInt8) :=
  chunks maxlen k (data.drop offset) ++
    if r = 0 then [] else [data.drop (offset + k * maxlen)]

theorem restFragments_succ (data : List UInt8) (maxlen r k offset : Nat) :
    restFragments data maxlen r (k + 1) offset =
      (data.drop offset).take maxlen :: restFragments data maxlen r k (offset + maxlen) := by
  have hadd : offset + (k + 1) * maxlen = offset + maxlen + k * maxlen := by ring
  simp [restFragments, chunks, hadd]

theorem restFragments_eq_nil {data : List UInt8} {maxlen r k offset : Nat} :
    restFragments data maxlen r k offset = [] ↔ k = 0 ∧ r = 0 := by
  cases k <;> by_cases hr : r = 0 <;> simp [restFragments, chunks, hr]

variable {vtl : DUSBVirtualPacket} {r k offset : Nat}

/-- With an acknowledgement for each fragment, all of them go out. -/
theorem exec_dusbSendRest (hfit : limit.val ≤ dusbDataSize) (hr : r < limit.val)
    (hlen : offset + k * limit.val + r = vtl.data.length) (n : Nat) (tx : List UInt8) :
    Proc.exec (dusbSendRest vtl r k offset)
        ⟨⟨acks ((restFragments vtl.data limit.val r k offset).length + n), tx, none⟩, limit⟩ =
      (.ok (), ⟨⟨acks n, tx ++ fragmentBytes (restFragments vtl.data limit.val r k offset), none⟩,
        limit⟩) := by
  induction k generalizing offset tx with
  | zero =>
      by_cases h0 : r = 0
      · simp [dusbSendRest, restFragments, chunks, fragmentBytes, h0]
      · have hcopy := exec_memcpy vtl.data offset r (by omega)
        have htake : (vtl.data.drop offset).take r = vtl.data.drop offset :=
          List.take_of_length_le (by rw [List.length_drop]; omega)
        have hsend := @exec_dusbSendFragment limit dusbRpktVirtDataLast (vtl.data.drop offset)
          (by rw [List.length_drop]; omega) n tx
        simp only [dusbSendRest, restFragments, chunks, fragmentBytes, h0, ne_eq, not_false_eq_true,
          if_true, if_false, List.nil_append, Nat.zero_mul, Nat.add_zero, List.length_singleton]
        rw [Nat.add_comm 1 n, Proc.exec_bind_ok (hcopy _), htake, hsend]
  | succ k ih =>
      rw [Nat.succ_mul] at hlen
      have hcopy := exec_memcpy vtl.data offset limit.val (by omega)
      have hfits : ((vtl.data.drop offset).take limit.val).length ≤ dusbDataSize := by
        rw [List.length_take]; omega
      have hnext : offset + limit.val + k * limit.val + r = vtl.data.length := by omega
      have hrest := ih hnext
      rw [restFragments_succ, List.length_cons, Nat.add_right_comm]
      rw [dusbSendRest, Proc.exec_bind_ok (Proc.exec_get _), Proc.exec_bind_ok (hcopy _),
        Proc.exec_bind_ok (exec_dusbSendFragment hfits _ _), hrest]
      by_cases hlast : k = 0 ∧ r = 0
      · rw [restFragments_eq_nil.mpr hlast]
        simp [hlast, fragmentBytes]
      · have hmore : k ≠ 0 ∨ r ≠ 0 := by omega
        rw [fragmentBytes_cons _ (mt restFragments_eq_nil.mp hlast), if_pos hmore, List.append_assoc]

/-- With fewer acknowledgements the sender does not succeed. -/
theorem exec_dusbSendRest_unacked (hfit : limit.val ≤ dusbDataSize) (hr : r < limit.val)
    (hlen : offset + k * limit.val + r = vtl.data.length) {n : Nat}
    (hn : n < (restFragments vtl.data limit.val r k offset).length) (tx : List UInt8) :
    (Proc.exec (dusbSendRest vtl r k offset) ⟨⟨acks n, tx, none⟩, limit⟩).1 =
      .error .readTimeout := by
  induction k generalizing offset tx n with
  | zero =>
      have h0 : r ≠ 0 := by
        rintro rfl
        simp [restFragments, chunks] at hn
      have hn0 : n = 0 := by simpa [restFragments, chunks, h0] using hn
      have hcopy := exec_memcpy vtl.data offset r (by omega)
      have hfits : ((vtl.data.drop offset).take r).length ≤ dusbDataSize := by
        rw [List.length_take]; omega
      rw [dusbSendRest, if_pos h0, hn0, Proc.exec_bind_ok (hcopy _)]
      exact exec_dusbSendFragment_unacked hfits tx
  | succ k ih =>
      rw [Nat.succ_mul] at hlen
      have hcopy := exec_memcpy vtl.data offset limit.val (by omega)
      have hfits : ((vtl.data.drop offset).take limit.val).length ≤ dusbDataSize := by
        rw [List.length_take]; omega
      rw [restFragments_succ, List.length_cons] at hn
      rw [dusbSendRest, Proc.exec_bind_ok (Proc.exec_get _), Proc.exec_bind_ok (hcopy _)]
      cases n with
      | zero => exact Proc.exec_bind_fst_error (exec_dusbSendFragment_unacked hfits tx)
      | succ n =>
          rw [Proc.exec_bind_ok (exec_dusbSendFragment hfits _ _)]
          have hnext : offset + limit.val + k * limit.val + r = vtl.data.length := by omega
          exact ih hnext (by omega) _

end Send

/-! ## All fragments of a packet -/

theorem length_header (vtl : DUSBVirtualPacket) : vtl.header.length = dusbDhSize := by
  simp [DUSBVirtualPacket.header, dusbDhSize]

/-- The fragments `dusb_send_data` cuts a packet into. -/
def fragments (limit : PacketLimit) (vtl : DUSBVirtualPacket) : List (List UInt8) :=
  if vtl.data.length ≤ limit.firstSize then [vtl.header ++ vtl.data]
  else
    (vtl.header ++ vtl.data.take limit.firstSize) ::
      pieces limit.val (vtl.data.drop limit.firstSize)

/-- Every fragment stays within a raw packet: the payload fits into one, or the
limit leaves room for the data header and is no longer than a raw packet. -/
def Sendable (limit : PacketLimit) (size : Nat) : Prop :=
  size + dusbDhSize ≤ dusbDataSize ∨ (dusbDhSize ≤ limit.val ∧ limit.val ≤ dusbDataSize)

instance (limit : PacketLimit) (size : Nat) : Decidable (Sendable limit size) :=
  inferInstanceAs (Decidable (_ ∨ _))

theorem firstSize_of_le {limit : PacketLimit} (h : dusbDhSize ≤ limit.val) :
    limit.firstSize = limit.val - dusbDhSize := by
  have hlimit := limit.property
  simp only [PacketLimit.firstSize, dusbDhSize, dusbDataSize] at *
  omega

/-- A limit below the data header wraps to a size no raw packet can take. -/
theorem firstSize_of_lt {limit : PacketLimit} (h : limit.val < dusbDhSize) :
    dusbDataSize < limit.firstSize := by
  simp only [PacketLimit.firstSize, dusbDhSize, dusbDataSize] at *
  omega

section SendData

variable {limit : PacketLimit} {vtl : DUSBVirtualPacket}

/-- When there are several fragments, the limit cuts them to raw packets. -/
theorem limit_of_sendable (h : Sendable limit vtl.data.length)
    (hmore : limit.firstSize < vtl.data.length) :
    dusbDhSize ≤ limit.val ∧ limit.val ≤ dusbDataSize := by
  rcases h with h | h
  · have hroom : dusbDhSize ≤ limit.val := by
      by_contra hlt
      have := firstSize_of_lt (Nat.lt_of_not_le hlt)
      omega
    have := firstSize_of_le hroom
    exact ⟨hroom, by omega⟩
  · exact h

/-- What the first of several fragments leaves over is what the loop sends. -/
theorem restFragments_eq_pieces {left : Nat} (hleft : limit.firstSize + left = vtl.data.length) :
    restFragments vtl.data limit.val (left % limit.val) (left / limit.val) limit.firstSize =
      pieces limit.val (vtl.data.drop limit.firstSize) := by
  have hlen : (vtl.data.drop limit.firstSize).length = left := by
    rw [List.length_drop]; omega
  simp [restFragments, pieces, List.drop_drop, hlen]

theorem loopBound_eq {n : Nat} (h : n < 2 ^ 31) : loopBound n = n := by
  have hmod : n % 2 ^ 32 = n := Nat.mod_eq_of_lt (by omega)
  rw [loopBound, hmod, if_pos h]

theorem length_first_le (vtl : DUSBVirtualPacket) (hroom : dusbDhSize ≤ limit.val) (hfits : limit.val ≤ dusbDataSize) :
    (vtl.header ++ vtl.data.take limit.firstSize).length ≤ dusbDataSize := by
  rw [List.length_append, length_header, List.length_take, firstSize_of_le hroom]
  omega

theorem exec_dusbSendData_several (hroom : dusbDhSize ≤ limit.val)
    (hfits : limit.val ≤ dusbDataSize) (hmore : limit.firstSize < vtl.data.length) {left : Nat}
    (hleft : limit.firstSize + left = vtl.data.length) (n : Nat) (tx : List UInt8) :
    Proc.exec (dusbSendData vtl) ⟨⟨acks (n + 1), tx, none⟩, limit⟩ =
      Proc.exec (dusbSendRest vtl (left % limit.val) (left / limit.val) limit.firstSize)
        ⟨⟨acks n, tx ++ rawBytes dusbRpktVirtData
          (vtl.header ++ vtl.data.take limit.firstSize), none⟩, limit⟩ := by
  obtain rfl : vtl.data.length - limit.firstSize = left := by omega
  have hpos : limit.val ≠ 0 := by simp only [dusbDhSize] at hroom; omega
  have hcopy := exec_memcpy vtl.data 0 limit.firstSize (by omega)
  have hhead := length_first_le vtl hroom hfits
  have hbound : loopBound ((vtl.data.length - limit.firstSize) / limit.val) =
      (vtl.data.length - limit.firstSize) / limit.val := by
    apply loopBound_eq
    have hfit := vtl.fits
    have hsix : 6 ≤ limit.val := hroom
    have hdiv := Nat.div_le_div_left (a := vtl.data.length - limit.firstSize) hsix (by decide)
    omega
  rw [dusbSendData, Proc.exec_bind_ok (Proc.exec_get _)]
  simp only [Nat.not_le.mpr hmore, if_false]
  rw [Proc.exec_bind_ok (hcopy _)]
  simp only [List.drop_zero]
  rw [Proc.exec_bind_ok (exec_dusbSendFragment hhead _ _), Proc.exec_bind_ok (Proc.exec_get _)]
  simp only [hpos, if_false]
  rw [hbound]

/-- The loop's bounds add up to the payload. -/
theorem firstSize_add_left {left : Nat} (hleft : limit.firstSize + left = vtl.data.length) :
    limit.firstSize + left / limit.val * limit.val + left % limit.val = vtl.data.length := by
  have h := Nat.div_add_mod' left limit.val
  omega

/-- A sendable packet goes out in its fragments, each acknowledged. -/
theorem exec_dusbSendData (h : Sendable limit vtl.data.length) (n : Nat) (tx : List UInt8) :
    Proc.exec (dusbSendData vtl) ⟨⟨acks ((fragments limit vtl).length + n), tx, none⟩, limit⟩ =
      (.ok (), ⟨⟨acks n, tx ++ fragmentBytes (fragments limit vtl), none⟩, limit⟩) := by
  by_cases hone : vtl.data.length ≤ limit.firstSize
  · have hfits : (vtl.header ++ vtl.data).length ≤ dusbDataSize := by
      rw [List.length_append, length_header]
      rcases h with h | ⟨hroom, h⟩
      · omega
      · rw [firstSize_of_le hroom] at hone
        omega
    simp only [fragments, hone, if_true, List.length_singleton, fragmentBytes]
    rw [dusbSendData, Proc.exec_bind_ok (Proc.exec_get _)]
    simp only [hone, if_true]
    rw [Nat.add_comm 1 n, exec_dusbSendFragment hfits]
  · have hmore : limit.firstSize < vtl.data.length := Nat.lt_of_not_le hone
    obtain ⟨hroom, hfits⟩ := limit_of_sendable h hmore
    have hpos : 0 < limit.val := by simp only [dusbDhSize] at hroom; omega
    obtain ⟨left, hleft⟩ := Nat.exists_eq_add_of_le hmore.le
    have hrest := exec_dusbSendRest hfits (Nat.mod_lt left hpos) (firstSize_add_left hleft.symm) n
    have hne : pieces limit.val (vtl.data.drop limit.firstSize) ≠ [] := by
      intro hnil
      have := congrArg List.flatten hnil
      rw [flatten_pieces] at this
      simp at this
      omega
    rw [fragments, if_neg hone, List.length_cons, Nat.add_right_comm, exec_dusbSendData_several hroom hfits hmore hleft.symm,
      ← restFragments_eq_pieces hleft.symm, hrest, restFragments_eq_pieces hleft.symm,
      fragmentBytes_cons _ hne, List.append_assoc]

theorem exec_dusbSendData_unacked (h : Sendable limit vtl.data.length) {n : Nat}
    (hn : n < (fragments limit vtl).length) (tx : List UInt8) :
    (Proc.exec (dusbSendData vtl) ⟨⟨acks n, tx, none⟩, limit⟩).1 = .error .readTimeout := by
  by_cases hone : vtl.data.length ≤ limit.firstSize
  · have hfits : (vtl.header ++ vtl.data).length ≤ dusbDataSize := by
      rw [List.length_append, length_header]
      rcases h with h | ⟨hroom, h⟩
      · omega
      · rw [firstSize_of_le hroom] at hone
        omega
    have hn0 : n = 0 := by simpa [fragments, hone] using hn
    rw [dusbSendData, Proc.exec_bind_ok (Proc.exec_get _)]
    simp only [hone, if_true, hn0, acks_zero]
    exact exec_dusbSendFragment_unacked hfits tx
  · have hmore : limit.firstSize < vtl.data.length := Nat.lt_of_not_le hone
    obtain ⟨hroom, hfits⟩ := limit_of_sendable h hmore
    have hpos : 0 < limit.val := by simp only [dusbDhSize] at hroom; omega
    rw [fragments, if_neg hone, List.length_cons] at hn
    cases n with
    | zero =>
        have hcopy := exec_memcpy vtl.data 0 limit.firstSize
          (by omega)
        rw [dusbSendData, Proc.exec_bind_ok (Proc.exec_get _)]
        simp only [hone, if_false]
        rw [Proc.exec_bind_ok (hcopy _)]
        exact Proc.exec_bind_fst_error
          (exec_dusbSendFragment_unacked (length_first_le _ hroom hfits) tx)
    | succ n =>
        obtain ⟨left, hleft⟩ := Nat.exists_eq_add_of_le hmore.le
        rw [exec_dusbSendData_several hroom hfits hmore hleft.symm]
        refine exec_dusbSendRest_unacked hfits (Nat.mod_lt left hpos)
          (firstSize_add_left hleft.symm) ?_ _
        rw [restFragments_eq_pieces hleft.symm]
        omega

/-- Any other packet runs past the array of its first raw packet. -/
theorem exec_dusbSendData_overrun (vtl : DUSBVirtualPacket) (h : ¬ Sendable limit vtl.data.length)
    (s : Port UInt8 UInt8) :
    (Proc.exec (dusbSendData vtl) ⟨s, limit⟩).1 = .error .undefinedBehaviour := by
  obtain ⟨hlong, hlimit⟩ := not_or.mp h
  have hbound := limit.property
  have hfirst : dusbDataSize < dusbDhSize + limit.firstSize := by
    by_cases hroom : dusbDhSize ≤ limit.val
    · rw [firstSize_of_le hroom]
      omega
    · have := firstSize_of_lt (Nat.lt_of_not_le hroom)
      omega
  rw [dusbSendData, Proc.exec_bind_ok (Proc.exec_get _)]
  by_cases hone : vtl.data.length ≤ limit.firstSize
  · simp only [hone, if_true]
    apply exec_dusbSendFragment_overrun
    rw [List.length_append, length_header]
    omega
  · have hcopy := exec_memcpy vtl.data 0 limit.firstSize
      (by omega)
    simp only [hone, if_false]
    rw [Proc.exec_bind_ok (hcopy _)]
    apply Proc.exec_bind_fst_error
    apply exec_dusbSendFragment_overrun
    rw [List.length_append, length_header, List.length_take, List.length_drop]
    omega

end SendData

/-! ## The receiver's buffer -/

/-- No enlargement of the buffer wraps: whenever fragments of the given sizes
outgrow it, beyond the estimate too, it can be doubled in 32 bits. -/
def GrowthFits (estSize : Nat) : Nat → Nat → List Nat → Prop
  | _, _, [] => True
  | allocSize, got, n :: ns =>
      if got + n ≤ allocSize then GrowthFits estSize allocSize (got + n) ns
      else if got + n ≤ estSize then GrowthFits estSize estSize (got + n) ns
      else got + n < 2 ^ 31 ∧ GrowthFits estSize ((got + n) * 2) (got + n) ns

/-- A buffer that is large enough from the start never grows. -/
theorem growthFits_of_le {estSize allocSize got : Nat} {ns : List Nat}
    (h : got + ns.sum ≤ allocSize) : GrowthFits estSize allocSize got ns := by
  induction ns generalizing got with
  | nil => trivial
  | cons n ns ih =>
      rw [List.sum_cons] at h
      rw [GrowthFits, if_pos (by omega)]
      exact ih (by omega)

/-- Packets below 2 GB never make the buffer wrap. -/
theorem growthFits_of_lt {estSize allocSize got : Nat} {ns : List Nat}
    (h : got + ns.sum < 2 ^ 31) : GrowthFits estSize allocSize got ns := by
  induction ns generalizing allocSize got with
  | nil => trivial
  | cons n ns ih =>
      rw [List.sum_cons] at h
      rw [GrowthFits]
      split
      · exact ih (by omega)
      · split
        · exact ih (by omega)
        · exact ⟨by omega, ih (by omega)⟩

section Receive

variable {estSize : Nat} {buf : DusbBuffer}

/-- A fragment is appended when it fits the buffer it makes grow. -/
theorem append_eq_ok {chunk : List UInt8} {allocSize : Nat}
    (halloc : (if buf.allocSize < (buf.data.length + chunk.length) % 2 ^ 32 then
      (if (buf.data.length + chunk.length) % 2 ^ 32 ≤ estSize then estSize
        else (buf.data.length + chunk.length) % 2 ^ 32 * 2 % 2 ^ 32)
      else buf.allocSize) = allocSize)
    (hroom : buf.data.length + chunk.length ≤ allocSize) :
    buf.append estSize chunk = .ok { buf with allocSize, data := buf.data ++ chunk } := by
  subst halloc
  exact if_pos hroom

theorem append_eq_error {chunk : List UInt8}
    (hlen : buf.data.length + chunk.length < 2 ^ 32)
    (hroom : ¬ buf.data.length + chunk.length ≤ buf.allocSize)
    (hest : ¬ buf.data.length + chunk.length ≤ estSize)
    (hhalf : ¬ buf.data.length + chunk.length < 2 ^ 31) :
    buf.append estSize chunk = .error .undefinedBehaviour := by
  rw [DusbBuffer.append, Nat.mod_eq_of_lt hlen]
  refine if_neg ?_
  rw [if_pos (by omega), if_neg hest]
  omega

/-- Appending fragments one by one keeps every byte while the buffer grows. -/
theorem foldlM_append_ok (buf : DusbBuffer) (ps : List (List UInt8))
    (hlen : buf.data.length + (ps.map List.length).sum < 2 ^ 32)
    (h : GrowthFits estSize buf.allocSize buf.data.length (ps.map List.length)) :
    ∃ allocSize, ps.foldlM (DusbBuffer.append estSize) buf =
      .ok { buf with allocSize, data := buf.data ++ ps.flatten } := by
  induction ps generalizing buf with
  | nil => exact ⟨buf.allocSize, by simp [pure, Except.pure]⟩
  | cons p ps ih =>
      rw [List.map_cons, List.sum_cons] at hlen
      have hneed : (buf.data.length + p.length) % 2 ^ 32 = buf.data.length + p.length :=
        Nat.mod_eq_of_lt (by omega)
      have next {allocSize : Nat} (happend : buf.append estSize p =
          .ok { buf with allocSize, data := buf.data ++ p })
          (hfits : GrowthFits estSize allocSize (buf.data.length + p.length)
            (ps.map List.length)) :
          ∃ allocSize, (p :: ps).foldlM (DusbBuffer.append estSize) buf =
            .ok { buf with allocSize, data := buf.data ++ (p :: ps).flatten } := by
        rw [← List.length_append] at hfits
        obtain ⟨allocSize', hrest⟩ := ih { buf with allocSize, data := buf.data ++ p }
          (by rw [List.length_append]; omega) hfits
        refine ⟨allocSize', ?_⟩
        rw [List.foldlM_cons, happend, List.flatten_cons, ← List.append_assoc]
        exact hrest
      rw [List.map_cons, GrowthFits] at h
      split at h
      · next hroom => exact next (append_eq_ok (by rw [hneed, if_neg (by omega)]) hroom) h
      · next hroom =>
        split at h
        · next hest =>
          exact next (append_eq_ok (by rw [hneed, if_pos (by omega), if_pos hest]) hest) h
        · next hest =>
          have hdouble : (buf.data.length + p.length) * 2 % 2 ^ 32 =
              (buf.data.length + p.length) * 2 := Nat.mod_eq_of_lt (by omega)
          exact next (append_eq_ok
            (by rw [hneed, if_pos (by omega), if_neg hest, hdouble]) (by omega)) h.2

/-- The first time the buffer wraps, the next fragment runs past its end. -/
theorem foldlM_append_error (buf : DusbBuffer) (ps : List (List UInt8))
    (hlen : buf.data.length + (ps.map List.length).sum < 2 ^ 32)
    (h : ¬ GrowthFits estSize buf.allocSize buf.data.length (ps.map List.length)) :
    ps.foldlM (DusbBuffer.append estSize) buf = .error .undefinedBehaviour := by
  induction ps generalizing buf with
  | nil => exact absurd trivial h
  | cons p ps ih =>
      rw [List.map_cons, List.sum_cons] at hlen
      have hneed : (buf.data.length + p.length) % 2 ^ 32 = buf.data.length + p.length :=
        Nat.mod_eq_of_lt (by omega)
      have next {allocSize : Nat} (happend : buf.append estSize p =
          .ok { buf with allocSize, data := buf.data ++ p })
          (hfits : ¬ GrowthFits estSize allocSize (buf.data.length + p.length)
            (ps.map List.length)) :
          (p :: ps).foldlM (DusbBuffer.append estSize) buf = .error .undefinedBehaviour := by
        rw [← List.length_append] at hfits
        rw [List.foldlM_cons, happend]
        exact ih { buf with allocSize, data := buf.data ++ p }
          (by rw [List.length_append]; omega) hfits
      rw [List.map_cons, GrowthFits] at h
      split at h
      · next hroom => exact next (append_eq_ok (by rw [hneed, if_neg (by omega)]) hroom) h
      · next hroom =>
        split at h
        · next hest =>
          exact next (append_eq_ok (by rw [hneed, if_pos (by omega), if_pos hest]) hest) h
        · next hest =>
          by_cases hhalf : buf.data.length + p.length < 2 ^ 31
          · have hdouble : (buf.data.length + p.length) * 2 % 2 ^ 32 =
                (buf.data.length + p.length) * 2 := Nat.mod_eq_of_lt (by omega)
            exact next (append_eq_ok
              (by rw [hneed, if_pos (by omega), if_neg hest, hdouble]) (by omega))
              fun hfits => h ⟨hhalf, hfits⟩
          · rw [List.foldlM_cons, append_eq_error (by omega) hroom hest hhalf]
            rfl

/-! ## The receiver -/

variable (limit : PacketLimit)

/-- The receive loop appends the fragments in order and acknowledges each. -/
theorem exec_dusbRecvRest {ps : List (List UInt8)} {fuel : Nat} (hne : ps ≠ [])
    (hfuel : ps.length ≤ fuel) (hps : ∀ p ∈ ps, p.length ≤ dusbDataSize) (tx : List UInt8)
    {buf' : DusbBuffer} (hbuf : ps.foldlM (DusbBuffer.append estSize) buf = .ok buf') :
    Proc.exec (dusbRecvRest estSize fuel buf) ⟨⟨fragmentBytes ps, tx, none⟩, limit⟩ =
      (.ok buf', ⟨⟨[], tx ++ acks ps.length, none⟩, limit⟩) := by
  induction ps generalizing buf fuel tx with
  | nil => exact absurd rfl hne
  | cons p ps ih =>
      obtain ⟨fuel, rfl⟩ : ∃ k, fuel = k + 1 :=
        ⟨fuel - 1, by simp only [List.length_cons] at hfuel; omega⟩
      have hp := hps p (by simp)
      rw [List.foldlM_cons] at hbuf
      cases happend : buf.append estSize p with
      | error e => rw [happend] at hbuf; cases hbuf
      | ok next =>
          rw [happend] at hbuf
          by_cases hlast : ps = []
          · subst hlast
            obtain rfl : next = buf' := by simpa [bind, Except.bind, pure, Except.pure] using hbuf
            have hrecv := exec_dusbRecv tx [] limit dusbRpktVirtDataLast _ hp
            rw [List.append_nil] at hrecv
            rw [fragmentBytes, dusbRecvRest, Proc.exec_bind_ok hrecv]
            simp [happend, Proc.exec_bind, exec_dusbSendAcknowledge, acks, Except.map]
          · have hrecv := exec_dusbRecv tx (fragmentBytes ps) limit dusbRpktVirtData _ hp
            have htype : dusbRpktVirtData ≠ dusbRpktVirtDataLast := by decide
            rw [fragmentBytes_cons _ hlast, dusbRecvRest, Proc.exec_bind_ok hrecv]
            simp only [happend, Proc.exec_bind, Proc.exec_ofExcept, exec_dusbSendAcknowledge,
              ne_eq, not_true_eq_false, false_and, if_false, htype]
            rw [ih hlast (by simpa using hfuel) (fun q hq => hps q (by simp [hq])) _ hbuf,
              List.append_assoc, List.length_cons, acks_succ]

/-- It stops when one of them does not fit. -/
theorem exec_dusbRecvRest_error {ps : List (List UInt8)} {fuel : Nat}
    (hfuel : ps.length ≤ fuel) (hps : ∀ p ∈ ps, p.length ≤ dusbDataSize) (tx : List UInt8)
    {e : DusbErr} (hbuf : ps.foldlM (DusbBuffer.append estSize) buf = .error e) :
    (Proc.exec (dusbRecvRest estSize fuel buf) ⟨⟨fragmentBytes ps, tx, none⟩, limit⟩).1 =
      .error e := by
  induction ps generalizing buf fuel tx with
  | nil => simp [pure, Except.pure] at hbuf
  | cons p ps ih =>
      obtain ⟨fuel, rfl⟩ : ∃ k, fuel = k + 1 :=
        ⟨fuel - 1, by simp only [List.length_cons] at hfuel; omega⟩
      have hp := hps p (by simp)
      rw [List.foldlM_cons] at hbuf
      cases happend : buf.append estSize p with
      | error e' =>
          obtain rfl : e' = e := by simpa [happend, bind, Except.bind] using hbuf
          by_cases hlast : ps = []
          · have hrecv := exec_dusbRecv tx [] limit dusbRpktVirtDataLast _ hp
            rw [List.append_nil] at hrecv
            rw [hlast, fragmentBytes, dusbRecvRest, Proc.exec_bind_ok hrecv]
            simp [happend, Proc.exec_bind]
          · have hrecv := exec_dusbRecv tx (fragmentBytes ps) limit dusbRpktVirtData _ hp
            rw [fragmentBytes_cons _ hlast, dusbRecvRest, Proc.exec_bind_ok hrecv]
            simp [happend, Proc.exec_bind]
      | ok next =>
          rw [happend] at hbuf
          have hlast : ps ≠ [] := by
            rintro rfl
            simp [bind, Except.bind, pure, Except.pure] at hbuf
          have hrecv := exec_dusbRecv tx (fragmentBytes ps) limit dusbRpktVirtData _ hp
          have htype : dusbRpktVirtData ≠ dusbRpktVirtDataLast := by decide
          rw [fragmentBytes_cons _ hlast, dusbRecvRest, Proc.exec_bind_ok hrecv]
          simp only [happend, Proc.exec_bind, Proc.exec_ofExcept, exec_dusbSendAcknowledge,
            ne_eq, not_true_eq_false, false_and, if_false, htype]
          exact ih (by simpa using hfuel) (fun q hq => hps q (by simp [hq])) _ hbuf

end Receive

/-! ## Delivery -/

/-- The sizes of the fragments behind the first. -/
def restSizes (limit : PacketLimit) (size : Nat) : List Nat :=
  let left := size - limit.firstSize
  List.replicate (left / limit.val) limit.val ++
    if left % limit.val = 0 then [] else [left % limit.val]

theorem sum_restSizes (limit : PacketLimit) (size : Nat) :
    (restSizes limit size).sum = size - limit.firstSize := by
  have hmod := Nat.div_add_mod' (size - limit.firstSize) limit.val
  unfold restSizes
  rw [List.sum_append, List.sum_replicate, smul_eq_mul]
  split
  · next h => rw [List.sum_nil]; omega
  · rw [List.sum_singleton]; omega

/-- The receiver's buffer for a payload of `size` bytes can grow as it has to. -/
def GrowsTo (estSize : Nat) (limit : PacketLimit) (size : Nat) : Prop :=
  GrowthFits estSize (max (min size 10000) limit.firstSize) limit.firstSize (restSizes limit size)

/-- Payloads below 2 GB can always be received. -/
theorem growsTo_of_lt {estSize size : Nat} {limit : PacketLimit}
    (hmore : limit.firstSize < size) (h : size < 2 ^ 31) : GrowsTo estSize limit size := by
  apply growthFits_of_lt
  rw [sum_restSizes]
  omega

/-- The sender succeeds with one acknowledgement for each raw packet, and both
receive functions return the packet from what it sent, with these very
acknowledgements.  `limit` is the sender's limit and `peer` the receiver's. -/
def Delivers (limit peer : PacketLimit) (estSize : Nat) (vtl : DUSBVirtualPacket) : Prop :=
  ∃ (n : Nat) (wire : List UInt8) (buf buf' : DusbBuffer),
    Proc.exec (dusbSendData vtl) ⟨⟨acks n, [], none⟩, limit⟩ =
      (.ok (), ⟨⟨[], wire, none⟩, limit⟩) ∧
    Proc.exec (dusbRecvDataVarsize estSize) ⟨⟨wire, [], none⟩, peer⟩ =
      (.ok buf, ⟨⟨[], acks n, none⟩, peer⟩) ∧
    Proc.exec dusbRecvData ⟨⟨wire, [], none⟩, peer⟩ =
      (.ok buf', ⟨⟨[], acks n, none⟩, peer⟩) ∧
    buf.type = vtl.type ∧ buf.data = vtl.data ∧ buf'.type = vtl.type ∧ buf'.data = vtl.data

section Deliver

variable {limit peer : PacketLimit} {estSize : Nat} {vtl : DUSBVirtualPacket}

/-- The data header is read back. -/
theorem start_header (vtl : DUSBVirtualPacket) (chunk : List UInt8) :
    DusbBuffer.start (vtl.header ++ chunk) =
      ⟨vtl.data.length, vtl.type, max (min vtl.data.length 10000) chunk.length, chunk⟩ := by
  have hsize : getBE (putBE 4 vtl.data.length) = vtl.data.length := getBE_putBE vtl.fits
  have htype : getBE (putBE 2 vtl.type.toNat) = vtl.type.toNat := getBE_putBE vtl.type.toNat_lt
  have hhead : (vtl.header ++ chunk).take 4 = putBE 4 vtl.data.length := by
    rw [DUSBVirtualPacket.header, List.append_assoc, List.take_left' (by simp)]
  have hmid : ((vtl.header ++ chunk).drop 4).take 2 = putBE 2 vtl.type.toNat := by
    rw [DUSBVirtualPacket.header, List.append_assoc, List.drop_left' (by simp),
      List.take_left' (by simp)]
  have htail : (vtl.header ++ chunk).drop dusbDhSize = chunk :=
    List.drop_left' (length_header vtl)
  have hlen : (vtl.header ++ chunk).length - dusbDhSize = chunk.length := by
    rw [List.length_append, length_header, Nat.add_sub_cancel_left]
  rw [DusbBuffer.start, hhead, hmid, htail, hlen, hsize, htype, UInt16.ofNat_toNat]

theorem length_le_fragmentBytes (ps : List (List UInt8)) :
    ps.length ≤ (fragmentBytes ps).length := by
  induction ps with
  | nil => simp
  | cons p ps ih =>
      cases ps with
      | nil =>
          rw [fragmentBytes, rawBytes, List.length_append, length_putBE, List.length_singleton]
          omega
      | cons q ps =>
          rw [fragmentBytes_cons _ (by simp), List.length_append, List.length_cons]
          have hpos : 1 ≤ (rawBytes dusbRpktVirtData p).length := by
            rw [rawBytes, List.length_append, length_putBE]; omega
          omega

/-- A packet in one raw packet is received at once. -/
theorem exec_dusbRecvDataVarsize_single (h : (vtl.header ++ vtl.data).length ≤ dusbDataSize) :
    Proc.exec (dusbRecvDataVarsize estSize)
        ⟨⟨rawBytes dusbRpktVirtDataLast (vtl.header ++ vtl.data), [], none⟩, peer⟩ =
      (.ok (DusbBuffer.start (vtl.header ++ vtl.data)), ⟨⟨[], acks 1, none⟩, peer⟩) := by
  have hrecv := exec_dusbRecv [] [] peer dusbRpktVirtDataLast _ h
  rw [List.append_nil] at hrecv
  have hsize : ¬ (vtl.header ++ vtl.data).length < dusbDhSize := by
    rw [List.length_append, length_header]; omega
  rw [dusbRecvDataVarsize, Proc.exec_bind_ok hrecv]
  simp only [hsize, if_false, ne_eq, not_true_eq_false, and_false]
  rw [Proc.exec_bind_ok (exec_dusbSendAcknowledge _ _ _)]
  simp [acks]

/-- After the first of several fragments the loop takes over. -/
theorem exec_dusbRecvDataVarsize_several {chunk : List UInt8} {ps : List (List UInt8)}
    (h : (vtl.header ++ chunk).length ≤ dusbDataSize) (hne : ps ≠ []) :
    Proc.exec (dusbRecvDataVarsize estSize)
        ⟨⟨fragmentBytes ((vtl.header ++ chunk) :: ps), [], none⟩, peer⟩ =
      Proc.exec (dusbRecvRest estSize ((fragmentBytes ps).length + 1)
          (DusbBuffer.start (vtl.header ++ chunk)))
        ⟨⟨fragmentBytes ps, acks 1, none⟩, peer⟩ := by
  have hrecv := exec_dusbRecv [] (fragmentBytes ps) peer dusbRpktVirtData _ h
  have hsize : ¬ (vtl.header ++ chunk).length < dusbDhSize := by
    rw [List.length_append, length_header]; omega
  have htype : dusbRpktVirtData ≠ dusbRpktVirtDataLast := by decide
  rw [fragmentBytes_cons _ hne, dusbRecvDataVarsize, Proc.exec_bind_ok hrecv]
  simp only [hsize, if_false, ne_eq, not_true_eq_false, false_and, htype]
  rw [Proc.exec_bind_ok (exec_dusbSendAcknowledge _ _ _), Proc.exec_bind_ok (Proc.exec_get _)]
  simp [acks]

theorem length_single_le (h : Sendable limit vtl.data.length)
    (hone : vtl.data.length ≤ limit.firstSize) :
    (vtl.header ++ vtl.data).length ≤ dusbDataSize := by
  rw [List.length_append, length_header]
  rcases h with h | ⟨hroom, h⟩
  · omega
  · rw [firstSize_of_le hroom] at hone
    omega

/-- Several fragments: the first with its header, the others, and their sizes. -/
theorem fragments_several (h : Sendable limit vtl.data.length)
    (hmore : limit.firstSize < vtl.data.length) :
    ∃ chunk ps, fragments limit vtl = (vtl.header ++ chunk) :: ps ∧ ps ≠ [] ∧
      (vtl.header ++ chunk).length ≤ dusbDataSize ∧ (∀ p ∈ ps, p.length ≤ dusbDataSize) ∧
      chunk.length = limit.firstSize ∧ chunk ++ ps.flatten = vtl.data ∧
      ps.map List.length = restSizes limit vtl.data.length := by
  obtain ⟨hroom, hfits⟩ := limit_of_sendable h hmore
  have hpos : 0 < limit.val := by simp only [dusbDhSize] at hroom; omega
  refine ⟨vtl.data.take limit.firstSize, pieces limit.val (vtl.data.drop limit.firstSize),
    if_neg (Nat.not_le.mpr hmore), ?_, length_first_le _ hroom hfits, ?_, ?_, ?_, ?_⟩
  · intro hnil
    have hflat := congrArg List.flatten hnil
    rw [flatten_pieces, List.flatten_nil, List.drop_eq_nil_iff] at hflat
    omega
  · intro p hp
    exact (length_le_of_mem_pieces hpos hp).trans hfits
  · rw [List.length_take, Nat.min_eq_left hmore.le]
  · rw [flatten_pieces, List.take_append_drop]
  · rw [map_length_pieces, List.length_drop, restSizes]

/-- The receiver returns the packet from its fragments while its buffer grows. -/
theorem exec_dusbRecvDataVarsize (peer : PacketLimit) (h : Sendable limit vtl.data.length)
    (hgrow : GrowsTo estSize limit vtl.data.length) :
    ∃ allocSize, Proc.exec (dusbRecvDataVarsize estSize)
        ⟨⟨fragmentBytes (fragments limit vtl), [], none⟩, peer⟩ =
      (.ok ⟨vtl.data.length, vtl.type, allocSize, vtl.data⟩,
        ⟨⟨[], acks (fragments limit vtl).length, none⟩, peer⟩) := by
  by_cases hone : vtl.data.length ≤ limit.firstSize
  · have hfrag : fragments limit vtl = [vtl.header ++ vtl.data] := if_pos hone
    rw [hfrag, fragmentBytes, exec_dusbRecvDataVarsize_single (length_single_le h hone),
      start_header]
    exact ⟨_, rfl⟩
  · have hmore := Nat.lt_of_not_le hone
    obtain ⟨chunk, ps, hfrag, hne, hfirst, hps, hchunk, hdata, hsizes⟩ := fragments_several h hmore
    have hlen := congrArg List.length hdata
    rw [List.length_append, List.length_flatten] at hlen
    have hfit := vtl.fits
    rw [GrowsTo, ← hsizes, ← hchunk] at hgrow
    obtain ⟨allocSize, hbuf⟩ := foldlM_append_ok (DusbBuffer.start (vtl.header ++ chunk)) ps
      (by rw [start_header]; exact hlen ▸ hfit) (by rw [start_header]; exact hgrow)
    have hfuel : ps.length ≤ (fragmentBytes ps).length + 1 :=
      (length_le_fragmentBytes ps).trans (Nat.le_succ _)
    refine ⟨allocSize, ?_⟩
    rw [hfrag, exec_dusbRecvDataVarsize_several hfirst hne,
      exec_dusbRecvRest peer hne hfuel hps (acks 1) hbuf, start_header]
    have hfirstAck : acks 1 = ackBytes := by simp [acks]
    simp only [hdata, List.length_cons]
    rw [acks_succ ps.length, hfirstAck]

/-- It stops when its buffer wraps. -/
theorem exec_dusbRecvDataVarsize_error (peer : PacketLimit) (h : Sendable limit vtl.data.length)
    (hgrow : ¬ GrowsTo estSize limit vtl.data.length) :
    (Proc.exec (dusbRecvDataVarsize estSize)
        ⟨⟨fragmentBytes (fragments limit vtl), [], none⟩, peer⟩).1 =
      .error .undefinedBehaviour := by
  have hmore : limit.firstSize < vtl.data.length := by
    by_contra hone
    apply hgrow
    apply growthFits_of_le
    rw [sum_restSizes]
    omega
  obtain ⟨chunk, ps, hfrag, hne, hfirst, hps, hchunk, hdata, hsizes⟩ := fragments_several h hmore
  have hlen := congrArg List.length hdata
  rw [List.length_append, List.length_flatten] at hlen
  have hfit := vtl.fits
  rw [GrowsTo, ← hsizes, ← hchunk] at hgrow
  have hbuf := foldlM_append_error (DusbBuffer.start (vtl.header ++ chunk)) ps
    (by rw [start_header]; exact hlen ▸ hfit) (by rw [start_header]; exact hgrow)
  have hfuel : ps.length ≤ (fragmentBytes ps).length + 1 :=
    (length_le_fragmentBytes ps).trans (Nat.le_succ _)
  rw [hfrag, exec_dusbRecvDataVarsize_several hfirst hne]
  exact exec_dusbRecvRest_error peer hfuel hps _ hbuf

theorem exec_dusbRecvData {s s' : DusbHandle} {buf : DusbBuffer}
    (h : Proc.exec (dusbRecvDataVarsize 0) s = (.ok buf, s'))
    (hsize : buf.declaredSize = buf.data.length) :
    Proc.exec dusbRecvData s = (.ok buf, s') := by
  rw [dusbRecvData, Proc.exec_bind_ok h]
  simp [hsize]

/-- The packet gets through exactly when every fragment stays within a raw
packet and the receiver's buffer can grow as it has to. -/
theorem delivers_iff (limit peer : PacketLimit) (estSize : Nat) (vtl : DUSBVirtualPacket) :
    Delivers limit peer estSize vtl ↔
      Sendable limit vtl.data.length ∧ GrowsTo estSize limit vtl.data.length ∧
        GrowsTo 0 limit vtl.data.length := by
  constructor
  · rintro ⟨n, wire, buf, buf', hsend, hvar, hdata, -⟩
    have hsendable : Sendable limit vtl.data.length := by
      by_contra h
      have hover := exec_dusbSendData_overrun vtl h ⟨acks n, [], none⟩
      rw [hsend] at hover
      cases hover
    have hcount : (fragments limit vtl).length ≤ n := by
      by_contra h
      have hlost := exec_dusbSendData_unacked hsendable (Nat.lt_of_not_le h) []
      rw [hsend] at hlost
      cases hlost
    obtain ⟨more, rfl⟩ := Nat.exists_eq_add_of_le hcount
    rw [exec_dusbSendData hsendable] at hsend
    have hwire : fragmentBytes (fragments limit vtl) = wire := by
      simpa using congrArg (fun x => x.2.port.tx) hsend
    subst hwire
    refine ⟨hsendable, ?_, ?_⟩
    · by_contra h
      have hstop := exec_dusbRecvDataVarsize_error peer hsendable h
      rw [hvar] at hstop
      cases hstop
    · by_contra h
      have hstop := exec_dusbRecvDataVarsize_error peer hsendable h
      have hstop' : (Proc.exec dusbRecvData
          ⟨⟨fragmentBytes (fragments limit vtl), [], none⟩, peer⟩).1 =
          .error .undefinedBehaviour := Proc.exec_bind_fst_error hstop
      rw [hdata] at hstop'
      cases hstop'
  · rintro ⟨hsendable, hest, hzero⟩
    obtain ⟨allocSize, hvar⟩ := exec_dusbRecvDataVarsize peer hsendable hest
    obtain ⟨allocSize', hzero⟩ := exec_dusbRecvDataVarsize peer hsendable hzero
    have hsend := exec_dusbSendData hsendable 0 []
    rw [Nat.add_zero, List.nil_append] at hsend
    exact ⟨_, _, _, _, hsend, hvar, exec_dusbRecvData hzero rfl, rfl, rfl, rfl, rfl⟩

end Deliver

/-- A peer that asks for a large buffer gets a limit one byte longer than a raw
packet, and a payload of 1018 bytes then runs past the end of one. -/
theorem not_delivers_1018 :
    ∃ limit, (Proc.exec (dusbSendBufSizeAlloc 0xFFFF)
        ⟨⟨[], [], none⟩, PacketLimit.clamp 0⟩).2.rpktMaxlen = limit ∧
      ¬ Delivers limit limit 0
        ⟨0x000B, List.replicate 1018 0x55, List.length_replicate.trans_lt (by decide)⟩ := by
  refine ⟨PacketLimit.clamp 0xFFFF, by decide, ?_⟩
  rintro ⟨n, wire, buf, buf', hsend, -⟩
  have hlong : ¬ Sendable (PacketLimit.clamp 0xFFFF) (List.replicate 1018 (0x55 : UInt8)).length := by
    rw [List.length_replicate]
    decide
  have hover := exec_dusbSendData_overrun
    ⟨0x000B, List.replicate 1018 0x55, List.length_replicate.trans_lt (by decide)⟩ hlong
    ⟨acks n, [], none⟩
  rw [hsend] at hover
  cases hover

end Tilibs.Dusb
