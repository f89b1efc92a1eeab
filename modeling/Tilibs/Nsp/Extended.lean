import Tilibs.Nsp.Raw

/-!
# Tilibs.Nsp.Extended

Packets with a size field of their own in `nsp_recv`: what is accepted of them,
and where their payload goes.

The size is added to the lengths of the headers in 32 bits before it is
compared with the message; the largest sizes pass the comparison.
-/

namespace Tilibs.Nsp

open Tilibs.Lib

/-! ## What a stream delivers -/

section Stream

variable {h t : NspHandle} {maxsize : Nat}

theorem length_le_of_nnseTakePending {pending : List (List UInt8)} {entry : List UInt8}
    (hrun : Proc.exec (nnseTakePending maxsize pending) h = (.ok (some entry), t)) :
    entry.length ≤ maxsize := by
  induction pending generalizing h with
  | nil => cases hrun
  | cons first pending ih =>
      rw [nnseTakePending, Proc.exec_bind_ok (Proc.exec_modify _ h),
        Proc.exec_bind_ok (Proc.exec_get _)] at hrun
      split at hrun
      · exact ih hrun
      · split at hrun
        · cases hrun
        · rename_i hlen
          cases hrun
          exact Nat.le_of_not_lt hlen

theorem length_le_of_nnseRecvStreamLoop {n resyncFragments : Nat} {reassociated : Bool}
    {payload : List UInt8}
    (hrun : Proc.exec (nnseRecvStreamLoop maxsize n reassociated resyncFragments) h
      = (.ok payload, t)) : payload.length ≤ maxsize := by
  induction n generalizing h reassociated resyncFragments with
  | zero => cases hrun
  | succ n ih =>
      rw [nnseRecvStreamLoop, Proc.exec_bind_eq_ok_iff] at hrun
      obtain ⟨event, u, -, hrun⟩ := hrun
      cases event with
      | error e =>
          dsimp only at hrun
          split at hrun
          · split at hrun
            · cases hrun
            · exact ih hrun
          · cases hrun
      | ok m =>
          dsimp only at hrun
          rw [Proc.exec_bind_eq_ok_iff] at hrun
          obtain ⟨isStream, v, -, hrun⟩ := hrun
          rw [Proc.exec_bind_ok (Proc.exec_get v)] at hrun
          split at hrun
          · split at hrun
            · exact ih hrun
            · split at hrun
              · cases hrun
              · rename_i hlen
                cases hrun
                exact Nat.le_of_not_lt hlen
          · split at hrun
            · cases hrun
            · exact ih hrun

/-- A stream payload is no longer than the receiver's buffer. -/
theorem length_le_of_nspNnseRecvStream {payload : List UInt8}
    (hrun : Proc.exec (nspNnseRecvStream maxsize) h = (.ok payload, t)) :
    payload.length ≤ maxsize := by
  rw [nspNnseRecvStream, Proc.exec_bind_eq_ok_iff] at hrun
  obtain ⟨_, u, -, hrun⟩ := hrun
  rw [Proc.exec_bind_ok (Proc.exec_get u), Proc.exec_bind_eq_ok_iff] at hrun
  obtain ⟨taken, v, htake, hrun⟩ := hrun
  cases taken with
  | some entry =>
      cases hrun
      exact length_le_of_nnseTakePending htake
  | none => exact length_le_of_nnseRecvStreamLoop hrun

end Stream

/-! ## The pieces of a longer packet -/

/-- The data behind the command in a packet that was queued. -/
def queuedData (msg : List UInt8) : List UInt8 := msg.drop (nspHeaderSize + 1)

section Queue

variable {h t : NspHandle} {pkt : NSPRawPacket} {cmd : UInt8} {data : List UInt8}

theorem drop_nspPackRawMessage (pkt : NSPRawPacket) (data : List UInt8) :
    (nspPackRawMessage pkt data).drop nspHeaderSize = data :=
  List.drop_left' (length_nspPackHeader ..)

theorem queuedData_nspPackRawMessage (pkt : NSPRawPacket) (cmd : UInt8) (data : List UInt8) :
    queuedData (nspPackRawMessage pkt (cmd :: data)) = data := by
  rw [queuedData, ← List.drop_drop, drop_nspPackRawMessage]
  rfl

theorem cmd_nspPackRawMessage (pkt : NSPRawPacket) (cmd : UInt8) (data : List UInt8) :
    (nspPackRawMessage pkt (cmd :: data)).getD nspHeaderSize 0 = cmd := by
  have hdrop := drop_nspPackRawMessage pkt (cmd :: data)
  have hget := congrArg (fun l : List UInt8 => l.getD 0 0) hdrop
  simpa using hget

/-- A packet for our port is queued, unless the list is full. -/
theorem exec_nspNnseQueueStream_packet (h : NspHandle) (hport : h.portMatches pkt.dstPort = true) :
    Proc.exec (nspNnseQueueStream (nspPackRawMessage pkt data)) h
      = if nspNnseMaxPending ≤ h.pending.length then (.error .busy, h)
        else (.ok (), { h with pending := h.pending ++ [nspPackRawMessage pkt data] }) := by
  have hpack : nspPackRawMessage pkt data = nspPackHeader pkt.srcAddr pkt.srcPort pkt.dstAddr
      pkt.dstPort (nspComputeCrc data) (UInt8.ofNat data.length) pkt.ack pkt.seq ++ data := rfl
  have hfields := fields_nspPackHeader pkt.srcAddr pkt.srcPort pkt.dstAddr pkt.dstPort
    (nspComputeCrc data) (UInt8.ofNat data.length) pkt.ack pkt.seq data hpack
  have hdst : getWord (nspPackRawMessage pkt data) 8 = pkt.dstPort := hfields.2.2.2.2.2.1
  have hours : h.streamIsForCurrentPort (nspPackRawMessage pkt data) = true := by
    rw [NspHandle.streamIsForCurrentPort, hdst, hport, Bool.or_true]
  unfold nspNnseQueueStream nnseQueuePayloadEx
  rw [Proc.exec_bind, Proc.exec_bind_ok (Proc.exec_get h), hours, if_neg (by decide)]
  by_cases hfull : nspNnseMaxPending ≤ h.pending.length
  · rw [if_pos hfull, if_pos hfull]
    rfl
  · rw [if_neg hfull, if_neg hfull]
    rfl

/-- Queued packets that carry some data behind the command of the packet they
were cut from. -/
def QueuedPieces (cmd : UInt8) (data : List UInt8) (pieces : List (List UInt8)) : Prop :=
  (pieces.map queuedData).flatten = data ∧ ∀ piece ∈ pieces, piece.getD nspHeaderSize 0 = cmd

/-- The outcome of queueing: all of the data is in the list, or the list is
full. -/
def Queues (p : NspProc Unit) (h : NspHandle) (cmd : UInt8) (data : List UInt8) : Prop :=
  (∃ pieces, Proc.exec p h = (.ok (), { h with pending := h.pending ++ pieces })
      ∧ QueuedPieces cmd data pieces)
    ∨ ∃ t, Proc.exec p h = (.error .busy, t)

theorem queues_packet (hport : h.portMatches pkt.dstPort = true) :
    Queues (nspNnseQueueStream (nspPackRawMessage pkt (cmd :: data))) h cmd data := by
  have hrun := @exec_nspNnseQueueStream_packet pkt (cmd :: data) h hport
  by_cases hfull : nspNnseMaxPending ≤ h.pending.length
  · rw [if_pos hfull] at hrun
    exact Or.inr ⟨h, hrun⟩
  · rw [if_neg hfull] at hrun
    refine Or.inl ⟨_, hrun, ?_, ?_⟩
    · simp [queuedData_nspPackRawMessage]
    · intro piece hpiece
      rw [List.mem_singleton.mp hpiece, cmd_nspPackRawMessage]

/-- Queueing in two steps. -/
theorem Queues.bind {p q : NspProc Unit} {data' : List UInt8} (hp : Queues p h cmd data)
    (hq : ∀ pending, Queues q { h with pending } cmd data') :
    Queues (do p; q) h cmd (data ++ data') := by
  rcases hp with ⟨pieces, hrun, hdata, hcmd⟩ | ⟨t, hrun⟩
  · rcases hq (h.pending ++ pieces) with ⟨pieces', hrun', hdata', hcmd'⟩ | ⟨t, hrun'⟩
    · refine Or.inl ⟨pieces ++ pieces', ?_, ?_, ?_⟩
      · rw [Proc.exec_bind_ok hrun, hrun', List.append_assoc]
      · rw [List.map_append, List.flatten_append, hdata, hdata']
      · intro piece hpiece
        rcases List.mem_append.mp hpiece with hfirst | hsecond
        · exact hcmd piece hfirst
        · exact hcmd' piece hsecond
    · exact Or.inr ⟨t, by rw [Proc.exec_bind_ok hrun, hrun']⟩
  · exact Or.inr ⟨t, Proc.exec_bind_error hrun⟩

theorem queues_nothing : Queues (pure ()) h cmd [] := by
  refine Or.inl ⟨[], ?_, rfl, ?_⟩
  · rw [List.append_nil]
    exact Proc.exec_pure () h
  · intro piece hpiece
    cases hpiece

theorem queues_nspQueueSplitLoop (hport : h.portMatches pkt.dstPort = true) (fuel : Nat)
    (hfuel : data.length ≤ fuel) : Queues (nspQueueSplitLoop pkt cmd fuel data) h cmd data := by
  induction fuel generalizing h data with
  | zero =>
      obtain rfl : data = [] := List.length_eq_zero_iff.mp (Nat.le_zero.mp hfuel)
      exact queues_nothing
  | succ fuel ih =>
      unfold nspQueueSplitLoop
      split
      · rename_i hnil
        rw [hnil]
        exact queues_nothing
      · rename_i hne
        have hlen : (data.drop (nspDataSize - 1)).length ≤ fuel := by
          have hpos := List.length_pos_iff.mpr hne
          rw [List.length_drop, nspDataSize]
          omega
        have hfirst : Queues (nspNnseQueueStream (nspPackRawMessage pkt
            (cmd :: data.take (nspDataSize - 1)))) h cmd (data.take (nspDataSize - 1)) :=
          queues_packet hport
        have hpieces := hfirst.bind fun pending => ih (h := { h with pending }) hport hlen
        rwa [List.take_append_drop] at hpieces

/-- Whatever is left of a packet is queued, and perhaps an empty piece behind
it. -/
theorem queues_nspQueueNnseSplitPacket (hport : h.portMatches pkt.dstPort = true) :
    Queues (nspQueueNnseSplitPacket pkt cmd data) h cmd data := by
  have hloop : Queues (nspQueueSplitLoop pkt cmd data.length data) h cmd data :=
    queues_nspQueueSplitLoop hport data.length (Nat.le_refl _)
  have hempty (pending : List (List UInt8)) :
      Queues (if 0 < data.length ∧ data.length % (nspDataSize - 1) = 0
        then nspNnseQueueStream (nspPackRawMessage pkt [cmd]) else pure ())
        { h with pending } cmd [] := by
    split
    · exact queues_packet (h := { h with pending }) hport
    · exact queues_nothing
  have hpieces := hloop.bind hempty
  rwa [List.append_nil] at hpieces

end Queue

/-! ## Extended packets -/

/-- The size field behind the header. -/
def extSize (msg : List UInt8) : Nat := getBE ((msg.drop nspHeaderSize).take 4)

/-- The payload behind the size field. -/
def extPayload (msg : List UInt8) : List UInt8 := (msg.drop (nspHeaderSize + 4)).take (extSize msg)

/-- The first byte of the payload, and the bytes behind it. -/
def extCmd (msg : List UInt8) : UInt8 := msg.getD (nspHeaderSize + 4) 0

def extData (msg : List UInt8) : List UInt8 := (msg.drop (nspHeaderSize + 5)).take (extSize msg - 1)

/-- Header, size field and payload are in the message. -/
def ExtInside (msg : List UInt8) : Prop := nspHeaderSize + 4 + extSize msg ≤ msg.length

section Extended

variable {u : NspHandle} {msg : List UInt8}

theorem extSize_lt (msg : List UInt8) : extSize msg < 2 ^ 32 := by
  have hlt := getBE_lt ((msg.drop nspHeaderSize).take 4)
  have hlen : ((msg.drop nspHeaderSize).take 4).length ≤ 4 := List.length_take_le _ _
  exact lt_of_lt_of_le hlt (Nat.pow_le_pow_right (by decide) hlen)

/-- The payload is the command and what is copied behind it. -/
theorem extPayload_eq_cons (hpos : 1 ≤ extSize msg) (hinside : ExtInside msg) :
    extPayload msg = extCmd msg :: extData msg := by
  unfold ExtInside at hinside
  have hlt : nspHeaderSize + 4 < msg.length := by omega
  obtain ⟨n, hn⟩ := Nat.exists_eq_add_of_le hpos
  have hget : msg.getD (nspHeaderSize + 4) 0 = msg[nspHeaderSize + 4] := by
    rw [List.getD_eq_getElem?_getD, List.getElem?_eq_getElem hlt]
    rfl
  rw [extPayload, extCmd, extData, List.drop_eq_getElem_cons hlt, hget, hn, Nat.add_comm 1 n, List.take_succ_cons,
    Nat.add_sub_cancel]

/-- A packet inside its message is returned with the first bytes of its
payload, and the others are queued. -/
theorem exec_nspRecvExtended_inside (hpos : 1 ≤ extSize msg) (hinside : ExtInside msg)
    (hsmall : extSize msg + nspHeaderSize + 4 < 2 ^ 32)
    (hport : u.portMatches (getWord msg 8) = true) :
    ∃ pkt : NSPRawPacket, pkt.data = (extPayload msg).take nspDataSize
      ∧ ((∃ pieces, Proc.exec (nspRecvExtended msg) u
            = (.ok pkt, { u with pending := u.pending ++ pieces })
          ∧ QueuedPieces (extCmd msg) ((extPayload msg).drop nspDataSize) pieces)
        ∨ ∃ t, Proc.exec (nspRecvExtended msg) u = (.error .busy, t)) := by
  have hcons := extPayload_eq_cons hpos hinside
  have hlen : ¬msg.length < nspHeaderSize + 4 := by
    unfold ExtInside at hinside
    omega
  have hfits : (extCmd msg :: (extData msg).take (nspDataSize - 1)).length ≤ nspDataSize := by
    rw [List.length_cons, List.length_take, nspDataSize]
    omega
  have hcheck : ¬(extSize msg < 1 ∨ msg.length < (extSize msg + nspHeaderSize + 4) % 2 ^ 32) := by
    rw [Nat.mod_eq_of_lt hsmall]
    unfold ExtInside at hinside
    omega
  have hrun : ¬msg.length < extSize msg + nspHeaderSize + 4 := by
    unfold ExtInside at hinside
    omega
  let pkt : NSPRawPacket := { nspReadPacket msg (extCmd msg :: (extData msg).take (nspDataSize - 1)) hfits with
    dataSum := nspComputeCrc (extCmd msg :: (extData msg).take (nspDataSize - 1)) }
  have hdst : u.portMatches pkt.dstPort = true := hport
  have hexec : Proc.exec (nspRecvExtended msg) u = Proc.exec
      (if (extData msg).drop (nspDataSize - 1) ≠ [] then do
        nspQueueNnseSplitPacket pkt (extCmd msg) ((extData msg).drop (nspDataSize - 1))
        pure pkt
      else if (extCmd msg :: (extData msg).take (nspDataSize - 1)).length = nspDataSize then do
        nspNnseQueueStream (nspPackRawMessage pkt [extCmd msg])
        pure pkt
      else pure pkt) u := by
    unfold nspRecvExtended
    rw [if_neg hlen]
    change Proc.exec (if extSize msg < 1
      ∨ msg.length < (extSize msg + nspHeaderSize + 4) % 2 ^ 32 then _ else _) u = _
    rw [if_neg hcheck]
    change Proc.exec (if msg.length < extSize msg + nspHeaderSize + 4 then _ else _) u = _
    rw [if_neg hrun]
    exact congrArg (fun p => Proc.exec p u) (dif_pos hfits)
  refine ⟨pkt, ?_, ?_⟩
  · rw [hcons]
    rfl
  · rw [hexec, hcons]
    change (∃ pieces, _ ∧ QueuedPieces (extCmd msg) ((extData msg).drop (nspDataSize - 1)) pieces) ∨ _
    have hreturn {p : NspProc Unit}
        (hp : Queues p u (extCmd msg) ((extData msg).drop (nspDataSize - 1))) :
        (∃ pieces, Proc.exec (do p; pure pkt) u
            = (.ok pkt, { u with pending := u.pending ++ pieces })
          ∧ QueuedPieces (extCmd msg) ((extData msg).drop (nspDataSize - 1)) pieces)
        ∨ ∃ t, Proc.exec (do p; pure pkt) u = (.error .busy, t) := by
      rcases hp with ⟨pieces, hok, hpieces⟩ | ⟨t, herr⟩
      · exact Or.inl ⟨pieces, by rw [Proc.exec_bind_ok hok, Proc.exec_pure], hpieces⟩
      · exact Or.inr ⟨t, Proc.exec_bind_error herr⟩
    by_cases hmore : (extData msg).drop (nspDataSize - 1) ≠ []
    · rw [if_pos hmore]
      exact hreturn (queues_nspQueueNnseSplitPacket hdst)
    · rw [if_neg hmore]
      rw [not_not] at hmore
      rw [hmore] at hreturn ⊢
      split
      · exact hreturn (queues_packet hdst)
      · exact hreturn queues_nothing

/-- Without a size field or a payload, or with a sum that does not wrap and
goes past the message, a packet is refused. -/
theorem exec_nspRecvExtended_refused (h : msg.length < nspHeaderSize + 4 ∨ extSize msg < 1
    ∨ msg.length < (extSize msg + nspHeaderSize + 4) % 2 ^ 32) :
    Proc.exec (nspRecvExtended msg) u = (.error .invalidPacket, u) := by
  unfold nspRecvExtended
  by_cases hlen : msg.length < nspHeaderSize + 4
  · rw [if_pos hlen]
    rfl
  · rw [if_neg hlen]
    have hcheck := h.resolve_left hlen
    exact congrArg (fun p => Proc.exec p u) (if_pos hcheck)

/-- A sum that has wrapped passes, and the copies run past the message. -/
theorem exec_nspRecvExtended_wrapped (hlen : ¬msg.length < nspHeaderSize + 4)
    (hwrap : 2 ^ 32 ≤ extSize msg + nspHeaderSize + 4)
    (hmax : msg.length ≤ nspNnseMaxPayload) :
    Proc.exec (nspRecvExtended msg) u = (.error .undefinedBehaviour, u) := by
  have hsize := extSize_lt msg
  have hcheck : ¬(extSize msg < 1 ∨ msg.length < (extSize msg + nspHeaderSize + 4) % 2 ^ 32) := by
    simp only [nspHeaderSize] at *
    omega
  have houtside : msg.length < extSize msg + nspHeaderSize + 4 := by
    simp only [nspNnseMaxPayload] at hmax
    omega
  unfold nspRecvExtended
  rw [if_neg hlen]
  refine (congrArg (fun p => Proc.exec p u) (if_neg hcheck)).trans ?_
  exact congrArg (fun p => Proc.exec p u) (if_pos houtside)

/-- A stream message for our port that holds an extended packet is handled by
that branch. -/
theorem exec_nspRecv_extended {h : NspHandle} (hnnse : h.nnse = true)
    (hrecv : Proc.exec (nspNnseRecvStream nspNnseMaxPayload) h = (.ok msg, u))
    (hheader : nspHeaderSize ≤ msg.length) (hport : u.portMatches (getWord msg 8) = true)
    (hmark : msg.getD 12 0 = 0xFF) :
    Proc.exec nspRecv h = Proc.exec (do
      let pkt ← nspRecvExtended msg
      nspNoteSequence pkt.srcPort pkt.seq
      pure pkt) u := by
  rw [nspRecv, Proc.exec_bind_ok (Proc.exec_get h), if_pos hnnse, nspRecvNnseLoop,
    Proc.exec_bind_ok hrecv, Proc.exec_bind_ok (Proc.exec_get u)]
  dsimp only
  rw [if_neg (Nat.not_lt.mpr hheader), if_neg (not_not.mpr hport), if_pos hmark]

/-- An extended packet is handled right: unless it is refused, all of it is in
the message, and then its payload is what is returned and what is queued. -/
def ExtendedRight (h u : NspHandle) (msg : List UInt8) : Prop :=
  ((Proc.exec nspRecv h).1 ≠ .error .invalidPacket → 1 ≤ extSize msg ∧ ExtInside msg)
    ∧ ∀ pkt t, Proc.exec nspRecv h = (.ok pkt, t) →
      pkt.data = (extPayload msg).take nspDataSize
        ∧ ∃ pieces, t.pending = u.pending ++ pieces
          ∧ QueuedPieces (extCmd msg) ((extPayload msg).drop nspDataSize) pieces

end Extended

/-- Extended packets are handled right exactly when the message is too short
for a size field or the sum of the size and the headers does not wrap. -/
theorem nspRecv_extendedRight_iff {h u : NspHandle} {msg : List UInt8} (hnnse : h.nnse = true)
    (hrecv : Proc.exec (nspNnseRecvStream nspNnseMaxPayload) h = (.ok msg, u))
    (hheader : nspHeaderSize ≤ msg.length) (hport : u.portMatches (getWord msg 8) = true)
    (hmark : msg.getD 12 0 = 0xFF) :
    ExtendedRight h u msg ↔ msg.length < nspHeaderSize + 4
      ∨ extSize msg + nspHeaderSize + 4 < 2 ^ 32 := by
  have hmax := length_le_of_nspNnseRecvStream hrecv
  unfold ExtendedRight
  rw [exec_nspRecv_extended hnnse hrecv hheader hport hmark]
  by_cases hwrap : ¬msg.length < nspHeaderSize + 4 ∧ 2 ^ 32 ≤ extSize msg + nspHeaderSize + 4
  · rw [Proc.exec_bind_error (exec_nspRecvExtended_wrapped hwrap.1 hwrap.2 hmax)]
    constructor
    · rintro ⟨hinside, -⟩
      have hcontra := (hinside (by simp)).2
      unfold ExtInside at hcontra
      simp only [nspNnseMaxPayload] at hmax
      omega
    · omega
  · have hright : msg.length < nspHeaderSize + 4 ∨ extSize msg + nspHeaderSize + 4 < 2 ^ 32 := by
      omega
    rw [iff_true_right hright]
    by_cases hrefused : msg.length < nspHeaderSize + 4 ∨ extSize msg < 1
        ∨ msg.length < (extSize msg + nspHeaderSize + 4) % 2 ^ 32
    · rw [Proc.exec_bind_error (exec_nspRecvExtended_refused hrefused)]
      refine ⟨fun hne => absurd rfl hne, ?_⟩
      intro pkt t hrun
      cases hrun
    · have hsmall : extSize msg + nspHeaderSize + 4 < 2 ^ 32 := by omega
      rw [Nat.mod_eq_of_lt hsmall] at hrefused
      have hpos : 1 ≤ extSize msg := by omega
      have hinside : ExtInside msg := by
        unfold ExtInside
        omega
      refine ⟨fun _ => ⟨hpos, hinside⟩, ?_⟩
      intro pkt t hrun
      obtain ⟨found, hdata, hok | ⟨v, herr⟩⟩ :=
        exec_nspRecvExtended_inside hpos hinside hsmall hport
      · obtain ⟨pieces, hok, hpieces⟩ := hok
        obtain ⟨seq, seqPc, hnote⟩ := exec_nspNoteSequence
          { u with pending := u.pending ++ pieces } found.srcPort found.seq
        rw [Proc.exec_bind_ok hok, Proc.exec_bind_ok hnote, Proc.exec_pure] at hrun
        cases hrun
        exact ⟨hdata, pieces, rfl, hpieces⟩
      · rw [Proc.exec_bind_error herr] at hrun
        cases hrun

/-- A handle that has the message in its list. -/
def holding (msg : List UInt8) : NspHandle :=
  { NspHandle.new true with handshakeDone := true, pending := [msg] }

/-- A packet for port 8001 with the given size field. -/
def extendedMessage (size data : List UInt8) : List UInt8 :=
  [0x54, 0xFD, 0x64, 0x01, 0x40, 0x60, 0x64, 0x00, 0x80, 0x01, 0x00, 0x00, 0xFF, 0x00, 0x01, 0x00]
    ++ size ++ data

theorem nspRecv_extendedRight_iff_two :
    ExtendedRight (holding (extendedMessage [0, 0, 0, 2] [7, 9]))
        { holding [] with pending := [] } (extendedMessage [0, 0, 0, 2] [7, 9])
      ↔ (extendedMessage [0, 0, 0, 2] [7, 9]).length < nspHeaderSize + 4
        ∨ extSize (extendedMessage [0, 0, 0, 2] [7, 9]) + nspHeaderSize + 4 < 2 ^ 32 :=
  nspRecv_extendedRight_iff rfl rfl (by decide) (by decide) (by decide)

/-- The size `FFFFFFFF` passes the comparison, and the copies run past a message
that ends with it. -/
theorem nspRecv_wraps :
    Proc.exec (nspNnseRecvStream nspNnseMaxPayload)
        (holding (extendedMessage [0xFF, 0xFF, 0xFF, 0xFF] []))
        = (.ok (extendedMessage [0xFF, 0xFF, 0xFF, 0xFF] []), { holding [] with pending := [] })
      ∧ ¬ExtendedRight (holding (extendedMessage [0xFF, 0xFF, 0xFF, 0xFF] []))
        { holding [] with pending := [] } (extendedMessage [0xFF, 0xFF, 0xFF, 0xFF] []) := by
  refine ⟨rfl, ?_⟩
  rintro ⟨hinside, -⟩
  have hrecv : Proc.exec (nspNnseRecvStream nspNnseMaxPayload)
      (holding (extendedMessage [0xFF, 0xFF, 0xFF, 0xFF] []))
      = (.ok (extendedMessage [0xFF, 0xFF, 0xFF, 0xFF] []), { holding [] with pending := [] }) := rfl
  have hrun := exec_nspRecv_extended rfl hrecv (by decide) (by decide) (by decide)
  rw [hrun, Proc.exec_bind_error (exec_nspRecvExtended_wrapped (by decide) (by decide)
    (by decide))] at hinside
  exact absurd (hinside (by simp)).2 (by unfold ExtInside; decide)

end Tilibs.Nsp
