import Tilibs.Lib.Run
import Tilibs.Nsp.Raw

/-!
# Tilibs.Nsp.Stream

What becomes of the stream messages of the peer over a whole run, in which the
program receives and sends in any order.

A payload is received by `nsp_nnse_recv_stream`, or queued by a send that it
reaches before its acknowledgement.  Both keep the order: what is queued at the
start, followed by what arrives, is what has been delivered, followed by what
is queued at the end.
-/

namespace Tilibs.Nsp

open Tilibs.Lib

/-! ## What arrives -/

/-- The sender repeats the message it sent last. -/
def NnseMessage.repeats (m : NnseMessage) (last : Option UInt16) : Bool :=
  m.reqack &&& 0x08 ≠ 0 && last = some m.seqno

theorem NspHandle.streamIsDuplicate_eq (h : NspHandle) (m : NnseMessage) :
    h.streamIsDuplicate m = m.repeats h.lastStreamSeqno := rfl

/-- The stream payloads in the traffic, each repeated one once; `last` is the
number of the message before. -/
def payloadsOf : Option UInt16 → List NnseEvent → List (List UInt8)
  | _, [] => []
  | last, .error _ :: rx => payloadsOf last rx
  | last, .ok m :: rx =>
      if m.carriesStream && !m.repeats last then m.payload :: payloadsOf (some m.seqno) rx
      else payloadsOf last rx

/-- The number of the last stream message in the traffic. -/
def lastOf : Option UInt16 → List NnseEvent → Option UInt16
  | last, [] => last
  | last, .error _ :: rx => lastOf last rx
  | last, .ok m :: rx =>
      if m.carriesStream && !m.repeats last then lastOf (some m.seqno) rx else lastOf last rx

theorem payloadsOf_append (last : Option UInt16) (rx rx' : List NnseEvent) :
    payloadsOf last (rx ++ rx') = payloadsOf last rx ++ payloadsOf (lastOf last rx) rx' := by
  induction rx generalizing last with
  | nil => rfl
  | cons event rx ih =>
      cases event with
      | error e => exact ih last
      | ok m =>
          rw [List.cons_append, payloadsOf, payloadsOf, lastOf]
          split
          · rw [ih, List.cons_append]
          · exact ih last

theorem lastOf_append (last : Option UInt16) (rx rx' : List NnseEvent) :
    lastOf last (rx ++ rx') = lastOf (lastOf last rx) rx' := by
  induction rx generalizing last with
  | nil => rfl
  | cons event rx ih =>
      cases event with
      | error e => exact ih last
      | ok m =>
          rw [List.cons_append, lastOf, lastOf]
          split
          · exact ih (some m.seqno)
          · exact ih last

/-! ## Steps -/

/-- Payloads that wait to be delivered: those in the list, and those still to
arrive. -/
def NspHandle.inFlight (h : NspHandle) : List (List UInt8) :=
  h.pending ++ payloadsOf h.lastStreamSeqno h.link.rx

/-- A bound on the receives it takes to deliver them. -/
def NspHandle.backlog (h : NspHandle) : Nat := h.pending.length + h.link.rx.length

/-- The handle has a running association over a link that works, and all that
is to arrive is for it. -/
structure NspHandle.Associated (h : NspHandle) : Prop where
  mode : h.nnse = true
  ready : h.handshakeDone = true
  fault : h.link.fault = none
  quiet : ∀ m, .ok m ∈ h.link.rx → m.Quiet
  carried : ∀ p ∈ h.inFlight, p.length ≤ nspNnseMaxPayload ∧ h.streamIsForCurrentPort p = true

/-- From `h` to `h'` some traffic has been received and `out` delivered. -/
structure NspHandle.Yields (h : NspHandle) (out : List (List UInt8)) (h' : NspHandle) : Prop where
  frame : h' = { h with
    link := h'.link
    seq := h'.seq
    seqPc := h'.seqPc
    nnseSeqno := h'.nnseSeqno
    lastStreamSeqno := h'.lastStreamSeqno
    pending := h'.pending }
  fault : h'.link.fault = h.link.fault
  received : ∃ rx, h.link.rx = rx ++ h'.link.rx ∧
    h'.lastStreamSeqno = lastOf h.lastStreamSeqno rx ∧
    h.pending ++ payloadsOf h.lastStreamSeqno rx = out ++ h'.pending
  backlog : h'.backlog + out.length ≤ h.backlog

namespace NspHandle.Yields

variable {h h' h'' : NspHandle} {out out' : List (List UInt8)}

theorem refl (h : NspHandle) : h.Yields [] h where
  frame := rfl
  fault := rfl
  received := ⟨[], rfl, rfl, by simp [payloadsOf]⟩
  backlog := Nat.le_refl _

theorem trans (h₁ : h.Yields out h') (h₂ : h'.Yields out' h'') : h.Yields (out ++ out') h'' where
  frame := by
    have hframe := h₂.frame
    rw [h₁.frame] at hframe
    exact hframe
  fault := h₂.fault.trans h₁.fault
  received := by
    obtain ⟨rx, hrx, hlast, hout⟩ := h₁.received
    obtain ⟨rx', hrx', hlast', hout'⟩ := h₂.received
    refine ⟨rx ++ rx', ?_, ?_, ?_⟩
    · rw [hrx, hrx', List.append_assoc]
    · rw [hlast', hlast, lastOf_append]
    · rw [payloadsOf_append, ← List.append_assoc, hout, ← hlast, List.append_assoc, hout',
        List.append_assoc]
  backlog := by
    have h₁ := h₁.backlog
    have h₂ := h₂.backlog
    rw [List.length_append]
    omega

/-- Nothing in flight is lost, and nothing is delivered twice. -/
theorem inFlight (hy : h.Yields out h') : h.inFlight = out ++ h'.inFlight := by
  obtain ⟨rx, hrx, hlast, hout⟩ := hy.received
  rw [NspHandle.inFlight, hrx, payloadsOf_append, ← List.append_assoc, hout, ← hlast,
    List.append_assoc, NspHandle.inFlight]

theorem length_rx_le (hy : h.Yields out h') : h'.link.rx.length ≤ h.link.rx.length := by
  obtain ⟨rx, hrx, -⟩ := hy.received
  rw [hrx, List.length_append]
  exact Nat.le_add_left _ _

theorem associated (hy : h.Yields out h') (ha : h.Associated) : h'.Associated where
  mode := by
    rw [hy.frame]
    exact ha.mode
  ready := by
    rw [hy.frame]
    exact ha.ready
  fault := hy.fault.trans ha.fault
  quiet := by
    obtain ⟨rx, hrx, -⟩ := hy.received
    intro m hm
    exact ha.quiet m (hrx ▸ List.mem_append_right rx hm)
  carried := by
    intro p hp
    obtain ⟨hfits, hport⟩ := ha.carried p (hy.inFlight ▸ List.mem_append_right out hp)
    refine ⟨hfits, ?_⟩
    rw [hy.frame]
    exact hport

end NspHandle.Yields

/-! ## One event -/

/-- The event carries no payload that is new. -/
def Skipped (last : Option UInt16) : NnseEvent → Prop
  | .error _ => True
  | .ok m => (m.carriesStream && !m.repeats last) = false

section Event

variable {h : NspHandle} {rx : List NnseEvent} {tx tx' : List NnseMessage} {event : NnseEvent}
  {m : NnseMessage}

theorem yields_of_skipped (hlink : h.link = ⟨event :: rx, tx, none⟩)
    (hskipped : Skipped h.lastStreamSeqno event) (tx' : List NnseMessage) (seqno : UInt16) :
    h.Yields [] { h with link := ⟨rx, tx', none⟩, nnseSeqno := seqno } where
  frame := rfl
  fault := by rw [hlink]
  received := by
    refine ⟨[event], by rw [hlink, List.singleton_append], ?_, ?_⟩
    · cases event with
      | error e => rfl
      | ok m => rw [lastOf, hskipped, if_neg (by simp), lastOf]
    · cases event with
      | error e => simp [payloadsOf]
      | ok m => rw [payloadsOf, hskipped, if_neg (by simp), payloadsOf, List.append_nil,
          List.nil_append]
  backlog := by simp [NspHandle.backlog, hlink]

theorem yields_of_received (hlink : h.link = ⟨.ok m :: rx, tx, none⟩)
    (hnew : (m.carriesStream && !m.repeats h.lastStreamSeqno) = true) (hpending : h.pending = [])
    (tx' : List NnseMessage) (seqno : UInt16) :
    h.Yields [m.payload] { h with
      link := ⟨rx, tx', none⟩, nnseSeqno := seqno, lastStreamSeqno := some m.seqno } where
  frame := rfl
  fault := by rw [hlink]
  received := by
    refine ⟨[.ok m], by rw [hlink, List.singleton_append], ?_, ?_⟩
    · rw [lastOf, if_pos hnew, lastOf]
    · rw [payloadsOf, if_pos hnew, payloadsOf, hpending]
      rfl
  backlog := by simp [NspHandle.backlog, hlink]

theorem yields_of_queued (hlink : h.link = ⟨.ok m :: rx, tx, none⟩)
    (hnew : (m.carriesStream && !m.repeats h.lastStreamSeqno) = true) (tx' : List NnseMessage)
    (seqno : UInt16) :
    h.Yields [] { h with
      link := ⟨rx, tx', none⟩
      nnseSeqno := seqno
      pending := h.pending ++ [m.payload]
      lastStreamSeqno := some m.seqno } where
  frame := rfl
  fault := by rw [hlink]
  received := by
    refine ⟨[.ok m], by rw [hlink, List.singleton_append], ?_, ?_⟩
    · rw [lastOf, if_pos hnew, lastOf]
    · rw [payloadsOf, if_pos hnew, payloadsOf, List.nil_append]
  backlog := by
    simp only [NspHandle.backlog, hlink, List.length_append, List.length_cons, List.length_nil]
    omega

/-- Sending something changes nothing of this. -/
theorem yields_of_sent (hlink : h.link = ⟨rx, tx, none⟩) (tx' : List NnseMessage)
    (seqno : UInt16) : h.Yields [] { h with link := ⟨rx, tx', none⟩, nnseSeqno := seqno } where
  frame := rfl
  fault := by rw [hlink]
  received := ⟨[], by rw [hlink]; rfl, rfl, by simp [payloadsOf]⟩
  backlog := by simp [NspHandle.backlog, hlink]

theorem NspHandle.Associated.link_eq (ha : h.Associated) :
    h.link = ⟨h.link.rx, h.link.tx, none⟩ := by
  rw [← ha.fault]

/-- A new payload is for this handle, and fits its buffers. -/
theorem NspHandle.Associated.carried_cons (ha : h.Associated)
    (hlink : h.link = ⟨.ok m :: rx, tx, none⟩)
    (hnew : (m.carriesStream && !m.repeats h.lastStreamSeqno) = true) :
    m.payload.length ≤ nspNnseMaxPayload ∧ h.streamIsForCurrentPort m.payload = true := by
  refine ha.carried m.payload ?_
  rw [NspHandle.inFlight, hlink, payloadsOf, if_pos hnew]
  exact List.mem_append_right h.pending List.mem_cons_self

end Event

/-! ## Receiving -/

section Recv

variable {h : NspHandle}

theorem exec_nnseRecvStreamLoop (n resyncFragments : Nat) (ha : h.Associated)
    (hpending : h.pending = []) :
    ∃ r h', Proc.exec (nnseRecvStreamLoop nspNnseMaxPayload n false resyncFragments) h = (r, h') ∧
      h.Yields r.toOption.toList h' ∧
      (n ≠ 0 → h.link.rx ≠ [] → h'.link.rx.length < h.link.rx.length) ∧ h'.pending = [] := by
  induction n generalizing h resyncFragments with
  | zero => exact ⟨_, h, rfl, .refl h, fun hn => absurd rfl hn, hpending⟩
  | succ n ih =>
      have hlink := ha.link_eq
      cases hrx : h.link.rx with
      | nil =>
          rw [hrx] at hlink
          refine ⟨.error .readTimeout, h, ?_, .refl h, fun _ hne => absurd rfl hne, hpending⟩
          rw [nnseRecvStreamLoop, Proc.exec_bind_ok (exec_nnseRecvMessage_nil hlink)]
          rfl
      | cons event rx =>
          rw [hrx] at hlink
          have hrecv := exec_nnseRecvMessage_cons hlink
          cases event with
          | error e =>
              have hskip := yields_of_skipped hlink (show Skipped h.lastStreamSeqno (.error e) from
                trivial) h.link.tx h.nnseSeqno
              rw [nnseRecvStreamLoop, Proc.exec_bind_ok hrecv]
              dsimp only
              split
              · split
                · exact ⟨_, _, rfl, hskip, fun _ _ => Nat.lt_succ_self _, hpending⟩
                · obtain ⟨r, h', hloop, hyields, -, hpending'⟩ :=
                    ih (resyncFragments + 1) (hskip.associated ha) hpending
                  exact ⟨r, h', hloop, hskip.trans hyields,
                    fun _ _ => Nat.lt_succ_of_le hyields.length_rx_le, hpending'⟩
              · exact ⟨_, _, rfl, hskip, fun _ _ => Nat.lt_succ_self _, hpending⟩
          | ok m =>
              have hquiet := ha.quiet m (by rw [hrx]; exact List.mem_cons_self)
              have hno : (false || decide (m.service = nspNnseSrvAddrReq)) = false := by
                simpa using hquiet.1
              cases hnew : m.carriesStream && !m.repeats h.lastStreamSeqno with
              | false =>
                  obtain ⟨tx', seqno, hhandle⟩ := exec_nnseHandleMessage
                    (h := { h with link := ⟨rx, h.link.tx, none⟩ }) ha.ready hquiet rfl
                  have hskip := yields_of_skipped hlink (show Skipped h.lastStreamSeqno (.ok m) from
                    hnew) tx' seqno
                  obtain ⟨r, h', hloop, hyields, -, hpending'⟩ :=
                    ih resyncFragments (hskip.associated ha) hpending
                  refine ⟨r, h', ?_, hskip.trans hyields,
                    fun _ _ => Nat.lt_succ_of_le hyields.length_rx_le, hpending'⟩
                  rw [nnseRecvStreamLoop, Proc.exec_bind_ok hrecv]
                  dsimp only
                  rw [Proc.exec_bind_ok hhandle, Proc.exec_bind_ok (Proc.exec_get _)]
                  cases hstream : m.carriesStream with
                  | false => rw [if_neg (by simp), if_neg (by simp [hno]), hno, hloop]
                  | true =>
                      have hduplicate : m.repeats h.lastStreamSeqno = true := by
                        simpa [hstream] using hnew
                      rw [if_pos rfl, if_pos (.inr hduplicate), hno, hloop]
              | true =>
                  obtain ⟨hstream, hfresh⟩ := Bool.and_eq_true_iff.mp hnew
                  have hfresh : h.streamIsDuplicate m = false := by
                    rwa [Bool.not_eq_true', ← NspHandle.streamIsDuplicate_eq] at hfresh
                  obtain ⟨tx', seqno, hloop⟩ := exec_nnseRecvStreamLoop_stream n resyncFragments
                    ha.ready hstream hfresh (ha.carried_cons hlink hnew).1 hlink
                  exact ⟨.ok m.payload, _, hloop, yields_of_received hlink hnew hpending tx' seqno,
                    fun _ _ => Nat.lt_succ_self _, hpending⟩

/-- A payload taken from the list. -/
theorem yields_of_pending {p : List UInt8} {ps : List (List UInt8)} (hpending : h.pending = p :: ps) :
    h.Yields [p] { h with pending := ps } where
  frame := rfl
  fault := rfl
  received := ⟨[], rfl, rfl, by simp [payloadsOf, hpending]⟩
  backlog := by
    simp only [NspHandle.backlog, hpending, List.length_cons, List.length_nil]
    omega

/-- A receive delivers at most one payload, and makes progress. -/
theorem exec_nspNnseRecvStream (ha : h.Associated) :
    ∃ r h', Proc.exec (nspNnseRecvStream nspNnseMaxPayload) h = (r, h') ∧
      h.Yields r.toOption.toList h' ∧ (0 < h.backlog → h'.backlog < h.backlog) := by
  rw [nspNnseRecvStream, Proc.exec_bind_ok (exec_nspNnseEnsureReady ha.ready),
    Proc.exec_bind_ok (Proc.exec_get _)]
  cases hpending : h.pending with
  | nil =>
      obtain ⟨r, h', hloop, hyields, hprogress, hpending'⟩ :=
        exec_nnseRecvStreamLoop nspNnseMaxIterations 0 ha hpending
      refine ⟨r, h', ?_, hyields, ?_⟩
      · rw [nnseTakePending, Proc.exec_bind_ok (Proc.exec_pure _ _)]
        exact hloop
      · intro hmore
        simp only [NspHandle.backlog, hpending, hpending', List.length_nil, Nat.zero_add]
          at hmore ⊢
        exact hprogress (by decide) (List.length_pos_iff.mp hmore)
  | cons p ps =>
      obtain ⟨hfits, hport⟩ := ha.carried p (by rw [NspHandle.inFlight, hpending]; simp)
      have hport' : ¬ ¬ NspHandle.streamIsForCurrentPort { h with pending := ps } p = true :=
        not_not.mpr hport
      have htake : Proc.exec (nnseTakePending nspNnseMaxPayload (p :: ps)) h =
          (.ok (some p), { h with pending := ps }) := by
        rw [nnseTakePending, Proc.exec_bind_ok (Proc.exec_modify _ _),
          Proc.exec_bind_ok (Proc.exec_get _), if_neg hport', if_neg (Nat.not_lt.mpr hfits),
          Proc.exec_pure]
      refine ⟨.ok p, { h with pending := ps }, ?_, yields_of_pending hpending, ?_⟩
      · rw [Proc.exec_bind_ok htake]
        rfl
      · intro _
        simp only [NspHandle.backlog, hpending, List.length_cons]
        omega

end Recv

/-! ## Sending -/

section Send

variable {h : NspHandle} {m : NnseMessage} {rx : List NnseEvent} {tx : List NnseMessage}

theorem exec_nnseQueuePayloadEx {p : List UInt8} (hport : h.streamIsForCurrentPort p = true)
    (hroom : h.pending.length < nspNnseMaxPending) :
    Proc.exec (nnseQueuePayloadEx p) h = (.ok true, { h with pending := h.pending ++ [p] }) := by
  rw [nnseQueuePayloadEx, Proc.exec_bind_ok (Proc.exec_get _), if_neg (not_not.mpr hport),
    if_neg (Nat.not_le.mpr hroom), Proc.exec_bind_ok (Proc.exec_set _ _), Proc.exec_pure]

/-- A message that arrives during a send is answered, and its payload kept. -/
theorem exec_nnseSendHandleMessage (ha : h.Associated) (hroom : h.pending.length < nspNnseMaxPending)
    (hlink : h.link = ⟨.ok m :: rx, tx, none⟩) :
    ∃ kept h', Proc.exec (nnseSendHandleMessage m false) { h with link := ⟨rx, tx, none⟩ } =
        (.ok kept, h') ∧ h.Yields [] h' ∧ (kept = false → h'.pending = h.pending) := by
  have hquiet := ha.quiet m (by rw [hlink]; exact List.mem_cons_self)
  obtain ⟨tx', seqno, hhandle⟩ := exec_nnseHandleMessage
    (h := { h with link := ⟨rx, tx, none⟩ }) ha.ready hquiet rfl
  rw [nnseSendHandleMessage, Proc.exec_bind_ok hhandle, Proc.exec_bind_ok (Proc.exec_get _)]
  cases hnew : m.carriesStream && !m.repeats h.lastStreamSeqno with
  | false =>
      refine ⟨false, _, ?_, yields_of_skipped hlink (show Skipped h.lastStreamSeqno (.ok m) from
        hnew) tx' seqno, fun _ => rfl⟩
      rw [if_pos, Proc.exec_pure]
      cases hstream : m.carriesStream with
      | false => exact .inl (by simp)
      | true =>
          have hduplicate : m.repeats h.lastStreamSeqno = true := by simpa [hstream] using hnew
          exact .inr (.inr hduplicate)
  | true =>
      obtain ⟨hstream, hfresh⟩ := Bool.and_eq_true_iff.mp hnew
      have hport := (ha.carried_cons hlink hnew).2
      have hfresh' : ¬ m.repeats h.lastStreamSeqno = true := by simpa using hfresh
      have hqueue := exec_nnseQueuePayloadEx
        (h := { h with link := ⟨rx, tx', none⟩, nnseSeqno := seqno }) hport hroom
      have hkeep : ¬ (¬ m.carriesStream = true ∨ false = true ∨
          m.repeats h.lastStreamSeqno = true) := by
        simp [hstream, hfresh']
      refine ⟨true, _, ?_, yields_of_queued hlink hnew tx' seqno, fun h => by contradiction⟩
      rw [if_neg, Proc.exec_bind_ok hqueue]
      · rfl
      · exact hkeep

/-- An acknowledgement carries no payload. -/
theorem skipped_of_ack {last : Option UInt16}
    (hservice : m.service = nspNnseSrvStream ||| nspNnseSrvAckFlag) : Skipped last (.ok m) := by
  have hother : m.service ≠ nspNnseSrvStream := by
    rw [hservice]
    decide
  simp [Skipped, NnseMessage.carriesStream, hother]

/-- The wait for an acknowledgement loses nothing; a payload it keeps ends it. -/
theorem exec_nnseWaitStreamAck (seqno : UInt16) (n : Nat) (ha : h.Associated)
    (hroom : h.pending.length < nspNnseMaxPending) :
    ∃ r h', Proc.exec (nnseWaitStreamAck seqno n false) h = (r, h') ∧ h.Yields [] h' ∧
      (r = .ok .done ∨ h'.pending = h.pending) := by
  induction n generalizing h with
  | zero => exact ⟨_, h, rfl, .refl h, .inr rfl⟩
  | succ n ih =>
      have hlink := ha.link_eq
      cases hrx : h.link.rx with
      | nil =>
          rw [hrx] at hlink
          refine ⟨.ok .retry, h, ?_, .refl h, .inr rfl⟩
          rw [nnseWaitStreamAck, Proc.exec_bind_ok (exec_nnseRecvMessage_nil hlink)]
          rfl
      | cons event rx =>
          rw [hrx] at hlink
          have hrecv := exec_nnseRecvMessage_cons hlink
          rw [nnseWaitStreamAck, Proc.exec_bind_ok hrecv]
          cases event with
          | error e =>
              have hskip := yields_of_skipped hlink (show Skipped h.lastStreamSeqno (.error e) from
                trivial) h.link.tx h.nnseSeqno
              dsimp only
              split
              · obtain ⟨r, h', hwait, hyields, hpending⟩ := ih (hskip.associated ha) hroom
                exact ⟨r, h', hwait, hskip.trans hyields, hpending⟩
              · split
                · exact ⟨_, _, rfl, hskip, .inr rfl⟩
                · exact ⟨_, _, rfl, hskip, .inr rfl⟩
          | ok m =>
              have hno : (false || decide (m.service = nspNnseSrvAddrReq)) = false := by
                simpa using (ha.quiet m (by rw [hrx]; exact List.mem_cons_self)).1
              obtain ⟨kept, h₁, hhandle, hyields₁, hpending₁⟩ :=
                exec_nnseSendHandleMessage ha hroom hlink
              dsimp only
              rw [hno]
              split
              · next hack =>
                  exact ⟨_, _, rfl, yields_of_skipped hlink (skipped_of_ack hack.2.1) h.link.tx
                    h.nnseSeqno, .inl rfl⟩
              · rw [Proc.exec_bind_ok hhandle, Proc.exec_bind_ok (Proc.exec_get _)]
                cases kept with
                | true => exact ⟨_, _, rfl, hyields₁, .inl rfl⟩
                | false =>
                    have hsame := hpending₁ rfl
                    obtain ⟨r, h', hwait, hyields, hpending⟩ :=
                      ih (hyields₁.associated ha) (by rw [hsame]; exact hroom)
                    refine ⟨r, h', ?_, hyields₁.trans hyields, ?_⟩
                    · rw [if_neg (by simp), if_neg (by simp), hwait]
                    · rw [← hsame]
                      exact hpending

theorem exec_nnseSendMessage_yields (m : NnseMessage) (ha : h.Associated) :
    ∃ r h', Proc.exec (nnseSendMessage m) h = (r, h') ∧ h.Yields [] h' ∧
      h'.pending = h.pending := by
  have hlink := ha.link_eq
  by_cases hfits : m.payload.length ≤ nspNnseMaxPayload
  · exact ⟨_, _, exec_nnseSendMessage h m hlink hfits,
      yields_of_sent hlink (h.link.tx ++ [m]) h.nnseSeqno, rfl⟩
  · refine ⟨.error .invalidPacket, h, ?_, .refl h, rfl⟩
    rw [nnseSendMessage, Proc.exec_bind_ok (Proc.exec_get _), if_pos (Nat.lt_of_not_le hfits),
      Proc.exec_throw]

theorem exec_nnseSendAttempts (seqno : UInt16) (data : List UInt8) (n : Nat) (ha : h.Associated)
    (hroom : h.pending.length < nspNnseMaxPending) :
    ∃ r h', Proc.exec (nnseSendAttempts seqno data n) h = (r, h') ∧ h.Yields [] h' := by
  induction n generalizing h with
  | zero => exact ⟨_, h, rfl, .refl h⟩
  | succ n ih =>
      obtain ⟨r₁, h₁, hsend, hyields₁, hpending₁⟩ := exec_nnseSendMessage_yields
        ⟨0, nspNnseSrvStream, nspNnseAddrPc, nspNnseAddrCalc, 0, 1, seqno, data⟩ ha
      rw [nnseSendAttempts]
      cases r₁ with
      | error e => exact ⟨_, h₁, Proc.exec_bind_error hsend, hyields₁⟩
      | ok u =>
          rw [Proc.exec_bind_ok hsend]
          have hroom₁ : h₁.pending.length < nspNnseMaxPending := by rw [hpending₁]; exact hroom
          obtain ⟨r₂, h₂, hwait, hyields₂, hpending₂⟩ := exec_nnseWaitStreamAck seqno
            nspNnseMaxIterations (hyields₁.associated ha) hroom₁
          have hyields := hyields₁.trans hyields₂
          cases r₂ with
          | error e => exact ⟨_, h₂, Proc.exec_bind_error hwait, hyields⟩
          | ok wait =>
              rw [Proc.exec_bind_ok hwait]
              by_cases hdone : wait = .done
              · rw [if_pos hdone]
                exact ⟨_, h₂, rfl, hyields⟩
              · rw [if_neg hdone]
                have hsame : h₂.pending = h₁.pending := by
                  cases hpending₂ with
                  | inl heq =>
                      cases heq
                      exact absurd rfl hdone
                  | inr heq => exact heq
                obtain ⟨r, h', hloop, hyields'⟩ := ih (hyields.associated ha)
                  (by rw [hsame]; exact hroom₁)
                exact ⟨r, h', hloop, hyields.trans hyields'⟩

/-- A send delivers nothing, and loses nothing while there is room in the list. -/
theorem exec_nspNnseSendStream (data : List UInt8) (ha : h.Associated)
    (hroom : h.pending.length < nspNnseMaxPending) :
    ∃ r h', Proc.exec (nspNnseSendStream data) h = (r, h') ∧ h.Yields [] h' := by
  have hyields := yields_of_sent ha.link_eq h.link.tx (h.nnseSeqno + 1)
  have ha' := hyields.associated ha
  rw [nspNnseSendStream, Proc.exec_bind_ok (exec_nspNnseEnsureReady ha.ready),
    Proc.exec_bind_ok (exec_nnseNextSeqno h)]
  have hstate : { h with nnseSeqno := h.nnseSeqno + 1 } =
      { h with link := ⟨h.link.rx, h.link.tx, none⟩, nnseSeqno := h.nnseSeqno + 1 } := by
    rw [← ha.link_eq]
  rw [hstate]
  split
  · obtain ⟨r, h', hsend, hyields', -⟩ := exec_nnseSendMessage_yields
      ⟨0, nspNnseSrvStream, nspNnseAddrPc, nspNnseAddrCalc, 0, 0, h.nnseSeqno, data⟩ ha'
    exact ⟨r, h', hsend, hyields.trans hyields'⟩
  · obtain ⟨r, h', hsend, hyields'⟩ := exec_nnseSendAttempts h.nnseSeqno data nspNnseSendRetries
      ha' hroom
    exact ⟨r, h', hsend, hyields.trans hyields'⟩

end Send

/-! ## Runs over stream payloads -/

inductive NnseOp
  | recv
  | send (data : List UInt8)
  deriving DecidableEq

/-- One call, and the payload it delivers; an error is left to the caller. -/
def NnseOp.step (op : NnseOp) (h : NspHandle) : List (List UInt8) × NspHandle :=
  match op with
  | .recv =>
      let (r, h') := Proc.exec (nspNnseRecvStream nspNnseMaxPayload) h
      (r.toOption.toList, h')
  | .send data => ([], (Proc.exec (nspNnseSendStream data) h).2)

/-- A send finds room in the list for the payload that may arrive. -/
def NnseOp.HasRoom (op : NnseOp) (h : NspHandle) : Prop :=
  op ≠ .recv → h.pending.length < nspNnseMaxPending

/-- What holds of a run: payloads are kept in order, and receives make progress. -/
def NnseOp.Keeps (ops : List NnseOp) (h : NspHandle) (out : List (List UInt8))
    (h' : NspHandle) : Prop :=
  h.Yields out h' ∧ h'.backlog ≤ h.backlog - ops.count .recv

theorem NnseOp.keeps_step (op : NnseOp) (h : NspHandle) (ha : h.Associated)
    (hroom : op.HasRoom h) :
    NnseOp.Keeps [op] h (op.step h).1 (op.step h).2 ∧ (op.step h).2.Associated := by
  cases op with
  | recv =>
      obtain ⟨r, h', hrecv, hyields, hprogress⟩ := exec_nspNnseRecvStream ha
      have hstep : NnseOp.recv.step h = (r.toOption.toList, h') := by rw [NnseOp.step, hrecv]
      have hle := hyields.backlog
      rw [hstep]
      refine ⟨⟨hyields, ?_⟩, hyields.associated ha⟩
      show h'.backlog ≤ h.backlog - [NnseOp.recv].count .recv
      rw [List.count_singleton_self]
      by_cases hmore : 0 < h.backlog
      · have hlt := hprogress hmore
        omega
      · omega
  | send data =>
      obtain ⟨r, h', hsend, hyields⟩ := exec_nspNnseSendStream data ha (hroom (by simp))
      have hstep : (NnseOp.send data).step h = ([], h') := by rw [NnseOp.step, hsend]
      have hle := hyields.backlog
      rw [hstep]
      refine ⟨⟨hyields, ?_⟩, hyields.associated ha⟩
      rw [List.count_singleton]
      simpa using hle

theorem NspHandle.inFlight_eq_nil {h : NspHandle} (hempty : h.backlog = 0) : h.inFlight = [] := by
  have hpending : h.pending = [] := List.length_eq_zero_iff.mp (by
    rw [NspHandle.backlog] at hempty
    omega)
  have hrx : h.link.rx = [] := List.length_eq_zero_iff.mp (by
    rw [NspHandle.backlog] at hempty
    omega)
  rw [NspHandle.inFlight, hpending, hrx]
  rfl

/-- In every run, the payloads queued at the start and those of the messages
received are the ones delivered and then the ones still queued, each once and
in order; with receives enough, all that was in flight is delivered. -/
theorem nnse_payloads_delivered (ops : List NnseOp) {h : NspHandle} (ha : h.Associated)
    (hroom : EachStep NnseOp.step NnseOp.HasRoom ops h) :
    ∃ out h', runSteps NnseOp.step ops h = (out, h') ∧
      (∃ received, h.link.rx = received ++ h'.link.rx ∧
        h.pending ++ payloadsOf h.lastStreamSeqno received = out ++ h'.pending) ∧
      (h.backlog ≤ ops.count .recv → out = h.inFlight) := by
  obtain ⟨⟨hyields, hprogress⟩, -⟩ := runSteps_rel NnseOp.Keeps
    (fun h => ⟨.refl h, Nat.le_refl _⟩)
    (fun is js s t u out out' h₁ h₂ => ⟨h₁.1.trans h₂.1, by
      have := h₁.2
      have := h₂.2
      rw [List.count_append]
      omega⟩)
    NnseOp.keeps_step ha hroom
  refine ⟨_, _, rfl, ?_, ?_⟩
  · obtain ⟨received, hrx, -, hout⟩ := hyields.received
    exact ⟨received, hrx, hout⟩
  · intro henough
    rw [hyields.inFlight, NspHandle.inFlight_eq_nil (by omega), List.append_nil]

/-- A stream message of the calculator that asks for an acknowledgement. -/
def calcMessage (seqno : UInt16) (payload : List UInt8) : NnseMessage :=
  ⟨0, nspNnseSrvStream, nspNnseAddrCalc, nspNnseAddrPc, 0, 1, seqno, payload⟩

/-- The acknowledgement it gets. -/
def calcAck (seqno : UInt16) : NnseMessage :=
  ⟨0, nspNnseSrvStream ||| nspNnseSrvAckFlag, nspNnseAddrPc, nspNnseAddrCalc, 0, 0, seqno, []⟩

/-- An associated handle with messages of the calculator to come. -/
def associatedHandle (messages : List NnseMessage) : NspHandle :=
  { NspHandle.new true with handshakeDone := true, link := ⟨messages.map .ok, [], none⟩ }

theorem nnse_payloads_delivered_two :
    ∃ out h', runSteps NnseOp.step [.send [3], .recv, .recv]
          (associatedHandle [calcMessage 7 [1], calcMessage 8 [2]]) = (out, h') ∧
      (∃ received, (associatedHandle [calcMessage 7 [1], calcMessage 8 [2]]).link.rx =
          received ++ h'.link.rx ∧
        (associatedHandle [calcMessage 7 [1], calcMessage 8 [2]]).pending ++
          payloadsOf (associatedHandle [calcMessage 7 [1], calcMessage 8 [2]]).lastStreamSeqno
            received = out ++ h'.pending) ∧
      ((associatedHandle [calcMessage 7 [1], calcMessage 8 [2]]).backlog ≤
          List.count NnseOp.recv [.send [3], .recv, .recv] →
        out = (associatedHandle [calcMessage 7 [1], calcMessage 8 [2]]).inFlight) := by
  have hassociated : (associatedHandle [calcMessage 7 [1], calcMessage 8 [2]]).Associated := by
    refine ⟨rfl, rfl, rfl, ?_, by decide⟩
    intro m hm
    simp only [associatedHandle, List.map_cons, List.map_nil, List.mem_cons, Except.ok.injEq,
      List.not_mem_nil, or_false] at hm
    cases hm with
    | inl h => exact NnseMessage.quiet_of_carriesStream (by rw [h]; decide)
    | inr h => exact NnseMessage.quiet_of_carriesStream (by rw [h]; decide)
  refine nnse_payloads_delivered [.send [3], .recv, .recv] hassociated ⟨?_, ?_, ?_, trivial⟩
  · intro _
    decide
  · intro h
    contradiction
  · intro h
    contradiction

/-- While a message is sent, a payload that finds the list full, or is for
another port, is acknowledged and then dropped. -/
theorem nnse_payloads_dropped :
    (∃ h', runSteps NnseOp.step [.send [3]]
          { associatedHandle [calcMessage 7 [2]] with pending := List.replicate 64 [1] } =
        ([], h') ∧
      calcAck 7 ∈ h'.link.tx ∧ [2] ∉ h'.inFlight) ∧
    ∃ h', runSteps NnseOp.step [.send [3]]
          (associatedHandle [calcMessage 7 (List.replicate 16 0x41)]) = ([], h') ∧
      calcAck 7 ∈ h'.link.tx ∧ List.replicate 16 0x41 ∉ h'.inFlight := by
  constructor
  · exact ⟨_, rfl, by decide, by decide⟩
  · exact ⟨_, rfl, by decide +kernel, by decide +kernel⟩

/-! ## Runs over packets -/

section Packets

variable {h h' : NspHandle} {out : List (List UInt8)}

theorem NspHandle.Yields.noted (hy : h.Yields out h') (seq seqPc : UInt8) :
    h.Yields out { h' with seq := seq, seqPc := seqPc } where
  frame := by rw [hy.frame]
  fault := hy.fault
  received := hy.received
  backlog := hy.backlog

/-- A packet that came alone in a message is returned as it was sent. -/
theorem exec_nspRecvNnseLoop_packet {pkt : NSPRawPacket} (fuel : Nat)
    (hrecv : Proc.exec (nspNnseRecvStream nspNnseMaxPayload) h = (.ok pkt.bytes, h'))
    (hport : h'.portMatches pkt.dstPort = true) :
    ∃ seq seqPc, Proc.exec (nspRecvNnseLoop (fuel + 1)) h =
      (.ok pkt, { h' with seq := seq, seqPc := seqPc }) := by
  have hlen : ¬ pkt.bytes.length < nspHeaderSize := by
    rw [length_bytes]
    omega
  have hbyte : pkt.bytes.getD 12 0 = UInt8.ofNat pkt.data.length := getD_header_12 pkt pkt.data
  have hsize : (pkt.bytes.getD 12 0).toNat = pkt.data.length := by rw [hbyte, toNat_dataSize]
  have hshort : ¬ pkt.bytes.getD 12 0 = 0xFF := by
    intro hext
    have hfits := pkt.fits
    rw [← hsize, hext] at hfits
    contradiction
  have hdata : (pkt.bytes.drop nspHeaderSize).take (pkt.bytes.getD 12 0).toNat = pkt.data := by
    rw [hsize, NSPRawPacket.bytes, List.drop_left' (length_header pkt), List.take_length]
  have hread : nspReadPacket pkt.bytes pkt.data pkt.fits = pkt := nspReadPacket_header pkt pkt.data
  have hdst : getWord pkt.bytes 8 = pkt.dstPort := congrArg NSPRawPacket.dstPort hread
  obtain ⟨seq, seqPc, hnote⟩ := exec_nspNoteSequence h' (getWord pkt.bytes 4)
    (pkt.bytes.getD 14 0)
  refine ⟨seq, seqPc, ?_⟩
  rw [nspRecvNnseLoop, Proc.exec_bind_ok hrecv, Proc.exec_bind_ok (Proc.exec_get _)]
  simp only [hdata]
  rw [if_neg hlen, hdst, if_neg (not_not.mpr hport), if_neg hshort,
    if_neg (by rw [hsize, length_bytes]; omega), dif_pos pkt.fits, Proc.exec_bind_ok hnote, hread,
    Proc.exec_pure]

/-- A receive returns the first packet in flight, if it returns one. -/
theorem exec_nspRecv_nnse {sent : List NSPRawPacket} (ha : h.Associated)
    (hsent : h.inFlight = sent.map NSPRawPacket.bytes) :
    ∃ r h' rest, Proc.exec nspRecv h = (r, h') ∧ sent = r.toOption.toList ++ rest ∧
      h.Yields (r.toOption.toList.map NSPRawPacket.bytes) h' ∧
      (0 < h.backlog → h'.backlog < h.backlog) := by
  obtain ⟨r, h', hrecv, hyields, hprogress⟩ := exec_nspNnseRecvStream ha
  have hflight := hyields.inFlight
  rw [hsent] at hflight
  have hcall : Proc.exec nspRecv h =
      Proc.exec (nspRecvNnseLoop (h.pending.length + h.link.rx.length + 1)) h := by
    rw [nspRecv, Proc.exec_bind_ok (Proc.exec_get _), if_pos ha.mode]
  rw [hcall]
  cases r with
  | error e =>
      refine ⟨.error e, h', sent, ?_, rfl, hyields, hprogress⟩
      rw [nspRecvNnseLoop, Proc.exec_bind_error hrecv]
  | ok msg =>
      cases sent with
      | nil => contradiction
      | cons pkt sent =>
          have hmsg : pkt.bytes = msg := (List.cons.inj hflight).1
          subst hmsg
          have hcarried := (ha.carried pkt.bytes (by rw [hsent]; exact List.mem_cons_self)).2
          have hdst : getWord pkt.bytes 8 = pkt.dstPort :=
            congrArg NSPRawPacket.dstPort (nspReadPacket_header pkt pkt.data)
          have hlong : ¬ pkt.bytes.length < 16 := by
            rw [length_bytes, nspHeaderSize]
            omega
          have hport : h'.portMatches pkt.dstPort = true := by
            rw [hyields.frame]
            rw [NspHandle.streamIsForCurrentPort, decide_eq_false hlong, Bool.false_or, hdst]
              at hcarried
            exact hcarried
          obtain ⟨seq, seqPc, hloop⟩ := exec_nspRecvNnseLoop_packet _ hrecv hport
          exact ⟨.ok pkt, _, sent, hloop, rfl, hyields.noted seq seqPc, hprogress⟩

/-- Sending a packet delivers nothing. -/
theorem exec_nspSend_nnse (pkt : NSPRawPacket) (ha : h.Associated)
    (hroom : h.pending.length < nspNnseMaxPending) :
    ∃ r h', Proc.exec (nspSend pkt) h = (r, h') ∧ h.Yields [] h' := by
  rw [nspSend, Proc.exec_bind_ok (Proc.exec_get _)]
  split
  · exact ⟨_, h, rfl, .refl h⟩
  · have hseq : ∃ seq, Proc.exec (nspSendSequence pkt.srcPort) h = (.ok seq, h) := by
      rw [nspSendSequence, Proc.exec_bind_ok (Proc.exec_get _)]
      split
      · exact ⟨h.seq, rfl⟩
      · rw [if_pos ha.mode]
        exact ⟨0, rfl⟩
    obtain ⟨seq, hseq⟩ := hseq
    rw [Proc.exec_bind_ok hseq, if_pos ha.mode]
    exact exec_nspNnseSendStream _ ha hroom

end Packets

inductive NspOp
  | recv
  | send (pkt : NSPRawPacket)
  deriving DecidableEq

/-- One call, and the packet it returns. -/
def NspOp.step (op : NspOp) (h : NspHandle) : List NSPRawPacket × NspHandle :=
  match op with
  | .recv =>
      let (r, h') := Proc.exec nspRecv h
      (r.toOption.toList, h')
  | .send pkt => ([], (Proc.exec (nspSend pkt) h).2)

def NspOp.HasRoom (op : NspOp) (h : NspHandle) : Prop :=
  op ≠ .recv → h.pending.length < nspNnseMaxPending

/-- The handle waits for the packets `sent`, each alone in a message. -/
structure NspHandle.Awaits (h : NspHandle) (sent : List NSPRawPacket) : Prop where
  associated : h.Associated
  inFlight : h.inFlight = sent.map NSPRawPacket.bytes

def NspOp.Keeps (ops : List NspOp) (h : NspHandle) (out : List NSPRawPacket)
    (h' : NspHandle) : Prop :=
  h.Yields (out.map NSPRawPacket.bytes) h' ∧ h'.backlog ≤ h.backlog - ops.count .recv

theorem NspOp.keeps_step (op : NspOp) (h : NspHandle) (hinv : ∃ sent, h.Awaits sent)
    (hroom : op.HasRoom h) :
    NspOp.Keeps [op] h (op.step h).1 (op.step h).2 ∧ ∃ sent, (op.step h).2.Awaits sent := by
  obtain ⟨sent, ha, hsent⟩ := hinv
  cases op with
  | recv =>
      obtain ⟨r, h', rest, hrecv, hrest, hyields, hprogress⟩ := exec_nspRecv_nnse ha hsent
      have hstep : NspOp.recv.step h = (r.toOption.toList, h') := by rw [NspOp.step, hrecv]
      have hle := hyields.backlog
      have hflight := hyields.inFlight
      rw [hsent, hrest, List.map_append] at hflight
      rw [hstep]
      refine ⟨⟨hyields, ?_⟩, rest, hyields.associated ha, (List.append_cancel_left hflight).symm⟩
      show h'.backlog ≤ h.backlog - [NspOp.recv].count .recv
      rw [List.count_singleton_self]
      by_cases hmore : 0 < h.backlog
      · have hlt := hprogress hmore
        omega
      · omega
  | send pkt =>
      obtain ⟨r, h', hsend, hyields⟩ := exec_nspSend_nnse pkt ha (hroom (by simp))
      have hstep : (NspOp.send pkt).step h = ([], h') := by rw [NspOp.step, hsend]
      have hle := hyields.backlog
      rw [hstep]
      refine ⟨⟨hyields, ?_⟩, sent, hyields.associated ha, hyields.inFlight.symm.trans hsent⟩
      rw [List.count_singleton]
      simpa using hle

theorem bytes_injective : Function.Injective NSPRawPacket.bytes := by
  intro p q hbytes
  have hdata : p.data = q.data := by
    have hdrop := congrArg (List.drop nspHeaderSize) hbytes
    rwa [NSPRawPacket.bytes, NSPRawPacket.bytes, List.drop_left' (length_header p),
      List.drop_left' (length_header q)] at hdrop
  have hread : nspReadPacket p.bytes p.data p.fits = nspReadPacket q.bytes q.data q.fits := by
    simp only [hbytes, hdata]
  rwa [NSPRawPacket.bytes, NSPRawPacket.bytes, nspReadPacket_header, nspReadPacket_header]
    at hread

/-- A packet for the first port of a session. -/
def clientPacket (data : List UInt8) (fits : data.length ≤ nspDataSize) : NSPRawPacket :=
  ⟨0x54FD, nspDevAddr, 0x4060, nspSrcAddr, 0x8001, 0, 0, 1, 0, data, fits⟩

end Tilibs.Nsp
