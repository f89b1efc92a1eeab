import Tilibs.Dbus.Packet
import Tilibs.Lib.Frame

/-!
# Tilibs.Dbus.Busy

The busy flag of the handle while a packet is received (`dbus_pkt.cc`).

Every function takes the flag if it is free and gives it back behind its last
statement.  `dbus_recv` returns from the middle when it does not know a
command, and then keeps the flag it took (`dbusRecv_restores_iff`).
-/

namespace Tilibs.Dbus.Busy

open Tilibs.Lib Proc

/-! ## Error codes -/

def errAbort : Int := 256
def errChecksum : Int := 258
def errInvalidCmd : Int := 261
def errInvalidParameter : Int := 283

/-! ## The handle and its surroundings -/

/-- What the functions meet outside: the code of each read on the cable and the
bytes it delivers, the codes that the event hook returns if there is one, and
the cancel flag each time it is looked at. -/
structure Link where
  recv : Nat → Int × (Nat → UInt8)
  eventHook : Option (Nat → Int)
  cancel : Nat → Bool

/-- The busy flag of the handle, the variables of the caller, and how often
the surroundings have been asked. -/
structure RecvHandle where
  busy : Bool
  host : UInt8
  cmd : UInt8
  length : Nat
  data : Option (List UInt8)
  reads : Nat
  events : Nat
  polls : Nat

abbrev BusyProc := Proc RecvHandle Int

/-- Stop on a code other than 0. -/
def check (ret : Int) : BusyProc Unit := if ret = 0 then pure () else throw ret

/-- A code as the outcome of a call. -/
def codeOf (ret : Int) : Except Int Unit := if ret = 0 then .ok () else .error ret

/-- The code a procedure ends with. -/
def retOf : Except Int Unit → Int
  | .ok () => 0
  | .error e => e

/-! ## Taking the flag -/

/-- `SET_HANDLE_BUSY_IF_NECESSARY`, with the flag as it was. -/
def setHandleBusyIfNecessary : BusyProc Bool := do
  let busy := (← get).busy
  if busy = false then
    modify fun h => { h with busy := true }
    pure busy
  else pure busy

/-- `CLEAR_HANDLE_BUSY_IF_NECESSARY`. -/
def clearHandleBusyIfNecessary (busy : Bool) : BusyProc Unit :=
  if busy = false then modify fun h => { h with busy := false } else pure ()

theorem exec_setHandleBusyIfNecessary (s : RecvHandle) :
    exec setHandleBusyIfNecessary s = (.ok s.busy, { s with busy := true }) := by
  obtain ⟨busy, _, _, _, _, _, _, _⟩ := s
  cases busy <;> rfl

theorem exec_clearHandleBusyIfNecessary (busy : Bool) {s : RecvHandle} (h : s.busy = true) :
    exec (clearHandleBusyIfNecessary busy) s = (.ok (), { s with busy := busy }) := by
  obtain ⟨_, _, _, _, _, _, _, _⟩ := s
  cases h
  cases busy <;> rfl

/-- A body between the two. -/
abbrev whileBusy (body : BusyProc Unit) : BusyProc Unit :=
  bracket setHandleBusyIfNecessary clearHandleBusyIfNecessary body

/-! ## Receiving -/

section Receive

variable (link : Link)

def cableRecv (len : Nat) : BusyProc (List UInt8) := do
  let (ret, bytes) := link.recv (← get).reads
  modify fun h => { h with reads := h.reads + 1 }
  check ret
  pure ((List.range len).map bytes)

/-- The code after the `n`-th event: that of the hook, or without one the code
the event carries. -/
def Link.eventRet (n : Nat) (retval : Int) : Int :=
  match link.eventHook with
  | none => retval
  | some hook => hook n

def eventSend (retval : Int) : BusyProc Unit := do
  let n := (← get).events
  modify fun h => { h with events := h.events + 1 }
  check (link.eventRet n retval)

/-- A body between its two events; the code of the second one counts. -/
def withEvents (body : BusyProc Unit) : BusyProc Unit := do
  let ret ← attempt (do eventSend link 0; body)
  eventSend link (retOf ret)

def cancelPoint : BusyProc Unit := do
  let n := (← get).polls
  modify fun h => { h with polls := h.polls + 1 }
  if link.cancel n then throw errAbort else pure ()

/-- The reads of `dbus_recv_header`. -/
def readHeader : BusyProc Unit := do
  -- any packet has always at least 2 bytes
  let buf ← cableRecv link 2
  let host := buf.getD 0 0
  let cmd := buf.getD 1 0
  modify fun h => { h with host, cmd }
  if host ≠ dbusMidTi80Pc ∨ cmd = dbusCmdXdp then
    let buf ← cableRecv link 2
    modify fun h => { h with length := getLE buf }
  else modify fun h => { h with length := 0 }

def dbusRecvHeader : BusyProc Unit := whileBusy <| withEvents link <| readHeader link

/-- A chunk at its place in the caller's buffer. -/
def recvChunk (range : Nat × Nat) : BusyProc Unit := do
  let bytes ← cableRecv link range.2
  modify fun h => { h with data := h.data.map fun data => writeAt data range.1 bytes }

/-- The chunks of a packet; the transfer can be cancelled behind each but the
last one. -/
def recvRanges : List (Nat × Nat) → BusyProc Unit
  | [] => pure ()
  | [range] => recvChunk link range
  | range :: ranges => do
      recvChunk link range
      cancelPoint link
      recvRanges ranges

def dbusRecvData : BusyProc Unit := do
  match (← get).data with
  | none => throw errInvalidParameter
  | some _ =>
      whileBusy <| withEvents link do
        let length := (← get).length
        recvRanges link (dbusRecvRanges length)
        let buf ← cableRecv link 2
        cancelPoint link
        let data := (← get).data.getD []
        if getLE buf ≠ tifilesChecksum (data.take length) then throw errChecksum else pure ()

/-- What `dbus_recv` does behind a header, by its command. -/
def dbusRecvCmd (busy : Bool) : BusyProc Unit := do
  let cmd := (← get).cmd
  if cmd = dbusCmdErr ∨ cmd = dbusCmdErr2 then
    clearHandleBusyIfNecessary busy
    throw errChecksum
  else if dbusHasData cmd then
    let ret ← attempt (dbusRecvData link)
    clearHandleBusyIfNecessary busy
    Proc.ofExcept ret
  else if dbusHasNoData cmd then clearHandleBusyIfNecessary busy
  -- this returns: the flag is not given back
  else throw errInvalidCmd

/-- `pointers` says that the caller passed a place for host, command and
length. -/
def dbusRecv (pointers : Bool) : BusyProc Unit :=
  if pointers = false then throw errInvalidParameter
  else do
    let busy ← setHandleBusyIfNecessary
    match ← attempt (dbusRecvHeader link) with
    | .error e =>
        clearHandleBusyIfNecessary busy
        throw e
    | .ok () => dbusRecvCmd link busy

end Receive

/-! ## The subroutines give the flag back -/

section Keep

variable {link : Link}

theorem keeps_check (ret : Int) : Keeps RecvHandle.busy (check ret) :=
  within_ite (fun _ => within_pure ()) fun _ => within_throw ret

theorem keeps_cableRecv (len : Nat) : Keeps RecvHandle.busy (cableRecv link len) := by
  unfold cableRecv
  refine within_bind within_get fun h => ?_
  refine within_bind (within_modify fun _ => rfl) fun _ => ?_
  exact within_bind (keeps_check _) fun _ => within_pure _

theorem keeps_eventSend (retval : Int) : Keeps RecvHandle.busy (eventSend link retval) := by
  unfold eventSend
  refine within_bind within_get fun h => ?_
  exact within_bind (within_modify fun _ => rfl) fun _ => keeps_check _

theorem keeps_cancelPoint : Keeps RecvHandle.busy (cancelPoint link) := by
  unfold cancelPoint
  refine within_bind within_get fun h => ?_
  refine within_bind (within_modify fun _ => rfl) fun _ => ?_
  exact within_ite (fun _ => within_throw _) fun _ => within_pure ()

theorem keeps_withEvents {body : BusyProc Unit} (h : Keeps RecvHandle.busy body) :
    Keeps RecvHandle.busy (withEvents link body) := by
  unfold withEvents
  refine within_bind (within_attempt ?_) fun ret => keeps_eventSend _
  exact within_bind (keeps_eventSend 0) fun _ => h

/-- A body that leaves the flag alone can be run with it taken. -/
theorem keeps_whileBusy {body : BusyProc Unit} (h : Keeps RecvHandle.busy body) :
    Keeps RecvHandle.busy (whileBusy body) := by
  intro s
  refine exec_bracket (P := fun t => t.busy = s.busy) (exec_setHandleBusyIfNecessary s) h ?_
  intro u hu
  exact ⟨_, exec_clearHandleBusyIfNecessary s.busy hu, rfl⟩

theorem keeps_readHeader : Keeps RecvHandle.busy (readHeader link) := by
  refine within_bind (keeps_cableRecv 2) fun buf => ?_
  refine within_bind (within_modify fun _ => rfl) fun _ => ?_
  refine within_ite (fun _ => ?_) fun _ => ?_
  · exact within_bind (keeps_cableRecv 2) fun buf => within_modify fun _ => rfl
  · exact within_modify fun _ => rfl

theorem keeps_recvChunk (range : Nat × Nat) : Keeps RecvHandle.busy (recvChunk link range) :=
  within_bind (keeps_cableRecv _) fun _ => within_modify fun _ => rfl

theorem keeps_recvRanges (ranges : List (Nat × Nat)) :
    Keeps RecvHandle.busy (recvRanges link ranges) := by
  fun_induction recvRanges link ranges with
  | case1 => exact within_pure ()
  | case2 range => exact keeps_recvChunk range
  | case3 range ranges _ ih =>
      exact within_bind (keeps_recvChunk range) fun _ =>
        within_bind keeps_cancelPoint fun _ => ih

theorem keeps_dbusRecvData : Keeps RecvHandle.busy (dbusRecvData link) := by
  refine within_bind within_get fun h => ?_
  cases h.data with
  | none => exact within_throw errInvalidParameter
  | some _ =>
      apply keeps_whileBusy
      apply keeps_withEvents
      refine within_bind within_get fun h => ?_
      refine within_bind (keeps_recvRanges _) fun _ => ?_
      refine within_bind (keeps_cableRecv 2) fun buf => ?_
      refine within_bind keeps_cancelPoint fun _ => ?_
      refine within_bind within_get fun t => ?_
      exact within_ite (fun _ => within_throw _) fun _ => within_pure ()

end Keep

/-! ## The command that arrives -/

section Command

variable (link : Link)

/-- The code of the reads of a header, and the caller's command behind them. -/
def headerRead (s : RecvHandle) : Int × UInt8 :=
  let (ret, bytes) := link.recv s.reads
  if ret ≠ 0 then (ret, s.cmd)
  else if bytes 0 ≠ dbusMidTi80Pc ∨ bytes 1 = dbusCmdXdp then
    ((link.recv (s.reads + 1)).1, bytes 1)
  else (0, bytes 1)

/-- The same for the whole function, before its last event. -/
def headerOutcome (s : RecvHandle) : Int × UInt8 :=
  if link.eventRet s.events 0 ≠ 0 then (link.eventRet s.events 0, s.cmd) else headerRead link s

/-- The command that a header delivers, if it is received: the reads and the
hook decide.  A hook can turn an error into success, with the command that the
caller's variable held. -/
def receivedCmd (s : RecvHandle) : Option UInt8 :=
  if link.eventRet (s.events + 1) (headerOutcome link s).1 = 0 then some (headerOutcome link s).2
  else none

/-- A command that `dbus_recv` does not know. -/
def UnknownCmd (cmd : UInt8) : Prop :=
  ¬(cmd = dbusCmdErr ∨ cmd = dbusCmdErr2) ∧ dbusHasData cmd = false ∧ dbusHasNoData cmd = false

end Command

section Run

variable {link : Link}

theorem exec_check (ret : Int) (s : RecvHandle) : exec (check ret) s = (codeOf ret, s) := by
  unfold check codeOf
  split <;> rfl

theorem exec_cableRecv (len : Nat) (s : RecvHandle) :
    exec (cableRecv link len) s
      = ((codeOf (link.recv s.reads).1).map fun _ => (List.range len).map (link.recv s.reads).2,
        { s with reads := s.reads + 1 }) := by
  have hcheck := exec_check (link.recv s.reads).1 { s with reads := s.reads + 1 }
  unfold cableRecv
  rw [exec_bind_ok (exec_get s)]
  dsimp only
  rw [exec_bind_ok (exec_modify _ s)]
  cases hret : codeOf (link.recv s.reads).1 with
  | ok =>
      rw [hret] at hcheck
      rw [exec_bind_ok hcheck]
      rfl
  | error e =>
      rw [hret] at hcheck
      rw [exec_bind_error hcheck]
      rfl

theorem exec_eventSend (retval : Int) (s : RecvHandle) :
    exec (eventSend link retval) s
      = (codeOf (link.eventRet s.events retval), { s with events := s.events + 1 }) := by
  unfold eventSend
  rw [exec_bind_ok (exec_get s), exec_bind_ok (exec_modify _ s), exec_check]

theorem headerRead_of_error {s : RecvHandle} (h : (link.recv s.reads).1 ≠ 0) :
    headerRead link s = ((link.recv s.reads).1, s.cmd) := by
  unfold headerRead
  exact if_pos h

theorem headerRead_of_ok {s : RecvHandle} (h : (link.recv s.reads).1 = 0) :
    headerRead link s =
      if (link.recv s.reads).2 0 ≠ dbusMidTi80Pc ∨ (link.recv s.reads).2 1 = dbusCmdXdp then
        ((link.recv (s.reads + 1)).1, (link.recv s.reads).2 1)
      else (0, (link.recv s.reads).2 1) := by
  unfold headerRead
  exact if_neg (not_not.mpr h)

/-- The reads of a header, with the code and the command they end with. -/
theorem exec_readHeader (s : RecvHandle) :
    ∃ t, exec (readHeader link) s = (codeOf (headerRead link s).1, t)
      ∧ t.cmd = (headerRead link s).2 ∧ t.events = s.events := by
  have hfirst := @exec_cableRecv link 2 s
  unfold readHeader
  by_cases hret : (link.recv s.reads).1 = 0
  · rw [headerRead_of_ok hret]
    rw [hret] at hfirst
    rw [exec_bind_ok hfirst]
    have hhost : ((List.range 2).map (link.recv s.reads).2).getD 0 0 = (link.recv s.reads).2 0 :=
      rfl
    have hcmd : ((List.range 2).map (link.recv s.reads).2).getD 1 0 = (link.recv s.reads).2 1 :=
      rfl
    dsimp only
    rw [exec_bind_ok (exec_modify _ _), hhost, hcmd]
    by_cases hlen : (link.recv s.reads).2 0 ≠ dbusMidTi80Pc ∨ (link.recv s.reads).2 1 = dbusCmdXdp
    · rw [if_pos hlen, if_pos hlen]
      have hsecond := @exec_cableRecv link 2
        { s with reads := s.reads + 1, host := (link.recv s.reads).2 0,
                 cmd := (link.recv s.reads).2 1 }
      cases hret' : codeOf (link.recv (s.reads + 1)).1 with
      | ok =>
          rw [hret'] at hsecond
          exact ⟨_, exec_bind_ok hsecond, rfl, rfl⟩
      | error e =>
          rw [hret'] at hsecond
          exact ⟨_, exec_bind_error hsecond, rfl, rfl⟩
    · rw [if_neg hlen, if_neg hlen]
      exact ⟨_, exec_modify _ _, rfl, rfl⟩
  · rw [headerRead_of_error hret]
    have herr : codeOf (link.recv s.reads).1 = .error (link.recv s.reads).1 := if_neg hret
    rw [herr] at hfirst ⊢
    exact ⟨_, exec_bind_error hfirst, rfl, rfl⟩

theorem retOf_codeOf (ret : Int) : retOf (codeOf ret) = ret := by
  unfold codeOf
  split
  · rename_i h
    exact h.symm
  · rfl

theorem exec_withEvents (s : RecvHandle) :
    ∃ t, exec (withEvents link (readHeader link)) s
        = (codeOf (link.eventRet (s.events + 1) (headerOutcome link s).1), t)
      ∧ t.cmd = (headerOutcome link s).2 := by
  have hopen := @exec_eventSend link 0 s
  unfold withEvents headerOutcome
  by_cases hret : link.eventRet s.events 0 = 0
  · obtain ⟨t, hread, hcmd, hevents⟩ := @exec_readHeader link
      { s with events := s.events + 1 }
    have hbody : exec (do eventSend link 0; readHeader link) s
        = (codeOf (headerRead link s).1, t) := by
      rw [hret] at hopen
      exact (exec_bind_ok hopen).trans hread
    have hclose := @exec_eventSend link (headerRead link s).1 t
    rw [hevents] at hclose
    rw [if_neg (not_not.mpr hret), exec_bind_ok (exec_attempt _ s), hbody, retOf_codeOf, hclose]
    exact ⟨_, rfl, hcmd⟩
  · have herr : codeOf (link.eventRet s.events 0) = .error (link.eventRet s.events 0) :=
      if_neg hret
    rw [herr] at hopen
    have hbody : exec (do eventSend link 0; readHeader link) s
        = (.error (link.eventRet s.events 0), { s with events := s.events + 1 }) :=
      exec_bind_error hopen
    have hclose := @exec_eventSend link (link.eventRet s.events 0)
      { s with events := s.events + 1 }
    rw [if_pos hret, exec_bind_ok (exec_attempt _ s), hbody, retOf, hclose]
    exact ⟨_, rfl, rfl⟩

/-- A header is received exactly when there is a received command, and
leaves the busy flag as it was. -/
theorem exec_dbusRecvHeader (s : RecvHandle) :
    ∃ t, exec (dbusRecvHeader link) s
        = (codeOf (link.eventRet (s.events + 1) (headerOutcome link s).1), t)
      ∧ t.cmd = (headerOutcome link s).2 ∧ t.busy = s.busy := by
  obtain ⟨t, hrun, hcmd⟩ := @exec_withEvents link { s with busy := true }
  have hbusy : t.busy = true := by
    have hkeep := (keeps_withEvents keeps_readHeader : Keeps RecvHandle.busy
      (withEvents link (readHeader link))) { s with busy := true }
    rw [hrun] at hkeep
    exact hkeep
  refine ⟨{ t with busy := s.busy }, ?_, hcmd, rfl⟩
  unfold dbusRecvHeader whileBusy bracket
  rw [exec_bind_ok (exec_setHandleBusyIfNecessary s), exec_bind_ok (exec_attempt _ _), hrun,
    exec_bind_ok (exec_clearHandleBusyIfNecessary s.busy hbusy), exec_ofExcept]
  rfl

theorem busy_dbusRecvCmd {busy : Bool} {t : RecvHandle} (hbusy : t.busy = true) :
    (UnknownCmd t.cmd → (exec (dbusRecvCmd link busy) t).2.busy = true)
      ∧ (¬UnknownCmd t.cmd → (exec (dbusRecvCmd link busy) t).2.busy = busy) := by
  have hclear := exec_clearHandleBusyIfNecessary busy hbusy
  unfold dbusRecvCmd UnknownCmd
  rw [exec_bind_ok (exec_get t)]
  dsimp only
  by_cases herr : t.cmd = dbusCmdErr ∨ t.cmd = dbusCmdErr2
  · rw [if_pos herr, exec_bind_ok hclear]
    exact ⟨fun h => absurd herr h.1, fun _ => rfl⟩
  · rw [if_neg herr]
    cases hdata : dbusHasData t.cmd with
    | true =>
        have hkeep : (exec (dbusRecvData link) t).2.busy = true :=
          (keeps_dbusRecvData t).trans hbusy
        rw [if_pos rfl, exec_bind_ok (exec_attempt _ t),
          exec_bind_ok (exec_clearHandleBusyIfNecessary busy hkeep), exec_ofExcept]
        exact ⟨fun h => absurd h.2.1 (by decide), fun _ => rfl⟩
    | false =>
        rw [if_neg (by decide)]
        cases hnone : dbusHasNoData t.cmd with
        | true =>
            rw [if_pos rfl, hclear]
            exact ⟨fun h => absurd h.2.2 (by decide), fun _ => rfl⟩
        | false =>
            rw [if_neg (by decide)]
            exact ⟨fun _ => hbusy, fun h => absurd ⟨herr, rfl, rfl⟩ h⟩

/-- Where `dbus_recv` returns from the middle: a header is received, with a
command that it does not know. -/
def StopsOnUnknown (link : Link) (pointers : Bool) (s : RecvHandle) : Prop :=
  pointers = true ∧ ∃ cmd, receivedCmd link s = some cmd ∧ UnknownCmd cmd

/-- The flag behind `dbus_recv`: taken, or as it was. -/
theorem busy_dbusRecv (pointers : Bool) (s : RecvHandle) :
    (StopsOnUnknown link pointers s → (exec (dbusRecv link pointers) s).2.busy = true)
      ∧ (¬StopsOnUnknown link pointers s →
        (exec (dbusRecv link pointers) s).2.busy = s.busy) := by
  unfold dbusRecv StopsOnUnknown
  cases pointers with
  | false => simp
  | true =>
      obtain ⟨t, hheader, hcmd, hbusy⟩ := @exec_dbusRecvHeader link
        { s with busy := true }
      have hreceived : receivedCmd link s
          = if link.eventRet (s.events + 1) (headerOutcome link s).1 = 0 then some t.cmd
            else none := by
        rw [hcmd]
        rfl
      change exec (dbusRecvHeader link) { s with busy := true }
        = (codeOf (link.eventRet (s.events + 1) (headerOutcome link s).1), t) at hheader
      rw [if_neg (by decide), exec_bind_ok (exec_setHandleBusyIfNecessary s),
        exec_bind_ok (exec_attempt _ _), hheader, hreceived]
      by_cases hret : link.eventRet (s.events + 1) (headerOutcome link s).1 = 0
      · rw [hret, if_pos rfl]
        simp only [Option.some.injEq, true_and, exists_eq_left']
        exact busy_dbusRecvCmd hbusy
      · have herr : codeOf (link.eventRet (s.events + 1) (headerOutcome link s).1)
            = .error (link.eventRet (s.events + 1) (headerOutcome link s).1) := if_neg hret
        have hclear := exec_clearHandleBusyIfNecessary s.busy hbusy
        rw [if_neg hret, herr]
        dsimp only
        rw [exec_bind_ok hclear]
        simp

end Run

/-- The flag is given back unless `dbus_recv` took it and stops at a command
that it does not know; so it is clear on return exactly when it was clear on
entry and no such command came. -/
theorem dbusRecv_restores_iff (link : Link) (pointers : Bool) (s : RecvHandle) :
    ((exec (dbusRecv link pointers) s).2.busy = s.busy
        ↔ ¬(s.busy = false ∧ StopsOnUnknown link pointers s))
      ∧ ((exec (dbusRecv link pointers) s).2.busy = false
        ↔ s.busy = false ∧ ¬StopsOnUnknown link pointers s) := by
  obtain ⟨hstops, hreturns⟩ := @busy_dbusRecv link pointers s
  by_cases hunknown : StopsOnUnknown link pointers s
  · rw [hstops hunknown]
    cases s.busy <;> simp [hunknown]
  · rw [hreturns hunknown]
    simp [hunknown]

/-- A header with the command 0 leaves the flag taken. -/
theorem dbusRecv_keeps_busy :
    ∃ (link : Link) (s : RecvHandle), s.busy = false
      ∧ (exec (dbusRecv link true) s).2.busy = true := by
  refine ⟨⟨fun _ => (0, fun _ => 0), none, fun _ => false⟩, ⟨false, 0, 0, 0, none, 0, 0, 0⟩, rfl,
    ?_⟩
  exact (busy_dbusRecv true _).1 ⟨rfl, 0, by decide, by unfold UnknownCmd; decide⟩

end Tilibs.Dbus.Busy
