import Tilibs.Evo.Packet

/-!
# Tilibs.Evo.Get

The GET exchange of the TI-84 Evo (`evo_get_request`): six packets announce
the request, then the calculator sends its own S, F, A, D, Z and B packets,
each of which is acknowledged and, when the acknowledgement is lost, sent
again.

A repeated packet carries the sequence number of the one before it, a new one
its successor modulo 64, so repetitions are told apart without a window.  The
code gives up at the fourth repetition of one packet.
-/

namespace Tilibs.Evo

open Tilibs.Lib

/-! ## Constants -/

def evoMaxGetPayloadLen : Nat := 128 * 2 ^ 20
def evoMaxGetEncodedLen : Nat := evoMaxGetPayloadLen * 2

def evoSinit : List UInt8 :=
  [0x7e, 0x30, 0x20, 0x40, 0x2d, 0x23, 0x59, 0x31, 0x7e, 0x2e, 0x22, 0x35, 0x4d]

/-! ## Sending a packet -/

/-- One transmission's replies: `none` when it has to be sent again. -/
def evoAwaitAck (session : EvoKermitSession) (seq : Nat) (type : UInt8) :
    Nat → EvoProc (Option EvoKermitSession)
  | 0 => pure none
  | responses + 1 => do
      let raw ← evoRecvRaw
      let (rseq, rtype, rdata) ← Proc.ofExcept (evoParsePacket session raw)
      if rtype = 'Y'.toUInt8 ∧ rseq = seq % evoSeqMod then
        pure (some (if type = 'S'.toUInt8 then evoSessionUpdateFromSinit session rdata else session))
      else if rtype = 'E'.toUInt8 then throw (.calcError rdata)
      else if rtype = 'Y'.toUInt8 then evoAwaitAck session seq type responses
      else pure none

def evoSendAttempts (session : EvoKermitSession) (seq : Nat) (type : UInt8) (data : List UInt8) :
    Nat → EvoProc EvoKermitSession
  | 0 => throw .nack
  | attempts + 1 => do
      cableSend (evoMakePacket session seq type data)
      match ← evoAwaitAck session seq type 3 with
      | some session => pure session
      | none => evoSendAttempts session seq type data attempts

/-- Send a packet until it is acknowledged; an S packet's reply updates the
session. -/
def evoSendPacket (session : EvoKermitSession) (seq : Nat) (type : UInt8) (data : List UInt8) :
    EvoProc EvoKermitSession :=
  evoSendAttempts session seq type data 3

def evoAck (session : EvoKermitSession) (seq : Nat) (data : List UInt8) : EvoProc Unit :=
  cableSend (evoMakePacket session seq 'Y'.toUInt8 data)

/-! ## The request -/

def evoFileAttr (tag : Char) (value : List UInt8) : List UInt8 :=
  tag.toUInt8 :: tochar value.length :: value

def evoGetAttrs : List UInt8 :=
  evoFileAttr '"' ['B'.toUInt8, '8'.toUInt8] ++ evoFileAttr '1' ['1'.toUInt8] ++ evoFileAttr '@' []

/-- The request proper: everything `evo_get_request` sends before it listens. -/
def evoGetOpen (url : List UInt8) : EvoProc EvoKermitSession := do
  let session ← evoSendPacket evoSessionInit 0 'S'.toUInt8 evoSinit
  let session ← evoSendPacket session 1 'F'.toUInt8 url
  let session ← evoSendPacket session 2 'A'.toUInt8 evoGetAttrs
  let session ← evoSendPacket session 3 'D'.toUInt8 [0x68]
  let session ← evoSendPacket session 4 'Z'.toUInt8 []
  evoSendPacket session 5 'B'.toUInt8 []

/-! ## The reply -/

inductive EvoKermitSequenceState
  | current
  | duplicate
  | unexpected
  deriving DecidableEq, Repr

/-- What a received sequence number says, given the one before it if any. -/
def evoKermitSequenceState (previous : Option Nat) (received : Nat) : EvoKermitSequenceState :=
  match previous with
  | none => .current
  | some previous =>
      if received = (previous + 1) % evoSeqMod then .current
      else if received = previous then .duplicate
      else .unexpected

def evoKermitDuplicateRetryAllowed (duplicateCount : Nat) : Bool :=
  duplicateCount ≤ evoMaxDuplicatePackets

/-- What the receive loop keeps between two packets. -/
structure EvoGet where
  previous : Option Nat
  duplicateCount : Nat
  chunks : List UInt8
  deriving DecidableEq, Repr

def EvoGet.init : EvoGet := ⟨none, 0, []⟩

/-- How a turn of the receive loop ends: with the result of the request, or
with another turn. -/
inductive EvoGetTurn
  | stop (result : Except EvoErr (List UInt8))
  | next (get : EvoGet)

/-- The turn of the receive loop once its packet has been acknowledged. -/
def EvoGet.accept (get : EvoGet) (session : EvoKermitSession) (rseq : Nat) (rtype : UInt8)
    (rdata : List UInt8) : EvoGetTurn :=
  if evoKermitSequenceState get.previous rseq = .duplicate then
    if evoKermitDuplicateRetryAllowed (get.duplicateCount + 1) then
      .next { get with duplicateCount := get.duplicateCount + 1 }
    else .stop (.error .nack)
  else
    let get := { get with previous := some rseq, duplicateCount := 0 }
    if rtype = 'E'.toUInt8 then .stop (.error (.calcError rdata))
    else if rtype = 'D'.toUInt8 then
      if evoKermitSizeWithinLimit get.chunks.length rdata.length evoMaxGetEncodedLen then
        .next { get with chunks := get.chunks ++ rdata }
      else .stop (.error .invalidPacket)
    else if rtype = 'B'.toUInt8 then
      .stop ((evoDecode [] get.chunks (some session) evoMaxGetPayloadLen).map Prod.fst)
    else .next get

/-- The receive loop; every turn takes at least one byte off the cable or
stops, so `fuel` is one more than the bytes that arrive. -/
def evoGetLoop (session : EvoKermitSession) : Nat → EvoGet → EvoProc (List UInt8)
  | 0, _ => throw .readTimeout
  | fuel + 1, get => do
      let raw ← evoRecvRaw
      let (rseq, rtype, rdata) ← Proc.ofExcept (evoParsePacket session raw)
      if evoKermitSequenceState get.previous rseq = .unexpected then throw .invalidPacket
      else
        evoAck session rseq (if rtype = 'S'.toUInt8 then rdata else [])
        match get.accept session rseq rtype rdata with
        | .stop result => Proc.ofExcept result
        | .next get => evoGetLoop session fuel get

/-- Fetch the object behind `url` from the calculator. -/
def evoGetRequest (url : List UInt8) : EvoProc (List UInt8) := do
  let session ← evoGetOpen url
  let port ← get
  evoGetLoop session (port.rx.length + 1) EvoGet.init

/-! ## What the calculator delivers -/

/-- A packet of the calculator and how many more times than once it arrives. -/
structure Delivery where
  type : UInt8
  data : List UInt8
  again : Nat
  deriving DecidableEq, Repr

/-- The bytes of a delivery whose first packet has sequence number `seq`. -/
def deliveries (session : EvoKermitSession) : Nat → List Delivery → List UInt8
  | _, [] => []
  | seq, d :: ds =>
      (List.replicate (d.again + 1) (evoMakePacket session seq d.type d.data)).flatten ++
        deliveries session (seq + 1) ds

/-- The data of the D packets, each counted once. -/
def deliveredData (ds : List Delivery) : List UInt8 :=
  (ds.filter (·.type = 'D'.toUInt8)).flatMap Delivery.data

/-- A packet that fits the extended length, neither ends the reply nor reports
an error, and is not repeated more often than the code allows. -/
structure Delivery.Accepted (session : EvoKermitSession) (d : Delivery) : Prop where
  notError : d.type ≠ 'E'.toUInt8
  notBreak : d.type ≠ 'B'.toUInt8
  fits : d.data.length + session.checkType.size ≤ evoMaxPacketLen
  again : d.again ≤ evoMaxDuplicatePackets

theorem deliveredData_cons (d : Delivery) (ds : List Delivery) :
    deliveredData (d :: ds) =
      (if d.type = 'D'.toUInt8 then d.data else []) ++ deliveredData ds := by
  by_cases h : d.type = 'D'.toUInt8 <;> simp [deliveredData, h]

/-! ## One packet -/

/-- What goes out for one received packet. -/
def evoAckBytes (session : EvoKermitSession) (seq : Nat) (type : UInt8) (data : List UInt8) :
    List UInt8 :=
  let pkt := evoMakePacket session (seq % evoSeqMod) 'Y'.toUInt8
    (if type = 'S'.toUInt8 then data else [])
  pkt.take (pkt.length % 2 ^ 32)

section Turn

variable {session : EvoKermitSession} {seq fuel : Nat} {type : UInt8} {data rest : List UInt8}
  {st : EvoGet}

/-- A packet that is not out of sequence is acknowledged, then decides the
turn. -/
theorem exec_evoGetLoop_packet (tx : List UInt8)
    (hlen : data.length + session.checkType.size ≤ evoMaxPacketLen)
    (hseq : evoKermitSequenceState st.previous (seq % evoSeqMod) ≠ .unexpected) :
    Proc.exec (evoGetLoop session (fuel + 1) st)
        ⟨evoMakePacket session seq type data ++ rest, tx, none⟩ =
      match st.accept session (seq % evoSeqMod) type data with
      | .stop result => (result, ⟨rest, tx ++ evoAckBytes session seq type data, none⟩)
      | .next st' => Proc.exec (evoGetLoop session fuel st')
          ⟨rest, tx ++ evoAckBytes session seq type data, none⟩ := by
  have hrecv := exec_evoRecvRaw rest tx none seq type data (List.forall_mem_nil _) hlen
  rw [List.nil_append] at hrecv
  rw [evoGetLoop, Proc.exec_bind_ok hrecv]
  simp only [evoParsePacket_evoMakePacket, Proc.exec_bind, Proc.exec_ofExcept, hseq,
    if_false, evoAck, exec_cableSend, evoAckBytes]
  cases st.accept session (seq % evoSeqMod) type data <;> simp

end Turn

/-! ## Sequence numbers -/

/-- The loop has seen the packet before number `seq`, or none at all. -/
def EvoGet.Expects (get : EvoGet) (seq : Nat) : Prop :=
  get.previous = none ∨ ∃ p, get.previous = some (p % evoSeqMod) ∧ seq = p + 1

theorem expects_init (seq : Nat) : EvoGet.init.Expects seq := .inl rfl

theorem evoKermitSequenceState_current {st : EvoGet} {seq : Nat} (h : st.Expects seq) :
    evoKermitSequenceState st.previous (seq % evoSeqMod) = .current := by
  rcases h with h | ⟨p, h, rfl⟩
  · simp [evoKermitSequenceState, h]
  · simp [evoKermitSequenceState, h, Nat.add_mod]

theorem evoKermitSequenceState_duplicate (seq : Nat) :
    evoKermitSequenceState (some (seq % evoSeqMod)) (seq % evoSeqMod) = .duplicate := by
  have hne : seq % evoSeqMod ≠ (seq + 1) % evoSeqMod := by
    simp only [evoSeqMod]; omega
  simp [evoKermitSequenceState, hne]

/-! ## The reply packet by packet -/

section Deliver

variable {session : EvoKermitSession} {seq : Nat} (fuel : Nat) (rest : List UInt8) (st : EvoGet)

/-- Repetitions only count themselves, while the code allows them. -/
theorem exec_evoGetLoop_again (type : UInt8) (data : List UInt8) (k : Nat) (tx : List UInt8)
    (hlen : data.length + session.checkType.size ≤ evoMaxPacketLen)
    (hprevious : st.previous = some (seq % evoSeqMod))
    (hcount : st.duplicateCount + k ≤ evoMaxDuplicatePackets) :
    ∃ tx', Proc.exec (evoGetLoop session (fuel + k) st)
        ⟨(List.replicate k (evoMakePacket session seq type data)).flatten ++ rest, tx, none⟩ =
      Proc.exec (evoGetLoop session fuel { st with duplicateCount := st.duplicateCount + k })
        ⟨rest, tx', none⟩ := by
  induction k generalizing st tx with
  | zero => exact ⟨tx, rfl⟩
  | succ k ih =>
      have hdup : evoKermitSequenceState st.previous (seq % evoSeqMod) = .duplicate := by
        rw [hprevious, evoKermitSequenceState_duplicate]
      have hallowed : evoKermitDuplicateRetryAllowed (st.duplicateCount + 1) = true := by
        simp [evoKermitDuplicateRetryAllowed]; omega
      obtain ⟨tx', h⟩ := ih { st with duplicateCount := st.duplicateCount + 1 }
        (tx ++ evoAckBytes session seq type data) hprevious (by simp only; omega)
      refine ⟨tx', ?_⟩
      rw [List.replicate_succ, List.flatten_cons, List.append_assoc, ← Nat.add_assoc,
        exec_evoGetLoop_packet tx hlen (by simp [hdup])]
      simp only [EvoGet.accept, hdup, hallowed, if_true]
      rw [h, Nat.add_right_comm, Nat.add_assoc]

/-- A delivery adds the data of a D packet once, however often it arrives. -/
theorem exec_evoGetLoop_delivery {d : Delivery} (tx : List UInt8) (hd : d.Accepted session)
    (hst : st.Expects seq)
    (hsize : st.chunks.length + (deliveredData [d]).length ≤ evoMaxGetEncodedLen) :
    ∃ tx', Proc.exec (evoGetLoop session (fuel + (d.again + 1)) st)
        ⟨(List.replicate (d.again + 1) (evoMakePacket session seq d.type d.data)).flatten ++ rest,
          tx, none⟩ =
      Proc.exec (evoGetLoop session fuel
          ⟨some (seq % evoSeqMod), d.again, st.chunks ++ deliveredData [d]⟩)
        ⟨rest, tx', none⟩ := by
  have hcurrent := evoKermitSequenceState_current hst
  have haccept : st.accept session (seq % evoSeqMod) d.type d.data =
      .next ⟨some (seq % evoSeqMod), 0, st.chunks ++ deliveredData [d]⟩ := by
    rw [deliveredData_cons] at hsize ⊢
    by_cases hD : d.type = 'D'.toUInt8
    · have hfit : evoKermitSizeWithinLimit st.chunks.length d.data.length evoMaxGetEncodedLen := by
        simp [hD, deliveredData] at hsize
        simp [evoKermitSizeWithinLimit]
        omega
      have hE : 'D'.toUInt8 ≠ 'E'.toUInt8 := by decide
      simp [EvoGet.accept, hcurrent, hD, hE, hfit, deliveredData]
    · simp [EvoGet.accept, hcurrent, hD, hd.notError, hd.notBreak, deliveredData]
  obtain ⟨tx', h⟩ := exec_evoGetLoop_again fuel rest
    ⟨some (seq % evoSeqMod), 0, st.chunks ++ deliveredData [d]⟩ d.type d.data d.again
    (tx ++ evoAckBytes session seq d.type d.data) hd.fits rfl (by simpa using hd.again)
  refine ⟨tx', ?_⟩
  rw [List.replicate_succ, List.flatten_cons, List.append_assoc, ← Nat.add_assoc,
    exec_evoGetLoop_packet tx hd.fits (by simp [hcurrent]), haccept]
  simpa using h

/-- How many packets arrive in all. -/
def arrivals (ds : List Delivery) : Nat := (ds.map (·.again + 1)).sum

/-- A whole run of deliveries: the loop ends up expecting the packet behind
them, with the data of their D packets behind what it held. -/
theorem exec_evoGetLoop_deliveries {ds : List Delivery} (tx : List UInt8)
    (hds : ∀ d ∈ ds, d.Accepted session) (hst : st.Expects seq)
    (hsize : st.chunks.length + (deliveredData ds).length ≤ evoMaxGetEncodedLen) :
    ∃ st' tx', st'.Expects (seq + ds.length) ∧ st'.chunks = st.chunks ++ deliveredData ds ∧
      Proc.exec (evoGetLoop session (fuel + arrivals ds) st)
          ⟨deliveries session seq ds ++ rest, tx, none⟩ =
        Proc.exec (evoGetLoop session fuel st') ⟨rest, tx', none⟩ := by
  induction ds generalizing seq st tx with
  | nil => exact ⟨st, tx, hst, by simp [deliveredData], rfl⟩
  | cons d ds ih =>
      have hdata : deliveredData (d :: ds) = deliveredData [d] ++ deliveredData ds := by
        rw [deliveredData_cons, deliveredData_cons d []]
        simp [deliveredData]
      rw [hdata, List.length_append] at hsize
      obtain ⟨tx₁, hfirst⟩ := exec_evoGetLoop_delivery (fuel + arrivals ds)
        (deliveries session (seq + 1) ds ++ rest) st tx (hds d (by simp)) hst (by omega)
      obtain ⟨st', tx', hexpects, hchunks, hrest⟩ := ih
        ⟨some (seq % evoSeqMod), d.again, st.chunks ++ deliveredData [d]⟩ tx₁
        (fun e he => hds e (by simp [he])) (.inr ⟨seq, rfl, rfl⟩)
        (by simp only [List.length_append]; omega)
      refine ⟨st', tx', ?_, ?_, ?_⟩
      · simpa [Nat.add_assoc, Nat.add_comm 1] using hexpects
      · rw [hchunks, hdata, List.append_assoc]
      · have hfuel : fuel + arrivals (d :: ds) = fuel + arrivals ds + (d.again + 1) := by
          simp [arrivals]; omega
        rw [hfuel, deliveries, List.append_assoc, hfirst, hrest]

/-- Every packet that arrives has at least one byte. -/
theorem arrivals_le_length (session : EvoKermitSession) (seq : Nat) (ds : List Delivery) :
    arrivals ds ≤ (deliveries session seq ds).length := by
  induction ds generalizing seq with
  | nil => simp [arrivals]
  | cons d ds ih =>
      have hpacket : 1 ≤ (evoMakePacket session seq d.type d.data).length := by
        simp [evoMakePacket]
      have hcopies := Nat.mul_le_mul_left (d.again + 1) hpacket
      have hrest := ih (seq + 1)
      rw [arrivals, List.map_cons, List.sum_cons, ← arrivals, deliveries, List.length_append,
        List.length_flatten, List.map_replicate, List.sum_replicate, smul_eq_mul]
      omega

end Deliver

/-! ## The request is acknowledged -/

/-- A packet is sent once when its acknowledgement is the next packet in. -/
theorem exec_evoSendPacket_acked (session : EvoKermitSession) (seq : Nat) (type : UInt8)
    (data reply rest tx : List UInt8)
    (hreply : reply.length + session.checkType.size ≤ evoMaxPacketLen) :
    ∃ tx', Proc.exec (evoSendPacket session seq type data)
        ⟨evoMakePacket session seq 'Y'.toUInt8 reply ++ rest, tx, none⟩ =
      (.ok (if type = 'S'.toUInt8 then evoSessionUpdateFromSinit session reply else session),
        ⟨rest, tx', none⟩) := by
  refine ⟨tx ++ (evoMakePacket session seq type data).take
    ((evoMakePacket session seq type data).length % 2 ^ 32), ?_⟩
  have hrecv := exec_evoRecvRaw rest (tx ++ (evoMakePacket session seq type data).take
    ((evoMakePacket session seq type data).length % 2 ^ 32)) none seq 'Y'.toUInt8 reply
    (List.forall_mem_nil _) hreply
  rw [List.nil_append] at hrecv
  rw [evoSendPacket, evoSendAttempts, Proc.exec_bind_ok (exec_cableSend _ _ _), Proc.exec_bind,
    evoAwaitAck, Proc.exec_bind_ok hrecv]
  simp [evoParsePacket_evoMakePacket, Proc.exec_bind]

/-- The acknowledgements of the six packets that open the request; the first
may carry parameters. -/
def evoOpenAcks (reply : List UInt8) : List UInt8 :=
  evoMakePacket evoSessionInit 0 'Y'.toUInt8 reply ++
    [1, 2, 3, 4, 5].flatMap fun seq =>
      evoMakePacket (evoSessionUpdateFromSinit evoSessionInit reply) seq 'Y'.toUInt8 []

/-- They leave the session with the parameters the first of them asks for. -/
theorem exec_evoGetOpen_acks (url reply rest : List UInt8)
    (hreply : reply.length + evoSessionInit.checkType.size ≤ evoMaxPacketLen) :
    ∃ tx, Proc.exec (evoGetOpen url) ⟨evoOpenAcks reply ++ rest, [], none⟩ =
      (.ok (evoSessionUpdateFromSinit evoSessionInit reply), ⟨rest, tx, none⟩) := by
  generalize hsession : evoSessionUpdateFromSinit evoSessionInit reply = session
  have hsize : session.checkType.size ≤ evoMaxPacketLen := by
    cases session.checkType <;> decide
  have hack (seq : Nat) (type : UInt8) (data rest tx : List UInt8) :=
    exec_evoSendPacket_acked session seq type data [] rest tx (by simpa using hsize)
  obtain ⟨tx₀, h₀⟩ := exec_evoSendPacket_acked evoSessionInit 0 'S'.toUInt8 evoSinit reply
    ([1, 2, 3, 4, 5].flatMap (fun seq => evoMakePacket session seq 'Y'.toUInt8 []) ++ rest)
    [] hreply
  obtain ⟨tx₁, h₁⟩ := hack 1 'F'.toUInt8 url
    ([2, 3, 4, 5].flatMap (fun seq => evoMakePacket session seq 'Y'.toUInt8 []) ++ rest) tx₀
  obtain ⟨tx₂, h₂⟩ := hack 2 'A'.toUInt8 evoGetAttrs
    ([3, 4, 5].flatMap (fun seq => evoMakePacket session seq 'Y'.toUInt8 []) ++ rest) tx₁
  obtain ⟨tx₃, h₃⟩ := hack 3 'D'.toUInt8 [0x68]
    ([4, 5].flatMap (fun seq => evoMakePacket session seq 'Y'.toUInt8 []) ++ rest) tx₂
  obtain ⟨tx₄, h₄⟩ := hack 4 'Z'.toUInt8 []
    ([5].flatMap (fun seq => evoMakePacket session seq 'Y'.toUInt8 []) ++ rest) tx₃
  obtain ⟨tx₅, h₅⟩ := hack 5 'B'.toUInt8 [] rest tx₄
  have hF : 'F'.toUInt8 ≠ 'S'.toUInt8 := by decide
  have hA : 'A'.toUInt8 ≠ 'S'.toUInt8 := by decide
  have hD : 'D'.toUInt8 ≠ 'S'.toUInt8 := by decide
  have hZ : 'Z'.toUInt8 ≠ 'S'.toUInt8 := by decide
  have hB : 'B'.toUInt8 ≠ 'S'.toUInt8 := by decide
  simp only [hF, hA, hD, hZ, hB, if_false, if_true, hsession, List.flatMap_cons,
    List.flatMap_nil, List.append_nil, List.append_assoc] at h₀ h₁ h₂ h₃ h₄ h₅
  refine ⟨tx₅, ?_⟩
  simp only [evoOpenAcks, hsession, List.flatMap_cons, List.flatMap_nil, List.append_nil,
    List.append_assoc]
  rw [evoGetOpen, Proc.exec_bind_ok h₀, Proc.exec_bind_ok h₁, Proc.exec_bind_ok h₂,
    Proc.exec_bind_ok h₃, Proc.exec_bind_ok h₄, h₅]

/-! ## The whole exchange -/

/-- The reply is the decoding of its D packets, each counted once. -/
theorem exec_evoGetLoop_reply {session : EvoKermitSession} {seq : Nat} {ds : List Delivery}
    {final : List UInt8} (rest tx : List UInt8) (hds : ∀ d ∈ ds, d.Accepted session)
    (hfinal : final.length + session.checkType.size ≤ evoMaxPacketLen)
    (hsize : (deliveredData ds).length ≤ evoMaxGetEncodedLen) :
    let rx := deliveries session seq ds ++
      (evoMakePacket session (seq + ds.length) 'B'.toUInt8 final ++ rest)
    (Proc.exec (evoGetLoop session (rx.length + 1) EvoGet.init) ⟨rx, tx, none⟩).1 =
      (evoDecode [] (deliveredData ds) (some session) evoMaxGetPayloadLen).map Prod.fst := by
  intro rx
  have hcount := arrivals_le_length session seq ds
  obtain ⟨fuel, hfuel⟩ : ∃ fuel, rx.length + 1 = fuel + 1 + arrivals ds := by
    obtain ⟨more, hmore⟩ := Nat.exists_eq_add_of_le hcount
    rw [List.length_append, hmore]
    exact ⟨more + (evoMakePacket session (seq + ds.length) 'B'.toUInt8 final ++ rest).length,
      by omega⟩
  obtain ⟨st, tx', hexpects, hchunks, hrun⟩ := exec_evoGetLoop_deliveries (fuel + 1)
    (evoMakePacket session (seq + ds.length) 'B'.toUInt8 final ++ rest) EvoGet.init tx hds
    (expects_init seq) (by simpa [EvoGet.init] using hsize)
  have hcurrent := evoKermitSequenceState_current hexpects
  have haccept : st.accept session ((seq + ds.length) % evoSeqMod) 'B'.toUInt8 final =
      .stop ((evoDecode [] (deliveredData ds) (some session) evoMaxGetPayloadLen).map Prod.fst) := by
    have hE : 'B'.toUInt8 ≠ 'E'.toUInt8 := by decide
    have hD : 'B'.toUInt8 ≠ 'D'.toUInt8 := by decide
    simp [EvoGet.accept, hcurrent, hE, hD, hchunks, EvoGet.init]
  rw [hfuel, hrun, exec_evoGetLoop_packet tx' hfinal (by simp [hcurrent]), haccept]

theorem exec_evoGetRequest_open {url : List UInt8} {port : Port UInt8 UInt8}
    {session : EvoKermitSession} {rx tx : List UInt8}
    (hopen : Proc.exec (evoGetOpen url) port = (.ok session, ⟨rx, tx, none⟩)) :
    Proc.exec (evoGetRequest url) port =
      Proc.exec (evoGetLoop session (rx.length + 1) EvoGet.init) ⟨rx, tx, none⟩ := by
  rw [evoGetRequest, Proc.exec_bind_ok hopen, Proc.exec_bind, Proc.exec_get]

/-- An object that the calculator quotes with the default prefixes and sends in
pieces of any size is returned as it is. -/
theorem exec_evoGetRequest_object {url : List UInt8} {port : Port UInt8 UInt8}
    {session : EvoKermitSession} {seq : Nat} {ds : List Delivery}
    {object final rest tx : List UInt8}
    (hopen : Proc.exec (evoGetOpen url) port =
      (.ok session, ⟨deliveries session seq ds ++
        (evoMakePacket session (seq + ds.length) 'B'.toUInt8 final ++ rest), tx, none⟩))
    (hds : ∀ d ∈ ds, d.Accepted session)
    (hfinal : final.length + session.checkType.size ≤ evoMaxPacketLen)
    (hsession : session.DefaultQuoting) (hobject : deliveredData ds = evoEncode [] object)
    (hsize : (evoEncode [] object).length ≤ evoMaxGetEncodedLen)
    (hlimit : object.length ≤ evoMaxGetPayloadLen) :
    (Proc.exec (evoGetRequest url) port).1 = .ok object := by
  rw [exec_evoGetRequest_open hopen,
    exec_evoGetLoop_reply rest tx hds hfinal (by rw [hobject]; exact hsize), hobject,
    evoDecode_default hsession (by simpa using hlimit)]
  rfl

/-- Once the request stands, the reply is the decoding of its D packets, each
counted once: however many they are, and each up to three times repeated. -/
theorem exec_evoGetRequest {url : List UInt8} {port : Port UInt8 UInt8}
    {session : EvoKermitSession} {seq : Nat} {ds : List Delivery} {final rest tx : List UInt8}
    (hopen : Proc.exec (evoGetOpen url) port =
      (.ok session, ⟨deliveries session seq ds ++
        (evoMakePacket session (seq + ds.length) 'B'.toUInt8 final ++ rest), tx, none⟩))
    (hds : ∀ d ∈ ds, d.Accepted session)
    (hfinal : final.length + session.checkType.size ≤ evoMaxPacketLen)
    (hsize : (deliveredData ds).length ≤ evoMaxGetEncodedLen) :
    (Proc.exec (evoGetRequest url) port).1 =
      (evoDecode [] (deliveredData ds) (some session) evoMaxGetPayloadLen).map Prod.fst := by
  rw [exec_evoGetRequest_open hopen, exec_evoGetLoop_reply rest tx hds hfinal hsize]

theorem exec_evoGetRequest_repeated :
    (Proc.exec (evoGetRequest ['u'.toUInt8]) ⟨evoOpenAcks [] ++ (deliveries evoSessionInit 62
        [⟨'D'.toUInt8, [0x23, 0x40], 3⟩, ⟨'D'.toUInt8, [0x7E], 0⟩, ⟨'D'.toUInt8, [0x25, 0x41], 1⟩] ++
        (evoMakePacket evoSessionInit 65 'B'.toUInt8 [] ++ [])), [], none⟩).1 =
      .ok [0x00, 0x41, 0x41, 0x41, 0x41, 0x41] := by
  obtain ⟨tx, hopen⟩ := exec_evoGetOpen_acks ['u'.toUInt8] [] (deliveries evoSessionInit 62
    [⟨'D'.toUInt8, [0x23, 0x40], 3⟩, ⟨'D'.toUInt8, [0x7E], 0⟩, ⟨'D'.toUInt8, [0x25, 0x41], 1⟩] ++
    (evoMakePacket evoSessionInit 65 'B'.toUInt8 [] ++ [])) (by decide)
  refine (exec_evoGetRequest hopen ?_ (by decide) (by decide)).trans (by decide)
  intro d hd
  have h : d = ⟨'D'.toUInt8, [0x23, 0x40], 3⟩ ∨ d = ⟨'D'.toUInt8, [0x7E], 0⟩ ∨
    d = ⟨'D'.toUInt8, [0x25, 0x41], 1⟩ := by simpa using hd
  rcases h with rfl | rfl | rfl <;> exact ⟨by decide, by decide, by decide, by decide⟩

/-- A packet that arrives five times ends the request, although the reply is
complete and its data decodes. -/
theorem exec_evoGetRequest_nack :
    (Proc.exec (evoGetRequest ['u'.toUInt8]) ⟨evoOpenAcks [] ++ (deliveries evoSessionInit 0
        [⟨'D'.toUInt8, [0x41], 4⟩] ++ evoMakePacket evoSessionInit 1 'B'.toUInt8 []), [], none⟩).1 =
      .error .nack ∧
    evoDecode [] (deliveredData [⟨'D'.toUInt8, [0x41], 4⟩]) (some evoSessionInit)
      evoMaxGetPayloadLen = .ok ([0x41], []) := by
  decide +kernel

end Tilibs.Evo
