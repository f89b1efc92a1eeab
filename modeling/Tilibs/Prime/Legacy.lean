import Tilibs.Lib.Chunk
import Tilibs.Prime.Transfer

/-!
# Tilibs.Prime.Legacy

The older framing of the HP Prime (`prime_vpkt.c`): every report carries a
packet number and a piece of the message, and the header of the message says
how long it is.

The numbers run from 0 to 0xFE.  The sender counts them and starts over, the
receiver computes the number of a report from how many came before it.
-/

namespace Tilibs.Prime

open Tilibs.Lib

def primeLegacyMaxStaleReports : Nat := 4096

def cmdPrimeCheckReady : UInt8 := 0xFF

/-! ## Sending -/

/-- The number of the next report; 0xFF has another meaning. -/
def primeNextPktId (pktId : UInt8) : UInt8 := if pktId + 1 = 0xFF then 0 else pktId + 1

/-- The full reports of `prime_send_data`, and then the one with the rest. -/
def primeSendDataLoop (size payloadSize : Nat) : Nat → UInt8 → List UInt8 → PrimeProc Unit
  | 0, pktId, rest => if rest ≠ [] ∨ size = 0 then primeSend (0 :: pktId :: rest) else pure ()
  | q + 1, pktId, data => do
      primeSend (0 :: pktId :: data.take payloadSize)
      primeSendDataLoop size payloadSize q (primeNextPktId pktId) (data.drop payloadSize)

def primeSendData (data : List UInt8) : PrimeProc Unit := do
  let h ← get
  let reportSize :=
    if h.reportSize.bytes < 2 ∨ primeRawHidDataSizeMax < h.reportSize.bytes then
      ReportSize.legacy.bytes
    else h.reportSize.bytes
  primeSendDataLoop data.length (reportSize - 1) (data.length / (reportSize - 1)) 0 data

/-! ## Receiving -/

/-- The size the first report of a message announces. -/
def primeExpectedSize (cmd : UInt8) (raw : List UInt8) : Except PrimeErr Nat :=
  if cmd ≠ cmdPrimeCheckReady ∧ raw.length < 7 then .error .packetFormat
  else primeDataSize cmd raw.tail

/-- Append a report to the message; its size is a 32-bit word. -/
def primeAppendReport (data raw : List UInt8) : Except PrimeErr (List UInt8) :=
  let size := data.length + (raw.length - 1)
  if size % 2 ^ 32 = 0 then .error .malloc
  -- the buffer has shrunk, and the copy runs past its end
  else if 2 ^ 32 ≤ size then .error .undefinedBehaviour
  else .ok (data ++ raw.tail)

/-- The loop of `prime_recv_data`; every turn takes a report from the cable. -/
def primeRecvDataLoop (cmd : UInt8) : Nat → Nat → Nat → Nat → List UInt8 → PrimeProc (List UInt8)
  | 0, _, _, _, _ => throw .cableRead
  | fuel + 1, staleReports, readPktsCount, expectedSize, data => do
      match ← primeRecv with
      | .error e => throw e
      | .ok raw =>
          if raw.length = 0 then throw .packetFormat
          else if readPktsCount = 0 ∧
              (raw.headD 0 ≠ 0 ∨ raw.length < 2 ∨ raw.getD 1 0 ≠ cmd) then
            -- left over from an earlier exchange
            if primeLegacyMaxStaleReports < staleReports + 1 then throw .packetFormat
            else primeRecvDataLoop cmd fuel (staleReports + 1) readPktsCount expectedSize data
          else if raw.headD 0 = 0xFF then
            primeRecvDataLoop cmd fuel staleReports readPktsCount expectedSize data
          else if (raw.headD 0).toNat ≠ (readPktsCount + readPktsCount / 0xFF) % 256 then
            throw .packetFormat
          else
            let expectedSize ← Proc.ofExcept
              (if readPktsCount = 0 then primeExpectedSize cmd raw else .ok expectedSize)
            let data ← Proc.ofExcept (primeAppendReport data raw)
            if expectedSize ≤ data.length then pure (data.take expectedSize)
            else primeRecvDataLoop cmd fuel staleReports (readPktsCount + 1) expectedSize data

/-- Receive the reply to a command. -/
def primeRecvData (cmd : UInt8) : PrimeProc (List UInt8) := do
  let h ← get
  primeRecvDataLoop cmd (h.port.rx.length + 1) 0 0 0 []

/-! ## The reports of a message -/

/-- Pieces as reports with consecutive numbers, the first being number `i`. -/
def legacyReports : Nat → List (List UInt8) → List (List UInt8)
  | _, [] => []
  | i, p :: ps => (0 :: UInt8.ofNat (i % 255) :: p) :: legacyReports (i + 1) ps

@[simp] theorem length_legacyReports (i : Nat) (ps : List (List UInt8)) :
    (legacyReports i ps).length = ps.length := by
  induction ps generalizing i with
  | nil => rfl
  | cons p ps ih => rw [legacyReports, List.length_cons, ih, List.length_cons]

/-- The sender's numbers are the remainders by 255. -/
theorem primeNextPktId_ofNat (i : Nat) :
    primeNextPktId (UInt8.ofNat (i % 255)) = UInt8.ofNat ((i + 1) % 255) := by
  have hnext : UInt8.ofNat (i % 255) + 1 = UInt8.ofNat (i % 255 + 1) := by
    rw [UInt8.ofNat_add]
    rfl
  have hlt : i % 255 < 255 := Nat.mod_lt i (by decide)
  unfold primeNextPktId
  by_cases hlast : i % 255 = 254
  · have hzero : (i + 1) % 255 = 0 := by omega
    rw [hlast, hzero]
    rfl
  · have hmod : (i + 1) % 255 = i % 255 + 1 := by omega
    have hne : UInt8.ofNat (i % 255 + 1) ≠ 0xFF := by
      intro h
      have hval := congrArg UInt8.toNat h
      simp only [UInt8.toNat_ofNat', UInt8.reduceToNat] at hval
      omega
    rw [hnext, if_neg hne, hmod]

/-- The receiver's formula gives the same numbers. -/
theorem expectedSequence_eq (i : Nat) :
    (UInt8.ofNat (i % 255)).toNat = (i + i / 0xFF) % 256 := by
  rw [UInt8.toNat_ofNat']
  omega

/-! ## A message there and back -/

/-- The message starts with a header that carries the size of the payload. -/
def HasHeader (cmd : UInt8) (message : List UInt8) : Prop :=
  cmd ∈ [(0xFA : UInt8), 0xFC, 0xF9, 0xF7, 0xF2] ∧
    ∃ marker payload, (marker = 0x01 ∨ marker = 0x03) ∧
      message = cmd :: marker :: (putBE 4 payload.length ++ payload)

section Transfer

variable {rx : List (Except PrimeErr (List UInt8))} {tx : List (List UInt8)} {size : ReportSize}
  {version : PrimeProtocol} {next : Nat}

theorem exec_primeSend (raw : List UInt8) :
    Proc.exec (primeSend raw) ⟨⟨rx, tx, none⟩, size, version, next⟩ =
      (.ok (), ⟨⟨rx, tx ++ [raw], none⟩, size, version, next⟩) := by
  simp [primeSend, Proc.exec_bind]

/-- The loop sends the full pieces, and then the rest if there is one. -/
theorem exec_primeSendDataLoop (total n q i : Nat) (data : List UInt8) (htotal : total ≠ 0) :
    Proc.exec (primeSendDataLoop total n q (UInt8.ofNat (i % 255)) data)
        ⟨⟨rx, tx, none⟩, size, version, next⟩ =
      (.ok (), ⟨⟨rx, tx ++ legacyReports i (chunks n q data ++
        if data.drop (q * n) = [] then [] else [data.drop (q * n)]), none⟩,
        size, version, next⟩) := by
  induction q generalizing i data tx with
  | zero =>
      rw [primeSendDataLoop, Nat.zero_mul, List.drop_zero, chunks, List.nil_append]
      by_cases hdata : data = []
      · rw [if_neg (by simp [hdata, htotal]), if_pos hdata, legacyReports, List.append_nil,
          Proc.exec_pure]
      · rw [if_pos (.inl hdata), if_neg hdata, exec_primeSend]
        rfl
  | succ q ih =>
      have hdrop : (data.drop n).drop (q * n) = data.drop ((q + 1) * n) := by
        rw [List.drop_drop, Nat.succ_mul, Nat.add_comm]
      rw [primeSendDataLoop, Proc.exec_bind_ok (exec_primeSend _), primeNextPktId_ofNat, ih, hdrop,
        chunks, List.cons_append, legacyReports, List.append_assoc, List.singleton_append]

/-- The reports of a message are its pieces. -/
theorem exec_primeSendData {data : List UInt8} (hdata : data ≠ []) :
    Proc.exec (primeSendData data) ⟨⟨rx, tx, none⟩, size, version, next⟩ =
      (.ok (), ⟨⟨rx, tx ++ legacyReports 0 (pieces (size.bytes - 1) data), none⟩,
        size, version, next⟩) := by
  have hvalid : ¬ (size.bytes < 2 ∨ primeRawHidDataSizeMax < size.bytes) := by
    cases size <;> decide
  have htotal : data.length ≠ 0 := by simpa using hdata
  have hmod := Nat.div_add_mod' data.length (size.bytes - 1)
  have hrest : data.drop (data.length / (size.bytes - 1) * (size.bytes - 1)) = [] ↔
      data.length % (size.bytes - 1) = 0 := by
    rw [List.drop_eq_nil_iff]
    omega
  rw [primeSendData, Proc.exec_bind_ok (Proc.exec_get _), if_neg hvalid]
  refine (exec_primeSendDataLoop data.length _ _ 0 data htotal).trans ?_
  simp only [pieces, hrest]

/-- One report of a message that has begun. -/
theorem exec_primeRecvDataLoop_cons {cmd : UInt8} {fuel stale i total : Nat}
    {data piece : List UInt8} (hpiece : piece ≠ []) (hi : 0 < i)
    (hfits : data.length + piece.length < 2 ^ 32) :
    Proc.exec (primeRecvDataLoop cmd (fuel + 1) stale i total data)
        ⟨⟨.ok (UInt8.ofNat (i % 255) :: piece) :: rx, tx, none⟩, size, version, next⟩ =
      Proc.exec (if total ≤ data.length + piece.length then pure ((data ++ piece).take total)
          else primeRecvDataLoop cmd fuel stale (i + 1) total (data ++ piece))
        ⟨⟨rx, tx, none⟩, size, version, next⟩ := by
  have hpos : 0 < piece.length := List.length_pos_iff.mpr hpiece
  have hsequence := expectedSequence_eq i
  have hskip : UInt8.ofNat (i % 255) ≠ 0xFF := by
    intro h
    have hval := congrArg UInt8.toNat h
    simp only [UInt8.toNat_ofNat', UInt8.reduceToNat] at hval
    omega
  have happend : primeAppendReport data (UInt8.ofNat (i % 255) :: piece) = .ok (data ++ piece) := by
    simp only [primeAppendReport, List.length_cons, Nat.add_sub_cancel, List.tail_cons]
    rw [if_neg (by rw [Nat.mod_eq_of_lt hfits]; omega), if_neg (by omega)]
  rw [primeRecvDataLoop, Proc.exec_bind_ok (exec_primeRecv_cons _ _ _ _ _ _)]
  dsimp only
  rw [if_neg (by simp), if_neg (by omega), if_neg (by simpa using hskip),
    if_neg (by simpa using hsequence), if_neg (by omega),
    Proc.exec_bind_ok (Proc.exec_ofExcept _ _), happend,
    Proc.exec_bind_ok (Proc.exec_ofExcept _ _), List.length_append]

/-- The first report says how long the message is. -/
theorem exec_primeRecvDataLoop_first {cmd : UInt8} {fuel stale total : Nat} {piece : List UInt8}
    (hlen : 6 ≤ piece.length) (hcmd : piece.headD 0 = cmd)
    (htotal : primeDataSize cmd piece = .ok total) (hfits : piece.length < 2 ^ 32) :
    Proc.exec (primeRecvDataLoop cmd (fuel + 1) stale 0 0 [])
        ⟨⟨.ok (0 :: piece) :: rx, tx, none⟩, size, version, next⟩ =
      Proc.exec (if total ≤ piece.length then pure (piece.take total)
          else primeRecvDataLoop cmd fuel stale 1 total piece)
        ⟨⟨rx, tx, none⟩, size, version, next⟩ := by
  have hexpected : primeExpectedSize cmd (0 :: piece) = .ok total := by
    have hlong : ¬ (cmd ≠ cmdPrimeCheckReady ∧ (0 :: piece).length < 7) := by
      rw [List.length_cons]
      omega
    rw [primeExpectedSize, if_neg hlong, List.tail_cons, htotal]
  have happend : primeAppendReport [] (0 :: piece) = .ok piece := by
    simp only [primeAppendReport, List.length_nil, List.length_cons, Nat.add_sub_cancel,
      Nat.zero_add, List.tail_cons, List.nil_append]
    rw [if_neg (by rw [Nat.mod_eq_of_lt hfits]; omega), if_neg (by omega)]
  have hfresh : ¬ (0 = 0 ∧ ((0 :: piece).headD 0 ≠ 0 ∨ (0 :: piece).length < 2 ∨
      (0 :: piece).getD 1 0 ≠ cmd)) := by
    cases piece with
    | nil => contradiction
    | cons b piece => simpa using hcmd
  rw [primeRecvDataLoop, Proc.exec_bind_ok (exec_primeRecv_cons _ _ _ _ _ _)]
  dsimp only
  rw [if_neg (by simp), if_neg hfresh, if_neg (by simp), if_neg (by simp), if_pos rfl, hexpected,
    Proc.exec_bind_ok (Proc.exec_ofExcept _ _), happend,
    Proc.exec_bind_ok (Proc.exec_ofExcept _ _)]

/-- The reports that are still to come complete the message. -/
theorem exec_primeRecvDataLoop {cmd : UInt8} {n fuel stale i total : Nat} (hn : 0 < n)
    {data rest : List UInt8} (hrest : rest ≠ []) (hi : 0 < i) (htotal : total < 2 ^ 32)
    (hlen : data.length + rest.length = total) (hfuel : (pieces n rest).length < fuel) :
    Proc.exec (primeRecvDataLoop cmd fuel stale i total data)
        ⟨⟨(legacyReports i (pieces n rest)).map delivered, tx, none⟩, size, version, next⟩ =
      (.ok (data ++ rest), ⟨⟨[], tx, none⟩, size, version, next⟩) := by
  obtain ⟨fuel, rfl⟩ := Nat.exists_eq_succ_of_ne_zero (Nat.ne_zero_of_lt hfuel)
  induction fuel generalizing i data rest with
  | zero =>
      have hnone : pieces n rest = [] := List.length_eq_zero_iff.mp (by omega)
      have hnil := flatten_pieces n rest
      rw [hnone] at hnil
      exact absurd hnil.symm hrest
  | succ fuel ih =>
      by_cases hlast : rest.length ≤ n
      · rw [pieces_of_length_le hrest hlast, legacyReports, legacyReports, List.map_singleton,
          delivered, List.tail_cons, exec_primeRecvDataLoop_cons hrest hi (by omega),
          if_pos hlen.ge, List.take_of_length_le (by rw [List.length_append]; omega),
          Proc.exec_pure]
      · have htake : (rest.take n).length = n := by rw [List.length_take]; omega
        have hfirst : rest.take n ≠ [] := List.length_pos_iff.mp (by omega)
        have hmore : rest.drop n ≠ [] := by rw [Ne, List.drop_eq_nil_iff]; exact hlast
        rw [pieces_of_le_length hn (by omega), List.length_cons] at hfuel
        rw [pieces_of_le_length hn (by omega), legacyReports, List.map_cons, delivered,
          List.tail_cons, exec_primeRecvDataLoop_cons hfirst hi (by omega), htake,
          if_neg (by omega), ih hmore (Nat.succ_pos i)
            (by rw [List.length_append, List.length_drop, htake]; omega) (by omega),
          List.append_assoc, List.take_append_drop]

theorem HasHeader.expectedSize {cmd : UInt8} {message : List UInt8} (h : HasHeader cmd message)
    (hfits : message.length < 2 ^ 32) :
    6 ≤ message.length ∧ message.headD 0 = cmd ∧
      ∀ n, 6 ≤ n → primeDataSize cmd (message.take n) = .ok message.length := by
  obtain ⟨hcmd, marker, payload, hmarker, rfl⟩ := h
  have hpayload : payload.length + 6 < 2 ^ 32 := by
    simp only [List.length_cons, List.length_append, length_putBE] at hfits
    omega
  have hready : ¬ cmd = 0xFF := by
    rintro rfl
    contradiction
  refine ⟨by simp, rfl, ?_⟩
  intro n hn
  obtain ⟨n, rfl⟩ := Nat.exists_eq_add_of_le' hn
  have htake : (((cmd :: marker :: (putBE 4 payload.length ++ payload)).take (n + 6)).drop
      2).take 4 = putBE 4 payload.length := by
    simp [List.take_take]
  have hmark : ((cmd :: marker :: (putBE 4 payload.length ++ payload)).take (n + 6)).getD 1 0 =
      marker := by
    simp
  have hknown : cmd = 0xFA ∨ cmd = 0xFC ∨ cmd = 0xF9 ∨ cmd = 0xF7 ∨ cmd = 0xF2 := by
    simpa using hcmd
  simp only [primeDataSize]
  rw [if_neg hready, if_pos hknown, hmark, if_pos hmarker, htake, getBE_putBE (by omega),
    if_neg (by omega)]
  simp [Nat.add_comm 4]

/-- A message with a header is put together again from its reports, however
many there are. -/
theorem exec_primeRecvData_primeSendData (size : ReportSize) {cmd : UInt8} {message : List UInt8}
    (hheader : HasHeader cmd message) (hfits : message.length < 2 ^ 32)
    (rx : List (Except PrimeErr (List UInt8))) (version : PrimeProtocol) (next next' : Nat) :
    ∃ reports, Proc.exec (primeSendData message) ⟨⟨rx, [], none⟩, size, version, next⟩ =
        (.ok (), ⟨⟨rx, reports, none⟩, size, version, next⟩) ∧
      Proc.exec (primeRecvData cmd) ⟨⟨reports.map delivered, [], none⟩, size, version, next'⟩ =
        (.ok message, ⟨⟨[], [], none⟩, size, version, next'⟩) := by
  obtain ⟨hlen, hcmd, hexpected⟩ := hheader.expectedSize hfits
  have hmessage : message ≠ [] := List.length_pos_iff.mp (by omega)
  have hroom : 6 ≤ size.bytes - 1 := by cases size <;> decide
  refine ⟨_, exec_primeSendData hmessage, ?_⟩
  rw [List.nil_append, primeRecvData, Proc.exec_bind_ok (Proc.exec_get _)]
  by_cases hone : message.length ≤ size.bytes - 1
  · have htotal := hexpected message.length hlen
    rw [List.take_length] at htotal
    rw [pieces_of_length_le hmessage hone]
    change Proc.exec (primeRecvDataLoop cmd (0 + 1 + 1) 0 0 0 [])
      ⟨⟨[.ok (0 :: message)], [], none⟩, size, version, next'⟩ = _
    rw [exec_primeRecvDataLoop_first hlen hcmd htotal hfits, if_pos (Nat.le_refl _),
      List.take_length, Proc.exec_pure]
  · have hfirst : (message.take (size.bytes - 1)).length = size.bytes - 1 := by
      rw [List.length_take]
      omega
    have hhead : (message.take (size.bytes - 1)).headD 0 = cmd := by
      cases message with
      | nil => contradiction
      | cons b message =>
          obtain ⟨k, hk⟩ := Nat.exists_eq_add_of_le' hroom
          rw [hk]
          exact hcmd
    have hmore : message.drop (size.bytes - 1) ≠ [] := by
      rw [Ne, List.drop_eq_nil_iff]
      exact hone
    rw [pieces_of_le_length (by omega) (by omega), legacyReports, List.map_cons]
    change Proc.exec (primeRecvDataLoop cmd (((legacyReports 1 _).map delivered).length + 1 + 1)
      0 0 0 []) ⟨⟨.ok (0 :: message.take (size.bytes - 1)) :: _, [], none⟩, size, version, next'⟩ = _
    rw [exec_primeRecvDataLoop_first (by omega) hhead (hexpected _ hroom) (by omega),
      hfirst, if_neg hone, exec_primeRecvDataLoop (by omega) hmore Nat.one_pos hfits
        (by rw [List.length_drop, hfirst]; omega)
        (by rw [List.length_map, length_legacyReports]; omega),
      List.take_append_drop]

end Transfer

/-- A reply to `CMD_PRIME_GET_INFOS` with 300 reports. -/
theorem exec_primeRecvData_primeSendData_infos :
    ∃ reports, Proc.exec
          (primeSendData (0xFA :: 0x03 :: (putBE 4 (List.replicate 18888 (0x41 : UInt8)).length ++
            List.replicate 18888 0x41))) ⟨⟨[], [], none⟩, .legacy, .legacy, 1⟩ =
        (.ok (), ⟨⟨[], reports, none⟩, .legacy, .legacy, 1⟩) ∧
      Proc.exec (primeRecvData 0xFA)
          ⟨⟨reports.map delivered, [], none⟩, .legacy, .legacy, 1⟩ =
        (.ok (0xFA :: 0x03 :: (putBE 4 (List.replicate 18888 (0x41 : UInt8)).length ++
          List.replicate 18888 0x41)), ⟨⟨[], [], none⟩, .legacy, .legacy, 1⟩) :=
  exec_primeRecvData_primeSendData .legacy ⟨by decide, 0x03, List.replicate 18888 0x41, .inr rfl, rfl⟩
    (by
      rw [List.length_cons, List.length_cons, List.length_append, List.length_replicate,
        length_putBE]
      norm_num)
    [] .legacy 1 1

end Tilibs.Prime
