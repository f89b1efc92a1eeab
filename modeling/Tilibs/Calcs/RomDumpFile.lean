import Mathlib
import Tilibs.CalcModel
import Tilibs.Calcs.RomDump
import Tilibs.Lib.Frame

/-!
# Tilibs.Calcs.RomDumpFile

The file that `rd_read_dump` writes.

A dump that ends well, once its size has been announced, is made of blocks in the order of their
addresses: each is what the dumper replied to the request for its address, or fills in for the
certificate of a TI-9x, which cannot be read (`rdReadDump_dumped`).  The last block may reach
beyond the size.
-/

namespace Tilibs.Calcs.RomDump

open Lib Lib.Proc

/-! ## the dumping layer -/

/-- `MAX_RETRY` -/
def maxRetry : Nat := 3

/-- The code that a function returns. -/
def code (p : RomProc Unit) : RomProc Int := do
  match ← attempt p with
  | .ok () => pure 0
  | .error (.ret ret) => pure ret
  | .error stop => throw stop

/-- The loop that waits for the dumper: whether to proceed, and the variable `ret`. -/
def readyLoop (link : RomLink) : Nat → Int → RomProc (Bool × Int)
  | 0, ret => pure (true, ret)
  | n + 1, _ => do
      let ret ← code (romSendRDY link)
      if (← code (romRecvRDY link)) ≠ 0 then pure (false, ret)
      else if ret = 0 then pure (true, ret)
      else readyLoop link n ret

/-- The loop that synchronises again; all of its turns are made. -/
def resyncLoop (link : RomLink) : Nat → Int → RomProc Int
  | 0, ret => pure ret
  | n + 1, _ => do
      let ret ← code (romSendRDY link)
      if ret ≠ 0 then resyncLoop link n ret
      else
        let ret ← code (romRecvRDY link)
        resyncLoop link n ret

/-- The turns are made after an error; `ret` is then 0, or stays as the last turn left it. -/
def resync (link : RomLink) (ret : Int) : RomProc Int :=
  if ret ≠ 0 then resyncLoop link maxRetry ret else pure 0

/-- The addresses of the certificate, which is read protected. -/
def inCertificate (model : CalcModel) (addr : UInt32) : Bool :=
  tifilesCalcIsTi9x model && model ≠ .ti92 && 0x10000 ≤ addr && addr < 0x12000

/-- `fwrite` of the block in the buffer: whether it succeeds, which it does not without bytes. -/
def fwriteBlock (link : RomLink) : RomProc Bool := do
  let h ← get
  modify fun h => { h with writes := h.writes + 1 }
  if h.length = 0 ∨ link.fwrite h.writes = false then pure false
  else
    modify fun h => { h with file := h.file ++ h.buffer.read 0 h.length.toNat }
    pure true

/-- The loop over the blocks, with `addr` and `ret`; the result is `ret` at its end. -/
def dumpLoop (link : RomLink) (model : CalcModel) (size : UInt32) :
    Nat → UInt32 → Int → RomProc Int
  | 0, _, _ => throw .running
  | fuel + 1, addr, ret => do
      if size ≤ addr then pure ret
      else if ret = errAbort then pure ret
      else
        let ret ← resync link ret
        if ret ≠ 0 then pure ret
        else if inCertificate model addr then
          let length := (← get).length
          fillBuffer length.toNat 0xFF
          if ← fwriteBlock link then dumpLoop link model size fuel (addr + length.toUInt32) 0
          else pure errSaveFile
        else
          let ret ← code (romSendDATA link addr)
          if ret ≠ 0 then dumpLoop link model size fuel addr ret
          else
            let ret ← code (romRecvDATA link)
            if ret ≠ 0 then dumpLoop link model size fuel addr ret
            else if ← fwriteBlock link then
              dumpLoop link model size fuel (addr + (← get).length.toUInt32) 0
            else pure errSaveFile

/-- The size that the dumper has announced. -/
def announced (h : RomHandle) : UInt32 := UInt32.ofNat (getLE (h.size.read 0 4))

/-- What is in front of the loop: whether the size has come, and `ret`. -/
def announce (link : RomLink) : RomProc (Bool × Int) := do
  let (ready, ret) ← readyLoop link 3 0
  if ready = false then pure (false, ret)
  else if (← code (romSendSIZE link)) ≠ 0 then pure (false, ret)
  else if (← code (romRecvSIZE link)) ≠ 0 then pure (false, ret)
  else pure (true, ret)

/-- The value of `ret` at the label `exit`. -/
def dumpBlocks (link : RomLink) (model : CalcModel) (fuel : Nat) : RomProc Int := do
  let (sizeKnown, ret) ← announce link
  if sizeKnown then dumpLoop link model (announced (← get)) fuel 0x0000 ret else pure ret

/-- `rd_read_dump` -/
def rdReadDump (link : RomLink) (model : CalcModel) (fuel : Nat) : RomProc Int := do
  if link.fopen = false then pure errOpenFile
  else
    modify fun h => { h with file := [] }
    let ret ← dumpBlocks link model fuel
    if ret ≠ 0 then pure ret
    else
      let ret ← code (romSendEXIT link)
      if ret ≠ 0 then pure ret else code (romRecvEXIT link)

/-! ## what a dump is made of -/

/-- The bytes of a block, by the reply to the request for it.  A block of repeated data has its
size and its byte in the reply. -/
inductive BlockOf : UInt16 → List UInt8 → List UInt8 → Prop
  | plain {data : List UInt8} : BlockOf cmdData1 data data
  | repeated {data : List UInt8} {size : UInt16} {b : UInt8} :
      (4 ≤ data.length → size = UInt16.ofNat (getLE (data.take 2)) ∧ data[2]? = some b) →
      BlockOf cmdData2 data (List.replicate size.toNat b)

/-- A file that is made of blocks: what has gone over the cable, the address that comes next, the
length of the last block and the bytes.  At an address that is skipped the block is filled in. -/
inductive Dumped (skips : UInt32 → Bool) (size : UInt32) (start : List RomWire) :
    List RomWire → UInt32 → UInt16 → List UInt8 → Prop
  | start {length : UInt16} : Dumped skips size start start 0 length []
  | block {wire mid : List RomWire} {addr : UInt32} {length length' cmd : UInt16}
      {file data bytes : List UInt8} : Dumped skips size start wire addr length file →
      addr < size → skips addr = false → BlockOf cmd data bytes → bytes.length = length'.toNat →
      Dumped skips size start
        (wire ++ mid ++ [.sent cmdReqBlock (putLE 4 addr.toNat), .reply cmd data])
        (addr + length'.toUInt32) length' (file ++ bytes)
  | skip {wire : List RomWire} {addr : UInt32} {length : UInt16} {file : List UInt8} :
      Dumped skips size start wire addr length file → addr < size → skips addr = true →
      Dumped skips size start wire (addr + length.toUInt32) length
        (file ++ List.replicate length.toNat 0xFF)

/-- The address that comes next is the length of the file, as a number of 32 bits. -/
theorem Dumped.addr_eq {skips : UInt32 → Bool} {size : UInt32} {start wire : List RomWire}
    {addr : UInt32} {length : UInt16} {file : List UInt8}
    (h : Dumped skips size start wire addr length file) : addr = UInt32.ofNat file.length := by
  induction h with
  | start => rfl
  | block _ _ _ _ hlength ih =>
      rw [List.length_append, UInt32.ofNat_add, ← ih, hlength]
      congr 1
      simp
  | skip _ _ _ ih =>
      rw [List.length_append, List.length_replicate, UInt32.ofNat_add, ← ih]
      congr 1
      simp

/-! ## frames -/

/-- More has gone over the cable, and the file is as it was. -/
structure Grows (h h' : RomHandle) : Prop where
  wire : ∃ mid, h'.wire = h.wire ++ mid
  file : h'.file = h.file

instance : Std.Refl Grows := ⟨fun _ => ⟨⟨[], (List.append_nil _).symm⟩, rfl⟩⟩

instance : IsTrans RomHandle Grows where
  trans := by
    rintro h h' h'' ⟨⟨mid, hwire⟩, hfile⟩ ⟨⟨mid', hwire'⟩, hfile'⟩
    refine ⟨⟨mid ++ mid', ?_⟩, hfile'.trans hfile⟩
    rw [hwire', hwire, List.append_assoc]

section Frames

variable {link : RomLink}

theorem Untouched.grows {h h' : RomHandle} (hsame : Untouched h h') : Grows h h' :=
  ⟨⟨[], by rw [hsame.wire, List.append_nil]⟩, hsame.file⟩

theorem grows_pokeBuffer (pos : Nat) (bytes : List UInt8) : Within Grows (pokeBuffer pos bytes) :=
  within_ite (fun _ => within_modify fun _ => ⟨⟨[], (List.append_nil _).symm⟩, rfl⟩)
    fun _ => within_throw _

theorem grows_check (ret : Int) : Within Grows (check ret) :=
  within_ite (fun _ => within_pure ()) fun _ => within_throw _

theorem grows_sendPkt (cmd : UInt16) (data : List UInt8) : Within Grows (sendPkt link cmd data) := by
  refine within_bind (grows_pokeBuffer _ _) fun _ => within_bind within_get fun _ => ?_
  refine within_bind (within_modify fun _ => ⟨⟨[], (List.append_nil _).symm⟩, rfl⟩) fun _ => ?_
  exact within_bind (grows_check _) fun _ => within_modify fun _ => ⟨⟨_, rfl⟩, rfl⟩

theorem grows_store (dest : RomDest) (bytes : List UInt8) : Within Grows (store dest bytes) := by
  cases dest with
  | none => exact within_pure ()
  | size =>
      exact within_ite (fun _ => within_modify fun _ => ⟨⟨[], (List.append_nil _).symm⟩, rfl⟩)
        fun _ => within_throw _
  | buffer => exact grows_pokeBuffer 0 bytes

theorem grows_deliver (dest : RomDest) : Within Grows (deliver dest) :=
  within_bind within_get fun _ => within_bind (grows_store _ _) fun _ =>
    within_modify fun _ => ⟨⟨_, rfl⟩, rfl⟩

theorem grows_recvPkt (dest : RomDest) : Within Grows (recvPkt link dest) := by
  intro h
  by_cases ht : Taken link h.reads h.polls
  · have hread : Grows h (afterReply link h) := ⟨⟨[], (List.append_nil _).symm⟩, rfl⟩
    rw [exec_recvPkt_taken dest ht]
    exact trans_of Grows hread (grows_deliver dest _)
  · obtain ⟨code, h', -, hrun, hsame⟩ := exec_recvPkt_refused dest ht
    rw [hrun]
    exact hsame.grows

theorem grows_recvOwn (dest : RomDest) : Within Grows (recvOwn link dest) :=
  within_bind (within_modify fun _ => ⟨⟨[], (List.append_nil _).symm⟩, rfl⟩)
    fun _ => grows_recvPkt dest

theorem grows_expandData2 : Within Grows expandData2 := by
  refine within_bind within_get fun _ => within_bind ?_ fun _ => ?_
  · exact within_modify fun _ => ⟨⟨[], (List.append_nil _).symm⟩, rfl⟩
  · exact within_ite (fun _ => within_modify fun _ => ⟨⟨[], (List.append_nil _).symm⟩, rfl⟩)
      fun _ => within_throw _

theorem grows_romRecvDATA : Within Grows (romRecvDATA link) := by
  have hquiet : ∀ f : RomHandle → RomHandle, (∀ h, (f h).wire = h.wire ∧ (f h).file = h.file) →
      Within Grows (modify f : RomProc PUnit) := fun f hf => within_modify fun h =>
    ⟨⟨[], by rw [(hf h).1, List.append_nil]⟩, (hf h).2⟩
  refine within_bind (hquiet _ fun _ => ⟨rfl, rfl⟩) fun _ =>
    within_bind (within_attempt (grows_recvPkt _)) fun ret =>
      within_bind (hquiet _ fun _ => ⟨rfl, rfl⟩) fun _ => within_bind (within_ofExcept ret) fun _ =>
        within_bind within_get fun _ => ?_
  exact within_ite (fun _ => within_pure ()) fun _ =>
    within_ite (fun _ => grows_expandData2) fun _ => within_throw _

theorem grows_code {p : RomProc Unit} (hp : Within Grows p) : Within Grows (code p) := by
  refine within_bind (within_attempt hp) fun ret => ?_
  match ret with
  | .ok () => exact within_pure 0
  | .error (.ret _) => exact within_pure _
  | .error .outside => exact within_throw _
  | .error .running => exact within_throw _

theorem grows_resyncLoop (n : Nat) (ret : Int) : Within Grows (resyncLoop link n ret) := by
  induction n generalizing ret with
  | zero => exact within_pure ret
  | succ n ih =>
      refine within_bind (grows_code (grows_sendPkt _ _)) fun ret => ?_
      refine within_ite (fun _ => ih ret) fun _ => ?_
      exact within_bind (grows_code (grows_recvOwn _)) fun ret => ih ret

end Frames

/-! ## one exchange -/

section Exchange

variable {link : RomLink} {h h' : RomHandle}

/-- A function whose code is 0 has returned. -/
theorem exec_code_zero {p : RomProc Unit} (hrun : exec (code p) h = (.ok 0, h')) :
    exec p h = (.ok (), h') ∨ exec p h = (.error (.ret 0), h') := by
  unfold code at hrun
  rw [exec_bind_ok (exec_attempt p h)] at hrun
  rcases hp : exec p h with ⟨ret, h''⟩
  rw [hp] at hrun
  match ret with
  | .ok () =>
      cases hrun
      exact .inl rfl
  | .error (.ret e) =>
      cases hrun
      exact .inr rfl
  | .error .outside => cases hrun
  | .error .running => cases hrun

theorem exec_sendPkt {cmd : UInt16} {data : List UInt8} (hroom : data.length + 6 ≤ romBufferSize) :
    ∃ buffer, exec (sendPkt link cmd data) h = if link.send h.sends = 0 then
        (.ok (), { h with buffer, sends := h.sends + 1, wire := h.wire ++ [.sent cmd data] })
      else (.error (.ret (link.send h.sends)), { h with buffer, sends := h.sends + 1 }) := by
  have hlen : (romPacket cmd data).length = data.length + 6 := by
    simp [romPacket]
    omega
  have hpoke := @exec_pokeBuffer 0 (romPacket cmd data) (by omega) h
  refine ⟨h.buffer.poke (block 0 (romPacket cmd data)), ?_⟩
  unfold sendPkt
  rw [exec_bind_ok hpoke, exec_bind_ok (exec_get _)]
  dsimp only
  rw [exec_bind_ok (exec_modify _ _)]
  have hcheck := exec_check (link.send h.sends)
    { h with buffer := h.buffer.poke (block 0 (romPacket cmd data)), sends := h.sends + 1 }
  by_cases hcode : link.send h.sends = 0
  · rw [if_pos hcode] at hcheck ⊢
    exact exec_bind_ok hcheck
  · rw [if_neg hcode] at hcheck ⊢
    exact exec_bind_error hcheck

/-- A packet that was sent is the next thing on the cable. -/
theorem wire_of_sendPkt {cmd : UInt16} {data : List UInt8}
    (hroom : data.length + 6 ≤ romBufferSize)
    (hrun : exec (code (sendPkt link cmd data)) h = (.ok 0, h')) :
    h'.wire = h.wire ++ [.sent cmd data] ∧ h'.file = h.file := by
  obtain ⟨buffer, hsend⟩ := @exec_sendPkt link h cmd _ hroom
  by_cases hcode : link.send h.sends = 0
  · rw [if_pos hcode] at hsend
    cases exec_code_zero hrun with
    | inl hok =>
        rw [hsend] at hok
        cases hok
        exact ⟨rfl, rfl⟩
    | inr herror =>
        rw [hsend] at herror
        cases herror
  · rw [if_neg hcode] at hsend
    cases exec_code_zero hrun with
    | inl hok =>
        rw [hsend] at hok
        cases hok
    | inr herror =>
        rw [hsend] at herror
        injection herror with hret
        injection hret with hret
        injection hret with hret
        exact absurd hret hcode

/-- What the reply of a block of repeated data says, when it has its four bytes. -/
theorem read_blockReceived (hlen : 4 ≤ (replyData link h.reads).length) :
    data2Size (blockReceived link h).buffer
        = UInt16.ofNat (getLE ((replyData link h.reads).take 2))
      ∧ (replyData link h.reads)[2]? = some ((blockReceived link h).buffer 2) := by
  constructor
  · have hread := @Memory.read_poke_block (afterReply link h).buffer 0 0 2
      (replyData link h.reads) (by omega)
    rw [List.drop_zero] at hread
    exact congrArg (fun bytes => UInt16.ofNat (getLE bytes)) hread
  · have hbyte := @Memory.poke_block (afterReply link h).buffer 0 2
      (replyData link h.reads) (by omega)
    rw [Nat.zero_add] at hbyte
    rw [List.getElem?_eq_getElem (by omega), ← hbyte]
    rfl

/-- A block that was received is the next thing on the cable, and lies in the buffer. -/
theorem wire_of_romRecvDATA (hrun : exec (code (romRecvDATA link)) h = (.ok 0, h')) :
    ∃ cmd data, h'.wire = h.wire ++ [.reply cmd data] ∧ h'.file = h.file
      ∧ BlockOf cmd data (h'.buffer.read 0 h'.length.toNat) := by
  by_cases ht : Taken link h.reads h.polls
  case neg =>
    obtain ⟨e, h'', hne, hrefused, -⟩ := exec_romRecvDATA_refused ht
    cases exec_code_zero hrun with
    | inl hok =>
        rw [hrefused] at hok
        cases hok
    | inr herror =>
        rw [hrefused] at herror
        cases herror
        exact absurd rfl hne
  have htaken := exec_romRecvDATA_taken ht
  by_cases hone : replyCmd link h.reads = cmdData1
  · rw [if_pos hone] at htaken
    cases exec_code_zero hrun with
    | inr herror =>
        rw [htaken] at herror
        cases herror
    | inl hok =>
        rw [htaken] at hok
        cases hok
        have hread := @Memory.read_poke_block (afterReply link h).buffer 0 0
          (replyLen link h.reads).toNat (replyData link h.reads)
          (by rw [length_replyData, Nat.zero_add])
        rw [List.drop_zero, List.take_of_length_le (length_replyData h.reads).le] at hread
        refine ⟨cmdData1, replyData link h.reads, ?_, rfl, ?_⟩
        · rw [← hone]
          rfl
        · show BlockOf _ _ ((blockReceived link h).buffer.read 0 (replyLen link h.reads).toNat)
          rw [blockReceived]
          dsimp only
          rw [← Nat.zero_add 0, hread]
          exact .plain
  rw [if_neg hone] at htaken
  by_cases htwo : replyCmd link h.reads = cmdData2
  · rw [if_pos htwo, exec_expandData2] at htaken
    cases exec_code_zero hrun with
    | inr herror =>
        rw [htaken] at herror
        cases herror
    | inl hok =>
        rw [htaken] at hok
        cases hok
        refine ⟨cmdData2, replyData link h.reads, ?_, rfl, ?_⟩
        · rw [← htwo]
          rfl
        · dsimp only
          rw [Memory.read_fill]
          exact .repeated read_blockReceived
  · rw [if_neg htwo] at htaken
    cases exec_code_zero hrun with
    | inl hok =>
        rw [htaken] at hok
        cases hok
    | inr herror =>
        rw [htaken] at herror
        cases herror

end Exchange

/-! ## a dump that ends well -/

section Dump

variable {link : RomLink} {model : CalcModel} {size : UInt32} {start : List RomWire}

/-- The handle at the head of the loop.  Where the certificate is skipped, the last exchange was
that of the last block. -/
structure DumpInv (model : CalcModel) (size : UInt32) (start : List RomWire) (h : RomHandle)
    (addr : UInt32) (ret : Int) : Prop where
  dumped : ∃ wire mid length, Dumped (inCertificate model) size start wire addr length h.file
    ∧ h.wire = wire ++ mid ∧ (inCertificate model addr = true → ret = 0 ∧ h.length = length)

/-- The handle behind a dump that is complete. -/
structure DumpEnd (skips : UInt32 → Bool) (size : UInt32) (start : List RomWire) (h : RomHandle) :
    Prop where
  dumped : ∃ wire rest addr length, Dumped skips size start wire addr length h.file
    ∧ h.wire = wire ++ rest ∧ size ≤ addr

/-- An exchange that fails does not change what has been dumped. -/
theorem DumpInv.retry {h h' : RomHandle} {addr : UInt32} {ret ret' : Int}
    (hinv : DumpInv model size start h addr ret) (hout : inCertificate model addr = false)
    (hgrows : Grows h h') : DumpInv model size start h' addr ret' := by
  obtain ⟨wire, mid, length, hdumped, hwire, -⟩ := hinv.dumped
  obtain ⟨more, hmore⟩ := hgrows.wire
  refine ⟨wire, mid ++ more, length, ?_, ?_, fun hin => ?_⟩
  · rw [hgrows.file]
    exact hdumped
  · rw [hmore, hwire, List.append_assoc]
  · rw [hout] at hin
    cases hin

theorem exec_fwriteBlock_true {h h' : RomHandle}
    (hrun : exec (fwriteBlock link) h = (.ok true, h')) :
    h' = { h with writes := h.writes + 1, file := h.file ++ h.buffer.read 0 h.length.toNat } := by
  unfold fwriteBlock at hrun
  rw [exec_bind_ok (exec_get h), exec_bind_ok (exec_modify _ h), exec_ite] at hrun
  split at hrun
  · cases hrun
  · cases hrun
    rfl

theorem grows_resync (ret : Int) : Within Grows (resync link ret) :=
  within_ite (fun _ => grows_resyncLoop _ _) fun _ => within_pure 0

theorem Grows.of_exec {α : Type} {p : RomProc α} (hp : Within Grows p) {h h' : RomHandle}
    {ret : Except RomStop α} (hrun : exec p h = (ret, h')) : Grows h h' := by
  have hwithin := hp h
  rwa [hrun] at hwithin

/-- The block of the certificate. -/
theorem DumpInv.skip {h h' : RomHandle} {addr : UInt32}
    (hinv : DumpInv model size start h addr 0) (hlt : addr < size)
    (hin : inCertificate model addr = true)
    (hwrite : exec (fwriteBlock link) { h with buffer := h.buffer.fill h.length.toNat 0xFF }
      = (.ok true, h')) :
    DumpInv model size start h' (addr + h.length.toUInt32) 0 := by
  obtain ⟨wire, mid, length, hdumped, hwire, hlast⟩ := hinv.dumped
  obtain ⟨-, hlength⟩ := hlast hin
  have hh' := exec_fwriteBlock_true hwrite
  refine ⟨wire, mid, length, ?_, ?_, fun _ => ⟨rfl, ?_⟩⟩
  · rw [hh']
    dsimp only
    rw [Memory.read_fill, hlength]
    exact .skip hdumped hlt hin
  · rw [hh']
    exact hwire
  · rw [hh']
    exact hlength

/-- A block that has been requested, received and written. -/
theorem DumpInv.block {h h₁ h₂ h₃ h' : RomHandle} {addr : UInt32} {ret : Int}
    (hinv : DumpInv model size start h addr ret) (hlt : addr < size)
    (hout : inCertificate model addr = false) (hgrows : Grows h h₁)
    (hsend : exec (code (romSendDATA link addr)) h₁ = (.ok 0, h₂))
    (hrecv : exec (code (romRecvDATA link)) h₂ = (.ok 0, h₃))
    (hwrite : exec (fwriteBlock link) h₃ = (.ok true, h')) :
    DumpInv model size start h' (addr + h'.length.toUInt32) 0 := by
  obtain ⟨wire, mid, length, hdumped, hwire, -⟩ := hinv.dumped
  obtain ⟨more, hmore⟩ := hgrows.wire
  obtain ⟨hwire₂, hfile₂⟩ := wire_of_sendPkt (by rw [length_putLE]; decide) hsend
  obtain ⟨cmd, data, hwire₃, hfile₃, hblock⟩ := wire_of_romRecvDATA hrecv
  have hh' := exec_fwriteBlock_true hwrite
  have hnext := @Dumped.block _ _ _ _ (mid ++ more) _ _ _ _ _ _ _ hdumped hlt hout hblock
    (Memory.length_read _ _ _)
  have hwire' : h'.wire = wire ++ (mid ++ more)
      ++ [.sent cmdReqBlock (putLE 4 addr.toNat), .reply cmd data] := by
    rw [hh', hwire₃, hwire₂, hmore, hwire]
    simp
  have hfile' : h'.file = h.file ++ h₃.buffer.read 0 h₃.length.toNat := by
    rw [hh', hfile₃, hfile₂, hgrows.file]
  have hlength' : h'.length = h₃.length := by rw [hh']
  refine ⟨h'.wire, [], h'.length, ?_, (List.append_nil _).symm, fun _ => ⟨rfl, rfl⟩⟩
  rw [hwire', hfile', hlength']
  exact hnext

theorem dumpLoop_end {fuel : Nat} {addr : UInt32} {ret : Int} {h h' : RomHandle}
    (hinv : DumpInv model size start h addr ret)
    (hrun : exec (dumpLoop link model size fuel addr ret) h = (.ok 0, h')) :
    DumpEnd (inCertificate model) size start h' := by
  induction fuel generalizing addr ret h with
  | zero => cases hrun
  | succ fuel ih =>
      unfold dumpLoop at hrun
      by_cases hend : size ≤ addr
      · rw [if_pos hend] at hrun
        cases hrun
        obtain ⟨wire, mid, length, hdumped, hwire, -⟩ := hinv.dumped
        exact ⟨wire, mid, addr, length, hdumped, hwire, hend⟩
      have hlt : addr < size := by
        rw [UInt32.le_iff_toNat_le] at hend
        rw [UInt32.lt_iff_toNat_lt]
        omega
      rw [if_neg hend] at hrun
      by_cases habort : ret = errAbort
      · rw [if_pos habort] at hrun
        cases hrun
        exact absurd habort (by decide)
      rw [if_neg habort] at hrun
      obtain ⟨ret', h₁, hsync, hrun⟩ := exec_bind_eq_ok_iff.mp hrun
      by_cases hret' : ret' ≠ 0
      · rw [if_pos hret'] at hrun
        cases hrun
        exact absurd rfl hret'
      rw [if_neg hret'] at hrun
      by_cases hin : inCertificate model addr = true
      · -- nothing has failed since the last block
        obtain ⟨_, _, _, _, _, hlast⟩ := hinv.dumped
        obtain ⟨rfl, -⟩ := hlast hin
        cases hsync
        have hroom : h.length.toNat ≤ romBufferSize := by
          have hlength := h.length.toNat_lt
          rw [romBufferSize]
          omega
        rw [if_pos hin, exec_bind_ok (exec_get _)] at hrun
        dsimp only at hrun
        rw [exec_bind_ok (exec_fillBuffer hroom _ _)] at hrun
        obtain ⟨written, h₂, hwrite, hrun⟩ := exec_bind_eq_ok_iff.mp hrun
        cases written with
        | false => cases hrun
        | true => exact ih (hinv.skip hlt hin hwrite) hrun
      have hout := Bool.eq_false_iff.mpr hin
      have hgrows₁ := Grows.of_exec (grows_resync ret) hsync
      rw [if_neg hin] at hrun
      obtain ⟨ret₁, h₂, hsend, hrun⟩ := exec_bind_eq_ok_iff.mp hrun
      have hgrows₂ := Grows.of_exec (grows_code (grows_sendPkt _ _)) hsend
      by_cases hret₁ : ret₁ ≠ 0
      · rw [if_pos hret₁] at hrun
        exact ih (hinv.retry hout (trans_of Grows hgrows₁ hgrows₂)) hrun
      rw [if_neg hret₁] at hrun
      obtain ⟨ret₂, h₃, hrecv, hrun⟩ := exec_bind_eq_ok_iff.mp hrun
      have hgrows₃ := Grows.of_exec (grows_code grows_romRecvDATA) hrecv
      by_cases hret₂ : ret₂ ≠ 0
      · rw [if_pos hret₂] at hrun
        exact ih (hinv.retry hout (trans_of Grows hgrows₁ (trans_of Grows hgrows₂ hgrows₃))) hrun
      rw [if_neg hret₂] at hrun
      obtain rfl := not_not.mp hret₁
      obtain rfl := not_not.mp hret₂
      obtain ⟨written, h₄, hwrite, hrun⟩ := exec_bind_eq_ok_iff.mp hrun
      cases written with
      | false => cases hrun
      | true => exact ih (hinv.block hlt hout hgrows₁ hsend hrecv hwrite) hrun

theorem grows_readyLoop (n : Nat) (ret : Int) : Within Grows (readyLoop link n ret) := by
  induction n generalizing ret with
  | zero => exact within_pure _
  | succ n ih =>
      refine within_bind (grows_code (grows_sendPkt _ _)) fun ret =>
        within_bind (grows_code (grows_recvOwn _)) fun ret' => ?_
      exact within_ite (fun _ => within_pure _) fun _ =>
        within_ite (fun _ => within_pure _) fun _ => ih ret

theorem grows_announce : Within Grows (announce link) := by
  refine within_bind (grows_readyLoop _ _) fun ready => within_ite (fun _ => within_pure _) fun _ => ?_
  refine within_bind (grows_code (grows_sendPkt _ _)) fun _ =>
    within_ite (fun _ => within_pure _) fun _ => ?_
  exact within_bind (grows_code (grows_recvOwn _)) fun _ =>
    within_ite (fun _ => within_pure _) fun _ => within_pure _

theorem DumpEnd.grows {skips : UInt32 → Bool} {h h' : RomHandle}
    (hend : DumpEnd skips size start h) (hgrows : Grows h h') : DumpEnd skips size start h' := by
  obtain ⟨wire, rest, addr, length, hdumped, hwire, hsize⟩ := hend.dumped
  obtain ⟨more, hmore⟩ := hgrows.wire
  refine ⟨wire, rest ++ more, addr, length, ?_, ?_, hsize⟩
  · rw [hgrows.file]
    exact hdumped
  · rw [hmore, hwire, List.append_assoc]

/-- The blocks of a complete dump have at least the size that was announced. -/
theorem DumpEnd.le_length {skips : UInt32 → Bool} {h : RomHandle}
    (hend : DumpEnd skips size start h) : size.toNat ≤ h.file.length := by
  obtain ⟨wire, rest, addr, length, hdumped, -, hsize⟩ := hend.dumped
  rw [hdumped.addr_eq, UInt32.le_iff_toNat_le] at hsize
  exact hsize.trans (by rw [UInt32.toNat_ofNat']; exact Nat.mod_le _ _)

/-- A dump that ends well is done with its blocks. -/
theorem dumpBlocks_of_rdReadDump {fuel : Nat} {h h' : RomHandle}
    (hrun : exec (rdReadDump link model fuel) h = (.ok 0, h')) :
    ∃ h₂, exec (dumpBlocks link model fuel) { h with file := [] } = (.ok 0, h₂) ∧ Grows h₂ h' := by
  unfold rdReadDump at hrun
  by_cases hopen : link.fopen = false
  · rw [if_pos hopen] at hrun
    cases hrun
  rw [if_neg hopen, exec_bind_ok (exec_modify _ _)] at hrun
  obtain ⟨ret, h₂, hblocks, hrun⟩ := exec_bind_eq_ok_iff.mp hrun
  by_cases hret : ret ≠ 0
  · rw [if_pos hret] at hrun
    cases hrun
    exact absurd rfl hret
  rw [if_neg hret] at hrun
  obtain rfl := not_not.mp hret
  refine ⟨h₂, hblocks, Grows.of_exec ?_ hrun⟩
  exact within_bind (grows_code (grows_sendPkt _ _)) fun _ =>
    within_ite (fun _ => within_pure _) fun _ => grows_code (grows_recvOwn _)

/-- **The file of a dump.**  When `rd_read_dump` ends well and the size has been announced, the
file is made of blocks in the order of their addresses: each is the reply to the request for its
address, or stands for the certificate; and they reach the size that was announced. -/
theorem rdReadDump_dumped {fuel : Nat} {h h₁ h' : RomHandle} {ret : Int}
    (hannounced : exec (announce link) { h with file := [] } = (.ok (true, ret), h₁))
    (hrun : exec (rdReadDump link model fuel) h = (.ok 0, h')) :
    DumpEnd (inCertificate model) (announced h₁) h₁.wire h'
      ∧ (announced h₁).toNat ≤ h'.file.length := by
  obtain ⟨h₂, hblocks, hexit⟩ := dumpBlocks_of_rdReadDump hrun
  have hfile : h₁.file = [] := (Grows.of_exec grows_announce hannounced).file
  unfold dumpBlocks at hblocks
  rw [exec_bind_ok hannounced] at hblocks
  have hloop : exec (dumpLoop link model (announced h₁) fuel 0x0000 ret) h₁ = (.ok 0, h₂) := hblocks
  have hinv : DumpInv model (announced h₁) h₁.wire h₁ 0x0000 ret := by
    refine ⟨h₁.wire, [], 0, ?_, (List.append_nil _).symm, fun hin => ?_⟩
    · rw [hfile]
      exact .start
    · simp [inCertificate] at hin
  have hend := (dumpLoop_end hinv hloop).grows hexit
  exact ⟨hend, hend.le_length⟩

end Dump

/-! ## a block that nobody sent -/

/-- As many bytes as the dumper can have sent in a reply. -/
def replyRoom : RomWire → Nat
  | .sent _ _ => 0
  | .reply cmd data =>
      if cmd = cmdData1 then data.length
      else if cmd ≠ cmdData2 then 0
      else if 4 ≤ data.length then getLE (data.take 2)
      else 0xFFFF

theorem BlockOf.length_le {cmd : UInt16} {data bytes : List UInt8} (h : BlockOf cmd data bytes) :
    bytes.length ≤ replyRoom (.reply cmd data) := by
  cases h with
  | plain => rw [replyRoom, if_pos rfl]
  | @repeated _ size b hreply =>
      rw [List.length_replicate, replyRoom, if_neg (by decide), if_neg (by decide)]
      split
      · next hfour =>
        rw [(hreply hfour).1, UInt16.toNat_ofNat']
        exact Nat.mod_le _ _
      · exact Nat.le_of_lt_succ size.toNat_lt

/-- A file without a block that is filled in is no longer than its replies allow. -/
theorem Dumped.length_le {size : UInt32} {start wire : List RomWire} {addr : UInt32}
    {length : UInt16} {file : List UInt8}
    (h : Dumped (fun _ => false) size start wire addr length file) :
    file.length ≤ (wire.map replyRoom).sum := by
  induction h with
  | start => exact Nat.zero_le _
  | block _ _ _ hblock _ ih =>
      have hle := hblock.length_le
      simp only [List.length_append, List.map_append, List.sum_append, List.map_cons, List.map_nil,
        List.sum_cons, List.sum_nil]
      omega
  | skip _ _ hskip => cases hskip

/-- A dump with the bytes that were announced and no others, all of them from replies. -/
structure Complete (h : RomHandle) : Prop where
  blocks : ∃ start, DumpEnd (fun _ => false) (announced h) start h
  exact : h.file.length = (announced h).toNat

/-- A dumper that announces a byte more than the two blocks in front of the certificate. -/
def certificateLink : RomLink where
  send := fun _ => 0
  recv := fun n => (0, fun i => ([[0x01, 0x00, 0x00, 0x00], [0x01, 0x00],
    [0x03, 0x00, 0x04, 0x00], [0x01], [0x00], [0x01], [0x00], [0x09, 0x00],
    [0x07, 0x00, 0x04, 0x00], [0x00], [0x80], [0x00], [0x00], [0x8B, 0x00],
    [0x07, 0x00, 0x04, 0x00], [0x00], [0x80], [0x00], [0x00], [0x8B, 0x00],
    [0x01, 0x00, 0x00, 0x00], [0x01, 0x00]].getD n []).getD i 0)
  cancel := fun _ => false
  fopen := true
  fwrite := fun _ => true

def certificateAnnounced : RomHandle :=
  (exec (announce certificateLink) { idleHandle with file := [] }).2

def certificateDump : RomHandle := (exec (rdReadDump certificateLink .ti89 4) idleHandle).2

theorem eq_pair_of_fst {α β : Type} {x : α × β} {a : α} {b : β} (h : x.1 = a) (hb : b = x.2) :
    x = (a, b) := by
  rw [← h, hb]

theorem exec_certificateAnnounced :
    exec (announce certificateLink) { idleHandle with file := [] }
      = (.ok (true, 0), certificateAnnounced) := by
  have hcode : (exec (announce certificateLink) { idleHandle with file := [] }).1
      = .ok (true, 0) := by decide +kernel
  exact eq_pair_of_fst hcode rfl

theorem exec_certificateDump :
    exec (rdReadDump certificateLink .ti89 4) idleHandle = (.ok 0, certificateDump) := by
  have hcode : (exec (rdReadDump certificateLink .ti89 4) idleHandle).1 = .ok 0 := by
    decide +kernel
  exact eq_pair_of_fst hcode rfl

theorem rdReadDump_dumped_certificate :
    DumpEnd (inCertificate .ti89) (announced certificateAnnounced) certificateAnnounced.wire
        certificateDump
      ∧ (announced certificateAnnounced).toNat ≤ certificateDump.file.length :=
  rdReadDump_dumped exec_certificateAnnounced exec_certificateDump

theorem not_complete_certificate :
    ¬ ∀ (link : RomLink) (model : CalcModel) (fuel : Nat) (h h' : RomHandle),
      exec (rdReadDump link model fuel) h = (.ok 0, h') → Complete h' := by
  intro hall
  have hcomplete := hall certificateLink .ti89 4 idleHandle certificateDump exec_certificateDump
  obtain ⟨start, hend⟩ := hcomplete.blocks
  obtain ⟨wire, rest, addr, length, hdumped, hwire, -⟩ := hend.dumped
  have hsize : (announced certificateDump).toNat = 0x10001 ∧
      (certificateDump.wire.map replyRoom).sum = 0x10000 := by decide +kernel
  have hle := hdumped.length_le
  have hsum : (wire.map replyRoom).sum ≤ (certificateDump.wire.map replyRoom).sum := by
    rw [hwire, List.map_append, List.sum_append]
    omega
  have hexact := hcomplete.exact
  omega

end Tilibs.Calcs.RomDump
