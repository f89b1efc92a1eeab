import Tilibs.Webtilp.NumworksCommit

/-!
# Tilibs.Webtilp.NumworksCrash

A commit that is interrupted leaves the old image, an image with an invalid header, or the new
image.  Whether the backend then refuses other commits depends on where the connection was lost:
it does when a write failed, and it does not when only the refresh behind the writes failed.
-/

namespace Tilibs.Webtilp

open Lib

/-! ## the alternate interface -/

theorem exec_selectAlternate (alternate : Nat) (s : NumWorks) :
    (2 ≤ s.left → Proc.exec (selectAlternate alternate) s
      = (.ok (), { s with alternate, left := s.left - 2 })) ∧
    (s.left < 2 → Proc.exec (selectAlternate alternate) s = (.error .lost, { s with left := 0 })) := by
  obtain ⟨info, storage, memory, previous, left⟩ := s
  constructor
  · intro h
    obtain ⟨left, rfl⟩ := Nat.exists_eq_add_of_le' h
    rfl
  · intro h
    obtain rfl | rfl : left = 0 ∨ left = 1 := by
      change left < 2 at h
      omega
    · rfl
    · rfl

/-- The transfers that change the alternate setting and restore it. -/
def interfaceTransfers (s : NumWorks) : Nat :=
  if firmwareNeedsStorageAlternate ((s.platformInfo.map PlatformInfo.version).getD "")
      ∧ s.alternate ≠ 1 then 4
  else 0

section Interface

variable {p : NumWorksProc Unit} {ws : List (Nat × UInt8)} {c : Nat}

theorem exec_withAlternateSetting (hp : Sends p ws c) {device : DfuDevice} {s : NumWorks}
    (havailable : 1 ∈ device.alternates) (halternate : s.alternate ≠ 1) :
    (c + 4 ≤ s.left → Proc.exec (withAlternateSetting device 1 p) s
      = (.ok (), { s with memory := s.memory.poke ws, left := s.left - (c + 4) })) ∧
    (s.left < c + 4 → ∃ n alternate, Proc.exec (withAlternateSetting device 1 p) s
      = (.error .lost, { s with memory := s.memory.poke (ws.take n), alternate, left := 0 })) := by
  have hselect := exec_selectAlternate 1 s
  unfold withAlternateSetting
  rw [Proc.exec_bind_ok (Proc.exec_get s)]
  dsimp only
  rw [if_neg (not_not_intro havailable), if_neg halternate]
  constructor
  · intro h
    have hrun := hp.done { s with alternate := 1, left := s.left - 2 }
      (show c ≤ s.left - 2 by omega)
    have hrestore := (exec_selectAlternate s.alternate
      { s with memory := s.memory.poke ws, alternate := 1, left := s.left - 2 - c }).1
      (show 2 ≤ s.left - 2 - c by omega)
    rw [Proc.exec_bind_ok (hselect.1 (by omega)), Proc.exec_bind_ok (Proc.exec_attempt _ _), hrun,
      Proc.exec_bind_ok (Proc.exec_attempt _ _), hrestore]
    rw [show s.left - (c + 4) = s.left - 2 - c - 2 by omega]
    rfl
  · intro h
    by_cases hfirst : s.left < 2
    · refine ⟨0, s.alternate, ?_⟩
      rw [Proc.exec_bind_error (hselect.2 hfirst)]
      rfl
    · rw [Proc.exec_bind_ok (hselect.1 (Nat.not_lt.mp hfirst)),
        Proc.exec_bind_ok (Proc.exec_attempt _ _), Proc.exec_bind_ok (Proc.exec_attempt _ _)]
      by_cases hwrite : s.left - 2 < c
      · obtain ⟨n, alternate, hlost⟩ := hp.lost { s with alternate := 1, left := s.left - 2 } hwrite
        refine ⟨n, alternate, ?_⟩
        rw [hlost, (exec_selectAlternate s.alternate _).2 (show 0 < 2 by omega)]
        rfl
      · refine ⟨ws.length, 1, ?_⟩
        rw [hp.done { s with alternate := 1, left := s.left - 2 } (Nat.not_lt.mp hwrite),
          (exec_selectAlternate s.alternate _).2 (show s.left - 2 - c < 2 by omega),
          List.take_length]
        rfl

/-- What the storage interface adds to a procedure that writes. -/
theorem exec_withStorageInterface (hp : Sends p ws c) (device : DfuDevice) (s : NumWorks) :
    (∃ message, Proc.exec (withStorageInterface device p) s = (.error (.error message), s)) ∨
    (c + interfaceTransfers s ≤ s.left → Proc.exec (withStorageInterface device p) s
      = (.ok (), { s with
        memory := s.memory.poke ws, left := s.left - (c + interfaceTransfers s) })) ∧
    (s.left < c + interfaceTransfers s → ∃ n alternate,
      Proc.exec (withStorageInterface device p) s
        = (.error .lost, { s with memory := s.memory.poke (ws.take n), alternate, left := 0 })) := by
  unfold withStorageInterface interfaceTransfers
  rw [Proc.exec_bind_ok (Proc.exec_get s)]
  dsimp only
  by_cases hneeds : firmwareNeedsStorageAlternate
      ((s.platformInfo.map PlatformInfo.version).getD "") = true
  · rw [if_pos hneeds]
    by_cases havailable : 1 ∈ device.alternates
    · right
      by_cases halternate : s.alternate = 1
      · have hsame : Proc.exec (withAlternateSetting device 1 p) s = Proc.exec p s := by
          unfold withAlternateSetting
          rw [Proc.exec_bind_ok (Proc.exec_get s)]
          dsimp only
          rw [if_neg (not_not_intro havailable), if_pos halternate]
        rw [hsame, if_neg (by simp [halternate])]
        exact ⟨hp.done s, hp.lost s⟩
      · rw [if_pos ⟨hneeds, halternate⟩]
        exact exec_withAlternateSetting hp havailable halternate
    · left
      unfold withAlternateSetting
      rw [Proc.exec_bind_ok (Proc.exec_get s)]
      dsimp only
      rw [if_pos havailable]
      exact ⟨_, rfl⟩
  · right
    rw [if_neg hneeds, if_neg (fun h => hneeds h.1)]
    exact ⟨hp.done s, hp.lost s⟩

end Interface

/-! ## procedures that only read -/

/-- Nothing but the alternate setting and the number of transfers changes. -/
def ReadsOnly {α : Type} (p : NumWorksProc α) : Prop :=
  ∀ s : NumWorks, ∃ alternate left, (Proc.exec p s).2 = { s with alternate, left }

section ReadsOnly

variable {α β : Type}

theorem ReadsOnly.pure (a : α) : ReadsOnly (pure a) := fun s => ⟨s.alternate, s.left, rfl⟩

theorem ReadsOnly.throw (e : BackendErr) : ReadsOnly (throw e : NumWorksProc α) :=
  fun s => ⟨s.alternate, s.left, rfl⟩

theorem ReadsOnly.get : ReadsOnly (get : NumWorksProc NumWorks) :=
  fun s => ⟨s.alternate, s.left, rfl⟩

theorem ReadsOnly.bind {p : NumWorksProc α} {f : α → NumWorksProc β} (hp : ReadsOnly p)
    (hf : ∀ a, ReadsOnly (f a)) : ReadsOnly (p >>= f) := by
  intro s
  obtain ⟨alternate, left, hs⟩ := hp s
  rw [Proc.exec_bind]
  rcases hrun : Proc.exec p s with ⟨e | a, t⟩
  · rw [hrun] at hs
    exact ⟨alternate, left, hs⟩
  · rw [hrun] at hs
    dsimp only at hs ⊢
    obtain ⟨alternate', left', ht⟩ := hf a t
    refine ⟨alternate', left', ?_⟩
    rw [ht, hs]

theorem ReadsOnly.attempt {p : NumWorksProc α} (hp : ReadsOnly p) : ReadsOnly (Proc.attempt p) :=
  fun s => hp s

theorem ReadsOnly.transfer : ReadsOnly usbTransfer := by
  intro s
  rcases Nat.lt_or_ge s.left 1 with h | h
  · obtain ⟨n, alternate, hlost⟩ := Sends.transfer.lost s h
    refine ⟨alternate, 0, ?_⟩
    rw [hlost, List.take_nil]
    rfl
  · refine ⟨s.alternate, s.left - 1, ?_⟩
    rw [Sends.transfer.done s h]
    rfl

theorem ReadsOnly.selectAlternate (alternate : Nat) : ReadsOnly (selectAlternate alternate) := by
  intro s
  rcases Nat.lt_or_ge s.left 2 with h | h
  · exact ⟨s.alternate, 0, by rw [(exec_selectAlternate alternate s).2 h]⟩
  · exact ⟨alternate, s.left - 2, by rw [(exec_selectAlternate alternate s).1 h]⟩

theorem readsOnly_readMemory (device : DfuDevice) (address length : Nat) :
    ReadsOnly (readMemory device address length) := by
  unfold readMemory
  split
  · exact .throw _
  · split
    · exact .throw _
    · exact .bind .transfer fun _ => .bind .get fun s => .pure _

theorem readsOnly_withAlternateSetting (device : DfuDevice) (alternateSetting : Nat)
    {p : NumWorksProc α} (hp : ReadsOnly p) :
    ReadsOnly (withAlternateSetting device alternateSetting p) := by
  unfold withAlternateSetting
  refine .bind .get fun s => ?_
  dsimp only
  split
  · exact .throw _
  · split
    · exact hp
    · refine .bind (.selectAlternate _) fun _ => .bind hp.attempt fun result =>
        .bind (ReadsOnly.selectAlternate _).attempt fun restored => ?_
      cases result with
      | error e => exact .throw e
      | ok a =>
          cases restored with
          | error e => exact .throw e
          | ok _ => exact .pure a

theorem readsOnly_withStorageInterface (device : DfuDevice) {p : NumWorksProc α}
    (hp : ReadsOnly p) : ReadsOnly (withStorageInterface device p) := by
  unfold withStorageInterface
  refine .bind .get fun s => ?_
  dsimp only
  split
  · exact readsOnly_withAlternateSetting device 1 hp
  · exact hp

theorem readsOnly_readPlatformInfo (text : TextCodec) (device : DfuDevice) :
    ReadsOnly (readPlatformInfo text device) := by
  unfold readPlatformInfo
  refine .bind (readsOnly_readMemory device _ _) fun bytes => ?_
  cases parseSlotInfo bytes with
  | none =>
      refine .bind (readsOnly_readMemory device _ _) fun bytes => ?_
      cases parseLegacyPlatformInfo text bytes with
      | none => exact .throw _
      | some info => exact .pure info
  | some slot =>
      refine .bind (readsOnly_readMemory device _ _) fun bytes =>
        .bind (readsOnly_readMemory device _ _) fun bytes' => ?_
      dsimp only
      cases parseUserlandHeader text bytes with
      | none => exact .throw _
      | some userland => exact .pure _

theorem readsOnly_validateStorageLocation (info : PlatformInfo) :
    ReadsOnly (validateStorageLocation info) := by
  unfold validateStorageLocation
  split
  · exact .throw _
  · split
    · exact .throw _
    · exact .pure ()

end ReadsOnly

/-! ## refresh -/

/-- What was attempted is what happened. -/
theorem exec_of_attempt {α : Type} {p : NumWorksProc α} {s t : NumWorks}
    {result : Except BackendErr α} (h : Proc.exec (Proc.attempt p) s = (.ok result, t)) :
    Proc.exec p s = (result, t) := by
  rw [Proc.exec_attempt] at h
  obtain ⟨hresult, ht⟩ := Prod.mk.inj h
  exact Prod.ext (Except.ok.inj hresult) ht

theorem exec_readMemory_ok {device : DfuDevice} {address length : Nat} {s t : NumWorks}
    {bytes : List UInt8} (h : Proc.exec (readMemory device address length) s = (.ok bytes, t)) :
    0 < device.transferSize ∧ bytes = s.memory.read address length := by
  unfold readMemory at h
  split at h
  · cases h
  · split at h
    · cases h
    · next hsize =>
      obtain ⟨_, u, htransfer, hread⟩ := Proc.exec_bind_eq_ok_iff.mp h
      obtain ⟨alternate, left, hu⟩ := ReadsOnly.transfer s
      rw [htransfer] at hu
      obtain rfl : u = { s with alternate, left } := hu
      cases hread
      exact ⟨Nat.pos_of_ne_zero hsize, rfl⟩

/-- What is read behind the storage interface is what the operation reads. -/
theorem exec_withStorageInterface_readMemory_ok {device : DfuDevice} {address length : Nat}
    {s t : NumWorks} {bytes : List UInt8}
    (h : Proc.exec (withStorageInterface device (readMemory device address length)) s
      = (.ok bytes, t)) :
    0 < device.transferSize ∧ bytes = s.memory.read address length := by
  unfold withStorageInterface at h
  rw [Proc.exec_bind_ok (Proc.exec_get s)] at h
  dsimp only at h
  split at h
  · unfold withAlternateSetting at h
    rw [Proc.exec_bind_ok (Proc.exec_get s)] at h
    dsimp only at h
    split at h
    · cases h
    · split at h
      · exact exec_readMemory_ok h
      · obtain ⟨_, u, hselect, h⟩ := Proc.exec_bind_eq_ok_iff.mp h
        obtain ⟨alternate, left, hu⟩ := ReadsOnly.selectAlternate 1 s
        rw [hselect] at hu
        obtain rfl : u = { s with alternate, left } := hu
        obtain ⟨result, v, hread, h⟩ := Proc.exec_bind_eq_ok_iff.mp h
        obtain ⟨restored, w, hrestore, h⟩ := Proc.exec_bind_eq_ok_iff.mp h
        cases result with
        | error e => cases h
        | ok found =>
            cases restored with
            | error e => cases h
            | ok _ =>
                cases h
                have hfound := exec_readMemory_ok (exec_of_attempt hread)
                exact hfound
  · exact exec_readMemory_ok h

theorem exec_validateStorageLocation_ok {info : PlatformInfo} {s t : NumWorks}
    (h : Proc.exec (validateStorageLocation info) s = (.ok (), t)) :
    isRamWriteRange info.storageAddress (info.storageSize + 8) = true ∧ t = s := by
  unfold validateStorageLocation at h
  split at h
  · cases h
  · split at h
    · cases h
    · next hrange =>
      cases h
      exact ⟨not_not.mp hrange, rfl⟩

/-- A refresh that begins with the platform information: what it leaves of the backend. -/
theorem exec_readRawStorageImage {text : TextCodec} {device : DfuDevice} {s : NumWorks}
    {info : PlatformInfo} (hinfo : s.platformInfo = some info) :
    ∃ alternate left,
      (Proc.exec (readRawStorageImage text device) s).2 = { s with alternate, left } ∧
      ∀ raw, (Proc.exec (readRawStorageImage text device) s).1 = .ok raw →
        0 < device.transferSize ∧ isRamWriteRange info.storageAddress (info.storageSize + 8) = true
          ∧ raw = s.memory.read info.storageAddress (info.storageSize + 8) := by
  have hsame : { s with platformInfo := some info } = s := by rw [← hinfo]
  have hrun : Proc.exec (readRawStorageImage text device) s = Proc.exec (do
      validateStorageLocation info
      withStorageInterface device
        (readMemory device info.storageAddress (info.storageSize + 8))) s := by
    unfold readRawStorageImage
    rw [Proc.exec_bind_ok (Proc.exec_get s), hinfo]
    dsimp only
    rw [Proc.exec_bind_ok (Proc.exec_pure info s), Proc.exec_bind_ok (Proc.exec_modify _ s), hsame]
  have hreads : ReadsOnly (do
      validateStorageLocation info
      withStorageInterface device
        (readMemory device info.storageAddress (info.storageSize + 8))) :=
    .bind (readsOnly_validateStorageLocation info) fun _ =>
      readsOnly_withStorageInterface device (readsOnly_readMemory device _ _)
  obtain ⟨alternate, left, hs⟩ := hreads s
  rw [hrun]
  refine ⟨alternate, left, hs, ?_⟩
  intro raw hraw
  obtain ⟨_, t, hvalidate, hread⟩ := Proc.exec_bind_eq_ok_iff.mp
    (Prod.ext hraw rfl : Proc.exec (do
      validateStorageLocation info
      withStorageInterface device
        (readMemory device info.storageAddress (info.storageSize + 8))) s = (.ok raw, _))
  obtain ⟨hrange, rfl⟩ := exec_validateStorageLocation_ok hvalidate
  obtain ⟨hsize, hbytes⟩ := exec_withStorageInterface_readMemory_ok hread
  exact ⟨hsize, hrange, hbytes⟩

/-- What a refresh that finds a storage has checked. -/
theorem exec_refresh_ok {text : TextCodec} {device : DfuDevice} {allow : Bool} {s t : NumWorks}
    {storage : StorageImage} (h : Proc.exec (refresh text device allow) s = (.ok (some storage), t)) :
    ∃ info, t.platformInfo = some info ∧ t.storage = some storage ∧ 0 < device.transferSize
      ∧ isRamWriteRange info.storageAddress (info.storageSize + 8) = true
      ∧ parseStorageImage text (t.memory.read info.storageAddress (info.storageSize + 8))
          info.storageSize = .ok storage := by
  unfold refresh at h
  obtain ⟨info, u, hplatform, h⟩ := Proc.exec_bind_eq_ok_iff.mp h
  rw [Proc.exec_bind_ok (Proc.exec_modify _ u)] at h
  obtain ⟨_, v, hvalidate, h⟩ := Proc.exec_bind_eq_ok_iff.mp h
  obtain ⟨hrange, rfl⟩ := exec_validateStorageLocation_ok hvalidate
  obtain ⟨raw, w, hread, h⟩ := Proc.exec_bind_eq_ok_iff.mp h
  obtain ⟨alternate, left, hw, hraw⟩ := @exec_readRawStorageImage text device
    { u with platformInfo := some info } info rfl
  rw [hread] at hw hraw
  obtain ⟨hsize, -, rfl⟩ := hraw raw rfl
  obtain rfl : w = _ := hw
  cases hparse : parseStorageImage text
      (u.memory.read info.storageAddress (info.storageSize + 8)) info.storageSize with
  | error message =>
      dsimp only at h
      rw [hparse] at h
      cases allow with
      | true => cases h
      | false => cases h
  | ok found =>
      dsimp only at h
      rw [hparse] at h
      cases h
      exact ⟨info, rfl, rfl, hsize, hrange, hparse⟩

/-- A refresh does not write, and when the connection is lost, the backend keeps its storage; it
also keeps its platform information, unless it has just read it. -/
theorem exec_refresh (text : TextCodec) (device : DfuDevice) (allow : Bool) (s : NumWorks) :
    (Proc.exec (refresh text device allow) s).2.memory = s.memory ∧
      ((Proc.exec (refresh text device allow) s).1 = .error .lost →
        (Proc.exec (refresh text device allow) s).2.storage = s.storage ∧
          (Proc.exec (refresh text device allow) s).2.platformInfo
            = (Proc.exec (readPlatformInfo text device) s).1.toOption.or s.platformInfo) := by
  obtain ⟨alternate, left, hu⟩ := readsOnly_readPlatformInfo text device s
  unfold refresh
  rw [Proc.exec_bind]
  rcases hplatform : Proc.exec (readPlatformInfo text device) s with ⟨e | info, u⟩
  · rw [hplatform] at hu
    obtain rfl : u = { s with alternate, left } := hu
    exact ⟨rfl, fun _ => ⟨rfl, rfl⟩⟩
  · rw [hplatform] at hu
    obtain rfl : u = { s with alternate, left } := hu
    dsimp only
    rw [Proc.exec_bind_ok (Proc.exec_modify _ _), Proc.exec_bind]
    obtain ⟨alternate', left', hv⟩ := readsOnly_validateStorageLocation info
      { s with platformInfo := some info, alternate, left }
    rcases hvalidate : Proc.exec (validateStorageLocation info)
      { s with platformInfo := some info, alternate, left } with ⟨e | _, v⟩
    · rw [hvalidate] at hv
      obtain rfl : v = { s with platformInfo := some info, alternate := alternate', left := left' } :=
        hv
      exact ⟨rfl, fun _ => ⟨rfl, rfl⟩⟩
    · obtain ⟨-, rfl⟩ := exec_validateStorageLocation_ok hvalidate
      dsimp only
      rw [Proc.exec_bind]
      obtain ⟨alternate', left', hw, -⟩ := @exec_readRawStorageImage text device
        { s with platformInfo := some info, alternate, left } info rfl
      rcases hread : Proc.exec (readRawStorageImage text device)
        { s with platformInfo := some info, alternate, left } with ⟨e | raw, w⟩
      · rw [hread] at hw
        obtain rfl :
            w = { s with platformInfo := some info, alternate := alternate', left := left' } := hw
        exact ⟨rfl, fun _ => ⟨rfl, rfl⟩⟩
      · rw [hread] at hw
        obtain rfl :
            w = { s with platformInfo := some info, alternate := alternate', left := left' } := hw
        dsimp only
        cases parseStorageImage text raw info.storageSize with
        | ok found => exact ⟨rfl, nofun⟩
        | error message => cases allow <;> exact ⟨rfl, nofun⟩

/-! ## commits that are refused -/

/-- Every commit is refused, and nothing changes. -/
def Refuses (text : TextCodec) (device : DfuDevice) (s : NumWorks) : Prop :=
  ∀ records left, ∃ message, Proc.exec (commitRecords text device records) { s with left }
    = (.error (.error message), { s with left })

/-- What a commit checks before it encodes the records. -/
def CommitAllowed (info : PlatformInfo) (storage : StorageImage) : Prop :=
  info.headerIntegrity = true ∧ storage.footerValid = true
    ∧ storage.records.any (fun record => !record.valid) = false

section Commit

variable {text : TextCodec} {device : DfuDevice} {records : List StorageRecord} {s : NumWorks}
  {info : PlatformInfo} {storage : StorageImage} {encoded : List UInt8}

theorem exec_commitRecords_of_not_allowed (hinfo : s.platformInfo = some info)
    (hstorage : s.storage = some storage) (h : ¬CommitAllowed info storage) :
    ∃ message, Proc.exec (commitRecords text device records) s = (.error (.error message), s) := by
  unfold commitRecords
  rw [Proc.exec_bind_ok (Proc.exec_get s), hinfo, hstorage]
  dsimp only
  by_cases hheaders : info.headerIntegrity = true
  · rw [if_neg (not_not_intro hheaders)]
    by_cases hfooter : storage.footerValid = true
    · rw [if_neg (not_not_intro hfooter)]
      by_cases hrecords : storage.records.any (fun record => !record.valid) = true
      · rw [if_pos hrecords]
        exact ⟨_, rfl⟩
      · exact absurd ⟨hheaders, hfooter, Bool.eq_false_of_not_eq_true hrecords⟩ h
    · rw [if_pos hfooter]
      exact ⟨_, rfl⟩
  · rw [if_pos hheaders]
    exact ⟨_, rfl⟩

/-- A commit that is allowed encodes the records, writes them and refreshes. -/
theorem exec_commitRecords (hinfo : s.platformInfo = some info)
    (hstorage : s.storage = some storage) (h : CommitAllowed info storage) :
    Proc.exec (commitRecords text device records) s =
      match encodeStoragePrefix text records info.storageSize with
      | .error message => (.error (.error message), s)
      | .ok encoded =>
          match Proc.exec (withStorageInterface device
            (commitWrites device info.storageAddress storage.usedBytes encoded)) s with
          | (.error e, t) => (.error e, { t with storage := none })
          | (.ok _, t) =>
              ((Proc.exec (refresh text device false) t).1.map fun _ => (),
                (Proc.exec (refresh text device false) t).2) := by
  obtain ⟨hheaders, hfooter, hrecords⟩ := h
  unfold commitRecords
  rw [Proc.exec_bind_ok (Proc.exec_get s), hinfo, hstorage]
  dsimp only
  rw [if_neg (not_not_intro hheaders), if_neg (not_not_intro hfooter), if_neg (by simp [hrecords])]
  cases encodeStoragePrefix text records info.storageSize with
  | error message => rfl
  | ok encoded =>
      dsimp only
      rw [Proc.exec_bind_ok (Proc.exec_attempt _ _)]
      rcases Proc.exec (withStorageInterface device
        (commitWrites device info.storageAddress storage.usedBytes encoded)) s with ⟨e | _, t⟩
      · rfl
      · dsimp only
        rw [Proc.exec_bind]
        rcases Proc.exec (refresh text device false) t with ⟨e | _, u⟩
        · rfl
        · rfl

/-- Without a storage the backend refuses every commit. -/
theorem refuses_of_storage_none (h : s.storage = none) : Refuses text device s := by
  intro records left
  unfold commitRecords
  rw [Proc.exec_bind_ok (Proc.exec_get _)]
  dsimp only
  rw [h]
  cases s.platformInfo with
  | none => exact ⟨_, rfl⟩
  | some info =>
      dsimp only
      split
      · exact ⟨_, rfl⟩
      · exact ⟨_, rfl⟩

/-- Without a transfer left nothing can be written. -/
theorem exec_commitWrites_left_zero (storageAddress previousUsedBytes : Nat) (h : s.left = 0) :
    ∃ e t, Proc.exec (withStorageInterface device
      (commitWrites device storageAddress previousUsedBytes encoded)) s = (.error e, t) := by
  have hwrite : ∃ e t, Proc.exec
      (commitWrites device storageAddress previousUsedBytes encoded) s = (.error e, t) := by
    have hfirst : ∃ e t, Proc.exec
        (writeRam device storageAddress (List.replicate storageHeaderSize 0)) s = (.error e, t) := by
      unfold writeRam
      split
      · exact ⟨_, _, rfl⟩
      · obtain ⟨n, alternate, hlost⟩ := Sends.transfer.lost s (by omega)
        exact ⟨_, _, Proc.exec_bind_error hlost⟩
    obtain ⟨e, t, hfirst⟩ := hfirst
    exact ⟨e, t, Proc.exec_bind_error hfirst⟩
  unfold withStorageInterface
  rw [Proc.exec_bind_ok (Proc.exec_get s)]
  dsimp only
  split
  · unfold withAlternateSetting
    rw [Proc.exec_bind_ok (Proc.exec_get s)]
    dsimp only
    split
    · exact ⟨_, _, rfl⟩
    · split
      · exact hwrite
      · exact ⟨_, _, Proc.exec_bind_error ((exec_selectAlternate 1 s).2 (by omega))⟩
  · exact hwrite

/-- With a storage that was valid it refuses only when the headers are not intact. -/
theorem refuses_iff (hinfo : s.platformInfo = some info) (hstorage : s.storage = some storage)
    (hfooter : storage.footerValid = true)
    (hrecords : storage.records.any (fun record => !record.valid) = false) :
    Refuses text device s ↔ info.headerIntegrity = false := by
  constructor
  · intro hrefuses
    by_contra hheaders
    obtain ⟨message, hrun⟩ := hrefuses [] 0
    rw [exec_commitRecords (s := { s with left := 0 }) hinfo hstorage
      ⟨Bool.eq_true_of_not_eq_false hheaders, hfooter, hrecords⟩] at hrun
    have hencode : encodeStoragePrefix text [] info.storageSize
        = .ok [0xBA, 0xDD, 0x0B, 0xEE, 0x00, 0x00] := rfl
    obtain ⟨e, t, hwrite⟩ := @exec_commitWrites_left_zero device { s with left := 0 }
      [0xBA, 0xDD, 0x0B, 0xEE, 0x00, 0x00] info.storageAddress storage.usedBytes rfl
    rw [hencode] at hrun
    dsimp only at hrun
    rw [hwrite] at hrun
    -- the backend has forgotten its storage, so it did change
    have hchanged := congrArg (fun result => result.2.storage) hrun
    rw [hstorage] at hchanged
    cases hchanged
  · intro hheaders records left
    exact exec_commitRecords_of_not_allowed (s := { s with left }) hinfo hstorage
      (fun hallowed => by rw [hallowed.1] at hheaders; cases hheaders)

end Commit

end Tilibs.Webtilp
