import Tilibs.Webtilp.NumworksCrash

/-!
# Tilibs.Webtilp.NumworksInterrupted

What is left in the calculator and in the backend when a commit is interrupted: the writes keep
the storage consistent, and the backend forgets its storage unless only the refresh behind the
writes was interrupted.
-/

namespace Tilibs.Webtilp

open Lib

/-- The bytes at the place of the storage. -/
def NumWorks.image (s : NumWorks) (info : PlatformInfo) : List UInt8 :=
  s.memory.read info.storageAddress (info.storageSize + 8)

/-- What an interrupted commit of `records` may leave behind. -/
structure CrashConsistent (text : TextCodec) (device : DfuDevice) (info : PlatformInfo)
    (previousUsedBytes : Nat) (records : List StorageRecord) (encoded : List UInt8)
    (s s' : NumWorks) : Prop where
  frame : ∀ a, a < info.storageAddress ∨ info.storageAddress + 4 + info.storageSize ≤ a →
    s'.memory a = s.memory a
  image : s'.image info = s.image info
    ∨ getBE (slice (s'.image info) (0, 4)) ≠ storageMagic
    ∨ s'.image info = newImage (s.image info) previousUsedBytes encoded
      ∧ ∃ parsed, parseStorageImage text (s'.image info) info.storageSize = .ok parsed
        ∧ parsed.records.map (fun r => (r.nameBytes, r.data))
          = records.map (fun r => (some (r.writtenName text), r.data))
  refuses : Refuses text device s'

/-! ## the storage -/

/-- A memory whose storage begins with the magic word. -/
theorem header_of_magic {m : Memory} {address length : Nat} (hlength : 4 ≤ length)
    (h : getBE (slice (m.read address length) (0, 4)) = storageMagic) :
    m address = 0xBA ∧ m (address + 3) = 0xEE := by
  have hword : slice (m.read address length) (0, 4) = m.read address 4 := by
    unfold slice
    dsimp only
    rw [List.drop_zero, Memory.take_read _ hlength]
  have hbytes := putBE_getBE (slice (m.read address length) (0, 4))
  rw [h, hword, Memory.length_read] at hbytes
  have hfirst := congrArg (fun bytes => bytes[0]?) hbytes
  have hlast := congrArg (fun bytes => bytes[3]?) hbytes
  rw [Memory.getElem?_read _ (by omega)] at hfirst hlast
  exact ⟨(Option.some.inj hfirst).symm, (Option.some.inj hlast).symm⟩

section Storage

variable {text : TextCodec} {info : PlatformInfo} {storage : StorageImage}
  {records : List StorageRecord} {encoded : List UInt8} {m : Memory}

/-- The bounds under which the writes of a commit are in place. -/
theorem commit_bounds (hparse : parseStorageImage text
      (m.read info.storageAddress (info.storageSize + 8)) info.storageSize = .ok storage)
    (hencode : encodeStoragePrefix text records info.storageSize = .ok encoded) :
    6 ≤ encoded.length ∧ encoded.length ≤ 4 + info.storageSize
      ∧ storage.usedBytes ≤ 4 + info.storageSize := by
  obtain ⟨hmin, -, hused⟩ := parseStorageImage_bounds hparse
  obtain ⟨hbytes, -, hroom⟩ := encodeStoragePrefix_ok hencode
  have hlength : encoded.length = 6 + (storageBytes text records).length := by
    rw [hbytes]
    simp only [List.length_append, List.length_cons, List.length_nil]
    omega
  unfold storageHeaderSize at hused hroom
  cases records with
  | nil =>
      have hnone : (storageBytes text []).length = 0 := rfl
      omega
  | cons record records =>
      have hroom := hroom (List.cons_ne_nil record records)
      omega

/-- When all bytes of a commit are written, the storage is the new one. -/
theorem image_of_commit (hparse : parseStorageImage text
      (m.read info.storageAddress (info.storageSize + 8)) info.storageSize = .ok storage)
    (hencode : encodeStoragePrefix text records info.storageSize = .ok encoded) :
    let image := (m.poke (commitBytes info.storageAddress storage.usedBytes encoded)).read
      info.storageAddress (info.storageSize + 8)
    image = newImage (m.read info.storageAddress (info.storageSize + 8)) storage.usedBytes encoded
      ∧ ∃ parsed, parseStorageImage text image info.storageSize = .ok parsed
        ∧ parsed.records.map (fun r => (r.nameBytes, r.data))
          = records.map (fun r => (some (r.writtenName text), r.data)) := by
  intro image
  obtain ⟨hmin, hmax, hused⟩ := commit_bounds hparse hencode
  have himage : image
      = newImage (m.read info.storageAddress (info.storageSize + 8)) storage.usedBytes encoded :=
    read_poke_commitBytes m hmin hmax hused
  obtain ⟨parsed, hparsed, hrecords, -⟩ := parseStorageImage_encoded
    (parseStorageImage_bounds hparse).2.1 hencode (by unfold storageHeaderSize; omega)
    (by rw [Memory.length_read]; omega)
    (show encoded <+: image from ⟨_, himage.symm⟩)
  exact ⟨himage, parsed, hparsed, hrecords⟩

/-- However many bytes of a commit were written, the storage is the old one, an invalid one or
the new one. -/
theorem image_of_take (hparse : parseStorageImage text
      (m.read info.storageAddress (info.storageSize + 8)) info.storageSize = .ok storage)
    (hencode : encodeStoragePrefix text records info.storageSize = .ok encoded) (n : Nat) :
    let image := (m.poke ((commitBytes info.storageAddress storage.usedBytes encoded).take n)).read
      info.storageAddress (info.storageSize + 8)
    image = m.read info.storageAddress (info.storageSize + 8)
    ∨ getBE (slice image (0, 4)) ≠ storageMagic
    ∨ image = newImage (m.read info.storageAddress (info.storageSize + 8)) storage.usedBytes encoded
      ∧ ∃ parsed, parseStorageImage text image info.storageSize = .ok parsed
        ∧ parsed.records.map (fun r => (r.nameBytes, r.data))
          = records.map (fun r => (some (r.writtenName text), r.data)) := by
  intro image
  obtain ⟨hmin, hmax, hused⟩ := commit_bounds hparse hencode
  rcases Nat.eq_zero_or_pos n with rfl | hpos
  · exact Or.inl rfl
  · rcases Nat.lt_or_ge n (commitBytes info.storageAddress storage.usedBytes encoded).length
      with hlt | hge
    · right
      left
      intro hmagic
      obtain ⟨hfirst, hlast⟩ := header_of_magic (by omega) hmagic
      rcases header_of_take m hmin hpos hlt with hzero | hzero
      · rw [hzero] at hfirst
        exact absurd hfirst (by decide)
      · rw [hzero] at hlast
        exact absurd hlast (by decide)
    · right
      right
      have hcommit := image_of_commit (m := m) hparse hencode
      rw [← List.take_of_length_le hge] at hcommit
      exact hcommit

/-- No byte outside the header and the records is written. -/
theorem frame_of_take (hparse : parseStorageImage text
      (m.read info.storageAddress (info.storageSize + 8)) info.storageSize = .ok storage)
    (hencode : encodeStoragePrefix text records info.storageSize = .ok encoded) (n : Nat) {a : Nat}
    (ha : a < info.storageAddress ∨ info.storageAddress + 4 + info.storageSize ≤ a) :
    m.poke ((commitBytes info.storageAddress storage.usedBytes encoded).take n) a = m a := by
  obtain ⟨hmin, hmax, hused⟩ := commit_bounds hparse hencode
  apply Memory.poke_of_forall_ne
  intro w hw
  have hmem := mem_commitBytes hmin hmax hused (List.mem_of_mem_take hw)
  omega

end Storage

/-! ## the interruption -/

section Interrupted

variable {text : TextCodec} {device : DfuDevice} {allow : Bool} {s₀ s s' : NumWorks}
  {info : PlatformInfo} {storage : StorageImage} {records : List StorageRecord}
  {encoded : List UInt8} {left : Nat}

/-- The backend behind the writes of a commit. -/
def afterWrites (info : PlatformInfo) (storage : StorageImage) (encoded : List UInt8)
    (transfers : Nat) (s : NumWorks) : NumWorks :=
  { s with
    memory := s.memory.poke (commitBytes info.storageAddress storage.usedBytes encoded)
    left := s.left - transfers }

/-- The transfers of the writes of a commit, with those that change the interface. -/
def commitSteps (device : DfuDevice) (storage : StorageImage) (encoded : List UInt8)
    (s : NumWorks) : Nat :=
  commitTransfers device.transferSize storage.usedBytes encoded.length + interfaceTransfers s

/-- An interrupted commit was interrupted in its writes, or in the refresh behind them. -/
theorem exec_commitRecords_lost
    (hrefresh : Proc.exec (refresh text device allow) s₀ = (.ok (some storage), s))
    (hinfo : s.platformInfo = some info)
    (hencode : encodeStoragePrefix text records info.storageSize = .ok encoded)
    (hrun : Proc.exec (commitRecords text device records) { s with left } = (.error .lost, s')) :
    CommitAllowed info storage ∧
    (left < commitSteps device storage encoded s ∧ s'.storage = none
        ∧ (∃ n, s'.memory
          = s.memory.poke ((commitBytes info.storageAddress storage.usedBytes encoded).take n))
      ∨ commitSteps device storage encoded s ≤ left ∧ s'.storage = some storage
        ∧ s'.memory = s.memory.poke (commitBytes info.storageAddress storage.usedBytes encoded)
        ∧ s'.platformInfo = (Proc.exec (readPlatformInfo text device) (afterWrites info storage
            encoded (commitSteps device storage encoded s) { s with left })).1.toOption.or
              (some info)) := by
  obtain ⟨info', hinfo', hstorage, hsize, hram, hparse⟩ := exec_refresh_ok hrefresh
  obtain rfl : info' = info := Option.some.inj (hinfo'.symm.trans hinfo)
  have hallowed : CommitAllowed info' storage := by
    by_contra hnot
    obtain ⟨message, hrefused⟩ := @exec_commitRecords_of_not_allowed text device records
      { s with left } _ _ hinfo hstorage hnot
    rw [hrefused] at hrun
    cases hrun
  refine ⟨hallowed, ?_⟩
  obtain ⟨hmin, hmax, hused⟩ := commit_bounds hparse hencode
  have hsends := sends_commitWrites hsize hram hmin hmax hused
  rw [exec_commitRecords (s := { s with left }) hinfo hstorage hallowed, hencode] at hrun
  dsimp only at hrun
  rcases exec_withStorageInterface hsends device { s with left } with ⟨message, hmissing⟩ |
    ⟨hdone, hlost⟩
  · rw [hmissing] at hrun
    cases hrun
  · rcases Nat.lt_or_ge left (commitSteps device storage encoded s) with hlt | hge
    · left
      obtain ⟨n, alternate, hwrites⟩ := hlost hlt
      rw [hwrites] at hrun
      cases hrun
      exact ⟨hlt, rfl, n, rfl⟩
    · right
      rw [hdone hge] at hrun
      obtain ⟨hmemory, hkept⟩ := exec_refresh text device false (afterWrites info' storage encoded
        (commitSteps device storage encoded s) { s with left })
      obtain ⟨hresult, hstate⟩ := Prod.mk.inj hrun
      have hrefreshLost : (Proc.exec (refresh text device false) (afterWrites info' storage encoded
          (commitSteps device storage encoded s) { s with left })).1 = .error .lost := by
        rcases hcase : (Proc.exec (refresh text device false) (afterWrites info' storage encoded
          (commitSteps device storage encoded s) { s with left })).1 with e | found
        · have hmapped : (Except.error e : Except BackendErr Unit) = .error .lost := by
            rw [← hresult]
            show _ = (Proc.exec (refresh text device false) (afterWrites info' storage encoded
              (commitSteps device storage encoded s) { s with left })).1.map fun _ => ()
            rw [hcase]
            rfl
          cases hmapped
          rfl
        · have hmapped : (Except.ok () : Except BackendErr Unit) = .error .lost := by
            rw [← hresult]
            show _ = (Proc.exec (refresh text device false) (afterWrites info' storage encoded
              (commitSteps device storage encoded s) { s with left })).1.map fun _ => ()
            rw [hcase]
            rfl
          cases hmapped
      obtain ⟨hstorage', hinfo''⟩ := hkept hrefreshLost
      subst hstate
      refine ⟨hge, hstorage'.trans hstorage, hmemory, hinfo''.trans ?_⟩
      have hplatform : (afterWrites info' storage encoded (commitSteps device storage encoded s)
          { s with left }).platformInfo = some info' := hinfo
      rw [hplatform]

/-- An interrupted commit is consistent exactly when the connection was lost before the storage
interface was left behind the writes, or when the platform headers are no longer intact there. -/
theorem commitRecords_crashConsistent_iff
    (hrefresh : Proc.exec (refresh text device allow) s₀ = (.ok (some storage), s))
    (hinfo : s.platformInfo = some info)
    (hencode : encodeStoragePrefix text records info.storageSize = .ok encoded)
    (hrun : Proc.exec (commitRecords text device records) { s with left } = (.error .lost, s')) :
    CrashConsistent text device info storage.usedBytes records encoded s s' ↔
      left < commitSteps device storage encoded s ∨
        ∃ info', (Proc.exec (readPlatformInfo text device) (afterWrites info storage encoded
          (commitSteps device storage encoded s) { s with left })).1 = .ok info'
          ∧ info'.headerIntegrity = false := by
  obtain ⟨info', hinfo', -, -, -, hparse⟩ := exec_refresh_ok hrefresh
  obtain rfl : info' = info := Option.some.inj (hinfo'.symm.trans hinfo)
  obtain ⟨⟨hheaders, hfooter, hrecords⟩, hlost⟩ :=
    exec_commitRecords_lost hrefresh hinfo hencode hrun
  have hwritten (n : Nat) (hmemory : s'.memory
      = s.memory.poke ((commitBytes info'.storageAddress storage.usedBytes encoded).take n))
      (hrefuses : Refuses text device s') :
      CrashConsistent text device info' storage.usedBytes records encoded s s' := by
    constructor
    · intro a ha
      rw [hmemory]
      exact frame_of_take hparse hencode n ha
    · unfold NumWorks.image
      rw [hmemory]
      exact image_of_take hparse hencode n
    · exact hrefuses
  rcases hlost with ⟨hlt, hnone, n, hmemory⟩ | ⟨hge, hkept, hmemory, hplatform⟩
  · constructor
    · exact fun _ => Or.inl hlt
    · exact fun _ => hwritten n hmemory (refuses_of_storage_none hnone)
  · rw [← List.take_length (l := commitBytes info'.storageAddress storage.usedBytes encoded)]
      at hmemory
    have hiff : Refuses text device s' ↔
        ∃ info'', (Proc.exec (readPlatformInfo text device) (afterWrites info' storage encoded
          (commitSteps device storage encoded s) { s with left })).1 = .ok info''
          ∧ info''.headerIntegrity = false := by
      rcases hread : (Proc.exec (readPlatformInfo text device) (afterWrites info' storage encoded
        (commitSteps device storage encoded s) { s with left })).1 with e | found
      · rw [hread] at hplatform
        rw [refuses_iff hplatform hkept hfooter hrecords, hheaders]
        simp
      · rw [hread] at hplatform
        rw [refuses_iff hplatform hkept hfooter hrecords]
        simp
    constructor
    · exact fun hconsistent => Or.inr (hiff.mp hconsistent.refuses)
    · rintro (hlt | hbroken)
      · omega
      · exact hwritten _ hmemory (hiff.mpr hbroken)

end Interrupted

/-! ## a calculator without slots -/

deriving instance DecidableEq for StorageImage

/-- The platform information of a firmware without slots. -/
def legacyHeader : List UInt8 :=
  [0xF0, 0x0D, 0xC0, 0xDE, 0, 0, 0, 0, 0, 0, 0, 0, 0, 0, 0, 0, 0, 0, 0, 0,
    0x00, 0x10, 0x00, 0x20, 0x08, 0, 0, 0, 0xF0, 0x0D, 0xC0, 0xDE]

/-- The information in flash, and a storage of eight bytes in RAM. -/
def legacyMemory : Memory := fun a =>
  if 0x080001C4 ≤ a ∧ a < 0x20000000 then legacyHeader.getD (a - 0x080001C4) 0
  else if 0x20001000 ≤ a then sampleImage.getD (a - 0x20001000) 0
  else 0

def legacyDevice : DfuDevice where
  model := "NumWorks N0110"
  transferSize := 64
  alternates := [0]
  memorySegments := []

def legacyNumWorks : NumWorks where
  platformInfo := none
  storage := none
  memory := legacyMemory
  alternate := 0
  left := 3

/-- What is in the storage. -/
def legacyStorage : StorageImage where
  records := [sampleRecord]
  rawImage := sampleImage
  usedBytes := 12
  freeBytes := 0
  footerValid := true

/-- The backend after it has read the storage. -/
def legacyRefreshed : NumWorks := (Proc.exec (refresh asciiText legacyDevice true) legacyNumWorks).2

/-- The backend after a commit of no records that lost the connection. -/
def legacyInterrupted (left : Nat) : NumWorks :=
  (Proc.exec (commitRecords asciiText legacyDevice []) { legacyRefreshed with left }).2

theorem exec_refresh_legacy : Proc.exec (refresh asciiText legacyDevice true) legacyNumWorks
    = (.ok (some legacyStorage), legacyRefreshed) :=
  Prod.ext (show _ = Except.ok (some legacyStorage) by decide +kernel) rfl

/-- The first byte of the terminator is the last that arrives. -/
theorem commitRecords_crashConsistent_iff_legacy :
    CrashConsistent asciiText legacyDevice ⟨"", 0x20001000, 8, true⟩ 12 []
      [0xBA, 0xDD, 0x0B, 0xEE, 0x00, 0x00] legacyRefreshed (legacyInterrupted 10) :=
  (commitRecords_crashConsistent_iff exec_refresh_legacy
    (show legacyRefreshed.platformInfo = some ⟨"", 0x20001000, 8, true⟩ by decide +kernel) rfl
    (Prod.ext (show _ = Except.error BackendErr.lost by decide +kernel) rfl)).mpr
    (Or.inl (by decide +kernel))

/-- All writes arrive, and the first transfer of the refresh does not. -/
theorem not_refuses_legacy :
    Proc.exec (refresh asciiText legacyDevice true) legacyNumWorks
        = (.ok (some legacyStorage), legacyRefreshed) ∧
      legacyStorage.footerValid = true ∧
      Proc.exec (commitRecords asciiText legacyDevice []) { legacyRefreshed with left := 33 }
        = (.error .lost, legacyInterrupted 33) ∧
      ¬Refuses asciiText legacyDevice (legacyInterrupted 33) := by
  refine ⟨exec_refresh_legacy, rfl, Prod.ext (show _ = Except.error BackendErr.lost by
    decide +kernel) rfl, ?_⟩
  have hinfo : (legacyInterrupted 33).platformInfo = some ⟨"", 0x20001000, 8, true⟩ := by
    decide +kernel
  have hstorage : (legacyInterrupted 33).storage = some legacyStorage := by decide +kernel
  rw [refuses_iff hinfo hstorage rfl rfl]
  exact Bool.noConfusion

end Tilibs.Webtilp
