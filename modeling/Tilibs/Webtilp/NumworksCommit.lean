import Tilibs.Webtilp.NumworksBackend

/-!
# Tilibs.Webtilp.NumworksCommit

What `commitRecords` leaves in the calculator when the connection is lost.  The writes begin with
a zero header and end with the magic word, so in between the image is never taken for a valid one.
The backend forgets its storage when a write fails, and then refuses every other commit; when the
refresh behind the writes fails, it keeps the storage from before.
-/

namespace Tilibs.Webtilp

open Lib

/-! ## procedures that write -/

/-- A procedure that sends these bytes with so many transfers, or loses the connection behind
some of the bytes. -/
structure Sends (p : NumWorksProc Unit) (ws : List (Nat × UInt8)) (transfers : Nat) : Prop where
  done : ∀ s : NumWorks, transfers ≤ s.left → Proc.exec p s
    = (.ok (), { s with memory := s.memory.poke ws, left := s.left - transfers })
  lost : ∀ s : NumWorks, s.left < transfers → ∃ n alternate, Proc.exec p s
    = (.error .lost, { s with memory := s.memory.poke (ws.take n), alternate, left := 0 })

theorem Sends.pure : Sends (pure ()) [] 0 where
  done _ _ := rfl
  lost _ h := absurd h (Nat.not_lt_zero _)

theorem Sends.transfer : Sends usbTransfer [] 1 where
  done s h := by
    unfold usbTransfer
    rw [Proc.exec_bind_ok (Proc.exec_get s), if_neg (by omega)]
    rfl
  lost s h := by
    obtain ⟨info, storage, memory, alternate, left⟩ := s
    obtain rfl : left = 0 := Nat.lt_one_iff.mp h
    exact ⟨0, alternate, rfl⟩

theorem Sends.poke (address : Nat) (b : UInt8) : Sends (usbPoke address b) [(address, b)] 1 where
  done s h := by
    unfold usbPoke
    rw [Proc.exec_bind_ok (Sends.transfer.done s h)]
    rfl
  lost s h := by
    obtain ⟨n, alternate, hlost⟩ := Sends.transfer.lost s h
    refine ⟨0, alternate, ?_⟩
    unfold usbPoke
    rw [Proc.exec_bind_error hlost, List.take_nil]
    rfl

/-- One procedure after the other. -/
theorem Sends.bind {p q : NumWorksProc Unit} {ws us : List (Nat × UInt8)} {c d : Nat}
    (hp : Sends p ws c) (hq : Sends q us d) : Sends (do p; q) (ws ++ us) (c + d) where
  done s h := by
    rw [Proc.exec_bind_ok (hp.done s (by omega)), hq.done _ (by show d ≤ s.left - c; omega)]
    dsimp only
    rw [Memory.poke_append, Nat.sub_sub]
  lost s h := by
    by_cases hfirst : s.left < c
    · obtain ⟨n, alternate, hlost⟩ := hp.lost s hfirst
      refine ⟨min n ws.length, alternate, ?_⟩
      rw [Proc.exec_bind_error hlost, List.take_append_of_le_length (Nat.min_le_right n _),
        ← List.take_take, List.take_length]
    · obtain ⟨n, alternate, hlost⟩ := hq.lost
        { s with memory := s.memory.poke ws, left := s.left - c } (by show s.left - c < d; omega)
      refine ⟨ws.length + n, alternate, ?_⟩
      rw [Proc.exec_bind_ok (hp.done s (Nat.not_lt.mp hfirst)), hlost, List.take_append,
        Nat.add_sub_cancel_left, List.take_of_length_le (Nat.le_add_right _ n),
        Memory.poke_append]

theorem sends_sendBytes (address : Nat) (bytes : List UInt8) :
    Sends (sendBytes address bytes) (block address bytes) bytes.length := by
  induction bytes generalizing address with
  | nil => exact Sends.pure
  | cons b bs ih =>
      have hrest := (Sends.poke address b).bind (ih (address + 1))
      rw [Nat.add_comm 1 bs.length] at hrest
      exact hrest

/-- The transfers of a download: its bytes, and for each chunk the address and the status. -/
def downloadTransfers (transferSize length : Nat) : Nat :=
  length + 2 * ((length + transferSize - 1) / transferSize)

theorem sends_doDownload {transferSize : Nat} (hsize : 0 < transferSize) {fuel : Nat} (address : Nat)
    {bytes : List UInt8} (hfuel : bytes.length ≤ fuel) :
    Sends (doDownload transferSize fuel address bytes) (block address bytes)
      (downloadTransfers transferSize bytes.length) := by
  induction fuel generalizing address bytes with
  | zero =>
      obtain rfl := List.length_eq_zero_iff.mp (Nat.le_zero.mp hfuel)
      have hnone : downloadTransfers transferSize ([] : List UInt8).length = 0 := by
        unfold downloadTransfers
        rw [List.length_nil, Nat.zero_add, Nat.div_eq_of_lt (by omega)]
      rw [hnone]
      exact Sends.pure
  | succ fuel ih =>
      cases bytes with
      | nil =>
          have hnone : downloadTransfers transferSize ([] : List UInt8).length = 0 := by
            unfold downloadTransfers
            rw [List.length_nil, Nat.zero_add, Nat.div_eq_of_lt (by omega)]
          rw [hnone]
          exact Sends.pure
      | cons b bs =>
          have hlength : ((b :: bs).take transferSize).length = min transferSize (b :: bs).length :=
            List.length_take
          have hdrop : ((b :: bs).drop transferSize).length = (b :: bs).length - transferSize :=
            List.length_drop
          have hrest := ih (address + ((b :: bs).take transferSize).length)
            (by rw [hdrop, List.length_cons]; rw [List.length_cons] at hfuel; omega :
              ((b :: bs).drop transferSize).length ≤ fuel)
          have hall := Sends.transfer.bind ((sends_sendBytes address
            ((b :: bs).take transferSize)).bind (Sends.transfer.bind hrest))
          have hblock : [] ++ (block address ((b :: bs).take transferSize) ++ ([] ++
                block (address + ((b :: bs).take transferSize).length)
                  ((b :: bs).drop transferSize))) = block address (b :: bs) := by
            rw [List.nil_append, List.nil_append, ← block_append, List.take_append_drop]
          have hcount : 1 + (((b :: bs).take transferSize).length
                + (1 + downloadTransfers transferSize ((b :: bs).drop transferSize).length))
              = downloadTransfers transferSize (b :: bs).length := by
            have hpos : 0 < (b :: bs).length := Nat.succ_pos bs.length
            unfold downloadTransfers
            rw [hlength, hdrop]
            generalize (b :: bs).length = length at hpos
            rcases Nat.lt_or_ge transferSize length with hlt | hge
            · rw [Nat.min_eq_left hlt.le, show length + transferSize - 1
                = (length - transferSize + transferSize - 1) + transferSize by omega,
                Nat.add_div_right _ hsize]
              omega
            · rw [Nat.min_eq_right hge, Nat.sub_eq_zero_of_le hge, Nat.zero_add, Nat.zero_add,
                Nat.div_eq_of_lt (by omega), show length + transferSize - 1
                = (length - 1) + transferSize by omega, Nat.add_div_right _ hsize,
                Nat.div_eq_of_lt (by omega)]
              omega
          rw [hblock, hcount] at hall
          exact hall

theorem sends_writeRam {device : DfuDevice} (hsize : 0 < device.transferSize) {address : Nat}
    {bytes : List UInt8} (hrange : isRamWriteRange address bytes.length = true) :
    Sends (writeRam device address bytes) (block address bytes)
      (1 + downloadTransfers device.transferSize bytes.length) := by
  unfold writeRam
  rw [if_neg (by simp [hrange])]
  exact Sends.transfer.bind (sends_doDownload hsize address le_rfl)

/-! ## the writes of a commit -/

/-- The bytes behind the header that a commit writes: the terminator, the body and the stale
tail. -/
def commitBody (storageAddress previousUsedBytes : Nat) (encoded : List UInt8) :
    List (Nat × UInt8) :=
  block (storageAddress + encoded.length - storageTerminatorSize)
      (encoded.drop (encoded.length - storageTerminatorSize))
    ++ (block (storageAddress + storageHeaderSize) (encoded.drop storageHeaderSize)
      ++ block (storageAddress + encoded.length)
        (List.replicate (previousUsedBytes - encoded.length) 0))

/-- The bytes that a commit writes. -/
def commitBytes (storageAddress previousUsedBytes : Nat) (encoded : List UInt8) :
    List (Nat × UInt8) :=
  block storageAddress (List.replicate storageHeaderSize 0)
    ++ (commitBody storageAddress previousUsedBytes encoded
      ++ block storageAddress (encoded.take storageHeaderSize))

/-- The transfers of a write. -/
def writeTransfers (transferSize length : Nat) : Nat := 1 + downloadTransfers transferSize length

/-- The transfers of the writes of a commit. -/
def commitTransfers (transferSize previousUsedBytes length : Nat) : Nat :=
  writeTransfers transferSize storageHeaderSize
    + (writeTransfers transferSize storageTerminatorSize
      + (writeTransfers transferSize (length - storageHeaderSize)
        + ((if previousUsedBytes - length > 0 then
              writeTransfers transferSize (previousUsedBytes - length)
            else 0)
          + writeTransfers transferSize storageHeaderSize)))

section Commit

variable {storageAddress storageSize previousUsedBytes : Nat} {encoded : List UInt8}

theorem isRamWriteRange_mono {address length address' length' : Nat}
    (h : isRamWriteRange address length = true) (hstart : address ≤ address')
    (hend : address' + length' ≤ address + length) :
    isRamWriteRange address' length' = true := by
  unfold isRamWriteRange at h ⊢
  rw [decide_eq_true_eq] at h ⊢
  omega

theorem sends_commitWrites {device : DfuDevice} (hsize : 0 < device.transferSize)
    (hram : isRamWriteRange storageAddress (storageSize + 8) = true)
    (hmin : 6 ≤ encoded.length) (hmax : encoded.length ≤ 4 + storageSize)
    (hused : previousUsedBytes ≤ 4 + storageSize) :
    Sends (commitWrites device storageAddress previousUsedBytes encoded)
      (commitBytes storageAddress previousUsedBytes encoded)
      (commitTransfers device.transferSize previousUsedBytes encoded.length) := by
  have hwrite (bytes : List UInt8) {address : Nat} (hstart : storageAddress ≤ address)
      (hend : address + bytes.length ≤ storageAddress + (storageSize + 8)) :=
    sends_writeRam hsize (isRamWriteRange_mono hram hstart hend)
  have hheader := hwrite (List.replicate storageHeaderSize 0) le_rfl
    (by rw [List.length_replicate]; unfold storageHeaderSize; omega)
  have hterminator := hwrite (encoded.drop (encoded.length - storageTerminatorSize))
    (show storageAddress ≤ storageAddress + encoded.length - storageTerminatorSize by
      unfold storageTerminatorSize; omega)
    (by rw [List.length_drop]; unfold storageTerminatorSize; omega)
  have hbody := hwrite (encoded.drop storageHeaderSize)
    (Nat.le_add_right storageAddress storageHeaderSize)
    (by rw [List.length_drop]; unfold storageHeaderSize; omega)
  have hmagic := hwrite (encoded.take storageHeaderSize) le_rfl
    (by rw [List.length_take]; unfold storageHeaderSize; omega)
  have htail : Sends
      (if previousUsedBytes - encoded.length > 0 then
        writeRam device (storageAddress + encoded.length)
          (List.replicate (previousUsedBytes - encoded.length) 0) else pure ())
      (block (storageAddress + encoded.length)
        (List.replicate (previousUsedBytes - encoded.length) 0))
      (if previousUsedBytes - encoded.length > 0 then
        writeTransfers device.transferSize (previousUsedBytes - encoded.length) else 0) := by
    by_cases hstale : previousUsedBytes - encoded.length > 0
    · rw [if_pos hstale, if_pos hstale]
      have htail := hwrite (List.replicate (previousUsedBytes - encoded.length) 0)
        (Nat.le_add_right storageAddress encoded.length)
        (by rw [List.length_replicate]; omega)
      rw [List.length_replicate] at htail
      exact htail
    · rw [if_neg hstale, if_neg hstale, Nat.eq_zero_of_not_pos hstale]
      exact Sends.pure
  have hall := hheader.bind (hterminator.bind (hbody.bind (htail.bind hmagic)))
  rw [List.length_replicate, List.length_drop, List.length_drop, List.length_take,
    Nat.sub_sub_self (by unfold storageTerminatorSize; omega),
    Nat.min_eq_left (by unfold storageHeaderSize; omega)] at hall
  have hsame : commitWrites device storageAddress previousUsedBytes encoded = (do
      writeRam device storageAddress (List.replicate storageHeaderSize 0)
      writeRam device (storageAddress + encoded.length - storageTerminatorSize)
        (encoded.drop (encoded.length - storageTerminatorSize))
      writeRam device (storageAddress + storageHeaderSize) (encoded.drop storageHeaderSize)
      (if previousUsedBytes - encoded.length > 0 then
        writeRam device (storageAddress + encoded.length)
          (List.replicate (previousUsedBytes - encoded.length) 0) else pure ())
      writeRam device storageAddress (encoded.take storageHeaderSize)) := by
    unfold commitWrites
    dsimp only
    split <;> rfl
  rw [hsame]
  unfold commitBytes commitBody
  rw [List.append_assoc, List.append_assoc]
  exact hall

/-- The image after a commit. -/
def newImage (image : List UInt8) (previousUsedBytes : Nat) (encoded : List UInt8) : List UInt8 :=
  encoded ++ (List.replicate (previousUsedBytes - encoded.length) 0
    ++ image.drop (max previousUsedBytes encoded.length))

theorem mem_commitBody (hmin : 6 ≤ encoded.length) {w : Nat × UInt8}
    (h : w ∈ commitBody storageAddress previousUsedBytes encoded) :
    storageAddress + 4 ≤ w.1 ∧ w.1 < storageAddress + max previousUsedBytes encoded.length := by
  unfold commitBody at h
  unfold storageTerminatorSize storageHeaderSize at h
  rcases List.mem_append.mp h with h | h
  · have hmem := mem_block h
    rw [List.length_drop] at hmem
    omega
  · rcases List.mem_append.mp h with h | h
    · have hmem := mem_block h
      rw [List.length_drop] at hmem
      omega
    · have hmem := mem_block h
      rw [List.length_replicate] at hmem
      omega

/-- No byte outside the header and the records is written. -/
theorem mem_commitBytes (hmin : 6 ≤ encoded.length) (hmax : encoded.length ≤ 4 + storageSize)
    (hused : previousUsedBytes ≤ 4 + storageSize) {w : Nat × UInt8}
    (h : w ∈ commitBytes storageAddress previousUsedBytes encoded) :
    storageAddress ≤ w.1 ∧ w.1 < storageAddress + 4 + storageSize := by
  unfold commitBytes at h
  rcases List.mem_append.mp h with h | h
  · have hmem := mem_block h
    rw [List.length_replicate, storageHeaderSize] at hmem
    omega
  · rcases List.mem_append.mp h with h | h
    · have hmem := mem_commitBody hmin h
      omega
    · have hmem := mem_block h
      rw [List.length_take, storageHeaderSize] at hmem
      omega

/-- Between the first byte and the last, the header is not that of an image. -/
theorem header_of_take (m : Memory) (hmin : 6 ≤ encoded.length) {n : Nat} (hpos : 0 < n)
    (hlt : n < (commitBytes storageAddress previousUsedBytes encoded).length) :
    m.poke ((commitBytes storageAddress previousUsedBytes encoded).take n) storageAddress = 0
      ∨ m.poke ((commitBytes storageAddress previousUsedBytes encoded).take n) (storageAddress + 3)
        = 0 := by
  have hzeros : (block storageAddress (List.replicate storageHeaderSize 0)).length = 4 := by
    rw [length_block, List.length_replicate]
    rfl
  have hmagic : (block storageAddress (encoded.take storageHeaderSize)).length = 4 := by
    rw [length_block, List.length_take, storageHeaderSize]
    omega
  unfold commitBytes at hlt ⊢
  rw [List.length_append, List.length_append, hzeros, hmagic] at hlt
  rcases Nat.lt_or_ge n 4 with hfirst | hlater
  · left
    have hlength : 0 < ((List.replicate storageHeaderSize (0 : UInt8)).take n).length := by
      rw [List.length_take, List.length_replicate, storageHeaderSize]
      omega
    rw [List.take_append_of_le_length (by omega), take_block]
    have hcell := @Memory.poke_block m storageAddress _ _ hlength
    rw [Nat.add_zero] at hcell
    rw [hcell]
    simp
  · right
    have hcell : m.poke (block storageAddress (List.replicate storageHeaderSize 0))
        (storageAddress + 3) = 0 := by
      rw [m.poke_block (by rw [List.length_replicate, storageHeaderSize]; omega)]
      simp
    rw [List.take_append, List.take_of_length_le (by omega), Memory.poke_append,
      Memory.poke_of_forall_ne, hcell]
    intro w hw
    rw [hzeros, List.take_append, take_block] at hw
    rcases List.mem_append.mp hw with hw | hw
    · have hmem := mem_commitBody hmin (List.mem_of_mem_take hw)
      omega
    · have hmem := mem_block hw
      rw [List.length_take, List.length_take] at hmem
      omega

/-- When all bytes are written, the image is the new one. -/
theorem read_poke_commitBytes (m : Memory) (hmin : 6 ≤ encoded.length)
    (hmax : encoded.length ≤ 4 + storageSize) (hused : previousUsedBytes ≤ 4 + storageSize) :
    (m.poke (commitBytes storageAddress previousUsedBytes encoded)).read storageAddress
        (storageSize + 8)
      = newImage (m.read storageAddress (storageSize + 8)) previousUsedBytes encoded := by
  have hlength : (newImage (m.read storageAddress (storageSize + 8)) previousUsedBytes
      encoded).length = storageSize + 8 := by
    unfold newImage
    rw [List.length_append, List.length_append, List.length_replicate, List.length_drop,
      Memory.length_read]
    omega
  apply List.ext_getElem?
  intro i
  rcases Nat.lt_or_ge i (storageSize + 8) with hi | hi
  · rw [Memory.getElem?_read _ hi]
    unfold commitBytes commitBody storageHeaderSize storageTerminatorSize newImage
    rw [Memory.poke_append, Memory.poke_append, Memory.poke_append, Memory.poke_append]
    have htake : (encoded.take 4).length = 4 := by
      rw [List.length_take]
      omega
    have hdrop : (encoded.drop 4).length = encoded.length - 4 := List.length_drop
    have hend : (encoded.drop (encoded.length - 2)).length = 2 := by
      rw [List.length_drop]
      omega
    rcases Nat.lt_or_ge i 4 with hheader | hbody
    · -- the header is written last
      rw [Memory.poke_block _ (by omega), List.getElem_take,
        List.getElem?_append_left (by omega), List.getElem?_eq_getElem (by omega)]
    · rw [Memory.poke_block_of_le _ (by omega)]
      rcases Nat.lt_or_ge i encoded.length with hin | hbehind
      · obtain ⟨j, rfl⟩ := Nat.exists_eq_add_of_le hbody
        rw [Memory.poke_block_of_lt _ _ (by omega), ← Nat.add_assoc,
          Memory.poke_block _ (by omega), List.getElem_drop,
          List.getElem?_append_left hin, List.getElem?_eq_getElem hin]
      · rw [List.getElem?_append_right hbehind]
        rcases Nat.lt_or_ge i previousUsedBytes with hstale | hkept
        · obtain ⟨j, rfl⟩ := Nat.exists_eq_add_of_le hbehind
          rw [← Nat.add_assoc, Memory.poke_block _ (by rw [List.length_replicate]; omega),
            List.getElem_replicate, Nat.add_sub_cancel_left,
            List.getElem?_append_left (by rw [List.length_replicate]; omega),
            List.getElem?_replicate, if_pos (by omega)]
        · rw [Memory.poke_block_of_le _ (by rw [List.length_replicate]; omega),
            Memory.poke_block_of_le _ (by omega), Memory.poke_block_of_le _ (by omega),
            Memory.poke_block_of_le _ (by rw [List.length_replicate]; omega),
            List.getElem?_append_right (by rw [List.length_replicate]; omega),
            List.length_replicate, List.getElem?_drop, Memory.getElem?_read _ (by omega)]
          congr 2
          omega
  · rw [List.getElem?_eq_none (by rw [Memory.length_read]; exact hi),
      List.getElem?_eq_none (by rw [hlength]; exact hi)]

end Commit

end Tilibs.Webtilp
