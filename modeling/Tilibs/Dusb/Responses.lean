import Mathlib
import Tilibs.Dusb.Rts
import Tilibs.Lib.Reader

/-!
# Tilibs.Dusb.Responses

What the commands read of the virtual packets that the calculator answers with: parameter data,
a variable header, and the screenshot of the TI-84 Plus C (`dusb_cmd.cc`).

The counts and lengths in a packet come from the calculator, and none of them is compared with the
size of the packet.  A read at or behind the size has no result here.
-/

namespace Tilibs.Dusb

open Tilibs.Lib

/-! ## virtual packet types -/

def dusbVpktParmData : UInt16 := 0x0008
def dusbVpktVarHdr : UInt16 := 0x000A
def dusbVpktDelayAck : UInt16 := 0xBB00
def dusbVpktEot : UInt16 := 0xDD00
def dusbVpktError : UInt16 := 0xEE00

/-! ## errors -/

/-- What a command returns instead of a result.  `calcError` is `ERR_CALC_ERROR2` with the code
that is added to it; `resync` when the mode is to be negotiated again. -/
inductive DusbCmdErr
  | transport (e : DusbErr)
  | invalidPacket
  | eot
  | calcError (code : Nat) (resync : Bool)
  deriving DecidableEq, Repr

/-- The codes of `usb_errors`. -/
def usbErrors : List UInt16 :=
  (List.range 0x36).map (fun i => UInt16.ofNat (i + 1))
    ++ [0xCCCC, 0xCCCD, 0xF001, 0xF002, 0xF003, 0xF004, 0xF005, 0xF006]

/-- `err_code`: the place in the table, from 1 on; 0 for a code that is not there. -/
def errCode (code : UInt16) : Nat :=
  match usbErrors.findIdx? (· = code) with
  | some i => i + 1
  | none => 0

def dusbErrorCodeIsProtocol (code : UInt16) : Bool :=
  code ∈ [0x0001, 0x0007, 0x0008, 0x0009, 0x0029, 0xCCCC, 0xCCCD, 0xEFF0]

/-! ## reads -/

/-- `pkt->data[j++]`. -/
def readByte : Reader UInt8 UInt8
  | [] => none
  | b :: src => some (b, src)

/-- Two bytes, the high one first. -/
def readWord : Reader UInt8 UInt16 :=
  readByte.bind fun high => readByte.bind fun low =>
    .ret (UInt16.ofNat (256 * high.toNat + low.toNat))

/-- `memcpy` from the packet. -/
def readBytes (n : Nat) : Reader UInt8 (List UInt8) := fun src =>
  if n ≤ src.length then some (src.take n, src.drop n) else none

/-- An attribute or a parameter with data. -/
def readData (id size : UInt16) : Reader UInt8 DUSBCalcAttr := fun src =>
  if h : size.toNat ≤ src.length then
    some (⟨id, true, size, src.take size.toNat, List.length_take_of_le h⟩, src.drop size.toNat)
  else none

/-- The loop body over attributes and over parameters: what is not there has a flag that is not 0,
and no data. -/
def readAttr : Reader UInt8 DUSBCalcAttr :=
  readWord.bind fun id => readByte.bind fun flag =>
    if flag = 0 then readWord.bind fun size => readData id size
    else .ret ⟨id, false, 0, [], rfl⟩

/-- A folder or a name: a length, and unless it is 0 the text with its NUL. -/
def readName : Reader UInt8 (List UInt8) :=
  readByte.bind fun len => if len ≠ 0 then readBytes (len.toNat + 1) else .ret []

/-! ## the parsers -/

/-- The parameters, for a request of `nparams` of them. -/
def parseParamData (nparams : UInt32) (data : List UInt8) :
    Option (Except DusbCmdErr (List DUSBCalcAttr)) :=
  (readWord data).bind fun (count, src) =>
    if count.toNat ≠ nparams.toNat then some (.error .invalidPacket)
    else (readAttr.items nparams.toNat src).map fun (params, _) => .ok params

/-- `folder`, `name` and the attributes. -/
def parseVarHeader (data : List UInt8) :
    Option (Except DusbCmdErr (List UInt8 × List UInt8 × List DUSBCalcAttr)) :=
  let header := readName.bind fun folder => readName.bind fun name => readWord.bind fun nattr =>
    (readAttr.items nattr.toNat).bind fun attrs => .ret (folder, name, attrs)
  (header data).map fun (header, _) => .ok header

/-- `size` and the bytes of the screenshot; `pkt->size - 7` is an unsigned difference. -/
def parseScreenshot (data : List UInt8) : Option (Except DusbCmdErr (UInt32 × List UInt8)) :=
  (readWord data).bind fun (count, src) =>
    if count ≠ 1 then some (.error .invalidPacket)
    else (readWord src).bind fun (id, src) =>
      if id ≠ 0x0022 then some (.error .invalidPacket)
      else (readByte src).bind fun (flag, _) =>
        if flag ≠ 0 then some (.error .invalidPacket)
        else
          let size := UInt32.ofNat data.length - 7
          (readBytes size.toNat (data.drop 7)).map fun (bytes, _) => .ok (size, bytes)

/-! ## the commands -/

/-- `dusb_handle_error_packet` -/
def dusbHandleErrorPacket {α : Type} (data : List UInt8) : Option (Except DusbCmdErr α) :=
  (readWord data).map fun (raw, _) =>
    .error (.calcError (errCode raw) (dusbErrorCodeIsProtocol raw))

/-- The checks of the type; `eot` when the end of a transmission is one of the answers. -/
def checkType {α : Type} (wanted : UInt16) (eot : Bool)
    (parse : List UInt8 → Option (Except DusbCmdErr α)) (pkt : DUSBVirtualPacket) :
    Option (Except DusbCmdErr α) :=
  if eot = true ∧ pkt.type = dusbVpktEot then some (.error .eot)
  else if pkt.type = dusbVpktError then dusbHandleErrorPacket pkt.data
  else if pkt.type ≠ wanted then some (.error .invalidPacket)
  else parse pkt.data

/-- What a call of `dusb_recv_data` delivers is answered. -/
def received {α : Type} (answer : DUSBVirtualPacket → Option (Except DusbCmdErr α)) :
    Except DusbErr DUSBVirtualPacket → Option (Except DusbCmdErr α)
  | .error e => some (.error (.transport e))
  | .ok pkt => answer pkt

/-- `CATCH_DELAY`: behind a packet that asks for a delay the answer is the next one. -/
def catchDelay {α : Type} (answer : DUSBVirtualPacket → Option (Except DusbCmdErr α))
    (pkt : DUSBVirtualPacket) (next : Except DusbErr DUSBVirtualPacket) :
    Option (Except DusbCmdErr α) :=
  if pkt.type = dusbVpktDelayAck then
    (readBytes 4 pkt.data).bind fun _ => received answer next
  else answer pkt

/-- What `dusb_recv_data` delivers: `pkt`, and `next` when it is called again. -/
def dusbCmdRParamData (nparams : UInt32) :=
  catchDelay (checkType dusbVpktParmData false (parseParamData nparams))

def dusbCmdRVarHeader := catchDelay (checkType dusbVpktVarHdr true parseVarHeader)

def dusbCmdRScreenshot := catchDelay (checkType dusbVpktParmData false parseScreenshot)

/-! ## what the readers take -/

/-- An attribute in a packet. -/
inductive IsAttr : DUSBCalcAttr → List UInt8 → Prop
  | present {attr : DUSBCalcAttr} : attr.ok = true →
      IsAttr attr (putBE 2 attr.id.toNat ++ (0 :: (putBE 2 attr.size.toNat ++ attr.data)))
  | absent {id : UInt16} {flag : UInt8} : flag ≠ 0 →
      IsAttr ⟨id, false, 0, [], rfl⟩ (putBE 2 id.toNat ++ [flag])

/-- A name in a packet, which is empty or counted without its NUL. -/
inductive IsName : List UInt8 → List UInt8 → Prop
  | empty : IsName [] [0]
  | text {len : UInt8} {text : List UInt8} : len ≠ 0 → text.length = len.toNat + 1 →
      IsName text (len :: text)

theorem readByte_takes : readByte.Takes fun b item => item = [b] := by
  intro input b rest
  cases input with
  | nil => simp [readByte]
  | cons c input => simp [readByte, eq_comm]

theorem word_iff {high low : UInt8} {w : UInt16} :
    w = UInt16.ofNat (256 * high.toNat + low.toNat) ↔ putBE 2 w.toNat = [high, low] := by
  have hhigh := high.toNat_lt
  have hlow := low.toNat_lt
  have hvalue : getBE [high, low] = 256 * high.toNat + low.toNat := by
    show low.toNat + 256 * (high.toNat + 256 * 0) = _
    omega
  constructor
  · rintro rfl
    rw [UInt16.toNat_ofNat_of_lt' (by show _ < 65536; omega), ← hvalue]
    exact putBE_getBE [high, low]
  · intro h
    have hread := congrArg getBE h
    rw [getBE_putBE (by exact w.toNat_lt), hvalue] at hread
    rw [← hread, UInt16.ofNat_toNat]

theorem exists_word (item : List UInt8) (h : item.length = 2) :
    ∃ w : UInt16, item = putBE 2 w.toNat := by
  obtain ⟨high, low, rfl⟩ := List.length_eq_two.mp h
  exact ⟨_, (word_iff.mp rfl).symm⟩

theorem readWord_takes : readWord.Takes fun w item => item = putBE 2 w.toNat := by
  have hlow : ∀ high : UInt8, (readByte.bind fun low =>
      (.ret (UInt16.ofNat (256 * high.toNat + low.toNat)) : Reader UInt8 UInt16)).Takes
        fun w item => ∃ low, item = [low] ∧ w = UInt16.ofNat (256 * high.toNat + low.toNat) := by
    intro high
    refine (readByte_takes.bind fun low => takes_ret _).congr ?_
    intro w item
    constructor
    · rintro ⟨low, _, _, rfl, ⟨hw, rfl⟩, rfl⟩
      exact ⟨low, rfl, hw⟩
    · rintro ⟨low, rfl, hw⟩
      exact ⟨low, [low], [], rfl, ⟨hw, rfl⟩, rfl⟩
  refine (readByte_takes.bind hlow).congr ?_
  intro w item
  constructor
  · rintro ⟨high, _, _, rfl, ⟨low, rfl, hw⟩, rfl⟩
    exact (word_iff.mp hw).symm
  · rintro rfl
    have htwo : (putBE 2 w.toNat).length = 2 := length_putBE 2 _
    obtain ⟨high, low, hitem⟩ := List.length_eq_two.mp htwo
    exact ⟨high, [high], [low], rfl, ⟨low, rfl, word_iff.mpr hitem⟩, hitem⟩

theorem readBytes_takes (n : Nat) :
    (readBytes n).Takes fun bytes item => bytes = item ∧ item.length = n := by
  intro input bytes rest
  unfold readBytes
  constructor
  · intro h
    split at h
    · rename_i hle
      obtain ⟨rfl, rfl⟩ := Prod.mk.inj (Option.some.inj h)
      exact ⟨_, ⟨rfl, List.length_take_of_le hle⟩, (List.take_append_drop n input).symm⟩
    · cases h
  · rintro ⟨item, ⟨rfl, rfl⟩, rfl⟩
    rw [if_pos (by simp), List.take_left, List.drop_left]

theorem readData_takes (id size : UInt16) : (readData id size).Takes fun attr item =>
    attr.id = id ∧ attr.ok = true ∧ attr.size = size ∧ attr.data = item := by
  intro input attr rest
  unfold readData
  constructor
  · intro h
    split at h
    · obtain ⟨rfl, rfl⟩ := Prod.mk.inj (Option.some.inj h)
      exact ⟨_, ⟨rfl, rfl, rfl, rfl⟩, (List.take_append_drop _ input).symm⟩
    · cases h
  · rintro ⟨item, ⟨rfl, hok, rfl, rfl⟩, rfl⟩
    obtain ⟨id, ok, size, data, hlength⟩ := attr
    obtain rfl : ok = true := hok
    have htake : (data ++ rest).take size.toNat = data := List.take_left' hlength
    have hdrop : (data ++ rest).drop size.toNat = rest := List.drop_left' hlength
    rw [dif_pos (by rw [List.length_append, hlength]; exact Nat.le_add_right _ _)]
    simp only [htake, hdrop]

theorem readAttr_takes : readAttr.Takes IsAttr := by
  refine (readWord_takes.bind fun id => readByte_takes.bind fun flag => takes_ite
    (readWord_takes.bind fun size => readData_takes id size) (takes_ret _)).congr ?_
  intro attr item
  constructor
  · rintro ⟨id, _, _, rfl, ⟨flag, _, back, rfl, hback, rfl⟩, rfl⟩
    rcases hback with ⟨rfl, size, _, _, rfl, ⟨rfl, hok, rfl, rfl⟩, rfl⟩ | ⟨hne, rfl, rfl⟩
    · exact IsAttr.present hok
    · exact IsAttr.absent hne
  · intro h
    cases h with
    | present hok =>
        exact ⟨attr.id, _, _, rfl, ⟨0, [0], _, rfl,
          Or.inl ⟨rfl, attr.size, _, attr.data, rfl, ⟨rfl, hok, rfl, rfl⟩, rfl⟩, rfl⟩, rfl⟩
    | absent hne => exact ⟨_, _, _, rfl, ⟨_, [_], [], rfl, Or.inr ⟨hne, rfl, rfl⟩, rfl⟩, rfl⟩

theorem readName_takes : readName.Takes IsName := by
  refine (readByte_takes.bind fun len => takes_ite (readBytes_takes _) (takes_ret _)).congr ?_
  intro text item
  constructor
  · rintro ⟨len, _, back, rfl, hback, rfl⟩
    rcases hback with ⟨hne, rfl, hlength⟩ | ⟨hzero, rfl, rfl⟩
    · exact IsName.text hne hlength
    · obtain rfl := Decidable.not_not.mp hzero
      exact IsName.empty
  · intro h
    cases h with
    | empty => exact ⟨0, [0], [], rfl, Or.inr ⟨not_not_intro rfl, rfl, rfl⟩, rfl⟩
    | text hne hlength => exact ⟨_, [_], _, rfl, Or.inl ⟨hne, rfl, hlength⟩, rfl⟩

/-- A variable header: folder, name, the number of attributes, and so many of them. -/
structure IsVarHeader (folder name : List UInt8) (attrs : List DUSBCalcAttr)
    (folderItem nameItem attrItems header : List UInt8) (nattr : UInt16) : Prop where
  folder : IsName folder folderItem
  name : IsName name nameItem
  count : attrs.length = nattr.toNat
  attrs : Seq IsAttr attrs attrItems
  layout : header = folderItem ++ (nameItem ++ (putBE 2 nattr.toNat ++ attrItems))

/-! ## packets that the parsers stay inside of -/

/-- Two bytes with a count, and so many parameters when the count is the one that was asked for. -/
def ParamDataCovered (nparams : UInt32) (data : List UInt8) : Prop :=
  ∃ (count : UInt16) (rest : List UInt8), data = putBE 2 count.toNat ++ rest
    ∧ (count.toNat = nparams.toNat → ∃ params items tail, params.length = nparams.toNat
      ∧ Seq IsAttr params items ∧ rest = items ++ tail)

/-- A whole variable header. -/
def VarHeaderCovered (data : List UInt8) : Prop :=
  ∃ folder name attrs folderItem nameItem attrItems header nattr tail,
    IsVarHeader folder name attrs folderItem nameItem attrItems header nattr ∧ data = header ++ tail

/-- The fields in front of a screenshot up to one that is not as expected, or all of them and the
two bytes of the size. -/
def ScreenshotCovered (data : List UInt8) : Prop :=
  ∃ (count : UInt16) (rest : List UInt8), data = putBE 2 count.toNat ++ rest
    ∧ (count = 1 → ∃ (id : UInt16) (rest' : List UInt8), rest = putBE 2 id.toNat ++ rest'
      ∧ (id = 0x0022 → ∃ (flag : UInt8) (tail : List UInt8), rest' = flag :: tail
        ∧ (flag = 0 → 2 ≤ tail.length)))

theorem isSome_parseParamData_iff (nparams : UInt32) (data : List UInt8) :
    (parseParamData nparams data).isSome ↔ ParamDataCovered nparams data := by
  unfold parseParamData ParamDataCovered
  rw [readWord_takes.isSome_bind_iff]
  constructor
  · rintro ⟨count, _, rest, rfl, hdata, hsome⟩
    refine ⟨count, rest, hdata, ?_⟩
    intro hcount
    dsimp only at hsome
    rw [if_neg (not_not_intro hcount), Option.isSome_map,
      (readAttr_takes.items nparams.toNat).isSome_iff] at hsome
    obtain ⟨params, items, tail, ⟨hlength, hseq⟩, hrest⟩ := hsome
    exact ⟨params, items, tail, hlength, hseq, hrest⟩
  · rintro ⟨count, rest, hdata, hparams⟩
    refine ⟨count, _, rest, rfl, hdata, ?_⟩
    dsimp only
    by_cases hcount : count.toNat = nparams.toNat
    · obtain ⟨params, items, tail, hlength, hseq, hrest⟩ := hparams hcount
      rw [if_neg (not_not_intro hcount), Option.isSome_map,
        (readAttr_takes.items nparams.toNat).isSome_iff]
      exact ⟨params, items, tail, ⟨hlength, hseq⟩, hrest⟩
    · rw [if_pos hcount]
      rfl

theorem isSome_parseVarHeader_iff (data : List UInt8) :
    (parseVarHeader data).isSome ↔ VarHeaderCovered data := by
  unfold parseVarHeader VarHeaderCovered
  dsimp only
  rw [Option.isSome_map, (readName_takes.bind fun folder => readName_takes.bind fun name =>
    readWord_takes.bind fun nattr => (readAttr_takes.items nattr.toNat).bind fun attrs =>
      takes_ret (folder, name, attrs)).isSome_iff]
  constructor
  · rintro ⟨_, _, tail, ⟨folder, folderItem, _, hfolder, ⟨name, nameItem, _, hname, ⟨nattr, _, _, rfl,
      ⟨attrs, attrItems, _, ⟨hcount, hattrs⟩, ⟨-, rfl⟩, rfl⟩, rfl⟩, rfl⟩, rfl⟩, hdata⟩
    rw [List.append_nil] at hdata
    exact ⟨folder, name, attrs, folderItem, nameItem, attrItems, _, nattr, tail,
      ⟨hfolder, hname, hcount, hattrs, rfl⟩, hdata⟩
  · rintro ⟨folder, name, attrs, folderItem, nameItem, attrItems, _, nattr, tail,
      ⟨hfolder, hname, hcount, hattrs, rfl⟩, hdata⟩
    exact ⟨_, _, tail, ⟨folder, folderItem, _, hfolder, ⟨name, nameItem, _, hname, ⟨nattr, _, _, rfl,
      ⟨attrs, attrItems, [], ⟨hcount, hattrs⟩, ⟨rfl, rfl⟩, (List.append_nil _).symm⟩, rfl⟩, rfl⟩, rfl⟩,
      hdata⟩

/-- The copy of the screenshot stays inside exactly when there are seven bytes in front of it;
with fewer its length wraps. -/
theorem isSome_copy_iff {data : List UInt8} (hfits : data.length < 2 ^ 32) :
    (readBytes (UInt32.ofNat data.length - 7).toNat (data.drop 7)).isSome ↔ 7 ≤ data.length := by
  have hlength : (UInt32.ofNat data.length).toNat = data.length :=
    UInt32.toNat_ofNat_of_lt' hfits
  have hsize : (UInt32.ofNat data.length - 7).toNat = (2 ^ 32 - 7 + data.length) % 2 ^ 32 := by
    rw [UInt32.toNat_sub, hlength]
    rfl
  unfold readBytes
  rw [hsize, List.length_drop]
  constructor
  · intro h
    split at h
    · omega
    · cases h
  · intro h
    rw [if_pos (by omega)]
    rfl

theorem isSome_parseScreenshot_iff {data : List UInt8} (hfits : data.length < 2 ^ 32) :
    (parseScreenshot data).isSome ↔ ScreenshotCovered data := by
  unfold parseScreenshot ScreenshotCovered
  rw [readWord_takes.isSome_bind_iff]
  constructor
  · rintro ⟨count, _, rest, rfl, hdata, hsome⟩
    refine ⟨count, rest, hdata, ?_⟩
    intro hcount
    dsimp only at hsome
    rw [if_neg (not_not_intro hcount), readWord_takes.isSome_bind_iff] at hsome
    obtain ⟨id, _, rest', rfl, hrest, hsome⟩ := hsome
    refine ⟨id, rest', hrest, ?_⟩
    intro hid
    dsimp only at hsome
    rw [if_neg (not_not_intro hid), readByte_takes.isSome_bind_iff] at hsome
    obtain ⟨flag, _, tail, rfl, hrest', hsome⟩ := hsome
    refine ⟨flag, tail, hrest', ?_⟩
    intro hflag
    dsimp only at hsome
    rw [if_neg (not_not_intro hflag), Option.isSome_map, isSome_copy_iff hfits] at hsome
    rw [hdata, hrest, hrest'] at hsome
    simp only [List.length_append, length_putBE, List.length_cons, List.length_nil] at hsome
    omega
  · rintro ⟨count, rest, hdata, hid⟩
    refine ⟨count, _, rest, rfl, hdata, ?_⟩
    dsimp only
    by_cases hcount : count ≠ 1
    · rw [if_pos hcount]
      rfl
    obtain ⟨id, rest', hrest, hflag⟩ := hid (Decidable.not_not.mp hcount)
    rw [if_neg hcount, readWord_takes.isSome_bind_iff]
    refine ⟨id, _, rest', rfl, hrest, ?_⟩
    dsimp only
    by_cases hid : id ≠ 0x0022
    · rw [if_pos hid]
      rfl
    obtain ⟨flag, tail, hrest', htail⟩ := hflag (Decidable.not_not.mp hid)
    rw [if_neg hid, readByte_takes.isSome_bind_iff]
    refine ⟨flag, _, tail, rfl, hrest', ?_⟩
    dsimp only
    by_cases hflag : flag ≠ 0
    · rw [if_pos hflag]
      rfl
    have hlong := htail (Decidable.not_not.mp hflag)
    rw [if_neg hflag, Option.isSome_map, isSome_copy_iff hfits, hdata, hrest, hrest']
    simp only [List.length_append, length_putBE, List.length_cons]
    omega

/-- A screenshot that is copied is the packet without its first seven bytes. -/
theorem size_parseScreenshot {data bytes : List UInt8} {size : UInt32}
    (hfits : data.length < 2 ^ 32) (h : parseScreenshot data = some (.ok (size, bytes))) :
    size.toNat + 7 = data.length := by
  unfold parseScreenshot at h
  obtain ⟨⟨count, rest⟩, -, h⟩ := Option.bind_eq_some_iff.mp h
  dsimp only at h
  split at h
  · cases h
  obtain ⟨⟨id, rest'⟩, -, h⟩ := Option.bind_eq_some_iff.mp h
  dsimp only at h
  split at h
  · cases h
  obtain ⟨⟨flag, tail⟩, -, h⟩ := Option.bind_eq_some_iff.mp h
  dsimp only at h
  split at h
  · cases h
  obtain ⟨copy, hcopy, hresult⟩ := Option.map_eq_some_iff.mp h
  have hseven : 7 ≤ data.length :=
    (isSome_copy_iff hfits).mp (Option.isSome_iff_exists.mpr ⟨copy, hcopy⟩)
  have hsize : UInt32.ofNat data.length - 7 = size := congrArg Prod.fst (Except.ok.inj hresult)
  have hlength : (UInt32.ofNat data.length).toNat = data.length :=
    UInt32.toNat_ofNat_of_lt' hfits
  have hle : (7 : UInt32) ≤ UInt32.ofNat data.length := by
    rw [UInt32.le_iff_toNat_le, hlength]
    exact hseven
  rw [← hsize, UInt32.toNat_sub_of_le _ _ hle, hlength]
  exact Nat.sub_add_cancel hseven

/-! ## responses -/

/-- The packet is read as an error, or as what was asked for. -/
def TypeCovered (wanted : UInt16) (covered : List UInt8 → Prop) (pkt : DUSBVirtualPacket) : Prop :=
  (pkt.type = dusbVpktError → 2 ≤ pkt.data.length) ∧ (pkt.type = wanted → covered pkt.data)

theorem isSome_checkType_iff {α : Type} {wanted : UInt16} {eot : Bool}
    {parse : List UInt8 → Option (Except DusbCmdErr α)} {covered : List UInt8 → Prop}
    (hwanted : wanted ≠ dusbVpktError ∧ wanted ≠ dusbVpktEot) {pkt : DUSBVirtualPacket}
    (hparse : (parse pkt.data).isSome ↔ covered pkt.data) :
    (checkType wanted eot parse pkt).isSome ↔ TypeCovered wanted covered pkt := by
  unfold checkType TypeCovered
  by_cases heot : eot = true ∧ pkt.type = dusbVpktEot
  · have herror : pkt.type ≠ dusbVpktError := by
      rw [heot.2]
      decide
    have hother : pkt.type ≠ wanted := fun h => hwanted.2 (h ▸ heot.2)
    rw [if_pos heot]
    simp [herror, hother]
  rw [if_neg heot]
  by_cases herror : pkt.type = dusbVpktError
  · have hother : pkt.type ≠ wanted := fun h => hwanted.1 (h ▸ herror)
    rw [if_pos herror, and_iff_left (fun h => absurd h hother)]
    unfold dusbHandleErrorPacket
    rw [Option.isSome_map, readWord_takes.isSome_iff]
    constructor
    · rintro ⟨raw, _, rest, rfl, hdata⟩ -
      rw [hdata, List.length_append, length_putBE]
      exact Nat.le_add_right 2 _
    · intro h
      have hlen := h herror
      obtain ⟨raw, hraw⟩ := exists_word (pkt.data.take 2) (List.length_take_of_le hlen)
      exact ⟨raw, _, pkt.data.drop 2, rfl, by rw [← hraw, List.take_append_drop]⟩
  rw [if_neg herror]
  by_cases hother : pkt.type ≠ wanted
  · rw [if_pos hother]
    simp [herror, hother]
  · rw [if_neg hother, hparse]
    have htype := Decidable.not_not.mp hother
    constructor
    · intro h
      exact ⟨fun herror' => absurd herror' herror, fun _ => h⟩
    · intro h
      exact h.2 htype

/-- The packet that is parsed. -/
def answerPacket (pkt : DUSBVirtualPacket) (next : Except DusbErr DUSBVirtualPacket) :
    Option DUSBVirtualPacket :=
  if pkt.type = dusbVpktDelayAck then next.toOption else some pkt

/-- Four bytes of a packet that asks for a delay, and then the packet that is parsed. -/
def DelayCovered (covered : DUSBVirtualPacket → Prop) (pkt : DUSBVirtualPacket)
    (next : Except DusbErr DUSBVirtualPacket) : Prop :=
  (pkt.type = dusbVpktDelayAck → 4 ≤ pkt.data.length)
    ∧ ∀ answer, answerPacket pkt next = some answer → covered answer

theorem isSome_catchDelay_iff {α : Type} {parse : DUSBVirtualPacket → Option (Except DusbCmdErr α)}
    {covered : DUSBVirtualPacket → Prop} (hparse : ∀ pkt, (parse pkt).isSome ↔ covered pkt)
    (pkt : DUSBVirtualPacket) (next : Except DusbErr DUSBVirtualPacket) :
    (catchDelay parse pkt next).isSome ↔ DelayCovered covered pkt next := by
  unfold catchDelay DelayCovered answerPacket
  by_cases hdelay : pkt.type = dusbVpktDelayAck
  · rw [if_pos hdelay, if_pos hdelay, (readBytes_takes 4).isSome_bind_iff]
    have hnext : (received parse next).isSome
        ↔ ∀ answer, next.toOption = some answer → covered answer := by
      cases next with
      | error e => simp [received, Except.toOption]
      | ok answer => simp [received, Except.toOption, hparse]
    constructor
    · rintro ⟨_, item, rest, ⟨-, hlen⟩, hdata, hsome⟩
      refine ⟨fun _ => ?_, hnext.mp hsome⟩
      rw [hdata, List.length_append, hlen]
      exact Nat.le_add_right 4 _
    · rintro ⟨hlen, hcovered⟩
      refine ⟨_, pkt.data.take 4, pkt.data.drop 4, ⟨rfl, List.length_take_of_le (hlen hdelay)⟩, ?_,
        hnext.mpr hcovered⟩
      exact (List.take_append_drop 4 _).symm
  · rw [if_neg hdelay, if_neg hdelay, hparse]
    simp [hdelay]

/-! ## the three parsers -/

/-- The commands that parse a response. -/
inductive ResponseParser
  | paramData (nparams : UInt32)
  | varHeader
  | screenshot

/-- The command reads inside of its packets. -/
def ResponseParser.ReadsInside (pkt : DUSBVirtualPacket) (next : Except DusbErr DUSBVirtualPacket) :
    ResponseParser → Prop
  | .paramData nparams => (dusbCmdRParamData nparams pkt next).isSome
  | .varHeader => (dusbCmdRVarHeader pkt next).isSome
  | .screenshot => (dusbCmdRScreenshot pkt next).isSome

/-- What the command reads of the packet that is parsed is there. -/
def ResponseParser.Covered (pkt : DUSBVirtualPacket) : ResponseParser → Prop
  | .paramData nparams => TypeCovered dusbVpktParmData (ParamDataCovered nparams) pkt
  | .varHeader => TypeCovered dusbVpktVarHdr VarHeaderCovered pkt
  | .screenshot => TypeCovered dusbVpktParmData ScreenshotCovered pkt

/-- All reads are below the size of the packet, and the length of a screenshot does not wrap. -/
structure StaysInside (parser : ResponseParser) (pkt : DUSBVirtualPacket)
    (next : Except DusbErr DUSBVirtualPacket) : Prop where
  reads : parser.ReadsInside pkt next
  length : ∀ size bytes, parser = .screenshot →
    dusbCmdRScreenshot pkt next = some (.ok (size, bytes)) →
    ∃ answer, answerPacket pkt next = some answer ∧ size.toNat + 7 = answer.data.length

theorem readsInside_iff (parser : ResponseParser) (pkt : DUSBVirtualPacket)
    (next : Except DusbErr DUSBVirtualPacket) :
    parser.ReadsInside pkt next ↔ DelayCovered parser.Covered pkt next := by
  cases parser with
  | paramData nparams =>
      refine isSome_catchDelay_iff ?_ pkt next
      intro answer
      exact isSome_checkType_iff (by decide) (isSome_parseParamData_iff nparams answer.data)
  | varHeader =>
      refine isSome_catchDelay_iff ?_ pkt next
      intro answer
      exact isSome_checkType_iff (by decide) (isSome_parseVarHeader_iff answer.data)
  | screenshot =>
      refine isSome_catchDelay_iff ?_ pkt next
      intro answer
      exact isSome_checkType_iff (by decide) (isSome_parseScreenshot_iff answer.fits)

/-- The size of a screenshot is that of its packet without the seven bytes in front. -/
theorem size_dusbCmdRScreenshot {pkt : DUSBVirtualPacket}
    {next : Except DusbErr DUSBVirtualPacket} {size : UInt32} {bytes : List UInt8}
    (h : dusbCmdRScreenshot pkt next = some (.ok (size, bytes))) :
    ∃ answer, answerPacket pkt next = some answer ∧ size.toNat + 7 = answer.data.length := by
  have hanswer : ∀ answer : DUSBVirtualPacket,
      checkType dusbVpktParmData false parseScreenshot answer = some (.ok (size, bytes)) →
      size.toNat + 7 = answer.data.length := by
    intro answer hparse
    unfold checkType dusbHandleErrorPacket at hparse
    rw [if_neg (by simp)] at hparse
    split at hparse
    · obtain ⟨_, -, hresult⟩ := Option.map_eq_some_iff.mp hparse
      cases hresult
    · split at hparse
      · cases hparse
      · exact size_parseScreenshot answer.fits hparse
  unfold dusbCmdRScreenshot catchDelay at h
  unfold answerPacket
  split at h
  · rename_i hdelay
    obtain ⟨_, -, h⟩ := Option.bind_eq_some_iff.mp h
    cases next with
    | error e => cases h
    | ok answer => exact ⟨answer, if_pos hdelay, hanswer answer h⟩
  · rename_i hdelay
    exact ⟨pkt, if_neg hdelay, hanswer pkt h⟩

/-- A response is read inside of its packets exactly when they cover what is read. -/
theorem staysInside_iff (parser : ResponseParser) (pkt : DUSBVirtualPacket)
    (next : Except DusbErr DUSBVirtualPacket) :
    StaysInside parser pkt next ↔ DelayCovered parser.Covered pkt next := by
  rw [← readsInside_iff]
  constructor
  · intro h
    exact h.reads
  · intro h
    exact ⟨h, fun size bytes _ => size_dusbCmdRScreenshot⟩

/-- The empty variable header: the length of the folder is read all the same. -/
theorem not_staysInside_empty : ¬∀ parser pkt next, StaysInside parser pkt next := by
  intro h
  have hreads := (h .varHeader ⟨dusbVpktVarHdr, [], by decide⟩ (.error .readTimeout)).reads
  cases hreads

end Tilibs.Dusb
