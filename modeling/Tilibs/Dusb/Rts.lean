import Mathlib
import Tilibs.Dusb.Virtual

/-!
# Tilibs.Dusb.Rts

The request to send a variable (`dusb_cmd_s_rts2` in `dusb_cmd.cc`).

The names of the packet are normalised for the model first: the transpose glyph is replaced by a
character of the private use area.  The size of the packet and the length fields are computed from
the normalised names; the bytes that are copied are those of the names as they were given.
-/

namespace Tilibs.Dusb

open Tilibs.Lib

/-! ## names on the wire -/

/-- `kDisplayTranspose`, U+22BA. -/
def kDisplayTranspose : List UInt8 := [0xE2, 0x8A, 0xBA]

/-- `kWireTranspose`, U+F038. -/
def kWireTranspose : List UInt8 := [0xEF, 0x80, 0xB8]

def dusbModelNeedsTransposePua : CalcModel → Bool
  | .ti84pUsb | .ti84pcUsb | .ti83pceUsb | .ti84pceUsb | .ti82aUsb | .ti84ptUsb | .ti82aepUsb => true
  | _ => false

/-- The loop over the occurrences that `strstr` finds. -/
def replaceTranspose : List UInt8 → List UInt8
  | a :: b :: c :: text =>
      if [a, b, c] = kDisplayTranspose then kWireTranspose ++ replaceTranspose text
      else a :: replaceTranspose (b :: c :: text)
  | text => text

def dusbNormalizeNameForSend (model : CalcModel) (text : List UInt8) : List UInt8 :=
  if dusbModelNeedsTransposePua model then replaceTranspose text else text

/-! ## the packet -/

/-- An attribute of a variable; its data are `size` bytes. -/
structure DUSBCalcAttr where
  id : UInt16
  ok : Bool
  size : UInt16
  data : List UInt8
  length_data : data.length = size.toNat

/-- `DUSB_VPKT_RTS`. -/
def dusbVpktRts : UInt16 := 0x000B

/-- The size of the packet, an unsigned sum. -/
def rtsPacketSize (wireFolder wireName : List UInt8) (attrs : List DUSBCalcAttr) : UInt32 :=
  let pks := 2 + UInt32.ofNat wireName.length + 1 + 5 + 2
  let pks := if wireFolder ≠ [] then pks + (UInt32.ofNat wireFolder.length + 1) else pks
  attrs.foldl (fun pks attr => pks + (4 + attr.size.toUInt32)) pks

/-- A length field computed from `wire`, and as many bytes of `text` with its NUL copied. -/
def nameField (text wire : List UInt8) : List UInt8 :=
  UInt8.ofNat wire.length :: (text ++ [0]).take (wire.length + 1)

def attrField (attr : DUSBCalcAttr) : List UInt8 :=
  putBE 2 attr.id.toNat ++ (putBE 2 attr.size.toNat ++ attr.data)

/-- What is written to `pkt->data`; each write is at `j`, the end of the one before. -/
def rtsWritten (folder name wireFolder wireName : List UInt8) (size : UInt32)
    (attrs : List DUSBCalcAttr) (modeflag : UInt8) : List UInt8 :=
  (if wireFolder ≠ [] then nameField folder wireFolder else [0])
    ++ (nameField name wireName
      ++ (putBE 4 size.toNat ++ ([modeflag]
        ++ (putBE 2 attrs.length ++ attrs.flatMap attrField))))

theorem length_take_le (bytes : List UInt8) (size : UInt32) :
    (bytes.take size.toNat).length < 2 ^ 32 :=
  Nat.lt_of_le_of_lt (List.length_take_le _ _) size.toNat_lt

/-- The packet that `dusb_cmd_s_rts2` makes.  Its buffer is zeroed, and as long as a data header
more than the packet; `none` when it is written behind its end. -/
def rtsPacket (model : CalcModel) (folder name : List UInt8) (size : UInt32)
    (attrs : List DUSBCalcAttr) (modeflag : UInt8) : Option DUSBVirtualPacket :=
  let wireFolder := dusbNormalizeNameForSend model folder
  let wireName := dusbNormalizeNameForSend model name
  let pks := rtsPacketSize wireFolder wireName attrs
  let written := rtsWritten folder name wireFolder wireName size attrs modeflag
  if pks.toNat + dusbDhSize < written.length then none
  else
    let buffer := written ++ List.replicate (pks.toNat + dusbDhSize - written.length) 0
    some ⟨dusbVpktRts, buffer.take pks.toNat, length_take_le buffer pks⟩

def dusbCmdSRts2 (model : CalcModel) (folder name : List UInt8) (size : UInt32)
    (attrs : List DUSBCalcAttr) (modeflag : UInt8) : DusbProc Unit :=
  match rtsPacket model folder name size attrs modeflag with
  | none => throw .undefinedBehaviour
  | some pkt => dusbSendData pkt

/-! ## what the packet is to carry -/

/-- A packet with some names in it, and the length fields of the same names. -/
def rtsBytes (folder name : List UInt8) (size : UInt32) (attrs : List DUSBCalcAttr)
    (modeflag : UInt8) : List UInt8 :=
  rtsWritten folder name folder name size attrs modeflag

/-- The bytes that are written are those of the packet with the normalised names, and they fill
exactly the size that was computed before. -/
structure CarriesWireNames (model : CalcModel) (folder name : List UInt8) (size : UInt32)
    (attrs : List DUSBCalcAttr) (modeflag : UInt8) : Prop where
  names : (rtsPacket model folder name size attrs modeflag).map (·.data)
    = some (rtsBytes (dusbNormalizeNameForSend model folder) (dusbNormalizeNameForSend model name)
        size attrs modeflag)
  fills : (rtsWritten folder name (dusbNormalizeNameForSend model folder)
      (dusbNormalizeNameForSend model name) size attrs modeflag).length
    = (rtsPacketSize (dusbNormalizeNameForSend model folder) (dusbNormalizeNameForSend model name)
        attrs).toNat

/-! ## normalisation -/

theorem length_replaceTranspose (text : List UInt8) :
    (replaceTranspose text).length = text.length := by
  induction text using replaceTranspose.induct with
  | case1 a b c text h ih =>
      rw [replaceTranspose, if_pos h, List.length_append, ih]
      exact Nat.add_comm 3 text.length
  | case2 a b c text h ih =>
      rw [replaceTranspose, if_neg h, List.length_cons, ih]
      rfl
  | case3 text h =>
      rw [replaceTranspose]
      exact h

theorem length_dusbNormalizeNameForSend (model : CalcModel) (text : List UInt8) :
    (dusbNormalizeNameForSend model text).length = text.length := by
  unfold dusbNormalizeNameForSend
  split
  · exact length_replaceTranspose text
  · rfl

/-- Normalisation changes the texts with the glyph in them. -/
theorem replaceTranspose_eq_self_iff (text : List UInt8) :
    replaceTranspose text = text ↔ ¬kDisplayTranspose <:+: text := by
  induction text using replaceTranspose.induct with
  | case1 a b c text h ih =>
      have hfound : kDisplayTranspose <:+: a :: b :: c :: text := by
        rw [← h]
        exact ⟨[], text, rfl⟩
      constructor
      · intro hsame
        rw [replaceTranspose, if_pos h] at hsame
        have hfirst : (0xEF : UInt8) = a := (List.cons.inj hsame).1
        rw [← hfirst] at h
        cases h
      · exact absurd hfound
  | case2 a b c text h ih =>
      have hhead : ¬kDisplayTranspose <+: a :: b :: c :: text := by
        rintro ⟨rest, hrest⟩
        apply h
        have htake := congrArg (List.take 3) hrest
        exact htake.symm
      have hinfix : kDisplayTranspose <:+: a :: b :: c :: text
          ↔ kDisplayTranspose <:+: b :: c :: text := by
        rw [List.infix_cons_iff]
        exact or_iff_right hhead
      rw [replaceTranspose, if_neg h, List.cons.injEq, and_iff_right rfl, ih, hinfix]
  | case3 text h =>
      have hshort : text.length < 3 := by
        match text with
        | [] | [_] | [_, _] => simp
        | a :: b :: c :: text => exact absurd rfl (h a b c text)
      rw [replaceTranspose]
      · constructor
        · intro _ hfound
          exact absurd (hfound.length_le) (Nat.not_le.mpr hshort)
        · intro _
          rfl
      · exact h

/-- Names that go to the wire as they are. -/
theorem dusbNormalizeNameForSend_eq_self_iff (model : CalcModel) (text : List UInt8) :
    dusbNormalizeNameForSend model text = text
      ↔ (dusbModelNeedsTransposePua model → ¬kDisplayTranspose <:+: text) := by
  unfold dusbNormalizeNameForSend
  by_cases hneeds : dusbModelNeedsTransposePua model = true
  · rw [if_pos hneeds, replaceTranspose_eq_self_iff]
    exact ⟨fun h _ => h, fun h => h hneeds⟩
  · rw [if_neg hneeds]
    exact ⟨fun _ h => absurd h hneeds, fun _ => rfl⟩

/-! ## size and bytes -/

/-- How many bytes a packet with some names takes. -/
def rtsLength (folder name : List UInt8) (attrs : List DUSBCalcAttr) : Nat :=
  10 + name.length + (if folder ≠ [] then folder.length + 1 else 0)
    + (attrs.map fun attr => 4 + attr.size.toNat).sum

theorem foldl_attr_size (attrs : List DUSBCalcAttr) (pks : Nat) :
    attrs.foldl (fun pks attr => pks + (4 + attr.size.toUInt32)) (UInt32.ofNat pks)
      = UInt32.ofNat (pks + (attrs.map fun attr => 4 + attr.size.toNat).sum) := by
  induction attrs generalizing pks with
  | nil => rfl
  | cons attr attrs ih =>
      have hattr : 4 + attr.size.toUInt32 = UInt32.ofNat (4 + attr.size.toNat) := by
        exact UInt32.toNat.inj (by simp)
      rw [List.foldl_cons, hattr, ← UInt32.ofNat_add, ih, List.map_cons, List.sum_cons,
        Nat.add_assoc]

theorem rtsPacketSize_eq (folder name : List UInt8) (attrs : List DUSBCalcAttr) :
    rtsPacketSize folder name attrs = UInt32.ofNat (rtsLength folder name attrs) := by
  unfold rtsPacketSize rtsLength
  have hname : 2 + UInt32.ofNat name.length + 1 + 5 + 2 = UInt32.ofNat (10 + name.length) := by
    rw [UInt32.ofNat_add, UInt32.add_assoc, UInt32.add_assoc, UInt32.add_assoc, UInt32.add_comm 2,
      UInt32.add_assoc, UInt32.add_comm (UInt32.ofNat name.length)]
    rfl
  rw [hname]
  dsimp only
  split
  · have hfolder : UInt32.ofNat folder.length + 1 = UInt32.ofNat (folder.length + 1) := by
      rw [UInt32.ofNat_add]
      rfl
    rw [hfolder, ← UInt32.ofNat_add, foldl_attr_size]
  · rw [foldl_attr_size]
    rfl

theorem toNat_rtsPacketSize {folder name wireFolder wireName : List UInt8}
    (hfolder : wireFolder.length = folder.length) (hname : wireName.length = name.length)
    (attrs : List DUSBCalcAttr) :
    (rtsPacketSize wireFolder wireName attrs).toNat = rtsLength folder name attrs % 2 ^ 32 := by
  have hempty : wireFolder ≠ [] ↔ folder ≠ [] := by
    rw [← List.length_pos_iff, ← List.length_pos_iff, hfolder]
  have hlen : rtsLength wireFolder wireName attrs = rtsLength folder name attrs := by
    unfold rtsLength
    simp only [hempty, hfolder, hname]
  rw [rtsPacketSize_eq, hlen, UInt32.toNat_ofNat']

theorem length_attrField (attr : DUSBCalcAttr) : (attrField attr).length = 4 + attr.size.toNat := by
  unfold attrField
  rw [List.length_append, List.length_append, length_putBE, length_putBE, attr.length_data]
  omega

/-- A name of the same length as the one in its length field. -/
theorem nameField_eq {text wire : List UInt8} (h : wire.length = text.length) :
    nameField text wire = UInt8.ofNat text.length :: (text ++ [0]) := by
  unfold nameField
  rw [h]
  congr 1
  exact List.take_of_length_le (Nat.le_of_eq (by simp))

theorem length_rtsBytes (folder name : List UInt8) (size : UInt32) (attrs : List DUSBCalcAttr)
    (modeflag : UInt8) :
    (rtsBytes folder name size attrs modeflag).length = rtsLength folder name attrs := by
  unfold rtsBytes rtsWritten rtsLength
  rw [nameField_eq rfl, nameField_eq rfl]
  simp only [List.length_append, List.length_cons, List.length_nil, length_putBE,
    List.length_flatMap, length_attrField]
  split
  · simp only [List.length_append, List.length_cons, List.length_nil]
    omega
  · simp only [List.length_cons, List.length_nil]
    omega

/-- The bytes that are written are those of the names as they were given. -/
theorem rtsWritten_eq {folder name wireFolder wireName : List UInt8}
    (hfolder : wireFolder.length = folder.length) (hname : wireName.length = name.length)
    (size : UInt32) (attrs : List DUSBCalcAttr) (modeflag : UInt8) :
    rtsWritten folder name wireFolder wireName size attrs modeflag
      = rtsBytes folder name size attrs modeflag := by
  have hempty : wireFolder ≠ [] ↔ folder ≠ [] := by
    rw [← List.length_pos_iff, ← List.length_pos_iff, hfolder]
  unfold rtsBytes rtsWritten
  rw [nameField_eq hfolder, nameField_eq hname, nameField_eq rfl, nameField_eq rfl]
  simp only [hempty]

/-- The packet tells names of the same lengths apart. -/
theorem rtsBytes_inj {folder folder' name name' : List UInt8}
    (hfolder : folder'.length = folder.length) (hname : name'.length = name.length)
    {size : UInt32} {attrs : List DUSBCalcAttr} {modeflag : UInt8}
    (h : rtsBytes folder name size attrs modeflag = rtsBytes folder' name' size attrs modeflag) :
    folder' = folder ∧ name' = name := by
  have hempty : folder' ≠ [] ↔ folder ≠ [] := by
    rw [← List.length_pos_iff, ← List.length_pos_iff, hfolder]
  unfold rtsBytes rtsWritten at h
  rw [nameField_eq rfl, nameField_eq rfl, nameField_eq rfl, nameField_eq rfl] at h
  simp only [hempty, hfolder, hname] at h
  have hlen : (if folder ≠ [] then UInt8.ofNat folder.length :: (folder ++ [0]) else [0]).length
      = (if folder ≠ [] then UInt8.ofNat folder.length :: (folder' ++ [0]) else [0]).length := by
    split
    · simp [hfolder]
    · rfl
  obtain ⟨hfirst, hrest⟩ := List.append_inj h hlen
  obtain ⟨hsecond, -⟩ := List.append_inj (List.cons.inj hrest).2 (by simp [hname])
  refine ⟨?_, (List.append_cancel_right hsecond).symm⟩
  split at hfirst
  · exact (List.append_cancel_right (List.cons.inj hfirst).2).symm
  · rename_i hnil
    rw [Decidable.not_not] at hnil
    rw [hnil, List.length_nil] at hfolder
    rw [hnil]
    exact List.length_eq_zero_iff.mp hfolder

/-- A packet below 4 GiB is made of the names as they were given. -/
theorem rtsPacket_eq (model : CalcModel) (folder name : List UInt8) (size : UInt32)
    (attrs : List DUSBCalcAttr) (modeflag : UInt8) (h : rtsLength folder name attrs < 2 ^ 32) :
    (rtsPacket model folder name size attrs modeflag).map (·.data)
      = some (rtsBytes folder name size attrs modeflag) := by
  have hfolder := length_dusbNormalizeNameForSend model folder
  have hname := length_dusbNormalizeNameForSend model name
  have hpks := toNat_rtsPacketSize hfolder hname attrs
  have hlen := length_rtsBytes folder name size attrs modeflag
  rw [Nat.mod_eq_of_lt h] at hpks
  unfold rtsPacket
  dsimp only
  rw [rtsWritten_eq hfolder hname, if_neg (by rw [hpks, hlen]; exact Nat.not_lt.mpr (Nat.le_add_right _ _))]
  show some (List.take _ (_ ++ _)) = _
  rw [hpks, ← hlen, List.take_left]

/-- The packet carries the normalised names exactly when no name has the glyph that the model
needs replaced, and the packet is below 4 GiB. -/
theorem carriesWireNames_iff (model : CalcModel) (folder name : List UInt8) (size : UInt32)
    (attrs : List DUSBCalcAttr) (modeflag : UInt8) :
    CarriesWireNames model folder name size attrs modeflag
      ↔ (dusbModelNeedsTransposePua model →
          ¬kDisplayTranspose <:+: folder ∧ ¬kDisplayTranspose <:+: name)
        ∧ rtsLength folder name attrs < 2 ^ 32 := by
  have hfolder := length_dusbNormalizeNameForSend model folder
  have hname := length_dusbNormalizeNameForSend model name
  have hpks := toNat_rtsPacketSize hfolder hname attrs
  have hlen := length_rtsBytes folder name size attrs modeflag
  have hsame := dusbNormalizeNameForSend_eq_self_iff model
  constructor
  · rintro ⟨hnames, hfills⟩
    rw [rtsWritten_eq hfolder hname, hlen, hpks] at hfills
    have hsmall : rtsLength folder name attrs < 2 ^ 32 := by
      rw [hfills]
      exact Nat.mod_lt _ (by decide)
    rw [rtsPacket_eq model folder name size attrs modeflag hsmall] at hnames
    obtain ⟨hfolder', hname'⟩ := rtsBytes_inj hfolder hname (Option.some.inj hnames)
    refine ⟨fun hneeds => ⟨?_, ?_⟩, hsmall⟩
    · exact (hsame folder).mp hfolder' hneeds
    · exact (hsame name).mp hname' hneeds
  · rintro ⟨hglyph, hsmall⟩
    have hfolder' := (hsame folder).mpr fun hneeds => (hglyph hneeds).1
    have hname' := (hsame name).mpr fun hneeds => (hglyph hneeds).2
    constructor
    · rw [rtsPacket_eq model folder name size attrs modeflag hsmall, hfolder', hname']
    · rw [rtsWritten_eq hfolder hname, hlen, hpks, Nat.mod_eq_of_lt hsmall]

/-- The glyph goes out as it is in a name for a TI-84 Plus CE. -/
theorem not_carriesWireNames_transpose :
    ¬∀ model folder name size attrs modeflag,
      CarriesWireNames model folder name size attrs modeflag := by
  intro h
  have hnames := (h .ti84pceUsb [] kDisplayTranspose 0 [] 1).names
  exact absurd hnames (by decide)

end Tilibs.Dusb
