import Mathlib
import Tilibs.Dusb.Rts

/-!
# Tilibs.Dusb.Requests

The variable request and the request that modifies, renames or deletes a variable
(`dusb_cmd_s_var_request` and `dusb_cmd_s_var_modify` in `dusb_cmd.cc`).

Both add up the size of the packet in an `unsigned int` first, and then write the same pieces one
after the other.  The two agree below 4 GiB (`exact_iff`); attributes are passed as pointers, so
that a long list of one and the same attribute makes a packet above that.
-/

namespace Tilibs.Dusb

open Tilibs.Lib

/-! ## the two requests -/

/-- A variable of a request: its names and its attributes. -/
structure DusbVariable where
  folder : List UInt8
  name : List UInt8
  attrs : List DUSBCalcAttr

/-- A call of one of the two functions, with its arguments. -/
inductive DusbRequest
  | varRequest (var : DusbVariable) (aids : List UInt16)
  | varModify (src dst : DusbVariable)

def dusbVpktVarReq : UInt16 := 0x000C

def dusbVpktModifVar : UInt16 := 0x0010

/-- `DUSB_MODIF_VAR_PROT_IGNORE` -/
def dusbModifVarProtIgnore : UInt8 := 0x01

/-- The loop that adds the attributes to the size. -/
def addAttrSizes (attrs : List DUSBCalcAttr) (pks : UInt32) : UInt32 :=
  attrs.foldl (fun pks attr => pks + (4 + attr.size.toUInt32)) pks

/-- A name that is counted when it is not empty. -/
def addNameSize (text : List UInt8) (pks : UInt32) : UInt32 :=
  if text ≠ [] then pks + (UInt32.ofNat text.length + 1) else pks

/-- A name with the length in front of it, or one zero for an empty name. -/
def optionalName (text : List UInt8) : List UInt8 := if text ≠ [] then nameField text text else [0]

def attrsField (attrs : List DUSBCalcAttr) : List UInt8 :=
  putBE 2 attrs.length ++ attrs.flatMap attrField

def aidsField (aids : List UInt16) : List UInt8 :=
  putBE 2 aids.length ++ aids.flatMap fun aid => putBE 2 aid.toNat

namespace DusbRequest

def type : DusbRequest → UInt16
  | .varRequest _ _ => dusbVpktVarReq
  | .varModify _ _ => dusbVpktModifVar

/-- `pks`, an unsigned sum. -/
def packetSize : DusbRequest → UInt32
  | .varRequest var aids =>
      let pks := 2 + UInt32.ofNat var.name.length + 1 + 5 + 2 + 2 * UInt32.ofNat aids.length + 2
      addAttrSizes var.attrs (addNameSize var.folder pks) + 2
  | .varModify src dst =>
      let pks := 2 + UInt32.ofNat src.name.length + 1 + 2
      let pks := addAttrSizes src.attrs (addNameSize src.folder pks) + 5
      addAttrSizes dst.attrs (addNameSize dst.name (addNameSize dst.folder pks))

/-- What is written to `pkt->data`; each write is at `j`, the end of the one before. -/
def written : DusbRequest → List UInt8
  | .varRequest var aids =>
      optionalName var.folder
        ++ (nameField var.name var.name
          ++ ([0x01, 0xFF, 0xFF, 0xFF, 0xFF]
            ++ (aidsField aids ++ (attrsField var.attrs ++ [0x00, 0x00]))))
  | .varModify src dst =>
      optionalName src.folder
        ++ (nameField src.name src.name
          ++ (attrsField src.attrs
            ++ ([dusbModifVarProtIgnore]
              ++ (optionalName dst.folder ++ (optionalName dst.name ++ attrsField dst.attrs)))))

variable (r : DusbRequest)

/-- The packet.  Its buffer is zeroed, and as long as a data header more than the packet; `none`
when it is written behind its end. -/
def packet : Option DUSBVirtualPacket :=
  if r.packetSize.toNat + dusbDhSize < r.written.length then none
  else
    let buffer := r.written
      ++ List.replicate (r.packetSize.toNat + dusbDhSize - r.written.length) 0
    some ⟨r.type, buffer.take r.packetSize.toNat, length_take_le buffer r.packetSize⟩

/-- Whether `j == pks` after the last write, the check of `dusb_cmd_s_var_modify`. -/
def sizesMatch : Bool := UInt32.ofNat r.written.length == r.packetSize

/-- `dusb_cmd_s_var_request` and `dusb_cmd_s_var_modify`; only the latter has the check. -/
def send : DusbProc Unit :=
  match r.packet with
  | none => throw .undefinedBehaviour
  | some pkt =>
      match r with
      | .varRequest _ _ => dusbSendData pkt
      | .varModify _ _ => if r.sizesMatch then dusbSendData pkt else throw .invalidPacket

/-- Every byte that is written is inside the buffer, the packet is made of exactly these bytes,
and the sizes match. -/
structure Exact : Prop where
  fills : r.written.length = r.packetSize.toNat
  inside : r.packet.map (·.data) = some r.written
  reached : r.sizesMatch

/-! ## sizes -/

def attrSizes (attrs : List DUSBCalcAttr) : Nat := (attrs.map fun attr => 4 + attr.size.toNat).sum

def nameSize (text : List UInt8) : Nat := if text ≠ [] then text.length + 1 else 0

/-- The bytes of a list of attributes. -/
def attrsLength (attrs : List DUSBCalcAttr) : Nat := 2 + attrSizes attrs

/-- The bytes of a name that may be empty. -/
def optionalLength (text : List UInt8) : Nat := 1 + nameSize text

/-- How many bytes a request takes. -/
def length : DusbRequest → Nat
  | .varRequest var aids =>
      optionalLength var.folder + (var.name.length + 2) + 5 + (2 + 2 * aids.length)
        + attrsLength var.attrs + 2
  | .varModify src dst =>
      optionalLength src.folder + (src.name.length + 2) + attrsLength src.attrs + 1
        + optionalLength dst.folder + optionalLength dst.name + attrsLength dst.attrs

end DusbRequest

open DusbRequest

theorem length_nameField_self (text : List UInt8) :
    (nameField text text).length = text.length + 2 := by
  rw [nameField_eq rfl, List.length_cons, List.length_append, List.length_singleton]

theorem length_optionalName (text : List UInt8) :
    (optionalName text).length = optionalLength text := by
  unfold optionalName optionalLength nameSize
  split
  · rw [length_nameField_self]
    omega
  · rfl

theorem length_attrsField (attrs : List DUSBCalcAttr) :
    (attrsField attrs).length = attrsLength attrs := by
  simp [attrsField, attrsLength, attrSizes, length_putBE, List.length_flatMap, length_attrField]

theorem length_aidsField (aids : List UInt16) : (aidsField aids).length = 2 + 2 * aids.length := by
  simp [aidsField, length_putBE, List.length_flatMap, Nat.mul_comm]

theorem DusbRequest.length_written (r : DusbRequest) : r.written.length = r.length := by
  cases r with
  | varRequest var aids =>
      simp only [DusbRequest.written, DusbRequest.length, List.length_append, length_optionalName,
        length_nameField_self, length_aidsField, length_attrsField, List.length_cons,
        List.length_nil]
      omega
  | varModify src dst =>
      simp only [DusbRequest.written, DusbRequest.length, List.length_append, length_optionalName,
        length_nameField_self, length_attrsField, List.length_cons, List.length_nil]
      omega

theorem addAttrSizes_ofNat (attrs : List DUSBCalcAttr) (n : Nat) :
    addAttrSizes attrs (UInt32.ofNat n) = UInt32.ofNat (n + attrSizes attrs) :=
  foldl_attr_size attrs n

theorem addNameSize_ofNat (text : List UInt8) (n : Nat) :
    addNameSize text (UInt32.ofNat n) = UInt32.ofNat (n + nameSize text) := by
  unfold addNameSize nameSize
  split
  · have hone : (1 : UInt32) = UInt32.ofNat 1 := rfl
    rw [hone, ← UInt32.ofNat_add, ← UInt32.ofNat_add]
  · rfl

/-- The size that is computed is that of the pieces, in 32 bits. -/
theorem DusbRequest.packetSize_eq (r : DusbRequest) : r.packetSize = UInt32.ofNat r.length := by
  have htwo : (2 : UInt32) = UInt32.ofNat 2 := rfl
  have hone : (1 : UInt32) = UInt32.ofNat 1 := rfl
  have hfive : (5 : UInt32) = UInt32.ofNat 5 := rfl
  cases r with
  | varRequest var aids =>
      dsimp only [DusbRequest.packetSize, DusbRequest.length, optionalLength, attrsLength]
      rw [htwo, hone, hfive, ← UInt32.ofNat_mul]
      simp only [← UInt32.ofNat_add, addNameSize_ofNat, addAttrSizes_ofNat]
      congr 1
      omega
  | varModify src dst =>
      dsimp only [DusbRequest.packetSize, DusbRequest.length, optionalLength, attrsLength]
      rw [htwo, hone, hfive]
      simp only [← UInt32.ofNat_add, addNameSize_ofNat, addAttrSizes_ofNat]
      congr 1
      omega

theorem DusbRequest.toNat_packetSize (r : DusbRequest) :
    r.packetSize.toNat = r.length % 2 ^ 32 := by
  rw [r.packetSize_eq, UInt32.toNat_ofNat']

/-- The sizes match whatever they are: `j` is an `unsigned int` too. -/
theorem DusbRequest.sizesMatch_true (r : DusbRequest) : r.sizesMatch = true := by
  rw [DusbRequest.sizesMatch, r.length_written, r.packetSize_eq, beq_self_eq_true]

theorem DusbRequest.packet_of_lt {r : DusbRequest} (h : r.length < 2 ^ 32) :
    r.packet.map (·.data) = some r.written := by
  have hsize := r.toNat_packetSize
  rw [Nat.mod_eq_of_lt h, ← r.length_written] at hsize
  unfold DusbRequest.packet
  rw [if_neg (by rw [hsize]; exact Nat.not_lt.mpr (Nat.le_add_right _ _))]
  show some (List.take _ (_ ++ _)) = _
  rw [hsize, List.take_left]

/-- Nothing but the packet is sent, by either function. -/
theorem DusbRequest.send_of_lt {r : DusbRequest} (h : r.length < 2 ^ 32) :
    ∃ pkt : DUSBVirtualPacket, pkt.data = r.written ∧ r.send = dusbSendData pkt := by
  obtain ⟨pkt, hpkt, hdata⟩ := Option.map_eq_some_iff.mp (DusbRequest.packet_of_lt h)
  refine ⟨pkt, hdata, ?_⟩
  unfold DusbRequest.send
  rw [hpkt]
  cases r with
  | varRequest var aids => rfl
  | varModify src dst =>
      show (if _ then _ else _) = _
      rw [DusbRequest.sizesMatch_true, if_pos rfl]

/-- A request is exact when it takes less than 4 GiB. -/
theorem DusbRequest.exact_iff (r : DusbRequest) : r.Exact ↔ r.length < 2 ^ 32 := by
  constructor
  · rintro ⟨hfills, -, -⟩
    rw [← r.length_written, hfills]
    exact r.packetSize.toNat_lt
  · intro h
    refine ⟨?_, DusbRequest.packet_of_lt h, r.sizesMatch_true⟩
    rw [r.length_written, r.toNat_packetSize, Nat.mod_eq_of_lt h]

/-- An attribute as long as its size field allows. -/
def longAttr : DUSBCalcAttr where
  id := 0x0002
  ok := false
  size := 0xFFFF
  data := List.replicate 0xFFFF 0
  length_data := List.length_replicate

/-- A request with 65538 pointers to one attribute. -/
def longRequest : DusbRequest := .varRequest ⟨[], [], List.replicate 65538 longAttr⟩ []

theorem attrSizes_replicate (n : Nat) (attr : DUSBCalcAttr) :
    attrSizes (List.replicate n attr) = n * (4 + attr.size.toNat) := by
  simp [attrSizes]

theorem length_varRequest_attrs (attrs : List DUSBCalcAttr) :
    (varRequest ⟨[], [], attrs⟩ []).length = attrSizes attrs + 14 := by
  simp only [DusbRequest.length, optionalLength, nameSize, attrsLength, List.length_nil, ne_eq,
    not_true, if_false]
  omega

theorem length_longRequest : longRequest.length = 65538 * 65539 + 14 := by
  have hsize : longAttr.size.toNat = 65535 := rfl
  unfold longRequest
  rw [length_varRequest_attrs, attrSizes_replicate, hsize]

/-- The size of that request wraps. -/
theorem not_exact_longRequest : ¬ ∀ r : DusbRequest, r.Exact := by
  intro h
  have hfills := (h longRequest).fills
  have hlt := longRequest.packetSize.toNat_lt
  rw [← hfills, longRequest.length_written, length_longRequest] at hlt
  exact absurd hlt (by decide)

end Tilibs.Dusb
