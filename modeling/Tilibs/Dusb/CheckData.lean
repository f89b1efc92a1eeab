import Mathlib
import Tilibs.Dusb.Dissect
import Tilibs.Dusb.Responses

/-!
# Tilibs.Dusb.CheckData

What `dusb_check_cmd_data` reads and accepts (`dusb_cmd.cc`).

The data of a list of parameter values are accepted when they are a count and as many records,
and nothing more (`IsParamData`).  On the way to that verdict the loop makes sure of three bytes
for each record that is still to come; the size of a record that has a value is two bytes more,
which for the last record may be behind the end (`checksData_iff`).
-/

namespace Tilibs.Dusb

open Tilibs.Lib

/-! ## what is to be accepted -/

/-- A count and as many records, to the end of the data. -/
def IsParamData (data : List UInt8) : Prop :=
  ∃ (nparams : UInt16) (params : List DUSBCalcAttr) (items : List UInt8),
    params.length = nparams.toNat ∧ Seq IsAttr params items
      ∧ data = putBE 2 nparams.toNat ++ items

/-- The check of these data: the verdict is reached without a read outside of them, and a list of
parameter values is accepted just when it is one. -/
structure ChecksData (model : CalcModel) (data : List UInt8) (type : DusbVpktType) : Prop where
  inside : (dusbCheckCmdData model data data.length 0 type).isSome
  accepts : type = .parmData →
    (dusbCheckCmdData model data data.length 0 type = some true ↔ IsParamData data)

/-- The last record's head is there, if the loop comes to it: the records in front of it have left
three bytes for each that followed. -/
def LastHeadFits (data : List UInt8) : Prop :=
  2 + 3 * word data 0 ≤ data.length → 0 < word data 0 →
    ComesTo data 0 data.length (word data 0) 0 (word data 0 - 1) →
      Inside data (paramPos data 0 (word data 0 - 1))
        (paramHead data (paramPos data 0 (word data 0 - 1)))

/-! ## records and their places -/

section Records

variable {data rest : List UInt8} {p : Nat}

theorem drop_add {item : List UInt8} (h : data.drop p = item ++ rest) :
    data.drop (p + item.length) = rest := by
  rw [← List.drop_drop, h, List.drop_left]

theorem length_of_drop {item : List UInt8} (h : data.drop p = item ++ rest) :
    item ≠ [] → p + item.length + rest.length = data.length := by
  intro hitem
  have hpos := List.length_pos_iff.mpr hitem
  have hlen := congrArg List.length h
  rw [List.length_drop, List.length_append] at hlen
  omega

theorem word_of_drop {w : UInt16} (h : data.drop p = putBE 2 w.toNat ++ rest) :
    word data p = w.toNat := by
  obtain ⟨high, low, hbytes⟩ := List.length_eq_two.mp (length_putBE 2 w.toNat)
  have hw := word_iff.mpr hbytes
  rw [hbytes] at h
  have hhigh : peek data (p : Int) = high := peek_of_drop h
  have hlow : peek data ((p + 1 : Nat) : Int) = low :=
    peek_of_drop (by rw [← List.drop_drop, h]; rfl)
  have hlt : 256 * high.toNat + low.toNat < 2 ^ 16 := by
    have h1 := high.toNat_lt
    have h2 := low.toNat_lt
    omega
  have hvalue : w.toNat = 256 * high.toNat + low.toNat := by
    rw [hw, UInt16.toNat_ofNat_of_lt' hlt]
  rw [hvalue, word, hhigh]
  exact congrArg (fun b : UInt8 => 256 * high.toNat + b.toNat) hlow

/-- A record takes its head and its value. -/
theorem IsAttr.length_eq {attr : DUSBCalcAttr} {item : List UInt8} (h : IsAttr attr item)
    (hdrop : data.drop p = item ++ rest) : item.length = 3 + paramExtra data p := by
  cases h with
  | present hok =>
      rw [List.append_assoc, List.cons_append, List.append_assoc] at hdrop
      have hafter := drop_add hdrop
      rw [length_putBE] at hafter
      have hflag : peek data ((p + 2 : Nat) : Int) = 0 := peek_of_drop hafter
      have hbehind : data.drop (p + 2 + 1) = putBE 2 attr.size.toNat ++ (attr.data ++ rest) :=
        @drop_add _ _ _ [0] hafter
      have hsize : word data ((p + 2 + 1 : Nat) : Int) = attr.size.toNat := word_of_drop hbehind
      push_cast at hflag hsize
      have hplace : (p : Int) + 2 + 1 = p + 3 := by omega
      rw [hplace] at hsize
      rw [paramExtra, if_pos hflag, hsize]
      simp [attr.length_data]
      omega
  | absent hne =>
      rw [List.append_assoc, List.singleton_append] at hdrop
      have hafter := drop_add hdrop
      rw [length_putBE] at hafter
      have hflag : peek data ((p + 2 : Nat) : Int) ≠ 0 := by
        rw [peek_of_drop hafter]
        exact hne
      push_cast at hflag
      rw [paramExtra, if_neg hflag]
      simp

theorem drop_eq_peek (h : Inside data (p : Int) 1) :
    data.drop p = peek data (p : Int) :: data.drop (p + 1) := by
  have hlt : p < data.length := by
    unfold Inside at h
    omega
  have hcons : data.drop p = data[p] :: data.drop (p + 1) := List.drop_eq_getElem_cons hlt
  rw [hcons, peek_of_drop hcons]

theorem drop_eq_word (h : Inside data (p : Int) 2) :
    data.drop p = putBE 2 (UInt16.ofNat (word data p)).toNat ++ data.drop (p + 2) := by
  have hhigh : Inside data (p : Int) 1 := by
    unfold Inside at h ⊢
    omega
  have hlow : Inside data ((p + 1 : Nat) : Int) 1 := by
    unfold Inside at h ⊢
    omega
  have hw := word_iff.mp (rfl : UInt16.ofNat (word data p) = _)
  rw [hw, drop_eq_peek hhigh, drop_eq_peek hlow]
  rfl

/-- Where a record fits there is one, whatever its bytes are. -/
theorem exists_isAttr (h : Inside data (p : Int) (3 + paramExtra data p)) :
    ∃ attr item, IsAttr attr item ∧ data.drop p = item ++ data.drop (p + item.length) := by
  have hid : Inside data (p : Int) 2 := by
    unfold Inside at h ⊢
    omega
  have hflag : Inside data ((p + 2 : Nat) : Int) 1 := by
    unfold Inside at h ⊢
    omega
  have hcast : ((p + 2 : Nat) : Int) = (p : Int) + 2 := by omega
  by_cases hgood : peek data ((p : Int) + 2) = 0
  · rw [paramExtra, if_pos hgood] at h
    have hsize : Inside data ((p + 2 + 1 : Nat) : Int) 2 := by
      unfold Inside at h ⊢
      omega
    have hplace : ((p + 2 + 1 : Nat) : Int) = (p : Int) + 3 := by omega
    have hlt : word data ((p : Int) + 3) < 2 ^ 16 := word_lt data _
    let size := UInt16.ofNat (word data ((p : Int) + 3))
    have hvalue : size.toNat = word data ((p : Int) + 3) := UInt16.toNat_ofNat_of_lt' hlt
    have hroom : size.toNat ≤ (data.drop (p + 2 + 1 + 2)).length := by
      rw [hvalue, List.length_drop]
      unfold Inside at h
      omega
    have htake : ((data.drop (p + 2 + 1 + 2)).take size.toNat).length = size.toNat :=
      List.length_take_of_le hroom
    have hdrop : data.drop p = (putBE 2 (UInt16.ofNat (word data p)).toNat ++
        (0 :: (putBE 2 size.toNat ++ (data.drop (p + 2 + 1 + 2)).take size.toNat)))
          ++ (data.drop (p + 2 + 1 + 2)).drop size.toNat := by
      rw [drop_eq_word hid, drop_eq_peek hflag, drop_eq_word hsize, hplace, hcast, hgood]
      simp [size]
    refine ⟨⟨UInt16.ofNat (word data p), true, size, _, htake⟩, _, IsAttr.present rfl, ?_⟩
    rw [drop_add hdrop]
    exact hdrop
  · have hdrop : data.drop p = (putBE 2 (UInt16.ofNat (word data p)).toNat
        ++ [peek data ((p : Int) + 2)]) ++ data.drop (p + 2 + 1) := by
      rw [drop_eq_word hid, drop_eq_peek hflag, hcast]
      simp
    refine ⟨_, _, @IsAttr.absent (UInt16.ofNat (word data p)) _ hgood, ?_⟩
    rw [drop_add hdrop]
    exact hdrop

end Records

/-! ## a list of records to the end of the data -/

section Lists

variable {data : List UInt8}

theorem paramPos_zero_succ (i : Nat) :
    paramPos data 0 (i + 1) = paramPos data 0 i + (3 + paramExtra data (paramPos data 0 i)) := by
  rw [paramPos, zero_add, Nat.add_assoc]

/-- So many records take the rest of the data, just when the place behind the last one is the end
of the data. -/
theorem seq_isAttr_iff {m i : Nat} (hplace : paramPos data 0 i ≤ data.length) :
    (∃ params items, params.length = m ∧ Seq IsAttr params items
      ∧ data.drop (paramPos data 0 i) = items) ↔ paramPos data 0 (i + m) = data.length := by
  induction m generalizing i with
  | zero =>
      constructor
      · rintro ⟨params, items, hnone, hseq, hitems⟩
        obtain rfl := List.length_eq_zero_iff.mp hnone
        cases hseq
        exact Nat.le_antisymm hplace (List.drop_eq_nil_iff.mp hitems)
      · intro hend
        exact ⟨[], [], rfl, Seq.nil, List.drop_eq_nil_iff.mpr hend.ge⟩
  | succ m ih =>
      have hindex : i + (m + 1) = i + 1 + m := by omega
      rw [hindex]
      constructor
      · rintro ⟨params, items, hcount, hseq, hitems⟩
        cases hseq with
        | nil => simp at hcount
        | cons hattr hrest =>
            have hlength := hattr.length_eq hitems
            have hnext : paramPos data 0 (i + 1) = paramPos data 0 i + _ := paramPos_zero_succ i
            rw [← hlength] at hnext
            have hafter := drop_add hitems
            rw [← hnext] at hafter
            have hsum := length_of_drop hitems (List.ne_nil_of_length_pos (by omega))
            exact (ih (by omega)).mp ⟨_, _, Nat.succ_injective hcount, hrest, hafter⟩
      · intro hend
        have hmono : paramPos data 0 (i + 1) + 3 * (i + 1 + m - (i + 1))
            ≤ paramPos data 0 (i + 1 + m) := paramPos_mono (by omega)
        have hnext : paramPos data 0 (i + 1) = paramPos data 0 i + _ := paramPos_zero_succ i
        have hinside : Inside data (paramPos data 0 i : Nat)
            (3 + paramExtra data (paramPos data 0 i : Nat)) := by
          unfold Inside
          omega
        obtain ⟨attr, item, hattr, hitem⟩ := exists_isAttr hinside
        rw [← hattr.length_eq hitem] at hnext
        obtain ⟨params, items, hcount, hseq, hitems⟩ := (ih (by omega)).mpr hend
        rw [← hnext, hitems] at hitem
        exact ⟨attr :: params, item ++ items, by simp [hcount], Seq.cons hattr hseq, hitem⟩

theorem isParamData_iff :
    IsParamData data ↔ 2 ≤ data.length ∧ paramPos data 0 (word data 0) = data.length := by
  constructor
  · rintro ⟨nparams, params, items, hcount, hseq, hdata⟩
    have hstart : data.drop 0 = putBE 2 nparams.toNat ++ items := hdata
    have hword : word data ((0 : Nat) : Int) = nparams.toNat := word_of_drop hstart
    have hlen : 2 ≤ data.length := by
      rw [hdata]
      simp
    have hitems : data.drop 2 = items := by
      simpa using drop_add hstart
    refine ⟨hlen, ?_⟩
    have hend := (seq_isAttr_iff (m := params.length) (i := 0) hlen).mp
      ⟨params, items, rfl, hseq, hitems⟩
    rw [Nat.zero_add, hcount, ← hword] at hend
    exact hend
  · rintro ⟨hlen, hend⟩
    have hinside : Inside data ((0 : Nat) : Int) 2 := ⟨le_rfl, by omega⟩
    have hvalue : (UInt16.ofNat (word data 0)).toNat = word data 0 :=
      UInt16.toNat_ofNat_of_lt' (word_lt data 0)
    have hend' : paramPos data 0 (0 + word data 0) = data.length := by
      rw [Nat.zero_add]
      exact hend
    obtain ⟨params, items, hcount, hseq, hitems⟩ := (seq_isAttr_iff (i := 0) hlen).mpr hend'
    refine ⟨UInt16.ofNat (word data 0), params, items, hcount.trans hvalue.symm, hseq, ?_⟩
    rw [← hitems]
    exact drop_eq_word hinside

end Lists

/-! ## sums that wrap -/

section Wrapping

variable {data : List UInt8} {nparams : Nat}

/-- Behind the end of the data there are no records that take much. -/
theorem paramPos_le_add (hlen : 2 ≤ data.length) (k : Nat) :
    paramPos data 0 k ≤ data.length + 0x10004 + 5 * k := by
  induction k with
  | zero =>
      rw [paramPos]
      omega
  | succ k ih =>
      have hnext : paramPos data 0 (k + 1) = paramPos data 0 k + _ := paramPos_zero_succ k
      have hword : word data ((paramPos data 0 k : Int) + 3) < 2 ^ 16 := word_lt data _
      rw [hnext]
      by_cases hflag : paramPos data 0 k + 2 < data.length
      · rw [paramExtra]
        split <;> omega
      · have hbehind : ∀ i : Int, (paramPos data 0 k : Int) + 2 < i → peek data i = 0 := by
          intro i hi
          have hout : ¬ Inside data i 1 := by
            unfold Inside
            omega
          rw [peek, readAt_of_not_inside hout]
          rfl
        have hsize : word data ((paramPos data 0 k : Int) + 3) = 0 := by
          rw [word, hbehind _ (by omega), hbehind _ (by omega)]
          rfl
        rw [paramExtra, hsize]
        split <;> omega

/-- A loop that comes past the end of the data has seen a sum that wrapped. -/
theorem wrapped_of_comesTo (hlen : data.length < 2 ^ 32) {j : Nat} (hj : j ≤ nparams)
    (hfirst : paramsEnd data 0 nparams 0 ≤ data.length)
    (hcomes : ComesTo data 0 data.length nparams 0 j)
    (hpast : data.length < paramsEnd data 0 nparams j) :
    2 ^ 32 ≤ paramsEnd data 0 nparams j ∧ 2 ^ 32 ≤ data.length + 0x10001 := by
  induction j with
  | zero => omega
  | succ j ih =>
      have hbound : paramsEnd data 0 nparams j ≤ paramsEnd data 0 nparams (j + 1) ∧
          paramsEnd data 0 nparams (j + 1) ≤ paramsEnd data 0 nparams j + 0x10001 :=
        paramsEnd_succ_le hj
      by_cases hbefore : data.length < paramsEnd data 0 nparams j
      · obtain ⟨hend, hwrap⟩ := ih (by omega) (fun k hk hkj => hcomes k hk (by omega)) hbefore
        omega
      · have hle := hcomes (j + 1) (by omega) le_rfl
        have hwrapped : 2 ^ 32 ≤ paramsEnd data 0 nparams (j + 1) := by
          by_contra hsmall
          rw [Nat.mod_eq_of_lt (by omega)] at hle
          omega
        omega

/-- From there on no sum is above the length. -/
theorem comesTo_of_wrapped (hlen2 : 2 ≤ data.length) (hn : nparams < 2 ^ 16)
    (hwrap : 2 ^ 32 ≤ data.length + 0x10001) {i j : Nat} (hlen : data.length < 2 ^ 32)
    (hend : 2 ^ 32 ≤ paramsEnd data 0 nparams i)
    (hcomes : ComesTo data 0 data.length nparams 0 i) (hj : j ≤ nparams) :
    ComesTo data 0 data.length nparams 0 j := by
  intro k hk hkj
  by_cases hki : k ≤ i
  · exact hcomes k hk hki
  · have hmono : paramsEnd data 0 nparams i ≤ paramsEnd data 0 nparams k :=
      paramsEnd_mono (by omega) (by omega)
    have hplace : paramPos data 0 k ≤ data.length + 0x10004 + 5 * k := paramPos_le_add hlen2 k
    have hupper : paramsEnd data 0 nparams k ≤ data.length + 0x10004 + 5 * 2 ^ 16 := by
      unfold paramsEnd
      omega
    omega

end Wrapping

/-! ## the verdict -/

section Verdict

variable {data : List UInt8}

/-- Of the heads that the loop comes to, only the last one may be cut off. -/
theorem checkedHeadsFit_iff_lastHeadFits (hlen : data.length < 2 ^ 32)
    (hroom : 2 + 3 * word data 0 ≤ data.length) :
    CheckedHeadsFit data 0 data.length (word data 0) 0 ↔ LastHeadFits data := by
  constructor
  · intro h _ hsome hcomes
    have hhead := h (word data 0 - 1) (Nat.zero_le _) (by omega) hcomes
    rwa [zero_add] at hhead
  · intro h j _ hj hcomes
    rw [zero_add]
    by_cases hlast : j = word data 0 - 1
    · rw [hlast] at hcomes ⊢
      exact h hroom (by omega) hcomes
    · have hhead : paramHead data (paramPos data 0 j) ≤ 5 := by
        unfold paramHead
        split <;> omega
      by_cases hpast : data.length < paramsEnd data 0 (word data 0) j
      · -- then the last record is come to as well, and it is behind the end
        obtain ⟨hend, hwrap⟩ := wrapped_of_comesTo hlen hj.le hroom hcomes hpast
        have hreached := comesTo_of_wrapped (by omega) (word_lt data 0) hwrap hlen hend hcomes
          (Nat.sub_le (word data 0) 1)
        have hinside := h hroom (by omega) hreached
        have hmono : paramsEnd data 0 (word data 0) j
            ≤ paramsEnd data 0 (word data 0) (word data 0 - 1) :=
          paramsEnd_mono (by omega) (by omega)
        have hthree : 3 ≤ paramHead data (paramPos data 0 (word data 0 - 1)) := by
          unfold paramHead
          split <;> omega
        unfold Inside at hinside
        unfold paramsEnd at hpast hmono
        omega
      · unfold paramsEnd at hpast
        unfold Inside
        omega

/-- When the heads are there, a sum that wrapped is not taken for the length. -/
theorem comesTo_and_end_iff (hlen : data.length < 2 ^ 32)
    (hroom : 2 + 3 * word data 0 ≤ data.length)
    (hheads : CheckedHeadsFit data 0 data.length (word data 0) 0) :
    ComesTo data 0 data.length (word data 0) 0 (word data 0)
        ∧ data.length = paramPos data 0 (word data 0) % 2 ^ 32 ↔
      paramPos data 0 (word data 0) = data.length := by
  have hend : paramsEnd data 0 (word data 0) (word data 0) = paramPos data 0 (word data 0) := by
    rw [paramsEnd, Nat.sub_self, Nat.mul_zero, Nat.add_zero]
  constructor
  · rintro ⟨hcomes, hsum⟩
    suffices hsmall : paramPos data 0 (word data 0) < 2 ^ 32 by
      rw [Nat.mod_eq_of_lt hsmall] at hsum
      exact hsum.symm
    by_cases hnone : word data 0 = 0
    · rw [hnone, paramPos]
      omega
    · obtain ⟨last, hlast⟩ := Nat.exists_eq_succ_of_ne_zero hnone
      rw [hlast] at hcomes hsum hheads ⊢
      have hinside := hheads last (Nat.zero_le _) (by omega) fun k hk hkl => hcomes k hk (by omega)
      rw [zero_add] at hinside
      have hnext : paramPos data 0 (last + 1) = paramPos data 0 last + _ := paramPos_zero_succ last
      have hword : word data ((paramPos data 0 last : Int) + 3) < 2 ^ 16 := word_lt data _
      -- the last record ends less than a whole value behind the end
      have hvalue : paramExtra data (paramPos data 0 last) ≤ 0x10001 := by
        unfold paramExtra
        split <;> omega
      have hthree : 3 ≤ paramHead data (paramPos data 0 last) := by
        unfold paramHead
        split <;> omega
      unfold Inside at hinside
      show paramPos data 0 (last + 1) < 2 ^ 32
      have hsum' : data.length = paramPos data 0 (last + 1) % 2 ^ 32 := hsum
      omega
  · intro hplace
    rw [hplace, Nat.mod_eq_of_lt hlen]
    refine ⟨fun k _ hk => ?_, rfl⟩
    have hmono : paramsEnd data 0 (word data 0) k ≤ paramsEnd data 0 (word data 0) (word data 0) :=
      paramsEnd_mono hk le_rfl
    have hmod := Nat.mod_le (paramsEnd data 0 (word data 0) k) (2 ^ 32)
    omega

variable {model : CalcModel}

theorem word_of_inside {i : Int} (h : Inside data i 2) {α : Type} (next : Nat → Option α) :
    (wordAt data i >>= next) = next (word data i) := by
  rw [wordAt_of_inside h]
  rfl

/-- The check of a list of parameter values. -/
theorem dusbCheckCmdData_parmData (hlen : 2 ≤ data.length) :
    dusbCheckCmdData model data data.length 0 .parmData =
      if 2 + 3 * word data 0 ≤ data.length then
        dusbCheckParams data data.length (word data 0) (word data 0) (0 + paramPos data 0 0) 0
      else some false := by
  have hinside : Inside data 0 2 := ⟨le_rfl, by omega⟩
  rw [dusbCheckCmdData, if_pos hlen, word_of_inside hinside]
  rfl

theorem checksData_parmData_iff (hlen : data.length < 2 ^ 32) :
    ChecksData model data .parmData ↔ LastHeadFits data := by
  by_cases hcount : 2 ≤ data.length
  case neg =>
    have hcheck : dusbCheckCmdData model data data.length 0 .parmData = some false := by
      rw [dusbCheckCmdData, if_neg hcount]
    refine ⟨fun _ hroom => by omega, fun _ => ⟨by rw [hcheck]; rfl, fun _ => ?_⟩⟩
    rw [hcheck, isParamData_iff]
    simp [hcount]
  have hcheck := @dusbCheckCmdData_parmData data model hcount
  by_cases hroom : 2 + 3 * word data 0 ≤ data.length
  case neg =>
    rw [if_neg hroom] at hcheck
    refine ⟨fun _ h => absurd h hroom, fun _ => ⟨by rw [hcheck]; rfl, fun _ => ?_⟩⟩
    have hmono : paramPos data 0 0 + 3 * (word data 0 - 0) ≤ paramPos data 0 (word data 0) :=
      paramPos_mono (Nat.zero_le _)
    have hstart : paramPos data 0 0 = 2 := rfl
    rw [hcheck, isParamData_iff]
    simp only [Option.some.injEq, Bool.false_eq_true, false_iff, not_and]
    omega
  rw [if_pos hroom] at hcheck
  have hsize : paramPos data 0 0 = 2 + 3 * 0 + 0 := rfl
  obtain ⟨hverdict, hheads⟩ :=
    @dusbCheckParams_spec data 0 data.length (word data 0) le_rfl _ _ _ (Nat.zero_add _) hsize
  rw [← checkedHeadsFit_iff_lastHeadFits hlen hroom]
  constructor
  · intro h
    have hsome := h.inside
    rw [hcheck] at hsome
    exact hheads hsome
  · intro h
    obtain ⟨accepts, hresult, haccepts⟩ := hverdict h
    rw [hresult] at hcheck
    refine ⟨by rw [hcheck]; rfl, fun _ => ?_⟩
    rw [hcheck, Option.some.injEq, haccepts, comesTo_and_end_iff hlen hroom h, isParamData_iff]
    exact (and_iff_right hcount).symm

/-- The other types read no more than the length they have asked for. -/
theorem isSome_dusbCheckCmdData {type : DusbVpktType} (htype : type ≠ .parmData) :
    (dusbCheckCmdData model data data.length 0 type).isSome := by
  cases type with
  | parmData => exact absurd rfl htype
  | parmReq =>
      rw [dusbCheckCmdData]
      split
      · rw [word_of_inside ⟨le_rfl, by omega⟩]
        rfl
      · rfl
  | parmSet =>
      rw [dusbCheckCmdData]
      split
      · rw [word_of_inside ⟨by omega, by omega⟩]
        rfl
      · rfl
  | osHeader | osData =>
      rw [dusbCheckCmdData]
      split <;> rfl
  | _ => rfl

/-- **The check of a packet's data.**  It reads inside of the data and accepts the lists of
parameter values that are whole, except when the head of the last record of such a list is cut
off: the size of its value is then read from behind the end. -/
theorem checksData_iff (model : CalcModel) (data : List UInt8) (type : DusbVpktType)
    (hlen : data.length < 2 ^ 32) :
    ChecksData model data type ↔ (type = .parmData → LastHeadFits data) := by
  by_cases htype : type = .parmData
  · subst htype
    rw [checksData_parmData_iff hlen]
    exact ⟨fun h _ => h, fun h => h rfl⟩
  · exact iff_of_true ⟨isSome_dusbCheckCmdData htype, fun h => absurd h htype⟩
      fun h => absurd h htype

/-- One parameter that is marked as good, with a value of two bytes. -/
def versionParamData : List UInt8 := [0, 1, 0, 3, 0, 0, 2, 5, 7]

theorem checksData_iff_version :
    ChecksData .ti84pUsb versionParamData .parmData ↔
      (DusbVpktType.parmData = .parmData → LastHeadFits versionParamData) :=
  checksData_iff .ti84pUsb versionParamData .parmData (by decide)

/-- One parameter that is marked as good, and no size behind the mark. -/
def cutParamData : List UInt8 := [0, 1, 0, 3, 0]

theorem not_checksData_cut :
    ¬ ∀ (model : CalcModel) (data : List UInt8) (type : DusbVpktType), data.length < 2 ^ 32 →
      ChecksData model data type := by
  intro h
  have hinside := (h .ti84pUsb cutParamData .parmData (by decide)).inside
  exact absurd hinside (by decide)

end Verdict

end Tilibs.Dusb
