import Mathlib
import Tilibs.CalcModel
import Tilibs.Files.FileTypes

/-!
# Tilibs.Files.TypeNames

The names of the models, and those of the types of variables with their extensions
(`typesxx.cc` and the tables behind it).
-/

namespace Tilibs.Files

/-! ## tables -/

/-- `TI73_CONST` -/
def ti73Const : List (String × String) :=
  [("REAL", "73n"), ("LIST", "73l"), ("MAT", "73m"), ("EQU", "73e"), ("STR", "73s"),
    ("PRGM", "73p"), ("ASM", "73p"), ("PIC", "73i"), ("GDB", "73d"), ("", "73?"), ("", "73?"),
    ("WDW", "73w"), ("CPLX", "73c"), ("", "73?"), ("", "73?"), ("WINDW", "73w"),
    ("ZSTO", "73z"), ("TABLE", "73t"), ("", "73?"), ("BKUP", "73b")]
    ++ List.replicate 5 ("", "73?")
    ++ [("DIR", "73?"), ("AVAR", "73v")]
    ++ List.replicate 8 ("", "73?")
    ++ [("AMS", "73u"), ("APPL", "73k"), ("CERT", "73q"), ("IDLIST", "73?")]
    ++ List.replicate 9 ("", "73?")

/-- `TI82_CONST` -/
def ti82Const : List (String × String) :=
  [("REAL", "82n"), ("LIST", "82l"), ("MAT", "82m"), ("YVAR", "82y"), ("", "82?"),
    ("PRGM", "82p"), ("PPGM", "82p"), ("PIC", "82i"), ("GDB", "82d"), ("", "82?"), ("", "82?"),
    ("WINDW", "82w"), ("ZSTO", "82z"), ("TABLE", "82t"), ("LCD", "82?"), ("BKUP", "82b")]
    ++ List.replicate 32 ("", "82?")

/-- `TI83_CONST` -/
def ti83Const : List (String × String) :=
  [("REAL", "83n"), ("LIST", "83l"), ("MAT", "83m"), ("YVAR", "83y"), ("STR", "83s"),
    ("PRGM", "83p"), ("ASM", "83p"), ("PIC", "83i"), ("GDB", "83d")]
    ++ List.replicate 3 ("", "83?")
    ++ [("CPLX", "83c"), ("", "83?"), ("", "83?"), ("WINDW", "83w"), ("ZSTO", "83z"),
    ("TABLE", "83t"), ("", "83?"), ("BKUP", "83b")]
    ++ List.replicate 5 ("", "83?")
    ++ [("DIR", "83?")]
    ++ List.replicate 22 ("", "83?")

/-- `TI85_CONST` -/
def ti85Const : List (String × String) :=
  [("REAL", "85n"), ("CPLX", "85c"), ("VECT", "85v"), ("CVECT", "85v"), ("LIST", "85l"),
    ("CLIST", "85l"), ("MAT", "85m"), ("CMAT", "85m"), ("CONS", "85k"), ("CCONS", "85c"),
    ("EQU", "85y"), ("", "85?"), ("STR", "85s"), ("GDB", "85d"), ("GDB", "85d"), ("GDB", "85d"),
    ("GDB", "85d"), ("PIC", "85i"), ("PRGM", "85p"), ("RANGE", "85r"), ("SCRN", "85?"),
    ("DIR", "85?"), ("", "85?"), ("WND", "85w"), ("POLAR", "85?"), ("PARAM", "85?"),
    ("DIFEQ", "85?"), ("ZRCL", "85z"), ("", "85?"), ("BKUP", "85b")]
    ++ List.replicate 12 ("", "85?")
    ++ [("YVAR", "85y")]
    ++ List.replicate 5 ("", "85?")

/-- `TI86_CONST` -/
def ti86Const : List (String × String) :=
  [("REAL", "86n"), ("CPLX", "86c"), ("VECT", "86v"), ("CVECT", "86v"), ("LIST", "86l"),
    ("CLIST", "86l"), ("MAT", "86m"), ("CMAT", "86m"), ("CONS", "86k"), ("CCONS", "86k"),
    ("EQU", "86y"), ("", "86?"), ("STR", "86s"), ("GDB", "86d"), ("GDB", "86d"), ("GDB", "86d"),
    ("GDB", "86d"), ("PIC", "86i"), ("PRGM", "86p"), ("RANGE", "86r"), ("SCRN", "86?"),
    ("DIR", "86?"), ("", "86?"), ("WIND", "86w"), ("WIND", "86w"), ("WIND", "86w"),
    ("WIND", "86w"), ("WIND", "86w"), ("", "86?"), ("BKUP", "86b")]
    ++ List.replicate 18 ("", "86?")

/-- `NSP_CONST` -/
def nspConst : List (String × String) :=
  [("TNS", "tns"), ("DIR", "???")]

/-- `TI83p_DATA` -/
structure Ti83pData where
  type : String
  fext83p : String
  fext84pc : String
  fext83pce : String
  fext84pce : String
  fext82a : String
  fext84pt : String
  fext82aep : String

/-- A type with one extension. -/
def allFext (type fext : String) : Ti83pData :=
  ⟨type, fext, fext, fext, fext, fext, fext, fext⟩

/-- `TI83p_CONST` -/
def ti83pConst : List Ti83pData :=
  [allFext "REAL" "8Xn", allFext "LIST" "8Xl", allFext "MAT" "8Xm", allFext "EQU" "8Xe",
    allFext "STR" "8Xs", allFext "PRGM" "8Xp", allFext "PPRGM" "8Xp",
    ⟨"PIC", "8Xi", "8Ci", "8Ci", "8Ci", "8Xi", "8Xi", "8Xi"⟩, allFext "GDB" "8Xd",
    allFext "" "8X?", allFext "" "8X?", allFext "EQU" "8Xe", allFext "CPLX" "8Xc",
    allFext "LIST" "8Xl", allFext "" "8X?", allFext "WINDW" "8Xw", allFext "ZSTO" "8Xz",
    allFext "TABLE" "8Xt", allFext "" "8X?", allFext "BKUP" "8Xb", allFext "APPOBJ" "8Xv",
    allFext "APPV" "8Xv", allFext "TPRGM" "8Xp", allFext "GRP" "8Xo", allFext "REAL" "8Xn",
    allFext "DIR" "8X?", ⟨"IMAGE", "8Xa", "8Ca", "8Ca", "8Ca", "8Xa", "8Xa", "8Xa"⟩,
    allFext "CPLX" "8Xc", allFext "REAL" "8Xn", allFext "CPLX" "8Xc", allFext "CPLX" "8Xc",
    allFext "CPLX" "8Xc", allFext "REAL" "8Xn", allFext "REAL" "8Xn", allFext "" "8X?",
    ⟨"AMS", "8Xu", "8Cu", "8Pu", "8Eu", "82u", "8Xu", "8Yu"⟩,
    ⟨"APPL", "8Xk", "8Ck", "8Ek", "8Ek", "8X?", "8X?", "8X?"⟩,
    ⟨"CERT", "8Xq", "8Cq", "8Pq", "8Eq", "8X?", "8X?", "8X?"⟩,
    ⟨"IDLIST", "8Xidl", "8Cidl", "8Pidl", "8Eidl", "8Xidl", "8Xidl", "8Xidl"⟩]
    ++ List.replicate 9 (allFext "" "8X?")

/-- `TI68k_DATA` -/
structure Ti68kData where
  type : String
  fext89 : String
  fext92 : String
  fext92p : String
  fextv200 : String

/-- `TI68k_CONST` -/
def ti68kConst : List Ti68kData :=
  [⟨"EXPR", "89e", "92e", "9xe", "v2e"⟩]
    ++ List.replicate 3 ⟨"", "89?", "92?", "9x?", "v2?"⟩
    ++ [⟨"LIST", "89l", "92l", "9xl", "v2l"⟩, ⟨"", "89?", "92?", "9x?", "v2?"⟩,
    ⟨"MAT", "89m", "92m", "9xm", "v2m"⟩]
    ++ List.replicate 3 ⟨"", "89?", "92?", "9x?", "v2?"⟩
    ++ [⟨"DATA", "89c", "92c", "9xc", "v2c"⟩, ⟨"TEXT", "89t", "92t", "9xt", "v2t"⟩,
    ⟨"STR", "89s", "92s", "9xs", "v2s"⟩, ⟨"GDB", "89d", "92d", "9xd", "v2d"⟩,
    ⟨"FIG", "89a", "92a", "9xa", "v2a"⟩, ⟨"", "89?", "92?", "9x?", "v2?"⟩,
    ⟨"PIC", "89i", "92i", "9xi", "v2i"⟩, ⟨"", "89?", "92?", "9x?", "v2?"⟩,
    ⟨"PRGM", "89p", "92p", "9xp", "v2p"⟩, ⟨"FUNC", "89f", "92f", "9xf", "v2f"⟩,
    ⟨"MAC", "89x", "92x", "9xx", "v2x"⟩]
    ++ List.replicate 3 ⟨"", "89?", "92?", "9x?", "v2?"⟩
    ++ [⟨"CLOCK", "89clk", "92?", "9xclk", "v2clk"⟩, ⟨"", "89?", "92?", "9x?", "v2?"⟩,
    ⟨"RDIR", "89?", "92?", "9x?", "v2?"⟩, ⟨"LDIR", "89?", "92?", "9x?", "v2?"⟩,
    ⟨"OTH", "89y", "92?", "9xy", "v2y"⟩, ⟨"BKUP", "89g", "92b", "9xg", "v2g"⟩,
    ⟨"", "89?", "92?", "9x?", "v2?"⟩, ⟨"DIR", "89?", "92?", "9x?", "v2?"⟩,
    ⟨"", "89?", "92?", "9x?", "v2?"⟩, ⟨"ASM", "89z", "92z", "9xz", "v2z"⟩,
    ⟨"IDLIST", "89idl", "92?", "9xidl", "v2idl"⟩, ⟨"AMS", "89u", "92?", "9xu", "v2u"⟩,
    ⟨"APPL", "89k", "92?", "9xk", "v2k"⟩, ⟨"CERT", "89q", "92?", "9xq", "v2q"⟩,
    ⟨"LOCKED", "89?", "92?", "9x?", "v2?"⟩, ⟨"ARCHIV", "89?", "92?", "9x?", "v2?"⟩]
    ++ List.replicate 8 ⟨"", "89?", "92?", "9x?", "v2?"⟩

/-- `evo_byte2type` and `evo_byte2fext`, which are switches. -/
def evoConst : List (String × String) :=
  [("REAL", "8xn2"), ("LIST", "8xl2"), ("PRGM", "8xp2"), ("GDB", "8xd2"), ("PIC", "8ci2"),
    ("IMAGE", "8ca2"), ("MAT", "8xm2"), ("EQU", "8xy2"), ("APPV", "8xv2"), ("GRP", "8xg2"),
    ("STR", "8xs2"), ("APPL", "8ek2"), ("WINDW", "8xw2"), ("ZSTO", "8xz2"), ("TABLE", "8xt2"),
    ("PYTHON", "8xpy2"), ("", "8x?2"), ("", "8x?2"), ("MPY", "8mp2")]

/-! ## types by model -/

/-- The types of a model: names and extensions in the order of their numbers, and the extension
of the numbers that are too large. -/
structure VarTypes where
  rows : List (String × String)
  fallback : String

/-- A column of `TI83p_CONST`. -/
def ti83pTypes (fext : Ti83pData → String) (fallback : String) : VarTypes :=
  ⟨ti83pConst.map fun row => (row.type, fext row), fallback⟩

/-- A column of `TI68k_CONST`. -/
def ti68kTypes (fext : Ti68kData → String) (fallback : String) : VarTypes :=
  ⟨ti68kConst.map fun row => (row.type, fext row), fallback⟩

/-- The cases that `tifiles_vartype2string` and `tifiles_vartype2fext` share. -/
def typesOf : CalcModel → Option VarTypes
  | .ti73 => some ⟨ti73Const, "73?"⟩
  | .ti82 => some ⟨ti82Const, "82?"⟩
  | .ti83 | .cbl | .cbr => some ⟨ti83Const, "83?"⟩
  | .ti83p | .cbl2 | .cbr2 | .labpro | .ti84p | .ti84pUsb => some (ti83pTypes (·.fext83p) "8x?")
  | .ti82aUsb => some (ti83pTypes (·.fext82a) "8X?")
  | .ti84ptUsb => some (ti83pTypes (·.fext84pt) "8X?")
  | .ti84pc | .ti84pcUsb => some (ti83pTypes (·.fext84pc) "8C?")
  | .ti83pceUsb => some (ti83pTypes (·.fext83pce) "8C?")
  | .ti84pceUsb => some (ti83pTypes (·.fext84pce) "8C?")
  | .ti82aepUsb => some (ti83pTypes (·.fext82aep) "8X?")
  | .ti84evoUsb | .ti83evoUsb | .ti84evotUsb => some ⟨evoConst, "8x?2"⟩
  | .ti85 => some ⟨ti85Const, "85?"⟩
  | .ti86 => some ⟨ti86Const, "86?"⟩
  | .ti89 | .ti89t | .ti89tUsb => some (ti68kTypes (·.fext89) "89?")
  | .ti92 => some (ti68kTypes (·.fext92) "92?")
  | .ti92p => some (ti68kTypes (·.fext92p) "9x?")
  | .v200 => some (ti68kTypes (·.fextv200) "v2?")
  | .nspire | .nspireCradle | .nspireClickpad | .nspireClickpadCas | .nspireTouchpad
  | .nspireTouchpadCas | .nspireCx | .nspireCxCas | .nspireCmc | .nspireCmcCas | .nspireCxii
  | .nspireCxiiCas | .nspireCxiit | .nspireCxiitCas => some ⟨nspConst, "tn?"⟩
  | .none | .ti80 | .tipresenter | .labproUsb | .easytempGotempUsb | .easylinkGolinkUsb
  | .cbr2GomotionUsb | .godirectUsb => none

/-- `tifiles_vartype2string`: a type whose extension has a question mark has no name. -/
def tifilesVartype2string (model : CalcModel) (data : UInt8) : List UInt8 :=
  match (typesOf model).bind fun types => types.rows[data.toNat]? with
  | some (type, fext) => if (ascii fext)[2]? = some 0x3F then [] else ascii type
  | none => []

/-- `tifiles_vartype2fext` -/
def tifilesVartype2fext (model : CalcModel) (data : UInt8) : List UInt8 :=
  match typesOf model with
  | some types => ascii ((types.rows[data.toNat]?.map Prod.snd).getD types.fallback)
  | none => []

/-! ## models -/

/-- `ticonv_model_to_string` -/
def ticonvModelToString : CalcModel → String
  | .none => "none"
  | .ti73 => "TI-73"
  | .ti82 => "TI-82"
  | .ti83 => "TI-83"
  | .ti83p => "TI-83 Plus"
  | .ti84p => "TI-84 Plus"
  | .ti85 => "TI-85"
  | .ti86 => "TI-86"
  | .ti89 => "TI-89"
  | .ti89t => "TI-89 Titanium"
  | .ti92 => "TI-92"
  | .ti92p => "TI-92 Plus"
  | .v200 => "TI Voyage 200"
  | .ti84pUsb => "TI-84 Plus USB"
  | .ti89tUsb => "TI-89 Titanium USB"
  | .nspire => "TI-Nspire"
  | .ti80 => "TI-80"
  | .ti84pc => "TI-84 Plus C SE"
  | .ti84pcUsb => "TI-84 Plus C SE USB"
  | .ti83pceUsb => "TI-83 Premium CE"
  | .ti84pceUsb => "TI-84 Plus CE"
  | .ti82aUsb => "TI-82 Advanced"
  | .ti84ptUsb => "TI-84 Plus T"
  | .nspireCradle => "TI-Nspire Cradle"
  | .nspireClickpad => "TI-Nspire Clickpad"
  | .nspireClickpadCas => "TI-Nspire Clickpad CAS"
  | .nspireTouchpad => "TI-Nspire Touchpad"
  | .nspireTouchpadCas => "TI-Nspire Touchpad CAS"
  | .nspireCx => "TI-Nspire CX"
  | .nspireCxCas => "TI-Nspire CX CAS"
  | .nspireCmc => "TI-Nspire CM-C"
  | .nspireCmcCas => "TI-Nspire CM-C CAS"
  | .nspireCxii => "TI-Nspire CX II"
  | .nspireCxiiCas => "TI-Nspire CX II CAS"
  | .nspireCxiit => "TI-Nspire CX II-T"
  | .nspireCxiitCas => "TI-Nspire CX II-T CAS"
  | .ti82aepUsb => "TI-82 Advanced Edition Python"
  | .ti84evoUsb => "TI-84 Evo"
  | .ti84evotUsb => "TI-84 Evo-T"
  | .ti83evoUsb => "TI-83 Evo"
  | .tipresenter => "TI-Presenter"
  | .cbl => "TI-CBL"
  | .cbr => "TI-CBR"
  | .cbl2 => "TI-CBL2"
  | .cbr2 => "TI-CBR2"
  | .labpro => "Vernier LabPro"
  | .labproUsb => "Vernier LabPro (USB)"
  | .easytempGotempUsb => "Vernier EasyTemp / Go! Temp"
  | .easylinkGolinkUsb => "Vernier EasyLink / Go! Link"
  | .cbr2GomotionUsb => "Vernier Go! Motion"
  | .godirectUsb => "Vernier Go! Direct"

/-- `tifiles_model_to_string` -/
def tifilesModelToString (model : CalcModel) : List UInt8 := ascii (ticonvModelToString model)

/-! ## what the names are made of -/

/-- A short string of printable characters that are no quotes. -/
def isTame (s : List UInt8) : Bool :=
  s.length ≤ 32 && s.all fun c => Nat.ble 0x20 c.toNat && c.toNat != 0x22

/-- The strings of the types of a model. -/
def VarTypes.isTame (types : VarTypes) : Bool :=
  types.rows.all (fun row => Files.isTame (ascii row.1) && Files.isTame (ascii row.2))
    && Files.isTame (ascii types.fallback)

theorem isTame_typesOf (model : CalcModel) : (typesOf model).all VarTypes.isTame = true := by
  cases model <;> decide

theorem isTame_tifilesVartype2string (model : CalcModel) (data : UInt8) :
    isTame (tifilesVartype2string model data) = true := by
  unfold tifilesVartype2string
  cases htypes : typesOf model with
  | none => rfl
  | some types =>
      have htame := isTame_typesOf model
      rw [htypes, Option.all_some, VarTypes.isTame, Bool.and_eq_true, List.all_eq_true] at htame
      rw [Option.bind_some]
      cases hrow : types.rows[data.toNat]? with
      | none => rfl
      | some row =>
          dsimp only
          split
          · rfl
          · exact (Bool.and_eq_true _ _ ▸ htame.1 row (List.mem_of_getElem? hrow)).1

theorem isTame_tifilesVartype2fext (model : CalcModel) (data : UInt8) :
    isTame (tifilesVartype2fext model data) = true := by
  unfold tifilesVartype2fext
  cases htypes : typesOf model with
  | none => rfl
  | some types =>
      have htame := isTame_typesOf model
      rw [htypes, Option.all_some, VarTypes.isTame, Bool.and_eq_true, List.all_eq_true] at htame
      cases hrow : types.rows[data.toNat]? with
      | none => simpa [hrow] using htame.2
      | some row =>
          have hboth := htame.1 row (List.mem_of_getElem? hrow)
          rw [Bool.and_eq_true] at hboth
          simpa [hrow] using hboth.2

theorem isTame_tifilesModelToString (model : CalcModel) :
    isTame (tifilesModelToString model) = true := by
  cases model <;> decide

end Tilibs.Files
