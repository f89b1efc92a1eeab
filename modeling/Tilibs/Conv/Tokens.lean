import Mathlib
import Tilibs.CalcModel
import Tilibs.Conv.Varname
import Tilibs.Files.FileTypes

/-!
# Tilibs.Conv.Tokens

Names of variables of the TI-84+ family, as `tokens.cc` and `charset.cc` convert them.  The
name in a file is a token of two bytes or a string of characters; the detokenizer makes a
string of it, and the tokenizer tries to find the token of a string.

A name is a C string: a token whose second byte is zero has one byte.
-/

namespace Tilibs.Conv

open Lib Files

/-! ## characters -/

/-- `ti83p_charset` -/
def ti83pCharset : List Nat :=
  [0, 0x3b7, 117, 118, 119, 0x25b6, 0x2191, 0x2193, 0x222b, 0xd7, 0xb0, 0xb8, 0xb7, 0x22ba, 0xb3,
    70, 0x221a, 0xb4, 0xb2, 0x2220, 0xb0, 0x2b3, 0x22ba, 0x2264, 0x2260, 0x2265, 0x2212,
    0xd875dda4, 0x2192, 63, 0x2191, 0x2193, 32, 33, 34, 35, 0x2074, 37, 38, 39, 40, 41, 42, 43,
    44, 45, 46, 47, 48, 49, 50, 51, 52, 53, 54, 55, 56, 57, 58, 59, 60, 61, 62, 63, 64, 65, 66,
    67, 68, 69, 70, 71, 72, 73, 74, 75, 76, 77, 78, 79, 80, 81, 82, 83, 84, 85, 86, 87, 88, 89,
    90, 0x3b8, 92, 93, 94, 95, 96, 97, 98, 99, 100, 101, 102, 103, 104, 105, 106, 107, 108, 109,
    110, 111, 112, 113, 114, 115, 116, 117, 118, 119, 120, 121, 122, 123, 124, 125, 126, 61,
    0x2080, 0x2081, 0x2082, 0x2083, 0x2084, 0x2085, 0x2086, 0x2087, 0x2088, 0x2089, 0xc1, 0xc0,
    0xc2, 0xc4, 0xe1, 0xe0, 0xe2, 0xe4, 0xc9, 0xc8, 0xca, 0xcb, 0xe9, 0xe8, 0xea, 0xeb, 0xcd,
    0xcc, 0xce, 0xcf, 0xed, 0xec, 0xee, 0xef, 0xd3, 0xd2, 0xd4, 0xd6, 0xf3, 0xf2, 0xf4, 0xf6,
    0xda, 0xd9, 0xdb, 0xdc, 0xfa, 0xf9, 0xfb, 0xfc, 0xc7, 0xe7, 0xd1, 0xf1, 39, 96, 0xa8, 0xbf,
    0xa1, 0x3b1, 0x3b2, 0x3b3, 0x394, 0x3b4, 0x3b5, 91, 0x3bb, 0x3bc, 0x3c0, 0x3c1, 0x3a3, 0x3c3,
    0x3c4, 0x3d5, 0x3a9, 0x780305, 0x790305, 0xa4, 0x2026, 0x25c0, 0x25fe, 63, 0x2212, 0xb2, 0xb0,
    0xb3, 10, 0xd875dc8a, 63, 0x3c7, 70, 0x212f, 76, 78, 95, 0x2192, 95, 95, 95, 95, 95, 95, 95,
    95, 95, 95, 95, 95, 95, 95, 95, 95, 95, 95, 36, 95, 0xdf, 95, 95, 95, 95, 95, 95, 95, 95, 95,
    95, 95]

/-- The cases of `ticonv_utf16_to_ti83p`. -/
def ti83pCodes : List (Nat × UInt8) :=
  [(0x3b7, 1), (0x2074, 36), (0x3b8, 91), (0x2080, 128), (0x2081, 129), (0x2082, 130),
    (0x2083, 131), (0x2084, 132), (0x2085, 133), (0x2086, 134), (0x2087, 135), (0x2088, 136),
    (0x2089, 137), (0xc1, 138), (0xc0, 139), (0xc2, 140), (0xc4, 141), (0xe1, 142), (0xe0, 143),
    (0xe2, 144), (0xe4, 145), (0xc9, 146), (0xc8, 147), (0xca, 148), (0xcb, 149), (0xe9, 150),
    (0xe8, 151), (0xea, 152), (0xeb, 153), (0xcd, 154), (0xcc, 155), (0xce, 156), (0xcf, 157),
    (0xed, 158), (0xec, 159), (0xee, 160), (0xef, 161), (0xd3, 162), (0xd2, 163), (0xd4, 164),
    (0xd6, 165), (0xf3, 166), (0xf2, 167), (0xf4, 168), (0xf6, 169), (0xda, 170), (0xd9, 171),
    (0xdb, 172), (0xdc, 173), (0xfa, 174), (0xf9, 175), (0xfb, 176), (0xfc, 177), (0xc7, 178),
    (0xe7, 179), (0xd1, 180), (0xf1, 181), (0x3b1, 187), (0x3b2, 188), (0x3b3, 189), (0x394, 190),
    (0x3b4, 191), (0x3b5, 192), (0x5b, 193), (0x3bb, 194), (0x3bc, 195), (0x3c0, 196),
    (0x3c1, 197), (0x3a3, 198), (0x3c3, 199), (0x3c4, 200), (0x3d5, 201), (0x3a9, 202)]

/-- The character for one unit, '?' when there is none. -/
def ti83pChar (u : Nat) : UInt8 :=
  if (32 ≤ u ∧ u ≤ 35) ∨ (37 ≤ u ∧ u ≤ 90) ∨ (92 ≤ u ∧ u ≤ 126) then UInt8.ofNat u
  else (ti83pCodes.lookup u).getD 0x3F

/-- `ticonv_utf16_to_ti83p`: a surrogate takes the next unit with it. -/
def ticonvUtf16ToTi83p : List Nat → List UInt8
  | [] => []
  | [u] => [ti83pChar u]
  | u :: v :: rest =>
      if 0xD800 ≤ u ∧ u ≤ 0xDBFF then 0x3F :: ticonvUtf16ToTi83p rest
      else ti83pChar u :: ticonvUtf16ToTi83p (v :: rest)

/-! ## from tokens to text -/

/-- What `%u` prints. -/
def decimal (n : Nat) : List UInt8 := (Nat.toDigits 10 n).map fun c => UInt8.ofNat c.toNat

/-- The types of variables that there is only one of, and their names. -/
def vartypes : CalcModel → List (UInt8 × List UInt8)
  | .ti73 => [(0x0F, ascii "Window"), (0x11, ascii "TblSet")]
  | .ti82 => [(0x0B, ascii "Window"), (0x0C, ascii "RclWin"), (0x0D, ascii "TblSet")]
  | .ti83 | .ti83p | .ti84p | .ti84pc | .ti84pUsb | .ti84pcUsb | .ti83pceUsb | .ti84pceUsb
  | .ti82aUsb | .ti84ptUsb | .ti82aepUsb =>
      [(0x0F, ascii "Window"), (0x10, ascii "RclWin"), (0x11, ascii "TblSet")]
  | .ti85 | .ti86 =>
      [(0x17, ascii "Func"), (0x18, ascii "Pol"), (0x19, ascii "Param"), (0x1A, ascii "DifEq"),
        (0x1B, ascii "ZRCL")]
  | _ => []

/-- `detokenize_vartype` -/
def detokenizeVartype (model : CalcModel) (type : UInt8) : Option (List UInt8) :=
  (vartypes model).lookup type

/-- The names of the equations, those of sequences left out. -/
def equationNames : List (UInt8 × List UInt8) :=
  [(0x10, [0x59, 0x81]), (0x11, [0x59, 0x82]), (0x12, [0x59, 0x83]), (0x13, [0x59, 0x84]),
    (0x14, [0x59, 0x85]), (0x15, [0x59, 0x86]), (0x16, [0x59, 0x87]), (0x17, [0x59, 0x88]),
    (0x18, [0x59, 0x89]), (0x19, [0x59, 0x80]), (0x20, [0x58, 0x81, 0x0D]),
    (0x21, [0x59, 0x81, 0x0D]), (0x22, [0x58, 0x82, 0x0D]), (0x23, [0x59, 0x82, 0x0D]),
    (0x24, [0x58, 0x83, 0x0D]), (0x25, [0x59, 0x83, 0x0D]), (0x26, [0x58, 0x84, 0x0D]),
    (0x27, [0x59, 0x84, 0x0D]), (0x28, [0x58, 0x85, 0x0D]), (0x29, [0x59, 0x85, 0x0D]),
    (0x2A, [0x58, 0x86, 0x0D]), (0x2B, [0x59, 0x86, 0x0D]), (0x40, [0x72, 0x81]),
    (0x41, [0x72, 0x82]), (0x42, [0x72, 0x83]), (0x43, [0x72, 0x84]), (0x44, [0x72, 0x85]),
    (0x45, [0x72, 0x86])]

/-- The names of the sequences and of the constants. -/
def sequenceName (model : CalcModel) (tok2 : UInt8) : List UInt8 :=
  if tok2 = 0x80 then
    if model = .ti82 then [0x55, 0xD7] else if model = .ti73 then [0x43, 0x81] else [0x75]
  else if tok2 = 0x81 then
    if model = .ti82 then [0x56, 0xD7] else if model = .ti73 then [0x43, 0x82] else [0x76]
  else if tok2 = 0x82 then
    if model = .ti82 then [0x57, 0xD7] else if model = .ti73 then [0x43, 0x83] else [0x77]
  else if tok2 = 0x83 ∧ model = .ti73 then [0x43, 0x84]
  else [0x3F]

/-- The names of the statistics variables. -/
def statNames : List (UInt8 × List UInt8) :=
  [(0x01, [0x52, 0x65, 0x71, 0x45, 0x71]), (0x02, [0x6E]), (0x03, [0xCB]), (0x04, [0xC6, 0x78]),
    (0x05, [0xC6, 0x78, 0x12]), (0x06, [0x53, 0x78]), (0x07, [0xC7, 0x78]),
    (0x08, [0x6D, 0x69, 0x6E, 0x58]), (0x09, [0x6D, 0x61, 0x78, 0x58]),
    (0x0A, [0x6D, 0x69, 0x6E, 0x59]), (0x0B, [0x6D, 0x61, 0x78, 0x59]), (0x0C, [0xCC]),
    (0x0D, [0xC6, 0x79]), (0x0E, [0xC6, 0x79, 0x12]), (0x0F, [0x53, 0x79]), (0x10, [0xC7, 0x79]),
    (0x11, [0xC6, 0x78, 0x79]), (0x12, [0x72]), (0x13, [0x4D, 0x65, 0x64]), (0x14, [0x51, 0x81]),
    (0x15, [0x51, 0x83]), (0x16, [0x61]), (0x17, [0x62]), (0x18, [0x63]), (0x19, [0x64]),
    (0x1A, [0x65]), (0x1B, [0x78, 0x81]), (0x1C, [0x78, 0x82]), (0x1D, [0x78, 0x83]),
    (0x1E, [0x79, 0x81]), (0x1F, [0x79, 0x82]), (0x20, [0x79, 0x83]), (0x21, [0xD7]),
    (0x22, [0x70]), (0x23, [0x7A]), (0x24, [0x74]), (0x25, [0xD9, 0x12]), (0x26, [0xDA]),
    (0x27, [0x64, 0x66]), (0x28, [0xD8]), (0x29, [0xD8, 0x81]), (0x2A, [0xD8, 0x82]),
    (0x2B, [0xD8, 0x81]), (0x2C, [0x53, 0x78, 0x81]), (0x2D, [0x6E, 0x81]), (0x2E, [0xCB, 0x82]),
    (0x2F, [0x53, 0x78, 0x82]), (0x30, [0x6E, 0x82]), (0x31, [0x53, 0x78, 0x70]),
    (0x32, [0x6C, 0x6F, 0x77, 0x65, 0x72]), (0x33, [0x75, 0x70, 0x70, 0x65, 0x72]),
    (0x34, [0x73]), (0x35, [0x72, 0x12]), (0x36, [0x52, 0x12]), (0x37, [0x64, 0x66]),
    (0x38, [0x53, 0x53]), (0x39, [0x4D, 0x53]), (0x3A, [0x64, 0x66]), (0x3B, [0x53, 0x53]),
    (0x3C, [0x4D, 0x53])]

/-- The names of the window and finance variables. -/
def windowNames : List (UInt8 × List UInt8) :=
  [(0x00, [0x5A, 0x58, 0x73, 0x63, 0x6C]), (0x01, [0x5A, 0x59, 0x73, 0x63, 0x6C]),
    (0x02, [0x58, 0x73, 0x63, 0x6C]), (0x03, [0x59, 0x73, 0x63, 0x6C]),
    (0x04, [0x55, 0xD7, 0x53, 0x74, 0x61, 0x72, 0x74]),
    (0x05, [0x56, 0xD7, 0x53, 0x74, 0x61, 0x72, 0x74]), (0x06, [0x55, 0xD7, 0x2D, 0x81]),
    (0x07, [0x56, 0xD7, 0x2D, 0x81]), (0x08, [0x5A, 0x55, 0xD7, 0x53, 0x74, 0x61, 0x72, 0x74]),
    (0x09, [0x5A, 0x56, 0xD7, 0x53, 0x74, 0x61, 0x72, 0x74]), (0x0A, [0x58, 0x6D, 0x69, 0x6E]),
    (0x0B, [0x58, 0x6D, 0x61, 0x78]), (0x0C, [0x59, 0x6D, 0x69, 0x6E]),
    (0x0D, [0x59, 0x6D, 0x61, 0x78]), (0x0E, [0x54, 0x6D, 0x69, 0x6E]),
    (0x0F, [0x54, 0x6D, 0x61, 0x78]), (0x10, [0x5B, 0x6D, 0x69, 0x6E]),
    (0x11, [0x5B, 0x6D, 0x61, 0x78]), (0x12, [0x5A, 0x58, 0x6D, 0x69, 0x6E]),
    (0x13, [0x5A, 0x58, 0x6D, 0x61, 0x78]), (0x14, [0x5A, 0x59, 0x6D, 0x69, 0x6E]),
    (0x15, [0x5A, 0x59, 0x6D, 0x61, 0x78]), (0x16, [0x5A, 0x5B, 0x6D, 0x69, 0x6E]),
    (0x17, [0x5A, 0x5B, 0x6D, 0x61, 0x78]), (0x18, [0x5A, 0x54, 0x6D, 0x69, 0x6E]),
    (0x19, [0x5A, 0x54, 0x6D, 0x61, 0x78]), (0x1A, [0x54, 0x62, 0x6C, 0x4D, 0x69, 0x6E]),
    (0x1B, [0xD7, 0x4D, 0x69, 0x6E]), (0x1C, [0x5A, 0xD7, 0x4D, 0x69, 0x6E]),
    (0x1D, [0xD7, 0x4D, 0x61, 0x78]), (0x1E, [0x5A, 0xD7, 0x4D, 0x61, 0x78]),
    (0x1F, [0xD7, 0x53, 0x74, 0x61, 0x72, 0x74]),
    (0x20, [0x5A, 0xD7, 0x53, 0x74, 0x61, 0x72, 0x74]), (0x21, [0xBE, 0x54, 0x62, 0x6C]),
    (0x22, [0x54, 0x73, 0x74, 0x65, 0x70]), (0x23, [0x5B, 0x73, 0x74, 0x65, 0x70]),
    (0x24, [0x5A, 0x54, 0x73, 0x74, 0x65, 0x70]), (0x25, [0x5A, 0x5B, 0x73, 0x74, 0x65, 0x70]),
    (0x26, [0xBE, 0x58]), (0x27, [0xBE, 0x59]), (0x28, [0x58, 0x46, 0x61, 0x63, 0x74]),
    (0x29, [0x59, 0x46, 0x61, 0x63, 0x74]),
    (0x2A, [0x54, 0x62, 0x6C, 0x49, 0x6E, 0x70, 0x75, 0x74]), (0x2B, [0x4E]),
    (0x2C, [0x49, 0x25]), (0x2D, [0x50, 0x56]), (0x2E, [0x50, 0x4D, 0x54]), (0x2F, [0x46, 0x56]),
    (0x30, [0x58, 0x72, 0x65, 0x73]), (0x31, [0x5A, 0x58, 0x72, 0x65, 0x73])]

/-- A name with a number: the TI-73 counts from 0, the others from 1 to 0. -/
def numberedName (model : CalcModel) (stem : List UInt8) (tok2 : UInt8) : List UInt8 :=
  if model = .ti73 then stem ++ decimal tok2.toNat
  else if tok2 ≠ 0x09 then stem ++ decimal (tok2.toNat + 1)
  else stem ++ [0x30]

/-- The names of the lists; a token that is none of them begins a name of its own. -/
def listName (model : CalcModel) (src : List UInt8) : List UInt8 :=
  let tok2 := src.getD 1 0
  if model = .ti73 then cstr [0x4C, tok2 + 0x80]
  else if tok2 ≤ 0x08 then [0x4C, tok2 + 0x81]
  else if tok2 = 0x09 then [0x4C, 0x80]
  else if tok2 = 0x40 then ascii "IDList"
  else (src.drop 1).take 7

/-- `detokenize_varname` -/
def detokenizeVarname (model : CalcModel) (src : List UInt8) (type : UInt8) : List UInt8 :=
  let tok1 := src.getD 0 0
  let tok2 := src.getD 1 0
  if tok1 = 0x3C then
    if type = 0x1A then
      if tok2 ≠ 0x09 then ascii "Image" ++ decimal (tok2.toNat + 1) else ascii "Image0"
    else src.take 8
  else if tok1 = 0x5C then [0xC1, if tok2 ≤ 0x09 then tok2 + 0x41 else 0x3F, 0x5D]
  else if tok1 = 0x5D then listName model src
  else if tok1 = 0x5E then (equationNames.lookup tok2).getD (sequenceName model tok2)
  else if tok1 = 0x60 then numberedName model (ascii "Pic") tok2
  else if tok1 = 0x61 then numberedName model (ascii "GDB") tok2
  else if tok1 = 0x62 then (statNames.lookup tok2).getD [0x5F]
  else if tok1 = 0x63 then (windowNames.lookup tok2).getD [0x5F]
  else if tok1 = 0xAA then numberedName model (ascii "Str") tok2
  else src.take 8

/-- `ticonv_varname_detokenize` -/
def ticonvVarnameDetokenize (model : CalcModel) (src : List UInt8) (type : UInt8) : List UInt8 :=
  match model with
  | .ti73 | .ti82 | .ti83 | .ti83p | .ti84p | .ti84pc | .cbl | .cbr | .cbl2 | .cbr2 | .labpro =>
      (detokenizeVartype model type).getD (detokenizeVarname model src type)
  | .ti85 | .ti86 => (detokenizeVartype model type).getD src
  | .none | .ti80 | .tipresenter | .labproUsb | .easytempGotempUsb | .easylinkGolinkUsb
  | .cbr2GomotionUsb | .godirectUsb => ascii "________"
  | _ => src

/-! ## from text to tokens -/

/-- `shift` -/
def shift (v : UInt8) : UInt8 := if v = 0 then 9 else v - 1

/-- The token of a text, if it is that of one; only images depend on the type. -/
def tokenOfText (model : CalcModel) (src : List UInt8) (type : UInt8) : Option (UInt8 × UInt8) :=
  let c := fun i => src.getD i 0
  let number := fun d => if model = .ti73 then d else shift d
  if c 0 = 0x5B ∧ c 2 = 0x5D ∧ src.length = 3 then some (0x5C, c 1 - 0x41)
  else if c 0 = 0x4C ∧ (0x80 ≤ c 1 ∧ c 1 ≤ 0x89) ∧ src.length = 2 then
    some (0x5D, number (c 1 - 0x80))
  else if c 0 = 0x59 ∧ (0x80 ≤ c 1 ∧ c 1 ≤ 0x89) ∧ src.length = 2 then
    some (0x5E, 0x10 + shift (c 1 - 0x80))
  else if c 0 = 0x58 ∧ (0x80 ≤ c 1 ∧ c 1 ≤ 0x85) ∧ src.length = 3 then
    some (0x5E, 0x20 + 2 * (c 1 - 0x81))
  else if c 0 = 0x59 ∧ (0x80 ≤ c 1 ∧ c 1 ≤ 0x85) ∧ src.length = 3 then
    some (0x5E, 0x20 + 2 * (c 1 - 0x81) + 1)
  else if c 0 = 0x72 ∧ (0x80 ≤ c 1 ∧ c 1 ≤ 0x85) ∧ src.length = 2 then
    some (0x5E, 0x40 + (c 1 - 0x81))
  else if model = .ti73 ∧ c 0 = 0x43 ∧ (0x80 ≤ c 1 ∧ c 1 ≤ 0x83) ∧ src.length = 2 then
    some (0x5E, 0x80 + shift (c 1 - 0x80))
  else if c 0 = 0x02 ∧ src.length = 1 then some (0x5E, 0x80)
  else if c 0 = 0x03 ∧ src.length = 1 then some (0x5E, 0x81)
  else if c 0 = 0x04 ∧ src.length = 1 then some (0x5E, 0x82)
  else if src.take 3 = ascii "Pic" ∧ (0x30 ≤ c 3 ∧ c 3 ≤ 0x39) ∧ src.length = 4 then
    some (0x60, number (c 3 - 0x30))
  else if src.take 3 = ascii "GDB" ∧ (0x30 ≤ c 3 ∧ c 3 ≤ 0x39) ∧ src.length = 4 then
    some (0x61, number (c 3 - 0x30))
  else if src.take 3 = ascii "Str" ∧ (0x30 ≤ c 3 ∧ c 3 ≤ 0x39) ∧ src.length = 4 then
    some (0xAA, number (c 3 - 0x30))
  else if type = 0x1A ∧ src.take 5 = ascii "Image" ∧ (0x30 ≤ c 5 ∧ c 5 ≤ 0x39) then
    some (0x3C, shift (c 5 - 0x30))
  else none

/-- What `%c%c` prints of a token, up to the terminator. -/
def tokenString (token : UInt8 × UInt8) : List UInt8 := cstr [token.1, token.2]

/-- The name or the type of a variable that there is only one of; the USB models have none
here. -/
def isVartype (model : CalcModel) (src : List UInt8) (type : UInt8) : Bool :=
  !isUsb84 model && (vartypes model).any fun v => src = v.2 || type = v.1

/-- `ticonv_varname_tokenize` -/
def ticonvVarnameTokenize (model : CalcModel) (src : List UInt8) (type : UInt8) : List UInt8 :=
  if model = .ti84evoUsb ∨ model = .ti84evotUsb ∨ model = .ti83evoUsb then src
  else if isVartype model src type then []
  else if type = 0x01 ∧ (model = .ti83p ∨ model = .ti84p ∨ model = .ti84pc) then 0x5D :: src.take 7
  else ((tokenOfText model src type).map tokenString).getD src

/-! ## the TI-84+ family -/

/-- The model whose characters and tokens a USB model has in files. -/
def fileModel (model : CalcModel) : CalcModel :=
  if model = .ti84pUsb ∨ model = .ti82aUsb ∨ model = .ti84ptUsb then .ti84p else .ti84pc

/-- The conversions with those of the TI-84+ family as they are. -/
def Converters.withTokens (conv : Converters) : Converters :=
  { conv with
    fromTifile84 := fun model type src =>
      conv.utf16ToUtf8
        (ticonvNonusbToUtf16 ti83pCharset (ticonvVarnameDetokenize (fileModel model) src type))
    toTifile84 := fun model type src =>
      (conv.utf8ToUtf16 src).map fun units =>
        ticonvVarnameTokenize (fileModel model) (ticonvUtf16ToTi83p units) type }

end Tilibs.Conv
