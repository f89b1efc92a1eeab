/-!
# Tilibs.CalcModel

The calculator models of `ticonv.h`, in the order of the enumeration.
-/

namespace Tilibs

inductive CalcModel
  | none
  | ti73 | ti82 | ti83 | ti83p | ti84p | ti85 | ti86
  | ti89 | ti89t | ti92 | ti92p | v200
  | ti84pUsb | ti89tUsb | nspire | ti80
  | ti84pc | ti84pcUsb | ti83pceUsb | ti84pceUsb | ti82aUsb | ti84ptUsb
  | nspireCradle
  | nspireClickpad | nspireClickpadCas | nspireTouchpad | nspireTouchpadCas
  | nspireCx | nspireCxCas | nspireCmc | nspireCmcCas
  | nspireCxii | nspireCxiiCas | nspireCxiit | nspireCxiitCas
  | ti82aepUsb
  | tipresenter | cbl | cbr | cbl2 | cbr2 | labpro
  | labproUsb | easytempGotempUsb | easylinkGolinkUsb | cbr2GomotionUsb | godirectUsb
  | ti84evoUsb | ti84evotUsb | ti83evoUsb
  deriving DecidableEq, Repr

/-- `ticonv_model_is_ti68k` -/
def ticonvModelIsTi68k (model : CalcModel) : Bool :=
  model == .ti89 || model == .ti89t || model == .ti92 || model == .ti92p || model == .v200
    || model == .ti89tUsb

/-- `tifiles_calc_is_ti9x` -/
def tifilesCalcIsTi9x (model : CalcModel) : Bool := ticonvModelIsTi68k model

/-- `ticonv_model_is_tiz80` -/
def ticonvModelIsTiz80 (model : CalcModel) : Bool :=
  model == .ti73 || model == .ti82 || model == .ti83 || model == .ti83p || model == .ti84p
    || model == .ti85 || model == .ti86 || model == .ti84pUsb || model == .ti84pc
    || model == .ti84pcUsb || model == .ti82aUsb || model == .ti84ptUsb

/-- `ticonv_model_is_tiez80` -/
def ticonvModelIsTiez80 (model : CalcModel) : Bool :=
  model == .ti83pceUsb || model == .ti84pceUsb || model == .ti82aepUsb

/-- `tifiles_calc_is_ti8x` -/
def tifilesCalcIsTi8x (model : CalcModel) : Bool :=
  ticonvModelIsTiz80 model || ticonvModelIsTiez80 model

/-- `ticonv_model_is_tinspire`: the last disjunct is a range of the enumeration. -/
def ticonvModelIsTinspire (model : CalcModel) : Bool :=
  model == .nspire
    || (model.ctorIdx ≥ CalcModel.nspireCradle.ctorIdx
      && model.ctorIdx ≤ CalcModel.nspireCxiitCas.ctorIdx)

/-- `ticonv_model_is_tievo` -/
def ticonvModelIsTievo (model : CalcModel) : Bool :=
  model = .ti84evoUsb || model = .ti84evotUsb || model = .ti83evoUsb

/-- `tifiles_calc_are_compat` -/
def tifilesCalcAreCompat (model ref : CalcModel) : Bool :=
  tifilesCalcIsTi8x model && tifilesCalcIsTi8x ref
    || tifilesCalcIsTi9x model && tifilesCalcIsTi9x ref
    || ticonvModelIsTinspire model && ticonvModelIsTinspire ref
    || ticonvModelIsTievo model && ticonvModelIsTievo ref

/-- `tifiles_has_folder` -/
def tifilesHasFolder (model : CalcModel) : Bool :=
  ticonvModelIsTi68k model || ticonvModelIsTinspire model

end Tilibs
