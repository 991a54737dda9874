import DeclBridge.Fault
import DeclBridge.Settings.Assignment
import DeclBridge.Settings.Config

/-!
Checking settings. How the value of a setting is read as what it is declared to be is left to a
library. Here it is declared what the settings are, and reported which of them has a value that does
not fit.
-/

namespace DeclBridge.Settings

open Text

/-- Why a value does not fit, and the way from the value to what is wrong in it. -/
structure Misfit where
  message : Text
  within : List Text := []
deriving DecidableEq, Repr

/-- How values are read as what settings are declared to be. Of several misfits in a value the first
is given. -/
structure Validator where
  bool : Value → Except Misfit Bool
  /-- A truth value or none. -/
  optionalBool : Value → Except Misfit (Option Bool)
  /-- A whole number from zero on. -/
  natural : Value → Except Misfit Nat
  texts : Value → Except Misfit (List Text)

/-- The keys of all settings, in the order in which they are checked. -/
def settingKeys : List Text :=
  ["require_annotations", "generate_default_overloads", "transform_streams", "transform_sum_types",
    "max_overloads", "extra_conformances", "exhaustiveness_override"].map String.toList

/-- The setting with a key, or the usual value when it is absent. -/
def setting (table : Table) (key : String) (read : Value → Except Misfit α) (usual : α) :
    Except Fault α :=
  match table.lookup key.toList with
  | none => .ok usual
  | some value =>
    match read value with
    | .ok found => .ok found
    | .error misfit =>
      .error (.configuration ("Invalid configuration: ".toList ++ misfit.message)
        (some (['.'].intercalate (key.toList :: misfit.within))))

/-- A text stands for the list of its parts between commas. -/
def splitConformances : Value → Value
  | .string text => .list ((commaList text).map .string)
  | value => value

/-- The options that a table of settings describes. Of several misfits the first is reported. -/
def validate (validator : Validator) (table : Table) : Except Fault Config := do
  let usual : Config := {}
  let requireMarkers ← setting table "require_annotations" validator.bool usual.requireMarkers
  let generateOverloads ←
    setting table "generate_default_overloads" validator.bool usual.generateOverloads
  let transformStreams ← setting table "transform_streams" validator.bool usual.transformStreams
  let transformSumTypes ← setting table "transform_sum_types" validator.bool usual.transformSumTypes
  let maxOverloads ← setting table "max_overloads" validator.natural usual.maxOverloads
  let extraConformances ←
    setting table "extra_conformances" (fun value => validator.texts (splitConformances value))
      usual.extraConformances
  let exhaustiveness ←
    setting table "exhaustiveness_override" validator.optionalBool usual.exhaustiveness
  pure
    { requireMarkers, generateOverloads, transformStreams, transformSumTypes, maxOverloads,
      extraConformances, exhaustiveness }

end DeclBridge.Settings
