import DeclBridge.Log
import DeclBridge.Number.Literal
import DeclBridge.Settings.Value

/-!
Settings given as `key=value`. The text of the value decides its type.
-/

namespace DeclBridge.Settings

open Text

/-- The parts between commas, trimmed, without those that are blank. -/
def commaList (text : Text) : List Text :=
  ((text.splitOn ',').map trim).filter (!·.isEmpty)

/-- A truth value, a list where there is a comma, a number, or else the text itself. -/
def Value.ofText (text : Text) : Value :=
  let word := text.flatMap lowerChar
  if word = "true".toList then .bool true
  else if word = "false".toList then .bool false
  else if text.contains ',' then .list ((commaList text).map .string)
  else
    match Number.wholeNumber? text, Number.binary64? text with
    | some number, _ => .int number
    | none, some number => .float number
    | none, none => .string text

/-- Dashes in keys count as underscores. -/
def normalKey (key : Text) : Text :=
  (trim key).map fun c => if c = '-' then '_' else c

def readAssignment? (item : Text) : Option (Text × Value) :=
  (cut '=' item).map fun (key, value) => (normalKey key, .ofText (trim value))

/-- Of assignments to one key the last one holds. Items without an equals sign are reported. -/
def readAssignments (items : List Text) : List Log × Table :=
  let unreadable := items.filter fun item => (readAssignment? item).isNone
  let said := unreadable.map fun item =>
    Log.warning ("Ignoring --set '".toList ++ item ++ "': expected key=value".toList)
  let assigned := items.filterMap readAssignment?
  (said, assigned.foldl (fun table (key, value) => table.set key value) [])

end DeclBridge.Settings
