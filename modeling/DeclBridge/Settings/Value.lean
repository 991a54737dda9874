import DeclBridge.Number.Shortest

/-!
Values of settings, as configuration files and commands give them.
-/

namespace DeclBridge.Settings

inductive Value where
  | null
  | bool (value : Bool)
  | int (value : Int)
  | float (value : Binary64)
  | string (text : Text)
  | list (items : List Value)
  | table (entries : List (Text × Value))
  /-- A date or a time, as it is written. -/
  | moment (text : Text)

abbrev Table := List (Text × Value)

namespace Table

/-- Replaces the value of a key where it stands, or adds the key at the end. -/
def set (key : Text) (value : Value) : Table → Table
  | [] => [(key, value)]
  | (other, present) :: rest =>
    if other = key then (key, value) :: rest else (other, present) :: set key value rest

end Table
end DeclBridge.Settings
