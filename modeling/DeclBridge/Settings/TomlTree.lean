import DeclBridge.Settings.Value

/-!
The document that the statements of a TOML file build up. Besides the values it remembers which
tables may no longer be extended: inline tables and arrays are frozen with all they hold, and a
table is declared only once.
-/

namespace DeclBridge.Settings.Toml

/-- The keys from the root of the document to a value. -/
abbrev KeyPath := List Text

/-- Changes the table at a path, creating what is missing on the way. Where `throughArrays` holds a
path goes on in the last table of an array. Any other value is in the way. -/
def updateAt (throughArrays : Bool) (change : Table → Option Table) : KeyPath → Table → Option Table
  | [], table => change table
  | key :: path, table =>
    match table.lookup key with
    | none => (updateAt throughArrays change path []).map fun inner => table.set key (.table inner)
    | some (.table inner) =>
      (updateAt throughArrays change path inner).map fun inner => table.set key (.table inner)
    | some (.list items) =>
      match items.getLast? with
      | some (.table inner) =>
        if throughArrays then
          (updateAt throughArrays change path inner).map fun inner =>
            table.set key (.list (items.dropLast ++ [.table inner]))
        else none
      | _ => none
    | some _ => none

def addNew (key : Text) (value : Value) (table : Table) : Option Table :=
  if (table.lookup key).isSome then none else some (table.set key value)

/-- Adds an empty table to an array of tables, which may be new. -/
def appendTable (key : Text) (table : Table) : Option Table :=
  match table.lookup key with
  | none => some (table.set key (.list [.table []]))
  | some (.list items) => some (table.set key (.list (items ++ [.table []])))
  | some _ => none

structure Document where
  table : Table := []
  /-- Tables that are declared, by a header or by a dotted key of an earlier part. -/
  declared : List KeyPath := []
  /-- Values that nothing may be added to, at any depth. -/
  frozen : List KeyPath := []
  /-- Tables that dotted keys of the current part have opened. -/
  pending : List KeyPath := []
  /-- The table that keys are relative to. -/
  header : KeyPath := []

namespace Document

def isFrozen (document : Document) (path : KeyPath) : Bool :=
  !path.isEmpty && document.frozen.any (·.isPrefixOf path)

/-- Starts the part that a header introduces. -/
def endPart (document : Document) : Document :=
  { document with declared := document.declared ++ document.pending, pending := [] }

/-- `[path]`. -/
def openTable (document : Document) (path : KeyPath) : Option Document := do
  let document := document.endPart
  if path ∈ document.declared || document.isFrozen path then none
  let table ← updateAt true some path document.table
  pure { document with table, declared := document.declared ++ [path], header := path }

/-- `[[path]]`. The tables below belong to the new entry, so they can be declared again. -/
def openArrayEntry (document : Document) (path : KeyPath) : Option Document := do
  let document := document.endPart
  if document.isFrozen path then none
  let outside (other : KeyPath) := !path.isPrefixOf other
  let table ← updateAt true (appendTable (path.getLast?.getD [])) path.dropLast document.table
  pure
    { document with
      table
      declared := document.declared.filter outside ++ [path]
      frozen := document.frozen.filter outside
      header := path }

/-- The paths of the tables that a dotted key goes through, without the last key. -/
def opened (header keys : KeyPath) : List KeyPath :=
  (List.range (keys.length - 1)).map fun count => header ++ keys.take (count + 1)

/-- `a.b = value`, relative to the current header. -/
def assign (document : Document) (keys : KeyPath) (value : Value) : Option Document := do
  let through := opened document.header keys
  let parent := document.header ++ keys.dropLast
  if through.any (· ∈ document.declared) || document.isFrozen parent then none
  let table ← updateAt true (addNew (keys.getLast?.getD []) value) parent document.table
  let frozen :=
    match value with
    | .table _ | .list _ => document.frozen ++ [document.header ++ keys]
    | _ => document.frozen
  pure { document with table, frozen, pending := document.pending ++ through }

end Document
end DeclBridge.Settings.Toml
