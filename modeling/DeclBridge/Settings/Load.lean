import DeclBridge.Crash
import DeclBridge.Libraries
import DeclBridge.Settings.Key

/-!
Finding the settings: the table of the nearest configuration file at or above a directory, and the
settings that take precedence over it. Keys that are no settings are reported and ignored. Where a
report cannot be shown, loading ends with it.
-/

namespace DeclBridge.Settings

open Text Workspace

def fileName : Text := "pyproject.toml".toList

/-- Settings as a file gives them. Keys that are no texts are possible, though they mean nothing. -/
structure RawSettings where
  named : Table := []
  unnamed : List Value := []

/-- The items of a value that can be gone through. -/
def itemsOf? : Value → Option (List Value)
  | .string text => some (text.map fun c => .string [c])
  | .list items => some items
  | .table entries => some (entries.map fun (key, _) => .string key)
  | _ => none

namespace RawSettings

/-- Adds one item of a sequence, which must be a pair with a scalar as its key. Of keys that are
equal the first one is kept. -/
def addPair (settings : RawSettings) (item : Value) : Except Crash RawSettings :=
  match itemsOf? item with
  | none => .error .noEntries
  | some [.string key, value] => .ok { settings with named := settings.named.set key value }
  | some [.list _, _] | some [.table _, _] => .error .noEntries
  | some [key, _] =>
    if settings.unnamed.any (·.isSameKey key) then .ok settings
    else .ok { settings with unnamed := settings.unnamed ++ [key] }
  | some _ => .error .unusable

/-- A table as it is, and any other sequence as its pairs. -/
def ofValue : Value → Except Crash RawSettings
  | .table entries => .ok { named := entries }
  | value =>
    match itemsOf? value with
    | none => .error .noEntries
    | some items => items.foldlM addPair {}

/-- The settings in a document: its entry `tool.ktbridge`. -/
def ofDocument (document : Table) : Except Crash RawSettings :=
  match document.lookup "tool".toList with
  | none => .ok {}
  | some (.table tools) =>
    match tools.lookup "ktbridge".toList with
    | none => .ok {}
    | some value => ofValue value
  | some _ => .error .notATable

end RawSettings

/-- A directory and all above it, from the inside out. -/
def upwards (place : Place) : List Place :=
  ((List.range (place.length + 1)).map place.take).reverse

/-- The configuration file in a directory: its place and what it contains. -/
def fileIn? (tree : Tree) (directory : Place) : Option (Place × Bytes) :=
  match tree.entry? (directory ++ [fileName]) with
  | some (.file content) => some (directory ++ [fileName], content)
  | _ => none

def nearestFile? (tree : Tree) (start : Path) : Option (Place × Bytes) :=
  (upwards (tree.place start)).findSome? (fileIn? tree)

section

variable (libraries : Libraries)

/-- The report on a file that is not TOML. -/
def unreadable (place : Place) (text : Text) : Log :=
  .warning ("Could not read ".toList ++ (Tree.pathOf place).text ++ ": ".toList ++
    libraries.tomlReport text)

/-- The settings of the nearest configuration file. One that is not TOML is reported and counts as
empty. -/
def readFile (tree : Tree) (start : Path) : List Log × Except Crash RawSettings :=
  match nearestFile? tree start with
  | none => ([], .ok {})
  | some (place, content) =>
    match decodeUtf8 content with
    | .error _ => ([], .error .undecodable)
    | .ok text =>
      let text := unifyLineFeeds text
      match Toml.parse text with
      | .ok document => ([], RawSettings.ofDocument document)
      | .error .oversized => ([], .error .unusable)
      | .error .malformed => libraries.heard .markup ([unreadable libraries place text], .ok {})

/-- The keys that are no settings, in order. Keys of different kinds have no order. -/
def unknownKeys (settings : RawSettings) : Except Crash (List Text) :=
  let names := (settings.named.map (·.1)).filter (!settingKeys.contains ·)
  match settings.unnamed with
  | [] => .ok (names.mergeSort fun a b => !precedes b a)
  | key :: others =>
    if names.isEmpty && others.all (·.keyKind = key.keyKind) then
      let keys := (key :: others).mergeSort fun a b => a.keyRank.notAfter b.keyRank
      .ok (keys.map Value.keyText)
    else .error .noEntries

def ignored (key : Text) : Log :=
  .warning ("Ignoring unknown configuration key '".toList ++ key ++ "'".toList)

/-- Reports the unknown keys and checks the other settings. -/
def resolveSettings (settings : RawSettings) : List Log × Except Failure Config :=
  match unknownKeys settings with
  | .error crash => ([], .error (.crash crash))
  | .ok unknown =>
    libraries.heard (.crash .markup)
      (unknown.map ignored, (validate libraries.validator settings.named).mapError .fault)

def Value.isNull : Value → Bool
  | .null => true
  | _ => false

/-- Settings without a value leave others as they are. -/
def override (table overrides : Table) : Table :=
  (overrides.filter fun (_, value) => !value.isNull).foldl
    (fun table (key, value) => table.set key value) table

def loadFrom (tree : Tree) (start : Path) (overrides : Table) : List Log × Except Failure Config :=
  let (said, found) := readFile libraries tree start
  match found with
  | .error crash => (said, .error (.crash crash))
  | .ok settings =>
    let (more, result) :=
      resolveSettings libraries { settings with named := override settings.named overrides }
    (said ++ more, result)

/-- Keys of overrides that are taken for the search itself. -/
def searchKey : Text := "search_path".toList

def reservedKey : Text := "cls".toList

/-- The options for a search from a given directory. The overrides must not mean the search. -/
def load (tree : Tree) (start : Path) (overrides : Table) : List Log × Except Failure Config :=
  if overrides.any fun (key, _) => key = searchKey || key = reservedKey then
    ([], .error (.crash .noEntries))
  else loadFrom libraries tree start overrides

/-- Values that count as no answer. -/
def Value.isFalsy : Value → Bool
  | .null => true
  | .bool value => !value
  | .int number => number == 0
  | .float number => number.isZero
  | .string text => text.isEmpty
  | .list items => items.isEmpty
  | .table entries => entries.isEmpty
  | .moment _ => false

/-- The options for a search from the current directory. Among the overrides the search path may be
given, but no value other than none at all leads anywhere. -/
def loadHere (tree : Tree) (overrides : Table) : List Log × Except Failure Config :=
  if overrides.any fun (key, _) => key = reservedKey then ([], .error (.crash .noEntries))
  else if overrides.any fun (key, value) => key = searchKey && !value.isFalsy then
    ([], .error (.crash .notATable))
  else loadFrom libraries tree {} (overrides.filter fun (key, _) => key ≠ searchKey)

end

end DeclBridge.Settings
