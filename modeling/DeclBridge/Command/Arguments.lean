import DeclBridge.Text.Basic
import DeclBridge.Text.Digit

/-!
Command lines. Options may be shortened as long as they stay unambiguous, take their value after an
equals sign or as further arguments, and hold the last value given. Two dashes make everything
behind them a plain argument.
-/

namespace DeclBridge.Command

open Text

/-- How many values an option takes. -/
inductive Takes where
  | none
  | one
  | any
deriving DecidableEq, Repr

structure OptionShape where
  name : Text
  takes : Takes
deriving DecidableEq, Repr

/-- What a command accepts: options, which of them it needs, and whether it needs plain arguments.
-/
structure Shape where
  options : List OptionShape
  needed : List Text := []
  needsPlain : Bool := false

def helpOptions : List OptionShape :=
  [⟨"-h".toList, .none⟩, ⟨"--help".toList, .none⟩]

/-- How a command line ends before any command runs. -/
inductive Stop where
  | help
  | version
  | misuse
deriving DecidableEq, Repr

/-- A value that shares an argument with its option. -/
structure Attached where
  text : Text
  /-- It stands behind an equals sign, and not directly behind the letter of the option. -/
  afterEquals : Bool
deriving DecidableEq, Repr

/-- The role of an argument by its form alone. An option may bring a value along. -/
inductive Role where
  | option (shape : OptionShape) (value : Option Attached)
  | unknown
  | plain
  | separator
deriving DecidableEq, Repr

def isDigits (text : Text) : Bool :=
  !text.isEmpty && text.all isDigit

/-- A negative number is a value. -/
def isNegativeNumber : Text → Bool
  | '-' :: rest =>
    match cut '.' rest with
    | some (whole, fraction) => whole.all isDigit && isDigits fraction
    | none => isDigits rest
  | _ => false

/-- An argument taken apart at its first equals sign. -/
def atEquals (argument : Text) : Text × Option Attached :=
  match cut '=' argument with
  | some (name, value) => (name, some ⟨value, true⟩)
  | none => (argument, none)

/-- The options that an argument may be short for. A single dash and a letter may be followed by
further letters. -/
def candidates (options : List OptionShape) (argument : Text) : List Role :=
  if argument.take 2 = ['-', '-'] then
    let (start, value) := atEquals argument
    (options.filter fun option => start.isPrefixOf option.name).map (.option · value)
  else
    options.filterMap fun option =>
      if option.name = argument.take 2 then some (.option option (some ⟨argument.drop 2, false⟩))
      else if argument.isPrefixOf option.name then some (.option option none)
      else none

/-- The role of an argument that nothing before it decides. -/
def roleOf (options : List OptionShape) (argument : Text) : Except Stop Role :=
  let named (name : Text) := options.find? fun option => option.name = name
  let (name, value) := atEquals argument
  if argument.head? ≠ some '-' || argument = ['-'] then .ok .plain
  else
    match named argument, value.bind fun _ => named name, candidates options argument with
    | some option, _, _ => .ok (.option option none)
    | none, some option, _ => .ok (.option option value)
    | none, none, [role] => .ok role
    | none, none, _ :: _ :: _ => .error .misuse
    | none, none, [] =>
      if isNegativeNumber argument || argument.contains ' ' then .ok .plain else .ok .unknown

def roles (options : List OptionShape) : List Text → Except Stop (List (Text × Role))
  | [] => .ok []
  | argument :: rest =>
    if argument = ['-', '-'] then
      .ok ((argument, .separator) :: rest.map fun other => (other, .plain))
    else do
      let role ← roleOf options argument
      pure ((argument, role) :: (← roles options rest))

/-- What the arguments of a command amount to. -/
structure Given where
  values : List (Text × List Text) := []
  plain : Option (List Text) := none
  /-- Something was left over. -/
  hasExtras : Bool := false
deriving Repr

namespace Given

/-- The values of the last occurrence of an option. -/
def values? (given : Given) (name : String) : Option (List Text) :=
  given.values.lookup name.toList

def take (given : Given) (name : Text) (values : List Text) : Given :=
  { given with values := (name, values) :: given.values }

end Given

def isPlain : Text × Role → Bool
  | (_, .plain) => true
  | _ => false

def isNoOption : Text × Role → Bool
  | (_, .plain) | (_, .separator) => true
  | _ => false

/-- What stands directly behind a letter is read as further letters, up to the first unknown one. -/
def areLetters : Text → Bool
  | [] | '-' :: _ => false
  | 'h' :: '=' :: _ => false
  | ['h'] => true
  | 'h' :: rest => areLetters rest
  | _ => true

/-- Options without values end everything, unless a value is forced upon them. -/
def flagStop (shape : OptionShape) (value : Option Attached) : Stop :=
  let stop := if shape.name = "--version".toList then .version else .help
  match value with
  | none => stop
  | some ⟨letters, afterEquals⟩ =>
    if shape.name.length = 2 && !afterEquals && areLetters letters then stop else .misuse

/-- An option with the arguments behind it that are values of it. -/
def takeOption (given : Given) (shape : OptionShape) (value : Option Attached)
    (rest : List (Text × Role)) : Except Stop (Given × List (Text × Role)) :=
  match shape.takes, value, rest with
  | .none, _, _ => .error (flagStop shape value)
  | _, some value, _ => .ok (given.take shape.name [value.text], rest)
  | .one, none, (value, .plain) :: rest => .ok (given.take shape.name [value], rest)
  | .one, none, _ => .error .misuse
  | .any, none, _ =>
    let (values, rest) := rest.span isPlain
    .ok (given.take shape.name (values.map (·.1)), rest)

/-- Plain arguments are taken once, all that stand together. A separator among them is dropped. -/
def takePlain (shape : Shape) (given : Given) (arguments : List (Text × Role)) : Given :=
  if shape.needsPlain && given.plain.isNone && arguments.any isPlain then
    { given with plain := some ((arguments.map (·.1)).erase ['-', '-']) }
  else { given with hasExtras := true }

/-- Goes through the arguments in order. Each step takes at least one of them. -/
def collect (shape : Shape) : Nat → Given → List (Text × Role) → Except Stop Given
  | 0, given, _ | _, given, [] => .ok given
  | fuel + 1, given, (_, .option option value) :: rest => do
    let (given, rest) ← takeOption given option value rest
    collect shape fuel given rest
  | fuel + 1, given, (_, .unknown) :: rest =>
    collect shape fuel { given with hasExtras := true } rest
  | fuel + 1, given, arguments =>
    let (together, rest) := arguments.span isNoOption
    collect shape fuel (takePlain shape given together) rest

/-- The arguments of a command, all that it needs being there. -/
def Shape.read (shape : Shape) (arguments : List Text) : Except Stop Given := do
  let sorted ← roles shape.options arguments
  let given ← collect shape sorted.length {} sorted
  let lacksOption := shape.needed.any fun name => (given.values.lookup name).isNone
  if lacksOption || (shape.needsPlain && given.plain.isNone) || given.hasExtras then throw .misuse
  pure given

end DeclBridge.Command
