import DeclBridge.Kotlin.Header
import DeclBridge.Kotlin.Literal
import DeclBridge.Declaration
import DeclBridge.Proofs.Readers

/-! Sources as they are usually written: classes with members, suspending functions, and functions
that return a flow. Each has one text and one list of declarations, and neither mentions a reader.
-/

namespace DeclBridge.Kotlin.Syntax

open Text

/-! Names -/

/-- The words that can come first in a header. -/
def headerWords : List String :=
  modifiers ++ ["sealed", "class", "interface", "object", "suspend", "fun", "val", "var"]

/-- A name that does not end in one of these words. -/
structure Identifier where
  text : Text
  word : IsWord text
  apart : ∀ word ∈ headerWords, ¬word.toList <:+ text

/-- Names joined by points. -/
structure Path where
  parts : List Identifier
  nonempty : parts ≠ []

def Path.text (path : Path) : Text :=
  ['.'].intercalate (path.parts.map Identifier.text)

/-! Types -/

inductive TypeRef where
  | named (path : Path) (arguments : List TypeRef) (isNullable : Bool)
  | function (parameters : List TypeRef) (result : TypeRef) (isNullable : Bool)

def nullMark (isNullable : Bool) : Text :=
  if isNullable then ['?'] else []

/-- The arguments of a generic type. A type without arguments has no brackets. -/
def argumentClause (arguments : List Text) : Text :=
  if arguments.isEmpty then [] else '<' :: commaSpaced arguments ++ ['>']

mutual

def TypeRef.text : TypeRef → Text
  | .named path arguments isNullable =>
    path.text ++ argumentClause (textsOf arguments) ++ nullMark isNullable
  | .function parameters result isNullable =>
    '(' :: commaSpaced (textsOf parameters) ++ ") -> ".toList ++ result.text ++ nullMark isNullable

def TypeRef.textsOf : List TypeRef → List Text
  | [] => []
  | type :: types => type.text :: TypeRef.textsOf types

end

namespace TypeRef

/-- Ends in a null mark, which may be the one of the result of a function type. -/
def isMarked (type : TypeRef) : Bool :=
  type.text.getLast? = some '?'

/-- The text without the null mark at its end. -/
def unmarked (type : TypeRef) : Text :=
  if type.isMarked then type.text.dropLast else type.text

end TypeRef

/-! Parameters -/

/-- A literal on one line. -/
structure Literal where
  text : Text
  isLiteral : isLiteralDefault text = true
  singleLine : '\n' ∉ text

structure Parameter where
  isVararg : Bool := false
  name : Identifier
  type : TypeRef
  default : Option Literal := none

namespace Parameter

/-- The text up to the default. -/
def front (parameter : Parameter) : Text :=
  (if parameter.isVararg then "vararg ".toList else []) ++ parameter.name.text ++ ": ".toList ++
    parameter.type.text

/-- The parameter with its literal printed in some way. -/
def print (literal : Literal → Text) (parameter : Parameter) : Text :=
  parameter.front ++ parameter.default.elim [] (" = ".toList ++ literal ·)

def declared (parameter : Parameter) : DeclBridge.Parameter :=
  { name := parameter.name.text
    type := parameter.type.unmarked
    isNullable := parameter.type.isMarked
    default := parameter.default.map (·.text)
    isVararg := parameter.isVararg }

end Parameter

/-! Functions -/

/-- What a function is besides its name and its parameters: it suspends and may declare a result, or
it returns a flow. -/
inductive Outcome where
  | suspending (result : Option TypeRef)
  | flow (element : TypeRef)

namespace Outcome

def keyword : Outcome → Text
  | suspending _ => "suspend fun ".toList
  | flow _ => "fun ".toList

/-- What stands behind the parameters. -/
def returned : Outcome → Text
  | suspending none => []
  | suspending (some result) => ": ".toList ++ result.text
  | flow element => ": Flow<".toList ++ element.text ++ ['>']

theorem returned_suspending (result : TypeRef) :
    (suspending (some result)).returned = ": ".toList ++ result.text :=
  rfl

theorem returned_flow (element : TypeRef) :
    (flow element).returned = ": Flow<".toList ++ element.text ++ ['>'] :=
  rfl

end Outcome

structure Function where
  name : Identifier
  parameters : List Parameter
  outcome : Outcome

/-- The full name is made of the package, the class and the name, as far as they are there. -/
def identity (package : Option Path) (owner : Option Identifier) (name : Identifier) : Identity :=
  let parts := package.toList.map (·.text) ++ owner.toList.map (·.text) ++ [name.text]
  { qualifiedName := ['.'].intercalate parts
    name := name.text
    package := package.elim [] (·.text) }

namespace Function

/-- The text up to the first parameter. -/
def lead (function : Function) : Text :=
  function.outcome.keyword ++ function.name.text ++ ['(']

/-- The text behind the last parameter. -/
def tail (function : Function) : Text :=
  ')' :: function.outcome.returned ++ [' ', '{', '\n', '}', '\n']

def printParameters (literal : Literal → Text) (function : Function) : Text :=
  commaSpaced (function.parameters.map (·.print literal))

def print (literal : Literal → Text) (function : Function) : Text :=
  function.lead ++ function.printParameters literal ++ function.tail

/-- The declaration of a suspending function. -/
def async? (package : Option Path) (owner : Option Identifier) (function : Function) :
    Option AsyncFunction :=
  match function.outcome with
  | .suspending result =>
    some
      { toIdentity := identity package owner function.name
        parameters := function.parameters.map (·.declared)
        returnType := result.elim unitType (·.text)
        typeParameters := []
        isFailable := true
        owner := owner.map (·.text)
        isMarked := false }
  | .flow _ => none

/-- The declaration of a function that returns a flow. -/
def stream? (package : Option Path) (owner : Option Identifier) (function : Function) :
    Option Stream :=
  match function.outcome with
  | .suspending _ => none
  | .flow element =>
    some
      { toIdentity := identity package owner function.name
        elementType := element.text
        parameters := function.parameters.map (·.declared)
        owner := owner.map (·.text)
        isProperty := false
        isMarked := false }

end Function

/-! Files -/

/-- Any number of classes and functions, one after another. Each comes with those that follow it. -/
inductive Forest where
  | nil
  | type (name : Identifier) (members rest : Forest)
  | function (member : Function) (rest : Forest)

/-- What a file is made of, line by line but for functions, which take two. -/
inductive Block where
  | package (path : Path)
  | opening (name : Identifier)
  | closing
  | function (member : Function)

def Block.print (literal : Literal → Text) : Block → Text
  | package path => "package ".toList ++ path.text ++ ['\n']
  | opening name => "class ".toList ++ name.text ++ [' ', '{', '\n']
  | closing => ['}', '\n']
  | function member => member.print literal

namespace Block

variable (literal : Literal → Text)

theorem print_package (path : Path) :
    (package path).print literal = "package ".toList ++ path.text ++ ['\n'] :=
  rfl

theorem print_opening (name : Identifier) :
    (opening name).print literal = "class ".toList ++ name.text ++ [' ', '{', '\n'] :=
  rfl

theorem print_function (member : Function) :
    (function member).print literal = member.print literal :=
  rfl

end Block

namespace Forest

def blocks : Forest → List Block
  | nil => []
  | type name members rest => .opening name :: members.blocks ++ .closing :: rest.blocks
  | function member rest => .function member :: rest.blocks

/-- The functions in the order of the text, each with the innermost class around it. -/
def functions (owner : Option Identifier) : Forest → List (Option Identifier × Function)
  | nil => []
  | type name members rest => members.functions (some name) ++ rest.functions owner
  | function member rest => (owner, member) :: rest.functions owner

end Forest

/-- The text of the blocks with their literals printed in some way. -/
def printAll (literal : Literal → Text) (blocks : List Block) : Text :=
  blocks.flatMap (·.print literal)

structure File where
  package : Option Path := none
  members : Forest

namespace File

/-- The blocks before all declarations. -/
def front (file : File) : List Block :=
  file.package.toList.map .package

def blocks (file : File) : List Block :=
  file.front ++ file.members.blocks

def text (file : File) : Text :=
  printAll (·.text) file.blocks

/-- First all suspending functions, then all that return a flow. -/
def declarations (file : File) : List Declaration :=
  let functions := file.members.functions none
  (functions.filterMap fun (owner, member) => member.async? file.package owner).map .async ++
    (functions.filterMap fun (owner, member) => member.stream? file.package owner).map .stream

end File

end DeclBridge.Kotlin.Syntax
