import DeclBridge.Kotlin.Literal

/-!
Removing comments. Block comments go first and leave a space, line comments go next and leave
nothing; neither is recognised inside a string literal of one line.
-/

namespace DeclBridge.Kotlin

/-- The text behind the first end of a block comment. -/
def afterBlockComment? : Text → Option Text
  | [] => none
  | '*' :: '/' :: rest => some rest
  | _ :: rest => afterBlockComment? rest

/-- A block comment that is never closed is no comment. -/
def stringOrBlockComment? : Text → Option (Text × Text)
  | '/' :: '*' :: rest => (afterBlockComment? rest).map ([' '], ·)
  | text => string? text

def stringOrLineComment? : Text → Option (Text × Text)
  | '/' :: '/' :: rest => some ([], rest.dropWhile (· ≠ '\n'))
  | text => string? text

def stripBlockComments : Text → Text :=
  Text.replaceAll stringOrBlockComment?

def stripLineComments : Text → Text :=
  Text.replaceAll stringOrLineComment?

def stripComments (source : Text) : Text :=
  stripLineComments (stripBlockComments source)

end DeclBridge.Kotlin
