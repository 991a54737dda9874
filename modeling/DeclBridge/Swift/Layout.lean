import DeclBridge.Text.Basic

/-!
The layout of generated Swift: indentation by four spaces, clauses of type parameters, and the
extension blocks that hold members.
-/

namespace DeclBridge.Swift

open Text

def indentation (levels : Nat) : Text :=
  List.replicate (4 * levels) ' '

def indented (levels : Nat) (line : Text) : Text :=
  indentation levels ++ line

/-- Indents every line of a text that is not blank, and empties those that are. -/
def indentBlock (levels : Nat) (text : Text) : Text :=
  unlines <| (text.splitOn '\n').map fun line =>
    if isBlankText line then [] else indented levels line

def genericsClause (typeParameters : List Text) : Text :=
  if typeParameters.isEmpty then [] else '<' :: commaSpaced typeParameters ++ ['>']

/-- One block with the members of a type, separated by empty lines. -/
def extensionBlock (type : Text) (bodies : List Text) : Text :=
  unlines
    ["extension ".toList ++ type ++ " \x7b".toList, unparagraphs (bodies.map (indentBlock 1)),
      "\x7d".toList]

end DeclBridge.Swift
