import DeclBridge.Kotlin.Header
import DeclBridge.Kotlin.Literal

/-!
The extents of named types. The body of a type is found from its header, its end by counting braces,
so braces of functions and lambdas are told apart from those of types. Types whose body is never
closed are kept apart, since nothing inside them can be attributed.
-/

namespace DeclBridge.Kotlin

open Text

/-- The offsets `start` to `stop`, the latter excluded, that a type covers from its keyword on. -/
structure Scope where
  name : Text
  start : Nat
  stop : Nat
  nameStart : Nat
deriving DecidableEq, Repr

def Scope.covers (scope : Scope) (offset : Nat) : Bool :=
  scope.start ≤ offset && offset < scope.stop

/-- A line break continues a header when a mark that only a header can have stands before or after
it. At the very start of a text there is nothing to end. -/
def continuesHeader (lastInk : Option Char) (rest : Text) : Bool :=
  match skipBlanks rest with
  | [] => false
  | c :: more =>
    c ∈ [':', ',', '{', '(', '<'] || (literal? "where" (c :: more)).isSome ||
      lastInk.all (· ∈ [':', ','])

/-- The offset of the brace that opens the body of a type whose header goes on at `offset`. `before`
is the character in front, `lastInk` the last one that is not blank. -/
def bodyFrom (rounds angles : Nat) (before lastInk : Option Char) (offset : Nat) :
    Text → Option Nat
  | [] => none
  | c :: rest =>
    let ink := if isBlank c then lastInk else some c
    let goOn (rounds angles : Nat) := bodyFrom rounds angles (some c) ink (offset + 1) rest
    if c = '(' then goOn (rounds + 1) angles
    else if c = ')' then if rounds = 0 then none else goOn (rounds - 1) angles
    else if c = '<' then goOn rounds (angles + 1)
    else if c = '>' ∧ before ≠ some '-' ∧ 0 < angles then goOn rounds (angles - 1)
    else if rounds = 0 ∧ angles = 0 then
      if c = '{' then some offset
      else if c ∈ [';', '=', '}'] then none
      else if c = '\n' ∧ ¬continuesHeader lastInk rest then none
      else goOn rounds angles
    else goOn rounds angles

def bodyOffset (text : Text) (offset : Nat) : Option Nat :=
  let before := text.take offset
  bodyFrom 0 0 before.getLast? (before.filter (!isBlank ·)).getLast? offset (text.drop offset)

/-- A type header with the brace that opens its body. -/
structure TypeHeader where
  name : Text
  start : Nat
  nameStart : Nat
  body : Nat
deriving DecidableEq, Repr

def TypeHeader.scope (header : TypeHeader) (stop : Nat) : Scope :=
  ⟨header.name, header.start, stop, header.nameStart⟩

/-- The headers that have a body, in order. -/
def typeHeaders (masked : Text) : List TypeHeader :=
  (occurrences typeHeader? masked).filterMap fun place =>
    (bodyOffset masked place.stop).map fun body =>
      ⟨place.found, place.start, place.stop - place.found.length, body⟩

structure ScopeIndex where
  /-- The types whose bodies are closed, in the order in which they close. -/
  closed : List Scope
  /-- The types whose bodies are open at the end of the text, outermost first. -/
  unterminated : List Scope
deriving DecidableEq, Repr

/-- Follows the braces with a stack that knows which of them open type bodies. When two headers
lead to one brace the first has it. -/
def scopesFrom (headers : List TypeHeader) (offset : Nat) (stack : List (Option TypeHeader)) :
    Text → ScopeIndex
  | [] => ⟨[], (stack.reverse.filterMap id).map (·.scope offset)⟩
  | c :: rest =>
    if c = '{' then
      scopesFrom headers (offset + 1) (headers.find? (·.body = offset) :: stack) rest
    else if c = '}' then
      match stack with
      | [] => scopesFrom headers (offset + 1) [] rest
      | top :: stack =>
        let scopes := scopesFrom headers (offset + 1) stack rest
        { scopes with closed := (top.map (·.scope (offset + 1))).toList ++ scopes.closed }
    else scopesFrom headers (offset + 1) stack rest

namespace ScopeIndex

def ofText (text : Text) : ScopeIndex :=
  let masked := maskLiterals text
  scopesFrom (typeHeaders masked) 0 [] masked

/-- Of the types that cover an offset, the one that starts last. -/
def containingType (scopes : ScopeIndex) (offset : Nat) : Option Text :=
  let later (best : Option Scope) (scope : Scope) :=
    if best.all (·.start < scope.start) then some scope else best
  ((scopes.closed.filter (·.covers offset)).foldl later none).map (·.name)

def isUnterminated (scopes : ScopeIndex) (offset : Nat) : Bool :=
  scopes.unterminated.any (·.covers offset)

/-- Whether the type whose name starts at an offset is never closed. -/
def isUnterminatedHeader (scopes : ScopeIndex) (nameStart : Nat) : Bool :=
  scopes.unterminated.any (·.nameStart = nameStart)

end ScopeIndex
end DeclBridge.Kotlin
