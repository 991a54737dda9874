import DeclBridge.Text.Reader

/-!
The lines of a manifest: section headers `[kind:name]`, entries `key=value`, and lines that are
neither. Blank lines and comments mean nothing.
-/

namespace DeclBridge.Manifest

open Text

def banner : Text := "# ktbridge manifest".toList

/-- What a section is about, as its header tells it. Nothing says that the kind is known. -/
structure SectionKey where
  tag : Text
  qualifiedName : Text
deriving DecidableEq, Repr

def SectionKey.header (key : SectionKey) : Text :=
  '[' :: key.tag ++ ':' :: key.qualifiedName ++ [']']

/-- Reads a trimmed line that is all header: a word, a colon, and a name without closing bracket. -/
def readHeader? (line : Text) : Option SectionKey := do
  let (tag, rest) ← word? (← literal? "[" line)
  let (name, rest) ← run? (· ≠ ']') (← literal? ":" rest)
  if rest = [']'] then some ⟨tag, trim name⟩ else none

/-- Splits a trimmed line at its first equals sign. The key must not be blank. -/
def readEntry? (line : Text) : Option (Text × Text) := do
  let (key, value) ← cut '=' line
  if isBlankText key then none else some (trim key, trim value)

/-- Blank lines and lines that start with a hash. -/
def isIgnored (line : Text) : Bool :=
  line.isEmpty || line.head? = some '#'

/-- The lines that count, trimmed. -/
def significantLines (text : Text) : List Text :=
  ((lines text).map trim).filter (!isIgnored ·)

end DeclBridge.Manifest
