import DeclBridge.Manifest.Encode

/-!
Merging manifests as text, so that entries and kinds nobody here knows are kept. Of sections with
the same header key the first one counts.
-/

namespace DeclBridge.Manifest

/-- A section as it stands, header included. -/
structure RawSection where
  key : SectionKey
  lines : List Text
deriving DecidableEq, Repr

/-- Groups lines under their headers. Lines before the first header belong to `current`, and nowhere
when there is none. -/
def groupLines (current : Option RawSection) : List Text → List RawSection
  | [] => current.toList
  | line :: rest =>
    match readHeader? line with
    | some key => current.toList ++ groupLines (some ⟨key, [line]⟩) rest
    | none =>
      groupLines (current.map fun part => { part with lines := part.lines ++ [line] }) rest

def splitSections (text : Text) : List RawSection :=
  groupLines none (significantLines text)

def firstSections (sections : List RawSection) : List RawSection :=
  go [] sections
where
  go (seen : List SectionKey) : List RawSection → List RawSection
    | [] => []
    | part :: rest =>
      if part.key ∈ seen then go seen rest else part :: go (part.key :: seen) rest

/-- One manifest with the sections of several, in the order of priority. -/
def merge (texts : List Text) : Text :=
  ofSections ((firstSections (texts.flatMap splitSections)).map (·.lines))

end DeclBridge.Manifest
