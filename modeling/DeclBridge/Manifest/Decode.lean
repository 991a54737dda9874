import DeclBridge.Manifest.Section

/-!
Reading a manifest in one pass over its lines. What cannot be understood is skipped: lines outside
of sections, sections of unknown kinds, lines that are no entries, and sections that lack required
keys.
-/

namespace DeclBridge.Manifest

/-- The section a header opens, if its kind is known. -/
def SectionKey.open? (key : SectionKey) : Option Section :=
  (Kind.ofTag? key.tag).map fun kind => { kind, qualifiedName := key.qualifiedName }

/-- The declaration of the section being read, once nothing more belongs to it. -/
def finish (current : Option Section) : List Declaration :=
  (current.bind Section.declaration?).toList

/-- Reads on with the section that the lines so far have opened. -/
def decodeLines (current : Option Section) : List Text → List Declaration
  | [] => finish current
  | line :: rest =>
    match readHeader? line with
    | some key => finish current ++ decodeLines key.open? rest
    | none =>
      let extended :=
        match current, readEntry? line with
        | some part, some entry => some { part with entries := part.entries ++ [entry] }
        | current, _ => current
      decodeLines extended rest

def decode (text : Text) : List Declaration :=
  decodeLines none (significantLines text)

end DeclBridge.Manifest
