import DeclBridge.Text.Basic

/-!
What can be wrong with declarations and settings, with the text that reports it.
-/

namespace DeclBridge

/-- One thing wrong with a specification: the path of the field and its value, where known. -/
structure Issue where
  message : Text
  field : Option Text := none
  value : Option Text := none
deriving DecidableEq, Repr

inductive Fault where
  /-- A specification with one or more issues, in field order. -/
  | invalid (issues : List Issue)
  /-- Text that could not be generated, for a declaration of some kind and name. -/
  | generation (detail : Text) (kind name : Option Text)
  /-- A setting with an unusable value. -/
  | configuration (detail : Text) (key : Option Text)
  /-- A declaration of a kind that nothing can be generated for. -/
  | unregistered (kind : Text)
deriving DecidableEq, Repr

namespace Fault

/-- A single issue speaks for itself, several are listed. -/
def issuesMessage : List Issue → Text
  | [issue] => issue.message
  | issues =>
    Text.unlines ("Multiple validation errors:".toList ::
      issues.map fun issue => "  - ".toList ++ issue.message)

/-- The brackets that tell where generation failed. An empty kind is left out. -/
def siteTag (kind name : Option Text) : Text :=
  match kind.filter (!·.isEmpty), name with
  | some kind, some name => kind ++ ": ".toList ++ name
  | some kind, none => kind
  | none, some name => name
  | none, none => []

def message : Fault → Text
  | invalid issues => issuesMessage issues
  | generation detail none none => detail
  | generation detail kind name => detail ++ " [".toList ++ siteTag kind name ++ "]".toList
  | configuration detail key =>
    match key.filter (!·.isEmpty) with
    | some key => detail ++ " (key: ".toList ++ key ++ ")".toList
    | none => detail
  | unregistered kind =>
    "No generator registered for declaration kind '".toList ++ kind ++ "'".toList

end Fault
end DeclBridge
