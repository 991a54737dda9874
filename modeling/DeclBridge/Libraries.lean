import DeclBridge.Log
import DeclBridge.Settings.Coercion

/-!
What is left to libraries. Messages are shown by a console that reads square brackets as markup, so
one that holds certain brackets ends the program instead. Reading a document and checking settings
have their own reports.
-/

namespace DeclBridge

structure Libraries where
  /-- Whether the console can show a message. -/
  shows : Text → Bool
  /-- What the parser says about a document that is not TOML. -/
  tomlReport : Text → Text
  validator : Settings.Validator

namespace Libraries

/-- A console that shows any message as it is. -/
def plain : Libraries where
  shows _ := true
  tomlReport _ := "Invalid document".toList
  validator := .coercing

variable (libraries : Libraries)

/-- The messages up to the first that cannot be shown, this one included, and whether all can. -/
def tell : List Log → List Log × Bool
  | [] => ([], true)
  | log :: rest =>
    if libraries.shows log.message then
      let (told, complete) := tell rest
      (log :: told, complete)
    else ([log], false)

/-- Messages, and what comes after them unless one of them is a failure. -/
def heard (failure : ε) (said : List Log × Except ε α) : List Log × Except ε α :=
  match libraries.tell said.1 with
  | (told, true) => (told, said.2)
  | (told, false) => (told, .error failure)

end Libraries
end DeclBridge
