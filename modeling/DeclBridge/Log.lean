import DeclBridge.Text.Basic

/-!
Messages for the user. Those of a command start with a sign for their level.
-/

namespace DeclBridge

inductive Level where
  | info
  | success
  | warning
  | error
deriving DecidableEq, Repr

structure Log where
  level : Level
  message : Text
deriving DecidableEq, Repr

namespace Log

def info (message : Text) : Log :=
  ⟨.info, "ℹ️  ".toList ++ message⟩

def success (message : Text) : Log :=
  ⟨.success, "✅ ".toList ++ message⟩

def warning (message : Text) : Log :=
  ⟨.warning, "⚠️  ".toList ++ message⟩

def error (message : Text) : Log :=
  ⟨.error, "❌ ".toList ++ message⟩

end Log
end DeclBridge
