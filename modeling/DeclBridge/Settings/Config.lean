import DeclBridge.Declaration

/-!
The options of a transformation.
-/

namespace DeclBridge

structure Config where
  /-- Only declarations that are marked for adoption. -/
  requireMarkers : Bool := false
  /-- Functions, as overloads for their defaults. -/
  generateOverloads : Bool := true
  transformStreams : Bool := true
  transformSumTypes : Bool := true
  /-- How many overloads a function gets at most. -/
  maxOverloads : Nat := 5
  /-- Protocols that every enum conforms to. -/
  extraConformances : List Text := []
  /-- Makes every enum frozen or open. Without it each declaration decides. -/
  exhaustiveness : Option Bool := none
deriving DecidableEq, Repr

namespace Config

def enables (config : Config) : Kind → Bool
  | .sum => config.transformSumTypes
  | .async => config.generateOverloads
  | .stream => config.transformStreams

def accepts (config : Config) (declaration : Declaration) : Bool :=
  config.enables declaration.kind && (!config.requireMarkers || declaration.isMarked)

end Config
end DeclBridge
