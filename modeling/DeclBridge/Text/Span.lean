/-!
Sets of code points as tables: contiguous spans, and runs that take every point or every other
point.
-/

namespace DeclBridge.Text

structure Span where
  first : Nat
  last : Nat

def Span.has (span : Span) (point : Nat) : Bool :=
  span.first ≤ point && point ≤ span.last

/-- The code points `first`, `first + step`, ..., `last`. -/
structure Run where
  first : Nat
  last : Nat
  step : Nat

def Run.has (run : Run) (point : Nat) : Bool :=
  run.first ≤ point && point ≤ run.last && (point - run.first) % run.step == 0

end DeclBridge.Text
