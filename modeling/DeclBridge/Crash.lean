import DeclBridge.Fault
import DeclBridge.Workspace.Tree

/-!
Failures that nothing reports to the user in words: they end a command where they happen. All others
are faults, which a command reports.
-/

namespace DeclBridge

inductive Crash where
  /-- A configuration file that is not encoded in UTF-8. -/
  | undecodable
  /-- A value that is asked for its entries, or for its place among directories, and has none. -/
  | notATable
  /-- A value that cannot be turned into entries. -/
  | noEntries
  /-- A sequence with an item that is no pair, or a number of too many digits. -/
  | unusable
  /-- A message whose markup cannot be shown. -/
  | markup
  /-- A path that cannot be written to. -/
  | path (fault : Workspace.PathFault)
deriving DecidableEq, Repr

inductive Failure where
  | fault (fault : Fault)
  | crash (crash : Crash)
deriving DecidableEq, Repr

end DeclBridge
