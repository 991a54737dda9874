import DeclBridge.Libraries

/-! Messages that the console can show are told one after another, and the first that it cannot show
is the last one told. -/

namespace DeclBridge.Libraries

variable (libraries : Libraries)

/-- All of some messages can be shown. -/
def ShowsAll (logs : List Log) : Prop :=
  ∀ log ∈ logs, libraries.shows log.message

variable {libraries} {logs more : List Log} {failure : ε} {result : Except ε α}

theorem showsAll_append :
    libraries.ShowsAll (logs ++ more) ↔ libraries.ShowsAll logs ∧ libraries.ShowsAll more :=
  List.forall_mem_append

theorem tell_of_showsAll (all : libraries.ShowsAll logs) : libraries.tell logs = (logs, true) := by
  induction logs with
  | nil => rfl
  | cons log logs ih =>
    obtain ⟨first, rest⟩ := List.forall_mem_cons.mp all
    rw [tell, if_pos first, ih rest]

theorem tell_of_not_showsAll (some : ¬libraries.ShowsAll logs) :
    ∃ told, libraries.tell logs = (told, false) ∧ ¬libraries.ShowsAll told := by
  induction logs with
  | nil => exact absurd nofun some
  | cons log logs ih =>
    rw [tell]
    split
    · next first =>
      obtain ⟨told, same, unshown⟩ := ih fun rest => some (List.forall_mem_cons.mpr ⟨first, rest⟩)
      refine ⟨log :: told, by rw [same], fun all => unshown ?_⟩
      exact (List.forall_mem_cons.mp all).2
    · next first => exact ⟨[log], rfl, fun all => first (all log List.mem_cons_self)⟩

theorem heard_of_showsAll (all : libraries.ShowsAll logs) :
    libraries.heard failure (logs, result) = (logs, result) := by
  rw [heard, tell_of_showsAll all]

theorem heard_of_not_showsAll (some : ¬libraries.ShowsAll logs) :
    (libraries.heard failure (logs, result)).2 = .error failure := by
  obtain ⟨told, same, -⟩ := tell_of_not_showsAll some
  rw [heard, same]

end DeclBridge.Libraries
