import DeclBridge.Proofs.FunctionBodies
import Mathlib.Data.List.Nodup

/-! The partners of braces. A closing brace is the partner of an opening one where, for the first
time behind it, closing braces outnumber opening ones. The stack that follows the braces of a text
closes every type at the partner of its body brace, and leaves those open that have none. -/

namespace DeclBridge.Kotlin

open Text

/-- A character is an opening brace, a closing brace or neither. -/
@[elab_as_elim]
theorem braceCases {motive : Char → Prop} (opener : motive '{') (closer : motive '}')
    (other : ∀ c, c ≠ '{' → c ≠ '}' → motive c) (c : Char) : motive c := by
  by_cases opens : c = '{'
  · exact opens ▸ opener
  by_cases closes : c = '}'
  · exact closes ▸ closer
  · exact other c opens closes

/-! Counting braces -/

/-- How often a brace occurs behind an offset, up to another offset and at it. -/
def bracesUpTo (brace : Char) (text : Text) (opener stop : Nat) : Nat :=
  ((text.drop (opener + 1)).take (stop - opener)).count brace

/-- The first place behind an opening brace where closing braces outnumber opening ones by one. -/
structure IsPartner (text : Text) (opener stop : Nat) : Prop where
  behind : opener < stop
  inside : stop < text.length
  outnumbers : bracesUpTo '}' text opener stop = bracesUpTo '{' text opener stop + 1
  least : ∀ earlier, opener < earlier → earlier < stop →
    bracesUpTo '}' text opener earlier ≠ bracesUpTo '{' text opener earlier + 1

/-- How far behind the start of a text the brace stands that closes one of the braces opened before
it. So many of these, `depth`, are closed first. -/
def closer? : Nat → Text → Option Nat
  | _, [] => none
  | depth, c :: rest =>
    if c = '{' then (closer? (depth + 1) rest).map (· + 1)
    else if c = '}' then
      match depth with
      | 0 => some 0
      | depth + 1 => (closer? depth rest).map (· + 1)
    else (closer? depth rest).map (· + 1)

/-- The offset of the partner of a brace. -/
def partner? (text : Text) (opener : Nat) : Option Nat :=
  (closer? 0 (text.drop (opener + 1))).map (opener + 1 + ·)

section

variable {depth : Nat} {rest : Text}

theorem closer?_opener : closer? depth ('{' :: rest) = (closer? (depth + 1) rest).map (· + 1) := by
  rw [closer?.eq_def]
  rfl

theorem closer?_found : closer? 0 ('}' :: rest) = some 0 := by
  rw [closer?.eq_def]
  rfl

theorem closer?_closer : closer? (depth + 1) ('}' :: rest) = (closer? depth rest).map (· + 1) := by
  rw [closer?.eq_def]
  rfl

theorem closer?_other {c : Char} (opens : c ≠ '{') (closes : c ≠ '}') :
    closer? depth (c :: rest) = (closer? depth rest).map (· + 1) := by
  rw [closer?.eq_def]
  simp only [if_neg opens, if_neg closes]

end

/-- The first place where closing braces outnumber opening ones by more than `depth`. -/
structure IsCloser (depth : Nat) (text : Text) (distance : Nat) : Prop where
  inside : distance < text.length
  outnumbers : (text.take (distance + 1)).count '}' =
    (text.take (distance + 1)).count '{' + depth + 1
  least : ∀ earlier < distance,
    (text.take (earlier + 1)).count '}' ≠ (text.take (earlier + 1)).count '{' + depth + 1

theorem count_take_cons (brace c : Char) (text : Text) (size : Nat) :
    ((c :: text).take (size + 1)).count brace =
      [c].count brace + (text.take size).count brace := by
  rw [List.take_succ_cons, ← List.singleton_append, List.count_append]

/-- A character that does not close the brace in question leaves it to the rest, with its own brace
counted in. -/
theorem isCloser_cons {depth distance : Nat} {c : Char} {text : Text}
    (bound : [c].count '}' ≤ depth + [c].count '{') :
    IsCloser depth (c :: text) distance ↔
      ∃ before, IsCloser (depth + [c].count '{' - [c].count '}') text before ∧
        before + 1 = distance := by
  constructor
  · intro ⟨inside, outnumbers, least⟩
    rw [count_take_cons, count_take_cons] at outnumbers
    cases distance with
    | zero =>
      rw [List.take_zero, List.count_nil, List.count_nil] at outnumbers
      omega
    | succ distance =>
      refine ⟨distance, ⟨Nat.lt_of_succ_lt_succ inside, by omega, ?_⟩, rfl⟩
      intro earlier early balanced
      apply least (earlier + 1) (Nat.succ_lt_succ early)
      rw [count_take_cons, count_take_cons]
      omega
  · rintro ⟨before, ⟨inside, outnumbers, least⟩, rfl⟩
    refine ⟨Nat.succ_lt_succ inside, ?_, ?_⟩
    · rw [count_take_cons, count_take_cons]
      omega
    · intro earlier early balanced
      rw [count_take_cons, count_take_cons] at balanced
      cases earlier with
      | zero =>
        rw [List.take_zero, List.count_nil, List.count_nil] at balanced
        omega
      | succ earlier =>
        apply least earlier (Nat.lt_of_succ_lt_succ early)
        omega

/-- Counting finds the brace that recursion finds. -/
theorem closer?_eq_some_iff {depth distance : Nat} {text : Text} :
    closer? depth text = some distance ↔ IsCloser depth text distance := by
  induction text generalizing depth distance with
  | nil =>
    constructor
    · intro found
      cases found
    · intro closer
      exact absurd closer.inside (Nat.not_lt_zero distance)
  | cons c text ih =>
    have later (found : closer? depth (c :: text) =
          (closer? (depth + [c].count '{' - [c].count '}') text).map (· + 1))
        (bound : [c].count '}' ≤ depth + [c].count '{') :
        closer? depth (c :: text) = some distance ↔ IsCloser depth (c :: text) distance := by
      rw [found, Option.map_eq_some_iff, isCloser_cons bound]
      exact exists_congr fun before => and_congr_left' ih
    cases c using braceCases with
    | opener => exact later closer?_opener (by simp)
    | closer =>
      cases depth with
      | zero =>
        rw [closer?_found]
        constructor
        · intro found
          obtain rfl : 0 = distance := Option.some.inj found
          exact ⟨Nat.succ_pos text.length, by simp, by simp⟩
        · intro ⟨_, _, least⟩
          cases distance with
          | zero => rfl
          | succ distance => exact absurd (by simp) (least 0 (Nat.succ_pos distance))
      | succ depth => exact later closer?_closer (by simp)
    | other c opens closes =>
      have single (brace : Char) (differs : c ≠ brace) : [c].count brace = 0 := by
        simp [differs]
      refine later ?_ ?_
      · rw [single '{' opens, single '}' closes]
        exact closer?_other opens closes
      · rw [single '}' closes]
        exact Nat.zero_le _

theorem partner?_eq_some_iff {text : Text} {opener stop : Nat} :
    partner? text opener = some stop ↔ IsPartner text opener stop := by
  rw [partner?, Option.map_eq_some_iff]
  constructor
  · intro ⟨distance, found, same⟩
    obtain ⟨short, balance, first⟩ := closer?_eq_some_iff.mp found
    rw [List.length_drop] at short
    obtain rfl : stop = opener + 1 + distance := same.symm
    have size : opener + 1 + distance - opener = distance + 1 := by omega
    refine ⟨by omega, by omega, ?_, ?_⟩
    · rw [bracesUpTo, bracesUpTo, size, balance]
    · intro earlier behind early
      have here := first (earlier - opener - 1) (by omega)
      rwa [show earlier - opener - 1 + 1 = earlier - opener by omega] at here
  · intro ⟨behind, inside, outnumbers, least⟩
    refine ⟨stop - opener - 1, closer?_eq_some_iff.mpr ⟨?_, ?_, ?_⟩, by omega⟩
    · rw [List.length_drop]
      omega
    · rw [show stop - opener - 1 + 1 = stop - opener by omega]
      exact outnumbers
    · intro distance early
      have here := least (opener + distance + 1) (by omega) (by omega)
      rwa [bracesUpTo, bracesUpTo, show opener + distance + 1 - opener = distance + 1 by omega]
        at here

theorem partner?_eq_none_iff {text : Text} {opener : Nat} :
    partner? text opener = none ↔ ∀ stop, ¬IsPartner text opener stop := by
  rw [Option.eq_none_iff_forall_ne_some]
  exact forall_congr' fun stop => not_congr partner?_eq_some_iff

/-! Following the braces -/

/-- The brace of a type is open, with `depth` braces and more open above it, and this is where it is
closed, if it is. -/
def EndsOpen (offset : Nat) (stack : List (Option TypeHeader)) (depth : Nat) (text : Text)
    (header : TypeHeader) (stop : Option Nat) : Prop :=
  ∃ place, stack[place]? = some (some header) ∧
    stop = (closer? (depth + place) text).map (offset + ·)

/-- The brace of a type is opened in a text, and this is where it is closed, if it is. -/
def EndsOpened (headers : List TypeHeader) (offset : Nat) (text : Text) (header : TypeHeader)
    (stop : Option Nat) : Prop :=
  ∃ place, text[place]? = some '{' ∧ headers.find? (·.body = offset + place) = some header ∧
    stop = (closer? 0 (text.drop (place + 1))).map (offset + place + 1 + ·)

/-- A type is open or is opened in the text. -/
def Ends (headers : List TypeHeader) (offset : Nat) (stack : List (Option TypeHeader)) (text : Text)
    (header : TypeHeader) (stop : Option Nat) : Prop :=
  EndsOpen offset stack 0 text header stop ∨ EndsOpened headers offset text header stop

section

variable {headers : List TypeHeader} {offset depth : Nat} {stack : List (Option TypeHeader)}
  {rest : Text} {header : TypeHeader} {stop : Option Nat}

theorem map_map_add (found : Option Nat) (offset : Nat) :
    (found.map (· + 1)).map (offset + ·) = found.map (offset + 1 + ·) := by
  rw [Option.map_map]
  refine congrArg (Option.map · found) (funext fun distance => ?_)
  simp only [Function.comp_apply]
  omega

theorem endsOpen_cons {top : Option TypeHeader} :
    EndsOpen offset (top :: stack) depth rest header stop ↔
      (top = some header ∧ stop = (closer? depth rest).map (offset + ·)) ∨
        EndsOpen offset stack (depth + 1) rest header stop := by
  rw [EndsOpen, ← Nat.or_exists_add_one, List.getElem?_cons_zero, Option.some_inj]
  refine or_congr Iff.rfl (exists_congr fun place => ?_)
  rw [List.getElem?_cons_succ, Nat.add_right_comm, Nat.add_assoc]

theorem endsOpen_step {c : Char} {next : Nat}
    (step : ∀ place, closer? (depth + place) (c :: rest) =
      (closer? (next + place) rest).map (· + 1)) :
    EndsOpen offset stack depth (c :: rest) header stop ↔
      EndsOpen (offset + 1) stack next rest header stop := by
  refine exists_congr fun place => ?_
  rw [step, map_map_add]

theorem endsOpened_cons {c : Char} :
    EndsOpened headers offset (c :: rest) header stop ↔
      (c = '{' ∧ headers.find? (·.body = offset) = some header ∧
        stop = (closer? 0 rest).map (offset + 1 + ·)) ∨
      EndsOpened headers (offset + 1) rest header stop := by
  rw [EndsOpened, ← Nat.or_exists_add_one, List.getElem?_cons_zero, Option.some_inj]
  refine or_congr Iff.rfl (exists_congr fun place => ?_)
  rw [List.getElem?_cons_succ, List.drop_succ_cons, Nat.add_comm place, ← Nat.add_assoc]

/-! One character -/

theorem ends_opener :
    Ends headers offset stack ('{' :: rest) header stop ↔
      Ends headers (offset + 1) (headers.find? (·.body = offset) :: stack) rest header stop := by
  have below : EndsOpen offset stack 0 ('{' :: rest) header stop ↔
      EndsOpen (offset + 1) stack 1 rest header stop := by
    apply endsOpen_step
    intro place
    rw [closer?_opener, Nat.add_right_comm]
  rw [Ends, Ends, below, endsOpened_cons, endsOpen_cons]
  simp only [true_and]
  tauto

theorem ends_closer {top : Option TypeHeader} :
    Ends headers offset (top :: stack) ('}' :: rest) header stop ↔
      (top = some header ∧ stop = some offset) ∨
        Ends headers (offset + 1) stack rest header stop := by
  have below : EndsOpen offset stack 1 ('}' :: rest) header stop ↔
      EndsOpen (offset + 1) stack 0 rest header stop := by
    apply endsOpen_step
    intro place
    rw [Nat.add_comm 1, closer?_closer, Nat.zero_add]
  have differs : '}' ≠ '{' := by decide
  rw [Ends, Ends, endsOpen_cons, below, endsOpened_cons, closer?_found]
  simp only [differs, false_and, false_or, Option.map_some, Nat.add_zero, or_assoc]

theorem ends_unopened :
    Ends headers offset [] ('}' :: rest) header stop ↔
      Ends headers (offset + 1) [] rest header stop := by
  have differs : '}' ≠ '{' := by decide
  rw [Ends, Ends, endsOpened_cons]
  simp [EndsOpen, differs]

theorem ends_other {c : Char} (opens : c ≠ '{') (closes : c ≠ '}') :
    Ends headers offset stack (c :: rest) header stop ↔
      Ends headers (offset + 1) stack rest header stop := by
  have below : EndsOpen offset stack 0 (c :: rest) header stop ↔
      EndsOpen (offset + 1) stack 0 rest header stop := by
    apply endsOpen_step
    intro place
    exact closer?_other opens closes
  rw [Ends, Ends, below, endsOpened_cons]
  simp only [opens, false_and, false_or]

end

/-! All of a text -/

section

variable {headers : List TypeHeader} {scope : Scope}

/-- The types that are closed are those whose braces have partners. -/
theorem mem_closed_scopesFrom {offset : Nat} {stack : List (Option TypeHeader)} {text : Text} :
    scope ∈ (scopesFrom headers offset stack text).closed ↔
      ∃ header stop, Ends headers offset stack text header (some stop) ∧
        scope = header.scope (stop + 1) := by
  induction text generalizing offset stack with
  | nil => simp [scopesFrom, Ends, EndsOpen, EndsOpened, closer?]
  | cons c text ih =>
    cases c using braceCases with
    | opener =>
      rw [scopesFrom_opener, ih]
      simp only [ends_opener]
    | closer =>
      cases stack with
      | nil =>
        rw [scopesFrom_unopened, ih]
        simp only [ends_unopened]
      | cons top stack =>
        rw [scopesFrom_closer]
        simp only [List.mem_append, ih, ends_closer, or_and_right, exists_or]
        refine or_congr ?_ Iff.rfl
        cases top <;> simp [eq_comm]
    | other c opens closes =>
      rw [scopesFrom_other opens closes, ih]
      simp only [ends_other opens closes]

/-- The types that stay open are those whose braces have no partners. -/
theorem mem_unterminated_scopesFrom {offset : Nat} {stack : List (Option TypeHeader)}
    {text : Text} :
    scope ∈ (scopesFrom headers offset stack text).unterminated ↔
      ∃ header, Ends headers offset stack text header none ∧
        scope = header.scope (offset + text.length) := by
  induction text generalizing offset stack with
  | nil =>
    have waiting (header : TypeHeader) :
        Ends headers offset stack [] header none ↔ some header ∈ stack := by
      simp [Ends, EndsOpen, EndsOpened, closer?, List.mem_iff_getElem?]
    simp only [waiting]
    simp [scopesFrom, eq_comm]
  | cons c text ih =>
    have size : offset + (c :: text).length = offset + 1 + text.length := by
      rw [List.length_cons]
      omega
    rw [size]
    cases c using braceCases with
    | opener =>
      rw [scopesFrom_opener, ih]
      simp only [ends_opener]
    | closer =>
      cases stack with
      | nil =>
        rw [scopesFrom_unopened, ih]
        simp only [ends_unopened]
      | cons top stack =>
        rw [scopesFrom_closer]
        simp only [ih, ends_closer, reduceCtorEq, and_false, false_or]
    | other c opens closes =>
      rw [scopesFrom_other opens closes, ih]
      simp only [ends_other opens closes]

/-- Types are closed one after the other. -/
theorem pairwise_closed_scopesFrom {offset : Nat} {stack : List (Option TypeHeader)}
    {text : Text} :
    (scopesFrom headers offset stack text).closed.Pairwise (·.stop < ·.stop) ∧
      ∀ scope ∈ (scopesFrom headers offset stack text).closed, offset < scope.stop := by
  induction text generalizing offset stack with
  | nil => simp [scopesFrom]
  | cons c text ih =>
    have next (stack : List (Option TypeHeader)) :
        (scopesFrom headers (offset + 1) stack text).closed.Pairwise (·.stop < ·.stop) ∧
          ∀ scope ∈ (scopesFrom headers (offset + 1) stack text).closed, offset < scope.stop := by
      refine ⟨ih.1, fun scope member => ?_⟩
      exact Nat.lt_of_succ_lt (ih.2 scope member)
    cases c using braceCases with
    | opener =>
      rw [scopesFrom_opener]
      exact next _
    | closer =>
      cases stack with
      | nil =>
        rw [scopesFrom_unopened]
        exact next []
      | cons top stack =>
        rw [scopesFrom_closer]
        cases top with
        | none => exact next stack
        | some header =>
          refine ⟨.cons ?_ ih.1, ?_⟩
          · exact ih.2
          · intro scope member
            rcases List.mem_cons.mp member with rfl | member
            · exact Nat.lt_succ_self offset
            · exact (next stack).2 scope member
    | other c opens closes =>
      rw [scopesFrom_other opens closes]
      exact next stack

/-- A type is opened once. -/
theorem nodup_unterminated_scopesFrom (distinct : (headers.map (·.nameStart)).Nodup) {offset : Nat}
    {stack : List (Option TypeHeader)} {text : Text} (opened : (stack.filterMap id).Nodup)
    (passed : ∀ header, some header ∈ stack → header ∈ headers ∧ header.body < offset) :
    ((scopesFrom headers offset stack text).unterminated.map (·.nameStart)).Nodup := by
  induction text generalizing offset stack with
  | nil =>
    have known : ∀ header ∈ stack.reverse.filterMap id, header ∈ headers := by
      intro header member
      have inside : some header ∈ stack := by simpa using member
      exact (passed header inside).1
    have once : (stack.reverse.filterMap id).Nodup := by
      rw [List.filterMap_reverse]
      exact List.nodup_reverse.mpr opened
    rw [scopesFrom, List.map_map]
    refine List.Nodup.map_on ?_ once
    intro first isFirst second isSecond same
    exact List.inj_on_of_nodup_map distinct (known first isFirst) (known second isSecond) same
  | cons c text ih =>
    have later : ∀ header, some header ∈ stack → header ∈ headers ∧ header.body < offset + 1 := by
      intro header member
      exact ⟨(passed header member).1, Nat.lt_succ_of_lt (passed header member).2⟩
    cases c using braceCases with
    | opener =>
      rw [scopesFrom_opener]
      cases found : headers.find? (·.body = offset) with
      | none => exact ih (by simpa using opened) (by simpa using later)
      | some header =>
        have here : header.body = offset := by simpa using List.find?_some found
        have absent : header ∉ stack.filterMap id := by
          intro member
          have inside : some header ∈ stack := by simpa using member
          exact absurd (passed header inside).2 (by omega)
        refine ih (List.nodup_cons.mpr ⟨absent, opened⟩) ?_
        intro other member
        rcases List.mem_cons.mp member with same | member
        · obtain rfl : other = header := Option.some.inj same
          exact ⟨List.mem_of_find?_eq_some found, by omega⟩
        · exact later other member
    | closer =>
      cases stack with
      | nil =>
        rw [scopesFrom_unopened]
        exact ih opened later
      | cons top stack =>
        rw [scopesFrom_closer]
        refine ih ?_ fun header member => later header (List.mem_cons_of_mem top member)
        have part : stack.Sublist (top :: stack) := List.sublist_cons_self top stack
        exact (part.filterMap id).nodup opened
    | other c opens closes =>
      rw [scopesFrom_other opens closes]
      exact ih opened later

end

/-! Partners within partners -/

section

variable {depth distance : Nat} {front text rest : Text}

/-- With one brace less to be closed, the brace sought stands earlier. -/
theorem exists_closer?_succ (found : closer? (depth + 1) text = some distance) :
    ∃ earlier < distance, closer? depth text = some earlier := by
  induction text generalizing depth distance with
  | nil => simp [closer?] at found
  | cons c text ih =>
    cases c using braceCases with
    | opener =>
      rw [closer?_opener] at found ⊢
      obtain ⟨later, behind, rfl⟩ := Option.map_eq_some_iff.mp found
      obtain ⟨earlier, early, here⟩ := ih behind
      exact ⟨earlier + 1, Nat.succ_lt_succ early, by rw [here, Option.map_some]⟩
    | closer =>
      rw [closer?_closer] at found
      obtain ⟨later, behind, rfl⟩ := Option.map_eq_some_iff.mp found
      cases depth with
      | zero => exact ⟨0, Nat.succ_pos later, closer?_found⟩
      | succ depth =>
        obtain ⟨earlier, early, here⟩ := ih behind
        refine ⟨earlier + 1, Nat.succ_lt_succ early, ?_⟩
        rw [closer?_closer, here, Option.map_some]
    | other c opens closes =>
      rw [closer?_other opens closes] at found ⊢
      obtain ⟨later, behind, rfl⟩ := Option.map_eq_some_iff.mp found
      obtain ⟨earlier, early, here⟩ := ih behind
      exact ⟨earlier + 1, Nat.succ_lt_succ early, by rw [here, Option.map_some]⟩

/-- The fewer braces are to be closed, the earlier they are. -/
theorem exists_closer?_zero (found : closer? depth text = some distance) :
    ∃ earlier ≤ distance, closer? 0 text = some earlier := by
  induction depth generalizing distance with
  | zero => exact ⟨distance, le_rfl, found⟩
  | succ depth ih =>
    obtain ⟨before, early, here⟩ := exists_closer?_succ found
    obtain ⟨earlier, earlier_le, first⟩ := ih here
    exact ⟨earlier, by omega, first⟩

/-- What is closed behind a part of the text is closed in the rest. -/
theorem exists_closer?_rest (found : closer? depth (front ++ rest) = some distance)
    (late : front.length ≤ distance) :
    ∃ other, closer? other rest = some (distance - front.length) := by
  induction front generalizing depth distance with
  | nil => exact ⟨depth, found⟩
  | cons c front ih =>
    rw [List.length_cons] at late
    -- The brace sought is not the first character, so it is one of those behind it.
    have behind {next : Nat}
        (shifted : (closer? next (front ++ rest)).map (· + 1) = some distance) :
        ∃ other, closer? other rest = some (distance - (c :: front).length) := by
      obtain ⟨before, here, rfl⟩ := Option.map_eq_some_iff.mp shifted
      obtain ⟨other, same⟩ := ih here (by omega)
      refine ⟨other, ?_⟩
      rw [same, List.length_cons, Nat.add_sub_add_right]
    rw [List.cons_append] at found
    cases c using braceCases with
    | opener =>
      rw [closer?_opener] at found
      exact behind found
    | closer =>
      cases depth with
      | zero =>
        rw [closer?_found] at found
        have first := Option.some.inj found
        omega
      | succ depth =>
        rw [closer?_closer] at found
        exact behind found
    | other c opens closes =>
      rw [closer?_other opens closes] at found
      exact behind found

/-- A text that closes the braces opened before it, and its own, leaves the others to the rest. -/
theorem closer?_closes {opened : Nat} (closes : closesBraces opened front = true) :
    closer? (depth + opened) (front ++ rest) =
      (closer? depth rest).map (front.length + ·) := by
  induction front generalizing opened with
  | nil =>
    obtain rfl : opened = 0 := by simpa [closesBraces] using closes
    simp
  | cons c front ih =>
    have shifted (found : Option Nat) : (found.map (front.length + ·)).map (· + 1) =
        found.map ((c :: front).length + ·) := by
      rw [Option.map_map]
      refine congrArg (Option.map · found) (funext fun distance => ?_)
      simp only [Function.comp_apply, List.length_cons]
      omega
    rw [closesBraces] at closes
    rw [List.cons_append]
    cases c using braceCases with
    | opener => rw [closer?_opener, Nat.add_assoc, ih (by simpa using closes), shifted]
    | closer =>
      obtain ⟨inner, rfl⟩ : ∃ inner, opened = inner + 1 := by
        apply Nat.exists_eq_succ_of_ne_zero
        intro none
        simp [none] at closes
      rw [← Nat.add_assoc, closer?_closer, ih (by simpa using closes), shifted]
    | other c opens shuts =>
      rw [closer?_other opens shuts, ih (by simpa [opens, shuts] using closes), shifted]

/-- Where a text closes the braces opened before it, each has its partner there. -/
theorem exists_closer?_opened {inner : Nat}
    (closes : closesBraces (depth + inner + 1) text = true) :
    ∃ distance < text.length, closer? inner (text ++ rest) = some distance := by
  induction text generalizing inner with
  | nil => simp [closesBraces] at closes
  | cons c text ih =>
    have behind {next : Nat} (closes : closesBraces (depth + next + 1) text = true) :
        ∃ distance < (c :: text).length,
          (closer? next (text ++ rest)).map (· + 1) = some distance := by
      obtain ⟨distance, short, here⟩ := ih closes
      exact ⟨distance + 1, Nat.succ_lt_succ short, by rw [here, Option.map_some]⟩
    rw [closesBraces] at closes
    rw [List.cons_append]
    cases c using braceCases with
    | opener =>
      rw [closer?_opener]
      rw [if_pos rfl, Nat.add_right_comm, Nat.add_assoc depth] at closes
      exact behind closes
    | closer =>
      cases inner with
      | zero => exact ⟨0, Nat.succ_pos text.length, closer?_found⟩
      | succ inner =>
        rw [closer?_closer]
        apply behind
        simpa [← Nat.add_assoc] using closes
    | other c opens shuts =>
      rw [closer?_other opens shuts]
      exact behind (by simpa [opens, shuts] using closes)

/-- A brace in a text that closes its braces has its partner there. -/
theorem exists_closer?_closes (closes : closesBraces depth (front ++ '{' :: text) = true) :
    ∃ distance < text.length, closer? 0 (text ++ rest) = some distance := by
  induction front generalizing depth with
  | nil =>
    rw [List.nil_append, closesBraces, if_pos rfl] at closes
    exact exists_closer?_opened closes
  | cons c front ih =>
    rw [List.cons_append, closesBraces] at closes
    split at closes
    · exact ih closes
    split at closes
    · rw [Bool.and_eq_true] at closes
      exact ih closes.2
    · exact ih closes

end

end DeclBridge.Kotlin
