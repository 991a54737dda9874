import DeclBridge.Proofs.HeaderPlaces
import DeclBridge.Proofs.KotlinHeaders

/-! The classes of a source. Every brace is told apart, every class is closed, and the innermost
class around a function is the one it is declared in. -/

namespace DeclBridge.Kotlin

open Text

/-! Braces -/

theorem scopesFrom_free {headers : List TypeHeader} {stack : List (Option TypeHeader)} {text : Text}
    (free : ∀ c ∈ text, c ≠ '{' ∧ c ≠ '}') (offset : Nat) (rest : Text) :
    scopesFrom headers offset stack (text ++ rest) =
      scopesFrom headers (offset + text.length) stack rest := by
  induction text generalizing offset with
  | nil => rfl
  | cons c text ih =>
    obtain ⟨⟨opens, closes⟩, others⟩ := List.forall_mem_cons.mp free
    rw [List.cons_append, scopesFrom.eq_def]
    simp only [if_neg opens, if_neg closes]
    rw [ih others, List.length_cons, Nat.add_assoc, Nat.add_comm 1]

section

variable {headers : List TypeHeader} {offset : Nat} {stack : List (Option TypeHeader)} {rest : Text}

theorem scopesFrom_opener :
    scopesFrom headers offset stack ('{' :: rest) =
      scopesFrom headers (offset + 1) (headers.find? (·.body = offset) :: stack) rest := by
  rw [scopesFrom.eq_def]
  rfl

theorem scopesFrom_closer {top : Option TypeHeader} :
    scopesFrom headers offset (top :: stack) ('}' :: rest) =
      ⟨(top.map (·.scope (offset + 1))).toList ++
          (scopesFrom headers (offset + 1) stack rest).closed,
        (scopesFrom headers (offset + 1) stack rest).unterminated⟩ := by
  rw [scopesFrom.eq_def]
  rfl

/-- A closing brace without a partner is passed over. -/
theorem scopesFrom_unopened :
    scopesFrom headers offset [] ('}' :: rest) = scopesFrom headers (offset + 1) [] rest := by
  rw [scopesFrom.eq_def]
  rfl

theorem scopesFrom_other {c : Char} (opens : c ≠ '{') (closes : c ≠ '}') :
    scopesFrom headers offset stack (c :: rest) = scopesFrom headers (offset + 1) stack rest := by
  have free : ∀ d ∈ [c], d ≠ '{' ∧ d ≠ '}' := by simp [opens, closes]
  exact scopesFrom_free free offset rest

theorem scopesFrom_newline :
    scopesFrom headers offset stack ('\n' :: rest) = scopesFrom headers (offset + 1) stack rest :=
  scopesFrom_other (by decide) (by decide)

end

theorem bodyOffset_append (front rest : Text) :
    bodyOffset (front ++ ' ' :: '{' :: rest) front.length = some (front.length + 1) := by
  rw [bodyOffset, List.drop_left]
  simp [bodyFrom]

/-! The innermost scope -/

theorem covers_eq_false {scope : Scope} {offset : Nat}
    (outside : offset < scope.start ∨ scope.stop ≤ offset) : scope.covers offset = false := by
  simp only [Scope.covers, Bool.and_eq_false_iff, decide_eq_false_iff_not]
  omega

section

variable {offset : Nat} {scopes others : List Scope}

private theorem filter_covers_eq_nil (outside : ∀ scope ∈ scopes, scope.covers offset = false) :
    scopes.filter (·.covers offset) = [] :=
  List.filter_eq_nil_iff.mpr fun scope member => by simp [outside scope member]

theorem innermost_eq_none (outside : ∀ scope ∈ scopes, scope.covers offset = false) :
    innermost offset scopes = none := by
  rw [innermost, filter_covers_eq_nil outside]
  rfl

theorem innermost_append_left (outside : ∀ scope ∈ others, scope.covers offset = false) :
    innermost offset (scopes ++ others) = innermost offset scopes := by
  rw [innermost, List.filter_append, filter_covers_eq_nil outside, List.append_nil]
  rfl

theorem innermost_append_right (outside : ∀ scope ∈ scopes, scope.covers offset = false) :
    innermost offset (scopes ++ others) = innermost offset others := by
  rw [innermost, List.filter_append, filter_covers_eq_nil outside, List.nil_append]
  rfl

/-- A scope that no other starts before counts only when there is no other. -/
theorem innermost_concat {scope : Scope} (covers : scope.covers offset = true)
    (later : ∀ other ∈ scopes, scope.start ≤ other.start) :
    innermost offset (scopes ++ [scope]) = (innermost offset scopes).or (some scope) := by
  have divided : innermost offset (scopes ++ [scope]) =
      if (innermost offset scopes).all (·.start < scope.start) then some scope
      else innermost offset scopes := by
    rw [innermost, List.filter_append, List.foldl_append, List.filter_singleton, covers]
    rfl
  rw [divided]
  cases chosen : innermost offset scopes with
  | none => rfl
  | some other =>
    have after := later other (mem_of_innermost chosen)
    simp
    omega

end

end DeclBridge.Kotlin

namespace DeclBridge.Kotlin.Syntax

open Text

/-! Headers -/

/-- The header of a class that starts at an offset. -/
def typeHeader (offset : Nat) (name : Identifier) : TypeHeader :=
  ⟨name.text, offset, offset + 6, offset + 6 + name.text.length + 1⟩

/-- The headers of the classes that some blocks open. -/
def headersFrom (offset : Nat) : List Block → List TypeHeader
  | [] => []
  | .opening name :: rest =>
    typeHeader offset name :: headersFrom (offset + extent [.opening name]) rest
  | block :: rest => headersFrom (offset + extent [block]) rest

theorem extent_opening (name : Identifier) : extent [.opening name] = name.text.length + 9 := by
  rw [extent_cons, extent_nil, Block.print_opening]
  simp

section

variable {front rest : List Block} {before : Option Char} {name : Identifier}

private theorem maskedText_opening : maskedText (.opening name :: rest) =
    ("class ".toList ++ name.text) ++ ([' ', '{', '\n'] ++ maskedText rest) := by
  rw [maskedText_cons, Block.print_opening, List.append_assoc]

private theorem length_lead : ("class ".toList ++ name.text).length = 6 + name.text.length := by
  rw [List.length_append]
  rfl

theorem bodyOffset_opening :
    bodyOffset (maskedText (front ++ .opening name :: rest))
        (extent front + (6 + name.text.length)) =
      some (extent front + (6 + name.text.length) + 1) := by
  rw [← length_lead, maskedText_append, maskedText_opening, ← List.append_assoc, extent,
    ← List.length_append]
  exact bodyOffset_append _ _

/-- A class is found where it is opened. -/
theorem occurrencesFrom_opening (boundary : atBoundary before = true) (offset : Nat) :
    occurrencesFrom typeHeader? offset before (maskedText (.opening name :: rest)) =
      ⟨offset, offset + (6 + name.text.length), name.text, [' ', '{', '\n'] ++ maskedText rest⟩ ::
        occurrencesFrom typeHeader? (offset + extent [.opening name]) (some '\n')
          (maskedText rest) := by
  have read : typeHeader? before
      (("class ".toList ++ name.text) ++ ([' ', '{', '\n'] ++ maskedText rest)) =
      some (name.text, [' ', '{', '\n'] ++ maskedText rest) := by
    rw [List.append_assoc]
    exact typeHeader?_lead name _ boundary
  have quiet : IsQuiet ["class", "interface", "object"] (maskedText rest) [' ', '{', '\n'] :=
    (isQuiet_behindName _).mono (by simp [headerWords])
  have size : offset + (6 + name.text.length) + 3 = offset + extent [.opening name] := by
    rw [extent_opening]
    omega
  rw [maskedText_opening, occurrencesFrom_found (by simp) read,
    occurrencesFrom_quiet refuses_type quiet, length_lead, ← size]
  rfl

/-- Other blocks hold none. -/
theorem occurrencesFrom_passed {block : Block}
    (quiet : IsQuiet ["class", "interface", "object"] (maskedText rest)
      (block.print Literal.masked)) (offset : Nat) :
    occurrencesFrom typeHeader? offset before (maskedText (block :: rest)) =
      occurrencesFrom typeHeader? (offset + extent [block]) (some '\n') (maskedText rest) := by
  rw [maskedText_cons, occurrencesFrom_quiet refuses_type quiet, lastFrom_print, extent_cons,
    extent_nil, Nat.add_zero]

end

private theorem filterMap_occurrences (front blocks : List Block) (before : Option Char)
    (boundary : atBoundary before = true) :
    (occurrencesFrom typeHeader? (extent front) before (maskedText blocks)).filterMap
        (fun place => (bodyOffset (maskedText (front ++ blocks)) place.stop).map fun body =>
          ⟨place.found, place.start, place.stop - place.found.length, body⟩) =
      headersFrom (extent front) blocks := by
  have keywords : ["class", "interface", "object"] ⊆ headerWords := by simp [headerWords]
  induction blocks generalizing front before with
  | nil => rw [maskedText_nil, occurrencesFrom]; rfl
  | cons block rest ih =>
    have behind := ih (front ++ [block]) (some '\n') (by decide)
    rw [List.append_assoc, List.singleton_append, extent_append] at behind
    cases block with
    | package path =>
      rw [occurrencesFrom_passed (isQuiet_package keywords path _), behind]
      rfl
    | closing =>
      rw [occurrencesFrom_passed (isQuiet_closing keywords _), behind]
      rfl
    | function member =>
      have lead := isQuiet_lead keywords member (by decide) (fun _ _ => by decide)
      rw [occurrencesFrom_passed (member.isQuiet_print keywords (lead _)), behind]
      rfl
    | opening name =>
      have header : (⟨name.text, extent front,
          extent front + (6 + name.text.length) - name.text.length,
          extent front + (6 + name.text.length) + 1⟩ : TypeHeader) =
          typeHeader (extent front) name := by
        rw [typeHeader, TypeHeader.mk.injEq]
        refine ⟨rfl, rfl, ?_, ?_⟩ <;> omega
      rw [occurrencesFrom_opening boundary, List.filterMap_cons]
      simp only [bodyOffset_opening, Option.map_some, header, behind]
      rfl

theorem typeHeaders_maskedText (blocks : List Block) :
    typeHeaders (maskedText blocks) = headersFrom 0 blocks :=
  filterMap_occurrences [] blocks none rfl

theorem body_of_mem_headersFrom {offset : Nat} {blocks : List Block} {header : TypeHeader}
    (member : header ∈ headersFrom offset blocks) : offset ≤ header.body := by
  induction blocks generalizing offset with
  | nil => cases member
  | cons block rest ih =>
    cases block with
    | opening name =>
      rcases List.mem_cons.mp member with rfl | member
      · simp only [typeHeader]
        omega
      · exact Nat.le_of_add_right_le (ih member)
    | package | closing | function => exact Nat.le_of_add_right_le (ih member)

/-- Those headers are still to come whose bodies do not begin before an offset. -/
def Awaits (headers : List TypeHeader) (offset : Nat) (blocks : List Block) : Prop :=
  ∃ past, headers = past ++ headersFrom offset blocks ∧ ∀ header ∈ past, header.body < offset

namespace Awaits

variable {headers : List TypeHeader} {offset : Nat} {block : Block} {rest : List Block}

theorem step (awaits : Awaits headers offset (block :: rest)) :
    Awaits headers (offset + extent [block]) rest := by
  obtain ⟨past, same, before⟩ := awaits
  have earlier : ∀ header ∈ past, header.body < offset + extent [block] :=
    fun header member => Nat.lt_add_right _ (before header member)
  cases block with
  | opening name =>
    refine ⟨past ++ [typeHeader offset name], by simp [same, headersFrom], ?_⟩
    refine List.forall_mem_append.mpr ⟨earlier, ?_⟩
    rw [extent_opening]
    simp only [List.mem_singleton, forall_eq, typeHeader]
    omega
  | package | closing | function => exact ⟨past, same, earlier⟩

private theorem past_find? {past : List TypeHeader} (before : ∀ header ∈ past, header.body < offset)
    {place : Nat} (bound : offset ≤ place) : past.find? (·.body = place) = none := by
  refine List.find?_eq_none.mpr fun header member => ?_
  have := before header member
  simp
  omega

/-- A brace of a class leads to its header. -/
theorem find?_opening {name : Identifier} (awaits : Awaits headers offset (.opening name :: rest)) :
    headers.find? (·.body = offset + 6 + name.text.length + 1) = some (typeHeader offset name) := by
  obtain ⟨past, rfl, before⟩ := awaits
  rw [List.find?_append, past_find? before (by omega), headersFrom, List.find?_cons_of_pos]
  · rfl
  · simp [typeHeader]

/-- A brace of a function leads to none. -/
theorem find?_function {member : Function}
    (awaits : Awaits headers offset (.function member :: rest)) {place : Nat}
    (lower : offset ≤ place) (upper : place < offset + extent [.function member]) :
    headers.find? (·.body = place) = none := by
  obtain ⟨past, rfl, before⟩ := awaits
  have behind : headersFrom offset (.function member :: rest) =
      headersFrom (offset + extent [.function member]) rest := rfl
  rw [List.find?_append, past_find? before lower, behind]
  refine List.find?_eq_none.mpr fun header inside => ?_
  have := body_of_mem_headersFrom inside
  simp
  omega

end Awaits

/-! Classes -/

/-- The classes behind some blocks, in the order in which they close. -/
def Forest.scopes (front : List Block) : Forest → List Scope
  | nil => []
  | type name members rest =>
    members.scopes (front ++ [.opening name]) ++
      (typeHeader (extent front) name).scope
          (extent (front ++ .opening name :: members.blocks) + 1) ::
        rest.scopes (front ++ .opening name :: members.blocks ++ [.closing])
  | function member rest => rest.scopes (front ++ [.function member])

section

variable {headers : List TypeHeader} {offset : Nat} {stack : List (Option TypeHeader)}
  {rest : List Block}

private theorem unbraced {text : Text} (free : IsFree bodyMarks text) :
    ∀ c ∈ text, c ≠ '{' ∧ c ≠ '}' := by
  intro c inside
  have absent := free c inside
  simp only [bodyMarks, List.mem_cons, List.not_mem_nil, or_false, not_or] at absent
  exact absent.2

theorem scopesFrom_opening {name : Identifier}
    (awaits : Awaits headers offset (.opening name :: rest)) :
    scopesFrom headers offset stack (maskedText (.opening name :: rest)) =
      scopesFrom headers (offset + extent [.opening name]) (some (typeHeader offset name) :: stack)
        (maskedText rest) := by
  let front := "class ".toList ++ name.text ++ [' ']
  have free : IsFree bodyMarks front := by
    have keyword : IsFree bodyMarks "class ".toList := by decide
    exact (keyword.append (isFree_of_isWord name.word).bodiless).append (by decide)
  have whole : maskedText (.opening name :: rest) =
      front ++ '{' :: '\n' :: maskedText rest := by
    rw [maskedText_cons, Block.print_opening]
    simp [front]
  have length : front.length = 6 + name.text.length + 1 := by
    rw [List.length_append, List.length_append]
    rfl
  have named : headers.find? (·.body = offset + front.length) = some (typeHeader offset name) := by
    rw [length, ← Nat.add_assoc, ← Nat.add_assoc]
    exact awaits.find?_opening
  have size : offset + front.length + 1 + 1 = offset + extent [.opening name] := by
    rw [extent_opening, length]
    omega
  rw [whole, scopesFrom_free (unbraced free), scopesFrom_opener, named,
    scopesFrom_newline]
  exact congrArg (scopesFrom headers · _ _) size

theorem scopesFrom_function {member : Function}
    (awaits : Awaits headers offset (.function member :: rest)) :
    scopesFrom headers offset stack (maskedText (.function member :: rest)) =
      scopesFrom headers (offset + extent [.function member]) stack
        (maskedText rest) := by
  let front := member.lead ++ member.printParameters Literal.masked ++
    (')' :: member.outcome.returned ++ [' '])
  have free : IsFree bodyMarks front := by
    have round : IsFree bodyMarks [')'] := by decide
    have back := (round.append member.outcome.isFree_returned.bodiless).append
      (by decide : IsFree bodyMarks [' '])
    exact (member.isFree_lead.bodiless.append member.isFree_printParameters).append back
  have whole : maskedText (.function member :: rest) =
      front ++ '{' :: '\n' :: '}' :: '\n' :: maskedText rest := by
    rw [maskedText_cons, Block.print_function, Function.print, Function.tail]
    simp [front]
  have size : extent [.function member] = front.length + 4 := by
    rw [extent_cons, extent_nil, Block.print_function, Function.print, Function.tail]
    simp [front]
    omega
  have unnamed : headers.find? (·.body = offset + front.length) = none :=
    awaits.find?_function (by omega) (by omega)
  rw [whole, scopesFrom_free (unbraced free), scopesFrom_opener, unnamed, scopesFrom_newline,
    scopesFrom_closer, scopesFrom_newline, size]
  rfl

theorem scopesFrom_closing {top : TypeHeader} :
    scopesFrom headers offset (some top :: stack) (maskedText (.closing :: rest)) =
      ⟨top.scope (offset + 1) ::
          (scopesFrom headers (offset + extent [.closing]) stack (maskedText rest)).closed,
        (scopesFrom headers (offset + extent [.closing]) stack
          (maskedText rest)).unterminated⟩ := by
  have whole : maskedText (.closing :: rest) =
      '}' :: '\n' :: maskedText rest := rfl
  rw [whole, scopesFrom_closer, scopesFrom_newline]
  rfl

end

theorem Awaits.append {headers : List TypeHeader} {front blocks rest : List Block}
    (awaits : Awaits headers (extent front) (blocks ++ rest)) :
    Awaits headers (extent (front ++ blocks)) rest := by
  induction blocks generalizing front with
  | nil => simpa using awaits
  | cons block blocks ih =>
    have behind : Awaits headers (extent (front ++ [block] ++ blocks)) rest :=
      ih (by simpa using awaits.step)
    simpa using behind

/-- What is open stays open, and every class in between is closed. -/
theorem scopesFrom_forest (forest : Forest) {headers : List TypeHeader} {front after : List Block}
    (awaits : Awaits headers (extent front) (forest.blocks ++ after))
    (stack : List (Option TypeHeader)) :
    scopesFrom headers (extent front) stack (maskedText (forest.blocks ++ after)) =
      ⟨forest.scopes front ++ (scopesFrom headers (extent (front ++ forest.blocks)) stack
          (maskedText after)).closed,
        (scopesFrom headers (extent (front ++ forest.blocks)) stack
          (maskedText after)).unterminated⟩ := by
  -- All headers that are still awaited stand in the blocks ahead, so a brace finds its own only.
  induction forest generalizing front after stack with
  | nil => simp [Forest.blocks, Forest.scopes]
  | type name members rest first second =>
    have whole : (Forest.type name members rest).blocks ++ after =
        .opening name :: (members.blocks ++ .closing :: (rest.blocks ++ after)) := by
      simp [Forest.blocks]
    rw [whole] at awaits ⊢
    have inside : Awaits headers (extent (front ++ [.opening name]))
        (members.blocks ++ .closing :: (rest.blocks ++ after)) := by
      rw [extent_append]
      exact awaits.step
    have behind : Awaits headers (extent (front ++ [.opening name] ++ members.blocks ++ [.closing]))
        (rest.blocks ++ after) := by
      rw [extent_append]
      exact inside.append.step
    rw [scopesFrom_opening awaits, ← extent_append,
      first inside (some (typeHeader (extent front) name) :: stack), scopesFrom_closing,
      ← extent_append, second behind stack]
    simp [Forest.scopes, Forest.blocks]
  | function member rest ih =>
    rw [Forest.blocks, List.cons_append] at awaits ⊢
    have behind : Awaits headers (extent (front ++ [.function member])) (rest.blocks ++ after) := by
      rw [extent_append]
      exact awaits.step
    rw [scopesFrom_function awaits, ← extent_append,
      ih behind stack]
    simp [Forest.scopes]

private theorem unbraced_front (file : File) :
    ∀ c ∈ maskedText file.front, c ≠ '{' ∧ c ≠ '}' := by
  rw [File.front]
  cases file.package with
  | none => exact List.forall_mem_nil _
  | some path =>
    have keyword : ∀ c ∈ "package ".toList, c ≠ '{' ∧ c ≠ '}' := by decide
    have name := unbraced (isFree_of_spelling (spelling_path path)).bodiless
    have front := List.forall_mem_append.mpr ⟨keyword, name⟩
    exact List.forall_mem_append.mpr ⟨List.forall_mem_append.mpr ⟨front, by decide⟩, by simp⟩

theorem scopes_file (file : File) :
    ScopeIndex.ofText file.text = ⟨file.members.scopes file.front, []⟩ := by
  have awaits : Awaits (headersFrom 0 file.blocks) (extent [])
      (file.front ++ file.members.blocks) :=
    ⟨[], rfl, by simp⟩
  have masked : maskLiterals file.text = maskedText file.blocks :=
    maskLiterals_printAll file.blocks
  have behind : Awaits (headersFrom 0 file.blocks) (extent file.front)
      (file.members.blocks ++ []) := by simpa using awaits.append
  have members := scopesFrom_forest file.members behind []
  have skipped : scopesFrom (headersFrom 0 file.blocks) 0 [] (maskedText file.blocks) =
      scopesFrom (headersFrom 0 file.blocks) (extent file.front) []
        (maskedText (file.members.blocks ++ [])) := by
    rw [List.append_nil, File.blocks, maskedText_append, scopesFrom_free (unbraced_front file),
      Nat.zero_add]
    rfl
  rw [ScopeIndex.ofText, masked, typeHeaders_maskedText, skipped, members]
  simp [scopesFrom]

/-! Functions -/

namespace Forest

theorem bounds_of_mem_scopes {forest : Forest} {front : List Block} {scope : Scope}
    (member : scope ∈ forest.scopes front) :
    extent front ≤ scope.start ∧ scope.stop ≤ extent (front ++ forest.blocks) := by
  have closing : (Block.closing.print Literal.masked).length = 2 := rfl
  induction forest generalizing front with
  | nil => cases member
  | type name members rest first second =>
    rw [scopes] at member
    rcases List.mem_append.mp member with member | member
    · have bounds := first member
      simp only [blocks, extent_append, extent_cons, extent_nil] at bounds ⊢
      omega
    · rcases List.mem_cons.mp member with rfl | member
      · simp only [TypeHeader.scope, typeHeader, blocks, extent_append, extent_cons]
        omega
      · have bounds := second member
        simp only [blocks, extent_append, extent_cons, extent_nil] at bounds ⊢
        omega
  | function member rest ih =>
    have bounds := ih member
    simp only [blocks, extent_append, extent_cons, extent_nil] at bounds ⊢
    omega

theorem bounds_of_mem_sites {forest : Forest} {front after : List Block} {owner : Option Identifier}
    {site : Site} (member : site ∈ forest.sites front after owner) :
    extent front ≤ site.start ∧ site.start < extent (front ++ forest.blocks) := by
  induction forest generalizing front after owner with
  | nil => cases member
  | type name members rest first second =>
    rw [sites] at member
    rcases List.mem_append.mp member with member | member
    · have bounds := first member
      simp only [blocks, extent_append, extent_cons, extent_nil] at bounds ⊢
      omega
    · have bounds := second member
      simp only [blocks, extent_append, extent_cons, extent_nil] at bounds ⊢
      omega
  | function function rest ih =>
    rcases List.mem_cons.mp member with rfl | member
    · have positive := length_print_pos (.function function)
      simp only [Site.start, blocks, extent_append, extent_cons]
      omega
    · have bounds := ih member
      simp only [blocks, extent_append, extent_cons, extent_nil] at bounds ⊢
      omega

theorem covers_of_mem_scopes {forest : Forest} {front : List Block} {offset : Nat}
    (outside : offset < extent front ∨ extent (front ++ forest.blocks) ≤ offset) :
    ∀ scope ∈ forest.scopes front, scope.covers offset = false := by
  intro scope member
  have bounds := bounds_of_mem_scopes member
  exact covers_eq_false (by omega)

section

variable {front : List Block} {name : Identifier} {members rest : Forest} {offset : Nat}

/-- The scope of a class with these members. -/
def classScope (front : List Block) (name : Identifier) (members : Forest) : Scope :=
  (typeHeader (extent front) name).scope (extent (front ++ .opening name :: members.blocks) + 1)

theorem scopes_type :
    (type name members rest).scopes front = members.scopes (front ++ [.opening name]) ++
      [classScope front name members] ++
        rest.scopes (front ++ .opening name :: members.blocks ++ [.closing]) := by
  rw [scopes, List.append_cons, classScope]

theorem innermost_inside (opened : extent (front ++ [.opening name]) ≤ offset)
    (before : offset < extent (front ++ .opening name :: members.blocks)) :
    innermost offset ((type name members rest).scopes front) =
      (innermost offset (members.scopes (front ++ [.opening name]))).or
        (some (classScope front name members)) := by
  have opening := length_print_pos (.opening name)
  have later : ∀ other ∈ rest.scopes (front ++ .opening name :: members.blocks ++ [.closing]),
      other.covers offset = false := by
    refine covers_of_mem_scopes (.inl ?_)
    rw [extent_append]
    omega
  have inner : ∀ other ∈ members.scopes (front ++ [.opening name]),
      (classScope front name members).start ≤ other.start := by
    intro other inside
    have bounds := bounds_of_mem_scopes inside
    simp only [extent_append, extent_cons, extent_nil] at bounds
    simp only [classScope, TypeHeader.scope, typeHeader]
    omega
  have covers : (classScope front name members).covers offset = true := by
    simp only [extent_append, extent_cons, extent_nil] at opened
    simp only [Scope.covers, Bool.and_eq_true, decide_eq_true_eq]
    simp only [classScope, TypeHeader.scope, typeHeader]
    omega
  rw [scopes_type, innermost_append_left later, innermost_concat covers inner]

theorem innermost_behind
    (behind : extent (front ++ .opening name :: members.blocks ++ [.closing]) ≤ offset) :
    innermost offset ((type name members rest).scopes front) =
      innermost offset (rest.scopes (front ++ .opening name :: members.blocks ++ [.closing])) := by
  have closing : (Block.closing.print Literal.masked).length = 2 := rfl
  have earlier : ∀ other ∈ members.scopes (front ++ [.opening name]) ++
      [classScope front name members], other.covers offset = false := by
    refine List.forall_mem_append.mpr ⟨covers_of_mem_scopes (.inr ?_), ?_⟩
    · simp only [extent_append, extent_cons, extent_nil] at behind ⊢
      omega
    · refine List.forall_mem_singleton.mpr (covers_eq_false (.inr ?_))
      simp only [classScope, TypeHeader.scope, extent_append, extent_cons, extent_nil] at behind ⊢
      omega
  rw [scopes_type, innermost_append_right earlier]

end

/-- Around a function the innermost class is the one it is a member of. -/
theorem innermost_of_mem_sites {forest : Forest} {front after : List Block}
    {owner : Option Identifier} {site : Site} (member : site ∈ forest.sites front after owner) :
    ((innermost site.start (forest.scopes front)).map (·.name)).or (owner.map (·.text)) =
      site.owner.map (·.text) := by
  -- The owner stands for the classes around the forest, which its own scopes take precedence over.
  induction forest generalizing front after owner with
  | nil => cases member
  | type name members rest first second =>
    rcases List.mem_append.mp member with member | member
    · obtain ⟨opened, before⟩ := bounds_of_mem_sites member
      rw [← List.append_cons] at before
      rw [innermost_inside opened before, ← first member]
      cases innermost site.start (members.scopes (front ++ [.opening name])) <;> rfl
    · rw [innermost_behind (bounds_of_mem_sites member).1]
      exact second member
  | function function rest ih =>
    rcases List.mem_cons.mp member with rfl | member
    · have positive := length_print_pos (.function function)
      have outside : extent front < extent (front ++ [.function function]) := by
        simp only [extent_append, extent_cons]
        omega
      rw [scopes, Site.start, innermost_eq_none (covers_of_mem_scopes (.inl outside))]
      rfl
    · exact ih member

end Forest

theorem containingType_site {file : File} {site : Site} (member : site ∈ file.sites) :
    (ScopeIndex.ofText file.text).containingType site.start = site.owner.map (·.text) := by
  have found := Forest.innermost_of_mem_sites member
  rw [Option.map_none, Option.or_none] at found
  rw [scopes_file, containingType_eq, found]

end DeclBridge.Kotlin.Syntax
