import DeclBridge.Command.Inputs
import DeclBridge.Proofs.FirstOccurrences
import DeclBridge.Proofs.ScannedDeclarations

/-! Keys of scanned declarations. The key of a declaration tells its kind, its name and the
innermost type around it, and nothing else: neither parameters nor the types further out count. -/

namespace DeclBridge

open Text Workspace Command

/-! Keys of any declarations -/

theorem firstPerKey_eq_self_iff {declarations : List Declaration} :
    firstPerKey declarations = declarations ↔ (declarations.map Declaration.key).Nodup := by
  rw [firstPerKey_eq_firstBy]
  constructor
  · intro same
    rw [← same]
    exact nodup_map_firstBy [] declarations
  · exact fun distinct => firstBy_eq_self distinct (by simp)

/-- As long as two keys tell the same items apart, one is distinct exactly when the other is. -/
theorem nodup_map_iff {key : α → β} {other : α → γ} {items : List α}
    (same : ∀ first ∈ items, ∀ second ∈ items,
      key first = key second ↔ other first = other second) :
    (items.map key).Nodup ↔ (items.map other).Nodup := by
  rw [List.Nodup, List.Nodup, List.pairwise_map, List.pairwise_map]
  exact List.Pairwise.iff_of_mem fun first second => not_congr (same _ first _ second)

namespace Kotlin

/-! Qualified names -/

/-- A name behind the innermost type around it. -/
def localName (owner : Option Text) (name : Text) : Text :=
  owner.elim name (· ++ '.' :: name)

/-- The first point, if there is one, ends the name of the type. -/
theorem cut_localName {owner : Option Text} {name : Text} (named : IsWord name)
    (owned : ∀ type ∈ owner, IsWord type) :
    cut '.' (localName owner name) = owner.map (·, name) := by
  have pointless {text : Text} (word : IsWord text) : '.' ∉ text := word.not_mem (by decide)
  cases owner with
  | none => exact cut_eq_none (pointless named)
  | some type => exact cut_append (pointless (owned type rfl)) name

theorem localName_inj {owner other : Option Text} {name otherName : Text} (named : IsWord name)
    (owned : ∀ type ∈ owner, IsWord type) (otherNamed : IsWord otherName)
    (otherOwned : ∀ type ∈ other, IsWord type) :
    localName owner name = localName other otherName ↔ owner = other ∧ name = otherName := by
  constructor
  · intro same
    have parts : owner.map (·, name) = other.map (·, otherName) := by
      rw [← cut_localName named owned, ← cut_localName otherNamed otherOwned, same]
    cases owner with
    | none => cases other with
      | none => exact ⟨rfl, same⟩
      | some => cases parts
    | some type => cases other with
      | none => cases parts
      | some => cases parts; exact ⟨rfl, rfl⟩
  · rintro ⟨rfl, rfl⟩
    rfl

namespace Source

theorem qualifiedName_identity (source : Source) {owner : Option Text} {name : Text}
    (named : IsWord name) (owned : ∀ type ∈ owner, IsWord type) :
    (source.identity owner name).qualifiedName =
      (if source.package.isEmpty then [] else source.package ++ ['.']) ++ localName owner name := by
  have kept {text : Text} (word : IsWord text) : (!text.isEmpty) = true := by simp [word.nonempty]
  cases package : source.package with
  | nil =>
    cases owner with
    | none => simp [identity, package, kept named, localName]
    | some type => simp [identity, package, kept named, kept (owned type rfl), localName]
  | cons c rest =>
    cases owner with
    | none => simp [identity, package, kept named, localName]
    | some type => simp [identity, package, kept named, kept (owned type rfl), localName]

/-! What a declaration is named by -/

theorem toIdentity_sumType? {source : Source} {place : Occurrence (Marked Text)}
    {declaration : SumType} (read : source.sumType? place = some declaration) :
    declaration.toIdentity =
      source.identity (source.scopes.containingType place.start) place.found.header := by
  unfold sumType? at read
  dsimp only at read
  split at read
  · obtain ⟨entries, -, rest⟩ := Option.bind_eq_some_iff.mp read
    cases rest
    rfl
  · cases read
    rfl

theorem toIdentity_asyncFunction? {source : Source} {place : Occurrence (Marked FunctionHeader)}
    {declaration : AsyncFunction} (read : source.asyncFunction? place = some declaration) :
    declaration.toIdentity =
      source.identity (source.scopes.containingType place.start) place.found.header.name := by
  unfold asyncFunction? at read
  obtain ⟨_, -, rest⟩ := Option.bind_eq_some_iff.mp read
  cases rest
  rfl

theorem toIdentity_flowFunction? {source : Source}
    {place : Occurrence (Marked (Bool × FunctionHeader))} {declaration : Stream}
    (read : source.flowFunction? place = some declaration) :
    declaration.toIdentity =
      source.identity (source.scopes.containingType place.start) place.found.header.2.name := by
  unfold flowFunction? at read
  dsimp only at read
  split at read
  · cases read
  · obtain ⟨_, -, rest⟩ := Option.bind_eq_some_iff.mp read
    obtain ⟨_, -, rest⟩ := Option.bind_eq_some_iff.mp rest
    obtain ⟨_, -, rest⟩ := Option.bind_eq_some_iff.mp rest
    cases rest
    rfl

theorem toIdentity_flowProperty? {source : Source} {place : Occurrence (Marked Text)}
    {declaration : Stream} (read : source.flowProperty? place = some declaration) :
    declaration.toIdentity =
      source.identity (source.scopes.containingType place.start) place.found.header := by
  unfold flowProperty? at read
  obtain ⟨_, -, rest⟩ := Option.bind_eq_some_iff.mp read
  cases rest
  rfl

/-! Declarations with the types around them -/

/-- What is found at some places, with the innermost type around each. -/
def owned (source : Source) (places : List (Occurrence α)) (read? : Occurrence α → Option β)
    (declaration : β → Declaration) : List (Option Text × Declaration) :=
  places.filterMap fun place =>
    (read? place).map fun found =>
      (source.scopes.containingType place.start, declaration found)

theorem map_owned (source : Source) (places : List (Occurrence α))
    (read? : Occurrence α → Option β) (declaration : β → Declaration) :
    (source.owned places read? declaration).map (·.2) =
      (places.filterMap read?).map declaration := by
  simp [owned, List.map_filterMap, Option.map_map, Function.comp_def]

def sealedPlaces (source : Source) : List (Occurrence (Marked Text)) :=
  (source.places fun _ => marked? ["SwiftEnum"] sealedHeader?).filter fun place =>
    !source.scopes.isUnterminatedHeader (place.stop - place.found.header.length)

/-- The declarations of a source in order, with the innermost type around each. -/
def members (source : Source) : List (Option Text × Declaration) :=
  source.owned source.sealedPlaces source.sumType? .sum ++
    source.owned (source.places fun _ => marked? ["SwiftAsync", "SwiftDefaults"] suspendHeader?)
      source.asyncFunction? .async ++
    (source.owned (source.places fun _ => marked? ["SwiftFlow"] anyFunctionHeader?)
        source.flowFunction? .stream ++
      source.owned (source.places fun _ => marked? ["SwiftFlow"] flowPropertyHeader?)
        source.flowProperty? .stream)

theorem map_members (text : Text) : (ofText text).members.map (·.2) = scan text := by
  simp only [members, List.map_append, map_owned, scan, sumTypes, asyncFunctions, streams,
    sealedPlaces]

theorem isWord_of_mem_places {source : Source} {names : List String}
    {header? : Text → Option (α × Text)} (name : α → Text)
    (named : ∀ {text header rest}, header? text = some (header, rest) → IsWord (name header))
    {place : Occurrence (Marked α)} (found : place ∈ source.places fun _ => marked? names header?) :
    IsWord (name place.found.header) := by
  obtain ⟨_, _, read⟩ := exists_of_mem_places found
  obtain ⟨_, read⟩ := exists_of_marked? read
  exact named read

section

variable {text : Text} {owner : Option Text} {declaration : Declaration}

private theorem identity_of_mem_owned {places : List (Occurrence α)}
    {read? : Occurrence α → Option β} {wrap : β → Declaration} (name : α → Text)
    (named : ∀ place ∈ places, IsWord (name place.found))
    (identified : ∀ {place found}, read? place = some found → (wrap found).identity =
      (ofText text).identity ((ofText text).scopes.containingType place.start) (name place.found))
    (found : (owner, declaration) ∈ (ofText text).owned places read? wrap) :
    IsWord declaration.identity.name ∧ (∀ type ∈ owner, IsWord type) ∧
      declaration.identity = (ofText text).identity owner declaration.identity.name := by
  obtain ⟨place, member, read⟩ := List.mem_filterMap.mp found
  obtain ⟨item, answered, same⟩ := Option.map_eq_some_iff.mp read
  cases same
  have identity := identified answered
  have same : (wrap item).identity.name = name place.found := congrArg Identity.name identity
  rw [same]
  exact ⟨named place member, fun type => isWord_of_owner, identity⟩

/-- A declaration is named by the package and by words. -/
theorem identity_of_mem_members (found : (owner, declaration) ∈ (ofText text).members) :
    IsWord declaration.identity.name ∧ (∀ type ∈ owner, IsWord type) ∧
      declaration.identity = (ofText text).identity owner declaration.identity.name := by
  rw [members, List.mem_append, List.mem_append, List.mem_append] at found
  rcases found with (found | found) | found | found
  · refine identity_of_mem_owned (·.header) (fun place member => ?_) toIdentity_sumType? found
    exact isWord_of_mem_places id isWord_of_sealedHeader? (List.mem_filter.mp member).1
  · refine identity_of_mem_owned (·.header.name) (fun place => ?_) toIdentity_asyncFunction? found
    exact isWord_of_mem_places FunctionHeader.name isWord_of_suspendHeader?
  · refine identity_of_mem_owned (·.header.2.name) (fun place => ?_) toIdentity_flowFunction? found
    exact isWord_of_mem_places (fun header : Bool × FunctionHeader => header.2.name)
      isWord_of_anyFunctionHeader?
  · refine identity_of_mem_owned (·.header) (fun place => ?_) toIdentity_flowProperty? found
    exact isWord_of_mem_places id isWord_of_flowPropertyHeader?

/-- The key of a declaration, without the package. -/
def site (member : Option Text × Declaration) : Kind × Option Text × Text :=
  (member.2.kind, member.1, member.2.identity.name)

theorem key_eq_iff {first second : Option Text × Declaration}
    (isFirst : first ∈ (ofText text).members) (isSecond : second ∈ (ofText text).members) :
    first.2.key = second.2.key ↔ site first = site second := by
  obtain ⟨named, owned, identity⟩ := identity_of_mem_members isFirst
  obtain ⟨otherNamed, otherOwned, otherIdentity⟩ := identity_of_mem_members isSecond
  rw [Declaration.key, Declaration.key, identity, otherIdentity,
    qualifiedName_identity _ named owned, qualifiedName_identity _ otherNamed otherOwned,
    Prod.mk.injEq, List.append_cancel_left_eq, localName_inj named owned otherNamed otherOwned,
    site, site, Prod.mk.injEq, Prod.mk.injEq]

end

end Source

/-! Loading a single source -/

theorem loadDeclarations_of_readText {tree : Tree} {path : Path} {text : Text}
    (read : readText tree path = .ok text) :
    (loadDeclarations tree [] [path]).2 = firstPerKey (scan text) := by
  have isFile : tree.isDirectory path = false ∧ tree.isFile path = true := by
    unfold readText Tree.read at read
    unfold Tree.isDirectory Tree.isFile
    cases found : tree.find path with
    | error fault => simp [found, Bind.bind, Except.bind] at read
    | ok entry => cases entry <;> simp_all [Bind.bind, Except.bind]
  have nothing : Manifest.decode [] = [] := by rfl
  simp [loadDeclarations, allKotlinFiles, scanFiles, saidAll, kotlinFiles, scanFile, isFile, read,
    nothing]

/-- Scanned declarations have distinct keys exactly when no two of one kind have the same name in
types of the same name. Otherwise making them unique loses some, also for a file on its own. -/
theorem nodup_key_scan_iff (text : Text) :
    (((scan text).map Declaration.key).Nodup ↔
        ((Source.ofText text).members.map Source.site).Nodup) ∧
      (firstPerKey (scan text) = scan text ↔
        ((Source.ofText text).members.map Source.site).Nodup) ∧
      ∀ tree path, readText tree path = .ok text →
        ((loadDeclarations tree [] [path]).2 = scan text ↔
          ((Source.ofText text).members.map Source.site).Nodup) := by
  have distinct : ((scan text).map Declaration.key).Nodup ↔
      ((Source.ofText text).members.map Source.site).Nodup := by
    rw [← Source.map_members, List.map_map]
    exact nodup_map_iff fun first isFirst second isSecond => Source.key_eq_iff isFirst isSecond
  have unique := firstPerKey_eq_self_iff.trans distinct
  refine ⟨distinct, unique, fun tree path read => ?_⟩
  rwa [loadDeclarations_of_readText read]

/-- Members of two types may have the same name. -/
theorem nodup_key_scan_members :
    let text := "class A \x7b\nsuspend fun f()\n\x7d\nobject B \x7b\nsuspend fun f()\n\x7d".toList
    let path : Path := ⟨[], ["AB.kt".toList]⟩
    let tree := Tree.ofEntries [] [(path, .file (encodeUtf8 text))]
    readText tree path = .ok text ∧ (loadDeclarations tree [] [path]).2 = scan text := by
  intro text path tree
  have read : readText tree path = .ok text := by decide +kernel
  have distinct : ((Source.ofText text).members.map Source.site).Nodup := by decide +kernel
  exact ⟨read, ((nodup_key_scan_iff text).2.2 tree path read).mpr distinct⟩

/-- Parameters do not count, so of two overloads one is lost. -/
theorem firstPerKey_scan_overloads :
    let text := "suspend fun f(a: Int)\nsuspend fun f(b: Long)".toList
    firstPerKey (scan text) ≠ scan text := by
  decide +kernel

end Kotlin
end DeclBridge
