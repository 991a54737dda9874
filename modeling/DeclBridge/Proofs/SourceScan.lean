import DeclBridge.Proofs.SourceScopes

/-! Scanning a source finds exactly the declarations that it is made of. -/

namespace DeclBridge.Kotlin.Syntax

open Text

/-- What the scanner works on. -/
def File.source (file : File) : Source :=
  { text := file.text
    masked := maskedText file.blocks
    package := file.package.elim [] (·.text)
    scopes := ⟨file.members.scopes file.front, []⟩ }

theorem ofText_text (file : File) : Source.ofText file.text = file.source := by
  have stripped : stripComments file.text = file.text := stripComments_printAll file.blocks
  have masked : maskLiterals file.text = maskedText file.blocks :=
    maskLiterals_printAll file.blocks
  rw [Source.ofText, stripped, masked, packageName_file, scopes_file]
  rfl

/-- No class is left open, so no place is left out. -/
theorem places_source {words : List String} {read : Text → Option (α × Text)}
    {found? : Function → Option α} (finds : FindsFunctions words read found?) (file : File) :
    file.source.places (fun _ => read) =
      file.sites.filterMap fun site => (found? site.member).map site.place := by
  rw [Source.places, ← finds.occurrences_file file]
  exact List.filter_eq_self.mpr fun place _ => rfl

/-! Results -/

/-- What stands behind the header of a function. -/
def braces : Text :=
  [' ', '{', '\n', '}', '\n']

theorem Function.inside_body (function : Function) (rest : Text) :
    Bracket.round.inside (function.body ++ rest) =
      some (function.printParameters Literal.masked,
        function.outcome.returned ++ braces ++ rest) := by
  have closed := function.balanced_printParameters.inside .round
    (function.outcome.returned ++ braces ++ rest)
  rw [← closed, Function.body, Function.tail]
  simp [braces, Bracket.closer]

theorem afterColon?_append {text : Text} (ink : ∀ c ∈ text.head?, isBlank c = false) :
    afterColon? (": ".toList ++ text) = some text := by
  have behind : skipBlanks (' ' :: text) = text := skipBlanks_eq_self_iff.mpr ink
  have step : afterColon? (": ".toList ++ text) = some (skipBlanks (' ' :: text)) := rfl
  rw [step, behind]

/-- A declared result is read up to the brace. -/
theorem readType?_returned (result : Option TypeRef) (rest : Text) :
    ((afterColon? ((Outcome.suspending result).returned ++ braces ++ rest)).bind readType?).map
      (fun (type, _) => collapse type) = result.map (·.text) := by
  cases result with
  | none => rfl
  | some type =>
    have ends : EndsType (braces ++ rest) := by
      rintro _ ⟨⟩
      decide
    have colon := afterColon?_append (type.head_ink (braces ++ rest))
    rw [Outcome.returned_suspending, List.append_assoc, List.append_assoc, colon, Option.bind_some,
      type.readType?_text ends, Option.map_some, Option.map_some]
    exact congrArg some type.spelling.spaced.collapse_eq

/-- The element type is read up to the bracket. -/
theorem elementType?_returned (element : TypeRef) (rest : Text) :
    (afterFlowReturn? ((Outcome.flow element).returned ++ rest)).bind Source.elementType? =
      some element.text := by
  let within := element.text ++ '>' :: rest
  have ink : ∀ c ∈ ("Flow".toList ++ '<' :: within).head?, isBlank c = false := by
    rintro _ ⟨⟩
    decide
  have whole : (Outcome.flow element).returned ++ rest =
      ": ".toList ++ ("Flow".toList ++ '<' :: within) := by
    rw [Outcome.returned_flow, List.append_assoc, List.append_assoc]
    rfl
  have name : dotted? ("Flow".toList ++ '<' :: within) = some ("Flow".toList, '<' :: within) := by
    refine run?_append (by decide) (by decide) ?_
    rintro _ ⟨⟩
    decide
  have mark : mark? '<' ('<' :: within) = some within := rfl
  have flow : flowTypes.contains (afterLast '.' "Flow".toList) = true := by decide
  have read : afterFlowReturn? ((Outcome.flow element).returned ++ rest) = some within := by
    rw [whole, afterFlowReturn?, afterColon?_append ink]
    simp only [Option.bind_eq_bind, Option.bind_some, afterFlowType?, name, flow, if_true, mark]
  rw [read]
  exact element.elementType?_text rest

/-! A function at its place -/

theorem identity_source (file : File) (owner : Option Identifier) (name : Identifier) :
    file.source.identity (owner.map (·.text)) name.text = identity file.package owner name := by
  have named (name : Identifier) : (!name.text.isEmpty) = true := by
    simp [name.word.nonempty]
  have package (path : Path) : (!path.text.isEmpty) = true := by
    simp [(spelling_path path).ne_nil]
  have parts : [file.package.elim [] (·.text), (owner.map (·.text)).getD [], name.text].filter
      (!·.isEmpty) =
        file.package.toList.map (·.text) ++ owner.toList.map (·.text) ++ [name.text] := by
    cases file.package <;> cases owner <;> simp [named, package]
  rw [Source.identity, identity]
  simp only [File.source, parts]

section

variable {file : File} {site : Site} (member : site ∈ file.sites)
include member

theorem slice_source :
    file.source.slice site.stop (site.member.printParameters Literal.masked).length =
      site.member.printParameters (·.text) := by
  have blocks := Forest.blocks_of_mem_sites member
  rw [List.append_nil] at blocks
  have whole : file.text = (printAll (·.text) site.front ++ site.member.lead) ++
      (site.member.printParameters (·.text) ++
        (site.member.tail ++ printAll (·.text) site.after)) := by
    rw [File.text, File.blocks, blocks, printAll_append, printAll_cons, Block.print_function,
      Function.print]
    simp only [List.append_assoc]
  have stop : site.stop = (printAll (·.text) site.front ++ site.member.lead).length := by
    rw [Site.stop, Site.start, extent_eq, List.length_append]
  rw [Source.slice, File.source, whole, stop, List.drop_left,
    site.member.length_printParameters_masked, List.take_left]

theorem containingType_source :
    file.source.scopes.containingType site.start = site.owner.map (·.text) := by
  have found := containingType_site member
  rwa [scopes_file] at found

theorem asyncFunction?_site {result : Option TypeRef}
    (outcome : site.member.outcome = .suspending result) :
    file.source.asyncFunction? (site.place ⟨0, site.member.header⟩) =
      site.member.async? file.package site.owner := by
  have marker : file.source.markerText (site.place ⟨0, site.member.header⟩) = [] :=
    rfl
  have closed := site.member.inside_body (maskedText site.after)
  have returned := readType?_returned result (maskedText site.after)
  have identity := identity_source file site.owner site.member.name
  rw [Source.asyncFunction?, marker]
  simp only [Site.place, closed, outcome, returned, containingType_source member,
    slice_source member, site.member.readParameters_print, Function.async?, Function.header,
    identity, Option.bind_eq_bind, Option.bind_some]
  cases result <;> rfl

theorem flowFunction?_site :
    file.source.flowFunction?
        (site.place ⟨0, site.member.outcome.isSuspending, site.member.header⟩) =
      site.member.stream? file.package site.owner := by
  have closed := site.member.inside_body (maskedText site.after)
  have identity := identity_source file site.owner site.member.name
  rw [Source.flowFunction?]
  cases outcome : site.member.outcome with
  | suspending result =>
    simp only [Site.place, Outcome.isSuspending, Function.stream?, outcome]
    rfl
  | flow element =>
    have read := elementType?_returned element (braces ++ maskedText site.after)
    obtain ⟨behind, flow, element⟩ := Option.bind_eq_some_iff.mp read
    simp only [Site.place, closed, outcome, List.append_assoc, flow, element, Outcome.isSuspending,
      containingType_source member, slice_source member, site.member.readParameters_print,
      Function.stream?, Function.header, identity, Option.bind_eq_bind, Option.bind_some]
    rfl

end

theorem functions_sites (file : File) :
    file.members.functions none = file.sites.map fun site => (site.owner, site.member) :=
  (file.members.sites_functions file.front [] none).symm

theorem asyncFunctions_source (file : File) :
    file.source.asyncFunctions =
      (file.members.functions none).filterMap fun (owner, member) =>
        member.async? file.package owner := by
  rw [Source.asyncFunctions, places_source (finds_suspend _), functions_sites, List.filterMap_map,
    List.filterMap_filterMap]
  refine List.filterMap_congr fun site member => ?_
  cases outcome : site.member.outcome with
  | suspending result => exact asyncFunction?_site member outcome
  | flow element => simp [Outcome.isSuspending, Function.async?, outcome]

theorem streams_source (file : File) :
    file.source.streams =
      (file.members.functions none).filterMap fun (owner, member) =>
        member.stream? file.package owner := by
  have properties :
      file.source.places (fun _ => marked? ["SwiftFlow"] flowPropertyHeader?) = [] := by
    rw [places_source (finds_flowProperty _)]
    simp
  rw [Source.streams, properties, places_source (finds_anyFunction _), functions_sites,
    List.filterMap_map, List.filterMap_filterMap]
  refine (List.append_nil _).trans (List.filterMap_congr fun site member => ?_)
  exact flowFunction?_site member

/-- The scanner recovers exactly what a file declares. -/
theorem scan_text (file : File) : Kotlin.scan file.text = file.declarations := by
  have sumTypes : file.source.sumTypes = [] := by
    rw [Source.sumTypes, places_source (finds_sealed _)]
    simp
  rw [scan, ofText_text]
  simp only [sumTypes, asyncFunctions_source, streams_source]
  rfl

/-- A class with one member, as it is printed. -/
example :
    let name : Identifier := ⟨"Cache".toList, by decide, by decide⟩
    let member : Function := ⟨⟨"clear".toList, by decide, by decide⟩, [], .suspending none⟩
    (File.mk none (.type name (.function member .nil) .nil)).text =
      "class Cache \x7b\nsuspend fun clear() \x7b\n\x7d\n\x7d\n".toList := by
  decide

end DeclBridge.Kotlin.Syntax
