import DeclBridge.Swift.Type

/-! The Swift types that stand for Kotlin types. A type is taken apart into a null mark and a base,
and the arguments of a generic base are mapped one by one. -/

namespace DeclBridge.Swift

open Text

/-- The Swift form of a type that has no null mark. -/
def mapBase (name : Text) : SwiftType :=
  if voidNames.contains name then .void
  else
    match containerOf? name with
    | some (container, inner) =>
      mapGeneric (afterLast '.' container) ((Kotlin.splitTopLevel inner).map (mapType · false))
    | none => mapName name

theorem mapType_eq (type : Text) (isNullable : Bool) :
    mapType type isNullable =
      let (name, isMarked) := withoutNullMark type
      let base := mapBase name
      if (isNullable || isMarked) && !base.isVoid then .optional base else base := by
  rw [mapType]
  cases found : containerOf? (withoutNullMark type).1 with
  | none => simp [mapBase, found]
  | some generic => simp [mapBase, found]

/-! Types with a text -/

theorem SwiftType.render_eq {type : SwiftType} (renderable : type.defect? = none) :
    type.render = .ok type.text := by
  rw [render, renderable]

theorem defect?_mapName (name : Text) : (mapName name).defect? = none := by
  unfold mapName
  split
  · rfl
  · split <;> rfl

theorem defect?_mapGeneric (container : Text) {arguments : List SwiftType}
    (renderable : ∀ argument ∈ arguments, argument.defect? = none) :
    (mapGeneric container arguments).defect? = none := by
  unfold mapGeneric
  split
  · next element =>
    have inner := renderable element (by simp)
    split
    · exact inner
    · rfl
  · next key value =>
    have first := renderable key (by simp)
    have second := renderable value (by simp)
    split
    · simp [SwiftType.defect?, first, second]
    · rfl
  · rfl

/-- The Swift form of a Kotlin type always has a text. -/
theorem defect?_mapType (type : Text) (isNullable : Bool) :
    (mapType type isNullable).defect? = none := by
  have base : (mapBase (withoutNullMark type).1).defect? = none := by
    unfold mapBase
    split
    · rfl
    · cases found : containerOf? (withoutNullMark type).1 with
      | none => exact defect?_mapName _
      | some generic =>
        refine defect?_mapGeneric _ (List.forall_mem_map.mpr fun argument member => ?_)
        exact defect?_mapType argument false
  rw [mapType_eq]
  dsimp only
  split
  · exact base
  · exact base
termination_by type.length
decreasing_by
  have entry := Kotlin.length_le_of_mem_splitTopLevel member
  have inner := length_lt_of_containerOf? found
  have outer := length_withoutNullMark_le type
  omega

end DeclBridge.Swift
