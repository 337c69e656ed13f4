import ClockifyAssistant.Lib.JsonPointer
import ClockifyAssistant.Lib.KeyedJson
import ClockifyAssistant.Schema

/-!
What is hashed of an operation, and which operations have one hash input.
-/
namespace ClockifyAssistant

open Lib Lib.CodeUnits Lib.ObjectKeys Lib.JsonPointer

namespace OperationHash

abbrev Fields := List (CodeUnits × UnitJson)

/-- `object[name] = value`; under `__proto__` that sets the prototype, which JSON does not show. -/
def setField (object : Fields) (field : CodeUnits × UnitJson) : Fields :=
  if field.1 = protoName then object else assign field.1 field.2 object

def rebuilt (fields : Fields) : Fields := fields.foldl setField []

mutual

def sortValue : UnitJson → UnitJson
  | .null => .null
  | .bool value => .bool value
  | .num value => .num value
  | .str value => .str value
  | .arr items => .arr (sortItems items)
  | .obj fields => .obj (ownProperties (rebuilt (sortedByKey (sortFields fields))))

def sortItems : List UnitJson → List UnitJson
  | [] => []
  | item :: rest => sortValue item :: sortItems rest

def sortFields : Fields → Fields
  | [] => []
  | (name, value) :: rest => (name, sortValue value) :: sortFields rest

end

def canonicalJson (value : UnitJson) : CodeUnits := (sortValue value).stringify

mutual

/-- The value without what its objects hold under `__proto__`. -/
def withoutProto : UnitJson → UnitJson
  | .null => .null
  | .bool value => .bool value
  | .num value => .num value
  | .str value => .str value
  | .arr items => .arr (itemsWithoutProto items)
  | .obj fields => .obj (fieldsWithoutProto fields)

def itemsWithoutProto : List UnitJson → List UnitJson
  | [] => []
  | item :: rest => withoutProto item :: itemsWithoutProto rest

def fieldsWithoutProto : Fields → Fields
  | [] => []
  | (name, value) :: rest =>
      if name = protoName then fieldsWithoutProto rest
      else (name, withoutProto value) :: fieldsWithoutProto rest

end

section Canonical

variable {fields : Fields}

theorem assign_of_absent {name : CodeUnits} {value : UnitJson} (h : name ∉ fields.map Prod.fst) :
    assign name value fields = fields ++ [(name, value)] := by
  induction fields with
  | nil => rfl
  | cons field rest ih =>
    obtain ⟨hfield, hrest⟩ := not_or.mp (mt List.mem_cons.mpr h)
    rw [assign, if_neg (Ne.symm hfield), ih hrest, List.cons_append]

theorem foldl_setField {object : Fields} (h : ((object ++ fields).map Prod.fst).Nodup) :
    fields.foldl setField object = object ++ fields.filter (·.1 ≠ protoName) := by
  induction fields generalizing object with
  | nil => simp
  | cons field rest ih =>
    have hmoved : ((object ++ [field] ++ rest).map Prod.fst).Nodup := by
      rw [List.append_assoc]
      exact h
    rw [List.foldl_cons, setField]
    by_cases hproto : field.1 = protoName
    · have hrest : ((object ++ rest).map Prod.fst).Nodup := by
        refine h.sublist (List.Sublist.map _ ?_)
        exact (List.sublist_cons_self field rest).append_left object
      rw [if_pos hproto, ih hrest, List.filter_cons_of_neg (by simpa using hproto)]
    · have habsent : field.1 ∉ object.map Prod.fst := by
        intro hmem
        rw [List.map_append, List.map_cons] at h
        exact (List.nodup_append.mp h).2.2 _ hmem _ List.mem_cons_self rfl
      rw [if_neg hproto, assign_of_absent habsent, ih hmoved, List.append_assoc,
        List.filter_cons_of_pos (by simpa using hproto), List.singleton_append]

theorem rebuilt_eq (h : (fields.map Prod.fst).Nodup) :
    rebuilt fields = fields.filter (·.1 ≠ protoName) := by
  rw [rebuilt, foldl_setField (by simpa using h), List.nil_append]

theorem sortFields_eq_map (fields : Fields) :
    sortFields fields = fields.map (Prod.map id sortValue) := by
  induction fields with
  | nil => rfl
  | cons field rest ih => rw [sortFields, ih, List.map_cons]; rfl

theorem names_sortFields (fields : Fields) :
    (sortFields fields).map Prod.fst = fields.map Prod.fst := by
  rw [sortFields_eq_map, List.map_map]
  rfl

theorem names_withoutProto (fields : Fields) :
    ((fieldsWithoutProto fields).map Prod.fst).Sublist (fields.map Prod.fst) := by
  induction fields with
  | nil => exact List.Sublist.refl _
  | cons field rest ih =>
    obtain ⟨name, value⟩ := field
    rw [fieldsWithoutProto]
    split
    · exact ih.cons name
    · exact ih.cons_cons name

mutual

/-- Canonical text is that of the value without its prototypes, in the one order of its keys. -/
theorem sortValue_eq {value : UnitJson} (h : value.Keyed) :
    sortValue value = (withoutProto value).arranged listed := by
  cases value with
  | arr items =>
    rw [sortValue, withoutProto, UnitJson.arranged, sortItems_eq h.items]
  | obj fields =>
    have hnames : ((sortedByKey (sortFields fields)).map Prod.fst).Nodup :=
      ((sortedByKey_perm _).map _).nodup_iff.mpr ((names_sortFields fields).symm ▸ h.here)
    rw [sortValue, withoutProto, UnitJson.arranged, listed, rebuilt_eq hnames,
      filter_sortedByKey _ ((names_sortFields fields).symm ▸ h.here), filter_sortFields h.fields]
  | null => rfl
  | bool value => rfl
  | num value => rfl
  | str value => rfl

theorem sortItems_eq {items : List UnitJson} (h : ∀ item ∈ items, item.Keyed) :
    sortItems items = UnitJson.arrangedItems listed (itemsWithoutProto items) := by
  cases items with
  | nil => rfl
  | cons item rest =>
    obtain ⟨hitem, hrest⟩ := List.forall_mem_cons.mp h
    rw [sortItems, itemsWithoutProto, UnitJson.arrangedItems, sortValue_eq hitem,
      sortItems_eq hrest]

theorem filter_sortFields {fields : Fields} (h : ∀ field ∈ fields, field.2.Keyed) :
    (sortFields fields).filter (·.1 ≠ protoName) =
      UnitJson.arrangedFields listed (fieldsWithoutProto fields) := by
  cases fields with
  | nil => rfl
  | cons field rest =>
    obtain ⟨name, value⟩ := field
    obtain ⟨hvalue, hrest⟩ := List.forall_mem_cons.mp h
    rw [sortFields, fieldsWithoutProto]
    by_cases hproto : name = protoName
    · rw [if_pos hproto, List.filter_cons_of_neg (by simpa using hproto), filter_sortFields hrest]
    · rw [if_neg hproto, List.filter_cons_of_pos (by simpa using hproto), UnitJson.arrangedFields,
        sortValue_eq hvalue, filter_sortFields hrest]

end

mutual

theorem keyed_withoutProto {value : UnitJson} (h : value.Keyed) : (withoutProto value).Keyed := by
  cases value with
  | arr items =>
    rw [withoutProto]
    exact .arr (keyed_itemsWithoutProto h.items)
  | obj fields =>
    rw [withoutProto]
    exact .obj (h.here.sublist (names_withoutProto fields)) (keyed_fieldsWithoutProto h.fields)
  | null => exact .null
  | bool value => exact .bool value
  | num value => exact .num value
  | str value => exact .str value

theorem keyed_itemsWithoutProto {items : List UnitJson} (h : ∀ item ∈ items, item.Keyed) :
    ∀ item ∈ itemsWithoutProto items, item.Keyed := by
  cases items with
  | nil => exact nofun
  | cons item rest =>
    obtain ⟨hitem, hrest⟩ := List.forall_mem_cons.mp h
    rw [itemsWithoutProto, List.forall_mem_cons]
    exact ⟨keyed_withoutProto hitem, keyed_itemsWithoutProto hrest⟩

theorem keyed_fieldsWithoutProto {fields : Fields} (h : ∀ field ∈ fields, field.2.Keyed) :
    ∀ field ∈ fieldsWithoutProto fields, field.2.Keyed := by
  cases fields with
  | nil => exact nofun
  | cons field rest =>
    obtain ⟨name, value⟩ := field
    obtain ⟨hvalue, hrest⟩ := List.forall_mem_cons.mp h
    rw [fieldsWithoutProto]
    split
    · exact keyed_fieldsWithoutProto hrest
    · exact List.forall_mem_cons.mpr ⟨keyed_withoutProto hvalue, keyed_fieldsWithoutProto hrest⟩

end

end Canonical

section Tampering

/-- Documents have one hash input if and only if they are the same without their prototypes. -/
theorem canonicalJson_eq_iff (document other : JsonDocument) :
    canonicalJson document.value = canonicalJson other.value ↔
      SameJson (withoutProto document.value) (withoutProto other.value) := by
  rw [canonicalJson, canonicalJson, sortValue_eq document.keyed, sortValue_eq other.keyed]
  constructor
  · intro h
    exact UnitJson.sameJson_of_arranged_eq listed_perm (UnitJson.stringify_injective h)
  · intro h
    have hkeyed := keyed_withoutProto document.keyed
    rw [UnitJson.arranged_eq_of_sameJson (fun _ _ => listed_eq_of_perm) hkeyed h]

/-- The two values are not the same, but would be without what stands under `__proto__`. -/
def DifferInProtoOnly (value other : UnitJson) : Prop :=
  SameJson (withoutProto value) (withoutProto other) ∧ ¬ SameJson value other

theorem hashInput_tellsApart_iff (document other : JsonDocument) :
    (canonicalJson document.value = canonicalJson other.value →
        SameJson document.value other.value) ↔ ¬ DifferInProtoOnly document.value other.value := by
  rw [canonicalJson_eq_iff, DifferInProtoOnly, not_and_not_right]

/-- `{ "__proto__": { "id": "e" } }`, as `JSON.parse` reads it. -/
def hiddenField : JsonDocument where
  value := .obj [(protoName, .obj [(ofString "id", .str (ofString "e"))])]
  keyed := by
    refine .obj (List.nodup_singleton _) (List.forall_mem_singleton.mpr ?_)
    exact .obj (List.nodup_singleton _) (List.forall_mem_singleton.mpr (.str _))

def emptyObject : JsonDocument where
  value := .obj []
  keyed := .obj List.nodup_nil nofun

theorem hiddenField_unseen : ∃ document other : JsonDocument,
    canonicalJson document.value = canonicalJson other.value ∧
      ¬ SameJson document.value other.value := by
  refine ⟨hiddenField, emptyObject, by decide, fun h => ?_⟩
  cases h with
  | obj hmoved hsame =>
    cases hsame
    exact absurd hmoved.eq_nil (List.cons_ne_nil _ _)

end Tampering

end OperationHash

end ClockifyAssistant
