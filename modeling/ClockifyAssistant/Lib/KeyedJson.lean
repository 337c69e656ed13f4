import ClockifyAssistant.Lib.ObjectKeys
import ClockifyAssistant.Lib.ReadJson

/-!
JSON documents, whose objects list each name once, and the one arrangement of their keys that
all documents share which are the same up to the order of keys.
-/
namespace ClockifyAssistant.Lib

open CodeUnits ObjectKeys

namespace UnitJson

/-- Every object inside of the value, the value included, has fields as the property says. -/
inductive Throughout (p : List (CodeUnits × UnitJson) → Prop) : UnitJson → Prop
  | null : Throughout p .null
  | bool (value : Bool) : Throughout p (.bool value)
  | num (value : NumberText) : Throughout p (.num value)
  | str (value : CodeUnits) : Throughout p (.str value)
  | arr {items : List UnitJson} : (∀ item ∈ items, Throughout p item) → Throughout p (.arr items)
  | obj {fields : List (CodeUnits × UnitJson)} :
      p fields → (∀ field ∈ fields, Throughout p field.2) → Throughout p (.obj fields)

namespace Throughout

variable {p : List (CodeUnits × UnitJson) → Prop} {list : List UnitJson}
  {record : List (CodeUnits × UnitJson)}

theorem items (h : Throughout p (.arr list)) : ∀ item ∈ list, Throughout p item := by
  cases h with
  | arr h => exact h

theorem here (h : Throughout p (.obj record)) : p record := by
  cases h with
  | obj hfields h => exact hfields

theorem fields (h : Throughout p (.obj record)) : ∀ field ∈ record, Throughout p field.2 := by
  cases h with
  | obj hfields h => exact h

end Throughout

/-- No object inside of the value lists a name twice. -/
abbrev Keyed : UnitJson → Prop := Throughout fun fields => (fields.map Prod.fst).Nodup

section Arranged

variable (arrange : List (CodeUnits × UnitJson) → List (CodeUnits × UnitJson))

mutual

/-- The value with the keys of every object arranged. -/
def arranged : UnitJson → UnitJson
  | .null => .null
  | .bool value => .bool value
  | .num value => .num value
  | .str value => .str value
  | .arr items => .arr (arrangedItems items)
  | .obj fields => .obj (arrange (arrangedFields fields))

def arrangedItems : List UnitJson → List UnitJson
  | [] => []
  | item :: rest => arranged item :: arrangedItems rest

def arrangedFields : List (CodeUnits × UnitJson) → List (CodeUnits × UnitJson)
  | [] => []
  | (name, value) :: rest => (name, arranged value) :: arrangedFields rest

end

theorem arrangedItems_eq_map (items : List UnitJson) :
    arrangedItems arrange items = items.map (arranged arrange) := by
  induction items with
  | nil => rfl
  | cons item rest ih => rw [arrangedItems, ih, List.map_cons]

theorem arrangedFields_eq_map (fields : List (CodeUnits × UnitJson)) :
    arrangedFields arrange fields = fields.map (Prod.map id (arranged arrange)) := by
  induction fields with
  | nil => rfl
  | cons field rest ih => rw [arrangedFields, ih, List.map_cons]; rfl

variable {arrange}

/-- An arrangement forgets nothing but the order of the keys. -/
theorem sameJson_of_arranged_eq (hperm : ∀ fields, (arrange fields).Perm fields) {v w : UnitJson}
    (h : arranged arrange v = arranged arrange w) : SameJson v w := by
  induction v using induct generalizing w with
  | null =>
    cases w <;> simp only [arranged, reduceCtorEq] at h
    exact .null
  | bool value =>
    cases w <;> simp only [arranged, reduceCtorEq, bool.injEq] at h
    subst h
    exact .bool value
  | num value =>
    cases w <;> simp only [arranged, reduceCtorEq, num.injEq] at h
    subst h
    exact .num value
  | str value =>
    cases w <;> simp only [arranged, reduceCtorEq, str.injEq] at h
    subst h
    exact .str value
  | arr items ih =>
    cases w <;> simp only [arranged, reduceCtorEq, arr.injEq] at h
    rename_i others
    rw [arrangedItems_eq_map, arrangedItems_eq_map] at h
    have himages := List.forall₂_map_left_iff.mp (List.forall₂_map_right_iff.mp
      (List.forall₂_eq_eq_eq ▸ h))
    refine .arr (List.Forall₂.imp ?_ ((List.forall₂_and_left _ _).mpr ⟨ih, himages⟩))
    rintro item other ⟨hitem, himage⟩
    exact hitem himage
  | obj fields ih =>
    cases w <;> simp only [arranged, reduceCtorEq, obj.injEq] at h
    rename_i others
    rw [arrangedFields_eq_map, arrangedFields_eq_map] at h
    have himages := ((hperm _).symm.trans (.of_eq h)).trans (hperm _)
    obtain ⟨moved, hmoved, himages⟩ := forall₂_of_map_perm himages
    have hfields : ∀ field ∈ moved, ∀ {w}, arranged arrange field.2 = arranged arrange w →
        SameJson field.2 w := fun field hfield => ih field (hmoved.mem_iff.mpr hfield)
    refine .obj hmoved (List.Forall₂.imp ?_ ((List.forall₂_and_left _ _).mpr ⟨hfields, himages⟩))
    rintro ⟨name, value⟩ ⟨name', value'⟩ ⟨hvalue, himage⟩
    obtain ⟨hname, harranged⟩ := Prod.mk.inj himage
    obtain rfl : name = name' := hname
    exact .mk (hvalue harranged)

theorem sorted_eq_arranged (localeCompare : CodeUnits → CodeUnits → Int) (value : UnitJson) :
    sorted localeCompare value = arranged (sortedEntries localeCompare) value := by
  induction value using induct with
  | null => rfl
  | bool value => rfl
  | num value => rfl
  | str value => rfl
  | arr items ih =>
    rw [sorted, arranged, sortedItems_eq_map, arrangedItems_eq_map, List.map_congr_left ih]
  | obj fields ih =>
    rw [sorted, arranged, sortedFields_eq_map, arrangedFields_eq_map]
    congr 2
    exact List.map_congr_left fun field hfield => Prod.ext rfl (ih field hfield)

/-- Sorting forgets nothing but the order of the keys, whatever it compares by. -/
theorem sameJson_of_sorted_eq (localeCompare : CodeUnits → CodeUnits → Int) {v w : UnitJson}
    (h : sorted localeCompare v = sorted localeCompare w) : SameJson v w := by
  rw [sorted_eq_arranged, sorted_eq_arranged] at h
  exact sameJson_of_arranged_eq (sortedEntries_perm localeCompare) h

theorem names_arranged (fields : List (CodeUnits × UnitJson)) :
    (fields.map (Prod.map id (arranged arrange))).map Prod.fst = fields.map Prod.fst := by
  rw [List.map_map]
  rfl

/-- Where the arrangement depends on the fields alone, it brings the same values together. -/
theorem arranged_eq_of_sameJson (harrange : ∀ fields others : List (CodeUnits × UnitJson),
      fields.Perm others → (fields.map Prod.fst).Nodup → arrange fields = arrange others)
    {v w : UnitJson} (hv : v.Keyed) (h : SameJson v w) : arranged arrange v = arranged arrange w := by
  induction v using induct generalizing w with
  | null =>
    cases h
    rfl
  | bool value =>
    cases h
    rfl
  | num value =>
    cases h
    rfl
  | str value =>
    cases h
    rfl
  | arr items ih =>
    cases h with
    | @arr _ others hsame =>
      have hitems := (List.forall₂_and_left _ _).mpr ⟨fun item hitem =>
        And.intro (fun {w} => ih item hitem (w := w)) (hv.items item hitem), hsame⟩
      rw [arranged, arranged, arrangedItems_eq_map, arrangedItems_eq_map]
      congr 1
      refine List.forall₂_eq_eq_eq ▸ List.forall₂_map_left_iff.mpr
        (List.forall₂_map_right_iff.mpr (hitems.imp ?_))
      rintro item other ⟨⟨hitem, hkeyed⟩, hother⟩
      exact hitem hkeyed hother
  | obj fields ih =>
    cases h with
    | @obj _ moved others hmoved hsame =>
      have hfields := (List.forall₂_and_left _ _).mpr ⟨fun field hfield =>
        And.intro (fun {w} => ih field (hmoved.mem_iff.mpr hfield) (w := w))
          (hv.fields field (hmoved.mem_iff.mpr hfield)), hsame⟩
      have himages : moved.map (Prod.map id (arranged arrange)) =
          others.map (Prod.map id (arranged arrange)) := by
        refine List.forall₂_eq_eq_eq ▸ List.forall₂_map_left_iff.mpr
          (List.forall₂_map_right_iff.mpr (hfields.imp ?_))
        rintro field other ⟨⟨hfield, hkeyed⟩, hother⟩
        cases hother with
        | mk hvalue => exact Prod.ext rfl (hfield hkeyed hvalue)
      rw [arranged, arranged, arrangedFields_eq_map, arrangedFields_eq_map, ← himages]
      congr 1
      exact harrange _ _ (hmoved.map _) ((names_arranged fields).symm ▸ hv.here)

end Arranged

end UnitJson

/-- A JSON document as a program holds it. -/
structure JsonDocument where
  value : UnitJson
  keyed : value.Keyed

namespace ObjectKeys

variable {α : Type}

theorem sortedByKey_perm (fields : List (CodeUnits × α)) : (sortedByKey fields).Perm fields :=
  List.perm_insertionSort _ _

theorem ownProperties_perm (fields : List (CodeUnits × α)) :
    (ownProperties fields).Perm fields := by
  have hsplit := List.filter_append_perm (fun field => isArrayIndex field.1) fields
  exact ((List.perm_insertionSort _ _).append_right _).trans hsplit

/-- The keys of an object whose names were assigned in their order. -/
def listed (fields : List (CodeUnits × α)) : List (CodeUnits × α) := ownProperties (sortedByKey fields)

theorem listed_perm (fields : List (CodeUnits × α)) : (listed fields).Perm fields :=
  (ownProperties_perm _).trans (sortedByKey_perm _)

theorem sortedByKey_sorted (fields : List (CodeUnits × α)) :
    (sortedByKey fields).Pairwise fun field other => field.1 ≤ other.1 :=
  List.pairwise_insertionSort (fun field other : CodeUnits × α => field.1 ≤ other.1) fields

variable {fields others : List (CodeUnits × α)}

/-- The order of names leaves no choice where no name is listed twice. -/
theorem eq_sortedByKey
    (hsorted : fields.Pairwise fun field other => field.1 ≤ other.1) (hperm : fields.Perm others)
    (hnames : (fields.map Prod.fst).Nodup) : fields = sortedByKey others := by
  have hsame := hperm.trans (sortedByKey_perm others).symm
  refine hsame.eq_of_pairwise ?_ hsorted (sortedByKey_sorted others)
  intro field other hfield hother hless hgreater
  have hname : field.1 = other.1 := List.le_antisymm hless hgreater
  exact List.inj_on_of_nodup_map hnames hfield (hsame.mem_iff.mpr hother) hname

theorem sortedByKey_eq_of_perm (hperm : fields.Perm others)
    (hnames : (fields.map Prod.fst).Nodup) : sortedByKey fields = sortedByKey others :=
  eq_sortedByKey (sortedByKey_sorted fields) ((sortedByKey_perm fields).trans hperm)
    (((sortedByKey_perm fields).map _).nodup_iff.mpr hnames)

theorem listed_eq_of_perm (hperm : fields.Perm others)
    (hnames : (fields.map Prod.fst).Nodup) : listed fields = listed others := by
  rw [listed, listed, sortedByKey_eq_of_perm hperm hnames]

theorem listed_listed {fields : List (CodeUnits × α)} (hnames : (fields.map Prod.fst).Nodup) :
    listed (listed fields) = listed fields :=
  listed_eq_of_perm (listed_perm fields) (((listed_perm fields).map _).nodup_iff.mpr hnames)

theorem filter_sortedByKey (p : CodeUnits × α → Bool) {fields : List (CodeUnits × α)}
    (hnames : (fields.map Prod.fst).Nodup) :
    (sortedByKey fields).filter p = sortedByKey (fields.filter p) := by
  refine eq_sortedByKey ((sortedByKey_sorted fields).filter p)
    ((sortedByKey_perm fields).filter p) ?_
  refine List.Nodup.sublist (List.filter_sublist.map _) ?_
  exact ((sortedByKey_perm fields).map _).nodup_iff.mpr hnames

end ObjectKeys

end ClockifyAssistant.Lib
