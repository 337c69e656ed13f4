import ClockifyAssistant.Lib.CodeUnits
import Mathlib.Data.List.Sort

/-!
The own properties of a JavaScript object: reading and assigning one by its name, sorting the
names by their code units, and the order in which an object lists them, array indices first.
-/
namespace ClockifyAssistant.Lib

open CodeUnits

namespace ObjectKeys

variable {α β : Type}

/-- The fields of an object once `name` is assigned. -/
def assign (name : CodeUnits) (value : α) : List (CodeUnits × α) → List (CodeUnits × α)
  | [] => [(name, value)]
  | field :: rest =>
      if field.1 = name then (name, value) :: rest else field :: assign name value rest

def isDigit (u : UInt16) : Bool := 0x30 ≤ u.toNat && u.toNat ≤ 0x39

/-- `/^\d+$/` -/
def isNumeric (name : CodeUnits) : Bool := !name.isEmpty && name.all isDigit

def decimal (name : CodeUnits) : Nat := name.foldl (fun n u => 10 * n + (u.toNat - 0x30)) 0

/-- A name that is the printed form of an array index. -/
def isArrayIndex (name : CodeUnits) : Bool :=
  isNumeric name && (name.length == 1 || name.head? != some 0x30) &&
    decide (decimal name < 0xffffffff)

/-- `keys.sort()` -/
def sortedByKey (fields : List (CodeUnits × α)) : List (CodeUnits × α) :=
  fields.insertionSort fun field other => field.1 ≤ other.1

/-- The fields as the object lists them that they were assigned to in this order. -/
def ownProperties (fields : List (CodeUnits × α)) : List (CodeUnits × α) :=
  ((fields.filter fun field => isArrayIndex field.1).insertionSort
      fun field other => decimal field.1 ≤ decimal other.1) ++
    fields.filter fun field => !isArrayIndex field.1

variable {name : CodeUnits} {value : α} {fields : List (CodeUnits × α)} {field : CodeUnits × α}

@[simp] theorem mem_sortedByKey : field ∈ sortedByKey fields ↔ field ∈ fields :=
  List.mem_insertionSort _

@[simp] theorem mem_ownProperties : field ∈ ownProperties fields ↔ field ∈ fields := by
  simp only [ownProperties, List.mem_append, List.mem_insertionSort, List.mem_filter,
    Bool.not_eq_true']
  cases isArrayIndex field.1 <;> simp

theorem mem_assign (h : field ∈ assign name value fields) : field =
    (name, value) ∨ field ∈ fields := by
  induction fields with
  | nil => exact .inl (List.mem_singleton.mp h)
  | cons first rest ih =>
    unfold assign at h
    split at h
    · rcases List.mem_cons.mp h with hfield | hrest
      · exact .inl hfield
      · exact .inr (List.mem_cons_of_mem first hrest)
    · rcases List.mem_cons.mp h with hfield | hrest
      · exact .inr (hfield ▸ List.mem_cons_self)
      · exact (ih hrest).imp_right (List.mem_cons_of_mem first)

theorem lookup_cons_eq (field : CodeUnits × α) (fields : List (CodeUnits × α)) (name : CodeUnits) :
    (field :: fields).lookup name = if name = field.1 then some field.2 else fields.lookup name := by
  by_cases hname : name = field.1
  · rw [List.lookup_cons, if_pos hname, hname, BEq.rfl]
  · rw [List.lookup_cons, if_neg hname, beq_false_of_ne hname]

theorem lookup_eq_none {name : CodeUnits} {fields : List (CodeUnits × α)} :
    fields.lookup name = none ↔ name ∉ fields.map Prod.fst := by
  induction fields with
  | nil => simp
  | cons first rest ih =>
    rw [lookup_cons_eq, List.map_cons, List.mem_cons]
    by_cases hfirst : name = first.1
    · simp [hfirst]
    · rw [if_neg hfirst, ih]
      simp [hfirst]

theorem mem_of_lookup_eq_some (h : fields.lookup name = some value) : (name, value) ∈ fields := by
  induction fields with
  | nil => cases h
  | cons first rest ih =>
    rw [lookup_cons_eq] at h
    by_cases hname : name = first.1
    · rw [if_pos hname] at h
      cases h
      rw [hname]
      exact List.mem_cons_self
    · rw [if_neg hname] at h
      exact List.mem_cons_of_mem first (ih h)

theorem lookup_of_mem (hnames : (fields.map Prod.fst).Nodup) (h : (name, value) ∈ fields) :
    fields.lookup name = some value := by
  induction fields with
  | nil => cases h
  | cons first rest ih =>
    obtain ⟨hfirst, hrest⟩ := List.nodup_cons.mp hnames
    rw [lookup_cons_eq]
    rcases List.mem_cons.mp h with rfl | hmem
    · rw [if_pos rfl]
    · have hne : name ≠ first.1 := by
        rintro rfl
        exact hfirst (List.mem_map.mpr ⟨_, hmem, rfl⟩)
      rw [if_neg hne, ih hrest hmem]

theorem lookup_assign (name : CodeUnits) (value : α) (fields : List (CodeUnits × α))
    (other : CodeUnits) :
    (assign name value fields).lookup other =
      if other = name then some value else fields.lookup other := by
  induction fields with
  | nil => exact lookup_cons_eq (name, value) [] other
  | cons first rest ih =>
    unfold assign
    by_cases hfirst : first.1 = name
    · rw [if_pos hfirst, lookup_cons_eq, lookup_cons_eq, hfirst]
      by_cases hother : other = name
      · rw [if_pos hother, if_pos hother]
      · rw [if_neg hother, if_neg hother, if_neg hother]
    · rw [if_neg hfirst, lookup_cons_eq, lookup_cons_eq, ih]
      by_cases hother : other = name
      · have hne : other ≠ first.1 := fun h => hfirst (h.symm.trans hother)
        rw [if_neg hne, if_pos hother, if_pos hother]
      · rw [if_neg hother, if_neg hother]

theorem mem_names_assign {other : CodeUnits} : other ∈ (assign name value fields).map Prod.fst ↔
      other = name ∨ other ∈ fields.map Prod.fst := by
  induction fields with
  | nil => simp [assign]
  | cons first rest ih =>
    unfold assign
    by_cases hfirst : first.1 = name
    · rw [if_pos hfirst, List.map_cons, List.map_cons, List.mem_cons, List.mem_cons, hfirst]
      tauto
    · rw [if_neg hfirst, List.map_cons, List.map_cons, List.mem_cons, List.mem_cons, ih]
      tauto

section Sorting

variable {r : CodeUnits × α → CodeUnits × α → Prop} [DecidableRel r]

/-- Insertion stops before the first field that is not smaller, so before all of its name. -/
theorem lookup_orderedInsert (hr : ∀ field other, field.1 = other.1 → r field other)
    (field : CodeUnits × α) (fields : List (CodeUnits × α)) (name : CodeUnits) :
    (fields.orderedInsert r field).lookup name =
      if name = field.1 then some field.2 else fields.lookup name := by
  induction fields with
  | nil => exact lookup_cons_eq field [] name
  | cons first rest ih =>
    by_cases hless : r field first
    · rw [List.orderedInsert_cons_of_le r rest hless, lookup_cons_eq]
    · have hne : field.1 ≠ first.1 := fun h => hless (hr field first h)
      rw [List.orderedInsert_of_not_le r rest hless, lookup_cons_eq, lookup_cons_eq, ih]
      by_cases hname : name = first.1
      · rw [if_pos hname, if_pos hname, if_neg fun h => hne (h.symm.trans hname)]
      · rw [if_neg hname, if_neg hname]

theorem lookup_insertionSort (hr : ∀ field other, field.1 = other.1 → r field other)
    (fields : List (CodeUnits × α)) (name : CodeUnits) :
    (fields.insertionSort r).lookup name = fields.lookup name := by
  induction fields with
  | nil => rfl
  | cons first rest ih =>
    rw [List.insertionSort_cons, lookup_orderedInsert hr, ih, lookup_cons_eq]

end Sorting

theorem lookup_sortedByKey (fields : List (CodeUnits × α)) (name : CodeUnits) :
    (sortedByKey fields).lookup name = fields.lookup name := by
  refine lookup_insertionSort (fun field other h => ?_) fields name
  rw [h]
  exact List.le_refl _

theorem lookup_filter (p : CodeUnits → Bool) (fields : List (CodeUnits × α)) (name : CodeUnits) :
    (fields.filter fun field => p field.1).lookup name =
      if p name then fields.lookup name else none := by
  induction fields with
  | nil => simp
  | cons first rest ih =>
    rw [List.filter_cons]
    by_cases hfirst : p first.1 = true
    · rw [if_pos hfirst, lookup_cons_eq, lookup_cons_eq, ih]
      by_cases hname : name = first.1
      · rw [if_pos hname, if_pos hname, if_pos (hname ▸ hfirst)]
      · rw [if_neg hname, if_neg hname]
    · rw [if_neg hfirst, lookup_cons_eq, ih]
      by_cases hname : name = first.1
      · rw [hname, if_neg hfirst, if_neg hfirst]
      · rw [if_neg hname]

theorem lookup_ownProperties (fields : List (CodeUnits × α)) (name : CodeUnits) :
    (ownProperties fields).lookup name = fields.lookup name := by
  have hindices : ((fields.filter fun field => isArrayIndex field.1).insertionSort
      fun field other => decimal field.1 ≤ decimal other.1).lookup name =
        if isArrayIndex name then fields.lookup name else none := by
    rw [lookup_insertionSort (fun _ _ h => (congrArg decimal h).le), lookup_filter]
  rw [ownProperties, List.lookup_append, hindices, lookup_filter fun name => !isArrayIndex name]
  cases isArrayIndex name
  · rfl
  · cases fields.lookup name <;> rfl

end ObjectKeys

/-- A natural number as it prints. -/
def NumberText.ofNat (n : Nat) : NumberText where
  units := CodeUnits.ofNat n
  nonempty := by
    intro hnil
    have hempty := List.flatMap_eq_nil_iff.mp hnil
    obtain ⟨c, hc⟩ := List.exists_mem_of_ne_nil _ (Nat.toDigits_ne_nil (n := n) (b := 10))
    have hunits := hempty c hc
    unfold CodeUnits.ofChar at hunits
    split at hunits
    · exact absurd hunits (List.cons_ne_nil _ _)
    · exact absurd hunits (List.cons_ne_nil _ _)
  printed := by
    intro u hu
    obtain ⟨c, hc, hu⟩ := List.mem_flatMap.mp hu
    have hdigit := Nat.isDigit_of_mem_toDigits (by decide) (by decide) hc
    simp only [Char.isDigit, Bool.and_eq_true, decide_eq_true_eq, ge_iff_le, UInt32.le_iff_toNat_le,
      Char.toNat_val] at hdigit
    have hlow : 48 ≤ c.toNat := hdigit.1
    have hhigh : c.toNat ≤ 57 := hdigit.2
    rw [CodeUnits.ofChar, if_pos (by omega), List.mem_singleton] at hu
    have hvalue : u.toNat = c.toNat := by
      rw [hu, UInt16.toNat_ofNat']
      omega
    simp only [isNumberUnit, hvalue, Bool.or_eq_true, Bool.and_eq_true, decide_eq_true_eq]
    omega

end ClockifyAssistant.Lib
