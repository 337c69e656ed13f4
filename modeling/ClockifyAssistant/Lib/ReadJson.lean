import ClockifyAssistant.Lib.CodeUnits
import Mathlib.Data.List.Perm.Basic
import Mathlib.Data.List.Sort

/-!
What `JSON.parse` reads, and values that differ in the order of their keys only. A number
too large for a double is read as an infinity, which no JSON text shows again.
-/
namespace ClockifyAssistant.Lib

inductive ReadNumber
  | finite (text : NumberText)
  | infinite (negative : Bool)

inductive ReadJson
  | null
  | bool (value : Bool)
  | num (value : ReadNumber)
  | str (value : CodeUnits)
  | arr (items : List ReadJson)
  | obj (fields : List (CodeUnits × ReadJson))

namespace ReadJson

mutual

/-- The value as `JSON.stringify` shows it. -/
def shown : ReadJson → UnitJson
  | .null => .null
  | .bool value => .bool value
  | .num (.finite text) => .num text
  | .num (.infinite _) => .null
  | .str value => .str value
  | .arr items => .arr (shownItems items)
  | .obj fields => .obj (shownFields fields)

def shownItems : List ReadJson → List UnitJson
  | [] => []
  | item :: rest => shown item :: shownItems rest

def shownFields : List (CodeUnits × ReadJson) → List (CodeUnits × UnitJson)
  | [] => []
  | (name, value) :: rest => (name, shown value) :: shownFields rest

end

mutual

/-- No infinity is inside of the value. -/
def isFinite : ReadJson → Bool
  | .num (.infinite _) => false
  | .arr items => itemsFinite items
  | .obj fields => fieldsFinite fields
  | .null | .bool _ | .num (.finite _) | .str _ => true

def itemsFinite : List ReadJson → Bool
  | [] => true
  | item :: rest => isFinite item && itemsFinite rest

def fieldsFinite : List (CodeUnits × ReadJson) → Bool
  | [] => true
  | (_, value) :: rest => isFinite value && fieldsFinite rest

end

mutual

/-- The value that is read from its JSON text. -/
def reread : UnitJson → ReadJson
  | .null => .null
  | .bool value => .bool value
  | .num text => .num (.finite text)
  | .str value => .str value
  | .arr items => .arr (rereadItems items)
  | .obj fields => .obj (rereadFields fields)

def rereadItems : List UnitJson → List ReadJson
  | [] => []
  | item :: rest => reread item :: rereadItems rest

def rereadFields : List (CodeUnits × UnitJson) → List (CodeUnits × ReadJson)
  | [] => []
  | (name, value) :: rest => (name, reread value) :: rereadFields rest

end

mutual

theorem reread_shown {value : ReadJson} (h : value.isFinite = true) :
    reread value.shown = value := by
  cases value with
  | num number =>
    cases number with
    | finite text => rfl
    | infinite negative => cases h
  | arr items =>
    rw [shown, reread, rereadItems_shown h]
  | obj fields =>
    rw [shown, reread, rereadFields_shown h]
  | null => rfl
  | bool value => rfl
  | str value => rfl

theorem rereadItems_shown {items : List ReadJson} (h : itemsFinite items = true) :
    rereadItems (shownItems items) = items := by
  cases items with
  | nil => rfl
  | cons item rest =>
    obtain ⟨hitem, hrest⟩ := Bool.and_eq_true_iff.mp h
    rw [shownItems, rereadItems, reread_shown hitem, rereadItems_shown hrest]

theorem rereadFields_shown {fields : List (CodeUnits × ReadJson)} (h : fieldsFinite fields = true) :
    rereadFields (shownFields fields) = fields := by
  cases fields with
  | nil => rfl
  | cons field rest =>
    obtain ⟨name, value⟩ := field
    obtain ⟨hvalue, hrest⟩ := Bool.and_eq_true_iff.mp h
    rw [shownFields, rereadFields, reread_shown hvalue, rereadFields_shown hrest]

end

end ReadJson

mutual

/-- Equal JSON values, up to the order in which objects list their keys. -/
inductive SameJson : UnitJson → UnitJson → Prop
  | null : SameJson .null .null
  | bool (value : Bool) : SameJson (.bool value) (.bool value)
  | num (value : NumberText) : SameJson (.num value) (.num value)
  | str (value : CodeUnits) : SameJson (.str value) (.str value)
  | arr {items others : List UnitJson} :
      List.Forall₂ SameJson items others → SameJson (.arr items) (.arr others)
  | obj {fields moved others : List (CodeUnits × UnitJson)} :
      fields.Perm moved → List.Forall₂ SameField moved others → SameJson (.obj fields) (.obj others)

inductive SameField : CodeUnits × UnitJson → CodeUnits × UnitJson → Prop
  | mk {name : CodeUnits} {value other : UnitJson} :
      SameJson value other → SameField (name, value) (name, other)

end

namespace UnitJson

open CodeUnits

section Sorted

variable {α : Type} (localeCompare : CodeUnits → CodeUnits → Int)

/-- `entries.sort(([left], [right]) => left.localeCompare(right))` -/
def sortedEntries (entries : List (CodeUnits × α)) : List (CodeUnits × α) :=
  entries.insertionSort fun left right => localeCompare left.1 right.1 ≤ 0

theorem sortedEntries_map {β : Type} (f : α → β) (entries : List (CodeUnits × α)) :
    (sortedEntries localeCompare entries).map (Prod.map id f) =
      sortedEntries localeCompare (entries.map (Prod.map id f)) :=
  List.map_insertionSort _ _ _ _ fun _ _ _ _ => Iff.rfl

theorem sortedEntries_perm (entries : List (CodeUnits × α)) :
    (sortedEntries localeCompare entries).Perm entries := List.perm_insertionSort _ _

mutual

/-- The value with the keys of every object sorted. -/
def sorted : UnitJson → UnitJson
  | .null => .null
  | .bool value => .bool value
  | .num value => .num value
  | .str value => .str value
  | .arr items => .arr (sortedItems items)
  | .obj fields => .obj (sortedEntries localeCompare (sortedFields fields))

def sortedItems : List UnitJson → List UnitJson
  | [] => []
  | item :: rest => sorted item :: sortedItems rest

def sortedFields : List (CodeUnits × UnitJson) → List (CodeUnits × UnitJson)
  | [] => []
  | (name, value) :: rest => (name, sorted value) :: sortedFields rest

end

theorem sortedItems_eq_map (items : List UnitJson) :
    sortedItems localeCompare items = items.map (sorted localeCompare) := by
  induction items with
  | nil => rfl
  | cons item rest ih => rw [sortedItems, ih, List.map_cons]

theorem sortedFields_eq_map (fields : List (CodeUnits × UnitJson)) :
    sortedFields localeCompare fields = fields.map (Prod.map id (sorted localeCompare)) := by
  induction fields with
  | nil => rfl
  | cons field rest ih => rw [sortedFields, ih, List.map_cons]; rfl

/-- Lists whose images are permuted agree, up to a permutation, image by image. -/
theorem forall₂_of_map_perm {β γ : Type} {f : β → γ} {xs ys : List β}
    (h : (xs.map f).Perm (ys.map f)) :
    ∃ moved, xs.Perm moved ∧ List.Forall₂ (fun x y => f x = f y) moved ys := by
  have hxs : List.Forall₂ (fun x c => f x = c) xs (xs.map f) := by
    rw [List.forall₂_map_right_iff]
    exact List.forall₂_same.mpr fun _ _ => rfl
  have hmoved : Relation.Comp List.Perm (List.Forall₂ fun x c => f x = c) xs (ys.map f) := by
    rw [← List.forall₂_comp_perm_eq_perm_comp_forall₂]
    exact ⟨xs.map f, hxs, h⟩
  obtain ⟨moved, hperm, hys⟩ := hmoved
  exact ⟨moved, hperm, List.forall₂_map_right_iff.mp hys⟩

end Sorted

section Separated

theorem zero_notMem_escapedUnit (u : UInt16) : 0 ∉ escapedUnit u := by
  unfold escapedUnit
  split <;> try decide
  rename_i n _ _ _ _ _ _ _
  by_cases hescape : (u.toNat < 0x20 || isLead u || isTrail u) = true
  · rw [if_pos hescape]
    have hdigit : ∀ n < 16, (0 : UInt16) ≠ hexDigit n := by
      intro n hn
      interval_cases n <;> decide
    have hu := u.toNat_lt
    simp only [unicodeEscape, List.mem_cons, List.not_mem_nil, or_false, not_or]
    refine ⟨by decide, by decide, ?_, ?_, ?_, ?_⟩
    all_goals exact hdigit _ (by omega)
  · rw [if_neg hescape, List.mem_singleton]
    rintro rfl
    exact hescape (by decide)

theorem zero_notMem_escaped (text : CodeUnits) : 0 ∉ escaped text := by
  fun_induction escaped text with
  | case1 => exact List.not_mem_nil
  | case2 u => exact zero_notMem_escapedUnit u
  | case3 u v rest hpair ih =>
    obtain ⟨hlead, htrail⟩ : isLead u = true ∧ isTrail v = true := by simpa [isPair] using hpair
    simp only [List.mem_cons, not_or]
    refine ⟨?_, ?_, ih⟩
    · rintro rfl
      exact absurd hlead (by decide)
    · rintro rfl
      exact absurd htrail (by decide)
  | case4 u v rest hpair ih =>
    rw [List.mem_append, not_or]
    exact ⟨zero_notMem_escapedUnit u, ih⟩

theorem zero_notMem_quoted (text : CodeUnits) : 0 ∉ quoted text := by
  have htext := zero_notMem_escaped text
  simp [quoted, htext]

theorem zero_notMem_intercalate {texts : List CodeUnits} (h : ∀ text ∈ texts, 0 ∉ text) :
    0 ∉ List.intercalate [0x2c] texts := by
  induction texts with
  | nil => exact List.not_mem_nil
  | cons text rest ih =>
    have htext := h text List.mem_cons_self
    have hrest := ih fun other hother => h other (List.mem_cons_of_mem text hother)
    cases rest with
    | nil => simpa using htext
    | cons next rest =>
      rw [List.intercalate_cons_cons]
      simp only [List.mem_append, List.mem_singleton, not_or]
      exact ⟨⟨htext, by decide⟩, hrest⟩

/-- A JSON text shows no zero unit, not even inside of a string. -/
theorem zero_notMem_stringify (value : UnitJson) : 0 ∉ stringify value := by
  induction value using induct with
  | null => decide
  | bool value => cases value <;> decide
  | num value =>
    intro hzero
    exact absurd (value.printed 0 hzero) (by decide)
  | str value => exact zero_notMem_quoted value
  | arr items ih =>
    have hitems : 0 ∉ List.intercalate [0x2c] (stringifyItems items) := by
      rw [stringifyItems_eq_map]
      exact zero_notMem_intercalate (List.forall_mem_map.mpr ih)
    simp [stringify, hitems]
  | obj fields ih =>
    have hfields : 0 ∉ List.intercalate [0x2c] (stringifyFields fields) := by
      rw [stringifyFields_eq_map]
      refine zero_notMem_intercalate (List.forall_mem_map.mpr ?_)
      intro field hfield
      have hname := zero_notMem_quoted field.1
      have hvalue := ih field hfield
      simp [fieldText, hname, hvalue]
    simp [stringify, hfields]

/-- A text is cut at its last separator in one way. -/
theorem append_cons_inj_of_notMem_right {α : Type} {a : α} {x y z w : List α} (hz : a ∉ z)
    (hw : a ∉ w) (h : x ++ a :: z = y ++ a :: w) : x = y ∧ z = w := by
  rcases List.append_eq_append_iff.mp h with ⟨t, rfl, ht⟩ | ⟨t, rfl, ht⟩
  · cases t with
    | nil =>
      rw [List.append_nil]
      exact ⟨rfl, (List.cons.inj ht).2⟩
    | cons b t =>
      rw [List.cons_append] at ht
      exact absurd ((List.cons.inj ht).2 ▸ List.mem_append_right t List.mem_cons_self) hz
  · cases t with
    | nil =>
      rw [List.append_nil]
      exact ⟨rfl, (List.cons.inj ht).2.symm⟩
    | cons b t =>
      rw [List.cons_append] at ht
      exact absurd ((List.cons.inj ht).2 ▸ List.mem_append_right t List.mem_cons_self) hw

end Separated

end UnitJson

section Digits

/-- The text of a number is its digits, each in one unit. -/
theorem CodeUnits.map_ofNat (n : Nat) :
    (CodeUnits.ofNat n).map (fun u => Char.ofNat u.toNat) = Nat.toDigits 10 n := by
  have hdigits : ∀ c ∈ Nat.toDigits 10 n, c.toNat < 0x10000 := by
    intro c hc
    have hdigit := Nat.isDigit_of_mem_toDigits (by decide) (by decide) hc
    simp only [Char.isDigit, Bool.and_eq_true, decide_eq_true_eq, ge_iff_le,
      UInt32.le_iff_toNat_le, Char.toNat_val] at hdigit
    have hhigh : c.toNat ≤ 57 := hdigit.2
    omega
  unfold CodeUnits.ofNat
  generalize Nat.toDigits 10 n = digits at hdigits
  induction digits with
  | nil => rfl
  | cons c rest ih =>
    have hc := hdigits c List.mem_cons_self
    have hunit : (UInt16.ofNat c.toNat).toNat = c.toNat := by
      rw [UInt16.toNat_ofNat']
      omega
    rw [List.flatMap_cons, CodeUnits.ofChar, if_pos hc, List.singleton_append, List.map_cons, hunit,
      Char.ofNat_toNat, ih fun c' hc' => hdigits c' (List.mem_cons_of_mem c hc')]

theorem CodeUnits.ofNat_injective : Function.Injective CodeUnits.ofNat := by
  intro m n h
  have hdigits := congrArg (List.map fun u => Char.ofNat u.toNat) h
  rw [CodeUnits.map_ofNat, CodeUnits.map_ofNat] at hdigits
  have hvalue := congrArg (fun digits => Nat.ofDigitChars 10 digits 0) hdigits
  simpa only [Nat.ofDigitChars_ten_toDigits] using hvalue

end Digits

end ClockifyAssistant.Lib
