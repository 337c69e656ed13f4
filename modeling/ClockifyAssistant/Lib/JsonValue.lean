import Mathlib.Algebra.GroupWithZero.Nat
import Mathlib.Data.Rat.Defs

/-!
Parsed JSON values, with the reads a program makes of a value whose shape it
does not know. A property that is not there is `none`.
-/
namespace ClockifyAssistant.Lib

instance neZeroOne : NeZero 1 := ⟨Nat.one_ne_zero⟩

inductive JsonValue
  | null
  | bool (value : Bool)
  | num (value : Rat)
  | str (value : String)
  | arr (items : List JsonValue)
  | obj (fields : List (String × JsonValue))
  deriving BEq

namespace JsonValue

def items? : JsonValue → Option (List JsonValue)
  | arr items => some items
  | _ => none

def property (name : String) : JsonValue → Option JsonValue
  | obj fields => fields.lookup name
  | _ => none

/-- The first value unless it is undefined or null. -/
def coalesce : Option JsonValue → Option JsonValue → Option JsonValue
  | none, other => other
  | some null, other => other
  | value, _ => value

def truthy : JsonValue → Bool
  | null => false
  | bool value => value
  | num value => value != 0
  | str value => value != ""
  | arr _ => true
  | obj _ => true

/-- The elements that spreading the value into an argument list yields. -/
def spread : JsonValue → Option (List JsonValue)
  | arr items => some items
  | str value => some (value.toList.map fun c => str (String.singleton c))
  | _ => none

/-- The `length` of an array, or of a string in UTF-16 units. -/
def length : JsonValue → Option Nat
  | arr items => some items.length
  | str value => some (value.toList.map fun c => if c.toNat < 0x10000 then 1 else 2).sum
  | _ => none

/-- The own properties of an object or an array. -/
def record? : JsonValue → Option (List (String × JsonValue))
  | obj fields => some fields
  | arr items => some (items.zipIdx.map fun entry => (toString entry.2, entry.1))
  | _ => none

/-- The fields of `{ ...fields, name: value }`. -/
def withField (name : String) (value : JsonValue) (fields : List (String × JsonValue)) :
    List (String × JsonValue) :=
  if (fields.lookup name).isSome then
    fields.map fun field => if field.1 = name then (name, value) else field
  else fields ++ [(name, value)]

/-- A property of the name occurs in the value, at whatever depth. -/
inductive Mentions (name : String) : JsonValue → Prop
  | item {value : JsonValue} {items : List JsonValue} :
      value ∈ items → Mentions name value → Mentions name (.arr items)
  | key {value : JsonValue} {fields : List (String × JsonValue)} :
      (name, value) ∈ fields → Mentions name (.obj fields)
  | field {key : String} {value : JsonValue} {fields : List (String × JsonValue)} :
      (key, value) ∈ fields → Mentions name value → Mentions name (.obj fields)

def text? : JsonValue → Option String
  | str value => some value
  | _ => none

def number? : JsonValue → Option Rat
  | num value => some value
  | _ => none

variable {items : List JsonValue}

@[simp] theorem items?_eq_some {body : JsonValue} :
    body.items? = some items ↔ body = arr items := by
  cases body <;> simp [items?]

theorem coalesce_assoc (a b c : Option JsonValue) :
    coalesce a (coalesce b c) = coalesce (coalesce a b) c := by
  cases a with
  | none => rfl
  | some value => cases value <;> rfl

theorem coalesce_of_items {value other : Option JsonValue}
    (h : value.bind items? = some items) : coalesce value other = some (arr items) := by
  obtain ⟨list, rfl, hlist⟩ := Option.bind_eq_some_iff.mp h
  obtain rfl := items?_eq_some.mp hlist
  rfl

theorem mentions_obj {name : String} {fields : List (String × JsonValue)} :
    (obj fields).Mentions name ↔ ∃ field ∈ fields, field.1 = name ∨ field.2.Mentions name := by
  constructor
  · intro h
    cases h with
    | key hmem => exact ⟨_, hmem, Or.inl rfl⟩
    | field hmem hvalue => exact ⟨_, hmem, Or.inr hvalue⟩
  · rintro ⟨⟨key, value⟩, hmem, rfl | hvalue⟩
    · exact .key hmem
    · exact .field hmem hvalue

theorem mentions_arr {name : String} :
    (arr items).Mentions name ↔ ∃ item ∈ items, item.Mentions name := by
  constructor
  · intro h
    cases h with
    | item hmem hvalue => exact ⟨_, hmem, hvalue⟩
  · rintro ⟨item, hmem, hvalue⟩
    exact .item hmem hvalue

theorem mem_withField {name : String} {value : JsonValue}
    {fields : List (String × JsonValue)} {field : String × JsonValue}
    (h : field ∈ withField name value fields) :
    field = (name, value) ∨ field ∈ fields ∧ field.1 ≠ name := by
  unfold withField at h
  split at h
  · obtain ⟨old, hold, rfl⟩ := List.mem_map.mp h
    by_cases hname : old.1 = name
    · exact Or.inl (if_pos hname)
    · rw [if_neg hname]
      exact Or.inr ⟨hold, hname⟩
  · rename_i hnone
    rcases List.mem_append.mp h with hold | hnew
    · refine Or.inr ⟨hold, ?_⟩
      intro hname
      have hlookup := List.lookup_eq_none_iff.mp (Option.not_isSome_iff_eq_none.mp hnone)
      have hother := hlookup field hold
      simp [hname] at hother
    · exact Or.inl (List.mem_singleton.mp hnew)

theorem lookup_withField (name : String) (value : JsonValue) (fields : List (String × JsonValue)) :
    (withField name value fields).lookup name = some value := by
  unfold withField
  split
  · rename_i hsome
    induction fields with
    | nil => cases hsome
    | cons field rest ih =>
      rw [List.map_cons]
      by_cases hname : field.1 = name
      · rw [if_pos hname, List.lookup_cons, beq_self_eq_true]
      · have hne : (name == field.1) = false := beq_false_of_ne (Ne.symm hname)
        rw [if_neg hname, List.lookup_cons, hne]
        rw [List.lookup_cons, hne] at hsome
        exact ih hsome
  · rename_i hnone
    rw [List.lookup_append, Option.not_isSome_iff_eq_none.mp hnone, List.lookup_cons,
      beq_self_eq_true]
    rfl

theorem not_mentions_nil (name : String) : ¬ (obj []).Mentions name := by
  rw [mentions_obj]
  rintro ⟨field, hmem, -⟩
  cases hmem

end JsonValue

end ClockifyAssistant.Lib
