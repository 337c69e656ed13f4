import ClockifyAssistant.Harness.ArgShapes

/-!
Which keys of a value an action's schema accounts for, and which of the others the walk
reports. The walk sees nothing below a conjunction, nothing where the schema describes no
object, and nothing under an own key `__proto__`.
-/
namespace ClockifyAssistant.ArgShapes

open Lib

/-- No object inside the value has a key. -/
inductive Keyless : JsonValue → Prop
  | null : Keyless .null
  | bool (value : Bool) : Keyless (.bool value)
  | num (value : Rat) : Keyless (.num value)
  | str (value : String) : Keyless (.str value)
  | arr {items : List JsonValue} : (∀ item ∈ items, Keyless item) → Keyless (.arr items)
  | obj : Keyless (.obj [])

/-- The walk looks for keys in the value under the schema. -/
def looks : JsonSchema → JsonValue → Bool
  | .union _ _, _ => true
  | .array (some _), .arr _ => true
  | .object _ _, .obj _ => true
  | _, _ => false

/-- The branches of a union that speak of the value: those of its type, or all. -/
def candidates (branches : List JsonSchema) (value : JsonValue) : List JsonSchema :=
  if branches.any fun branch => matchesType branch value then
    branches.filter fun branch => matchesType branch value
  else branches

mutual

/-- Every own key of every object inside the value is declared by the schema at that position,
is an alias or lies below an open path. Unless `everywhere` holds, the keys that the walk does
not look at do not count. -/
inductive Accounted (everywhere : Bool) (openPaths : List String) :
    JsonSchema → JsonValue → (aliases : List String) → (schemaPath : String) → Prop
  | keyless {schema : JsonSchema} {value : JsonValue} {aliases : List String} {path : String} :
      Keyless value → Accounted everywhere openPaths schema value aliases path
  | opened {schema : JsonSchema} {value : JsonValue} {aliases : List String} {path : String} :
      looks schema value = false → path ∈ openPaths →
        Accounted everywhere openPaths schema value aliases path
  | unseen {schema : JsonSchema} {value : JsonValue} {aliases : List String} {path : String} :
      everywhere = false → looks schema value = false →
        Accounted everywhere openPaths schema value aliases path
  | branch {first branch : JsonSchema} {rest : List JsonSchema} {value : JsonValue}
      {aliases : List String} {path : String} :
      branch ∈ candidates (first :: rest) value →
        Accounted everywhere openPaths branch value aliases path →
          Accounted everywhere openPaths (.union first rest) value aliases path
  | items {schema : JsonSchema} {values : List JsonValue} {aliases : List String}
      {path : String} :
      (∀ value ∈ values, Accounted everywhere openPaths schema value [] (path ++ "[]")) →
        Accounted everywhere openPaths (.array (some schema)) (.arr values) aliases path
  | fields {properties : List (String × JsonSchema)} {additional : Option JsonSchema}
      {fields : List (String × JsonValue)} {aliases : List String} {path : String} :
      (∀ field ∈ fields, AccountedField everywhere openPaths properties additional aliases path
        field.1 field.2) →
          Accounted everywhere openPaths (.object properties additional) (.obj fields) aliases path
  | parts {parts : List JsonSchema} {fields : List (String × JsonValue)} {aliases : List String}
      {path : String} (part : String × JsonValue → JsonSchema) :
      (∀ field ∈ fields, part field ∈ parts) →
        (∀ field ∈ fields, Accounted everywhere openPaths (part field) (.obj [field]) aliases path) →
          Accounted everywhere openPaths (.intersection parts) (.obj fields) aliases path

inductive AccountedField (everywhere : Bool) (openPaths : List String) :
    (properties : List (String × JsonSchema)) → (additional : Option JsonSchema) →
      (aliases : List String) → (schemaPath : String) → (key : String) → JsonValue → Prop
  | declared {properties : List (String × JsonSchema)} {additional : Option JsonSchema}
      {aliases : List String} {path key : String} {child : JsonValue} {schema : JsonSchema} :
      properties.lookup key = some schema →
        Accounted everywhere openPaths schema child [] (keyPath path key) →
          AccountedField everywhere openPaths properties additional aliases path key child
  | prototype {properties : List (String × JsonSchema)} {additional : Option JsonSchema}
      {aliases : List String} {path key : String} {child : JsonValue} :
      everywhere = false → properties.lookup key = none → key = "__proto__" →
        AccountedField everywhere openPaths properties additional aliases path key child
  | aliased {properties : List (String × JsonSchema)} {additional : Option JsonSchema}
      {aliases : List String} {path key : String} {child : JsonValue} :
      properties.lookup key = none → key ∈ aliases →
        AccountedField everywhere openPaths properties additional aliases path key child
  | dynamic {properties : List (String × JsonSchema)} {additional : Option JsonSchema}
      {aliases : List String} {path key : String} {child : JsonValue} :
      properties.lookup key = none → path ∈ openPaths →
        (∀ schema, additional = some schema → Accounted everywhere openPaths schema child [] path) →
          AccountedField everywhere openPaths properties additional aliases path key child

end

theorem schemaInduct {P : JsonSchema → Prop} (untyped : P .untyped)
    (scalar : ∀ type, P (.scalar type))
    (array : ∀ items, (∀ schema, items = some schema → P schema) → P (.array items))
    (object : ∀ properties additional, (∀ property ∈ properties, P property.2) →
      (∀ schema, additional = some schema → P schema) → P (.object properties additional))
    (union : ∀ first rest, (∀ branch ∈ first :: rest, P branch) → P (.union first rest))
    (intersection : ∀ parts, (∀ part ∈ parts, P part) → P (.intersection parts))
    (schema : JsonSchema) : P schema :=
  @JsonSchema.rec P (fun found => ∀ schema, found = some schema → P schema)
    (fun properties => ∀ property ∈ properties, P property.2)
    (fun branches => ∀ branch ∈ branches, P branch) (fun property => P property.2)
    untyped scalar array object
    (fun first rest hfirst hrest => union first rest (List.forall_mem_cons.mpr ⟨hfirst, hrest⟩))
    intersection
    (fun _ h => nomatch h)
    (fun _ hschema _ heq => Option.some.inj heq ▸ hschema)
    (fun _ h => absurd h List.not_mem_nil)
    (fun _ _ hhead htail => List.forall_mem_cons.mpr ⟨hhead, htail⟩)
    (fun _ h => absurd h List.not_mem_nil)
    (fun _ _ hhead htail => List.forall_mem_cons.mpr ⟨hhead, htail⟩)
    (fun _ _ hschema => hschema) schema

theorem mem_of_mem_zipIdx {α : Type} {items : List α} {entry : α × Nat} (h : entry ∈ items.zipIdx) :
    entry.1 ∈ items :=
  List.mem_of_getElem? (List.mem_zipIdx_iff_getElem?.mp h)

theorem mem_of_lookup {α : Type} {entries : List (String × α)} {key : String} {value : α}
    (h : entries.lookup key = some value) : (key, value) ∈ entries := by
  obtain ⟨before, after, rfl, -⟩ := List.lookup_eq_some_iff.mp h
  exact List.mem_append_right before List.mem_cons_self

section Walk

variable {openPaths aliases : List String} {value : JsonValue} {path schemaPath : String}

theorem branchPaths_eq (matching : Bool) (branches : List JsonSchema) :
    branchPaths openPaths matching branches value path aliases schemaPath =
      (branches.filter fun branch => !matching || matchesType branch value).map fun branch =>
        unknownPaths openPaths branch value path aliases schemaPath := by
  induction branches with
  | nil => rfl
  | cons branch rest ih =>
    rw [branchPaths, ih, List.filter_cons]
    split <;> rfl

theorem unknownPaths_union (first : JsonSchema) (rest : List JsonSchema) :
    unknownPaths openPaths (.union first rest) value path aliases schemaPath =
      fewestFindings ((candidates (first :: rest) value).map fun branch =>
        unknownPaths openPaths branch value path aliases schemaPath) := by
  rw [unknownPaths, branchPaths_eq, candidates]
  cases hmatching : (first :: rest).any fun branch => matchesType branch value with
  | false =>
    have hall : (rest.filter fun _ => true) = rest := List.filter_eq_self.mpr fun _ _ => rfl
    simp [hall]
  | true =>
    simp only [Bool.not_true, Bool.false_or, if_true, List.filter_cons]
    split <;> rfl

theorem candidates_ne_nil (first : JsonSchema) (rest : List JsonSchema) (value : JsonValue) :
    candidates (first :: rest) value ≠ [] := by
  unfold candidates
  split
  · rename_i hmatching
    obtain ⟨branch, hmem, hbranch⟩ := List.any_eq_true.mp hmatching
    exact List.ne_nil_of_mem (List.mem_filter.mpr ⟨hmem, hbranch⟩)
  · exact List.cons_ne_nil first rest

theorem mem_of_mem_candidates {branches : List JsonSchema} {branch : JsonSchema}
    (h : branch ∈ candidates branches value) : branch ∈ branches := by
  unfold candidates at h
  split at h
  · exact (List.mem_filter.mp h).1
  · exact h

theorem fewestFindings_eq_nil {findings : List (List String)} (hne : findings ≠ []) :
    fewestFindings findings = [] ↔ [] ∈ findings := by
  unfold fewestFindings
  cases hfind : findings.find? List.isEmpty with
  | some found =>
    have hempty : found = [] := List.isEmpty_iff.mp (List.find?_some hfind)
    subst hempty
    exact ⟨fun _ => List.mem_of_find?_eq_some hfind, fun _ => rfl⟩
  | none =>
    have hall := List.find?_eq_none.mp hfind
    cases findings with
    | nil => exact absurd rfl hne
    | cons first rest =>
      constructor
      · intro hfirst
        exact absurd (List.isEmpty_iff.mpr hfirst) (hall first List.mem_cons_self)
      · intro hmem
        exact absurd rfl (hall [] hmem)

theorem propertyPaths_eq (properties : List (String × JsonSchema)) (key : String)
    (child : JsonValue) : propertyPaths openPaths properties key child path schemaPath =
      (properties.lookup key).map fun schema =>
        unknownPaths openPaths schema child path [] (keyPath schemaPath key) := by
  induction properties with
  | nil => rfl
  | cons property rest ih =>
    obtain ⟨name, schema⟩ := property
    rw [propertyPaths, List.lookup_cons]
    by_cases hkey : key = name
    · rw [if_pos hkey, beq_iff_eq.mpr hkey]
      rfl
    · rw [if_neg hkey, beq_eq_false_iff_ne.mpr hkey]
      exact ih

/-- Nothing is found in a value under a schema that the walk does not look with. -/
theorem unknownPaths_of_not_looks {schema : JsonSchema} (h : looks schema value = false) :
    unknownPaths openPaths schema value path aliases schemaPath = [] := by
  rcases schema with _ | _ | (_ | _) | _ | _ | _ <;> cases value <;>
    first | (simp [unknownPaths]; done) | (simp [looks] at h)

theorem unknownPaths_of_keyless (schema : JsonSchema) {value : JsonValue} (hvalue : Keyless value)
    (path : String) (aliases : List String) (schemaPath : String) :
    unknownPaths openPaths schema value path aliases schemaPath = [] := by
  induction schema using schemaInduct generalizing value path aliases schemaPath with
  | untyped => exact unknownPaths_of_not_looks rfl
  | scalar type => exact unknownPaths_of_not_looks rfl
  | intersection parts ih => exact unknownPaths_of_not_looks rfl
  | array items ih =>
    by_cases hlooks : looks (.array items) value = false
    · exact unknownPaths_of_not_looks hlooks
    · obtain ⟨schema, rfl⟩ : ∃ schema, items = some schema := by
        cases items with
        | none => exact absurd rfl hlooks
        | some schema => exact ⟨schema, rfl⟩
      cases hvalue with
      | arr hitems =>
        rw [unknownPaths, List.flatMap_eq_nil_iff]
        intro entry hentry
        exact ih schema rfl (hitems entry.1 (mem_of_mem_zipIdx hentry)) _ _ _
      | _ => exact absurd rfl hlooks
  | object properties additional ihp iha =>
    cases hvalue with
    | obj => rw [unknownPaths, List.flatMap_nil]
    | _ => exact unknownPaths_of_not_looks rfl
  | union first rest ih =>
    have hne := candidates_ne_nil first rest value
    rw [unknownPaths_union, fewestFindings_eq_nil (mt List.map_eq_nil_iff.mp hne)]
    obtain ⟨branch, hbranch⟩ := List.exists_mem_of_ne_nil _ hne
    refine List.mem_map.mpr ⟨branch, hbranch, ?_⟩
    exact ih branch (mem_of_mem_candidates hbranch) hvalue _ _ _

/-- What is found under one key of an object. -/
def fieldPaths (openPaths : List String) (properties : List (String × JsonSchema))
    (additional : Option JsonSchema) (path : String) (aliases : List String) (schemaPath : String)
    (field : String × JsonValue) : List String :=
  match propertyPaths openPaths properties field.1 field.2 (keyPath path field.1) schemaPath with
  | some findings => findings
  | none =>
      if field.1 = "__proto__" then []
      else if path = "" ∧ field.1 ∈ aliases then []
      else if schemaPath ∈ openPaths then
        additionalPaths openPaths additional field.2 (keyPath path field.1) schemaPath
      else [keyPath path field.1]

theorem unknownPaths_object (properties : List (String × JsonSchema))
    (additional : Option JsonSchema) (fields : List (String × JsonValue)) :
    unknownPaths openPaths (.object properties additional) (.obj fields) path aliases schemaPath =
      fields.flatMap (fieldPaths openPaths properties additional path aliases schemaPath) := by
  rw [unknownPaths]
  rfl

theorem fieldPaths_eq_nil {properties : List (String × JsonSchema)}
    {additional : Option JsonSchema} {field : String × JsonValue} (htop : aliases = [] ∨ path = "")
    (hproperty : ∀ schema, properties.lookup field.1 = some schema → ∀ path schemaPath,
      unknownPaths openPaths schema field.2 path [] schemaPath = [] ↔
        Accounted false openPaths schema field.2 [] schemaPath)
    (hadditional : ∀ schema, additional = some schema → ∀ path schemaPath,
      unknownPaths openPaths schema field.2 path [] schemaPath = [] ↔
        Accounted false openPaths schema field.2 [] schemaPath) :
    fieldPaths openPaths properties additional path aliases schemaPath field = [] ↔
      AccountedField false openPaths properties additional aliases schemaPath field.1 field.2 := by
  rw [fieldPaths, propertyPaths_eq]
  cases hlookup : properties.lookup field.1 with
  | some schema =>
    constructor
    · intro hnil
      exact .declared hlookup ((hproperty schema hlookup _ _).mp hnil)
    · intro haccounted
      cases haccounted with
      | declared hsome hchild =>
        obtain rfl := Option.some.inj (hlookup.symm.trans hsome)
        exact (hproperty _ hlookup _ _).mpr hchild
      | prototype _ hnone _ => exact absurd (hlookup.symm.trans hnone) nofun
      | aliased hnone _ => exact absurd (hlookup.symm.trans hnone) nofun
      | dynamic hnone _ _ => exact absurd (hlookup.symm.trans hnone) nofun
  | none =>
    simp only [Option.map_none]
    by_cases hproto : field.1 = "__proto__"
    · rw [if_pos hproto]
      exact ⟨fun _ => .prototype rfl hlookup hproto, fun _ => rfl⟩
    rw [if_neg hproto]
    by_cases halias : path = "" ∧ field.1 ∈ aliases
    · rw [if_pos halias]
      exact ⟨fun _ => .aliased hlookup halias.2, fun _ => rfl⟩
    have hkey : field.1 ∉ aliases := by
      intro hmem
      rcases htop with rfl | rfl
      · exact absurd hmem List.not_mem_nil
      · exact halias ⟨rfl, hmem⟩
    rw [if_neg halias]
    by_cases hopen : schemaPath ∈ openPaths
    · rw [if_pos hopen]
      cases hadd : additional with
      | none =>
        rw [additionalPaths]
        exact ⟨fun _ => .dynamic hlookup hopen nofun, fun _ => rfl⟩
      | some schema =>
        rw [additionalPaths, hadditional schema hadd]
        constructor
        · intro hchild
          refine .dynamic hlookup hopen fun other hother => ?_
          obtain rfl := Option.some.inj hother
          exact hchild
        · intro haccounted
          cases haccounted with
          | declared hsome _ => exact absurd (hlookup.symm.trans hsome) nofun
          | prototype _ _ hname => exact absurd hname hproto
          | aliased _ hmem => exact absurd hmem hkey
          | dynamic _ _ hchild => exact hchild schema rfl
    · rw [if_neg hopen]
      constructor
      · intro hnil
        exact absurd hnil (List.cons_ne_nil _ _)
      · intro haccounted
        cases haccounted with
        | declared hsome _ => exact absurd (hlookup.symm.trans hsome) nofun
        | prototype _ _ hname => exact absurd hname hproto
        | aliased _ hmem => exact absurd hmem hkey
        | dynamic _ hpath _ => exact absurd hpath hopen

/-- The walk reports nothing exactly where every key that it looks at is accounted for. -/
theorem unknownPaths_eq_nil (schema : JsonSchema) {value : JsonValue} {path : String}
    {aliases : List String} {schemaPath : String} (htop : aliases = [] ∨ path = "") :
    unknownPaths openPaths schema value path aliases schemaPath = [] ↔
      Accounted false openPaths schema value aliases schemaPath := by
  induction schema using schemaInduct generalizing value path aliases schemaPath with
  | untyped => exact ⟨fun _ => .unseen rfl rfl, fun _ => unknownPaths_of_not_looks rfl⟩
  | scalar type => exact ⟨fun _ => .unseen rfl rfl, fun _ => unknownPaths_of_not_looks rfl⟩
  | intersection parts ih => exact ⟨fun _ => .unseen rfl rfl, fun _ => unknownPaths_of_not_looks rfl⟩
  | array items ih =>
    by_cases hlooks : looks (.array items) value = false
    · exact ⟨fun _ => .unseen rfl hlooks, fun _ => unknownPaths_of_not_looks hlooks⟩
    rcases items with _ | schema
    · exact absurd rfl hlooks
    rcases value with _ | _ | _ | _ | values | _ <;> try exact absurd rfl hlooks
    constructor
    · intro hnil
      rw [unknownPaths, List.flatMap_eq_nil_iff] at hnil
      refine .items fun item hitem => ?_
      obtain ⟨i, hi⟩ := List.mem_iff_getElem?.mp hitem
      exact (ih schema rfl (.inl rfl)).mp (hnil (item, i) (List.mk_mem_zipIdx_iff_getElem?.mpr hi))
    · intro haccounted
      cases haccounted with
      | keyless hkeyless => exact unknownPaths_of_keyless _ hkeyless _ _ _
      | opened hnot _ => exact absurd hnot hlooks
      | unseen _ hnot => exact absurd hnot hlooks
      | items hitems =>
        rw [unknownPaths, List.flatMap_eq_nil_iff]
        intro entry hentry
        exact (ih schema rfl (.inl rfl)).mpr (hitems entry.1 (mem_of_mem_zipIdx hentry))
  | object properties additional ihp iha =>
    by_cases hlooks : looks (.object properties additional) value = false
    · exact ⟨fun _ => .unseen rfl hlooks, fun _ => unknownPaths_of_not_looks hlooks⟩
    rcases value with _ | _ | _ | _ | _ | fields <;> try exact absurd rfl hlooks
    have hfield : ∀ field ∈ fields,
        fieldPaths openPaths properties additional path aliases schemaPath field = [] ↔
          AccountedField false openPaths properties additional aliases schemaPath field.1
            field.2 := by
      intro field hmem
      apply fieldPaths_eq_nil htop
      · intro schema hschema path schemaPath
        exact ihp (field.1, schema) (mem_of_lookup hschema) (.inl rfl)
      · intro schema hschema path schemaPath
        exact iha schema hschema (.inl rfl)
    rw [unknownPaths_object, List.flatMap_eq_nil_iff]
    constructor
    · intro hnil
      exact .fields fun field hmem => (hfield field hmem).mp (hnil field hmem)
    · intro haccounted field hmem
      cases haccounted with
      | keyless hkeyless =>
        cases hkeyless
        exact absurd hmem List.not_mem_nil
      | opened hnot _ => exact absurd hnot hlooks
      | unseen _ hnot => exact absurd hnot hlooks
      | fields hfields => exact (hfield field hmem).mpr (hfields field hmem)
  | union first rest ih =>
    have hne := candidates_ne_nil first rest value
    rw [unknownPaths_union, fewestFindings_eq_nil (mt List.map_eq_nil_iff.mp hne), List.mem_map]
    constructor
    · rintro ⟨branch, hbranch, hnil⟩
      exact .branch hbranch ((ih branch (mem_of_mem_candidates hbranch) htop).mp hnil)
    · intro haccounted
      cases haccounted with
      | keyless hkeyless =>
        obtain ⟨branch, hbranch⟩ := List.exists_mem_of_ne_nil _ hne
        exact ⟨branch, hbranch, unknownPaths_of_keyless branch hkeyless _ _ _⟩
      | opened hnot _ => exact absurd hnot nofun
      | unseen _ hnot => exact absurd hnot nofun
      | branch hbranch hchild =>
        exact ⟨_, hbranch, (ih _ (mem_of_mem_candidates hbranch) htop).mpr hchild⟩

end Walk

mutual

/-- What is accounted for everywhere is accounted for where the walk looks. -/
theorem Accounted.seen {openPaths aliases : List String} {schema : JsonSchema} {value : JsonValue}
    {path : String} :
    Accounted true openPaths schema value aliases path →
      Accounted false openPaths schema value aliases path
  | .keyless hkeyless => .keyless hkeyless
  | .opened hnot hpath => .opened hnot hpath
  | .unseen _ hnot => .unseen rfl hnot
  | .branch hbranch hchild => .branch hbranch hchild.seen
  | .items hitems => .items fun value hvalue => (hitems value hvalue).seen
  | .fields hfields => .fields fun field hfield => (hfields field hfield).seen
  | .parts _ _ _ => .unseen rfl rfl

theorem AccountedField.seen {openPaths aliases : List String}
    {properties : List (String × JsonSchema)} {additional : Option JsonSchema} {path key : String}
    {child : JsonValue} :
    AccountedField true openPaths properties additional aliases path key child →
      AccountedField false openPaths properties additional aliases path key child
  | .declared hschema hchild => .declared hschema hchild.seen
  | .prototype _ hnone hkey => .prototype rfl hnone hkey
  | .aliased hnone hkey => .aliased hnone hkey
  | .dynamic hnone hpath hchild =>
      .dynamic hnone hpath fun schema hschema => (hchild schema hschema).seen

end

/-- An empty report means that every key is accounted for exactly where the keys that the walk
does not look at are accounted for whenever all the others are. -/
theorem unknownArgumentPaths_complete (schema : JsonSchema) (value : JsonValue)
    (aliases openPaths : List String) : (unknownArgumentPaths schema value aliases openPaths = [] ↔
        Accounted true openPaths schema value aliases "") ↔
      (Accounted false openPaths schema value aliases "" →
        Accounted true openPaths schema value aliases "") := by
  have hwalk : unknownArgumentPaths schema value aliases openPaths = [] ↔
      Accounted false openPaths schema value aliases "" := unknownPaths_eq_nil schema (Or.inr rfl)
  rw [hwalk]
  constructor
  · intro hsame
    exact hsame.mp
  · intro hhidden
    exact ⟨hhidden, Accounted.seen⟩

section Prototype

/-- The schema of an action that creates a tag. -/
def tagSchema : JsonSchema := .object [("name", .scalar .string)] none

def tagArguments : JsonValue :=
  .obj [("name", .str "Urgent"), ("__proto__", .obj [("archived", .bool true)])]

/-- An own key `__proto__` is not declared, and it is not reported. -/
theorem prototype_key_unreported : ¬ ∀ (schema : JsonSchema) (value : JsonValue)
    (aliases openPaths : List String), unknownArgumentPaths schema value aliases openPaths = [] ↔
        Accounted true openPaths schema value aliases "" := by
  intro hall
  have hnil : unknownArgumentPaths tagSchema tagArguments [] [] = [] := by
    simp [unknownArgumentPaths, tagSchema, tagArguments, unknownPaths, propertyPaths]
  have haccounted := (hall tagSchema tagArguments [] []).mp hnil
  cases haccounted with
  | keyless hkeyless => cases hkeyless
  | opened hnot _ => cases hnot
  | unseen _ hnot => cases hnot
  | fields hfields =>
    have hproto := hfields ("__proto__", .obj [("archived", .bool true)]) (by simp)
    cases hproto with
    | declared hlookup _ => simp [List.lookup_cons] at hlookup
    | prototype hfalse _ _ => cases hfalse
    | aliased _ hmem => exact absurd hmem List.not_mem_nil
    | dynamic _ hmem _ => exact absurd hmem List.not_mem_nil

end Prototype

end ClockifyAssistant.ArgShapes
