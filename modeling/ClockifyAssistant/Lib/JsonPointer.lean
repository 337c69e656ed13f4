import ClockifyAssistant.Lib.JsonText
import ClockifyAssistant.Lib.ObjectKeys

/-!
JSON pointers as JavaScript follows them: a segment names a property of an object, its own or an
inherited one, or is read as a number where an array stands.
-/
namespace ClockifyAssistant.Lib

open CodeUnits ObjectKeys

/-- `text.trim()` -/
def trimUnits (text : CodeUnits) : CodeUnits :=
  let isSpace := fun u : UInt16 => isTrimmed (.ofNat u.toNat)
  ((text.dropWhile isSpace).reverse.dropWhile isSpace).reverse

/-! `Number(text)`, as far as it is a natural number -/

namespace NumberLiteral

def halfEven (num den : Nat) : Nat :=
  let rest := 2 * (num % den)
  if rest < den ∨ (rest = den ∧ num / den % 2 = 0) then num / den else num / den + 1

/-- The double next to a quotient, if it is an integer. -/
def nearest (num den : Nat) : Option Nat :=
  if num * 2 ^ 1075 ≤ den then some 0
  else if 2 * num < den then none
  else
    let exponent := Nat.log2 (2 * num / den)
    if exponent ≤ 53 then
      let scale := 2 ^ (53 - exponent)
      let mantissa := halfEven (num * scale) den
      if mantissa % scale = 0 then some (mantissa / scale) else none
    else if exponent ≤ 1024 then
      let unit := 2 ^ (exponent - 53)
      some (halfEven num (den * unit) * unit)
    else none

def digitValue (u : UInt16) : Nat :=
  if isDigit u then u.toNat - 0x30
  else if 0x61 ≤ u.toNat && u.toNat ≤ 0x66 then u.toNat - 0x57
  else if 0x41 ≤ u.toNat && u.toNat ≤ 0x46 then u.toNat - 0x37
  else 16

def inBase (base : Nat) (digits : CodeUnits) : Option Nat :=
  if !digits.isEmpty && digits.all (fun u => digitValue u < base) then
    nearest (digits.foldl (fun n u => base * n + digitValue u) 0) 1
  else none

/-- The digits behind an exponent mark. -/
def exponentOf : CodeUnits → Option Int
  | [] => some 0
  | mark :: rest =>
      if mark = 0x65 ∨ mark = 0x45 then
        match rest with
        | 0x2d :: digits => if isNumeric digits then some (-decimal digits) else none
        | 0x2b :: digits => if isNumeric digits then some (decimal digits) else none
        | digits => if isNumeric digits then some (decimal digits) else none
      else none

/-- A decimal literal without a sign. -/
def unsigned (text : CodeUnits) : Option Nat := do
  let whole := text.takeWhile isDigit
  let rest := text.dropWhile isDigit
  let fraction := if rest.head? = some 0x2e then rest.tail.takeWhile isDigit else []
  let marked := if rest.head? = some 0x2e then rest.tail.dropWhile isDigit else rest
  let exponent ← exponentOf marked
  let digits := whole ++ fraction
  if digits.isEmpty then none
  else
    let power := exponent - fraction.length
    nearest (decimal digits * 10 ^ power.toNat) (10 ^ (-power).toNat)

/-- The natural number that `Number(text)` is, if it is one. -/
def natural? (text : CodeUnits) : Option Nat :=
  match trimUnits text with
  | [] => some 0
  | 0x30 :: 0x78 :: digits | 0x30 :: 0x58 :: digits => inBase 16 digits
  | 0x30 :: 0x6f :: digits | 0x30 :: 0x4f :: digits => inBase 8 digits
  | 0x30 :: 0x62 :: digits | 0x30 :: 0x42 :: digits => inBase 2 digits
  | 0x2b :: rest => unsigned rest
  -- the only natural number behind a minus is a zero
  | 0x2d :: rest => (unsigned rest).filter (· == 0)
  | rest => unsigned rest

end NumberLiteral

namespace JsonPointer

/-- `value.replaceAll("~", "~0").replaceAll("/", "~1")` -/
def escapeRfc6901 (value : CodeUnits) : CodeUnits :=
  value.flatMap fun u => if u = 0x7e then [0x7e, 0x30] else if u = 0x2f then [0x7e, 0x31] else [u]

/-- `replaceAll` of a tilde with one more unit. -/
def unescapeUnit (code plain : UInt16) : CodeUnits → CodeUnits
  | u :: v :: rest =>
      if u = 0x7e ∧ v = code then plain :: unescapeUnit code plain rest
      else u :: unescapeUnit code plain (v :: rest)
  | rest => rest

def decodeRfc6901Segment (segment : CodeUnits) : CodeUnits :=
  unescapeUnit 0x30 0x7e (unescapeUnit 0x31 0x2f segment)

def joinPointer (base segment : CodeUnits) : CodeUnits := base ++ 0x2f :: escapeRfc6901 segment

/-- `pointer.slice(1).split("/")`, decoded. -/
def segments (pointer : CodeUnits) : List CodeUnits :=
  ((pointer.drop 1).splitOn 0x2f).map decodeRfc6901Segment

def topName (pointer : CodeUnits) : CodeUnits := (segments pointer).headD []

/-- What a pointer leads to: data, or something that objects inherit. -/
inductive Found
  | json (value : UnitJson)
  | method
  | objectPrototype

def protoName : CodeUnits := ofString "__proto__"

/-- The methods of `Object.prototype`. -/
def methodNames : List CodeUnits :=
  ["constructor", "__defineGetter__", "__defineSetter__", "hasOwnProperty", "__lookupGetter__",
    "__lookupSetter__", "isPrototypeOf", "propertyIsEnumerable", "toString", "valueOf",
    "toLocaleString"].map ofString

/-- One segment of a pointer followed. -/
def child : Found → CodeUnits → Option Found
  | .json (.arr items), segment =>
      (NumberLiteral.natural? segment).bind fun index => (items[index]?).map .json
  | .json (.obj fields), segment =>
      match fields.lookup segment with
      | some value => some (.json value)
      | none =>
          if segment = protoName then some .objectPrototype
          else if segment ∈ methodNames then some .method
          else none
  | .objectPrototype, segment =>
      if segment = protoName then some (.json .null)
      else if segment ∈ methodNames then some .method
      else none
  | .json .null, _ | .json (.bool _), _ | .json (.num _), _ | .json (.str _), _ | .method, _ => none

def follow : List CodeUnits → Found → Option Found
  | [], found => some found
  | segment :: rest, found => (child found segment).bind (follow rest)

/-- The value with another one at the end of the path; `none` where the assignment throws. -/
def replaceAt (value : UnitJson) : List CodeUnits → UnitJson → Option UnitJson
  | [], _ => some value
  | [leaf], .obj fields => some (.obj (assign leaf value fields))
  | segment :: rest, .obj fields =>
      (fields.lookup segment).bind fun inner =>
        (replaceAt value rest inner).map fun inner => .obj (assign segment inner fields)
  | segment :: rest, .arr items =>
      (NumberLiteral.natural? segment).bind fun index =>
        (items[index]?).bind fun inner =>
          (replaceAt value rest inner).map fun inner => .arr (items.set index inner)
  | _ :: _, .null | _ :: _, .bool _ | _ :: _, .num _ | _ :: _, .str _ => none

/-! The first segment -/

theorem segments_eq_cons (pointer : CodeUnits) :
    ∃ rest, segments pointer = topName pointer :: rest := by
  unfold topName segments
  cases hsplit : (pointer.drop 1).splitOn 0x2f with
  | nil => exact absurd hsplit (List.splitOn_ne_nil _ _)
  | cons first rest => exact ⟨rest.map decodeRfc6901Segment, rfl⟩

/-- A longer pointer begins with the same segment. -/
theorem topName_append {base : CodeUnits} (hbase : base ≠ []) (rest : CodeUnits) :
    topName (base ++ 0x2f :: rest) = topName base := by
  obtain ⟨u, base, rfl⟩ := List.exists_cons_of_ne_nil hbase
  obtain ⟨others, hothers⟩ := segments_eq_cons (u :: base)
  have happend : segments (u :: base ++ 0x2f :: rest) =
      segments (u :: base) ++ (rest.splitOn 0x2f).map decodeRfc6901Segment := by
    unfold segments
    rw [List.cons_append, List.drop_one, List.drop_one, List.tail_cons, List.tail_cons,
      List.splitOn_append_cons_self, List.map_append]
  rw [topName, happend, hothers]
  rfl

/-! Documents that agree wherever the first one has something -/

def isScalar : UnitJson → Bool
  | .null | .bool _ | .num _ | .str _ => true
  | .arr _ | .obj _ => false

/-- `w` stands where `v` stood: as a scalar it is the same, and a container has lost nothing. -/
structure Refines (v w : Found) : Prop where
  scalar : ∀ value, isScalar value = true → w = .json value → v = .json value
  items : ∀ items, v = .json (.arr items) →
    ∃ others, w = .json (.arr others) ∧ others.length = items.length
  names : ∀ fields, v = .json (.obj fields) →
    ∃ others, w = .json (.obj others) ∧ fields.map Prod.fst ⊆ others.map Prod.fst

/-- Each path that leads somewhere in the one leads to the same place in the other. -/
def Keeps (v w : Found) : Prop :=
  ∀ path found, follow path v = some found →
    ∃ other, follow path w = some other ∧ Refines found other

section Keeps

variable {u v w : Found} {value inner inner' : UnitJson} {items others : List UnitJson}
  {fields : List (CodeUnits × UnitJson)} {segment : CodeUnits}

theorem Refines.refl (v : Found) : Refines v v where
  scalar := fun _ _ h => h
  items := fun items h => ⟨items, h, rfl⟩
  names := fun fields h => ⟨fields, h, List.Subset.refl _⟩

theorem Refines.trans (huv : Refines u v) (hvw : Refines v w) : Refines u w where
  scalar := fun value hvalue h => huv.scalar value hvalue (hvw.scalar value hvalue h)
  items := by
    intro items h
    obtain ⟨others, hv, hlength⟩ := huv.items items h
    obtain ⟨last, hw, hlast⟩ := hvw.items others hv
    exact ⟨last, hw, hlast.trans hlength⟩
  names := by
    intro fields h
    obtain ⟨others, hv, hsub⟩ := huv.names fields h
    obtain ⟨last, hw, hlast⟩ := hvw.names others hv
    exact ⟨last, hw, List.Subset.trans hsub hlast⟩

theorem Keeps.refl (v : Found) : Keeps v v := fun _ found h => ⟨found, h, Refines.refl found⟩

theorem Keeps.trans (huv : Keeps u v) (hvw : Keeps v w) : Keeps u w := by
  intro path found h
  obtain ⟨other, hv, hother⟩ := huv path found h
  obtain ⟨last, hw, hlast⟩ := hvw path other hv
  exact ⟨last, hw, hother.trans hlast⟩

theorem Keeps.refines (h : Keeps v w) : Refines v w := by
  obtain ⟨other, hw, hother⟩ := h [] v rfl
  obtain rfl := Option.some.inj hw
  exact hother

/-- It is enough to look at the place itself and at what is directly below it. -/
theorem keeps_of_child (hroot : Refines v w) (h : ∀ segment found, child v segment = some found →
      ∃ other, child w segment = some other ∧ Keeps found other) : Keeps v w := by
  intro path found hfound
  cases path with
  | nil =>
    obtain rfl := Option.some.inj hfound
    exact ⟨w, rfl, hroot⟩
  | cons segment rest =>
    obtain ⟨below, hbelow, hrest⟩ := Option.bind_eq_some_iff.mp hfound
    obtain ⟨other, hother, hkeeps⟩ := h segment below hbelow
    obtain ⟨last, hlast, hrefines⟩ := hkeeps rest found hrest
    exact ⟨last, Option.bind_eq_some_iff.mpr ⟨other, hother, hlast⟩, hrefines⟩

theorem child_scalar (h : isScalar value = true) (segment : CodeUnits) :
    child (.json value) segment = none := by
  cases value with
  | arr items => cases h
  | obj fields => cases h
  | _ => rfl

theorem keeps_scalar (hvalue : isScalar value = true) (hinner : isScalar inner = false) :
    Keeps (.json value) (.json inner) := by
  refine keeps_of_child ⟨?_, ?_, ?_⟩ ?_
  · rintro other hother hsame
    cases hsame
    exact absurd (hinner.symm.trans hother) nofun
  · rintro items hitems
    cases hitems
    cases hvalue
  · rintro fields hfields
    cases hfields
    cases hvalue
  · intro segment found hfound
    rw [child_scalar hvalue] at hfound
    cases hfound

theorem keeps_arr (hlength : others.length = items.length)
    (h : ∀ (index : Nat) (value : UnitJson), items[index]? = some value →
      ∃ other, others[index]? = some other ∧ Keeps (.json value) (.json other)) :
    Keeps (.json (.arr items)) (.json (.arr others)) := by
  refine keeps_of_child ⟨?_, ?_, nofun⟩ ?_
  · rintro value hvalue hsame
    cases hsame
    cases hvalue
  · rintro same hsame
    cases hsame
    exact ⟨others, rfl, hlength⟩
  · intro segment found hfound
    obtain ⟨index, hindex, hitem⟩ := Option.bind_eq_some_iff.mp hfound
    obtain ⟨value, hvalue, rfl⟩ := Option.map_eq_some_iff.mp hitem
    obtain ⟨other, hother, hkeeps⟩ := h index value hvalue
    refine ⟨.json other, Option.bind_eq_some_iff.mpr ⟨index, hindex, ?_⟩, hkeeps⟩
    rw [hother, Option.map_some]

theorem child_obj (fields : List (CodeUnits × UnitJson)) (segment : CodeUnits) :
    child (.json (.obj fields)) segment =
      match fields.lookup segment with
      | some value => some (.json value)
      | none => child (.json (.obj [])) segment := by
  cases hvalue : fields.lookup segment with
  | some value => simp only [child, hvalue]
  | none => simp only [child, hvalue, List.lookup_nil]

/-- Objects with the same value under the first name are the same to the pointer. -/
theorem follow_congr {pointer : CodeUnits} {others : List (CodeUnits × UnitJson)}
    (h : others.lookup (topName pointer) = fields.lookup (topName pointer)) :
    follow (segments pointer) (.json (.obj others)) =
      follow (segments pointer) (.json (.obj fields)) := by
  obtain ⟨rest, hrest⟩ := segments_eq_cons pointer
  rw [hrest, follow, follow, child_obj, child_obj fields, h]

theorem keeps_obj {others : List (CodeUnits × UnitJson)}
    (hnames : ∀ name, others.lookup name = none → fields.lookup name = none)
    (habsent : ∀ name, fields.lookup name = none → others.lookup name = none)
    (h : ∀ name value, fields.lookup name = some value →
      ∃ other, others.lookup name = some other ∧ Keeps (.json value) (.json other)) :
    Keeps (.json (.obj fields)) (.json (.obj others)) := by
  refine keeps_of_child ⟨?_, nofun, ?_⟩ ?_
  · rintro value hvalue hsame
    cases hsame
    cases hvalue
  · rintro same hsame
    cases hsame
    refine ⟨others, rfl, fun name hname => ?_⟩
    by_contra hother
    exact lookup_eq_none.mp (hnames name (lookup_eq_none.mpr hother)) hname
  · intro segment found hfound
    rw [child_obj] at hfound ⊢
    cases hvalue : fields.lookup segment with
    | some value =>
      simp only [hvalue, Option.some.injEq] at hfound
      obtain ⟨other, hother, hkeeps⟩ := h segment value hvalue
      refine ⟨.json other, ?_, hfound ▸ hkeeps⟩
      rw [hother]
    | none =>
      simp only [hvalue] at hfound
      refine ⟨found, ?_, Keeps.refl found⟩
      rw [habsent segment hvalue]
      exact hfound

theorem keeps_assign (hinner : fields.lookup segment = some inner)
    (h : Keeps (.json inner) (.json inner')) :
    Keeps (.json (.obj fields)) (.json (.obj (assign segment inner' fields))) := by
  refine keeps_obj ?_ ?_ ?_
  · intro name hname
    rw [lookup_assign] at hname
    by_cases hsame : name = segment
    · rw [if_pos hsame] at hname
      cases hname
    · rwa [if_neg hsame] at hname
  · intro name hname
    have hne : name ≠ segment := by
      rintro rfl
      rw [hinner] at hname
      cases hname
    rw [lookup_assign, if_neg hne, hname]
  · intro name value hvalue
    rw [lookup_assign]
    by_cases hsame : name = segment
    · rw [hsame, hinner, Option.some.injEq] at hvalue
      exact ⟨inner', if_pos hsame, hvalue ▸ h⟩
    · exact ⟨value, (if_neg hsame).trans hvalue, Keeps.refl _⟩

theorem keeps_set {index : Nat} (hinner : items[index]? = some inner)
    (h : Keeps (.json inner) (.json inner')) :
    Keeps (.json (.arr items)) (.json (.arr (items.set index inner'))) := by
  refine keeps_arr (List.length_set ..) fun other value hvalue => ?_
  obtain ⟨hindex, -⟩ := List.getElem?_eq_some_iff.mp hinner
  by_cases hsame : index = other
  · rw [← hsame, hinner, Option.some.injEq] at hvalue
    refine ⟨inner', ?_, hvalue ▸ h⟩
    rw [← hsame, List.getElem?_set_self hindex]
  · refine ⟨value, ?_, Keeps.refl _⟩
    rw [List.getElem?_set_ne hsame, hvalue]

theorem replaceAt_arr (value : UnitJson) (segment : CodeUnits) (rest : List CodeUnits)
    (items : List UnitJson) : replaceAt value (segment :: rest) (.arr items) =
      (NumberLiteral.natural? segment).bind fun index => (items[index]?).bind fun inner =>
          (replaceAt value rest inner).map fun inner => .arr (items.set index inner) := by
  cases rest <;> rfl

theorem replaceAt_scalar {scalar : UnitJson} (h : isScalar scalar = true) (value : UnitJson)
    (segment : CodeUnits) (rest : List CodeUnits) :
    replaceAt value (segment :: rest) scalar = none := by
  cases scalar with
  | arr items => cases h
  | obj fields => cases h
  | _ => cases rest <;> rfl

/-- Where the path leads to data, each segment names a field that the object has. -/
theorem replaceAt_obj {rest : List CodeUnits} {root old : UnitJson}
    (h : replaceAt value (segment :: rest) (.obj fields) = some root)
    (hold : follow (segment :: rest) (.json (.obj fields)) = some (.json old)) :
    ∃ inner inner', fields.lookup segment = some inner ∧
      follow rest (.json inner) = some (.json old) ∧ replaceAt value rest inner = some inner' ∧
      root = .obj (assign segment inner' fields) := by
  obtain ⟨below, hbelow, hrest⟩ := Option.bind_eq_some_iff.mp hold
  rw [child_obj] at hbelow
  cases rest with
  | nil =>
    cases h
    obtain rfl := Option.some.inj hrest
    cases hinner : fields.lookup segment with
    | some inner =>
      simp only [hinner, Option.some.injEq, Found.json.injEq] at hbelow
      exact ⟨inner, value, rfl, hbelow ▸ rfl, rfl, rfl⟩
    | none =>
      simp only [hinner] at hbelow
      simp only [child, List.lookup_nil] at hbelow
      split at hbelow
      · cases hbelow
      · split at hbelow <;> cases hbelow
  | cons next rest =>
    obtain ⟨inner, hinner, hinside⟩ := Option.bind_eq_some_iff.mp h
    obtain ⟨inner', hreplaced, rfl⟩ := Option.map_eq_some_iff.mp hinside
    simp only [hinner, Option.some.injEq] at hbelow
    exact ⟨inner, inner', hinner, hbelow ▸ hrest, hreplaced, rfl⟩

/-- A value is replaced by one that keeps all of it. -/
theorem keeps_replaceAt {path : List CodeUnits} {root root' old : UnitJson}
    (h : replaceAt value path root = some root') (hold : follow path (.json root) = some (.json old))
    (hkeeps : Keeps (.json old) (.json value)) : Keeps (.json root) (.json root') := by
  induction path generalizing root root' with
  | nil =>
    cases hold
    cases h
    exact hkeeps
  | cons segment rest ih =>
    cases root with
    | arr items =>
      rw [replaceAt_arr] at h
      obtain ⟨below, hbelow, hrest⟩ := Option.bind_eq_some_iff.mp hold
      obtain ⟨index, hindex, hitem⟩ := Option.bind_eq_some_iff.mp h
      obtain ⟨inner, hinner, hinside⟩ := Option.bind_eq_some_iff.mp hitem
      obtain ⟨inner', hreplaced, rfl⟩ := Option.map_eq_some_iff.mp hinside
      have hfound : child (.json (.arr items)) segment = some (.json inner) := by
        simp only [child, hindex, Option.bind_some, hinner, Option.map_some]
      obtain rfl := Option.some.inj (hfound.symm.trans hbelow)
      exact keeps_set hinner (ih hreplaced hrest)
    | obj fields =>
      obtain ⟨inner, inner', hinner, hrest, hreplaced, rfl⟩ := replaceAt_obj h hold
      exact keeps_assign hinner (ih hreplaced hrest)
    | _ =>
      rw [replaceAt_scalar rfl] at h
      cases h

end Keeps

end JsonPointer

end ClockifyAssistant.Lib
