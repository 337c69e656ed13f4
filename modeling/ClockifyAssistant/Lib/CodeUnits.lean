import Mathlib.Tactic.IntervalCases

/-!
Strings as a JavaScript program holds them, sequences of UTF-16 code units whose surrogates
need not come in pairs, the JSON text of values made of them, and how many bytes of UTF-8
that text takes.
-/
namespace ClockifyAssistant.Lib

abbrev CodeUnits := List UInt16

instance : LawfulBEq CodeUnits := List.instLawfulBEq

namespace CodeUnits

def isLead (u : UInt16) : Bool := 0xd800 ≤ u.toNat && u.toNat ≤ 0xdbff

def isTrail (u : UInt16) : Bool := 0xdc00 ≤ u.toNat && u.toNat ≤ 0xdfff

def isPair (u v : UInt16) : Bool := isLead u && isTrail v

def ofChar (c : Char) : CodeUnits :=
  if c.toNat < 0x10000 then [.ofNat c.toNat]
  else
    let n := c.toNat - 0x10000
    [.ofNat (0xd800 + n / 0x400), .ofNat (0xdc00 + n % 0x400)]

def ofString (text : String) : CodeUnits := text.toList.flatMap ofChar

/-- `String(n)` for a natural number -/
def ofNat (n : Nat) : CodeUnits := (Nat.toDigits 10 n).flatMap ofChar

/-- The bytes of a unit that is not half of a pair. -/
def unitBytes (u : UInt16) : Nat :=
  if u.toNat < 0x80 then 1 else if u.toNat < 0x800 then 2 else 3

/-- `Buffer.byteLength(text, "utf8")` -/
def byteLength : CodeUnits → Nat
  | [] => 0
  | [u] => unitBytes u
  | u :: v :: rest => if isPair u v then 4 + byteLength rest else unitBytes u + byteLength (v :: rest)

def hexDigit (n : Nat) : UInt16 := .ofNat (Nat.digitChar n).toNat

/-- `\uXXXX` -/
def unicodeEscape (u : UInt16) : CodeUnits :=
  let n := u.toNat
  [0x5c, 0x75, hexDigit (n / 0x1000), hexDigit (n / 0x100 % 16), hexDigit (n / 16 % 16),
    hexDigit (n % 16)]

/-- A unit as a JSON string shows it. A surrogate without its other half is escaped. -/
def escapedUnit (u : UInt16) : CodeUnits :=
  match u.toNat with
  | 0x08 => [0x5c, 0x62]
  | 0x09 => [0x5c, 0x74]
  | 0x0a => [0x5c, 0x6e]
  | 0x0c => [0x5c, 0x66]
  | 0x0d => [0x5c, 0x72]
  | 0x22 => [0x5c, 0x22]
  | 0x5c => [0x5c, 0x5c]
  | n => if n < 0x20 || isLead u || isTrail u then unicodeEscape u else [u]

def escaped : CodeUnits → CodeUnits
  | [] => []
  | [u] => escapedUnit u
  | u :: v :: rest =>
      if isPair u v then u :: v :: escaped rest else escapedUnit u ++ escaped (v :: rest)

def quoted (text : CodeUnits) : CodeUnits := 0x22 :: (escaped text ++ [0x22])

def escapedUnitBytes (u : UInt16) : Nat :=
  match u.toNat with
  | 0x08 | 0x09 | 0x0a | 0x0c | 0x0d | 0x22 | 0x5c => 2
  | n => if n < 0x20 || isLead u || isTrail u then 6 else unitBytes u

/-- The bytes of the text between the quotes of a JSON string. -/
def escapedBytes : CodeUnits → Nat
  | [] => 0
  | [u] => escapedUnitBytes u
  | u :: v :: rest =>
      if isPair u v then 4 + escapedBytes rest else escapedUnitBytes u + escapedBytes (v :: rest)

section Bytes

variable {u : UInt16} {s t : CodeUnits}

theorem not_isTrail_of_ascii (hu : u.toNat < 0x80) : isTrail u = false := by
  have hlow : ¬ 0xdc00 ≤ u.toNat := by omega
  simp [isTrail, hlow]

theorem not_isLead_of_ascii (hu : u.toNat < 0x80) : isLead u = false := by
  have hlow : ¬ 0xd800 ≤ u.toNat := by omega
  simp [isLead, hlow]

theorem byteLength_ascii_cons (hu : u.toNat < 0x80) : byteLength (u :: s) = 1 + byteLength s := by
  cases s with
  | nil => simp [byteLength, unitBytes, hu]
  | cons v rest => simp [byteLength, isPair, not_isLead_of_ascii hu, unitBytes, hu]

/-- An ASCII unit never completes a pair, so a text may be measured on its two sides. -/
theorem byteLength_append_ascii (hu : u.toNat < 0x80) :
    byteLength (s ++ u :: t) = byteLength s + (1 + byteLength t) := by
  fun_induction byteLength s with
  | case1 => rw [List.nil_append, byteLength_ascii_cons hu, Nat.zero_add]
  | case2 v =>
    rw [List.singleton_append, byteLength, isPair, not_isTrail_of_ascii hu, Bool.and_false,
      if_neg Bool.false_ne_true, byteLength_ascii_cons hu]
  | case3 v w rest hpair ih =>
    rw [List.cons_append, List.cons_append, byteLength, if_pos hpair, ih, Nat.add_assoc]
  | case4 v w rest hpair ih =>
    rw [List.cons_append] at ih
    rw [List.cons_append, List.cons_append, byteLength, if_neg hpair, ih, Nat.add_assoc]

theorem byteLength_cons_of_not_isLead (hu : isLead u = false) :
    byteLength (u :: s) = unitBytes u + byteLength s := by
  cases s with
  | nil => rfl
  | cons v rest => simp [byteLength, isPair, hu]

theorem byteLength_ascii_append (hs : ∀ u ∈ s, u.toNat < 0x80) :
    byteLength (s ++ t) = s.length + byteLength t := by
  induction s with
  | nil => rw [List.nil_append, List.length_nil, Nat.zero_add]
  | cons u rest ih =>
    have hrest := ih fun v hv => hs v (List.mem_cons_of_mem u hv)
    rw [List.cons_append, byteLength_ascii_cons (hs u List.mem_cons_self), hrest, List.length_cons]
    omega

theorem byteLength_of_ascii (hs : ∀ u ∈ s, u.toNat < 0x80) : byteLength s = s.length := by
  rw [← List.append_nil s, byteLength_ascii_append hs, List.append_nil, byteLength, Nat.add_zero]

theorem hexDigit_ascii {n : Nat} (hn : n < 16) : (hexDigit n).toNat < 0x80 := by
  interval_cases n <;> decide

theorem unicodeEscape_ascii (u : UInt16) : ∀ v ∈ unicodeEscape u, v.toNat < 0x80 := by
  intro v hv
  have hu := u.toNat_lt
  simp only [unicodeEscape, List.mem_cons, List.not_mem_nil, or_false] at hv
  rcases hv with rfl | rfl | rfl | rfl | rfl | rfl
  · decide
  · decide
  all_goals exact hexDigit_ascii (by omega)

/-- What a unit that is not half of a pair adds to the text. -/
theorem byteLength_escapedUnit_append (u : UInt16) (t : CodeUnits) :
    byteLength (escapedUnit u ++ t) = escapedUnitBytes u + byteLength t := by
  unfold escapedUnit escapedUnitBytes
  split <;> try exact byteLength_ascii_append (by simp)
  rename_i n _ _ _ _ _ _ _
  by_cases hescape : (u.toNat < 0x20 || isLead u || isTrail u) = true
  · rw [if_pos hescape, byteLength_ascii_append (unicodeEscape_ascii u)]
    simp_all [unicodeEscape]
  · have hlead : isLead u = false := by
      simp only [Bool.or_eq_true, not_or, Bool.not_eq_true] at hescape
      exact hescape.1.2
    rw [if_neg hescape, List.singleton_append, byteLength_cons_of_not_isLead hlead]
    simp_all

theorem byteLength_escaped (s : CodeUnits) : byteLength (escaped s) = escapedBytes s := by
  fun_induction escapedBytes s with
  | case1 => rfl
  | case2 u => rw [escaped, ← List.append_nil (escapedUnit u), byteLength_escapedUnit_append]; rfl
  | case3 u v rest hpair ih => rw [escaped, if_pos hpair, byteLength, if_pos hpair, ih]
  | case4 u v rest hpair ih => rw [escaped, if_neg hpair, byteLength_escapedUnit_append, ih]

theorem byteLength_quoted (s : CodeUnits) : byteLength (quoted s) = escapedBytes s + 2 := by
  rw [quoted, byteLength_ascii_cons (by decide), byteLength_append_ascii (by decide),
    byteLength_escaped, byteLength]
  omega

end Bytes

section Unquoting

def hexValue (u : UInt16) : Nat := if u.toNat < 0x3a then u.toNat - 0x30 else u.toNat - 0x57

def consUnit (u : UInt16) (out : CodeUnits × CodeUnits) : CodeUnits × CodeUnits :=
  (u :: out.1, out.2)

/-- What the text up to the closing quote says, and what follows the quote. -/
def unquote : CodeUnits → Option (CodeUnits × CodeUnits)
  | [] => none
  | 0x22 :: rest => some ([], rest)
  | 0x5c :: 0x75 :: a :: b :: c :: d :: rest =>
      (unquote rest).map <| consUnit <|
        .ofNat (0x1000 * hexValue a + 0x100 * hexValue b + 16 * hexValue c + hexValue d)
  | 0x5c :: 0x62 :: rest => (unquote rest).map (consUnit 0x08)
  | 0x5c :: 0x74 :: rest => (unquote rest).map (consUnit 0x09)
  | 0x5c :: 0x6e :: rest => (unquote rest).map (consUnit 0x0a)
  | 0x5c :: 0x66 :: rest => (unquote rest).map (consUnit 0x0c)
  | 0x5c :: 0x72 :: rest => (unquote rest).map (consUnit 0x0d)
  | 0x5c :: u :: rest => (unquote rest).map (consUnit u)
  | u :: rest => (unquote rest).map (consUnit u)

theorem hexValue_hexDigit {n : Nat} (hn : n < 16) : hexValue (hexDigit n) = n := by
  interval_cases n <;> decide

theorem unquote_plain {u : UInt16} (hquote : u ≠ 0x22) (hslash : u ≠ 0x5c) (t : CodeUnits) :
    unquote (u :: t) = (unquote t).map (consUnit u) := by
  conv_lhs => unfold unquote
  split <;> simp_all

theorem unquote_unicodeEscape (u : UInt16) (t : CodeUnits) :
    unquote (unicodeEscape u ++ t) = (unquote t).map (consUnit u) := by
  have hu := u.toNat_lt
  have hvalue : 0x1000 * (u.toNat / 0x1000) + 0x100 * (u.toNat / 0x100 % 16) +
      16 * (u.toNat / 16 % 16) + u.toNat % 16 = u.toNat := by omega
  rw [unicodeEscape]
  simp only [List.cons_append, List.nil_append]
  rw [unquote, hexValue_hexDigit (by omega), hexValue_hexDigit (by omega),
    hexValue_hexDigit (by omega), hexValue_hexDigit (by omega), hvalue, UInt16.ofNat_toNat]

theorem unquote_escapedUnit (u : UInt16) (t : CodeUnits) :
    unquote (escapedUnit u ++ t) = (unquote t).map (consUnit u) := by
  have hofNat : UInt16.ofNat u.toNat = u := UInt16.ofNat_toNat
  unfold escapedUnit
  split
  case h_8 =>
    split
    · exact unquote_unicodeEscape u t
    · apply unquote_plain
      · rintro rfl
        simp_all
      · rintro rfl
        simp_all
  all_goals
    rename_i hu
    rw [hu] at hofNat
    rw [← hofNat]
    rfl

theorem unquote_escaped (s t : CodeUnits) : unquote (escaped s ++ 0x22 :: t) = some (s, t) := by
  fun_induction escaped s with
  | case1 => rfl
  | case2 u => rw [unquote_escapedUnit]; rfl
  | case3 u v rest hpair ih =>
    obtain ⟨hlead, htrail⟩ : isLead u = true ∧ isTrail v = true := by simpa [isPair] using hpair
    have hplain : ∀ w : UInt16, isLead w = true ∨ isTrail w = true → w ≠ 0x22 ∧ w ≠ 0x5c := by
      rintro w hw
      refine ⟨?_, ?_⟩
      · rintro rfl
        exact absurd hw (by decide)
      · rintro rfl
        exact absurd hw (by decide)
    rw [List.cons_append, List.cons_append, unquote_plain (hplain u (.inl hlead)).1
      (hplain u (.inl hlead)).2, unquote_plain (hplain v (.inr htrail)).1
      (hplain v (.inr htrail)).2, ih]
    rfl
  | case4 u v rest hpair ih => rw [List.append_assoc, unquote_escapedUnit, ih]; rfl

/-- A quoted text says one thing, whatever follows it. -/
theorem quoted_append_inj {s t a b : CodeUnits} (h : quoted s ++ a = quoted t ++ b) :
    s = t ∧ a = b := by
  simp only [quoted, List.cons_append, List.append_assoc, List.nil_append, List.cons.injEq,
    true_and] at h
  have hread := congrArg unquote h
  rw [unquote_escaped, unquote_escaped] at hread
  exact Prod.mk.inj (Option.some.inj hread)

end Unquoting

end CodeUnits

/-- The units that a printed number is made of. -/
def isNumberUnit (u : UInt16) : Bool :=
  (0x30 ≤ u.toNat && u.toNat ≤ 0x39) || u == 0x2b || u == 0x2d || u == 0x2e || u == 0x65

/-- A number, known by the text it prints as. -/
structure NumberText where
  units : CodeUnits
  nonempty : units ≠ []
  printed : ∀ u ∈ units, isNumberUnit u = true

/-- A JSON value whose texts are code units. -/
inductive UnitJson
  | null
  | bool (value : Bool)
  | num (value : NumberText)
  | str (value : CodeUnits)
  | arr (items : List UnitJson)
  | obj (fields : List (CodeUnits × UnitJson))

namespace UnitJson

open CodeUnits

mutual

/-- `JSON.stringify(value)` -/
def stringify : UnitJson → CodeUnits
  | .null => ofString "null"
  | .bool true => ofString "true"
  | .bool false => ofString "false"
  | .num value => value.units
  | .str value => quoted value
  | .arr items => 0x5b :: (List.intercalate [0x2c] (stringifyItems items) ++ [0x5d])
  | .obj fields => 0x7b :: (List.intercalate [0x2c] (stringifyFields fields) ++ [0x7d])

def stringifyItems : List UnitJson → List CodeUnits
  | [] => []
  | item :: rest => stringify item :: stringifyItems rest

def stringifyFields : List (CodeUnits × UnitJson) → List CodeUnits
  | [] => []
  | (name, value) :: rest => (quoted name ++ 0x3a :: stringify value) :: stringifyFields rest

end

/-- The parts of a list with a comma between any two. -/
def separatedBytes (sizes : List Nat) : Nat := sizes.sum + (sizes.length - 1)

mutual

/-- The bytes of UTF-8 that the JSON text takes. -/
def bytes : UnitJson → Nat
  | .null => 4
  | .bool true => 4
  | .bool false => 5
  | .num value => value.units.length
  | .str value => escapedBytes value + 2
  | .arr items => separatedBytes (itemBytes items) + 2
  | .obj fields => separatedBytes (fieldBytes fields) + 2

def itemBytes : List UnitJson → List Nat
  | [] => []
  | item :: rest => bytes item :: itemBytes rest

def fieldBytes : List (CodeUnits × UnitJson) → List Nat
  | [] => []
  | (name, value) :: rest => (escapedBytes name + 3 + bytes value) :: fieldBytes rest

end

section Bytes

theorem isNumberUnit_ascii {u : UInt16} (hu : isNumberUnit u = true) : u.toNat < 0x80 := by
  simp only [isNumberUnit, Bool.or_eq_true, Bool.and_eq_true, decide_eq_true_eq, beq_iff_eq] at hu
  obtain (((⟨-, hdigit⟩ | rfl) | rfl) | rfl) | rfl := hu
  · omega
  all_goals decide

theorem byteLength_intercalate (texts : List CodeUnits) :
    byteLength (List.intercalate [0x2c] texts) = separatedBytes (texts.map byteLength) := by
  induction texts with
  | nil => rfl
  | cons text rest ih =>
    cases rest with
    | nil => simp [separatedBytes]
    | cons next rest =>
      rw [List.intercalate_cons_cons, List.append_assoc, List.singleton_append,
        byteLength_append_ascii (by decide), ih]
      simp only [separatedBytes, List.map_cons, List.sum_cons, List.length_cons]
      omega

theorem byteLength_enclosed {u v : UInt16} (hu : u.toNat < 0x80) (hv : v.toNat < 0x80)
    (texts : List CodeUnits) : byteLength (u :: (List.intercalate [0x2c] texts ++ [v])) =
      separatedBytes (texts.map byteLength) + 2 := by
  rw [byteLength_ascii_cons hu, byteLength_append_ascii hv, byteLength_intercalate, byteLength]
  omega

mutual

theorem byteLength_stringify (value : UnitJson) : byteLength (stringify value) = bytes value := by
  cases value with
  | null => rfl
  | bool value => cases value <;> rfl
  | num value =>
    exact byteLength_of_ascii fun u hu => isNumberUnit_ascii (value.printed u hu)
  | str value => exact byteLength_quoted value
  | arr items =>
    rw [stringify, byteLength_enclosed (by decide) (by decide), byteLength_stringifyItems, bytes]
  | obj fields =>
    rw [stringify, byteLength_enclosed (by decide) (by decide), byteLength_stringifyFields, bytes]

theorem byteLength_stringifyItems (items : List UnitJson) :
    (stringifyItems items).map byteLength = itemBytes items := by
  cases items with
  | nil => rfl
  | cons item rest =>
    rw [stringifyItems, List.map_cons, byteLength_stringify item, byteLength_stringifyItems rest,
      itemBytes]

theorem byteLength_stringifyFields (fields : List (CodeUnits × UnitJson)) :
    (stringifyFields fields).map byteLength = fieldBytes fields := by
  cases fields with
  | nil => rfl
  | cons field rest =>
    obtain ⟨name, value⟩ := field
    rw [stringifyFields, List.map_cons, byteLength_append_ascii (by decide), byteLength_quoted,
      byteLength_stringify value, byteLength_stringifyFields rest, fieldBytes]
    have hsum : escapedBytes name + 2 + (1 + bytes value) = escapedBytes name + 3 + bytes value := by
      omega
    rw [hsum]

end

end Bytes

section Unambiguous

/-- The text after a value: it does not continue a number. -/
def Delimited (t : CodeUnits) : Prop := t.takeWhile isNumberUnit = []

theorem delimited_cons {u : UInt16} {t : CodeUnits} (hu : isNumberUnit u = false) :
    Delimited (u :: t) := by
  rw [Delimited, List.takeWhile_cons, if_neg (by simp [hu])]

theorem takeWhile_number (value : NumberText) {t : CodeUnits} (ht : Delimited t) :
    (value.units ++ t).takeWhile isNumberUnit = value.units := by
  rw [List.takeWhile_append_of_pos value.printed, ht, List.append_nil]

theorem number_append_inj {v w : NumberText} {s t : CodeUnits} (hs : Delimited s)
    (ht : Delimited t) (h : v.units ++ s = w.units ++ t) : v = w ∧ s = t := by
  have hunits : v.units = w.units := by
    rw [← takeWhile_number v hs, ← takeWhile_number w ht, h]
  obtain ⟨v, hv, hv'⟩ := v
  obtain ⟨w, hw, hw'⟩ := w
  subst hunits
  exact ⟨rfl, List.append_cancel_left h⟩

/-- The unit that the text of a value starts with, a zero for every number. -/
def kindUnit : UnitJson → UInt16
  | .null => 0x6e
  | .bool true => 0x74
  | .bool false => 0x66
  | .num _ => 0x30
  | .str _ => 0x22
  | .arr _ => 0x5b
  | .obj _ => 0x7b

def kindRead (text : CodeUnits) : Option UInt16 :=
  text.head?.map fun u => if isNumberUnit u then 0x30 else u

theorem kindRead_stringify (value : UnitJson) (t : CodeUnits) :
    kindRead (stringify value ++ t) = some (kindUnit value) := by
  cases value with
  | null => rfl
  | bool value => cases value <;> rfl
  | num value =>
    obtain ⟨units, hne, hunits⟩ := value
    cases units with
    | nil => exact absurd rfl hne
    | cons u rest => simp [kindRead, stringify, kindUnit, hunits u List.mem_cons_self]
  | str value => rfl
  | arr items => simp [kindRead, stringify, kindUnit, isNumberUnit]
  | obj fields => simp [kindRead, stringify, kindUnit, isNumberUnit]

/-- Texts that begin alike are texts of values of one kind. -/
theorem kindUnit_eq {v w : UnitJson} {s t : CodeUnits} (h : stringify v ++ s = stringify w ++ t) :
    kindUnit v = kindUnit w := by
  have hkind := congrArg kindRead h
  rw [kindRead_stringify, kindRead_stringify] at hkind
  exact Option.some.inj hkind

/-- No value begins with a closing bracket. -/
theorem stringify_append_ne (value : UnitJson) (s t : CodeUnits) :
    stringify value ++ s ≠ 0x5d :: t := by
  intro h
  have hkind := congrArg kindRead h
  rw [kindRead_stringify] at hkind
  have hclosing : kindUnit value = 0x5d := Option.some.inj hkind
  rcases value with _ | (_ | _) | _ | _ | _ | _ <;> exact absurd hclosing (by simp [kindUnit])

mutual

/-- Induction over a value and the values inside of it. -/
theorem induct {P : UnitJson → Prop} (null : P .null) (bool : ∀ value, P (.bool value))
    (num : ∀ value, P (.num value)) (str : ∀ value, P (.str value))
    (arr : ∀ items, (∀ item ∈ items, P item) → P (.arr items))
    (obj : ∀ fields, (∀ field ∈ fields, P field.2) → P (.obj fields)) (value : UnitJson) :
    P value := by
  cases value with
  | null => exact null
  | bool value => exact bool value
  | num value => exact num value
  | str value => exact str value
  | arr items => exact arr items (induct_items null bool num str arr obj items)
  | obj fields => exact obj fields (induct_fields null bool num str arr obj fields)

theorem induct_items {P : UnitJson → Prop} (null : P .null) (bool : ∀ value, P (.bool value))
    (num : ∀ value, P (.num value)) (str : ∀ value, P (.str value))
    (arr : ∀ items, (∀ item ∈ items, P item) → P (.arr items))
    (obj : ∀ fields, (∀ field ∈ fields, P field.2) → P (.obj fields)) (items : List UnitJson) :
    ∀ item ∈ items, P item := by
  cases items with
  | nil => exact fun _ hmem => absurd hmem List.not_mem_nil
  | cons first rest =>
    exact List.forall_mem_cons.mpr ⟨induct null bool num str arr obj first,
      induct_items null bool num str arr obj rest⟩

theorem induct_fields {P : UnitJson → Prop} (null : P .null) (bool : ∀ value, P (.bool value))
    (num : ∀ value, P (.num value)) (str : ∀ value, P (.str value))
    (arr : ∀ items, (∀ item ∈ items, P item) → P (.arr items))
    (obj : ∀ fields, (∀ field ∈ fields, P field.2) → P (.obj fields))
    (fields : List (CodeUnits × UnitJson)) : ∀ field ∈ fields, P field.2 := by
  cases fields with
  | nil => exact fun _ hmem => absurd hmem List.not_mem_nil
  | cons first rest =>
    obtain ⟨name, value⟩ := first
    exact List.forall_mem_cons.mpr ⟨induct null bool num str arr obj value,
      induct_fields null bool num str arr obj rest⟩

end

/-- `text` leaves one way to read what stands before a delimiter. -/
def ReadsOnce {α : Type} (text : α → CodeUnits) (x : α) : Prop :=
  ∀ y s t, Delimited s → Delimited t → text x ++ s = text y ++ t → x = y ∧ s = t

theorem intercalate_append_inj {α : Type} {text : α → CodeUnits} {close : UInt16}
    (hnumber : isNumberUnit close = false) (hcomma : close ≠ 0x2c)
    (hstart : ∀ x s t, text x ++ s ≠ close :: t) {xs : List α}
    (hxs : ∀ x ∈ xs, ReadsOnce text x) (ys : List α) {s t : CodeUnits}
    (h : List.intercalate [0x2c] (xs.map text) ++ close :: s =
      List.intercalate [0x2c] (ys.map text) ++ close :: t) : xs = ys ∧ s = t := by
  have hsep : ∀ r : CodeUnits, Delimited (0x2c :: r) := fun r => delimited_cons (by decide)
  have hend : ∀ r : CodeUnits, Delimited (close :: r) := fun r => delimited_cons hnumber
  induction xs generalizing ys with
  | nil =>
    rcases ys with _ | ⟨y, _ | ⟨y', ys⟩⟩
    · exact ⟨rfl, (List.cons.inj h).2⟩
    · exact absurd h.symm (by simpa using hstart y _ _)
    · exact absurd h.symm (by simpa using hstart y _ _)
  | cons x xs ih =>
    have hx := hxs x List.mem_cons_self
    have hrest := ih fun x' hx' => hxs x' (List.mem_cons_of_mem x hx')
    rcases xs with _ | ⟨x', xs⟩ <;> rcases ys with _ | ⟨y, _ | ⟨y', ys⟩⟩ <;>
      simp only [List.map_cons, List.map_nil, List.intercalate_singleton, List.intercalate_nil,
        List.intercalate_cons_cons, List.append_assoc, List.singleton_append,
        List.nil_append] at h hrest
    · exact absurd h (hstart x _ _)
    · obtain ⟨rfl, htail⟩ := hx y _ _ (hend s) (hend t) h
      exact ⟨rfl, (List.cons.inj htail).2⟩
    · obtain ⟨-, htail⟩ := hx y _ _ (hend s) (hsep _) h
      exact absurd (List.cons.inj htail).1 hcomma
    · exact absurd h (hstart x _ _)
    · obtain ⟨-, htail⟩ := hx y _ _ (hsep _) (hend t) h
      exact absurd (List.cons.inj htail).1.symm hcomma
    · obtain ⟨rfl, htail⟩ := hx y _ _ (hsep _) (hsep _) h
      obtain ⟨hlist, hafter⟩ := hrest (y' :: ys) (by simpa using (List.cons.inj htail).2)
      exact ⟨congrArg (List.cons x) hlist, hafter⟩

def fieldText (field : CodeUnits × UnitJson) : CodeUnits :=
  quoted field.1 ++ 0x3a :: stringify field.2

theorem stringifyItems_eq_map (items : List UnitJson) :
    stringifyItems items = items.map stringify := by
  induction items with
  | nil => rfl
  | cons item rest ih => rw [stringifyItems, ih, List.map_cons]

theorem stringifyFields_eq_map (fields : List (CodeUnits × UnitJson)) :
    stringifyFields fields = fields.map fieldText := by
  induction fields with
  | nil => rfl
  | cons field rest ih => rw [stringifyFields, ih, List.map_cons, fieldText]

theorem readsOnce_field {field : CodeUnits × UnitJson} (hvalue : ReadsOnce stringify field.2) :
    ReadsOnce fieldText field := by
  intro other s t hs ht h
  obtain ⟨name, value⟩ := field
  obtain ⟨name', value'⟩ := other
  simp only [fieldText, List.append_assoc, List.cons_append] at h
  obtain ⟨rfl, hafter⟩ := quoted_append_inj h
  obtain ⟨rfl, hrest⟩ := hvalue value' s t hs ht (List.cons.inj hafter).2
  exact ⟨rfl, hrest⟩

/-- A text that does not continue a number leaves one way to read the value before it. -/
theorem readsOnce_stringify (value : UnitJson) : ReadsOnce stringify value := by
  induction value using induct with
  | null =>
    intro w s t hs ht h
    have hkind := kindUnit_eq h
    rcases w with _ | (_ | _) | _ | _ | _ | _ <;> simp [kindUnit] at hkind
    exact ⟨rfl, List.append_cancel_left h⟩
  | bool value =>
    intro w s t hs ht h
    have hkind := kindUnit_eq h
    cases value <;> rcases w with _ | (_ | _) | _ | _ | _ | _ <;> simp [kindUnit] at hkind <;>
      exact ⟨rfl, List.append_cancel_left h⟩
  | num value =>
    intro w s t hs ht h
    have hkind := kindUnit_eq h
    rcases w with _ | (_ | _) | _ | _ | _ | _ <;> simp [kindUnit] at hkind
    obtain ⟨hvalue, hrest⟩ := number_append_inj hs ht h
    exact ⟨congrArg num hvalue, hrest⟩
  | str value =>
    intro w s t hs ht h
    have hkind := kindUnit_eq h
    rcases w with _ | (_ | _) | _ | _ | _ | _ <;> simp [kindUnit] at hkind
    obtain ⟨hvalue, hrest⟩ := quoted_append_inj h
    exact ⟨congrArg str hvalue, hrest⟩
  | arr items ih =>
    intro w s t hs ht h
    have hkind := kindUnit_eq h
    rcases w with _ | (_ | _) | _ | _ | others | _ <;> simp [kindUnit] at hkind
    simp only [stringify, stringifyItems_eq_map, List.cons_append, List.append_assoc,
      List.cons.injEq, true_and, List.nil_append] at h
    obtain ⟨hitems, hrest⟩ := intercalate_append_inj (by decide) (by decide)
      (fun x s t => stringify_append_ne x s t) ih others h
    exact ⟨congrArg arr hitems, hrest⟩
  | obj fields ih =>
    intro w s t hs ht h
    have hkind := kindUnit_eq h
    rcases w with _ | (_ | _) | _ | _ | _ | others <;> simp [kindUnit] at hkind
    simp only [stringify, stringifyFields_eq_map, List.cons_append, List.append_assoc,
      List.cons.injEq, true_and, List.nil_append] at h
    obtain ⟨hfields, hrest⟩ := intercalate_append_inj (by decide) (by decide)
      (fun field s t hclose => absurd (List.cons.inj hclose).1 (by decide))
      (fun field hfield => readsOnce_field (ih field hfield)) others h
    exact ⟨congrArg obj hfields, hrest⟩

/-- The text of a value is the text of no other value. -/
theorem stringify_injective {v w : UnitJson} (h : stringify v = stringify w) : v = w :=
  (readsOnce_stringify v w [] [] rfl rfl (by rw [h])).1

end Unambiguous

end UnitJson

end ClockifyAssistant.Lib
