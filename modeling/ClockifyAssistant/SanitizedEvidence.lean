import ClockifyAssistant.Harness.SafeJson
import ClockifyAssistant.Lib.KeyedJson

/-!
Complete sanitizing, done again. What it returns is a JSON document without a sensitive key, and
sanitizing it again changes nothing unless some object was left with nothing but bytes.
-/
namespace ClockifyAssistant

open Lib Lib.CodeUnits Lib.ObjectKeys Lib.UnitJson

namespace SafeJson

/-- A value that sanitizing leaves out. -/
def isLeftOut : UnitJson → Bool
  | .obj fields => isBinary fields
  | .null | .bool _ | .num _ | .str _ | .arr _ => false

/-- The fields of an object that its sanitized form has, too. -/
def keptFields (fields : Fields) : Fields :=
  fields.filter fun field => !isSensitiveKey field.1 && !isLeftOut field.2

mutual

/-- No object of the value, once its fields are sanitized, looks like bytes. -/
def settles : UnitJson → Bool
  | .null | .bool _ | .num _ | .str _ => true
  | .arr items => itemsSettle items
  | .obj fields => isBinary fields || (!isByteRecord (keptFields fields) && fieldsSettle fields)

def itemsSettle : List UnitJson → Bool
  | [] => true
  | item :: rest => settles item && itemsSettle rest

def fieldsSettle : Fields → Bool
  | [] => true
  | (name, value) :: rest => (isSensitiveKey name || settles value) && fieldsSettle rest

end

/-- No key of the object is sensitive. -/
def PlainNames (fields : Fields) : Prop := ∀ field ∈ fields, isSensitiveKey field.1 = false

/-- No key is sensitive, at whatever depth. -/
abbrev Redacted : UnitJson → Prop := Throughout PlainNames

section Complete

variable {value : UnitJson} {items : List UnitJson} {fields : Fields}

theorem completeNormalized_eq (value : UnitJson) :
    completeNormalized value =
      if isLeftOut value then none else some (sanitizeCompleteJson value) := by
  cases value with
  | obj fields =>
    rw [sanitizeCompleteJson, completeNormalized, isLeftOut]
    split
    · rfl
    · rfl
  | null => rfl
  | bool value => rfl
  | num value => rfl
  | str value => rfl
  | arr items => rfl

theorem completeItems_eq (items : List UnitJson) :
    completeItems items = (items.filter fun item => !isLeftOut item).map sanitizeCompleteJson := by
  induction items with
  | nil => rfl
  | cons item rest ih =>
    rw [completeItems, completeNormalized_eq, ih]
    cases hitem : isLeftOut item <;> simp [hitem]

theorem completeFields_eq (fields : Fields) :
    completeFields fields = (keptFields fields).map (Prod.map id sanitizeCompleteJson) := by
  induction fields with
  | nil => rfl
  | cons field rest ih =>
    obtain ⟨name, value⟩ := field
    rw [completeFields, completeNormalized_eq, ih, keptFields, keptFields]
    cases hname : isSensitiveKey name <;> cases hvalue : isLeftOut value <;> simp [hname, hvalue]

theorem sanitize_arr (items : List UnitJson) : sanitizeCompleteJson (.arr items) =
      .arr ((items.filter fun item => !isLeftOut item).map sanitizeCompleteJson) := by
  rw [sanitizeCompleteJson, completeNormalized, completeItems_eq]
  rfl

theorem sanitize_obj (h : isBinary fields = false) : sanitizeCompleteJson (.obj fields) =
      .obj (listed ((keptFields fields).map (Prod.map id sanitizeCompleteJson))) := by
  rw [sanitizeCompleteJson, completeNormalized, if_neg (by simp [h]), completeFields_eq]
  rfl

theorem sanitize_leftOut (h : isLeftOut value = true) : sanitizeCompleteJson value = .null := by
  rw [sanitizeCompleteJson, completeNormalized_eq, if_pos h]
  rfl

theorem sanitize_binary (h : isBinary fields = true) : sanitizeCompleteJson
    (.obj fields) = .null := by
  have hleft : isLeftOut (.obj fields) = true := h
  exact sanitize_leftOut hleft

theorem not_leftOut_of_fixed (h : sanitizeCompleteJson value = value) :
    isLeftOut value = false := by
  by_contra hleft
  rw [Bool.not_eq_false] at hleft
  rw [sanitize_leftOut hleft] at h
  rw [← h] at hleft
  cases hleft

theorem mem_keptFields {field : CodeUnits × UnitJson} : field ∈ keptFields fields ↔
    field ∈ fields ∧ isSensitiveKey field.1 = false ∧ isLeftOut field.2 = false := by
  rw [keptFields, List.mem_filter, Bool.and_eq_true_iff, Bool.not_eq_true', Bool.not_eq_true']

theorem itemsSettle_iff : itemsSettle items = true ↔ ∀ item ∈ items, settles item = true := by
  induction items with
  | nil => exact ⟨fun _ => nofun, fun _ => rfl⟩
  | cons item rest ih => rw [itemsSettle, List.forall_mem_cons, Bool.and_eq_true_iff, ih]

theorem settles_of_leftOut (h : isLeftOut value = true) : settles value = true := by
  cases value with
  | obj fields =>
    rw [settles, show isBinary fields = true from h]
    rfl
  | null => rfl
  | bool value => rfl
  | num value => rfl
  | str value => rfl
  | arr items => cases h

theorem fieldsSettle_iff :
    fieldsSettle fields = true ↔ ∀ field ∈ keptFields fields, settles field.2 = true := by
  induction fields with
  | nil => exact ⟨fun _ => nofun, fun _ => rfl⟩
  | cons field rest ih =>
    obtain ⟨name, value⟩ := field
    rw [fieldsSettle, Bool.and_eq_true_iff, Bool.or_eq_true_iff, ih]
    constructor
    · rintro ⟨hvalue, hrest⟩ other hother
      obtain ⟨hmem, hname, hleft⟩ := mem_keptFields.mp hother
      rcases List.mem_cons.mp hmem with rfl | hmem
      · exact hvalue.resolve_left (by simp [hname])
      · exact hrest other (mem_keptFields.mpr ⟨hmem, hname, hleft⟩)
    · intro h
      refine ⟨?_, fun other hother => ?_⟩
      · by_cases hname : isSensitiveKey name = true
        · exact .inl hname
        by_cases hleft : isLeftOut value = true
        · exact .inr (settles_of_leftOut hleft)
        rw [Bool.not_eq_true] at hname hleft
        exact .inr (h (name, value) (mem_keptFields.mpr ⟨List.mem_cons_self, hname, hleft⟩))
      · obtain ⟨hmem, hkept⟩ := mem_keptFields.mp hother
        exact h other (mem_keptFields.mpr ⟨List.mem_cons_of_mem _ hmem, hkept⟩)

end Complete

/-! The sanitized document -/

section Document

theorem names_kept (fields : Fields) :
    ((keptFields fields).map (Prod.map id sanitizeCompleteJson)).map Prod.fst =
      (keptFields fields).map Prod.fst := by
  rw [List.map_map]
  rfl

theorem nodup_kept {fields : Fields} (h : (fields.map Prod.fst).Nodup) :
    (((keptFields fields).map (Prod.map id sanitizeCompleteJson)).map Prod.fst).Nodup := by
  rw [names_kept]
  exact h.sublist (List.filter_sublist.map _)

/-- What the fields of every object keep when they are sanitized holds throughout the result. -/
theorem throughout_sanitized {p q : Fields → Prop}
    (hp : ∀ fields, q fields → p (listed ((keptFields fields).map (Prod.map id sanitizeCompleteJson))))
    {value : UnitJson} (h : Throughout q value) : Throughout p (sanitizeCompleteJson value) := by
  induction h with
  | null => exact .null
  | bool value => exact .bool value
  | num value => exact .num value
  | str value => exact .str value
  | @arr items _ ih =>
    rw [sanitize_arr]
    refine .arr fun item hitem => ?_
    obtain ⟨original, horiginal, rfl⟩ := List.mem_map.mp hitem
    exact ih original (List.mem_of_mem_filter horiginal)
  | @obj fields hfields _ ih =>
    by_cases hbinary : isBinary fields = true
    · rw [sanitize_binary hbinary]
      exact .null
    rw [Bool.not_eq_true] at hbinary
    rw [sanitize_obj hbinary]
    refine .obj (hp fields hfields) fun field hfield => ?_
    obtain ⟨original, horiginal, rfl⟩ := List.mem_map.mp ((listed_perm _).mem_iff.mp hfield)
    exact ih original (mem_keptFields.mp horiginal).1

theorem keyed_sanitized {value : UnitJson} (h : value.Keyed) : (sanitizeCompleteJson value).Keyed :=
  throughout_sanitized (fun _ hnames =>
    ((listed_perm _).map Prod.fst).nodup_iff.mpr (nodup_kept hnames)) h

theorem redacted_sanitized {value : UnitJson} (h : value.Keyed) :
    Redacted (sanitizeCompleteJson value) := by
  refine throughout_sanitized (fun fields _ => ?_) h
  intro field hfield
  obtain ⟨original, horiginal, rfl⟩ := List.mem_map.mp ((listed_perm _).mem_iff.mp hfield)
  exact (mem_keptFields.mp horiginal).2.1

end Document

/-! Sanitizing once more -/

section Again

variable {fields : Fields}

theorem isByte_sanitized (value : UnitJson) : isByte
    (sanitizeCompleteJson value) = isByte value := by
  cases value with
  | obj fields =>
    by_cases hbinary : isBinary fields = true
    · rw [sanitize_binary hbinary]
      rfl
    · rw [Bool.not_eq_true] at hbinary
      rw [sanitize_obj hbinary]
      rfl
  | null => rfl
  | bool value => rfl
  | num value => rfl
  | str value => rfl
  | arr items => rfl

theorem isByteRecord_sanitized (fields : Fields) :
    isByteRecord (listed (fields.map (Prod.map id sanitizeCompleteJson))) = isByteRecord fields := by
  have hperm := listed_perm (fields.map (Prod.map id sanitizeCompleteJson))
  unfold isByteRecord
  rw [hperm.isEmpty_eq, hperm.all_eq, List.isEmpty_map, List.all_map]
  congr 1
  refine List.all_congr rfl fun field => ?_
  simp [isByte_sanitized]

theorem sanitized_eq_str {value : UnitJson} {text : CodeUnits}
    (h : sanitizeCompleteJson value = .str text) : value = .str text := by
  cases value with
  | obj fields =>
    by_cases hbinary : isBinary fields = true
    · rw [sanitize_binary hbinary] at h
      cases h
    · rw [Bool.not_eq_true] at hbinary
      rw [sanitize_obj hbinary] at h
      cases h
  | null => cases h
  | bool value => cases h
  | num value => cases h
  | str value => exact h
  | arr items => cases h

theorem sanitized_eq_arr {value : UnitJson} {others : List UnitJson}
    (h : sanitizeCompleteJson value = .arr others) : ∃ items, value = .arr items := by
  cases value with
  | obj fields =>
    by_cases hbinary : isBinary fields = true
    · rw [sanitize_binary hbinary] at h
      cases h
    · rw [Bool.not_eq_true] at hbinary
      rw [sanitize_obj hbinary] at h
      cases h
  | null => cases h
  | bool value => cases h
  | num value => cases h
  | str value => cases h
  | arr items => exact ⟨items, rfl⟩

theorem lookup_sanitized (hnames : (fields.map Prod.fst).Nodup) {name : CodeUnits}
    {value : UnitJson}
    (h : (listed ((keptFields fields).map (Prod.map id sanitizeCompleteJson))).lookup name =
      some value) :
    ∃ original, fields.lookup name = some original ∧ sanitizeCompleteJson original = value := by
  rw [listed, lookup_ownProperties, lookup_sortedByKey] at h
  obtain ⟨original, horiginal, heq⟩ := List.mem_map.mp (mem_of_lookup_eq_some h)
  obtain ⟨rfl, rfl⟩ := Prod.mk.inj heq
  exact ⟨original.2, lookup_of_mem hnames (mem_keptFields.mp horiginal).1, rfl⟩

theorem isBufferRecord_sanitized (hnames : (fields.map Prod.fst).Nodup)
    (h : isBufferRecord fields = false) :
    isBufferRecord (listed ((keptFields fields).map (Prod.map id sanitizeCompleteJson))) = false := by
  by_contra hbuffer
  rw [Bool.not_eq_false, isBufferRecord, Bool.and_eq_true_iff] at hbuffer
  obtain ⟨htype, hdata⟩ := hbuffer
  split at htype
  · next text hlookup =>
    split at hdata
    · next items hitems =>
      obtain ⟨type, htypes, hsame⟩ := lookup_sanitized hnames hlookup
      obtain ⟨data, hdatas, hlist⟩ := lookup_sanitized hnames hitems
      obtain rfl := sanitized_eq_str hsame
      obtain ⟨others, rfl⟩ := sanitized_eq_arr hlist
      rw [isBufferRecord, htypes, hdatas] at h
      exact Bool.noConfusion (htype.symm.trans ((Bool.and_true _).symm.trans h))
    · cases hdata
  · cases htype

theorem fixed_items {items : List UnitJson} :
    (items.filter fun item => !isLeftOut item).map sanitizeCompleteJson = items ↔
      ∀ item ∈ items, sanitizeCompleteJson item = item := by
  constructor
  · intro h
    have hlength := congrArg List.length h
    rw [List.length_map, List.length_filter_eq_length_iff] at hlength
    rw [List.filter_eq_self.mpr hlength] at h
    have hmap : items.map sanitizeCompleteJson = items.map id := h.trans (List.map_id items).symm
    exact List.map_inj_left.mp hmap
  · intro h
    have hkept : items.filter (fun item => !isLeftOut item) = items :=
      List.filter_eq_self.mpr fun item hitem => by simp [not_leftOut_of_fixed (h item hitem)]
    rw [hkept]
    exact (List.map_inj_left.mpr h).trans (List.map_id items)

theorem fixed_fields (hnames : (fields.map Prod.fst).Nodup) (hplain : PlainNames fields)
    (hlisted : listed fields = fields) :
    listed ((keptFields fields).map (Prod.map id sanitizeCompleteJson)) = fields ↔
      ∀ field ∈ fields, sanitizeCompleteJson field.2 = field.2 := by
  constructor
  · intro h field hfield
    have hperm := (listed_perm _).symm.trans (.of_eq h)
    have hlength := hperm.length_eq
    rw [List.length_map, keptFields, List.length_filter_eq_length_iff] at hlength
    rw [keptFields, List.filter_eq_self.mpr hlength] at hperm
    have hmem := hperm.mem_iff.mp (List.mem_map_of_mem hfield)
    have hsame := List.inj_on_of_nodup_map hnames hmem hfield rfl
    exact congrArg Prod.snd hsame
  · intro h
    have hkept : keptFields fields = fields := List.filter_eq_self.mpr fun field hfield => by
      simp [hplain field hfield, not_leftOut_of_fixed (h field hfield)]
    have hmap : fields.map (Prod.map id sanitizeCompleteJson) = fields := by
      refine (List.map_inj_left.mpr fun field hfield => ?_).trans (List.map_id fields)
      exact Prod.ext rfl (h field hfield)
    rw [hkept, hmap, hlisted]

theorem fixed_obj : sanitizeCompleteJson (.obj fields) = .obj fields ↔ isBinary fields = false ∧
    listed ((keptFields fields).map (Prod.map id sanitizeCompleteJson)) = fields := by
  constructor
  · intro h
    have hbinary : isBinary fields = false := not_leftOut_of_fixed h
    rw [sanitize_obj hbinary, UnitJson.obj.injEq] at h
    exact ⟨hbinary, h⟩
  · rintro ⟨hbinary, h⟩
    rw [sanitize_obj hbinary, h]

theorem sanitized_again {value : UnitJson} (h : value.Keyed) :
    sanitizeCompleteJson (sanitizeCompleteJson value) = sanitizeCompleteJson value ↔
      settles value = true := by
  induction h with
  | null => exact ⟨fun _ => rfl, fun _ => rfl⟩
  | bool value => exact ⟨fun _ => rfl, fun _ => rfl⟩
  | num value => exact ⟨fun _ => rfl, fun _ => rfl⟩
  | str value => exact ⟨fun _ => rfl, fun _ => rfl⟩
  | @arr items _ ih =>
    rw [sanitize_arr, sanitize_arr, UnitJson.arr.injEq, fixed_items, List.forall_mem_map, settles,
      itemsSettle_iff]
    constructor
    · intro hfixed item hitem
      by_cases hleft : isLeftOut item = true
      · exact settles_of_leftOut hleft
      · exact (ih item hitem).mp (hfixed item (List.mem_filter.mpr ⟨hitem, by simp [hleft]⟩))
    · intro hsettles item hitem
      have hmem := List.mem_of_mem_filter hitem
      exact (ih item hmem).mpr (hsettles item hmem)
  | @obj fields hnames _ ih =>
    by_cases hbinary : isBinary fields = true
    · rw [sanitize_binary hbinary, settles, hbinary]
      exact ⟨fun _ => rfl, fun _ => rfl⟩
    rw [Bool.not_eq_true] at hbinary
    have hbuffer := isBufferRecord_sanitized hnames (Bool.or_eq_false_iff.mp hbinary).1
    have hkeys := ((listed_perm _).map Prod.fst).nodup_iff.mpr (nodup_kept hnames)
    have hplain : PlainNames
        (listed ((keptFields fields).map (Prod.map id sanitizeCompleteJson))) := by
      intro field hfield
      obtain ⟨original, horiginal, rfl⟩ := List.mem_map.mp ((listed_perm _).mem_iff.mp hfield)
      exact (mem_keptFields.mp horiginal).2.1
    rw [sanitize_obj hbinary, fixed_obj, fixed_fields hkeys hplain (listed_listed (nodup_kept hnames)),
      isBinary, hbuffer, Bool.false_or, isByteRecord_sanitized, settles, hbinary, Bool.false_or,
      Bool.and_eq_true_iff, Bool.not_eq_true', fieldsSettle_iff]
    refine and_congr_right fun _ => ?_
    constructor
    · intro hfixed field hfield
      refine (ih field (mem_keptFields.mp hfield).1).mp ?_
      exact hfixed (Prod.map id sanitizeCompleteJson field)
        ((listed_perm _).mem_iff.mpr (List.mem_map_of_mem hfield))
    · intro hsettles field hfield
      obtain ⟨original, horiginal, rfl⟩ := List.mem_map.mp ((listed_perm _).mem_iff.mp hfield)
      exact (ih original (mem_keptFields.mp horiginal).1).mpr (hsettles original horiginal)

/-- What is expected of a document that is sanitized: sanitizing it once more changes nothing, and
it is a JSON document without a sensitive key. -/
structure SanitizedLaw (value : UnitJson) : Prop where
  again : sanitizeCompleteJson (sanitizeCompleteJson value) = sanitizeCompleteJson value
  keyed : (sanitizeCompleteJson value).Keyed
  redacted : Redacted (sanitizeCompleteJson value)

theorem sanitizedLaw_iff (document : JsonDocument) :
    SanitizedLaw document.value ↔ settles document.value = true := by
  constructor
  · intro h
    exact (sanitized_again document.keyed).mp h.again
  · intro h
    refine ⟨?_, ?_, ?_⟩
    · exact (sanitized_again document.keyed).mpr h
    · exact keyed_sanitized document.keyed
    · exact redacted_sanitized document.keyed

/-- `{ "0": 1, "token": "t" }` -/
def labelledByte : JsonDocument where
  value := .obj [(ofString "0", .num (.ofNat 1)), (ofString "token", .str (ofString "t"))]
  keyed := by
    refine .obj (by decide) ?_
    simp only [List.forall_mem_cons]
    exact ⟨.num _, .str _, nofun⟩

/-- Without its token the record is taken for bytes. -/
theorem labelledByte_lost : ¬ SanitizedLaw labelledByte.value := by
  intro h
  exact absurd ((sanitized_again labelledByte.keyed).mp h.again) (by decide)

end Again

end SafeJson

end ClockifyAssistant
