import ClockifyAssistant.Lib.HostValue
import ClockifyAssistant.SanitizedEvidence

/-!
Sanitizing the values of a program, which hold more than JSON does, and bounding the JSON text of
the result. The text that is too long is cut by its units, and the cut is tried in full.
-/
namespace ClockifyAssistant

open Lib Lib.CodeUnits Lib.ObjectKeys Lib.UnitJson

namespace SafeJson

namespace Host

abbrev Record := List (CodeUnits × HostValue)

def isBufferRecord (fields : Record) : Bool :=
  (match fields.lookup (ofString "type") with
    | some (.str text) => text == ofString "Buffer"
    | _ => false) &&
  match fields.lookup (ofString "data") with
    | some (.arr _) => true
    | _ => false

def isByte : HostValue → Bool
  | .num value => SafeJson.isByte (.num value)
  | .undefined | .null | .bool _ | .nonFinite | .str _ | .arr _ | .obj _ => false

def isByteRecord (fields : Record) : Bool :=
  !fields.isEmpty && fields.all fun field => isNumeric field.1 && isByte field.2

def isBinary (fields : Record) : Bool := isBufferRecord fields || isByteRecord fields

mutual

def normalized (depth : Nat) : HostValue → Option HostValue
  | .undefined => none
  | .null => some .null
  | .bool value => some (.bool value)
  | .num value => some (.num value)
  | .nonFinite => some .nonFinite
  | .str text => some (.str (boundedText text))
  | .arr items =>
      if maxDepth ≤ depth then some (HostValue.ofJson depthMarker)
      else some (.arr (normalizedItems (depth + 1) maxArray items ++
        if maxArray < items.length then [HostValue.ofJson (itemsMarker items.length)] else []))
  | .obj fields =>
      if isBinary fields then none
      else if maxDepth ≤ depth then some (HostValue.ofJson depthMarker)
      else some (.obj (listed (normalizedFields (depth + 1) fields)))

def normalizedItems (depth : Nat) : Nat → List HostValue → List HostValue
  | _, [] => []
  | 0, _ => []
  | room + 1, item :: rest =>
      (normalized depth item).toList ++ normalizedItems depth room rest

def normalizedFields (depth : Nat) : Record → Record
  | [] => []
  | (name, value) :: rest =>
      (if isSensitiveKey name then []
        else (normalized depth value).toList.map fun child => (name, child)) ++
      normalizedFields depth rest

end

mutual

def completeNormalized : HostValue → Option HostValue
  | .undefined => none
  | .null => some .null
  | .bool value => some (.bool value)
  | .num value => some (.num value)
  | .nonFinite => some .nonFinite
  | .str text => some (.str text)
  | .arr items => some (.arr (completeItems items))
  | .obj fields =>
      if isBinary fields then none else some (.obj (listed (completeFields fields)))

def completeItems : List HostValue → List HostValue
  | [] => []
  | item :: rest => (completeNormalized item).toList ++ completeItems rest

def completeFields : Record → Record
  | [] => []
  | (name, value) :: rest =>
      (if isSensitiveKey name then []
        else (completeNormalized value).toList.map fun child => (name, child)) ++
      completeFields rest

end

def sanitizeJson (value : HostValue) : HostValue := (normalized 0 value).getD .null

def sanitizeCompleteJson (value : HostValue) : HostValue := (completeNormalized value).getD .null

/-- `JSON.stringify(value)` of a value that is not undefined -/
def stringify (value : HostValue) : CodeUnits := ((HostValue.copied value).getD .null).stringify

def jsonByteLength (value : HostValue) : Nat := byteLength (stringify value)

/-- The value itself, or what is shown of its text, in a text of at most so many bytes. -/
def bounded (safe : HostValue) (maxBytes : Nat) : HostValue :=
  if jsonByteLength safe ≤ maxBytes then safe
  else
    let encoded := stringify safe
    HostValue.ofJson (boundedPreview encoded (byteLength encoded) maxBytes)

def boundedSanitizedJson (value : HostValue) (maxBytes : Nat) : HostValue :=
  bounded (sanitizeJson value) maxBytes

def boundedCompleteSanitizedJson (value : HostValue) (maxBytes : Nat) : HostValue :=
  bounded (sanitizeCompleteJson value) maxBytes

/-! What the JSON text of a value shows -/

section Copies

mutual

theorem copied_ofJson (value : UnitJson) : HostValue.copied
    (HostValue.ofJson value) = some value := by
  cases value with
  | arr items => rw [HostValue.ofJson, HostValue.copied, copiedItems_ofJson items]
  | obj fields => rw [HostValue.ofJson, HostValue.copied, copiedFields_ofJson fields]
  | null => rfl
  | bool value => rfl
  | num value => rfl
  | str value => rfl

theorem copiedItems_ofJson (items : List UnitJson) :
    HostValue.copiedItems (HostValue.ofJsonItems items) = items := by
  cases items with
  | nil => rfl
  | cons item rest =>
    rw [HostValue.ofJsonItems, HostValue.copiedItems, copied_ofJson item, copiedItems_ofJson rest]
    rfl

theorem copiedFields_ofJson (fields : Fields) :
    HostValue.copiedFields (HostValue.ofJsonFields fields) = fields := by
  cases fields with
  | nil => rfl
  | cons field rest =>
    obtain ⟨name, value⟩ := field
    rw [HostValue.ofJsonFields, HostValue.copiedFields, copied_ofJson value,
      copiedFields_ofJson rest]
    rfl

end

theorem stringify_ofJson (json : UnitJson) : stringify
    (HostValue.ofJson json) = json.stringify := by
  rw [stringify, copied_ofJson, Option.getD_some]

theorem copiedItems_eq_map (items : List HostValue) :
    HostValue.copiedItems items = items.map fun item => (HostValue.copied item).getD .null := by
  induction items with
  | nil => rfl
  | cons item rest ih => rw [HostValue.copiedItems, ih, List.map_cons]

theorem mem_copiedFields {fields : Record} {field : CodeUnits × UnitJson} :
    field ∈ HostValue.copiedFields fields ↔
      ∃ value, (field.1, value) ∈ fields ∧ HostValue.copied value = some field.2 := by
  induction fields with
  | nil => simp [HostValue.copiedFields]
  | cons first rest ih =>
    obtain ⟨name, value⟩ := first
    obtain ⟨key, child⟩ := field
    rw [HostValue.copiedFields, List.mem_append, ih]
    simp only [List.mem_map, Option.mem_toList, Prod.mk.injEq, List.mem_cons]
    constructor
    · rintro (⟨other, hother, rfl, rfl⟩ | ⟨other, hmem, hother⟩)
      · exact ⟨value, .inl ⟨rfl, rfl⟩, hother⟩
      · exact ⟨other, .inr hmem, hother⟩
    · rintro ⟨other, ⟨rfl, rfl⟩ | hmem, hother⟩
      · exact .inl ⟨child, hother, rfl, rfl⟩
      · exact .inr ⟨other, hmem, hother⟩

def ShowsRedacted (value : HostValue) : Prop :=
  ∃ json, HostValue.copied value = some json ∧ Redacted json

theorem ShowsRedacted.ofJson {json : UnitJson} (h : Redacted json) :
    ShowsRedacted (HostValue.ofJson json) := ⟨json, copied_ofJson json, h⟩

theorem ShowsRedacted.arr {items : List HostValue} (h : ∀ item ∈ items, ShowsRedacted item) :
    ShowsRedacted (.arr items) := by
  refine ⟨_, rfl, .arr ?_⟩
  rw [copiedItems_eq_map, List.forall_mem_map]
  intro item hitem
  obtain ⟨json, hjson, hredacted⟩ := h item hitem
  rw [hjson]
  exact hredacted

theorem ShowsRedacted.obj {fields : Record}
    (hnames : ∀ field ∈ fields, isSensitiveKey field.1 = false)
    (h : ∀ field ∈ fields, ShowsRedacted field.2) : ShowsRedacted (.obj fields) := by
  refine ⟨_, rfl, .obj ?_ ?_⟩
  · intro field hfield
    obtain ⟨value, hmem, -⟩ := mem_copiedFields.mp hfield
    exact hnames _ hmem
  · intro field hfield
    obtain ⟨value, hmem, hvalue⟩ := mem_copiedFields.mp hfield
    obtain ⟨json, hjson, hredacted⟩ := h _ hmem
    rw [hvalue] at hjson
    cases hjson
    exact hredacted

theorem ShowsRedacted.listed {fields : Record}
    (h : ∀ field ∈ fields, isSensitiveKey field.1 = false ∧ ShowsRedacted field.2) :
    ShowsRedacted (.obj (listed fields)) :=
  .obj (fun field hfield => (h field ((listed_perm _).mem_iff.mp hfield)).1)
    fun field hfield => (h field ((listed_perm _).mem_iff.mp hfield)).2

theorem redacted_field {name : CodeUnits} {shown : Option HostValue} {field : CodeUnits × HostValue}
    (hshown : ∀ safe, shown = some safe → ShowsRedacted safe)
    (h : field ∈ if isSensitiveKey name then [] else shown.toList.map fun child => (name, child)) :
    isSensitiveKey field.1 = false ∧ ShowsRedacted field.2 := by
  split at h
  · cases h
  next hname =>
    obtain ⟨child, hchild, rfl⟩ := List.mem_map.mp h
    exact ⟨by simpa using hname, hshown child (Option.mem_toList.mp hchild)⟩

end Copies

/-! No sensitive key is shown -/

section Redacting

theorem plain_markers : PlainNames
    (["truncated", "reason", "originalItemCount", "originalByteCount",
    "preview"].map fun name => (ofString name, .null)) := by
  unfold PlainNames
  decide +kernel

theorem redacted_depthMarker : Redacted depthMarker := by
  have htruncated := plain_markers (ofString "truncated", .null) (.head _)
  have hreason := plain_markers (ofString "reason", .null) (.tail _ (.head _))
  refine .obj ?_ ?_
  · simp only [PlainNames, List.forall_mem_cons]
    exact ⟨htruncated, hreason, List.forall_mem_nil _⟩
  · simp only [List.forall_mem_cons]
    exact ⟨.bool _, .str _, List.forall_mem_nil _⟩

theorem redacted_itemsMarker (count : Nat) : Redacted (itemsMarker count) := by
  have htruncated := plain_markers (ofString "truncated", .null) (.head _)
  have hcount := plain_markers (ofString "originalItemCount", .null) (.tail _ (.tail _ (.head _)))
  refine .obj ?_ ?_
  · simp only [PlainNames, List.forall_mem_cons]
    exact ⟨htruncated, hcount, List.forall_mem_nil _⟩
  · simp only [List.forall_mem_cons]
    exact ⟨.bool _, .num _, List.forall_mem_nil _⟩

mutual

theorem redacted_normalized (depth : Nat) (value : HostValue) :
    ∀ safe, normalized depth value = some safe → ShowsRedacted safe := by
  intro safe h
  cases value with
  | undefined => cases h
  | null | bool value | num value | nonFinite | str text =>
    cases h
    exact ⟨_, rfl, by constructor⟩
  | arr items =>
    rw [normalized] at h
    split at h
    · cases h
      exact .ofJson redacted_depthMarker
    · cases h
      refine .arr fun item hitem => ?_
      rcases List.mem_append.mp hitem with hrow | hmarker
      · exact redacted_normalizedItems (depth + 1) maxArray items item hrow
      · split at hmarker
        · obtain rfl := List.mem_singleton.mp hmarker
          exact .ofJson (redacted_itemsMarker items.length)
        · cases hmarker
  | obj fields =>
    rw [normalized] at h
    split at h
    · cases h
    · split at h
      · cases h
        exact .ofJson redacted_depthMarker
      · cases h
        exact .listed (redacted_normalizedFields (depth + 1) fields)

theorem redacted_normalizedItems (depth room : Nat) (items : List HostValue) :
    ∀ item ∈ normalizedItems depth room items, ShowsRedacted item := by
  intro item hitem
  cases items with
  | nil => cases room <;> cases hitem
  | cons first rest =>
    cases room with
    | zero => cases hitem
    | succ room =>
      rw [normalizedItems, List.mem_append, Option.mem_toList] at hitem
      rcases hitem with hfirst | hrest
      · exact redacted_normalized depth first item hfirst
      · exact redacted_normalizedItems depth room rest item hrest

theorem redacted_normalizedFields (depth : Nat) (fields : Record) :
    ∀ field ∈ normalizedFields depth fields,
      isSensitiveKey field.1 = false ∧ ShowsRedacted field.2 := by
  intro field hfield
  cases fields with
  | nil => cases hfield
  | cons first rest =>
    obtain ⟨name, value⟩ := first
    rw [normalizedFields, List.mem_append] at hfield
    rcases hfield with hfirst | hrest
    · exact redacted_field (redacted_normalized depth value) hfirst
    · exact redacted_normalizedFields depth rest field hrest

end

mutual

theorem redacted_complete (value : HostValue) :
    ∀ safe, completeNormalized value = some safe → ShowsRedacted safe := by
  intro safe h
  cases value with
  | undefined => cases h
  | null | bool value | num value | nonFinite | str text =>
    cases h
    exact ⟨_, rfl, by constructor⟩
  | arr items =>
    cases h
    exact .arr (redacted_completeItems items)
  | obj fields =>
    rw [completeNormalized] at h
    split at h
    · cases h
    · cases h
      exact .listed (redacted_completeFields fields)

theorem redacted_completeItems (items : List HostValue) :
    ∀ item ∈ completeItems items, ShowsRedacted item := by
  intro item hitem
  cases items with
  | nil => cases hitem
  | cons first rest =>
    rw [completeItems, List.mem_append, Option.mem_toList] at hitem
    rcases hitem with hfirst | hrest
    · exact redacted_complete first item hfirst
    · exact redacted_completeItems rest item hrest

theorem redacted_completeFields (fields : Record) :
    ∀ field ∈ completeFields fields, isSensitiveKey field.1 = false ∧ ShowsRedacted field.2 := by
  intro field hfield
  cases fields with
  | nil => cases hfield
  | cons first rest =>
    obtain ⟨name, value⟩ := first
    rw [completeFields, List.mem_append] at hfield
    rcases hfield with hfirst | hrest
    · exact redacted_field (redacted_complete value) hfirst
    · exact redacted_completeFields rest field hrest

end

theorem redacted_sanitizeJson (value : HostValue) : ShowsRedacted (sanitizeJson value) := by
  rw [sanitizeJson]
  cases h : normalized 0 value with
  | none => exact ⟨.null, rfl, .null⟩
  | some safe => exact redacted_normalized 0 value safe h

theorem redacted_sanitizeCompleteJson (value : HostValue) :
    ShowsRedacted (sanitizeCompleteJson value) := by
  rw [sanitizeCompleteJson]
  cases h : completeNormalized value with
  | none => exact ⟨.null, rfl, .null⟩
  | some safe => exact redacted_complete value safe h

end Redacting

/-! The bound -/

section Bound

variable {maxBytes : Nat}

/-- The preview is tried in its final form, so it fits whatever its escapes take. -/
theorem boundedPreview_fits (hmax : SafeJson.jsonByteLength .null ≤ maxBytes) (text : CodeUnits)
    (originalByteCount : Nat) :
    SafeJson.jsonByteLength (boundedPreview text originalByteCount maxBytes) ≤ maxBytes := by
  unfold boundedPreview
  dsimp only
  split
  next hfits => exact hfits
  next =>
    split
    next hminimal => exact hminimal
    next => exact hmax

theorem redacted_boundedPreview (text : CodeUnits) (originalByteCount maxBytes : Nat) :
    Redacted (boundedPreview text originalByteCount maxBytes) := by
  have htruncated := plain_markers (ofString "truncated", .null) (.head _)
  have hcount := plain_markers (ofString "originalByteCount", .null)
    (.tail _ (.tail _ (.tail _ (.head _))))
  have hpreview := plain_markers (ofString "preview", .null)
    (.tail _ (.tail _ (.tail _ (.tail _ (.head _)))))
  have hminimal : Redacted (.obj [truncatedField]) := by
    refine .obj ?_ ?_
    · simp only [PlainNames, List.forall_mem_singleton]
      exact htruncated
    · simp only [List.forall_mem_singleton]
      exact .bool _
  unfold boundedPreview
  dsimp only
  split
  · refine .obj ?_ ?_
    · simp only [PlainNames, List.forall_mem_cons]
      exact ⟨htruncated, hcount, hpreview, List.forall_mem_nil _⟩
    · simp only [List.forall_mem_cons]
      exact ⟨.bool _, .num _, .str _, List.forall_mem_nil _⟩
  · split
    · exact hminimal
    · exact .null

structure BoundedLaw (safe : HostValue) (maxBytes : Nat) (result : HostValue) : Prop where
  valid : ∃ json, HostValue.copied result = some json ∧ stringify result = json.stringify ∧
    Redacted json
  fits : jsonByteLength result ≤ maxBytes
  whole : jsonByteLength safe ≤ maxBytes → stringify result = stringify safe

theorem bounded_law {safe : HostValue} (hsafe : ShowsRedacted safe)
    (hmax : SafeJson.jsonByteLength .null ≤ maxBytes) :
    BoundedLaw safe maxBytes (bounded safe maxBytes) := by
  unfold bounded
  split
  next hfits =>
    obtain ⟨json, hjson, hredacted⟩ := hsafe
    exact ⟨⟨json, hjson, by rw [stringify, hjson, Option.getD_some], hredacted⟩, hfits, fun _ => rfl⟩
  next hlong =>
    have hredacted := redacted_boundedPreview (stringify safe) (byteLength (stringify safe)) maxBytes
    have hfits := boundedPreview_fits hmax (stringify safe) (byteLength (stringify safe))
    dsimp only
    generalize boundedPreview (stringify safe) (byteLength (stringify safe)) maxBytes = preview
      at hredacted hfits ⊢
    refine ⟨⟨preview, copied_ofJson preview, stringify_ofJson preview, hredacted⟩, ?_,
      fun hwhole => absurd hwhole hlong⟩
    rw [jsonByteLength, stringify_ofJson]
    exact hfits

/-- The smallest result is a null; every limit that has room for it is kept. -/
theorem boundedSanitized_law (value : HostValue) (hmax : SafeJson.jsonByteLength .null ≤ maxBytes) :
    BoundedLaw (sanitizeJson value) maxBytes (boundedSanitizedJson value maxBytes) ∧
      BoundedLaw (sanitizeCompleteJson value) maxBytes
        (boundedCompleteSanitizedJson value maxBytes) := by
  constructor
  · exact bounded_law (redacted_sanitizeJson value) hmax
  · exact bounded_law (redacted_sanitizeCompleteJson value) hmax

/-- A limit that only a null fits. -/
theorem boundedSanitized_law_null : BoundedLaw (sanitizeJson (.str (ofString "abc"))) 4
        (boundedSanitizedJson (.str (ofString "abc")) 4) ∧
      BoundedLaw (sanitizeCompleteJson (.str (ofString "abc"))) 4
        (boundedCompleteSanitizedJson (.str (ofString "abc")) 4) :=
  boundedSanitized_law (.str (ofString "abc")) (by decide)

end Bound

end Host

end SafeJson

end ClockifyAssistant
