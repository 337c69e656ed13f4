import ClockifyAssistant.Lib.ObjectKeys
import ClockifyAssistant.Schema
import Mathlib.Data.List.Infix

/-!
Evidence made safe. Secrets and binary data are left out; what is stored is bounded besides, and
what is compared is not.
-/
namespace ClockifyAssistant

open Lib Lib.CodeUnits Lib.ObjectKeys

namespace SafeJson

abbrev Fields := List (CodeUnits × UnitJson)

/-! The words of the `SENSITIVE_KEY` pattern -/

def sensitiveWords : List CodeUnits :=
  ["authorization", "cookie", "header", "secret", "token", "password", "apikey", "api_key",
    "api-key", "bytes", "binary"].map ofString

def lowered (u : UInt16) : UInt16 := if 0x41 ≤ u.toNat && u.toNat ≤ 0x5a then u + 0x20 else u

def isSensitiveKey (key : CodeUnits) : Bool :=
  sensitiveWords.any fun word => decide (word <:+: key.map lowered)

def maxString : Nat := 4096
def maxArray : Nat := 128
def maxDepth : Nat := 12

/-! Binary data as JSON shows it -/

def isBufferRecord (fields : Fields) : Bool :=
  (match fields.lookup (ofString "type") with
    | some (.str text) => text == ofString "Buffer"
    | _ => false) &&
  match fields.lookup (ofString "data") with
    | some (.arr _) => true
    | _ => false

def isByte : UnitJson → Bool
  | .num value => (List.range 256).any fun n => value.units == CodeUnits.ofNat n
  | _ => false

def isByteRecord (fields : Fields) : Bool :=
  !fields.isEmpty && fields.all fun field => isNumeric field.1 && isByte field.2

def isBinary (fields : Fields) : Bool := isBufferRecord fields || isByteRecord fields

/-! What stands in for what was cut -/

def boundedText (text : CodeUnits) : CodeUnits :=
  if text.length ≤ maxString then text else text.take (maxString - 1) ++ ofString "…"

def truncatedField : CodeUnits × UnitJson := (ofString "truncated", .bool true)

def depthMarker : UnitJson :=
  .obj [truncatedField, (ofString "reason", .str (ofString "max_depth"))]

def itemsMarker (count : Nat) : UnitJson :=
  .obj [truncatedField, (ofString "originalItemCount", .num (.ofNat count))]

mutual

/-- `none` is a value that is left out. -/
def normalized (depth : Nat) : UnitJson → Option UnitJson
  | .str text => some (.str (boundedText text))
  | .arr items =>
      if maxDepth ≤ depth then some depthMarker
      else some (.arr (normalizedItems (depth + 1) maxArray items ++
        if maxArray < items.length then [itemsMarker items.length] else []))
  | .obj fields =>
      if isBinary fields then none
      else if maxDepth ≤ depth then some depthMarker
      else some (.obj (ownProperties (sortedByKey (normalizedFields (depth + 1) fields))))
  | value => some value

def normalizedItems (depth : Nat) : Nat → List UnitJson → List UnitJson
  | _, [] => []
  | 0, _ => []
  | room + 1, item :: rest =>
      (normalized depth item).toList ++ normalizedItems depth room rest

def normalizedFields (depth : Nat) : Fields → Fields
  | [] => []
  | (name, value) :: rest =>
      (if isSensitiveKey name then []
        else (normalized depth value).toList.map fun child => (name, child)) ++
      normalizedFields depth rest

end

mutual

def completeNormalized : UnitJson → Option UnitJson
  | .arr items => some (.arr (completeItems items))
  | .obj fields =>
      if isBinary fields then none
      else some (.obj (ownProperties (sortedByKey (completeFields fields))))
  | value => some value

def completeItems : List UnitJson → List UnitJson
  | [] => []
  | item :: rest => (completeNormalized item).toList ++ completeItems rest

def completeFields : Fields → Fields
  | [] => []
  | (name, value) :: rest =>
      (if isSensitiveKey name then []
        else (completeNormalized value).toList.map fun child => (name, child)) ++
      completeFields rest

end

def sanitizeJson (value : UnitJson) : UnitJson := (normalized 0 value).getD .null

def sanitizeCompleteJson (value : UnitJson) : UnitJson := (completeNormalized value).getD .null

def exactField (field : CodeUnits × Except String UnitJson) : Except String (CodeUnits × UnitJson) :=
  if isSensitiveKey field.1 then .error "durable_evidence_sensitive"
  else field.2.map fun child => (field.1, child)

mutual

def exactNonsecret : UnitJson → Except String UnitJson
  | .arr items => (exactItems items).map .arr
  | .obj fields =>
      if isBufferRecord fields then .error "durable_evidence_binary"
      else
        -- the first bad name in the order of the names decides the error
        ((sortedByKey (exactFields fields)).mapM exactField).map fun safe => .obj (ownProperties safe)
  | value => .ok value

def exactItems : List UnitJson → Except String (List UnitJson)
  | [] => .ok []
  | item :: rest => do
      let first ← exactNonsecret item
      return first :: (← exactItems rest)

def exactFields : Fields → List (CodeUnits × Except String UnitJson)
  | [] => []
  | (name, value) :: rest => (name, exactNonsecret value) :: exactFields rest

end

def jsonByteLength (value : UnitJson) : Nat := byteLength value.stringify

def exactNonsecretJson (value : UnitJson) (maxBytes : Nat) : Except String UnitJson := do
  let safe ← exactNonsecret value
  if maxBytes < jsonByteLength safe then throw "durable_evidence_too_large"
  return safe

/-- The greatest number that fits, if all below it fit. -/
def bisect (fits : Nat → Bool) (low high : Nat) : Nat :=
  if low < high then
    let middle := (low + high + 1) / 2
    if fits middle then bisect fits middle high else bisect fits low (middle - 1)
  else low
termination_by high - low

def previewOf (value : CodeUnits) (originalByteCount units : Nat) : UnitJson :=
  .obj [truncatedField, (ofString "originalByteCount", .num (.ofNat originalByteCount)),
    (ofString "preview", .str (value.take units))]

def boundedPreview (value : CodeUnits) (originalByteCount maxBytes : Nat) : UnitJson :=
  let units := bisect
    (fun units => jsonByteLength (previewOf value originalByteCount units) ≤ maxBytes) 0 value.length
  let result := previewOf value originalByteCount units
  let minimal : UnitJson := .obj [truncatedField]
  if jsonByteLength result ≤ maxBytes then result
  else if jsonByteLength minimal ≤ maxBytes then minimal
  else .null

def maxBytes : Nat := 65536

def boundedSanitizedJson (value : UnitJson) : UnitJson :=
  let safe := sanitizeJson value
  if jsonByteLength safe ≤ maxBytes then safe
  else boundedPreview safe.stringify (byteLength safe.stringify) maxBytes

section Fingerprint

variable (sha256 : CodeUnits → Hash)

def sanitizedFingerprint (value : UnitJson) : Hash :=
  sha256 (sanitizeCompleteJson value).stringify

variable {sha256}

/-- Values with one fingerprint are the same when they are sanitized completely. -/
theorem sanitizedFingerprint_eq_iff (hsha : Function.Injective sha256) {value other : UnitJson} :
    sanitizedFingerprint sha256 value = sanitizedFingerprint sha256 other ↔
      sanitizeCompleteJson value = sanitizeCompleteJson other := by
  constructor
  · intro h
    exact UnitJson.stringify_injective (hsha h)
  · intro h
    rw [sanitizedFingerprint, sanitizedFingerprint, h]

end Fingerprint

section Names

variable {fields : Fields} {field : CodeUnits × UnitJson}

theorem mem_completeFields : field ∈ completeFields fields ↔ isSensitiveKey field.1 = false ∧
      ∃ value, (field.1, value) ∈ fields ∧ completeNormalized value = some field.2 := by
  obtain ⟨name, child⟩ := field
  induction fields with
  | nil => simp [completeFields]
  | cons first rest ih =>
    obtain ⟨first, value⟩ := first
    rw [completeFields, List.mem_append, ih]
    by_cases hkey : isSensitiveKey first = true
    · rw [if_pos hkey]
      simp only [List.not_mem_nil, false_or, List.mem_cons, Prod.mk.injEq]
      constructor
      · rintro ⟨hplain, other, hmem, hchild⟩
        exact ⟨hplain, other, .inr hmem, hchild⟩
      · rintro ⟨hplain, other, ⟨rfl, rfl⟩ | hmem, hchild⟩
        · exact Bool.noConfusion (hkey.symm.trans hplain)
        · exact ⟨hplain, other, hmem, hchild⟩
    · rw [if_neg hkey]
      simp only [List.mem_map, Option.mem_toList, Prod.mk.injEq, List.mem_cons]
      rw [Bool.not_eq_true] at hkey
      constructor
      · rintro (⟨other, hother, rfl, rfl⟩ | ⟨hplain, other, hmem, hchild⟩)
        · exact ⟨hkey, value, .inl ⟨rfl, rfl⟩, hother⟩
        · exact ⟨hplain, other, .inr hmem, hchild⟩
      · rintro ⟨hplain, other, ⟨rfl, rfl⟩ | hmem, hchild⟩
        · exact .inl ⟨child, hchild, rfl, rfl⟩
        · exact .inr ⟨hplain, other, hmem, hchild⟩

/-- A text under a name that is not sensitive tells documents apart. -/
theorem sanitizeCompleteJson_ne_of_text {name text : CodeUnits} {others : Fields}
    (hname : isSensitiveKey name = false) (hbinary : isBinary ((name, .str text) :: fields) = false)
    (hothers : isBinary others = false) (habsent : ∀ value, (name, value) ∉ others) :
    sanitizeCompleteJson (.obj ((name, .str text) :: fields)) ≠ sanitizeCompleteJson (.obj others) := by
  intro h
  have hdocument : completeNormalized (.obj ((name, .str text) :: fields)) =
      some (.obj (ownProperties (sortedByKey (completeFields ((name, .str text) :: fields))))) := by
    rw [completeNormalized, if_neg (by simp [hbinary])]
  have hother : completeNormalized (.obj others) =
      some (.obj (ownProperties (sortedByKey (completeFields others)))) := by
    rw [completeNormalized, if_neg (by simp [hothers])]
  rw [sanitizeCompleteJson, sanitizeCompleteJson, hdocument, hother, Option.getD_some,
    Option.getD_some, UnitJson.obj.injEq] at h
  have hmem : (name, UnitJson.str text) ∈ completeFields ((name, .str text) :: fields) :=
    mem_completeFields.mpr ⟨hname, .str text, List.mem_cons_self, rfl⟩
  have hcopied : (name, UnitJson.str text) ∈ completeFields others := by
    rw [← mem_sortedByKey, ← mem_ownProperties, ← h, mem_ownProperties, mem_sortedByKey]
    exact hmem
  obtain ⟨-, value, hvalue, -⟩ := mem_completeFields.mp hcopied
  exact habsent value hvalue

end Names

end SafeJson

end ClockifyAssistant
