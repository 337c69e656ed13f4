import ClockifyAssistant.Assistant.ToolResults
import Mathlib.Algebra.Order.BigOperators.Group.List

/-!
Whether the copy of a receipt that goes back to the model fits its budget and still says what
the receipt says. Long strings and long arrays are cut at every depth, wide and deep objects
are not, and of the fields of a receipt that is still too large only the data is replaced.
-/
namespace ClockifyAssistant.ToolResults

open Lib Lib.CodeUnits Lib.UnitJson

/-- The code of an error. -/
def ReceiptJson.errorCode (receipt : ReceiptJson) : Option CodeUnits :=
  match receipt.ok, receipt.fields.lookup codeName with
  | false, some (.str code) => some code
  | _, _ => none

/-- The text is the JSON of an object within the budget that has the receipt's flag and the
code of an error, and it is the receipt itself where that fits. -/
structure WellCapped (receipt : ReceiptJson) (text : CodeUnits) : Prop where
  fits : byteLength text ≤ toolResultMaxBytes
  unchanged : byteLength receipt.json.stringify ≤ toolResultMaxBytes → text = receipt.json.stringify
  readable : ∃ visible, text = (UnitJson.obj visible).stringify ∧
    visible.lookup okName = some (.bool receipt.ok) ∧
    ∀ code, receipt.errorCode = some code → visible.lookup codeName = some (.str code)

mutual

/-- The bytes that a value takes once its long strings and long arrays are cut. -/
def cutBytes : UnitJson → Nat
  | .str value =>
      if prunedStringChars < value.length then
        escapedBytes (value.take prunedStringChars) +
          escapedBytes (stringTruncated (value.length - prunedStringChars)) + 2
      else escapedBytes value + 2
  | .arr items =>
      separatedBytes (cutHeadBytes prunedArrayItems items ++
        if prunedArrayItems < items.length then
          [escapedBytes (itemsOmitted (items.length - prunedArrayItems)) + 2]
        else []) + 2
  | .obj fields => separatedBytes (cutFieldBytes fields) + 2
  | value => value.bytes

def cutHeadBytes : Nat → List UnitJson → List Nat
  | count + 1, item :: rest => cutBytes item :: cutHeadBytes count rest
  | _, _ => []

def cutFieldBytes : List (CodeUnits × UnitJson) → List Nat
  | [] => []
  | (name, value) :: rest => (escapedBytes name + 3 + cutBytes value) :: cutFieldBytes rest

end

/-- The marker of a shortened copy, with the comma before it. -/
def markerBytes : Nat := 25

/-- The bytes of the receipt with a note in the place of its data. -/
def notedBytes (receipt : ReceiptJson) : Nat :=
  (UnitJson.obj (withoutData receipt.fields)).bytes + markerBytes +
    (escapedBytes (resultTooLarge receipt.json.bytes) + 19)

/-- The code is short, or what it has too much is the very note that a cut writes. -/
def CodeKept (code : CodeUnits) : Prop :=
  code.length ≤ prunedStringChars ∨
    code.drop prunedStringChars = stringTruncated (code.length - prunedStringChars)

/-- The receipt fits, or it fits once it is cut and its code is not cut with it, or what is
not its data fits uncut. -/
def FitsModel (receipt : ReceiptJson) : Prop :=
  receipt.json.bytes ≤ toolResultMaxBytes ∨
    (cutBytes receipt.json + markerBytes ≤ toolResultMaxBytes ∧
      ∀ code, receipt.errorCode = some code → CodeKept code) ∨
    (toolResultMaxBytes < cutBytes receipt.json + markerBytes ∧
      notedBytes receipt ≤ toolResultMaxBytes)

section Sizes

theorem fieldBytes_append (fields more : List (CodeUnits × UnitJson)) :
    fieldBytes (fields ++ more) = fieldBytes fields ++ fieldBytes more := by
  induction fields with
  | nil => rfl
  | cons field rest ih => rw [List.cons_append, fieldBytes, ih, fieldBytes, List.cons_append]

theorem itemBytes_append (items more : List UnitJson) :
    itemBytes (items ++ more) = itemBytes items ++ itemBytes more := by
  induction items with
  | nil => rfl
  | cons item rest ih => rw [List.cons_append, itemBytes, ih, itemBytes, List.cons_append]

theorem length_fieldBytes (fields : List (CodeUnits × UnitJson)) :
    (fieldBytes fields).length = fields.length := by
  induction fields with
  | nil => rfl
  | cons field rest ih => rw [fieldBytes, List.length_cons, ih, List.length_cons]

theorem bytes_obj_append {fields : List (CodeUnits × UnitJson)} (hne : fields ≠ [])
    (more : List (CodeUnits × UnitJson)) : (UnitJson.obj (fields ++ more)).bytes =
      (UnitJson.obj fields).bytes + ((fieldBytes more).sum + more.length) := by
  have hpos : 0 < fields.length := List.length_pos_iff.mpr hne
  simp only [bytes, separatedBytes, fieldBytes_append, List.sum_append, List.length_append,
    length_fieldBytes]
  omega

theorem escapedBytes_append_plain {u : UInt16} (hu : isTrail u = false) (s t : CodeUnits) :
    escapedBytes (s ++ u :: t) = escapedBytes s + escapedBytes (u :: t) := by
  fun_induction escapedBytes s with
  | case1 => rw [List.nil_append, Nat.zero_add]
  | case2 v =>
    rw [List.singleton_append, escapedBytes, isPair, hu, Bool.and_false, if_neg Bool.false_ne_true]
  | case3 v w rest hpair ih =>
    rw [List.cons_append, List.cons_append, escapedBytes, if_pos hpair, ih, Nat.add_assoc]
  | case4 v w rest hpair ih =>
    rw [List.cons_append] at ih
    rw [List.cons_append, List.cons_append, escapedBytes, if_neg hpair, ih, Nat.add_assoc]

theorem escapedBytes_truncated (s : CodeUnits) (chars : Nat) :
    escapedBytes (s ++ stringTruncated chars) =
      escapedBytes s + escapedBytes (stringTruncated chars) := by
  have hstart : ∃ rest, stringTruncated chars = 0x2026 :: rest := ⟨_, rfl⟩
  obtain ⟨rest, hrest⟩ := hstart
  rw [hrest]
  exact escapedBytes_append_plain (by decide) s rest

end Sizes

section Pruning

mutual

theorem bytes_pruneValue (value : UnitJson) : (pruneValue value).bytes = cutBytes value := by
  cases value with
  | null => rfl
  | bool value => rfl
  | num value => rfl
  | str value =>
    by_cases hlong : prunedStringChars < value.length
    · rw [pruneValue, if_pos hlong, bytes, escapedBytes_truncated, cutBytes, if_pos hlong]
    · rw [pruneValue, if_neg hlong, bytes, cutBytes, if_neg hlong]
  | arr items =>
    rw [pruneValue, bytes, itemBytes_append, bytes_pruneHead prunedArrayItems items, cutBytes]
    split <;> rfl
  | obj fields => rw [pruneValue, bytes, bytes_pruneFields fields, cutBytes]

theorem bytes_pruneHead (count : Nat) (items : List UnitJson) :
    itemBytes (pruneHead count items) = cutHeadBytes count items := by
  cases items with
  | nil => cases count <;> rfl
  | cons item rest =>
    cases count with
    | zero => rfl
    | succ count =>
      rw [pruneHead, itemBytes, bytes_pruneValue item, bytes_pruneHead count rest, cutHeadBytes]

theorem bytes_pruneFields (fields : List (CodeUnits × UnitJson)) :
    fieldBytes (pruneFields fields) = cutFieldBytes fields := by
  cases fields with
  | nil => rfl
  | cons field rest =>
    obtain ⟨name, value⟩ := field
    rw [pruneFields, fieldBytes, bytes_pruneValue value, bytes_pruneFields rest, cutFieldBytes]

end

theorem lookup_pruneFields (name : CodeUnits) (fields : List (CodeUnits × UnitJson)) :
    (pruneFields fields).lookup name = (fields.lookup name).map pruneValue := by
  induction fields with
  | nil => rfl
  | cons field rest ih =>
    obtain ⟨other, value⟩ := field
    rw [pruneFields, List.lookup_cons, List.lookup_cons]
    cases hname : name == other with
    | true => rfl
    | false => exact ih

theorem pruneValue_code {code : CodeUnits} :
    pruneValue (.str code) = .str code ↔ CodeKept code := by
  by_cases hlong : prunedStringChars < code.length
  · have hsplit := List.take_append_drop prunedStringChars code
    rw [pruneValue, if_pos hlong, UnitJson.str.injEq, CodeKept, or_iff_right (Nat.not_le.mpr hlong)]
    constructor
    · intro hcut
      exact List.append_cancel_left (hsplit.trans hcut.symm)
    · intro htail
      rw [← htail, hsplit]
  · rw [pruneValue, if_neg hlong, CodeKept]
    exact ⟨fun _ => Or.inl (Nat.le_of_not_lt hlong), fun _ => rfl⟩

end Pruning

section Capping

variable {receipt : ReceiptJson}

theorem errorCode_lookup {code : CodeUnits} (h : receipt.errorCode = some code) :
    receipt.fields.lookup codeName = some (.str code) := by
  unfold ReceiptJson.errorCode at h
  split at h
  · rename_i hcode
    rw [hcode, Option.some.inj h]
  · exact absurd h nofun

theorem ReceiptJson.fields_ne_nil (receipt : ReceiptJson) : receipt.fields ≠ [] := by
  intro hnil
  have hok := receipt.okField
  rw [hnil] at hok
  exact absurd hok nofun

theorem lookup_append_marker {name : CodeUnits} (fields : List (CodeUnits × UnitJson))
    (more : List (CodeUnits × UnitJson)) {value : UnitJson} (h : fields.lookup name = some value) :
    (fields ++ more).lookup name = some value := by
  rw [List.lookup_append, h, Option.some_or]

theorem lookup_withoutData {name : CodeUnits} (hname : name ≠ dataName)
    (fields : List (CodeUnits × UnitJson)) :
    (withoutData fields).lookup name = fields.lookup name := by
  induction fields with
  | nil => rfl
  | cons field rest ih =>
    obtain ⟨other, value⟩ := field
    rw [withoutData, List.filter_cons]
    by_cases hdata : other = dataName
    · subst hdata
      rw [if_neg (by simp), List.lookup_cons, beq_eq_false_iff_ne.mpr hname]
      exact ih
    · rw [if_pos (by simpa using hdata), List.lookup_cons, List.lookup_cons]
      exact congrArg (fun found => match name == other with
        | true => some value
        | false => found) ih

/-- The cut receipt under its marker. -/
def prunedFields (receipt : ReceiptJson) : List (CodeUnits × UnitJson) :=
  pruneFields receipt.fields ++ [(truncatedName, .bool true)]

def notedFields (receipt : ReceiptJson) : List (CodeUnits × UnitJson) :=
  withoutData receipt.fields ++
    [(truncatedName, .bool true),
      (dataName, .obj [(noteName, .str (resultTooLarge receipt.json.bytes))])]

theorem capToolResultForModel_eq (receipt : ReceiptJson) :
    capToolResultForModel receipt =
      if receipt.json.bytes ≤ toolResultMaxBytes then receipt.json.stringify
      else if (UnitJson.obj (prunedFields receipt)).bytes ≤ toolResultMaxBytes then
        (UnitJson.obj (prunedFields receipt)).stringify
      else (UnitJson.obj (notedFields receipt)).stringify := by
  simp only [capToolResultForModel, byteLength_stringify, ReceiptJson.json, pruneValue, ownFields,
    prunedFields, notedFields]
  rfl

theorem bytes_prunedFields (receipt : ReceiptJson) :
    (UnitJson.obj (prunedFields receipt)).bytes = cutBytes receipt.json + markerBytes := by
  have hne : pruneFields receipt.fields ≠ [] := by
    have hfields := receipt.fields_ne_nil
    cases hreceipt : receipt.fields with
    | nil => exact absurd hreceipt hfields
    | cons field rest => simp [pruneFields]
  rw [prunedFields, bytes_obj_append hne, ReceiptJson.json, ← bytes_pruneValue, pruneValue]
  rfl

theorem bytes_notedFields (receipt : ReceiptJson) :
    (UnitJson.obj (notedFields receipt)).bytes = notedBytes receipt := by
  have hne : withoutData receipt.fields ≠ [] := by
    intro hnil
    have hok := @lookup_withoutData okName (by decide) receipt.fields
    rw [hnil, receipt.okField] at hok
    exact absurd hok nofun
  have hmarker : escapedBytes truncatedName = 17 := by decide
  have hdata : escapedBytes dataName = 4 := by decide
  have hnote : escapedBytes noteName = 4 := by decide
  rw [notedFields, bytes_obj_append hne, notedBytes, markerBytes]
  simp only [fieldBytes, bytes, separatedBytes, hmarker, hdata, hnote, List.sum_cons, List.sum_nil,
    List.length_cons, List.length_nil]
  omega

theorem readable_iff {fields : List (CodeUnits × UnitJson)} :
    (∃ visible, (UnitJson.obj fields).stringify = (UnitJson.obj visible).stringify ∧
      visible.lookup okName = some (.bool receipt.ok) ∧
      ∀ code, receipt.errorCode = some code → visible.lookup codeName = some (.str code)) ↔
    fields.lookup okName = some (.bool receipt.ok) ∧
      ∀ code, receipt.errorCode = some code → fields.lookup codeName = some (.str code) := by
  constructor
  · rintro ⟨visible, htext, hshown⟩
    have hobj : fields = visible := UnitJson.obj.inj (stringify_injective htext)
    rwa [hobj]
  · intro hshown
    exact ⟨fields, rfl, hshown⟩

theorem wellCapped_of_fits (hfull : receipt.json.bytes ≤ toolResultMaxBytes) :
    WellCapped receipt receipt.json.stringify where
  fits := by rwa [byteLength_stringify]
  unchanged := fun _ => rfl
  readable := readable_iff.mpr ⟨receipt.okField, fun _ hcode => errorCode_lookup hcode⟩

/-- A receipt that does not fit is unchanged vacuously. -/
theorem wellCapped_iff_of_large (hfull : ¬ receipt.json.bytes ≤ toolResultMaxBytes)
    {fields : List (CodeUnits × UnitJson)} : WellCapped receipt (UnitJson.obj fields).stringify ↔
      (UnitJson.obj fields).bytes ≤ toolResultMaxBytes ∧
        fields.lookup okName = some (.bool receipt.ok) ∧
        ∀ code, receipt.errorCode = some code → fields.lookup codeName = some (.str code) := by
  constructor
  · intro hcapped
    have hfits := hcapped.fits
    rw [byteLength_stringify] at hfits
    exact ⟨hfits, readable_iff.mp hcapped.readable⟩
  · rintro ⟨hfits, hshown⟩
    refine ⟨by rwa [byteLength_stringify], fun hsmall => ?_, readable_iff.mpr hshown⟩
    rw [byteLength_stringify] at hsmall
    exact absurd hsmall hfull

theorem prunedFields_shown : ((prunedFields receipt).lookup okName = some (.bool receipt.ok) ∧
      ∀ code, receipt.errorCode = some code →
        (prunedFields receipt).lookup codeName = some (.str code)) ↔
      ∀ code, receipt.errorCode = some code → CodeKept code := by
  have hok : (prunedFields receipt).lookup okName = some (.bool receipt.ok) := by
    apply lookup_append_marker
    rw [lookup_pruneFields, receipt.okField]
    rfl
  have hcode : ∀ code, receipt.errorCode = some code →
      (prunedFields receipt).lookup codeName = some (pruneValue (.str code)) := by
    intro code herror
    apply lookup_append_marker
    rw [lookup_pruneFields, errorCode_lookup herror]
    rfl
  constructor
  · rintro ⟨-, hshown⟩ code herror
    have hsame := hshown code herror
    rw [hcode code herror] at hsame
    exact pruneValue_code.mp (Option.some.inj hsame)
  · intro hkept
    refine ⟨hok, fun code herror => ?_⟩
    rw [hcode code herror, pruneValue_code.mpr (hkept code herror)]

theorem notedFields_shown (receipt : ReceiptJson) :
    (notedFields receipt).lookup okName = some (.bool receipt.ok) ∧
      ∀ code, receipt.errorCode = some code →
        (notedFields receipt).lookup codeName = some (.str code) := by
  constructor
  · apply lookup_append_marker
    rw [lookup_withoutData (by decide), receipt.okField]
  · intro code herror
    apply lookup_append_marker
    rw [lookup_withoutData (by decide), errorCode_lookup herror]

end Capping

/-- The copy of a receipt that the model sees is within the budget and says what the receipt
says exactly where the receipt, its cut or its fields without data are small enough. -/
theorem toolResultTurn_wellCapped (toolCallId : CodeUnits) (receipt : ReceiptJson) :
    WellCapped receipt (toolResultTurn toolCallId receipt).content ↔ FitsModel receipt := by
  rw [toolResultTurn, capToolResultForModel_eq, bytes_prunedFields]
  by_cases hfull : receipt.json.bytes ≤ toolResultMaxBytes
  · rw [if_pos hfull]
    exact ⟨fun _ => Or.inl hfull, fun _ => wellCapped_of_fits hfull⟩
  · rw [if_neg hfull, FitsModel, or_iff_right hfull]
    by_cases hcut : cutBytes receipt.json + markerBytes ≤ toolResultMaxBytes
    · rw [if_pos hcut, wellCapped_iff_of_large hfull, bytes_prunedFields, prunedFields_shown,
        or_iff_left fun hlarge => absurd hcut (Nat.not_le.mpr hlarge.1)]
    · rw [if_neg hcut, wellCapped_iff_of_large hfull, bytes_notedFields,
        and_iff_left (notedFields_shown receipt), or_iff_right fun hsmall => hcut hsmall.1,
        and_iff_right (Nat.not_le.mp hcut)]

section LargeChanges

def changedRef (i : Nat) : UnitJson :=
  .obj [(ofString "type", .str (ofString "time_entry")), (ofString "id", .str (ofNat i)),
    (ofString "name", .str (List.replicate 1000 0x78))]

def changedRefs : List UnitJson := (List.range 25).map changedRef

/-- Twenty-five updated entries whose descriptions have a thousand characters each. -/
def largeChanges : ReceiptJson where
  fields := [(okName, .bool true), (ofString "action", .str (ofString "clockify_update_entries")),
    (ofString "changed", .obj [(ofString "updated", .arr changedRefs)])]
  ok := true
  okField := rfl
  codeField := nofun
  unmarked := by decide

theorem escapedBytes_replicate (n : Nat) : escapedBytes (List.replicate n 0x78) = n := by
  induction n with
  | zero => rfl
  | succ n ih =>
    rw [List.replicate_succ', escapedBytes_append_plain (by decide), ih]
    rfl

theorem itemBytes_eq_map (items : List UnitJson) : itemBytes items = items.map bytes := by
  induction items with
  | nil => rfl
  | cons item rest ih => rw [itemBytes, ih, List.map_cons]

theorem cutHeadBytes_eq_map (count : Nat) (items : List UnitJson) :
    cutHeadBytes count items = (items.take count).map cutBytes := by
  induction items generalizing count with
  | nil => cases count <;> rfl
  | cons item rest ih =>
    cases count with
    | zero => rfl
    | succ count => rw [cutHeadBytes, ih, List.take_succ_cons, List.map_cons]

theorem changedRef_bytes (i : Nat) : 1000 ≤ (changedRef i).bytes := by
  simp only [changedRef, bytes, fieldBytes, separatedBytes, escapedBytes_replicate, List.sum_cons]
  omega

theorem changedRef_cutBytes (i : Nat) : 1000 ≤ cutBytes (changedRef i) := by
  have hshort : ¬ prunedStringChars < (List.replicate 1000 (0x78 : UInt16)).length := by
    rw [List.length_replicate]
    decide
  simp only [changedRef, cutBytes, cutFieldBytes, separatedBytes, List.sum_cons, if_neg hshort,
    escapedBytes_replicate]
  omega

theorem changedRefs_bytes : 25000 ≤ (itemBytes changedRefs).sum := by
  have hsum := List.card_nsmul_le_sum (itemBytes changedRefs) 1000 fun size hsize => by
    rw [itemBytes_eq_map, changedRefs, List.map_map] at hsize
    obtain ⟨i, -, rfl⟩ := List.mem_map.mp hsize
    exact changedRef_bytes i
  rwa [itemBytes_eq_map, changedRefs, List.length_map, List.length_map, List.length_range,
    ← changedRefs, ← itemBytes_eq_map] at hsum

theorem changedRefs_cutBytes : 25000 ≤ (cutHeadBytes prunedArrayItems changedRefs).sum := by
  have hsum := List.card_nsmul_le_sum (cutHeadBytes prunedArrayItems changedRefs) 1000
    fun size hsize => by
      rw [cutHeadBytes_eq_map] at hsize
      obtain ⟨ref, href, rfl⟩ := List.mem_map.mp hsize
      obtain ⟨i, -, rfl⟩ := List.mem_map.mp (List.mem_of_mem_take href)
      exact changedRef_cutBytes i
  have hlength : (cutHeadBytes prunedArrayItems changedRefs).length = 25 := by
    rw [cutHeadBytes_eq_map]
    rfl
  rwa [hlength] at hsum

/-- No cut and no note makes room for them. -/
theorem largeChanges_over_budget : ¬ ∀ receipt : ReceiptJson,
    WellCapped receipt (capToolResultForModel receipt) := by
  intro hall
  have hfits := (hall largeChanges).fits
  have hfull : ¬ largeChanges.json.bytes ≤ toolResultMaxBytes := by
    have hrefs := changedRefs_bytes
    simp only [ReceiptJson.json, largeChanges, bytes, fieldBytes, separatedBytes, List.sum_cons,
      toolResultMaxBytes]
    omega
  have hcut : ¬ cutBytes largeChanges.json + markerBytes ≤ toolResultMaxBytes := by
    have hrefs := changedRefs_cutBytes
    simp only [ReceiptJson.json, largeChanges, cutBytes, cutFieldBytes, separatedBytes,
      List.sum_cons, List.sum_append, toolResultMaxBytes]
    omega
  have hnoted : ¬ notedBytes largeChanges ≤ toolResultMaxBytes := by
    have hrefs := changedRefs_bytes
    have hdata : withoutData largeChanges.fields = largeChanges.fields := by rfl
    rw [notedBytes, hdata]
    have hjson : (UnitJson.obj largeChanges.fields).bytes = largeChanges.json.bytes := rfl
    omega
  rw [capToolResultForModel_eq, if_neg hfull, bytes_prunedFields, if_neg hcut,
    byteLength_stringify, bytes_notedFields] at hfits
  exact hnoted hfits

end LargeChanges

end ClockifyAssistant.ToolResults
