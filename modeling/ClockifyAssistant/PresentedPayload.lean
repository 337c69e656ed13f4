import ClockifyAssistant.Harness.SafeJson
import ClockifyAssistant.PresentationGate

/-!
The payload that is stored beside the view that is shown: they hold the same under each top-level
name that neither the arguments nor the promoted fields have.
-/
namespace ClockifyAssistant

open Lib Lib.CodeUnits Lib.ObjectKeys Lib.JsonPointer Lib.Checked

namespace PreparedWrites

/-- The payload as the operation is stored with it. -/
def storedPayload (payload : List (CodeUnits × HostValue)) : Except String UnitJson :=
  SafeJson.exactNonsecretJson (.obj (HostValue.copiedFields payload)) SafeJson.maxBytes

/-- The top-level names under which the view shows something else than the payload. -/
def overlaidNames (definition : ActionDefinition) (rawArgs : HostValue)
    (payload : List (CodeUnits × HostValue)) : List CodeUnits :=
  (promotedFrom "input" payload).map Prod.fst ++ (promotedFrom "patch" payload).map Prod.fst ++
    (argumentFields definition rawArgs).map Prod.fst

mutual

/-- JSON shows the value as it is: no number that is not finite, nothing undefined in an array,
and no `__proto__`. -/
def isPlain : HostValue → Bool
  | .nonFinite => false
  | .arr items => itemsPlain items
  | .obj fields => fieldsPlain fields
  | .undefined | .null | .bool _ | .num _ | .str _ => true

def itemsPlain : List HostValue → Bool
  | [] => true
  | item :: rest => (HostValue.copied item).isSome && isPlain item && itemsPlain rest

def fieldsPlain : List (CodeUnits × HostValue) → Bool
  | [] => true
  | (name, value) :: rest => name != protoName && isPlain value && fieldsPlain rest

end

mutual

/-- No `__proto__` is inside of the value. -/
def isClean : UnitJson → Bool
  | .arr items => itemsClean items
  | .obj fields => fieldsClean fields
  | .null | .bool _ | .num _ | .str _ => true

def itemsClean : List UnitJson → Bool
  | [] => true
  | item :: rest => isClean item && itemsClean rest

def fieldsClean : JsonObject → Bool
  | [] => true
  | (name, value) :: rest => name != protoName && isClean value && fieldsClean rest

end

/-! Cleaning -/

section Cleaning

mutual

theorem isClean_omit {value : HostValue} {cleaned : UnitJson}
    (h : omitUndefinedJson value = some cleaned) : isClean cleaned = true := by
  cases value with
  | arr items =>
    cases h
    exact itemsClean_omit items
  | obj fields =>
    cases h
    exact fieldsClean_omit fields
  | undefined => cases h
  | nonFinite => cases h
  | _ =>
    cases h
    rfl

theorem itemsClean_omit (items : List HostValue) : itemsClean (omitItems items) = true := by
  cases items with
  | nil => rfl
  | cons item rest =>
    have hrest := itemsClean_omit rest
    cases hitem : omitUndefinedJson item with
    | none => simpa [omitItems, hitem] using hrest
    | some cleaned => simp [omitItems, hitem, itemsClean, isClean_omit hitem, hrest]

theorem fieldsClean_omit (fields : List (CodeUnits × HostValue)) :
    fieldsClean (omitFields fields) = true := by
  cases fields with
  | nil => rfl
  | cons field rest =>
    obtain ⟨name, value⟩ := field
    have hrest := fieldsClean_omit rest
    by_cases hname : name = protoName
    · simpa [omitFields, hname] using hrest
    cases hvalue : omitUndefinedJson value with
    | none => simpa [omitFields, hname, hvalue] using hrest
    | some cleaned => simp [omitFields, hname, hvalue, fieldsClean, isClean_omit hvalue, hrest]

end

mutual

theorem omit_ofJson {value : UnitJson} (h : isClean value = true) :
    omitUndefinedJson (HostValue.ofJson value) = some value := by
  cases value with
  | arr items => simp only [HostValue.ofJson, omitUndefinedJson, omitItems_ofJson h]
  | obj fields => simp only [HostValue.ofJson, omitUndefinedJson, omitFields_ofJson h]
  | _ => rfl

theorem omitItems_ofJson {items : List UnitJson} (h : itemsClean items = true) :
    omitItems (HostValue.ofJsonItems items) = items := by
  cases items with
  | nil => rfl
  | cons item rest =>
    obtain ⟨hitem, hrest⟩ := Bool.and_eq_true_iff.mp h
    simp only [HostValue.ofJsonItems, omitItems, omit_ofJson hitem, omitItems_ofJson hrest]
    rfl

theorem omitFields_ofJson {fields : JsonObject} (h : fieldsClean fields = true) :
    omitFields (HostValue.ofJsonFields fields) = fields := by
  cases fields with
  | nil => rfl
  | cons field rest =>
    obtain ⟨name, value⟩ := field
    obtain ⟨hfield, hrest⟩ := Bool.and_eq_true_iff.mp h
    obtain ⟨hname, hvalue⟩ := Bool.and_eq_true_iff.mp hfield
    have hne : name ≠ protoName := by simpa using hname
    simp only [HostValue.ofJsonFields, omitFields, if_neg hne, omit_ofJson hvalue,
      omitFields_ofJson hrest]
    rfl

end

mutual

theorem omit_of_plain {value : HostValue} (h : isPlain value = true) :
    omitUndefinedJson value = HostValue.copied value := by
  cases value with
  | arr items => simp only [omitUndefinedJson, HostValue.copied, omitItems_of_plain h]
  | obj fields => simp only [omitUndefinedJson, HostValue.copied, omitFields_of_plain h]
  | nonFinite => cases h
  | _ => rfl

theorem omitItems_of_plain {items : List HostValue} (h : itemsPlain items = true) :
    omitItems items = HostValue.copiedItems items := by
  cases items with
  | nil => rfl
  | cons item rest =>
    obtain ⟨hfirst, hrest⟩ := Bool.and_eq_true_iff.mp h
    obtain ⟨hdefined, hitem⟩ := Bool.and_eq_true_iff.mp hfirst
    obtain ⟨value, hvalue⟩ := Option.isSome_iff_exists.mp hdefined
    simp only [omitItems, HostValue.copiedItems, omit_of_plain hitem, hvalue,
      omitItems_of_plain hrest]
    rfl

theorem omitFields_of_plain {fields : List (CodeUnits × HostValue)}
    (h : fieldsPlain fields = true) : omitFields fields = HostValue.copiedFields fields := by
  cases fields with
  | nil => rfl
  | cons field rest =>
    obtain ⟨name, value⟩ := field
    obtain ⟨hfield, hrest⟩ := Bool.and_eq_true_iff.mp h
    obtain ⟨hname, hvalue⟩ := Bool.and_eq_true_iff.mp hfield
    have hne : name ≠ protoName := by simpa using hname
    simp only [omitFields, HostValue.copiedFields, if_neg hne, omit_of_plain hvalue,
      omitFields_of_plain hrest]

end

theorem fieldsClean_iff {fields : JsonObject} : fieldsClean fields = true ↔
    ∀ field ∈ fields, field.1 ≠ protoName ∧ isClean field.2 = true := by
  induction fields with
  | nil => exact ⟨fun _ => nofun, fun _ => rfl⟩
  | cons field rest ih =>
    rw [fieldsClean, List.forall_mem_cons, Bool.and_eq_true_iff, ih]
    simp

mutual

theorem isClean_property {name : CodeUnits} {value : HostValue} {cleaned : UnitJson}
    (h : cleanedProperty name value = some cleaned) : isClean cleaned = true := by
  cases value with
  | obj fields =>
    rcases Option.or_eq_some_iff.mp h with hown | ⟨-, hproto⟩
    · exact (fieldsClean_iff.mp (fieldsClean_omit fields) _ (mem_of_lookup_eq_some hown)).2
    · exact isClean_prototype hproto
  | _ => cases h

theorem isClean_prototype {name : CodeUnits} {fields : List (CodeUnits × HostValue)}
    {cleaned : UnitJson} (h : prototypeProperty name fields = some cleaned) :
    isClean cleaned = true := by
  cases fields with
  | nil => cases h
  | cons field rest =>
    obtain ⟨key, value⟩ := field
    unfold prototypeProperty at h
    split at h
    · exact isClean_property h
    · exact isClean_prototype h

end

variable {base extra : JsonObject}

theorem fieldsClean_assignAll (hbase : fieldsClean base = true)
    (hextra : fieldsClean extra = true) : fieldsClean (assignAll base extra) = true := by
  unfold assignAll
  induction extra generalizing base with
  | nil => exact hbase
  | cons field rest ih =>
    obtain ⟨hfield, hrest⟩ := List.forall_mem_cons.mp (fieldsClean_iff.mp hextra)
    refine ih (fieldsClean_iff.mpr fun other hother => ?_) (fieldsClean_iff.mpr hrest)
    rcases mem_assign hother with rfl | hmem
    · exact hfield
    · exact fieldsClean_iff.mp hbase other hmem

theorem fieldsClean_promotedFrom (name : String) (payload : List (CodeUnits × HostValue)) :
    fieldsClean (promotedFrom name payload) = true := by
  unfold promotedFrom
  split
  next nested hnested => exact isClean_property hnested
  · rfl

theorem fieldsClean_arguments (definition : ActionDefinition) (rawArgs : HostValue) :
    fieldsClean (argumentFields definition rawArgs) = true := by
  unfold argumentFields
  split
  next fields hfields => exact isClean_omit hfields
  · rfl

/-- The second cleaning of the merged fields finds nothing to leave out. -/
theorem omit_merged (definition : ActionDefinition) (rawArgs : HostValue)
    (payload : List (CodeUnits × HostValue)) :
    omitFields (HostValue.ofJsonFields (mergedFields definition rawArgs payload)) =
      mergedFields definition rawArgs payload := by
  have hempty : fieldsClean [] = true := rfl
  have hpromoted := fieldsClean_assignAll
    (fieldsClean_assignAll hempty (fieldsClean_promotedFrom "input" payload))
    (fieldsClean_promotedFrom "patch" payload)
  exact omitFields_ofJson (fieldsClean_assignAll
    (fieldsClean_assignAll (fieldsClean_omit payload) hpromoted)
    (fieldsClean_arguments definition rawArgs))

theorem lookup_assignAll {name : CodeUnits}
    (h : name ∉ extra.map Prod.fst) : (assignAll base extra).lookup name = base.lookup name := by
  unfold assignAll
  induction extra generalizing base with
  | nil => rfl
  | cons field rest ih =>
    obtain ⟨hfield, hrest⟩ := not_or.mp (mt List.mem_cons.mpr h)
    exact (ih hrest).trans ((lookup_assign ..).trans (if_neg hfield))

theorem mem_names_assignAll {name : CodeUnits} : name ∈ (assignAll base extra).map Prod.fst ↔
      name ∈ base.map Prod.fst ∨ name ∈ extra.map Prod.fst := by
  unfold assignAll
  induction extra generalizing base with
  | nil => simp
  | cons field rest ih =>
    rw [List.foldl_cons, ih, mem_names_assign, List.map_cons, List.mem_cons]
    tauto

theorem lookup_merged {definition : ActionDefinition} {rawArgs : HostValue}
    {payload : List (CodeUnits × HostValue)} {name : CodeUnits}
    (h : name ∉ overlaidNames definition rawArgs payload) :
    (mergedFields definition rawArgs payload).lookup name = (omitFields payload).lookup name := by
  obtain ⟨hpayload, harguments⟩ := not_or.mp (mt List.mem_append.mpr h)
  obtain ⟨hinput, hpatch⟩ := not_or.mp (mt List.mem_append.mpr hpayload)
  have hpromoted : name ∉ (promotedPresentationFields payload).map Prod.fst := by
    unfold promotedPresentationFields
    rw [mem_names_assignAll, mem_names_assignAll]
    rintro ((hnone | hname) | hname)
    · cases hnone
    · exact hinput hname
    · exact hpatch hname
  exact (lookup_assignAll harguments).trans (lookup_assignAll hpromoted)

end Cleaning

/-! The copy that is stored -/

section Storing

open SafeJson

theorem forall₂_of_exactItems {items copies : List UnitJson} (h : exactItems items = .ok copies) :
    List.Forall₂ (fun item copy => exactNonsecret item = .ok copy) items copies := by
  induction items generalizing copies with
  | nil =>
    cases h
    exact .nil
  | cons item rest ih =>
    obtain ⟨copy, hcopy, hrest⟩ := bind_eq_ok.mp h
    obtain ⟨others, hothers, hend⟩ := bind_eq_ok.mp hrest
    cases hend
    exact .cons hcopy (ih hothers)

theorem lookup_exactFields (fields : JsonObject) (name : CodeUnits) :
    (exactFields fields).lookup name = (fields.lookup name).map exactNonsecret := by
  induction fields with
  | nil => rfl
  | cons field rest ih =>
    obtain ⟨key, value⟩ := field
    rw [exactFields, lookup_cons_eq, lookup_cons_eq, ih]
    split <;> rfl

theorem exactField_ok {field : CodeUnits × Except String UnitJson} {copy : CodeUnits × UnitJson}
    (h : exactField field = .ok copy) : copy.1 = field.1 ∧ field.2 = .ok copy.2 := by
  obtain ⟨name, value⟩ := field
  unfold exactField at h
  split at h
  · cases h
  · cases value with
    | error code => cases h
    | ok value =>
      cases h
      exact ⟨rfl, rfl⟩

theorem lookup_exact {fields : List (CodeUnits × Except String UnitJson)} {copies : JsonObject}
    (h : List.Forall₂ (fun field copy => exactField field = .ok copy) fields copies)
    (name : CodeUnits) : fields.lookup name = (copies.lookup name).map .ok := by
  induction h with
  | nil => rfl
  | @cons field copy fields copies hfield hrest ih =>
    obtain ⟨hname, hvalue⟩ := exactField_ok hfield
    rw [lookup_cons_eq, lookup_cons_eq, hname, hvalue, ih]
    split <;> rfl

variable {fields : JsonObject}

theorem exactNonsecret_obj {copy : UnitJson} (h : exactNonsecret (.obj fields) = .ok copy) :
    ∃ copies, copy = .obj copies ∧
      ∀ name, (fields.lookup name).map exactNonsecret = (copies.lookup name).map .ok := by
  unfold exactNonsecret at h
  split at h
  · cases h
  cases hsafe : (sortedByKey (exactFields fields)).mapM exactField with
  | error code =>
    rw [hsafe] at h
    cases h
  | ok safe =>
    rw [hsafe] at h
    cases h
    refine ⟨ownProperties safe, rfl, fun name => ?_⟩
    rw [lookup_ownProperties, ← lookup_exact (forall₂_of_mapM hsafe), lookup_sortedByKey,
      lookup_exactFields]

theorem exactFields_eq (fields : JsonObject) :
    exactFields fields = fields.map fun field => (field.1, exactNonsecret field.2) := by
  induction fields with
  | nil => rfl
  | cons field rest ih => rw [exactFields, ih, List.map_cons]

theorem mapM_exactField (h : ∀ field ∈ fields, isSensitiveKey field.1 = false ∧
      exactNonsecret field.2 = .ok field.2) :
    (exactFields fields).mapM exactField = .ok fields := by
  induction fields with
  | nil => rfl
  | cons field rest ih =>
    obtain ⟨⟨hkey, hvalue⟩, hrest⟩ := List.forall_mem_cons.mp h
    have hfield : exactField (field.1, exactNonsecret field.2) = .ok field := by
      rw [exactField, if_neg (by simp [hkey]), hvalue]
      rfl
    rw [exactFields, List.mapM_cons, hfield, ih hrest]
    rfl

/-- An object with nothing to refuse is copied with its names in order. -/
theorem exactNonsecret_sorted (hbuffer : isBufferRecord fields = false)
    (hfields : ∀ field ∈ fields, isArrayIndex field.1 = false ∧ isSensitiveKey field.1 = false ∧
      exactNonsecret field.2 = .ok field.2) :
    exactNonsecret (.obj fields) = .ok (.obj (sortedByKey fields)) := by
  have hnames : ∀ field ∈ sortedByKey fields, isArrayIndex field.1 = false :=
    fun field hfield => (hfields field (mem_sortedByKey.mp hfield)).1
  have howned : ownProperties (sortedByKey fields) = sortedByKey fields := by
    have hindices : (sortedByKey fields).filter (fun field => isArrayIndex field.1) = [] :=
      List.filter_eq_nil_iff.mpr fun field hfield => by simp [hnames field hfield]
    have hothers : (sortedByKey fields).filter (fun field => !isArrayIndex field.1) =
        sortedByKey fields :=
      List.filter_eq_self.mpr fun field hfield => by simp [hnames field hfield]
    rw [ownProperties, hindices, hothers]
    rfl
  have hsorted : sortedByKey (exactFields fields) = exactFields (sortedByKey fields) := by
    rw [exactFields_eq, exactFields_eq]
    exact (List.map_insertionSort (fun field other : CodeUnits × UnitJson => field.1 ≤ other.1)
      (fun field other : CodeUnits × Except String UnitJson => field.1 ≤ other.1) _ _
      fun _ _ _ _ => Iff.rfl).symm
  have hcopied := mapM_exactField fun field hfield => (hfields field (mem_sortedByKey.mp hfield)).2
  rw [exactNonsecret, if_neg (by simp [hbuffer]), hsorted, hcopied, Except.map, howned]

theorem keeps_exactNonsecret (value : UnitJson) :
    ∀ copy, exactNonsecret value = .ok copy → Keeps (.json copy) (.json value) := by
  induction value using UnitJson.induct with
  | null =>
    rintro copy h
    cases h
    exact Keeps.refl _
  | bool value =>
    rintro copy h
    cases h
    exact Keeps.refl _
  | num value =>
    rintro copy h
    cases h
    exact Keeps.refl _
  | str value =>
    rintro copy h
    cases h
    exact Keeps.refl _
  | arr items ih =>
    rintro copy h
    cases hitems : exactItems items with
    | error code =>
      simp only [exactNonsecret, hitems] at h
      cases h
    | ok copies =>
      simp only [exactNonsecret, hitems] at h
      cases h
      have hcopied := forall₂_of_exactItems hitems
      refine keeps_arr hcopied.length_eq fun index copy hcopy => ?_
      obtain ⟨hindex, rfl⟩ := List.getElem?_eq_some_iff.mp hcopy
      have hbound : index < items.length := hcopied.length_eq ▸ hindex
      refine ⟨items[index], List.getElem?_eq_getElem hbound, ?_⟩
      exact ih _ (List.getElem_mem hbound) _ (hcopied.get hbound hindex)
  | obj fields ih =>
    rintro copy h
    obtain ⟨copies, rfl, hcopies⟩ := exactNonsecret_obj h
    refine keeps_obj ?_ ?_ ?_
    · intro name hname
      have hlookup := hcopies name
      rw [hname, Option.map_none] at hlookup
      exact Option.map_eq_none_iff.mp hlookup.symm
    · intro name hname
      have hlookup := hcopies name
      rw [hname, Option.map_none] at hlookup
      exact Option.map_eq_none_iff.mp hlookup
    · intro name copy hcopy
      have hlookup := hcopies name
      rw [hcopy, Option.map_some] at hlookup
      obtain ⟨value, hvalue, hexact⟩ := Option.map_eq_some_iff.mp hlookup
      exact ⟨value, hvalue, ih _ (mem_of_lookup_eq_some hvalue) copy hexact⟩

theorem storedPayload_of_copied {payload : List (CodeUnits × HostValue)} {copy : UnitJson}
    (h : exactNonsecret (.obj (HostValue.copiedFields payload)) = .ok copy)
    (hbytes : jsonByteLength copy ≤ maxBytes) : storedPayload payload = .ok copy := by
  rw [storedPayload, exactNonsecretJson, h]
  exact if_neg (Nat.not_lt.mpr hbytes)

theorem storedPayload_ok {payload : List (CodeUnits × HostValue)} {stored : UnitJson}
    (h : storedPayload payload = .ok stored) :
    Keeps (.json stored) (.json (.obj (HostValue.copiedFields payload))) := by
  obtain ⟨safe, hsafe, hbound⟩ := bind_eq_ok.mp h
  split at hbound
  · cases hbound
  · cases hbound
    exact keeps_exactNonsecret _ _ hsafe

end Storing

/-! The view -/

section View

variable {definition : ActionDefinition} {rawArgs : HostValue}
  {payload : List (CodeUnits × HostValue)} {view view' root other stored : UnitJson}
  {pointer containerPath itemPath : CodeUnits} {found : Found}

theorem isScalar_eq (value : UnitJson) : (scalar? value).isSome = isScalar value := by
  cases value <;> rfl

theorem getValueAtPointer_ok {place : Option Found}
    (h : getValueAtPointer root pointer = .ok place) : pointer.head? = some 0x2f ∧
      (pointer = [0x2f] ∧ place = some (.json root) ∨
        pointer ≠ [0x2f] ∧ place = follow (segments pointer) (.json root)) := by
  unfold getValueAtPointer at h
  split at h
  · cases h
  next hslash =>
  refine ⟨not_not.mp hslash, ?_⟩
  split at h
  next hroot =>
    cases h
    exact .inl ⟨hroot, rfl⟩
  next hroot =>
    cases h
    exact .inr ⟨hroot, rfl⟩

theorem getValueAtPointer_of_ne (hslash : pointer.head? = some 0x2f) (hroot : pointer ≠ [0x2f]) :
    getValueAtPointer root pointer = .ok (follow (segments pointer) (.json root)) := by
  rw [getValueAtPointer, if_neg (not_not.mpr hslash), if_neg hroot]

theorem keeps_setValueAtPointer {old value : UnitJson}
    (hget : getValueAtPointer view pointer = .ok (some (.json old)))
    (hset : setValueAtPointer view pointer value = .ok view')
    (hkeeps : Keeps (.json old) (.json value)) : Keeps (.json view) (.json view') := by
  obtain ⟨hslash, ⟨rfl, -⟩ | ⟨hroot, hfollow⟩⟩ := getValueAtPointer_ok hget
  · cases hset
  · unfold setValueAtPointer at hset
    rw [if_neg (not_not.mpr hslash), if_neg hroot] at hset
    cases hreplaced : replaceAt value (segments pointer) view with
    | none =>
      simp only [hreplaced] at hset
      cases hset
    | some root =>
      simp only [hreplaced] at hset
      cases hset
      exact keeps_replaceAt hreplaced hfollow.symm hkeeps

theorem keeps_rows {items : List UnitJson} {key : CodeUnits}
    (h : items.all (fun entry => (scalar? entry).isSome) = true) :
    Keeps (.json (.arr items)) (.json (.arr (items.map fun entry => .obj [(key, entry)]))) := by
  refine keeps_arr (List.length_map _) fun index value hvalue => ?_
  refine ⟨.obj [(key, value)], by rw [List.getElem?_map, hvalue, Option.map_some], ?_⟩
  refine keeps_scalar ?_ rfl
  rw [← isScalar_eq]
  exact List.all_eq_true.mp h value (List.mem_of_getElem? hvalue)

theorem keeps_coerceContainer (h : coerceContainer view containerPath itemPath = .ok view') :
    Keeps (.json view) (.json view') := by
  obtain ⟨place, hget, hrest⟩ := bind_eq_ok.mp h
  cases place with
  | none =>
    cases hrest
    exact Keeps.refl _
  | some place =>
    cases place with
    | json value =>
      by_cases harray : ∃ items, value = .arr items
      · obtain ⟨items, rfl⟩ := harray
        dsimp only at hrest
        split at hrest
        next hrows => exact keeps_setValueAtPointer hget hrest (keeps_rows hrows.2)
        · cases hrest
          exact Keeps.refl _
      · have hscalar : (if (scalar? value).isSome then
            setValueAtPointer view containerPath
              (.arr [if itemPathKey itemPath ≠ [] then .obj [(itemPathKey itemPath, value)]
                else value])
            else .ok view) = .ok view' := by
          cases value with
          | arr items => exact absurd ⟨items, rfl⟩ harray
          | _ => exact hrest
        split at hscalar
        next hvalue =>
          exact keeps_setValueAtPointer hget hscalar
            (keeps_scalar ((isScalar_eq value).symm.trans hvalue) rfl)
        · cases hscalar
          exact Keeps.refl _
    | method =>
      cases hrest
      exact Keeps.refl _
    | objectPrototype =>
      cases hrest
      exact Keeps.refl _

theorem keeps_coerceMaterialArrayContainers
    (h : coerceMaterialArrayContainers definition view = .ok view') :
    Keeps (.json view) (.json view') := by
  refine foldlM_keeps (P := fun last => Keeps (.json view) (.json last)) ?_ h (Keeps.refl _)
  rintro field - last next hnext hlast
  cases field with
  | value path label formatting =>
    cases hnext
    exact hlast
  | arrayItem containerPath itemPath labelTemplate maxItems formatting =>
    exact hlast.trans (keeps_coerceContainer hnext)
  | dictionaryEntry containerPath valuePath labelTemplate maxEntries formatting =>
    cases hnext
    exact hlast

/-- Under a name that is not overlaid the view keeps what is stored. -/
theorem kept_of_stored (hplain : fieldsPlain payload = true)
    (hview : buildNormalizedOperationForPresentation definition rawArgs payload = .ok view)
    (hstored : storedPayload payload = .ok stored)
    (hname : topName pointer ∉ overlaidNames definition rawArgs payload)
    (hfound : getValueAtPointer stored pointer = .ok (some found)) :
    ∃ other, getValueAtPointer view pointer = .ok (some other) ∧ Refines found other := by
  unfold buildNormalizedOperationForPresentation at hview
  rw [omit_merged] at hview
  have hcopied := omitFields_of_plain hplain
  have hpayload := storedPayload_ok hstored
  rw [← hcopied] at hpayload
  have hcoerced := keeps_coerceMaterialArrayContainers hview
  obtain ⟨hslash, ⟨rfl, hplace⟩ | ⟨hroot, hfollow⟩⟩ := getValueAtPointer_ok hfound
  · cases hplace
    refine ⟨.json view, rfl, (hpayload.refines.trans ?_).trans hcoerced.refines⟩
    refine ⟨fun value hvalue hsame => ?_, nofun, fun fields hfields => ?_⟩
    · cases hsame
      cases hvalue
    · cases hfields
      refine ⟨_, rfl, fun name hmem => ?_⟩
      exact mem_names_assignAll.mpr (.inl (mem_names_assignAll.mpr (.inl hmem)))
  · obtain ⟨middle, hmiddle, hrefines⟩ := hpayload _ found hfollow.symm
    have hmerged : follow (segments pointer)
        (.json (.obj (mergedFields definition rawArgs payload))) = some middle := by
      rw [← hmiddle]
      exact follow_congr (lookup_merged hname)
    obtain ⟨last, hlast, hkept⟩ := hcoerced _ middle hmerged
    exact ⟨last, by rw [getValueAtPointer_of_ne hslash hroot, hlast], hrefines.trans hkept⟩

end View

end PreparedWrites

end ClockifyAssistant
