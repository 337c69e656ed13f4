import ClockifyAssistant.PresentedPayload

/-!
A prepared write is shown as the view of it stands, each material field once, and where nothing
is laid over the payload that is what is stored for execution.
-/
namespace ClockifyAssistant

open Lib Lib.CodeUnits Lib.ObjectKeys Lib.JsonPointer Lib.Checked SafeJson

namespace PreparedWrites

/-- The fact shows the value as the formatter of its field prints it. -/
def ShownAs (registries : Registries) (definition : ActionDefinition) (view : UnitJson)
    (fact : PreparedWriteFact) (value : Scalar) : Prop :=
  ∃ field ∈ definition.materialFields, Declares view field fact.path ∧
    ∃ formatter, registries.getMaterialFormatter field.formatting.formatterId
        field.formatting.formatterVersion = some formatter ∧
      fact.value = formatter.format ⟨fact.path, value, none, none⟩

/-- What holds of the presentation of a prepared write. -/
structure PresentedLaw (keyPatternTest : CodeUnits → CodeUnits → Option Bool)
    (registries : Registries) (definition : ActionDefinition) (rawArgs : HostValue)
    (payload : List (CodeUnits × HostValue)) (view : UnitJson) (provenance : FieldProvenanceMap)
    (presentation : PreparedWritePresentation) : Prop where
  accepted : validatePreparedWritePresentation keyPatternTest registries
    ⟨definition, view, provenance, [], []⟩ presentation = .ok ()
  shown : ∀ fact ∈ presentation.facts, ∃ value, Stands view fact.path value ∧
    ShownAs registries definition view fact (value.getD .null)
  once : ∀ field ∈ definition.materialFields, ∀ pointer found, Declares view field pointer →
    getValueAtPointer view pointer = .ok (some found) →
    presentation.facts.countP (·.path = pointer) = 1
  executed : ∀ stored, storedPayload payload = .ok stored → fieldsPlain payload = true →
    ∀ pointer found, topName pointer ∉ overlaidNames definition rawArgs payload →
      getValueAtPointer stored pointer = .ok (some found) →
      (∀ fact ∈ presentation.facts, fact.path = pointer →
        ∃ value, foundScalar? found = some value ∧ ShownAs registries definition view fact value) ∧
      ∀ field ∈ definition.materialFields, Declares stored field pointer →
        presentation.facts.countP (·.path = pointer) = 1

section Law

variable {keyPatternTest : CodeUnits → CodeUnits → Option Bool} {registries : Registries}
  {definition : ActionDefinition} {rawArgs : HostValue} {payload : List (CodeUnits × HostValue)}
  {view root stored : UnitJson} {provenance : FieldProvenanceMap}
  {presentation : PreparedWritePresentation} {input : PresentationInput}
  {fields : List ExpandedMaterialField} {facts : List PreparedWriteFact} {pointer : CodeUnits}
  {found : Found} {value : Option Scalar}

theorem Stands.eq_some (h : Stands root pointer value)
    (hfound : getValueAtPointer root pointer = .ok (some found)) :
    ∃ scalar, foundScalar? found = some scalar ∧ value = some scalar := by
  cases h with
  | absent hnone => cases hnone.symm.trans hfound
  | scalar hsome hscalar =>
    cases hsome.symm.trans hfound
    exact ⟨_, hscalar, rfl⟩

theorem paths_eq {shown : List ExpandedMaterialField}
    (h : List.Forall₂ (Presents registries input) shown facts) :
    facts.map PreparedWriteFact.path = shown.map ExpandedMaterialField.path := by
  induction h with
  | nil => rfl
  | cons hfact hrest ih => rw [List.map_cons, List.map_cons, ih, hfact.path_eq]

theorem countP_eq_one (hexpansion : Expansion definition view fields)
    (hfacts : List.Forall₂ (Presents registries input) (fields.filter (·.isShown)) facts)
    {field : MaterialField} (hfield : field ∈ definition.materialFields)
    (hdeclares : Declares view field pointer)
    (hfound : getValueAtPointer view pointer = .ok (some found)) :
    facts.countP (·.path = pointer) = 1 := by
  obtain ⟨entry, hentry, rfl⟩ := hexpansion.complete field hfield pointer hdeclares
  obtain ⟨scalar, -, hvalue⟩ := (hexpansion.stands entry hentry).eq_some hfound
  have hshown : entry.isShown = true := by
    rw [ExpandedMaterialField.isShown, ExpandedMaterialField.present, hvalue]
    rfl
  have hmem := (mem_shown_paths hexpansion.distinct hentry).mpr hshown
  have hnodup : ((fields.filter (·.isShown)).map ExpandedMaterialField.path).Nodup :=
    hexpansion.distinct.sublist (List.filter_sublist.map _)
  rw [← paths_eq hfacts] at hmem hnodup
  have hcount := List.count_eq_one_of_mem hnodup hmem
  rw [List.count, List.countP_map] at hcount
  rw [← hcount]
  refine List.countP_congr fun fact _ => ?_
  simp

theorem shown_of_presents (hexpansion : Expansion definition view fields)
    (hfacts : List.Forall₂ (Presents registries ⟨definition, view, provenance, [], []⟩)
      (fields.filter (·.isShown)) facts) {fact : PreparedWriteFact} (hfact : fact ∈ facts) :
    ∃ value, Stands view fact.path value ∧
      ShownAs registries definition view fact (value.getD .null) := by
  obtain ⟨entry, hentry, hpresents⟩ := forall₂_right hfacts hfact
  have hmem := List.mem_of_mem_filter hentry
  obtain ⟨field, hfield, hdeclares, hformatting⟩ := hexpansion.declared entry hmem
  obtain ⟨formatter, hformatter, hvalue, -⟩ := formatScalarValue_ok hpresents.value_eq
  refine ⟨entry.scalarValue, ?_, field, hfield, ?_, formatter, ?_, ?_⟩
  · rw [hpresents.path_eq]
    exact hexpansion.stands entry hmem
  · rw [hpresents.path_eq]
    exact hdeclares
  · rw [← hformatting]
    exact hformatter
  · rw [hvalue, hpresents.path_eq]
    rfl

theorem topName_joinPointer {base segment relative pointer : CodeUnits}
    (hbase : base.head? = some 0x2f)
    (h : relativePointer (joinPointer base segment) relative = .ok pointer) :
    topName pointer = topName base := by
  have hne : base ≠ [] := by
    rintro rfl
    cases hbase
  unfold relativePointer at h
  split at h
  · cases h
    exact topName_append hne _
  · split at h
    · cases h
    · cases h
      rw [joinPointer, List.append_assoc, List.cons_append]
      exact topName_append hne _

/-- What a field declares in the stored payload it declares in the view. -/
theorem declares_of_stored
    (hkept : ∀ pointer found, topName pointer ∉ overlaidNames definition rawArgs payload →
      getValueAtPointer stored pointer = .ok (some found) →
      ∃ other, getValueAtPointer view pointer = .ok (some other) ∧ Refines found other)
    (hname : topName pointer ∉ overlaidNames definition rawArgs payload) {field : MaterialField}
    (h : Declares stored field pointer) : Declares view field pointer := by
  cases h with
  | value => exact .value
  | item hitems hindex hpointer =>
    have htop := topName_joinPointer (getValueAtPointer_ok hitems).1 hpointer
    obtain ⟨other, hother, hrefines⟩ := hkept _ _ (htop ▸ hname) hitems
    obtain ⟨others, rfl, hlength⟩ := hrefines.items _ rfl
    exact .item hother (hlength ▸ hindex) hpointer
  | entry hfields hkey hpointer =>
    have htop := topName_joinPointer (getValueAtPointer_ok hfields).1 hpointer
    obtain ⟨other, hother, hrefines⟩ := hkept _ _ (htop ▸ hname) hfields
    obtain ⟨others, rfl, hnames⟩ := hrefines.names _ rfl
    exact .entry hother (hnames hkey) hpointer

theorem foundScalar?_of_refines {other : Found} {scalar : Scalar} (h : Refines found other)
    (hscalar : foundScalar? other = some scalar) : foundScalar? found = some scalar := by
  cases other with
  | json value =>
    have hvalue : isScalar value = true := by
      rw [← isScalar_eq, show scalar? value = some scalar from hscalar]
      rfl
    rw [h.scalar value hvalue rfl]
    exact hscalar
  | method => cases hscalar
  | objectPrototype => cases hscalar

/-- The presentation that a prepared write is checked with. -/
theorem preparedWrite_law {fromMinor : Scalar → CodeUnits} {before : Registries}
    {actions : List ActionDefinition} (write : ModelApiWrite)
    (hregistered : initializePreparedWritePresentationRegistries fromMinor before actions =
      .ok registries) (hwrite : write.definition ∈ actions)
    (hview : buildNormalizedOperationForPresentation write.definition rawArgs payload = .ok view)
    (hprovenance : buildModelInferenceProvenance keyPatternTest write.definition view =
      .ok provenance) (hpresent : metadataDrivenPresentPreparedWrite keyPatternTest registries
      ⟨write.definition, view, provenance, [], []⟩ = .ok presentation) :
    PresentedLaw keyPatternTest registries write.definition rawArgs payload view provenance
      presentation := by
  have hpresenter := validatePresenter_ok hregistered hwrite write.exposed
  have hlabels := labelBounded_of_validated write.validated
  obtain ⟨fields, hfields, hfacts⟩ := present_ok hpresent
  have hexpansion := expandMaterialFields_ok hfields
  refine ⟨validatePresentation_ok hpresenter hlabels hprovenance hpresent, ?_, ?_, ?_⟩
  · intro fact hfact
    exact shown_of_presents hexpansion hfacts hfact
  · intro field hfield pointer found hdeclares hfound
    exact countP_eq_one hexpansion hfacts hfield hdeclares hfound
  · intro stored hstored hplain pointer found hname hfound
    have hkept : ∀ pointer found, topName pointer ∉ overlaidNames write.definition rawArgs payload →
        getValueAtPointer stored pointer = .ok (some found) →
        ∃ other, getValueAtPointer view pointer = .ok (some other) ∧ Refines found other :=
      fun pointer found hname hfound => kept_of_stored hplain hview hstored hname hfound
    obtain ⟨other, hother, hrefines⟩ := hkept pointer found hname hfound
    refine ⟨?_, ?_⟩
    · rintro fact hfact rfl
      obtain ⟨value, hstands, hshown⟩ := shown_of_presents hexpansion hfacts hfact
      obtain ⟨scalar, hscalar, rfl⟩ := hstands.eq_some hother
      exact ⟨scalar, foundScalar?_of_refines hrefines hscalar, hshown⟩
    · intro field hfield hdeclares
      exact countP_eq_one hexpansion hfacts hfield (declares_of_stored hkept hname hdeclares) hother

end Law

namespace Example

def name : CodeUnits := ofString "clockify_entries_update"

def valueField (path label formatterId : String) (requiredInPreview : Bool) : MaterialField :=
  .value (ofString path) (ofString label) ⟨ofString formatterId, 1, requiredInPreview⟩

def operation : ApiOperation :=
  ⟨.api, .put, ofString "/workspaces/{workspaceId}/time-entries/{id}"⟩

/-- An action with the metadata of `clockify_entries_update`. -/
def updateEntry : ActionDefinition where
  name := name
  description := ofString "Update an existing time entry with one GET-then-PUT."
  kind := .riskyWrite
  risks := [.highRiskWrite]
  apiExposure := .api
  safeParse := some
  apiOperation := some operation
  materialFields := [
    valueField "/id" "Time entry" "entity" true,
    valueField "/description" "Description" "text" false,
    valueField "/projectId" "Project" "entity" false,
    valueField "/taskId" "Task" "entity" false,
    valueField "/billable" "Billable" "boolean" false,
    .arrayItem (ofString "/tagIds") [] (ofString "Tag {index}") 14 ⟨ofString "entity", 1, false⟩]
  boundedArgumentDictionaries := []
  presentation := some ⟨name, 1⟩

def write : ModelApiWrite where
  definition := updateEntry
  exposed := rfl
  schemaArrayMaxItems := [(ofString "/tagIds", some 14)]
  validated := by decide +kernel

/-- No field of the action shows an amount. -/
def noAmount (_ : Scalar) : CodeUnits := []

def registries : Registries where
  formatters := (builtInFormatters noAmount).map fun formatter =>
    (formatterKey formatter.formatterId formatter.version, formatter)
  presenters := [(name, ⟨name, 1⟩)]

theorem registered : initializePreparedWritePresentationRegistries noAmount ⟨[], []⟩ [updateEntry] =
    .ok registries := by rfl

def noPattern (_ _ : CodeUnits) : Option Bool := none

def entry : CodeUnits := ofString "65f0c0ffee65f0c0ffee65f0"

def project : CodeUnits := ofString "64f0c0ffee64f0c0ffee64f0"

def text (name : String) (value : CodeUnits) : CodeUnits × HostValue := (ofString name, .str value)

/-- The model names the project, and the host has found its id. -/
def namedArgs : HostValue := .obj [text "id" entry, text "projectId" (ofString "Atlas")]

def namedPayload : List (CodeUnits × HostValue) :=
  [text "id" entry, (ofString "description", .undefined), text "projectId" project,
    (ofString "body", .obj [text "projectId" project])]

def namedView : UnitJson :=
  .obj [(ofString "id", .str entry), (ofString "projectId", .str (ofString "Atlas")),
    (ofString "body", .obj [(ofString "projectId", .str project)])]

def inferred (path : String) : CodeUnits × FieldProvenance := (ofString path, .modelInference)

def fact (path label : String) (value : CodeUnits) : PreparedWriteFact :=
  ⟨ofString path, ofString label, value, .modelInference⟩

def presentation (facts : List PreparedWriteFact) : PreparedWritePresentation where
  title := defaultTitle updateEntry
  facts := facts
  warnings := defaultWarnings updateEntry
  reversibility := defaultReversibility updateEntry
  endpoint := operation

def namedFacts : List PreparedWriteFact :=
  [fact "/id" "Time entry" entry, fact "/projectId" "Project" (ofString "Atlas")]

theorem named_view : buildNormalizedOperationForPresentation updateEntry namedArgs namedPayload =
    .ok namedView := by rfl

theorem named_presentation : metadataDrivenPresentPreparedWrite noPattern registries
    ⟨updateEntry, namedView, [inferred "/id", inferred "/projectId"], [], []⟩ =
      .ok (presentation namedFacts) := by rfl

theorem named_law : PresentedLaw noPattern registries updateEntry namedArgs namedPayload namedView
    [inferred "/id", inferred "/projectId"] (presentation namedFacts) :=
  preparedWrite_law write registered List.mem_cons_self named_view rfl named_presentation

/-! What is stored beside it -/

def namedBody : JsonObject := [(ofString "projectId", .str project)]

def namedFields : JsonObject :=
  [(ofString "id", .str entry), (ofString "projectId", .str project),
    (ofString "body", .obj namedBody)]

theorem namedPayload_copied : HostValue.copiedFields namedPayload = namedFields := by rfl

theorem plain_names : ∀ name ∈ ["body", "id", "projectId", "tagIds"].map ofString,
    isArrayIndex name = false ∧ isSensitiveKey name = false := by decide +kernel

theorem namedBody_copied : exactNonsecret (.obj namedBody) = .ok (.obj namedBody) := by
  refine exactNonsecret_sorted rfl (List.forall_mem_cons.mpr ⟨?_, List.forall_mem_nil _⟩)
  have hproject := plain_names (ofString "projectId") (.tail _ (.tail _ (.head _)))
  exact ⟨hproject.1, hproject.2, rfl⟩

theorem named_copied : exactNonsecret (.obj namedFields) = .ok
    (.obj (sortedByKey namedFields)) := by
  have hid := plain_names (ofString "id") (.tail _ (.head _))
  have hproject := plain_names (ofString "projectId") (.tail _ (.tail _ (.head _)))
  have hbody := plain_names (ofString "body") (.head _)
  refine exactNonsecret_sorted rfl ?_
  simp only [namedFields, List.forall_mem_cons]
  exact ⟨⟨hid.1, hid.2, rfl⟩, ⟨hproject.1, hproject.2, rfl⟩, ⟨hbody.1, hbody.2, namedBody_copied⟩,
    List.forall_mem_nil _⟩

theorem named_stored : storedPayload namedPayload = .ok (.obj (sortedByKey namedFields)) := by
  have hbytes : (UnitJson.obj (sortedByKey namedFields)).bytes = 120 := by rfl
  refine storedPayload_of_copied (namedPayload_copied ▸ named_copied) ?_
  rw [jsonByteLength, UnitJson.byteLength_stringify, hbytes, maxBytes]
  omega

def tag : CodeUnits := ofString "63f0c0ffee63f0c0ffee63f0"

/-- The first tag of the payload is undefined. -/
def taggedArgs : HostValue := .obj [text "id" entry]

def taggedPayload : List (CodeUnits × HostValue) :=
  [text "id" entry, (ofString "tagIds", .arr [.undefined, .str tag])]

def taggedFields : JsonObject :=
  [(ofString "id", .str entry), (ofString "tagIds", .arr [.null, .str tag])]

def taggedView : UnitJson :=
  .obj [(ofString "id", .str entry), (ofString "tagIds", .arr [.str tag])]

def taggedFacts : List PreparedWriteFact :=
  [fact "/id" "Time entry" entry, fact "/tagIds/0" "Tag 0" tag]

theorem taggedPayload_copied : HostValue.copiedFields taggedPayload = taggedFields := by rfl

theorem tagged_copied :
    exactNonsecret (.obj taggedFields) = .ok (.obj (sortedByKey taggedFields)) := by
  have hid := plain_names (ofString "id") (.tail _ (.head _))
  have htags := plain_names (ofString "tagIds") (.tail _ (.tail _ (.tail _ (.head _))))
  refine exactNonsecret_sorted rfl ?_
  simp only [taggedFields, List.forall_mem_cons]
  exact ⟨⟨hid.1, hid.2, rfl⟩, ⟨htags.1, htags.2, rfl⟩, List.forall_mem_nil _⟩

theorem tagged_stored : storedPayload taggedPayload = .ok (.obj (sortedByKey taggedFields)) := by
  have hbytes : (UnitJson.obj (sortedByKey taggedFields)).bytes = 76 := by rfl
  refine storedPayload_of_copied (taggedPayload_copied ▸ tagged_copied) ?_
  rw [jsonByteLength, UnitJson.byteLength_stringify, hbytes, maxBytes]
  omega

theorem tagged_view : buildNormalizedOperationForPresentation updateEntry taggedArgs taggedPayload =
    .ok taggedView := by rfl

theorem tagged_presentation : metadataDrivenPresentPreparedWrite noPattern registries
    ⟨updateEntry, taggedView, [inferred "/id", inferred "/tagIds/0"], [], []⟩ =
      .ok (presentation taggedFacts) := ok_of_toOption (by decide +kernel)

theorem tagged_provenance : buildModelInferenceProvenance noPattern updateEntry taggedView =
    .ok [inferred "/id", inferred "/tagIds/0"] := by
  have hshown : (buildModelInferenceProvenance noPattern updateEntry taggedView).toOption =
      some [inferred "/id", inferred "/tagIds/0"] := by decide +kernel
  exact ok_of_toOption hshown

theorem tagged_zero : getValueAtPointer (.obj (sortedByKey taggedFields)) (ofString "/tagIds/0") =
    .ok (some (.json .null)) := by
  have hzero : NumberLiteral.natural? (ofString "0") = some 0 := by decide +kernel
  have hpath : segments (ofString "/tagIds/0") = [ofString "tagIds", ofString "0"] := by
    decide +kernel
  have hitems : (sortedByKey taggedFields).lookup (ofString "tagIds") =
      some (.arr [.null, .str tag]) := by rfl
  rw [getValueAtPointer_of_ne (by decide) (by decide), hpath]
  simp [follow, child, hitems, hzero]

/-- A fact does not show what the stored payload has at its pointer. -/
def Diverges (rawArgs : HostValue) (payload : List (CodeUnits × HostValue)) : Prop :=
  ∃ view provenance presentation stored,
    buildNormalizedOperationForPresentation updateEntry rawArgs payload = .ok view ∧
    buildModelInferenceProvenance noPattern updateEntry view = .ok provenance ∧
    metadataDrivenPresentPreparedWrite noPattern registries
      ⟨updateEntry, view, provenance, [], []⟩ = .ok presentation ∧
    storedPayload payload = .ok stored ∧
    ∃ fact ∈ presentation.facts, ∃ found value,
      getValueAtPointer stored fact.path = .ok (some found) ∧ foundScalar? found = some value ∧
      ¬ ShownAs registries updateEntry view fact value

/-- The project is shown as the model named it, and a tag where the stored payload has a null. -/
theorem payload_not_shown :
    Diverges namedArgs namedPayload ∧ Diverges taggedArgs taggedPayload := by
  have hproject : ¬ ShownAs registries updateEntry namedView
      (fact "/projectId" "Project" (ofString "Atlas")) (.str project) := by
    rintro ⟨field, hfield, -, formatter, hformatter, hvalue⟩
    simp only [updateEntry, List.mem_cons, List.not_mem_nil, or_false] at hfield
    rcases hfield with rfl | rfl | rfl | rfl | rfl | rfl <;>
      cases hformatter <;> exact absurd hvalue (by decide +kernel)
  have htag : ¬ ShownAs registries updateEntry taggedView (fact "/tagIds/0" "Tag 0" tag) .null := by
    rintro ⟨field, hfield, -, formatter, hformatter, hvalue⟩
    simp only [updateEntry, List.mem_cons, List.not_mem_nil, or_false] at hfield
    rcases hfield with rfl | rfl | rfl | rfl | rfl | rfl <;>
      cases hformatter <;> exact absurd hvalue (by decide +kernel)
  refine ⟨⟨namedView, [inferred "/id", inferred "/projectId"], presentation namedFacts,
      .obj (sortedByKey namedFields), named_view, rfl, named_presentation, named_stored,
      fact "/projectId" "Project" (ofString "Atlas"), .tail _ (.head _),
      .json (.str project), .str project, rfl, rfl, hproject⟩,
    ⟨taggedView, [inferred "/id", inferred "/tagIds/0"], presentation taggedFacts,
      .obj (sortedByKey taggedFields), tagged_view, tagged_provenance, tagged_presentation, tagged_stored,
      fact "/tagIds/0" "Tag 0" tag, .tail _ (.head _), .json .null, .null, tagged_zero, rfl, htag⟩⟩

end Example

end PreparedWrites

end ClockifyAssistant
