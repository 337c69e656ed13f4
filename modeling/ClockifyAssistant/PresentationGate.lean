import ClockifyAssistant.Harness.MaterialMetadata
import ClockifyAssistant.Harness.PreparedWritePresentation
import ClockifyAssistant.Lib.Checked

/-!
What the declared fields expand to, and that a presentation of them passes its own check.
-/
namespace ClockifyAssistant

open Lib Lib.CodeUnits Lib.ObjectKeys Lib.JsonPointer Lib.Checked

namespace PreparedWrites

/-- The pointers that a field declares in a document. -/
inductive Declares (root : UnitJson) : MaterialField → CodeUnits → Prop
  | value {path label : CodeUnits} {formatting : Formatting} :
      Declares root (.value path label formatting) path
  | item {containerPath itemPath labelTemplate pointer : CodeUnits} {maxItems index : Nat}
      {formatting : Formatting} {items : List UnitJson} :
      getValueAtPointer root containerPath = .ok (some (.json (.arr items))) →
      index < items.length →
      relativePointer (joinPointer containerPath (CodeUnits.ofNat index)) itemPath = .ok pointer →
      Declares root (.arrayItem containerPath itemPath labelTemplate maxItems formatting) pointer
  | entry {containerPath valuePath labelTemplate key pointer : CodeUnits} {maxEntries : Nat}
      {formatting : Formatting} {fields : JsonObject} :
      getValueAtPointer root containerPath = .ok (some (.json (.obj fields))) →
      key ∈ fields.map Prod.fst →
      relativePointer (joinPointer containerPath key) valuePath = .ok pointer →
      Declares root (.dictionaryEntry containerPath valuePath labelTemplate maxEntries formatting)
        pointer

/-- Nothing stands at the pointer, or a scalar. -/
inductive Stands (root : UnitJson) (pointer : CodeUnits) : Option Scalar → Prop
  | absent : getValueAtPointer root pointer = .ok none → Stands root pointer none
  | scalar {found : Found} {value : Scalar} : getValueAtPointer root pointer = .ok (some found) →
      foundScalar? found = some value → Stands root pointer (some value)

/-- The label of a single value is within the limit; the other labels are checked when they
are expanded. -/
def MaterialField.LabelBounded : MaterialField → Prop
  | .value _ label _ => byteLength label ≤ materialLabelMaxUtf8Bytes
  | .arrayItem _ _ _ _ _ | .dictionaryEntry _ _ _ _ _ => True

/-- What one field adds to the expansion. -/
structure Expands (view : UnitJson) (field : MaterialField) (added : List ExpandedMaterialField) :
    Prop where
  declared : ∀ entry ∈ added, Declares view field entry.path
  stands : ∀ entry ∈ added, Stands view entry.path entry.scalarValue
  formatted : ∀ entry ∈ added, entry.formatting = field.formatting
  labelled : field.LabelBounded → ∀ entry ∈ added,
    byteLength entry.label ≤ materialLabelMaxUtf8Bytes
  complete : ∀ pointer, Declares view field pointer → ∃ entry ∈ added, entry.path = pointer

section Expansion

variable {keyPatternTest : CodeUnits → CodeUnits → Option Bool} {view : UnitJson}
  {definition : ActionDefinition} {field : MaterialField}
  {expanded expanded' : List ExpandedMaterialField} {pointer base relative label : CodeUnits}
  {formatting : Formatting} {value : Option Scalar}

theorem thrownAs_eq_ok {α : Type} {m : Except CodeUnits α} {a : α} :
    thrownAs m = .ok a ↔ m = .ok a := by
  cases m with
  | error message => exact ⟨nofun, nofun⟩
  | ok b => exact ⟨fun h => by cases h; rfl, fun h => by cases h; rfl⟩

theorem scalarFound_ok {found : Option Found}
    (hget : getValueAtPointer view pointer = .ok found) (h : scalarFound pointer found = .ok value) :
    Stands view pointer value := by
  cases found with
  | none =>
    cases h
    exact .absent hget
  | some found =>
    unfold scalarFound at h
    cases hvalue : foundScalar? found with
    | none =>
      simp only [hvalue] at h
      cases h
    | some scalar =>
      simp only [hvalue] at h
      cases h
      exact .scalar hget hvalue

theorem materialValue_ok (h : materialValue view pointer expanded = .ok value) :
    Stands view pointer value ∧ pointer ∉ expanded.map ExpandedMaterialField.path := by
  obtain ⟨found, hfound, hrest⟩ := bind_eq_ok.mp h
  obtain ⟨standing, hstanding, hfresh⟩ := bind_eq_ok.mp hrest
  split at hfresh
  · cases hfresh
  · next hpath =>
    cases hfresh
    exact ⟨scalarFound_ok (thrownAs_eq_ok.mp hfound) hstanding, hpath⟩

theorem expandItem_ok
    (h : expandItem view formatting base relative label expanded = .ok expanded') :
    ∃ pointer value, relativePointer base relative = .ok pointer ∧ Stands view pointer value ∧
      pointer ∉ expanded.map ExpandedMaterialField.path ∧
      byteLength label ≤ materialLabelMaxUtf8Bytes ∧
      expanded' = expanded ++ [⟨pointer, label, formatting, value⟩] := by
  obtain ⟨pointer, hpointer, hrest⟩ := bind_eq_ok.mp h
  obtain ⟨value, hvalue, hlabel⟩ := bind_eq_ok.mp hrest
  obtain ⟨hstands, hfresh⟩ := materialValue_ok hvalue
  split at hlabel
  · cases hlabel
  · next hbound =>
    cases hlabel
    exact ⟨pointer, value, thrownAs_eq_ok.mp hpointer, hstands, hfresh, by omega, rfl⟩

/-- An expansion that has grown by entries with new paths. -/
def Extends (expanded expanded' added : List ExpandedMaterialField) : Prop :=
  expanded' = expanded ++ added ∧
    ((expanded.map ExpandedMaterialField.path).Nodup →
      (expanded'.map ExpandedMaterialField.path).Nodup)

theorem Extends.nil (expanded : List ExpandedMaterialField) : Extends expanded expanded [] :=
  ⟨(List.append_nil expanded).symm, id⟩

theorem extends_concat {entry : ExpandedMaterialField}
    (h : entry.path ∉ expanded.map ExpandedMaterialField.path) :
    Extends expanded (expanded ++ [entry]) [entry] := by
  refine ⟨rfl, fun hnodup => ?_⟩
  rw [List.map_append, List.map_singleton, List.nodup_append]
  refine ⟨hnodup, List.nodup_singleton _, ?_⟩
  rintro path hpath other hother rfl
  exact h (List.mem_singleton.mp hother ▸ hpath)

theorem Extends.trans {last added more : List ExpandedMaterialField}
    (h : Extends expanded expanded' added) (hnext : Extends expanded' last more) :
    Extends expanded last (added ++ more) := by
  obtain ⟨rfl, hnodup⟩ := h
  obtain ⟨rfl, hlast⟩ := hnext
  exact ⟨List.append_assoc expanded added more, fun hstart => hlast (hnodup hstart)⟩

theorem expandItems_ok {κ : Type} {keys : List κ} {baseOf : κ → CodeUnits}
    {step : List ExpandedMaterialField → κ → Except ExpansionFailure (List ExpandedMaterialField)}
    (hstep : ∀ expanded key expanded', step expanded key = .ok expanded' →
      ∃ label, expandItem view formatting (baseOf key) relative label expanded = .ok expanded')
    (h : keys.foldlM step expanded = .ok expanded') : ∃ added, Extends expanded expanded' added ∧
      List.Forall₂ (fun key entry => relativePointer (baseOf key) relative = .ok entry.path ∧
        Stands view entry.path entry.scalarValue ∧ entry.formatting = formatting ∧
        byteLength entry.label ≤ materialLabelMaxUtf8Bytes) keys added := by
  induction keys generalizing expanded with
  | nil =>
    obtain rfl := foldlM_nil_eq_ok.mp h
    exact ⟨[], Extends.nil expanded, .nil⟩
  | cons key rest ih =>
    obtain ⟨next, hkey, hrest⟩ := foldlM_cons_eq_ok.mp h
    obtain ⟨label, hitem⟩ := hstep expanded key next hkey
    obtain ⟨pointer, value, hpointer, hstands, hfresh, hlabel, rfl⟩ := expandItem_ok hitem
    obtain ⟨added, hextends, hadded⟩ := ih hrest
    refine ⟨⟨pointer, label, formatting, value⟩ :: added, ?_, .cons ?_ hadded⟩
    · exact (extends_concat hfresh).trans hextends
    · exact ⟨hpointer, hstands, rfl, hlabel⟩

theorem expands_nil {field : MaterialField} (h : ∀ pointer, ¬ Declares view field pointer) :
    Expands view field [] where
  declared := nofun
  stands := nofun
  formatted := nofun
  labelled := fun _ => nofun
  complete := fun pointer hpointer => absurd hpointer (h pointer)

theorem expands_of_forall₂ {κ : Type} {keys : List κ} {added : List ExpandedMaterialField}
    {baseOf : κ → CodeUnits}
    (hdeclares : ∀ key ∈ keys, ∀ pointer, relativePointer (baseOf key) relative = .ok pointer →
      Declares view field pointer) (hdeclared : ∀ pointer, Declares view field pointer →
      ∃ key ∈ keys, relativePointer (baseOf key) relative = .ok pointer)
    (h : List.Forall₂ (fun key entry => relativePointer (baseOf key) relative = .ok entry.path ∧
      Stands view entry.path entry.scalarValue ∧ entry.formatting = field.formatting ∧
      byteLength entry.label ≤ materialLabelMaxUtf8Bytes) keys added) :
    Expands view field added where
  declared := by
    intro entry hentry
    obtain ⟨key, hkey, hpath, -⟩ := forall₂_right h hentry
    exact hdeclares key hkey entry.path hpath
  stands := by
    intro entry hentry
    obtain ⟨key, -, -, hstands, -⟩ := forall₂_right h hentry
    exact hstands
  formatted := by
    intro entry hentry
    obtain ⟨key, -, -, -, hformatting, -⟩ := forall₂_right h hentry
    exact hformatting
  labelled := by
    rintro - entry hentry
    obtain ⟨key, -, -, -, -, hlabel⟩ := forall₂_right h hentry
    exact hlabel
  complete := by
    intro pointer hpointer
    obtain ⟨key, hkey, hrelative⟩ := hdeclared pointer hpointer
    obtain ⟨entry, hentry, hpath, -⟩ := forall₂_left h hkey
    exact ⟨entry, hentry, Except.ok.inj (hpath.symm.trans hrelative)⟩

theorem mem_sortedNames {fields : JsonObject} {key : CodeUnits} :
    key ∈ (sortedByKey fields).map Prod.fst ↔ key ∈ fields.map Prod.fst := by
  simp only [List.mem_map, mem_sortedByKey]

theorem mem_keysOf {container : Found} {keys : List CodeUnits} {key : CodeUnits}
    (h : keysOf container = some keys) (hkey : key ∈ keys) :
    ∃ fields, container = .json (.obj fields) ∧ key ∈ fields.map Prod.fst := by
  cases container with
  | json value =>
    cases value with
    | obj fields =>
      cases h
      exact ⟨fields, rfl, mem_sortedNames.mp hkey⟩
    | _ => cases h
  | method => cases h
  | objectPrototype =>
    cases h
    cases hkey

theorem validatedEntry_ok {refused : Option CodeUnits}
    {item : Except ExpansionFailure (List ExpandedMaterialField)}
    (h : (match refused with
      | some detail => Except.error (ExpansionFailure.refused detail)
      | none => item) = .ok expanded') : item = .ok expanded' := by
  cases refused with
  | some detail => cases h
  | none => exact h

theorem expandField_ok {dictionaries : List BoundedDictionary}
    (h : expandField keyPatternTest dictionaries view expanded field = .ok expanded') :
    ∃ added, Extends expanded expanded' added ∧ Expands view field added := by
  cases field with
  | value path label formatting =>
    obtain ⟨value, hvalue, hend⟩ := bind_eq_ok.mp h
    obtain ⟨hstands, hfresh⟩ := materialValue_ok hvalue
    cases hend
    refine ⟨[⟨path, label, formatting, value⟩], extends_concat hfresh, ?_, ?_, ?_, ?_, ?_⟩
    · rintro entry hentry
      obtain rfl := List.mem_singleton.mp hentry
      exact .value
    · rintro entry hentry
      obtain rfl := List.mem_singleton.mp hentry
      exact hstands
    · rintro entry hentry
      obtain rfl := List.mem_singleton.mp hentry
      rfl
    · rintro hlabel entry hentry
      obtain rfl := List.mem_singleton.mp hentry
      exact hlabel
    · rintro pointer hpointer
      cases hpointer
      exact ⟨_, List.mem_singleton_self _, rfl⟩
  | arrayItem containerPath itemPath labelTemplate maxItems formatting =>
    obtain ⟨container, hcontainer, hrest⟩ := bind_eq_ok.mp h
    have hget := thrownAs_eq_ok.mp hcontainer
    have hempty (hnone : ∀ items, container ≠ some (.json (.arr items))) (pointer : CodeUnits) :
        ¬ Declares view (.arrayItem containerPath itemPath labelTemplate maxItems formatting)
          pointer := by
      rintro (_ | ⟨hitems, -, -⟩)
      exact hnone _ (Except.ok.inj (hget.symm.trans hitems))
    cases container with
    | none =>
      dsimp only at hrest
      split at hrest
      · cases hrest
      · cases hrest
        exact ⟨[], Extends.nil expanded, expands_nil (hempty nofun)⟩
    | some container =>
      cases container with
      | json value =>
        cases value with
        | arr items =>
          dsimp only at hrest
          split at hrest
          · cases hrest
          · obtain ⟨added, hextends, hadded⟩ := expandItems_ok
              (fun expanded index expanded' hitem => ⟨_, hitem⟩) hrest
            refine ⟨added, hextends, expands_of_forall₂ ?_ ?_ hadded⟩
            · intro index hindex pointer hpointer
              exact .item hget (List.mem_range.mp hindex) hpointer
            · rintro pointer (_ | ⟨hitems, hindex, hpointer⟩)
              cases hget.symm.trans hitems
              exact ⟨_, List.mem_range.mpr hindex, hpointer⟩
        | _ => cases hrest
      | _ => cases hrest
  | dictionaryEntry containerPath valuePath labelTemplate maxEntries formatting =>
    cases hdictionary : dictionaries.find? (·.path = containerPath) with
    | none =>
      simp only [expandField, hdictionary] at h
      cases h
    | some dictionary =>
    simp only [expandField, hdictionary] at h
    obtain ⟨container, hcontainer, hrest⟩ := bind_eq_ok.mp h
    have hget := thrownAs_eq_ok.mp hcontainer
    cases container with
    | none =>
      dsimp only at hrest
      split at hrest
      · cases hrest
      · cases hrest
        refine ⟨[], Extends.nil expanded, expands_nil ?_⟩
        rintro pointer (_ | _ | ⟨hfields, -, -⟩)
        cases hget.symm.trans hfields
    | some container =>
      dsimp only at hrest
      cases hkeys : keysOf container with
      | none =>
        simp only [hkeys] at hrest
        cases hrest
      | some keys =>
        simp only [hkeys] at hrest
        split at hrest
        · cases hrest
        obtain ⟨added, hextends, hadded⟩ := expandItems_ok
          (fun expanded key expanded' hitem => ⟨_, validatedEntry_ok hitem⟩) hrest
        refine ⟨added, hextends, expands_of_forall₂ ?_ ?_ hadded⟩
        · intro key hkey pointer hpointer
          obtain ⟨fields, rfl, hname⟩ := mem_keysOf hkeys hkey
          exact .entry hget hname hpointer
        · rintro pointer (_ | _ | ⟨hfields, hkey, hpointer⟩)
          cases hget.symm.trans hfields
          cases hkeys
          exact ⟨_, mem_sortedNames.mpr hkey, hpointer⟩

/-- The fields one after the other: the parts that they expand to are the whole. -/
theorem expandFields_ok {dictionaries : List BoundedDictionary}
    {materialFields : List MaterialField}
    (h : materialFields.foldlM (expandField keyPatternTest dictionaries view) expanded =
      .ok expanded') : ∃ added, Extends expanded expanded' added ∧
      (∀ entry ∈ added, ∃ field ∈ materialFields, ∃ part, Expands view field part ∧ entry ∈ part) ∧
      ∀ field ∈ materialFields, ∃ part, Expands view field part ∧ part ⊆ added := by
  induction materialFields generalizing expanded with
  | nil =>
    obtain rfl := foldlM_nil_eq_ok.mp h
    exact ⟨[], Extends.nil expanded, nofun, nofun⟩
  | cons field rest ih =>
    obtain ⟨next, hfield, hrest⟩ := foldlM_cons_eq_ok.mp h
    obtain ⟨part, hextends, hpart⟩ := expandField_ok hfield
    obtain ⟨added, hlater, hentries, hparts⟩ := ih hrest
    refine ⟨part ++ added, hextends.trans hlater, ?_, ?_⟩
    · intro entry hentry
      rcases List.mem_append.mp hentry with hfirst | hadded
      · exact ⟨field, List.mem_cons_self, part, hpart, hfirst⟩
      · obtain ⟨other, hother, hexpands⟩ := hentries entry hadded
        exact ⟨other, List.mem_cons_of_mem field hother, hexpands⟩
    · intro other hother
      rcases List.mem_cons.mp hother with rfl | hlater
      · exact ⟨part, hpart, List.subset_append_left part added⟩
      · obtain ⟨piece, hpiece, hsub⟩ := hparts other hlater
        exact ⟨piece, hpiece, List.Subset.trans hsub (List.subset_append_right part added)⟩

/-- What the declared fields of an action expand to. -/
structure Expansion (definition : ActionDefinition) (view : UnitJson)
    (fields : List ExpandedMaterialField) : Prop where
  distinct : (fields.map ExpandedMaterialField.path).Nodup
  declared : ∀ entry ∈ fields, ∃ field ∈ definition.materialFields,
    Declares view field entry.path ∧ entry.formatting = field.formatting
  stands : ∀ entry ∈ fields, Stands view entry.path entry.scalarValue
  labelled : (∀ field ∈ definition.materialFields, field.LabelBounded) →
    ∀ entry ∈ fields, byteLength entry.label ≤ materialLabelMaxUtf8Bytes
  complete : ∀ field ∈ definition.materialFields, ∀ pointer, Declares view field pointer →
    ∃ entry ∈ fields, entry.path = pointer
  bounded : fields.length ≤ materialFactLimit

theorem expandMaterialFields_ok {fields : List ExpandedMaterialField}
    (h : expandMaterialFields keyPatternTest definition view = .ok fields) :
    Expansion definition view fields := by
  obtain ⟨expanded, hexpanded, hend⟩ := bind_eq_ok.mp h
  split at hend
  · cases hend
  next hlimit =>
  cases hend
  obtain ⟨added, ⟨hadded, hnodup⟩, hentries, hparts⟩ := expandFields_ok hexpanded
  obtain rfl : fields = added := hadded
  refine ⟨hnodup List.nodup_nil, ?_, ?_, ?_, ?_, by omega⟩
  · intro entry hentry
    obtain ⟨field, hfield, part, hpart, hmem⟩ := hentries entry hentry
    exact ⟨field, hfield, hpart.declared entry hmem, hpart.formatted entry hmem⟩
  · intro entry hentry
    obtain ⟨field, -, part, hpart, hmem⟩ := hentries entry hentry
    exact hpart.stands entry hmem
  · intro hlabels entry hentry
    obtain ⟨field, hfield, part, hpart, hmem⟩ := hentries entry hentry
    exact hpart.labelled (hlabels field hfield) entry hmem
  · intro field hfield pointer hpointer
    obtain ⟨part, hpart, hsub⟩ := hparts field hfield
    obtain ⟨entry, hentry, hpath⟩ := hpart.complete pointer hpointer
    exact ⟨entry, hsub hentry, hpath⟩

end Expansion

section Gate

variable {keyPatternTest : CodeUnits → CodeUnits → Option Bool} {registries : Registries}
  {definition : ActionDefinition} {view : UnitJson} {fields : List ExpandedMaterialField}
  {provenance : FieldProvenanceMap} {presentation : PreparedWritePresentation}
  {input : PresentationInput} {field : ExpandedMaterialField} {fact : PreparedWriteFact}

/-- The fact shows the field. -/
structure Presents (registries : Registries) (input : PresentationInput)
    (field : ExpandedMaterialField) (fact : PreparedWriteFact) : Prop where
  path_eq : fact.path = field.path
  label_eq : fact.label = field.label
  provenance_eq : input.fieldProvenance.lookup field.path = some fact.provenance
  value_eq : formatScalarValue registries field.formatting (input.formatInput field) = .ok fact.value

theorem presentField_ok (h : presentField registries input field = .ok fact) :
    Presents registries input field fact := by
  unfold presentField at h
  cases hprovenance : input.fieldProvenance.lookup field.path with
  | none =>
    simp only [hprovenance] at h
    cases h
  | some source =>
    simp only [hprovenance] at h
    obtain ⟨value, hvalue, hend⟩ := bind_eq_ok.mp h
    cases hend
    exact ⟨rfl, rfl, hprovenance, hvalue⟩

theorem present_ok (h : metadataDrivenPresentPreparedWrite keyPatternTest registries input =
      .ok presentation) :
    ∃ fields, expandMaterialFields keyPatternTest input.definition input.normalizedOperation =
        .ok fields ∧
      List.Forall₂ (Presents registries input) (fields.filter (·.isShown)) presentation.facts := by
  unfold metadataDrivenPresentPreparedWrite at h
  cases hoperation : input.definition.apiOperation with
  | none =>
    simp only [hoperation] at h
    cases h
  | some operation =>
    simp only [hoperation] at h
    cases hfields : expandMaterialFields keyPatternTest input.definition
        input.normalizedOperation with
    | error failure =>
      simp only [hfields] at h
      cases failure <;> cases h
    | ok fields =>
      simp only [hfields] at h
      obtain ⟨facts, hfacts, hend⟩ := bind_eq_ok.mp h
      cases hend
      exact ⟨fields, rfl, (forall₂_of_mapM hfacts).imp fun _ _ => presentField_ok⟩

theorem formatScalarValue_ok {formatting : Formatting} {formatInput : FormatInput}
    {text : CodeUnits} (h : formatScalarValue registries formatting formatInput = .ok text) :
    ∃ formatter,
      registries.getMaterialFormatter formatting.formatterId formatting.formatterVersion =
        some formatter ∧
      text = formatter.format formatInput ∧ byteLength text ≤ formatterOutputMaxUtf8Bytes := by
  unfold formatScalarValue at h
  cases hformatter : registries.getMaterialFormatter formatting.formatterId
      formatting.formatterVersion with
  | none =>
    simp only [hformatter] at h
    cases h
  | some formatter =>
    simp only [hformatter] at h
    split at h
    · cases h
    next hbytes =>
    cases h
    exact ⟨formatter, rfl, rfl, by omega⟩

theorem expandedAt_of_mem (hdistinct : (fields.map ExpandedMaterialField.path).Nodup)
    (hfield : field ∈ fields) : expandedAt fields field.path = some field := by
  cases hfound : expandedAt fields field.path with
  | none =>
    have hnone := List.find?_eq_none.mp hfound field hfield
    simp at hnone
  | some other =>
    have hpath : other.path = field.path := by
      have hsome := List.find?_some hfound
      simpa using hsome
    have hother := List.mem_of_find?_eq_some hfound
    rw [List.inj_on_of_nodup_map hdistinct hother hfield hpath]

theorem require_of {holds : Bool} (h : holds = true) (code : ValidationCode) (detail : CodeUnits) :
    require holds code detail = .ok () := by
  rw [require, if_pos h]

theorem validateFact_eq {seen : List CodeUnits} (h : Presents registries input field fact)
    (hat : expandedAt fields field.path = some field) (hseen : field.path ∉ seen)
    (hlabel : byteLength field.label ≤ materialLabelMaxUtf8Bytes) :
    validateFact registries input fields seen fact = .ok (seen ++ [field.path]) := by
  obtain ⟨formatter, hformatter, -, hbytes⟩ := formatScalarValue_ok h.value_eq
  unfold validateFact
  rw [h.path_eq, if_neg hseen]
  simp only [hat, hformatter, h.value_eq, h.provenance_eq, h.label_eq]
  refine bind_eq_ok.mpr ⟨(), require_of rfl _ _, ?_⟩
  refine bind_eq_ok.mpr ⟨(), require_of (decide_eq_true trivial) _ _, ?_⟩
  refine bind_eq_ok.mpr ⟨(), require_of (decide_eq_true trivial) _ _, ?_⟩
  refine bind_eq_ok.mpr ⟨(), require_of (decide_eq_true hlabel) _ _, ?_⟩
  exact bind_eq_ok.mpr ⟨(), require_of (decide_eq_true hbytes) _ _, rfl⟩

theorem validateFacts_eq {shown : List ExpandedMaterialField} {facts : List PreparedWriteFact}
    {seen : List CodeUnits} (h : List.Forall₂ (Presents registries input) shown facts)
    (hdistinct : (fields.map ExpandedMaterialField.path).Nodup) (hshown : shown.Sublist fields)
    (hseen : ∀ field ∈ shown, field.path ∉ seen)
    (hlabels : ∀ field ∈ fields, byteLength field.label ≤ materialLabelMaxUtf8Bytes) :
    facts.foldlM (validateFact registries input fields) seen =
      .ok (seen ++ shown.map ExpandedMaterialField.path) := by
  induction h generalizing seen with
  | nil =>
    rw [List.map_nil, List.append_nil]
    rfl
  | @cons field fact shown facts hfact hrest ih =>
    have hfield : field ∈ fields := hshown.subset List.mem_cons_self
    have hfresh := hseen field List.mem_cons_self
    have hnodup : (field.path :: shown.map ExpandedMaterialField.path).Nodup :=
      hdistinct.sublist (hshown.map ExpandedMaterialField.path)
    have hlater : ∀ other ∈ shown, other.path ∉ seen ++ [field.path] := by
      intro other hother hmem
      rcases List.mem_append.mp hmem with hbefore | hsame
      · exact hseen other (List.mem_cons_of_mem field hother) hbefore
      · have hpath := List.mem_map_of_mem (f := ExpandedMaterialField.path) hother
        rw [List.mem_singleton.mp hsame] at hpath
        exact (List.nodup_cons.mp hnodup).1 hpath
    refine foldlM_cons_eq_ok.mpr ⟨seen ++ [field.path], ?_, ?_⟩
    · exact validateFact_eq hfact (expandedAt_of_mem hdistinct hfield) hfresh (hlabels field hfield)
    · rw [ih ((List.sublist_cons_self field shown).trans hshown) hlater, List.map_cons,
        List.append_assoc, List.singleton_append]

theorem mem_shown_paths (hdistinct : (fields.map ExpandedMaterialField.path).Nodup)
    (hfield : field ∈ fields) :
    field.path ∈ (fields.filter (·.isShown)).map ExpandedMaterialField.path ↔
      field.isShown = true := by
  constructor
  · intro hpath
    obtain ⟨other, hother, hsame⟩ := List.mem_map.mp hpath
    obtain ⟨hmem, hshown⟩ := List.mem_filter.mp hother
    rwa [List.inj_on_of_nodup_map hdistinct hmem hfield hsame] at hshown
  · intro hshown
    exact List.mem_map_of_mem (List.mem_filter.mpr ⟨hfield, hshown⟩)

/-- A field is shown, and has a provenance, where it is present or required. -/
theorem validateField_eq {factPaths provenancePaths : List CodeUnits}
    (hfact : field.path ∈ factPaths ↔ field.isShown = true)
    (hprovenance : field.path ∈ provenancePaths ↔ field.isShown = true) :
    validateField factPaths provenancePaths field = .ok () := by
  unfold validateField
  simp only [hfact, hprovenance, ExpandedMaterialField.isShown]
  cases field.present <;> cases field.formatting.requiredInPreview <;> rfl

/-- The presentation of an operation with the provenance built for it passes the check. -/
theorem validatePresentation_ok (hpresenter : validatePresenter registries definition = .ok ())
    (hlabels : ∀ field ∈ definition.materialFields, field.LabelBounded)
    (hprovenance : buildModelInferenceProvenance keyPatternTest definition view = .ok provenance)
    (hpresent : metadataDrivenPresentPreparedWrite keyPatternTest registries
      ⟨definition, view, provenance, [], []⟩ = .ok presentation) :
    validatePreparedWritePresentation keyPatternTest registries
      ⟨definition, view, provenance, [], []⟩ presentation = .ok () := by
  obtain ⟨fields, hfields, hfacts⟩ := present_ok hpresent
  obtain ⟨same, hsame, hbuilt⟩ := bind_eq_ok.mp hprovenance
  obtain rfl := Except.ok.inj (hsame.symm.trans hfields)
  cases hbuilt
  have hexpansion := expandMaterialFields_ok hfields
  have hlabel := hexpansion.labelled hlabels
  have hnames : ((same.filter (·.isShown)).map fun field =>
      (field.path, FieldProvenance.modelInference)).map Prod.fst =
        (same.filter (·.isShown)).map ExpandedMaterialField.path := by
    rw [List.map_map]
    rfl
  unfold validatePreparedWritePresentation
  refine bind_eq_ok.mpr ⟨(), hpresenter, ?_⟩
  simp only [hfields]
  refine bind_eq_ok.mpr ⟨_, validateFacts_eq hfacts hexpansion.distinct List.filter_sublist nofun
    hlabel, ?_⟩
  refine bind_eq_ok.mpr ⟨(), forM_eq_ok.mpr fun field hfield => ?_, ?_⟩
  · rw [hnames, List.nil_append]
    have hshown := mem_shown_paths hexpansion.distinct hfield
    exact validateField_eq hshown hshown
  refine bind_eq_ok.mpr ⟨(), forM_eq_ok.mpr fun pointer hpointer => ?_, ?_⟩
  · rw [hnames] at hpointer
    obtain ⟨field, hfield, rfl⟩ := List.mem_map.mp hpointer
    refine require_of ?_ _ _
    rw [expandedAt_of_mem hexpansion.distinct (List.mem_of_mem_filter hfield), Option.isSome_some]
  refine bind_eq_ok.mpr ⟨(), rfl, bind_eq_ok.mpr ⟨(), rfl, require_of ?_ _ _⟩⟩
  rw [decide_eq_true_eq, ← hfacts.length_eq]
  exact (List.length_filter_le _ _).trans hexpansion.bounded

end Gate

section Registry

variable {fromMinor : Scalar → CodeUnits} {before registries : Registries}
  {actions : List ActionDefinition} {action : ActionDefinition}

/-- The presenter of an action offered to the model is registered in its version. -/
theorem validatePresenter_ok
    (h : initializePreparedWritePresentationRegistries fromMinor before actions = .ok registries)
    (haction : action ∈ actions) (hexposed : action.apiExposure = .api) :
    validatePresenter registries action = .ok () := by
  obtain ⟨started, -, hstarted⟩ := bind_eq_ok.mp h
  obtain ⟨filled, -, hfilled⟩ := bind_eq_ok.mp hstarted
  obtain ⟨owners, howners, hcovered⟩ := bind_eq_ok.mp hfilled
  obtain ⟨_, hvalid, hend⟩ := bind_eq_ok.mp hcovered
  cases hend
  obtain ⟨earlier, later, hcoverage⟩ := step_of_foldlM howners haction
  have hchecked := forM_eq_ok.mp hvalid action haction
  unfold checkCoverage at hcoverage
  unfold validateActionPresentation at hchecked
  rw [if_neg (not_not.mpr hexposed)] at hcoverage hchecked
  unfold validatePresenter
  cases hpresentation : action.presentation with
  | none =>
    simp only [hpresentation] at hcoverage
    cases hcoverage
  | some presentation =>
    simp only [hpresentation] at hchecked ⊢
    cases hpresenter : registries.getPreparedWritePresenter presentation.presenterId with
    | none =>
      simp only [hpresenter] at hchecked
      cases hchecked
    | some presenter =>
      simp only [hpresenter] at hchecked ⊢
      by_cases hversion : presenter.version = presentation.version
      · exact require_of (decide_eq_true hversion) _ _
      · rw [if_pos hversion] at hchecked
        cases hchecked

theorem checkThat_ok {actionName detail : CodeUnits} {holds : Bool} {code : String}
    (h : checkThat actionName holds code detail = .ok ()) : holds = true := by
  unfold checkThat at h
  split at h
  · assumption
  · cases h

theorem labelBounded_of_validated {required : Bool}
    {schemaArrayMaxItems : Option (List (CodeUnits × Option Nat))}
    (h : validateMaterialFields action required schemaArrayMaxItems = .ok ()) :
    ∀ field ∈ action.materialFields, field.LabelBounded := by
  intro field hfield
  obtain ⟨_, _, hfields⟩ := bind_eq_ok.mp h
  obtain ⟨checked, hchecked, -⟩ := bind_eq_ok.mp hfields
  obtain ⟨earlier, later, hstep⟩ := step_of_foldlM hchecked hfield
  obtain ⟨shaped, hshape, -⟩ := bind_eq_ok.mp hstep
  cases field with
  | value path label formatting =>
    obtain ⟨_, hvalid, _⟩ := bind_eq_ok.mp hshape
    have hall := checkThat_ok hvalid
    simp only [Bool.and_eq_true, decide_eq_true_eq] at hall
    exact hall.2
  | arrayItem containerPath itemPath labelTemplate maxItems formatting => trivial
  | dictionaryEntry containerPath valuePath labelTemplate maxEntries formatting => trivial

end Registry

end PreparedWrites

end ClockifyAssistant
