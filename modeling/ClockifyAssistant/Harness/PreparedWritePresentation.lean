import ClockifyAssistant.Harness.MaterialFields

/-!
The presentation of a prepared write: each material field shown as a fact, the check of a
presentation against the operation, and the registries that both read.
-/
namespace ClockifyAssistant

open Lib Lib.CodeUnits Lib.ObjectKeys Lib.JsonPointer

namespace PreparedWrites

def formatterOutputMaxUtf8Bytes : Nat := 2048

inductive FieldProvenance
  | directUserInput (authoredSegment byteStart byteEnd : Nat)
  | modelInference
  | priorClockifyResult (actionResultId : CodeUnits) (referenceId : Option CodeUnits)
  | serverDefault (ruleId : CodeUnits)
  deriving DecidableEq

def sourceField (source : String) : CodeUnits × UnitJson :=
  (ofString "source", .str (ofString source))

def FieldProvenance.json : FieldProvenance → UnitJson
  | .directUserInput authoredSegment byteStart byteEnd =>
      .obj [sourceField "direct_user_input",
        (ofString "authoredSegment", .num (.ofNat authoredSegment)),
        (ofString "byteStart", .num (.ofNat byteStart)), (ofString "byteEnd", .num (.ofNat byteEnd))]
  | .modelInference => .obj [sourceField "model_inference"]
  | .priorClockifyResult actionResultId referenceId =>
      .obj ([sourceField "prior_clockify_result", (ofString "actionResultId", .str actionResultId)] ++
        referenceId.toList.map fun id => (ofString "referenceId", .str id))
  | .serverDefault ruleId =>
      .obj [sourceField "server_default", (ofString "ruleId", .str ruleId)]

abbrev FieldProvenanceMap := List (CodeUnits × FieldProvenance)

structure ResolvedTargetView where
  path : CodeUnits
  id : CodeUnits
  label : CodeUnits
  entityType : CodeUnits

structure ServerDefaultView where
  path : CodeUnits
  ruleId : CodeUnits
  value : UnitJson

structure PreparedWriteFact where
  path : CodeUnits
  label : CodeUnits
  value : CodeUnits
  provenance : FieldProvenance
  deriving DecidableEq

structure PresentationWarning where
  code : String
  message : String
  deriving DecidableEq

structure Reversibility where
  reversible : Bool
  explanation : String
  deriving DecidableEq

structure PreparedWritePresentation where
  title : CodeUnits
  facts : List PreparedWriteFact
  warnings : List PresentationWarning
  reversibility : Reversibility
  endpoint : ApiOperation
  deriving DecidableEq

/-! The registries -/

structure FormatInput where
  path : CodeUnits
  value : Scalar
  resolvedTarget : Option ResolvedTargetView
  serverDefault : Option ServerDefaultView

structure MaterialFormatter where
  formatterId : CodeUnits
  version : Nat
  maxOutputUtf8Bytes : Nat
  format : FormatInput → CodeUnits

structure PreparedWritePresenter where
  presenterId : CodeUnits
  version : Nat

structure Registries where
  formatters : List (CodeUnits × MaterialFormatter)
  presenters : List (CodeUnits × PreparedWritePresenter)

def formatterKey (formatterId : CodeUnits) (version : Nat) : CodeUnits :=
  formatterId ++ 0 :: CodeUnits.ofNat version

namespace Registries

def getMaterialFormatter (registries : Registries) (formatterId : CodeUnits) (version : Nat) :
    Option MaterialFormatter := registries.formatters.lookup (formatterKey formatterId version)

def getPreparedWritePresenter (registries : Registries) (presenterId : CodeUnits) :
    Option PreparedWritePresenter := registries.presenters.lookup presenterId

def registerMaterialFormatter (registries : Registries) (registration : MaterialFormatter) :
    Except CodeUnits Registries :=
  let key := formatterKey registration.formatterId registration.version
  if registration.maxOutputUtf8Bytes = 0 ∨
      registration.maxOutputUtf8Bytes > formatterOutputMaxUtf8Bytes then
    .error (ofString "invalid_formatter_output_limit:" ++ registration.formatterId)
  else if (registries.formatters.lookup key).isSome then
    .error (ofString "duplicate_material_formatter:" ++
      withCount registration.formatterId registration.version)
  else .ok { registries with formatters := assign key registration registries.formatters }

def registerPreparedWritePresenter (registries : Registries)
    (registration : PreparedWritePresenter) : Except CodeUnits Registries :=
  if (registries.getPreparedWritePresenter registration.presenterId).isSome then
    .error (ofString "duplicate_prepared_write_presenter:" ++ registration.presenterId)
  else
    .ok { registries with
      presenters := assign registration.presenterId registration registries.presenters }

end Registries

/-- `String(value)` -/
def Scalar.text : Scalar → CodeUnits
  | .null => ofString "null"
  | .bool value => ofString (if value then "true" else "false")
  | .num value => value.units
  | .str value => value

/-- `Boolean(value)` -/
def Scalar.truthy : Scalar → Bool
  | .null => false
  | .bool value => value
  | .num value => value.units != ofString "0"
  | .str value => !value.isEmpty

def Scalar.orEmpty (format : Scalar → CodeUnits) : Scalar → CodeUnits
  | .null => ofString "(empty)"
  | value => format value

section BuiltIns

-- `fromMinor(Number(value))`, whose arithmetic is that of doubles
variable (fromMinor : Scalar → CodeUnits)

def builtIn (formatterId : String) (maxOutputUtf8Bytes : Nat) (format : Scalar → CodeUnits) :
    MaterialFormatter where
  formatterId := ofString formatterId
  version := 1
  maxOutputUtf8Bytes := maxOutputUtf8Bytes
  format := fun input => input.value.orEmpty format

def entityFormatter : MaterialFormatter where
  formatterId := ofString "entity"
  version := 1
  maxOutputUtf8Bytes := 512
  format := fun input =>
    match input.resolvedTarget with
    | some target => target.label ++ ofString " (" ++ target.id ++ ofString ")"
    | none => input.value.orEmpty Scalar.text

def builtInFormatters : List MaterialFormatter := [
  builtIn "text" 512 Scalar.text,
  builtIn "number" 64 Scalar.text,
  builtIn "boolean" 16 fun value => ofString (if value.truthy then "true" else "false"),
  builtIn "money-minor" 64 fromMinor,
  entityFormatter]

def registerBuiltInFormatters (registries : Registries) : Except CodeUnits Registries :=
  (builtInFormatters fromMinor).foldlM Registries.registerMaterialFormatter registries

def ensureFormatters (registries : Registries) : Except CodeUnits Registries :=
  if registries.formatters.isEmpty then registerBuiltInFormatters fromMinor registries
  else .ok registries

def registerPresenterOf (registries : Registries) (action : ActionDefinition) :
    Except CodeUnits Registries :=
  match action.presentation with
  | none => .ok registries
  | some presentation =>
      if (registries.getPreparedWritePresenter presentation.presenterId).isSome then .ok registries
      else registries.registerPreparedWritePresenter ⟨presentation.presenterId, presentation.version⟩

/-- The owners of the presenters, where each exposed action has one of its own. -/
def checkCoverage (owners : List CodeUnits) (action : ActionDefinition) :
    Except CodeUnits (List CodeUnits) :=
  if action.apiExposure ≠ .api then .ok owners
  else
    match action.presentation with
    | none => .error (ofString "missing_presenter:" ++ action.name)
    | some presentation =>
        if presentation.presenterId ∈ owners then
          .error (ofString "duplicate_presenter:" ++ action.name ++ ofString ":" ++
            presentation.presenterId)
        else .ok (presentation.presenterId :: owners)

def assertApiExposedPresentationCoverage (actions : List ActionDefinition) :
    Except CodeUnits (List CodeUnits) := actions.foldlM checkCoverage []

def validateFieldFormatter (registries : Registries) (action : ActionDefinition)
    (field : MaterialField) : Except CodeUnits Unit :=
  let formatting := field.formatting
  match registries.getMaterialFormatter formatting.formatterId formatting.formatterVersion with
  | some _ => .ok ()
  | none =>
      .error (ofString "missing_material_formatter:" ++ action.name ++ ofString ":" ++
        withCount formatting.formatterId formatting.formatterVersion)

def validateActionPresentation (registries : Registries) (action : ActionDefinition) :
    Except CodeUnits Unit :=
  if action.apiExposure ≠ .api then .ok ()
  else
    match action.presentation with
    | none => .ok ()
    | some presentation =>
        let subject := action.name ++ ofString ":" ++ presentation.presenterId
        match registries.getPreparedWritePresenter presentation.presenterId with
        | none => .error (ofString "missing_prepared_write_presenter:" ++ subject)
        | some presenter =>
            if presenter.version ≠ presentation.version then
              .error (ofString "prepared_write_presenter_version_mismatch:" ++ subject)
            else action.materialFields.forM (validateFieldFormatter registries action)

def validateCatalogPresentationRegistries (registries : Registries)
    (actions : List ActionDefinition) : Except CodeUnits Unit :=
  actions.forM (validateActionPresentation registries)

def initializePreparedWritePresentationRegistries (registries : Registries)
    (actions : List ActionDefinition) : Except CodeUnits Registries := do
  let registries ← ensureFormatters fromMinor registries
  let registries ← actions.foldlM registerPresenterOf registries
  let _ ← assertApiExposedPresentationCoverage actions
  validateCatalogPresentationRegistries registries actions
  return registries

end BuiltIns

/-! The presenter -/

def formatScalarValue (registries : Registries) (formatting : Formatting) (input : FormatInput) :
    Except CodeUnits CodeUnits :=
  match registries.getMaterialFormatter formatting.formatterId formatting.formatterVersion with
  | none =>
      .error (ofString "missing_formatter:" ++
        withCount formatting.formatterId formatting.formatterVersion)
  | some formatter =>
      let formatted := formatter.format input
      let bytes := byteLength formatted
      if bytes > formatter.maxOutputUtf8Bytes ∨ bytes > formatterOutputMaxUtf8Bytes then
        .error (ofString "presentation_limit_exceeded:formatter_output:" ++
          withCount input.path bytes)
      else .ok formatted

def defaultReversibility (definition : ActionDefinition) : Reversibility :=
  if definition.kind = .safeWrite then
    ⟨true, "Undo removes the created entity where supported."⟩
  else if definition.risks.contains .destructive then ⟨false, "This cannot be undone."⟩
  else if definition.risks.contains .highRiskWrite then
    ⟨false, "Editing replaces live data; there is no automatic undo."⟩
  else ⟨false, "This change may be hard to reverse."⟩

def defaultTitle (definition : ActionDefinition) : CodeUnits :=
  let firstSentence := trimUnits (definition.description.takeWhile (· ≠ 0x2e))
  if firstSentence.isEmpty then definition.name else firstSentence

def defaultWarnings (definition : ActionDefinition) : List PresentationWarning :=
  if definition.risks.contains .destructive then
    [⟨"destructive_write", "This action changes or removes live workspace data."⟩]
  else if definition.risks.contains .highRiskWrite then
    [⟨"high_risk_write", "This action overwrites existing workspace data."⟩]
  else []

structure PresentationInput where
  definition : ActionDefinition
  normalizedOperation : UnitJson
  fieldProvenance : FieldProvenanceMap
  resolvedTargets : List ResolvedTargetView
  serverDefaults : List ServerDefaultView

namespace PresentationInput

variable (input : PresentationInput)

def targetAt (path : CodeUnits) : Option ResolvedTargetView :=
  input.resolvedTargets.find? (·.path = path)

def defaultAt (path : CodeUnits) : Option ServerDefaultView :=
  input.serverDefaults.find? (·.path = path)

/-- The field as its formatter gets it; a field that is not there is shown as a null. -/
def formatInput (field : ExpandedMaterialField) : FormatInput where
  path := field.path
  value := field.scalarValue.getD .null
  resolvedTarget := input.targetAt field.path
  serverDefault := input.defaultAt field.path

end PresentationInput

def ExpandedMaterialField.isShown (field : ExpandedMaterialField) : Bool :=
  field.present || field.formatting.requiredInPreview

def presentField (registries : Registries) (input : PresentationInput)
    (field : ExpandedMaterialField) : Except CodeUnits PreparedWriteFact :=
  match input.fieldProvenance.lookup field.path with
  | none => .error (ofString "missing_provenance:" ++ field.path)
  | some provenance => do
      let value ← formatScalarValue registries field.formatting (input.formatInput field)
      return ⟨field.path, field.label, value, provenance⟩

section Presenting

variable (keyPatternTest : CodeUnits → CodeUnits → Option Bool) (registries : Registries)

def metadataDrivenPresentPreparedWrite (input : PresentationInput) :
    Except CodeUnits PreparedWritePresentation :=
  match input.definition.apiOperation with
  | none => .error (ofString "missing_api_operation:" ++ input.definition.name)
  | some operation =>
      match expandMaterialFields keyPatternTest input.definition input.normalizedOperation with
      | .error (.thrown message) => .error message
      | .error (.refused detail) => .error detail
      | .ok fields => do
          let facts ← (fields.filter (·.isShown)).mapM (presentField registries input)
          return {
            title := defaultTitle input.definition
            facts := facts
            warnings := defaultWarnings input.definition
            reversibility := defaultReversibility input.definition
            endpoint := operation }

def buildModelInferenceProvenance (definition : ActionDefinition) (view : UnitJson) :
    Except ExpansionFailure FieldProvenanceMap := do
  let fields ← expandMaterialFields keyPatternTest definition view
  return (fields.filter (·.isShown)).map fun field => (field.path, .modelInference)

/-! The check -/

inductive ValidationCode
  | presentationLimitExceeded | invalidMaterialExpansion | missingPresenter
  | presenterVersionMismatch | missingFormatter | undeclaredMaterialFact
  | undeclaredProvenancePointer | missingRequiredFact | missingRequiredProvenance
  | optionalFactMismatch | duplicateFact | formatterOutputMismatch | provenanceMismatch
  | unresolvedTargetOmitted | serverDefaultOmitted | serverDefaultProvenanceMismatch
  | normalizedMaterialValueOmitted
  deriving DecidableEq

inductive ValidationFailure
  | thrown (message : CodeUnits)
  | failed (code : ValidationCode) (detail : CodeUnits)

def fail {α : Type} (code : ValidationCode) (detail : CodeUnits) : Except ValidationFailure α :=
  .error (.failed code detail)

def require (holds : Bool) (code : ValidationCode) (detail : CodeUnits) :
    Except ValidationFailure Unit := if holds then .ok () else fail code detail

def validatePresenter (definition : ActionDefinition) : Except ValidationFailure Unit :=
  match definition.presentation with
  | none => fail .missingPresenter definition.name
  | some presentation =>
      match registries.getPreparedWritePresenter presentation.presenterId with
      | none =>
          fail .missingPresenter (definition.name ++ ofString ":" ++ presentation.presenterId)
      | some presenter =>
          require (presenter.version = presentation.version) .presenterVersionMismatch
            (withCount presentation.presenterId presentation.version)

def expandedAt (fields : List ExpandedMaterialField) (path : CodeUnits) :
    Option ExpandedMaterialField := fields.find? (·.path = path)

/-- A fact against its field; `seen` are the paths of the facts before it. -/
def validateFact (input : PresentationInput) (fields : List ExpandedMaterialField)
    (seen : List CodeUnits) (fact : PreparedWriteFact) : Except ValidationFailure (List CodeUnits) :=
  if fact.path ∈ seen then fail .duplicateFact fact.path
  else
    match expandedAt fields fact.path with
    | none => fail .undeclaredMaterialFact fact.path
    | some field => do
        let formatting := field.formatting
        require (registries.getMaterialFormatter formatting.formatterId
          formatting.formatterVersion).isSome .missingFormatter
          (withCount formatting.formatterId formatting.formatterVersion)
        match formatScalarValue registries formatting (input.formatInput field) with
        | .error detail => fail .presentationLimitExceeded detail
        | .ok expected =>
            require (fact.value = expected) .formatterOutputMismatch
              (fact.path ++ ofString ":" ++ fact.value ++ ofString ":" ++ expected)
            match input.fieldProvenance.lookup fact.path with
            | none => fail .undeclaredProvenancePointer fact.path
            | some provenance =>
                require (provenance.json.stringify = fact.provenance.json.stringify)
                  .provenanceMismatch fact.path
                require (byteLength fact.label ≤ materialLabelMaxUtf8Bytes)
                  .presentationLimitExceeded (ofString "label:" ++ fact.path)
                require (byteLength fact.value ≤ formatterOutputMaxUtf8Bytes)
                  .presentationLimitExceeded (ofString "fact_value:" ++ fact.path)
                return seen ++ [fact.path]

def validateField (factPaths provenancePaths : List CodeUnits) (field : ExpandedMaterialField) :
    Except ValidationFailure Unit := do
  let hasFact : Bool := field.path ∈ factPaths
  let hasProvenance : Bool := field.path ∈ provenancePaths
  let required := field.formatting.requiredInPreview
  require (!required || hasFact) .missingRequiredFact field.path
  require (!required || hasProvenance) .missingRequiredProvenance field.path
  require (required || field.present == hasFact) .optionalFactMismatch field.path
  require (required || field.present == hasProvenance) .optionalFactMismatch
    (field.path ++ ofString ":provenance")
  require (!field.present || hasFact) .normalizedMaterialValueOmitted field.path

def factAt (facts : List PreparedWriteFact) (path : CodeUnits) : Option PreparedWriteFact :=
  facts.find? (·.path = path)

def includesText (text part : CodeUnits) : Bool := text.tails.any part.isPrefixOf

def validateTarget (facts : List PreparedWriteFact) (target : ResolvedTargetView) :
    Except ValidationFailure Unit :=
  match factAt facts target.path with
  | none => fail .unresolvedTargetOmitted target.path
  | some fact =>
      require (includesText fact.value target.id && includesText fact.value target.label)
        .unresolvedTargetOmitted (target.path ++ ofString ":" ++ target.id)

def validateDefault (input : PresentationInput) (fields : List ExpandedMaterialField)
    (facts : List PreparedWriteFact) (serverDefault : ServerDefaultView) :
    Except ValidationFailure Unit :=
  match factAt facts serverDefault.path with
  | none => fail .serverDefaultOmitted serverDefault.path
  | some _ =>
      match input.fieldProvenance.lookup serverDefault.path with
      | some (.serverDefault ruleId) => do
          require (ruleId = serverDefault.ruleId) .serverDefaultProvenanceMismatch
            (serverDefault.path ++ ofString ":" ++ ruleId)
          match expandedAt fields serverDefault.path with
          | none => .error (.thrown [])
          | some field =>
              match formatScalarValue registries field.formatting
                ⟨serverDefault.path, (scalar? serverDefault.value).getD .null, none,
                  some serverDefault⟩ with
              | .error detail => fail .presentationLimitExceeded detail
              | .ok _ => .ok ()
      | _ => fail .serverDefaultProvenanceMismatch serverDefault.path

def validatePreparedWritePresentation (input : PresentationInput)
    (presentation : PreparedWritePresentation) : Except ValidationFailure Unit := do
  validatePresenter registries input.definition
  match expandMaterialFields keyPatternTest input.definition input.normalizedOperation with
  | .error (.thrown message) => .error (.thrown message)
  | .error (.refused detail) => fail .invalidMaterialExpansion detail
  | .ok fields =>
      let facts := presentation.facts
      let factPaths ← facts.foldlM (validateFact registries input fields) []
      fields.forM (validateField factPaths (input.fieldProvenance.map Prod.fst))
      (input.fieldProvenance.map Prod.fst).forM fun pointer =>
        require (expandedAt fields pointer).isSome .undeclaredProvenancePointer pointer
      input.resolvedTargets.forM (validateTarget facts)
      input.serverDefaults.forM (validateDefault registries input fields facts)
      require (facts.length ≤ materialFactLimit) .presentationLimitExceeded
        (ofString "facts:" ++ CodeUnits.ofNat facts.length)

end Presenting

end PreparedWrites

end ClockifyAssistant
