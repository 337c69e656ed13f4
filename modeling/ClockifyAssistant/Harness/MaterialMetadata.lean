import ClockifyAssistant.Harness.MaterialFields

/-!
The boundary of the registry, as far as it concerns the material fields of an action: no action
with other metadata than these checks allow is offered to the model.
-/
namespace ClockifyAssistant

open Lib Lib.CodeUnits Lib.JsonPointer

namespace PreparedWrites

def hasControlCharacter (value : CodeUnits) : Bool :=
  value.any fun u => u.toNat ≤ 0x1f || u == 0x7f

/-- Each tilde stands before a `0` or a `1`. -/
def escapesHold : CodeUnits → Bool
  | [] => true
  | [u] => u != 0x7e
  | u :: v :: rest =>
      if u = 0x7e then (v == 0x30 || v == 0x31) && escapesHold rest else escapesHold (v :: rest)

def isRfc6901Pointer (value : CodeUnits) : Bool :=
  value.head? == some 0x2f && escapesHold value && !hasControlCharacter value

def isRelativeRfc6901Pointer (value : CodeUnits) : Bool :=
  value.isEmpty || isRfc6901Pointer value

def isNonemptyString (value : CodeUnits) : Bool := !(trimUnits value).isEmpty

def placeholderCount (template placeholder : CodeUnits) : Nat :=
  template.tails.countP placeholder.isPrefixOf

def isPositiveInteger (value : Nat) : Bool := 0 < value && value ≤ maxSafeInteger

structure MaterialCheck where
  identities : List CodeUnits
  matchedDictionaries : List CodeUnits
  worstCaseFacts : Nat

def MaterialField.identity : MaterialField → CodeUnits
  | .value path _ _ => ofString "value" ++ 0 :: path
  | .arrayItem containerPath itemPath _ _ _ =>
      ofString "array_item" ++ 0 :: containerPath ++ 0 :: itemPath
  | .dictionaryEntry containerPath valuePath _ _ _ =>
      ofString "dictionary_entry" ++ 0 :: containerPath ++ 0 :: valuePath

section Checks

variable (actionName : CodeUnits)

def metadataError {α : Type} (code : String) (detail : CodeUnits) : Except CodeUnits α :=
  .error (ofString code ++ actionName ++ detail)

def checkThat (holds : Bool) (code : String) (detail : CodeUnits) : Except CodeUnits Unit :=
  if holds then .ok () else metadataError actionName code detail

def validateFormatter (formatting : Formatting) : Except CodeUnits Unit :=
  checkThat actionName
    (isNonemptyString formatting.formatterId && isPositiveInteger formatting.formatterVersion)
    "invalid_material_formatter:" []

/-- The schema of the arguments bounds the array by the declared maximum. -/
def checkSchemaMaximum (schemaArrayMaxItems : Option (List (CodeUnits × Option Nat)))
    (containerPath : CodeUnits) (maxItems : Nat) : Except CodeUnits Unit :=
  let subject := ofString ":" ++ containerPath
  match schemaArrayMaxItems with
  | none => .ok ()
  | some maxima =>
      match maxima.lookup containerPath with
      | some (some schemaMaxItems) =>
          checkThat actionName (schemaMaxItems == maxItems) "material_array_max_mismatch:" subject
      | _ => metadataError actionName "material_array_schema_max_missing:" subject

def validateFieldShape (dictionaries : List BoundedDictionary)
    (schemaArrayMaxItems : Option (List (CodeUnits × Option Nat))) (checked : MaterialCheck) :
    MaterialField → Except CodeUnits MaterialCheck
  | .value path label formatting => do
      checkThat actionName (isRfc6901Pointer path && isNonemptyString label &&
        byteLength label ≤ materialLabelMaxUtf8Bytes) "invalid_material_field:" []
      validateFormatter actionName formatting
      return { checked with worstCaseFacts := checked.worstCaseFacts + 1 }
  | .arrayItem containerPath itemPath labelTemplate maxItems formatting => do
      checkThat actionName (isRfc6901Pointer containerPath && isRelativeRfc6901Pointer itemPath &&
        isNonemptyString labelTemplate && placeholderCount labelTemplate indexPlaceholder == 1 &&
        isPositiveInteger maxItems) "invalid_material_field:" []
      let worstCaseLabel := labelFor labelTemplate indexPlaceholder (CodeUnits.ofNat (maxItems - 1))
      checkThat actionName (byteLength worstCaseLabel ≤ materialLabelMaxUtf8Bytes)
        "material_label_limit_exceeded:" []
      checkSchemaMaximum actionName schemaArrayMaxItems containerPath maxItems
      validateFormatter actionName formatting
      return { checked with worstCaseFacts := checked.worstCaseFacts + maxItems }
  | .dictionaryEntry containerPath valuePath labelTemplate maxEntries formatting => do
      checkThat actionName (isRfc6901Pointer containerPath && isRelativeRfc6901Pointer valuePath &&
        isNonemptyString labelTemplate && placeholderCount labelTemplate keyPlaceholder == 1 &&
        isPositiveInteger maxEntries) "invalid_material_field:" []
      match dictionaries.find? (·.path = containerPath) with
      | none =>
          metadataError actionName "unmatched_material_dictionary:" (ofString ":" ++ containerPath)
      | some dictionary => do
          checkThat actionName (dictionary.maxEntries == maxEntries)
            "unmatched_material_dictionary:" (ofString ":" ++ containerPath)
          let literalLabelBytes := byteLength (labelFor labelTemplate keyPlaceholder [])
          checkThat actionName
            (literalLabelBytes + dictionary.maxKeyUtf8Bytes ≤ materialLabelMaxUtf8Bytes)
            "material_label_limit_exceeded:" []
          validateFormatter actionName formatting
          return { checked with
            matchedDictionaries := containerPath :: checked.matchedDictionaries
            worstCaseFacts := checked.worstCaseFacts + maxEntries }

def validateMaterialField (dictionaries : List BoundedDictionary)
    (schemaArrayMaxItems : Option (List (CodeUnits × Option Nat))) (checked : MaterialCheck)
    (field : MaterialField) : Except CodeUnits MaterialCheck := do
  let checked ← validateFieldShape actionName dictionaries schemaArrayMaxItems checked field
  checkThat actionName (!checked.identities.contains field.identity) "duplicate_material_field:" []
  return { checked with identities := field.identity :: checked.identities }

end Checks

def validateMaterialFields (definition : ActionDefinition) (required : Bool)
    (schemaArrayMaxItems : Option (List (CodeUnits × Option Nat))) : Except CodeUnits Unit := do
  let actionName := definition.name
  let dictionaries := definition.boundedArgumentDictionaries
  checkThat actionName (!(required && definition.materialFields.isEmpty))
    "missing_material_fields:" []
  let checked ← definition.materialFields.foldlM
    (validateMaterialField actionName dictionaries schemaArrayMaxItems) ⟨[], [], 0⟩
  checkThat actionName (checked.worstCaseFacts ≤ materialFactLimit)
    "material_fact_limit_exceeded:" (ofString ":" ++ CodeUnits.ofNat checked.worstCaseFacts)
  if required then
    dictionaries.forM fun dictionary =>
      checkThat actionName (checked.matchedDictionaries.contains dictionary.path)
        "unmatched_material_dictionary:" (ofString ":" ++ dictionary.path)

structure ModelApiWrite where
  definition : ActionDefinition
  exposed : definition.apiExposure = .api
  schemaArrayMaxItems : List (CodeUnits × Option Nat)
  validated : validateMaterialFields definition true (some schemaArrayMaxItems) = .ok ()

end PreparedWrites

end ClockifyAssistant
