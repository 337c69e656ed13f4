import ClockifyAssistant.Lib.HostValue
import ClockifyAssistant.Lib.JsonPointer
import ClockifyAssistant.Schema

/-!
The material fields of a prepared write: the view of the operation that they are read from, and
the expansion of the declared fields into single pointers.
-/
namespace ClockifyAssistant

open Lib Lib.CodeUnits Lib.ObjectKeys Lib.JsonPointer

namespace PreparedWrites

def materialFactLimit : Nat := 22
def materialLabelMaxUtf8Bytes : Nat := 128

abbrev JsonObject := List (CodeUnits × UnitJson)

inductive Scalar
  | null
  | bool (value : Bool)
  | num (value : NumberText)
  | str (value : CodeUnits)

/-- `isJsonScalar` -/
def scalar? : UnitJson → Option Scalar
  | .null => some .null
  | .bool value => some (.bool value)
  | .num value => some (.num value)
  | .str value => some (.str value)
  | .arr _ | .obj _ => none

def foundScalar? : Found → Option Scalar
  | .json value => scalar? value
  | .method | .objectPrototype => none

inductive ApiHost
  | api | reports | audit
  deriving DecidableEq

inductive ApiMethod
  | get | post | put | patch | delete
  deriving DecidableEq

structure ApiOperation where
  host : ApiHost
  method : ApiMethod
  path : CodeUnits
  deriving DecidableEq

structure Formatting where
  formatterId : CodeUnits
  formatterVersion : Nat
  requiredInPreview : Bool

inductive MaterialField
  | value (path label : CodeUnits) (formatting : Formatting)
  | arrayItem (containerPath itemPath labelTemplate : CodeUnits) (maxItems : Nat)
      (formatting : Formatting)
  | dictionaryEntry (containerPath valuePath labelTemplate : CodeUnits) (maxEntries : Nat)
      (formatting : Formatting)

def MaterialField.formatting : MaterialField → Formatting
  | .value _ _ formatting => formatting
  | .arrayItem _ _ _ _ formatting => formatting
  | .dictionaryEntry _ _ _ _ formatting => formatting

structure BoundedDictionary where
  path : CodeUnits
  keyPattern : CodeUnits
  maxKeyUtf8Bytes : Nat
  maxEntries : Nat

structure ActionPresentation where
  presenterId : CodeUnits
  version : Nat

inductive ActionKind
  | read | safeWrite | riskyWrite
  deriving DecidableEq

inductive ApiExposure
  | api | composite | generic | local
  deriving DecidableEq

structure ActionDefinition where
  name : CodeUnits
  description : CodeUnits
  kind : ActionKind
  risks : List RiskLabel
  apiExposure : ApiExposure
  /-- `schema.safeParse(args)`, the data where it succeeds. -/
  safeParse : HostValue → Option HostValue
  apiOperation : Option ApiOperation
  materialFields : List MaterialField
  boundedArgumentDictionaries : List BoundedDictionary
  presentation : Option ActionPresentation

/-! Pointers -/

def getValueAtPointer (root : UnitJson) (pointer : CodeUnits) : Except CodeUnits (Option Found) :=
  if pointer.head? ≠ some 0x2f then .error (ofString "invalid_pointer:" ++ pointer)
  else if pointer = [0x2f] then .ok (some (.json root))
  else .ok (follow (segments pointer) (.json root))

def setValueAtPointer (root : UnitJson) (pointer : CodeUnits) (value : UnitJson) :
    Except CodeUnits UnitJson :=
  if pointer.head? ≠ some 0x2f then .error (ofString "invalid_pointer:" ++ pointer)
  else if pointer = [0x2f] then .error (ofString "cannot_replace_root")
  else
    match replaceAt value (segments pointer) root with
    | some root => .ok root
    | none => .error (ofString "invalid_pointer:" ++ pointer)

/-! The view of the operation -/

mutual

/-- An assigned `__proto__` is no field; the prototype that it sets is not copied along. -/
def omitUndefinedJson : HostValue → Option UnitJson
  | .undefined | .nonFinite => none
  | .null => some .null
  | .bool value => some (.bool value)
  | .num value => some (.num value)
  | .str value => some (.str value)
  | .arr items => some (.arr (omitItems items))
  | .obj fields => some (.obj (omitFields fields))

def omitItems : List HostValue → List UnitJson
  | [] => []
  | item :: rest => (omitUndefinedJson item).toList ++ omitItems rest

def omitFields : List (CodeUnits × HostValue) → JsonObject
  | [] => []
  | (name, value) :: rest =>
      (if name = protoName then []
        else (omitUndefinedJson value).toList.map fun child => (name, child)) ++ omitFields rest

end

mutual

/-- A property of the cleaned value, which may come from an assigned prototype. -/
def cleanedProperty (name : CodeUnits) : HostValue → Option UnitJson
  | .obj fields => ((omitFields fields).lookup name).or (prototypeProperty name fields)
  | .undefined | .null | .bool _ | .num _ | .nonFinite | .str _ | .arr _ => none

def prototypeProperty (name : CodeUnits) : List (CodeUnits × HostValue) → Option UnitJson
  | [] => none
  | (key, value) :: rest =>
      if key = protoName then cleanedProperty name value else prototypeProperty name rest

end

/-- `Object.assign(base, extra)` -/
def assignAll (base extra : JsonObject) : JsonObject :=
  extra.foldl (fun fields field => assign field.1 field.2 fields) base

def promotedFrom (name : String) (payload : List (CodeUnits × HostValue)) : JsonObject :=
  match cleanedProperty (ofString name) (.obj payload) with
  | some (.obj nested) => nested
  | _ => []

def promotedPresentationFields (payload : List (CodeUnits × HostValue)) : JsonObject :=
  assignAll (assignAll [] (promotedFrom "input" payload)) (promotedFrom "patch" payload)

def argumentFields (definition : ActionDefinition) (rawArgs : HostValue) : JsonObject :=
  match omitUndefinedJson ((definition.safeParse rawArgs).getD rawArgs) with
  | some (.obj fields) => fields
  | _ => []

def itemPathKey (itemPath : CodeUnits) : CodeUnits :=
  if itemPath = [] ∨ itemPath = [0x2f] then []
  else if itemPath.head? = some 0x2f then itemPath.tail
  else itemPath

/-- Scalars where rows are declared are put into rows of one field. -/
def coerceContainer (view : UnitJson) (containerPath itemPath : CodeUnits) :
    Except CodeUnits UnitJson := do
  let key := itemPathKey itemPath
  match ← getValueAtPointer view containerPath with
  | some (.json (.arr items)) =>
      if key ≠ [] ∧ items.all (fun entry => (scalar? entry).isSome) then
        setValueAtPointer view containerPath (.arr (items.map fun entry => .obj [(key, entry)]))
      else return view
  | some (.json value) =>
      if (scalar? value).isSome then
        setValueAtPointer view containerPath
          (.arr [if key ≠ [] then .obj [(key, value)] else value])
      else return view
  | _ => return view

def coerceField (view : UnitJson) : MaterialField → Except CodeUnits UnitJson
  | .arrayItem containerPath itemPath _ _ _ => coerceContainer view containerPath itemPath
  | .value _ _ _ | .dictionaryEntry _ _ _ _ _ => .ok view

def coerceMaterialArrayContainers (definition : ActionDefinition) (view : UnitJson) :
    Except CodeUnits UnitJson := definition.materialFields.foldlM coerceField view

def mergedFields (definition : ActionDefinition) (rawArgs : HostValue)
    (payload : List (CodeUnits × HostValue)) : JsonObject :=
  assignAll (assignAll (omitFields payload) (promotedPresentationFields payload))
    (argumentFields definition rawArgs)

/-- The fields of the payload, over them those of its input and its patch, and over all the
arguments of the model. -/
def buildNormalizedOperationForPresentation (definition : ActionDefinition) (rawArgs : HostValue)
    (payload : List (CodeUnits × HostValue)) : Except CodeUnits UnitJson :=
  coerceMaterialArrayContainers definition
    (.obj (omitFields (HostValue.ofJsonFields (mergedFields definition rawArgs payload))))

/-! The expansion of the declared fields -/

structure ExpandedMaterialField where
  path : CodeUnits
  label : CodeUnits
  formatting : Formatting
  /-- What stands at the path, where it is present. -/
  scalarValue : Option Scalar

def ExpandedMaterialField.present (field : ExpandedMaterialField) : Bool := field.scalarValue.isSome

inductive ExpansionFailure
  | thrown (message : CodeUnits)
  | refused (detail : CodeUnits)

def refusal {α : Type} (code : String) (subject : CodeUnits) : Except ExpansionFailure α :=
  .error (.refused (ofString code ++ subject))

def withCount (subject : CodeUnits) (count : Nat) : CodeUnits :=
  subject ++ ofString ":" ++ CodeUnits.ofNat count

def relativePointer (base relative : CodeUnits) : Except CodeUnits CodeUnits :=
  if relative = [] then .ok base
  else if relative.head? ≠ some 0x2f then
    .error (ofString "invalid_relative_pointer:" ++ base ++ ofString ":" ++ relative)
  else .ok (base ++ relative)

/-- `GetSubstitution`, without captures. -/
def substituted (pattern before after : CodeUnits) : CodeUnits → CodeUnits
  | 0x24 :: 0x24 :: rest => 0x24 :: substituted pattern before after rest
  | 0x24 :: 0x26 :: rest => pattern ++ substituted pattern before after rest
  | 0x24 :: 0x60 :: rest => before ++ substituted pattern before after rest
  | 0x24 :: 0x27 :: rest => after ++ substituted pattern before after rest
  | u :: rest => u :: substituted pattern before after rest
  | [] => []

/-- `replace` with a pattern that is a text. -/
def replaceFirst (pattern replacement before : CodeUnits) : CodeUnits → CodeUnits
  | [] => []
  | u :: rest =>
      if pattern.isPrefixOf (u :: rest) then
        let after := (u :: rest).drop pattern.length
        substituted pattern before after replacement ++ after
      else u :: replaceFirst pattern replacement (before ++ [u]) rest

def labelFor (template placeholder replacement : CodeUnits) : CodeUnits :=
  replaceFirst placeholder replacement [] template

def indexPlaceholder : CodeUnits := ofString "\x7bindex\x7d"

def keyPlaceholder : CodeUnits := ofString "\x7bkey\x7d"

section Expansion

variable (keyPatternTest : CodeUnits → CodeUnits → Option Bool)

/-- `none` where the key is accepted; an invalid pattern tests to `none`. -/
def validateDictionaryKey (dictionary : BoundedDictionary) (key : CodeUnits) : Option CodeUnits :=
  let subject := dictionary.path ++ ofString ":" ++ key
  if byteLength key > dictionary.maxKeyUtf8Bytes then
    some (ofString "dictionary_key_too_large:" ++ subject)
  else
    match keyPatternTest dictionary.keyPattern key with
    | some true => none
    | some false => some (ofString "dictionary_key_pattern_mismatch:" ++ subject)
    | none => some (ofString "dictionary_key_pattern_invalid:" ++ dictionary.path)

def thrownAs {α : Type} : Except CodeUnits α → Except ExpansionFailure α
  | .ok value => .ok value
  | .error message => .error (.thrown message)

def scalarFound (pointer : CodeUnits) : Option Found → Except ExpansionFailure (Option Scalar)
  | none => .ok none
  | some found =>
      match foundScalar? found with
      | some scalar => .ok (some scalar)
      | none => refusal "non_scalar_material_value:" pointer

/-- What stands at a declared pointer that has not been expanded before. -/
def materialValue (view : UnitJson) (pointer : CodeUnits) (expanded : List ExpandedMaterialField) :
    Except ExpansionFailure (Option Scalar) := do
  let found ← thrownAs (getValueAtPointer view pointer)
  let value ← scalarFound pointer found
  if pointer ∈ expanded.map ExpandedMaterialField.path then
    refusal "duplicate_material_pointer:" pointer
  else return value

def expandItem (view : UnitJson) (formatting : Formatting) (base relative label : CodeUnits)
    (expanded : List ExpandedMaterialField) :
    Except ExpansionFailure (List ExpandedMaterialField) := do
  let pointer ← thrownAs (relativePointer base relative)
  let value ← materialValue view pointer expanded
  if byteLength label > materialLabelMaxUtf8Bytes then
    refusal "material_label_limit_exceeded:" pointer
  else return expanded ++ [⟨pointer, label, formatting, value⟩]

/-- The keys of an object; a value without properties has none. -/
def keysOf : Found → Option (List CodeUnits)
  | .json (.obj fields) => some ((sortedByKey fields).map Prod.fst)
  | .objectPrototype => some []
  | .json .null | .json (.bool _) | .json (.num _) | .json (.str _) | .json (.arr _) | .method =>
      none

def expandField (dictionaries : List BoundedDictionary) (view : UnitJson)
    (expanded : List ExpandedMaterialField) :
    MaterialField → Except ExpansionFailure (List ExpandedMaterialField)
  | .value path label formatting => do
      let value ← materialValue view path expanded
      return expanded ++ [⟨path, label, formatting, value⟩]
  | .arrayItem containerPath itemPath labelTemplate maxItems formatting => do
      match ← thrownAs (getValueAtPointer view containerPath) with
      | none =>
          if formatting.requiredInPreview then refusal "missing_required_array:" containerPath
          else return expanded
      | some (.json (.arr items)) =>
          if items.length > maxItems then
            refusal "array_length_exceeded:" (withCount containerPath items.length)
          else
            (List.range items.length).foldlM (fun expanded index =>
              expandItem view formatting (joinPointer containerPath (CodeUnits.ofNat index)) itemPath
                (labelFor labelTemplate indexPlaceholder (CodeUnits.ofNat index)) expanded) expanded
      | some _ => refusal "non_array_material_container:" containerPath
  | .dictionaryEntry containerPath valuePath labelTemplate maxEntries formatting => do
      match dictionaries.find? (·.path = containerPath) with
      | none => refusal "unmatched_material_dictionary:" containerPath
      | some dictionary =>
          match ← thrownAs (getValueAtPointer view containerPath) with
          | none =>
              if formatting.requiredInPreview then
                refusal "missing_required_dictionary:" containerPath
              else return expanded
          | some container =>
              match keysOf container with
              | none => refusal "non_dictionary_material_container:" containerPath
              | some keys =>
                  if keys.length > maxEntries then
                    refusal "dictionary_length_exceeded:" (withCount containerPath keys.length)
                  else
                    keys.foldlM (fun expanded key =>
                      match validateDictionaryKey keyPatternTest dictionary key with
                      | some detail => .error (.refused detail)
                      | none =>
                          expandItem view formatting (joinPointer containerPath key) valuePath
                            (labelFor labelTemplate keyPlaceholder key) expanded) expanded

def expandMaterialFields (definition : ActionDefinition) (view : UnitJson) :
    Except ExpansionFailure (List ExpandedMaterialField) := do
  let expanded ← definition.materialFields.foldlM
    (expandField keyPatternTest definition.boundedArgumentDictionaries view) []
  if expanded.length > materialFactLimit then
    refusal "material_fact_limit_exceeded:" (CodeUnits.ofNat expanded.length)
  else return expanded

end Expansion

end PreparedWrites

end ClockifyAssistant
