import ClockifyAssistant.Lib.JsonValue

/-!
The walk that looks for arguments an action does not declare. Schemas are those generated for
the actions: objects, arrays, scalars, alternatives and conjunctions of them.
-/
namespace ClockifyAssistant

open Lib

inductive ScalarType
  | string
  | number
  | integer
  | boolean
  | null

inductive JsonSchema
  /-- no `type`, or several of them -/
  | untyped
  | scalar (type : ScalarType)
  | array (items : Option JsonSchema)
  /-- `additionalProperties` only counts where it is a schema -/
  | object (properties : List (String × JsonSchema)) (additional : Option JsonSchema)
  /-- `anyOf` or `oneOf` -/
  | union (first : JsonSchema) (rest : List JsonSchema)
  /-- `allOf` -/
  | intersection (parts : List JsonSchema)

namespace ArgShapes

def isRecord : JsonValue → Bool
  | .obj _ => true
  | _ => false

def matchesType : JsonSchema → JsonValue → Bool
  | .object _ _, value => isRecord value
  | .array _, .arr _ => true
  | .array _, _ => false
  | .scalar .string, .str _ => true
  | .scalar .number, .num _ => true
  | .scalar .integer, .num _ => true
  | .scalar .boolean, .bool _ => true
  | .scalar .null, .null => true
  | .scalar _, _ => false
  | .untyped, _ => true
  | .union _ _, _ => true
  | .intersection _, _ => true

def keyPath (path key : String) : String := if path = "" then key else path ++ "." ++ key

/-- `findings.find((items) => items.length === 0) ?? findings[0] ?? []` -/
def fewestFindings (findings : List (List String)) : List String :=
  ((findings.find? List.isEmpty).orElse fun _ => findings.head?).getD []

mutual

def unknownPaths (openPaths : List String) :
    JsonSchema → JsonValue → (path : String) → (aliases : List String) → (schemaPath : String) →
      List String
  | .union first rest, value, path, aliases, schemaPath =>
      let matching := (first :: rest).any fun branch => matchesType branch value
      fewestFindings <|
        (if !matching || matchesType first value then
          [unknownPaths openPaths first value path aliases schemaPath] else []) ++
        branchPaths openPaths matching rest value path aliases schemaPath
  | .array (some items), .arr values, path, _, schemaPath =>
      values.zipIdx.flatMap fun entry =>
        unknownPaths openPaths items entry.1 (path ++ "[" ++ toString entry.2 ++ "]") []
          (schemaPath ++ "[]")
  | .object properties additional, .obj fields, path, aliases, schemaPath =>
      fields.flatMap fun field =>
        let childPath := keyPath path field.1
        match propertyPaths openPaths properties field.1 field.2 childPath schemaPath with
        | some findings => findings
        | none =>
            -- a plain read of `__proto__` finds the prototype, which describes nothing
            if field.1 = "__proto__" then []
            else if path = "" ∧ field.1 ∈ aliases then []
            else if schemaPath ∈ openPaths then
              additionalPaths openPaths additional field.2 childPath schemaPath
            else [childPath]
  | _, _, _, _, _ => []

/-- The findings of the branches, of those that match the type alone where some do. -/
def branchPaths (openPaths : List String) (matching : Bool) :
    List JsonSchema → JsonValue → String → List String → String → List (List String)
  | [], _, _, _, _ => []
  | branch :: rest, value, path, aliases, schemaPath =>
      (if !matching || matchesType branch value then
        [unknownPaths openPaths branch value path aliases schemaPath] else []) ++
      branchPaths openPaths matching rest value path aliases schemaPath

def propertyPaths (openPaths : List String) :
    List (String × JsonSchema) → String → JsonValue → String → String → Option (List String)
  | [], _, _, _, _ => none
  | (name, schema) :: rest, key, child, childPath, schemaPath =>
      if key = name then
        some (unknownPaths openPaths schema child childPath [] (keyPath schemaPath key))
      else propertyPaths openPaths rest key child childPath schemaPath

def additionalPaths (openPaths : List String) :
    Option JsonSchema → JsonValue → String → String → List String
  | none, _, _, _ => []
  | some schema, child, childPath, schemaPath =>
      unknownPaths openPaths schema child childPath [] schemaPath

end

/-- Unknown fields are rejected before preprocessors can silently discard them. -/
def unknownArgumentPaths (schema : JsonSchema) (value : JsonValue)
    (allowedTopLevelAliases allowedOpenPaths : List String) : List String :=
  unknownPaths allowedOpenPaths schema value "" allowedTopLevelAliases ""

end ArgShapes

end ClockifyAssistant
