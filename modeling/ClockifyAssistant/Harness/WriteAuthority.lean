import Mathlib.Data.List.DropRight
import ClockifyAssistant.Lib.CodeUnits
import ClockifyAssistant.Store.OperationRuns

/-!
The reviewed authority of a write: the host plans that an action may carry, and the paths of its
stored operation at which identifiers and defaults may stand. A path is a text with a dot before
each key and `[]` behind each array.
-/
namespace ClockifyAssistant

open Lib Lib.CodeUnits

namespace WriteAuthority

structure StepRule where
  /-- An exact id, or an indexed family when it ends in `*`. -/
  id : String
  kind : StepKind
  min : Nat
  max : Nat

structure PlanRule where
  mode : PlanMode
  minSteps : Nat
  maxSteps : Nat
  steps : List StepRule

structure WriteAuthorityMetadata where
  literalControlledPaths : List CodeUnits
  serverDerivedIdPaths : List CodeUnits
  permittedServerDefaultPaths : List CodeUnits
  preservedStatePaths : List CodeUnits
  maxExecutions : Nat
  mutationPlans : List PlanRule

def turnHostCallLimit : Nat := hostCallBudgetMaximum

def stepIdMatches (pattern id : String) (occurrence : Nat) : Bool :=
  if pattern.toList.getLast? = some '*' then
    id == String.ofList pattern.toList.dropLast ++ toString occurrence
  else id == pattern

/-- The steps from here that match the rule, after the first `matching` of its block. -/
def matchingSteps (rule : StepRule) (matching : Nat) : List MutationPlanStep → Nat
  | [] => matching
  | candidate :: rest =>
      if matching < rule.max ∧ candidate.kind = rule.kind ∧
          stepIdMatches rule.id candidate.id matching = true then
        matchingSteps rule (matching + 1) rest
      else matching

/-- `actual` is what is left from `actualIndex` on. -/
def stepsMatch (actual : List MutationPlanStep) : List StepRule → Bool
  | [] => actual.isEmpty
  | rule :: rules =>
      let matching := matchingSteps rule 0 actual
      -- the longest block first, then shorter ones down to `rule.min`
      (List.range' rule.min (matching + 1 - rule.min)).reverse.any fun count =>
        stepsMatch (actual.drop count) rules

mutual

/-- The path of every scalar; fields stand in the order of `Object.entries`. -/
def collectOperationLeaves : UnitJson → CodeUnits → List CodeUnits
  | .arr items, path => itemLeaves items (path ++ ofString "[]")
  | .obj fields, path => fieldLeaves fields path
  | .null, path => [path]
  | .bool _, path => [path]
  | .num _, path => [path]
  | .str _, path => [path]

def itemLeaves : List UnitJson → CodeUnits → List CodeUnits
  | [], _ => []
  | item :: rest, path => collectOperationLeaves item path ++ itemLeaves rest path

def fieldLeaves : List (CodeUnits × UnitJson) → CodeUnits → List CodeUnits
  | [], _ => []
  | (key, child) :: rest, path =>
      collectOperationLeaves child (path ++ ofString "." ++ key) ++ fieldLeaves rest path

end

def evidenceSegments : List CodeUnits := [
  "baselineIds", "beforeIds", "invoiceBaseline", "targetSnapshots", "rawItems",
  "itemSnapshot", "paymentSnapshot", "expectedAfterFields", "expectedAfterStatus",
  "expectedProjection", "restoreBody", "archiveBody", "originalBody"].map ofString

def defaultableLeaves : List CodeUnits := [
  "amountUnit", "applyTaxes", "archived", "currency", "description", "dueDate",
  "issuedDate", "kind", "number", "period", "rateUnit", "sendEmail",
  "start", "state", "unitPriceUnit"].map ofString

/-- `.replace(/\[\]$/, "")` -/
def withoutMarker (text : CodeUnits) : CodeUnits :=
  if (ofString "[]").isSuffixOf text then text.dropLast.dropLast else text

def isDot (u : UInt16) : Bool := u == 0x2e

def leafName (path : CodeUnits) : CodeUnits :=
  withoutMarker (path.rtakeWhile fun u => !isDot u)

def evidencePath (path : CodeUnits) : Bool :=
  (path.splitOnP isDot).any fun part => evidenceSegments.contains (withoutMarker part)

/-- An element path that is declared also covers its array when that is a scalar. -/
def metadataPathMatches (declared : List CodeUnits) (path : CodeUnits) : Bool :=
  declared.any fun candidate =>
    candidate == path ||
    (candidate.getLast? == some 0x2a && candidate.dropLast.isPrefixOf path) ||
    candidate == path ++ ofString "[]"

/-- `/Ids?$/` -/
def namesIdentifier (leaf : CodeUnits) : Bool :=
  (ofString "Id").isSuffixOf leaf || (ofString "Ids").isSuffixOf leaf

def ownIdentifiers : List CodeUnits := ["operationId", "workspaceId", "adminUserId"].map ofString

def leafRefusal (authority : WriteAuthorityMetadata) (path : CodeUnits) : Option CodeUnits :=
  let leaf := leafName path
  if evidencePath path then none
  else if namesIdentifier leaf && !ownIdentifiers.contains leaf &&
      !metadataPathMatches authority.serverDerivedIdPaths path then
    some (ofString "undeclared_server_derived_path:" ++ path)
  else if defaultableLeaves.contains leaf &&
      !(authority.literalControlledPaths.map leafName).contains leaf &&
      !metadataPathMatches authority.permittedServerDefaultPaths path &&
      !metadataPathMatches authority.preservedStatePaths path then
    some (ofString "undeclared_server_default_path:" ++ path)
  else none

def declaresPlan (authority : WriteAuthorityMetadata) (plan : ExternalMutationPlan) : Bool :=
  authority.mutationPlans.any fun variant =>
    variant.mode == plan.mode &&
    decide (variant.minSteps ≤ plan.steps.length ∧ plan.steps.length ≤ variant.maxSteps) &&
    stepsMatch plan.steps variant.steps

def validateWriteAuthorityOperation (authority : Option WriteAuthorityMetadata)
    (operation : UnitJson) (mutationPlan : Option ExternalMutationPlan) : Option CodeUnits :=
  match authority, mutationPlan.filter fun plan => !plan.steps.isEmpty with
  | none, _ => some (ofString "missing_write_authority")
  | some _, none => some (ofString "missing_mutation_plan")
  | some authority, some plan =>
      if authority.maxExecutions < plan.steps.length then
        some (ofString "mutation_cardinality_exceeded")
      else if plan.maxHostCalls < 1 ∨ turnHostCallLimit < plan.maxHostCalls then
        some (ofString "invalid_mutation_host_call_budget")
      else if !declaresPlan authority plan then some (ofString "undeclared_mutation_plan")
      else (collectOperationLeaves operation (ofString "operation")).findSome?
        (leafRefusal authority)

end WriteAuthority

end ClockifyAssistant
