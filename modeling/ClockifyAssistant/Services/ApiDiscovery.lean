import ClockifyAssistant.Services.RunService

/-!
The discovery of operations: the registry, the set of loaded tools, and the searches of
one completion, each reserved against the budget of the run before it is made.
-/
namespace ClockifyAssistant

open Lib RunnerProcess

inductive ApiAccess
  | read | write
  deriving DecidableEq

structure RegisteredAction where
  access : Option ApiAccess
  deriving DecidableEq

structure ActionRegistry where
  get : String → Option RegisteredAction
  available : String → AuthClass → Bool
  hash : String

def ActionRegistry.isReadAction (registry : ActionRegistry) (name : String) : Bool :=
  (registry.get name).bind RegisteredAction.access == some .read

def ActionRegistry.isWriteAction (registry : ActionRegistry) (name : String) : Bool :=
  (registry.get name).bind RegisteredAction.access == some .write

inductive RunObservation
  | result (actionName : String) (summary : String)
  | denied (actionName : String) (code : String)
  deriving DecidableEq

namespace ApiDiscovery

def apiToolNames (names : List String) : List String :=
  names.filter fun name => name != discoveryMetaToolName

/-- `names.add(name)` on a set in insertion order. -/
def addName (names : List String) (name : String) : List String :=
  if names.contains name then names else names ++ [name]

def addWithinLimit (names : List String) (name : String) : List String :=
  if maxLoadedApiTools ≤ (apiToolNames names).length then names else addName names name

def initialV2ToolSet (registry : ActionRegistry) (cachedNames : List String) : List String :=
  ((apiToolNames cachedNames).filter fun name => (registry.get name).isSome).foldl
    addWithinLimit [discoveryMetaToolName]

/-- Used names first, then the ranked ones, then what was loaded before. The trimming loop
that follows in the source drops unused names, and none is added beyond the limit. -/
def refineLoadedToolSet (currentLoaded usedNames ranked : List String) : List String :=
  let used := (apiToolNames usedNames).foldl addName [discoveryMetaToolName]
  let next := ranked.foldl addWithinLimit used
  ((apiToolNames currentLoaded).filter fun name => !usedNames.contains name).foldl
    addWithinLimit next

def seedCacheFromPriorRun (registry : ActionRegistry) (prior : Option RunState)
    (currentCatalogHash : String) : List String :=
  match prior with
  | none => initialV2ToolSet registry []
  | some prior =>
      if prior.catalogHash != currentCatalogHash then initialV2ToolSet registry []
      else
        let unused := prior.loadedToolNames.filter fun name => !prior.usedToolNames.contains name
        initialV2ToolSet registry
          ((prior.usedToolNames.reverse ++ unused).eraseDups.filter registry.isReadAction)

def isWhiteSpace (c : Char) : Bool :=
  [9, 10, 11, 12, 13, 32, 160, 0x1680, 0x2028, 0x2029, 0x202f, 0x205f, 0x3000, 0xfeff].contains
    c.toNat || (0x2000 ≤ c.toNat && c.toNat ≤ 0x200a)

def trim (text : String) : String :=
  String.ofList ((text.toList.dropWhile isWhiteSpace).reverse.dropWhile isWhiteSpace).reverse

def parseQuery (value : JsonValue) : Option String := do
  let query := trim (← value.text?)
  let length ← (JsonValue.str query).length
  if 1 ≤ length ∧ length ≤ 256 then some query else none

def parseAccess (value : JsonValue) : Option ApiSearchAccessFilter := do
  match ← value.text? with
  | "read" => some .read
  | "write" => some .write
  | "any" => some .any
  | _ => none

def parseGroups (value : JsonValue) : Option (List String) := do
  (← value.items?).mapM fun item => item.text?.filter featureGroupNames.contains

def parseLimit (value : JsonValue) : Option Nat := do
  let limit ← value.number?
  if limit.den = 1 ∧ 1 ≤ limit ∧ limit ≤ 12 then some limit.num.toNat else none

def parseOptional {α : Type} (parse : JsonValue → Option α) (value : Option JsonValue) :
    Option (Option α) :=
  match value with
  | none => some none
  | some value => (parse value).map some

def parseFindApiOperationsInput (raw : JsonValue) : Option FindApiOperationsInput := do
  let fields ← raw.record?
  if !fields.all fun field => ["query", "access", "groups", "limit"].contains field.1 then none
  else
    let query ← (raw.property "query").bind parseQuery
    let access ← parseOptional parseAccess (raw.property "access")
    let groups ← parseOptional parseGroups (raw.property "groups")
    let limit ← parseOptional parseLimit (raw.property "limit")
    return { query, access, groups, limit }

def reserveDiscoveryCall (state : RunState) (searchIndex : Nat)
    (parsed : FindApiOperationsInput) : RunnerProcess Unit :=
  let budget := { state.budget with discoveryCallsUsed := state.budget.discoveryCallsUsed + 1 }
  commitEvent { state with budget, phase := .discovering }
    (.apiSearchStarted searchIndex (parsed.access.getD .any) (parsed.groups.getD []))

def loadedSummary (added : List String) : String :=
  if added.isEmpty then
    "no new operations — every match was already loaded." ++
      " Searching again with a similar query will return the same set and waste the search" ++
      " budget; call the operations you already have instead."
  else
    "loaded " ++ toString added.length ++ " new operation(s): " ++ ", ".intercalate added ++ "."

def denySearch (state : RunState) (call : ToolCall) (code : String) :
    RunnerProcess (RunState × RunObservation) := do
  commitEvent state (.toolDenied call.id call.name code)
  return (← reload state, .denied call.name code)

def search (state : RunState) (searchIndex : Nat) (call : ToolCall)
    (parsed : FindApiOperationsInput) : RunnerProcess (RunState × RunObservation) := do
  reserveDiscoveryCall state searchIndex parsed
  let state ← reload state
  let ranked ← perform (.search parsed)
  let loadedToolNames := refineLoadedToolSet state.loadedToolNames state.usedToolNames ranked
  let added := (apiToolNames loadedToolNames).filter fun name =>
    !state.loadedToolNames.contains name
  let state := { state with
    loadedToolNames
    usedToolNames := addName state.usedToolNames call.name }
  commitEvent state (.apiOperationsLoaded (apiToolNames loadedToolNames))
  return (← reload state, .result call.name (loadedSummary added))

structure DiscoveryBatchResult where
  state : RunState
  observations : List RunObservation

def executeDiscoveryCalls (state : RunState) (searchIndex : Nat)
    (observations : List RunObservation) : List ToolCall → RunnerProcess DiscoveryBatchResult
  | [] => return { state, observations }
  | call :: rest => do
      if !canReserveDiscoveryCall state.budget then
        let denied ← denySearch state call "too_many_refinements"
        executeDiscoveryCalls denied.1 searchIndex (observations ++ [denied.2]) rest
      else match parseFindApiOperationsInput call.arguments with
        | none =>
            let denied ← denySearch state call "invalid_args"
            executeDiscoveryCalls denied.1 searchIndex (observations ++ [denied.2]) rest
        | some parsed =>
            let found ← search state (searchIndex + 1) call parsed
            executeDiscoveryCalls found.1 (searchIndex + 1) (observations ++ [found.2]) rest

def executeDiscoveryBatch (state : RunState) (discoveryCalls : List ToolCall) :
    RunnerProcess DiscoveryBatchResult :=
  executeDiscoveryCalls state state.budget.discoveryCallsUsed [] discoveryCalls

end ApiDiscovery

end ClockifyAssistant
