import ClockifyAssistant.Services.ApiDiscovery

/-!
The search of the operation catalog: the operations that the authentication class may use and
that pass the filters of the query are scored, and the best are named.
-/
namespace ClockifyAssistant

open Lib

structure ApiAction where
  name : String
  operationId : String
  access : ApiAccess
  featureGroup : String
  description : String
  available : AuthClass → Bool

/-- The actions of the model catalog, whose names are distinct and short. -/
structure ApiCatalog where
  actions : List ApiAction
  hash : String
  distinct : (actions.map ApiAction.name).Nodup
  named : ∀ action ∈ actions, action.name ≠ "" ∧ boundedString action.name = true

namespace ApiCatalog

def find (catalog : ApiCatalog) (name : String) : Option ApiAction :=
  catalog.actions.find? fun action => action.name == name

def registry (catalog : ApiCatalog) : ActionRegistry where
  get name := (catalog.find name).map fun action => ⟨some action.access⟩
  available name authClass := (catalog.find name).any fun action => action.available authClass
  hash := catalog.hash

end ApiCatalog

namespace ApiSearch

structure IndexedApiOperation where
  toolName : String
  operationId : String
  access : ApiAccess
  featureGroup : String
  description : String
  availabilityByAuthClass : AuthClass → Bool

structure ApiOperationIndex where
  catalogHash : String
  operations : List IndexedApiOperation

def indexAction (action : ApiAction) : IndexedApiOperation where
  toolName := action.name
  operationId := action.operationId
  access := action.access
  featureGroup := action.featureGroup
  description := action.description
  availabilityByAuthClass := action.available

def buildApiOperationIndex (catalog : ApiCatalog) : ApiOperationIndex where
  catalogHash := catalog.hash
  operations := catalog.actions.map indexAction

/-- What the search takes from Unicode and from floating point: the normal form of a text and
its tokens, the score of an operation, and the order of `localeCompare`. -/
structure SearchText where
  normalizeSearchText : String → String
  tokenizeSearchText : String → List String
  scoreIndexedOperation : IndexedApiOperation → String → List String → Option Nat
  localeCompare : String → String → Ordering

structure ScoredApiOperation where
  operation : IndexedApiOperation
  score : Nat

/-- The names of the matches, the best first, or the notice that the class may use none. -/
inductive ApiSearchResult
  | matches (operations : List IndexedApiOperation)
  | notice

variable (text : SearchText)

def compareScoredOperations (left right : ScoredApiOperation) : Ordering :=
  (compare right.score left.score).then
    ((text.localeCompare left.operation.operationId right.operation.operationId).then
      (text.localeCompare left.operation.toolName right.operation.toolName))

def passesAccessFilter (operation : IndexedApiOperation) : ApiSearchAccessFilter → Bool
  | .any => true
  | .read => operation.access == .read
  | .write => operation.access == .write

def passesGroupFilter (operation : IndexedApiOperation) (groups : List String) : Bool :=
  groups.isEmpty || groups.contains operation.featureGroup

def resolveLimit (limit : Option Nat) : Nat :=
  min (limit.getD maxLoadedApiTools) maxLoadedApiTools

def searchPool (pool : List IndexedApiOperation) (input : FindApiOperationsInput)
    (limit : Nat) : List ScoredApiOperation :=
  let queryNormalized := text.normalizeSearchText input.query
  let queryTokens := text.tokenizeSearchText queryNormalized
  let scored := pool.filterMap fun operation =>
    if passesAccessFilter operation (input.access.getD .any) &&
        passesGroupFilter operation (input.groups.getD []) then
      (text.scoreIndexedOperation operation queryNormalized queryTokens).map
        (ScoredApiOperation.mk operation)
    else none
  (scored.mergeSort fun left right => compareScoredOperations text left right != .gt).take limit

/-- A parsed query is trimmed and short enough. -/
def searchApiOperations (index : ApiOperationIndex) (input : FindApiOperationsInput)
    (authClass : AuthClass) : ApiSearchResult :=
  let queryTokens := text.tokenizeSearchText (text.normalizeSearchText input.query)
  if queryTokens.isEmpty then .matches []
  else
    let availablePool := index.operations.filter fun operation =>
      operation.availabilityByAuthClass authClass
    let availableMatches := searchPool text availablePool input (resolveLimit input.limit)
    if !availableMatches.isEmpty then .matches (availableMatches.map ScoredApiOperation.operation)
    else
      let unavailablePool := index.operations.filter fun operation =>
        !operation.availabilityByAuthClass authClass
      if !(searchPool text unavailablePool input 1).isEmpty then .notice else .matches []

def discoverySearch (index : Option ApiOperationIndex) (input : FindApiOperationsInput)
    (authClass : AuthClass) : ApiSearchResult :=
  match index with
  | none => .notice
  | some index => searchApiOperations text index input authClass

def rankedNamesFromSearch : ApiSearchResult → List String
  | .matches operations => operations.map IndexedApiOperation.toolName
  | .notice => []

section Results

variable {text}

variable {input : FindApiOperationsInput}

theorem searchPool_mem {pool : List IndexedApiOperation}
    {limit : Nat} {scored : ScoredApiOperation} (h : scored ∈ searchPool text pool input limit) :
    scored.operation ∈ pool := by
  have hmem := List.mem_of_mem_take h
  rw [List.mem_mergeSort, List.mem_filterMap] at hmem
  obtain ⟨operation, hpool, hscored⟩ := hmem
  split at hscored
  · obtain ⟨score, -, rfl⟩ := Option.map_eq_some_iff.mp hscored
    exact hpool
  · exact absurd hscored nofun

theorem searchApiOperations_mem {index : ApiOperationIndex} {authClass : AuthClass} {name : String}
    (h : name ∈ rankedNamesFromSearch (searchApiOperations text index input authClass)) :
    ∃ operation ∈ index.operations, operation.toolName = name := by
  unfold searchApiOperations at h
  dsimp only at h
  split at h
  · exact absurd h List.not_mem_nil
  · split at h
    · obtain ⟨operation, hoperation, rfl⟩ := List.mem_map.mp h
      obtain ⟨scored, hscored, rfl⟩ := List.mem_map.mp hoperation
      exact ⟨_, List.mem_of_mem_filter (searchPool_mem hscored), rfl⟩
    · split at h
      · exact absurd h List.not_mem_nil
      · exact absurd h List.not_mem_nil

theorem registry_get_name {catalog : ApiCatalog} {action : ApiAction}
    (h : action ∈ catalog.actions) : (catalog.registry.get action.name).isSome = true := by
  have hfound : (catalog.find action.name).isSome = true := by
    rw [ApiCatalog.find, List.find?_isSome]
    exact ⟨action, h, beq_self_eq_true _⟩
  rw [ApiCatalog.registry, Option.isSome_map, hfound]

theorem discoverySearch_known {catalog : ApiCatalog} {index : Option ApiOperationIndex}
    (hindex : ∀ built, index = some built → built = buildApiOperationIndex catalog) {authClass : AuthClass} {name : String}
    (h : name ∈ rankedNamesFromSearch (discoverySearch text index input authClass)) :
    (catalog.registry.get name).isSome = true := by
  cases index with
  | none => exact absurd h List.not_mem_nil
  | some built =>
    obtain rfl := hindex built rfl
    obtain ⟨operation, hoperation, rfl⟩ := searchApiOperations_mem h
    obtain ⟨action, haction, rfl⟩ := List.mem_map.mp hoperation
    exact registry_get_name haction

theorem registry_bounded (catalog : ApiCatalog) (name : String)
    (h : (catalog.registry.get name).isSome = true) : name ≠ "" ∧ boundedString name = true := by
  rw [ApiCatalog.registry, Option.isSome_map] at h
  obtain ⟨action, haction⟩ := Option.isSome_iff_exists.mp h
  have hname := List.find?_some haction
  rw [← beq_iff_eq.mp hname]
  exact catalog.named action (List.mem_of_find?_eq_some haction)

end Results

end ApiSearch

end ClockifyAssistant
