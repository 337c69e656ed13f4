import ClockifyAssistant.Database
import ClockifyAssistant.Lib.JsonValue

/-!
Turn runs: a chat request is claimed under its id, finished with its response and
the links to its results, and replayed from them. JSON columns are kept parsed.
-/
namespace ClockifyAssistant

open Lib Txn

structure TurnRunClaimInput where
  requestId : RequestId
  sessionId : SessionId
  workspaceId : WorkspaceId
  adminUserId : AdminUserId
  intentHash : Hash
  deriving DecidableEq

inductive TurnRunClaimResult
  | won | inFlight | conflict | outcomeUnknown
  | replay (response : JsonValue)

structure TurnRunRow where
  requestId : RequestId
  sessionId : SessionId
  workspaceId : WorkspaceId
  adminUserId : AdminUserId
  intentHash : Hash
  status : TurnStatus
  responseEnvelope : Option JsonValue
  createdAt : Time
  updatedAt : Time

inductive DurableResultLink
  | actionResult (ref : ResultId)
  | preview (descriptor : JsonValue)
  | inline (descriptor : JsonValue)
  | confirmation (confirmationId : ConfirmationId)

inductive DescriptorKind
  | actionResult | preview | inline | confirmation
  deriving DecidableEq

def DurableResultLink.kind : DurableResultLink → DescriptorKind
  | .actionResult _ => .actionResult
  | .preview _ => .preview
  | .inline _ => .inline
  | .confirmation _ => .confirmation

structure LinkColumns where
  actionResultId : Option ResultId
  descriptorJson : Option JsonValue

def durableLinkColumns : DurableResultLink → LinkColumns
  | .actionResult ref => ⟨some ref, none⟩
  | .confirmation confirmationId =>
      ⟨none, some (.obj [("confirmationId", .str (toString confirmationId))])⟩
  | .preview descriptor | .inline descriptor => ⟨none, some descriptor⟩

structure TurnRunResultLink where
  sessionId : SessionId
  requestId : RequestId
  resultIndex : Nat
  descriptorKind : DescriptorKind
  actionResultId : Option ResultId
  descriptorJson : Option JsonValue

instance : Keyed TurnRunRow (SessionId × RequestId) :=
  ⟨fun row => (row.sessionId, row.requestId)⟩
instance : Keyed TurnRunResultLink (SessionId × RequestId × Nat) :=
  ⟨fun link => (link.sessionId, link.requestId, link.resultIndex)⟩

structure TurnStore where
  turns : Table TurnRunRow
  links : Table TurnRunResultLink
  actionResults : ResultId → Option JsonValue

abbrev TurnTxn (α : Type) : Type := Txn TurnStore StoreError α

def TurnStore.linksOf (store : TurnStore) (sessionId : SessionId) (requestId : RequestId) :
    List TurnRunResultLink :=
  (store.links.rows.filter fun link =>
    link.sessionId == sessionId && link.requestId == requestId).insertionSort
      fun a b => a.resultIndex ≤ b.resultIndex

/-- The result of a link; a confirmation link is served by the replaying route. -/
def TurnRunResultLink.result (actionResults : ResultId → Option JsonValue)
    (link : TurnRunResultLink) : Option JsonValue :=
  match link.descriptorKind with
  | .confirmation => none
  | .actionResult => link.actionResultId.bind actionResults
  | .preview | .inline => link.descriptorJson

def replayResponse (response : JsonValue) (results : List JsonValue) : JsonValue :=
  match response with
  | .obj fields =>
      match (fields.lookup "body").bind JsonValue.record? with
      | some body => .obj (JsonValue.withField "body"
          (.obj (JsonValue.withField "results" (.arr results) body)) fields)
      | none => response
  | _ => response

def claimTurnRun (input : TurnRunClaimInput) (now : Time) : TurnTxn TurnRunClaimResult := do
  let store ← get
  let row : TurnRunRow := {
    requestId := input.requestId
    sessionId := input.sessionId
    workspaceId := input.workspaceId
    adminUserId := input.adminUserId
    intentHash := input.intentHash
    status := .prepared
    responseEnvelope := none
    createdAt := now
    updatedAt := now }
  match h : store.turns.get? (key row) with
  | some existing =>
      if existing.intentHash ≠ input.intentHash then return .conflict
      if existing.status = .prepared ∨ existing.status = .executing then return .inFlight
      match existing.responseEnvelope with
      | some response =>
          let results := (store.linksOf input.sessionId input.requestId).filterMap
            (TurnRunResultLink.result store.actionResults)
          return .replay (replayResponse response results)
      | none => return .outcomeUnknown
  | none =>
      set { store with turns := store.turns.insert row h }
      return .won

def markTurnRunExecuting (sessionId : SessionId) (requestId : RequestId) (now : Time) :
    TurnTxn Unit :=
  modify fun store => { store with
    turns := store.turns.updateWhere
      (fun row => key row == (sessionId, requestId) && row.status == .prepared)
      fun row => { row with status := .executing, updatedAt := now } }

inductive TurnOutcome
  | succeeded | failed | outcomeUnknown
  deriving DecidableEq

def TurnOutcome.status : TurnOutcome → TurnStatus
  | .succeeded => .succeeded
  | .failed => .failed
  | .outcomeUnknown => .outcomeUnknown

/-- What of a response is stored: the body goes without its results, which are linked,
and without the run's events, which can hold a live nonce. -/
def storedEnvelope (response : JsonValue) : JsonValue :=
  match response with
  | .obj fields =>
      match (fields.lookup "body").bind JsonValue.record? with
      | some body => .obj (JsonValue.withField "body"
          (.obj (body.filter fun field => field.1 != "results" && field.1 != "runEvents")) fields)
      | none => response
  | .arr _ => response
  | _ => .obj []

def insertResultLink (sessionId : SessionId) (requestId : RequestId)
    (entry : DurableResultLink × Nat) : TurnTxn Unit := do
  let store ← get
  let columns := durableLinkColumns entry.1
  let link : TurnRunResultLink := {
    sessionId
    requestId
    resultIndex := entry.2
    descriptorKind := entry.1.kind
    actionResultId := columns.actionResultId
    descriptorJson := columns.descriptorJson }
  require (store.turns.get? (sessionId, requestId)).isSome (.foreignKey "turn_run_result_links")
  if h : store.links.get? (key link) = none then
    set { store with links := store.links.insert link h }
  else throw (.unique "turn_run_result_links")

def finishTurnRun (sessionId : SessionId) (requestId : RequestId) (outcome : TurnOutcome)
    (response : JsonValue) (resultLinks : List DurableResultLink) (now : Time) :
    TurnTxn Unit := do
  modify fun store => { store with
    turns := store.turns.updateWhere (fun row => key row == (sessionId, requestId))
      (fun row => { row with
        status := outcome.status
        responseEnvelope := some (storedEnvelope response)
        updatedAt := now })
    links := store.links.deleteWhere fun link =>
      link.sessionId == sessionId && link.requestId == requestId }
  resultLinks.zipIdx.forM (insertResultLink sessionId requestId)

end ClockifyAssistant
