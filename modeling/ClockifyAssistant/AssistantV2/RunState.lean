import Mathlib.Data.Rat.Floor
import ClockifyAssistant.Store.Runs

/-!
The state of a run as its controller sees it, with the budget of the run and the
charges for its model calls.
-/
namespace ClockifyAssistant

abbrev ToolCallId := String

def discoveryMetaToolName : String := "assistant_find_api_operations"

inductive AuthClass
  | addon | apiKey
  deriving DecidableEq

structure CompletedToolResult where
  toolCallId : ToolCallId
  actionName : String
  /-- `none` where the id names no row. -/
  actionResultId : Option ResultId
  deriving DecidableEq

structure RunState.Budget extends RunBudget where
  modelCallsUsed : Nat
  discoveryCallsUsed : Nat
  apiCallsUsed : Nat
  promptTokensUsed : Nat
  completionTokensUsed : Nat
  estimatedTokensUsed : Nat
  activeWallMsUsed : Nat
  deriving DecidableEq

structure RunState where
  phase : RunPhase
  catalogHash : String
  loadedToolNames : List String
  usedToolNames : List String
  completedResults : List CompletedToolResult
  continuation : RunContinuation
  budget : RunState.Budget
  deriving DecidableEq

def createEmptyRunBudget : RunState.Budget where
  hostCallsUsed := 0
  hostCallsReserved := 0
  modelCallsUsed := 0
  discoveryCallsUsed := 0
  apiCallsUsed := 0
  promptTokensUsed := 0
  completionTokensUsed := 0
  estimatedTokensUsed := 0
  activeWallMsUsed := 0

def maxModelCalls : Nat := 6
def maxDiscoveryCalls : Nat := 4
def maxLoadedApiTools : Nat := 12
def maxApiCalls : Nat := 12
def maxWallClockMs : Nat := 300000
def maxTotalTokens : Nat := 64000
def maxOutputTokensPerCall : Nat := 8192

def totalChargedTokens (budget : RunState.Budget) : Nat :=
  budget.promptTokensUsed + budget.completionTokensUsed + budget.estimatedTokensUsed

def canReserveModelCall (budget : RunState.Budget) : Bool :=
  budget.modelCallsUsed < maxModelCalls

def canReserveDiscoveryCall (budget : RunState.Budget) : Bool :=
  budget.discoveryCallsUsed < maxDiscoveryCalls

def isActiveWallBudgetExceeded (budget : RunState.Budget) : Bool :=
  maxWallClockMs ≤ budget.activeWallMsUsed

def isTokenBudgetExceeded (budget : RunState.Budget) : Bool :=
  maxTotalTokens ≤ totalChargedTokens budget

structure ModelPreflight where
  maxOutputTokens : Nat
  inputReserve : Nat
  perAttemptAllowance : Nat

/-- `none` where the request does not fit the tokens left; with more charged than
allowed the allowance is negative in the source, and no request fits it. -/
def preflightModelRequest (budget : RunState.Budget) (serializedRequestUtf8Bytes : Nat) :
    Option ModelPreflight :=
  let perAttemptAllowance := (maxTotalTokens - totalChargedTokens budget) / 2
  if perAttemptAllowance ≤ serializedRequestUtf8Bytes then none
  else some {
    maxOutputTokens :=
      min maxOutputTokensPerCall (perAttemptAllowance - serializedRequestUtf8Bytes)
    inputReserve := serializedRequestUtf8Bytes
    perAttemptAllowance }

/-- A count that a provider reports; a literal too large for a number is infinite. -/
inductive ReportedCount
  | finite (value : Rat)
  | infinite
  deriving DecidableEq

def ReportedCount.isInteger : ReportedCount → Bool
  | finite value => value.den == 1
  | infinite => false

def ReportedCount.nonnegative : ReportedCount → Bool
  | finite value => 0 ≤ value
  | infinite => true

/-- `Number.isSafeInteger(count) && count >= 0`, with the integer. -/
def ReportedCount.safe? : ReportedCount → Option Nat
  | finite value =>
      if value.den = 1 ∧ 0 ≤ value.num ∧ value.num ≤ maxSafeInteger then some value.num.toNat
      else none
  | infinite => none

structure TokenUsage where
  promptTokens : ReportedCount
  completionTokens : ReportedCount
  deriving DecidableEq

structure ProviderUsageCharge where
  promptTokens : Nat
  completionTokens : Nat
  deriving DecidableEq

/-- The reported usage where both counts are nonnegative safe integers. -/
def TokenUsage.safeUsage (usage : TokenUsage) : Option ProviderUsageCharge :=
  match usage.promptTokens.safe?, usage.completionTokens.safe? with
  | some promptTokens, some completionTokens => some { promptTokens, completionTokens }
  | _, _ => none

def chargeSuccessfulModelAttempt (budget : RunState.Budget) (usage : Option ProviderUsageCharge)
    (serializedRequestUtf8Bytes serializedResponseUtf8Bytes : Nat) : RunState.Budget :=
  match usage with
  | some usage => { budget with
      promptTokensUsed := budget.promptTokensUsed + usage.promptTokens
      completionTokensUsed := budget.completionTokensUsed + usage.completionTokens }
  | none => { budget with
      estimatedTokensUsed := budget.estimatedTokensUsed +
        (serializedRequestUtf8Bytes + serializedResponseUtf8Bytes) }

def chargeFailedModelAttempt (budget : RunState.Budget) (inputReserve maxOutputTokens : Nat) :
    RunState.Budget :=
  { budget with
    estimatedTokensUsed := budget.estimatedTokensUsed + inputReserve + maxOutputTokens }

theorem preflight_reserve_pos {budget : RunState.Budget} {bytes : Nat} {p : ModelPreflight}
    (h : preflightModelRequest budget bytes = some p) : 0 < p.inputReserve + p.maxOutputTokens := by
  unfold preflightModelRequest at h
  dsimp only at h
  split at h
  · cases h
  · rename_i hfits
    cases h
    have hroom : 0 < (maxTotalTokens - totalChargedTokens budget) / 2 - bytes := by omega
    show 0 < bytes + min maxOutputTokensPerCall _
    have hcap : 0 < maxOutputTokensPerCall := by decide
    omega

end ClockifyAssistant
