import ClockifyAssistant.Store.Runs

/-!
The telemetry of the turns of an admin, and its totals. A row stands for one turn; the
totals are plain sums over the rows.
-/
namespace ClockifyAssistant

inductive TurnKind
  | chat | resume
  deriving DecidableEq

/-- One turn's model telemetry. A count that the backend did not report is `none`. -/
structure TurnTelemetry where
  kind : TurnKind
  modelCalls : Nat
  promptTokens : Option Nat
  completionTokens : Option Nat
  cachedPromptTokens : Option Nat
  turnMs : Nat
  modelMs : Nat
  createdAt : Time
  deriving DecidableEq

structure UsageSum where
  turns : Nat
  modelCalls : Nat
  promptTokens : Nat
  completionTokens : Nat
  cachedPromptTokens : Nat
  avgTurnMs : Nat
  deriving DecidableEq

structure UsageMetrics extends UsageSum where
  maxTurnMs : Nat
  avgModelMs : Nat
  last24h : UsageSum
  deriving DecidableEq

/-- `Math.round(total / count)`, and 0 where there is nothing to average. -/
def roundedAverage (total count : Nat) : Nat := (2 * total + count) / (2 * count)

def sumTelemetry (rows : List TurnTelemetry) : UsageSum where
  turns := rows.length
  modelCalls := (rows.map TurnTelemetry.modelCalls).sum
  promptTokens := (rows.map fun row => row.promptTokens.getD 0).sum
  completionTokens := (rows.map fun row => row.completionTokens.getD 0).sum
  cachedPromptTokens := (rows.map fun row => row.cachedPromptTokens.getD 0).sum
  avgTurnMs := roundedAverage (rows.map TurnTelemetry.turnMs).sum rows.length

def dayMs : Nat := 24 * 60 * 60 * 1000

def buildUsageMetrics (rows : List TurnTelemetry) (generatedAt : Time) : UsageMetrics where
  toUsageSum := sumTelemetry rows
  maxTurnMs := rows.foldl (fun m row => max m row.turnMs) 0
  avgModelMs := roundedAverage (rows.map TurnTelemetry.modelMs).sum rows.length
  last24h := sumTelemetry (rows.filter fun row => generatedAt - dayMs ≤ row.createdAt)

@[ext] structure RunUsage where
  modelCalls : Nat
  promptTokens : Nat
  completionTokens : Nat
  deriving DecidableEq

namespace RunUsage

def zero : RunUsage := ⟨0, 0, 0⟩

def plus (a b : RunUsage) : RunUsage where
  modelCalls := a.modelCalls + b.modelCalls
  promptTokens := a.promptTokens + b.promptTokens
  completionTokens := a.completionTokens + b.completionTokens

/-- An amount that is added to another leaves it as it is exactly when it is nothing. -/
theorem plus_eq_right {a b : RunUsage} : a.plus b = b ↔ a = zero := by
  constructor
  · intro h
    have hcalls : a.modelCalls + b.modelCalls = b.modelCalls := congrArg modelCalls h
    have hprompt : a.promptTokens + b.promptTokens = b.promptTokens := congrArg promptTokens h
    have hcompletion : a.completionTokens + b.completionTokens = b.completionTokens :=
      congrArg completionTokens h
    ext
    · show a.modelCalls = 0
      omega
    · show a.promptTokens = 0
      omega
    · show a.completionTokens = 0
      omega
  · intro h
    rw [h]
    ext
    · exact Nat.zero_add _
    · exact Nat.zero_add _
    · exact Nat.zero_add _

end RunUsage

def TurnTelemetry.usage (row : TurnTelemetry) : RunUsage :=
  ⟨row.modelCalls, row.promptTokens.getD 0, row.completionTokens.getD 0⟩

def UsageMetrics.usage (metrics : UsageMetrics) : RunUsage :=
  ⟨metrics.modelCalls, metrics.promptTokens, metrics.completionTokens⟩

theorem usage_buildUsageMetrics_concat (rows : List TurnTelemetry) (row : TurnTelemetry)
    (generatedAt : Time) : (buildUsageMetrics (rows ++ [row]) generatedAt).usage =
      (buildUsageMetrics rows generatedAt).usage.plus row.usage := by
  ext
  · show ((rows ++ [row]).map TurnTelemetry.modelCalls).sum = _
    rw [List.map_append, List.sum_append, List.map_singleton, List.sum_singleton]
    rfl
  · show ((rows ++ [row]).map fun row => row.promptTokens.getD 0).sum = _
    rw [List.map_append, List.sum_append, List.map_singleton, List.sum_singleton]
    rfl
  · show ((rows ++ [row]).map fun row => row.completionTokens.getD 0).sum = _
    rw [List.map_append, List.sum_append, List.map_singleton, List.sum_singleton]
    rfl

end ClockifyAssistant
