import Mathlib.Data.List.Induction
import ClockifyAssistant.Lib.History
import ClockifyAssistant.Metrics.UsageMetrics
import ClockifyAssistant.RunCeilings

/-!
The telemetry of one run. Each invocation that ends with an outcome is settled with a
row, taken from the budget of the run; the budget counts over the whole run, the totals
count over the rows.
-/
namespace ClockifyAssistant

open Lib

/-- A turn that starts a run is a chat turn, one that goes on with it a resume. -/
def RunRequest.kind : RunRequest → TurnKind
  | .runAssistant ⟨some _⟩ => .chat
  | _ => .resume

/-- The record of `settleV2Turn`: the persisted counters of the run. -/
def RunState.turnTelemetry (run : RunState) (kind : TurnKind) (now : Time) : TurnTelemetry where
  kind
  modelCalls := run.budget.modelCallsUsed
  promptTokens :=
    if 0 < run.budget.promptTokensUsed then some run.budget.promptTokensUsed else none
  completionTokens :=
    if 0 < run.budget.completionTokensUsed then some run.budget.completionTokensUsed else none
  cachedPromptTokens := none
  turnMs := run.budget.activeWallMsUsed
  modelMs := run.budget.activeWallMsUsed
  createdAt := now

/-- What the durable counters of the run say, nothing before the run is started. -/
def RunWorld.usage (w : RunWorld) : RunUsage :=
  match w.run with
  | some run =>
      ⟨run.budget.modelCallsUsed, run.budget.promptTokensUsed, run.budget.completionTokensUsed⟩
  | none => .zero

/-- What happens to a run from one settled turn to the next. -/
inductive TurnEvent
  /-- A request is answered; the write of its row may be refused. -/
  | turn (request : RunRequest) (envs : List RunnerEnv) (stored : Bool) (now : Time)
  /-- The process dies while the request is handled, and starts again. -/
  | crash (request : RunRequest) (envs : List RunnerEnv) (restart : RunnerEnv)

/-- A failed resolution and an exception are answered without being settled. -/
def outcome? : Except RunError (Option RunOutcome) → Option RunOutcome
  | .ok outcome => outcome
  | .error _ => none

/-- The row that the settlement of a turn writes. -/
def settledRow (kind : TurnKind) (response : Except RunError (Option RunOutcome)) (w : RunWorld)
    (stored : Bool) (now : Time) : Option TurnTelemetry :=
  if stored then (outcome? response).bind fun _ => w.run.map fun run => run.turnTelemetry kind now
  else none

/-- The run after an event and the row that was written, `none` where the answers of the
outside world are not those that the request waits for. -/
def TurnEvent.outcome (scope : RunnerScope) (w : RunWorld) :
    TurnEvent → Option (RunWorld × Option TurnTelemetry)
  | turn request envs stored now =>
      (Server.play (runController scope) (request.handler scope).run envs w).map fun r =>
        (r.2, settledRow request.kind r.1 r.2 stored now)
  | crash request envs restart =>
      let w : RunWorld :=
        Server.interrupt (runController scope) (request.handler scope).run envs w
      some (w.await restart.others, none)

structure RunTelemetry where
  world : RunWorld
  telemetry : List TurnTelemetry

namespace RunTelemetry

def empty : RunTelemetry := ⟨.empty, []⟩

def step (scope : RunnerScope) (s : RunTelemetry) (event : TurnEvent) : Option RunTelemetry :=
  (event.outcome scope s.world).map fun r =>
    { world := r.1, telemetry := s.telemetry ++ r.2.toList }

/-- The totals built from the rows of the run are its durable counters. -/
def Conserved (s : RunTelemetry) : Prop :=
  ∀ generatedAt, (buildUsageMetrics s.telemetry generatedAt).usage = s.world.usage

/-- A turn that writes a row finds a run that has been charged nothing, and where no row is
written nothing is charged. -/
def CountsOnce (scope : RunnerScope) (s : RunTelemetry) (event : TurnEvent) : Prop :=
  match event.outcome scope s.world with
  | some (_, some _) => s.world.usage = .zero
  | some (w, none) => w.usage = s.world.usage
  | none => True

end RunTelemetry

/-- The run and its rows after the events, if each of them can happen where it stands. -/
def runTelemetry (scope : RunnerScope) (events : List TurnEvent) : Option RunTelemetry :=
  events.foldlM (RunTelemetry.step scope) .empty

section Row

@[simp] theorem usage_turnTelemetry (run : RunState) (kind : TurnKind) (now : Time) :
    (run.turnTelemetry kind now).usage = ⟨run.budget.modelCallsUsed, run.budget.promptTokensUsed,
      run.budget.completionTokensUsed⟩ := by
  have hdefault : ∀ n : Nat, (if 0 < n then some n else none).getD 0 = n := by
    intro n
    by_cases hn : 0 < n
    · rw [if_pos hn]
      rfl
    · rw [if_neg hn]
      show 0 = n
      omega
  ext
  · rfl
  · exact hdefault _
  · exact hdefault _

/-- A row reports the counters of the run that it was taken from, whoever counted them. -/
theorem usage_settledRow {kind : TurnKind} {response : Except RunError (Option RunOutcome)}
    {w : RunWorld} {stored : Bool} {now : Time} {row : TurnTelemetry}
    (h : settledRow kind response w stored now = some row) : row.usage = w.usage := by
  unfold settledRow at h
  split at h
  · obtain ⟨_, -, hrow⟩ := Option.bind_eq_some_iff.mp h
    obtain ⟨run, hrun, rfl⟩ := Option.map_eq_some_iff.mp hrow
    rw [usage_turnTelemetry, RunWorld.usage, hrun]
  · cases h

theorem usage_outcome {scope : RunnerScope} {w w' : RunWorld} {event : TurnEvent}
    {row : TurnTelemetry} (h : event.outcome scope w = some (w', some row)) :
    row.usage = w'.usage := by
  cases event with
  | turn request envs stored now =>
    obtain ⟨r, -, heq⟩ := Option.map_eq_some_iff.mp h
    obtain ⟨rfl, hrow⟩ := Prod.mk.inj heq
    exact usage_settledRow hrow
  | crash request envs restart => cases h

end Row

namespace RunTelemetry

variable {scope : RunnerScope} {s s' : RunTelemetry} {event : TurnEvent}

theorem empty_conserved : Conserved empty := fun _ => rfl

theorem step_cases (h : s.step scope event = some s') :
    (∃ row, event.outcome scope s.world = some (s'.world, some row) ∧
      s'.telemetry = s.telemetry ++ [row]) ∨
    (event.outcome scope s.world = some (s'.world, none) ∧ s'.telemetry = s.telemetry) := by
  obtain ⟨⟨w, row⟩, hout, rfl⟩ := Option.map_eq_some_iff.mp h
  cases row with
  | some row => exact .inl ⟨row, hout, rfl⟩
  | none => exact .inr ⟨hout, List.append_nil _⟩

/-- A row repeats everything that was charged before its turn, so the totals stay right
exactly where there was nothing to repeat. -/
theorem conserved_step (hs : s.Conserved) (h : s.step scope event = some s') :
    s'.Conserved ↔ s.CountsOnce scope event := by
  obtain ⟨row, hout, hrows⟩ | ⟨hout, hrows⟩ := step_cases h
  · have htotal : ∀ generatedAt, (buildUsageMetrics s'.telemetry generatedAt).usage =
        s.world.usage.plus s'.world.usage := by
      intro generatedAt
      rw [hrows, usage_buildUsageMetrics_concat, hs, usage_outcome hout]
    have hcounts : s.CountsOnce scope event ↔ s.world.usage = .zero := by
      rw [CountsOnce, hout]
    rw [hcounts, ← RunUsage.plus_eq_right (b := s'.world.usage)]
    constructor
    · intro hconserved
      exact (htotal 0).symm.trans (hconserved 0)
    · intro hsame generatedAt
      exact (htotal generatedAt).trans hsame
  · have hcounts : s.CountsOnce scope event ↔ s'.world.usage = s.world.usage := by
      rw [CountsOnce, hout]
    rw [hcounts]
    constructor
    · intro hconserved
      rw [← hconserved 0, hrows, hs]
    · intro hsame generatedAt
      rw [hrows, hs, hsame]

end RunTelemetry

open RunTelemetry

theorem runTelemetry_concat (scope : RunnerScope) (events : List TurnEvent) (event : TurnEvent) :
    runTelemetry scope (events ++ [event]) =
      (runTelemetry scope events).bind fun s => s.step scope event := by
  unfold runTelemetry
  rw [List.foldlM_append]
  cases List.foldlM (RunTelemetry.step scope) RunTelemetry.empty events with
  | none => rfl
  | some s => simp

/-- After every event of a run the totals of its rows are the counters of the run, exactly
when each turn that is settled found the run without charges and each event that writes no
row charges nothing. -/
theorem run_telemetry_conserved (scope : RunnerScope) (events : List TurnEvent) :
    (∀ before, before <+: events → ∀ s, runTelemetry scope before = some s → s.Conserved) ↔
      Always (fun before event => ∀ s, runTelemetry scope before = some s →
        s.CountsOnce scope event) events := by
  induction events using List.reverseRecOn with
  | nil =>
    refine iff_of_true (fun before hcut s hs => ?_) Always.nil
    rw [List.prefix_nil.mp hcut] at hs
    cases hs
    exact empty_conserved
  | append_singleton rest event ih =>
    rw [Always.concat_iff, ← ih]
    constructor
    · intro h
      have hrest : ∀ before, before <+: rest → ∀ s, runTelemetry scope before = some s →
          s.Conserved := fun before hcut =>
        h before (hcut.trans (List.prefix_append rest [event]))
      refine ⟨hrest, fun s hs => ?_⟩
      cases hstep : s.step scope event with
      | none =>
        unfold CountsOnce
        rw [Option.map_eq_none_iff.mp hstep]
        trivial
      | some s' =>
        have hlast : runTelemetry scope (rest ++ [event]) = some s' := by
          rw [runTelemetry_concat, hs]
          exact hstep
        exact (conserved_step (hrest rest (List.prefix_refl rest) s hs) hstep).mp
          (h _ (List.prefix_refl _) s' hlast)
    · rintro ⟨hrest, hevent⟩ before hcut s' hs'
      rcases List.prefix_concat_iff.mp hcut with rfl | hcut
      · rw [runTelemetry_concat] at hs'
        obtain ⟨s, hs, hstep⟩ := Option.bind_eq_some_iff.mp hs'
        exact (conserved_step (hrest rest (List.prefix_refl rest) s hs) hstep).mpr (hevent s hs)
      · exact hrest before hcut s' hs'

section Examples

/-- A read asks a question, and the chosen option executes a second read. -/
def askedAndResolved : List TurnEvent :=
  [.turn (.runAssistant ⟨some "my tags"⟩) (List.replicate 33 (tagReads (.clarification 7 1)))
      true 0,
    .turn (.resolveOption ⟨7, "clockify_list_tags", .obj []⟩) (List.replicate 25 prose) true 1]

/-- The run makes two model calls and its rows add up to three. -/
theorem run_telemetry_counts_twice :
    ¬ ∀ events s, runTelemetry tagScope events = some s → s.Conserved := by
  intro h
  have hcounts : (runTelemetry tagScope askedAndResolved).map (fun s =>
      ((buildUsageMetrics s.telemetry 0).usage.modelCalls, s.world.usage.modelCalls)) =
      some (3, 2) := by decide +kernel
  obtain ⟨s, hs, heq⟩ := Option.map_eq_some_iff.mp hcounts
  rw [h _ s hs 0] at heq
  have := Prod.mk.inj heq
  omega

end Examples

end ClockifyAssistant
