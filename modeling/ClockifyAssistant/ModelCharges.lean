import Mathlib.Algebra.Group.Prod
import ClockifyAssistant.RunCeilings

/-!
The charges of a model call. Each attempt at the provider is due its usage, or an
estimate; what reaches the durable run is compared with what is due once the runner has
dealt with the outcome of the call.
-/
namespace ClockifyAssistant

open Lib RunnerProcess RunService
open Fallible hiding perform

/-- Prompt, completion and estimated tokens. -/
abbrev TokenCharge : Type := ℕ × ℕ × ℕ

def RunState.Budget.charged (budget : RunState.Budget) : TokenCharge :=
  (budget.promptTokensUsed, budget.completionTokensUsed, budget.estimatedTokensUsed)

/-- The token counters of the durable run. -/
def RunWorld.charged (w : RunWorld) : TokenCharge :=
  (w.run.map fun run => run.budget.charged).getD 0

def RunAct.attempt? : RunAct → Option ProviderAttempt
  | .attempt made => some made
  | _ => none

/-- The attempts made between two points of a run. -/
def attemptsSince (w w' : RunWorld) : List ProviderAttempt :=
  (w'.acts.drop w.acts.length).filterMap RunAct.attempt?

/-- What a failed attempt has reserved, for a request of so many bytes. -/
def reservedTokens (budget : RunState.Budget) (requestBytes : Nat) : Nat :=
  match preflightModelRequest budget requestBytes with
  | none => 0
  | some preflight => preflight.inputReserve + preflight.maxOutputTokens

/-- The usage that an answer reports, where it is valid, else the size of request and answer;
the reservation for a failed attempt. -/
def dueCharge (requestBytes reserved : Nat) : ProviderAttempt → TokenCharge
  | .answered completion =>
      match completion.usage.bind TokenUsage.safeUsage with
      | some usage => (usage.promptTokens, usage.completionTokens, 0)
      | none => (0, 0, requestBytes + completion.responseBytes)
  | .transient => (0, 0, reserved)
  | .failed _ => (0, 0, reserved)

/-- The run has been charged for each attempt, and for nothing else. -/
def ChargedOnce (requestBytes reserved : Nat) (w w' : RunWorld) : Prop :=
  w'.charged = w.charged + ((attemptsSince w w').map (dueCharge requestBytes reserved)).sum

/-- The call made no attempt, or its last one was answered with a usage that the event of the
completed call can carry: none, or counts that are nonnegative integers. -/
def CallAnswered (attempts : List ProviderAttempt) : Prop :=
  attempts = [] ∨ ∃ completion, attempts.getLast? = some (.answered completion) ∧
    completion.usage.all TokenUsage.parses = true

/-- A copy of the run with the results and tokens of the row. -/
structure FreshCopy (w : RunWorld) (state : RunState) : Prop where
  row : ∃ run, w.run = some run ∧ run.completedResults = state.completedResults ∧
    run.budget.charged = state.budget.charged

section Usage

theorem ReportedCount.parses_of_safe {count : ReportedCount} {n : Nat}
    (h : count.safe? = some n) : count.parses = true := by
  cases count with
  | infinite => cases h
  | finite value =>
    simp only [safe?] at h
    split at h
    · rename_i hsafe
      have hnonneg : 0 ≤ value := Rat.num_nonneg.mp hsafe.2.1
      simp [parses, isInteger, nonnegative, hsafe.1, hnonneg]
    · cases h

theorem TokenUsage.parses_of_safe {usage : TokenUsage} {charge : ProviderUsageCharge}
    (h : usage.safeUsage = some charge) : usage.parses = true := by
  unfold safeUsage at h
  split at h
  · rename_i hprompt hcompletion
    rw [parses, ReportedCount.parses_of_safe hprompt, ReportedCount.parses_of_safe hcompletion]
    rfl
  · cases h

variable {requestBytes reserved : Nat}

theorem dueCharge_pos (hreserved : 0 < reserved) {attempt : ProviderAttempt}
    (h : ∀ completion, attempt = .answered completion →
      completion.usage.all TokenUsage.parses = false) :
    0 < (dueCharge requestBytes reserved attempt).2.2 := by
  cases attempt with
  | transient => exact hreserved
  | failed e => exact hreserved
  | answered completion =>
    have hrejected := h completion rfl
    have hunsafe : completion.usage.bind TokenUsage.safeUsage = none := by
      cases husage : completion.usage with
      | none => rfl
      | some usage =>
        rw [husage] at hrejected
        cases hsafe : usage.safeUsage with
        | none => exact hsafe
        | some charge =>
          have hparses := TokenUsage.parses_of_safe hsafe
          simp only [Option.all_some] at hrejected
          rw [hparses] at hrejected
          cases hrejected
    simp only [dueCharge, hunsafe]
    have := completion.responseBytes.pos
    omega

theorem dueCharges_ne_zero (hreserved : 0 < reserved) {attempts : List ProviderAttempt}
    (h : ¬ CallAnswered attempts) : (attempts.map (dueCharge requestBytes reserved)).sum ≠ 0 := by
  rw [CallAnswered, not_or] at h
  obtain ⟨init, last, hattempts⟩ := (List.eq_nil_or_concat attempts).resolve_left h.1
  rw [List.concat_eq_append] at hattempts
  subst hattempts
  have hlast : 0 < (dueCharge requestBytes reserved last).2.2 := by
    refine dueCharge_pos hreserved ?_
    rintro completion rfl
    rw [← Bool.not_eq_true]
    intro hparses
    exact h.2 ⟨completion, by simp, hparses⟩
  intro hzero
  rw [List.map_append, List.sum_append, List.map_singleton, List.sum_singleton] at hzero
  have hestimate := congrArg (fun charge => charge.2.2) hzero
  simp only [Prod.snd_add, Prod.snd_zero] at hestimate
  omega

end Usage

section Calls

/-- A point of a call: the attempts made since its start, the results of the row and what the
row has been charged. -/
structure CallPoint (start : RunWorld) (results : List CompletedToolResult)
    (attempts : List ProviderAttempt) (charged : TokenCharge) (w : RunWorld) : Prop where
  row : ∃ run, w.run = some run ∧ run.completedResults = results ∧ run.budget.charged = charged
  acts : w.acts = start.acts ++ attempts.map RunAct.attempt

/-- A copy of the run with these results and charges. -/
def CopyOf (results : List CompletedToolResult) (charged : TokenCharge) (state : RunState) : Prop :=
  state.completedResults = results ∧ state.budget.charged = charged

variable {scope : RunnerScope} {start w : RunWorld} {results : List CompletedToolResult}
  {attempts : List ProviderAttempt} {charged charged' : TokenCharge} {state : RunState}

/-- The assertions of this section hold of processes in any world. -/
abbrev CallSafe {α : Type} (scope : RunnerScope) (m : RunnerProcess α) (Q : α → RunWorld → Prop)
    (E : RunError → RunWorld → Prop) (w : RunWorld) : Prop :=
  SafeE (M := runController scope) (Spec.unguarded (runController scope)) m Q E w

variable {E : RunError → RunWorld → Prop}

theorem callSafe_look {o : RunnerOp} (h : CallPoint start results attempts charged w)
    (hlooks : ∀ env, ∃ value, RunnerOp.exec env w o = (.ok value, w)) :
    CallSafe scope (perform o) (fun _ => CallPoint start results attempts charged) E w := by
  refine safeE_perform rfl trivial fun env _ => ?_
  obtain ⟨value, hexec⟩ := hlooks env
  show Meets (M := runController scope) _ _ (RunnerOp.exec env w o).1 (RunnerOp.exec env w o).2
  rw [hexec]
  exact h

theorem callSafe_reload (h : CallPoint start results attempts charged w) (fallback : RunState) :
    CallSafe scope (reload fallback) (fun fresh w' =>
      CallPoint start results attempts charged w' ∧ CopyOf results charged fresh) E w := by
  obtain ⟨run, hrun, hcopy⟩ := h.row
  have hget : CallSafe scope (perform .getRun) (fun run' w' => run' = some run ∧ w' = w) E w :=
    safeE_perform rfl trivial fun env _ => ⟨hrun, rfl⟩
  refine safeE_bind hget ?_
  rintro _ _ ⟨rfl, rfl⟩
  exact safeE_pure ⟨h, hcopy⟩

theorem linkResults_copy {run : RunState} (hrun : run.completedResults = results)
    (hstate : state.completedResults = results) :
    linkResults run.completedResults state.completedResults = .ok results := by
  rw [hrun, hstate]
  exact linkResults_self results

theorem callSafe_saveRun (h : CallPoint start results attempts charged w)
    (hstate : CopyOf results charged' state) : CallSafe scope (perform (.saveRun state))
      (fun _ => CallPoint start results attempts charged') E w := by
  obtain ⟨run, hrun, hresults, -⟩ := h.row
  have hexec : w.saveRun state = (.ok (), { w with run := some (run.written state results) }) := by
    unfold RunWorld.saveRun
    rw [hrun]
    dsimp only
    rw [linkResults_copy hresults hstate.1]
  refine safeE_perform rfl trivial fun env _ => ?_
  show Meets (M := runController scope) _ _ (w.saveRun state).1 (w.saveRun state).2
  rw [hexec]
  exact ⟨⟨_, rfl, rfl, hstate.2⟩, h.acts⟩

theorem callSafe_commitEvent {event : RunnerEvent}
    (h : CallPoint start results attempts charged w) (hstate : CopyOf results charged' state) :
    CallSafe scope (commitEvent state event)
      (fun _ w' => CallPoint start results attempts charged' w' ∧ event.parses = true)
      (fun _ w' => CallPoint start results attempts charged w' ∧ event.parses = false) w := by
  obtain ⟨run, hrun, hresults, -⟩ := h.row
  refine safeE_perform rfl trivial fun env _ => ?_
  show Meets (M := runController scope) _ _ (w.commitStateEvents state [event]).1
    (w.commitStateEvents state [event]).2
  cases hparses : event.parses with
  | false =>
    have hexec : w.commitStateEvents state [event] = (.error .invalidEventPayload, w) := by
      simp [RunWorld.commitStateEvents, hparses]
    rw [hexec]
    exact ⟨h, rfl⟩
  | true =>
    have hexec : w.commitStateEvents state [event] =
        (.ok (), { w with run := some (run.written state results)
                          events := w.events ++ [event] }) := by
      simp [RunWorld.commitStateEvents, hparses, hrun, linkResults_copy hresults hstate.1]
    rw [hexec]
    exact ⟨⟨⟨_, rfl, rfl, hstate.2⟩, h.acts⟩, rfl⟩

theorem callSafe_fetch (h : CallPoint start results attempts charged w) :
    CallSafe scope (perform .fetch)
      (fun attempt => CallPoint start results (attempts ++ [attempt]) charged) E w := by
  obtain ⟨run, hrun, hcopy⟩ := h.row
  refine safeE_perform rfl trivial fun env _ => ?_
  refine ⟨⟨env.others.apply run, ?_, hcopy⟩, ?_⟩
  · show w.run.map env.others.apply = _
    rw [hrun]
    rfl
  · show w.acts ++ [.attempt env.attempt] = _
    rw [h.acts, List.append_assoc, List.map_append]
    rfl

theorem callSafe_reserveModelCall (h : CallPoint start results attempts charged w)
    (hstate : CopyOf results charged state) (modelCall providerAttempt : Nat) :
    CallSafe scope (reserveModelCall state modelCall providerAttempt)
      (fun _ w' => CallPoint start results attempts charged w' ∧ 0 < modelCall)
      (fun _ => CallPoint start results attempts charged) w := by
  have hreserved : CopyOf results charged { state with
      budget := if providerAttempt = 1 then
          { state.budget with modelCallsUsed := state.budget.modelCallsUsed + 1 }
        else state.budget
      phase := .model } := by
    refine ⟨hstate.1, ?_⟩
    dsimp only
    split <;> exact hstate.2
  refine SafeE.mono (callSafe_commitEvent h hreserved) ?_ ?_
  · intro _ w' hafter
    have hparses := hafter.2
    simp only [RunnerEvent.parses, Bool.and_eq_true, decide_eq_true_eq] at hparses
    exact ⟨hafter.1, hparses.1.1⟩
  · intro _ w' hafter
    exact hafter.1

variable {preflight : ModelPreflight}

theorem charged_failed (budget : RunState.Budget) (inputReserve maxOutputTokens : Nat) :
    (chargeFailedModelAttempt budget inputReserve maxOutputTokens).charged =
      budget.charged + (0, 0, inputReserve + maxOutputTokens) := by
  simp [RunState.Budget.charged, chargeFailedModelAttempt, Nat.add_assoc]

theorem charged_successful (budget : RunState.Budget) (completion : ToolCompletion)
    (requestBytes reserved : Nat) :
    (chargeSuccessfulModelAttempt budget (completion.usage.bind TokenUsage.safeUsage) requestBytes
      completion.responseBytes).charged =
      budget.charged + dueCharge requestBytes reserved (.answered completion) := by
  cases husage : completion.usage.bind TokenUsage.safeUsage with
  | none => simp [RunState.Budget.charged, chargeSuccessfulModelAttempt, dueCharge, husage]
  | some usage => simp [RunState.Budget.charged, chargeSuccessfulModelAttempt, dueCharge, husage]

theorem callSafe_chargeAttemptFailure (h : CallPoint start results attempts charged w) :
    CallSafe scope (chargeAttemptFailure state preflight) (fun _ => CallPoint start results attempts
        (charged + (0, 0, preflight.inputReserve + preflight.maxOutputTokens))) E w := by
  refine safeE_bind (callSafe_reload h state) ?_
  intro fresh w₁ h₁
  have hcharged : CopyOf results
      (charged + (0, 0, preflight.inputReserve + preflight.maxOutputTokens))
      { fresh with
        budget := chargeFailedModelAttempt fresh.budget preflight.inputReserve
          preflight.maxOutputTokens } := by
    refine ⟨h₁.2.1, ?_⟩
    rw [charged_failed, h₁.2.2]
  refine safeE_bind (callSafe_saveRun h₁.1 hcharged) ?_
  intro _ w₂ h₂
  exact safeE_pure h₂

theorem callSafe_onProviderAttempt2 (h : CallPoint start results attempts charged w)
    (modelCall : Nat) : CallSafe scope (onProviderAttempt2 state preflight modelCall)
      (fun _ => CallPoint start results attempts
        (charged + (0, 0, preflight.inputReserve + preflight.maxOutputTokens)))
      (fun _ w' => ∃ charged', CallPoint start results attempts charged' w') w := by
  refine safeE_bind (callSafe_chargeAttemptFailure h) ?_
  intro fresh w₁ h₁
  refine safeE_bind (callSafe_reload h₁ fresh) ?_
  intro copy w₂ h₂
  refine SafeE.mono (callSafe_reserveModelCall h₂.1 h₂.2 modelCall 2) ?_ ?_
  · intro _ w' hafter
    exact hafter.1
  · intro _ w' hafter
    exact ⟨_, hafter⟩

/-- The call has made its last attempt, which was answered and is still to be charged. -/
def AnsweredAt (start : RunWorld) (results : List CompletedToolResult) (charged : TokenCharge)
    (due : ProviderAttempt → TokenCharge) (completion : ToolCompletion) (w : RunWorld) : Prop :=
  ∃ before, CallPoint start results (before ++ [.answered completion])
    (charged + (before.map due).sum) w

/-- The call was answered and each attempt is charged. -/
def DoneAt (start : RunWorld) (results : List CompletedToolResult) (charged : TokenCharge)
    (due : ProviderAttempt → TokenCharge) (w : RunWorld) : Prop :=
  ∃ attempts, CallPoint start results attempts (charged + (attempts.map due).sum) w ∧
    CallAnswered attempts

/-- The call throws, with whatever has reached the row. -/
def FailedAt (start : RunWorld) (results : List CompletedToolResult)
    (due : ProviderAttempt → TokenCharge) (w : RunWorld) : Prop :=
  ∃ attempts charged, CallPoint start results attempts charged w ∧
    (CallAnswered attempts ↔ (attempts.map due).sum = 0)

theorem FailedAt.of_unattempted {due : ProviderAttempt → TokenCharge}
    (h : CallPoint start results [] charged w) : FailedAt start results due w :=
  ⟨[], charged, h, ⟨fun _ => rfl, fun _ => Or.inl rfl⟩⟩

theorem FailedAt.of_unanswered {requestBytes reserved : Nat} (hreserved : 0 < reserved)
    (h : CallPoint start results attempts charged w) (hbad : ¬ CallAnswered attempts) :
    FailedAt start results (dueCharge requestBytes reserved) w :=
  ⟨attempts, charged, h, ⟨fun hgood => absurd hgood hbad,
    fun hzero => absurd hzero (dueCharges_ne_zero hreserved hbad)⟩⟩

theorem not_answered_concat {last : ProviderAttempt}
    (h : ∀ completion, last = .answered completion →
      completion.usage.all TokenUsage.parses = false) : ¬ CallAnswered (attempts ++ [last]) := by
  rintro (hnil | ⟨completion, hlast, hparses⟩)
  · simp at hnil
  · rw [List.getLast?_concat] at hlast
    rw [h completion (Option.some.inj hlast)] at hparses
    cases hparses

end Calls

section Attempts

variable {scope : RunnerScope} {start w : RunWorld} {results : List CompletedToolResult}
  {charged : TokenCharge} {state : RunState} {preflight : ModelPreflight}

/-- What an attempt of this call is due. -/
abbrev callDue (preflight : ModelPreflight) : ProviderAttempt → TokenCharge :=
  dueCharge preflight.inputReserve (preflight.inputReserve + preflight.maxOutputTokens)

theorem callSafe_secondAttempt {attempts : List ProviderAttempt}
    (h : CallPoint start results attempts charged w) : CallSafe scope secondAttempt
      (fun completion => CallPoint start results (attempts ++ [.answered completion]) charged)
      (fun _ w' => ∃ last, CallPoint start results (attempts ++ [last]) charged w' ∧
        ∀ completion, last ≠ .answered completion) w := by
  refine safeE_bind (callSafe_fetch h) ?_
  intro attempt w' h'
  cases attempt with
  | answered completion => exact safeE_pure h'
  | transient => exact safeE_throw ⟨.transient, h', nofun⟩
  | failed e => exact safeE_throw ⟨.failed e, h', nofun⟩

theorem callSafe_firstAttempt (h : CallPoint start results [] charged w) :
    CallSafe scope firstAttempt (fun attempt => CallPoint start results [attempt] charged)
      (fun _ => CallPoint start results [] charged) w := by
  refine safeE_bind (callSafe_look h fun env => ⟨env.aborted, rfl⟩) ?_
  intro aborted w₁ h₁
  cases aborted with
  | true => exact safeE_throw h₁
  | false => exact callSafe_fetch h₁

theorem callSafe_retryBackoff {attempts : List ProviderAttempt}
    (h : CallPoint start results attempts charged w) :
    CallSafe scope retryBackoff (fun _ => CallPoint start results attempts charged)
      (fun _ => CallPoint start results attempts charged) w := by
  refine safeE_bind (callSafe_look h fun env => ⟨env.aborted, rfl⟩) ?_
  intro aborted w₁ h₁
  cases aborted with
  | true => exact safeE_throw h₁
  | false => exact safeE_pure h₁

variable {E : RunError → RunWorld → Prop}

theorem callSafe_completeWithTools
    (hreserved : 0 < preflight.inputReserve + preflight.maxOutputTokens)
    (h : CallPoint start results [] charged w) (modelCall : Nat) :
    CallSafe scope (completeWithTools state preflight modelCall)
      (fun answer w' => (answer.1 = 1 ∨ answer.1 = 2) ∧ Meets (M := runController scope)
        (AnsweredAt start results charged (callDue preflight))
        (fun _ => FailedAt start results (callDue preflight)) answer.2 w') E w := by
  have hbad : ∀ (attempts : List ProviderAttempt) {last : ProviderAttempt} {c : TokenCharge}
      {w' : RunWorld}, CallPoint start results (attempts ++ [last]) c w' →
      (∀ completion, last ≠ .answered completion) →
      FailedAt start results (callDue preflight) w' := by
    intro attempts last c w' hpoint hlast
    refine FailedAt.of_unanswered hreserved hpoint (not_answered_concat ?_)
    intro completion heq
    exact absurd heq (hlast completion)
  refine safeE_bind (safeE_attempted (callSafe_firstAttempt h)) ?_
  intro first w₁ h₁
  cases first with
  | error e => exact safeE_pure ⟨Or.inl rfl, FailedAt.of_unattempted h₁⟩
  | ok attempt =>
    cases attempt with
    | answered completion =>
      refine safeE_pure ⟨Or.inl rfl, [], ?_⟩
      rw [List.map_nil, List.sum_nil, add_zero]
      exact h₁
    | failed e => exact safeE_pure ⟨Or.inl rfl, hbad [] h₁ nofun⟩
    | transient =>
      refine safeE_bind (safeE_attempted (callSafe_retryBackoff h₁)) ?_
      intro backoff w₂ h₂
      cases backoff with
      | error e => exact safeE_pure ⟨Or.inl rfl, hbad [] h₂ nofun⟩
      | ok _ =>
        have hsecond : CallSafe scope (do
            onProviderAttempt2 state preflight modelCall
            secondAttempt)
            (AnsweredAt start results charged (callDue preflight))
            (fun _ => FailedAt start results (callDue preflight)) w₂ := by
          refine safeE_bind (SafeE.mono (callSafe_onProviderAttempt2 h₂ modelCall)
            (fun _ _ h' => h') ?_) ?_
          · rintro e w' ⟨charged', hpoint⟩
            exact hbad [] hpoint nofun
          · intro _ w₃ h₃
            refine SafeE.mono (callSafe_secondAttempt h₃) ?_ ?_
            · intro completion w' hpoint
              exact ⟨[.transient], hpoint⟩
            · rintro e w' ⟨last, hpoint, hlast⟩
              exact hbad _ hpoint hlast
        refine safeE_bind (safeE_attempted hsecond) ?_
        intro second w₃ h₃
        exact safeE_pure ⟨Or.inr rfl, h₃⟩

/-- The answer is charged unless its usage keeps the event of the completed call out. -/
theorem callSafe_completeModelCall {completion : ToolCompletion} {modelCall providerAttempts : Nat}
    (hreserved : 0 < preflight.inputReserve + preflight.maxOutputTokens)
    (h : AnsweredAt start results charged (callDue preflight) completion w)
    (hmodelCall : 0 < modelCall) (hattempts : providerAttempts = 1 ∨ providerAttempts = 2)
    (started : Nat) :
    CallSafe scope (completeModelCall state modelCall providerAttempts preflight.inputReserve
        started completion) (fun _ => DoneAt start results charged (callDue preflight))
      (fun _ => FailedAt start results (callDue preflight)) w := by
  obtain ⟨before, hpoint⟩ := h
  refine safeE_bind (callSafe_reload hpoint state) ?_
  intro fresh w₁ h₁
  refine safeE_bind (callSafe_look h₁.1 fun env => ⟨env.clock, rfl⟩) ?_
  intro now w₂ h₂
  have hcharged : CopyOf results
      (charged + ((before ++ [ProviderAttempt.answered completion]).map (callDue preflight)).sum)
      { fresh with
        budget := chargeSuccessfulModelAttempt fresh.budget
          (completion.usage.bind TokenUsage.safeUsage) preflight.inputReserve
          completion.responseBytes } := by
    refine ⟨h₁.2.1, ?_⟩
    rw [charged_successful _ _ _ (preflight.inputReserve + preflight.maxOutputTokens), h₁.2.2,
      List.map_append, List.sum_append, List.map_singleton, List.sum_singleton, add_assoc]
  have hparses : (RunnerEvent.modelCompleted modelCall providerAttempts completion.usage
      (now - started)).parses = completion.usage.all TokenUsage.parses := by
    rcases hattempts with rfl | rfl <;> simp [RunnerEvent.parses, hmodelCall]
  refine safeE_bind (SafeE.mono (callSafe_commitEvent h₂ hcharged) (fun _ _ h' => h') ?_) ?_
  · rintro e w' ⟨hpoint', hrejected⟩
    refine FailedAt.of_unanswered hreserved hpoint' (not_answered_concat ?_)
    rintro _ heq
    cases heq
    rw [← hparses]
    exact hrejected
  · rintro _ w₃ ⟨h₃, haccepted⟩
    refine safeE_bind (callSafe_reload h₃ _) ?_
    intro _ w₄ h₄
    refine safeE_pure ⟨_, h₄.1, Or.inr ⟨completion, List.getLast?_concat, ?_⟩⟩
    rw [← hparses]
    exact haccepted

/-- The charge after an exception changes nothing that the failure rests on. -/
theorem callSafe_chargeException (h : FailedAt start results (callDue preflight) w)
    (providerAttempts : Nat) : CallSafe scope (chargeException state preflight providerAttempts)
      (fun _ => FailedAt start results (callDue preflight)) E w := by
  obtain ⟨attempts, c, hpoint, hdue⟩ := h
  refine safeE_bind (callSafe_reload hpoint state) ?_
  intro fresh w₁ h₁
  dsimp only
  split
  · exact safeE_pure ⟨attempts, c, h₁.1, hdue⟩
  · refine safeE_bind (callSafe_chargeAttemptFailure h₁.1) ?_
    intro _ w₂ h₂
    exact safeE_pure ⟨attempts, _, h₂, hdue⟩

theorem callSafe_chargeWallTime {attempts : List ProviderAttempt}
    (h : CallPoint start results attempts charged w) (started : Nat) :
    CallSafe scope (chargeWallTime state started)
      (fun _ => CallPoint start results attempts charged) E w := by
  refine safeE_bind (callSafe_reload h state) ?_
  intro fresh w₁ h₁
  refine safeE_bind (callSafe_look h₁.1 fun env => ⟨env.clock, rfl⟩) ?_
  intro now w₂ h₂
  refine callSafe_saveRun h₂ ?_
  exact ⟨h₁.2.1, h₁.2.2⟩

theorem callSafe_finishCall {modelCall : Nat} {answer : Nat × Except RunError ToolCompletion}
    (hreserved : 0 < preflight.inputReserve + preflight.maxOutputTokens)
    (hmodelCall : 0 < modelCall) (hattempts : answer.1 = 1 ∨ answer.1 = 2)
    (h : Meets (M := runController scope) (AnsweredAt start results charged (callDue preflight))
      (fun _ => FailedAt start results (callDue preflight)) answer.2 w)
    (started : Nat) :
    CallSafe scope (finishCall state preflight modelCall preflight.inputReserve started answer)
      (fun ended w' => Meets (M := runController scope)
        (fun _ => DoneAt start results charged (callDue preflight))
        (fun _ => FailedAt start results (callDue preflight)) ended w') E w := by
  have hcharge : CallSafe scope (chargeAnswer state modelCall preflight.inputReserve started answer)
      (fun charge w' => Meets (M := runController scope)
        (fun _ => DoneAt start results charged (callDue preflight))
        (fun _ => FailedAt start results (callDue preflight)) charge w') E w := by
    obtain ⟨providerAttempts, result⟩ := answer
    cases result with
    | error e => exact safeE_pure h
    | ok completion =>
      exact safeE_attempted (callSafe_completeModelCall hreserved h hmodelCall hattempts started)
  refine safeE_bind hcharge ?_
  intro charge w₁ h₁
  cases charge with
  | ok completion => exact safeE_pure h₁
  | error e =>
    refine safeE_bind (safeE_attempted (callSafe_chargeException h₁ answer.1
      (E := fun _ => FailedAt start results (callDue preflight)))) ?_
    intro ended w₂ h₂
    cases ended with
    | ok _ => exact safeE_pure h₂
    | error e' => exact safeE_pure h₂

theorem callSafe_callReserved {modelCall : Nat}
    (hreserved : 0 < preflight.inputReserve + preflight.maxOutputTokens)
    (hmodelCall : 0 < modelCall) (h : CallPoint start results [] charged w) :
    CallSafe scope (callReserved state preflight modelCall preflight.inputReserve)
      (fun _ => DoneAt start results charged (callDue preflight))
      (fun _ => FailedAt start results (callDue preflight)) w := by
  refine safeE_bind (callSafe_reload h state) ?_
  intro fresh w₁ h₁
  refine safeE_bind (callSafe_look h₁.1 fun env => ⟨env.clock, rfl⟩) ?_
  intro started w₂ h₂
  refine safeE_bind (callSafe_completeWithTools hreserved h₂ modelCall) ?_
  rintro answer w₃ ⟨hattempts, h₃⟩
  refine safeE_bind (callSafe_finishCall hreserved hmodelCall hattempts h₃ started) ?_
  intro ended w₄ h₄
  cases ended with
  | ok completion =>
    obtain ⟨attempts, hpoint, hanswered⟩ := h₄
    refine safeE_bind (callSafe_chargeWallTime hpoint started) ?_
    intro _ w₅ h₅
    exact safeE_pure ⟨attempts, h₅, hanswered⟩
  | error e =>
    obtain ⟨attempts, c, hpoint, hdue⟩ := h₄
    refine safeE_bind (callSafe_chargeWallTime hpoint started) ?_
    intro _ w₅ h₅
    exact safeE_throw ⟨attempts, c, h₅, hdue⟩

end Attempts

section Step

variable {scope : RunnerScope} {start w w' : RunWorld} {results : List CompletedToolResult}
  {charged : TokenCharge} {state : RunState} {modelCall : Nat}

/-- The call once the size of its request is known. -/
def callSized (state : RunState) (modelCall requestBytes : Nat) : RunnerProcess ToolCompletion :=
  match preflightModelRequest state.budget requestBytes with
  | none => throw .tokenBudgetExhausted
  | some preflight => do
      reserveModelCall state modelCall 1
      callReserved state preflight modelCall requestBytes

theorem callSafe_callSized (h : CallPoint start results [] charged w)
    (hstate : CopyOf results charged state) (requestBytes : Nat) :
    CallSafe scope (callSized state modelCall requestBytes) (fun _ => DoneAt start results charged
        (dueCharge requestBytes (reservedTokens state.budget requestBytes)))
      (fun _ => FailedAt start results
        (dueCharge requestBytes (reservedTokens state.budget requestBytes))) w := by
  unfold callSized reservedTokens
  cases hpreflight : preflightModelRequest state.budget requestBytes with
  | none => exact safeE_throw (FailedAt.of_unattempted h)
  | some preflight =>
    have hbytes : preflight.inputReserve = requestBytes := by
      unfold preflightModelRequest at hpreflight
      dsimp only at hpreflight
      split at hpreflight
      · cases hpreflight
      · cases hpreflight
        rfl
    subst hbytes
    refine safeE_bind (SafeE.mono (callSafe_reserveModelCall h hstate modelCall 1)
      (fun _ _ h' => h') fun _ _ h' => FailedAt.of_unattempted h') ?_
    rintro _ w₁ ⟨h₁, hmodelCall⟩
    exact callSafe_callReserved (preflight_reserve_pos hpreflight) hmodelCall h₁

theorem modelFailureCode_bounded (e : RunError) :
    boundedString (Runner.modelFailureCode e) = true := by
  unfold Runner.modelFailureCode
  split <;> decide

/-- The row at the end of a call and what is due then. -/
def SettledAt (start : RunWorld) (results : List CompletedToolResult) (charged : TokenCharge)
    (due : ProviderAttempt → TokenCharge) (w : RunWorld) : Prop :=
  ∃ attempts charged', CallPoint start results attempts charged' w ∧
    (charged' = charged + (attempts.map due).sum ↔ CallAnswered attempts)

theorem callSafe_failRun {due : ProviderAttempt → TokenCharge}
    (h : FailedAt start results due w) (hstate : CopyOf results charged state) {code : String}
    (hcode : boundedString code = true) :
    CallSafe scope (failRun state code) (fun _ => SettledAt start results charged due)
      (fun _ => SettledAt start results charged due) w := by
  obtain ⟨attempts, c, hpoint, hdue⟩ := h
  have hcommit : CallSafe scope (commitEvent { state with phase := .failed } (.runFailed code))
      (fun _ => CallPoint start results attempts charged)
      (fun _ => SettledAt start results charged due) w := by
    have hfailed : CopyOf results charged { state with phase := .failed } := hstate
    refine SafeE.mono (callSafe_commitEvent hpoint hfailed) (fun _ _ h' => h'.1) ?_
    rintro _ w' ⟨-, hrejected⟩
    rw [RunnerEvent.parses, hcode] at hrejected
    cases hrejected
  refine safeE_bind hcommit ?_
  intro _ w₁ h₁
  refine safeE_bind (callSafe_reload h₁ state) ?_
  intro fresh w₂ h₂
  refine safeE_pure ⟨attempts, charged, h₂.1, ?_⟩
  rw [hdue]
  exact left_eq_add

/-- The model step of the runner once the size of the request is known. -/
def stepSized (state : RunState) (modelCall requestBytes : Nat) :
    RunnerProcess (Except RunOutcome ToolCompletion) := do
  match ← attempted (callSized state modelCall requestBytes) with
  | .ok completion => return .ok completion
  | .error e => return .error (← failRun state (Runner.modelFailureCode e))

theorem callSafe_stepSized (h : CallPoint start results [] charged w)
    (hstate : CopyOf results charged state) (requestBytes : Nat) :
    CallSafe scope (stepSized state modelCall requestBytes)
      (fun _ => SettledAt start results charged
        (dueCharge requestBytes (reservedTokens state.budget requestBytes)))
      (fun _ => SettledAt start results charged
        (dueCharge requestBytes (reservedTokens state.budget requestBytes))) w := by
  refine safeE_bind (safeE_attempted (callSafe_callSized h hstate requestBytes)) ?_
  intro answer w₁ h₁
  cases answer with
  | ok completion =>
    obtain ⟨attempts, hpoint, hanswered⟩ := h₁
    exact safeE_pure ⟨attempts, _, hpoint, ⟨fun _ => hanswered, fun _ => rfl⟩⟩
  | error e =>
    refine safeE_bind (callSafe_failRun h₁ hstate (modelFailureCode_bounded e)) ?_
    intro outcome w₂ h₂
    exact safeE_pure h₂

theorem CallPoint.attemptsSince {attempts : List ProviderAttempt}
    (h : CallPoint start results attempts charged w) : attemptsSince start w = attempts := by
  unfold ClockifyAssistant.attemptsSince
  rw [h.acts, List.drop_left, List.filterMap_map]
  exact List.filterMap_some

theorem CallPoint.tokens {attempts : List ProviderAttempt}
    (h : CallPoint start results attempts charged w) : w.charged = charged := by
  obtain ⟨run, hrun, -, hcharged⟩ := h.row
  rw [RunWorld.charged, hrun]
  exact hcharged

end Step

/-- Whatever the provider answers, the durable counters grow by one charge for each attempt of
the model call exactly when the call made no attempt or its last one was answered with a
usage that its event can carry. Else the charges are lost: the one of a single failed
attempt with the copy it is made to, those of two attempts under the copy of the run with
which the runner fails it. -/
theorem model_attempt_charges {scope : RunnerScope} {w w' : RunWorld} {state : RunState}
    {modelCall : Nat} {env : RunnerEnv} {envs : List RunnerEnv}
    {result : Except RunError (Except RunOutcome ToolCompletion)} (hstate : FreshCopy w state)
    (hplay : Server.play (runController scope) (Runner.modelStep state modelCall).run
      (env :: envs) w = some (result, w')) :
    ChargedOnce env.requestBytes (reservedTokens state.budget env.requestBytes) w w' ↔
      CallAnswered (attemptsSince w w') := by
  obtain ⟨run, hrun, hresults, hcharged⟩ := hstate.row
  have hpoint : CallPoint w state.completedResults [] state.budget.charged w :=
    ⟨⟨run, hrun, hresults, hcharged⟩, (List.append_nil _).symm⟩
  have hsafe : CallSafe scope (stepSized state modelCall env.requestBytes) _ _ w :=
    callSafe_stepSized hpoint ⟨rfl, rfl⟩ env.requestBytes
  have hend := Safe.play (fun _ => rfl) hsafe (rfl.symm.trans hplay)
  have hsettled : SettledAt w state.completedResults state.budget.charged
      (dueCharge env.requestBytes (reservedTokens state.budget env.requestBytes)) w' := by
    cases result <;> exact hend
  obtain ⟨attempts, charged', hpoint', hdue⟩ := hsettled
  rw [ChargedOnce, hpoint'.attemptsSince, hpoint'.tokens, hpoint.tokens]
  exact hdue

section Examples

def firstState : RunState := Runner.freshState tagScope none

/-- A run that has just started. -/
def startedWorld : RunWorld where
  run := some firstState
  events := [.runStarted]
  acts := []

theorem startedWorld_fresh : FreshCopy startedWorld firstState := ⟨firstState, rfl, rfl, rfl⟩

def playFirst (envs : List RunnerEnv) :
    Option (Except RunError (Except RunOutcome ToolCompletion) × RunWorld) :=
  Server.play (runController tagScope) (Runner.modelStep firstState 1).run envs startedWorld

/-- What the first model step leaves charged and what its attempts are due, one by one. -/
def chargesAfter (envs : List RunnerEnv) : Option (TokenCharge × List TokenCharge) :=
  (playFirst envs).map fun r => (r.2.charged,
    (attemptsSince startedWorld r.2).map (dueCharge 0 (reservedTokens firstState.budget 0)))

theorem exists_of_chargesAfter {envs : List RunnerEnv} {charged : TokenCharge}
    {due : List TokenCharge} (h : chargesAfter envs = some (charged, due)) :
    ∃ result w', playFirst envs = some (result, w') ∧ w'.charged = charged ∧
      (attemptsSince startedWorld w').length = due.length ∧
      (ChargedOnce 0 (reservedTokens firstState.budget 0) startedWorld w' ↔ charged = due.sum) := by
  obtain ⟨⟨result, w'⟩, hplay, heq⟩ := Option.map_eq_some_iff.mp h
  cases heq
  refine ⟨result, w', hplay, rfl, List.length_map _ |>.symm, ?_⟩
  rw [ChargedOnce]
  exact Eq.congr_right (zero_add _)

/-- The provider turns the request away for now. -/
def overloaded : RunnerEnv where
  attempt := .transient

/-- After a failed attempt, and after two of them, the row has been charged nothing. -/
theorem model_charges_lost :
    (∃ result w', playFirst (List.replicate 12 outage) = some (result, w') ∧
      (attemptsSince startedWorld w').length = 1 ∧ w'.charged = 0 ∧
      ¬ ChargedOnce 0 (reservedTokens firstState.budget 0) startedWorld w') ∧
    ∃ result w', playFirst (List.replicate 20 overloaded) = some (result, w') ∧
      (attemptsSince startedWorld w').length = 2 ∧ w'.charged = 0 ∧
      ¬ ChargedOnce 0 (reservedTokens firstState.budget 0) startedWorld w' := by
  have hfailed : chargesAfter (List.replicate 12 outage) = some (0, [(0, 0, 8192)]) := by
    decide +kernel
  have hboth : chargesAfter (List.replicate 20 overloaded) =
      some (0, [(0, 0, 8192), (0, 0, 8192)]) := by
    decide +kernel
  constructor
  · obtain ⟨result, w', hplay, hcharged, hattempts, honce⟩ := exists_of_chargesAfter hfailed
    exact ⟨result, w', hplay, hattempts, hcharged, fun h => absurd (honce.mp h) (by decide)⟩
  · obtain ⟨result, w', hplay, hcharged, hattempts, honce⟩ := exists_of_chargesAfter hboth
    exact ⟨result, w', hplay, hattempts, hcharged, fun h => absurd (honce.mp h) (by decide)⟩

/-- A transient failure, then an answer without usage: the reservation and the estimate. -/
theorem model_attempt_charges_retried : ∃ result w',
    playFirst (List.replicate 7 overloaded ++ List.replicate 12 prose) = some (result, w') ∧
      w'.charged = (0, 0, 8193) ∧ CallAnswered (attemptsSince startedWorld w') := by
  have hretried : chargesAfter (List.replicate 7 overloaded ++ List.replicate 12 prose) =
      some ((0, 0, 8193), [(0, 0, 8192), (0, 0, 1)]) := by
    decide +kernel
  obtain ⟨result, w', hplay, hcharged, -, honce⟩ := exists_of_chargesAfter hretried
  exact ⟨result, w', hplay, hcharged,
    (model_attempt_charges startedWorld_fresh hplay).mp (honce.mpr (by decide))⟩

end Examples

end ClockifyAssistant
