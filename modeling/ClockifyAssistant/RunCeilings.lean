import ClockifyAssistant.RunAccounts

/-!
The ceilings of a run: whatever the model asks for, however its calls end and wherever an
invocation stops, the durable counters stay within their limits and agree with what the
run has started.
-/
namespace ClockifyAssistant

open Lib RunnerProcess RunService
open Fallible hiding perform

section Services

variable {scope : RunnerScope} {w : RunWorld} {calls : Nat} {base state : RunState}

/-- The copy stays current, whether the process returns or throws. -/
def KeepsCurrent (scope : RunnerScope) {α : Type} (calls : Nat) (state : RunState)
    (m : RunnerProcess α) : Prop :=
  ∀ w, Current calls state w →
    SafeE (S := accounts scope) m (fun _ => Current calls state) (fun _ => Current calls state) w

variable {α : Type}

theorem keepsCurrent_pure (a : α) : KeepsCurrent scope calls state (pure a) :=
  fun _ h => safeE_pure h

theorem keepsCurrent_throw (e : RunError) :
    KeepsCurrent scope calls state (throw e : RunnerProcess α) :=
  fun _ h => safeE_throw h

theorem keepsCurrent_bind {α β : Type} {m : RunnerProcess α} {f : α → RunnerProcess β}
    (hm : KeepsCurrent scope calls state m) (hf : ∀ a, KeepsCurrent scope calls state (f a)) :
    KeepsCurrent scope calls state (m >>= f) :=
  fun w h => safeE_bind (hm w h) fun a w' h' => hf a w' h'

theorem keepsCurrent_quiet {o : RunnerOp} (ho : o.quiet = true) :
    KeepsCurrent scope calls state (perform o) :=
  fun _ h => safeE_quiet ho h

theorem KeepsCurrent.yields {V : α → Prop} {m : RunnerProcess α}
    (hm : KeepsCurrent scope calls state m) (hV : ∀ a, V a) :
    Yields (accounts scope) (Current calls state) V m :=
  fun w h => (hm w h).weaken fun a _ h' => ⟨hV a, h'⟩

theorem keepsCurrent_of_yields {V : α → Prop} {m : RunnerProcess α}
    (hm : Yields (accounts scope) (Current calls state) V m) : KeepsCurrent scope calls state m :=
  fun w h => (hm w h).weaken fun _ _ h' => h'.2

theorem keepsCurrent_attempted {m : RunnerProcess α}
    (hm : KeepsCurrent scope calls state m) : KeepsCurrent scope calls state (attempted m) := by
  intro w h
  refine SafeE.weaken (safeE_attempted (hm w h)) ?_
  intro r w' hr
  cases r with
  | ok a => exact hr
  | error e => exact hr

variable {state' : RunState}

theorem Current.of_same (hsame : SameAccounts state state')
    (h : Current calls state' w) : Current calls state w :=
  h.congr hsame.symm

theorem keepsCurrent_reload {fallback : RunState} {f : RunState → RunnerProcess α}
    (hf : ∀ state', SameAccounts state state' → KeepsCurrent scope calls state (f state')) :
    KeepsCurrent scope calls state (reload fallback >>= f) := by
  intro w h
  refine safeE_bind (safeE_reload h fallback) ?_
  intro state' w' hreload
  exact hf state' hreload.2 w' (hreload.1.of_same hreload.2)

theorem keepsCurrent_saveRun (hsame : SameAccounts state state') :
    KeepsCurrent scope calls state (perform (.saveRun state')) := by
  intro w h
  refine SafeE.mono (safeE_saveRun (h.congr hsame) (E := fun _ => Current calls state)) ?_ ?_
  · intro _ w' h'
    exact h'.of_same hsame
  · intro e w' h'
    exact h'

theorem keepsCurrent_commitEvent {event : RunnerEvent}
    (hsame : SameAccounts state state') (hmodels : event.startsModelCall = false)
    (hsearches : event.startsSearch = false) (hreads : event.startsRead = false) :
    KeepsCurrent scope calls state (commitEvent state' event) := by
  intro w h
  refine SafeE.mono (safeE_commitEvent h (Or.inl hsame.results.symm) hmodels hsearches hreads
    ⟨hsame.models.symm, hsame.searches.symm, hsame.calls.symm⟩) ?_ ?_
  · intro _ w' h'
    exact h'.of_same hsame
  · intro e w' h'
    exact h'.1

/-- A write of the copy itself keeps the accounts, whatever else of the budget it changes. -/
theorem sameAccounts_budget {state state' : RunState} (h : SameAccounts state state')
    {budget : RunState.Budget} (hmodels : budget.modelCallsUsed = state'.budget.modelCallsUsed)
    (hsearches : budget.discoveryCallsUsed = state'.budget.discoveryCallsUsed)
    (hcalls : budget.apiCallsUsed = state'.budget.apiCallsUsed) :
    SameAccounts state { state' with budget } :=
  ⟨h.results, h.models.trans hmodels.symm, h.searches.trans hsearches.symm,
    h.calls.trans hcalls.symm⟩

theorem keepsCurrent_chargeAttemptFailure (fallback : RunState) (preflight : ModelPreflight) :
    KeepsCurrent scope calls state (chargeAttemptFailure fallback preflight) := by
  refine keepsCurrent_reload fun fresh hfresh => ?_
  refine keepsCurrent_bind (keepsCurrent_saveRun ?_) fun _ => keepsCurrent_pure _
  exact sameAccounts_budget hfresh rfl rfl rfl

theorem keepsCurrent_reserveSecond (hsame : SameAccounts state state')
    (modelCall : Nat) : KeepsCurrent scope calls state (reserveModelCall state' modelCall 2) := by
  refine keepsCurrent_commitEvent ?_ rfl rfl rfl
  exact ⟨hsame.results, hsame.models, hsame.searches, hsame.calls⟩

theorem keepsCurrent_onProviderAttempt2 (fallback : RunState) (preflight : ModelPreflight)
    (modelCall : Nat) :
    KeepsCurrent scope calls state (onProviderAttempt2 fallback preflight modelCall) := by
  refine keepsCurrent_bind (keepsCurrent_chargeAttemptFailure fallback preflight) fun _ => ?_
  exact keepsCurrent_reload fun _ hfresh => keepsCurrent_reserveSecond hfresh modelCall

theorem keepsCurrent_completeWithTools (fallback : RunState) (preflight : ModelPreflight)
    (modelCall : Nat) :
    KeepsCurrent scope calls state (completeWithTools fallback preflight modelCall) := by
  exact keepsCurrent_of_yields (yields_completeWithTools (V := fun _ => True)
    ((keepsCurrent_quiet rfl).yields fun _ => trivial)
    ((keepsCurrent_quiet rfl).yields fun _ _ _ => trivial)
    ((keepsCurrent_onProviderAttempt2 fallback preflight modelCall).yields fun _ => trivial))

theorem keepsCurrent_completeModelCall (fallback : RunState)
    (modelCall providerAttempts requestBytes started : Nat) (completion : ToolCompletion) :
    KeepsCurrent scope calls state
      (completeModelCall fallback modelCall providerAttempts requestBytes started completion) := by
  refine keepsCurrent_reload fun fresh hfresh => ?_
  refine keepsCurrent_bind (keepsCurrent_quiet rfl) fun now => ?_
  refine keepsCurrent_bind (keepsCurrent_commitEvent ?_ rfl rfl rfl) fun _ => ?_
  · refine sameAccounts_budget hfresh ?_ ?_ ?_ <;>
      cases completion.usage.bind TokenUsage.safeUsage <;> rfl
  · exact keepsCurrent_reload fun _ _ => keepsCurrent_pure _

theorem keepsCurrent_chargeException (fallback : RunState) (preflight : ModelPreflight)
    (providerAttempts : Nat) :
    KeepsCurrent scope calls state (chargeException fallback preflight providerAttempts) := by
  refine keepsCurrent_reload fun fresh hfresh => ?_
  split
  · exact keepsCurrent_pure _
  · exact keepsCurrent_bind (keepsCurrent_chargeAttemptFailure fresh preflight) fun _ =>
      keepsCurrent_pure _

theorem keepsCurrent_finishCall (fallback : RunState) (preflight : ModelPreflight)
    (modelCall requestBytes started : Nat) (answer : Nat × Except RunError ToolCompletion) :
    KeepsCurrent scope calls state
      (finishCall fallback preflight modelCall requestBytes started answer) := by
  exact keepsCurrent_of_yields (yields_finishCall (V := fun _ => True)
    (fun _ _ => (keepsCurrent_completeModelCall _ _ _ _ _ _).yields fun _ => trivial)
    ((keepsCurrent_chargeException _ _ _).yields fun _ => trivial))

theorem keepsCurrent_chargeWallTime (fallback : RunState) (started : Nat) :
    KeepsCurrent scope calls state (chargeWallTime fallback started) := by
  refine keepsCurrent_reload fun fresh hfresh => ?_
  refine keepsCurrent_bind (keepsCurrent_quiet rfl) fun now => ?_
  exact keepsCurrent_saveRun (sameAccounts_budget hfresh rfl rfl rfl)

theorem keepsCurrent_callReserved (fallback : RunState) (preflight : ModelPreflight)
    (modelCall requestBytes : Nat) :
    KeepsCurrent scope calls state (callReserved fallback preflight modelCall requestBytes) := by
  refine keepsCurrent_reload fun fresh hfresh => ?_
  refine keepsCurrent_bind (keepsCurrent_quiet rfl) fun started => ?_
  refine keepsCurrent_bind (keepsCurrent_completeWithTools _ _ _) fun answer => ?_
  refine keepsCurrent_bind (keepsCurrent_finishCall _ _ _ _ _ _) fun ended => ?_
  refine keepsCurrent_bind (keepsCurrent_chargeWallTime _ _) fun _ => ?_
  cases ended with
  | ok completion => exact keepsCurrent_pure _
  | error e => exact keepsCurrent_throw _

/-- The copy before a model call is as good as the one after, but for the model calls. -/
theorem Current.recent_of_reserved (h : Current calls state w)
    (hresults : state.completedResults = base.completedResults)
    (hsearches : state.budget.discoveryCallsUsed = base.budget.discoveryCallsUsed)
    (hcalls : state.budget.apiCallsUsed = base.budget.apiCallsUsed)
    (hcap : base.budget.modelCallsUsed ≤ maxModelCalls) : Recent base w := by
  obtain ⟨run, hrun, hsame⟩ := h.row
  exact ⟨h.accounted, ⟨run, hrun, hsame.results.trans hresults, hsame.searches.trans hsearches,
    hsame.calls.trans hcalls⟩, hcap⟩

/-- The copy of a run whose model call has been counted. -/
def RunState.reserved (state : RunState) : RunState :=
  { state with
    budget := { state.budget with modelCallsUsed := state.budget.modelCallsUsed + 1 }
    phase := .model }

theorem safeE_reserveFirst (h : Current calls state w) (hroom : calls < maxModelCalls)
    (modelCall : Nat) : SafeE (S := accounts scope) (reserveModelCall state modelCall 1)
      (fun _ => Current (calls + 1) state.reserved)
      (fun e w' => Current calls state w' ∧ e ≠ .loopUnbounded) w := by
  have hcalls := h.calls
  have hbudget := h.budget
  refine safeE_commit state.reserved h (Or.inl rfl) ?_ (by rw [← hcalls]; rfl)
  intro w' hevents hacts
  refine hbudget.append hevents hacts rfl rfl rfl ?_ hbudget.discoveryCalls hbudget.apiCalls
  show state.budget.modelCallsUsed + 1 ≤ maxModelCalls
  omega

/-- A model call counts once if it returns, and leaves the run no worse if it throws. -/
theorem safeE_callModel (h : Current calls state w) (hroom : calls < maxModelCalls)
    (modelCall : Nat) : SafeE (S := accounts scope) (callModel state modelCall)
      (fun _ => Current (calls + 1) state.reserved) (fun _ => Recent state) w := by
  have hcap : state.budget.modelCallsUsed ≤ maxModelCalls := h.budget.modelCalls
  refine safeE_bind (Q := fun _ => Current calls state) ?_ ?_
  · exact SafeE.mono (safeE_quiet rfl h) (fun _ _ h' => h') fun _ _ h' => h'.recent
  intro requestBytes w₁ h₁
  split
  · exact safeE_throw h₁.recent
  rename_i preflight _
  refine safeE_bind (Q := fun _ => Current (calls + 1) state.reserved) ?_ ?_
  · exact SafeE.mono (safeE_reserveFirst h₁ hroom modelCall) (fun _ _ h' => h')
      fun _ _ h' => h'.1.recent
  intro _ w₂ h₂
  exact SafeE.mono (keepsCurrent_callReserved state preflight modelCall requestBytes w₂ h₂)
    (fun _ _ h' => h') fun _ _ h' => h'.recent_of_reserved rfl rfl rfl hcap

theorem safeE_failRun (h : Recent state w) (code : String) :
    SafeE (S := accounts scope) (failRun state code) (fun _ => RunAccounted) Raised w := by
  obtain ⟨run, hrun, hresults, hsearches, hcalls⟩ := h.row
  have hrow := h.accounted.row run hrun
  have hlinks : linkResults run.completedResults state.completedResults =
      .ok state.completedResults := by
    rw [hresults]
    exact linkResults_self _
  refine safeE_bind (Q := fun _ => RunAccounted) ?_ ?_
  · refine SafeE.mono (safeE_commit_row { state with phase := .failed } h.accounted hrun
      (Or.inl hlinks) ?_) ?_ ?_
    · intro w' hevents hacts
      exact hrow.failed hevents hacts h.modelCalls hsearches.symm hcalls.symm
    · intro _ w' h'
      exact h'.1
    · rintro e _ ⟨rfl, he⟩
      exact ⟨h.accounted, he⟩
  · intro _ w' h'
    refine safeE_bind (safeE_bind (safeE_getRun h') ?_) fun _ _ hq => safeE_pure hq
    rintro run' w'' ⟨-, rfl⟩
    exact safeE_pure h'

theorem safeE_failAbsent (h : RunAccounted w) (hrun : w.run = none) (code : String)
    {Q : RunOutcome → RunWorld → Prop} :
    SafeE (S := accounts scope) (failRun state code) Q Raised w := by
  have hexec : ∃ e, e ≠ .loopUnbounded ∧
      w.commitStateEvents { state with phase := .failed } [.runFailed code] = (.error e, w) := by
    unfold RunWorld.commitStateEvents
    split
    · exact ⟨.invalidEventPayload, by decide, rfl⟩
    · rw [hrun]
      exact ⟨.assistantRunNotFound, by decide, rfl⟩
  obtain ⟨e, he, herror⟩ := hexec
  have hcommit : SafeE (S := accounts scope)
      (commitEvent { state with phase := .failed } (.runFailed code)) (fun _ _ => False)
      Raised w := by
    refine safeE_perform rfl ?_ ?_
    · intro env
      show RunAccounted (w.commitStateEvents _ _).2
      rw [herror]
      exact h
    · intro env _
      show Meets (M := runController scope) _ _ (w.commitStateEvents _ _).1
        (w.commitStateEvents _ _).2
      rw [herror]
      exact ⟨h, he⟩
  exact safeE_bind hcommit fun _ _ hfalse => hfalse.elim

theorem safeE_failLatest (h : RunAccounted w) (fallback : RunState) (code : String)
    (f : RunOutcome → α) :
    SafeE (S := accounts scope) (do return f (← failRun (← reload fallback) code))
      (fun a w' => (∃ outcome, a = f outcome) ∧ RunAccounted w') Raised w := by
  refine safeE_bind (Q := fun state w' => w' = w ∧ state = w.run.getD fallback) ?_ ?_
  · refine safeE_bind (safeE_getRun h) ?_
    rintro run w' ⟨rfl, rfl⟩
    exact safeE_pure ⟨rfl, rfl⟩
  · rintro state w' ⟨rfl, rfl⟩
    refine safeE_bind (Q := fun _ => RunAccounted) ?_ fun outcome _ h' =>
      safeE_pure ⟨⟨outcome, rfl⟩, h'⟩
    cases hrun : w'.run with
    | some run =>
      have hrow := h.row run hrun
      exact safeE_failRun ⟨h, ⟨run, hrun, rfl, rfl, rfl⟩, hrow.modelCalls⟩ code
    | none => exact safeE_failAbsent h hrun code

theorem safeE_completeRun (h : Current calls state w) :
    SafeE (S := accounts scope) (completeRun state) (fun _ => RunAccounted) Raised w := by
  refine safeE_bind (Q := fun _ => Current calls { state with phase := .completed }) ?_ ?_
  · refine SafeE.mono (safeE_commitEvent h (Or.inl rfl) rfl rfl rfl ⟨rfl, rfl, rfl⟩)
      (fun _ _ h' => h') ?_
    intro e w' h'
    exact ⟨h'.1.accounted, h'.2⟩
  · intro _ w' h'
    refine safeE_bind (safeE_reload h' state) ?_
    intro state' w'' h''
    exact safeE_pure h''.1.accounted

/-- A model call either leaves a completion and a counted call, or a failed run. -/
theorem safeE_modelStep (h : Current calls state w) (hroom : calls < maxModelCalls)
    (modelCall : Nat) : SafeE (S := accounts scope) (Runner.modelStep state modelCall)
      (fun r w' => match r with
        | .ok _ => Current (calls + 1) state.reserved w'
        | .error _ => RunAccounted w') Raised w := by
  refine safeE_bind (safeE_attempted (safeE_callModel h hroom modelCall)) ?_
  intro r w' hr
  cases r with
  | ok completion => exact safeE_pure hr
  | error e => exact safeE_bind (safeE_failRun hr _) fun outcome w'' h' => safeE_pure h'

end Services

section Calls

variable {scope : RunnerScope} {w : RunWorld} {calls : Nat} {base state : RunState}

theorem safeE_commitAndReload (state : RunState) {event : RunnerEvent} {fallback : RunState}
    (h : Current calls base w) (hresults : Extended base state)
    (hmodels : event.startsModelCall = false) (hsearches : event.startsSearch = false)
    (hreads : event.startsRead = false)
    (hsame : state.budget.modelCallsUsed = base.budget.modelCallsUsed ∧
      state.budget.discoveryCallsUsed = base.budget.discoveryCallsUsed ∧
      state.budget.apiCallsUsed = base.budget.apiCallsUsed) :
    SafeE (S := accounts scope) (do
      commitEvent state event
      reload fallback) (fun state' w' => Current calls state' w' ∧ SameAccounts state state')
      (fun _ => RunAccounted) w := by
  refine safeE_bind (Q := fun _ => Current calls state) ?_ ?_
  · exact SafeE.mono (safeE_commitEvent h hresults hmodels hsearches hreads hsame)
      (fun _ _ h' => h') fun _ _ h' => h'.1.accounted
  · intro _ w' h'
    exact safeE_reload h' fallback

theorem safeE_denySearch (h : Current calls state w) (call : ToolCall) (code : String) :
    SafeE (S := accounts scope) (ApiDiscovery.denySearch state call code)
      (fun r => Current calls r.1) (fun _ => RunAccounted) w := by
  refine safeE_bind (Q := fun _ => Current calls state) ?_ ?_
  · exact SafeE.mono (safeE_commitEvent h (Or.inl rfl) rfl rfl rfl ⟨rfl, rfl, rfl⟩)
      (fun _ _ h' => h') fun _ _ h' => h'.1.accounted
  · intro _ w' h'
    refine safeE_bind (safeE_reload h' state) ?_
    intro state' w'' h''
    exact safeE_pure h''.1

theorem safeE_reserveDiscoveryCall (h : Current calls state w)
    (hroom : canReserveDiscoveryCall state.budget = true) (searchIndex : Nat)
    (parsed : FindApiOperationsInput) :
    SafeE (S := accounts scope) (ApiDiscovery.reserveDiscoveryCall state searchIndex parsed)
      (fun _ => Current calls { state with
        budget := { state.budget with
          discoveryCallsUsed := state.budget.discoveryCallsUsed + 1 }
        phase := .discovering })
      (fun _ => RunAccounted) w := by
  have hbudget := h.budget
  have hfree := of_decide_eq_true hroom
  refine SafeE.mono (safeE_commit _ h (Or.inl rfl) ?_ h.calls) (fun _ _ h' => h')
    fun _ _ h' => h'.1.accounted
  intro w' hevents hacts
  refine hbudget.append hevents hacts rfl rfl rfl hbudget.modelCalls ?_ hbudget.apiCalls
  show state.budget.discoveryCallsUsed + 1 ≤ maxDiscoveryCalls
  omega

theorem safeE_search (h : Current calls state w)
    (hroom : canReserveDiscoveryCall state.budget = true) (searchIndex : Nat) (call : ToolCall)
    (parsed : FindApiOperationsInput) :
    SafeE (S := accounts scope) (ApiDiscovery.search state searchIndex call parsed)
      (fun r => Current calls r.1) (fun _ => RunAccounted) w := by
  refine safeE_bind (safeE_reserveDiscoveryCall h hroom searchIndex parsed) ?_
  intro _ w₁ h₁
  refine safeE_bind (safeE_reload h₁ state) ?_
  intro fresh w₂ h₂
  refine safeE_bind (Q := fun _ => Current calls fresh) ?_ ?_
  · exact SafeE.mono (safeE_quiet rfl h₂.1) (fun _ _ h' => h') fun _ _ h' => h'.accounted
  intro ranked w₃ h₃
  refine safeE_bind (Q := fun _ => Current calls fresh) ?_ ?_
  · refine SafeE.mono (safeE_commitEvent h₃ (Or.inl rfl) rfl rfl rfl ⟨rfl, rfl, rfl⟩) ?_ ?_
    · intro _ w' h'
      exact h'.congr ⟨rfl, rfl, rfl, rfl⟩
    · intro _ w' h'
      exact h'.1.accounted
  intro _ w₄ h₄
  refine safeE_bind (safeE_reload h₄ _) ?_
  intro state' w₅ h₅
  exact safeE_pure h₅.1

theorem safeE_executeDiscoveryCalls (discoveryCalls : List ToolCall) :
    ∀ {w : RunWorld} {state : RunState} (searchIndex : Nat) (observations : List RunObservation),
      Current calls state w → SafeE (S := accounts scope)
        (ApiDiscovery.executeDiscoveryCalls state searchIndex observations discoveryCalls)
        (fun r => Current calls r.state) (fun _ => RunAccounted) w := by
  induction discoveryCalls with
  | nil =>
    intro w state searchIndex observations h
    exact safeE_pure h
  | cons call rest ih =>
    intro w state searchIndex observations h
    rw [ApiDiscovery.executeDiscoveryCalls]
    by_cases hroom : canReserveDiscoveryCall state.budget = true
    · rw [if_neg (by simp [hroom])]
      cases ApiDiscovery.parseFindApiOperationsInput call.arguments with
      | none =>
        refine safeE_bind (safeE_denySearch h call _) ?_
        intro denied w' h'
        exact ih _ _ h'
      | some parsed =>
        refine safeE_bind (safeE_search h hroom _ call parsed) ?_
        intro found w' h'
        exact ih _ _ h'
    · rw [if_pos (by simp [hroom])]
      refine safeE_bind (safeE_denySearch h call _) ?_
      intro denied w' h'
      exact ih _ _ h'

theorem safeE_executeReadsConcurrently (h : Current calls state w) (readCalls : List ToolCall) :
    SafeE (S := accounts scope) (ActionExecution.executeReadsConcurrently readCalls)
      (fun r w' => Current calls state w' ∧ r.length = readCalls.length)
      (fun _ => RunAccounted) w := by
  refine SafeE.mono (yields_executeReadsConcurrently
    ((keepsCurrent_quiet rfl).yields fun _ => trivial)
    (fun call => (keepsCurrent_quiet rfl).yields fun _ => trivial)
    ((keepsCurrent_quiet rfl).yields fun _ => trivial) readCalls w h) ?_ fun _ _ h' => h'.accounted
  intro r w' hr
  exact ⟨hr.2, by rw [← hr.1, List.length_map]⟩

theorem safeE_requestTool (h : Current calls state w) (call : ToolCall) :
    SafeE (S := accounts scope) (ActionExecution.requestTool state call)
      (fun state' w' => Current calls state' w' ∧ SameAccounts state state')
      (fun _ => RunAccounted) w :=
  safeE_commitAndReload state h (Or.inl rfl) rfl rfl rfl ⟨rfl, rfl, rfl⟩

theorem safeE_denyTool (h : Current calls state w) (toolCallId : ToolCallId)
    (actionName code : String) :
    SafeE (S := accounts scope) (ActionExecution.denyTool state toolCallId actionName code)
      (fun state' w' => Current calls state' w' ∧ SameAccounts state state')
      (fun _ => RunAccounted) w :=
  safeE_commitAndReload state h (Or.inl rfl) rfl rfl rfl ⟨rfl, rfl, rfl⟩

theorem safeE_completeTool (h : Current calls state w) (call : ToolCall)
    (actionResultId : Option ResultId) :
    SafeE (S := accounts scope) (ActionExecution.completeTool state call actionResultId)
      (fun state' w' => Current calls state' w' ∧
        state'.budget.apiCallsUsed = state.budget.apiCallsUsed) (fun _ => RunAccounted) w := by
  refine SafeE.mono (safeE_commitAndReload { state with
    completedResults := ActionExecution.linkCompleted state.completedResults
      { toolCallId := call.id, actionName := call.name, actionResultId } } h
    (Or.inr ⟨_, rfl⟩) rfl rfl rfl ⟨rfl, rfl, rfl⟩) ?_ fun _ _ h' => h'
  intro state' w' h'
  exact ⟨h'.1, h'.2.calls.symm⟩

/-- A read is charged when its start is journaled, while the run has calls left. -/
theorem safeE_startTool (h : Current calls state w)
    (hroom : state.budget.apiCallsUsed < maxApiCalls) (call : ToolCall) :
    SafeE (S := accounts scope) (ActionExecution.startTool state call)
      (fun state' w' => Current calls state' w' ∧
        state'.budget.apiCallsUsed = state.budget.apiCallsUsed + 1)
      (fun _ => RunAccounted) w := by
  have hbudget := h.budget
  let started : RunState := { state with
    budget := { state.budget with apiCallsUsed := state.budget.apiCallsUsed + 1 }
    phase := .executingReads }
  refine safeE_bind (Q := fun _ => Current calls started) ?_ ?_
  · refine SafeE.mono (safeE_commit started h (Or.inl rfl) ?_ h.calls)
      (fun _ _ h' => h') fun _ _ h' => h'.1.accounted
    intro w' hevents hacts
    exact hbudget.append hevents hacts rfl rfl rfl hbudget.modelCalls hbudget.discoveryCalls hroom
  · intro _ w' h'
    refine SafeE.weaken (safeE_reload h' state) ?_
    intro state' w'' h''
    exact ⟨h''.1, h''.2.calls.symm⟩

theorem safeE_journalRead {journal : ActionExecution.ReadJournal}
    (h : Current calls journal.state w) (hroom : journal.state.budget.apiCallsUsed < maxApiCalls)
    (call : ToolCall) (outcome : ReadExecutionOutcome) :
    SafeE (S := accounts scope) (ActionExecution.journalRead journal call outcome)
      (fun r w' => Current calls r.state w' ∧
        r.state.budget.apiCallsUsed = journal.state.budget.apiCallsUsed + 1)
      (fun _ => RunAccounted) w := by
  refine safeE_bind (safeE_requestTool h call) ?_
  intro requested w₁ h₁
  have hcalls₁ := h₁.2.calls
  refine safeE_bind (safeE_startTool h₁.1 (by omega) call) ?_
  intro started w₂ h₂
  have hused : Current calls { started with
      usedToolNames := ApiDiscovery.addName started.usedToolNames call.name } w₂ :=
    h₂.1.congr ⟨rfl, rfl, rfl, rfl⟩
  have hdeny : ∀ code : String, SafeE (S := accounts scope) (do
      let state ← ActionExecution.denyTool { started with
        usedToolNames := ApiDiscovery.addName started.usedToolNames call.name }
        call.id call.name (ActionExecution.boundedDenialCode code)
      return ({ journal with
        state
        observations := journal.observations ++
          [.denied call.name (ActionExecution.boundedDenialCode code)] } :
        ActionExecution.ReadJournal))
      (fun r w' => Current calls r.state w' ∧
        r.state.budget.apiCallsUsed = journal.state.budget.apiCallsUsed + 1)
      (fun _ => RunAccounted) w₂ := by
    intro code
    refine safeE_bind (safeE_denyTool hused _ _ _) ?_
    intro state' w₃ h₃
    refine safeE_pure ⟨h₃.1, ?_⟩
    have hcalls₃ : started.budget.apiCallsUsed = state'.budget.apiCallsUsed := h₃.2.calls
    show state'.budget.apiCallsUsed = _
    omega
  cases outcome with
  | succeeded actionResultId modelSummary =>
    refine safeE_bind (safeE_completeTool hused call _) ?_
    intro state' w₃ h₃
    refine safeE_pure ⟨h₃.1, ?_⟩
    have hcalls₃ : state'.budget.apiCallsUsed = started.budget.apiCallsUsed := h₃.2
    show state'.budget.apiCallsUsed = _
    omega
  | clarification clarificationId actionResultId =>
    refine safeE_pure ⟨hused, ?_⟩
    show started.budget.apiCallsUsed = _
    omega
  | denied code => exact hdeny code
  | validationFailed code => exact hdeny code
  | failed code => exact hdeny code

theorem safeE_journalReads (entries : List (ToolCall × ReadExecutionOutcome)) :
    ∀ {w : RunWorld} {journal : ActionExecution.ReadJournal}, Current calls journal.state w →
      journal.state.budget.apiCallsUsed + entries.length ≤ maxApiCalls →
      SafeE (S := accounts scope) (ActionExecution.journalReads journal entries)
        (fun r => Current calls r.state) (fun _ => RunAccounted) w := by
  induction entries with
  | nil =>
    intro w journal h _
    exact safeE_pure h
  | cons entry rest ih =>
    intro w journal h hroom
    rw [List.length_cons] at hroom
    refine safeE_bind (safeE_journalRead h (by omega) entry.1 entry.2) ?_
    intro r w' h'
    exact ih h'.1 (by have hcalls := h'.2; omega)

theorem safeE_requireClarification (h : Current calls state w) (clarificationId : Nat)
    (actionResultId : ResultId) : SafeE (S := accounts scope)
      (ActionExecution.requireClarificationAndSuspend state clarificationId actionResultId)
      (Current calls) (fun _ => RunAccounted) w := by
  have hbudget := h.budget
  let suspended : RunState := { state with
    continuation := .awaitingClarification clarificationId
    phase := .awaitingClarification }
  refine safeE_bind (Q := fun _ => Current calls suspended) ?_ ?_
  · refine SafeE.mono (safeE_commit suspended h (Or.inl rfl) ?_ h.calls)
      (fun _ _ h' => h') fun _ _ h' => h'.1.accounted
    intro w' hevents hacts
    exact hbudget.append hevents hacts rfl rfl rfl hbudget.modelCalls hbudget.discoveryCalls
      hbudget.apiCalls
  · intro _ w' h'
    exact SafeE.weaken (safeE_reload h' state) (fun _ _ h'' => h''.1)

theorem safeE_executeReads (h : Current calls state w) (readCalls : List ToolCall)
    (denied : List DeniedToolCall) :
    SafeE (S := accounts scope) (ActionExecution.executeReads state readCalls denied)
      (fun r => Current calls r.state) (fun _ => RunAccounted) w := by
  refine safeE_bind (safeE_executeReadsConcurrently h _) ?_
  intro readOutcomes w₁ h₁
  have hroom : state.budget.apiCallsUsed + readOutcomes.length ≤ maxApiCalls := by
    have hlength := h₁.2
    have htake := List.length_take_le (ActionExecution.remainingLogical state) readCalls
    have hused := h.budget.apiCalls
    have hleft : ActionExecution.remainingLogical state =
      maxApiCalls - state.budget.apiCallsUsed := rfl
    omega
  have hjournal : Current calls (ActionExecution.ReadJournal.mk state [] none).state w₁ := h₁.1
  refine safeE_bind (safeE_journalReads readOutcomes hjournal hroom) ?_
  intro journal w₂ h₂
  cases journal.firstClarification with
  | none => exact safeE_pure h₂
  | some question =>
    refine safeE_bind (safeE_requireClarification h₂ _ _) ?_
    intro state' w₃ h₃
    exact safeE_pure h₃

theorem safeE_denyTools (denied : List DeniedToolCall) :
    ∀ {w : RunWorld} {state : RunState} (observations : List RunObservation),
      Current calls state w →
      SafeE (S := accounts scope) (ActionExecution.denyTools state observations denied)
        (fun r w' => Current calls r.1 w' ∧ SameAccounts state r.1) (fun _ => RunAccounted) w := by
  induction denied with
  | nil =>
    intro w state observations h
    exact safeE_pure ⟨h, .refl state⟩
  | cons d rest ih =>
    intro w state observations h
    refine safeE_bind (safeE_denyTool h _ _ _) ?_
    intro state' w' h'
    refine SafeE.weaken (ih _ h'.1) ?_
    intro r w'' hr
    exact ⟨hr.1, h'.2.trans hr.2⟩

theorem safeE_recordDenials (h : Current calls state w) (denied : List DeniedToolCall) :
    SafeE (S := accounts scope) (ActionExecution.recordDenials state denied)
      (fun r => Current calls r.1) (fun _ => RunAccounted) w :=
  SafeE.weaken (safeE_denyTools _ [] h) (fun _ _ h' => h'.1)

theorem safeE_requestTools (writeCalls : List ToolCall) :
    ∀ {w : RunWorld} {state : RunState}, Current calls state w →
      SafeE (S := accounts scope) (ActionExecution.requestTools state writeCalls) (Current calls)
        (fun _ => RunAccounted) w := by
  induction writeCalls with
  | nil =>
    intro w state h
    exact safeE_pure h
  | cons call rest ih =>
    intro w state h
    refine safeE_bind (safeE_requestTool h call) ?_
    intro state' w' h'
    exact ih h'.1

theorem safeE_settlePreparation (h : Current calls state w) (writeCalls : List ToolCall)
    (observations : List RunObservation) (preparation : WritePreparationOutcome) :
    SafeE (S := accounts scope)
      (ActionExecution.settlePreparation state writeCalls observations preparation)
      (fun r => Current calls r.state) (fun _ => RunAccounted) w := by
  cases preparation with
  | prepared operationIds confirmationIds batchId hostCallsReserved =>
    refine safeE_bind (safeE_reload h state) ?_
    intro state' w' h'
    exact safeE_pure h'.1
  | clarification clarificationId actionResultId =>
    refine safeE_bind (safeE_requireClarification h _ _) ?_
    intro state' w' h'
    exact safeE_pure h'
  | notReady actionResultId =>
    rw [ActionExecution.settlePreparation]
    cases writeCalls.head? with
    | none => exact safeE_pure h
    | some call =>
      refine safeE_bind (safeE_completeTool h call actionResultId) ?_
      intro state' w' h'
      exact safeE_pure h'.1
  | denied code =>
    refine safeE_bind (safeE_denyTools _ _ h) ?_
    intro r w' hr
    exact safeE_pure hr.1

/-- The admitted writes fit in what the run has left and are charged before they are prepared. -/
theorem safeE_prepareWrites (h : Current calls state w) (writeCalls : List ToolCall) :
    SafeE (S := accounts scope) (ActionExecution.prepareWrites state writeCalls)
      (fun r => Current calls r.state) (fun _ => RunAccounted) w := by
  have hused := h.budget.apiCalls
  have hleft : ActionExecution.remainingLogical state =
    maxApiCalls - state.budget.apiCallsUsed := rfl
  refine safeE_bind (safeE_denyTools _ [] h) ?_
  intro r w₁ h₁
  have hcalls := h₁.2.calls
  dsimp only
  split
  · exact safeE_pure h₁.1
  · let admitted := writeCalls.take (ActionExecution.remainingLogical state)
    let charged : RunState := { r.1 with
      budget := { r.1.budget with
        apiCallsUsed := r.1.budget.apiCallsUsed + admitted.length } }
    have hsave : SafeE (S := accounts scope) (perform (.saveAdmission charged admitted))
        (fun _ => Current calls charged) (fun _ => RunAccounted) w₁ := by
      refine safeE_saveAdmission charged h₁.1 rfl rfl rfl rfl ?_
      have hadmitted : admitted.length ≤ ActionExecution.remainingLogical state :=
        List.length_take_le _ _
      show r.1.budget.apiCallsUsed + admitted.length ≤ maxApiCalls
      omega
    refine safeE_bind hsave ?_
    intro _ w₂ h₂
    refine safeE_bind (safeE_requestTools _ h₂) ?_
    intro state' w₃ h₃
    refine safeE_bind (Q := fun _ => Current calls state') ?_ ?_
    · exact SafeE.mono (keepsCurrent_attempted (keepsCurrent_quiet rfl) w₃ h₃)
        (fun _ _ h' => h') fun _ _ h' => h'.accounted
    intro preparation w₄ h₄
    exact safeE_settlePreparation h₄ _ _ _

end Calls

section Runner

variable {scope : RunnerScope} {w : RunWorld} {calls : Nat} {state : RunState}

/-- After the calls of a completion the run has ended or goes on from a current copy. -/
def BatchAccounts (calls : Nat) (ended : Runner.BatchEnd) (w : RunWorld) : Prop :=
  match ended with
  | .ended _ => RunAccounted w
  | .done state _ => Current calls state w

theorem safeE_runWrites (h : Current calls state w) (observations : List RunObservation)
    (denied : List DeniedToolCall) (writeCalls : List ToolCall) :
    SafeE (S := accounts scope) (Runner.runWrites state observations denied writeCalls)
      (BatchAccounts calls) (fun _ => RunAccounted) w := by
  have hrecorded : ∀ {w : RunWorld} {state : RunState} (observations : List RunObservation),
      Current calls state w → SafeE (S := accounts scope) (do
        let denials ← ActionExecution.recordDenials state denied
        return Runner.BatchEnd.done denials.1 (observations ++ denials.2))
        (BatchAccounts calls) (fun _ => RunAccounted) w := by
    intro w state observations h
    refine safeE_bind (safeE_recordDenials h denied) ?_
    intro denials w' h'
    exact safeE_pure h'
  unfold Runner.runWrites
  dsimp only
  split
  · exact hrecorded observations h
  · refine safeE_bind (safeE_prepareWrites h writeCalls) ?_
    intro batch w' h'
    split
    · exact safeE_pure h'.accounted
    · exact safeE_pure h'.accounted
    · exact hrecorded _ h'

/-- The copy that the calls are parted with knows every completed call of the run. -/
theorem safeE_decide (h : Current calls state w) (completion : ToolCompletion) :
    SafeE (S := accounts scope) (perform (.decide (Runner.decisionOf state completion)))
      (fun _ => Current calls state) (fun _ => RunAccounted) w := by
  have hafter : Current calls state
      (w.act (.decided (Runner.decisionOf state completion) w.completedIds)) := by
    refine h.act rfl ?_
    intro decision completedIds heq
    cases heq
    exact h.completedIds.symm
  exact safeE_perform rfl (fun _ => hafter.accounted) fun _ _ => hafter

theorem Raised.accounted {e : RunError} (h : Raised e w) : RunAccounted w := h.1

theorem safeE_runCalls (h : Current calls state w) (completion : ToolCompletion) :
    SafeE (S := accounts scope) (Runner.runCalls scope state completion) (BatchAccounts calls)
      (fun _ => RunAccounted) w := by
  have hfail : ∀ {w : RunWorld} {state : RunState} (code : String), Current calls state w →
      SafeE (S := accounts scope) (do
        return Runner.BatchEnd.ended (← failRun state code)) (BatchAccounts calls)
        (fun _ => RunAccounted) w := by
    intro w state code h
    refine safeE_bind (SafeE.mono (safeE_failRun h.recent code) (fun _ _ h' => h')
      fun _ _ he => he.accounted) ?_
    intro outcome w' h'
    exact safeE_pure h'
  refine safeE_bind (safeE_decide h completion) ?_
  intro _ w₁ h₁
  dsimp only
  split
  · exact hfail _ h₁
  · refine safeE_bind (safeE_executeDiscoveryCalls _ _ _ h₁) ?_
    intro discovered w₂ h₂
    refine safeE_bind (safeE_executeReads h₂ _ _) ?_
    intro readBatch w₃ h₃
    split
    · exact safeE_pure h₃.accounted
    · refine safeE_bind (Q := fun _ => Current calls readBatch.state) ?_ ?_
      · exact SafeE.mono (safeE_quiet rfl h₃) (fun _ _ h' => h') fun _ _ h' => h'.accounted
      intro current w₄ h₄
      cases current with
      | true => exact safeE_runWrites h₄ _ _ _
      | false => exact hfail _ h₄

theorem safeE_runCallsSafely (h : Current calls state w) (completion : ToolCompletion) :
    SafeE (S := accounts scope) (Runner.runCallsSafely scope state completion)
      (BatchAccounts calls) Raised w := by
  refine safeE_bind (safeE_attempted (safeE_runCalls h completion)) ?_
  intro r w' hr
  cases r with
  | ok ended => exact safeE_pure hr
  | error e =>
    refine SafeE.weaken (safeE_failLatest hr state _ Runner.BatchEnd.ended) ?_
    rintro _ w'' ⟨⟨outcome, rfl⟩, h'⟩
    exact h'

/-- An iteration ends the run or counts exactly one model call. -/
def IterationAccounts (calls : Nat) (ended : Runner.IterationEnd) (w : RunWorld) : Prop :=
  match ended with
  | .ended _ => RunAccounted w
  | .next loop => Current calls loop.state w

theorem safeE_endIteration {m : RunnerProcess RunOutcome}
    (hm : SafeE (S := accounts scope) m (fun _ => RunAccounted) Raised w) :
    SafeE (S := accounts scope) (do return Runner.IterationEnd.ended (← m))
      (IterationAccounts calls) Raised w := by
  refine safeE_bind hm ?_
  intro outcome w' h'
  exact safeE_pure h'

variable {E : RunError → RunWorld → Prop}

theorem safeE_look {o : RunnerOp} (h : RunAccounted w)
    (hlooks : ∀ env, ∃ value, RunnerOp.exec env w o = (.ok value, w)) :
    SafeE (S := accounts scope) (perform o) (fun _ w' => w' = w) E w := by
  refine safeE_perform rfl ?_ ?_
  · intro env
    obtain ⟨value, hvalue⟩ := hlooks env
    show RunAccounted (RunnerOp.exec env w o).2
    rw [hvalue]
    exact h
  · intro env _
    obtain ⟨value, hvalue⟩ := hlooks env
    show Meets (M := runController scope) _ _ (RunnerOp.exec env w o).1 (RunnerOp.exec env w o).2
    rw [hvalue]
    rfl

theorem safeE_ask {o : RunnerOp} (h : Current calls state w)
    (hlooks : ∀ env, ∃ value, RunnerOp.exec env w o = (.ok value, w)) :
    SafeE (S := accounts scope) (perform o) (fun _ => Current calls state) E w := by
  refine SafeE.weaken (safeE_look h.accounted hlooks) ?_
  intro _ w' hw'
  exact hw' ▸ h

theorem safeE_closeIteration (h : Current calls state w) (loop : Runner.LoopState)
    (iterationStarted : Nat) (completion : ToolCompletion) (observations : List RunObservation) :
    SafeE (S := accounts scope)
      (Runner.closeIteration loop state iterationStarted completion observations)
      (IterationAccounts calls) Raised w := by
  refine safeE_bind (safeE_ask h fun _ => ⟨_, rfl⟩) ?_
  intro now w₁ h₁
  refine safeE_bind (safeE_reload h₁ state) ?_
  intro fresh w₂ h₂
  have hclosed : Current calls { fresh with
      budget := { fresh.budget with
        activeWallMsUsed := fresh.budget.activeWallMsUsed + (now - iterationStarted) } } w₂ :=
    h₂.1.congr ⟨rfl, rfl, rfl, rfl⟩
  refine safeE_bind (safeE_saveRun hclosed) ?_
  intro _ w₃ h₃
  dsimp only
  split
  · exact safeE_endIteration (safeE_failRun h₃.recent _)
  · exact safeE_pure h₃

theorem safeE_runIteration {loop : Runner.LoopState} (h : Current calls loop.state w)
    (hroom : calls < maxModelCalls) :
    SafeE (S := accounts scope) (Runner.runIteration scope loop) (IterationAccounts (calls + 1))
      Raised w := by
  refine safeE_bind (safeE_ask h fun _ => ⟨_, rfl⟩) ?_
  intro aborted w₁ h₁
  cases aborted with
  | true => exact safeE_endIteration (safeE_failRun h₁.recent _)
  | false =>
    refine safeE_bind (safeE_modelStep h₁ hroom _) ?_
    intro r w₂ h₂
    cases r with
    | error outcome => exact safeE_pure h₂
    | ok completion =>
      refine safeE_bind (safeE_reload h₂ loop.state) ?_
      intro fresh w₃ h₃
      refine safeE_bind (safeE_ask h₃.1 fun _ => ⟨_, rfl⟩) ?_
      intro current w₄ h₄
      cases current with
      | false => exact safeE_endIteration (safeE_failRun h₄.recent _)
      | true =>
        refine safeE_bind (safeE_ask h₄ fun _ => ⟨_, rfl⟩) ?_
        intro iterationStarted w₅ h₅
        split
        · exact safeE_endIteration (safeE_completeRun h₅)
        · refine safeE_bind (safeE_runCallsSafely h₅ completion) ?_
          intro ended w₆ h₆
          cases ended with
          | ended outcome => exact safeE_pure h₆
          | done state observations => exact safeE_closeIteration h₆ _ _ _ _

theorem safeE_runLoop (fuel : Nat) :
    ∀ {w : RunWorld} {calls : Nat} {loop : Runner.LoopState}, Current calls loop.state w →
      maxModelCalls ≤ fuel + calls →
      SafeE (S := accounts scope) (Runner.runLoop scope fuel loop) (fun _ => RunAccounted)
        Raised w := by
  induction fuel with
  | zero =>
    intro w calls loop h hfuel
    have hcalls := h.calls
    have hstop : Runner.mayContinue loop.state = false := by
      have hspent : canReserveModelCall loop.state.budget = false := by
        refine decide_eq_false ?_
        omega
      rw [Runner.mayContinue, hspent]
      rfl
    rw [Runner.runLoop, hstop]
    exact safeE_failRun h.recent _
  | succ fuel ih =>
    intro w calls loop h hfuel
    rw [Runner.runLoop]
    by_cases hmay : Runner.mayContinue loop.state = true
    · rw [hmay]
      have hroom : calls < maxModelCalls := by
        have hreserve := (Bool.and_eq_true_iff.mp (Bool.and_eq_true_iff.mp hmay).1).1
        have hcalls := h.calls
        have hless := of_decide_eq_true hreserve
        omega
      refine safeE_bind (safeE_runIteration h hroom) ?_
      intro ended w' h'
      cases ended with
      | ended outcome => exact safeE_pure h'
      | next loop' =>
        dsimp only
        split
        · exact safeE_failRun h'.recent _
        · exact ih h' (by omega)
    · rw [Bool.not_eq_true] at hmay
      rw [hmay]
      exact safeE_failRun h.recent _

theorem safeE_enterLoop (h : Current calls state w) :
    SafeE (S := accounts scope) (Runner.enterLoop scope state) (fun _ => RunAccounted)
      Raised w := by
  refine safeE_bind (safeE_ask h fun _ => ⟨_, rfl⟩) ?_
  intro aborted w' h'
  cases aborted with
  | true => exact safeE_failRun h'.recent _
  | false => exact safeE_runLoop maxModelCalls h' (by omega)

theorem safeE_startRun (state : RunState) (h : RunAccounted w) (hrun : w.run = none)
    (hfresh : SameAccounts state (Runner.freshState scope none)) :
    SafeE (S := accounts scope) (perform (.startRun state)) (fun _ => Current 0 state) E w := by
  have hbudget := h.unstarted hrun
  let row : RunState := { state with
    phase := .model
    usedToolNames := []
    completedResults := []
    continuation := .none
    budget := createEmptyRunBudget }
  have hstarted : w.startRun state =
      (.ok (), { w with run := some row, events := w.events ++ [.runStarted] }) := by
    unfold RunWorld.startRun
    rw [hrun]
  have hrow : RunAccounted { w with run := some row, events := w.events ++ [.runStarted] } := by
    refine ⟨?_, nofun, h.decisions⟩
    intro run heq
    cases heq
    exact hbudget.append rfl rfl rfl rfl rfl hbudget.modelCalls hbudget.discoveryCalls
      hbudget.apiCalls
  refine safeE_perform rfl ?_ ?_
  · intro env
    show RunAccounted (w.startRun state).2
    rw [hstarted]
    exact hrow
  · intro env _
    show Meets (M := runController scope) _ _ (w.startRun state).1 (w.startRun state).2
    rw [hstarted]
    exact ⟨hrow, ⟨row, rfl, ⟨hfresh.results.symm, hfresh.models.symm, hfresh.searches.symm,
      hfresh.calls.symm⟩⟩, hfresh.models⟩

theorem safeE_startFresh (h : RunAccounted w) (hrun : w.run = none) (input : RunAssistantInput) :
    SafeE (S := accounts scope) (Runner.startFresh scope input) (fun _ => RunAccounted)
      Raised w := by
  unfold Runner.startFresh
  split
  · exact safeE_pure h
  · refine safeE_bind (safeE_look h fun _ => ⟨_, rfl⟩) ?_
    intro prior w₁ hw₁
    obtain rfl : w = w₁ := hw₁.symm
    have hstart : SafeE (S := accounts scope) (perform (.startRun (Runner.freshState scope prior)))
        (fun _ => Current 0 (Runner.freshState scope prior)) Raised w :=
      safeE_startRun (Runner.freshState scope prior) h hrun ⟨rfl, rfl, rfl, rfl⟩
    refine safeE_bind hstart ?_
    intro _ w₂ h₂
    refine safeE_bind (safeE_reload h₂ _) ?_
    intro state w₃ h₃
    exact safeE_enterLoop h₃.1

theorem Current.of_row {run : RunState} (h : RunAccounted w) (hrun : w.run = some run) :
    Current run.budget.modelCallsUsed run w :=
  ⟨h, ⟨run, hrun, .refl run⟩, rfl⟩

theorem safeE_runAssistantV2 (h : RunAccounted w) (input : RunAssistantInput) :
    SafeE (S := accounts scope) (Runner.runAssistantV2 scope input) (fun _ => RunAccounted)
      Raised w := by
  refine safeE_bind (safeE_look h fun _ => ⟨_, rfl⟩) ?_
  intro current w₁ hw₁
  obtain rfl : w = w₁ := hw₁.symm
  cases current with
  | false => exact safeE_throw ⟨h, by decide⟩
  | true =>
    refine safeE_bind (safeE_getRun h) ?_
    intro run w₂ hget
    obtain rfl : w = w₂ := hget.2.symm
    obtain rfl : w.run = run := hget.1.symm
    cases hrun : w.run with
    | none => exact safeE_startFresh h hrun input
    | some state =>
      have hcurrent := Current.of_row h hrun
      dsimp only
      split
      · exact safeE_pure h
      · exact safeE_pure h
      · exact safeE_pure h
      · exact safeE_pure h
      · exact safeE_enterLoop hcurrent

theorem safeE_resolveClarificationOption (h : Current calls state w) (call : ToolCall)
    (actionResultId : ResultId) :
    SafeE (S := accounts scope) (Runner.resolveClarificationOption state call actionResultId)
      (fun _ => RunAccounted) (fun _ => RunAccounted) w := by
  refine SafeE.mono (safeE_commitEvent h (Or.inr ⟨_, rfl⟩) rfl rfl rfl ⟨rfl, rfl, rfl⟩) ?_ ?_
  · intro _ w' h'
    exact h'.accounted
  · intro e w' h'
    exact h'.1.accounted

/-- An operation that neither writes nor decides, in whatever state the run is. -/
theorem safeE_anyQuiet {o : RunnerOp} (ho : o.quiet = true) (h : RunAccounted w) :
    SafeE (S := accounts scope) (perform o) (fun _ => RunAccounted) (fun _ => RunAccounted) w := by
  refine safeE_perform rfl (fun env => h.quiet ho env) fun env _ => ?_
  have hafter := h.quiet ho env
  cases hresult : (RunnerOp.exec env w o).1 with
  | ok value =>
    simp only [runController, hresult]
    exact hafter
  | error e =>
    simp only [runController, hresult]
    exact hafter

theorem safeE_resolveOption (h : RunAccounted w) (chosen : Runner.ChosenOption) :
    SafeE (S := accounts scope) (Runner.resolveOption scope chosen) (fun _ => RunAccounted)
      (fun _ => RunAccounted) w := by
  unfold Runner.resolveOption
  dsimp only
  split
  · exact safeE_pure h
  · refine safeE_bind (safeE_anyQuiet rfl h) ?_
    intro outcome w₁ h₁
    split
    · refine safeE_bind (safeE_getRun h₁) ?_
      intro run w₂ hget
      obtain rfl : w₁ = w₂ := hget.2.symm
      split
      · exact safeE_pure h₁
      · rename_i state
        have hrun : RunWorld.run w₁ = some state := hget.1.symm
        refine safeE_bind (safeE_resolveClarificationOption (Current.of_row h₁ hrun) _ _) ?_
        intro _ w₂ h₂
        refine safeE_bind (SafeE.mono (safeE_runAssistantV2 h₂ ⟨none⟩) (fun _ _ h' => h')
          fun _ _ he => he.accounted) ?_
        intro outcome w₃ h₃
        exact safeE_pure h₃
    · exact safeE_pure h₁
  · refine safeE_bind (safeE_anyQuiet rfl h) ?_
    intro outcome w₁ h₁
    split
    · exact safeE_pure h₁
    · exact safeE_pure h₁

theorem safeE_handler (h : RunAccounted w) (request : RunRequest) :
    SafeE (S := accounts scope) (request.handler scope) (fun _ => RunAccounted)
      (fun _ => RunAccounted) w := by
  cases request with
  | runAssistant input =>
    refine safeE_bind (SafeE.mono (safeE_runAssistantV2 h input) (fun _ _ h' => h')
      fun _ _ he => he.accounted) ?_
    intro outcome w' h'
    exact safeE_pure h'
  | resolveOption chosen => exact safeE_resolveOption h chosen
  | other =>
    refine safeE_bind (safeE_anyQuiet rfl h) ?_
    intro _ w' h'
    exact safeE_pure h'

end Runner

theorem accounts_sound (scope : RunnerScope) : Sound (accounts scope) where
  refl _ := trivial
  trans _ _ := trivial
  exec o env w _ hpre _ := ⟨hpre env, trivial⟩
  handler request w h := Safe.mono (fun _ _ _ => trivial) (safeE_handler h request)
  restart env w w' h hboot := by
    cases hboot
    exact h.await env.others

def RunWorld.empty : RunWorld where
  run := none
  events := []
  acts := []

theorem RunAccounted.empty : RunAccounted .empty := by
  refine ⟨nofun, ?_, nofun⟩
  intro _
  exact ⟨by decide, by decide, by decide, fun _ => rfl, rfl, rfl⟩

/-- The accounts hold at every point of every sequence of invocations and crashes. -/
theorem runAccounted_of_reaches {scope : RunnerScope} {c : (runController scope).Config}
    (h : Server.Reaches (fun _ _ => True) (Server.initial RunWorld.empty) c) :
    RunAccounted c.world :=
  (accounts_sound scope).invariant RunAccounted.empty (h.mono fun _ _ _ _ _ _ => trivial)

section Runs

def RunAct.isSearch : RunAct → Bool
  | .searched => true
  | _ => false

def RunAct.isRead : RunAct → Bool
  | .readExecuted _ => true
  | _ => false

def RunAct.handedOverWrites : RunAct → Nat
  | .handedOver calls => calls.length
  | _ => 0

/-- Each counter is the number of calls of its kind that the run has made so far. -/
def CeilingsExact (w : RunWorld) (run : RunState) : Prop :=
  run.budget.modelCallsUsed = w.modelCallsStarted ∧
    run.budget.discoveryCallsUsed = w.acts.countP RunAct.isSearch ∧
    run.budget.apiCallsUsed = w.acts.countP RunAct.isRead + (w.acts.map RunAct.handedOverWrites).sum

instance (w : RunWorld) (run : RunState) : Decidable (CeilingsExact w run) :=
  inferInstanceAs (Decidable (_ ∧ _ ∧ _))

def tagScope : RunnerScope where
  registry := {
    get := fun _ => some ⟨some .read⟩
    available := fun _ _ => true
    hash := "catalog" }
  authClass := .addon

def tagCall : ToolCall := ⟨"call_1", "clockify_list_tags", .obj []⟩

/-- A model that asks for one read of an operation that an earlier run had loaded. -/
def tagReads (outcome : ReadExecutionOutcome) : RunnerEnv where
  prior := some
    { Runner.freshState tagScope none with loadedToolNames := ["clockify_list_tags"] }
  attempt := .answered ⟨[tagCall], none, 1⟩
  read := .ok outcome

def prose : RunnerEnv where
  attempt := .answered ⟨[], none, 1⟩
  read := .ok (.succeeded 2 none)

def outage : RunnerEnv where
  attempt := .failed .provider

def performs (env : RunnerEnv) (n : Nat) : List (runController tagScope).Event :=
  List.replicate n (.perform env)

def askTags : (runController tagScope).Event := .accept (.runAssistant ⟨some "my tags"⟩)

/-- The read is executed and not yet journaled. -/
def executedRun : List (runController tagScope).Event :=
  askTags :: performs (tagReads (.succeeded 1 none)) 26

/-- A read asks a question, and the chosen option executes a second read. -/
def resolvedRun : List (runController tagScope).Event :=
  (askTags :: performs (tagReads (.clarification 7 1)) 33) ++
    (.accept (.resolveOption ⟨7, "clockify_list_tags", .obj []⟩) :: performs prose 25)

/-- The only model call of the run fails. -/
def failedRun : List (runController tagScope).Event := askTags :: performs outage 19

/-- The durable run at rest after a list of events, with whether its counters are exact. -/
def accountsAfter (events : List (runController tagScope).Event) :
    Option (RunState.Budget × Bool × Bool) := do
  let c ← Server.run (Server.initial RunWorld.empty) events
  let w : RunWorld := c.world
  let run ← w.run
  some (run.budget, c.active.isNone, decide (CeilingsExact w run))

theorem exists_of_accountsAfter {events : List (runController tagScope).Event}
    {budget : RunState.Budget} {rest exact : Bool}
    (h : accountsAfter events = some (budget, rest, exact)) :
    ∃ (c : (runController tagScope).Config) (run : RunState),
      Server.Reaches (fun _ _ => True) (Server.initial RunWorld.empty) c ∧
      c.active.isNone = rest ∧ RunWorld.run c.world = some run ∧ run.budget = budget ∧
      (exact = true ↔ CeilingsExact c.world run) := by
  obtain ⟨c, hc, hrest⟩ := Option.bind_eq_some_iff.mp h
  obtain ⟨run, hrun, heq⟩ := Option.bind_eq_some_iff.mp hrest
  cases heq
  have hexact : ∀ w : RunWorld, decide (CeilingsExact w run) = true ↔ CeilingsExact w run :=
    fun _ => decide_eq_true_iff
  exact ⟨c, run, Server.reaches_of_run hc, rfl, hrun, rfl, hexact c.world⟩

end Runs

end ClockifyAssistant
