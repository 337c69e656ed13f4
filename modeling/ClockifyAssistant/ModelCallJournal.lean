import ClockifyAssistant.RunJournal

/-!
The model call and the ends of a run, as they are journaled. Between two batches the log is
quiet; a model call keeps it so, whether it returns or throws, and the end of a run leaves the
phase that its outcome names.
-/
namespace ClockifyAssistant

open Lib RunnerProcess RunService ToolJournal
open Fallible hiding perform

/-- The durable phase that an outcome speaks of. -/
def RunOutcome.phase : RunOutcome → RunPhase
  | .completed _ => .completed
  | .suspended .awaitingConfirmation _ _ => .awaitingConfirmation
  | .suspended .awaitingClarification _ _ => .awaitingClarification
  | .failed _ _ => .failed

namespace RunJournal

section Tools

variable {registry : ActionRegistry} {state : RunState}

theorem ToolsFit.boundedName (hbounded : registry.Bounded) (h : ToolsFit registry state)
    {name : String} (hmem : name ∈ state.loadedToolNames) :
    name ≠ "" ∧ boundedString name = true := by
  by_cases hmeta : name = discoveryMetaToolName
  · rw [hmeta]
    decide
  · exact hbounded name (h.known name hmem hmeta)

theorem ToolsFit.boundedLoaded (hbounded : registry.Bounded) (h : ToolsFit registry state) :
    boundedStringArray (ApiDiscovery.apiToolNames state.loadedToolNames) = true := by
  have hlength : (ApiDiscovery.apiToolNames state.loadedToolNames).length ≤ 12 := h.loaded
  have hnames : ∀ name ∈ ApiDiscovery.apiToolNames state.loadedToolNames,
      boundedString name = true := by
    intro name hmem
    exact (h.boundedName hbounded (List.mem_of_mem_filter hmem)).2
  rw [boundedStringArray, Bool.and_eq_true]
  exact ⟨decide_eq_true hlength, List.all_eq_true.mpr hnames⟩

end Tools

/-- The copy with which a run may be failed: its results are those of the row. -/
structure Failing (scope : RunnerScope) (terms : JournalTerms) (state : RunState)
    (w : RunWorld) : Prop where
  journaled : Journaled scope terms w
  row : ∃ run, w.run = some run ∧ run.completedResults = state.completedResults
  fits : RowFits scope.registry state
  settled : terms.closing → ToolJournal.Settled w.events

/-- The run has ended as the outcome says, and nothing is open. -/
structure Ended (scope : RunnerScope) (terms : JournalTerms) (outcome : RunOutcome)
    (w : RunWorld) : Prop where
  journaled : Journaled scope terms w
  quiet : terms.closing → Quiet w.events
  phase : ∀ run, w.run = some run → run.phase = outcome.phase

/-- A copy of the run between two batches. -/
structure Steady (scope : RunnerScope) (terms : JournalTerms) (state : RunState)
    (w : RunWorld) : Prop where
  copy : Copy scope terms state w.events w
  quiet : terms.closing → Quiet w.events

/-- A copy of the run where the batch before it is settled. -/
structure Rested (scope : RunnerScope) (terms : JournalTerms) (state : RunState)
    (w : RunWorld) : Prop where
  copy : Copy scope terms state w.events w
  settled : terms.closing → ToolJournal.Settled w.events

section Ends

variable {scope : RunnerScope} {terms : JournalTerms} {w : RunWorld} {events : List RunnerEvent}
  {state state' : RunState} {E : RunError → RunWorld → Prop}

theorem Copy.congr (h : Copy scope terms state events w) (hsame : SameCopy state state')
    (hfits : RowFits scope.registry state') : Copy scope terms state' events w := by
  obtain ⟨run, hrun, hrow⟩ := h.row
  exact ⟨h.journaled, ⟨run, hrun, hrow.trans hsame⟩, hfits, h.log⟩

theorem Copy.offered (h : Copy scope terms state events w) :
    offeredTools w = state.loadedToolNames := by
  obtain ⟨run, hrun, hsame⟩ := h.row
  rw [offeredTools, hrun]
  exact hsame.loaded

theorem Copy.steady (h : Copy scope terms state events w) (hquiet : terms.closing → Quiet events) :
    Steady scope terms state w := by
  obtain rfl := h.log
  exact ⟨h, hquiet⟩

theorem Copy.failing (h : Copy scope terms state events w)
    (hsettled : terms.closing → ToolJournal.Settled events) : Failing scope terms state w := by
  obtain rfl := h.log
  obtain ⟨run, hrun, hsame⟩ := h.row
  exact ⟨h.journaled, ⟨run, hrun, hsame.results⟩, h.fits, hsettled⟩

theorem Copy.rested (h : Copy scope terms state events w)
    (hsettled : terms.closing → ToolJournal.Settled events) : Rested scope terms state w := by
  obtain rfl := h.log
  exact ⟨h, hsettled⟩

theorem Rested.failing (h : Rested scope terms state w) : Failing scope terms state w :=
  h.copy.failing h.settled

theorem Steady.rested (h : Steady scope terms state w) : Rested scope terms state w :=
  h.copy.rested fun hclosing => (h.quiet hclosing).settled

theorem Steady.failing (h : Steady scope terms state w) : Failing scope terms state w :=
  h.rested.failing

theorem Failing.congr (h : Failing scope terms state w)
    (hresults : state.completedResults = state'.completedResults)
    (hfits : RowFits scope.registry state') : Failing scope terms state' w := by
  obtain ⟨run, hrun, hrow⟩ := h.row
  exact ⟨h.journaled, ⟨run, hrun, hrow.trans hresults⟩, hfits, h.settled⟩

/-- The event that ends a run is accepted, and its phase is the one that was handed over. -/
theorem safeE_endRun (h : Failing scope terms state w) (phase : RunPhase) {event : RunnerEvent}
    (hparse : event.parses = true) (hboundary : event.isBoundary = true) :
    SafeE (S := journaling scope terms) (commitEvent { state with phase } event)
      (fun _ w' => Journaled scope terms w' ∧ (terms.closing → Quiet w'.events) ∧
        ∃ run, w'.run = some run ∧ run.phase = phase) E w := by
  obtain ⟨run, hrun, hresults⟩ := h.row
  have hall : [event].all RunnerEvent.parses = true := by simp [hparse]
  have hlinks : LinksTo run.completedResults state.completedResults :=
    hresults ▸ linksTo_self _
  have hcompleted : ∀ id actionName actionResultId,
      event ≠ .toolCompleted id actionName actionResultId := by
    rintro id actionName actionResultId rfl
    cases hboundary
  refine SafeE.weaken (safeE_commitAccepted h.journaled { state with phase } hrun hlinks
    (h.fits.congr rfl rfl rfl rfl) hall (appends_boundary h.settled hcompleted)) ?_
  rintro _ w' ⟨hjournaled, hrow, hevents⟩
  refine ⟨hjournaled, fun _ => ?_, ⟨_, hrow, rfl⟩⟩
  rw [hevents]
  exact quiet_concat _ (Or.inl hboundary)

theorem safeE_outcome (hjournaled : Journaled scope terms w)
    (hquiet : terms.closing → Quiet w.events) {run : RunState} (hrun : w.run = some run)
    (f : RunState → RunOutcome) (hphase : ∀ state, (f state).phase = run.phase) :
    SafeE (S := journaling scope terms) (do return f (← reload state)) (Ended scope terms) E w := by
  refine safeE_bind (Q := fun _ w' => w' = w) (safeE_bind (safeE_getRun hjournaled) ?_) ?_
  · rintro _ w' ⟨-, rfl⟩
    exact safeE_pure rfl
  · rintro fresh w' rfl
    refine safeE_pure ⟨hjournaled, hquiet, fun row hrow => ?_⟩
    obtain rfl : run = row := Option.some.inj (hrun.symm.trans hrow)
    exact (hphase fresh).symm

theorem safeE_failRun (h : Failing scope terms state w) {code : String}
    (hcode : boundedString code = true) :
    SafeE (S := journaling scope terms) (failRun state code) (Ended scope terms) E w := by
  refine safeE_bind (safeE_endRun h .failed hcode rfl) ?_
  rintro _ w' ⟨hjournaled, hquiet, run, hrun, hphase⟩
  exact safeE_outcome hjournaled hquiet hrun _ fun _ => hphase.symm

theorem safeE_completeRun (h : Rested scope terms state w) :
    SafeE (S := journaling scope terms) (completeRun state) (Ended scope terms) E w := by
  have hlength : (presentationRefs state).length ≤ 12 := by
    have hresults := h.copy.fits.results
    have hcalls : state.budget.apiCallsUsed ≤ 12 := h.copy.fits.calls
    rw [presentationRefs, List.length_map]
    omega
  refine safeE_bind (safeE_endRun h.failing .completed (decide_eq_true hlength) rfl) ?_
  rintro _ w' ⟨hjournaled, hquiet, run, hrun, hphase⟩
  exact safeE_outcome hjournaled hquiet hrun _ fun _ => hphase.symm

end Ends

section ModelCall

variable {scope : RunnerScope} {terms : JournalTerms} {w : RunWorld} {state : RunState}

/-- The copy stays steady through the process, and what it returns has `V`. -/
abbrev Answers (scope : RunnerScope) (terms : JournalTerms) (state : RunState) {α : Type}
    (V : α → Prop) (m : RunnerProcess α) : Prop :=
  Yields (journaling scope terms) (Steady scope terms state) V m

theorem answers_silent {o : RunnerOp} (ho : RunnerOp.silent o = true) :
    Answers scope terms state (fun _ => True) (RunnerProcess.perform o) := by
  intro w h
  refine SafeE.mono (safeE_silent ho h.copy) ?_ ?_
  · intro _ w' h'
    exact ⟨trivial, h'.steady h.quiet⟩
  · intro _ w' h'
    exact h'.steady h.quiet

theorem answers_reload {α : Type} {V : α → Prop} {fallback : RunState}
    {f : RunState → RunnerProcess α}
    (hf : ∀ fresh, SameCopy state fresh → RowFits scope.registry fresh →
      Answers scope terms state V (f fresh)) :
    Answers scope terms state V (reload fallback >>= f) := by
  intro w h
  refine safeE_bind (safeE_reload h.copy fallback) ?_
  rintro fresh w' ⟨hcopy, hsame, -⟩
  exact hf fresh hsame hcopy.fits w' ((hcopy.congr hsame.symm h.copy.fits).steady h.quiet)

theorem answers_saveRun {saved : RunState} (hsame : SameCopy state saved)
    (hfits : RowFits scope.registry saved) :
    Answers scope terms state (fun _ => True) (RunnerProcess.perform (.saveRun saved)) := by
  intro w h
  refine SafeE.weaken (safeE_saveRun saved h.copy hsame.results hfits) ?_
  intro _ w' h'
  exact ⟨trivial, (h'.congr hsame.symm h.copy.fits).steady h.quiet⟩

theorem answers_commitEvent {written : RunState} {event : RunnerEvent}
    (hsame : SameCopy state written) (hfits : RowFits scope.registry written)
    (hparse : terms.payloads → event.parses = true) (hcompleted : ∀ id actionName actionResultId,
      event ≠ .toolCompleted id actionName actionResultId)
    (hrequests : ∀ id, event.requests id = false) :
    Answers scope terms state (fun _ => True) (commitEvent written event) := by
  intro w h
  have hquiet : terms.closing → Quiet (w.events ++ [event]) := by
    intro hclosing
    refine (h.quiet hclosing).append fun entry hmem id => ?_
    rw [List.mem_singleton.mp hmem]
    exact hrequests id
  have happends : Appends terms w.events [event] written.completedResults :=
    appends_boundary (fun hclosing => (h.quiet hclosing).settled) hcompleted
  have hlinks : LinksTo state.completedResults written.completedResults :=
    hsame.results ▸ linksTo_self _
  refine SafeE.mono (safeE_commit written h.copy hlinks hfits ?_ happends) ?_ ?_
  · intro hpayloads
    simp [hparse hpayloads]
  · intro _ w' h'
    exact ⟨trivial, (h'.congr hsame.symm h.copy.fits).steady hquiet⟩
  · rintro e w' ⟨h', -⟩
    exact h'.steady h.quiet

theorem answers_chargeAttemptFailure (fallback : RunState) (preflight : ModelPreflight) :
    Answers scope terms state (fun _ => True) (chargeAttemptFailure fallback preflight) := by
  refine answers_reload fun fresh hsame hfits => ?_
  refine yields_bind (answers_saveRun ?_ (hfits.congr rfl rfl rfl rfl)) fun _ _ =>
    yields_pure trivial
  exact ⟨hsame.results, hsame.loaded, hsame.models, hsame.calls⟩

theorem modelStarted_parses (hbounded : scope.registry.Bounded)
    (hfits : RowFits scope.registry state) {modelCall attempt : Nat} (hcall : 0 < modelCall)
    (hattempt : attempt = 1 ∨ attempt = 2) (seeded : Bool) :
    (RunnerEvent.modelStarted modelCall attempt (loadedOperationIds state) seeded).parses =
      true := by
  have hloaded : boundedStringArray (loadedOperationIds state) = true :=
    hfits.tools.boundedLoaded hbounded
  rcases hattempt with rfl | rfl <;> simp [RunnerEvent.parses, hcall, hloaded]

variable {modelCall : Nat}

theorem answers_onProviderAttempt2 (hbounded : scope.registry.Bounded) (fallback : RunState)
    (preflight : ModelPreflight) (hcall : 0 < modelCall) : Answers scope terms state (fun _ => True)
      (onProviderAttempt2 fallback preflight modelCall) := by
  refine yields_bind (answers_chargeAttemptFailure fallback preflight) fun _ _ => ?_
  refine answers_reload fun fresh hsame hfits => ?_
  refine answers_commitEvent ?_ (hfits.congr rfl rfl rfl rfl) ?_ nofun fun _ => rfl
  · exact ⟨hsame.results, hsame.loaded, hsame.models, hsame.calls⟩
  · exact fun _ => modelStarted_parses hbounded hfits hcall (Or.inr rfl) _

/-- What an answered attempt brings can be journaled. -/
def AttemptJournalable (terms : JournalTerms) (state : RunState) (attempt : ProviderAttempt) :
    Prop :=
  ∀ completion, attempt = .answered completion → Journalable terms state.loadedToolNames completion

abbrev CompletionJournalable (terms : JournalTerms) (state : RunState)
    (completion : ToolCompletion) : Prop :=
  Journalable terms state.loadedToolNames completion

theorem answers_fetch :
    Answers scope terms state (AttemptJournalable terms state) (RunnerProcess.perform .fetch) := by
  intro w h
  have hafter : ∀ env : RunnerEnv, Steady scope terms state
      ((w.act (.attempt env.attempt)).await env.others) := fun env =>
    ((h.copy.act (.attempt env.attempt)).await env.others).steady h.quiet
  refine safeE_perform rfl ⟨fun _ => trivial, fun env _ => (hafter env).copy.journaled⟩ ?_
  intro env hallowed
  refine ⟨fun completion heq => ?_, hafter env⟩
  rw [← h.copy.offered]
  exact hallowed completion heq

/-- What the provider client comes to, and the number of its attempts. -/
def AnswerFits (terms : JournalTerms) (state : RunState)
    (answer : Nat × Except RunError ToolCompletion) : Prop :=
  (answer.1 = 1 ∨ answer.1 = 2) ∧
    ∀ completion, answer.2 = .ok completion → CompletionJournalable terms state completion

theorem answers_completeWithTools (hbounded : scope.registry.Bounded) (fallback : RunState)
    (preflight : ModelPreflight) (hcall : 0 < modelCall) :
    Answers scope terms state (AnswerFits terms state)
      (completeWithTools fallback preflight modelCall) :=
  yields_completeWithTools (answers_silent rfl) answers_fetch
    (answers_onProviderAttempt2 hbounded fallback preflight hcall)

theorem answers_completeModelCall (fallback : RunState) {modelCall providerAttempts : Nat}
    (hcall : 0 < modelCall) (hattempts : providerAttempts = 1 ∨ providerAttempts = 2)
    (requestBytes started : Nat) {completion : ToolCompletion}
    (hcompletion : CompletionJournalable terms state completion) :
    Answers scope terms state (CompletionJournalable terms state)
      (completeModelCall fallback modelCall providerAttempts requestBytes started completion) := by
  refine answers_reload fun fresh hsame hfits => ?_
  refine yields_bind (answers_silent rfl) fun now _ => ?_
  have hcharge : ∀ usage : Option ProviderUsageCharge, ∀ response : Nat,
      (chargeSuccessfulModelAttempt fresh.budget usage requestBytes response).modelCallsUsed =
        fresh.budget.modelCallsUsed ∧
      (chargeSuccessfulModelAttempt fresh.budget usage requestBytes response).apiCallsUsed =
        fresh.budget.apiCallsUsed := by
    intro usage response
    cases usage <;> exact ⟨rfl, rfl⟩
  have hparse : terms.payloads → ∀ latencyMs, (RunnerEvent.modelCompleted modelCall
      providerAttempts completion.usage latencyMs).parses = true := by
    intro hpayloads latencyMs
    have husage := hcompletion.usage hpayloads
    rcases hattempts with rfl | rfl <;> simp [RunnerEvent.parses, hcall, husage]
  refine yields_bind (answers_commitEvent ?_ ?_ (fun hpayloads => hparse hpayloads _) nofun
    fun _ => rfl) fun _ _ => ?_
  · exact ⟨hsame.results, hsame.loaded, hsame.models.trans (hcharge _ _).1.symm,
      hsame.calls.trans (hcharge _ _).2.symm⟩
  · exact hfits.congr rfl rfl rfl (hcharge _ _).2
  · exact answers_reload fun _ _ _ => yields_pure hcompletion

theorem answers_chargeException (fallback : RunState) (preflight : ModelPreflight)
    (providerAttempts : Nat) : Answers scope terms state (fun _ => True)
      (chargeException fallback preflight providerAttempts) := by
  refine answers_reload fun fresh hsame hfits => ?_
  split
  · exact yields_pure trivial
  · exact yields_bind (answers_chargeAttemptFailure fresh preflight) fun _ _ =>
      yields_pure trivial

/-- A completion that is returned can be journaled. -/
abbrev ReturnJournalable (terms : JournalTerms) (state : RunState)
    (ended : Except RunError ToolCompletion) : Prop :=
  ∀ completion, ended = .ok completion → CompletionJournalable terms state completion

theorem answers_finishCall (fallback : RunState) (preflight : ModelPreflight)
    (hcall : 0 < modelCall) (requestBytes started : Nat)
    {answer : Nat × Except RunError ToolCompletion} (hanswer : AnswerFits terms state answer) :
    Answers scope terms state (ReturnJournalable terms state)
      (finishCall fallback preflight modelCall requestBytes started answer) :=
  yields_finishCall (fun completion hcompletion => answers_completeModelCall fallback hcall
    hanswer.1 requestBytes started (hanswer.2 completion hcompletion))
    (answers_chargeException fallback preflight answer.1)

theorem answers_chargeWallTime (fallback : RunState) (started : Nat) :
    Answers scope terms state (fun _ => True) (chargeWallTime fallback started) := by
  refine answers_reload fun fresh hsame hfits => ?_
  refine yields_bind (answers_silent rfl) fun now _ => ?_
  refine answers_saveRun ?_ (hfits.congr rfl rfl rfl rfl)
  exact ⟨hsame.results, hsame.loaded, hsame.models, hsame.calls⟩

theorem answers_callReserved (hbounded : scope.registry.Bounded) (fallback : RunState)
    (preflight : ModelPreflight) (hcall : 0 < modelCall) (requestBytes : Nat) :
    Answers scope terms state (CompletionJournalable terms state)
      (callReserved fallback preflight modelCall requestBytes) := by
  refine answers_reload fun fresh hsame hfits => ?_
  refine yields_bind (answers_silent rfl) fun started _ => ?_
  refine yields_bind (answers_completeWithTools hbounded fresh preflight hcall)
    fun answer hanswer => ?_
  refine yields_bind (answers_finishCall fresh preflight hcall requestBytes started hanswer)
    fun ended hended => ?_
  refine yields_bind (answers_chargeWallTime fresh started) fun _ _ => ?_
  cases ended with
  | ok completion => exact yields_pure (hended completion rfl)
  | error e => exact yields_throw e

theorem safeE_reserveFirst (hbounded : scope.registry.Bounded) (h : Rested scope terms state w)
    (hcall : 0 < modelCall) {E : RunError → RunWorld → Prop} :
    SafeE (S := journaling scope terms) (reserveModelCall state modelCall 1)
      (fun _ => Steady scope terms state.reserved) E w := by
  have hfits : RowFits scope.registry state.reserved := h.copy.fits.congr rfl rfl rfl rfl
  have hparse := modelStarted_parses hbounded h.copy.fits hcall (Or.inl rfl)
    (decide (0 < state.usedToolNames.length))
  refine SafeE.weaken (safeE_commitEvent h.copy (linksTo_self _) hfits hparse
    (appends_boundary h.settled nofun)) ?_
  intro _ w' h'
  exact h'.steady fun _ => quiet_concat _ (Or.inl rfl)

theorem safeE_silentRested {o : RunnerOp} (ho : RunnerOp.silent o = true)
    (h : Rested scope terms state w) : SafeE (S := journaling scope terms) (RunnerProcess.perform o)
      (fun _ => Rested scope terms state)
      (fun _ => Rested scope terms state) w :=
  SafeE.mono (safeE_silent ho h.copy) (fun _ _ h' => h'.rested h.settled)
    fun _ _ h' => h'.rested h.settled

/-- A call that throws leaves the copy that it was given fit to fail the run with. -/
theorem safeE_callModel (hbounded : scope.registry.Bounded) (h : Rested scope terms state w)
    (hcall : 0 < modelCall) : SafeE (S := journaling scope terms) (callModel state modelCall)
      (fun completion w' => CompletionJournalable terms state completion ∧
        Steady scope terms state.reserved w')
      (fun _ => Failing scope terms state) w := by
  refine safeE_bind (SafeE.mono (safeE_silentRested rfl h) (fun _ _ h' => h')
    fun _ _ h' => h'.failing) ?_
  intro requestBytes w₁ h₁
  split
  · exact safeE_throw h₁.failing
  rename_i preflight _
  refine safeE_bind (safeE_reserveFirst hbounded h₁ hcall) ?_
  intro _ w₂ h₂
  refine SafeE.mono (answers_callReserved hbounded state preflight hcall requestBytes w₂ h₂)
    (fun _ _ h' => h') ?_
  intro _ w₃ h₃
  exact h₃.failing.congr rfl h₁.copy.fits

theorem modelFailureCode_bounded (e : RunError) :
    boundedString (Runner.modelFailureCode e) = true := by
  cases e with
  | providerProtocol reason => cases reason <;> decide
  | _ => decide

/-- A model call either leaves a completion that can be journaled, or a failed run. -/
theorem safeE_modelStep (hbounded : scope.registry.Bounded) (h : Rested scope terms state w)
    (hcall : 0 < modelCall) {E : RunError → RunWorld → Prop} :
    SafeE (S := journaling scope terms) (Runner.modelStep state modelCall)
      (fun r w' => match r with
        | .ok completion => CompletionJournalable terms state completion ∧
            Steady scope terms state.reserved w'
        | .error outcome => Ended scope terms outcome w') E w := by
  refine safeE_bind (safeE_attempted (safeE_callModel hbounded h hcall)) ?_
  intro r w' hr
  cases r with
  | ok completion => exact safeE_pure hr
  | error e =>
    exact safeE_bind (safeE_failRun hr (modelFailureCode_bounded e)) fun _ _ h' => safeE_pure h'

end ModelCall

end RunJournal

end ClockifyAssistant
