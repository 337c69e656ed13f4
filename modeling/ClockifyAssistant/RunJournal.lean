import ClockifyAssistant.ToolCallIdentity
import ClockifyAssistant.ToolJournal

/-!
What the runner hands to the run-event store. Two questions are asked of one run: whether
every payload passes its schema, and whether the journal closes each call that it opens. They
ask for different things of the answers that the runner is given.
-/
namespace ClockifyAssistant

open Lib RunnerProcess RunService ToolJournal
open Fallible hiding perform

/-- The names of the catalog are names that the journal can hold. -/
def ActionRegistry.Bounded (registry : ActionRegistry) : Prop :=
  ∀ name, (registry.get name).isSome = true → name ≠ "" ∧ boundedString name = true

def RunPhase.working : RunPhase → Bool
  | .model | .discovering | .executingReads | .preparingWrites => true
  | _ => false

/-- A run that works or waits for an answer may be taken up again. -/
def RunPhase.resumable : RunPhase → Bool
  | .awaitingClarification => true
  | phase => phase.working

/-- Nobody else takes up a run that has ended or waits for a confirmation. -/
def OtherRunWrites.Idle (writes : OtherRunWrites) (w : RunWorld) : Prop :=
  ∀ phase, writes.phase = some phase → phase.resumable = true →
    ∃ run, w.run = some run ∧ run.phase.resumable = true

namespace RunJournal

/-- Which of the two questions is asked. -/
structure JournalTerms where
  payloads : Prop
  closing : Prop

/-- A completion whose calls the journal can hold. Its calls are those of offered tools, as the
model client sees to. -/
structure Journalable (terms : JournalTerms) (offered : List String)
    (completion : ToolCompletion) : Prop where
  names : ∀ call ∈ completion.toolCalls, call.name ∈ offered
  ids : ∀ call ∈ completion.toolCalls, call.id ≠ "" ∧ boundedString call.id = true
  usage : terms.payloads → completion.usage.all TokenUsage.parses = true
  groups : terms.payloads → ∀ call ∈ completion.toolCalls, ∀ parsed,
    ApiDiscovery.parseFindApiOperationsInput call.arguments = some parsed →
      (parsed.groups.getD []).length ≤ featureGroupNames.length
  distinct : terms.closing → (completion.toolCalls.map ToolCall.id).Nodup

/-- A preparation whose outcome the journal can hold: a denial with a bounded code, or a result
row, which closes the only call that was handed over. -/
def PreparationJournalable (terms : JournalTerms) (calls : List ToolCall) :
    Except RunError WritePreparationOutcome → Prop
  | .ok (.denied code) => boundedString code = true
  | .ok (.notReady actionResultId) =>
      actionResultId.isSome = true ∧ (terms.closing → calls.length = 1)
  | .ok _ => True
  | .error _ => False

/-- The calls were requested in the journal, as those of a completion are. -/
def Requested (w : RunWorld) (calls : List ToolCall) : Prop :=
  ∃ call ∈ calls, RunnerEvent.toolRequested call.id call.name ∈ w.events

def offeredTools (w : RunWorld) : List String := (w.run.map RunState.loadedToolNames).getD []

/-- What the answers of the world outside keep to. -/
def AnswerJournalable (scope : RunnerScope) (terms : JournalTerms) (o : RunnerOp)
    (env : RunnerEnv) (w : RunWorld) : Prop :=
  match o with
  | .fetch => ∀ completion, env.attempt = .answered completion →
      Journalable terms (offeredTools w) completion
  | .search _ => ∀ names, env.search = .ok names →
      ∀ name ∈ names, (scope.registry.get name).isSome = true
  | .prepare calls => Requested w calls → PreparationJournalable terms calls env.preparation
  | .wait => terms.closing → env.others.Idle w
  | _ => True

/-- The store takes what it is handed. -/
def Accepted (o : RunnerOp) (w : RunWorld) : Prop :=
  match o with
  | .commitStateEvents state events => (w.commitStateEvents state events).1 = .ok ()
  | _ => True

/-- The loaded tools fit the journal, and the used ones are among them. -/
structure ToolsFit (registry : ActionRegistry) (state : RunState) : Prop where
  loaded : (ApiDiscovery.apiToolNames state.loadedToolNames).length ≤ maxLoadedApiTools
  known : ∀ name ∈ state.loadedToolNames, name ≠ discoveryMetaToolName →
    (registry.get name).isSome = true
  usedNodup : state.usedToolNames.Nodup
  usedLoaded : ∀ name ∈ state.usedToolNames, name ≠ discoveryMetaToolName →
    name ∈ state.loadedToolNames

/-- A copy of the run whose journal entries fit: at most as many results as counted calls. -/
structure RowFits (registry : ActionRegistry) (state : RunState) : Prop where
  tools : ToolsFit registry state
  results : state.completedResults.length ≤ state.budget.apiCallsUsed
  calls : state.budget.apiCallsUsed ≤ maxApiCalls

/-- The results that are linked to the run. -/
def linkedResults (w : RunWorld) : List CompletedToolResult :=
  (w.run.map RunState.completedResults).getD []

/-- Every completed call is linked to the run with the result that its event names. -/
def CompletedLinked (w : RunWorld) : Prop :=
  ∀ id actionName actionResultId,
    RunnerEvent.toolCompleted id actionName actionResultId ∈ w.events →
      ∃ result, actionResultId = some result ∧ ⟨id, actionName, some result⟩ ∈ linkedResults w

/-- What holds at every point of a run. -/
structure Journaled (scope : RunnerScope) (terms : JournalTerms) (w : RunWorld) : Prop where
  row : ∀ run, w.run = some run → RowFits scope.registry run
  closes : terms.closing → Closes w.events
  linked : terms.closing → CompletedLinked w
  unstarted : terms.closing → w.run = none → Quiet w.events

/-- Two copies that link, offer and count alike. -/
structure SameCopy (run state : RunState) : Prop where
  results : run.completedResults = state.completedResults
  loaded : run.loadedToolNames = state.loadedToolNames
  models : run.budget.modelCallsUsed = state.budget.modelCallsUsed
  calls : run.budget.apiCallsUsed = state.budget.apiCallsUsed

/-- A copy that agrees with the row, at a point where the log is `events`. -/
structure Copy (scope : RunnerScope) (terms : JournalTerms) (state : RunState)
    (events : List RunnerEvent) (w : RunWorld) : Prop where
  journaled : Journaled scope terms w
  row : ∃ run, w.run = some run ∧ SameCopy run state
  fits : RowFits scope.registry state
  log : w.events = events

def journaling (scope : RunnerScope) (terms : JournalTerms) : Spec (runController scope) where
  Inv := Journaled scope terms
  Rely _ _ := True
  Pre o w := (terms.payloads → Accepted o w) ∧
    ∀ env, AnswerJournalable scope terms o env w → Journaled scope terms (RunnerOp.exec env w o).2
  Allowed := AnswerJournalable scope terms

section World

variable {scope : RunnerScope} {terms : JournalTerms} {w : RunWorld} {events : List RunnerEvent}
  {state state' : RunState}

theorem SameCopy.refl (state : RunState) : SameCopy state state := ⟨rfl, rfl, rfl, rfl⟩

theorem SameCopy.symm (h : SameCopy state state') : SameCopy state' state :=
  ⟨h.results.symm, h.loaded.symm, h.models.symm, h.calls.symm⟩

theorem SameCopy.trans {state'' : RunState} (h : SameCopy state state')
    (h' : SameCopy state' state'') : SameCopy state state'' :=
  ⟨h.results.trans h'.results, h.loaded.trans h'.loaded, h.models.trans h'.models,
    h.calls.trans h'.calls⟩

/-- What fits is read off the tools, the results and the counted calls. -/
theorem RowFits.congr {registry : ActionRegistry} (h : RowFits registry state)
    (hloaded : state'.loadedToolNames = state.loadedToolNames)
    (hused : state'.usedToolNames = state.usedToolNames)
    (hresults : state'.completedResults = state.completedResults)
    (hcalls : state'.budget.apiCallsUsed = state.budget.apiCallsUsed) :
    RowFits registry state' := by
  obtain ⟨⟨hle, hknown, hnodup, hsub⟩, hlength, hcap⟩ := h
  refine ⟨⟨?_, ?_, ?_, ?_⟩, ?_, ?_⟩
  · rw [hloaded]
    exact hle
  · rw [hloaded]
    exact hknown
  · rw [hused]
    exact hnodup
  · rw [hused, hloaded]
    exact hsub
  · rw [hresults, hcalls]
    exact hlength
  · rw [hcalls]
    exact hcap

theorem Journaled.act (h : Journaled scope terms w) (act : RunAct) :
    Journaled scope terms (w.act act) :=
  ⟨h.row, h.closes, h.linked, h.unstarted⟩

theorem Journaled.await (h : Journaled scope terms w) (others : OtherRunWrites) :
    Journaled scope terms (w.await others) := by
  refine ⟨?_, h.closes, ?_, fun hclosing hnone =>
    h.unstarted hclosing (Option.map_eq_none_iff.mp hnone)⟩
  · intro run hrun
    obtain ⟨old, hold, rfl⟩ := Option.map_eq_some_iff.mp hrun
    exact (h.row old hold).congr rfl rfl rfl rfl
  · intro hclosing id actionName actionResultId hevent
    obtain ⟨result, hresult, hlink⟩ := h.linked hclosing id actionName actionResultId hevent
    have hsame : linkedResults (w.await others) = linkedResults w := by
      simp [linkedResults, RunWorld.await, Function.comp_def, OtherRunWrites.apply]
    exact ⟨result, hresult, hsame ▸ hlink⟩

theorem Copy.act (h : Copy scope terms state events w) (act : RunAct) :
    Copy scope terms state events (w.act act) :=
  ⟨h.journaled.act act, h.row, h.fits, h.log⟩

theorem Copy.await (h : Copy scope terms state events w) (others : OtherRunWrites) :
    Copy scope terms state events (w.await others) := by
  obtain ⟨run, hrun, hsame⟩ := h.row
  refine ⟨h.journaled.await others, ⟨others.apply run, ?_, ?_⟩, h.fits, h.log⟩
  · show w.run.map others.apply = _
    rw [hrun]
    rfl
  · exact ⟨hsame.results, hsame.loaded, hsame.models, hsame.calls⟩

theorem Journaled.prepared (h : Journaled scope terms w) (outcome : WritePreparationOutcome) :
    Journaled scope terms (w.prepared outcome) := by
  cases outcome with
  | prepared operationIds confirmationIds batchId hostCallsReserved =>
    refine ⟨?_, fun hclosing => (h.closes hclosing).concat_inner rfl, ?_,
      fun _ _ => quiet_concat _ (Or.inr rfl)⟩
    · intro run hrun
      obtain ⟨old, hold, rfl⟩ := Option.map_eq_some_iff.mp hrun
      exact (h.row old hold).congr rfl rfl rfl rfl
    · intro hclosing id actionName actionResultId hevent
      have hold : RunnerEvent.toolCompleted id actionName actionResultId ∈ w.events := by
        rcases List.mem_append.mp hevent with hmem | hmem
        · exact hmem
        · cases List.mem_singleton.mp hmem
      obtain ⟨result, hresult, hlink⟩ := h.linked hclosing _ _ _ hold
      have hsame : linkedResults (w.prepared (.prepared operationIds confirmationIds batchId
          hostCallsReserved)) = linkedResults w := by
        simp [linkedResults, RunWorld.prepared, Function.comp_def]
      exact ⟨result, hresult, hsame ▸ hlink⟩
  | clarification clarificationId actionResultId => exact h
  | denied code => exact h
  | notReady actionResultId => exact h

end World

/-- The operations that append no event and write no state of the controller. -/
def RunnerOp.silent : RunnerOp → Bool
  | .startRun _ | .commitStateEvents _ _ | .saveRun _ | .saveAdmission _ _ | .prepare _ => false
  | _ => true

theorem RunnerOp.silent_inv {P : RunWorld → Prop}
    (hawait : ∀ w others, P w → P (w.await others)) (hact : ∀ w act, P w → P (w.act act))
    {o : RunnerOp} {w : RunWorld} (ho : RunnerOp.silent o = true) (h : P w) (env : RunnerEnv) :
    P (o.exec env w).2 := by
  cases o with
  | startRun state => cases ho
  | commitStateEvents state events => cases ho
  | saveRun state => cases ho
  | saveAdmission state admitted => cases ho
  | prepare calls => cases ho
  | decide decision => exact hact _ _ h
  | fetch => exact hawait _ _ (hact _ _ h)
  | search input => exact hawait _ _ (hact _ _ h)
  | executeRead call => exact hawait _ _ (hact _ _ h)
  | wait => exact hawait _ _ h
  | _ => exact h

section Operations

variable {scope : RunnerScope} {terms : JournalTerms} {w : RunWorld}
  {events added : List RunnerEvent} {base state : RunState}

theorem safeE_silent {o : RunnerOp} (ho : RunnerOp.silent o = true)
    (h : Copy scope terms state events w) :
    SafeE (S := journaling scope terms) (RunnerProcess.perform o)
      (fun _ => Copy scope terms state events)
      (fun _ => Copy scope terms state events) w := by
  have haccepted : terms.payloads → Accepted o w := by
    intro _
    cases o <;> trivial
  refine safeE_perform rfl ⟨haccepted, fun env _ => ?_⟩ fun env _ => ?_
  · exact RunnerOp.silent_inv (fun _ others hw => hw.await others) (fun _ act hw => hw.act act) ho
      h.journaled env
  · have hafter : Copy scope terms state events (o.exec env w).2 :=
      RunnerOp.silent_inv (fun _ others hw => hw.await others) (fun _ act hw => hw.act act) ho h env
    cases hresult : (RunnerOp.exec env w o).1 with
    | ok value =>
      simp only [runController, hresult]
      exact hafter
    | error e =>
      simp only [runController, hresult]
      exact hafter

end Operations

/-- The store links exactly the results that the copy holds. -/
def LinksTo (links results : List CompletedToolResult) : Prop :=
  linkResults links results = .ok results ∧ links ⊆ results

theorem linksTo_self (links : List CompletedToolResult) : LinksTo links links :=
  ⟨linkResults_self links, List.Subset.refl links⟩

theorem linksTo_completed (links : List CompletedToolResult) {result : CompletedToolResult}
    (hlinkable : resultLinkable result = true) :
    LinksTo links (ActionExecution.linkCompleted links result) := by
  unfold ActionExecution.linkCompleted
  split
  · exact linksTo_self links
  · rename_i hnew
    refine ⟨?_, List.subset_append_left _ _⟩
    have hold : links.zipIdx.foldlM linkResult links = .ok links :=
      linkResults_of_linked (fun _ h => h) 0
    have hlink : linkResult links (result, links.length) = .ok (links ++ [result]) := by
      simp [linkResult, hnew, hlinkable]
    rw [linkResults, List.zipIdx_append, List.foldlM_append, hold]
    show (linkResult links (result, 0 + links.length) >>= fun links => .ok links) = _
    rw [Nat.zero_add, hlink]
    rfl

section Writes

variable {scope : RunnerScope} {terms : JournalTerms} {w : RunWorld}
  {events added : List RunnerEvent} {base state : RunState} {E : RunError → RunWorld → Prop}

theorem safeE_getRun (h : Journaled scope terms w) :
    SafeE (S := journaling scope terms) (RunnerProcess.perform .getRun)
      (fun run w' => run = w.run ∧ w' = w)
      E w :=
  safeE_perform rfl ⟨fun _ => trivial, fun _ _ => h⟩ fun _ _ => ⟨rfl, rfl⟩

theorem safeE_reload (h : Copy scope terms state events w) (fallback : RunState) :
    SafeE (S := journaling scope terms) (reload fallback)
      (fun state' w' => Copy scope terms state' events w' ∧ SameCopy state state' ∧
        w'.run = some state') E w := by
  refine safeE_bind (safeE_getRun h.journaled) ?_
  rintro _ w' ⟨rfl, rfl⟩
  obtain ⟨run, hrun, hsame⟩ := h.row
  rw [hrun]
  exact safeE_pure ⟨⟨h.journaled, ⟨run, hrun, .refl run⟩, h.journaled.row run hrun, h.log⟩,
    hsame.symm, hrun⟩

/-- What a commit appends to the log. -/
structure Appends (terms : JournalTerms) (events added : List RunnerEvent)
    (results : List CompletedToolResult) : Prop where
  closes : terms.closing → Closes events → Closes (events ++ added)
  linked : terms.closing → ∀ id actionName actionResultId,
    RunnerEvent.toolCompleted id actionName actionResultId ∈ added →
      ∃ result, actionResultId = some result ∧ ⟨id, actionName, some result⟩ ∈ results

theorem Journaled.written (h : Journaled scope terms w) {run : RunState} (hrun : w.run = some run)
    (hsub : run.completedResults ⊆ state.completedResults) (hfits : RowFits scope.registry state)
    (happends : Appends terms w.events added state.completedResults) : Journaled scope terms
      { w with run := some (run.written state state.completedResults)
               events := w.events ++ added } := by
  refine ⟨?_, fun hclosing => happends.closes hclosing (h.closes hclosing), ?_, nofun⟩
  · intro row hrow
    cases hrow
    exact hfits.congr rfl rfl rfl rfl
  · intro hclosing id actionName actionResultId hevent
    rcases List.mem_append.mp hevent with hold | hnew
    · obtain ⟨result, hresult, hlink⟩ := h.linked hclosing id actionName actionResultId hold
      have hrow : ⟨id, actionName, some result⟩ ∈ run.completedResults := by
        simpa [linkedResults, hrun] using hlink
      exact ⟨result, hresult, hsub hrow⟩
    · exact happends.linked hclosing id actionName actionResultId hnew

theorem commit_accepted {run : RunState} (hrun : w.run = some run)
    (hlinks : LinksTo run.completedResults state.completedResults)
    (hparse : added.all RunnerEvent.parses = true) : w.commitStateEvents state added = (.ok (),
      { w with run := some (run.written state state.completedResults)
               events := w.events ++ added }) := by
  simp [RunWorld.commitStateEvents, hparse, hrun, hlinks.1]

theorem commit_refused (hparse : added.all RunnerEvent.parses = false) :
    w.commitStateEvents state added = (.error .invalidEventPayload, w) := by
  simp [RunWorld.commitStateEvents, hparse]

theorem safeE_commitRow (state : RunState) (h : Journaled scope terms w) {run : RunState}
    (hrun : w.run = some run) (hlinks : LinksTo run.completedResults state.completedResults)
    (hfits : RowFits scope.registry state)
    (hparse : terms.payloads → added.all RunnerEvent.parses = true)
    (happends : Appends terms w.events added state.completedResults) :
    SafeE (S := journaling scope terms) (RunnerProcess.perform (.commitStateEvents state added))
      (fun _ w' => Journaled scope terms w' ∧
        w'.run = some (run.written state state.completedResults) ∧
        w'.events = w.events ++ added)
      (fun _ w' => w' = w ∧ added.all RunnerEvent.parses = false) w := by
  have hwritten := h.written hrun hlinks.2 hfits happends
  by_cases hparses : added.all RunnerEvent.parses = true
  · have haccepted := @commit_accepted w added state _ hrun hlinks hparses
    refine safeE_perform rfl ⟨fun _ => ?_, fun env _ => ?_⟩ fun env _ => ?_
    · show (w.commitStateEvents state added).1 = .ok ()
      rw [haccepted]
    · show Journaled scope terms (w.commitStateEvents state added).2
      rw [haccepted]
      exact hwritten
    · show Meets (M := runController scope) _ _ (w.commitStateEvents state added).1
        (w.commitStateEvents state added).2
      rw [haccepted]
      exact ⟨hwritten, rfl, rfl⟩
  · have hrefused := @commit_refused w added state (Bool.not_eq_true _ ▸ hparses)
    refine safeE_perform rfl ⟨fun hpayloads => absurd (hparse hpayloads) hparses, fun env _ => ?_⟩
      fun env _ => ?_
    · show Journaled scope terms (w.commitStateEvents state added).2
      rw [hrefused]
      exact h
    · show Meets (M := runController scope) _ _ (w.commitStateEvents state added).1
        (w.commitStateEvents state added).2
      rw [hrefused]
      exact ⟨rfl, Bool.not_eq_true _ ▸ hparses⟩

theorem safeE_commit (state : RunState) (h : Copy scope terms base events w)
    (hlinks : LinksTo base.completedResults state.completedResults)
    (hfits : RowFits scope.registry state)
    (hparse : terms.payloads → added.all RunnerEvent.parses = true)
    (happends : Appends terms events added state.completedResults) :
    SafeE (S := journaling scope terms) (RunnerProcess.perform (.commitStateEvents state added))
      (fun _ => Copy scope terms state (events ++ added))
      (fun _ w' => Copy scope terms base events w' ∧ added.all RunnerEvent.parses = false) w := by
  obtain ⟨run, hrun, hsame⟩ := h.row
  obtain rfl := h.log
  refine SafeE.mono (safeE_commitRow state h.journaled hrun (hsame.results ▸ hlinks) hfits hparse
    happends) ?_ ?_
  · rintro _ w' ⟨hjournaled, hrow, hevents⟩
    exact ⟨hjournaled, ⟨_, hrow, ⟨rfl, rfl, rfl, rfl⟩⟩, hfits, hevents⟩
  · rintro e _ ⟨rfl, hrefused⟩
    exact ⟨h, hrefused⟩

variable {event : RunnerEvent}

theorem appends_inner {results : List CompletedToolResult} (hboundary : event.isBoundary = false)
    (hcompleted : ∀ id actionName actionResultId,
      event ≠ .toolCompleted id actionName actionResultId) :
    Appends terms events [event] results := by
  refine ⟨fun _ h => h.concat_inner hboundary, ?_⟩
  intro _ id actionName actionResultId hmem
  exact absurd (List.mem_singleton.mp hmem).symm (hcompleted _ _ _)

theorem appends_boundary {results : List CompletedToolResult}
    (hsettled : terms.closing → ToolJournal.Settled events)
    (hcompleted : ∀ id actionName actionResultId,
      event ≠ .toolCompleted id actionName actionResultId) :
    Appends terms events [event] results := by
  refine ⟨fun hclosing h => h.concat_settled (hsettled hclosing), ?_⟩
  intro _ id actionName actionResultId hmem
  exact absurd (List.mem_singleton.mp hmem).symm (hcompleted _ _ _)

theorem safeE_commitEvent (h : Copy scope terms base events w)
    (hlinks : LinksTo base.completedResults state.completedResults)
    (hfits : RowFits scope.registry state) (hparse : event.parses = true)
    (happends : Appends terms events [event] state.completedResults) :
    SafeE (S := journaling scope terms) (commitEvent state event)
      (fun _ => Copy scope terms state (events ++ [event])) E w := by
  have hall : [event].all RunnerEvent.parses = true := by simp [hparse]
  refine SafeE.mono (safeE_commit state h hlinks hfits (fun _ => hall) happends)
    (fun _ _ h' => h') ?_
  rintro e w' ⟨-, hrefused⟩
  rw [hall] at hrefused
  cases hrefused

theorem safeE_commitAndReload (state : RunState) (h : Copy scope terms base events w)
    (hlinks : LinksTo base.completedResults state.completedResults)
    (hfits : RowFits scope.registry state) (hparse : event.parses = true)
    (happends : Appends terms events [event] state.completedResults) (fallback : RunState) :
    SafeE (S := journaling scope terms) (do
      commitEvent state event
      reload fallback)
      (fun state' w' => Copy scope terms state' (events ++ [event]) w' ∧ SameCopy state state')
      E w := by
  refine safeE_bind (safeE_commitEvent h hlinks hfits hparse happends) fun _ w' h' => ?_
  exact SafeE.weaken (safeE_reload h' fallback) (fun _ _ hr => ⟨hr.1, hr.2.1⟩)

theorem Copy.saveRun (state : RunState) (h : Copy scope terms base events w)
    (hresults : base.completedResults = state.completedResults)
    (hfits : RowFits scope.registry state) :
    ∃ saved, w.saveRun state = (.ok (), saved) ∧ Copy scope terms state events saved := by
  obtain ⟨run, hrun, hsame⟩ := h.row
  have hlinks : run.completedResults = state.completedResults := hsame.results.trans hresults
  have happends : Appends terms w.events [] state.completedResults := by
    refine ⟨fun _ hcloses => ?_, fun _ _ _ _ hmem => nomatch hmem⟩
    rwa [List.append_nil]
  have hwritten := h.journaled.written hrun (hlinks ▸ List.Subset.refl _) hfits happends
  rw [List.append_nil] at hwritten
  refine ⟨{ w with run := some (run.written state state.completedResults) }, ?_, hwritten,
    ⟨_, rfl, ⟨rfl, rfl, rfl, rfl⟩⟩, hfits, h.log⟩
  simp [RunWorld.saveRun, hrun, hlinks, linkResults_self]

theorem safeE_saveRun (state : RunState) (h : Copy scope terms base events w)
    (hresults : base.completedResults = state.completedResults)
    (hfits : RowFits scope.registry state) :
    SafeE (S := journaling scope terms) (RunnerProcess.perform (.saveRun state))
      (fun _ => Copy scope terms state events) E w := by
  obtain ⟨saved, hsave, hcopy⟩ := h.saveRun state hresults hfits
  refine safeE_perform rfl ⟨fun _ => trivial, fun env _ => ?_⟩ fun env _ => ?_
  · show Journaled scope terms (w.saveRun state).2
    rw [hsave]
    exact hcopy.journaled
  · show Meets (M := runController scope) _ _ (w.saveRun state).1 (w.saveRun state).2
    rw [hsave]
    exact hcopy

theorem safeE_saveAdmission (state : RunState) (admitted : List ToolCall)
    (h : Copy scope terms base events w) (hresults : base.completedResults = state.completedResults)
    (hfits : RowFits scope.registry state) :
    SafeE (S := journaling scope terms) (RunnerProcess.perform (.saveAdmission state admitted))
      (fun _ => Copy scope terms state events) E w := by
  obtain ⟨saved, hsave, hcopy⟩ := h.saveRun state hresults hfits
  have hexec : ∀ env, RunnerOp.exec env w (.saveAdmission state admitted) =
      (.ok (), saved.act (.writesAdmitted admitted)) := by
    intro env
    simp only [RunnerOp.exec, hsave]
  refine safeE_perform rfl ⟨fun _ => trivial, fun env _ => ?_⟩ fun env _ => ?_
  · show Journaled scope terms (RunnerOp.exec env w _).2
    rw [hexec env]
    exact hcopy.journaled.act _
  · show Meets (M := runController scope) _ _ (RunnerOp.exec env w _).1 (RunnerOp.exec env w _).2
    rw [hexec env]
    exact hcopy.act _

theorem safeE_commitAccepted (h : Journaled scope terms w) (state : RunState) {run : RunState}
    (hrun : w.run = some run) (hlinks : LinksTo run.completedResults state.completedResults)
    (hfits : RowFits scope.registry state) (hparse : added.all RunnerEvent.parses = true)
    (happends : Appends terms w.events added state.completedResults) :
    SafeE (S := journaling scope terms) (RunnerProcess.perform (.commitStateEvents state added))
      (fun _ w' => Journaled scope terms w' ∧
        w'.run = some (run.written state state.completedResults) ∧
        w'.events = w.events ++ added) E w := by
  refine SafeE.mono (safeE_commitRow state h hrun hlinks hfits (fun _ => hparse) happends)
    (fun _ _ h' => h') ?_
  rintro e w' ⟨-, hrefused⟩
  rw [hparse] at hrefused
  cases hrefused

end Writes

end RunJournal

end ClockifyAssistant
