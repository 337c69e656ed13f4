import ClockifyAssistant.AssistantV2.Runner

/-!
The accounts of a run: what its counters hold beside its event log and the writes that
were admitted. Between its waits the controller works on copies of the run; a copy is
current when its results and counters are those of the row.
-/
namespace ClockifyAssistant

open Lib RunnerProcess
open Fallible hiding perform

def RunnerEvent.startsModelCall : RunnerEvent → Bool
  | .modelStarted _ providerAttempt _ _ => providerAttempt == 1
  | _ => false

def RunnerEvent.startsSearch : RunnerEvent → Bool
  | .apiSearchStarted _ _ _ => true
  | _ => false

def RunnerEvent.startsRead : RunnerEvent → Bool
  | .toolStarted _ _ => true
  | _ => false

def RunnerEvent.failsRun : RunnerEvent → Bool
  | .runFailed _ => true
  | _ => false

def RunAct.admittedWrites : RunAct → Nat
  | .writesAdmitted calls => calls.length
  | _ => 0

namespace RunWorld

def modelCallsStarted (w : RunWorld) : Nat := w.events.countP RunnerEvent.startsModelCall

def searchesStarted (w : RunWorld) : Nat := w.events.countP RunnerEvent.startsSearch

def readsStarted (w : RunWorld) : Nat := w.events.countP RunnerEvent.startsRead

def writesAdmitted (w : RunWorld) : Nat := (w.acts.map RunAct.admittedWrites).sum

end RunWorld

/-- A budget agrees with what has happened in the run. -/
structure BudgetAccounts (w : RunWorld) (budget : RunState.Budget) : Prop where
  modelCalls : budget.modelCallsUsed ≤ maxModelCalls
  discoveryCalls : budget.discoveryCallsUsed ≤ maxDiscoveryCalls
  apiCalls : budget.apiCallsUsed ≤ maxApiCalls
  models : w.events.any RunnerEvent.failsRun = false → budget.modelCallsUsed = w.modelCallsStarted
  searches : budget.discoveryCallsUsed = w.searchesStarted
  calls : budget.apiCallsUsed = w.readsStarted + w.writesAdmitted

structure RunAccounted (w : RunWorld) : Prop where
  row : ∀ run, w.run = some run → BudgetAccounts w run.budget
  unstarted : w.run = none → BudgetAccounts w createEmptyRunBudget
  decisions : ∀ decision completedIds, .decided decision completedIds ∈ w.acts →
    decision.priorToolCallIds = completedIds

/-- Two copies of the run with the same results and counters. -/
structure SameAccounts (run state : RunState) : Prop where
  results : run.completedResults = state.completedResults
  models : run.budget.modelCallsUsed = state.budget.modelCallsUsed
  searches : run.budget.discoveryCallsUsed = state.budget.discoveryCallsUsed
  calls : run.budget.apiCallsUsed = state.budget.apiCallsUsed

theorem SameAccounts.refl (run : RunState) : SameAccounts run run := ⟨rfl, rfl, rfl, rfl⟩

theorem SameAccounts.symm {run state : RunState} (h : SameAccounts run state) :
    SameAccounts state run :=
  ⟨h.results.symm, h.models.symm, h.searches.symm, h.calls.symm⟩

theorem SameAccounts.trans {run state state' : RunState} (h : SameAccounts run state)
    (h' : SameAccounts state state') : SameAccounts run state' :=
  ⟨h.results.trans h'.results, h.models.trans h'.models, h.searches.trans h'.searches,
    h.calls.trans h'.calls⟩

section Accounts

variable {w w' : RunWorld} {budget budget' : RunState.Budget}

/-- What the counters are compared with is the log and the admissions. -/
theorem BudgetAccounts.congr (h : BudgetAccounts w budget) (hevents : w'.events = w.events)
    (hacts : w'.writesAdmitted = w.writesAdmitted)
    (hmodels : budget'.modelCallsUsed = budget.modelCallsUsed)
    (hsearches : budget'.discoveryCallsUsed = budget.discoveryCallsUsed)
    (hcalls : budget'.apiCallsUsed = budget.apiCallsUsed) : BudgetAccounts w' budget' := by
  refine ⟨?_, ?_, ?_, ?_, ?_, ?_⟩
  · rw [hmodels]
    exact h.modelCalls
  · rw [hsearches]
    exact h.discoveryCalls
  · rw [hcalls]
    exact h.apiCalls
  · intro hfails
    rw [hevents] at hfails
    rw [hmodels, RunWorld.modelCallsStarted, hevents]
    exact h.models hfails
  · rw [hsearches, RunWorld.searchesStarted, hevents]
    exact h.searches
  · rw [hcalls, RunWorld.readsStarted, hevents, hacts]
    exact h.calls

/-- The events of a commit and the counters it writes grow by the same amounts. -/
theorem BudgetAccounts.append (h : BudgetAccounts w budget) {events : List RunnerEvent}
    (hevents : w'.events = w.events ++ events) (hacts : w'.acts = w.acts)
    (hmodels : budget'.modelCallsUsed =
      budget.modelCallsUsed + events.countP RunnerEvent.startsModelCall)
    (hsearches : budget'.discoveryCallsUsed =
      budget.discoveryCallsUsed + events.countP RunnerEvent.startsSearch)
    (hcalls : budget'.apiCallsUsed = budget.apiCallsUsed + events.countP RunnerEvent.startsRead)
    (hmodelCap : budget'.modelCallsUsed ≤ maxModelCalls)
    (hsearchCap : budget'.discoveryCallsUsed ≤ maxDiscoveryCalls)
    (hcallCap : budget'.apiCallsUsed ≤ maxApiCalls) : BudgetAccounts w' budget' := by
  refine ⟨hmodelCap, hsearchCap, hcallCap, ?_, ?_, ?_⟩
  · intro hfails
    rw [hevents, List.any_append, Bool.or_eq_false_iff] at hfails
    rw [hmodels, h.models hfails.1, RunWorld.modelCallsStarted, RunWorld.modelCallsStarted,
      hevents, List.countP_append]
  · rw [hsearches, h.searches, RunWorld.searchesStarted, RunWorld.searchesStarted, hevents,
      List.countP_append]
  · have hadmitted : w'.writesAdmitted = w.writesAdmitted := by
      rw [RunWorld.writesAdmitted, hacts]
      rfl
    rw [hcalls, h.calls, hadmitted, RunWorld.readsStarted, RunWorld.readsStarted, hevents,
      List.countP_append]
    omega

/-- A failed run may be written with fewer model calls than it started. -/
theorem BudgetAccounts.failed (h : BudgetAccounts w budget) {code : String}
    (hevents : w'.events = w.events ++ [.runFailed code]) (hacts : w'.acts = w.acts)
    (hmodels : budget'.modelCallsUsed ≤ maxModelCalls)
    (hsearches : budget'.discoveryCallsUsed = budget.discoveryCallsUsed)
    (hcalls : budget'.apiCallsUsed = budget.apiCallsUsed) : BudgetAccounts w' budget' := by
  have hadmitted : w'.writesAdmitted = w.writesAdmitted := by
    rw [RunWorld.writesAdmitted, hacts]
    rfl
  refine ⟨hmodels, ?_, ?_, ?_, ?_, ?_⟩
  · rw [hsearches]
    exact h.discoveryCalls
  · rw [hcalls]
    exact h.apiCalls
  · intro hfails
    rw [hevents, List.any_append, Bool.or_eq_false_iff] at hfails
    cases hfails.2
  · rw [hsearches, h.searches, RunWorld.searchesStarted, RunWorld.searchesStarted, hevents,
      List.countP_append]
    rfl
  · rw [hcalls, h.calls, hadmitted, RunWorld.readsStarted, RunWorld.readsStarted, hevents,
      List.countP_append]
    rfl

theorem RunAccounted.await (h : RunAccounted w) (others : OtherRunWrites) :
    RunAccounted (w.await others) := by
  refine ⟨?_, ?_, h.decisions⟩
  · intro run hrun
    obtain ⟨old, hold, rfl⟩ := Option.map_eq_some_iff.mp hrun
    exact (h.row old hold).congr rfl rfl rfl rfl rfl
  · intro hnone
    exact (h.unstarted (Option.map_eq_none_iff.mp hnone)).congr rfl rfl rfl rfl rfl

theorem writesAdmitted_act (w : RunWorld) (act : RunAct) :
    (w.act act).writesAdmitted = w.writesAdmitted + act.admittedWrites := by
  simp [RunWorld.writesAdmitted, RunWorld.act]

/-- An act that admits no write and, where it is a decision, knew the completed calls. -/
theorem RunAccounted.act (h : RunAccounted w) {act : RunAct} (hadmits : act.admittedWrites = 0)
    (hdecided : ∀ decision completedIds, act = .decided decision completedIds →
      decision.priorToolCallIds = completedIds) : RunAccounted (w.act act) := by
  have hadmitted : (w.act act).writesAdmitted = w.writesAdmitted := by
    rw [writesAdmitted_act, hadmits]
    rfl
  refine ⟨?_, ?_, ?_⟩
  · intro run hrun
    exact (h.row run hrun).congr rfl hadmitted rfl rfl rfl
  · intro hnone
    exact (h.unstarted hnone).congr rfl hadmitted rfl rfl rfl
  · intro decision completedIds hmem
    rcases List.mem_append.mp hmem with hold | hnew
    · exact h.decisions decision completedIds hold
    · exact hdecided decision completedIds (List.mem_singleton.mp hnew).symm

theorem RunAccounted.prepared (h : RunAccounted w) (outcome : WritePreparationOutcome) :
    RunAccounted (w.prepared outcome) := by
  cases outcome with
  | prepared operationIds confirmationIds batchId hostCallsReserved =>
    refine ⟨?_, ?_, h.decisions⟩
    · intro run hrun
      obtain ⟨old, hold, rfl⟩ := Option.map_eq_some_iff.mp hrun
      have hold := h.row old hold
      exact hold.append rfl rfl rfl rfl rfl hold.modelCalls hold.discoveryCalls hold.apiCalls
    · intro hnone
      have hold := h.unstarted (Option.map_eq_none_iff.mp hnone)
      exact hold.append rfl rfl rfl rfl rfl hold.modelCalls hold.discoveryCalls hold.apiCalls
  | clarification clarificationId actionResultId => exact h
  | denied code => exact h
  | notReady actionResultId => exact h

end Accounts

section Links

theorem link_present {links : List CompletedToolResult} {result : CompletedToolResult}
    (h : result ∈ links) : links.any (fun link => link.toolCallId == result.toolCallId) = true :=
  List.any_eq_true.mpr ⟨result, h, beq_self_eq_true _⟩

theorem linkResults_of_linked {links results : List CompletedToolResult}
    (h : ∀ result ∈ results, result ∈ links) (n : Nat) :
    (results.zipIdx n).foldlM linkResult links = .ok links := by
  induction results generalizing n with
  | nil => rfl
  | cons result rest ih =>
    have hhead : linkResult links (result, n) = .ok links :=
      if_pos (link_present (h result List.mem_cons_self))
    rw [List.zipIdx_cons, List.foldlM_cons, hhead]
    exact ih (fun r hr => h r (List.mem_cons_of_mem _ hr)) (n + 1)

theorem linkResults_self (links : List CompletedToolResult) : linkResults links links = .ok links :=
  linkResults_of_linked (fun _ h => h) 0

theorem linkResults_completed (links : List CompletedToolResult) (result : CompletedToolResult) :
    linkResults links (ActionExecution.linkCompleted links result) =
        .ok (ActionExecution.linkCompleted links result) ∨
      linkResults links (ActionExecution.linkCompleted links result) = .error .resultLink := by
  unfold ActionExecution.linkCompleted
  split
  · exact Or.inl (linkResults_self links)
  · rename_i hnew
    have hold : links.zipIdx.foldlM linkResult links = .ok links :=
      linkResults_of_linked (fun _ h => h) 0
    have hsplit : linkResults links (links ++ [result]) =
        linkResult links (result, links.length) := by
      rw [linkResults, List.zipIdx_append, List.foldlM_append, hold]
      show (linkResult links (result, 0 + links.length) >>= fun links => .ok links) = _
      rw [Nat.zero_add]
      cases linkResult links (result, links.length) <;> rfl
    rw [hsplit, linkResult, if_neg hnew]
    split
    · exact Or.inr rfl
    · exact Or.inl rfl

end Links

/-- The results of a new copy are those of the old one, or one more was completed. -/
def Extended (base state : RunState) : Prop :=
  state.completedResults = base.completedResults ∨
    ∃ result, state.completedResults = ActionExecution.linkCompleted base.completedResults result

theorem Extended.links {base state run : RunState} (h : Extended base state)
    (hrun : run.completedResults = base.completedResults) :
    linkResults run.completedResults state.completedResults = .ok state.completedResults ∨
      linkResults run.completedResults state.completedResults = .error .resultLink := by
  rw [hrun]
  rcases h with heq | ⟨result, heq⟩
  · rw [heq]
    exact Or.inl (linkResults_self _)
  · rw [heq]
    exact linkResults_completed _ _

/-- The invariant is asked for after every operation. -/
def accounts (scope : RunnerScope) : Spec (runController scope) where
  Inv := RunAccounted
  Rely _ _ := True
  Pre o w := ∀ env, RunAccounted (RunnerOp.exec env w o).2
  Allowed _ _ _ := True

/-- A copy of a run that has started `calls` model calls, up to date with the row. -/
structure Current (calls : Nat) (state : RunState) (w : RunWorld) : Prop where
  accounted : RunAccounted w
  row : ∃ run, w.run = some run ∧ SameAccounts run state
  calls : state.budget.modelCallsUsed = calls

/-- A copy that may have missed model calls, all else being up to date. -/
structure Recent (state : RunState) (w : RunWorld) : Prop where
  accounted : RunAccounted w
  row : ∃ run, w.run = some run ∧ run.completedResults = state.completedResults ∧
    run.budget.discoveryCallsUsed = state.budget.discoveryCallsUsed ∧
    run.budget.apiCallsUsed = state.budget.apiCallsUsed
  modelCalls : state.budget.modelCallsUsed ≤ maxModelCalls

/-- An exception leaves the accounts in order and is none of the loop's own. -/
def Raised (e : RunError) (w : RunWorld) : Prop := RunAccounted w ∧ e ≠ .loopUnbounded

section Copies

variable {w : RunWorld} {calls : Nat} {state state' : RunState}

theorem Current.budget (h : Current calls state w) : BudgetAccounts w state.budget := by
  obtain ⟨run, hrun, hsame⟩ := h.row
  exact (h.accounted.row run hrun).congr rfl rfl hsame.models.symm hsame.searches.symm
    hsame.calls.symm

theorem Current.recent (h : Current calls state w) : Recent state w := by
  obtain ⟨run, hrun, hsame⟩ := h.row
  exact ⟨h.accounted, ⟨run, hrun, hsame.results, hsame.searches, hsame.calls⟩, h.budget.modelCalls⟩

theorem Current.congr (h : Current calls state w) (hsame : SameAccounts state state') :
    Current calls state' w := by
  obtain ⟨run, hrun, hrow⟩ := h.row
  exact ⟨h.accounted, ⟨run, hrun, hrow.trans hsame⟩, hsame.models.symm.trans h.calls⟩

theorem Current.await (h : Current calls state w) (others : OtherRunWrites) :
    Current calls state (w.await others) := by
  obtain ⟨run, hrun, hsame⟩ := h.row
  refine ⟨h.accounted.await others, ⟨others.apply run, ?_, ?_⟩, h.calls⟩
  · show w.run.map others.apply = _
    rw [hrun]
    rfl
  · exact ⟨hsame.results, hsame.models, hsame.searches, hsame.calls⟩

theorem Current.act (h : Current calls state w) {act : RunAct} (hadmits : act.admittedWrites = 0)
    (hdecided : ∀ decision completedIds, act = .decided decision completedIds →
      decision.priorToolCallIds = completedIds) : Current calls state (w.act act) :=
  ⟨h.accounted.act hadmits hdecided, h.row, h.calls⟩

theorem Current.prepared (h : Current calls state w) (outcome : WritePreparationOutcome) :
    Current calls state (w.prepared outcome) := by
  obtain ⟨run, hrun, hsame⟩ := h.row
  refine ⟨h.accounted.prepared outcome, ?_, h.calls⟩
  cases outcome with
  | prepared operationIds confirmationIds batchId hostCallsReserved =>
    refine ⟨_, by rw [RunWorld.prepared, hrun]; rfl, ?_⟩
    exact ⟨hsame.results, hsame.models, hsame.searches, hsame.calls⟩
  | clarification clarificationId actionResultId => exact ⟨run, hrun, hsame⟩
  | denied code => exact ⟨run, hrun, hsame⟩
  | notReady actionResultId => exact ⟨run, hrun, hsame⟩

theorem Current.completedIds (h : Current calls state w) :
    w.completedIds = state.completedResults.map CompletedToolResult.toolCallId := by
  obtain ⟨run, hrun, hsame⟩ := h.row
  simp [RunWorld.completedIds, hrun, hsame.results]

end Copies

/-- The operations that write no state and decide nothing. -/
def RunnerOp.quiet : RunnerOp → Bool
  | startRun _ | commitStateEvents _ _ | saveRun _ | saveAdmission _ _ | decide _ => false
  | _ => true

/-- What waiting, acting and suspending keep, a quiet operation keeps. -/
theorem RunnerOp.quiet_inv {P : RunWorld → Prop} (hawait : ∀ w others, P w → P (w.await others))
    (hact : ∀ w act, act.admittedWrites = 0 → (∀ d ids, act ≠ .decided d ids) → P w → P (w.act act))
    (hprepared : ∀ w outcome, P w → P (w.prepared outcome)) {o : RunnerOp} {w : RunWorld}
    (ho : o.quiet = true) (h : P w) (env : RunnerEnv) : P (o.exec env w).2 := by
  have hwaited : ∀ act : RunAct, act.admittedWrites = 0 → (∀ d ids, act ≠ .decided d ids) →
      P ((w.act act).await env.others) := by
    intro act hadmits hother
    exact hawait _ _ (hact w act hadmits hother h)
  cases o with
  | startRun state => cases ho
  | commitStateEvents state events => cases ho
  | saveRun state => cases ho
  | saveAdmission state admitted => cases ho
  | decide decision => cases ho
  | fetch => exact hwaited _ rfl nofun
  | search input => exact hwaited _ rfl nofun
  | executeRead call => exact hwaited _ rfl nofun
  | prepare calls =>
    have hhanded := hwaited (.handedOver calls) rfl nofun
    cases hprep : env.preparation with
    | error e =>
      simp only [RunnerOp.exec, hprep]
      exact hhanded
    | ok outcome =>
      simp only [RunnerOp.exec, hprep]
      exact hprepared _ outcome hhanded
  | wait => exact hawait w env.others h
  | _ => exact h

theorem RunAccounted.quiet {o : RunnerOp} {w : RunWorld} (ho : o.quiet = true)
    (h : RunAccounted w) (env : RunnerEnv) : RunAccounted (o.exec env w).2 :=
  RunnerOp.quiet_inv (fun _ others hw => hw.await others)
    (fun _ _ hadmits hother hw => hw.act hadmits fun d ids heq => absurd heq (hother d ids))
    (fun _ outcome hw => hw.prepared outcome) ho h env

theorem Current.quiet {o : RunnerOp} {w : RunWorld} {calls : Nat} {state : RunState}
    (ho : o.quiet = true) (h : Current calls state w) (env : RunnerEnv) :
    Current calls state (o.exec env w).2 :=
  RunnerOp.quiet_inv (fun _ others hw => hw.await others)
    (fun _ _ hadmits hother hw => hw.act hadmits fun d ids heq => absurd heq (hother d ids))
    (fun _ outcome hw => hw.prepared outcome) ho h env

section Operations

variable {scope : RunnerScope} {w : RunWorld} {calls : Nat} {base state : RunState}

theorem safeE_quiet {o : RunnerOp} (ho : o.quiet = true) (h : Current calls state w) :
    SafeE (S := accounts scope) (perform o) (fun _ => Current calls state)
      (fun _ => Current calls state) w := by
  refine safeE_perform rfl (fun env => h.accounted.quiet ho env) fun env _ => ?_
  have hafter := h.quiet ho env
  cases hresult : (RunnerOp.exec env w o).1 with
  | ok value =>
    simp only [runController, hresult]
    exact hafter
  | error e =>
    simp only [runController, hresult]
    exact hafter

variable {E : RunError → RunWorld → Prop}

theorem safeE_getRun (h : RunAccounted w) :
    SafeE (S := accounts scope) (perform .getRun) (fun run w' => run = w.run ∧ w' = w) E w :=
  safeE_perform rfl (fun _ => h) fun _ _ => ⟨rfl, rfl⟩

theorem safeE_reload (h : Current calls state w) (fallback : RunState) :
    SafeE (S := accounts scope) (reload fallback)
      (fun state' w' => Current calls state' w' ∧ SameAccounts state state') E w := by
  refine safeE_bind (safeE_getRun h.accounted) ?_
  rintro _ w' ⟨rfl, rfl⟩
  obtain ⟨run, hrun, hsame⟩ := h.row
  rw [hrun]
  exact safeE_pure ⟨h.congr hsame.symm, hsame.symm⟩

/-- A commit either writes the row with its counters or fails without a trace. -/
theorem safeE_commit_row (state : RunState) {events : List RunnerEvent} {run : RunState}
    (h : RunAccounted w) (hrun : w.run = some run)
    (hlinks : linkResults run.completedResults state.completedResults = .ok state.completedResults ∨
      linkResults run.completedResults state.completedResults = .error .resultLink)
    (hbudget : ∀ w' : RunWorld, w'.events = w.events ++ events → w'.acts = w.acts →
      BudgetAccounts w' state.budget) :
    SafeE (S := accounts scope) (perform (.commitStateEvents state events))
      (fun _ w' => RunAccounted w' ∧ ∃ row, w'.run = some row ∧ SameAccounts row state)
      (fun e w' => w' = w ∧ e ≠ .loopUnbounded) w := by
  have hwritten : RunAccounted
      { w with run := some (run.written state state.completedResults)
               events := w.events ++ events } := by
    refine ⟨?_, nofun, h.decisions⟩
    intro row hrow
    cases hrow
    have hnew := hbudget
      { w with run := some (run.written state state.completedResults)
               events := w.events ++ events } rfl rfl
    exact hnew.congr rfl rfl rfl rfl rfl
  have hexec : (w.commitStateEvents state events = (.ok (),
        { w with run := some (run.written state state.completedResults)
                 events := w.events ++ events })) ∨
      ∃ e, e ≠ .loopUnbounded ∧ w.commitStateEvents state events = (.error e, w) := by
    unfold RunWorld.commitStateEvents
    split
    · exact Or.inr ⟨.invalidEventPayload, by decide, rfl⟩
    · rw [hrun]
      dsimp only
      rcases hlinks with hlinks | hlinks
      · rw [hlinks]
        exact Or.inl rfl
      · rw [hlinks]
        exact Or.inr ⟨.resultLink, by decide, rfl⟩
  refine safeE_perform rfl ?_ ?_
  · intro env
    show RunAccounted (w.commitStateEvents state events).2
    rcases hexec with hok | ⟨e, -, herror⟩
    · rw [hok]
      exact hwritten
    · rw [herror]
      exact h
  · intro env _
    show Meets (M := runController scope) _ _ (w.commitStateEvents state events).1
      (w.commitStateEvents state events).2
    rcases hexec with hok | ⟨e, he, herror⟩
    · rw [hok]
      exact ⟨hwritten, _, rfl, ⟨rfl, rfl, rfl, rfl⟩⟩
    · rw [herror]
      exact ⟨rfl, he⟩

/-- A commit from a current copy, whose counters agree with the events it appends. -/
theorem safeE_commit (state : RunState) {events : List RunnerEvent} {calls' : Nat}
    (h : Current calls base w) (hresults : Extended base state)
    (hbudget : ∀ w' : RunWorld, w'.events = w.events ++ events → w'.acts = w.acts →
      BudgetAccounts w' state.budget) (hcalls : state.budget.modelCallsUsed = calls') :
    SafeE (S := accounts scope) (perform (.commitStateEvents state events))
      (fun _ => Current calls' state)
      (fun e w' => Current calls base w' ∧ e ≠ .loopUnbounded) w := by
  obtain ⟨run, hrun, hsame⟩ := h.row
  refine SafeE.mono (safeE_commit_row state h.accounted hrun (hresults.links hsame.results) hbudget) ?_ ?_
  · intro _ w' hafter
    exact ⟨hafter.1, hafter.2, hcalls⟩
  · rintro e _ ⟨rfl, he⟩
    exact ⟨h, he⟩

theorem safeE_commitEvent {event : RunnerEvent} (h : Current calls base w)
    (hresults : Extended base state) (hmodels : event.startsModelCall = false)
    (hsearches : event.startsSearch = false) (hreads : event.startsRead = false)
    (hsame : state.budget.modelCallsUsed = base.budget.modelCallsUsed ∧
      state.budget.discoveryCallsUsed = base.budget.discoveryCallsUsed ∧
      state.budget.apiCallsUsed = base.budget.apiCallsUsed) :
    SafeE (S := accounts scope) (commitEvent state event) (fun _ => Current calls state)
      (fun e w' => Current calls base w' ∧ e ≠ .loopUnbounded) w := by
  obtain ⟨hm, hd, ha⟩ := hsame
  have hbudget := h.budget
  refine safeE_commit state h hresults ?_ (hm.trans h.calls)
  intro w' hevents hacts
  refine hbudget.append hevents hacts ?_ ?_ ?_ ?_ ?_ ?_
  · simp [hm, hmodels]
  · simp [hd, hsearches]
  · simp [ha, hreads]
  · rw [hm]
    exact hbudget.modelCalls
  · rw [hd]
    exact hbudget.discoveryCalls
  · rw [ha]
    exact hbudget.apiCalls

theorem safeE_saveRun (h : Current calls state w) :
    SafeE (S := accounts scope) (perform (.saveRun state)) (fun _ => Current calls state) E w := by
  obtain ⟨run, hrun, hsame⟩ := h.row
  have hexec : w.saveRun state =
      (.ok (), { w with run := some (run.written state state.completedResults) }) := by
    unfold RunWorld.saveRun
    rw [hrun]
    dsimp only
    rw [hsame.results, linkResults_self]
  have hwritten : RunAccounted
      { w with run := some (run.written state state.completedResults) } := by
    refine ⟨?_, nofun, h.accounted.decisions⟩
    intro row hrow
    cases hrow
    exact h.budget.congr rfl rfl rfl rfl rfl
  refine safeE_perform rfl ?_ ?_
  · intro env
    show RunAccounted (w.saveRun state).2
    rw [hexec]
    exact hwritten
  · intro env _
    show Meets (M := runController scope) _ _ (w.saveRun state).1 (w.saveRun state).2
    rw [hexec]
    exact ⟨hwritten, ⟨_, rfl, ⟨rfl, rfl, rfl, rfl⟩⟩, h.calls⟩

theorem safeE_saveAdmission (state : RunState) {admitted : List ToolCall} (h : Current calls base w)
    (hresults : state.completedResults = base.completedResults)
    (hmodels : state.budget.modelCallsUsed = base.budget.modelCallsUsed)
    (hsearches : state.budget.discoveryCallsUsed = base.budget.discoveryCallsUsed)
    (hcalls : state.budget.apiCallsUsed = base.budget.apiCallsUsed + admitted.length)
    (hcap : state.budget.apiCallsUsed ≤ maxApiCalls) :
    SafeE (S := accounts scope) (perform (.saveAdmission state admitted))
      (fun _ => Current calls state) E w := by
  obtain ⟨run, hrun, hsame⟩ := h.row
  have hsave : w.saveRun state =
      (.ok (), { w with run := some (run.written state state.completedResults) }) := by
    unfold RunWorld.saveRun
    rw [hrun]
    dsimp only
    rw [hsame.results, ← hresults, linkResults_self]
  have hbudget := h.budget
  let w' := RunWorld.act { w with run := some (run.written state state.completedResults) }
    (.writesAdmitted admitted)
  have hadmitted : w'.writesAdmitted = w.writesAdmitted + admitted.length :=
    writesAdmitted_act _ _
  have hwritten : RunAccounted w' := by
    refine ⟨?_, nofun, ?_⟩
    · intro row hrow
      cases hrow
      refine ⟨?_, ?_, hcap, ?_, ?_, ?_⟩
      · exact hmodels ▸ hbudget.modelCalls
      · exact hsearches ▸ hbudget.discoveryCalls
      · intro hfails
        exact hmodels.trans (hbudget.models hfails)
      · exact hsearches.trans hbudget.searches
      · have hbase := hbudget.calls
        show state.budget.apiCallsUsed = w.readsStarted + w'.writesAdmitted
        omega
    · intro decision completedIds hmem
      rcases List.mem_append.mp hmem with hold | hnew
      · exact h.accounted.decisions decision completedIds hold
      · cases List.mem_singleton.mp hnew
  have hexec : ∀ env, RunnerOp.exec env w (.saveAdmission state admitted) = (.ok (), w') := by
    intro env
    simp only [RunnerOp.exec, hsave]
    rfl
  refine safeE_perform rfl ?_ ?_
  · intro env
    show RunAccounted (RunnerOp.exec env w _).2
    rw [hexec env]
    exact hwritten
  · intro env _
    show Meets (M := runController scope) _ _ (RunnerOp.exec env w _).1 (RunnerOp.exec env w _).2
    rw [hexec env]
    exact ⟨hwritten, ⟨_, rfl, ⟨rfl, rfl, rfl, rfl⟩⟩, hmodels.trans h.calls⟩

theorem safeE_attempted {S : Spec (runController scope)} {α : Type} {m : RunnerProcess α}
    {Q : α → RunWorld → Prop} {E E' : RunError → RunWorld → Prop} (h : SafeE S m Q E w) :
    SafeE S (attempted m) (fun r w' => Meets (M := runController scope) Q E r w') E' w := by
  refine safeE_tryCatch (E := fun e w' => E e w') ?_ ?_
  · refine safeE_bind h ?_
    intro a w' ha
    exact safeE_pure ha
  · intro e w' he
    exact safeE_pure he

end Operations

section Yielding

open ActionExecution RunService

variable {scope : RunnerScope} {S : Spec (runController scope)} {P : RunWorld → Prop}

/-- The process only works on the results it is given, or ends with an exception of its own. -/
theorem yields_attempted {α : Type} {V : α → Prop} {m : RunnerProcess α}
    (hm : Yields S P V m) :
    Yields S P (fun r => ∀ a, r = .ok a → V a) (attempted m) := by
  intro w h
  refine SafeE.weaken (safeE_attempted (hm w h)) ?_
  intro r w' hr
  cases r with
  | ok a =>
    refine ⟨?_, hr.2⟩
    intro a' heq
    cases heq
    exact hr.1
  | error e => exact ⟨nofun, hr⟩

theorem yields_runReadPool (hasked : Yields S P (fun _ => True) (perform .admitRead))
    (hread : ∀ call, Yields S P (fun _ => True) (perform (.executeRead call)))
    (readCalls : List ToolCall) : ∀ stopped : Bool,
      Yields S P (fun r => r.map Prod.fst = readCalls) (runReadPool stopped readCalls) := by
  induction readCalls with
  | nil => exact fun _ => yields_pure rfl
  | cons call rest ih =>
    intro stopped
    have hrest : ∀ (outcome : Option ReadExecutionOutcome) (stopped : Bool),
        Yields S P (fun r => r.map Prod.fst = call :: rest) (do
          return (call, outcome) :: (← runReadPool stopped rest)) := by
      intro outcome stopped
      exact yields_bind (ih stopped) fun r hr => yields_pure (congrArg (List.cons call) hr)
    have hadmitted (f : Except RunError ReadExecutionOutcome → ReadExecutionOutcome) :
        ∀ admitted : Bool, True → Yields S P (fun r => r.map Prod.fst = call :: rest) (do
          if !admitted then
            return (call, none) :: (← runReadPool true rest)
          else
            let outcome ← attempted (RunnerProcess.perform (.executeRead call))
            return (call, some (f outcome)) :: (← runReadPool false rest)) := by
      intro admitted _
      cases admitted with
      | false => exact hrest none true
      | true => exact yields_bind (yields_attempted (hread call)) fun outcome _ => hrest _ false
    cases stopped with
    | true => exact yields_bind (yields_pure trivial) (hadmitted _)
    | false => exact yields_bind hasked (hadmitted _)

theorem yields_executeReadsConcurrently (hasked : Yields S P (fun _ => True) (perform .admitRead))
    (hread : ∀ call, Yields S P (fun _ => True) (perform (.executeRead call)))
    (haborted : Yields S P (fun _ => True) (perform .aborted)) (readCalls : List ToolCall) :
    Yields S P (fun r => r.map Prod.fst = readCalls) (executeReadsConcurrently readCalls) := by
  refine yields_bind (yields_runReadPool hasked hread readCalls false) fun ordered hordered => ?_
  refine yields_bind haborted fun aborted _ => yields_pure ?_
  rw [List.map_map]
  exact hordered

/-! A call of the model, whatever it rests on. -/

theorem yields_ifAborted {α : Type} {V : α → Prop} {m : RunnerProcess α}
    (haborted : Yields S P (fun _ => True) (perform .aborted)) (hm : Yields S P V m) :
    Yields S P V (do
      if ← perform .aborted then throw .callerAborted
      m) := by
  refine yields_bind haborted fun aborted _ => ?_
  cases aborted with
  | true => exact yields_throw _
  | false => exact hm

variable {V : ToolCompletion → Prop}

/-- What an attempt of the provider brings meets `V`. -/
abbrev Brings (V : ToolCompletion → Prop) (attempt : ProviderAttempt) : Prop :=
  ∀ completion, attempt = .answered completion → V completion

theorem yields_secondAttempt (hfetch : Yields S P (Brings V) (perform .fetch)) :
    Yields S P V secondAttempt := by
  refine yields_bind hfetch fun attempt hattempt => ?_
  cases attempt with
  | answered completion => exact yields_pure (hattempt completion rfl)
  | transient => exact yields_throw _
  | failed e => exact yields_throw _

variable {state : RunState} {preflight : ModelPreflight} {modelCall requestBytes started : Nat}

theorem yields_completeWithTools (haborted : Yields S P (fun _ => True) (perform .aborted))
    (hfetch : Yields S P (Brings V) (perform .fetch))
    (hcharge : Yields S P (fun _ => True) (onProviderAttempt2 state preflight modelCall)) :
    Yields S P (fun answer => (answer.1 = 1 ∨ answer.1 = 2) ∧
      ∀ completion, answer.2 = .ok completion → V completion)
      (completeWithTools state preflight modelCall) := by
  have hfirst : Yields S P (Brings V) firstAttempt := yields_ifAborted haborted hfetch
  have hbackoff : Yields S P (fun _ => True) retryBackoff :=
    yields_ifAborted haborted (yields_pure trivial)
  have hsecond : Yields S P V (do
      onProviderAttempt2 state preflight modelCall
      secondAttempt) :=
    yields_bind hcharge fun _ _ => yields_secondAttempt hfetch
  refine yields_bind (yields_attempted hfirst) fun first hbrings => ?_
  cases first with
  | error e => exact yields_pure ⟨Or.inl rfl, nofun⟩
  | ok attempt =>
    cases attempt with
    | answered completion =>
      refine yields_pure ⟨Or.inl rfl, ?_⟩
      intro completion' heq
      cases heq
      exact hbrings _ rfl completion rfl
    | failed e => exact yields_pure ⟨Or.inl rfl, nofun⟩
    | transient =>
      refine yields_bind (yields_attempted hbackoff) fun waited _ => ?_
      cases waited with
      | error e => exact yields_pure ⟨Or.inl rfl, nofun⟩
      | ok _ =>
        exact yields_bind (yields_attempted hsecond) fun second hbrings =>
          yields_pure ⟨Or.inr rfl, hbrings⟩

theorem yields_finishCall {answer : Nat × Except RunError ToolCompletion}
    (hcomplete : ∀ completion, answer.2 = .ok completion → Yields S P V
      (completeModelCall state modelCall answer.1 requestBytes started completion))
    (hcharge : Yields S P (fun _ => True) (chargeException state preflight answer.1)) :
    Yields S P (fun ended => ∀ completion, ended = .ok completion → V completion)
      (finishCall state preflight modelCall requestBytes started answer) := by
  have hcharged : Yields S P (fun ended => ∀ completion, ended = .ok completion → V completion)
      (chargeAnswer state modelCall requestBytes started answer) := by
    unfold chargeAnswer
    split
    · rename_i completion hcompletion
      exact yields_attempted (hcomplete completion hcompletion)
    · exact yields_pure nofun
  refine yields_bind hcharged fun ended hended => ?_
  cases ended with
  | ok completion => exact yields_pure hended
  | error e =>
    refine yields_bind (yields_attempted hcharge) fun handled _ => ?_
    cases handled with
    | ok _ => exact yields_pure nofun
    | error e' => exact yields_pure nofun

end Yielding

end ClockifyAssistant
