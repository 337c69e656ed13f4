import ClockifyAssistant.ToolSets

/-!
The tool set of a run, function by function: the model call, the searches, the reads and the
writes of a completion, the loop, and a run cut off anywhere.
-/
namespace ClockifyAssistant

open Lib RunnerProcess RunService ApiDiscovery ActionExecution ApiSearch RunJournal
open Fallible hiding perform

namespace ToolSets

variable {scope : SearchScope} {state : RunState} {loaded : List String}


section ModelCall

theorem lasts_chargeAttemptFailure (hstate : ToolSet scope.runner.registry state)
    (preflight : ModelPreflight) :
    Lasts scope (ToolSet scope.runner.registry) (chargeAttemptFailure state preflight) := by
  refine lasts_bind (lasts_reload hstate) fun fresh hfresh => ?_
  have hcharged : ToolSet scope.runner.registry { fresh with
      budget := chargeFailedModelAttempt fresh.budget preflight.inputReserve
        preflight.maxOutputTokens } := hfresh.congr rfl rfl
  exact lasts_bind (lasts_saveRun hcharged) fun _ _ => lasts_pure hcharged

theorem lasts_reserveModelCall (hstate : ToolSet scope.runner.registry state)
    (modelCall providerAttempt : Nat) :
    Lasts scope (fun _ => True) (reserveModelCall state modelCall providerAttempt) :=
  lasts_commitEvent (hstate.congr rfl rfl) nofun

theorem lasts_onProviderAttempt2 (hstate : ToolSet scope.runner.registry state)
    (preflight : ModelPreflight) (modelCall : Nat) :
    Lasts scope (fun _ => True) (onProviderAttempt2 state preflight modelCall) := by
  refine lasts_bind (lasts_chargeAttemptFailure hstate preflight) fun charged hcharged => ?_
  exact lasts_bind (lasts_reload hcharged) fun _ hfresh => lasts_reserveModelCall hfresh modelCall 2

theorem lasts_completeWithTools (hstate : ToolSet scope.runner.registry state)
    (preflight : ModelPreflight) (modelCall : Nat) :
    Lasts scope (fun _ => True) (completeWithTools state preflight modelCall) := by
  have hfetch : Lasts scope (fun _ => True) (RunnerProcess.perform .fetch) :=
    lasts_silent rfl fun _ _ => trivial
  have haborted : Lasts scope (fun _ => True) (RunnerProcess.perform .aborted) :=
    lasts_silent rfl fun _ _ => trivial
  exact (Lasts.mono (yields_completeWithTools (V := fun _ => True) haborted
    (hfetch.mono fun _ _ _ _ => trivial) (lasts_onProviderAttempt2 hstate preflight modelCall)))
    fun _ _ => trivial

theorem lasts_completeModelCall (hstate : ToolSet scope.runner.registry state)
    (modelCall providerAttempts requestBytes started : Nat) (completion : ToolCompletion) :
    Lasts scope (fun _ => True)
      (completeModelCall state modelCall providerAttempts requestBytes started completion) := by
  refine lasts_bind (lasts_reload hstate) fun fresh hfresh => ?_
  refine lasts_bind (lasts_silent rfl fun _ _ => trivial) fun now _ => ?_
  refine lasts_bind (lasts_commitEvent (hfresh.congr rfl rfl) nofun) fun _ _ => ?_
  exact lasts_bind (lasts_reload hfresh) fun _ _ => lasts_pure trivial

theorem lasts_chargeException (hstate : ToolSet scope.runner.registry state)
    (preflight : ModelPreflight) (providerAttempts : Nat) :
    Lasts scope (fun _ => True) (chargeException state preflight providerAttempts) := by
  refine lasts_bind (lasts_reload hstate) fun fresh hfresh => ?_
  split
  · exact lasts_pure trivial
  · exact lasts_bind (lasts_chargeAttemptFailure hfresh preflight) fun _ _ => lasts_pure trivial

theorem lasts_finishCall (hstate : ToolSet scope.runner.registry state)
    (preflight : ModelPreflight) (modelCall requestBytes started : Nat)
    (answer : Nat × Except RunError ToolCompletion) : Lasts scope (fun _ => True)
      (finishCall state preflight modelCall requestBytes started answer) := by
  exact Lasts.mono (yields_finishCall (V := fun _ => True)
    (fun _ _ => lasts_completeModelCall hstate _ _ _ _ _) (lasts_chargeException hstate _ _))
    fun _ _ => trivial

theorem lasts_chargeWallTime (hstate : ToolSet scope.runner.registry state) (started : Nat) :
    Lasts scope (fun _ => True) (chargeWallTime state started) := by
  refine lasts_bind (lasts_reload hstate) fun fresh hfresh => ?_
  refine lasts_bind (lasts_silent rfl fun _ _ => trivial) fun now _ => ?_
  exact lasts_saveRun (hfresh.congr rfl rfl)

theorem lasts_callModel (hstate : ToolSet scope.runner.registry state) (modelCall : Nat) :
    Lasts scope (fun _ => True) (callModel state modelCall) := by
  refine lasts_bind (lasts_silent rfl fun _ _ => trivial) fun requestBytes _ => ?_
  split
  · exact lasts_throw _
  · refine lasts_bind (lasts_reserveModelCall hstate modelCall 1) fun _ _ => ?_
    refine lasts_bind (lasts_reload hstate) fun fresh hfresh => ?_
    refine lasts_bind (lasts_silent rfl fun _ _ => trivial) fun started _ => ?_
    refine lasts_bind (lasts_completeWithTools hfresh _ modelCall) fun answer _ => ?_
    refine lasts_bind (lasts_finishCall hfresh _ _ _ _ _) fun ended _ => ?_
    refine lasts_bind (lasts_chargeWallTime hfresh started) fun _ _ => ?_
    cases ended with
    | ok completion => exact lasts_pure trivial
    | error e => exact lasts_throw _

theorem lasts_failRun (hstate : ToolSet scope.runner.registry state) (code : String) :
    Lasts scope (fun _ => True) (failRun state code) := by
  refine lasts_bind (lasts_commitEvent (hstate.congr rfl rfl) nofun) fun _ _ => ?_
  exact lasts_bind (lasts_reload hstate) fun _ _ => lasts_pure trivial

theorem lasts_completeRun (hstate : ToolSet scope.runner.registry state) :
    Lasts scope (fun _ => True) (completeRun state) := by
  refine lasts_bind (lasts_commitEvent (hstate.congr rfl rfl) nofun) fun _ _ => ?_
  exact lasts_bind (lasts_reload hstate) fun _ _ => lasts_pure trivial

end ModelCall

section Searches

theorem lasts_denySearch (hstate : ToolSet scope.runner.registry state) (call : ToolCall)
    (code : String) :
    Lasts scope (fun r => ToolSet scope.runner.registry r.1) (denySearch state call code) := by
  refine lasts_bind (lasts_commitEvent hstate nofun) fun _ _ => ?_
  exact lasts_bind (lasts_reload hstate) fun fresh hfresh => lasts_pure hfresh

/-- What a search is answered is registered, and finds its places in the row of the run. -/
theorem lasts_performSearch (parsed : FindApiOperationsInput) :
    Lasts scope (fun ranked => ∀ name ∈ ranked, (scope.runner.registry.get name).isSome = true)
      (RunnerProcess.perform (.search parsed)) := by
  refine lasts_perform (fun w h => ⟨fun env run ranked hrun _ => ?_, fun env => ?_⟩) ?_
  · exact (h run hrun).refinement ranked
  · exact Kept.await (w := w.act .searched) h env.others
  · intro env w h hanswered ranked hranked name hname
    obtain ⟨index, hindex, rfl⟩ := hanswered ranked hranked
    exact discoverySearch_known hindex hname

theorem lasts_search (hstate : ToolSet scope.runner.registry state) (searchIndex : Nat)
    {call : ToolCall} (hcall : call.name = discoveryMetaToolName)
    (parsed : FindApiOperationsInput) : Lasts scope (fun r => ToolSet scope.runner.registry r.1)
      (search state searchIndex call parsed) := by
  refine lasts_bind (lasts_commitEvent (hstate.congr rfl rfl) nofun) fun _ _ => ?_
  refine lasts_bind (lasts_reload hstate) fun fresh hfresh => ?_
  refine lasts_bind (lasts_performSearch parsed) fun ranked hranked => ?_
  have hrefined := hfresh.refined hranked
  rw [← hcall] at hrefined
  refine lasts_bind (lasts_commit hrefined ?_) fun _ _ => ?_
  · intro ids hmem
    obtain rfl := RunnerEvent.apiOperationsLoaded.inj (List.mem_singleton.mp hmem)
    exact hrefined.toToolsFit.boundedLoaded (registry_bounded scope.catalog)
  · exact lasts_bind (lasts_reload hrefined) fun found hfound => lasts_pure hfound

theorem lasts_executeDiscoveryCalls {discoveryCalls : List ToolCall}
    (hcalls : ∀ call ∈ discoveryCalls, call.name = discoveryMetaToolName)
    (hstate : ToolSet scope.runner.registry state) (searchIndex : Nat)
    (observations : List RunObservation) :
    Lasts scope (fun r => ToolSet scope.runner.registry r.state)
      (executeDiscoveryCalls state searchIndex observations discoveryCalls) := by
  induction discoveryCalls generalizing state searchIndex observations with
  | nil => exact lasts_pure hstate
  | cons call rest ih =>
    have hrest := fun call hmem => hcalls call (List.mem_cons_of_mem _ hmem)
    rw [executeDiscoveryCalls]
    split
    · exact lasts_bind (lasts_denySearch hstate call _) fun denied hdenied =>
        ih hrest hdenied _ _
    · split
      · exact lasts_bind (lasts_denySearch hstate call _) fun denied hdenied =>
          ih hrest hdenied _ _
      · exact lasts_bind (lasts_search hstate _ (hcalls call List.mem_cons_self) _)
          fun found hfound => ih hrest hfound _ _

end Searches

section Reads

theorem lasts_executeReadsConcurrently (readCalls : List ToolCall) :
    Lasts scope (fun entries => ∀ entry ∈ entries, entry.1 ∈ readCalls)
      (executeReadsConcurrently readCalls) := by
  have hsilent : ∀ o : RunnerOp, RunnerOp.silent o = true →
      (∀ env w, OperationKeeps scope.runner o env w) →
      Lasts scope (fun _ => True) (RunnerProcess.perform o) :=
    fun _ => lasts_silent
  have hpool := yields_executeReadsConcurrently (hsilent .admitRead rfl fun _ _ => trivial)
    (fun call => hsilent (.executeRead call) rfl fun _ _ => trivial)
    (hsilent .aborted rfl fun _ _ => trivial) readCalls
  refine Lasts.mono hpool fun entries hentries entry hentry => ?_
  rw [← hentries]
  exact List.mem_map_of_mem hentry

theorem Loads.congr {state' : RunState} (h : Loads scope loaded state)
    (hloaded : state'.loadedToolNames = state.loadedToolNames)
    (hused : state'.usedToolNames = state.usedToolNames) : Loads scope loaded state' :=
  ⟨h.1.congr hloaded hused, hloaded.trans h.2⟩

theorem lasts_denyTool (hstate : Loads scope loaded state) (toolCallId : ToolCallId)
    (actionName code : String) :
    Lasts scope (Loads scope loaded) (denyTool state toolCallId actionName code) :=
  lasts_commitAndReload state (.toolDenied toolCallId actionName code) hstate nofun state

theorem lasts_requestTool (hstate : Loads scope loaded state) (call : ToolCall) :
    Lasts scope (Loads scope loaded) (requestTool state call) :=
  lasts_commitAndReload state (.toolRequested call.id call.name) hstate nofun state

theorem lasts_startTool (hstate : Loads scope loaded state) (call : ToolCall) :
    Lasts scope (Loads scope loaded) (startTool state call) := by
  have hstarted : Loads scope loaded { state with
      budget := { state.budget with apiCallsUsed := state.budget.apiCallsUsed + 1 }
      phase := .executingReads } := hstate.congr rfl rfl
  exact lasts_commitAndReload _ (.toolStarted call.id call.name) hstarted nofun state

theorem lasts_completeTool (hstate : Loads scope loaded state) (call : ToolCall)
    (actionResultId : Option ResultId) :
    Lasts scope (Loads scope loaded) (completeTool state call actionResultId) := by
  have hcompleted : Loads scope loaded { state with
      completedResults := linkCompleted state.completedResults
        { toolCallId := call.id, actionName := call.name, actionResultId } } :=
    hstate.congr rfl rfl
  exact lasts_commitAndReload _ (.toolCompleted call.id call.name actionResultId) hcompleted
    nofun state

theorem lasts_journalRead {journal : ReadJournal} (hstate : Loads scope loaded journal.state)
    {call : ToolCall} (hcall : call.name ∈ loaded) (outcome : ReadExecutionOutcome) :
    Lasts scope (fun r => Loads scope loaded r.state) (journalRead journal call outcome) := by
  refine lasts_bind (lasts_requestTool hstate call) fun requested hrequested => ?_
  refine lasts_bind (lasts_startTool hrequested call) fun started hstarted => ?_
  have hused : Loads scope loaded { started with
      usedToolNames := addName started.usedToolNames call.name } :=
    ⟨hstarted.1.used (hstarted.2 ▸ hcall), hstarted.2⟩
  have hdeny : ∀ code : String, Lasts scope (fun r : ReadJournal => Loads scope loaded r.state) (do
      let state ← denyTool { started with
        usedToolNames := addName started.usedToolNames call.name }
        call.id call.name (boundedDenialCode code)
      return { journal with
        state
        observations := journal.observations ++
          [.denied call.name (boundedDenialCode code)] }) := by
    intro code
    exact lasts_bind (lasts_denyTool hused _ _ _) fun denied hdenied => lasts_pure hdenied
  cases outcome with
  | succeeded actionResultId modelSummary =>
    exact lasts_bind (lasts_completeTool hused call _) fun _ hcompleted => lasts_pure hcompleted
  | clarification clarificationId actionResultId => exact lasts_pure hused
  | denied code => exact hdeny code
  | validationFailed code => exact hdeny code
  | failed code => exact hdeny code

theorem lasts_journalReads {journal : ReadJournal} (hstate : Loads scope loaded journal.state)
    {entries : List (ToolCall × ReadExecutionOutcome)}
    (hentries : ∀ entry ∈ entries, entry.1.name ∈ loaded) :
    Lasts scope (fun r => Loads scope loaded r.state) (journalReads journal entries) := by
  induction entries generalizing journal with
  | nil => exact lasts_pure hstate
  | cons entry rest ih =>
    rw [journalReads]
    refine lasts_bind (lasts_journalRead hstate (hentries entry List.mem_cons_self) entry.2)
      fun read hread => ?_
    exact ih hread fun entry hmem => hentries entry (List.mem_cons_of_mem _ hmem)

theorem lasts_requireClarificationAndSuspend (hstate : ToolSet scope.runner.registry state)
    (clarificationId : Nat) (actionResultId : ResultId) :
    Lasts scope (ToolSet scope.runner.registry)
      (requireClarificationAndSuspend state clarificationId actionResultId) := by
  refine lasts_bind (lasts_commit (hstate.congr rfl rfl) ?_) fun _ _ => lasts_reload hstate
  intro ids hmem
  simp at hmem

/-- The reads of a completion are of tools that were loaded when it was taken apart. -/
theorem lasts_executeReads (hstate : ToolSet scope.runner.registry state)
    {readCalls : List ToolCall} (hcalls : ∀ call ∈ readCalls, call.name ∈ state.loadedToolNames)
    (denied : List DeniedToolCall) : Lasts scope (fun r => ToolSet scope.runner.registry r.state)
      (executeReads state readCalls denied) := by
  refine lasts_bind (lasts_executeReadsConcurrently _) fun readOutcomes houtcomes => ?_
  have hloads : Loads scope state.loadedToolNames state := ⟨hstate, rfl⟩
  refine lasts_bind (lasts_journalReads hloads ?_) fun journal hjournal => ?_
  · intro entry hentry
    exact hcalls _ (List.mem_of_mem_take (houtcomes entry hentry))
  · split
    · exact lasts_bind (lasts_requireClarificationAndSuspend hjournal.1 _ _)
        fun _ hsuspended => lasts_pure hsuspended
    · exact lasts_pure hjournal.1

end Reads

section Writes

/-- What the loop goes on with has a tool set. -/
def GoesOn (scope : SearchScope) (ended : Runner.BatchEnd) : Prop :=
  ∀ state observations, ended = .done state observations → ToolSet scope.runner.registry state

theorem lasts_denyTools (denied : List DeniedToolCall) (hstate : Loads scope loaded state)
    (observations : List RunObservation) :
    Lasts scope (fun r => Loads scope loaded r.1) (denyTools state observations denied) := by
  induction denied generalizing state observations with
  | nil => exact lasts_pure hstate
  | cons d rest ih =>
    rw [denyTools]
    exact lasts_bind (lasts_denyTool hstate _ _ _) fun _ hdenied => ih hdenied _

theorem lasts_requestTools (calls : List ToolCall) (hstate : Loads scope loaded state) :
    Lasts scope (Loads scope loaded) (requestTools state calls) := by
  induction calls generalizing state with
  | nil => exact lasts_pure hstate
  | cons call rest ih =>
    rw [requestTools]
    exact lasts_bind (lasts_requestTool hstate call) fun _ hrequested => ih hrequested

theorem lasts_settlePreparation (hstate : Loads scope loaded state) (writeCalls : List ToolCall)
    (observations : List RunObservation) (preparation : WritePreparationOutcome) :
    Lasts scope (fun r => ToolSet scope.runner.registry r.state)
      (settlePreparation state writeCalls observations preparation) := by
  cases preparation with
  | prepared operationIds confirmationIds batchId hostCallsReserved =>
    exact lasts_bind (lasts_reload hstate.1) fun _ hfresh => lasts_pure hfresh
  | clarification clarificationId actionResultId =>
    exact lasts_bind (lasts_requireClarificationAndSuspend hstate.1 _ _)
      fun _ hsuspended => lasts_pure hsuspended
  | notReady actionResultId =>
    unfold settlePreparation
    dsimp only
    split
    · exact lasts_pure hstate.1
    · exact lasts_bind (lasts_completeTool hstate _ _) fun _ hcompleted => lasts_pure hcompleted.1
  | denied code =>
    exact lasts_bind (lasts_denyTools _ hstate _) fun _ hdenied => lasts_pure hdenied.1

theorem lasts_prepareWrites (hstate : ToolSet scope.runner.registry state)
    (writeCalls : List ToolCall) : Lasts scope (fun r => ToolSet scope.runner.registry r.state)
      (prepareWrites state writeCalls) := by
  have hloads : Loads scope state.loadedToolNames state := ⟨hstate, rfl⟩
  refine lasts_bind (lasts_denyTools _ hloads _) fun denied hdenied => ?_
  obtain ⟨denied, observations⟩ := denied
  dsimp only
  split
  · exact lasts_pure hdenied.1
  · have hadmitted : Loads scope state.loadedToolNames { denied with
        budget := { denied.budget with
          apiCallsUsed := denied.budget.apiCallsUsed +
            (writeCalls.take (remainingLogical state)).length } } :=
      Loads.congr hdenied rfl rfl
    refine lasts_bind (lasts_saveAdmission hadmitted.1 _) fun _ _ => ?_
    refine lasts_bind (lasts_requestTools _ hadmitted) fun requested hrequested => ?_
    refine lasts_bind (lasts_attempted (lasts_prepare _)) fun preparation _ => ?_
    exact lasts_settlePreparation hrequested _ _ _

theorem lasts_recorded (hstate : ToolSet scope.runner.registry state)
    (observations : List RunObservation) (denied : List DeniedToolCall) :
    Lasts scope (GoesOn scope) (do
        let denials ← recordDenials state denied
        return Runner.BatchEnd.done denials.1 (observations ++ denials.2)) := by
  have hloads : Loads scope state.loadedToolNames state := ⟨hstate, rfl⟩
  refine lasts_bind (lasts_denyTools _ hloads _) fun denials hdenials => lasts_pure ?_
  intro state' observations' heq
  obtain ⟨rfl, -⟩ := Runner.BatchEnd.done.inj heq
  exact hdenials.1

theorem lasts_runWrites (hstate : ToolSet scope.runner.registry state)
    (observations : List RunObservation) (denied : List DeniedToolCall)
    (writeCalls : List ToolCall) :
    Lasts scope (GoesOn scope) (Runner.runWrites state observations denied writeCalls) := by
  unfold Runner.runWrites
  dsimp only
  split
  · exact lasts_recorded hstate observations denied
  · refine lasts_bind (lasts_prepareWrites hstate writeCalls) fun batch hbatch => ?_
    split
    · exact lasts_pure nofun
    · exact lasts_pure nofun
    · exact lasts_recorded hbatch _ denied

end Writes

section Calls

variable {decision : ToolDecision} {call : ToolCall}

theorem validateEach_valid {validate : String → Except String Unit} {ids : List ToolCallId}
    {calls : List ToolCall} (h : (call, none) ∈ validateEach validate ids calls) :
    validate call.name = .ok () := by
  induction calls generalizing ids with
  | nil => exact absurd h List.not_mem_nil
  | cons first rest ih =>
    rw [validateEach] at h
    split at h
    · rcases List.mem_cons.mp h with heq | hrest
      · cases heq
      · exact ih hrest
    · split at h
      · rcases List.mem_cons.mp h with heq | hrest
        · cases heq
        · exact ih hrest
      · rename_i value hvalid
        rcases List.mem_cons.mp h with heq | hrest
        · obtain rfl : call = first := congrArg Prod.fst heq
          exact hvalid
        · exact ih hrest

theorem accepted_loaded {scope : RunnerScope}
    (h : call ∈ (validateCompletionToolCalls scope decision).accepted)
    (hcall : call.isDiscovery = false) : call.name ∈ decision.loadedNames := by
  have hmixed : mixedDiscovery decision.toolCalls ≠ true := by
    intro hmixed
    exact Bool.false_ne_true (hcall.symm.trans (isDiscovery_of_mixed hmixed h))
  obtain ⟨verdict, hverdict, haccepted⟩ := List.mem_filterMap.mp h
  rw [toolVerdicts, if_neg hmixed] at hverdict
  obtain ⟨first, outcome⟩ := verdict
  cases outcome with
  | some code => cases haccepted
  | none =>
    obtain rfl := Option.some.inj haccepted
    have hvalid := validateEach_valid hverdict
    have hname : first.name ≠ discoveryMetaToolName := by
      intro heq
      rw [ToolCall.isDiscovery, heq, beq_self_eq_true] at hcall
      cases hcall
    rw [validateCall, validateLoadedToolCall, if_neg hname, if_neg (not_not.mpr rfl)] at hvalid
    split at hvalid
    · cases hvalid
    · rename_i hloaded
      simpa using hloaded

theorem reads_loaded {scope : RunnerScope}
    (h : call ∈ (partitionToolCalls scope decision).readCalls) :
    call.name ∈ decision.loadedNames := by
  obtain ⟨haccepted, hslot⟩ := mem_acceptedIn h
  refine accepted_loaded haccepted (Bool.eq_false_iff.mpr fun hdiscovery => ?_)
  rw [(slotOf_discovery scope.registry call).mpr hdiscovery] at hslot
  exact absurd hslot nofun

theorem searches_discovery {scope : RunnerScope}
    (h : call ∈ (partitionToolCalls scope decision).discoveryCalls) :
    call.name = discoveryMetaToolName :=
  beq_iff_eq.mp ((slotOf_discovery scope.registry call).mp (mem_acceptedIn h).2)

theorem lasts_ended (hstate : ToolSet scope.runner.registry state) (code : String) :
    Lasts scope (GoesOn scope) (do return .ended (← failRun state code)) :=
  lasts_bind (lasts_failRun hstate code) fun _ _ => lasts_pure nofun

/-- After the searches of a completion its reads are still of loaded tools: a completion that
searches reads nothing. -/
theorem lasts_executeDiscoveryBatch (hstate : ToolSet scope.runner.registry state)
    (hdecision : decision.loadedNames = state.loadedToolNames) :
    Lasts scope (fun r => ToolSet scope.runner.registry r.state ∧
      ∀ call ∈ (partitionToolCalls scope.runner decision).readCalls,
        call.name ∈ r.state.loadedToolNames)
      (executeDiscoveryBatch state (partitionToolCalls scope.runner decision).discoveryCalls) := by
  by_cases hsearches : (partitionToolCalls scope.runner decision).discoveryCalls = []
  · rw [hsearches]
    refine lasts_pure ⟨hstate, fun call hcall => ?_⟩
    rw [← hdecision]
    exact reads_loaded hcall
  · have hreads : (partitionToolCalls scope.runner decision).readCalls = [] :=
      accepted_apart nofun hsearches
    rw [hreads]
    have hnames : ∀ call ∈ (partitionToolCalls scope.runner decision).discoveryCalls,
        call.name = discoveryMetaToolName := fun _ hcall => searches_discovery hcall
    exact (lasts_executeDiscoveryCalls hnames hstate _ []).mono
      fun _ hdiscovered => ⟨hdiscovered, nofun⟩

theorem lasts_runCalls (hstate : ToolSet scope.runner.registry state)
    (completion : ToolCompletion) :
    Lasts scope (GoesOn scope) (Runner.runCalls scope.runner state completion) := by
  refine lasts_bind (lasts_silent rfl fun _ _ => trivial) fun _ _ => ?_
  dsimp only
  split
  · exact lasts_ended hstate _
  · refine lasts_bind (lasts_executeDiscoveryBatch hstate rfl) fun discovered hdiscovered => ?_
    refine lasts_bind (lasts_executeReads hdiscovered.1 hdiscovered.2 _) fun readBatch hread => ?_
    split
    · exact lasts_pure nofun
    · refine lasts_bind (lasts_silent rfl fun _ _ => trivial) fun current _ => ?_
      split
      · exact lasts_ended hread _
      · exact lasts_runWrites hread _ _ _

theorem lasts_runCallsSafely (hstate : ToolSet scope.runner.registry state)
    (completion : ToolCompletion) :
    Lasts scope (GoesOn scope) (Runner.runCallsSafely scope.runner state completion) := by
  refine lasts_bind (lasts_attempted (lasts_runCalls hstate completion)) fun ended hended => ?_
  cases ended with
  | ok ended => exact lasts_pure (hended ended rfl)
  | error e =>
    exact lasts_bind (lasts_reload hstate) fun fresh hfresh => lasts_ended hfresh _

theorem lasts_modelStep (hstate : ToolSet scope.runner.registry state) (modelCall : Nat) :
    Lasts scope (fun _ => True) (Runner.modelStep state modelCall) := by
  refine lasts_bind (lasts_attempted (lasts_callModel hstate modelCall)) fun ended _ => ?_
  cases ended with
  | ok completion => exact lasts_pure trivial
  | error e => exact lasts_bind (lasts_failRun hstate _) fun _ _ => lasts_pure trivial

end Calls

section Loop

variable {loop : Runner.LoopState}

/-- The copy that the loop goes on with has a tool set. -/
def Continues (scope : SearchScope) (ended : Runner.IterationEnd) : Prop :=
  ∀ loop, ended = .next loop → ToolSet scope.runner.registry loop.state

theorem lasts_endIteration (hstate : ToolSet scope.runner.registry state) (code : String) :
    Lasts scope (Continues scope) (do return .ended (← failRun state code)) :=
  lasts_bind (lasts_failRun hstate code) fun _ _ => lasts_pure nofun

theorem lasts_closeIteration (hstate : ToolSet scope.runner.registry state)
    (iterationStarted : Nat) (completion : ToolCompletion) (observations : List RunObservation) :
    Lasts scope (Continues scope)
      (Runner.closeIteration loop state iterationStarted completion observations) := by
  refine lasts_bind (lasts_silent rfl fun _ _ => trivial) fun now _ => ?_
  refine lasts_bind (lasts_reload hstate) fun fresh hfresh => ?_
  have hcharged : ToolSet scope.runner.registry { fresh with
      budget := { fresh.budget with
        activeWallMsUsed := fresh.budget.activeWallMsUsed + (now - iterationStarted) } } :=
    hfresh.congr rfl rfl
  refine lasts_bind (lasts_saveRun hcharged) fun _ _ => ?_
  dsimp only
  split
  · exact lasts_endIteration hcharged _
  · refine lasts_pure fun next heq => ?_
    obtain rfl := Runner.IterationEnd.next.inj heq
    exact hcharged

theorem lasts_runIteration (hstate : ToolSet scope.runner.registry loop.state) :
    Lasts scope (Continues scope) (Runner.runIteration scope.runner loop) := by
  refine lasts_bind (lasts_silent rfl fun _ _ => trivial) fun aborted _ => ?_
  split
  · exact lasts_endIteration hstate _
  · refine lasts_bind (lasts_modelStep hstate _) fun step _ => ?_
    split
    · exact lasts_pure nofun
    · refine lasts_bind (lasts_reload hstate) fun fresh hfresh => ?_
      refine lasts_bind (lasts_silent rfl fun _ _ => trivial) fun current _ => ?_
      split
      · exact lasts_endIteration hfresh _
      · refine lasts_bind (lasts_silent rfl fun _ _ => trivial) fun started _ => ?_
        split
        · exact lasts_bind (lasts_completeRun hfresh) fun _ _ => lasts_pure nofun
        · refine lasts_bind (lasts_runCallsSafely hfresh _) fun ended hended => ?_
          cases ended with
          | ended outcome => exact lasts_pure nofun
          | done state observations =>
            exact lasts_closeIteration (hended state observations rfl) _ _ _

theorem lasts_runLoop (fuel : Nat) (hstate : ToolSet scope.runner.registry loop.state) :
    Lasts scope (fun _ => True) (Runner.runLoop scope.runner fuel loop) := by
  have hstop : ∀ {loop : Runner.LoopState}, ToolSet scope.runner.registry loop.state →
      Lasts scope (fun _ => True) (Runner.stopLoop loop) := fun h => lasts_failRun h _
  induction fuel generalizing loop with
  | zero =>
    rw [Runner.runLoop]
    split
    · exact lasts_throw _
    · exact hstop hstate
  | succ fuel ih =>
    rw [Runner.runLoop]
    split
    · exact hstop hstate
    · refine lasts_bind (lasts_runIteration hstate) fun ended hended => ?_
      cases ended with
      | ended outcome => exact lasts_pure trivial
      | next loop =>
        have hnext := hended loop rfl
        dsimp only
        split
        · exact hstop hnext
        · exact ih hnext

theorem lasts_enterLoop (hstate : ToolSet scope.runner.registry state) :
    Lasts scope (fun _ => True) (Runner.enterLoop scope.runner state) := by
  refine lasts_bind (lasts_silent rfl fun _ _ => trivial) fun aborted _ => ?_
  split
  · exact lasts_failRun hstate _
  · exact lasts_runLoop _ hstate

theorem lasts_startFresh (input : RunAssistantInput) :
    Lasts scope (fun _ => True) (Runner.startFresh scope.runner input) := by
  unfold Runner.startFresh
  split
  · exact lasts_pure trivial
  · refine lasts_bind (lasts_silent rfl fun _ _ => trivial) fun prior _ => ?_
    refine lasts_bind (lasts_startRun prior) fun _ _ => ?_
    exact lasts_bind (lasts_reload (freshState_toolSet scope.runner prior))
      fun _ hfresh => lasts_enterLoop hfresh

theorem lasts_runAssistantV2 (input : RunAssistantInput) :
    Lasts scope (fun _ => True) (Runner.runAssistantV2 scope.runner input) := by
  refine lasts_bind (lasts_silent rfl fun _ _ => trivial) fun current _ => ?_
  cases current with
  | false => exact lasts_throw _
  | true =>
    rw [if_neg (by simp)]
    refine lasts_bind lasts_getRun fun row hrow => ?_
    cases row with
    | none => exact lasts_startFresh input
    | some state =>
      dsimp only
      split
      · exact lasts_pure trivial
      · exact lasts_pure trivial
      · exact lasts_pure trivial
      · exact lasts_pure trivial
      · exact lasts_enterLoop (hrow state rfl)

theorem lasts_resolveOption (chosen : Runner.ChosenOption) :
    Lasts scope (fun _ => True) (Runner.resolveOption scope.runner chosen) := by
  unfold Runner.resolveOption
  dsimp only
  split
  · exact lasts_pure trivial
  · refine lasts_bind (lasts_silent rfl fun _ _ => trivial) fun outcome _ => ?_
    cases outcome with
    | succeeded actionResultId modelSummary =>
      refine lasts_bind lasts_getRun fun row hrow => ?_
      cases row with
      | none => exact lasts_pure trivial
      | some state =>
        have hresolved : ToolSet scope.runner.registry { state with
            completedResults := linkCompleted state.completedResults
              { toolCallId := (Runner.clarificationCall chosen).id
                actionName := (Runner.clarificationCall chosen).name
                actionResultId := some actionResultId }
            continuation := .none
            phase := .model } :=
          (hrow state rfl).congr rfl rfl
        refine lasts_bind (lasts_commitEvent hresolved nofun) fun _ _ => ?_
        exact lasts_bind (lasts_runAssistantV2 _) fun _ _ => lasts_pure trivial
    | _ => exact lasts_pure trivial
  · refine lasts_bind (lasts_prepare _) fun outcome _ => ?_
    cases outcome with
    | prepared operationIds confirmationIds batchId hostCallsReserved => exact lasts_pure trivial
    | _ => exact lasts_pure trivial

theorem lasts_handler (request : RunRequest) :
    Lasts scope (fun _ => True) (request.handler scope.runner) := by
  cases request with
  | runAssistant input =>
    exact lasts_bind (lasts_runAssistantV2 input) fun _ _ => lasts_pure trivial
  | resolveOption chosen => exact lasts_resolveOption chosen
  | other =>
    exact lasts_bind (lasts_silent rfl fun _ _ => trivial) fun _ _ => lasts_pure trivial

end Loop

section Runs

/-- The searches on the way of an invocation are answered from the catalog. -/
def SearchesAnswered (scope : SearchScope) (request : RunRequest) (envs : List RunnerEnv)
    (w : RunWorld) : Prop :=
  (runController scope.runner).Along (SearchAnswered scope)
    ((runController scope.runner).handler request) envs w

/-- A run through its invocations: each is cut off somewhere, or comes to its end, and the rest
of the program may write to the run before the next. -/
inductive DiscoveryRun (scope : SearchScope) : RunWorld → Prop
  | start : DiscoveryRun scope .empty
  | turn {w : RunWorld} {request : RunRequest} {envs : List RunnerEnv} (others : OtherRunWrites)
      (h : DiscoveryRun scope w) (hanswers : SearchesAnswered scope request envs w) :
      DiscoveryRun scope ((cutShort scope.runner request envs w).await others)

theorem kept_cutShort {w : RunWorld} (h : Kept scope.runner w) {request : RunRequest}
    {envs : List RunnerEnv} (hanswers : SearchesAnswered scope request envs w) :
    Kept scope.runner (cutShort scope.runner request envs w) := by
  have hstep : ∀ o env w, (toolSets scope).Pre o w → (toolSets scope).Allowed o env w →
      Kept scope.runner ((runController scope.runner).exec o env w).2 :=
    fun _ env _ hpre _ => hpre.2 env
  exact Safe.interrupt (fun _ => rfl) hstep (lasts_handler request w h) hanswers h

theorem DiscoveryRun.kept {w : RunWorld} (h : DiscoveryRun scope w) : Kept scope.runner w := by
  induction h with
  | start => exact nofun
  | turn others h hanswers ih => exact (kept_cutShort ih hanswers).await others

end Runs

end ToolSets

/-- Wherever a run is interrupted its row has a tool set: the search, every used tool, at most
twelve tools, each of them registered. On the way there it was seeded with reads only, each
search has found a place for what it keeps, the best matches first, and each event of loaded
operations passes its schema. -/
theorem tool_set_kept (scope : SearchScope) (w : RunWorld) (request : RunRequest)
    (envs : List RunnerEnv) (h : ToolSets.DiscoveryRun scope w)
    (hanswers : ToolSets.SearchesAnswered scope request envs w) :
    (∀ run, (cutShort scope.runner request envs w).run = some run →
      ToolSet scope.runner.registry run) ∧
    (runController scope.runner).Along (ToolSets.OperationKeeps scope.runner)
      ((runController scope.runner).handler request) envs w := by
  have hpre := Safe.along (fun _ => rfl) (ToolSets.lasts_handler request w h.kept) hanswers
  exact ⟨ToolSets.kept_cutShort h.kept hanswers, hpre.mono fun _ env _ hkeeps => hkeeps.1 env⟩

namespace ToolSets

/-- A catalog of one read and one write. -/
def tagCatalog : ApiCatalog where
  actions := [
    { name := "clockify_list_tags", operationId := "getTags", access := .read,
      featureGroup := "work_structure", description := "List tags", available := fun _ => true },
    { name := "clockify_create_tag", operationId := "createNewTag", access := .write,
      featureGroup := "work_structure", description := "Create a tag",
      available := fun _ => true }]
  hash := "catalog"
  distinct := by decide
  named := by decide

/-- How the two actions score for "tag": a token of one of them, a trigram too few of the
other. -/
def tagScope : SearchScope where
  text := {
    normalizeSearchText := id
    tokenizeSearchText := fun text => [text]
    scoreIndexedOperation := fun operation _ _ =>
      if operation.toolName = "clockify_create_tag" then some 42 else none
    localeCompare := compare }
  catalog := tagCatalog
  authClass := .addon

def tagInput : FindApiOperationsInput where
  query := "tag"
  access := none
  groups := none
  limit := none

theorem search_tag : rankedNamesFromSearch (discoverySearch tagScope.text
    (some (buildApiOperationIndex tagCatalog)) tagInput tagScope.authClass) =
      ["clockify_create_tag"] := by
  simp [discoverySearch, searchApiOperations, searchPool, buildApiOperationIndex, tagCatalog,
    tagScope, tagInput, indexAction, passesAccessFilter, passesGroupFilter, resolveLimit,
    maxLoadedApiTools, rankedNamesFromSearch, List.filterMap_cons]

/-- An earlier run has listed tags and created one. -/
def taggedRun : RunState where
  phase := .completed
  catalogHash := "catalog"
  loadedToolNames := [discoveryMetaToolName, "clockify_list_tags", "clockify_create_tag"]
  usedToolNames := ["clockify_list_tags", "clockify_create_tag"]
  completedResults := []
  continuation := .none
  budget := createEmptyRunBudget

def searchTag : RunnerEnv where
  attempt := .answered ⟨[⟨"call_1", discoveryMetaToolName, .obj [("query", .str "tag")]⟩], none, 1⟩
  search := .ok ["clockify_create_tag"]
  prior := some taggedRun

/-- The only search is the one for "tag". -/
def searchesTag (o : RunnerOp) (env : RunnerEnv) : Bool :=
  match o, env.search with
  | .search input, .ok ranked =>
      ranked.isEmpty || (decide (input = tagInput) && ranked == ["clockify_create_tag"])
  | _, _ => true

def tagEnvs : List RunnerEnv := List.replicate 27 searchTag ++ List.replicate 25 prose

theorem searchesTag_along :
    (runController tagScope.runner).Along (fun o env _ => searchesTag o env = true)
      ((runController tagScope.runner).handler newTags) tagEnvs .empty := by
  have hdecided : (@Server.decidableAlong _ _ _ (runController tagScope.runner)
      (fun o env _ => searchesTag o env = true) (fun _ _ _ => instDecidableEqBool _ _)
      ((runController tagScope.runner).handler newTags) tagEnvs .empty).decide = true := by
    decide +kernel
  exact @of_decide_eq_true _ (Server.decidableAlong _ _ _ _ _) hdecided

theorem searchesTag_answered {o : RunnerOp} {env : RunnerEnv} (h : searchesTag o env = true)
    (w : RunWorld) : SearchAnswered tagScope o env w := by
  cases o with
  | search input =>
    intro ranked hranked
    simp only [searchesTag, hranked, Bool.or_eq_true, Bool.and_eq_true, List.isEmpty_iff,
      decide_eq_true_eq, beq_iff_eq] at h
    rcases h with rfl | ⟨rfl, rfl⟩
    · exact ⟨none, nofun, rfl⟩
    · refine ⟨some (buildApiOperationIndex tagCatalog), fun built heq => ?_, search_tag.symm⟩
      exact (Option.some.inj heq).symm
  | _ => trivial

theorem loaded_tagRun : ((cutShort tagScope.runner newTags tagEnvs .empty).run.map
    fun run => (run.loadedToolNames, run.usedToolNames)) =
      some ([discoveryMetaToolName, "clockify_create_tag", "clockify_list_tags"],
        [discoveryMetaToolName]) := by
  decide +kernel

end ToolSets

theorem tool_set_kept_tag :
    ∃ run, (cutShort ToolSets.tagScope.runner newTags ToolSets.tagEnvs .empty).run = some run ∧
      run.loadedToolNames = [discoveryMetaToolName, "clockify_create_tag", "clockify_list_tags"] ∧
      ToolSet ToolSets.tagScope.runner.registry run := by
  obtain ⟨run, hrun, hnames⟩ := Option.map_eq_some_iff.mp ToolSets.loaded_tagRun
  have hanswers : ToolSets.SearchesAnswered ToolSets.tagScope newTags ToolSets.tagEnvs .empty :=
    ToolSets.searchesTag_along.mono fun _ _ w h => ToolSets.searchesTag_answered h w
  have hkept := tool_set_kept ToolSets.tagScope .empty newTags ToolSets.tagEnvs .start hanswers
  exact ⟨run, hrun, congrArg Prod.fst hnames, hkept.1 run hrun⟩

end ClockifyAssistant
