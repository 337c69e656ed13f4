import ClockifyAssistant.ToolBatchJournal

/-!
The loop of a run, as it is journaled: a completion is parted into calls of different ids,
each batch is settled before the next model call, and the loop ends with the phase that its
outcome names.
-/
namespace ClockifyAssistant

open Lib RunnerProcess RunService ToolJournal ActionExecution
open Fallible hiding perform

namespace RunJournal

section Partition

variable {scope : RunnerScope} {decision : ToolDecision} {call : ToolCall}

theorem slotOf_discovery (registry : ActionRegistry) (call : ToolCall) :
    slotOf registry call = .discovery ↔ call.isDiscovery = true := by
  unfold slotOf
  by_cases h : call.isDiscovery = true
  · simp [h]
  · simp only [h, Bool.false_eq_true, ↓reduceIte, iff_false]
    split
    · decide
    · split <;> decide

theorem mem_acceptedIn {slot : ToolSlot} (h : call ∈ acceptedIn scope decision slot) :
    call ∈ (validateCompletionToolCalls scope decision).accepted ∧
      slotOf scope.registry call = slot := by
  obtain ⟨hmem, hslot⟩ := List.mem_filter.mp h
  exact ⟨hmem, beq_iff_eq.mp hslot⟩

theorem mem_of_accepted (h : call ∈ (validateCompletionToolCalls scope decision).accepted) :
    call ∈ decision.toolCalls := by
  obtain ⟨verdict, hmem, haccepted⟩ := List.mem_filterMap.mp h
  rw [← toolVerdicts_calls scope decision]
  refine List.mem_map.mpr ⟨verdict, hmem, ?_⟩
  unfold ToolVerdict.accepted? at haccepted
  split at haccepted
  · exact Option.some.inj haccepted
  · cases haccepted

theorem isDiscovery_of_mixed (hmixed : mixedDiscovery decision.toolCalls = true)
    (h : call ∈ (validateCompletionToolCalls scope decision).accepted) :
    call.isDiscovery = true := by
  obtain ⟨verdict, hmem, haccepted⟩ := List.mem_filterMap.mp h
  rw [toolVerdicts, if_pos hmixed] at hmem
  obtain ⟨original, -, rfl⟩ := List.mem_map.mp hmem
  unfold ToolVerdict.accepted? mixedVerdict at haccepted
  by_cases hdiscovery : original.isDiscovery = true
  · simp only [hdiscovery, ↓reduceIte, Option.isNone_none, Option.some.injEq] at haccepted
    exact haccepted ▸ hdiscovery
  · simp [hdiscovery] at haccepted

theorem fresh_of_accepted (h : call ∈ (validateCompletionToolCalls scope decision).accepted)
    (hcall : call.isDiscovery = false) : call.id ∉ decision.priorToolCallIds := by
  by_cases hmixed : mixedDiscovery decision.toolCalls = true
  · rw [isDiscovery_of_mixed hmixed h] at hcall
    cases hcall
  · have hverdicts : toolVerdicts scope decision =
        validateEach (validateCall scope decision) decision.priorToolCallIds
          decision.toolCalls := by
      rw [toolVerdicts, if_neg hmixed]
    have hfirst : FirstUses decision.priorToolCallIds (toolVerdicts scope decision) := by
      rw [hverdicts, firstUses_each]
      intro before c after _ hnew _ _
      exact hnew
    exact hfirst.acceptedIds.2 call h

theorem accepted_apart {slot : ToolSlot} (hslot : slot ≠ .discovery)
    (hsearches : acceptedIn scope decision .discovery ≠ []) :
    acceptedIn scope decision slot = [] := by
  rw [List.eq_nil_iff_forall_not_mem]
  intro call hmem
  obtain ⟨haccepted, rfl⟩ := mem_acceptedIn hmem
  obtain ⟨search, hsearch⟩ := List.exists_mem_of_ne_nil _ hsearches
  obtain ⟨hsearch, hdiscovery⟩ := mem_acceptedIn hsearch
  have hcall : ¬ call.isDiscovery = true := fun h =>
    hslot ((slotOf_discovery scope.registry call).mpr h)
  have hmixed : mixedDiscovery decision.toolCalls = true := by
    rw [mixedDiscovery, Bool.and_eq_true]
    refine ⟨List.any_eq_true.mpr ⟨search, mem_of_accepted hsearch,
      (slotOf_discovery scope.registry search).mp hdiscovery⟩, ?_⟩
    refine List.any_eq_true.mpr ⟨call, mem_of_accepted haccepted, ?_⟩
    simp [hcall]
  exact hcall (isDiscovery_of_mixed hmixed haccepted)

end Partition

/-- The calls of a completion, once they are parted. -/
structure PartsFit (terms : JournalTerms) (state : RunState) (parts : PartitionedToolCalls) :
    Prop where
  reads : ∀ call ∈ parts.readCalls, CallFits terms call ∧ call.name ∈ state.loadedToolNames
  writes : ∀ call ∈ parts.writeCalls, CallFits terms call
  searches : ∀ call ∈ parts.discoveryCalls, CallFits terms call ∧ call.name = discoveryMetaToolName
  deniedIds : ∀ denied ∈ parts.denied, boundedString denied.toolCallId = true
  deniedNames : ∀ denied ∈ parts.denied, boundedString denied.actionName = true
  apart : parts.discoveryCalls = [] ∨ parts.readCalls = []
  distinct : terms.closing → (parts.readCalls.map ToolCall.id ++ parts.writeCalls.map ToolCall.id ++
    parts.denied.map DeniedToolCall.toolCallId).Nodup
  freshReads : ∀ call ∈ parts.readCalls, call.id ∉ resultIds state
  freshWrites : ∀ call ∈ parts.writeCalls, call.id ∉ resultIds state

section Parts

variable {scope : RunnerScope} {terms : JournalTerms} {state : RunState}

theorem partition_writes_subset (scope : RunnerScope) (decision : ToolDecision) :
    (partitionToolCalls scope decision).writeCalls ⊆ acceptedIn scope decision .write := by
  by_cases h : acceptedIn scope decision .read = [] ∨ acceptedIn scope decision .write = []
  · rw [partition_independent h]
    exact List.Subset.refl _
  · rw [not_or] at h
    rw [partition_dependent h.1 h.2]
    exact List.nil_subset _

theorem described_ids {denied : List DeniedToolCall} {calls : List ToolCall}
    (h : List.Forall₂ DeniedToolCall.describes denied calls) :
    denied.map DeniedToolCall.toolCallId = calls.map ToolCall.id := by
  induction h with
  | nil => rfl
  | cons hfirst _ ih => rw [List.map_cons, List.map_cons, hfirst.1, ih]

theorem described_mem {denied : List DeniedToolCall} {calls : List ToolCall}
    (h : List.Forall₂ DeniedToolCall.describes denied calls) {d : DeniedToolCall}
    (hd : d ∈ denied) : ∃ call ∈ calls, d.describes call := by
  induction h with
  | nil => cases hd
  | cons hfirst _ ih =>
    rcases List.mem_cons.mp hd with rfl | hrest
    · exact ⟨_, List.mem_cons_self, hfirst⟩
    · obtain ⟨call, hcall, hdescribes⟩ := ih hrest
      exact ⟨call, List.mem_cons_of_mem _ hcall, hdescribes⟩

theorem partsFit (hbounded : scope.registry.Bounded) (hfits : ToolsFit scope.registry state)
    {completion : ToolCompletion} (h : Journalable terms state.loadedToolNames completion) :
    PartsFit terms state (partitionToolCalls scope (Runner.decisionOf state completion)) := by
  let decision := Runner.decisionOf state completion
  have hcalls := h.callFits hbounded hfits
  have haccepted : ∀ {slot : ToolSlot}, ∀ call ∈ acceptedIn scope decision slot,
      call ∈ completion.toolCalls := fun call hmem => mem_of_accepted (mem_acceptedIn hmem).1
  have hfresh : ∀ slot : ToolSlot, slot ≠ .discovery →
      ∀ call ∈ acceptedIn scope decision slot, call.id ∉ resultIds state := by
    intro slot hslot call hcall
    obtain ⟨hmem, rfl⟩ := mem_acceptedIn hcall
    refine fresh_of_accepted hmem (Bool.eq_false_iff.mpr fun hdiscovery => ?_)
    exact hslot ((slotOf_discovery scope.registry call).mpr hdiscovery)
  have hwrites := partition_writes_subset scope decision
  obtain ⟨deniedCalls, hdescribe, hperm⟩ := partition_parts scope decision
  have hdenied : ∀ denied ∈ (partitionToolCalls scope decision).denied,
      ∃ call ∈ completion.toolCalls, denied.describes call := by
    intro denied hmem
    obtain ⟨call, hcall, hdescribes⟩ := described_mem hdescribe hmem
    exact ⟨call, hperm.subset (List.mem_append_right _ hcall), hdescribes⟩
  refine ⟨?_, ?_, ?_, ?_, ?_, ?_, ?_, ?_, ?_⟩
  · intro call hmem
    exact ⟨hcalls call (haccepted call hmem), h.names call (haccepted call hmem)⟩
  · intro call hmem
    exact hcalls call (haccepted call (hwrites hmem))
  · intro call hmem
    refine ⟨hcalls call (haccepted call hmem), ?_⟩
    exact beq_iff_eq.mp ((slotOf_discovery scope.registry call).mp (mem_acceptedIn hmem).2)
  · intro denied hmem
    obtain ⟨call, hcall, hid, -⟩ := hdenied denied hmem
    exact hid ▸ (hcalls call hcall).id.2
  · intro denied hmem
    obtain ⟨call, hcall, -, hname⟩ := hdenied denied hmem
    exact hname ▸ (hcalls call hcall).name.2
  · by_cases hsearches : acceptedIn scope decision .discovery = []
    · exact Or.inl hsearches
    · exact Or.inr (accepted_apart nofun hsearches)
  · intro hclosing
    have hnodup := (hperm.map ToolCall.id).nodup_iff.mpr (h.distinct hclosing)
    rw [described_ids hdescribe]
    refine List.Nodup.sublist ?_ hnodup
    rw [List.map_append, List.map_append, List.map_append]
    exact (List.sublist_append_left _ _).append_right _
  · exact fun call hmem => hfresh .read (by decide) call hmem
  · exact fun call hmem => hfresh .write (by decide) call (hwrites hmem)

end Parts

/-- After the calls of a completion the run has ended, or goes on from a settled batch. -/
def BatchJournaled (scope : RunnerScope) (terms : JournalTerms) (models : Nat)
    (ended : Runner.BatchEnd) (w : RunWorld) : Prop :=
  match ended with
  | .ended outcome => Ended scope terms outcome w
  | .done state observations => Rested scope terms state w ∧
      state.budget.modelCallsUsed = models ∧ ObservationsFit observations

section Calls

variable {scope : RunnerScope} {terms : JournalTerms} {w : RunWorld} {events : List RunnerEvent}
  {ids : List ToolCallId} {base state : RunState} {observations : List RunObservation}
  {E : RunError → RunWorld → Prop}

theorem BatchPart.rested (h : BatchPart scope terms ids base events state w)
    (hquiet : terms.closing → Quiet events) : Rested scope terms state w := by
  obtain ⟨⟨added, hcopy, -, hsettles⟩, -, -⟩ := h
  exact hcopy.rested fun hclosing => (hquiet hclosing).settled_append (hsettles hclosing)

theorem safeE_recorded (h : BatchPart scope terms ids base events state w)
    (hquiet : terms.closing → Quiet events) {denied : List DeniedToolCall}
    (hids : ∀ d ∈ denied, boundedString d.toolCallId = true)
    (hnames : ∀ d ∈ denied, boundedString d.actionName = true)
    (hdisjoint : terms.closing → List.Disjoint ids (denied.map DeniedToolCall.toolCallId))
    (hobservations : ObservationsFit observations) :
    SafeE (S := journaling scope terms) (do
      let denials ← recordDenials state denied
      return Runner.BatchEnd.done denials.1 (observations ++ denials.2))
      (BatchJournaled scope terms base.budget.modelCallsUsed) E w := by
  obtain ⟨⟨added, hcopy, habout, hsettles⟩, hresults, hmodels⟩ := h
  refine safeE_bind (safeE_recordDenials denied hcopy hids hnames) ?_
  rintro denials w' ⟨hdenials, hfit⟩
  have hwhole : BatchPart scope terms (ids ++ denied.map DeniedToolCall.toolCallId) base events
      denials.1 w' := BatchPart.append habout hsettles hresults hmodels hdenials hdisjoint
  exact safeE_pure ⟨hwhole.rested hquiet, hwhole.models, hobservations.append hfit⟩

theorem safeE_runWrites (h : BatchPart scope terms ids base events state w)
    (hquiet : terms.closing → Quiet events) {writeCalls : List ToolCall}
    {denied : List DeniedToolCall} (hcalls : ∀ call ∈ writeCalls, CallFits terms call)
    (hfresh : ∀ call ∈ writeCalls, call.id ∉ resultIds base)
    (hids : ∀ d ∈ denied, boundedString d.toolCallId = true)
    (hnames : ∀ d ∈ denied, boundedString d.actionName = true)
    (hdistinct : terms.closing → (ids ++ writeCalls.map ToolCall.id ++
      denied.map DeniedToolCall.toolCallId).Nodup) (hobservations : ObservationsFit observations) :
    SafeE (S := journaling scope terms) (Runner.runWrites state observations denied writeCalls)
      (BatchJournaled scope terms base.budget.modelCallsUsed) E w := by
  unfold Runner.runWrites
  dsimp only
  split
  · refine safeE_recorded h hquiet hids hnames (fun hclosing => ?_) hobservations
    have happ := List.disjoint_of_nodup_append (hdistinct hclosing)
    exact fun id hid hid' => happ (List.mem_append_left _ hid) hid'
  · obtain ⟨⟨added, hcopy, habout, hsettles⟩, hresults, hmodels⟩ := h
    have hnew : terms.closing → (writeCalls.map ToolCall.id).Nodup ∧
        ∀ call ∈ writeCalls, call.id ∉ resultIds state := by
      intro hclosing
      have hpair := (List.nodup_append.mp (hdistinct hclosing)).1
      refine ⟨(List.nodup_append.mp hpair).2.1, fun call hcall hmem => ?_⟩
      rcases hresults call.id hmem with hold | hread
      · exact hfresh call hcall hold
      · exact List.disjoint_of_nodup_append hpair hread (List.mem_map_of_mem hcall)
    refine safeE_bind (safeE_prepareWrites hcopy writeCalls hcalls hnew) ?_
    rintro batch w' ⟨hlog, hfit⟩
    unfold BatchPartEnd writeSuspension at hlog
    split
    · rename_i confirmationId hsuspended
      rw [hsuspended] at hlog
      exact safeE_pure hlog
    · rename_i clarificationId hsuspended hclarification
      rw [hsuspended, hclarification] at hlog
      exact safeE_pure hlog
    · rename_i hsuspended hclarification
      rw [hsuspended, hclarification] at hlog
      have hwhole : BatchPart scope terms (ids ++ writeCalls.map ToolCall.id) base events
          batch.state w' := by
        refine BatchPart.append habout hsettles hresults hmodels hlog fun hclosing => ?_
        have hpair := (List.nodup_append.mp (hdistinct hclosing)).1
        exact fun id hid hid' => List.disjoint_of_nodup_append hpair hid hid'
      refine safeE_recorded hwhole hquiet hids hnames (fun hclosing => ?_)
        (hobservations.append hfit)
      exact fun id hid hid' => List.disjoint_of_nodup_append (hdistinct hclosing) hid hid'

theorem nodup_budgeted (reads writes denied : List ToolCallId) (n : Nat)
    (h : (reads ++ writes ++ denied).Nodup) :
    (reads.take n ++ writes ++ (denied ++ reads.drop n)).Nodup := by
  have hperm : (reads.take n ++ writes ++ (denied ++ reads.drop n)).Perm
      (reads ++ writes ++ denied) := by
    conv_rhs => rw [← List.take_append_drop n reads]
    have hmove : (writes ++ (denied ++ reads.drop n)).Perm
        (reads.drop n ++ (writes ++ denied)) := by
      rw [← List.append_assoc]
      exact List.perm_append_comm
    have hall := hmove.append_left (reads.take n)
    simpa only [List.append_assoc] using hall
  exact hperm.nodup_iff.mpr h

theorem safeE_silentSteady {o : RunnerOp} (ho : RunnerOp.silent o = true)
    (h : Steady scope terms state w) : SafeE (S := journaling scope terms) (RunnerProcess.perform o)
      (fun _ => Steady scope terms state)
      (fun _ => Standing scope terms) w :=
  SafeE.mono (answers_silent ho w h) (fun _ _ h' => h'.2) fun _ _ h' => h'.standing

theorem safeE_failBatch (h : Failing scope terms state w) {code : String}
    (hcode : boundedString code = true) (models : Nat) :
    SafeE (S := journaling scope terms) (do
      return Runner.BatchEnd.ended (← failRun state code))
      (BatchJournaled scope terms models) E w :=
  safeE_bind (safeE_failRun h hcode) fun _ _ h' => safeE_pure h'

theorem safeE_look {o : RunnerOp} (ho : RunnerOp.silent o = true) (h : Journaled scope terms w)
    (hlooks : ∀ env, ∃ value, RunnerOp.exec env w o = (.ok value, w)) :
    SafeE (S := journaling scope terms) (RunnerProcess.perform o) (fun _ w' => w' = w) E w := by
  have haccepted : terms.payloads → Accepted o w := by
    intro _
    cases o with
    | commitStateEvents state events => cases ho
    | _ => trivial
  refine safeE_perform rfl ⟨haccepted, fun env _ => ?_⟩ fun env _ => ?_
  · obtain ⟨value, hvalue⟩ := hlooks env
    show Journaled scope terms (RunnerOp.exec env w o).2
    rw [hvalue]
    exact h
  · obtain ⟨value, hvalue⟩ := hlooks env
    show Meets (M := runController scope) _ _ (RunnerOp.exec env w o).1 (RunnerOp.exec env w o).2
    rw [hvalue]
    rfl

theorem safeE_executeDiscoveryBatch (hbounded : scope.registry.Bounded)
    (h : Steady scope terms state w) {discoveryCalls : List ToolCall}
    (hcalls : ∀ call ∈ discoveryCalls, CallFits terms call ∧ call.name = discoveryMetaToolName) :
    SafeE (S := journaling scope terms) (ApiDiscovery.executeDiscoveryBatch state discoveryCalls)
      (fun r w' => Searched scope terms state r.state r.observations w' ∧
        (discoveryCalls = [] → r.state = state))
      (fun _ => Standing scope terms) w := by
  cases discoveryCalls with
  | nil => exact safeE_pure ⟨⟨h, rfl, rfl, ObservationsFit.nil⟩, fun _ => rfl⟩
  | cons call rest =>
    exact SafeE.weaken (safeE_executeDiscoveryCalls hbounded (call :: rest) _ h
      ObservationsFit.nil hcalls) (fun _ _ h' => ⟨h', nofun⟩)

/-- A completion whose calls can be journaled ends in a settled batch or ends the run. -/
theorem safeE_runCalls (hbounded : scope.registry.Bounded) (h : Steady scope terms state w)
    {completion : ToolCompletion}
    (hcompletion : Journalable terms state.loadedToolNames completion) :
    SafeE (S := journaling scope terms) (Runner.runCalls scope state completion)
      (BatchJournaled scope terms state.budget.modelCallsUsed)
      (fun _ => Standing scope terms) w := by
  have hparts := partsFit hbounded h.copy.fits.tools hcompletion
  set parts := partitionToolCalls scope (Runner.decisionOf state completion) with hpartsEq
  refine safeE_bind (safeE_silentSteady rfl h) ?_
  intro _ w₁ h₁
  dsimp only
  rw [← hpartsEq]
  split
  · exact safeE_failBatch h₁.failing (by decide) _
  · refine safeE_bind (safeE_executeDiscoveryBatch hbounded h₁ hparts.searches) ?_
    rintro discovered w₂ ⟨⟨h₂, hresults₂, hmodels₂, hobservations₂⟩, hsame₂⟩
    have hids₂ : resultIds discovered.state = resultIds state :=
      congrArg (List.map CompletedToolResult.toolCallId) hresults₂
    have hreads : ∀ call ∈ parts.readCalls,
        CallFits terms call ∧ call.name ∈ discovered.state.loadedToolNames := by
      intro call hcall
      rcases hparts.apart with hsearches | hnone
      · rw [hsame₂ hsearches]
        exact hparts.reads call hcall
      · rw [hnone] at hcall
        cases hcall
    have hnew : terms.closing → (parts.readCalls.map ToolCall.id).Nodup ∧
        ∀ call ∈ parts.readCalls, call.id ∉ resultIds discovered.state := by
      intro hclosing
      have hpair := (List.nodup_append.mp (hparts.distinct hclosing)).1
      rw [hids₂]
      exact ⟨(List.nodup_append.mp hpair).1, hparts.freshReads⟩
    refine safeE_bind (safeE_executeReads h₂ parts.denied hreads hnew) ?_
    rintro readBatch w₃ ⟨⟨events, hquiet, hlog⟩, hobservations₃, hdenied⟩
    unfold BatchPartEnd at hlog
    split
    · rename_i clarificationId hasked
      rw [hasked] at hlog
      exact safeE_pure hlog
    · rename_i hasked
      rw [hasked] at hlog
      have hstanding := hlog.settled hquiet
      refine safeE_bind (safeE_look rfl hstanding.journaled fun _ => ⟨_, rfl⟩) ?_
      rintro current w₄ rfl
      cases current with
      | false => exact safeE_failBatch hstanding (by decide) _
      | true =>
        have hbatch : ∀ d ∈ readBatch.denied,
            boundedString d.toolCallId = true ∧ boundedString d.actionName = true := by
          intro d hmem
          rw [hdenied] at hmem
          rcases List.mem_append.mp hmem with hold | hleft
          · exact ⟨hparts.deniedIds d hold, hparts.deniedNames d hold⟩
          · have hfit := denialsOf_fit (fun call hcall =>
              (hparts.reads call (List.mem_of_mem_drop hcall)).1) (by decide) d hleft
            exact ⟨hfit.id, hfit.name⟩
        have hdistinct : terms.closing →
            ((parts.readCalls.take (remainingLogical discovered.state)).map ToolCall.id ++
              parts.writeCalls.map ToolCall.id ++
              readBatch.denied.map DeniedToolCall.toolCallId).Nodup := by
          intro hclosing
          rw [hdenied, List.map_append, denialsOf_ids, List.map_take, List.map_drop]
          exact nodup_budgeted _ _ _ _ (hparts.distinct hclosing)
        rw [← hmodels₂]
        exact safeE_runWrites hlog hquiet hparts.writes (hids₂ ▸ hparts.freshWrites)
          (fun d hd => (hbatch d hd).1) (fun d hd => (hbatch d hd).2) hdistinct
          (hobservations₂.append hobservations₃)

theorem safeE_reloadFailing (h : Standing scope terms w) (fallback : RunState) :
    SafeE (S := journaling scope terms) (reload fallback)
      (fun fresh => Failing scope terms fresh) E w := by
  obtain ⟨state, hfailing⟩ := h
  obtain ⟨run, hrun, -⟩ := hfailing.row
  refine safeE_bind (safeE_getRun hfailing.journaled) ?_
  rintro _ w' ⟨rfl, rfl⟩
  rw [hrun]
  exact safeE_pure ⟨hfailing.journaled, ⟨run, hrun, rfl⟩, hfailing.journaled.row run hrun,
    hfailing.settled⟩

theorem safeE_runCallsSafely (hbounded : scope.registry.Bounded)
    (h : Steady scope terms state w) {completion : ToolCompletion}
    (hcompletion : Journalable terms state.loadedToolNames completion) :
    SafeE (S := journaling scope terms) (Runner.runCallsSafely scope state completion)
      (BatchJournaled scope terms state.budget.modelCallsUsed) E w := by
  refine safeE_bind (safeE_attempted (safeE_runCalls hbounded h hcompletion)) ?_
  intro r w' hr
  cases r with
  | ok ended => exact safeE_pure hr
  | error e =>
    refine safeE_bind (safeE_reloadFailing hr state) ?_
    intro fresh w'' h'
    exact safeE_failBatch h' (by decide) _

end Calls

/-- What the loop carries from one iteration to the next. -/
structure LoopFits (scope : RunnerScope) (terms : JournalTerms) (models : Nat)
    (loop : Runner.LoopState) (w : RunWorld) : Prop where
  rested : Rested scope terms loop.state w
  models : loop.state.budget.modelCallsUsed = models
  code : ∀ code, loop.lastDenialCode = some code → boundedString code = true

/-- An iteration ends the run or counts one more model call. -/
def IterationJournaled (scope : RunnerScope) (terms : JournalTerms) (models : Nat)
    (ended : Runner.IterationEnd) (w : RunWorld) : Prop :=
  match ended with
  | .ended outcome => Ended scope terms outcome w
  | .next loop => LoopFits scope terms models loop w

section Loop

variable {scope : RunnerScope} {terms : JournalTerms} {w : RunWorld} {state : RunState}
  {loop : Runner.LoopState} {models : Nat} {E : RunError → RunWorld → Prop}

theorem ObservationsFit.code {observations : List RunObservation}
    (h : ObservationsFit observations) {code : String}
    (hcode : observations.findSome? Runner.denialCode? = some code) :
    boundedString code = true := by
  obtain ⟨observation, hmem, hdenial⟩ := List.exists_of_findSome?_eq_some hcode
  cases observation with
  | result name summary => cases hdenial
  | denied name code' =>
    cases hdenial
    exact h name code hmem

/-- The code of a stop is a denial that was journaled, or a constant. -/
theorem boundedCode_getD {lastDenialCode : Option String} {constant : String}
    (h : ∀ code, lastDenialCode = some code → boundedString code = true)
    (hconstant : boundedString constant = true) :
    boundedString (lastDenialCode.getD constant) = true := by
  cases lastDenialCode with
  | none => exact hconstant
  | some code => exact h code rfl

theorem safeE_reloadRested (h : Rested scope terms state w) (fallback : RunState) :
    SafeE (S := journaling scope terms) (reload fallback)
      (fun fresh w' => Rested scope terms fresh w' ∧ SameCopy state fresh) E w := by
  refine SafeE.weaken (safeE_reload h.copy fallback) ?_
  rintro fresh w' ⟨hcopy, hsame, -⟩
  exact ⟨hcopy.rested h.settled, hsame⟩

theorem safeE_endIteration {m : RunnerProcess RunOutcome}
    (hm : SafeE (S := journaling scope terms) m (Ended scope terms) E w) :
    SafeE (S := journaling scope terms) (do return Runner.IterationEnd.ended (← m))
      (IterationJournaled scope terms models) E w :=
  safeE_bind hm fun _ _ h' => safeE_pure h'

/-- An iteration that repeats the last one ends the run with the last denial. -/
theorem safeE_closeIteration (h : Rested scope terms state w)
    (hmodels : state.budget.modelCallsUsed = models)
    (hcode : ∀ code, loop.lastDenialCode = some code → boundedString code = true)
    (iterationStarted : Nat) (completion : ToolCompletion) {observations : List RunObservation}
    (hobservations : ObservationsFit observations) : SafeE (S := journaling scope terms)
      (Runner.closeIteration loop state iterationStarted completion observations)
      (IterationJournaled scope terms models) E w := by
  refine safeE_bind (safeE_look rfl h.copy.journaled fun _ => ⟨_, rfl⟩) ?_
  rintro now w₁ rfl
  refine safeE_bind (safeE_reloadRested h state) ?_
  rintro fresh w₂ ⟨h₂, hsame₂⟩
  let timed : RunState := { fresh with
    budget := { fresh.budget with
      activeWallMsUsed := fresh.budget.activeWallMsUsed + (now - iterationStarted) } }
  have hfits : RowFits scope.registry timed := h₂.copy.fits.congr rfl rfl rfl rfl
  refine safeE_bind (safeE_saveRun timed h₂.copy rfl hfits) ?_
  intro _ w₃ h₃
  have hrested : Rested scope terms timed w₃ := h₃.rested h₂.settled
  have hlast : ∀ code,
      (observations.findSome? Runner.denialCode?).or loop.lastDenialCode = some code →
        boundedString code = true := by
    intro code hsome
    rcases Option.or_eq_some_iff.mp hsome with hfirst | ⟨-, hearlier⟩
    · exact hobservations.code hfirst
    · exact hcode code hearlier
  dsimp only
  split
  · exact safeE_endIteration (safeE_failRun hrested.failing (boundedCode_getD hlast (by decide)))
  · exact safeE_pure ⟨hrested, hsame₂.models.symm.trans hmodels, hlast⟩

theorem safeE_runIteration (hbounded : scope.registry.Bounded)
    (h : LoopFits scope terms models loop w) :
    SafeE (S := journaling scope terms) (Runner.runIteration scope loop)
      (IterationJournaled scope terms (models + 1)) E w := by
  refine safeE_bind (safeE_look rfl h.rested.copy.journaled fun _ => ⟨_, rfl⟩) ?_
  rintro aborted w₁ rfl
  cases aborted with
  | true => exact safeE_endIteration (safeE_failRun h.rested.failing (by decide))
  | false =>
    refine safeE_bind (safeE_modelStep hbounded h.rested (Nat.succ_pos _)) ?_
    intro r w₂ h₂
    cases r with
    | error outcome => exact safeE_pure h₂
    | ok completion =>
      obtain ⟨hcompletion, hreserved⟩ := h₂
      refine safeE_bind (safeE_reloadSteady hreserved loop.state) ?_
      rintro fresh w₃ ⟨h₃, hsame₃⟩
      have hoffered : Journalable terms fresh.loadedToolNames completion := by
        have hloaded : loop.state.loadedToolNames = fresh.loadedToolNames := hsame₃.loaded
        rw [← hloaded]
        exact hcompletion
      have hmodels : fresh.budget.modelCallsUsed = models + 1 := by
        have hcounted : loop.state.budget.modelCallsUsed + 1 = fresh.budget.modelCallsUsed :=
          hsame₃.models
        rw [← hcounted, h.models]
      refine safeE_bind (safeE_look rfl h₃.copy.journaled fun _ => ⟨_, rfl⟩) ?_
      rintro current w₄ rfl
      cases current with
      | false => exact safeE_endIteration (safeE_failRun h₃.failing (by decide))
      | true =>
        refine safeE_bind (safeE_look rfl h₃.copy.journaled fun _ => ⟨_, rfl⟩) ?_
        rintro iterationStarted w₅ rfl
        split
        · exact safeE_endIteration (safeE_completeRun h₃.rested)
        · refine safeE_bind (safeE_runCallsSafely hbounded h₃ hoffered) ?_
          intro ended w₆ h₆
          cases ended with
          | ended outcome => exact safeE_pure h₆
          | done state observations =>
            exact safeE_closeIteration h₆.1 (h₆.2.1.trans hmodels) h.code _ _ h₆.2.2

/-- With a model call counted in each iteration the fuel outlasts the loop. -/
theorem safeE_runLoop (hbounded : scope.registry.Bounded) (fuel : Nat) :
    ∀ {w : RunWorld} {models : Nat} {loop : Runner.LoopState},
      LoopFits scope terms models loop w → maxModelCalls ≤ fuel + models →
      SafeE (S := journaling scope terms) (Runner.runLoop scope fuel loop)
        (Ended scope terms) E w := by
  induction fuel with
  | zero =>
    intro w models loop h hfuel
    have hspent : canReserveModelCall loop.state.budget = false := by
      have hmodels := h.models
      refine decide_eq_false ?_
      omega
    have hstop : Runner.mayContinue loop.state = false := by
      rw [Runner.mayContinue, hspent]
      rfl
    rw [Runner.runLoop, hstop]
    exact safeE_failRun h.rested.failing (boundedCode_getD h.code (by decide))
  | succ fuel ih =>
    intro w models loop h hfuel
    rw [Runner.runLoop]
    split
    · exact safeE_failRun h.rested.failing (boundedCode_getD h.code (by decide))
    · refine safeE_bind (safeE_runIteration hbounded h) ?_
      intro ended w' h'
      cases ended with
      | ended outcome => exact safeE_pure h'
      | next loop' =>
        dsimp only
        split
        · exact safeE_failRun h'.rested.failing (boundedCode_getD h'.code (by decide))
        · exact ih h' (by omega)

theorem safeE_enterLoop (hbounded : scope.registry.Bounded) (h : Rested scope terms state w) :
    SafeE (S := journaling scope terms) (Runner.enterLoop scope state) (Ended scope terms) E w := by
  refine safeE_bind (safeE_look rfl h.copy.journaled fun _ => ⟨_, rfl⟩) ?_
  rintro aborted w' rfl
  cases aborted with
  | true => exact safeE_failRun h.failing (by decide)
  | false => exact safeE_runLoop hbounded maxModelCalls ⟨h, rfl, nofun⟩ (by omega)

end Loop

/-- A run between two invocations: if it may be taken up again, its last batch is closed. -/
structure AtRest (scope : RunnerScope) (terms : JournalTerms) (w : RunWorld) : Prop where
  journaled : Journaled scope terms w
  quiet : terms.closing → Quiet w.events ∨ ∃ run, w.run = some run ∧ run.phase.resumable = false

/-- The durable phase is the one that the outcome speaks of. -/
def EndsAsSaid (outcome : RunOutcome) (w : RunWorld) : Prop :=
  ∀ run, w.run = some run → run.phase = outcome.phase

/-- What an answer to a question needs of the run that asked it. -/
def ChoiceFits (terms : JournalTerms) (chosen : Runner.ChosenOption) (w : RunWorld) : Prop :=
  boundedString (Runner.clarificationCall chosen).id = true ∧
    ∀ run, w.run = some run → run.completedResults.length < run.budget.apiCallsUsed ∧
      (terms.closing → run.phase.resumable = true ∧
        (Runner.clarificationCall chosen).id ∉ resultIds run)

def RequestFits (terms : JournalTerms) (request : RunRequest) (w : RunWorld) : Prop :=
  match request with
  | .resolveOption chosen => ChoiceFits terms chosen w
  | _ => True

section Turn

variable {scope : RunnerScope} {terms : JournalTerms} {w : RunWorld} {state : RunState}
  {E : RunError → RunWorld → Prop}

theorem Ended.atRest {outcome : RunOutcome} (h : Ended scope terms outcome w) :
    AtRest scope terms w :=
  ⟨h.journaled, fun hclosing => Or.inl (h.quiet hclosing)⟩

theorem AtRest.quiet_of_resumable (h : AtRest scope terms w)
    (hresumable : ∀ run, w.run = some run → run.phase.resumable = true) (hclosing : terms.closing) :
    Quiet w.events := by
  rcases h.quiet hclosing with hquiet | ⟨run, hrun, hphase⟩
  · exact hquiet
  · rw [hresumable run hrun] at hphase
    cases hphase

theorem Journaled.copy_self (h : Journaled scope terms w) (hrun : w.run = some state) :
    Copy scope terms state w.events w :=
  ⟨h, ⟨state, hrun, .refl state⟩, h.row state hrun, rfl⟩

theorem safeE_startRun (prior : Option RunState) (h : Journaled scope terms w)
    (hrun : w.run = none) (hquiet : terms.closing → Quiet w.events) :
    SafeE (S := journaling scope terms) (RunnerProcess.perform (.startRun (Runner.freshState scope prior)))
      (fun _ => Steady scope terms (Runner.freshState scope prior)) E w := by
  let state := Runner.freshState scope prior
  have hstarted : w.startRun state =
      (.ok (), { w with run := some state, events := w.events ++ [.runStarted] }) := by
    unfold RunWorld.startRun
    rw [hrun]
    rfl
  have hafter : Journaled scope terms
      { w with run := some state, events := w.events ++ [.runStarted] } := by
    refine ⟨?_, fun hclosing => (h.closes hclosing).concat_inner rfl, ?_, nofun⟩
    · intro row hrow
      cases hrow
      exact freshState_fits scope prior
    · intro hclosing id actionName actionResultId hevent
      rcases List.mem_append.mp hevent with hold | hnew
      · obtain ⟨result, -, hlink⟩ := h.linked hclosing id actionName actionResultId hold
        rw [linkedResults, hrun] at hlink
        cases hlink
      · cases List.mem_singleton.mp hnew
  have hcopy : Steady scope terms state
      { w with run := some state, events := w.events ++ [.runStarted] } := by
    refine ⟨⟨hafter, ⟨state, rfl, .refl state⟩, freshState_fits scope prior, rfl⟩,
      fun hclosing => (hquiet hclosing).append fun event hmem id => ?_⟩
    rw [List.mem_singleton.mp hmem]
    rfl
  refine safeE_perform rfl ⟨fun _ => trivial, fun env _ => ?_⟩ fun env _ => ?_
  · show Journaled scope terms (w.startRun state).2
    rw [hstarted]
    exact hafter
  · show Meets (M := runController scope) _ _ (w.startRun state).1 (w.startRun state).2
    rw [hstarted]
    exact hcopy

theorem safeE_runAssistantV2 (hbounded : scope.registry.Bounded) (h : AtRest scope terms w)
    (input : RunAssistantInput) :
    SafeE (S := journaling scope terms) (Runner.runAssistantV2 scope input)
      (fun outcome w' => AtRest scope terms w' ∧ EndsAsSaid outcome w')
      (fun e w' => e = .installationNotCurrent ∧ w' = w) w := by
  have hended : ∀ {outcome : RunOutcome} {w' : RunWorld}, Ended scope terms outcome w' →
      AtRest scope terms w' ∧ EndsAsSaid outcome w' := fun h' => ⟨h'.atRest, h'.phase⟩
  refine safeE_bind (safeE_look rfl h.journaled fun _ => ⟨_, rfl⟩) ?_
  rintro current w₁ rfl
  cases current with
  | false => exact safeE_throw ⟨rfl, rfl⟩
  | true =>
    refine safeE_bind (safeE_getRun h.journaled) ?_
    rintro run w₂ ⟨rfl, rfl⟩
    cases hrun : RunWorld.run w₂ with
    | none =>
      unfold Runner.startFresh
      dsimp only
      split
      · refine safeE_pure ⟨h, fun run hsome => ?_⟩
        rw [hrun] at hsome
        cases hsome
      · refine safeE_bind (safeE_look rfl h.journaled fun _ => ⟨_, rfl⟩) ?_
        rintro prior w₃ rfl
        have hquiet := h.quiet_of_resumable fun run hsome => by
          rw [hrun] at hsome
          cases hsome
        refine safeE_bind (safeE_startRun prior h.journaled hrun hquiet) ?_
        intro _ w₄ h₄
        refine safeE_bind (safeE_reloadSteady h₄ _) ?_
        rintro fresh w₅ ⟨h₅, -⟩
        exact SafeE.weaken (safeE_enterLoop hbounded h₅.rested) (fun _ _ h' => hended h')
    | some state =>
      have hphase : ∀ {outcome : RunOutcome}, state.phase = outcome.phase →
          EndsAsSaid outcome w₂ := by
        intro outcome hsame run hsome
        rw [hrun] at hsome
        cases hsome
        exact hsame
      have hloop : state.phase.working = true →
          SafeE (S := journaling scope terms) (Runner.enterLoop scope state)
            (fun outcome w' => AtRest scope terms w' ∧ EndsAsSaid outcome w')
            (fun e w' => e = .installationNotCurrent ∧ w' = w₂) w₂ := by
        intro hworking
        have hresumable : ∀ run, RunWorld.run w₂ = some run → run.phase.resumable = true := by
          intro run hsome
          rw [hrun] at hsome
          cases hsome
          cases hp : state.phase <;> simp_all [RunPhase.working, RunPhase.resumable]
        have hsteady : Steady scope terms state w₂ :=
          ⟨h.journaled.copy_self hrun, h.quiet_of_resumable hresumable⟩
        exact SafeE.weaken (safeE_enterLoop hbounded hsteady.rested) (fun _ _ h' => hended h')
      dsimp only
      cases hp : state.phase with
      | failed => exact safeE_pure ⟨h, hphase hp⟩
      | completed => exact safeE_pure ⟨h, hphase hp⟩
      | awaitingConfirmation => exact safeE_pure ⟨h, hphase hp⟩
      | awaitingClarification => exact safeE_pure ⟨h, hphase hp⟩
      | model => exact hloop (by rw [hp]; rfl)
      | discovering => exact hloop (by rw [hp]; rfl)
      | executingReads => exact hloop (by rw [hp]; rfl)
      | preparingWrites => exact hloop (by rw [hp]; rfl)

/-- A run whose question is being answered. -/
structure Answering (scope : RunnerScope) (terms : JournalTerms) (id : ToolCallId)
    (w : RunWorld) : Prop where
  journaled : Journaled scope terms w
  quiet : terms.closing → Quiet w.events
  row : ∀ run, w.run = some run →
    run.completedResults.length < run.budget.apiCallsUsed ∧ (terms.closing → id ∉ resultIds run)

variable {id : ToolCallId}

theorem Answering.atRest (h : Answering scope terms id w) : AtRest scope terms w :=
  ⟨h.journaled, fun hclosing => Or.inl (h.quiet hclosing)⟩

theorem Answering.await (h : Answering scope terms id w)
    (others : OtherRunWrites) : Answering scope terms id (w.await others) := by
  refine ⟨h.journaled.await others, h.quiet, fun run hrun => ?_⟩
  obtain ⟨old, hold, rfl⟩ := Option.map_eq_some_iff.mp hrun
  exact h.row old hold

theorem Answering.act {id : ToolCallId} (h : Answering scope terms id w) (act : RunAct) :
    Answering scope terms id (w.act act) :=
  ⟨h.journaled.act act, h.quiet, h.row⟩

theorem Answering.of_rest {chosen : Runner.ChosenOption} (h : AtRest scope terms w)
    (hfits : ChoiceFits terms chosen w) :
    Answering scope terms (Runner.clarificationCall chosen).id w := by
  refine ⟨h.journaled, fun hclosing => ?_, fun run hrun => ?_⟩
  · exact h.quiet_of_resumable (fun run hrun => ((hfits.2 run hrun).2 hclosing).1) hclosing
  · obtain ⟨hroom, hclosing⟩ := hfits.2 run hrun
    exact ⟨hroom, fun hc => (hclosing hc).2⟩

theorem safeE_answeringRead (h : Answering scope terms id w) (call : ToolCall) :
    SafeE (S := journaling scope terms) (RunnerProcess.perform (.executeRead call))
      (fun _ => Answering scope terms id) (fun _ => AtRest scope terms) w := by
  have hafter : ∀ env : RunnerEnv, Answering scope terms id
      ((w.act (.readExecuted call)).await env.others) := fun env =>
    (h.act (.readExecuted call)).await env.others
  refine safeE_perform rfl ⟨fun _ => trivial, fun env _ => (hafter env).journaled⟩ fun env _ => ?_
  show Meets (M := runController scope) _ _ env.read ((w.act (.readExecuted call)).await env.others)
  cases env.read with
  | ok outcome => exact hafter env
  | error e => exact (hafter env).atRest

theorem safeE_answeringWrite (h : Answering scope terms id w) (calls : List ToolCall) :
    SafeE (S := journaling scope terms) (RunnerProcess.perform (.prepare calls))
      (fun _ => AtRest scope terms) (fun _ => AtRest scope terms) w := by
  have hwaited : ∀ env : RunnerEnv, Answering scope terms id
      ((w.act (.handedOver calls)).await env.others) := fun env =>
    (h.act (.handedOver calls)).await env.others
  have hprepared : ∀ (env : RunnerEnv) (outcome : WritePreparationOutcome), AtRest scope terms
      (((w.act (.handedOver calls)).await env.others).prepared outcome) := by
    intro env outcome
    refine ⟨(hwaited env).journaled.prepared outcome, fun hclosing => Or.inl ?_⟩
    cases outcome with
    | prepared operationIds confirmationIds batchId hostCallsReserved =>
      exact quiet_concat _ (Or.inr rfl)
    | clarification clarificationId actionResultId => exact (hwaited env).quiet hclosing
    | denied code => exact (hwaited env).quiet hclosing
    | notReady actionResultId => exact (hwaited env).quiet hclosing
  have hexec : ∀ env : RunnerEnv, AtRest scope terms (RunnerOp.exec env w (.prepare calls)).2 := by
    intro env
    unfold RunnerOp.exec
    dsimp only
    cases env.preparation with
    | ok outcome => exact hprepared env outcome
    | error e => exact (hwaited env).atRest
  refine safeE_perform rfl ⟨fun _ => trivial, fun env _ => (hexec env).journaled⟩ fun env _ => ?_
  show Meets (M := runController scope) _ _ (RunnerOp.exec env w (.prepare calls)).1 _
  cases (RunnerOp.exec env w (.prepare calls)).1 with
  | ok outcome => exact hexec env
  | error e => exact hexec env

theorem safeE_resolveClarificationOption {call : ToolCall} (hcall : CallNamed call)
    (result : ResultId) (h : Answering scope terms call.id w) (hrun : w.run = some state) :
    SafeE (S := journaling scope terms) (Runner.resolveClarificationOption state call result)
      (fun _ => AtRest scope terms) E w := by
  let link : CompletedToolResult := ⟨call.id, call.name, some result⟩
  let resumed : RunState := { linked state link with continuation := .none, phase := .model }
  have hcopy := h.journaled.copy_self hrun
  obtain ⟨hroom, hnew⟩ := h.row state hrun
  have hfits : RowFits scope.registry resumed :=
    (linked_fits hcopy.fits hroom link).congr rfl rfl rfl rfl
  have hlinks : LinksTo state.completedResults resumed.completedResults :=
    linksTo_completed _ (resultLinkable_of_named hcall result)
  have happends : Appends terms w.events [.toolCompleted call.id call.name (some result)]
      resumed.completedResults := appends_completed result hnew
  refine SafeE.weaken (safeE_commitEvent hcopy hlinks hfits (toolCompleted_parses hcall result)
    happends) ?_
  intro _ w' h'
  refine ⟨h'.journaled, fun hclosing => Or.inl ?_⟩
  rw [h'.log]
  refine (h.quiet hclosing).append fun event hmem id => ?_
  rw [List.mem_singleton.mp hmem]
  rfl

theorem safeE_resolveOption (hbounded : scope.registry.Bounded) (h : AtRest scope terms w)
    {chosen : Runner.ChosenOption} (hchosen : ChoiceFits terms chosen w) :
    SafeE (S := journaling scope terms) (Runner.resolveOption scope chosen)
      (fun _ => AtRest scope terms) (fun _ => AtRest scope terms) w := by
  have hanswering := Answering.of_rest h hchosen
  unfold Runner.resolveOption
  dsimp only
  split
  · exact safeE_pure h
  · rename_i haccess
    have hname : chosen.originalToolName ≠ "" ∧ boundedString chosen.originalToolName = true := by
      refine hbounded _ ?_
      cases hget : scope.registry.get chosen.originalToolName with
      | none =>
        rw [hget] at haccess
        cases haccess
      | some action => rfl
    have hprefix : ("clarification:" : String).utf8ByteSize = 14 := by decide
    have hid : (Runner.clarificationCall chosen).id ≠ "" := by
      intro hempty
      have hsize := congrArg String.utf8ByteSize hempty
      rw [Runner.clarificationCall, String.utf8ByteSize_append, hprefix] at hsize
      have hzero : ("" : String).utf8ByteSize = 0 := by decide
      omega
    have hcall : CallNamed (Runner.clarificationCall chosen) := ⟨⟨hid, hchosen.1⟩, hname⟩
    refine safeE_bind (safeE_answeringRead hanswering _) ?_
    intro outcome w₁ h₁
    split
    · rename_i actionResultId modelSummary
      refine safeE_bind (safeE_getRun h₁.journaled) ?_
      rintro run w₂ ⟨hget, rfl⟩
      split
      · exact safeE_pure h₁.atRest
      · rename_i state
        refine safeE_bind (safeE_resolveClarificationOption hcall actionResultId h₁ hget.symm) ?_
        intro _ w₃ h₃
        refine safeE_bind (SafeE.mono (safeE_runAssistantV2 hbounded h₃ ⟨none⟩) (fun _ _ h' => h'.1)
          ?_) fun _ _ h' => safeE_pure h'
        rintro e w₄ ⟨-, rfl⟩
        exact h₃
    · exact safeE_pure h₁.atRest
  · refine safeE_bind (safeE_answeringWrite hanswering _) ?_
    intro outcome w₁ h₁
    split
    · exact safeE_pure h₁
    · exact safeE_pure h₁

theorem AtRest.await (h : AtRest scope terms w) {others : OtherRunWrites}
    (hidle : terms.closing → others.Idle w) : AtRest scope terms (w.await others) := by
  refine ⟨h.journaled.await others, fun hclosing => ?_⟩
  rcases h.quiet hclosing with hquiet | ⟨run, hrun, hphase⟩
  · exact Or.inl hquiet
  · refine Or.inr ⟨others.apply run, congrArg (Option.map others.apply) hrun, ?_⟩
    show (others.phase.getD run.phase).resumable = false
    cases hothers : others.phase with
    | none => exact hphase
    | some phase =>
      refine Bool.eq_false_iff.mpr fun hresumable => ?_
      obtain ⟨run', hrun', hresumable'⟩ := hidle hclosing phase hothers hresumable
      obtain rfl : run = run' := Option.some.inj (hrun.symm.trans hrun')
      rw [hphase] at hresumable'
      cases hresumable'

theorem safeE_handler (hbounded : scope.registry.Bounded) (h : AtRest scope terms w)
    {request : RunRequest} (hrequest : RequestFits terms request w) :
    SafeE (S := journaling scope terms) (request.handler scope) (fun _ => AtRest scope terms)
      (fun _ => AtRest scope terms) w := by
  cases request with
  | runAssistant input =>
    refine safeE_bind (SafeE.mono (safeE_runAssistantV2 hbounded h input) (fun _ _ h' => h'.1)
      ?_) fun _ _ h' => safeE_pure h'
    rintro e w' ⟨-, rfl⟩
    exact h
  | resolveOption chosen => exact safeE_resolveOption hbounded h hrequest
  | other =>
    have hwait : SafeE (S := journaling scope terms) (RunnerProcess.perform .wait)
        (fun _ => AtRest scope terms) (fun _ => AtRest scope terms) w :=
      safeE_perform rfl ⟨fun _ => trivial, fun env _ => h.journaled.await env.others⟩
        fun env hallowed => h.await hallowed
    exact safeE_bind hwait fun _ _ h' => safeE_pure h'

end Turn

end RunJournal

end ClockifyAssistant
