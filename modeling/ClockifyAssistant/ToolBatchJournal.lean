import ClockifyAssistant.LoadedTools

/-!
The calls of one completion, as they are journaled: the searches, then the reads, the writes
and the denials. Each part appends events about calls of its own, with one closing for each
call that it requests, or suspends the run.
-/
namespace ClockifyAssistant

open Lib RunnerProcess RunService ToolJournal ActionExecution
open Fallible hiding perform

section Parsing

theorem mem_of_mapM_eq_some {α β : Type} {f : α → Option β} {xs : List α} {ys : List β}
    (h : xs.mapM f = some ys) {y : β} (hy : y ∈ ys) : ∃ x ∈ xs, f x = some y := by
  induction xs generalizing ys with
  | nil =>
    rw [List.mapM_nil] at h
    cases h
    cases hy
  | cons x rest ih =>
    rw [List.mapM_cons] at h
    obtain ⟨first, hfirst, h⟩ := Option.bind_eq_some_iff.mp h
    obtain ⟨later, hlater, h⟩ := Option.bind_eq_some_iff.mp h
    cases h
    rcases List.mem_cons.mp hy with rfl | hmem
    · exact ⟨x, List.mem_cons_self, hfirst⟩
    · obtain ⟨x', hx', hfx'⟩ := ih hlater hmem
      exact ⟨x', List.mem_cons_of_mem _ hx', hfx'⟩

theorem parsedGroups_known {raw : JsonValue} {groups : List String}
    (h : ApiDiscovery.parseGroups raw = some groups) :
    ∀ group ∈ groups, featureGroupNames.contains group = true := by
  obtain ⟨items, -, hgroups⟩ := Option.bind_eq_some_iff.mp h
  intro group hmem
  obtain ⟨item, -, hitem⟩ := mem_of_mapM_eq_some hgroups hmem
  exact (Option.filter_eq_some_iff.mp hitem).2

theorem parsedInput_groups {raw : JsonValue} {parsed : FindApiOperationsInput}
    (h : ApiDiscovery.parseFindApiOperationsInput raw = some parsed) :
    ∀ group ∈ parsed.groups.getD [], featureGroupNames.contains group = true := by
  obtain ⟨fields, -, h⟩ := Option.bind_eq_some_iff.mp h
  split at h
  · cases h
  · obtain ⟨query, -, h⟩ := Option.bind_eq_some_iff.mp h
    obtain ⟨access, -, h⟩ := Option.bind_eq_some_iff.mp h
    obtain ⟨groups, hgroups, h⟩ := Option.bind_eq_some_iff.mp h
    obtain ⟨limit, -, h⟩ := Option.bind_eq_some_iff.mp h
    cases h
    unfold ApiDiscovery.parseOptional at hgroups
    split at hgroups
    · cases hgroups
      exact nofun
    · obtain ⟨parsed, hparsed, rfl⟩ := Option.map_eq_some_iff.mp hgroups
      exact parsedGroups_known hparsed

end Parsing

namespace RunJournal

/-- A call whose events pass, and whose result can be linked. -/
structure CallNamed (call : ToolCall) : Prop where
  id : call.id ≠ "" ∧ boundedString call.id = true
  name : call.name ≠ "" ∧ boundedString call.name = true

/-- A call of a completion; if it searches, its groups can be named. -/
structure CallFits (terms : JournalTerms) (call : ToolCall) : Prop extends CallNamed call where
  groups : terms.payloads → ∀ parsed,
    ApiDiscovery.parseFindApiOperationsInput call.arguments = some parsed →
      (parsed.groups.getD []).length ≤ featureGroupNames.length

/-- The codes that the model is told are those that the journal can hold. -/
def ObservationsFit (observations : List RunObservation) : Prop :=
  ∀ name code, .denied name code ∈ observations → boundedString code = true

/-- The run after an exception of its calls: it can still be failed. -/
def Standing (scope : RunnerScope) (terms : JournalTerms) (w : RunWorld) : Prop :=
  ∃ state, Failing scope terms state w

section Observations

variable {observations observations' : List RunObservation}

theorem ObservationsFit.nil : ObservationsFit [] := nofun

theorem ObservationsFit.append (h : ObservationsFit observations)
    (h' : ObservationsFit observations') : ObservationsFit (observations ++ observations') := by
  intro name code hmem
  rcases List.mem_append.mp hmem with hmem | hmem
  · exact h name code hmem
  · exact h' name code hmem

theorem observationsFit_denied (name : String) {code : String}
    (hcode : boundedString code = true) : ObservationsFit [.denied name code] := by
  intro name' code' hmem
  cases List.mem_singleton.mp hmem
  exact hcode

theorem observationsFit_result (name summary : String) :
    ObservationsFit [.result name summary] := by
  intro name' code hmem
  cases List.mem_singleton.mp hmem

end Observations

section Discovery

variable {scope : RunnerScope} {terms : JournalTerms} {w : RunWorld} {events : List RunnerEvent}
  {state : RunState} {E : RunError → RunWorld → Prop}

theorem Journalable.callFits (hbounded : scope.registry.Bounded)
    (hfits : ToolsFit scope.registry state) {completion : ToolCompletion}
    (h : Journalable terms state.loadedToolNames completion) :
    ∀ call ∈ completion.toolCalls, CallFits terms call := by
  intro call hcall
  exact ⟨⟨h.ids call hcall, hfits.boundedName hbounded (h.names call hcall)⟩,
    fun hpayloads => h.groups hpayloads call hcall⟩

theorem Steady.standing (h : Steady scope terms state w) : Standing scope terms w :=
  ⟨state, h.failing⟩

theorem safeE_reloadSteady (h : Steady scope terms state w) (fallback : RunState) :
    SafeE (S := journaling scope terms) (reload fallback)
      (fun fresh w' => Steady scope terms fresh w' ∧ SameCopy state fresh) E w := by
  refine SafeE.weaken (safeE_reload h.copy fallback) ?_
  rintro fresh w' ⟨hcopy, hsame, -⟩
  exact ⟨hcopy.steady h.quiet, hsame⟩

theorem safeE_commitQuiet {base : RunState} {event : RunnerEvent}
    (h : Steady scope terms base w) (state : RunState)
    (hresults : base.completedResults = state.completedResults)
    (hfits : RowFits scope.registry state) (hparse : event.parses = true)
    (hcompleted : ∀ id actionName actionResultId,
      event ≠ .toolCompleted id actionName actionResultId)
    (hrequests : ∀ id, event.requests id = false) :
    SafeE (S := journaling scope terms) (commitEvent state event)
      (fun _ => Steady scope terms state) E w := by
  refine SafeE.weaken (safeE_commitEvent h.copy (hresults ▸ linksTo_self _) hfits hparse
    (appends_boundary (fun hclosing => (h.quiet hclosing).settled) hcompleted)) ?_
  intro _ w' h'
  refine h'.steady fun hclosing => (h.quiet hclosing).append fun entry hmem id => ?_
  rw [List.mem_singleton.mp hmem]
  exact hrequests id

variable {call : ToolCall}

theorem toolDenied_parses (hcall : CallFits terms call) {code : String}
    (hcode : boundedString code = true) :
    (RunnerEvent.toolDenied call.id call.name code).parses = true := by
  simp [RunnerEvent.parses, hcall.id.2, hcall.name.2, hcode]

/-- What a search leaves behind: a copy with the same results, and what it told the model. -/
def Searched (scope : RunnerScope) (terms : JournalTerms) (base state : RunState)
    (observations : List RunObservation) (w : RunWorld) : Prop :=
  Steady scope terms state w ∧ state.completedResults = base.completedResults ∧
    state.budget.modelCallsUsed = base.budget.modelCallsUsed ∧ ObservationsFit observations

theorem safeE_denySearch (h : Steady scope terms state w)
    (hcall : CallFits terms call) {code : String} (hcode : boundedString code = true) :
    SafeE (S := journaling scope terms) (ApiDiscovery.denySearch state call code)
      (fun r => Searched scope terms state r.1 [r.2]) E w := by
  refine safeE_bind (safeE_commitQuiet h state rfl h.copy.fits (toolDenied_parses hcall hcode)
    nofun fun _ => rfl) ?_
  intro _ w' h'
  refine safeE_bind (safeE_reloadSteady h' state) ?_
  rintro fresh w'' ⟨hfresh, hsame⟩
  exact safeE_pure ⟨hfresh, hsame.results.symm, hsame.models.symm, observationsFit_denied _ hcode⟩

/-- A search is the only call whose reservation can be refused, for its groups. -/
theorem safeE_reserveDiscoveryCall (h : Steady scope terms state w)
    (hcall : CallFits terms call) {parsed : FindApiOperationsInput}
    (hparsed : ApiDiscovery.parseFindApiOperationsInput call.arguments = some parsed)
    {searchIndex : Nat} (hindex : 0 < searchIndex) :
    SafeE (S := journaling scope terms) (ApiDiscovery.reserveDiscoveryCall state searchIndex parsed)
      (fun _ => Steady scope terms state) (fun _ => Standing scope terms) w := by
  let reserved : RunState := { state with
    budget := { state.budget with discoveryCallsUsed := state.budget.discoveryCallsUsed + 1 }
    phase := .discovering }
  have hfits : RowFits scope.registry reserved := h.copy.fits.congr rfl rfl rfl rfl
  have hsame : SameCopy state reserved := ⟨rfl, rfl, rfl, rfl⟩
  have hparse : terms.payloads → (RunnerEvent.apiSearchStarted searchIndex
      (parsed.access.getD .any) (parsed.groups.getD [])).parses = true := by
    intro hpayloads
    have hlength := hcall.groups hpayloads parsed hparsed
    have hknown := List.all_eq_true.mpr (parsedInput_groups hparsed)
    simp only [RunnerEvent.parses, Bool.and_eq_true, decide_eq_true_eq]
    exact ⟨⟨hindex, hlength⟩, hknown⟩
  refine SafeE.mono (answers_commitEvent hsame hfits hparse (by simp) (fun _ => rfl) w h) ?_ ?_
  · intro _ w' h'
    exact h'.2
  · intro _ w' h'
    exact h'.standing

theorem safeE_searchOp (h : Steady scope terms state w) (parsed : FindApiOperationsInput) :
    SafeE (S := journaling scope terms) (RunnerProcess.perform (.search parsed))
      (fun ranked w' => Steady scope terms state w' ∧
        ∀ name ∈ ranked, (scope.registry.get name).isSome = true)
      (fun _ => Standing scope terms) w := by
  have hafter : ∀ env : RunnerEnv, Steady scope terms state
      ((w.act .searched).await env.others) := fun env =>
    ((h.copy.act .searched).await env.others).steady h.quiet
  refine safeE_perform rfl ⟨fun _ => trivial, fun env _ => (hafter env).copy.journaled⟩ ?_
  intro env hallowed
  show Meets (M := runController scope) _ _ env.search ((w.act .searched).await env.others)
  cases hsearch : env.search with
  | ok ranked => exact ⟨hafter env, hallowed ranked hsearch⟩
  | error e => exact (hafter env).standing

theorem safeE_search (hbounded : scope.registry.Bounded) (h : Steady scope terms state w)
    (hcall : CallFits terms call) (hname : call.name = discoveryMetaToolName)
    {parsed : FindApiOperationsInput}
    (hparsed : ApiDiscovery.parseFindApiOperationsInput call.arguments = some parsed)
    {searchIndex : Nat} (hindex : 0 < searchIndex) :
    SafeE (S := journaling scope terms) (ApiDiscovery.search state searchIndex call parsed)
      (fun r => Searched scope terms state r.1 [r.2]) (fun _ => Standing scope terms) w := by
  refine safeE_bind (safeE_reserveDiscoveryCall h hcall hparsed hindex) ?_
  intro _ w₁ h₁
  refine safeE_bind (safeE_reloadSteady h₁ state) ?_
  rintro fresh w₂ ⟨h₂, hsame₂⟩
  refine safeE_bind (safeE_searchOp h₂ parsed) ?_
  rintro ranked w₃ ⟨h₃, hranked⟩
  let loaded : RunState := { fresh with
    loadedToolNames :=
      ApiDiscovery.refineLoadedToolSet fresh.loadedToolNames fresh.usedToolNames ranked
    usedToolNames := ApiDiscovery.addName fresh.usedToolNames call.name }
  have htools : ToolsFit scope.registry loaded := by
    have hrefined := h₃.copy.fits.tools.refined hranked
    rw [← hname] at hrefined
    exact hrefined
  have hfits : RowFits scope.registry loaded :=
    ⟨htools, h₃.copy.fits.results, h₃.copy.fits.calls⟩
  refine safeE_bind (safeE_commitQuiet h₃ loaded rfl hfits (htools.boundedLoaded hbounded)
    nofun fun _ => rfl) ?_
  intro _ w₄ h₄
  refine safeE_bind (safeE_reloadSteady h₄ loaded) ?_
  rintro fresh' w₅ ⟨h₅, hsame₅⟩
  exact safeE_pure ⟨h₅, hsame₅.results.symm.trans hsame₂.results.symm,
    hsame₅.models.symm.trans hsame₂.models.symm, observationsFit_result _ _⟩

theorem safeE_executeDiscoveryCalls (hbounded : scope.registry.Bounded)
    (discoveryCalls : List ToolCall) : ∀ {w : RunWorld} {state : RunState} (searchIndex : Nat)
      {observations : List RunObservation}, Steady scope terms state w →
      ObservationsFit observations →
      (∀ call ∈ discoveryCalls, CallFits terms call ∧ call.name = discoveryMetaToolName) →
      SafeE (S := journaling scope terms)
        (ApiDiscovery.executeDiscoveryCalls state searchIndex observations discoveryCalls)
        (fun r => Searched scope terms state r.state r.observations)
        (fun _ => Standing scope terms) w := by
  induction discoveryCalls with
  | nil =>
    intro w state searchIndex observations h hobservations _
    exact safeE_pure ⟨h, rfl, rfl, hobservations⟩
  | cons call rest ih =>
    intro w state searchIndex observations h hobservations hcalls
    obtain ⟨hcall, hname⟩ := hcalls call List.mem_cons_self
    have hnext : ∀ {w : RunWorld} {state' : RunState} (searchIndex : Nat)
        (observation : RunObservation), Searched scope terms state state' [observation] w →
        SafeE (S := journaling scope terms)
          (ApiDiscovery.executeDiscoveryCalls state' searchIndex
            (observations ++ [observation]) rest)
          (fun r => Searched scope terms state r.state r.observations)
          (fun _ => Standing scope terms) w := by
      rintro w state' searchIndex observation ⟨h', hresults, hmodels, hobservation⟩
      refine SafeE.weaken (ih searchIndex h' (hobservations.append hobservation) fun c hc =>
        hcalls c (List.mem_cons_of_mem _ hc)) ?_
      rintro r w' ⟨hr, hresults', hmodels', hfit⟩
      exact ⟨hr, hresults'.trans hresults, hmodels'.trans hmodels, hfit⟩
    rw [ApiDiscovery.executeDiscoveryCalls]
    split
    · refine safeE_bind (safeE_denySearch h hcall (by decide)) ?_
      intro denied w' h'
      exact hnext _ _ h'
    · split
      · refine safeE_bind (safeE_denySearch h hcall (by decide)) ?_
        intro denied w' h'
        exact hnext _ _ h'
      · rename_i parsed hparsed
        refine safeE_bind (safeE_search hbounded h hcall hname hparsed (Nat.succ_pos _)) ?_
        intro found w' h'
        exact hnext _ _ h'

end Discovery

/-- The ids of the calls whose results the copy holds. -/
def resultIds (state : RunState) : List ToolCallId :=
  state.completedResults.map CompletedToolResult.toolCallId

def denialEvent (denied : DeniedToolCall) : RunnerEvent :=
  .toolDenied denied.toolCallId denied.actionName denied.code

/-- A denial whose event passes. -/
structure DenialFits (denied : DeniedToolCall) : Prop where
  id : boundedString denied.toolCallId = true
  name : boundedString denied.actionName = true
  code : boundedString denied.code = true

theorem about_denials (denied : List DeniedToolCall) :
    About (denied.map DeniedToolCall.toolCallId) (denied.map denialEvent) := by
  intro event hmem id hid
  obtain ⟨d, hd, rfl⟩ := List.mem_map.mp hmem
  rcases hid with hrequests | hcloses
  · cases hrequests
  · exact List.mem_map.mpr ⟨d, hd, beq_iff_eq.mp hcloses⟩

theorem denials_requestNothing (denied : List DeniedToolCall) :
    ∀ event ∈ denied.map denialEvent, ∀ id, event.requests id = false := by
  intro event hmem id
  obtain ⟨d, -, rfl⟩ := List.mem_map.mp hmem
  rfl

theorem countP_closes_denials (denied : List DeniedToolCall) (id : ToolCallId) :
    (denied.map denialEvent).countP (RunnerEvent.closes id) =
      (denied.map DeniedToolCall.toolCallId).count id := by
  rw [List.countP_map, List.count, List.countP_map]
  rfl

theorem denialsOf_ids (calls : List ToolCall) (code : String) :
    (denialsOf calls code).map DeniedToolCall.toolCallId = calls.map ToolCall.id := by
  rw [denialsOf, List.map_map]
  rfl

theorem denialsOf_fit {terms : JournalTerms} {calls : List ToolCall}
    (hcalls : ∀ call ∈ calls, CallFits terms call) {code : String}
    (hcode : boundedString code = true) : ∀ denied ∈ denialsOf calls code, DenialFits denied := by
  intro denied hmem
  obtain ⟨call, hcall, rfl⟩ := List.mem_map.mp hmem
  exact ⟨(hcalls call hcall).id.2, (hcalls call hcall).name.2, hcode⟩

section Parts

variable {scope : RunnerScope} {terms : JournalTerms} {w : RunWorld} {events : List RunnerEvent}
  {state : RunState} {E : RunError → RunWorld → Prop}

variable {call : ToolCall}

theorem safeE_requestTool (h : Copy scope terms state events w) (hcall : CallFits terms call) :
    SafeE (S := journaling scope terms) (requestTool state call)
      (fun state' w' => Copy scope terms state' (events ++ [requestEvent call]) w' ∧
        SameCopy state state') E w := by
  have hparse : (requestEvent call).parses = true := by
    simp [requestEvent, RunnerEvent.parses, hcall.id.2, hcall.name.2]
  exact safeE_commitAndReload state h (linksTo_self _) h.fits hparse
    (appends_inner rfl (by simp [requestEvent])) state

theorem safeE_requestTools (calls : List ToolCall) :
    ∀ {w : RunWorld} {state : RunState} {events : List RunnerEvent},
      Copy scope terms state events w → (∀ call ∈ calls, CallFits terms call) →
      SafeE (S := journaling scope terms) (requestTools state calls)
        (fun state' w' => Copy scope terms state' (events ++ calls.map requestEvent) w' ∧
          SameCopy state state') E w := by
  induction calls with
  | nil =>
    intro w state events h _
    refine safeE_pure ⟨?_, .refl state⟩
    rwa [List.map_nil, List.append_nil]
  | cons call rest ih =>
    intro w state events h hcalls
    refine safeE_bind (safeE_requestTool h (hcalls call List.mem_cons_self)) ?_
    rintro state' w' ⟨h', hsame⟩
    refine SafeE.weaken (ih h' fun c hc => hcalls c (List.mem_cons_of_mem _ hc)) ?_
    rintro state'' w'' ⟨h'', hsame'⟩
    rw [List.append_assoc] at h''
    exact ⟨h'', hsame.trans hsame'⟩

theorem safeE_denyTool (h : Copy scope terms state events w) {denied : DeniedToolCall}
    (hdenied : DenialFits denied) : SafeE (S := journaling scope terms)
      (denyTool state denied.toolCallId denied.actionName denied.code)
      (fun state' w' => Copy scope terms state' (events ++ [denialEvent denied]) w' ∧
        SameCopy state state') E w := by
  have hparse : (denialEvent denied).parses = true := by
    simp [denialEvent, RunnerEvent.parses, hdenied.id, hdenied.name, hdenied.code]
  exact safeE_commitAndReload state h (linksTo_self _) h.fits hparse
    (appends_inner rfl (by simp [denialEvent])) state

theorem safeE_denyTools (denied : List DeniedToolCall) :
    ∀ {w : RunWorld} {state : RunState} {events : List RunnerEvent}
      {observations : List RunObservation}, Copy scope terms state events w →
      (∀ d ∈ denied, DenialFits d) → ObservationsFit observations →
      SafeE (S := journaling scope terms) (denyTools state observations denied)
        (fun r w' => Copy scope terms r.1 (events ++ denied.map denialEvent) w' ∧
          SameCopy state r.1 ∧ ObservationsFit r.2) E w := by
  induction denied with
  | nil =>
    intro w state events observations h _ hobservations
    refine safeE_pure ⟨?_, .refl state, hobservations⟩
    rwa [List.map_nil, List.append_nil]
  | cons d rest ih =>
    intro w state events observations h hdenied hobservations
    have hd := hdenied d List.mem_cons_self
    refine safeE_bind (safeE_denyTool h hd) ?_
    rintro state' w' ⟨h', hsame⟩
    refine SafeE.weaken (ih h' (fun c hc => hdenied c (List.mem_cons_of_mem _ hc))
      (hobservations.append (observationsFit_denied d.actionName hd.code))) ?_
    rintro r w'' ⟨h'', hsame', hfit⟩
    rw [List.append_assoc] at h''
    exact ⟨h'', hsame.trans hsame', hfit⟩

/-- The copy with one more result, unless the call has one. -/
def linked (state : RunState) (link : CompletedToolResult) : RunState :=
  { state with completedResults := linkCompleted state.completedResults link }

theorem resultLinkable_of_named (hcall : CallNamed call)
    (result : ResultId) : resultLinkable ⟨call.id, call.name, some result⟩ = true := by
  have hid := hcall.id
  have hname := hcall.name
  simp [resultLinkable, hid, hname]

theorem toolCompleted_parses (hcall : CallNamed call) (result : ResultId) :
    (RunnerEvent.toolCompleted call.id call.name (some result)).parses = true := by
  simp [RunnerEvent.parses, hcall.id.2, hcall.name.2]

theorem linked_fits {registry : ActionRegistry} (hfits : RowFits registry state)
    (hroom : state.completedResults.length < state.budget.apiCallsUsed)
    (link : CompletedToolResult) : RowFits registry (linked state link) := by
  have hlength : (linked state link).completedResults.length ≤
      state.completedResults.length + 1 := by
    unfold linked linkCompleted
    dsimp only
    split
    · omega
    · rw [List.length_append, List.length_singleton]
  exact ⟨⟨hfits.tools.loaded, hfits.tools.known, hfits.tools.usedNodup, hfits.tools.usedLoaded⟩,
    Nat.le_trans hlength hroom, hfits.calls⟩

/-- The completion of a call without a result links the result that it names. -/
theorem appends_completed (result : ResultId) (hnew : terms.closing → call.id ∉ resultIds state) :
    Appends terms events [.toolCompleted call.id call.name (some result)]
      (linked state ⟨call.id, call.name, some result⟩).completedResults := by
  refine ⟨fun _ hcloses => hcloses.concat_inner rfl, ?_⟩
  intro hclosing id actionName actionResultId hmem
  cases List.mem_singleton.mp hmem
  refine ⟨result, rfl, ?_⟩
  have hunlinked : ¬ (state.completedResults.any fun l => l.toolCallId == call.id) := by
    intro hany
    obtain ⟨l, hl, heq⟩ := List.any_eq_true.mp hany
    exact hnew hclosing (List.mem_map.mpr ⟨l, hl, beq_iff_eq.mp heq⟩)
  unfold linked linkCompleted
  dsimp only
  rw [if_neg hunlinked]
  exact List.mem_append_right _ List.mem_cons_self

/-- What the completion of a call hands to the store: a new link, if the call has none. -/
theorem safeE_completeTool (h : Copy scope terms state events w)
    (hcall : CallFits terms call) (result : ResultId)
    (hroom : state.completedResults.length < state.budget.apiCallsUsed)
    (hnew : terms.closing → call.id ∉ resultIds state) :
    SafeE (S := journaling scope terms) (completeTool state call (some result))
      (fun state' w' => Copy scope terms state'
          (events ++ [.toolCompleted call.id call.name (some result)]) w' ∧
        SameCopy (linked state ⟨call.id, call.name, some result⟩) state') E w :=
  safeE_commitAndReload (linked state ⟨call.id, call.name, some result⟩) h
    (linksTo_completed _ (resultLinkable_of_named hcall.toCallNamed result))
    (linked_fits h.fits hroom _) (toolCompleted_parses hcall.toCallNamed result) (appends_completed result hnew) state

theorem resultIds_linked (state : RunState) (link : CompletedToolResult) :
    ∀ id ∈ resultIds (linked state link), id ∈ resultIds state ∨ id = link.toolCallId := by
  intro id hmem
  obtain ⟨l, hl, rfl⟩ := List.mem_map.mp hmem
  unfold linked linkCompleted at hl
  dsimp only at hl
  split at hl
  · exact Or.inl (List.mem_map_of_mem hl)
  · rcases List.mem_append.mp hl with hold | hnew
    · exact Or.inl (List.mem_map_of_mem hold)
    · exact Or.inr (congrArg CompletedToolResult.toolCallId (List.mem_singleton.mp hnew))

end Parts

theorem utf8ByteSize_prefixWithin (bytes : Nat) (text : List Char) :
    (String.ofList (prefixWithin bytes text)).utf8ByteSize ≤ bytes := by
  induction text generalizing bytes with
  | nil => exact Nat.zero_le bytes
  | cons c rest ih =>
    rw [prefixWithin]
    split
    · have hrest := ih (bytes - c.utf8Size)
      rw [String.ofList_cons, String.utf8ByteSize_append, String.utf8ByteSize_singleton]
      omega
    · exact Nat.zero_le bytes

theorem boundedDenialCode_bounded (code : String) :
    boundedString (boundedDenialCode code) = true := by
  unfold boundedDenialCode
  split
  · assumption
  · have hprefix := utf8ByteSize_prefixWithin 253 code.toList
    have hellipsis : "…".utf8ByteSize = 3 := by decide
    rw [boundedString, decide_eq_true_eq, String.utf8ByteSize_append]
    omega

/-- The event that closes a read, if its outcome closes it. -/
def readClosing (call : ToolCall) : ReadExecutionOutcome → List RunnerEvent
  | .succeeded actionResultId _ => [.toolCompleted call.id call.name (some actionResultId)]
  | .denied code | .validationFailed code | .failed code =>
      [.toolDenied call.id call.name (boundedDenialCode code)]
  | .clarification _ _ => []

def readEvents (entry : ToolCall × ReadExecutionOutcome) : List RunnerEvent :=
  [entry.1].map requestEvent ++ .toolStarted entry.1.id entry.1.name :: readClosing entry.1 entry.2

def asks : ReadExecutionOutcome → Bool
  | .clarification _ _ => true
  | _ => false

def entryIds (entries : List (ToolCall × ReadExecutionOutcome)) : List ToolCallId :=
  entries.map fun entry => entry.1.id

section ReadEvents

variable {entry : ToolCall × ReadExecutionOutcome}
  {entries : List (ToolCall × ReadExecutionOutcome)}

theorem readClosing_of_asks {call : ToolCall} {outcome : ReadExecutionOutcome}
    (h : asks outcome = true) : readClosing call outcome = [] := by
  cases outcome with
  | clarification clarificationId actionResultId => rfl
  | _ => cases h

theorem readClosing_of_answered {call : ToolCall} {outcome : ReadExecutionOutcome}
    (h : asks outcome = false) : ∃ event, readClosing call outcome = [event] ∧
      ∀ id, event.requests id = false ∧ event.closes id = (call.id == id) := by
  cases outcome with
  | succeeded actionResultId modelSummary => exact ⟨_, rfl, fun _ => ⟨rfl, rfl⟩⟩
  | clarification clarificationId actionResultId => cases h
  | denied code => exact ⟨_, rfl, fun _ => ⟨rfl, rfl⟩⟩
  | validationFailed code => exact ⟨_, rfl, fun _ => ⟨rfl, rfl⟩⟩
  | failed code => exact ⟨_, rfl, fun _ => ⟨rfl, rfl⟩⟩

theorem about_readEvents (entry : ToolCall × ReadExecutionOutcome) :
    About [entry.1.id] (readEvents entry) := by
  have hrest : About [] [RunnerEvent.toolStarted entry.1.id entry.1.name] := by
    intro event hmem id hid
    obtain rfl := List.mem_singleton.mp hmem
    rcases hid with h | h <;> cases h
  have hclosing : About [entry.1.id] (readClosing entry.1 entry.2) := by
    by_cases hasks : asks entry.2 = true
    · rw [readClosing_of_asks hasks]
      exact About.nil.mono (List.nil_subset _)
    · obtain ⟨closing, hclosing, hevent⟩ :=
        @readClosing_of_answered entry.1 entry.2 (Bool.not_eq_true _ ▸ hasks)
      rw [hclosing]
      intro event hmem id hid
      rw [List.mem_singleton.mp hmem, (hevent id).1, (hevent id).2] at hid
      rcases hid with h | h
      · cases h
      · exact List.mem_singleton.mpr (beq_iff_eq.mp h).symm
  exact ((about_requests [entry.1]).append (hrest.append hclosing)).mono (by simp)

theorem settles_readEvents (h : asks entry.2 = false) : Settles (readEvents entry) := by
  obtain ⟨closing, hclosing, hevent⟩ := @readClosing_of_answered entry.1 entry.2 h
  refine settles_requests ?_ ?_
  · intro event hmem id
    rw [hclosing] at hmem
    rcases List.mem_pair.mp hmem with rfl | rfl
    · rfl
    · exact (hevent id).1
  · intro call hcall
    obtain rfl := List.mem_singleton.mp hcall
    rw [hclosing, List.countP_cons, List.countP_singleton, (hevent _).2]
    simp [RunnerEvent.closes]

theorem about_reads (entries : List (ToolCall × ReadExecutionOutcome)) :
    About (entryIds entries) (entries.flatMap readEvents) := by
  induction entries with
  | nil => exact About.nil
  | cons entry rest ih => exact (about_readEvents entry).append ih

theorem settles_reads (hnodup : (entryIds entries).Nodup)
    (hanswered : ∀ entry ∈ entries, asks entry.2 = false) :
    Settles (entries.flatMap readEvents) := by
  induction entries with
  | nil => exact Settles.nil
  | cons entry rest ih =>
    obtain ⟨hnew, hrest⟩ := List.nodup_cons.mp hnodup
    refine Settles.append (settles_readEvents (hanswered entry List.mem_cons_self))
      (ih hrest fun e he => hanswered e (List.mem_cons_of_mem _ he)) (about_readEvents entry)
      (about_reads rest) ?_
    intro id hid hmem
    rw [List.mem_singleton.mp hid] at hmem
    exact hnew hmem

end ReadEvents

/-- What the journal of some reads leaves behind, in terms of the journal before it. -/
structure ReadsJournaled (scope : RunnerScope) (terms : JournalTerms)
    (entries : List (ToolCall × ReadExecutionOutcome)) (journal r : ReadJournal)
    (events : List RunnerEvent) (w : RunWorld) : Prop where
  copy : Copy scope terms r.state (events ++ entries.flatMap readEvents) w
  calls : r.state.budget.apiCallsUsed = journal.state.budget.apiCallsUsed + entries.length
  loaded : r.state.loadedToolNames = journal.state.loadedToolNames
  models : r.state.budget.modelCallsUsed = journal.state.budget.modelCallsUsed
  results : ∀ id ∈ resultIds r.state, id ∈ resultIds journal.state ∨ id ∈ entryIds entries
  observations : ObservationsFit journal.observations → ObservationsFit r.observations
  answered : r.firstClarification = none →
    journal.firstClarification = none ∧ ∀ entry ∈ entries, asks entry.2 = false

section Reads

variable {scope : RunnerScope} {terms : JournalTerms} {w w' : RunWorld}
  {events : List RunnerEvent} {state : RunState} {journal r r' : ReadJournal}
  {entry : ToolCall × ReadExecutionOutcome} {entries : List (ToolCall × ReadExecutionOutcome)}
  {E : RunError → RunWorld → Prop}

theorem ReadsJournaled.nil (h : Copy scope terms journal.state events w) :
    ReadsJournaled scope terms [] journal journal events w := by
  refine ⟨?_, rfl, rfl, rfl, fun id hid => Or.inl hid, id, fun h => ⟨h, nofun⟩⟩
  rwa [List.flatMap_nil, List.append_nil]

theorem ReadsJournaled.cons (h : ReadsJournaled scope terms [entry] journal r events w)
    (h' : ReadsJournaled scope terms entries r r' (events ++ readEvents entry) w') :
    ReadsJournaled scope terms (entry :: entries) journal r' events w' := by
  refine ⟨?_, ?_, h'.loaded.trans h.loaded, h'.models.trans h.models, ?_,
    fun hfit => h'.observations (h.observations hfit), ?_⟩
  · rw [List.flatMap_cons, ← List.append_assoc]
    exact h'.copy
  · have hfirst := h.calls
    have hrest := h'.calls
    rw [List.length_singleton] at hfirst
    rw [List.length_cons]
    omega
  · intro id hid
    rcases h'.results id hid with hr | hrest
    · rcases h.results id hr with hold | hnew
      · exact Or.inl hold
      · exact Or.inr (List.mem_cons.mpr (Or.inl (List.mem_singleton.mp hnew)))
    · exact Or.inr (List.mem_cons_of_mem _ hrest)
  · intro hnone
    obtain ⟨hr, hrest⟩ := h'.answered hnone
    obtain ⟨hjournal, hfirst⟩ := h.answered hr
    refine ⟨hjournal, fun e he => ?_⟩
    rcases List.mem_cons.mp he with rfl | hmem
    · exact hfirst _ List.mem_cons_self
    · exact hrest e hmem

theorem safeE_startTool (h : Copy scope terms state events w) {call : ToolCall}
    (hcall : CallFits terms call) (hroom : state.budget.apiCallsUsed < maxApiCalls) :
    SafeE (S := journaling scope terms) (startTool state call)
      (fun state' w' => Copy scope terms state' (events ++ [.toolStarted call.id call.name]) w' ∧
        state'.completedResults = state.completedResults ∧
        state'.loadedToolNames = state.loadedToolNames ∧
        state'.budget.modelCallsUsed = state.budget.modelCallsUsed ∧
        state'.budget.apiCallsUsed = state.budget.apiCallsUsed + 1) E w := by
  let started : RunState := { state with
    budget := { state.budget with apiCallsUsed := state.budget.apiCallsUsed + 1 }
    phase := .executingReads }
  have hfits : RowFits scope.registry started :=
    ⟨⟨h.fits.tools.loaded, h.fits.tools.known, h.fits.tools.usedNodup, h.fits.tools.usedLoaded⟩,
      Nat.le_succ_of_le h.fits.results, hroom⟩
  have hparse : (RunnerEvent.toolStarted call.id call.name).parses = true := by
    simp [RunnerEvent.parses, hcall.id.2, hcall.name.2]
  refine SafeE.weaken (safeE_commitAndReload started h (linksTo_self _) hfits hparse
    (appends_inner rfl (by simp)) state) ?_
  rintro state' w' ⟨h', hsame⟩
  exact ⟨h', hsame.results.symm, hsame.loaded.symm, hsame.models.symm, hsame.calls.symm⟩

theorem safeE_journalRead (h : Copy scope terms journal.state events w)
    (hcall : CallFits terms entry.1) (hloaded : entry.1.name ∈ journal.state.loadedToolNames)
    (hroom : journal.state.budget.apiCallsUsed < maxApiCalls)
    (hnew : terms.closing → entry.1.id ∉ resultIds journal.state) :
    SafeE (S := journaling scope terms) (journalRead journal entry.1 entry.2)
      (fun r => ReadsJournaled scope terms [entry] journal r events) E w := by
  obtain ⟨call, outcome⟩ := entry
  refine safeE_bind (safeE_requestTool h hcall) ?_
  rintro requested w₁ ⟨h₁, hsame₁⟩
  refine safeE_bind (safeE_startTool h₁ hcall (hsame₁.calls ▸ hroom)) ?_
  rintro started w₂ ⟨h₂, hresults₂, hloaded₂, hmodels₂, hcalls₂⟩
  have hcalls : started.budget.apiCallsUsed = journal.state.budget.apiCallsUsed + 1 :=
    hcalls₂.trans (congrArg (· + 1) hsame₁.calls.symm)
  have hresults : started.completedResults = journal.state.completedResults :=
    hresults₂.trans hsame₁.results.symm
  have hnames : started.loadedToolNames = journal.state.loadedToolNames :=
    hloaded₂.trans hsame₁.loaded.symm
  have hmodels : started.budget.modelCallsUsed = journal.state.budget.modelCallsUsed :=
    hmodels₂.trans hsame₁.models.symm
  let used : RunState := { started with
    usedToolNames := ApiDiscovery.addName started.usedToolNames call.name }
  have hfits : RowFits scope.registry used :=
    ⟨h₂.fits.tools.used (hnames ▸ hloaded), h₂.fits.results, h₂.fits.calls⟩
  have hused : Copy scope terms used (events ++ [requestEvent call] ++
      [.toolStarted call.id call.name]) w₂ := h₂.congr ⟨rfl, rfl, rfl, rfl⟩ hfits
  -- The results of the copy before the closing are those of the journal.
  have hids : resultIds used = resultIds journal.state :=
    congrArg (List.map CompletedToolResult.toolCallId) hresults
  have hdeny : ∀ code : String, readClosing call outcome =
      [.toolDenied call.id call.name (boundedDenialCode code)] → asks outcome = false →
      SafeE (S := journaling scope terms) (do
        let state ← denyTool used call.id call.name (boundedDenialCode code)
        return ({ journal with
          state
          observations := journal.observations ++
            [.denied call.name (boundedDenialCode code)] } : ReadJournal))
        (fun r => ReadsJournaled scope terms [(call, outcome)] journal r events) E w₂ := by
    intro code hclosing hasks
    have hdenied : DenialFits ⟨call.id, call.name, boundedDenialCode code⟩ :=
      ⟨hcall.id.2, hcall.name.2, boundedDenialCode_bounded code⟩
    refine safeE_bind (safeE_denyTool hused hdenied) ?_
    rintro state' w₃ ⟨h₃, hsame₃⟩
    refine safeE_pure ⟨?_, hsame₃.calls.symm.trans hcalls, hsame₃.loaded.symm.trans hnames,
      hsame₃.models.symm.trans hmodels, ?_, ?_, ?_⟩
    · simpa [readEvents, hclosing, denialEvent] using h₃
    · intro id hid
      have hsame : resultIds state' = resultIds used :=
        congrArg (List.map CompletedToolResult.toolCallId) hsame₃.results.symm
      rw [hsame, hids] at hid
      exact Or.inl hid
    · intro hfit
      exact hfit.append (observationsFit_denied _ (boundedDenialCode_bounded code))
    · intro hnone
      refine ⟨hnone, fun e he => ?_⟩
      rw [List.mem_singleton.mp he]
      exact hasks
  cases outcome with
  | succeeded actionResultId modelSummary =>
    have hspace : used.completedResults.length < used.budget.apiCallsUsed := by
      have hold := h.fits.results
      show started.completedResults.length < started.budget.apiCallsUsed
      rw [hresults]
      omega
    refine safeE_bind (safeE_completeTool hused hcall actionResultId hspace fun hclosing => ?_) ?_
    · rw [hids]
      exact hnew hclosing
    rintro state' w₃ ⟨h₃, hsame₃⟩
    refine safeE_pure ⟨?_, hsame₃.calls.symm.trans hcalls, hsame₃.loaded.symm.trans hnames,
      hsame₃.models.symm.trans hmodels, ?_, ?_, ?_⟩
    · simpa [readEvents, readClosing] using h₃
    · intro id hid
      have hsame : resultIds state' = resultIds (linked used _) :=
        congrArg (List.map CompletedToolResult.toolCallId) hsame₃.results.symm
      rw [hsame] at hid
      rcases resultIds_linked used _ id hid with hold | rfl
      · rw [hids] at hold
        exact Or.inl hold
      · exact Or.inr List.mem_cons_self
    · intro hfit
      refine hfit.append ?_
      cases modelSummary with
      | none => exact ObservationsFit.nil
      | some summary => exact observationsFit_result _ _
    · intro hnone
      refine ⟨hnone, fun e he => ?_⟩
      rw [List.mem_singleton.mp he]
      rfl
  | clarification clarificationId actionResultId =>
    refine safeE_pure ⟨?_, hcalls, hnames, hmodels, ?_, id, ?_⟩
    · simpa [readEvents, readClosing] using hused
    · intro id hid
      rw [hids] at hid
      exact Or.inl hid
    · intro hnone
      cases hfirst : journal.firstClarification <;> simp [hfirst] at hnone
  | denied code => exact hdeny code rfl rfl
  | validationFailed code => exact hdeny code rfl rfl
  | failed code => exact hdeny code rfl rfl

theorem safeE_journalReads (entries : List (ToolCall × ReadExecutionOutcome)) :
    ∀ {w : RunWorld} {journal : ReadJournal} {events : List RunnerEvent},
      Copy scope terms journal.state events w →
      (∀ entry ∈ entries, CallFits terms entry.1 ∧ entry.1.name ∈ journal.state.loadedToolNames) →
      journal.state.budget.apiCallsUsed + entries.length ≤ maxApiCalls →
      (terms.closing → (entryIds entries).Nodup ∧
        ∀ id ∈ entryIds entries, id ∉ resultIds journal.state) →
      SafeE (S := journaling scope terms) (journalReads journal entries)
        (fun r => ReadsJournaled scope terms entries journal r events) E w := by
  induction entries with
  | nil =>
    intro w journal events h _ _ _
    exact safeE_pure (ReadsJournaled.nil h)
  | cons entry rest ih =>
    intro w journal events h hcalls hroom hnew
    rw [List.length_cons] at hroom
    obtain ⟨hcall, hname⟩ := hcalls entry List.mem_cons_self
    refine safeE_bind (safeE_journalRead h hcall hname (by omega) fun hclosing =>
      (hnew hclosing).2 _ List.mem_cons_self) ?_
    intro r w' hr
    have hcalls' : ∀ entry ∈ rest, CallFits terms entry.1 ∧
        entry.1.name ∈ r.state.loadedToolNames := by
      intro e he
      rw [hr.loaded]
      exact hcalls e (List.mem_cons_of_mem _ he)
    have hroom' : r.state.budget.apiCallsUsed + rest.length ≤ maxApiCalls := by
      have hone := hr.calls
      rw [List.length_singleton] at hone
      omega
    have hnew' : terms.closing → (entryIds rest).Nodup ∧
        ∀ id ∈ entryIds rest, id ∉ resultIds r.state := by
      intro hclosing
      obtain ⟨hnodup, hfresh⟩ := hnew hclosing
      obtain ⟨hfirst, hrest⟩ := List.nodup_cons.mp hnodup
      refine ⟨hrest, fun id hid hmem => ?_⟩
      rcases hr.results id hmem with hold | hself
      · exact hfresh id (List.mem_cons_of_mem _ hid) hold
      · rw [List.mem_singleton.mp hself] at hid
        exact hfirst hid
    have hcopy : Copy scope terms r.state (events ++ readEvents entry) w' := by
      have hlog := hr.copy
      rwa [List.flatMap_singleton] at hlog
    exact SafeE.weaken (ih hcopy hcalls' hroom' hnew') (fun _ _ hrest => hr.cons hrest)

theorem safeE_requireClarification (h : Copy scope terms state events w)
    (clarificationId : Nat) (actionResultId : ResultId) : SafeE (S := journaling scope terms)
      (requireClarificationAndSuspend state clarificationId actionResultId)
      (fun state' => Ended scope terms
        (suspendOutcome state' .awaitingClarification (some clarificationId))) E w := by
  obtain ⟨run, hrun, hsame⟩ := h.row
  let suspended : RunState := { state with
    continuation := .awaitingClarification clarificationId
    phase := .awaitingClarification }
  have happends : Appends terms w.events [.clarificationRequired clarificationId actionResultId,
      .runSuspended .awaitingClarification] suspended.completedResults := by
    refine ⟨fun _ hcloses => hcloses.append_inner ?_, ?_⟩
    · intro event hmem
      rcases List.mem_pair.mp hmem with rfl | rfl <;> rfl
    · intro _ id actionName result hmem
      rcases List.mem_pair.mp hmem with heq | heq <;> cases heq
  have hlinks : LinksTo run.completedResults suspended.completedResults :=
    hsame.results ▸ linksTo_self _
  refine safeE_bind (safeE_commitAccepted h.journaled suspended hrun hlinks
    (h.fits.congr rfl rfl rfl rfl) rfl happends) ?_
  rintro _ w₁ ⟨hjournaled, hrow, hevents⟩
  have hquiet : terms.closing → Quiet (RunWorld.events w₁) := by
    intro _
    rw [hevents, List.append_cons]
    exact quiet_concat _ (Or.inr rfl)
  refine safeE_bind (safeE_getRun hjournaled) ?_
  rintro _ w₂ ⟨-, rfl⟩
  refine safeE_pure ⟨hjournaled, hquiet, fun row hmem => ?_⟩
  rw [hrow] at hmem
  cases hmem
  rfl

end Reads

/-- A part of a batch: events about the calls `ids`, which close what they request. -/
structure BatchPart (scope : RunnerScope) (terms : JournalTerms) (ids : List ToolCallId)
    (base : RunState) (events : List RunnerEvent) (state : RunState) (w : RunWorld) : Prop where
  log : ∃ added, Copy scope terms state (events ++ added) w ∧ About ids added ∧
    (terms.closing → Settles added)
  results : ∀ id ∈ resultIds state, id ∈ resultIds base ∨ id ∈ ids
  models : state.budget.modelCallsUsed = base.budget.modelCallsUsed

/-- A part of a batch that may have suspended the run instead. -/
def BatchPartEnd (scope : RunnerScope) (terms : JournalTerms) (ids : List ToolCallId)
    (base : RunState) (events : List RunnerEvent) (state : RunState)
    (suspension : Option RunOutcome) (w : RunWorld) : Prop :=
  match suspension with
  | some outcome => Ended scope terms outcome w
  | none => BatchPart scope terms ids base events state w

section Batch

variable {scope : RunnerScope} {terms : JournalTerms} {w : RunWorld} {events added : List RunnerEvent}
  {ids ids' : List ToolCallId} {base state state' : RunState} {E : RunError → RunWorld → Prop}

theorem BatchPart.mono (h : BatchPart scope terms ids base events state w) (hsub : ids ⊆ ids') :
    BatchPart scope terms ids' base events state w := by
  obtain ⟨⟨added, hcopy, habout, hsettles⟩, hresults, hmodels⟩ := h
  refine ⟨⟨added, hcopy, habout.mono hsub, hsettles⟩, fun id hid => ?_, hmodels⟩
  rcases hresults id hid with hold | hnew
  · exact Or.inl hold
  · exact Or.inr (hsub hnew)

theorem BatchPart.append (habout : About ids added) (hsettles : terms.closing → Settles added)
    (hresults : ∀ id ∈ resultIds state, id ∈ resultIds base ∨ id ∈ ids)
    (hmodels : state.budget.modelCallsUsed = base.budget.modelCallsUsed)
    (h : BatchPart scope terms ids' state (events ++ added) state' w)
    (hdisjoint : terms.closing → List.Disjoint ids ids') :
    BatchPart scope terms (ids ++ ids') base events state' w := by
  obtain ⟨⟨later, hcopy, habout', hsettles'⟩, hresults', hmodels'⟩ := h
  refine ⟨⟨added ++ later, ?_, habout.append habout', fun hclosing => ?_⟩, fun id hid => ?_,
    hmodels'.trans hmodels⟩
  · rw [← List.append_assoc]
    exact hcopy
  · exact (hsettles hclosing).append (hsettles' hclosing) habout habout' (hdisjoint hclosing)
  · rcases hresults' id hid with hmid | hnew
    · rcases hresults id hmid with hold | hnew
      · exact Or.inl hold
      · exact Or.inr (List.mem_append_left _ hnew)
    · exact Or.inr (List.mem_append_right _ hnew)

theorem BatchPart.settled (h : BatchPart scope terms ids base events state w)
    (hquiet : terms.closing → Quiet events) : Failing scope terms state w := by
  obtain ⟨⟨added, hcopy, -, hsettles⟩, -, -⟩ := h
  exact hcopy.failing fun hclosing => (hquiet hclosing).settled_append (hsettles hclosing)

theorem SameCopy.resultIds (h : SameCopy state state') : resultIds state' = resultIds state :=
  congrArg (List.map CompletedToolResult.toolCallId) h.results.symm

theorem safeE_denials (denied : List DeniedToolCall) {observations : List RunObservation}
    (h : Copy scope terms state events w) (hdenied : ∀ d ∈ denied, DenialFits d)
    (hobservations : ObservationsFit observations) :
    SafeE (S := journaling scope terms) (denyTools state observations denied)
      (fun r w' => BatchPart scope terms (denied.map DeniedToolCall.toolCallId) state events r.1 w' ∧
        SameCopy state r.1 ∧ ObservationsFit r.2) E w := by
  refine SafeE.weaken (safeE_denyTools denied h hdenied hobservations) ?_
  rintro r w' ⟨hcopy, hsame, hfit⟩
  refine ⟨⟨⟨_, hcopy, about_denials denied, fun _ => ?_⟩, fun id hid => ?_, hsame.models.symm⟩,
    hsame, hfit⟩
  · exact settles_of_noRequest (denials_requestNothing denied)
  · rw [hsame.resultIds] at hid
    exact Or.inl hid

/-- The denials of a completion, with their codes cut to what an event can hold. -/
theorem safeE_recordDenials (denied : List DeniedToolCall) (h : Copy scope terms state events w)
    (hids : ∀ d ∈ denied, boundedString d.toolCallId = true)
    (hnames : ∀ d ∈ denied, boundedString d.actionName = true) :
    SafeE (S := journaling scope terms) (recordDenials state denied)
      (fun r w' => BatchPart scope terms (denied.map DeniedToolCall.toolCallId) state events r.1 w' ∧
        ObservationsFit r.2) E w := by
  have hfit : ∀ d ∈ denied.map fun d => { d with code := boundedDenialCode d.code },
      DenialFits d := by
    intro d hmem
    obtain ⟨original, horiginal, rfl⟩ := List.mem_map.mp hmem
    exact ⟨hids original horiginal, hnames original horiginal, boundedDenialCode_bounded _⟩
  refine SafeE.weaken (safeE_denials _ h hfit ObservationsFit.nil) ?_
  rintro r w' ⟨hpart, -, hobservations⟩
  rw [List.map_map] at hpart
  exact ⟨hpart, hobservations⟩

/-- What the reads of a batch come to: those that the budget admits are journaled, the others
denied later. -/
structure ReadsEnd (scope : RunnerScope) (terms : JournalTerms) (readCalls : List ToolCall)
    (denied : List DeniedToolCall) (base : RunState) (r : ReadBatchResult) (w : RunWorld) :
    Prop where
  log : ∃ events, (terms.closing → Quiet events) ∧ BatchPartEnd scope terms
    ((readCalls.take (remainingLogical base)).map ToolCall.id) base events r.state
    (r.clarification.map fun clarificationId =>
      suspendOutcome r.state .awaitingClarification (some clarificationId)) w
  observations : ObservationsFit r.observations
  denied : r.denied = denied ++
    denialsOf (readCalls.drop (remainingLogical base)) "budget_exhausted"

theorem safeE_executeReads (h : Steady scope terms state w) {readCalls : List ToolCall}
    (denied : List DeniedToolCall)
    (hcalls : ∀ call ∈ readCalls, CallFits terms call ∧ call.name ∈ state.loadedToolNames)
    (hnew : terms.closing → (readCalls.map ToolCall.id).Nodup ∧
      ∀ call ∈ readCalls, call.id ∉ resultIds state) :
    SafeE (S := journaling scope terms) (executeReads state readCalls denied)
      (ReadsEnd scope terms readCalls denied state) (fun _ => Standing scope terms) w := by
  let admitted := readCalls.take (remainingLogical state)
  have hsub : ∀ call ∈ admitted, call ∈ readCalls := fun _ hmem => List.mem_of_mem_take hmem
  have hpool := yields_executeReadsConcurrently (answers_silent rfl) (fun _ => answers_silent rfl)
    (answers_silent rfl) admitted w h
  refine safeE_bind (hpool.rethrow fun _ _ he => he.standing) ?_
  rintro entries w₁ ⟨hentries, h₁⟩
  have hids : entryIds entries = admitted.map ToolCall.id := by
    rw [← hentries, List.map_map]
    rfl
  have hmem : ∀ entry ∈ entries, entry.1 ∈ admitted := by
    intro entry he
    rw [← hentries]
    exact List.mem_map_of_mem he
  have hroom : state.budget.apiCallsUsed + entries.length ≤ maxApiCalls := by
    have hlength : entries.length = admitted.length := by
      rw [← hentries, List.length_map]
    have htake : admitted.length ≤ remainingLogical state := List.length_take_le _ _
    have hused := h₁.copy.fits.calls
    have hleft : remainingLogical state = maxApiCalls - state.budget.apiCallsUsed := rfl
    omega
  have hfresh : terms.closing → (entryIds entries).Nodup ∧
      ∀ id ∈ entryIds entries, id ∉ resultIds state := by
    intro hclosing
    obtain ⟨hnodup, hunlinked⟩ := hnew hclosing
    rw [hids]
    refine ⟨((List.take_sublist _ _).map _).nodup hnodup, fun id hid => ?_⟩
    obtain ⟨call, hcall, rfl⟩ := List.mem_map.mp hid
    exact hunlinked call (hsub call hcall)
  have hjournal : Copy scope terms (ReadJournal.mk state [] none).state
      (RunWorld.events w₁) w₁ := h₁.copy
  refine safeE_bind (safeE_journalReads entries hjournal (fun entry he =>
    hcalls _ (hsub _ (hmem entry he))) hroom hfresh) ?_
  intro r w₂ hr
  have hobservations := hr.observations ObservationsFit.nil
  split
  · rename_i clarificationId actionResultId hasked
    refine safeE_bind (safeE_requireClarification hr.copy clarificationId actionResultId) ?_
    intro state' w₃ h₃
    exact safeE_pure ⟨⟨_, h₁.quiet, h₃⟩, hobservations, rfl⟩
  · rename_i hasked
    have hanswered := (hr.answered hasked).2
    refine safeE_pure ⟨⟨_, h₁.quiet, ?_⟩, hobservations, rfl⟩
    refine ⟨⟨_, hr.copy, hids ▸ about_reads entries, fun hclosing => ?_⟩, fun id hid => ?_,
      hr.models⟩
    · exact settles_reads (hfresh hclosing).1 hanswered
    · rcases hr.results id hid with hold | hread
      · exact Or.inl hold
      · exact Or.inr (hids ▸ hread)

end Batch

/-- How a batch of writes suspended the run, if it did. -/
def writeSuspension (r : WriteBatchResult) : Option RunOutcome :=
  match r.suspended, r.clarification with
  | some confirmationId, _ => some (suspendOutcome r.state .awaitingConfirmation confirmationId)
  | none, some clarificationId =>
      some (suspendOutcome r.state .awaitingClarification (some clarificationId))
  | none, none => none

/-- What the writes of a batch come to. -/
structure WritesEnd (scope : RunnerScope) (terms : JournalTerms) (ids : List ToolCallId)
    (base : RunState) (events : List RunnerEvent) (r : WriteBatchResult) (w : RunWorld) :
    Prop where
  log : BatchPartEnd scope terms ids base events r.state (writeSuspension r) w
  observations : ObservationsFit r.observations

/-- The run once the preparation port has answered: suspended, or as it was. -/
def Prepared (scope : RunnerScope) (terms : JournalTerms) (calls : List ToolCall)
    (state : RunState) (events : List RunnerEvent) (outcome : WritePreparationOutcome)
    (w : RunWorld) : Prop :=
  match outcome with
  | .prepared _ _ _ _ => Journaled scope terms w ∧ (terms.closing → Quiet w.events) ∧
      ∃ run, w.run = some run ∧ run.phase = .awaitingConfirmation
  | outcome => Copy scope terms state events w ∧ PreparationJournalable terms calls (.ok outcome)

section Writes

variable {scope : RunnerScope} {terms : JournalTerms} {w : RunWorld} {events : List RunnerEvent}
  {base state : RunState} {calls : List ToolCall} {observations : List RunObservation}
  {E : RunError → RunWorld → Prop}

/-- A preparation that was asked for answers with what the journal can hold. -/
theorem safeE_prepare (h : Copy scope terms state events w)
    (hrequested : ∃ call ∈ calls, requestEvent call ∈ events) :
    SafeE (S := journaling scope terms) (RunnerProcess.perform (.prepare calls))
      (Prepared scope terms calls state events) E w := by
  have hwaited : ∀ env : RunnerEnv, Copy scope terms state events
      ((w.act (.handedOver calls)).await env.others) := fun env =>
    (h.act (.handedOver calls)).await env.others
  have hasked : Requested w calls := by
    obtain ⟨call, hcall, hmem⟩ := hrequested
    rw [← h.log] at hmem
    exact ⟨call, hcall, hmem⟩
  refine safeE_perform rfl ⟨fun _ => trivial, fun env _ => ?_⟩ fun env hallowed => ?_
  · show Journaled scope terms (RunnerOp.exec env w (.prepare calls)).2
    unfold RunnerOp.exec
    dsimp only
    split
    · exact (hwaited env).journaled.prepared _
    · exact (hwaited env).journaled
  · have hanswer := hallowed hasked
    show Meets (M := runController scope) _ _ (RunnerOp.exec env w (.prepare calls)).1
      (RunnerOp.exec env w (.prepare calls)).2
    unfold RunnerOp.exec
    dsimp only
    cases hpreparation : env.preparation with
    | error e =>
      rw [hpreparation] at hanswer
      exact hanswer.elim
    | ok outcome =>
      rw [hpreparation] at hanswer
      have hcopy := hwaited env
      cases outcome with
      | prepared operationIds confirmationIds batchId hostCallsReserved =>
        obtain ⟨run, hrun, -⟩ := hcopy.row
        have hjournaled := hcopy.journaled.prepared
          (.prepared operationIds confirmationIds batchId hostCallsReserved)
        refine ⟨hjournaled, fun _ => quiet_concat _ (Or.inr rfl), ?_⟩
        exact ⟨_, congrArg (Option.map _) hrun, rfl⟩
      | clarification clarificationId actionResultId => exact ⟨hcopy, hanswer⟩
      | denied code => exact ⟨hcopy, hanswer⟩
      | notReady actionResultId => exact ⟨hcopy, hanswer⟩

theorem safeE_suspended (hjournaled : Journaled scope terms w)
    (hquiet : terms.closing → Quiet w.events) {run : RunState} (hrun : w.run = some run)
    (hphase : run.phase = .awaitingConfirmation) (fallback : RunState) :
    SafeE (S := journaling scope terms) (reload fallback)
      (fun state' => Ended scope terms (suspendOutcome state' .awaitingConfirmation none)) E w := by
  refine safeE_bind (safeE_getRun hjournaled) ?_
  rintro _ w' ⟨-, rfl⟩
  refine safeE_pure ⟨hjournaled, hquiet, fun row hrow => ?_⟩
  rw [hrun] at hrow
  cases hrow
  exact hphase

theorem Ended.congr {outcome outcome' : RunOutcome} (h : Ended scope terms outcome w)
    (hphase : outcome.phase = outcome'.phase) : Ended scope terms outcome' w :=
  ⟨h.journaled, h.quiet, fun run hrun => (h.phase run hrun).trans hphase⟩

theorem about_requests_append {closings : List RunnerEvent}
    (h : About (calls.map ToolCall.id) closings) :
    About (calls.map ToolCall.id) (calls.map requestEvent ++ closings) :=
  ((about_requests calls).append h).mono (by simp)

/-- A port that is not ready leaves a result for the first call, which must be the only one. -/
theorem safeE_notReady {call : ToolCall} {rest : List ToolCall} (result : ResultId)
    (h : Copy scope terms state (events ++ (call :: rest).map requestEvent) w)
    (hids : resultIds state = resultIds base)
    (hmodels : state.budget.modelCallsUsed = base.budget.modelCallsUsed)
    (hcall : CallFits terms call)
    (hroom : state.completedResults.length < state.budget.apiCallsUsed)
    (hnew : terms.closing → call.id ∉ resultIds state)
    (hsingle : terms.closing → (call :: rest).length = 1) :
    SafeE (S := journaling scope terms) (completeTool state call (some result))
      (BatchPart scope terms ((call :: rest).map ToolCall.id) base events) E w := by
  refine SafeE.weaken (safeE_completeTool h hcall result hroom hnew) ?_
  rintro state' w' ⟨h', hsame⟩
  let closing : RunnerEvent := .toolCompleted call.id call.name (some result)
  refine ⟨⟨(call :: rest).map requestEvent ++ [closing], ?_, ?_, fun hclosing => ?_⟩,
    fun id hid => ?_, hsame.models.symm.trans hmodels⟩
  · rw [← List.append_assoc]
    exact h'
  · refine about_requests_append fun event hmem id hid => ?_
    obtain rfl := List.mem_singleton.mp hmem
    rcases hid with hid | hid
    · cases hid
    · exact List.mem_cons.mpr (Or.inl (beq_iff_eq.mp hid).symm)
  · obtain rfl : rest = [] := by
      have hlength := hsingle hclosing
      rw [List.length_cons] at hlength
      exact List.eq_nil_of_length_eq_zero (by omega)
    refine settles_requests ?_ ?_
    · intro event hmem id
      obtain rfl := List.mem_singleton.mp hmem
      rfl
    · intro c hc
      obtain rfl := List.mem_singleton.mp hc
      simp [closing, RunnerEvent.closes]
  · rw [hsame.resultIds] at hid
    rcases resultIds_linked state _ id hid with hold | rfl
    · exact Or.inl (hids ▸ hold)
    · exact Or.inr List.mem_cons_self

theorem safeE_deniedWrites {code : String}
    (h : Copy scope terms state (events ++ calls.map requestEvent) w)
    (hids : resultIds state = resultIds base)
    (hmodels : state.budget.modelCallsUsed = base.budget.modelCallsUsed)
    (hcalls : ∀ call ∈ calls, CallFits terms call) (hcode : boundedString code = true)
    (hnodup : terms.closing → (calls.map ToolCall.id).Nodup)
    (hobservations : ObservationsFit observations) :
    SafeE (S := journaling scope terms) (denyTools state observations (denialsOf calls code))
      (fun r w' => BatchPart scope terms (calls.map ToolCall.id) base events r.1 w' ∧
        ObservationsFit r.2) E w := by
  refine SafeE.weaken (safeE_denyTools _ h (denialsOf_fit hcalls hcode) hobservations) ?_
  rintro r w' ⟨h', hsame, hfit⟩
  have habout := about_denials (denialsOf calls code)
  rw [denialsOf_ids] at habout
  refine ⟨⟨⟨calls.map requestEvent ++ (denialsOf calls code).map denialEvent, ?_,
    about_requests_append habout, fun hclosing => ?_⟩, fun id hid => ?_,
    hsame.models.symm.trans hmodels⟩, hfit⟩
  · rw [← List.append_assoc]
    exact h'
  · refine settles_requests (denials_requestNothing _) fun call hcall => ?_
    rw [countP_closes_denials, denialsOf_ids]
    exact List.count_eq_one_of_mem (hnodup hclosing) (List.mem_map_of_mem hcall)
  · rw [hsame.resultIds, hids] at hid
    exact Or.inl hid

theorem safeE_settlePreparation {outcome : WritePreparationOutcome}
    (h : Prepared scope terms calls state (events ++ calls.map requestEvent) outcome w)
    (hids : resultIds state = resultIds base)
    (hmodels : state.budget.modelCallsUsed = base.budget.modelCallsUsed) (hnonempty : calls ≠ [])
    (hcalls : ∀ call ∈ calls, CallFits terms call)
    (hroom : state.completedResults.length < state.budget.apiCallsUsed)
    (hnew : terms.closing → (calls.map ToolCall.id).Nodup ∧
      ∀ call ∈ calls, call.id ∉ resultIds state) (hobservations : ObservationsFit observations) :
    SafeE (S := journaling scope terms) (settlePreparation state calls observations outcome)
      (WritesEnd scope terms (calls.map ToolCall.id) base events) E w := by
  cases outcome with
  | prepared operationIds confirmationIds batchId hostCallsReserved =>
    obtain ⟨hjournaled, hquiet, run, hrun, hphase⟩ := h
    refine safeE_bind (safeE_suspended hjournaled hquiet hrun hphase state) ?_
    intro state' w' h'
    exact safeE_pure ⟨h'.congr rfl, hobservations⟩
  | clarification clarificationId actionResultId =>
    refine safeE_bind (safeE_requireClarification h.1 clarificationId actionResultId) ?_
    intro state' w' h'
    exact safeE_pure ⟨h', hobservations⟩
  | notReady actionResultId =>
    obtain ⟨hcopy, hrow, hsingle⟩ := h
    obtain ⟨result, rfl⟩ := Option.isSome_iff_exists.mp hrow
    obtain ⟨call, rest, rfl⟩ := List.exists_cons_of_ne_nil hnonempty
    refine safeE_bind (safeE_notReady result hcopy hids hmodels
      (hcalls call List.mem_cons_self) hroom (fun hclosing => (hnew hclosing).2 call List.mem_cons_self) hsingle) ?_
    intro state' w' h'
    exact safeE_pure ⟨h', hobservations.append (observationsFit_denied _ (by decide))⟩
  | denied code =>
    obtain ⟨hcopy, hcode⟩ := h
    refine safeE_bind (safeE_deniedWrites hcopy hids hmodels hcalls hcode
      (fun hclosing => (hnew hclosing).1) hobservations) ?_
    rintro r w' ⟨h', hfit⟩
    exact safeE_pure ⟨h', hfit⟩

/-- The excess is denied, the admitted writes are requested and handed to the port. -/
theorem safeE_prepareWrites (h : Copy scope terms state events w) (writeCalls : List ToolCall)
    (hcalls : ∀ call ∈ writeCalls, CallFits terms call)
    (hnew : terms.closing → (writeCalls.map ToolCall.id).Nodup ∧
      ∀ call ∈ writeCalls, call.id ∉ resultIds state) :
    SafeE (S := journaling scope terms) (prepareWrites state writeCalls)
      (WritesEnd scope terms (writeCalls.map ToolCall.id) state events) E w := by
  let admitted := writeCalls.take (remainingLogical state)
  let excess := writeCalls.drop (remainingLogical state)
  have hexcess : ∀ call ∈ excess, CallFits terms call := fun call hcall =>
    hcalls call (List.mem_of_mem_drop hcall)
  have hadmitted : ∀ call ∈ admitted, call ∈ writeCalls := fun _ hcall => List.mem_of_mem_take hcall
  have hparts : writeCalls.map ToolCall.id =
      admitted.map ToolCall.id ++ excess.map ToolCall.id := by
    rw [← List.map_append, List.take_append_drop]
  refine safeE_bind (safeE_denyTools _ h (denialsOf_fit hexcess (by decide)) ObservationsFit.nil) ?_
  rintro r w₁ ⟨h₁, hsame₁, hobservations⟩
  have hdenied : About (excess.map ToolCall.id)
      ((denialsOf excess "budget_exhausted").map denialEvent) := by
    have habout := about_denials (denialsOf excess "budget_exhausted")
    rwa [denialsOf_ids] at habout
  have hresults₁ : resultIds r.1 = resultIds state := hsame₁.resultIds
  dsimp only
  split
  · refine safeE_pure ⟨⟨⟨_, h₁, ?_, fun _ => ?_⟩, fun id hid => ?_, hsame₁.models.symm⟩,
      hobservations⟩
    · refine hdenied.mono fun id hid => ?_
      rw [hparts]
      exact List.mem_append_right _ hid
    · exact settles_of_noRequest (denials_requestNothing _)
    · exact Or.inl (hresults₁ ▸ hid)
  · rename_i hsome
    let charged : RunState := { r.1 with
      budget := { r.1.budget with
        apiCallsUsed := r.1.budget.apiCallsUsed + admitted.length } }
    have hnonempty : admitted ≠ [] := by
      intro hnil
      exact hsome (List.isEmpty_iff.mpr hnil)
    have hlength : 0 < admitted.length := List.length_pos_iff.mpr hnonempty
    have hcap : r.1.budget.apiCallsUsed + admitted.length ≤ maxApiCalls := by
      have htake : admitted.length ≤ remainingLogical state := List.length_take_le _ _
      have hused := h₁.fits.calls
      have hcalls₁ := hsame₁.calls
      have hleft : remainingLogical state = maxApiCalls - state.budget.apiCallsUsed := rfl
      omega
    have hfits : RowFits scope.registry charged :=
      ⟨⟨h₁.fits.tools.loaded, h₁.fits.tools.known, h₁.fits.tools.usedNodup,
        h₁.fits.tools.usedLoaded⟩, Nat.le_trans h₁.fits.results (Nat.le_add_right _ _), hcap⟩
    refine safeE_bind (safeE_saveAdmission charged admitted h₁ rfl hfits) ?_
    intro _ w₂ h₂
    refine safeE_bind (safeE_requestTools admitted h₂ fun call hcall =>
      hcalls call (hadmitted call hcall)) ?_
    rintro requested w₃ ⟨h₃, hsame₃⟩
    obtain ⟨first, rest, hfirst⟩ := List.exists_cons_of_ne_nil hnonempty
    have hrequested : ∃ call ∈ admitted, requestEvent call ∈
        events ++ (denialsOf excess "budget_exhausted").map denialEvent ++
          admitted.map requestEvent := by
      have hmem : first ∈ admitted := hfirst ▸ List.mem_cons_self
      exact ⟨first, hmem, List.mem_append_right _ (List.mem_map_of_mem hmem)⟩
    refine safeE_bind (safeE_attempted (safeE_prepare h₃ hrequested (E := fun _ _ => False))) ?_
    intro answer w₄ h₄
    have hids : resultIds requested = resultIds state := hsame₃.resultIds.trans hresults₁
    have hmodels : requested.budget.modelCallsUsed = state.budget.modelCallsUsed :=
      hsame₃.models.symm.trans hsame₁.models.symm
    have hroom : requested.completedResults.length < requested.budget.apiCallsUsed := by
      have hold : r.1.completedResults.length ≤ r.1.budget.apiCallsUsed := h₁.fits.results
      have hlinks : r.1.completedResults = requested.completedResults := hsame₃.results
      have hcounted : r.1.budget.apiCallsUsed + admitted.length =
          requested.budget.apiCallsUsed := hsame₃.calls
      rw [← hlinks]
      omega
    have hfresh : terms.closing → (admitted.map ToolCall.id).Nodup ∧
        ∀ call ∈ admitted, call.id ∉ resultIds requested := by
      intro hclosing
      obtain ⟨hnodup, hunlinked⟩ := hnew hclosing
      rw [hparts] at hnodup
      rw [hids]
      exact ⟨(List.nodup_append.mp hnodup).1, fun call hcall => hunlinked call (hadmitted call hcall)⟩
    cases answer with
    | error e => exact h₄.elim
    | ok outcome =>
      refine SafeE.weaken (safeE_settlePreparation h₄ hids hmodels hnonempty
        (fun call hcall => hcalls call (hadmitted call hcall)) hroom hfresh hobservations) ?_
      rintro result w₅ ⟨hlog, hfit⟩
      refine ⟨?_, hfit⟩
      unfold BatchPartEnd at hlog ⊢
      split
      · rename_i outcome' hsuspension
        rw [hsuspension] at hlog
        exact hlog
      · rename_i hsuspension
        rw [hsuspension] at hlog
        have hdisjoint : terms.closing →
            List.Disjoint (excess.map ToolCall.id) (admitted.map ToolCall.id) := by
          intro hclosing id hid hid'
          have hnodup := (hnew hclosing).1
          rw [hparts] at hnodup
          exact List.disjoint_of_nodup_append hnodup hid' hid
        have hwhole : BatchPart scope terms (excess.map ToolCall.id ++ admitted.map ToolCall.id)
            state events result.state w₅ :=
          BatchPart.append hdenied (fun _ => settles_of_noRequest (denials_requestNothing _))
            (fun id hid => Or.inl hid) rfl hlog hdisjoint
        refine hwhole.mono ?_
        rw [hparts]
        exact List.append_subset.mpr ⟨List.subset_append_right _ _, List.subset_append_left _ _⟩

end Writes

end RunJournal

end ClockifyAssistant
