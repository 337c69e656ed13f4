import ClockifyAssistant.Lib.History
import ClockifyAssistant.RunCeilings

/-!
The identity of tool calls across a run. The ids of a completion are compared with those of
the completed results, not with every id that the run has seen, and a completion that mixes
searches with other calls is not compared at all.
-/
namespace ClockifyAssistant

open Lib ActionExecution

/-- A decision of the run, with the calls that were completed when it was made. -/
structure MadeDecision where
  decision : ToolDecision
  completedIds : List ToolCallId

def RunAct.decision? : RunAct → Option MadeDecision
  | .decided decision completedIds => some ⟨decision, completedIds⟩
  | _ => none

/-- The decisions of a run, in order. -/
def RunWorld.decisions (w : RunWorld) : List MadeDecision := w.acts.filterMap RunAct.decision?

def MadeDecision.requestedIds (made : MadeDecision) : List ToolCallId :=
  made.decision.toolCalls.map ToolCall.id

def MadeDecision.acceptedIds (scope : RunnerScope) (made : MadeDecision) : List ToolCallId :=
  (validateCompletionToolCalls scope made.decision).accepted.map ToolCall.id

/-- The ids of the run before a decision: an earlier completion asked for the call, whether it
was accepted or denied, or the call is completed. -/
def knownIds (earlier : List MadeDecision) (made : MadeDecision) : List ToolCallId :=
  earlier.flatMap MadeDecision.requestedIds ++ made.completedIds

/-- No accepted call has a known id or the id of a call before it. -/
def FirstUses (known : List ToolCallId) (verdicts : List ToolVerdict) : Prop :=
  Always (fun before verdict => verdict.2 = none →
    verdict.1.id ∉ known ∧ verdict.1.id ∉ before.map fun v => v.1.id) verdicts

def DeniedToolCall.describes (denied : DeniedToolCall) (call : ToolCall) : Prop :=
  denied.toolCallId = call.id ∧ denied.actionName = call.name

/-- Each call of the completion is in one of the four lists, and in that one once. -/
def PartsCalls (partitioned : PartitionedToolCalls) (toolCalls : List ToolCall) : Prop :=
  ∃ deniedCalls, List.Forall₂ DeniedToolCall.describes partitioned.denied deniedCalls ∧
    (partitioned.readCalls ++ partitioned.writeCalls ++ partitioned.discoveryCalls ++
      deniedCalls).Perm toolCalls

structure ToolCallIdentity (scope : RunnerScope) (history : List MadeDecision) : Prop where
  distinct : (history.flatMap (MadeDecision.acceptedIds scope)).Nodup
  unused : Always (fun earlier made =>
    FirstUses (knownIds earlier made) (toolVerdicts scope made.decision)) history
  parted : ∀ made ∈ history,
    PartsCalls (partitionToolCalls scope made.decision) made.decision.toolCalls
  exclusive : ∀ made ∈ history, (partitionToolCalls scope made.decision).readCalls = [] ∨
    (partitionToolCalls scope made.decision).writeCalls = []

/-- A completion with a used id that is not looked for: that of a search among other calls, or
that of a call which the run has seen and never completed. -/
def UncheckedReuse (scope : RunnerScope) (earlier : List MadeDecision) (made : MadeDecision) :
    Prop :=
  ∃ before call after, made.decision.toolCalls = before ++ call :: after ∧
    if mixedDiscovery made.decision.toolCalls then
      call.isDiscovery ∧ (call.id ∈ knownIds earlier made ∨ call.id ∈ before.map ToolCall.id)
    else
      call.id ∈ earlier.flatMap MadeDecision.requestedIds ∧ call.id ∉ made.completedIds ∧
        call.id ∉ before.map ToolCall.id ∧
        validateCall scope made.decision call.name = .ok ()

section Verdicts

variable {scope : RunnerScope} {known : List ToolCallId} {verdict : ToolVerdict}
  {verdicts : List ToolVerdict}

theorem unseen_cons {id first : ToolCallId} {before : List ToolCallId} :
    (id ∉ known ∧ id ∉ first :: before) ↔ (id ∉ first :: known ∧ id ∉ before) := by
  rw [List.mem_cons, List.mem_cons, not_or, not_or]
  constructor
  · intro h
    exact ⟨⟨h.2.1, h.1⟩, h.2.2⟩
  · intro h
    exact ⟨h.1.2, h.1.1, h.2⟩

theorem FirstUses.cons_iff : FirstUses known (verdict :: verdicts) ↔
    (verdict.2 = none → verdict.1.id ∉ known) ∧ FirstUses (verdict.1.id :: known) verdicts := by
  rw [FirstUses, Always.cons_iff]
  refine and_congr ⟨fun h hnone => (h hnone).1, fun h hnone => ⟨h hnone, nofun⟩⟩ ?_
  exact Always.congr fun before v => forall_congr' fun _ => unseen_cons

/-- In a mixed completion the searches are accepted, whatever their ids. -/
theorem firstUses_mixed {calls : List ToolCall} : FirstUses known (calls.map mixedVerdict) ↔
    Always (fun before call => call.isDiscovery →
      call.id ∉ known ∧ call.id ∉ before.map ToolCall.id) calls := by
  rw [FirstUses, Always.map_iff]
  refine Always.congr fun before call => ?_
  have haccepted : (mixedVerdict call).2 = none ↔ call.isDiscovery = true := by
    unfold mixedVerdict
    cases call.isDiscovery <;> simp
  have hbefore : (before.map mixedVerdict).map (fun v => v.1.id) = before.map ToolCall.id := by
    rw [List.map_map]
    rfl
  rw [haccepted, hbefore]
  exact Iff.rfl

/-- An unmixed completion is compared with the seen ids and with its own. -/
theorem firstUses_each {validate : String → Except String Unit} {seenIds : List ToolCallId}
    {calls : List ToolCall} : FirstUses known (validateEach validate seenIds calls) ↔
      Always (fun before call => call.id ∉ seenIds → call.id ∉ before.map ToolCall.id →
        validate call.name = .ok () → call.id ∉ known) calls := by
  induction calls generalizing known seenIds with
  | nil => exact ⟨fun _ => Always.nil, fun _ => Always.nil⟩
  | cons call rest ih =>
    rw [Always.cons_iff, validateEach]
    by_cases hseen : call.id ∈ seenIds
    · rw [if_pos (List.contains_iff_mem.mpr hseen), FirstUses.cons_iff, ih]
      refine and_congr ⟨fun _ hnew => absurd hseen hnew, fun _ => nofun⟩ ?_
      refine Always.congr fun before c => ?_
      by_cases hc : c.id = call.id
      · rw [hc]
        exact ⟨fun _ hnew => absurd hseen hnew, fun _ hnew => absurd hseen hnew⟩
      · simp [hc]
    · rw [if_neg (fun h => hseen (List.contains_iff_mem.mp h))]
      have hrest : FirstUses (call.id :: known) (validateEach validate (call.id :: seenIds) rest) ↔
          Always (fun before c => c.id ∉ seenIds → c.id ∉ (call :: before).map ToolCall.id →
            validate c.name = .ok () → c.id ∉ known) rest := by
        rw [ih]
        refine Always.congr fun before c => ?_
        by_cases hc : c.id = call.id
        · simp [hc]
        · simp [hc]
      cases hvalid : validate call.name with
      | error reason =>
        rw [FirstUses.cons_iff, hrest]
        exact and_congr ⟨fun _ _ _ => nofun, fun _ => nofun⟩ Iff.rfl
      | ok value =>
        rw [FirstUses.cons_iff, hrest]
        exact and_congr ⟨fun h _ _ _ => h rfl, fun h _ => h hseen nofun rfl⟩ Iff.rfl

theorem FirstUses.acceptedIds (h : FirstUses known verdicts) :
    ((verdicts.filterMap ToolVerdict.accepted?).map ToolCall.id).Nodup ∧
      ∀ call ∈ verdicts.filterMap ToolVerdict.accepted?, call.id ∉ known := by
  induction verdicts generalizing known with
  | nil => exact ⟨List.nodup_nil, nofun⟩
  | cons verdict rest ih =>
    obtain ⟨hhead, htail⟩ := FirstUses.cons_iff.mp h
    obtain ⟨hnodup, hfresh⟩ := ih htail
    obtain ⟨call, code⟩ := verdict
    cases code with
    | some code =>
      refine ⟨hnodup, fun c hc hknown => ?_⟩
      exact hfresh c hc (List.mem_cons_of_mem _ hknown)
    | none =>
      show (call.id :: (rest.filterMap ToolVerdict.accepted?).map ToolCall.id).Nodup ∧
        ∀ c ∈ call :: rest.filterMap ToolVerdict.accepted?, c.id ∉ known
      refine ⟨List.nodup_cons.mpr ⟨?_, hnodup⟩, ?_⟩
      · intro hmem
        obtain ⟨c, hc, heq⟩ := List.mem_map.mp hmem
        exact hfresh c hc (heq ▸ List.mem_cons_self)
      · intro c hc hknown
        rcases List.mem_cons.mp hc with rfl | hrest
        · exact hhead rfl hknown
        · exact hfresh c hrest (List.mem_cons_of_mem _ hknown)

theorem validateEach_calls (validate : String → Except String Unit) (seenIds : List ToolCallId)
    (calls : List ToolCall) : (validateEach validate seenIds calls).map Prod.fst = calls := by
  induction calls generalizing seenIds with
  | nil => rfl
  | cons call rest ih =>
    rw [validateEach]
    split
    · rw [List.map_cons, ih]
    · split <;> rw [List.map_cons, ih]

theorem toolVerdicts_calls (scope : RunnerScope) (decision : ToolDecision) :
    (toolVerdicts scope decision).map Prod.fst = decision.toolCalls := by
  unfold toolVerdicts
  split
  · rw [List.map_map]
    exact List.map_id _
  · exact validateEach_calls _ _ _

end Verdicts

section Partition

def ToolVerdict.deniedCall? (verdict : ToolVerdict) : Option ToolCall :=
  if verdict.2.isNone then none else some verdict.1

theorem verdicts_perm (verdicts : List ToolVerdict) : (verdicts.filterMap ToolVerdict.accepted? ++
      verdicts.filterMap ToolVerdict.deniedCall?).Perm (verdicts.map Prod.fst) := by
  induction verdicts with
  | nil => exact List.Perm.refl _
  | cons verdict rest ih =>
    obtain ⟨call, code⟩ := verdict
    cases code with
    | none => exact ih.cons call
    | some code => exact List.perm_middle.trans (ih.cons call)

theorem verdicts_describe (verdicts : List ToolVerdict) :
    List.Forall₂ DeniedToolCall.describes (verdicts.filterMap ToolVerdict.denied?)
      (verdicts.filterMap ToolVerdict.deniedCall?) := by
  induction verdicts with
  | nil => exact List.Forall₂.nil
  | cons verdict rest ih =>
    obtain ⟨call, code⟩ := verdict
    cases code with
    | none => exact ih
    | some code => exact List.Forall₂.cons ⟨rfl, rfl⟩ ih

theorem slots_perm (registry : ActionRegistry) (calls : List ToolCall) :
    (calls.filter (slotOf registry · == .read) ++ calls.filter (slotOf registry · == .write) ++
      calls.filter (slotOf registry · == .discovery)).Perm calls := by
  induction calls with
  | nil => exact List.Perm.refl _
  | cons call rest ih =>
    cases hslot : slotOf registry call with
    | read =>
      simp only [List.filter_cons, hslot]
      exact ih.cons call
    | write =>
      simp only [List.filter_cons, hslot]
      have hmiddle : ∀ reads writes searches : List ToolCall,
          (reads ++ call :: writes ++ searches).Perm (call :: (reads ++ writes ++ searches)) := by
        intro reads writes searches
        rw [List.append_assoc, List.append_assoc]
        exact List.perm_middle
      exact (hmiddle _ _ _).trans (ih.cons call)
    | discovery =>
      simp only [List.filter_cons, hslot]
      exact List.perm_middle.trans (ih.cons call)

theorem denials_describe (calls : List ToolCall) (code : String) :
    List.Forall₂ DeniedToolCall.describes (denialsOf calls code) calls := by
  induction calls with
  | nil => exact List.Forall₂.nil
  | cons call rest ih => exact List.Forall₂.cons ⟨rfl, rfl⟩ ih

/-- The accepted calls of one slot. -/
def acceptedIn (scope : RunnerScope) (decision : ToolDecision) (slot : ToolSlot) : List ToolCall :=
  (validateCompletionToolCalls scope decision).accepted.filter (slotOf scope.registry · == slot)

variable {scope : RunnerScope} {decision : ToolDecision}

theorem partition_dependent (hreads : acceptedIn scope decision .read ≠ [])
    (hwrites : acceptedIn scope decision .write ≠ []) :
    partitionToolCalls scope decision = {
      readCalls := acceptedIn scope decision .read
      writeCalls := []
      discoveryCalls := acceptedIn scope decision .discovery
      denied := (validateCompletionToolCalls scope decision).denied ++
        denialsOf (acceptedIn scope decision .write) "read_write_dependency"
      duplicateWrite := hasDuplicateWrite [] } := by
  rw [← List.isEmpty_eq_false_iff] at hreads hwrites
  unfold acceptedIn at hreads hwrites
  simp only [partitionToolCalls, hreads, hwrites]
  rfl

theorem partition_independent
    (h : acceptedIn scope decision .read = [] ∨ acceptedIn scope decision .write = []) :
    partitionToolCalls scope decision = {
      readCalls := acceptedIn scope decision .read
      writeCalls := acceptedIn scope decision .write
      discoveryCalls := acceptedIn scope decision .discovery
      denied := (validateCompletionToolCalls scope decision).denied
      duplicateWrite := hasDuplicateWrite (acceptedIn scope decision .write) } := by
  have hnone : (!(acceptedIn scope decision .read).isEmpty &&
      !(acceptedIn scope decision .write).isEmpty) = false := by
    rcases h with h | h <;> rw [h]
    · rfl
    · exact Bool.and_false _
  unfold acceptedIn at hnone
  simp only [partitionToolCalls, hnone]
  rfl

theorem partition_exclusive (scope : RunnerScope) (decision : ToolDecision) :
    (partitionToolCalls scope decision).readCalls = [] ∨
      (partitionToolCalls scope decision).writeCalls = [] := by
  by_cases h : acceptedIn scope decision .read = [] ∨ acceptedIn scope decision .write = []
  · rw [partition_independent h]
    exact h
  · rw [not_or] at h
    rw [partition_dependent h.1 h.2]
    exact Or.inr rfl

theorem partition_parts (scope : RunnerScope) (decision : ToolDecision) :
    PartsCalls (partitionToolCalls scope decision) decision.toolCalls := by
  have hcalls := verdicts_perm (toolVerdicts scope decision)
  rw [toolVerdicts_calls] at hcalls
  have hdenied := verdicts_describe (toolVerdicts scope decision)
  set deniedCalls := (toolVerdicts scope decision).filterMap ToolVerdict.deniedCall?
  have hslots : (acceptedIn scope decision .read ++ acceptedIn scope decision .write ++
      acceptedIn scope decision .discovery ++ deniedCalls).Perm decision.toolCalls :=
    ((slots_perm scope.registry _).append_right deniedCalls).trans hcalls
  by_cases h : acceptedIn scope decision .read = [] ∨ acceptedIn scope decision .write = []
  · rw [partition_independent h]
    exact ⟨deniedCalls, hdenied, hslots⟩
  · rw [not_or] at h
    rw [partition_dependent h.1 h.2]
    refine ⟨deniedCalls ++ acceptedIn scope decision .write,
      List.rel_append hdenied (denials_describe _ _), ?_⟩
    refine List.Perm.trans ?_ hslots
    set reads := acceptedIn scope decision .read
    set writes := acceptedIn scope decision .write
    set searches := acceptedIn scope decision .discovery
    have hswap : (searches ++ (deniedCalls ++ writes)).Perm (writes ++ (searches ++ deniedCalls)) := by
      rw [← List.append_assoc]
      exact List.perm_append_comm
    show (reads ++ [] ++ searches ++ (deniedCalls ++ writes)).Perm _
    rw [List.append_nil, List.append_assoc, List.append_assoc, List.append_assoc]
    exact hswap.append_left reads

end Partition

section Run

variable {scope : RunnerScope} {history earlier : List MadeDecision} {made : MadeDecision}

/-- A decision that looked at the completed calls accepts a used id exactly where the reuse is
not looked for. -/
theorem firstUses_iff_checked (hprior : made.decision.priorToolCallIds = made.completedIds) :
    FirstUses (knownIds earlier made) (toolVerdicts scope made.decision) ↔
      ¬ UncheckedReuse scope earlier made := by
  by_cases hmixed : mixedDiscovery made.decision.toolCalls = true
  · simp only [toolVerdicts, UncheckedReuse, if_pos hmixed]
    rw [firstUses_mixed]
    constructor
    · rintro h ⟨before, call, after, hsplit, hdiscovery, hused⟩
      obtain ⟨hknown, hbefore⟩ := h before call after hsplit hdiscovery
      exact hused.elim hknown hbefore
    · intro h before call after hsplit hdiscovery
      have hunused : ¬ (call.id ∈ knownIds earlier made ∨ call.id ∈ before.map ToolCall.id) :=
        fun hused => h ⟨before, call, after, hsplit, hdiscovery, hused⟩
      exact not_or.mp hunused
  · simp only [toolVerdicts, UncheckedReuse, if_neg hmixed]
    rw [firstUses_each, hprior]
    constructor
    · rintro h ⟨before, call, after, hsplit, hrequested, hopen, hfirst, hvalid⟩
      exact h before call after hsplit hopen hfirst hvalid (List.mem_append_left _ hrequested)
    · intro h before call after hsplit hopen hfirst hvalid hknown
      have hrequested := (List.mem_append.mp hknown).resolve_right hopen
      exact h ⟨before, call, after, hsplit, hrequested, hopen, hfirst, hvalid⟩

theorem acceptedIds_requested {id : ToolCallId} (h : id ∈ made.acceptedIds scope) :
    id ∈ made.requestedIds := by
  obtain ⟨call, haccepted, rfl⟩ := List.mem_map.mp h
  refine List.mem_map_of_mem ?_
  rw [← toolVerdicts_calls scope made.decision]
  exact (verdicts_perm _).subset (List.mem_append_left _ haccepted)

/-- Ids that are unused when they are accepted are distinct across the run. -/
theorem acceptedIds_nodup (h : Always (fun earlier made =>
    FirstUses (knownIds earlier made) (toolVerdicts scope made.decision)) history) :
    (history.flatMap (MadeDecision.acceptedIds scope)).Nodup := by
  rw [List.nodup_flatMap]
  constructor
  · intro made hmade
    obtain ⟨before, -, hfirst⟩ := h.of_mem hmade
    exact hfirst.acceptedIds.1
  · refine Always.pairwise (h.mono fun earlier made hfirst m hm id hid hid' => ?_)
    obtain ⟨call, haccepted, rfl⟩ := List.mem_map.mp hid'
    refine hfirst.acceptedIds.2 call haccepted (List.mem_append_left _ ?_)
    exact List.mem_flatMap.mpr ⟨m, hm, acceptedIds_requested hid⟩

theorem RunAccounted.prior {w : RunWorld} (h : RunAccounted w) (hmade : made ∈ w.decisions) :
    made.decision.priorToolCallIds = made.completedIds := by
  obtain ⟨act, hact, heq⟩ := List.mem_filterMap.mp hmade
  cases act with
  | decided decision completedIds =>
    cases heq
    exact h.decisions decision completedIds hact
  | _ => cases heq

end Run

/-- In every run the accepted calls are new to the run, their ids distinct, exactly when no
completion reuses an id where the reuse is not looked for; the partition itself loses no
call, repeats none and never mixes reads with writes. -/
theorem tool_call_identity {scope : RunnerScope} {c : (runController scope).Config}
    (h : Server.Reaches (fun _ _ => True) (Server.initial RunWorld.empty) c) :
    ToolCallIdentity scope (RunWorld.decisions c.world) ↔
      Always (fun earlier made => ¬ UncheckedReuse scope earlier made)
        (RunWorld.decisions c.world) := by
  have haccounted := runAccounted_of_reaches h
  have hprior : ∀ before made after, RunWorld.decisions c.world = before ++ made :: after →
      made.decision.priorToolCallIds = made.completedIds := by
    intro before made after hsplit
    exact haccounted.prior (by rw [hsplit]; simp)
  constructor
  · intro hidentity before made after hsplit
    exact (firstUses_iff_checked (hprior before made after hsplit)).mp
      (hidentity.unused before made after hsplit)
  · intro hchecked
    have hunused : Always (fun earlier made =>
        FirstUses (knownIds earlier made) (toolVerdicts scope made.decision))
        (RunWorld.decisions c.world) := by
      intro before made after hsplit
      exact (firstUses_iff_checked (hprior before made after hsplit)).mpr
        (hchecked before made after hsplit)
    exact ⟨acceptedIds_nodup hunused, hunused, fun made _ => partition_parts scope made.decision,
      fun made _ => partition_exclusive scope made.decision⟩

section Runs

def findTags : ToolCall := ⟨"call_1", discoveryMetaToolName, .obj [("query", .str "tags")]⟩

/-- A search and a read in one completion: the read is denied. -/
def mixedAnswer : RunnerEnv where
  prior := some
    { Runner.freshState tagScope none with loadedToolNames := ["clockify_list_tags"] }
  attempt := .answered ⟨[findTags, { tagCall with id := "call_2" }], none, 1⟩

/-- The read that comes after the search carries the id of the search. -/
def reusedRun : List (runController tagScope).Event :=
  askTags :: (performs mixedAnswer 24 ++ performs (tagReads (.succeeded 1 none)) 30)

/-- The ids of each decision after a list of events: those asked for and those accepted, with
whether the completion is mixed. -/
def decisionsAfter (events : List (runController tagScope).Event) :
    Option (List (List ToolCallId × List ToolCallId × Bool)) := do
  let c ← Server.run (Server.initial RunWorld.empty) events
  let w : RunWorld := c.world
  some (w.decisions.map fun made => (made.requestedIds, made.acceptedIds tagScope,
    mixedDiscovery made.decision.toolCalls))

theorem exists_of_decisionsAfter {events : List (runController tagScope).Event}
    {ids : List (List ToolCallId × List ToolCallId × Bool)} (h : decisionsAfter events = some ids) :
    ∃ c : (runController tagScope).Config,
      Server.Reaches (fun _ _ => True) (Server.initial RunWorld.empty) c ∧
      (RunWorld.decisions c.world).map (fun made => (made.requestedIds,
        made.acceptedIds tagScope, mixedDiscovery made.decision.toolCalls)) = ids := by
  obtain ⟨c, hc, heq⟩ := Option.bind_eq_some_iff.mp h
  exact ⟨c, Server.reaches_of_run hc, Option.some.inj heq⟩

/-- The id of an accepted search is accepted again for the read of the next completion. -/
theorem tool_call_identity_reused : ∃ c : (runController tagScope).Config,
    Server.Reaches (fun _ _ => True) (Server.initial RunWorld.empty) c ∧
      (RunWorld.decisions c.world).map (MadeDecision.acceptedIds tagScope) =
        [["call_1"], ["call_1"]] ∧ ¬ ToolCallIdentity tagScope (RunWorld.decisions c.world) := by
  have hreused : decisionsAfter reusedRun =
      some [(["call_1", "call_2"], ["call_1"], true), (["call_1"], ["call_1"], false)] := by
    decide +kernel
  obtain ⟨c, hreach, hids⟩ := exists_of_decisionsAfter hreused
  have haccepted : (RunWorld.decisions c.world).map (MadeDecision.acceptedIds tagScope) =
      [["call_1"], ["call_1"]] := by
    have := congrArg (List.map fun ids => ids.2.1) hids
    rw [List.map_map] at this
    exact this
  refine ⟨c, hreach, haccepted, fun hidentity => ?_⟩
  have hdistinct := hidentity.distinct
  rw [List.flatMap_def, haccepted] at hdistinct
  exact absurd hdistinct (by decide)

/-- A run with one read keeps the identity of its calls. -/
theorem tool_call_identity_read : ∃ c : (runController tagScope).Config,
    (RunWorld.decisions c.world).map MadeDecision.requestedIds = [["call_1"]] ∧
      ToolCallIdentity tagScope (RunWorld.decisions c.world) := by
  have hread : decisionsAfter executedRun = some [(["call_1"], ["call_1"], false)] := by
    decide +kernel
  obtain ⟨c, hreach, hids⟩ := exists_of_decisionsAfter hread
  obtain ⟨made, hdecisions, hmade⟩ := List.map_eq_singleton_iff.mp hids
  have hrequested : made.requestedIds = ["call_1"] := congrArg Prod.fst hmade
  have hmixed : mixedDiscovery made.decision.toolCalls = false :=
    congrArg (fun ids => ids.2.2) hmade
  refine ⟨c, ?_, (tool_call_identity hreach).mpr ?_⟩
  · rw [hdecisions]
    show [made.requestedIds] = _
    rw [hrequested]
  · rw [hdecisions, Always.cons_iff]
    refine ⟨?_, Always.nil⟩
    rintro ⟨before, call, after, hsplit, hreuse⟩
    rw [hmixed] at hreuse
    exact absurd hreuse.1 List.not_mem_nil

end Runs

end ClockifyAssistant
