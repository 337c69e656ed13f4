import ClockifyAssistant.LoadedSets
import ClockifyAssistant.JournaledRuns

/-!
The loaded tools through whole runs. Whatever the model asks for and wherever an invocation is
cut off, the row of a run has a tool set: every write of the run is made from a copy that has
one, a search makes another one of it, and only loaded tools are used.
-/
namespace ClockifyAssistant

open Lib RunnerProcess RunService ApiDiscovery ActionExecution ApiSearch RunJournal
open Fallible hiding perform

/-- The catalog that a run searches, and how. -/
structure SearchScope where
  text : SearchText
  catalog : ApiCatalog
  authClass : AuthClass

def SearchScope.runner (scope : SearchScope) : RunnerScope where
  registry := scope.catalog.registry
  authClass := scope.authClass

namespace ToolSets

/-- The row of a run, once there is one, has a tool set. -/
def Kept (scope : RunnerScope) (w : RunWorld) : Prop :=
  ∀ run, w.run = some run → ToolSet scope.registry run

/-- A new run is seeded with reads only, a search finds a place for each tool that it keeps, and
the operations that an event names are those that its schema admits. -/
def OperationKeeps (scope : RunnerScope) (o : RunnerOp) (env : RunnerEnv) (w : RunWorld) : Prop :=
  match o with
  | .startRun state => ∀ name ∈ state.loadedToolNames, name ≠ discoveryMetaToolName →
      scope.registry.isReadAction name = true
  | .commitStateEvents _ events => ∀ ids, RunnerEvent.apiOperationsLoaded ids ∈ events →
      (RunnerEvent.apiOperationsLoaded ids).parses = true
  | .search _ => ∀ run ranked, w.run = some run → env.search = .ok ranked →
      Refinement run.loadedToolNames run.usedToolNames ranked
        (refineLoadedToolSet run.loadedToolNames run.usedToolNames ranked)
  | _ => True

/-- The searches of a run are answered from its catalog, if there is an index of it. -/
def SearchAnswered (scope : SearchScope) (o : RunnerOp) (env : RunnerEnv) (_ : RunWorld) : Prop :=
  match o with
  | .search input => ∀ ranked, env.search = .ok ranked → ∃ index : Option ApiOperationIndex,
      (∀ built, index = some built → built = buildApiOperationIndex scope.catalog) ∧
        ranked = rankedNamesFromSearch (discoverySearch scope.text index input scope.authClass)
  | _ => True

def toolSets (scope : SearchScope) : Spec (runController scope.runner) where
  Inv := Kept scope.runner
  Rely _ _ := True
  Pre o w := (∀ env, OperationKeeps scope.runner o env w) ∧
    ∀ env, Kept scope.runner (RunnerOp.exec env w o).2
  Allowed := SearchAnswered scope

/-- The tool set of the run lasts through the process. -/
def Lasts (scope : SearchScope) {α : Type} (V : α → Prop) (m : RunnerProcess α) : Prop :=
  Yields (toolSets scope) (Kept scope.runner) V m

section Worlds

variable {scope : RunnerScope} {w : RunWorld}

theorem Kept.await (h : Kept scope w) (others : OtherRunWrites) : Kept scope (w.await others) := by
  intro run hrun
  obtain ⟨row, hrow, rfl⟩ := Option.map_eq_some_iff.mp hrun
  exact (h row hrow).congr rfl rfl

theorem Kept.written {run state : RunState} {links : List CompletedToolResult}
    (hstate : ToolSet scope.registry state) (hrun : w.run = some (run.written state links)) :
    Kept scope w := by
  intro row hrow
  rw [hrun] at hrow
  obtain rfl := Option.some.inj hrow
  exact hstate.congr rfl rfl

end Worlds

section Rules

variable {scope : SearchScope} {α β : Type} {V : α → Prop} {W : β → Prop}

theorem lasts_pure {a : α} (ha : V a) : Lasts scope V (pure a : RunnerProcess α) :=
  yields_pure ha

theorem lasts_throw (e : RunError) : Lasts scope V (throw e : RunnerProcess α) :=
  yields_throw e

theorem lasts_bind {m : RunnerProcess α} {f : α → RunnerProcess β} (hm : Lasts scope V m)
    (hf : ∀ a, V a → Lasts scope W (f a)) : Lasts scope W (m >>= f) :=
  yields_bind hm hf

theorem Lasts.mono {V' : α → Prop} {m : RunnerProcess α} (h : Lasts scope V m)
    (hV : ∀ a, V a → V' a) : Lasts scope V' m :=
  fun w hw => SafeE.weaken (h w hw) (fun a _ ha => ⟨hV a ha.1, ha.2⟩)

theorem lasts_attempted {m : RunnerProcess α} (hm : Lasts scope V m) :
    Lasts scope (fun r => ∀ a, r = .ok a → V a) (attempted m) :=
  yields_attempted hm

theorem lasts_perform {o : RunnerOp} {V : o.Val → Prop}
    (hpre : ∀ w, Kept scope.runner w → (toolSets scope).Pre o w)
    (hV : ∀ env w, Kept scope.runner w → SearchAnswered scope o env w →
      ∀ a, (RunnerOp.exec env w o).1 = .ok a → V a) : Lasts scope V (RunnerProcess.perform o) := by
  intro w h
  refine safeE_perform rfl (hpre w h) fun env hanswered => ?_
  have hkept := (hpre w h).2 env
  have hvalue := hV env w h hanswered
  cases hresult : (RunnerOp.exec env w o).1 with
  | ok a =>
    simp only [runController, hresult]
    exact ⟨hvalue a hresult, hkept⟩
  | error e =>
    simp only [runController, hresult]
    exact hkept

theorem lasts_silent {o : RunnerOp} (ho : RunnerOp.silent o = true)
    (hkeeps : ∀ env w, OperationKeeps scope.runner o env w) :
    Lasts scope (fun _ => True) (RunnerProcess.perform o) := by
  refine lasts_perform (fun w h => ⟨fun env => hkeeps env w, fun env => ?_⟩) fun _ _ _ _ _ _ => ?_
  · exact RunnerOp.silent_inv (P := Kept scope.runner) (fun _ others hw => hw.await others)
      (fun _ _ hw => hw) ho h env
  · trivial

theorem lasts_getRun :
    Lasts scope (fun r => ∀ run, r = some run → ToolSet scope.runner.registry run)
      (RunnerProcess.perform .getRun) := by
  refine lasts_perform (fun w h => ⟨fun _ => trivial, fun _ => h⟩) ?_
  intro env w h _ r hr run hrun
  exact h run ((Except.ok.inj hr).trans hrun)

end Rules

section Rows

theorem commitStateEvents_row (w : RunWorld) (state : RunState) (events : List RunnerEvent) :
    (∃ (run : RunState) (links : List CompletedToolResult),
      (w.commitStateEvents state events).2.run = some (run.written state links)) ∨
      ∃ e, w.commitStateEvents state events = (.error e, w) := by
  unfold RunWorld.commitStateEvents
  split
  · exact Or.inr ⟨_, rfl⟩
  · split
    · exact Or.inr ⟨_, rfl⟩
    · split
      · exact Or.inr ⟨_, rfl⟩
      · exact Or.inl ⟨_, _, rfl⟩

theorem saveRun_row (w : RunWorld) (state : RunState) :
    (∃ (run : RunState) (links : List CompletedToolResult),
      (w.saveRun state).2.run = some (run.written state links)) ∨ (w.saveRun state).2 = w := by
  unfold RunWorld.saveRun
  split
  · exact Or.inr rfl
  · split
    · exact Or.inr rfl
    · exact Or.inl ⟨_, _, rfl⟩

end Rows

section Writes

variable {scope : SearchScope} {state : RunState} {events : List RunnerEvent}
  {event : RunnerEvent}

theorem kept_commit (hstate : ToolSet scope.runner.registry state) {w : RunWorld}
    (h : Kept scope.runner w) : Kept scope.runner (w.commitStateEvents state events).2 := by
  rcases commitStateEvents_row w state events with ⟨run, links, hrun⟩ | ⟨e, heq⟩
  · exact Kept.written hstate hrun
  · rw [heq]
    exact h

theorem kept_saveRun (hstate : ToolSet scope.runner.registry state) {w : RunWorld}
    (h : Kept scope.runner w) : Kept scope.runner (w.saveRun state).2 := by
  rcases saveRun_row w state with ⟨run, links, hrun⟩ | heq
  · exact Kept.written hstate hrun
  · rw [heq]
    exact h

theorem lasts_commit (hstate : ToolSet scope.runner.registry state)
    (hevents : ∀ ids, RunnerEvent.apiOperationsLoaded ids ∈ events →
      (RunnerEvent.apiOperationsLoaded ids).parses = true) :
    Lasts scope (fun _ => True) (RunnerProcess.perform (.commitStateEvents state events)) :=
  lasts_perform (fun _ h => ⟨fun _ => hevents, fun _ => kept_commit hstate h⟩)
    fun _ _ _ _ _ _ => trivial

theorem lasts_commitEvent (hstate : ToolSet scope.runner.registry state)
    (hevent : ∀ ids, event ≠ .apiOperationsLoaded ids) :
    Lasts scope (fun _ => True) (commitEvent state event) := by
  refine lasts_commit hstate fun ids hmem => ?_
  exact absurd (List.mem_singleton.mp hmem).symm (hevent ids)

theorem lasts_saveRun (hstate : ToolSet scope.runner.registry state) :
    Lasts scope (fun _ => True) (RunnerProcess.perform (.saveRun state)) :=
  lasts_perform (fun _ h => ⟨fun _ => trivial, fun _ => kept_saveRun hstate h⟩)
    fun _ _ _ _ _ _ => trivial

theorem lasts_saveAdmission (hstate : ToolSet scope.runner.registry state)
    (admitted : List ToolCall) :
    Lasts scope (fun _ => True) (RunnerProcess.perform (.saveAdmission state admitted)) := by
  refine lasts_perform (fun w h => ⟨fun _ => trivial, fun env => ?_⟩) fun _ _ _ _ _ _ => trivial
  have hsaved := kept_saveRun hstate h
  show Kept scope.runner (RunnerOp.exec env w (.saveAdmission state admitted)).2
  simp only [RunnerOp.exec]
  split
  · rename_i saved heq
    rw [heq] at hsaved
    exact hsaved
  · rename_i e saved heq
    rw [heq] at hsaved
    exact hsaved

theorem lasts_startRun (prior : Option RunState) : Lasts scope (fun _ => True)
      (RunnerProcess.perform (.startRun (Runner.freshState scope.runner prior))) := by
  have hfresh := freshState_toolSet scope.runner prior
  refine lasts_perform (fun w h => ⟨fun _ => ?_, fun _ => ?_⟩) fun _ _ _ _ _ _ => trivial
  · intro name hname hmeta
    exact seedCacheFromPriorRun_reads hname hmeta
  · show Kept scope.runner (w.startRun _).2
    unfold RunWorld.startRun
    split
    · exact h
    · intro run hrun
      obtain rfl := Option.some.inj hrun
      exact hfresh.congr rfl rfl

theorem lasts_prepare (calls : List ToolCall) :
    Lasts scope (fun _ => True) (RunnerProcess.perform (.prepare calls)) := by
  refine lasts_perform (fun w h => ⟨fun _ => trivial, fun env => ?_⟩) fun _ _ _ _ _ _ => trivial
  have hawaited : Kept scope.runner ((w.act (.handedOver calls)).await env.others) :=
    Kept.await (w := w.act (.handedOver calls)) h env.others
  show Kept scope.runner (RunnerOp.exec env w (.prepare calls)).2
  simp only [RunnerOp.exec]
  split
  · rename_i outcome _
    cases outcome with
    | prepared operationIds confirmationIds batchId hostCallsReserved =>
      intro run hrun
      obtain ⟨row, hrow, rfl⟩ := Option.map_eq_some_iff.mp hrun
      exact (hawaited row hrow).congr rfl rfl
    | _ => exact hawaited
  · exact hawaited

theorem lasts_reload (hstate : ToolSet scope.runner.registry state) :
    Lasts scope (ToolSet scope.runner.registry) (reload state) := by
  refine lasts_bind lasts_getRun fun r hr => lasts_pure ?_
  cases r with
  | none => exact hstate
  | some run => exact hr run rfl

/-- A copy with a tool set, whose loaded tools are known. -/
def Loads (scope : SearchScope) (loaded : List String) (state : RunState) : Prop :=
  ToolSet scope.runner.registry state ∧ state.loadedToolNames = loaded

theorem lasts_commitAndReload (state : RunState) (event : RunnerEvent) {loaded : List String}
    (hstate : Loads scope loaded state) (hevent : ∀ ids, event ≠ .apiOperationsLoaded ids) (fallback : RunState) :
    Lasts scope (Loads scope loaded) (do
      commitEvent state event
      reload fallback) := by
  intro w h
  have hcommit : SafeE (S := toolSets scope) (commitEvent state event)
      (fun _ w' => Kept scope.runner w' ∧ ∃ run, w'.run = some run ∧ Loads scope loaded run)
      (fun _ => Kept scope.runner) w := by
    have hlasts := lasts_commitEvent hstate.1 hevent w h
    refine safeE_perform rfl (hlasts w (by rfl)).1 fun env _ => ?_
    show Meets (M := runController scope.runner) _ _ (w.commitStateEvents state [event]).1
      (w.commitStateEvents state [event]).2
    have hkept : Kept scope.runner (w.commitStateEvents state [event]).2 :=
      kept_commit hstate.1 h
    rcases commitStateEvents_row w state [event] with ⟨run, links, hrun⟩ | ⟨e, heq⟩
    · cases hresult : (w.commitStateEvents state [event]).1 with
      | ok value => exact ⟨hkept, _, hrun, hkept _ hrun, hstate.2⟩
      | error e => exact hkept
    · rw [heq]
      exact h
  refine safeE_bind hcommit ?_
  rintro _ w' ⟨hkept, run, hrun, hloads⟩
  refine safeE_bind (safeE_perform rfl ⟨fun _ => trivial, fun _ => hkept⟩ fun env _ => ?_)
    (Q := fun r w'' => r = some run ∧ Kept scope.runner w'') ?_
  · exact ⟨hrun, hkept⟩
  · rintro _ w'' ⟨rfl, hkept'⟩
    exact safeE_pure ⟨hloads, hkept'⟩

end Writes

end ToolSets

end ClockifyAssistant
