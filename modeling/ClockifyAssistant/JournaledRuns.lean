import ClockifyAssistant.RunnerJournal

/-!
Whole runs and their journal: the invocations of a run one after the other, any of which may
be cut short by a crash. As long as the answers that the runner is given can be journaled, its
own journal never stops it, and every call that it requests is closed in its batch.
-/
namespace ClockifyAssistant

open Lib RunnerProcess RunService ToolJournal ActionExecution
open Fallible

namespace RunJournal

/-- The boot fails the runs that were at work; a run that still waits was suspended by its last
event. -/
def Booted (terms : JournalTerms) (others : OtherRunWrites) (w : RunWorld) : Prop :=
  terms.closing → ∀ run, (w.await others).run = some run → run.phase.resumable = true →
    ∃ before event, w.events = before ++ [event] ∧ event.suspends = true

/-- The answers on the way of an invocation can be journaled. -/
def AnswersJournalable (scope : RunnerScope) (terms : JournalTerms) (request : RunRequest)
    (envs : List RunnerEnv) (w : RunWorld) : Prop :=
  (runController scope).Along (AnswerJournalable scope terms)
    ((runController scope).handler request) envs w

/-- The run where an invocation of the controller is cut off. -/
def cutShort (scope : RunnerScope) (request : RunRequest) (envs : List RunnerEnv)
    (w : RunWorld) : RunWorld :=
  (runController scope).interrupt ((runController scope).handler request) envs w

/-- The end of an invocation and the run that it leaves. -/
def invoke (scope : RunnerScope) (request : RunRequest) (envs : List RunnerEnv) (w : RunWorld) :
    Option (Except RunError (Option RunOutcome) × RunWorld) :=
  (runController scope).play ((runController scope).handler request) envs w

/-- The runs between invocations. -/
inductive JournaledRun (scope : RunnerScope) (terms : JournalTerms) : RunWorld → Prop
  | start : JournaledRun scope terms .empty
  | turn {w w' : RunWorld} {request : RunRequest} {envs : List RunnerEnv}
      {result : Except RunError (Option RunOutcome)} (h : JournaledRun scope terms w)
      (hrequest : RequestFits terms request w)
      (hanswers : AnswersJournalable scope terms request envs w)
      (hinvoke : invoke scope request envs w = some (result, w')) : JournaledRun scope terms w'
  | crash {w : RunWorld} {request : RunRequest} {envs : List RunnerEnv}
      (others : OtherRunWrites) (h : JournaledRun scope terms w)
      (hrequest : RequestFits terms request w)
      (hanswers : AnswersJournalable scope terms request envs w)
      (hboot : Booted terms others (cutShort scope request envs w)) :
      JournaledRun scope terms ((cutShort scope request envs w).await others)

section Runs

variable {scope : RunnerScope} {terms : JournalTerms} {w w' : RunWorld} {request : RunRequest}
  {envs : List RunnerEnv} {result : Except RunError (Option RunOutcome)}

theorem AtRest.empty : AtRest scope terms .empty := by
  refine ⟨⟨nofun, fun _ => Closes.nil, fun _ => nofun, fun _ _ => Quiet.nil⟩, fun _ => ?_⟩
  exact Or.inl Quiet.nil

theorem journaled_cutShort (hbounded : scope.registry.Bounded) (h : AtRest scope terms w)
    (hrequest : RequestFits terms request w)
    (hanswers : AnswersJournalable scope terms request envs w) :
    Journaled scope terms (cutShort scope request envs w) := by
  have hstep : ∀ o env w, (journaling scope terms).Pre o w →
      (journaling scope terms).Allowed o env w →
        Journaled scope terms ((runController scope).exec o env w).2 :=
    fun _ env _ hpre hallowed => hpre.2 env hallowed
  exact Safe.interrupt (fun _ => rfl) hstep (safeE_handler hbounded h hrequest) hanswers h.journaled

theorem Booted.atRest {others : OtherRunWrites} (h : Booted terms others w)
    (hjournaled : Journaled scope terms w) : AtRest scope terms (w.await others) := by
  refine ⟨hjournaled.await others, fun hclosing => ?_⟩
  cases hrun : (w.await others).run with
  | none => exact Or.inl ((hjournaled.await others).unstarted hclosing hrun)
  | some run =>
    by_cases hresumable : run.phase.resumable = true
    · obtain ⟨before, event, hevents, hsuspends⟩ := h hclosing run hrun hresumable
      refine Or.inl ?_
      show Quiet w.events
      rw [hevents]
      exact quiet_concat before (Or.inr hsuspends)
    · exact Or.inr ⟨run, rfl, Bool.eq_false_iff.mpr hresumable⟩

theorem JournaledRun.atRest (hbounded : scope.registry.Bounded)
    (h : JournaledRun scope terms w) : AtRest scope terms w := by
  induction h with
  | start => exact AtRest.empty
  | @turn w w' request envs result h hrequest hanswers hinvoke ih =>
    have hend := Safe.play_allowed (fun _ => rfl) (safeE_handler hbounded ih hrequest) hanswers
      hinvoke
    cases result with
    | ok outcome => exact hend
    | error e => exact hend
  | crash others h hrequest hanswers hboot ih =>
    exact hboot.atRest (journaled_cutShort hbounded ih hrequest hanswers)

end Runs

/-- Whether every payload passes its schema. -/
def payloadTerms : JournalTerms where
  payloads := True
  closing := False

/-- Whether every requested call is closed. -/
def closingTerms : JournalTerms where
  payloads := False
  closing := True

/-- The journal refuses nothing that the runner hands to it, and an invocation returns with the
phase that its outcome speaks of, unless the installation is not current. -/
theorem journal_never_stops_runner {scope : RunnerScope} {w : RunWorld} {request : RunRequest}
    {envs : List RunnerEnv} (hbounded : scope.registry.Bounded)
    (h : JournaledRun scope payloadTerms w) (hrequest : RequestFits payloadTerms request w)
    (hanswers : AnswersJournalable scope payloadTerms request envs w) :
    (runController scope).Along (fun o _ w => Accepted o w)
        ((runController scope).handler request) envs w ∧
      ∀ input result w', request = .runAssistant input →
        invoke scope request envs w = some (result, w') →
          (result = .error .installationNotCurrent ∧ w' = w) ∨
            ∃ outcome, result = .ok (some outcome) ∧ EndsAsSaid outcome w' := by
  have hrest := h.atRest hbounded
  have hsafe := safeE_handler hbounded hrest hrequest
  constructor
  · have hpre := Safe.along (fun _ => rfl) hsafe hanswers
    exact hpre.mono fun o _ w (h : (journaling scope payloadTerms).Pre o w) => h.1 trivial
  · rintro input result w' rfl hinvoke
    have hinput : SafeE (S := journaling scope payloadTerms)
        ((RunRequest.runAssistant input).handler scope)
        (fun r w' => ∃ outcome, r = some outcome ∧ EndsAsSaid outcome w')
        (fun e w' => e = .installationNotCurrent ∧ w' = w) w :=
      safeE_bind (safeE_runAssistantV2 hbounded hrest input) fun outcome _ h' =>
        safeE_pure ⟨outcome, rfl, h'.2⟩
    have hend := Safe.play_allowed (fun _ => rfl) hinput hanswers hinvoke
    cases result with
    | ok outcome? =>
      obtain ⟨outcome, rfl, hends⟩ := hend
      exact Or.inr ⟨outcome, rfl, hends⟩
    | error e =>
      obtain ⟨rfl, rfl⟩ := hend
      exact Or.inl ⟨rfl, rfl⟩

/-- The runner may create tags and clients. -/
def tagsScope : RunnerScope where
  registry := {
    get := fun name =>
      if name = "clockify_create_tag" ∨ name = "clockify_create_client" then some ⟨some .write⟩
      else none
    available := fun _ _ => true
    hash := "catalog" }
  authClass := .addon

theorem tagsScope_bounded : tagsScope.registry.Bounded := by
  intro name hname
  by_cases hcreate : name = "clockify_create_tag" ∨ name = "clockify_create_client"
  · rcases hcreate with rfl | rfl <;> decide
  · simp [tagsScope, hcreate] at hname

def newTags : RunRequest := .runAssistant ⟨some "a new tag and a new client"⟩

/-- A provider that reports one and a half prompt tokens. -/
def fractionalUsage : RunnerEnv where
  attempt := .answered ⟨[], some ⟨.finite (3 / 2), .finite 1⟩, 1⟩

def decidableAccepted (o : RunnerOp) (w : RunWorld) : Decidable (Accepted o w) :=
  match o with
  | .commitStateEvents state events =>
      match h : (w.commitStateEvents state events).1 with
      | .ok () => isTrue h
      | .error _ => isFalse fun haccepted => nomatch h.symm.trans haccepted
  | .getRun | .startRun _ | .saveRun _ | .saveAdmission _ _ | .serializeRequest | .aborted
  | .monotonicMs | .installationCurrent | .fetch | .decide _ | .search _ | .admitRead
  | .executeRead _ | .prepare _ | .findLatestEligibleRunForCache | .wait => isTrue trivial

def decidableJournal (scope : RunnerScope) (request : RunRequest) (envs : List RunnerEnv)
    (w : RunWorld) : Decidable ((runController scope).Along (fun o _ w => Accepted o w)
      ((runController scope).handler request) envs w) :=
  @Server.decidableAlong _ _ _ (runController scope) _ (fun o _ w => decidableAccepted o w)
    ((runController scope).handler request) envs w

/-- The answer of the provider is refused by the journal, once it is paid for. -/
theorem reported_usage_refused : ¬ ∀ (request : RunRequest) (envs : List RunnerEnv),
    (runController tagsScope).Along (fun o _ w => Accepted o w)
      ((runController tagsScope).handler request) envs .empty := by
  intro h
  have hrefused : (decidableJournal tagsScope newTags (List.replicate 22 fractionalUsage)
      .empty).decide = false := by
    decide +kernel
  exact @of_decide_eq_false _ (decidableJournal _ _ _ _) hrefused (h _ _)

theorem prose_journalable (terms : JournalTerms) (o : RunnerOp) (w : RunWorld) :
    AnswerJournalable tagsScope terms o prose w := by
  cases o with
  | fetch =>
    intro completion heq
    cases heq
    exact ⟨nofun, nofun, fun _ => rfl, fun _ => nofun, fun _ => List.nodup_nil⟩
  | search input =>
    intro names heq
    cases heq
    exact nofun
  | prepare calls =>
    intro _
    exact (by decide : boundedString "policy_denied" = true)
  | wait => exact fun _ => nofun
  | _ => trivial

theorem invoke_prose : (invoke tagsScope newTags (List.replicate 25 prose) .empty).map
    (fun r => (r.1.toOption, r.2.events)) = some (some (some (.completed [])),
      [.runStarted, .modelStarted 1 1 [] false, .modelCompleted 1 1 none 0, .runCompleted []]) := by
  decide +kernel

theorem journal_never_stops_runner_prose :
    ∃ result w', invoke tagsScope newTags (List.replicate 25 prose) .empty = some (result, w') ∧
      ∃ outcome, result = .ok (some outcome) ∧ EndsAsSaid outcome w' := by
  obtain ⟨⟨result, w'⟩, hinvoke, hresult⟩ := Option.map_eq_some_iff.mp invoke_prose
  have hrequest : RequestFits payloadTerms newTags .empty := trivial
  have hends := (journal_never_stops_runner tagsScope_bounded .start hrequest
    (Server.along_replicate (prose_journalable _) _ _ _)).2 _ result w' rfl hinvoke
  refine ⟨result, w', hinvoke, hends.resolve_left ?_⟩
  rintro ⟨rfl, -⟩
  cases congrArg Prod.fst hresult

/-- The model searches for the tool that it needs. -/
def searchTags : RunnerEnv where
  attempt := .answered ⟨[⟨"call_1", discoveryMetaToolName, .obj [("query", .str "tags")]⟩], none, 1⟩
  search := .ok ["clockify_create_tag", "clockify_create_client"]

/-- Two writes, of which the port says that they are not ready, with one result. -/
def twoWrites : RunnerEnv where
  attempt := .answered
    ⟨[⟨"call_2", "clockify_create_tag", .obj []⟩,
      ⟨"call_3", "clockify_create_client", .obj []⟩], none, 1⟩
  preparation := .ok (.notReady (some 1))

def notReadyRun : List RunnerEnv :=
  List.replicate 27 searchTags ++ List.replicate 36 twoWrites ++ List.replicate 21 prose

/-- The log up to the request of the second write. -/
def beforeSecondWrite : List RunnerEvent :=
  [.runStarted, .modelStarted 1 1 [] false, .modelCompleted 1 1 none 0, .apiSearchStarted 1 .any [],
    .apiOperationsLoaded ["clockify_create_tag", "clockify_create_client"],
    .modelStarted 2 1 ["clockify_create_tag", "clockify_create_client"] true,
    .modelCompleted 2 1 none 0, .toolRequested "call_2" "clockify_create_tag"]

theorem invoke_notReady : (invoke tagsScope newTags notReadyRun .empty).map (fun r => r.2.events) =
    some (beforeSecondWrite ++ .toolRequested "call_3" "clockify_create_client" ::
      ([.toolCompleted "call_2" "clockify_create_tag" (some 1)] ++
        .modelStarted 3 1 ["clockify_create_tag", "clockify_create_client"] true ::
          [.modelCompleted 3 1 none 0, .runCompleted [some 1]])) := by
  decide +kernel

end RunJournal

end ClockifyAssistant
