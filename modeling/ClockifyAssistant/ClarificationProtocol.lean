import Mathlib.Data.List.Induction
import ClockifyAssistant.Store.PendingClarifications

/-!
The course of the clarifications. One call inserts a pending row where its run has
no active one, or writes active rows; what it writes as settled is scrubbed. The
law of all calls follows from that one description.
-/
namespace ClockifyAssistant

open Lib Txn

inductive ClarificationStep
  | create (input : CreatePendingClarificationInput) (now : Time)
  | claim (id : ClarificationId) (s : ClarificationScope) (now : Time)
  | reset (id : ClarificationId) (s : ClarificationScope) (now : Time)
  | resolve (input : ResolveClarificationInput) (now : Time)
  | resolveOption (s : AssistantRunScope) (input : ResolveClarificationInput)
      (patch : RunStatePatch) (toolCompleted : RunEventPayload) (now : Time)
  | cancel (id : ClarificationId) (s : ClarificationScope) (reason : ClarificationCancelReason)
      (now : Time)
  | continueFreeText (id : ClarificationId) (s : ClarificationScope) (now : Time)
  | continueAndLink (id : ClarificationId) (s : AssistantRunScope) (requestId : RequestId)
      (now : Time)
  | supersede (id : ClarificationId) (s : AssistantRunScope) (budget : RunBudget) (now : Time)
  | expire (limit : Nat) (now : Time)
  | recover (now : Time)
  | writeRuns (m : StoreTxn Unit)

def ClarificationStep.run : ClarificationStep → ClarificationTxn Unit
  | .create input now => discard (createPendingClarification input now)
  | .claim id s now => discard (claimClarificationResolving id s now)
  | .reset id s now => discard (resetClarificationToPending id s now)
  | .resolve input now => discard (resolveClarificationWithOption input now)
  | .resolveOption s input patch toolCompleted now =>
      discard (resolveClarificationOption s input patch toolCompleted now)
  | .cancel id s reason now => discard (cancelClarification id s reason now)
  | .continueFreeText id s now => discard (continueClarificationWithFreeText id s now)
  | .continueAndLink id s requestId now =>
      discard (continueClarificationWithFreeTextAndLink id s requestId now)
  | .supersede id s budget now => discard (supersedeClarificationForNewRun id s budget now)
  | .expire limit now => discard (expireClarifications limit now)
  | .recover now => discard (onDb (recoverOrphanedRuns now))
  | .writeRuns m => onDb m

def ClarificationStore.step (store : ClarificationStore) (step : ClarificationStep) :
    ClarificationStore :=
  (step.run.commit store).2

def runClarifications (steps : List ClarificationStep) : ClarificationStore :=
  steps.foldl ClarificationStore.step ⟨.empty, .empty, .empty⟩

def PendingClarification.Scrubbed (c : PendingClarification) : Prop :=
  c.partialArguments = none ∧ c.candidates = []

/-- What one call may make of a row. -/
structure ClarificationWrite (c c' : PendingClarification) : Prop where
  active : c.status.active = true
  scope : c'.scope = c.scope
  runId : c'.runId = c.runId
  scrubbed : c'.status.active = false → c'.Scrubbed
  resolved : c'.status = .resolved → c.status = .resolving

def PendingClarification.ofRun (sessionId : SessionId) (runId : RunId)
    (c : PendingClarification) : Bool :=
  c.scope.sessionId == sessionId && c.runId == runId && c.status.active

inductive ClarificationMove (t t' : Table PendingClarification) : Prop
  | unchanged (h : t' = t)
  | created (row : PendingClarification) (hfresh : t.get? (key row) = none)
      (h : t' = t.insert row hfresh) (pending : row.status = .pending)
      (alone : t.rows.filter (PendingClarification.ofRun row.scope.sessionId row.runId) = [])
  | written (p : PendingClarification → Bool) (f : PendingClarification → PendingClarification)
      (hf : ∀ r, key (f r) = key r) (h : t' = t.updateWhere p f hf)
      (legal : ∀ c ∈ t.rows, p c = true → ClarificationWrite c (f c))

structure ClarificationInvariant (t : Table PendingClarification) : Prop where
  oneActive : ∀ sessionId runId,
    (t.rows.filter (PendingClarification.ofRun sessionId runId)).length ≤ 1
  scrubbed : ∀ c ∈ t.rows, c.status.active = false → c.Scrubbed

theorem ClarificationWrite.ofRun {c c' : PendingClarification} (h : ClarificationWrite c c')
    {sessionId : SessionId} {runId : RunId} (hc : c'.ofRun sessionId runId = true) :
    c.ofRun sessionId runId = true := by
  unfold PendingClarification.ofRun at hc ⊢
  rw [h.scope, h.runId, Bool.and_eq_true] at hc
  rw [hc.1, h.active]
  rfl

theorem filter_length_le_of_map {α : Type} {f : α → α} {p : α → Bool} {l : List α}
    (h : ∀ a ∈ l, p (f a) = true → p a = true) :
    ((l.map f).filter p).length ≤ (l.filter p).length := by
  rw [← List.countP_eq_length_filter, ← List.countP_eq_length_filter, List.countP_map]
  exact List.countP_mono_left fun a ha hpa => h a ha hpa

variable {t t' : Table PendingClarification}

theorem ClarificationMove.invariant
    (h : ClarificationMove t t') (hinv : ClarificationInvariant t) : ClarificationInvariant t' := by
  cases h with
  | unchanged h => exact h ▸ hinv
  | created row hfresh h pending alone =>
    subst h
    refine ⟨?_, ?_⟩
    · intro sessionId runId
      show ((t.rows ++ [row]).filter _).length ≤ 1
      rw [List.filter_append, List.length_append]
      by_cases hrow : row.ofRun sessionId runId = true
      · have hkey : row.scope.sessionId = sessionId ∧ row.runId = runId := by
          simp only [PendingClarification.ofRun, Bool.and_eq_true, beq_iff_eq] at hrow
          exact hrow.1
        rw [← hkey.1, ← hkey.2, alone, List.length_nil, Nat.zero_add]
        exact List.length_filter_le _ [row]
      · rw [List.filter_cons_of_neg hrow]
        exact hinv.oneActive sessionId runId
    · intro c hc hclosed
      rcases Table.mem_insert.mp hc with hold | hnew
      · exact hinv.scrubbed c hold hclosed
      · rw [hnew, pending] at hclosed
        cases hclosed
  | written p f hf h legal =>
    subst h
    refine ⟨?_, ?_⟩
    · intro sessionId runId
      refine Nat.le_trans (filter_length_le_of_map ?_) (hinv.oneActive sessionId runId)
      intro c hc hactive
      by_cases hp : p c = true
      · rw [if_pos hp] at hactive
        exact (legal c hc hp).ofRun hactive
      · rw [if_neg hp] at hactive
        exact hactive
    · intro c' hc' hclosed
      obtain ⟨c, hc, rfl⟩ := Table.mem_updateWhere.mp hc'
      by_cases hp : p c = true
      · rw [if_pos hp] at hclosed ⊢
        exact (legal c hc hp).scrubbed hclosed
      · rw [if_neg hp] at hclosed ⊢
        exact hinv.scrubbed c hc hclosed

variable {id : ClarificationId}

theorem ClarificationMove.settled (h : ClarificationMove t t') {c : PendingClarification}
    (hc : t.get? id = some c) (hclosed : c.status.active = false) : t'.get? id = some c := by
  cases h with
  | unchanged h => exact h ▸ hc
  | created row hfresh h pending alone =>
    subst h
    rw [Table.get?_insert, if_neg, hc]
    intro hid
    rw [← hid, hc] at hfresh
    cases hfresh
  | written p f hf h legal =>
    subst h
    rw [Table.get?_updateWhere, hc, Option.map_some, if_neg]
    intro hp
    rw [(legal c (Table.mem_of_get? hc) hp).active] at hclosed
    cases hclosed

theorem ClarificationMove.resolved (h : ClarificationMove t t') {c c' : PendingClarification}
    (hc : t.get? id = some c) (hc' : t'.get? id = some c') (hresolved : c'.status = .resolved)
    (hopen : c.status ≠ .resolved) : c.status = .resolving := by
  cases h with
  | unchanged h =>
    rw [h, hc] at hc'
    injection hc' with hc'
    exact absurd (hc' ▸ hresolved) hopen
  | created row hfresh h pending alone =>
    rw [h, Table.get?_insert] at hc'
    split at hc'
    · injection hc' with hc'
      rw [← hc', pending] at hresolved
      cases hresolved
    · rw [hc] at hc'
      injection hc' with hc'
      exact absurd (hc' ▸ hresolved) hopen
  | written p f hf h legal =>
    rw [h, Table.get?_updateWhere, hc, Option.map_some] at hc'
    injection hc' with hc'
    by_cases hp : p c = true
    · rw [if_pos hp] at hc'
      exact (legal c (Table.mem_of_get? hc) hp).resolved (hc' ▸ hresolved)
    · rw [if_neg hp] at hc'
      exact absurd (hc' ▸ hresolved) hopen

theorem ClarificationMove.starts (h : ClarificationMove t t') {c' : PendingClarification}
    (hnone : t.get? id = none) (hc' : t'.get? id = some c') : c'.status = .pending := by
  cases h with
  | unchanged h =>
    rw [h, hnone] at hc'
    cases hc'
  | created row hfresh h pending alone =>
    rw [h, Table.get?_insert] at hc'
    split at hc'
    · injection hc' with hc'
      exact hc' ▸ pending
    · rw [hnone] at hc'
      cases hc'
  | written p f hf h legal =>
    rw [h, Table.get?_updateWhere, hnone] at hc'
    cases hc'

theorem ClarificationMove.update {t : Table PendingClarification}
    {f : PendingClarification → PendingClarification} {hf : ∀ r, key (f r) = key r}
    {row : PendingClarification} (hrow : t.get? id = some row)
    (h : ClarificationWrite row (f row)) : ClarificationMove t (t.update id f hf) := by
  refine .written _ f hf rfl ?_
  intro c hc hkey
  have hsame := Table.get?_eq_some.mpr ⟨hc, of_decide_eq_true hkey⟩
  rw [hrow] at hsame
  injection hsame with hsame
  exact hsame ▸ h

/-- What a call leaves of the clarifications. -/
def Moves {α : Type} (m : ClarificationTxn α) : Prop :=
  Within (fun store store' => ClarificationMove store.clarifications store'.clarifications) m

/-- What a call on the other tables leaves of them. -/
def KeepsClarifications {α : Type} (m : ClarificationTxn α) : Prop :=
  Within (fun store store' => store'.clarifications = store.clarifications) m

theorem keeps_onDb {α : Type} (m : StoreTxn α) : KeepsClarifications (onDb m) := by
  intro store
  unfold wp onDb
  cases m store.db with
  | error e => trivial
  | ok r => rfl

theorem keeps_pure {α : Type} (a : α) : KeepsClarifications (pure a : ClarificationTxn α) :=
  fun _ => rfl

theorem KeepsClarifications.moves {α : Type} {m : ClarificationTxn α}
    (h : KeepsClarifications m) : Moves m :=
  h.mono fun _ _ hkeep => .unchanged hkeep

theorem Moves.discard {α : Type} {m : ClarificationTxn α} (h : Moves m) : Moves (discard m) := by
  intro store
  show wp ((fun _ => ()) <$> m) _ _ store
  rw [wp_map]
  exact h store

theorem Moves.then_keeps {α β : Type} {m : ClarificationTxn α} {f : α → ClarificationTxn β}
    (hm : Moves m) (hf : ∀ a, KeepsClarifications (f a)) : Moves (m >>= f) := by
  intro store
  refine wp_seq (hm store) ?_
  intro a store' h
  refine wp_mono (hf a store') ?_ fun _ he => he
  intro _ store'' hkeep
  show ClarificationMove store.clarifications store''.clarifications
  rw [show store''.clarifications = store'.clarifications from hkeep]
  exact h

theorem KeepsClarifications.bind {α β : Type} {m : ClarificationTxn α}
    {f : α → ClarificationTxn β} (hm : KeepsClarifications m)
    (hf : ∀ a, KeepsClarifications (f a)) : KeepsClarifications (m >>= f) :=
  within_bind (fun h h' => h'.trans h) hm hf

theorem scopedClarification_spec (id : ClarificationId) (s : ClarificationScope)
    (store : ClarificationStore) : wp (scopedClarification id s)
      (fun row store' => store' = store ∧ store.clarifications.get? id = some row)
      (fun _ => True) store := by
  unfold scopedClarification
  rw [wp_bind, wp_get, wp_bind, wp_demand]
  refine ⟨?_, fun _ => trivial⟩
  intro row hrow
  unfold assertClarificationScope
  simp only [wp_bind, wp_require, wp_pure, implies_true, and_true]
  intro _ _ _ _
  exact ⟨trivial, hrow⟩

theorem wp_updateClarification
    {f : PendingClarification → PendingClarification} {hf : ∀ r, key (f r) = key r}
    {Q : Unit → ClarificationStore → Prop} {E : StoreError → Prop} {store : ClarificationStore} :
    wp (updateClarification id f hf) Q E store ↔
      Q () { store with clarifications := store.clarifications.update id f hf } := Iff.rfl

theorem moves_createPendingClarification (input : CreatePendingClarificationInput) (now : Time) :
    Moves (createPendingClarification input now) := by
  refine within_get_bind fun store => ?_
  dsimp only
  simp only [wp_bind, wp_require, implies_true, and_true]
  intro halone _
  split
  · rename_i hfresh
    exact .created _ hfresh rfl rfl halone
  · trivial

theorem moves_claimClarificationResolving (id : ClarificationId) (s : ClarificationScope)
    (now : Time) : Moves (claimClarificationResolving id s now) := by
  intro store
  unfold claimClarificationResolving
  refine wp_seq (scopedClarification_spec id s store) ?_
  rintro row store' ⟨rfl, hrow⟩
  simp only [wp_bind, wp_require, wp_updateClarification, wp_pure, implies_true, and_true]
  intro hpending _
  refine .update hrow ⟨?_, rfl, rfl, fun hclosed => ?_, fun hresolved => ?_⟩
  · rw [hpending]
    rfl
  · cases hclosed
  · cases hresolved

theorem moves_resetClarificationToPending (id : ClarificationId) (s : ClarificationScope)
    (now : Time) : Moves (resetClarificationToPending id s now) := by
  intro store
  unfold resetClarificationToPending
  refine wp_seq (scopedClarification_spec id s store) ?_
  rintro row store' ⟨rfl, hrow⟩
  simp only [wp_bind, wp_require, wp_updateClarification, wp_pure, implies_true, and_true]
  intro hresolving _
  refine .update hrow ⟨?_, rfl, rfl, fun hclosed => ?_, fun hresolved => ?_⟩
  · rw [hresolving]
    rfl
  · cases hclosed
  · cases hresolved

theorem moves_resolveClarificationWithOption (input : ResolveClarificationInput) (now : Time) :
    Moves (resolveClarificationWithOption input now) := by
  intro store
  unfold resolveClarificationWithOption
  refine wp_seq (scopedClarification_spec input.id input.scope store) ?_
  rintro row store' ⟨rfl, hrow⟩
  simp only [wp_bind, wp_get, wp_require, wp_updateClarification, wp_pure, implies_true, and_true]
  intro hresolving _ _
  refine .update hrow ⟨?_, rfl, rfl, fun _ => ⟨rfl, rfl⟩, fun _ => hresolving⟩
  rw [hresolving]
  rfl

theorem moves_cancelClarification (id : ClarificationId) (s : ClarificationScope)
    (reason : ClarificationCancelReason) (now : Time) :
    Moves (cancelClarification id s reason now) := by
  intro store
  unfold cancelClarification
  refine wp_seq (scopedClarification_spec id s store) ?_
  rintro row store' ⟨rfl, hrow⟩
  simp only [wp_bind, wp_require, wp_updateClarification, wp_pure, implies_true, and_true]
  intro hactive
  refine .update hrow ⟨?_, rfl, rfl, fun _ => ⟨rfl, rfl⟩, fun hresolved => ?_⟩
  · rcases hactive with hactive | hactive
    · rw [hactive]
      rfl
    · rw [hactive]
      rfl
  · cases hresolved

theorem moves_continueClarificationWithFreeText (id : ClarificationId) (s : ClarificationScope)
    (now : Time) : Moves (continueClarificationWithFreeText id s now) := by
  intro store
  unfold continueClarificationWithFreeText
  refine wp_seq (scopedClarification_spec id s store) ?_
  rintro row store' ⟨rfl, hrow⟩
  simp only [wp_bind, wp_require, wp_updateClarification, wp_pure, implies_true, and_true]
  intro hpending
  refine .update hrow ⟨?_, rfl, rfl, fun _ => ⟨rfl, rfl⟩, fun hresolved => ?_⟩
  · rw [hpending]
    rfl
  · cases hresolved

theorem moves_expireClarifications (limit : Nat) (now : Time) :
    Moves (expireClarifications limit now) := by
  refine within_get_bind fun store => ?_
  refine .written _ _ (key_endedClarification .expired .expired now) rfl ?_
  intro c hc hlisted
  obtain ⟨c', hc', hid⟩ := List.mem_map.mp (List.contains_iff_mem.mp hlisted)
  obtain ⟨hmem, hlapsed⟩ := List.mem_filter.mp (List.mem_of_mem_take hc')
  have hsame : c' = c := List.inj_on_of_nodup_map store.clarifications.nodup hmem hc hid
  subst hsame
  refine ⟨?_, rfl, rfl, fun _ => ⟨rfl, rfl⟩, fun hresolved => ?_⟩
  · have hpending : c'.status = .pending := by
      simpa using (Bool.and_eq_true_iff.mp hlapsed).1
    rw [hpending]
    rfl
  · cases hresolved

theorem keeps_insertRequestLink (link : RunRequestLink) :
    KeepsClarifications (insertRequestLink link) := by
  refine within_get_bind fun store => ?_
  split
  · rfl
  · trivial

theorem ClarificationStep.moves (step : ClarificationStep) : Moves step.run := by
  cases step with
  | create input now => exact (moves_createPendingClarification input now).discard
  | claim id s now => exact (moves_claimClarificationResolving id s now).discard
  | reset id s now => exact (moves_resetClarificationToPending id s now).discard
  | resolve input now => exact (moves_resolveClarificationWithOption input now).discard
  | resolveOption s input patch toolCompleted now =>
    refine Moves.discard ((moves_resolveClarificationWithOption _ now).then_keeps fun _ => ?_)
    exact (keeps_onDb _).bind fun _ => keeps_pure _
  | cancel id s reason now => exact (moves_cancelClarification id s reason now).discard
  | continueFreeText id s now => exact (moves_continueClarificationWithFreeText id s now).discard
  | continueAndLink id s requestId now =>
    refine Moves.discard ((moves_continueClarificationWithFreeText _ _ now).then_keeps fun _ => ?_)
    refine (keeps_insertRequestLink _).bind fun _ => ?_
    exact (keeps_onDb _).bind fun _ => keeps_pure _
  | supersede id s budget now =>
    refine Moves.discard ((moves_cancelClarification _ _ _ now).then_keeps fun _ => ?_)
    exact (keeps_onDb _).bind fun _ => keeps_pure _
  | expire limit now => exact (moves_expireClarifications limit now).discard
  | recover now => exact (keeps_onDb _).moves.discard
  | writeRuns m => exact (keeps_onDb m).moves

theorem ClarificationStore.step_moves (store : ClarificationStore) (step : ClarificationStep) :
    ClarificationMove store.clarifications (store.step step).clarifications :=
  commit_inv (P := fun s : ClarificationStore =>
    ClarificationMove store.clarifications s.clarifications) (.unchanged rfl) (step.moves store)

theorem runClarifications_snoc (steps : List ClarificationStep) (step : ClarificationStep) :
    runClarifications (steps ++ [step]) = (runClarifications steps).step step := by
  unfold runClarifications
  rw [List.foldl_append]
  rfl

theorem runClarifications_invariant (steps : List ClarificationStep) :
    ClarificationInvariant (runClarifications steps).clarifications := by
  induction steps using List.reverseRecOn with
  | nil =>
    refine ⟨fun _ _ => Nat.zero_le 1, ?_⟩
    intro c hc
    cases hc
  | append_singleton steps step ih =>
    rw [runClarifications_snoc]
    exact (ClarificationStore.step_moves _ step).invariant ih

theorem runClarifications_settled {steps : List ClarificationStep}
    {c : PendingClarification} (hc : (runClarifications steps).clarifications.get? id = some c)
    (hclosed : c.status.active = false) (more : List ClarificationStep) :
    (runClarifications (steps ++ more)).clarifications.get? id = some c := by
  induction more using List.reverseRecOn with
  | nil =>
    rw [List.append_nil]
    exact hc
  | append_singleton more step ih =>
    rw [← List.append_assoc, runClarifications_snoc]
    exact (ClarificationStore.step_moves _ step).settled ih hclosed

structure ClarificationLaw (steps : List ClarificationStep) : Prop where
  oneActive : ∀ sessionId runId, ((runClarifications steps).activeOf sessionId runId).length ≤ 1
  resolved : ∀ step id c c', (runClarifications steps).clarifications.get? id = some c →
    (runClarifications (steps ++ [step])).clarifications.get? id = some c' →
    c'.status = .resolved → c.status ≠ .resolved → c.status = .resolving
  starts : ∀ step id c', (runClarifications steps).clarifications.get? id = none →
    (runClarifications (steps ++ [step])).clarifications.get? id = some c' → c'.status = .pending
  terminal : ∀ more id c, (runClarifications steps).clarifications.get? id = some c →
    c.status.active = false →
    (runClarifications (steps ++ more)).clarifications.get? id = some c
  scrubbed : ∀ c ∈ (runClarifications steps).clarifications.rows, c.status.active = false →
    c.partialArguments = none ∧ c.candidates = []

/-- Every run has at most one open question at any time; a question is resolved only out
of its claim, and what is settled stays as it is, scrubbed of what it asked. -/
theorem runClarifications_law (steps : List ClarificationStep) : ClarificationLaw steps := by
  have h := runClarifications_invariant steps
  refine ⟨h.oneActive, ?_, ?_, ?_, h.scrubbed⟩
  · intro step id c c' hc hc' hresolved hopen
    rw [runClarifications_snoc] at hc'
    exact (ClarificationStore.step_moves _ step).resolved hc hc' hresolved hopen
  · intro step id c' hnone hc'
    rw [runClarifications_snoc] at hc'
    exact (ClarificationStore.step_moves _ step).starts hnone hc'
  · intro more id c hc hclosed
    exact runClarifications_settled hc hclosed more

end ClockifyAssistant
