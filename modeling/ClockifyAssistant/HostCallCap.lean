import ClockifyAssistant.RunRows
import ClockifyAssistant.Services.HostCallLedger

/-!
The host-call cap of a run holds, and no reservation is lost or doubled, in every
interleaving in which each write-back is made from an up-to-date copy of the run.
-/
namespace ClockifyAssistant

open Lib Txn Fallible

/-- Consumed and reserved calls together stay within the cap of every run. -/
def Db.WithinCap (db : Db) : Prop :=
  ∀ k budget, db.budgetOf k = some budget →
    budget.hostCallsUsed + budget.hostCallsReserved ≤ maxHostCalls

def KeepsBudgets (db db' : Db) : Prop := ∀ k, db'.budgetOf k = db.budgetOf k

/-- The budget of one run is replaced, the others stay. -/
def SetsBudget (k : SessionId × RunId) (budget : RunBudget) (db db' : Db) : Prop :=
  ∀ k', db'.budgetOf k' = if k' = k then some budget else db.budgetOf k'

section Budgets

variable {db db' db'' : Db} {s : AssistantRunScope} {run : AssistantRun} {budget : RunBudget}

theorem SameRuns.keepsBudgets (h : SameRuns db db') : KeepsBudgets db db' := by
  intro k
  rw [Db.budgetOf, h]
  rfl

theorem KeepsBudgets.withinCap (h : KeepsBudgets db db') (hcap : db.WithinCap) : db'.WithinCap := by
  intro k budget hbudget
  rw [h k] at hbudget
  exact hcap k budget hbudget

theorem SetsBudget.withinCap {k : SessionId × RunId} (h : SetsBudget k budget db db')
    (hcap : db.WithinCap)
    (hle : budget.hostCallsUsed + budget.hostCallsReserved ≤ maxHostCalls) : db'.WithinCap := by
  intro k' budget' hbudget'
  rw [h k'] at hbudget'
  split at hbudget'
  · cases hbudget'
    exact hle
  · exact hcap k' budget' hbudget'

theorem budgetOf_getRun (h : db.getRun s = some run) : db.budgetOf s.key = some run.budget := by
  have hget := (Option.filter_eq_some_iff.mp h).1
  rw [Db.budgetOf, hget]
  rfl

theorem SetsBudget.keepsBudgets (h : SetsBudget s.key run.budget db db')
    (hrun : db.getRun s = some run) : KeepsBudgets db db' := by
  intro k
  rw [h k]
  split
  · rename_i hk
    rw [hk, budgetOf_getRun hrun]
  · rfl

theorem wp_updateRun {p : AssistantRun → Bool} {f : AssistantRun → AssistantRun}
    {hf : ∀ r, key (f r) = key r} {Q : Bool → Db → Prop} {E : StoreError → Prop}
    (hmiss : (∀ run, db.getRun s = some run → p run = false) → Q false db)
    (hhit : ∀ run db', db.getRun s = some run → p run = true →
      SetsBudget s.key (f run).budget db db' →
      ((f run).inScope s = true → db'.getRun s = some (f run)) → Q true db') :
    wp (updateRun s p f hf) Q E db := by
  unfold updateRun
  rw [wp_bind, wp_get]
  cases hrun : db.getRun s with
  | none =>
    simp only [Option.any_none, Bool.not_false, ↓reduceIte, wp_pure]
    exact hmiss fun run h => absurd (hrun.symm.trans h) (by simp)
  | some run =>
    obtain ⟨hget, -⟩ := Option.filter_eq_some_iff.mp hrun
    by_cases hp : p run = true
    · simp only [Option.any_some, hp, Bool.not_true, Bool.false_eq_true, ↓reduceIte, wp_bind,
        wp_set, wp_pure]
      refine hhit run _ hrun hp (fun k => ?_) fun hscope => ?_
      · simp only [Db.budgetOf, Table.get?_update]
        split
        · rename_i hk
          simp [hk, hget]
        · rfl
      · simp [Db.getRun, hget, hscope]
    · simp only [Option.any_some, hp, Bool.not_false, ↓reduceIte, wp_pure]
      exact hmiss fun run' h => by
        rw [hrun, Option.some.injEq] at h
        simpa [← h] using hp

end Budgets

section Cap

variable {s : AssistantRunScope}

def KeepsCap (db db' : Db) : Prop := db.WithinCap → db'.WithinCap

theorem KeepsCap.refl (db : Db) : KeepsCap db db := id

theorem KeepsCap.trans {db db' db'' : Db} (h : KeepsCap db db') (h' : KeepsCap db' db'') :
    KeepsCap db db'' :=
  h' ∘ h

theorem SameRuns.keepsCap {db db' : Db} (h : SameRuns db db') : KeepsCap db db' :=
  h.keepsBudgets.withinCap

theorem keepsCap_chargeRunHostCall (now : Time) : Within KeepsCap (chargeRunHostCall s now) := by
  intro db
  refine wp_updateRun (fun _ => .refl db) fun run db' hrun hp hset _ hcap => ?_
  refine hset.withinCap hcap ?_
  have hfree := of_decide_eq_true hp
  simp only [maxHostCalls]
  omega

theorem keepsCap_refundRunHostCall (now : Time) : Within KeepsCap (refundRunHostCall s now) := by
  intro db
  rw [refundRunHostCall, wp_bind]
  refine wp_updateRun (fun _ => .refl db) fun run db' hrun _ hset _ hcap => ?_
  refine hset.withinCap hcap ?_
  have hrow := hcap _ _ (budgetOf_getRun hrun)
  change run.budget.hostCallsUsed - 1 + run.budget.hostCallsReserved ≤ maxHostCalls
  omega

theorem keepsCap_convertReservedRunHostCall (now : Time) :
    Within KeepsCap (convertReservedRunHostCall s now) := by
  intro db
  refine wp_updateRun (fun _ => .refl db) fun run db' hrun hp hset _ hcap => ?_
  refine hset.withinCap hcap ?_
  have hrow := hcap _ _ (budgetOf_getRun hrun)
  have hguard : 0 < run.budget.hostCallsReserved ∨
      run.budget.hostCallsUsed + run.budget.hostCallsReserved < 60 := by simpa using hp
  change run.budget.hostCallsUsed + 1 + (run.budget.hostCallsReserved - 1) ≤ maxHostCalls
  rw [maxHostCalls] at hrow ⊢
  omega

theorem keepsCap_startRunWithEvent (now : Time) : Within KeepsCap (startRunWithEvent s now) := by
  refine within_get_bind fun db => ?_
  dsimp only
  split
  · split
    · rename_i hturn hrun
      rw [wp_bind, wp_set, wp_bind]
      refine wp_mono (sameRuns_frame.event _ _ _ _ _) (fun _ db' h hcap => ?_) fun _ h => h
      refine h.keepsCap fun k budget hbudget => ?_
      simp only [Db.budgetOf, Table.get?_insert] at hbudget
      split at hbudget
      · cases hbudget
        exact Nat.zero_le _
      · exact hcap k budget hbudget
    · trivial
  · trivial

theorem wp_updateRunState_cap {db : Db} {patch : RunStatePatch} (now : Time)
    (hle : ∀ run, db.getRun s = some run →
      patch.budget.hostCallsReserved ≤ run.budget.hostCallsReserved) :
    wp (updateRunState s patch now) (fun _ db' => KeepsCap db db') (fun _ => True) db := by
  rw [updateRunState, wp_bind]
  refine wp_updateRun (fun _ => ?_) fun run db' hrun _ hset _ => ?_
  · rw [wp_require]
    exact ⟨fun _ => .refl db, fun _ => trivial⟩
  · rw [wp_require]
    refine ⟨fun _ hcap => hset.withinCap hcap ?_, fun _ => trivial⟩
    have hrow := hcap _ _ (budgetOf_getRun hrun)
    have hless := hle run hrun
    change run.budget.hostCallsUsed + patch.budget.hostCallsReserved ≤ maxHostCalls
    omega

theorem SameRuns.getRun {db db' : Db} (h : SameRuns db db') : db'.getRun s = db.getRun s := by
  rw [Db.getRun, h]
  rfl

theorem wp_completeRunAfterConfirmation_cap {db : Db} {budget : RunBudget}
    (input : CompletedConfirmation) (now : Time) (hle : ∀ run, db.getRun s = some run →
      budget.hostCallsReserved ≤ run.budget.hostCallsReserved) :
    wp (completeRunAfterConfirmationWithEvents s budget input now)
      (fun _ db' => KeepsCap db db') (fun _ => True) db := by
  refine wp_seq (sameRuns_frame.insertClaimEvents s input now db) fun _ db₁ h₁ => ?_
  refine wp_seq (sameRuns_frame.insertOperationCompleted s _ now db₁) fun _ db₂ h₂ => ?_
  have hsame := h₁.trans h₂
  refine wp_seq (wp_updateRunState_cap now fun run hrun => hle run (hsame.getRun ▸ hrun))
    fun _ db₃ h₃ => ?_
  refine wp_mono (sameRuns_frame.bind (sameRuns_frame.event _ _ _ _)
    (fun _ => sameRuns_frame.done ()) db₃) (fun _ _ h => ?_) fun _ h => h
  exact (hsame.keepsCap.trans h₃).trans h.keepsCap

theorem wp_completeRunAfterBatch_cap {budget : RunBudget} (items : List SettledItem) (now : Time)
    (hle : ∀ db : Db, ∀ run, db.getRun s = some run →
      budget.hostCallsReserved ≤ run.budget.hostCallsReserved) :
    Within KeepsCap (completeRunAfterBatchWithEvents s budget items now) := by
  intro db
  have hitems : Within SameRuns (items.forM fun item => insertOperationCompleted s item now) :=
    within_forM SameRuns.refl SameRuns.trans items fun item _ =>
      sameRuns_frame.insertOperationCompleted s item now
  refine wp_seq (hitems db) fun _ db₁ h₁ => ?_
  refine wp_seq (wp_updateRunState_cap now (hle db₁)) fun _ db₂ h₂ => ?_
  refine wp_mono (sameRuns_frame.bind (sameRuns_frame.event _ _ _ _)
    (fun _ => sameRuns_frame.done ()) db₂) (fun _ _ h => ?_) fun _ h => h
  exact (h₁.keepsCap.trans h₂).trans h.keepsCap

theorem keepsCap_settleV2ConfirmationRun (record : PendingConfirmation) (kind : SettlementKind)
    (actionResultId : Option ResultId) (now : Time) :
    Within KeepsCap (settleV2ConfirmationRun record kind actionResultId now) := by
  refine within_get_bind fun db => ?_
  split
  · exact .refl db
  · rename_i s state hfound
    obtain ⟨s', -, hmap⟩ := Option.bind_eq_some_iff.mp hfound
    obtain ⟨state', hstate, heq⟩ := Option.map_eq_some_iff.mp hmap
    cases heq
    refine wp_seq (sameRuns_frame.settleUnconfirmed record kind actionResultId now db) fun _ db₁ h₁ => ?_
    refine wp_seq (wp_completeRunAfterConfirmation_cap _ now fun run hrun => ?_) fun _ db₂ h₂ => ?_
    · rw [h₁.getRun, ((Option.filter_eq_some_iff.mp hstate).1), Option.some.injEq] at hrun
      subst hrun
      exact Nat.sub_le _ _
    · exact h₁.keepsCap.trans h₂

theorem keepsCap_settleV2ConfirmationBatchRun (batchId : BatchId) (kind : SettlementKind)
    (now : Time) : Within KeepsCap (settleV2ConfirmationBatchRun batchId kind now) := by
  refine within_get_bind fun db => ?_
  split
  · rename_i batch first rest _ _
    refine wp_seq (sameRuns_frame.awaitingBatchRun batch first now db) fun found db₁ h₁ => ?_
    cases found with
    | none => exact h₁.keepsCap
    | some found =>
      refine wp_seq (sameRuns_frame.settleBatchMembers batch kind now _ db₁) fun settled db₂ h₂ => ?_
      refine wp_seq (sameRuns_frame.endPendingBatch batch kind now db₂) fun _ db₃ h₃ => ?_
      refine wp_seq (wp_completeRunAfterBatch_cap _ now (fun _ _ _ => Nat.zero_le _) db₃)
        fun _ db₄ h₄ => ?_
      exact ((h₁.trans h₂).trans h₃).keepsCap.trans h₄
  · exact .refl db

end Cap

section WriteBack

variable {s : AssistantRunScope} {db : Db}

variable {patch : RunStatePatch}

theorem wp_writeBack (now : Time) (hcopy : ∀ run, db.getRun s = some run →
      patch.budget.hostCallsReserved = run.budget.hostCallsReserved) :
    wp (updateRun s (fun _ => true) (patch.apply now) (patch.key_apply now))
      (fun _ db' => KeepsBudgets db db') (fun _ => True) db := by
  refine wp_updateRun (fun _ _ => rfl) fun run db' hrun _ hset _ => ?_
  have hbudget : (patch.apply now run).budget = run.budget := by
    have hreserved := hcopy run hrun
    cases hrow : run.budget
    simp_all [RunStatePatch.apply]
  rw [hbudget] at hset
  exact hset.keepsBudgets hrun

theorem wp_saveRun (now : Time) (hcopy : ∀ run, db.getRun s = some run →
      patch.budget.hostCallsReserved = run.budget.hostCallsReserved) :
    wp (saveRun s patch now) (fun _ db' => KeepsBudgets db db') (fun _ => True) db :=
  wp_seq (wp_writeBack now hcopy) fun _ _ h => h

theorem wp_commitStateEvent (payload : RunEventPayload) (now : Time)
    (hcopy : ∀ run, db.getRun s = some run →
      patch.budget.hostCallsReserved = run.budget.hostCallsReserved) :
    wp (commitStateEvent s patch payload now) (fun _ db' => KeepsBudgets db db')
      (fun _ => True) db := by
  have hwrite : wp (updateRunState s patch now) (fun _ db' => KeepsBudgets db db')
      (fun _ => True) db :=
    wp_seq (wp_writeBack now hcopy) fun _ db' h => by
      rw [wp_require]
      exact ⟨fun _ => h, fun _ => trivial⟩
  refine wp_seq hwrite fun _ db₁ h₁ => ?_
  refine wp_mono (sameRuns_frame.event _ _ _ _ db₁) (fun _ db₂ h₂ k => ?_) fun _ h => h
  exact (h₂.keepsBudgets k).trans (h₁ k)

def hostCallsOf (drafts : List PreviewDraft) : Nat :=
  (drafts.map fun draft => draft.mutationPlan.maxHostCalls).sum

/-- The run's budget grew by a reservation of `count`, the other budgets stayed. -/
def AddsReservation (s : AssistantRunScope) (count : Nat) (db db' : Db) : Prop :=
  ∀ k, db'.budgetOf k = (db.budgetOf k).map fun budget =>
    if k = s.key then reserveHostCalls budget count else budget

structure Reserves (s : AssistantRunScope) (count : Nat) (db db' : Db) : Prop where
  budgets : AddsReservation s count db db'
  row : ∀ run, db.getRun s = some run → ∃ run', db'.getRun s = some run' ∧
    run'.budget = reserveHostCalls run.budget count

theorem Reserves.refl (s : AssistantRunScope) (db : Db) : Reserves s 0 db db where
  budgets k := by cases db.budgetOf k <;> simp [reserveHostCalls]
  row run hrun := ⟨run, hrun, rfl⟩

theorem Reserves.trans {m n : Nat} {db db' db'' : Db} (h : Reserves s m db db')
    (h' : Reserves s n db' db'') : Reserves s (m + n) db db'' where
  budgets k := by
    rw [h'.budgets, h.budgets]
    cases db.budgetOf k with
    | none => rfl
    | some budget =>
      by_cases hk : k = s.key <;> simp [hk, reserveHostCalls, Nat.add_assoc]
  row run hrun := by
    obtain ⟨run', hrun', hbudget'⟩ := h.row run hrun
    obtain ⟨run'', hrun'', hbudget''⟩ := h'.row run' hrun'
    exact ⟨run'', hrun'', by rw [hbudget'', hbudget']; simp [reserveHostCalls, Nat.add_assoc]⟩

theorem SameRuns.reserves {db db' : Db} (h : SameRuns db db') : Reserves s 0 db db' where
  budgets k := by
    rw [h.keepsBudgets k]
    exact (Reserves.refl s db).budgets k
  row run hrun := ⟨run, h.getRun.trans hrun, rfl⟩

/-- The copy a write is prepared with has the row's reservation. -/
def CopyReserves (db : Db) (s : AssistantRunScope) (budget : RunBudget) : Prop :=
  ∃ run, db.getRun s = some run ∧ budget.hostCallsReserved = run.budget.hostCallsReserved

theorem wp_updateBudget {budget : RunBudget} {count : Nat} (now : Time)
    (hcopy : CopyReserves db s budget) : wp (updateBudget s (reserveHostCalls budget count) now)
      (fun _ db' => Reserves s count db db' ∧ CopyReserves db' s (reserveHostCalls budget count))
      (fun _ => True) db := by
  obtain ⟨run, hrun, hreserved⟩ := hcopy
  rw [updateBudget, wp_bind]
  refine wp_updateRun (fun hmiss => Bool.noConfusion (hmiss run hrun)) fun run' db' hrun' _ hset
    hin => ?_
  obtain rfl : run = run' := Option.some.inj (hrun.symm.trans hrun')
  have hrow := hin (Option.filter_eq_some_iff.mp hrun).2
  rw [wp_pure]
  refine ⟨⟨fun k => ?_, fun run'' hrun'' => ⟨_, hrow, ?_⟩⟩, _, hrow, rfl⟩
  · rw [hset k]
    split
    · rename_i hk
      rw [hk, budgetOf_getRun hrun]
      simp [reserveHostCalls, hreserved]
    · cases db.budgetOf k <;> rfl
  · obtain rfl : run = run'' := Option.some.inj (hrun.symm.trans hrun'')
    simp [reserveHostCalls, hreserved]

theorem wp_applyPreparedWrite_reserves {budget : RunBudget} {draft : PreviewDraft} (now : Time)
    (hcopy : CopyReserves db s budget) : wp (applyPreparedWrite s budget draft now)
      (fun r db' => canReserveHostCalls budget draft.mutationPlan.maxHostCalls = true ∧
        r.1 = reserveHostCalls budget draft.mutationPlan.maxHostCalls ∧
        Reserves s draft.mutationPlan.maxHostCalls db db' ∧ CopyReserves db' s r.1)
      (fun _ => True) db := by
  rw [applyPreparedWrite, wp_bind, wp_require]
  refine ⟨fun hfits => ?_, fun _ => trivial⟩
  refine wp_seq (sameRuns_insertPreview s draft now db) fun member db₁ h₁ => ?_
  have hcopy₁ : CopyReserves db₁ s budget := by
    obtain ⟨run, hrun, hreserved⟩ := hcopy
    exact ⟨run, h₁.getRun.trans hrun, hreserved⟩
  refine wp_seq (wp_updateBudget now hcopy₁) fun _ db₂ h₂ => ?_
  refine wp_seq (sameRuns_frame.event _ _ _ now db₂) fun _ db₃ h₃ => ?_
  refine ⟨hfits, rfl, ?_, ?_⟩
  · have hreserves := (h₁.reserves.trans h₂.1).trans (h₃.reserves (s := s))
    rwa [Nat.zero_add, Nat.add_zero] at hreserves
  · obtain ⟨run, hrun, hreserved⟩ := h₂.2
    exact ⟨run, h₃.getRun.trans hrun, hreserved⟩

theorem wp_applyPreparedWrites_reserves (now : Time) (drafts : List PreviewDraft)
    (budget : RunBudget) (hcopy : CopyReserves db s budget) :
    wp (applyPreparedWrites s now budget drafts)
      (fun _ db' => Reserves s (hostCallsOf drafts) db db' ∧
        (drafts ≠ [] → canReserveHostCalls budget (hostCallsOf drafts) = true))
      (fun _ => True) db := by
  induction drafts generalizing db budget with
  | nil => exact ⟨Reserves.refl s db, fun h => absurd rfl h⟩
  | cons draft rest ih =>
    refine wp_seq (wp_applyPreparedWrite_reserves now hcopy) fun r db₁ h₁ => ?_
    obtain ⟨hfits, hbudget, hreserves, hcopy₁⟩ := h₁
    refine wp_seq (ih r.1 hcopy₁) fun _ db₂ h₂ => ?_
    obtain ⟨hrest, hrestFits⟩ := h₂
    refine ⟨hreserves.trans hrest, fun _ => ?_⟩
    cases rest with
    | nil => exact hfits
    | cons second rest =>
      have hlast := of_decide_eq_true (hrestFits (List.cons_ne_nil second rest))
      rw [hbudget] at hlast
      refine decide_eq_true ?_
      change budget.hostCallsUsed + budget.hostCallsReserved +
        (draft.mutationPlan.maxHostCalls + hostCallsOf (second :: rest)) ≤ maxHostCalls
      change budget.hostCallsUsed + (budget.hostCallsReserved + draft.mutationPlan.maxHostCalls) +
        hostCallsOf (second :: rest) ≤ maxHostCalls at hlast
      omega

theorem wp_suspendRunForConfirmation_budgets (continuation : RunContinuation) (now : Time)
    (db : Db) : wp (suspendRunForConfirmation s continuation now) (fun _ db' => KeepsBudgets db db')
      (fun _ => True) db := by
  have hphase : wp (updateRun s (fun _ => true) fun run => { run with
      phase := .awaitingConfirmation, continuation, updatedAt := now })
      (fun _ db' => KeepsBudgets db db') (fun _ => True) db := by
    refine wp_updateRun (fun _ _ => rfl) fun run db' hrun _ hset _ => ?_
    have hset : SetsBudget s.key run.budget db db' := hset
    exact hset.keepsBudgets hrun
  refine wp_seq hphase fun _ db₁ h₁ => ?_
  refine wp_seq (sameRuns_frame.event _ _ _ now db₁) fun _ db₂ h₂ k => ?_
  exact (h₂.keepsBudgets k).trans (h₁ k)

theorem wp_prepareAssistantWriteBatchWithEvents_reserves (tupleHash : List BatchMember → Hash)
    {budget : RunBudget} {drafts : List PreviewDraft} (now : Time)
    (hcopy : CopyReserves db s budget) :
    wp (prepareAssistantWriteBatchWithEvents tupleHash s budget drafts now)
      (fun _ db' => AddsReservation s (hostCallsOf drafts) db db' ∧
        (drafts ≠ [] → canReserveHostCalls budget (hostCallsOf drafts) = true))
      (fun _ => True) db := by
  refine wp_seq (wp_applyPreparedWrites_reserves now drafts budget hcopy) fun members db₁ h₁ => ?_
  refine wp_seq (sameRuns_openPreparedBatch tupleHash s drafts members now db₁) fun _ db₂ h₂ => ?_
  refine wp_seq (wp_suspendRunForConfirmation_budgets _ now db₂) fun _ db₃ h₃ => ?_
  refine ⟨fun k => ?_, h₁.2⟩
  rw [h₃ k, h₂.keepsBudgets k, h₁.1.budgets k]

theorem AddsReservation.withinCap {count : Nat} {db db' : Db} {run : AssistantRun}
    (h : AddsReservation s count db db') (hrun : db.getRun s = some run)
    (hfits : canReserveHostCalls run.budget count = true) (hcap : db.WithinCap) :
    db'.WithinCap := by
  intro k budget hbudget
  rw [h k] at hbudget
  obtain ⟨old, hold, heq⟩ := Option.map_eq_some_iff.mp hbudget
  split at heq
  · rename_i hk
    rw [hk, budgetOf_getRun hrun, Option.some.injEq] at hold
    subst hold heq
    have hfree := of_decide_eq_true hfits
    simp only [reserveHostCalls]
    omega
  · rw [← heq]
    exact hcap k old hold

end WriteBack

section Interleavings

variable {tupleHash : List BatchMember → Hash}

/-- The copy of a run a state write is made from has the row's reservation. -/
def CopyCurrent (db : Db) (s : AssistantRunScope) (budget : RunBudget) : Prop :=
  ∀ run ∈ db.getRun s, budget.hostCallsReserved = run.budget.hostCallsReserved

/-- A state write is made from a copy with the row's reservation, and the calls charged
since the copy of a preparation was taken leave room for what it reserves. -/
def UpToDate (db : Db) : LedgerOp → Prop
  | .prepareAssistantWriteBatch s budget drafts => ∃ run ∈ db.getRun s,
      budget.hostCallsReserved = run.budget.hostCallsReserved ∧
      (canReserveHostCalls budget (hostCallsOf drafts) = true →
        canReserveHostCalls run.budget (hostCallsOf drafts) = true)
  | .saveRun s patch => CopyCurrent db s patch.budget
  | .commitStateEvent s patch _ => CopyCurrent db s patch.budget
  | _ => True

instance (db : Db) : DecidablePred (UpToDate db)
  | .prepareAssistantWriteBatch _ _ _ => inferInstanceAs (Decidable (∃ run ∈ _, _))
  | .saveRun _ _ => inferInstanceAs (Decidable (∀ run ∈ _, _))
  | .commitStateEvent _ _ _ => inferInstanceAs (Decidable (∀ run ∈ _, _))
  | .getRun _ | .awaitCall | .startRun _ | .chargeRunHostCall _ | .refundRunHostCall _
  | .convertReservedRunHostCall _ | .settleV2ConfirmationRun _ _ _
  | .settleV2ConfirmationBatchRun _ _ | .other _ => inferInstanceAs (Decidable True)

/-- A state write keeps every reservation, and a preparation adds its own once. -/
def KeepsReservations (db db' : Db) : LedgerOp → Prop
  | .prepareAssistantWriteBatch s _ drafts =>
      db' = db ∨ AddsReservation s (hostCallsOf drafts) db db'
  | .saveRun _ _ => KeepsBudgets db db'
  | .commitStateEvent _ _ _ => KeepsBudgets db db'
  | _ => True

theorem KeepsReservations.refl (db : Db) (o : LedgerOp) : KeepsReservations db db o := by
  cases o with
  | prepareAssistantWriteBatch s budget drafts => exact .inl rfl
  | saveRun s patch => exact fun _ => rfl
  | commitStateEvent s patch payload => exact fun _ => rfl
  | _ => trivial

variable (tupleHash) in
theorem LedgerOp.keepsReservations {o : LedgerOp} (env : LedgerEnv) {db : Db}
    (h : UpToDate db o) : KeepsReservations db (o.exec tupleHash env db).2 o := by
  cases o with
  | prepareAssistantWriteBatch s budget drafts =>
    obtain ⟨run, hrun, hreserved, _⟩ := h
    refine commit_inv (P := fun db' => db' = db ∨ AddsReservation s (hostCallsOf drafts) db db')
      (.inl rfl) ?_
    exact wp_weaken (wp_prepareAssistantWriteBatchWithEvents_reserves tupleHash env.now
      ⟨run, hrun, hreserved⟩) fun _ _ h => .inr h.1
  | saveRun s patch => exact commit_inv (P := KeepsBudgets db) (fun _ => rfl) (wp_saveRun env.now h)
  | commitStateEvent s patch payload =>
    exact commit_inv (P := KeepsBudgets db) (fun _ => rfl) (wp_commitStateEvent payload env.now h)
  | _ => trivial

theorem LedgerOp.withinCap {o : LedgerOp} (env : LedgerEnv) {db : Db} (hcap : db.WithinCap)
    (h : UpToDate db o) : (o.exec tupleHash env db).2.WithinCap := by
  have hcommit {α : Type} {m : StoreTxn α} (hm : Within KeepsCap m) : (m.commit db).2.WithinCap :=
    commit_inv (P := Db.WithinCap) hcap (wp_weaken (hm db) fun _ _ hkeeps => hkeeps hcap)
  cases o with
  | getRun s => exact hcap
  | awaitCall => exact hcap
  | startRun s => exact hcommit (keepsCap_startRunWithEvent env.now)
  | chargeRunHostCall s => exact hcommit (keepsCap_chargeRunHostCall env.now)
  | refundRunHostCall s => exact hcommit (keepsCap_refundRunHostCall env.now)
  | convertReservedRunHostCall s => exact hcommit (keepsCap_convertReservedRunHostCall env.now)
  | prepareAssistantWriteBatch s budget drafts =>
    obtain ⟨run, hrun, hreserved, hroom⟩ := h
    refine commit_inv (P := Db.WithinCap) hcap ?_
    refine wp_weaken (wp_prepareAssistantWriteBatchWithEvents_reserves tupleHash env.now
      ⟨run, hrun, hreserved⟩) fun _ db' hadds => ?_
    obtain ⟨hadds, hfits⟩ := hadds
    by_cases hempty : drafts = []
    · subst hempty
      have hkeeps : KeepsBudgets db db' := fun k => by
        rw [hadds k]
        exact ((Reserves.refl s db).budgets k).symm
      exact hkeeps.withinCap hcap
    · exact hadds.withinCap hrun (hroom (hfits hempty)) hcap
  | saveRun s patch =>
    exact (LedgerOp.keepsReservations tupleHash env h).withinCap hcap
  | commitStateEvent s patch payload =>
    exact (LedgerOp.keepsReservations tupleHash env h).withinCap hcap
  | settleV2ConfirmationRun record kind actionResultId =>
    exact hcommit (keepsCap_settleV2ConfirmationRun record kind actionResultId env.now)
  | settleV2ConfirmationBatchRun batchId kind =>
    exact hcommit (keepsCap_settleV2ConfirmationBatchRun batchId kind env.now)
  | other change => exact fun k budget h => hcap k budget (change.keepsBudgets db k budget h)

def hostCallLedger (tupleHash : List BatchMember → Hash) : Spec (ledgerServer tupleHash) where
  Inv := Db.WithinCap
  Rely _ _ := True
  Pre _ _ := True
  Allowed o _ db := UpToDate db o

theorem free_ledgerOp (o : LedgerOp) : Free (hostCallLedger tupleHash) (LedgerProcess.perform o) :=
  free_perform fun _ => trivial

theorem free_hostCall (s : AssistantRunScope) {charge : LedgerProcess Bool}
    (hcharge : Free (hostCallLedger tupleHash) charge) :
    Free (hostCallLedger tupleHash) (LedgerProcess.hostCall s charge) := by
  refine free_bind hcharge fun charged => ?_
  cases charged with
  | false => exact free_throw _
  | true =>
    refine free_bind (free_ledgerOp _) fun sent => ?_
    cases sent with
    | false => exact free_ledgerOp _
    | true => exact free_pure _

theorem free_previewReads (s : AssistantRunScope) (reads : Nat) :
    Free (hostCallLedger tupleHash) (LedgerProcess.previewReads s reads) := by
  induction reads with
  | zero => exact free_pure _
  | succ n ih => exact free_bind (free_hostCall s (free_ledgerOp _)) fun _ => ih

theorem free_getRun (s : AssistantRunScope) :
    Free (hostCallLedger tupleHash) (LedgerProcess.getRun s) := by
  refine free_bind (free_ledgerOp _) fun state => ?_
  cases state with
  | none => exact free_throw _
  | some state => exact free_pure _

theorem free_awaitCalls (awaits : Nat) :
    Free (hostCallLedger tupleHash) (LedgerProcess.awaitCalls awaits) := by
  induction awaits with
  | zero => exact free_pure _
  | succ n ih => exact free_bind (free_ledgerOp _) fun _ => ih

theorem free_ledgerHandler (request : LedgerRequest) :
    Free (hostCallLedger tupleHash) request.handler := by
  cases request with
  | startRun s => exact free_ledgerOp _
  | runRead s => exact free_hostCall s (free_ledgerOp _)
  | confirmedCall s => exact free_hostCall s (free_ledgerOp _)
  | prepareBatch s drafts reads =>
    refine free_bind ?_ fun _ => free_pure _
    unfold LedgerProcess.prepareBatch
    split
    · exact free_throw _
    · refine free_bind (free_getRun s) fun state => ?_
      exact free_bind (free_previewReads s reads) fun _ => free_ledgerOp _
  | updateRun s awaits phase continuation payload =>
    refine free_bind (free_getRun s) fun state => free_bind (free_awaitCalls awaits) fun _ => ?_
    cases payload with
    | none => exact free_ledgerOp _
    | some payload => exact free_bind (free_ledgerOp _) fun _ => free_pure _
  | settleV2ConfirmationRun record kind actionResultId =>
    exact free_bind (free_ledgerOp _) fun _ => free_pure _
  | settleV2ConfirmationBatchRun batchId kind =>
    exact free_bind (free_ledgerOp _) fun _ => free_pure _
  | other change => exact free_ledgerOp _

variable (tupleHash) in
theorem hostCallLedger_sound : Sound (hostCallLedger tupleHash) where
  refl _ := trivial
  trans _ _ := trivial
  exec o env _ hcap _ hallowed := ⟨o.withinCap env hcap hallowed, trivial⟩
  handler request db _ := Safe.mono (fun _ _ _ => trivial) (free_ledgerHandler request db)
  restart env db db' hcap hrestart := by
    cases hrestart
    exact hcap

/-- An event whose state write, if it is one, is made from an up-to-date copy. -/
def UpToDateEvent (c : (ledgerServer tupleHash).Config) (e : (ledgerServer tupleHash).Event) :
    Prop :=
  ∀ o env, Server.operation? c e = some (o, env) → UpToDate c.world o

/-- Every run of up-to-date state writes stays within the cap and keeps its reservations. -/
theorem hostCalls_within_cap {c : (ledgerServer tupleHash).Config}
    (h : Server.Reaches UpToDateEvent (Server.initial Db.empty) c) :
    c.world.WithinCap ∧ ∀ e c' o env, UpToDateEvent c e → Server.step c e = some c' →
      Server.operation? c e = some (o, env) → KeepsReservations c.world c'.world o := by
  have hempty : Db.empty.WithinCap := fun _ _ hbudget => nomatch hbudget
  refine ⟨Sound.invariant (hostCallLedger_sound tupleHash) hempty h, ?_⟩
  intro e c' o env hdate hstep ho
  rcases Server.world_step hstep with hsame | ⟨o', env', ho', hworld⟩ | ⟨env', rfl, _⟩
  · rw [hsame]
    exact .refl c.world o
  · obtain ⟨rfl, rfl⟩ : o' = o ∧ env' = env := by
      simpa using (Option.some.inj (ho'.symm.trans ho))
    rw [hworld]
    exact LedgerOp.keepsReservations tupleHash env' (hdate _ _ ho)
  · cases ho

end Interleavings

section Runs

abbrev plainLedger := ledgerServer fun _ => 0

def ledgerScope : AssistantRunScope := ⟨⟨1, 1, 1⟩, 1, 1⟩

/-- A run is started and charged `reads` host reads, one after the other. -/
def chargedRun (reads : Nat) : List plainLedger.Event :=
  [.accept (.startRun ledgerScope), .perform ⟨0, true⟩] ++
    (List.replicate reads
      [.accept (.runRead ledgerScope), .perform ⟨1, true⟩, .resume 0 ⟨1, true⟩]).flatten

/-- A safe write is prepared; its preview needs two charged reads. -/
def prepareOne : List plainLedger.Event :=
  [.accept (.prepareBatch ledgerScope [.simple 100] 2), .perform ⟨2, true⟩,
    .perform ⟨2, true⟩, .resume 0 ⟨3, true⟩, .perform ⟨3, true⟩, .resume 0 ⟨4, true⟩,
    .perform ⟨4, true⟩]

/-- After 57 reads, a preview's own two reads pass and its two reserved calls exceed the cap. -/
theorem preview_reads_exceed_cap : ∃ c : plainLedger.Config,
    Server.Reaches (fun _ _ => True) (Server.initial Db.empty) c ∧ ¬c.world.WithinCap := by
  have hrun : (do
      let c ← Server.run (M := plainLedger) (Server.initial Db.empty) (chargedRun 57 ++ prepareOne)
      c.world.budgetOf (1, 1)) = some ⟨59, 2⟩ := by
    decide +kernel
  obtain ⟨c, hc, hbudget⟩ := Option.bind_eq_some_iff.mp hrun
  refine ⟨c, Server.reaches_of_run hc, fun hcap => ?_⟩
  have hle := hcap (1, 1) _ hbudget
  exact absurd hle (by decide)

def upToDate (db : Db) (o : LedgerOp) : Bool := decide (UpToDate db o)

theorem upToDate_iff {db : Db} {o : LedgerOp} : upToDate db o = true ↔ UpToDate db o :=
  decide_eq_true_iff

def upToDateEvent (c : plainLedger.Config) (e : plainLedger.Event) : Bool :=
  (Server.operation? c e).all fun step => upToDate c.world step.1

theorem upToDate_of_check {c : plainLedger.Config} {e : plainLedger.Event}
    (h : upToDateEvent c e = true) : UpToDateEvent c e := by
  intro o env ho
  rw [upToDateEvent, ho] at h
  exact upToDate_iff.mp h

/-- The same preparation early in the run. -/
theorem hostCalls_within_cap_prepareOne : ∃ c : plainLedger.Config,
    Server.runIf upToDateEvent (Server.initial Db.empty) (chargedRun 1 ++ prepareOne) = some c ∧
    c.world.budgetOf (1, 1) = some ⟨3, 2⟩ ∧ c.world.WithinCap := by
  have hrun : (do
      let c ← Server.runIf (M := plainLedger) upToDateEvent (Server.initial Db.empty)
        (chargedRun 1 ++ prepareOne)
      c.world.budgetOf (1, 1)) = some ⟨3, 2⟩ := by
    decide +kernel
  obtain ⟨c, hc, hbudget⟩ := Option.bind_eq_some_iff.mp hrun
  exact ⟨c, hc, hbudget,
    (hostCalls_within_cap (Server.reaches_of_runIf (fun _ _ h => upToDate_of_check h) hc)).1⟩

end Runs

end ClockifyAssistant
