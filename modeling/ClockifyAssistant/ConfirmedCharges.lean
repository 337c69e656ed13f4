import ClockifyAssistant.Rest.RequestGovernor
import ClockifyAssistant.RunRows

/-!
The durable host-call ledger over a confirmed dispatch. While the stored plan
executes its reservation is installed, so no call of it reaches the run's row,
and the settlement keeps the row's count.
-/
namespace ClockifyAssistant

open Lib Txn

section Reservation

/-- Inside a reservation: the store is untouched and no queued call was charged to a turn. -/
structure Reserved (db : Db) (st : HostCallState) : Prop where
  db : st.db = db
  reservation : st.reservation.isSome
  queued : ∀ charge ∈ st.queued, charge = .reservation

variable {db : Db} {st : HostCallState}

theorem Reserved.apply (h : Reserved db st) (e : GovernorEvent) : Reserved db (e.apply st) := by
  obtain ⟨remaining, hremaining⟩ := Option.isSome_iff_exists.mp h.reservation
  cases e with
  | run now =>
    unfold GovernorEvent.apply HostCallState.chargeHostCallBudget
    rw [hremaining]
    cases remaining with
    | zero => exact h
    | succ remaining =>
      refine ⟨h.db, rfl, fun charge hcharge => ?_⟩
      rcases List.mem_append.mp hcharge with hold | hnew
      · exact h.queued charge hold
      · exact List.mem_singleton.mp hnew
  | failBeforeDispatch index now =>
    cases hcharge : st.queued[index]? with
    | none => simpa [GovernorEvent.apply, hcharge] using h
    | some charge =>
      simp only [GovernorEvent.apply, hcharge]
      obtain rfl := h.queued charge (List.mem_of_getElem? hcharge)
      refine ⟨h.db, by simp [HostCallState.refund, hremaining], fun charge hmem => ?_⟩
      exact h.queued charge (List.mem_of_mem_eraseIdx hmem)
  | startExternalOperation index fetches =>
    simp only [GovernorEvent.apply]
    split
    · exact ⟨h.db, h.reservation, fun charge hmem => h.queued charge (List.mem_of_mem_eraseIdx hmem)⟩
    · exact h

theorem Reserved.run (h : Reserved db st) (events : List GovernorEvent) :
    Reserved db (events.foldl GovernorEvent.apply st) := by
  induction events generalizing st with
  | nil => exact h
  | cons e events ih => exact ih (h.apply e)

theorem reserveHostCallBudget_db {count : Nat} {reserved : HostCallState}
    (h : st.reserveHostCallBudget count = .ok reserved) : reserved.db = st.db := by
  unfold HostCallState.reserveHostCallBudget at h
  split at h
  · cases h
    rfl
  · split at h
    · cases h
    · cases h
      rfl

theorem withReservedHostCallBudget_db (st : HostCallState) (count : Nat)
    (events : List GovernorEvent) : (withReservedHostCallBudget st count events).db = st.db := by
  unfold withReservedHostCallBudget
  split
  · rfl
  · rename_i reserved hreserved
    have hdb := reserveHostCallBudget_db hreserved
    have h : Reserved st.db { reserved with reservation := some count, queued := [] } :=
      ⟨hdb, rfl, by simp⟩
    exact (h.run events).db

end Reservation

section Settlement

/-- The consumed calls of every run stay as they are. -/
def KeepsUsed (db db' : Db) : Prop :=
  ∀ k, (db'.runs.get? k).map (fun run => run.budget.hostCallsUsed) =
    (db.runs.get? k).map fun run => run.budget.hostCallsUsed

theorem KeepsUsed.refl (db : Db) : KeepsUsed db db := fun _ => rfl

theorem KeepsUsed.trans {db db' db'' : Db} (h : KeepsUsed db db') (h' : KeepsUsed db' db'') :
    KeepsUsed db db'' :=
  fun k => (h' k).trans (h k)

theorem keepsUsed_updateRunState (s : AssistantRunScope) (patch : RunStatePatch) (now : Time) :
    Within KeepsUsed (updateRunState s patch now) := by
  intro db
  unfold updateRunState updateRun
  simp only [wp_bind, wp_get]
  split
  · simp
  · simp only [wp_bind, wp_set, wp_pure, wp_require]
    refine ⟨fun _ k => ?_, by simp⟩
    rw [Table.get?_update]
    split
    · rw [Option.map_map]
      rfl
    · rfl

/-- A transaction that leaves the run rows alone keeps their counts. -/
theorem keepsUsed_of_sameRuns {α : Type} {m : StoreTxn α} (h : Within SameRuns m) :
    Within KeepsUsed m :=
  h.mono fun _ _ hruns k => by rw [hruns]

theorem keepsUsed_frame : SettlementFrame KeepsUsed where
  refl := KeepsUsed.refl
  trans := KeepsUsed.trans
  event _ _ _ _ := keepsUsed_of_sameRuns (sameRuns_frame.event _ _ _ _)
  mintId := keepsUsed_of_sameRuns sameRuns_frame.mintId
  result _ := keepsUsed_of_sameRuns (sameRuns_frame.result _)
  operations _ _ _ _ _ := rfl
  patched _ _ _ _ _ := rfl
  adopted _ _ _ _ := rfl
  batches _ _ _ _ _ := rfl

/-- How a run whose operation was confirmed is settled. -/
inductive ConfirmedSettlement
  | single (record : PendingConfirmation) (actionResultId : Option ResultId)
  | batch (batchId : BatchId)

def ConfirmedSettlement.settle (now : Time) : ConfirmedSettlement → StoreTxn Bool
  | single record actionResultId => settleV2ConfirmationRun record .confirmed actionResultId now
  | batch batchId => settleV2ConfirmationBatchRun batchId .confirmed now

theorem ConfirmedSettlement.keepsUsed (settlement : ConfirmedSettlement) (now : Time) (db : Db) :
    KeepsUsed db ((settlement.settle now).commit db).2 := by
  refine commit_inv (P := KeepsUsed db) (.refl db) ?_
  cases settlement with
  | single record actionResultId =>
    exact keepsUsed_frame.settleV2ConfirmationRun keepsUsed_updateRunState record _ _ now db
  | batch batchId =>
    exact keepsUsed_frame.settleV2ConfirmationBatchRun keepsUsed_updateRunState batchId _ now db

end Settlement

section Charges

/-- The next event starts a queued call, and its request goes out. -/
def GovernorEvent.fetchesAt (st : HostCallState) : GovernorEvent → Prop
  | startExternalOperation index fetches => fetches = true ∧ st.queued[index]?.isSome
  | _ => False

/-- No event of the list sends a request in the state it finds. -/
def NoRequest : HostCallState → List GovernorEvent → Prop
  | _, [] => True
  | st, e :: events => ¬e.fetchesAt st ∧ NoRequest (e.apply st) events

/-- The ledger of the run at `s` grew by one used unit for each of `sent` requests, each
taken from the reserved ones, and every settlement of the operation keeps that count. -/
def LedgerCounts (s : AssistantRunScope) (run : AssistantRun) (sent : Nat) (db : Db) : Prop :=
  (∃ run', db.getRun s = some run' ∧ run'.budget.hostCallsUsed = run.budget.hostCallsUsed + sent ∧
    run'.budget.hostCallsReserved + sent = run.budget.hostCallsReserved) ∧
  ∀ (settlement : ConfirmedSettlement) (now : Time),
    ((((settlement.settle now).commit db).2.runs.get? s.key).map fun run' =>
      run'.budget.hostCallsUsed) = some (run.budget.hostCallsUsed + sent)

theorem LedgerCounts.sent_eq_zero {s : AssistantRunScope} {run : AssistantRun} {sent : Nat}
    {db : Db} (h : LedgerCounts s run sent db) (hrun : db.getRun s = some run) : sent = 0 := by
  obtain ⟨⟨run', hrun', hused, _⟩, _⟩ := h
  obtain rfl : run = run' := Option.some.inj (hrun.symm.trans hrun')
  omega

theorem GovernorEvent.sent_apply (st : HostCallState) (e : GovernorEvent) :
    (e.fetchesAt st → (e.apply st).sent = st.sent + 1) ∧
      (¬e.fetchesAt st → (e.apply st).sent = st.sent) := by
  cases e with
  | run now =>
    refine ⟨nofun, fun _ => ?_⟩
    have hcharge : (st.chargeHostCallBudget now).2.sent = st.sent := by
      unfold HostCallState.chargeHostCallBudget HostCallState.chargeTurn HostCallState.setUsed
      repeat' split
      all_goals rfl
    simp only [GovernorEvent.apply]
    split <;> exact hcharge
  | failBeforeDispatch index now =>
    refine ⟨nofun, fun _ => ?_⟩
    have hrefund (st : HostCallState) (charge : HostCallCharge) :
        (st.refund charge now).sent = st.sent := by
      unfold HostCallState.refund HostCallState.refundTurn HostCallState.setUsed
      repeat' split
      all_goals rfl
    simp only [GovernorEvent.apply]
    split
    · exact hrefund _ _
    · rfl
  | startExternalOperation index fetches =>
    simp only [GovernorEvent.fetchesAt, GovernorEvent.apply]
    by_cases hqueued : st.queued[index]?.isSome
    · cases fetches <;> simp [hqueued]
    · simp [hqueued]

theorem sent_run (st : HostCallState) (events : List GovernorEvent) :
    st.sent ≤ (events.foldl GovernorEvent.apply st).sent ∧
      (NoRequest st events ↔ (events.foldl GovernorEvent.apply st).sent = st.sent) := by
  induction events generalizing st with
  | nil => simp [NoRequest]
  | cons e events ih =>
    obtain ⟨hfetch, hquiet⟩ := e.sent_apply st
    obtain ⟨hle, hiff⟩ := ih (e.apply st)
    rw [List.foldl_cons, NoRequest]
    by_cases h : e.fetchesAt st
    · have hsent := hfetch h
      constructor
      · omega
      · simp only [h, not_true_eq_false, false_and, false_iff]
        omega
    · have hsent := hquiet h
      rw [hsent] at hle hiff
      exact ⟨hle, by simp only [h, not_false_eq_true, true_and, hiff]⟩

/-- The state in which the stored plan executes, if its reservation fits the turn. -/
def planScopeStart (db : Db) (s : AssistantRunScope) (maxCalls : Nat) : HostCallState :=
  { (HostCallState.runScoped db s).setUsed ⟨0, hostCallBudgetMaximum, some s⟩ maxCalls with
    reservation := some maxCalls }

theorem withReservedHostCallBudget_runScoped (db : Db) (s : AssistantRunScope) (count : Nat)
    (events : List GovernorEvent) :
    (withReservedHostCallBudget (.runScoped db s) count events).sent =
      if hostCallBudgetMaximum < count then 0
      else (events.foldl GovernorEvent.apply (planScopeStart db s count)).sent := by
  unfold withReservedHostCallBudget HostCallState.reserveHostCallBudget
  by_cases h : hostCallBudgetMaximum < count
  · simp [HostCallState.runScoped, h]
  · simp [HostCallState.runScoped, HostCallState.setUsed, planScopeStart, h]

/-- A confirmed operation's requests are counted in its run's ledger exactly if there are none. -/
theorem ledgerCounts_iff (db : Db) (s : AssistantRunScope) (run : AssistantRun)
    (hrun : db.getRun s = some run) (plan : ExternalMutationPlan) (events : List GovernorEvent) :
    let after := withReservedHostCallBudget (.runScoped db s) plan.maxHostCalls events
    LedgerCounts s run after.sent after.db ↔
      hostCallBudgetMaximum < plan.maxHostCalls ∨
        NoRequest (planScopeStart db s plan.maxHostCalls) events := by
  intro after
  have hdb : after.db = db := withReservedHostCallBudget_db _ _ _
  have hsent : after.sent = 0 ↔ hostCallBudgetMaximum < plan.maxHostCalls ∨
      NoRequest (planScopeStart db s plan.maxHostCalls) events := by
    rw [show after.sent = _ from withReservedHostCallBudget_runScoped db s _ events,
      (sent_run _ events).2]
    by_cases h : hostCallBudgetMaximum < plan.maxHostCalls
    · simp [h]
    · simp only [h, if_false, false_or]
      rfl
  rw [← hsent, hdb]
  constructor
  · exact fun h => h.sent_eq_zero hrun
  · intro hzero
    rw [hzero]
    refine ⟨⟨run, hrun, rfl, rfl⟩, fun settlement now => ?_⟩
    rw [settlement.keepsUsed now db, (Option.filter_eq_some_iff.mp hrun).1]
    rfl

/-- A run whose one preview was confirmed and claimed. -/
def confirmedRun : Db :=
  (Txn.commit (do
    let _ ← prepareRun [.simple 100]
    markConfirmationExecuting 1 2) Db.empty).2

def confirmedScope : AssistantRunScope := ⟨⟨1, 1, 1⟩, 1, 1⟩

theorem confirmedRun_getRun : ∃ run, confirmedRun.getRun confirmedScope = some run := by
  have hrun : (confirmedRun.getRun confirmedScope).isSome := by decide +kernel
  exact Option.isSome_iff_exists.mp hrun

/-- The request of the preview's one step goes out, and the ledger does not move. -/
theorem confirmed_call_not_counted : ∃ run, confirmedRun.getRun confirmedScope = some run ∧
    let after := withReservedHostCallBudget (.runScoped confirmedRun confirmedScope) 2
      [.run 3, .startExternalOperation 0 true]
    after.sent = 1 ∧ after.db = confirmedRun ∧
      ¬LedgerCounts confirmedScope run after.sent after.db := by
  obtain ⟨run, hrun⟩ := confirmedRun_getRun
  refine ⟨run, hrun, ?_⟩
  generalize confirmedRun = db at hrun
  intro after
  have hdb : after.db = db := withReservedHostCallBudget_db _ _ _
  have hsent : after.sent = 1 := rfl
  refine ⟨hsent, hdb, fun h => ?_⟩
  rw [hdb] at h
  have hzero := h.sent_eq_zero hrun
  omega

theorem ledgerCounts_iff_confirmedRun : ∃ run, confirmedRun.getRun confirmedScope = some run ∧
    let after := withReservedHostCallBudget (.runScoped confirmedRun confirmedScope) 2 []
    (LedgerCounts confirmedScope run after.sent after.db ↔
      hostCallBudgetMaximum < 2 ∨ NoRequest (planScopeStart confirmedRun confirmedScope 2) []) := by
  obtain ⟨run, hrun⟩ := confirmedRun_getRun
  exact ⟨run, hrun, ledgerCounts_iff confirmedRun confirmedScope run hrun
    { mode := .single, maxHostCalls := 2, steps := [{ id := "create", kind := .primary }] } []⟩

end Charges

end ClockifyAssistant
