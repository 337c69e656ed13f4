import Mathlib.Data.List.Induction
import ClockifyAssistant.Lib.History
import ClockifyAssistant.Harness.IdempotencyLedger

/-!
Who owns the open claim of a key. The row of a claim names no owner: a call is known
as the owner only as long as nobody finds its claim lapsed. While that is so, a key
has one commit under way and every change of its claim is made by the call that won
it; once it is not, a second commit is admitted.
-/
namespace ClockifyAssistant

open Lib Txn

theorem IdempotencyRow.claimState_ne_won (row : IdempotencyRow) (db : Db) (notBefore : Time) :
    row.claimState db notBefore ≠ .won := by
  unfold claimState
  split
  · split <;> simp
  · split <;> simp

theorem wp_claimIdempotency (ledgerKey : LedgerKey) (scope : SessionScope)
    (claimedAt completedNotBefore claimNotBefore : Time) (db : Db) :
    wp (claimIdempotency ledgerKey scope claimedAt completedNotBefore claimNotBefore)
      (fun state db' => (state = .won ∧
          (∀ row, db.ledger.get? (ledgerKeyOf ledgerKey scope) = some row →
            lapsedClaim ledgerKey scope completedNotBefore row = true) ∧
          ∃ row, db'.ledger.get? (ledgerKeyOf ledgerKey scope) = some row ∧
            row.actionResultId = none) ∨ (state ≠ .won ∧
          (∃ row, db.ledger.get? (ledgerKeyOf ledgerKey scope) = some row ∧
            lapsedClaim ledgerKey scope completedNotBefore row = false) ∧
          db'.ledger.get? (ledgerKeyOf ledgerKey scope) =
            db.ledger.get? (ledgerKeyOf ledgerKey scope))) (fun _ => False) db := by
  unfold claimIdempotency
  simp only [wp_bind, wp_modify, wp_get]
  have hget := Table.get?_deleteWhere db.ledger
    (lapsedClaim ledgerKey scope completedNotBefore) (ledgerKeyOf ledgerKey scope)
  split
  · rename_i hfree
    simp only [wp_bind, wp_set, wp_pure]
    refine .inl ⟨trivial, ?_, ?_⟩
    · intro row hrow
      have hnone : (db.ledger.deleteWhere (lapsedClaim ledgerKey scope completedNotBefore)).get?
          (ledgerKeyOf ledgerKey scope) = none := hfree
      rw [hget, hrow] at hnone
      by_contra hkept
      simp [hkept] at hnone
    · refine ⟨{
          ledgerKey
          workspaceId := scope.workspaceId
          adminUserId := scope.adminUserId
          actionResultId := none
          committedAt := none
          claimedAt }, ?_, rfl⟩
      rw [Table.get?_insert]
      exact if_pos rfl
  · rename_i htaken
    split
    · rename_i hnone
      exact absurd hnone htaken
    · rename_i existing hsome
      simp only [wp_pure]
      have hfound : (db.ledger.deleteWhere (lapsedClaim ledgerKey scope completedNotBefore)).get?
          (ledgerKeyOf ledgerKey scope) = some existing := hsome
      have hold := hfound
      rw [hget] at hold
      obtain ⟨hrow, hkept⟩ := Option.filter_eq_some_iff.mp hold
      refine .inr ⟨existing.claimState_ne_won _ _, ⟨existing, hrow, by simpa using hkept⟩, ?_⟩
      show (db.ledger.deleteWhere _).get? _ = _
      rw [hfound, hrow]

namespace LedgerCalls

/-- One commit of the key is under way at a time, and its claim is changed by no other. -/
structure Owned (s : LedgerCalls) : Prop where
  single : ∀ caller caller', s.call caller = .committing → s.call caller' = .committing →
    caller = caller'
  own : ∀ change ∈ s.changes, change.holder = some change.caller

/-- A claim made while a commit is under way does not find that commit's claim lapsed. -/
def KeptAlive (o : LedgerOperation) (s : LedgerCalls) : LedgerStep → Prop
  | .claim caller readings _ => s.call caller = .idle →
      ∀ other row, s.call other = .committing → s.openClaim o = some row →
        readings.completedNotBefore ≤ row.claimedAt
  | _ => True

/-- The commit under way holds the open claim. -/
structure Held (o : LedgerOperation) (s : LedgerCalls) : Prop where
  held : ∀ caller, s.call caller = .committing →
    s.holder = some caller ∧ (s.openClaim o).isSome = true
  own : ∀ change ∈ s.changes, change.holder = some change.caller

variable {o : LedgerOperation} {s : LedgerCalls}

theorem Held.owned (h : Held o s) : Owned s := by
  refine ⟨?_, h.own⟩
  intro caller caller' hcaller hcaller'
  have hheld := (h.held caller hcaller).1
  rw [(h.held caller' hcaller').1] at hheld
  exact (Option.some.inj hheld).symm

theorem openClaim_eq_some {row : IdempotencyRow} : s.openClaim o = some row ↔
    s.db.ledger.get? (ledgerKeyOf o.ledgerKey o.scope) = some row ∧ row.actionResultId = none := by
  unfold openClaim
  rw [Option.filter_eq_some_iff]
  simp

theorem lapsed_iff {row : IdempotencyRow} {notBefore : Time} (hrow : s.openClaim o = some row) :
    lapsedClaim o.ledgerKey o.scope notBefore row = true ↔ row.claimedAt < notBefore := by
  obtain ⟨hget, hopen⟩ := openClaim_eq_some.mp hrow
  have hkey := Table.key_of_get? hget
  unfold lapsedClaim
  simp [hkey, hopen]

section Claims

variable {caller : Nat} {readings : ClaimReadings} {unreadable : Bool}

theorem claim_cases (o : LedgerOperation) (s : LedgerCalls) (caller : Nat)
    (readings : ClaimReadings) (unreadable : Bool) :
    (((s.claim o caller readings unreadable).call = Function.update s.call caller .committing ∧
        (s.claim o caller readings unreadable).holder = some caller ∧
        ((s.claim o caller readings unreadable).openClaim o).isSome = true) ∧
      ∀ row, s.openClaim o = some row → row.claimedAt < readings.completedNotBefore) ∨
    ((∃ result, (s.claim o caller readings unreadable).call =
        Function.update s.call caller (.returned result)) ∧
      (s.claim o caller readings unreadable).holder = s.holder ∧
      (s.claim o caller readings unreadable).openClaim o = s.openClaim o ∧
      ∀ row, s.openClaim o = some row → readings.completedNotBefore ≤ row.claimedAt) := by
  obtain ⟨state, db', hrun, hspec⟩ := wp_iff_exists.mp (wp_claimIdempotency o.ledgerKey o.scope
    readings.claimedAt readings.completedNotBefore readings.claimNotBefore s.db)
  have hcommit : (claimIdempotency o.ledgerKey o.scope readings.claimedAt
      readings.completedNotBefore readings.claimNotBefore).commit s.db = (.ok state, db') := by
    unfold Txn.commit
    rw [hrun]
  rcases hspec with ⟨hwon, hfree, row, hrow, hopen⟩ | ⟨hlost, ⟨row, hrow, hkept⟩, hsame⟩
  · left
    unfold claim
    rw [hcommit, hwon]
    refine ⟨⟨rfl, rfl, ?_⟩, ?_⟩
    · rw [openClaim_eq_some.mpr ⟨hrow, hopen⟩]
      rfl
    · intro old hold
      exact (lapsed_iff hold).mp (hfree old (openClaim_eq_some.mp hold).1)
  · right
    have hage : ∀ old, s.openClaim o = some old → readings.completedNotBefore ≤ old.claimedAt := by
      intro old hold
      obtain rfl : row = old := by
        have hget := (openClaim_eq_some.mp hold).1
        rw [hrow] at hget
        exact Option.some.inj hget
      have hnot : ¬lapsedClaim o.ledgerKey o.scope readings.completedNotBefore row = true := by
        simp [hkept]
      rw [lapsed_iff hold] at hnot
      exact Nat.le_of_not_lt hnot
    have hopen : ∀ call changes, (⟨db', call, s.holder, changes⟩ : LedgerCalls).openClaim o =
        s.openClaim o := by
      intro call changes
      unfold openClaim
      rw [hsame]
    unfold claim
    rw [hcommit]
    cases state with
    | won => exact absurd rfl hlost
    | replay => exact ⟨⟨_, rfl⟩, rfl, hopen _ _, hage⟩
    | inFlight => exact ⟨⟨_, rfl⟩, rfl, hopen _ _, hage⟩
    | staleUnknown => exact ⟨⟨_, rfl⟩, rfl, hopen _ _, hage⟩

/-- A claim found live by its age leaves the commit under way alone. -/
theorem Held.claim (h : Held o s) (hidle : s.call caller = .idle)
    (hkept : KeptAlive o s (.claim caller readings unreadable)) :
    Held o (s.claim o caller readings unreadable) := by
  have hchanges : (s.claim o caller readings unreadable).changes = s.changes := by
    unfold LedgerCalls.claim
    split <;> rfl
  refine ⟨?_, by rw [hchanges]; exact h.own⟩
  intro other hother
  rcases claim_cases o s caller readings unreadable with
    ⟨⟨hcall, hholder, hopen⟩, hlapsed⟩ | ⟨⟨result, hcall⟩, hholder, hopen, -⟩
  · rw [hcall] at hother
    by_cases heq : other = caller
    · rw [hholder, heq]
      exact ⟨rfl, hopen⟩
    · rw [Function.update_of_ne heq] at hother
      obtain ⟨row, hrow⟩ := Option.isSome_iff_exists.mp (h.held other hother).2
      have hold := hlapsed row hrow
      have hnew := hkept hidle other row hother hrow
      exact absurd hold (Nat.not_lt_of_le hnew)
  · rw [hcall] at hother
    by_cases heq : other = caller
    · rw [heq, Function.update_self] at hother
      cases hother
    · rw [Function.update_of_ne heq] at hother
      rw [hholder, hopen]
      exact h.held other hother

/-- A commit under way is joined by a second one when its claim is found lapsed. -/
theorem claim_lapsed {other : Nat} {row : IdempotencyRow} (hidle : s.call caller = .idle)
    (hother : s.call other = .committing) (hrow : s.openClaim o = some row)
    (hlapsed : row.claimedAt < readings.completedNotBefore) :
    ¬Owned (s.claim o caller readings unreadable) := by
  intro howned
  rcases claim_cases o s caller readings unreadable with
    ⟨⟨hcall, -, -⟩, -⟩ | ⟨-, -, -, hlive⟩
  · have hne : other ≠ caller := by
      intro heq
      rw [heq, hidle] at hother
      cases hother
    have hfirst : (s.claim o caller readings unreadable).call other = .committing := by
      rw [hcall, Function.update_of_ne hne]
      exact hother
    have hsecond : (s.claim o caller readings unreadable).call caller = .committing := by
      rw [hcall, Function.update_self]
    exact hne (howned.single other caller hfirst hsecond)
  · exact absurd hlapsed (Nat.not_lt_of_le (hlive row hrow))

end Claims

section Changes

variable {caller : Nat}

/-- What a commit under way does to its claim is its owner's doing. -/
theorem Held.change_own (h : Held o s) (hcaller : s.call caller = .committing)
    (m : StoreTxn Unit) : ∀ change ∈ (s.change o caller m).changes,
      change.holder = some change.caller := by
  intro change hchange
  have hlog : (s.change o caller m).changes = s.changes ++ [⟨caller, s.holder⟩] :=
    if_pos (h.held caller hcaller).2
  rw [hlog] at hchange
  rcases List.mem_append.mp hchange with hold | hnew
  · exact h.own change hold
  · rw [List.mem_singleton.mp hnew]
    exact (h.held caller hcaller).1

theorem Held.touch (h : Held o s) (caller : Nat) (now : Time) : Held o (s.touch o caller now) := by
  unfold LedgerCalls.touch
  split
  · rename_i hcaller
    refine ⟨?_, h.change_own hcaller _⟩
    intro other hother
    refine ⟨(h.held other hother).1, ?_⟩
    obtain ⟨row, hrow⟩ := Option.isSome_iff_exists.mp (h.held other hother).2
    obtain ⟨hget, hopen⟩ := openClaim_eq_some.mp hrow
    have htouched : (s.change o caller (touchIdempotencyClaim o.ledgerKey o.scope now)).openClaim o =
        some { row with claimedAt := now } := by
      refine openClaim_eq_some.mpr ⟨?_, hopen⟩
      have htable : (s.change o caller (touchIdempotencyClaim o.ledgerKey o.scope now)).db.ledger =
          s.db.ledger.updateWhere
            (fun row => key row == ledgerKeyOf o.ledgerKey o.scope && row.actionResultId.isNone)
            (fun row => { row with claimedAt := now }) := rfl
      rw [htable, Table.get?_updateWhere, hget]
      have hkey := Table.key_of_get? hget
      simp [hkey, hopen]
    rw [htouched]
    rfl
  · exact h

theorem Held.answer (h : Held o s) (hcaller : s.call caller = .committing)
    (result : CommitResult) {s' : LedgerCalls} (hcall : s'.call = s.call)
    (hown : ∀ change ∈ s'.changes, change.holder = some change.caller) :
    Held o (s'.answer caller result) := by
  refine ⟨?_, hown⟩
  intro other hother
  exfalso
  have hupdate : (s'.answer caller result).call = Function.update s.call caller (.returned result) := by
    unfold LedgerCalls.answer
    rw [hcall]
  rw [hupdate] at hother
  by_cases heq : other = caller
  · rw [heq, Function.update_self] at hother
    cases hother
  · rw [Function.update_of_ne heq] at hother
    exact heq (h.owned.single other caller hother hcaller)

theorem Held.finish (h : Held o s) (hcaller : s.call caller = .committing) (result : CommitResult)
    (ref : ResultId) (now : Time) : Held o (s.finish o caller result ref now) := by
  unfold LedgerCalls.finish
  split
  · exact h.answer hcaller _ rfl (h.change_own hcaller _)
  · exact h.answer hcaller _ rfl (h.change_own hcaller _)
  · split
    · exact h.answer hcaller _ rfl h.own
    · exact h.answer hcaller _ rfl (h.change_own hcaller _)

end Changes

theorem Held.step (h : Held o s) (step : LedgerStep) (hkept : KeptAlive o s step) :
    Held o (s.step o step) := by
  cases step with
  | claim caller readings unreadable =>
    unfold LedgerCalls.step
    simp only
    split
    · rename_i hidle
      exact h.claim hidle hkept
    · exact h
  | claimThrows caller =>
    unfold LedgerCalls.step
    simp only
    split
    · rename_i hidle
      refine ⟨?_, h.own⟩
      intro other hother
      have hcall : Function.update s.call caller
          (.returned (ledgerUnavailable o.actionName)) other = .committing := hother
      by_cases heq : other = caller
      · rw [heq, Function.update_self] at hcall
        cases hcall
      · rw [Function.update_of_ne heq] at hcall
        exact h.held other hcall
    · exact h
  | touch caller now => exact h.touch caller now
  | commitReturns caller outcome ref now =>
    unfold LedgerCalls.step
    simp only
    split
    · rename_i hcaller
      exact h.finish hcaller _ ref now
    · exact h
  | commitReturnsUnrecorded caller outcome =>
    unfold LedgerCalls.step
    simp only
    split
    · rename_i hcaller
      exact h.answer hcaller _ rfl h.own
    · exact h

end LedgerCalls

open LedgerCalls

theorem held_runLedgerCalls {o : LedgerOperation} {db : Db} {steps : List LedgerStep}
    (h : Always (fun before step => KeptAlive o (runLedgerCalls o db before) step) steps) :
    Held o (runLedgerCalls o db steps) := by
  induction steps using List.reverseRecOn with
  | nil =>
    refine ⟨?_, ?_⟩
    · intro caller hcaller
      cases hcaller
    · intro change hchange
      cases hchange
  | append_singleton rest step ih =>
    obtain ⟨hrest, hstep⟩ := Always.concat_iff.mp h
    rw [runLedgerCalls_concat]
    exact (ih hrest).step step hstep

theorem ledgerCalls_owned_iff (o : LedgerOperation) (db : Db) (steps : List LedgerStep) :
    (∀ done, done <+: steps → Owned (runLedgerCalls o db done)) ↔
      Always (fun before step => KeptAlive o (runLedgerCalls o db before) step) steps := by
  constructor
  · intro h before step after hsplit
    cases step with
    | claim caller readings unreadable =>
      intro hidle other row hother hrow
      by_contra hlapsed
      have howned := h (before ++ [.claim caller readings unreadable])
        ⟨after, by rw [hsplit, List.append_assoc]; rfl⟩
      rw [runLedgerCalls_concat] at howned
      have hstep : (runLedgerCalls o db before).step o (.claim caller readings unreadable) =
          (runLedgerCalls o db before).claim o caller readings unreadable := by
        unfold LedgerCalls.step
        simp only [hidle]
      rw [hstep] at howned
      exact claim_lapsed hidle hother hrow (Nat.lt_of_not_le hlapsed) howned
    | _ => trivial
  · intro h done hdone
    obtain ⟨rest, hsplit⟩ := hdone
    refine (held_runLedgerCalls ?_).owned
    intro before step after hbefore
    exact h before step (after ++ rest) (by rw [← hsplit, hbefore, List.append_assoc]; rfl)

/-- The first call's commit takes longer than the window and no heartbeat reaches the ledger;
a second call wins the key, and the first one's failure then releases its claim. -/
def lateFailure : List LedgerStep :=
  [.claim 0 (.at_ 0) false, .claim 1 (.at_ 600001) false,
    .commitReturns 0 (.error (.other "")) 0 600002, .claim 2 (.at_ 600003) false]

theorem not_always_owned : ¬∀ (o : LedgerOperation) (db : Db) (steps : List LedgerStep),
    Owned (runLedgerCalls o db steps) := by
  intro h
  have howned := h ⟨0, ⟨0, 0, 0⟩, ""⟩ .empty lateFailure
  have hchange : ⟨0, some 1⟩ ∈ (runLedgerCalls ⟨0, ⟨0, 0, 0⟩, ""⟩ .empty lateFailure).changes := by
    decide +kernel
  cases howned.own _ hchange

end ClockifyAssistant
