import Mathlib.Data.List.Induction
import ClockifyAssistant.Refinement.UndoPairs

/-!
The undo ledger over its whole life. An entry is read and then committed by the
undo service, which checks the workspace and the admin of the entry but not its
session. The two rows of a commit are joined on the session when they are
settled and when they are recovered, so they stay together exactly as long as
entries are committed in the session that recorded them.
-/
namespace ClockifyAssistant

open Lib Txn Lifecycle UndoPairs

section Commit

/-- What `executeUndoCommit` is called with, and what it computes from it. -/
structure UndoCommitInput where
  claims : SessionScope
  record : UndoRecord
  catalogHash : Hash
  actionFingerprint : Hash
  operationHash : Hash
  mutationPlan : ExternalMutationPlan

def UndoCommitInput.operation (input : UndoCommitInput) (operationId : OperationId) :
    PrepareOperationRunInput where
  id := operationId
  confirmationId := none
  scope := input.claims
  actionName := "undo"
  actionFingerprint := input.actionFingerprint
  catalogHash := input.catalogHash
  operationHash := input.operationHash
  envelope := { undoId := some input.record.id, mutationPlan := some input.mutationPlan }
  discriminator := {
    origin := .directUi
    registryId := .v2Local
    authorityModel := .undoV2
    executorKind := .undoCommit
    runId := none
    sourceUndoId := some input.record.id }

/-- The checks of `UndoService.execute` on the record it read. -/
def UndoCommitInput.admitted (input : UndoCommitInput) : Bool :=
  input.record.scope.workspaceId == input.claims.workspaceId &&
    input.record.scope.adminUserId == input.claims.adminUserId &&
    input.record.status == .available

/-- The first transaction of `executeUndoCommit`; the reversal is dispatched after it. -/
def startUndoCommit (input : UndoCommitInput) (now : Time) : StoreTxn (Option OperationId) := do
  let operationId ← mintId
  startUndoOperation input.record.id (input.operation operationId) now

end Commit

/-- A write of the rest of the program. No other statement writes an undo record, none
stores or settles an operation named `undo`, and retention deletes rows of both. -/
structure OtherWrite where
  apply : Db → Db
  moves : ∀ db : Db, ∃ π base, Steps π base db (apply db)
  fades : ∀ db : Db, Lifecycle.Inv db.core → db.undoPairs.Unconfirmed →
    db.undoPairs.Fades (apply db).undoPairs

/-- The database, the records the service has read, the commits it has made and the
databases there were before. -/
structure UndoLedger where
  db : Db
  records : List UndoRecord
  commits : List (UndoId × OperationId)
  past : List Db

inductive UndoStep
  | record (scope : SessionScope) (reversal : Json) (now : Time)
  | read (id : UndoId) (now : Time)
  | commit (input : UndoCommitInput) (now : Time)
  | settle (id : UndoId) (operationId : OperationId) (status : UndoOutcome) (remaining : Json)
      (receipt : Receipt) (now : Time)
  | expire (now : Time) (limit : Nat)
  | recover (now : Time)
  | other (write : OtherWrite)

namespace UndoLedger

def empty : UndoLedger := ⟨.empty, [], [], []⟩

def advance (s : UndoLedger) (db : Db) : UndoLedger :=
  { s with db, past := s.db :: s.past }

def read (s : UndoLedger) (id : UndoId) (now : Time) : UndoLedger :=
  match (getUndoRecord id now).commit s.db with
  | (.ok (some row), db) => { s.advance db with records := s.records ++ [row] }
  | (_, db) => s.advance db

def startCommit (s : UndoLedger) (input : UndoCommitInput) (now : Time) : UndoLedger :=
  match (startUndoCommit input now).commit s.db with
  | (.ok (some operationId), db) =>
      { s.advance db with commits := s.commits ++ [(input.record.id, operationId)] }
  | (_, db) => s.advance db

/-- The service commits a record it has read; only a commit that was made is settled. -/
def step (s : UndoLedger) : UndoStep → UndoLedger
  | .record scope reversal now => s.advance ((recordUndoable scope reversal now).commit s.db).2
  | .read id now => s.read id now
  | .commit input now =>
      if input.record ∈ s.records ∧ input.admitted then s.startCommit input now else s
  | .settle id operationId status remaining receipt now =>
      if (id, operationId) ∈ s.commits then
        s.advance ((settleUndoOperation id operationId status remaining receipt now).commit s.db).2
      else s
  | .expire now limit => s.advance ((expireUndoRecords now limit).commit s.db).2
  | .recover now => s.advance ((recoverOrphanedRuns now).commit s.db).2
  | .other write => s.advance (write.apply s.db)

/-- The operation was seen to end succeeded. -/
def Succeeded (s : UndoLedger) (operationId : OperationId) : Prop :=
  ∃ db ∈ s.db :: s.past, ∃ row, db.operations.get? operationId = some row ∧ row.status = .succeeded

def ExecutesOnce (s : UndoLedger) : Prop := (s.commits.map Prod.fst).Nodup

def DoneAfterSuccess (s : UndoLedger) : Prop :=
  ∀ id row, s.db.undos.get? id = some row → row.status = .undone →
    ∃ operationId, (id, operationId) ∈ s.commits ∧ s.Succeeded operationId

/-- A terminal entry and the operation that reversed it have one outcome and one result. -/
def AgreesWithOperation (s : UndoLedger) : Prop :=
  ∀ id operationId undo operation, (id, operationId) ∈ s.commits →
    s.db.undos.get? id = some undo → s.db.operations.get? operationId = some operation →
    operation.actionName = "undo" → undo.status.reversed = true →
    ∃ kind : ActionResultKind, undo.status = kind.toUndo ∧
      operation.status = kind.toOperation ∧ undo.actionResultId = operation.actionResultId

structure Sound (s : UndoLedger) : Prop where
  once : s.ExecutesOnce
  done : s.DoneAfterSuccess
  agrees : s.AgreesWithOperation

end UndoLedger

def runUndoLedger (steps : List UndoStep) : UndoLedger := steps.foldl UndoLedger.step .empty

/-- The entry is committed in the session that recorded it. -/
def UndoStep.OwnSession : UndoStep → Prop
  | .commit input _ => input.claims.sessionId = input.record.scope.sessionId
  | _ => True

section Statements

variable {db : Db} {own : Prop} {commits : List (UndoId × OperationId)}

theorem wp_recordUndoable_pairs (scope : SessionScope) (reversal : Json) (now : Time) :
    wp (recordUndoable scope reversal now) (fun _ db' => db.nextId < db'.nextId ∧
        db'.undoPairs = db.undoPairs.setEntry db.nextId (some ⟨scope, .available, none⟩))
      (fun _ => True) db := by
  unfold recordUndoable
  simp only [mintId, wp_bind, wp_get, wp_set, wp_pure]
  split
  · refine ⟨Nat.lt_succ_self _, ?_⟩
    have hmint : ({ db with nextId := db.nextId + 1 } : Db).undoPairs = db.undoPairs :=
      Db.undoPairs_eq rfl rfl rfl
    rw [← hmint]
    exact @Db.undoPairs_insertUndo { db with nextId := db.nextId + 1 } _ _
  · trivial

theorem wp_getUndoRecord_pairs (id : UndoId) (now : Time) : wp (getUndoRecord id now)
      (fun found db' => db.undoPairs.Fades db'.undoPairs ∧ found = db'.undos.get? id)
      (fun _ => True) db := by
  unfold getUndoRecord
  rw [wp_bind]
  refine wp_updateUndo_pairs (fun row db' hrow hlapsed h => ⟨?_, rfl⟩) fun _ => ⟨Fades.refl _, rfl⟩
  simp only [Bool.and_eq_true, beq_iff_eq] at hlapsed
  rw [h]
  exact fades_lapse (Db.undoPairs_entry hrow) hlapsed.1

theorem wp_expireUndoRecords_pairs (now : Time) (limit : Nat) : wp (expireUndoRecords now limit)
      (fun _ db' => db.undoPairs.Fades db'.undoPairs ∧ db'.core = db.core) (fun _ => True) db := by
  unfold expireUndoRecords
  rw [wp_bind, wp_get]
  refine ⟨⟨fun u e' he' => ?_, fun _ _ hy => ⟨hy, fun howned => howned⟩⟩, rfl⟩
  obtain ⟨row', hrow', rfl⟩ := Option.map_eq_some_iff.mp he'
  rw [Table.get?_updateWhere] at hrow'
  obtain ⟨row, hrow, rfl⟩ := Option.map_eq_some_iff.mp hrow'
  refine ⟨row.entry, Db.undoPairs_entry hrow, ?_⟩
  split
  · rename_i hdue
    refine .inr ⟨?_, rfl⟩
    -- The row selected by this key is the row itself.
    obtain ⟨due, hmem, hkey⟩ := List.any_eq_true.mp hdue
    obtain ⟨hstored, hopen⟩ := List.mem_filter.mp (List.mem_of_mem_take hmem)
    have hsame : due = row := by
      have hget := Table.get?_of_mem hstored
      rw [beq_iff_eq] at hkey
      rw [hkey, Table.get?_of_mem (Table.mem_of_get? hrow)] at hget
      exact (Option.some.inj hget).symm
    simp only [Bool.and_eq_true, beq_iff_eq] at hopen
    rw [← hsame]
    exact hopen.1
  · exact .inl rfl

/-- The operation a commit stores. -/
def UndoCommitInput.reversal (input : UndoCommitInput) : UndoReversal :=
  ⟨input.claims, none, some input.record.id, .executing, none⟩

theorem wp_prepareOperationRun_pairs {input : PrepareOperationRunInput} {now : Time}
    {Q : OperationId → Db → Prop}
    (hQ : ∀ db', db'.operations.get? input.id = some (preparedOperationRun input now) →
      db'.undoPairs = db.undoPairs.setReversal input.id (preparedOperationRun input now).reversal →
      Q input.id db') : wp (prepareOperationRun input now) Q (fun _ => True) db := by
  unfold prepareOperationRun
  rw [wp_bind, wp_get, wp_bind, wp_require]
  refine ⟨fun _ => ?_, fun _ => trivial⟩
  rw [wp_bind, wp_require]
  refine ⟨fun _ => ?_, fun _ => trivial⟩
  dsimp only
  split
  · rename_i hfresh
    refine hQ _ ?_ Db.undoPairs_insertOperation
    exact (Table.get?_insert _ _ hfresh input.id).trans (if_pos rfl)
  · trivial

theorem wp_startUndoCommit_pairs (input : UndoCommitInput) (now : Time) :
    wp (startUndoCommit input now)
      (fun started db' => match started with
        | some o => o = db.nextId ∧
            ∃ e, db.undoPairs.entry input.record.id = some e ∧ e.status = .available ∧
              db'.undoPairs = (db.undoPairs.setEntry input.record.id
                (some { e with status := .executing })).setReversal o (some input.reversal)
        | none => db'.undoPairs = db.undoPairs)
      (fun _ => True) db := by
  unfold startUndoCommit startUndoOperation markUndoExecuting
  rw [wp_bind, mintId, wp_bind, wp_get, wp_bind, wp_set, wp_pure, wp_bind]
  generalize hdb₁ : ({ db with nextId := db.nextId + 1 } : Db) = db₁
  have hpairs₁ : db₁.undoPairs = db.undoPairs := by
    subst hdb₁
    exact Db.undoPairs_eq rfl rfl rfl
  refine wp_updateUndo_pairs (fun row db₂ hrow havailable h₂ => ?_) fun _ => hpairs₁
  simp only [Bool.and_eq_true, beq_iff_eq] at havailable
  rw [Bool.not_true, if_neg Bool.false_ne_true, wp_bind]
  refine wp_prepareOperationRun_pairs fun db₃ hop h₃ => ?_
  rw [wp_bind, markOperationExecuting, wp_updateOperationStatus]
  have hprepared : (db₃.operations.get? (input.operation db.nextId).id).any
      (fun o => o.status == .prepared) = true := by
    rw [hop]
    rfl
  rw [if_pos hprepared, wp_bind, wp_require, wp_pure]
  refine ⟨fun _ => ⟨rfl, row.entry, ?_, havailable.1, ?_⟩, fun _ => trivial⟩
  · rw [← hpairs₁]
    exact Db.undoPairs_entry hrow
  · rw [Db.undoPairs_updateOperation hop, h₃, h₂, hpairs₁]
    simp only [setReversal, Function.update_idem]
    rfl

theorem UndoOutcome.toUndo_toKind (status : UndoOutcome) :
    status.toKind.toUndo = status.toStatus := by
  cases status <;> rfl

/-- A settlement that is made ends the entry and its operation with one new result. -/
theorem wp_settleUndoOperation_pairs (id : UndoId) (operationId : OperationId)
    (status : UndoOutcome) (remaining : Json) (receipt : Receipt) (now : Time)
    (hfree : db.undoPairs.Unconfirmed) :
    wp (settleUndoOperation id operationId status remaining receipt now)
      (fun r db' => (∃ y, db.undoPairs.reversal operationId = some y) ∧
        db'.undoPairs = ((db.undoPairs.settleReversal operationId status.toKind.toOperation
          r).settleEntry id status.toKind.toUndo r).record operationId) (fun _ => True) db := by
  unfold settleUndoOperation
  rw [wp_bind, wp_get]
  dsimp only
  rw [wp_bind, wp_demand]
  refine ⟨fun owner howner => ?_, fun _ => trivial⟩
  obtain ⟨hrow, hguard⟩ := Option.filter_eq_some_iff.mp howner
  obtain ⟨undo, -, hguard⟩ := (Option.any_eq_true _ _).mp hguard
  simp only [Bool.and_eq_true, beq_iff_eq, Option.isNone_iff_eq_none] at hguard
  have hy := (Db.undoPairs_reversal hrow).trans (if_pos hguard.1.1.2)
  simp only [recordActionResult, mintId, wp_bind, wp_get, wp_set, wp_pure]
  refine wp_insertActionResult_pairs fun db₂ h₂ => ?_
  have hmint : ({ db with nextId := db.nextId + 1 } : Db).undoPairs = db.undoPairs :=
    Db.undoPairs_eq rfl rfl rfl
  have h₂ : db₂.undoPairs = db.undoPairs.record operationId := by
    rw [h₂, hmint]
  rw [settleUndoRow, wp_bind]
  refine wp_updateUndo_pairs (fun row db₃ hundo _ h₃ => ?_) fun _ => by simp
  have hentry : db.undoPairs.entry id = some row.entry := by
    have hafter := Db.undoPairs_entry hundo
    rwa [h₂] at hafter
  rw [wp_require]
  refine ⟨fun _ => ?_, fun hfalse => absurd rfl hfalse⟩
  have hfree₃ : db₃.undoPairs.Unconfirmed := by
    rw [h₃, h₂]
    exact hfree
  refine wp_updateOperationStatus_pairs hfree₃ (fun _ db₄ _ _ h₄ => ?_) fun _ => by simp
  rw [wp_require]
  refine ⟨fun _ => ⟨⟨_, hy⟩, ?_⟩, fun hfalse => absurd rfl hfalse⟩
  rw [h₄, h₃, h₂, status.toUndo_toKind, settleEntry]
  have hsame : (db.undoPairs.settleReversal operationId status.toKind.toOperation
      db.nextId).entry id = some row.entry := hentry
  rw [hsame]
  rfl

end Statements

namespace UndoLedger

variable {own : Prop} {s s' : UndoLedger}

structure Invariant (own : Prop) (s : UndoLedger) : Prop where
  core : Lifecycle.Inv s.db.core
  accord : Accord own s.commits s.db.undoPairs
  entry_lt : ∀ u e, s.db.undoPairs.entry u = some e → u < s.db.nextId
  commit_lt : ∀ p ∈ s.commits, p.1 < s.db.nextId ∧ p.2 < s.db.nextId
  read : ∀ r ∈ s.records, r.id < s.db.nextId ∧
    ∀ e, s.db.undoPairs.entry r.id = some e → e.scope = r.scope
  undone : ∀ u e, s.db.undoPairs.entry u = some e → e.status = .undone →
    ∃ o, (u, o) ∈ s.commits ∧ s.Succeeded o

/-- What a step may do: entries keep their scope, a new one takes a new id, and one
becomes undone only with its operation succeeded. -/
structure Advances (s s' : UndoLedger) : Prop where
  steps : ∃ π base, Steps π base s.db s'.db
  past : s'.past = s.db :: s.past
  commits : ∀ p ∈ s.commits, p ∈ s'.commits
  commit_lt : ∀ p ∈ s'.commits, p ∈ s.commits ∨ p.1 < s.db.nextId ∧ p.2 < s'.db.nextId
  records : ∀ r ∈ s'.records, r ∈ s.records ∨
    ∃ e, s'.db.undoPairs.entry r.id = some e ∧ e.scope = r.scope
  entry : ∀ u e', s'.db.undoPairs.entry u = some e' →
    (∃ e, s.db.undoPairs.entry u = some e ∧ e'.scope = e.scope ∧
      (e'.status = .undone → e.status = .undone ∨ ∃ o, (u, o) ∈ s.commits ∧ s'.Succeeded o)) ∨
    s.db.nextId ≤ u ∧ u < s'.db.nextId ∧ e'.status = .available

theorem Succeeded.later {o : OperationId} (h : s.Succeeded o) (hpast : s'.past = s.db :: s.past) :
    s'.Succeeded o := by
  obtain ⟨db, hmem, hrow⟩ := h
  exact ⟨db, List.mem_cons_of_mem _ (hpast ▸ hmem), hrow⟩

theorem Invariant.advances (h : Invariant own s) (hadvances : Advances s s')
    (haccord : Accord own s'.commits s'.db.undoPairs) : Invariant own s' := by
  obtain ⟨π, base, hsteps⟩ := hadvances.steps
  have hle : s.db.nextId ≤ s'.db.nextId := (hsteps.later h.core).nextId
  have hentry_lt : ∀ u e, s'.db.undoPairs.entry u = some e → u < s'.db.nextId := by
    intro u e he
    rcases hadvances.entry u e he with ⟨e₀, he₀, -⟩ | ⟨-, hlt, -⟩
    · exact Nat.lt_of_lt_of_le (h.entry_lt u e₀ he₀) hle
    · exact hlt
  refine ⟨hsteps.inv h.core, haccord, hentry_lt, ?_, ?_, ?_⟩
  · intro p hp
    rcases hadvances.commit_lt p hp with hold | ⟨hundo, hoperation⟩
    · obtain ⟨hundo, hoperation⟩ := h.commit_lt p hold
      exact ⟨Nat.lt_of_lt_of_le hundo hle, Nat.lt_of_lt_of_le hoperation hle⟩
    · exact ⟨Nat.lt_of_lt_of_le hundo hle, hoperation⟩
  · intro r hr
    rcases hadvances.records r hr with hold | ⟨e, he, hscope⟩
    · have hlt := (h.read r hold).1
      refine ⟨Nat.lt_of_lt_of_le hlt hle, fun e he => ?_⟩
      rcases hadvances.entry r.id e he with ⟨e₀, he₀, hscope, -⟩ | ⟨hnew, -⟩
      · rw [hscope]
        exact (h.read r hold).2 e₀ he₀
      · exact absurd hlt (Nat.not_lt_of_le hnew)
    · refine ⟨hentry_lt r.id e he, fun e' he' => ?_⟩
      rw [Option.some.inj (he'.symm.trans he)]
      exact hscope
  · intro u e he hundone
    rcases hadvances.entry u e he with ⟨e₀, he₀, -, hdone⟩ | ⟨-, -, havailable⟩
    · rcases hdone hundone with hbefore | ⟨o, hmem, hsucceeded⟩
      · obtain ⟨o, hmem, hsucceeded⟩ := h.undone u e₀ he₀ hbefore
        exact ⟨o, hadvances.commits _ hmem, hsucceeded.later hadvances.past⟩
      · exact ⟨o, hadvances.commits _ hmem, hsucceeded⟩
    · rw [hundone] at havailable
      cases havailable

/-- A database in which nothing is undone, or in flight, that was not before. -/
theorem Invariant.drains {db : Db} (h : Invariant own s) (hsteps : ∃ π base, Steps π base s.db db)
    (hrecovers : Recovers own s.commits s.db.undoPairs db.undoPairs) :
    Invariant own (s.advance db) := by
  refine h.advances ⟨hsteps, rfl, fun _ hp => hp, fun _ hp => .inl hp, fun _ hr => .inl hr, ?_⟩
    hrecovers.accord
  intro u e' he'
  obtain ⟨e, he, hscope, hlive⟩ := hrecovers.drains.entry u e' he'
  refine .inl ⟨e, he, hscope, fun hundone => .inl ?_⟩
  rw [← hlive (.inr hundone)]
  exact hundone

theorem Invariant.fades {db : Db} (h : Invariant own s)
    (hsteps : ∃ π base, Steps π base s.db db) (hfades : s.db.undoPairs.Fades db.undoPairs) :
    Invariant own (s.advance db) :=
  h.drains hsteps ⟨h.accord.fades hfades, hfades.drains⟩

theorem Invariant.same (h : Invariant own s) : Invariant own (s.advance s.db) :=
  h.fades ⟨.free, 0, Steps.refl s.db⟩ (Fades.refl _)

/-- A step that runs one transaction keeps the invariant when its commits do. -/
theorem Invariant.commit {α : Type} {m : StoreTxn α} (h : Invariant own s)
    (hm : wp m (fun _ db => Invariant own (s.advance db)) (fun _ => True) s.db) :
    Invariant own (s.advance (m.commit s.db).2) :=
  @Txn.commit_inv _ _ _ m s.db (fun db => Invariant own (s.advance db)) h.same hm

theorem Invariant.record (h : Invariant own s) (scope : SessionScope) (reversal : Json)
    (now : Time) : Invariant own (s.advance ((recordUndoable scope reversal now).commit s.db).2) := by
  refine h.commit (wp_mono (wp_both (@refines_recordUndoable .free 0 scope
    reversal now s.db) (wp_recordUndoable_pairs scope reversal now)) (fun _ db hdb => ?_)
    fun _ h => h)
  obtain ⟨hsteps, hlt, hpairs⟩ := hdb
  have hnew : s.db.nextId ∉ s.commits.map Prod.fst := by
    intro hmem
    obtain ⟨p, hp, heq⟩ := List.mem_map.mp hmem
    have hold := (h.commit_lt p hp).1
    rw [heq] at hold
    exact Nat.lt_irrefl _ hold
  refine h.advances ⟨⟨_, _, hsteps⟩, rfl, fun _ hp => hp, fun _ hp => .inl hp,
    fun _ hr => .inl hr, ?_⟩ ?_
  · intro u e' he'
    have he' : db.undoPairs.entry u = some e' := he'
    rw [hpairs] at he'
    by_cases heq : u = s.db.nextId
    · subst heq
      rw [entry_setEntry_self] at he'
      obtain rfl := Option.some.inj he'
      exact .inr ⟨Nat.le_refl _, hlt, rfl⟩
    · rw [entry_setEntry_of_ne _ heq] at he'
      exact .inl ⟨e', he', rfl, fun hundone => .inl hundone⟩
  · show Accord own s.commits db.undoPairs
    rw [hpairs]
    exact h.accord.addEntry _ hnew

theorem Invariant.read_step (h : Invariant own s) (id : UndoId) (now : Time) :
    Invariant own (s.read id now) := by
  have hspec := wp_both (@Untouched.refines _ .free 0 _ (untouched_getUndoRecord id now) s.db)
    (wp_getUndoRecord_pairs id now)
  have hkept : Invariant own (s.advance ((getUndoRecord id now).commit s.db).2) :=
    h.commit (wp_mono hspec (fun _ db hdb => h.fades ⟨_, _, hdb.1⟩ hdb.2.1) fun _ h => h)
  unfold UndoLedger.read
  split
  · rename_i row db hrun
    obtain ⟨hsteps, hfades, hfound⟩ := wp_ok hspec (ok_of_commit hrun)
    have hid : row.id = id := Table.key_of_get? hfound.symm
    refine h.advances ⟨⟨_, _, hsteps⟩, rfl, fun _ hp => hp, fun _ hp => .inl hp, ?_, ?_⟩
      (h.accord.fades hfades)
    · intro r hr
      rcases List.mem_append.mp hr with hold | hnew
      · exact .inl hold
      · rw [List.mem_singleton.mp hnew, hid]
        exact .inr ⟨row.entry, Db.undoPairs_entry hfound.symm, rfl⟩
    · intro u e' he'
      obtain ⟨e, he, hscope, hlive⟩ := hfades.drains.entry u e' he'
      refine .inl ⟨e, he, hscope, fun hundone => .inl ?_⟩
      rw [← hlive (.inr hundone)]
      exact hundone
  · rename_i db hrun
    rw [hrun] at hkept
    exact hkept

theorem refines_startUndoCommit (input : UndoCommitInput) (now : Time) :
    Refines .free 0 (startUndoCommit input now) := by
  intro db
  unfold startUndoCommit
  rw [wp_bind]
  exact wp_mintId_core fun db₁ h₁ => wp_startUndoOperation _ now h₁ rfl rfl

/-- A committed entry was read before, so it is stored in the scope it was read with. -/
theorem Invariant.startCommit (h : Invariant own s) {input : UndoCommitInput} (now : Time)
    (hread : input.record ∈ s.records) (hadmitted : input.admitted = true)
    (hown : own → input.claims.sessionId = input.record.scope.sessionId) :
    Invariant own (s.startCommit input now) := by
  have hspec := wp_both (refines_startUndoCommit input now s.db)
    (wp_startUndoCommit_pairs input now)
  unfold UndoLedger.startCommit
  split
  · rename_i o db hrun
    obtain ⟨hsteps, rfl, e, he, havailable, hpairs⟩ := wp_ok hspec (ok_of_commit hrun)
    obtain ⟨hlt, hscope⟩ := h.read _ hread
    have hnew : s.db.nextId ∉ s.commits.map Prod.snd := by
      intro hmem
      obtain ⟨p, hp, heq⟩ := List.mem_map.mp hmem
      have hold := (h.commit_lt p hp).2
      rw [heq] at hold
      exact Nat.lt_irrefl _ hold
    have hunowned : s.db.undoPairs.owned s.db.nextId = false := by
      have hnone : s.db.operationResult s.db.nextId = none :=
        Db.operationResult_eq_none.mpr fun r z hz hz' =>
          Nat.lt_irrefl _ ((h.core.res_lt r z hz).2 _ hz')
      simp [Db.undoPairs, hnone]
    have hclaims : own → e.scope = input.reversal.scope := by
      intro hsession
      rw [hscope e he]
      simp only [UndoCommitInput.admitted, Bool.and_eq_true, beq_iff_eq] at hadmitted
      have hsame := hown hsession
      cases hr : input.record.scope
      cases hc : input.claims
      simp_all [UndoCommitInput.reversal]
    have haccord := h.accord.commit he havailable hnew hunowned rfl rfl rfl hclaims
    rw [← hpairs] at haccord
    refine h.advances ⟨⟨_, _, hsteps⟩, rfl, fun _ hp => List.mem_append_left _ hp, ?_,
      fun _ hr => .inl hr, ?_⟩ haccord
    · intro p hp
      rcases List.mem_append.mp hp with hold | hlast
      · exact .inl hold
      · refine .inr ?_
        rw [List.mem_singleton.mp hlast]
        refine ⟨hlt, ?_⟩
        have hstored : db.undoPairs.reversal s.db.nextId = some input.reversal := by
          rw [hpairs]
          exact reversal_setReversal_self _
        obtain ⟨row, hrow, -⟩ := Option.bind_eq_some_iff.mp hstored
        exact ((hsteps.inv h.core).op_lt _ _ (Db.core_op hrow)).1
    · intro u e' he'
      have he' : db.undoPairs.entry u = some e' := he'
      rw [hpairs] at he'
      have he' : (s.db.undoPairs.setEntry input.record.id
          (some { e with status := .executing })).entry u = some e' := he'
      by_cases heq : u = input.record.id
      · subst heq
        rw [entry_setEntry_self] at he'
        obtain rfl := Option.some.inj he'
        exact .inl ⟨e, he, rfl, by simp⟩
      · rw [entry_setEntry_of_ne _ heq] at he'
        exact .inl ⟨e', he', rfl, fun hundone => .inl hundone⟩
  · rename_i outcome db hmiss hrun
    cases hm : startUndoCommit input now s.db with
    | error e =>
      rw [commit_error hm] at hrun
      obtain rfl := congrArg Prod.snd hrun
      exact h.same
    | ok r =>
      obtain ⟨started, db'⟩ := r
      rw [commit_ok hm] at hrun
      obtain ⟨rfl, rfl⟩ := Prod.mk.inj hrun
      cases started with
      | some o => exact (hmiss o rfl).elim
      | none =>
        obtain ⟨hsteps, hpairs⟩ := wp_ok hspec hm
        have hpairs : db'.undoPairs = s.db.undoPairs := hpairs
        exact h.fades ⟨_, _, hsteps⟩ (hpairs ▸ Fades.refl _)

theorem Invariant.settle (h : Invariant own s) {id : UndoId} {operationId : OperationId}
    (hmem : (id, operationId) ∈ s.commits) (status : UndoOutcome) (remaining : Json)
    (receipt : Receipt) (now : Time) : Invariant own (s.advance
      ((settleUndoOperation id operationId status remaining receipt now).commit s.db).2) := by
  refine h.commit (wp_mono (wp_both (@refines_settleUndoOperation .free 0 id
    operationId status remaining receipt now trivial s.db)
    (wp_settleUndoOperation_pairs id operationId status remaining receipt now
      h.accord.unconfirmed)) (fun r db hdb => ?_) fun _ h => h)
  obtain ⟨hsteps, ⟨y, hy⟩, hpairs⟩ := hdb
  have hpair := h.accord.settlePair hmem r status.toKind
  have hidle : ∀ y', db.undoPairs.reversal operationId = some y' →
      y'.status = status.toKind.toOperation := by
    intro y' hy'
    rw [hpairs] at hy'
    obtain ⟨-, -, -, -, ⟨-, hstatus, -⟩ | ⟨hne, -⟩⟩ := reversal_settleReversal hy'
    · exact hstatus
    · exact absurd rfl hne
  have hended : ∃ row, db.operations.get? operationId = some row ∧
      row.status = status.toKind.toOperation := by
    have hstored : (db.undoPairs.reversal operationId).isSome := by
      rw [hpairs]
      show ((s.db.undoPairs.settleReversal operationId status.toKind.toOperation r).reversal
        operationId).isSome
      rw [settleReversal, reversal_setReversal_self, hy]
      rfl
    obtain ⟨y', hy'⟩ := Option.isSome_iff_exists.mp hstored
    obtain ⟨row, hrow, hrev⟩ := Option.bind_eq_some_iff.mp hy'
    refine ⟨row, hrow, ?_⟩
    rw [← hidle y' hy', (OperationRun.of_reversal hrev).2]
  have haccord : Accord own s.commits db.undoPairs := by
    rw [hpairs]
    refine hpair.record fun y' hy' => ?_
    rw [hidle y' (hpairs ▸ hy')]
    exact status.toKind.toOperation_ne_executing
  refine h.advances ⟨⟨_, _, hsteps⟩, rfl, fun _ hp => hp, fun _ hp => .inl hp,
    fun _ hr => .inl hr, ?_⟩ haccord
  intro u e' he'
  have he' : db.undoPairs.entry u = some e' := he'
  rw [hpairs] at he'
  obtain ⟨e, he, hscope, ⟨rfl, hstatus, -⟩ | ⟨-, rfl⟩⟩ := entry_settleEntry he'
  · refine .inl ⟨e, he, hscope, fun hundone => .inr ⟨operationId, hmem, ?_⟩⟩
    obtain ⟨row, hrow, hrowStatus⟩ := hended
    refine ⟨db, List.mem_cons_self, row, hrow, ?_⟩
    rw [hstatus] at hundone
    rw [hrowStatus]
    cases status <;> simp_all [UndoOutcome.toKind, ActionResultKind.toUndo,
      ActionResultKind.toOperation]
  · exact .inl ⟨e', he, rfl, fun hundone => .inl hundone⟩

theorem Invariant.step (h : Invariant own s) (step : UndoStep) (hown : own → step.OwnSession) :
    Invariant own (s.step step) := by
  cases step with
  | record scope reversal now => exact h.record scope reversal now
  | read id now => exact h.read_step id now
  | commit input now =>
    show Invariant own (if _ then _ else _)
    split
    · rename_i hcommit
      exact h.startCommit now hcommit.1 hcommit.2 hown
    · exact h
  | settle id operationId status remaining receipt now =>
    show Invariant own (if _ then _ else _)
    split
    · rename_i hmem
      exact h.settle hmem status remaining receipt now
    · exact h
  | expire now limit =>
    exact h.commit (wp_mono (wp_expireUndoRecords_pairs now limit)
      (fun _ db hdb => h.fades ⟨.free, 0, Steps.of_core_eq hdb.2⟩ hdb.1) fun _ h => h)
  | recover now =>
    exact h.commit (wp_mono (wp_both (@refines_recoverOrphanedRuns .free 0 now
      (fun _ _ _ _ _ => trivial) (fun _ _ _ _ _ => trivial) trivial s.db)
      (wp_recoverOrphanedRuns_pairs now h.core h.accord))
      (fun _ db hdb => h.drains ⟨_, _, hdb.1⟩ hdb.2) fun _ h => h)
  | other write => exact h.fades (write.moves s.db) (write.fades s.db h.core h.accord.unconfirmed)

theorem Invariant.empty : Invariant own UndoLedger.empty where
  core := by constructor <;> simp [UndoLedger.empty, Db.core, Db.empty, Core.claimed, Core.before]
  accord := {
    once := List.nodup_nil
    single := List.nodup_nil
    untaken := by simp [UndoLedger.empty, Db.undoPairs, Db.empty]
    unconfirmed := by simp [UndoLedger.empty, Db.undoPairs, Db.empty]
    committed := by simp [UndoLedger.empty, Db.undoPairs, Db.empty]
    agree := fun _ _ _ _ _ hmem => by cases hmem }
  entry_lt := by simp [UndoLedger.empty, Db.undoPairs, Db.empty]
  commit_lt := nofun
  read := nofun
  undone := by simp [UndoLedger.empty, Db.undoPairs, Db.empty]

theorem Invariant.doneAfterSuccess (h : Invariant own s) : s.DoneAfterSuccess :=
  fun id row hrow hundone => h.undone id row.entry (Db.undoPairs_entry hrow) hundone

theorem Invariant.agreesWithOperation (h : Invariant own s) (hown : own) :
    s.AgreesWithOperation := by
  intro id operationId undo operation hmem hundo hoperation hname hreversed
  have hy := (Db.undoPairs_reversal hoperation).trans (if_pos hname)
  rcases (h.accord.agree hown id operationId _ _ hmem (Db.undoPairs_entry hundo) hy).2 with
    ⟨hexec, -⟩ | ⟨kind, hstatus, hopStatus, hresult⟩
  · have hexec : undo.status = .executing := hexec
    rw [hexec] at hreversed
    cases hreversed
  · exact ⟨kind, hstatus, hopStatus, hresult⟩

end UndoLedger

open UndoLedger

theorem runUndoLedger_invariant {own : Prop} (steps : List UndoStep)
    (h : own → ∀ step ∈ steps, step.OwnSession) : Invariant own (runUndoLedger steps) := by
  induction steps using List.reverseRecOn with
  | nil => exact Invariant.empty
  | append_singleton rest step ih =>
    have hrest := ih fun hown step' hmem => h hown step' (List.mem_append_left _ hmem)
    unfold runUndoLedger
    rw [List.foldl_append]
    exact hrest.step step fun hown => h hown step (by simp)

/-- In every state of every run an entry has been executed at most once and is done only
after its operation succeeded; where every entry was committed in the session that
recorded it, a terminal entry also agrees with its operation. -/
theorem undo_ledger (steps : List UndoStep) :
    (runUndoLedger steps).ExecutesOnce ∧ (runUndoLedger steps).DoneAfterSuccess ∧
      ((∀ step ∈ steps, step.OwnSession) → (runUndoLedger steps).Sound) := by
  have hany : Invariant False (runUndoLedger steps) := runUndoLedger_invariant steps False.elim
  refine ⟨hany.accord.once, hany.doneAfterSuccess, fun hown => ?_⟩
  have hsame : Invariant True (runUndoLedger steps) := runUndoLedger_invariant steps fun _ => hown
  exact ⟨hsame.accord.once, hsame.doneAfterSuccess, hsame.agreesWithOperation trivial⟩

/-- An entry recorded in session 1 and committed in the given session. -/
def recordedAndCommitted (sessionId : SessionId) : List UndoStep :=
  let record : UndoRecord := {
    id := 0, scope := ⟨1, 1, 1⟩, status := .available, reversal := some 5, remaining := some 5
    createdAt := 0, expiresAt := undoTtlMs, undoneAt := none, actionResultId := none }
  let plan : ExternalMutationPlan := ⟨.single, 1, [{ id := "undo", kind := .primary }]⟩
  [.record ⟨1, 1, 1⟩ 5 0, .read 0 1, .commit ⟨⟨sessionId, 1, 1⟩, record, 0, 0, 0, plan⟩ 2]

theorem undo_ledger_settled : (runUndoLedger (recordedAndCommitted 1 ++
      [.settle 0 1 .undone 0 (.success { action := "undo", content := 0 }) 3])).Sound := by
  refine (undo_ledger _).2.2 fun step hstep => ?_
  rcases List.mem_append.mp hstep with hcommit | hsettle
  · simp only [recordedAndCommitted, List.mem_cons, List.not_mem_nil, or_false] at hcommit
    rcases hcommit with rfl | rfl | rfl
    · trivial
    · trivial
    · rfl
  · rw [List.mem_singleton.mp hsettle]
    trivial

/-- The server restarts after an entry was committed in another session of its admin. -/
def committedElsewhere : List UndoStep := recordedAndCommitted 2 ++ [.recover 3]

/-- The operation never reached the host and has failed; its entry ends unknown. -/
theorem not_undo_ledger_sound : ¬∀ steps, (runUndoLedger steps).Sound := by
  intro h
  have hundo : ((runUndoLedger committedElsewhere).db.undos.get? 0).map UndoRecord.status =
      some .outcomeUnknown := by decide +kernel
  have hoperation : ((runUndoLedger committedElsewhere).db.operations.get? 1).map
      (fun o => (o.actionName, o.status)) = some ("undo", .definitiveFailed) := by decide +kernel
  have hmem : (0, 1) ∈ (runUndoLedger committedElsewhere).commits := by decide +kernel
  obtain ⟨undo, hrow, hstatus⟩ := Option.map_eq_some_iff.mp hundo
  obtain ⟨operation, hoprow, heq⟩ := Option.map_eq_some_iff.mp hoperation
  obtain ⟨hname, hopStatus⟩ := Prod.mk.inj heq
  obtain ⟨kind, hkind, hopKind, -⟩ := (h committedElsewhere).agrees 0 1 undo operation hmem hrow
    hoprow hname (by rw [hstatus]; rfl)
  rw [hstatus] at hkind
  rw [hopStatus] at hopKind
  cases kind <;> simp [ActionResultKind.toUndo, ActionResultKind.toOperation] at hkind hopKind

end ClockifyAssistant
