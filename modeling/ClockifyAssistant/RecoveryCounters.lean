import ClockifyAssistant.RecoveryConvergence
import ClockifyAssistant.RunRows

/-!
The counters of startup recovery. Every statement of a pass reports what it takes
out of flight, so the counters add up to what was in flight before. The ambiguous
count, though, follows the dispatched steps and the undos without an operation,
and not the status that an operation ends in.
-/
namespace ClockifyAssistant

open Lib Txn

def OperationRun.inFlight (o : OperationRun) : Bool := o.status == .executing

def PendingConfirmation.inFlight (c : PendingConfirmation) : Bool := c.status == .executing

def UndoRecord.inFlight (u : UndoRecord) : Bool := u.status == .executing

def UndoRecord.recovered (u : UndoRecord) : Bool :=
  u.status == .outcomeUnknown || u.status == .failed

/-- Each counter is the number of rows that the pass moved out of flight, to the
status its statements write. -/
structure CountersLaw (db db' : Db) (s : RecoverySummary) : Prop where
  turns : s.turns = Table.moved TurnRun.stranded (fun t => t.status == .outcomeUnknown)
    db.turns db'.turns
  operations : s.operations = Table.moved OperationRun.inFlight (fun o => o.status.terminal)
    db.operations db'.operations
  confirmations : s.confirmations = Table.moved PendingConfirmation.inFlight
    (fun c => c.status.settled) db.confirmations db'.confirmations
  undos : s.undos = Table.moved UndoRecord.inFlight UndoRecord.recovered db.undos db'.undos
  assistantRuns : s.assistantRuns = Table.moved (fun r : AssistantRun => r.phase.active)
    (fun r => r.phase == .failed) db.runs db'.runs
  ambiguousSteps : s.ambiguousSteps = Table.moved (fun p : OperationStep => p.status == .executing)
    (fun p => p.status == .outcomeUnknown) db.steps db'.steps
  ambiguousOperations : s.ambiguousOperations = Table.moved OperationRun.inFlight
    (fun o => o.status == .outcomeUnknown) db.operations db'.operations

/-- No operation in flight is this undo's own, but for one that is recovered before it
with its confirmation. -/
def Db.standsAlone (db : Db) (u : UndoRecord) : Bool :=
  !db.operations.rows.any fun o =>
    o.reverses u && !db.executingConfirmations.any fun c => c.operationId == o.id

def Db.resultKind (db : Db) (id : OperationId) : Option ActionResultKind :=
  (db.operationResult id).map ActionResult.kind

/-- Operations whose result already says unknown, without evidence of dispatch: as many
as dispatched operations whose result says otherwise, and undos that stand alone. -/
def Db.CountsAlike (db : Db) : Prop :=
  (db.operations.rows.countP fun o => o.inFlight && (!db.operationWasDispatched o.id &&
      (db.resultKind o.id).any (· == .outcomeUnknown))) =
    (db.operations.rows.countP fun o => o.inFlight && (db.operationWasDispatched o.id &&
      (db.resultKind o.id).any (· != .outcomeUnknown))) +
    db.undos.rows.countP fun u => u.inFlight && db.standsAlone u

section Tallies

variable {w : Nat} {db db' db'' : Db} {ops ops' : List OperationId} {undos undos' : List UndoId}
  {s s' : RecoverySummary}

def Db.dispatchedInFlight (db : Db) : Nat :=
  db.operations.rows.countP fun o => o.inFlight && db.operationWasDispatched o.id

def Db.undosInFlight (db : Db) : Nat := db.undos.rows.countP UndoRecord.inFlight

/-- What is in flight; an undo weighs `w` in the ambiguous count. -/
def Db.inFlight (w : Nat) (db : Db) : RecoverySummary where
  operations := db.operations.rows.countP OperationRun.inFlight
  confirmations := db.confirmations.rows.countP PendingConfirmation.inFlight
  undos := db.undosInFlight
  ambiguousOperations := db.dispatchedInFlight + w * db.undosInFlight

/-- A new result of an operation has the kind that its dispatch evidence gives. -/
def Answers (db db' : Db) : Prop :=
  ∀ id, db'.operationResult id = db.operationResult id ∨
    db.operationResult id = none ∧ db'.resultKind id = some (db.recoveryKind id)

/-- `s` is what left flight, at the operations `ops` and the undos `undos`. -/
structure Tallied (w : Nat) (ops : List OperationId) (undos : List UndoId) (db db' : Db)
    (s : RecoverySummary) : Prop where
  tally : db.inFlight w = s + db'.inFlight w
  runs : db'.runs = db.runs
  turns : db'.turns = db.turns
  steps : db'.steps = db.steps
  operations : Table.Clears OperationRun.inFlight ops db.operations db'.operations
  undos : Table.Clears UndoRecord.inFlight undos db.undos db'.undos
  undone : ∀ id u, db.undos.get? id = some u →
    ∃ u', db'.undos.get? id = some u' ∧ (u' = u ∨ u'.recovered = true)
  answers : Answers db db'

theorem Db.recoveryKind_congr (h : db'.steps = db.steps) (id : OperationId) :
    db'.recoveryKind id = db.recoveryKind id := by
  unfold Db.recoveryKind Db.operationWasDispatched
  rw [h]

theorem Answers.trans (h : Answers db db') (h' : Answers db' db'') (hsteps : db'.steps = db.steps) :
    Answers db db'' := by
  intro id
  rcases h' id with heq' | ⟨hnone', hkind'⟩
  · rw [Db.resultKind, heq']
    exact h id
  · rw [Db.recoveryKind_congr hsteps] at hkind'
    rcases h id with heq | ⟨-, hkind⟩
    · exact .inr ⟨heq.symm.trans hnone', hkind'⟩
    · simp [Db.resultKind, hnone'] at hkind

theorem Tallied.trans (h : Tallied w ops undos db db' s) (h' : Tallied w ops' undos' db' db'' s') :
    Tallied w (ops ++ ops') (undos ++ undos') db db'' (s + s') where
  tally := by rw [h.tally, h'.tally, add_assoc]
  runs := h'.runs.trans h.runs
  turns := h'.turns.trans h.turns
  steps := h'.steps.trans h.steps
  operations := h.operations.trans h'.operations
  undos := h.undos.trans h'.undos
  undone := by
    intro id u hu
    obtain ⟨u', hu', hkept⟩ := h.undone id u hu
    obtain ⟨u'', hu'', hkept'⟩ := h'.undone id u' hu'
    refine ⟨u'', hu'', ?_⟩
    rcases hkept' with rfl | hrecovered
    · exact hkept
    · exact .inr hrecovered
  answers := h.answers.trans h'.answers h.steps

theorem AddsResults.tallied (h : AddsResults db db') (hanswers : Answers db db') :
    Tallied w [] [] db db' 0 where
  tally := by
    simp only [Db.inFlight, Db.dispatchedInFlight, Db.undosInFlight, Db.operationWasDispatched,
      h.operations, h.confirmations, h.undos, h.steps, zero_add]
  runs := h.runs
  turns := h.turns
  steps := h.steps
  operations := .of_eq h.operations
  undos := .of_eq h.undos
  undone := fun id u hu => ⟨u, h.undos ▸ hu, .inl rfl⟩
  answers := hanswers

theorem insertRecoveryResult_answers {operationId : Option OperationId} {scope : SessionScope}
    {actionName : String} {kind : ActionResultKind} {now : Time}
    (h : ∀ id, operationId = some id → kind = db.recoveryKind id) :
    wp (insertRecoveryResult operationId scope actionName kind now)
      (fun _ db' => AddsResults db db' ∧ Answers db db') (fun _ => True) db := by
  simp only [insertRecoveryResult, mintId, wp_bind, wp_get, wp_set, wp_pure]
  refine wp_insertActionResult (fun hfresh hunique => ⟨?_, fun id => ?_⟩) fun _ => trivial
  · refine ⟨rfl, rfl, rfl, rfl, rfl, rfl, rfl, rfl, fun hr => ?_⟩
    rw [Db.operationResult_insert]
    exact Option.or_eq_some_iff.mpr (.inl hr)
  · rw [Db.resultKind, Db.operationResult_insert]
    by_cases hid : operationId = some id
    · refine .inr ⟨hunique id hid, ?_⟩
      rw [hunique id hid, if_pos hid, Option.none_or, Option.map_some, h id hid]
    · rw [if_neg hid, Option.or_none]
      exact .inl rfl

theorem recoveredResult_answers (operationId : OperationId) (scope : SessionScope)
    (actionName : String) (now : Time) (db : Db) :
    wp (recoveredResult operationId scope actionName (db.recoveryKind operationId) now)
      (fun _ db' => AddsResults db db' ∧ Answers db db') (fun _ => True) db := by
  unfold recoveredResult
  rw [wp_bind, wp_get]
  cases db.operationResult operationId with
  | some r => exact ⟨.refl db, fun _ => .inl rfl⟩
  | none => exact insertRecoveryResult_answers fun id hid => Option.some.inj hid ▸ rfl

/-- Settling one operation in flight takes it out of the counts it is in. -/
theorem countP_settled {t : Table OperationRun} {id : OperationId} {f : OperationRun → OperationRun}
    (hf : ∀ o, key (f o) = key o) (d : OperationId → Bool)
    (hany : (t.get? id).any OperationRun.inFlight = true) (hout : ∀ o, (f o).inFlight = false) :
    t.rows.countP (fun o => o.inFlight && d o.id) =
      (d id).toNat + (t.update id f hf).rows.countP fun o => o.inFlight && d o.id := by
  obtain ⟨o, ho, hlive⟩ := (Option.any_eq_true _ _).mp hany
  have hid : o.id = id := Table.key_of_get? ho
  cases hd : d id with
  | true =>
    rw [Bool.toNat_true, Nat.add_comm]
    exact Table.countP_update hf (by simp [ho, hid, hd, hlive]) (by simp [hout])
  | false =>
    rw [Bool.toNat_false, Nat.zero_add]
    refine Table.countP_of_get? fun k => ?_
    rw [Table.get?_update]
    by_cases hk : k = id
    · simp [hk, ho, hid, hd, hout]
    · rw [if_neg hk]

theorem RecoverySummary.add_def (a b : RecoverySummary) : a + b = {
    turns := a.turns + b.turns
    operations := a.operations + b.operations
    confirmations := a.confirmations + b.confirmations
    undos := a.undos + b.undos
    assistantRuns := a.assistantRuns + b.assistantRuns
    ambiguousSteps := a.ambiguousSteps + b.ambiguousSteps
    ambiguousOperations := a.ambiguousOperations + b.ambiguousOperations } := rfl

theorem settledOperation_eq (settled : Bool) (id : OperationId) :
    settledOperation settled (db.recoveryKind id) = {
      operations := settled.toNat
      ambiguousOperations := (settled && db.operationWasDispatched id).toNat } := by
  unfold settledOperation Db.recoveryKind
  cases db.operationWasDispatched id <;> cases settled <;> rfl

theorem settleRecoveredOperation_tallied (id : OperationId) (ref : ActionResultRef) (now : Time)
    (db : Db) :
    wp (settleRecoveredOperation id ref now) (fun settled db' => Tallied 0 [id] [] db db'
      (settledOperation settled (db.recoveryKind id))) (fun _ => True) db := by
  unfold settleRecoveredOperation
  rw [wp_updateOperationStatus]
  split
  · next hany =>
      have hout (o : OperationRun) :
          (o.withStatus ref.kind.toOperation (some ref.id) now).inFlight = false := by
        simp [OperationRun.inFlight]
      have hcount := fun d => countP_settled (fun o => o.key_withStatus _ _ now) d hany hout
      refine {
        tally := ?_
        runs := rfl
        turns := rfl
        steps := rfl
        operations := Table.clears_update (fun o => o.key_withStatus _ _ now) hout
        undos := .of_eq rfl
        undone := fun _ u hu => ⟨u, hu, .inl rfl⟩
        answers := fun _ => .inl rfl }
      have hall := hcount fun _ => true
      simp only [Bool.and_true, Bool.toNat_true] at hall
      rw [settledOperation_eq]
      ext <;> simp only [RecoverySummary.add_def, Db.inFlight, Nat.zero_add, Nat.zero_mul,
        Nat.add_zero]
      · exact hall
      · rfl
      · exact hcount db.operationWasDispatched
  · next hany =>
      have hsame : Tallied 0 [] [] db db 0 := (AddsResults.refl db).tallied fun _ => .inl rfl
      exact { hsame with
        tally := by
          rw [settledOperation_eq]
          ext <;> exact (Nat.zero_add _).symm
        operations := ⟨fun _ _ => rfl, fun k hk => by
          rw [List.mem_singleton.mp hk]
          exact Bool.eq_false_iff.mpr hany⟩ }

theorem settleRecoveredUndo_tallied (w : Nat) (id : UndoId) {status : UndoStatus}
    (ref : ActionResultRef) (now : Time)
    (hstatus : status = .outcomeUnknown ∨ status = .failed) (db : Db) :
    wp (settleRecoveredUndo id status ref now) (fun settled db' => Tallied w [] [id] db db'
      { undos := settled.toNat, ambiguousOperations := w * settled.toNat })
      (fun _ => True) db := by
  unfold settleRecoveredUndo updateUndo
  rw [wp_bind, wp_get]
  have hsame : Tallied w [] [] db db 0 := (AddsResults.refl db).tallied fun _ => .inl rfl
  split
  · next hany =>
      exact { hsame with
        tally := by ext <;> exact (Nat.zero_add _).symm
        undos := ⟨fun _ _ => rfl, fun k hk => by
          rw [List.mem_singleton.mp hk]
          exact (Bool.not_eq_true' _).mp hany⟩ }
  · next hany =>
      have hlive : ((db.undos.get? id).any fun u => u.status == .executing) = true := by
        simpa using hany
      let settle (u : UndoRecord) : UndoRecord := { u with
        status, actionResultId := some ref.id, undoneAt := some now }
      have hout (u : UndoRecord) : (settle u).inFlight = false ∧ (settle u).recovered = true := by
        rcases hstatus with rfl | rfl <;> exact ⟨rfl, rfl⟩
      have hcount : db.undosInFlight =
          (db.undos.update id settle fun _ => rfl).rows.countP UndoRecord.inFlight + 1 :=
        Table.countP_update _ hlive fun u => (hout u).1
      refine { hsame with
        tally := ?_
        undos := Table.clears_update (p := UndoRecord.inFlight) (f := settle) (fun _ => rfl) fun u => (hout u).1
        undone := fun k u hu => ?_ }
      · ext <;> simp only [RecoverySummary.add_def, Db.inFlight, Nat.zero_add, Bool.toNat_true]
        · exact hcount.trans (Nat.add_comm _ _)
        · rw [hcount, Nat.mul_add, Nat.mul_one, ← Nat.add_assoc, Nat.add_comm]
          rfl
      · by_cases hk : k = id
        · subst hk
          exact ⟨settle u, by simp [settle, hu], .inr (hout u).2⟩
        · exact ⟨u, by simp [hk, hu], .inl rfl⟩

theorem fillRecoveredClaim_tallied (row : PendingConfirmation) (ref : ActionResultRef) (now : Time)
    (db : Db) : wp (fillRecoveredClaim row ref now) (fun _ db' => Tallied 0 [] [] db db' 0)
      (fun _ => True) db := by
  have hresults : wp (fillRecoveredClaim row ref now) (fun _ db' => db'.results = db.results)
      (fun _ => True) db := by
    unfold fillRecoveredClaim
    cases row.idempotencyKey with
    | none => rfl
    | some ledgerKey =>
      simp only [fillOpenClaim, wp_bind, wp_get]
      split <;> rfl
  refine wp_weaken (wp_both (fillRecoveredClaim_adds row ref now db) hresults) fun _ _ h => ?_
  exact h.1.tallied fun id => .inl (by simp only [Db.operationResult, h.2])

/-- The patch takes one confirmation out of flight and no operation, whose envelope it
may scrub. -/
theorem Tallied.patched {row : PendingConfirmation} {patch : ConfirmationPatch}
    (hrow : db.confirmations.get? row.id = some row) (hexec : row.status = .executing)
    (hpatch : patch.status ≠ .executing)
    (h : Tallied 0 [row.operationId] [] (db.patchConfirmation row patch) db' s) :
    Tallied 0 [row.operationId] [] db db' (s + { confirmations := 1 }) := by
  have hget : ∀ k, (db.patchConfirmation row patch).operations.get? k =
      (db.operations.get? k).map fun o =>
        if settlesDispatched row (patch.apply row) ∧ k = row.operationId then
          { o with envelope := none } else o := by
    intro k
    unfold Db.patchConfirmation
    by_cases hsettles : settlesDispatched row (patch.apply row) <;>
      by_cases hk : k = row.operationId <;> simp [hsettles, hk]
  have hcount : ∀ d : OperationId → Bool,
      db.operations.rows.countP (fun o => o.inFlight && d o.id) =
        (db.patchConfirmation row patch).operations.rows.countP fun o => o.inFlight && d o.id := by
    intro d
    refine Table.countP_of_get? fun k => ?_
    rw [hget, Option.any_map]
    refine congrArg (Option.any · _) (funext fun o => ?_)
    split <;> rfl
  have hconfirmations : db.confirmations.rows.countP PendingConfirmation.inFlight =
      (db.patchConfirmation row patch).confirmations.rows.countP PendingConfirmation.inFlight + 1 :=
    Table.countP_update patch.key_apply (by simp [hrow, PendingConfirmation.inFlight, hexec])
      fun c => by simpa [PendingConfirmation.inFlight, ConfirmationPatch.apply] using hpatch
  have htally : db.inFlight 0 =
      { confirmations := 1 } + (db.patchConfirmation row patch).inFlight 0 := by
    have hall := hcount fun _ => true
    simp only [Bool.and_true] at hall
    ext <;> simp only [RecoverySummary.add_def, Db.inFlight, Nat.zero_add, Nat.zero_mul,
      Nat.add_zero]
    · exact hall
    · exact hconfirmations.trans (Nat.add_comm _ _)
    · rfl
    · exact hcount db.operationWasDispatched
  exact { h with
    tally := by rw [htally, h.tally, ← add_assoc, add_comm s]
    operations := ⟨fun k hk => by
      rw [h.operations.kept k hk, hget]
      simp [show k ≠ row.operationId by simpa using hk], h.operations.cleared⟩ }

theorem recoverConfirmation_tallied {row : PendingConfirmation} (now : Time)
    (hrow : db.confirmations.get? row.id = some row) (hexec : row.status = .executing) :
    wp (recoverConfirmation now row) (fun s db' => Tallied 0 [row.operationId] [] db db' s)
      (fun _ => True) db := by
  unfold recoverConfirmation
  rw [wp_bind, wp_get]
  refine wp_seq (recoveredResult_answers _ _ _ now db) fun ref db₁ ⟨hadds, hanswers⟩ => ?_
  have hrow₁ : db₁.confirmations.get? row.id = some row := hadds.confirmations ▸ hrow
  rw [wp_bind, updateConfirmationStatus_direct
    (show (db₁.confirmations.get? row.id).filter _ = some row by simp [hrow₁, hexec])
    (by simp [preDispatch, hexec]) (by simp [ActionResultRef.patch])]
  refine wp_seq (settleRecoveredOperation_tallied row.operationId ref now _)
    fun settled db₂ h₂ => ?_
  rw [show (db₁.patchConfirmation row ref.patch).recoveryKind row.operationId =
    db.recoveryKind row.operationId from Db.recoveryKind_congr hadds.steps _] at h₂
  refine wp_seq (fillRecoveredClaim_tallied row ref now db₂) fun _ db₃ h₃ => ?_
  have hpatched := h₂.patched hrow₁ hexec (by simp [ActionResultRef.patch])
  simpa using ((hadds.tallied hanswers).trans hpatched).trans h₃

theorem recoverOperation_tallied (now : Time) (row : OperationRun) (db : Db) :
    wp (recoverOperation now row) (fun s db' => Tallied 0 [row.id] [] db db' s)
      (fun _ => True) db := by
  unfold recoverOperation
  rw [wp_bind, wp_get]
  refine wp_seq (recoveredResult_answers _ _ _ now db) fun ref db₁ ⟨hadds, hanswers⟩ => ?_
  refine wp_seq (settleRecoveredOperation_tallied row.id ref now db₁) fun settled db₂ h₂ => ?_
  rw [Db.recoveryKind_congr hadds.steps] at h₂
  simpa using (hadds.tallied hanswers).trans h₂

theorem recoverLinkedUndo_tallied (now : Time) (row : LinkedUndo) (db : Db) :
    wp (recoverLinkedUndo now row)
      (fun s db' => Tallied 0 [row.operation.id] [row.undo.id] db db' s) (fun _ => True) db := by
  unfold recoverLinkedUndo
  rw [wp_bind, wp_get]
  refine wp_seq (recoveredResult_answers _ _ _ now db) fun ref db₁ ⟨hadds, hanswers⟩ => ?_
  refine wp_seq (settleRecoveredOperation_tallied row.operation.id ref now db₁)
    fun settled db₂ h₂ => ?_
  rw [Db.recoveryKind_congr hadds.steps] at h₂
  refine wp_seq (settleRecoveredUndo_tallied 0 row.undo.id ref now (by split <;> simp) db₂)
    fun undone db₃ h₃ => ?_
  simpa using ((hadds.tallied hanswers).trans h₂).trans h₃

theorem recoverUndo_tallied (now : Time) (row : UndoRecord) (db : Db) :
    wp (recoverUndo now row) (fun s db' => Tallied 1 [] [row.id] db db' s) (fun _ => True) db := by
  unfold recoverUndo
  refine wp_seq (insertRecoveryResult_answers (by simp)) fun ref db₁ ⟨hadds, hanswers⟩ => ?_
  refine wp_seq (settleRecoveredUndo_tallied 1 row.id ref now (.inl rfl) db₁)
    fun undone db₂ h₂ => ?_
  simpa using (hadds.tallied hanswers).trans h₂

theorem sumRecovered_tallied {ι : Type} {recover : ι → StoreTxn RecoverySummary}
    {f : ι → List OperationId} {g : ι → List UndoId}
    (h : ∀ x db, wp (recover x) (fun s db' => Tallied w (f x) (g x) db db' s) (fun _ => True) db)
    (xs : List ι) (db : Db) : wp (sumRecovered recover xs)
      (fun s db' => Tallied w (xs.flatMap f) (xs.flatMap g) db db' s) (fun _ => True) db := by
  refine wp_sumRecovered_counted
    (fun done db' s => Tallied w (done.flatMap f) (done.flatMap g) db db' s) xs
    (fun done x _ _ db₁ acc hdone => ?_) db ((AddsResults.refl db).tallied fun _ => .inl rfl)
  refine wp_weaken (h x db₁) fun s db₂ hx => ?_
  simpa using hdone.trans hx

theorem recoverConfirmations_tallied (now : Time) (db : Db) :
    wp (sumRecovered (recoverConfirmation now) db.executingConfirmations)
      (fun s db' => Tallied 0 (db.executingConfirmations.map PendingConfirmation.operationId) []
        db db' s) (fun _ => True) db := by
  refine wp_recoverConfirmations
    (fun done db' s => Tallied 0 (done.map PendingConfirmation.operationId) [] db db' s) now db
    (fun done row db₁ acc _ hdone hget hexec => ?_)
    ((AddsResults.refl db).tallied fun _ => .inl rfl)
  refine wp_weaken (recoverConfirmation_tallied now hget hexec) fun s db₂ hrow => ?_
  simpa using hdone.trans hrow

theorem Tallied.counts (h : Tallied w ops undos db db' s) :
    db.operations.rows.countP OperationRun.inFlight =
      s.operations + db'.operations.rows.countP OperationRun.inFlight ∧
    db.confirmations.rows.countP PendingConfirmation.inFlight =
      s.confirmations + db'.confirmations.rows.countP PendingConfirmation.inFlight ∧
    db.undosInFlight = s.undos + db'.undosInFlight ∧ db.dispatchedInFlight + w * db.undosInFlight =
      s.ambiguousOperations + (db'.dispatchedInFlight + w * db'.undosInFlight) ∧
    0 = s.turns ∧ 0 = s.assistantRuns ∧ 0 = s.ambiguousSteps :=
  ⟨congrArg RecoverySummary.operations h.tally, congrArg RecoverySummary.confirmations h.tally,
    congrArg RecoverySummary.undos h.tally, congrArg RecoverySummary.ambiguousOperations h.tally,
    congrArg RecoverySummary.turns h.tally, congrArg RecoverySummary.assistantRuns h.tally,
    congrArg RecoverySummary.ambiguousSteps h.tally⟩

/-- After the confirmations, the undos that have an operation in flight are those that
do not stand alone. -/
theorem mem_linkedUndos (h : Tallied 0 (db.executingConfirmations.map
    PendingConfirmation.operationId) [] db db' s) {u : UndoRecord} (hu : u ∈ db.undos.rows)
    (hlive : u.inFlight = true) :
    u.id ∈ db'.linkedUndos.flatMap (fun x => [x.undo.id]) ↔ db.standsAlone u = false := by
  have hop : ∀ o : OperationRun, o.reverses u = true → (o ∈ db'.operations.rows ↔
      o ∈ db.operations.rows ∧ ∀ c ∈ db.executingConfirmations, c.operationId ≠ o.id) := by
    intro o hrev
    have hinflight : o.inFlight = true := by
      simp only [OperationRun.reverses, Bool.and_eq_true] at hrev
      exact hrev.1.2
    rw [h.operations.mem_iff hinflight]
    refine and_congr_right fun _ => ?_
    rw [List.mem_map, not_exists]
    exact forall_congr' fun c => not_and
  have halone : db.standsAlone u = false ↔ ∃ o ∈ db'.operations.rows, o.reverses u = true := by
    simp only [Db.standsAlone, Bool.not_eq_false', List.any_eq_true, Bool.and_eq_true,
      Bool.not_eq_true', List.any_eq_false, beq_iff_eq]
    refine exists_congr fun o => ?_
    rw [and_left_comm, and_comm (a := o ∈ db'.operations.rows)]
    exact and_congr_right fun hrev => (hop o hrev).symm
  rw [halone]
  simp only [Db.linkedUndos, List.mem_flatMap, List.mem_map, List.mem_filter, List.mem_singleton]
  constructor
  · rintro ⟨_, ⟨u', ⟨hu', hexec⟩, o, ⟨ho, hrev⟩, rfl⟩, hid⟩
    have hmem := ((h.undos.mem_iff hexec).mp hu').1
    have hsame : some u' = some u := (Table.get?_of_mem hmem).symm.trans
      ((congrArg db.undos.get? hid.symm).trans (Table.get?_of_mem hu))
    exact ⟨o, ho, Option.some.inj hsame ▸ hrev⟩
  · rintro ⟨o, ho, hrev⟩
    have hmem := (h.undos.mem_iff hlive).mpr ⟨hu, List.not_mem_nil⟩
    exact ⟨⟨u, o⟩, ⟨u, ⟨hmem, hlive⟩, o, ⟨ho, hrev⟩, rfl⟩, rfl⟩

theorem sameAside_updateItem (batchId : BatchId) (k : Nat) (p : ConfirmationBatchItem → Bool)
    (status : ConfirmationBatchItemStatus) (patch : ItemPatch) :
    Within SameAside (updateConfirmationBatchItemStatus batchId k p status patch) := by
  refine within_get_bind fun db => ?_
  split
  · rfl
  · rw [wp_bind, wp_require]
    exact ⟨fun _ => rfl, fun _ => trivial⟩

theorem sameAside_abandonBatch (batchId : BatchId) (items : List ConfirmationBatchItem) (k : Nat)
    (now : Time) : Within SameAside (abandonBatch batchId items k now) := by
  refine sameAside_frame.bind (sameAside_frame.updateBatch _ _ _ _) fun _ => ?_
  refine within_forM SameAside.refl SameAside.trans _ fun item _ => ?_
  refine sameAside_frame.bind (sameAside_updateItem _ _ _ _ _) fun _ => ?_
  exact sameAside_frame.bind (sameAside_frame.updateConfirmationStatus _ _ nofun) fun _ =>
    within_pure SameAside.refl _

theorem sameAside_recoverExecutingItems (batchId : BatchId) (items : List ConfirmationBatchItem)
    (now : Time) (rest : List ConfirmationBatchItem) :
    Within SameAside (recoverExecutingItems batchId items now rest) := by
  induction rest with
  | nil => exact within_pure SameAside.refl _
  | cons item rest ih =>
    refine within_get_bind fun db => ?_
    split
    · exact sameAside_abandonBatch batchId items item.itemIndex now db
    · refine sameAside_frame.bind (sameAside_frame.bind sameAside_frame.mintId fun _ => ?_) (fun _ => ih) db
      refine sameAside_frame.bind (sameAside_frame.result _) fun _ => ?_
      refine sameAside_frame.bind (sameAside_updateItem _ _ _ _ _) fun _ => ?_
      refine sameAside_frame.bind (sameAside_frame.updateConfirmationStatus _ _ nofun) fun _ => ?_
      exact sameAside_frame.bind (sameAside_frame.updateOperationStatus _ _ _ _ _) fun _ =>
        within_pure SameAside.refl _

theorem sameAside_recoverConfirmationBatch (batchId : BatchId) (now : Time) :
    Within SameAside (recoverConfirmationBatch batchId now) := by
  refine within_get_bind fun db => ?_
  split
  · rfl
  · dsimp only
    split
    · split
      · rfl
      · exact sameAside_frame.bind (sameAside_frame.updateBatch _ _ _ _) (fun _ => within_pure SameAside.refl _)
          db
    · exact sameAside_recoverExecutingItems batchId _ now _ db

/-- The last phase ends the active runs and, of the turns, only those not yet settled. -/
theorem recoverAssistantRuns_counts (now : Time) (db : Db) : wp (recoverAssistantRuns now)
      (fun s db' => s = { assistantRuns := db.runs.rows.countP fun r => r.phase.active } ∧
        db'.runs = db.failedRuns now ∧ db'.undos = db.undos ∧
        ∀ id t, db.turns.get? id = some t → t.status = .outcomeUnknown →
          db'.turns.get? id = some t) (fun _ => True) db := by
  unfold recoverAssistantRuns
  rw [wp_bind, wp_get]
  refine wp_seq (within_forM AddsResults.refl AddsResults.trans _ (fun run _ db₁ => ?_) db)
    fun _ db₁ hadds => ?_
  · exact wp_seq (allocateAndInsertEvent_adds _ _ _ _ db₁) fun _ _ h => h
  rw [wp_bind, wp_get]
  refine ⟨by rw [hadds.runs], by simp only [Db.failedRuns, hadds.runs], hadds.undos, fun id t ht hstatus => ?_⟩
  rw [← hadds.turns] at ht
  dsimp only
  split
  · simp [failTurns, ht, hstatus]
  · exact ht

end Tallies

section Pass

variable {db : Db} {now : Time}

/-- Whether recovery ends an operation in flight as unknown: its result decides, and
without one the evidence of dispatch. -/
def Db.endsUnknown (db : Db) (id : OperationId) : Bool :=
  match db.resultKind id with
  | some kind => kind == .outcomeUnknown
  | none => db.operationWasDispatched id

theorem Answers.endsUnknown {db' : Db} {id : OperationId} {r : ActionResult}
    (h : Answers db db') (hr : db'.operationResult id = some r) :
    (r.kind == .outcomeUnknown) = db.endsUnknown id := by
  unfold Db.endsUnknown
  rcases h id with heq | ⟨hnone, hkind⟩
  · simp [Db.resultKind, ← heq, hr]
  · have hrecovered : r.kind = db.recoveryKind id := by simpa [Db.resultKind, hr] using hkind
    simp only [Db.resultKind, hnone, Option.map_none, hrecovered, Db.recoveryKind]
    cases db.operationWasDispatched id <;> rfl

theorem any_recoveredSteps (q : OperationStep → Bool) (h : ∀ p status settledAt,
    q { p with status, settledAt } = q p) (steps : Table OperationStep) (now : Time) :
    (recoveredSteps steps now).rows.any q = steps.rows.any q := by
  have hone : ∀ (t : Table OperationStep) (p : OperationStep → Bool)
      (f : OperationStep → OperationStep) (hf : ∀ r, key (f r) = key r),
      (∀ r, q (f r) = q r) → (t.updateWhere p f hf).rows.any q = t.rows.any q := by
    intro t p f hf hq
    simp only [Table.updateWhere, List.any_map]
    refine congrArg t.rows.any (funext fun r => ?_)
    rw [Function.comp_apply]
    split
    · exact hq r
    · rfl
  unfold recoveredSteps failUndispatchedSteps
  rw [hone _ _ _ _ fun r => h r _ _, hone _ _ _ _ fun r => h r _ _, hone _ _ _ _ fun r => h r _ _]

theorem Db.operationWasDispatched_recovered (turns : Table TurnRun) (id : OperationId) :
    { db with turns, steps := recoveredSteps db.steps now }.operationWasDispatched id =
      db.operationWasDispatched id :=
  any_recoveredSteps (fun p => p.operationId == id && p.dispatchedAt.isSome) (fun _ _ _ => rfl) _ _

theorem moved_recoveredSteps (steps : Table OperationStep) (now : Time) :
    Table.moved (fun p : OperationStep => p.status == .executing)
      (fun p => p.status == .outcomeUnknown) steps (recoveredSteps steps now) =
    (failUndispatchedSteps steps now).rows.countP OperationStep.ambiguous := by
  calc
    _ = steps.rows.countP OperationStep.ambiguous := List.countP_congr fun p hp => by
      simp only [recoveredSteps, failUndispatchedSteps, Table.get?_updateWhere,
        Table.get?_of_mem hp, Option.map_some, Option.any_some]
      cases hstatus : p.status <;> cases hat : p.dispatchedAt <;>
        simp [OperationStep.undispatched, OperationStep.ambiguous, hstatus, hat]
    _ = _ := Table.countP_of_get? fun k => by
      simp only [failUndispatchedSteps, Table.get?_updateWhere]
      cases steps.get? k with
      | none => rfl
      | some p =>
        cases hstatus : p.status <;> cases hat : p.dispatchedAt <;>
          simp [OperationStep.undispatched, OperationStep.ambiguous, hstatus, hat]

section Ends

variable {db₄ db₅ db' : Db} {w : Nat} {ops ops' : List OperationId} {undos undos' : List UndoId}
  {s s' : RecoverySummary} {T : BatchId → Prop}

/-- An operation in flight ends with its result, an old one or one of this pass. -/
theorem ends_operation {o : OperationRun} (hget : db.operations.get? o.id = some o)
    (hlive : o.inFlight = true) (hresolves : Resolves db db₄)
    (hnone : ∀ o ∈ db₄.operations.rows, o.status ≠ .executing) (hanswers : Answers db db₄)
    (hcalm : Calm T db₄ db') :
    ∃ o', db'.operations.get? o.id = some o' ∧ o'.status.terminal = true ∧
      (o'.status == .outcomeUnknown) = db.endsUnknown o.id := by
  have hcarries : db₄.Carries o.id := by
    refine (hresolves o.id (by rw [hget]; exact hlive)).resolve_left fun hexec => ?_
    obtain ⟨o₄, ho₄, hexec₄⟩ := (Option.any_eq_true _ _).mp hexec
    exact hnone o₄ (Table.mem_of_get? ho₄) (by simpa using hexec₄)
  obtain ⟨o', r', ho', hr', hstatus, -⟩ := hcarries.calm hcalm
  obtain ⟨-, r, -, hr, -, -⟩ := hcarries
  obtain rfl : r' = r := Option.some.inj (hr'.symm.trans (hcalm.result hr))
  refine ⟨o', ho', by simp [hstatus], ?_⟩
  rw [hstatus, ← hanswers.endsUnknown hr]
  cases r'.kind <;> rfl

theorem ends_undo {id : UndoId} {u : UndoRecord} (h : Tallied 0 ops undos db db₄ s)
    (h' : Tallied w ops' undos' db₄ db₅ s') (hnone : ∀ u ∈ db₅.undos.rows, u.status ≠ .executing)
    (hu : db.undos.get? id = some u) (hlive : u.inFlight = true) :
    (db₅.undos.get? id).any UndoRecord.recovered = true := by
  obtain ⟨u₄, hu₄, hkept⟩ := h.undone id u hu
  obtain ⟨u₅, hu₅, hkept'⟩ := h'.undone id u₄ hu₄
  rw [hu₅, Option.any_some]
  have hended : u₅.inFlight = false := by
    simpa [UndoRecord.inFlight] using hnone u₅ (Table.mem_of_get? hu₅)
  rcases hkept' with rfl | hrecovered
  · rcases hkept with rfl | hrecovered
    · exact absurd hlive (by simp [hended])
    · exact hrecovered
  · exact hrecovered

/-- The undos that the linked phase leaves in flight are those that stand alone. -/
theorem undosInFlight_unlinked {db₂ : Db} (h₂ : Tallied 0 (db.executingConfirmations.map
    PendingConfirmation.operationId) [] db db₂ s) (h : Tallied 0 ops undos db db₄ s')
    (hundos : ∀ id, id ∈ undos ↔ id ∈ db₂.linkedUndos.flatMap fun x => [x.undo.id]) :
    db₄.undosInFlight = db.undos.rows.countP fun u => u.inFlight && db.standsAlone u := by
  refine Table.countP_of_get? fun k => ?_
  rw [h.undos.any k]
  cases hu : db.undos.get? k with
  | none => rfl
  | some u =>
    cases hlive : u.inFlight with
    | false => simp [hlive]
    | true =>
      obtain rfl : u.id = k := Table.key_of_get? hu
      have hlinked := mem_linkedUndos h₂ (Table.mem_of_get? hu) hlive
      simp only [Option.any_some, hlive, hundos, hlinked, Bool.true_and]
      cases db.standsAlone u <;> rfl

theorem inFlight_of_none (h : ∀ o ∈ db.operations.rows, o.status ≠ .executing) :
    db.operations.rows.countP OperationRun.inFlight = 0 ∧ db.dispatchedInFlight = 0 := by
  constructor <;> refine countP_eq_zero_of_none fun o ho => ?_
  · simpa [OperationRun.inFlight] using h o ho
  · simp [OperationRun.inFlight, h o ho]

end Ends

/-- What a completed pass counts, and how many operations it ends as unknown. -/
theorem recoverOrphanedRuns_counts (now : Time) (db : Db) :
    wp (recoverOrphanedRuns now) (fun s db' => CountersLaw db db'
        { s with ambiguousOperations := db.operations.rows.countP fun o =>
          o.inFlight && db.endsUnknown o.id } ∧
      s.ambiguousOperations = db.dispatchedInFlight +
        db.undos.rows.countP fun u => u.inFlight && db.standsAlone u) (fun _ => True) db := by
  unfold recoverOrphanedRuns
  simp only [recoverTurns, recoverSteps, wp_bind, wp_get, wp_set, wp_pure]
  generalize hdb₁ : ({ db with
    turns := recoveredTurns db.turns now, steps := recoveredSteps db.steps now } : Db) = db₁
  refine wp_weaken (wp_both (recoverConfirmations_spec now db₁)
    (recoverConfirmations_tallied now db₁)) fun s₂ db₂ hboth => ?_
  obtain ⟨h₂, t₂⟩ := hboth
  refine wp_weaken (wp_both (recoverLinkedUndos_spec now db₂.linkedUndos db₂)
    (sumRecovered_tallied (recoverLinkedUndo_tallied now) _ db₂)) fun s₃ db₃ hboth => ?_
  obtain ⟨h₃, t₃⟩ := hboth
  refine wp_weaken (wp_both (recoverOperations_spec now db₃)
    (sumRecovered_tallied (recoverOperation_tallied now) _ db₃)) fun s₄ db₄ hboth => ?_
  obtain ⟨h₄, t₄⟩ := hboth
  refine wp_weaken (wp_both (recoverUndos_spec now db₄)
    (sumRecovered_tallied (recoverUndo_tallied now) _ db₄)) fun s₅ db₅ hboth => ?_
  obtain ⟨h₅, t₅⟩ := hboth
  refine wp_weaken (wp_both (recoverBatches_spec now db₅)
    (within_forM SameAside.refl SameAside.trans _
      (fun b _ => sameAside_recoverConfirmationBatch b.id now) db₅)) fun _ db₆ hboth => ?_
  obtain ⟨h₆, haside⟩ := hboth
  refine wp_weaken (wp_both (recoverAssistantRuns_spec now db₆)
    (recoverAssistantRuns_counts now db₆)) fun s₇ db₇ hboth => ?_
  obtain ⟨h₇, hcounts⟩ := hboth
  obtain ⟨rfl, hruns, hundos, hturns⟩ := hcounts
  obtain ⟨hruns₆, hturns₆, hundos₆⟩ :
      db₆.runs = db₅.runs ∧ db₆.turns = db₅.turns ∧ db₆.undos = db₅.undos := by
    simpa [SameAside] using haside
  let everywhere : BatchId → Prop := fun _ => True
  have hlate : Calm everywhere db₄ db₇ :=
    ((h₅.1.mono fun _ _ => trivial).trans h₆.1).trans (h₇.1.mono fun _ _ => trivial)
  have hearly : Calm everywhere db₂ db₇ :=
    ((h₃.1.trans h₄.1).mono fun _ _ => trivial).trans hlate
  have hall := (t₂.trans t₃).trans t₄
  have hresolves : Resolves db₁ db₄ := (h₂.2.1.trans h₃.2 h₃.1).trans h₄.2.1 h₄.1
  have hoperations : ∀ o ∈ db.operations.rows, o.inFlight = true →
      ∃ o', db₇.operations.get? o.id = some o' ∧ o'.status.terminal = true ∧
        (o'.status == .outcomeUnknown) = db.endsUnknown o.id := by
    intro o ho hlive
    have hget : db₁.operations.get? o.id = some o := by
      subst hdb₁
      exact Table.get?_of_mem ho
    have hends : db₁.endsUnknown o.id = db.endsUnknown o.id := by
      subst hdb₁
      simp only [Db.endsUnknown, Db.operationWasDispatched_recovered]
      rfl
    exact hends ▸ ends_operation hget hlive hresolves h₄.2.2 hall.answers hlate
  have hconfirmations : ∀ c ∈ db.confirmations.rows, c.inFlight = true →
      (db₇.confirmations.get? (key c)).any (fun c => c.status.settled) = true := by
    intro c hc hlive
    have hmem : c ∈ db₁.executingConfirmations := by
      subst hdb₁
      exact List.mem_filter.mpr ⟨hc, hlive⟩
    obtain ⟨c', r, hc', -, hstatus, -⟩ := (h₂.2.2.2 c hmem).calm hearly
    have hget : db₇.confirmations.get? (key c) = some c' := hc'
    simp [hget, hstatus]
  have hundone : ∀ u ∈ db.undos.rows, u.inFlight = true →
      (db₇.undos.get? (key u)).any UndoRecord.recovered = true := by
    intro u hu hlive
    have hget : db₁.undos.get? (key u) = some u := by
      subst hdb₁
      exact Table.get?_of_mem hu
    rw [hundos.trans hundos₆]
    exact ends_undo hall t₅ h₅.2 hget hlive
  have hturn : ∀ t ∈ db.turns.rows, t.stranded = true →
      (db₇.turns.get? (key t)).any (fun t => t.status == .outcomeUnknown) = true := by
    intro t ht hlive
    have hlast : db₆.turns = recoveredTurns db.turns now := by
      rw [hturns₆, t₅.turns, hall.turns, ← hdb₁]
    have hget : db₆.turns.get? (key t) =
        some { t with status := .outcomeUnknown, updatedAt := now } := by
      rw [hlast, recoveredTurns, Table.get?_updateWhere, Table.get?_of_mem ht, Option.map_some,
        if_pos hlive]
    rw [hturns _ _ hget rfl]
    rfl
  have hkeptRuns : db₆.runs = db.runs := by
    rw [hruns₆, t₅.runs, hall.runs, ← hdb₁]
  have hrun : ∀ r ∈ db.runs.rows, r.phase.active = true →
      (db₇.runs.get? (key r)).any (fun r => r.phase == .failed) = true := by
    intro r hr hactive
    rw [hruns, Db.failedRuns, hkeptRuns, Table.get?_updateWhere, Table.get?_of_mem hr,
      Option.map_some, if_pos hactive]
    rfl
  have hsteps : db₇.steps = recoveredSteps db.steps now := by
    rw [hearly.steps, h₂.1.steps, ← hdb₁]
  have hnone₄ := inFlight_of_none h₄.2.2
  have hnone₅ := inFlight_of_none (h₅.1.operations.none h₄.2.2)
  have hsettled : db₄.confirmations.rows.countP PendingConfirmation.inFlight = 0 :=
    countP_eq_zero_of_none fun c hc => by
      simpa [PendingConfirmation.inFlight] using (h₃.1.trans h₄.1).confirmations.none h₂.2.2.1 c hc
  have hended : db₅.undosInFlight = 0 := countP_eq_zero_of_none fun u hu => by
    simpa [UndoRecord.inFlight] using h₅.2 u hu
  have halone : db₄.undosInFlight =
      db.undos.rows.countP fun u => u.inFlight && db.standsAlone u := by
    have hunlinked := undosInFlight_unlinked t₂ hall (by simp)
    subst hdb₁
    exact hunlinked
  have hstart : db₁.operations = db.operations ∧ db₁.confirmations = db.confirmations ∧
      db₁.undosInFlight = db.undos.rows.countP UndoRecord.inFlight ∧
      db₁.dispatchedInFlight = db.dispatchedInFlight := by
    subst hdb₁
    refine ⟨rfl, rfl, rfl, ?_⟩
    simp only [Db.dispatchedInFlight, Db.operationWasDispatched_recovered]
  have hcounts := hall.counts
  have hcounts₅ := t₅.counts
  simp only [hstart, RecoverySummary.add_def, Nat.zero_mul, Nat.one_mul, Nat.add_zero]
    at hcounts hcounts₅
  refine ⟨{
    turns := ?_
    operations := ?_
    confirmations := ?_
    undos := ?_
    assistantRuns := ?_
    ambiguousSteps := ?_
    ambiguousOperations := ?_ }, ?_⟩
  · rw [Table.moved_eq_countP hturn]
    simp only [RecoverySummary.add_def]
    omega
  · rw [Table.moved_eq_countP fun o ho hlive => by
      obtain ⟨o', ho', hterminal, -⟩ := hoperations o ho hlive
      exact (congrArg (Option.any _) ho').trans hterminal]
    simp only [RecoverySummary.add_def]
    omega
  · rw [Table.moved_eq_countP hconfirmations]
    simp only [RecoverySummary.add_def]
    omega
  · rw [Table.moved_eq_countP hundone]
    simp only [RecoverySummary.add_def]
    omega
  · rw [Table.moved_eq_countP hrun, ← hkeptRuns]
    simp only [RecoverySummary.add_def]
    omega
  · rw [hsteps, moved_recoveredSteps]
    simp only [RecoverySummary.add_def]
    omega
  · refine (List.countP_congr fun o ho => ?_).symm
    cases hlive : o.inFlight with
    | false => simp
    | true =>
      obtain ⟨o', ho', -, hunknown⟩ := hoperations o ho hlive
      rw [← hunknown, show db₇.operations.get? (key o) = some o' from ho', Option.any_some]
  · simp only [RecoverySummary.add_def]
    omega

theorem countP_add_eq {α : Type} {p q r s : α → Bool} (xs : List α)
    (h : ∀ x ∈ xs, (p x).toNat + (q x).toNat = (r x).toNat + (s x).toNat) :
    xs.countP p + xs.countP q = xs.countP r + xs.countP s := by
  induction xs with
  | nil => rfl
  | cons x xs ih =>
    have hrest := ih fun y hy => h y (List.mem_cons_of_mem x hy)
    have hx := h x List.mem_cons_self
    have hcons : ∀ p : α → Bool, (x :: xs).countP p = xs.countP p + (p x).toNat := fun p => by
      rw [List.countP_cons]
      cases p x <;> rfl
    simp only [hcons]
    omega

/-- A completed pass reports what it moved if and only if its ambiguous count agrees. -/
theorem countersLaw_iff {db db' : Db} {now : Time} {s : RecoverySummary}
    (hpass : recoverOrphanedRuns now db = .ok (s, db')) :
    CountersLaw db db' s ↔ db.CountsAlike := by
  obtain ⟨hlaw, hcount⟩ := wp_ok (recoverOrphanedRuns_counts now db) hpass
  have hiff : CountersLaw db db' s ↔ s.ambiguousOperations =
      db.operations.rows.countP fun o => o.inFlight && db.endsUnknown o.id := by
    refine ⟨fun h => ?_, fun h => ?_⟩
    · rw [h.ambiguousOperations, ← hlaw.ambiguousOperations]
    · rw [← h] at hlaw
      exact hlaw
  rw [hiff, hcount]
  unfold Db.CountsAlike Db.dispatchedInFlight
  have hsplit := countP_add_eq db.operations.rows
    (p := fun o => o.inFlight && (!db.operationWasDispatched o.id &&
      (db.resultKind o.id).any (· == .outcomeUnknown)))
    (q := fun o => o.inFlight && db.operationWasDispatched o.id)
    (r := fun o => o.inFlight && (db.operationWasDispatched o.id &&
      (db.resultKind o.id).any (· != .outcomeUnknown)))
    (s := fun o => o.inFlight && db.endsUnknown o.id) fun o _ => by
      unfold Db.endsUnknown
      cases o.inFlight <;> cases db.operationWasDispatched o.id <;>
        rcases db.resultKind o.id with _ | _ | _ | _ | _ <;> rfl
  omega

/-- The claim of a confirmation stores a result that says unknown. Its operation, of
which no step was dispatched, ends as unknown and is not counted. -/
theorem claimed_uncounted : ∃ s db', recoverOrphanedRuns 4 claimedThenCrashed = .ok (s, db') ∧
      ¬ CountersLaw claimedThenCrashed db' s := by
  have hrun : (recoverOrphanedRuns 4 claimedThenCrashed).toOption.any (fun r =>
      r.1.ambiguousOperations == 0 && Table.moved OperationRun.inFlight
        (fun o => o.status == .outcomeUnknown) claimedThenCrashed.operations r.2.operations == 1) =
      true := by
    decide +kernel
  cases hpass : recoverOrphanedRuns 4 claimedThenCrashed with
  | error e => simp [hpass, Except.toOption] at hrun
  | ok r =>
    refine ⟨r.1, r.2, rfl, fun hlaw => ?_⟩
    simp only [hpass, Except.toOption, Option.any_some, Bool.and_eq_true, beq_iff_eq] at hrun
    exact absurd (hrun.1.symm.trans (hlaw.ambiguousOperations.trans hrun.2)) (by decide)

instance (db : Db) : Decidable db.CountsAlike := inferInstanceAs (Decidable (_ = _))

/-- A run that was active when its process died, with nothing else in flight. -/
def startedThenCrashed : Db := ((startRunWithEvent ⟨⟨1, 1, 1⟩, 1, 1⟩ 0).commit Db.empty).2

theorem countersLaw_started :
    ∃ s db', recoverOrphanedRuns 4 startedThenCrashed = .ok (s, db') ∧ s.assistantRuns = 1 ∧
      CountersLaw startedThenCrashed db' s := by
  have hrun : (recoverOrphanedRuns 4 startedThenCrashed).toOption.any
      (fun r => r.1.assistantRuns == 1) = true := by
    decide +kernel
  cases hpass : recoverOrphanedRuns 4 startedThenCrashed with
  | error e => simp [hpass, Except.toOption] at hrun
  | ok r =>
    simp only [hpass, Except.toOption, Option.any_some, beq_iff_eq] at hrun
    exact ⟨r.1, r.2, rfl, hrun, (countersLaw_iff hpass).mpr (by decide +kernel)⟩

end Pass

end ClockifyAssistant
