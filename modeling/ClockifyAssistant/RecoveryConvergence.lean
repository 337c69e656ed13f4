import ClockifyAssistant.Store.Preparation
import ClockifyAssistant.Store.Recovery

/-!
Startup recovery converges: a pass that completes leaves nothing in flight,
settles each executing confirmation together with its operation, and a second
pass finds nothing to do. No statement of the pass puts a row in flight, so each
phase only has to deal with the rows it was given.
-/
namespace ClockifyAssistant

open Lib Txn

def PendingStatus.settled : PendingStatus → Bool
  | .succeeded | .partially | .definitiveFailed | .outcomeUnknown => true
  | _ => false

def OperationRunStatus.terminal : OperationRunStatus → Bool
  | .prepared | .executing => false
  | _ => true

@[simp] theorem toPending_settled (kind : ActionResultKind) : kind.toPending.settled = true := by
  cases kind <;> rfl

@[simp] theorem toOperation_terminal (kind : ActionResultKind) :
    kind.toOperation.terminal = true := by
  cases kind <;> rfl

/-- A step of recovery: nothing enters flight, what is settled stays as it is,
and only the batches of `T` are touched. -/
structure Calm (T : BatchId → Prop) (db db' : Db) : Prop where
  steps : db'.steps = db.steps
  turns : Table.NoNew (fun t => t.status = .executing) db.turns db'.turns
  confirmations : Table.NoNew (fun c => c.status = .executing) db.confirmations db'.confirmations
  operations : Table.NoNew (fun o => o.status = .executing) db.operations db'.operations
  undos : Table.NoNew (fun u => u.status = .executing) db.undos db'.undos
  batches : Table.NoNew (fun b => b.status = .executing) db.batches db'.batches
  runs : Table.NoNew (fun r => r.phase.active = true) db.runs db'.runs
  executingItems : Table.NoNew (fun i => i.status = .executing) db.items db'.items
  pendingItems : Table.NoNew (fun i => i.status = .pending) db.items db'.items
  keptItem : ∀ {k i}, db.items.get? k = some i → ∃ i', db'.items.get? k = some i'
  settledConfirmation : ∀ {id c}, db.confirmations.get? id = some c → c.status.settled = true →
    ∃ c', db'.confirmations.get? id = some c' ∧ c'.status = c.status ∧
      c'.actionResultId = c.actionResultId
  keptOperation : ∀ {id o}, db.operations.get? id = some o →
    ∃ o', db'.operations.get? id = some o' ∧ (o.status.terminal = true →
      o'.status = o.status ∧ o'.actionResultId = o.actionResultId)
  result : ∀ {id r}, db.operationResult id = some r → db'.operationResult id = some r
  untouched : ∀ b, ¬ T b → db'.batches.get? b = db.batches.get? b ∧
    ∀ k, db'.items.get? (b, k) = db.items.get? (b, k)

namespace Calm

variable {T : BatchId → Prop} {db db' db'' : Db}

theorem trans (h : Calm T db db') (h' : Calm T db' db'') : Calm T db db'' where
  steps := h'.steps.trans h.steps
  turns := h.turns.trans h'.turns
  confirmations := h.confirmations.trans h'.confirmations
  operations := h.operations.trans h'.operations
  undos := h.undos.trans h'.undos
  batches := h.batches.trans h'.batches
  runs := h.runs.trans h'.runs
  executingItems := h.executingItems.trans h'.executingItems
  pendingItems := h.pendingItems.trans h'.pendingItems
  keptItem := fun hi => (h.keptItem hi).elim fun _ hi' => h'.keptItem hi'
  settledConfirmation := by
    intro id c hc hsettled
    obtain ⟨c', hc', hstatus, hresult⟩ := h.settledConfirmation hc hsettled
    obtain ⟨c'', hc'', hstatus', hresult'⟩ := h'.settledConfirmation hc' (hstatus ▸ hsettled)
    exact ⟨c'', hc'', hstatus'.trans hstatus, hresult'.trans hresult⟩
  keptOperation := by
    intro id o ho
    obtain ⟨o', ho', hkept⟩ := h.keptOperation ho
    obtain ⟨o'', ho'', hkept'⟩ := h'.keptOperation ho'
    refine ⟨o'', ho'', fun hterminal => ?_⟩
    obtain ⟨hstatus, hresult⟩ := hkept hterminal
    obtain ⟨hstatus', hresult'⟩ := hkept' (hstatus ▸ hterminal)
    exact ⟨hstatus'.trans hstatus, hresult'.trans hresult⟩
  result := fun hr => h'.result (h.result hr)
  untouched := by
    intro b hb
    obtain ⟨hbatch, hitems⟩ := h.untouched b hb
    obtain ⟨hbatch', hitems'⟩ := h'.untouched b hb
    exact ⟨hbatch'.trans hbatch, fun k => (hitems' k).trans (hitems k)⟩

theorem mono {T' : BatchId → Prop} (h : Calm T db db') (hT : ∀ b, T b → T' b) : Calm T' db db' :=
  { h with untouched := fun b hb => h.untouched b fun hTb => hb (hT b hTb) }

end Calm

/-- Only identifiers and result rows are added. -/
structure AddsResults (db db' : Db) : Prop where
  confirmations : db'.confirmations = db.confirmations
  operations : db'.operations = db.operations
  steps : db'.steps = db.steps
  undos : db'.undos = db.undos
  batches : db'.batches = db.batches
  items : db'.items = db.items
  turns : db'.turns = db.turns
  runs : db'.runs = db.runs
  result : ∀ {id r}, db.operationResult id = some r → db'.operationResult id = some r

namespace AddsResults

variable {db db' db'' : Db}

theorem refl (db : Db) : AddsResults db db :=
  ⟨rfl, rfl, rfl, rfl, rfl, rfl, rfl, rfl, fun h => h⟩

theorem trans (h : AddsResults db db') (h' : AddsResults db' db'') : AddsResults db db'' where
  confirmations := h'.confirmations.trans h.confirmations
  operations := h'.operations.trans h.operations
  steps := h'.steps.trans h.steps
  undos := h'.undos.trans h.undos
  batches := h'.batches.trans h.batches
  items := h'.items.trans h.items
  turns := h'.turns.trans h.turns
  runs := h'.runs.trans h.runs
  result := fun hr => h'.result (h.result hr)

theorem calm {T : BatchId → Prop} (h : AddsResults db db') : Calm T db db' where
  steps := h.steps
  turns := .of_eq h.turns
  confirmations := .of_eq h.confirmations
  operations := .of_eq h.operations
  undos := .of_eq h.undos
  batches := .of_eq h.batches
  runs := .of_eq h.runs
  executingItems := .of_eq h.items
  pendingItems := .of_eq h.items
  keptItem := fun hi => ⟨_, h.items ▸ hi⟩
  settledConfirmation := fun hc _ => ⟨_, h.confirmations ▸ hc, rfl, rfl⟩
  keptOperation := fun ho => ⟨_, h.operations ▸ ho, fun _ => ⟨rfl, rfl⟩⟩
  result := h.result
  untouched := fun b _ => by simp only [h.batches, h.items, implies_true, and_self]

end AddsResults

theorem Calm.refl (T : BatchId → Prop) (db : Db) : Calm T db db := (AddsResults.refl db).calm

section Statements

variable {T : BatchId → Prop}

theorem mintId_adds : Within AddsResults mintId :=
  within_get_bind fun _ => ⟨rfl, rfl, rfl, rfl, rfl, rfl, rfl, rfl, fun h => h⟩

theorem insertActionResult_adds (r : ActionResult) : Within AddsResults (insertActionResult r) := by
  intro db
  refine wp_insertActionResult (fun h _ => ?_) fun _ => trivial
  refine ⟨rfl, rfl, rfl, rfl, rfl, rfl, rfl, rfl, fun {id _} hr => ?_⟩
  rw [Db.operationResult_insert, hr, Option.some_or]

theorem calm_updateOperations {db : Db} {id : OperationId} {f : OperationRun → OperationRun}
    {hf : ∀ o, key (f o) = key o}
    (h : ∀ o, db.operations.get? id = some o → (f o).status ≠ .executing ∧
      o.status.terminal = false ∨ (f o).status = o.status ∧
      (f o).actionResultId = o.actionResultId) :
    Calm T db { db with operations := db.operations.update id f hf } := by
  refine { Calm.refl T db with
    operations := ?_
    keptOperation := ?_
    settledConfirmation := fun h _ => ⟨_, h, rfl, rfl⟩
    result := fun h => h
    untouched := fun _ _ => ⟨rfl, fun _ => rfl⟩ }
  · show Table.NoNew _ _ (db.operations.update id f hf)
    refine Table.noNew_update fun o ho hexec => ?_
    rcases h o ho with ⟨hne, _⟩ | ⟨hstatus, _⟩
    · exact absurd hexec hne
    · exact hstatus ▸ hexec
  · intro k o ho
    by_cases hk : k = id
    · subst hk
      refine ⟨f o, by simp [ho], fun hterminal => ?_⟩
      rcases h o ho with ⟨_, hlive⟩ | hkept
      · simp [hlive] at hterminal
      · exact hkept
    · exact ⟨o, by simp [hk, ho], fun _ => ⟨rfl, rfl⟩⟩

theorem calm_updateOperationStatus {id : OperationId} {p : OperationRun → Bool}
    {status : OperationRunStatus} {f : OperationRun → Option ResultId} {now : Time}
    (hp : ∀ o, p o = true → o.status.terminal = false) (hstatus : status ≠ .executing) :
    Within (Calm T) (updateOperationStatus id p status f now) := by
  intro db
  rw [wp_updateOperationStatus]
  split
  · next hany =>
      refine calm_updateOperations fun o ho => .inl ⟨by simpa using hstatus, hp o ?_⟩
      simpa [ho] using hany
  · exact Calm.refl T db

theorem failUndispatchedOperation_calm (operationId : OperationId) (status : PendingStatus)
    (now : Time) : Within (fun db db' => Calm T db db' ∧ db'.confirmations = db.confirmations)
      (failUndispatchedOperation operationId status now) := by
  refine within_get_bind fun db => ?_
  cases hfind : (db.operations.get? operationId).filter OperationRun.undispatched with
  | none => exact ⟨Calm.refl T db, rfl⟩
  | some o =>
    obtain ⟨ho, hlive⟩ := Option.filter_eq_some_iff.mp hfind
    refine wp_seq (mintId_adds db) fun id db₁ h₁ => ?_
    refine wp_seq (insertActionResult_adds _ db₁) fun _ db₂ h₂ => ?_
    have hadds := h₁.trans h₂
    refine ⟨hadds.calm.trans (calm_updateOperations fun o' ho' => .inl ⟨by simp, ?_⟩),
      hadds.confirmations⟩
    rw [hadds.operations, ho, Option.some.injEq] at ho'
    subst ho'
    simp only [OperationRun.undispatched, Bool.and_eq_true, beq_iff_eq] at hlive
    simp [hlive.1, OperationRunStatus.terminal]

theorem calm_updateConfirmations {db : Db} {id : ConfirmationId}
    {f : PendingConfirmation → PendingConfirmation} {hf : ∀ c, key (f c) = key c}
    (h : ∀ c, db.confirmations.get? id = some c → (f c).status ≠ .executing ∧
      c.status.settled = false) :
    Calm T db { db with confirmations := db.confirmations.update id f hf } := by
  refine { Calm.refl T db with
    confirmations := ?_
    settledConfirmation := ?_
    keptOperation := fun h => ⟨_, h, fun _ => ⟨rfl, rfl⟩⟩
    result := fun h => h
    untouched := fun _ _ => ⟨rfl, fun _ => rfl⟩ }
  · show Table.NoNew _ _ (db.confirmations.update id f hf)
    exact Table.noNew_update fun c hc hexec => absurd hexec (h c hc).1
  · intro k c hc hsettled
    by_cases hk : k = id
    · subst hk
      simp [(h c hc).2] at hsettled
    · exact ⟨c, by simp [hk, hc], rfl, rfl⟩

theorem preDispatchTerminal_calm {db : Db} {old new : PendingConfirmation}
    (h : ∀ c, db.confirmations.get? new.id = some c → c.status = new.status) :
    wp (preDispatchTerminal old new)
      (fun _ db' => Calm T db db' ∧ ∀ c', db'.confirmations.get? new.id = some c' →
        c'.status = new.status) (fun _ => True) db := by
  unfold preDispatchTerminal
  by_cases hpre : preDispatch old new
  · have hnew : new.status ≠ .executing ∧ new.status.settled = false := by
      have hdropped := hpre.2
      cases hstatus : new.status <;> simp_all [PendingStatus.cancelledOrExpired,
        PendingStatus.settled]
    rw [if_neg (not_not_intro hpre)]
    refine wp_seq (failUndispatchedOperation_calm (T := T) _ _ _ db) fun _ db₁ h₁ => ?_
    have hstatus : ∀ c, db₁.confirmations.get? new.id = some c → c.status = new.status := by
      rw [h₁.2]
      exact h
    refine ⟨h₁.1.trans (calm_updateConfirmations fun c hc => ?_), ?_⟩
    · rw [hstatus c hc]
      exact hnew
    · intro c' hc'
      obtain ⟨c, hc, rfl⟩ : ∃ c, db₁.confirmations.get? new.id = some c ∧ _ = c' := by
        simpa [Db.adoptOperationResult] using hc'
      exact hstatus c hc
  · rw [if_pos hpre]
    exact ⟨Calm.refl T db, h⟩

theorem calm_settlementScrubsOperation (old new : PendingConfirmation) :
    Within (fun db db' => Calm T db db' ∧ db'.confirmations = db.confirmations)
      (settlementScrubsOperation old new) := by
  intro db
  unfold settlementScrubsOperation
  split
  · exact ⟨Calm.refl T db, rfl⟩
  · exact ⟨calm_updateOperations fun _ _ => .inr ⟨rfl, rfl⟩, rfl⟩

/-- Every status change of a live confirmation is calm, and takes it out of flight. -/
theorem updateConfirmationStatus_calm {id : ConfirmationId} {p : PendingConfirmation → Bool}
    {patch : ConfirmationPatch} (hp : ∀ c, p c = true → c.status.settled = false)
    (hpatch : patch.status ≠ .executing) (db : Db) : wp (updateConfirmationStatus id p patch)
      (fun _ db' => Calm T db db' ∧ ∀ c', db'.confirmations.get? id = some c' →
        (db.confirmations.get? id).any p = true → c'.status = patch.status) (fun _ => True) db := by
  unfold updateConfirmationStatus
  rw [wp_bind, wp_get]
  cases hfind : (db.confirmations.get? id).filter p with
  | none =>
    refine ⟨Calm.refl T db, fun c' hc' hany => ?_⟩
    simp [Option.filter_eq_none_iff, hc'] at hfind hany
    simp [hfind] at hany
  | some old =>
    obtain ⟨hold, hpold⟩ := Option.filter_eq_some_iff.mp hfind
    have hid : old.id = id := Table.key_of_get? hold
    have hnew : (patch.apply old).status = patch.status := rfl
    rw [wp_bind, wp_require]
    refine ⟨fun _ => ?_, fun _ => trivial⟩
    unfold preDispatchOperationGuard
    rw [wp_bind, wp_bind, wp_get, wp_require]
    refine ⟨fun _ => ?_, fun _ => trivial⟩
    rw [wp_bind, wp_modify]
    have hupdate : Calm T db
        { db with confirmations := db.confirmations.update id patch.apply patch.key_apply } :=
      calm_updateConfirmations fun c hc => by
        rw [hold, Option.some.injEq] at hc
        subst hc
        exact ⟨hpatch, hp old hpold⟩
    refine wp_seq (preDispatchTerminal_calm (T := T) fun c hc => ?_) fun _ db₁ h₁ => ?_
    · obtain ⟨c₀, _, rfl⟩ : ∃ c₀, db.confirmations.get? id = some c₀ ∧ patch.apply c₀ = c := by
        simpa [hid] using hc
      rfl
    refine wp_seq (calm_settlementScrubsOperation (T := T) old _ db₁) fun _ db₂ h₂ => ?_
    refine ⟨(hupdate.trans h₁.1).trans h₂.1, fun c' hc' _ => ?_⟩
    rw [h₂.2] at hc'
    exact h₁.2 c' (by simpa [hid] using hc')

end Statements

section Rows

variable {T : BatchId → Prop} {db db' db'' : Db}

/-- The operation carries its own result. -/
def Db.Carries (db : Db) (operationId : OperationId) : Prop :=
  ∃ o r, db.operations.get? operationId = some o ∧ db.operationResult operationId = some r ∧
    o.status = r.kind.toOperation ∧ o.actionResultId = some r.id

/-- The confirmation carries the result of the operation. -/
def Db.CarriedBy (db : Db) (operationId : OperationId) (id : ConfirmationId) : Prop :=
  ∃ c r, db.confirmations.get? id = some c ∧ db.operationResult operationId = some r ∧
    c.status = r.kind.toPending ∧ c.actionResultId = some r.id

variable {operationId : OperationId}

theorem Db.Carries.calm (h : db.Carries operationId)
    (hcalm : Calm T db db') : db'.Carries operationId := by
  obtain ⟨o, r, ho, hr, hstatus, hresult⟩ := h
  obtain ⟨o', ho', hkept⟩ := hcalm.keptOperation ho
  obtain ⟨hstatus', hresult'⟩ := hkept (by simp [hstatus])
  exact ⟨o', r, ho', hcalm.result hr, hstatus'.trans hstatus, hresult'.trans hresult⟩

theorem Db.CarriedBy.calm {id : ConfirmationId}
    (h : db.CarriedBy operationId id) (hcalm : Calm T db db') : db'.CarriedBy operationId id := by
  obtain ⟨c, r, hc, hr, hstatus, hresult⟩ := h
  obtain ⟨c', hc', hstatus', hresult'⟩ := hcalm.settledConfirmation hc (by simp [hstatus])
  exact ⟨c', r, hc', hcalm.result hr, hstatus'.trans hstatus, hresult'.trans hresult⟩

/-- An executing operation stays executing until it carries its result. -/
def Resolves (db db' : Db) : Prop :=
  ∀ id, (db.operations.get? id).any (fun o => o.status == .executing) = true →
    (db'.operations.get? id).any (fun o => o.status == .executing) = true ∨ db'.Carries id

theorem Resolves.refl (db : Db) : Resolves db db := fun _ h => .inl h

theorem Resolves.trans (h : Resolves db db') (h' : Resolves db' db'')
    (hcalm : Calm T db' db'') : Resolves db db'' := by
  intro id hexec
  rcases h id hexec with hexec' | hcarries
  · exact h' id hexec'
  · exact .inr (hcarries.calm hcalm)

theorem recoveredResult_spec (operationId : OperationId) (scope : SessionScope)
    (actionName : String) (kind : ActionResultKind) (now : Time) (db : Db) :
    wp (recoveredResult operationId scope actionName kind now) (fun ref db' => AddsResults db db' ∧
        ∃ r, db'.operationResult operationId = some r ∧ r.ref = ref) (fun _ => True) db := by
  unfold recoveredResult
  rw [wp_bind, wp_get]
  cases hr : db.operationResult operationId with
  | some r => exact ⟨.refl db, r, hr, rfl⟩
  | none =>
    refine wp_seq (mintId_adds db) fun id db₁ h₁ => ?_
    let inserted : ActionResult := {
      id, operationId := some operationId, scope, actionName, kind
      result := recoveryResult kind actionName
      createdAt := now }
    have hfound : wp (insertActionResult inserted)
        (fun _ db₂ => db₂.operationResult operationId = some inserted) (fun _ => True) db₁ := by
      refine wp_insertActionResult (fun _ hnone => ?_) fun _ => trivial
      rw [Db.operationResult_insert, hnone operationId rfl, Option.none_or, if_pos rfl]
    refine wp_seq (wp_weaken (wp_and (insertActionResult_adds inserted db₁) hfound)
      fun _ db₂ h₂ => h₂) fun _ db₂ h₂ => ?_
    exact ⟨h₁.trans h₂.1, inserted, h₂.2, rfl⟩

theorem settleRecoveredOperation_spec {r : ActionResult} (now : Time)
    (hr : db.operationResult operationId = some r) :
    wp (settleRecoveredOperation operationId r.ref now)
      (fun _ db' => Calm T db db' ∧ Resolves db db' ∧ db'.confirmations = db.confirmations ∧
        (∀ o, db'.operations.get? operationId = some o → o.status ≠ .executing))
      (fun _ => True) db := by
  unfold settleRecoveredOperation
  rw [wp_updateOperationStatus]
  split
  · next hany =>
      have hlive : ∀ o, db.operations.get? operationId = some o → o.status = .executing := by
        intro o ho
        simpa [ho] using hany
      refine ⟨calm_updateOperations fun o ho => .inl ⟨?_, by simp [hlive o ho,
        OperationRunStatus.terminal]⟩, ?_, rfl, ?_⟩
      · simp
      · intro id hexec
        by_cases hid : id = operationId
        · subst hid
          cases ho : db.operations.get? id with
          | none => simp [ho] at hexec
          | some o =>
            exact .inr ⟨o.withStatus r.ref.kind.toOperation (some r.ref.id) now, r,
              by simp [ho], hr, by simp [ActionResult.ref], by simp [ActionResult.ref]⟩
        · exact .inl (by simpa [hid] using hexec)
      · intro o' ho'
        obtain ⟨o, _, rfl⟩ : ∃ o, db.operations.get? operationId = some o ∧ _ = o' := by
          simpa using ho'
        simp
  · next hany =>
      refine ⟨Calm.refl T db, .refl db, rfl, fun o ho hexec => ?_⟩
      simp [ho, hexec] at hany

theorem patchConfirmation_calm {old : PendingConfirmation} {patch : ConfirmationPatch}
    (hold : db.confirmations.get? old.id = some old) (hlive : old.status.settled = false)
    (hpatch : patch.status ≠ .executing) : Calm T db (db.patchConfirmation old patch) := by
  have hupdate : Calm T db
      { db with
        confirmations := db.confirmations.update old.id patch.apply patch.key_apply } :=
    calm_updateConfirmations fun c hc => by
      rw [hold, Option.some.injEq] at hc
      exact hc ▸ ⟨hpatch, hlive⟩
  unfold Db.patchConfirmation
  by_cases hsettles : settlesDispatched old (patch.apply old)
  · rw [if_pos hsettles]
    exact hupdate.trans (calm_updateOperations fun _ _ => .inr ⟨rfl, rfl⟩)
  · rw [if_neg hsettles]
    exact hupdate

theorem patchConfirmation_resolves (old : PendingConfirmation) (patch : ConfirmationPatch) :
    Resolves db (db.patchConfirmation old patch) := by
  intro id hexec
  refine .inl ?_
  unfold Db.patchConfirmation
  split
  · cases ho : db.operations.get? id with
    | none => simp [ho] at hexec
    | some o =>
      by_cases hid : id = old.operationId
      · subst hid
        simpa [ho] using hexec
      · simpa [ho, hid] using hexec
  · exact hexec

theorem AddsResults.resolves (h : AddsResults db db') : Resolves db db' :=
  fun _ hexec => .inl (h.operations ▸ hexec)

theorem fillRecoveredClaim_adds (row : PendingConfirmation) (ref : ActionResultRef) (now : Time) :
    Within AddsResults (fillRecoveredClaim row ref now) := by
  intro db
  unfold fillRecoveredClaim
  cases row.idempotencyKey with
  | none => exact .refl db
  | some ledgerKey =>
    simp only [fillOpenClaim, wp_bind, wp_get]
    split
    · exact .refl db
    · exact ⟨rfl, rfl, rfl, rfl, rfl, rfl, rfl, rfl, fun h => h⟩

/-- One executing confirmation leaves flight with the result its operation has. -/
theorem recoverConfirmation_spec {row : PendingConfirmation} (now : Time)
    (hrow : db.confirmations.get? row.id = some row) (hexec : row.status = .executing) :
    wp (recoverConfirmation now row)
      (fun _ db' => Calm T db db' ∧ Resolves db db' ∧ db'.CarriedBy row.operationId row.id ∧
        ∀ k, k ≠ row.id → db'.confirmations.get? k = db.confirmations.get? k)
      (fun _ => True) db := by
  unfold recoverConfirmation
  rw [wp_bind, wp_get]
  refine wp_seq (recoveredResult_spec _ _ _ _ _ db) fun ref db₁ hrecovered => ?_
  obtain ⟨hadds, r, hr, rfl⟩ := hrecovered
  have hrow₁ : db₁.confirmations.get? row.id = some row := hadds.confirmations ▸ hrow
  rw [wp_bind, updateConfirmationStatus_direct
    (show (db₁.confirmations.get? row.id).filter _ = some row by simp [hrow₁, hexec])
    (by simp [preDispatch, hexec]) (by simp [ActionResultRef.patch])]
  have hpatched : Calm T db₁ (db₁.patchConfirmation row r.ref.patch) :=
    patchConfirmation_calm hrow₁ (by simp [hexec, PendingStatus.settled])
      (by simp [ActionResultRef.patch])
  have hcarried : (db₁.patchConfirmation row r.ref.patch).CarriedBy row.operationId row.id :=
    ⟨r.ref.patch.apply row, r, by simp [Db.patchConfirmation, hrow₁], hr, rfl, rfl⟩
  have hr₂ : (db₁.patchConfirmation row r.ref.patch).operationResult row.operationId = some r := hr
  refine wp_seq (settleRecoveredOperation_spec (T := T) now hr₂) fun settled db₂ hsettled => ?_
  obtain ⟨hcalm, hresolves, hconfirmations, _⟩ := hsettled
  refine wp_seq (fillRecoveredClaim_adds row r.ref now db₂) fun _ db₃ h₃ => ?_
  have hcalm₂ : Calm T db₁ db₂ := hpatched.trans hcalm
  refine ⟨(hadds.calm.trans hcalm₂).trans h₃.calm, ?_, ?_, ?_⟩
  · exact ((hadds.resolves.trans (patchConfirmation_resolves row _) hpatched).trans hresolves
      hcalm).trans h₃.resolves (h₃.calm (T := T))
  · exact (hcarried.calm hcalm).calm (h₃.calm (T := T))
  · intro k hk
    rw [h₃.confirmations, hconfirmations, ← hadds.confirmations]
    simp [Db.patchConfirmation, hk]

theorem recoverOperation_spec (row : OperationRun) (now : Time) (db : Db) :
    wp (recoverOperation now row)
      (fun _ db' => Calm T db db' ∧ Resolves db db' ∧ db'.confirmations = db.confirmations ∧
        (∀ o, db'.operations.get? row.id = some o → o.status ≠ .executing)) (fun _ => True) db := by
  unfold recoverOperation
  rw [wp_bind, wp_get]
  refine wp_seq (recoveredResult_spec _ _ _ _ _ db) fun ref db₁ ⟨hadds, r, hr, href⟩ => ?_
  subst href
  refine wp_seq (settleRecoveredOperation_spec (T := T) now hr) fun _ db₂ h => ?_
  obtain ⟨hcalm, hresolves, hconfirmations, hsettled⟩ := h
  exact ⟨hadds.calm.trans hcalm, hadds.resolves.trans hresolves hcalm,
    hconfirmations.trans hadds.confirmations, hsettled⟩

theorem updateUndo_spec {id : UndoId} {p : UndoRecord → Bool} {f : UndoRecord → UndoRecord}
    {hf : ∀ u, key (f u) = key u} (hlive : ∀ u, (f u).status ≠ .executing)
    (hp : ∀ u, u.status = .executing → p u = true) (db : Db) : wp (updateUndo id p f hf)
      (fun _ db' => Calm T db db' ∧ db'.confirmations = db.confirmations ∧
        db'.operations = db.operations ∧
        ∀ u, db'.undos.get? id = some u → u.status ≠ .executing) (fun _ => True) db := by
  unfold updateUndo
  rw [wp_bind, wp_get]
  split
  · next hnone =>
      refine ⟨Calm.refl T db, rfl, rfl, fun u hu hexec => ?_⟩
      simp [hu, hp u hexec] at hnone
  · have hnew : Table.NoNew (fun u => u.status = .executing) db.undos (db.undos.update id f hf) :=
      Table.noNew_update fun u _ hexec => absurd hexec (hlive u)
    refine ⟨{ Calm.refl T db with
      undos := hnew
      settledConfirmation := fun h _ => ⟨_, h, rfl, rfl⟩
      keptOperation := fun h => ⟨_, h, fun _ => ⟨rfl, rfl⟩⟩
      result := fun h => h
      untouched := fun _ _ => ⟨rfl, fun _ => rfl⟩ }, rfl, rfl, ?_⟩
    intro u hu
    obtain ⟨u₀, _, rfl⟩ : ∃ u₀, db.undos.get? id = some u₀ ∧ f u₀ = u := by simpa using hu
    exact hlive u₀

theorem recoverLinkedUndo_spec (row : LinkedUndo) (now : Time) (db : Db) :
    wp (recoverLinkedUndo now row)
      (fun _ db' => Calm T db db' ∧ Resolves db db' ∧ db'.confirmations = db.confirmations)
      (fun _ => True) db := by
  unfold recoverLinkedUndo
  rw [wp_bind, wp_get]
  refine wp_seq (recoveredResult_spec _ _ _ _ _ db) fun ref db₁ ⟨hadds, r, hr, href⟩ => ?_
  subst href
  refine wp_seq (settleRecoveredOperation_spec (T := T) now hr) fun _ db₂ h => ?_
  obtain ⟨hcalm, hresolves, hconfirmations, _⟩ := h
  refine wp_seq (updateUndo_spec (T := T) (fun u => ?_) (by simp) db₂) fun _ db₃ h₃ => ?_
  · dsimp only
    split <;> simp
  · obtain ⟨hcalm₃, hconfirmations₃, hoperations₃, _⟩ := h₃
    have hresolves₃ : Resolves db₂ db₃ := fun _ hexec => .inl (hoperations₃ ▸ hexec)
    exact ⟨(hadds.calm.trans hcalm).trans hcalm₃,
      (hadds.resolves.trans hresolves hcalm).trans hresolves₃ hcalm₃,
      hconfirmations₃.trans (hconfirmations.trans hadds.confirmations)⟩

theorem recoverUndo_spec (row : UndoRecord) (now : Time) (db : Db) : wp (recoverUndo now row)
      (fun _ db' => Calm T db db' ∧ db'.confirmations = db.confirmations ∧
        db'.operations = db.operations ∧
        ∀ u, db'.undos.get? row.id = some u → u.status ≠ .executing) (fun _ => True) db := by
  unfold recoverUndo insertRecoveryResult
  rw [wp_bind, wp_bind]
  refine wp_weaken (mintId_adds db) fun id db₁ h₁ => ?_
  rw [wp_bind]
  refine wp_weaken (insertActionResult_adds _ db₁) fun _ db₂ h₂ => ?_
  have hadds := h₁.trans h₂
  rw [wp_pure, wp_bind]
  refine wp_weaken (updateUndo_spec (T := T) (by simp) (by simp) db₂) fun _ db₃ h₃ => ?_
  obtain ⟨hcalm, hconfirmations, hoperations, hsettled⟩ := h₃
  exact ⟨hadds.calm.trans hcalm, hconfirmations.trans hadds.confirmations,
    hoperations.trans hadds.operations, hsettled⟩

end Rows

section Batches

variable {T : BatchId → Prop} {db db' db'' : Db} {batchId : BatchId}

theorem unstarted_iff {batch : ConfirmationBatch} :
    batch.unstarted (db.batchItems batchId) = true ↔ batch.currentIndex = 0 ∧
      ∀ k item, db.items.get? (batchId, k) = some item → item.status = .pending := by
  simp only [ConfirmationBatch.unstarted, Bool.and_eq_true, beq_iff_eq, List.all_eq_true,
    Db.mem_batchItems]
  refine and_congr_right fun _ => ⟨fun h k item hitem => ?_, fun h item hitem => ?_⟩
  · have hkey : (item.batchId, item.itemIndex) = (batchId, k) := Table.key_of_get? hitem
    simp only [Prod.mk.injEq] at hkey
    obtain ⟨hbatch, rfl⟩ := hkey
    exact h item ⟨hbatch, hitem⟩
  · exact h item.itemIndex item hitem.2

/-- Recovery has nothing left to do for the batch. -/
def Db.BatchStuck (db : Db) (batchId : BatchId) (now : Time) : Prop :=
  ∀ batch, db.batches.get? batchId = some batch → batch.status = .executing →
    (batch.unstarted (db.batchItems batchId) = true ∧ batch.expiresAt ≤ now) ∨
    (batch.unstarted (db.batchItems batchId) = false ∧
      ∀ k item, db.items.get? (batchId, k) = some item → item.status ≠ .executing)

theorem Db.BatchStuck.calm {now : Time} (h : db.BatchStuck batchId now) (hcalm : Calm T db db')
    (hT : ¬ T batchId) : db'.BatchStuck batchId now := by
  obtain ⟨hbatch, hitems⟩ := hcalm.untouched batchId hT
  have hunstarted : ∀ batch : ConfirmationBatch,
      batch.unstarted (db'.batchItems batchId) = batch.unstarted (db.batchItems batchId) := by
    intro batch
    rw [Bool.eq_iff_iff, unstarted_iff, unstarted_iff]
    simp only [hitems]
  intro batch hget hexec
  rw [hbatch] at hget
  rw [hunstarted]
  simpa only [hitems] using h batch hget hexec

theorem updateItem_calm {p : ConfirmationBatchItem → Bool} {k : Nat}
    {status : ConfirmationBatchItemStatus} {patch : ItemPatch} (hT : T batchId)
    (hpending : status ≠ .pending) (hexecuting : status ≠ .executing) (db : Db) :
    wp (updateConfirmationBatchItemStatus batchId k p status patch)
      (fun _ db' => Calm T db db' ∧ db'.batches = db.batches ∧
        ∀ i, db'.items.get? (batchId, k) = some i →
          (∀ i₀, db.items.get? (batchId, k) = some i₀ → i₀.status = .executing →
            p i₀ = true) → i.status ≠ .executing) (fun _ => True) db := by
  unfold updateConfirmationBatchItemStatus
  rw [wp_bind, wp_get]
  cases hfind : (db.items.get? (batchId, k)).filter p with
  | none =>
    refine ⟨Calm.refl T db, rfl, fun i hi hp hexec => ?_⟩
    have hpi := hp i hi hexec
    simp [hi, Option.filter_some, hpi] at hfind
  | some item =>
    rw [wp_bind, wp_require]
    refine ⟨fun _ => ?_, fun _ => trivial⟩
    have hnew : ∀ s : ConfirmationBatchItemStatus, status ≠ s →
        Table.NoNew (fun i : ConfirmationBatchItem => i.status = s) db.items
          (db.items.update (batchId, k) (patch.apply status) (patch.key_apply status)) :=
      fun s hs => Table.noNew_update fun _ _ h => absurd h hs
    refine ⟨{ Calm.refl T db with
      executingItems := hnew _ hexecuting
      pendingItems := hnew _ hpending
      keptItem := fun {k' i} hi => ?_
      settledConfirmation := fun h _ => ⟨_, h, rfl, rfl⟩
      keptOperation := fun h => ⟨_, h, fun _ => ⟨rfl, rfl⟩⟩
      result := fun h => h
      untouched := fun b hb => ⟨rfl, fun k' => ?_⟩ }, rfl, ?_⟩
    · by_cases hk : k' = (batchId, k)
      · subst hk
        exact ⟨_, by simp [hi]; rfl⟩
      · exact ⟨i, by simp [hk, hi]⟩
    · have hne : b ≠ batchId := fun h => hb (h ▸ hT)
      simp [hne]
    · intro i hi _
      obtain ⟨i₀, _, rfl⟩ : ∃ i₀, db.items.get? (batchId, k) = some i₀ ∧
          patch.apply status i₀ = i := by simpa using hi
      exact hexecuting

theorem updateBatch_calm {p : ConfirmationBatch → Bool}
    {f : ConfirmationBatch → ConfirmationBatch} {hf : ∀ b, key (f b) = key b}
    (hT : T batchId) (hlive : ∀ b, (f b).status ≠ .executing)
    (hp : ∀ b, b.status = .executing → p b = true) (db : Db) : wp (updateBatch batchId p f hf)
      (fun _ db' => Calm T db db' ∧
        ∀ b, db'.batches.get? batchId = some b → b.status ≠ .executing) (fun _ => True) db := by
  unfold updateBatch
  rw [wp_bind, wp_get]
  split
  · next hnone =>
      refine ⟨Calm.refl T db, fun b hb hexec => ?_⟩
      simp [hb, hp b hexec] at hnone
  · have hnew : Table.NoNew (fun b => b.status = .executing) db.batches
        (db.batches.update batchId f hf) :=
      Table.noNew_update fun b _ hexec => absurd hexec (hlive b)
    refine ⟨{ Calm.refl T db with
      batches := hnew
      settledConfirmation := fun h _ => ⟨_, h, rfl, rfl⟩
      keptOperation := fun h => ⟨_, h, fun _ => ⟨rfl, rfl⟩⟩
      result := fun h => h
      untouched := fun b hb => ⟨?_, fun _ => rfl⟩ }, ?_⟩
    · have hne : b ≠ batchId := fun h => hb (h ▸ hT)
      simp [hne]
    · intro b hb
      obtain ⟨b₀, _, rfl⟩ : ∃ b₀, db.batches.get? batchId = some b₀ ∧ f b₀ = b := by
        simpa using hb
      exact hlive b₀

theorem calm_cancelConfirmation (id : ConfirmationId) (now : Time) :
    Within (Calm T) (cancelConfirmation id now) := by
  intro db
  refine wp_weaken (updateConfirmationStatus_calm (T := T) ?_ (by simp [cancelledPatch]) db)
    fun _ _ h => h.1
  intro c hc
  rw [beq_iff_eq] at hc
  rw [hc]
  rfl

theorem calm_cancelPendingItem {item : ConfirmationBatchItem} (now : Time)
    (hT : T item.batchId) : Within (Calm T) (cancelPendingItem now item) := by
  intro db
  unfold cancelPendingItem
  refine wp_seq (updateItem_calm hT (by simp) (by simp) db) fun _ db₁ h₁ => ?_
  refine wp_seq (calm_cancelConfirmation (T := T) item.confirmationId now db₁) fun _ db₂ h₂ => ?_
  exact h₁.1.trans h₂

theorem abandonBatch_spec {items : List ConfirmationBatchItem} (k : Nat) (now : Time)
    (hitems : ∀ i ∈ items, i.batchId = batchId) (db : Db) : wp (abandonBatch batchId items k now)
      (fun _ db' => Calm (· = batchId) db db' ∧
        ∀ b, db'.batches.get? batchId = some b → b.status ≠ .executing) (fun _ => True) db := by
  unfold abandonBatch
  refine wp_seq (updateBatch_calm (T := (· = batchId)) rfl (by simp) (by simp) db)
    fun _ db₁ ⟨hcalm, hended⟩ => ?_
  refine wp_weaken (within_forM (Calm.refl (· = batchId)) Calm.trans _ (fun i hi => ?_) db₁)
    fun _ db₂ h₂ => ⟨hcalm.trans h₂, fun b hb hexec => ?_⟩
  · exact calm_cancelPendingItem now (hitems i (List.mem_of_mem_filter hi))
  · obtain ⟨b₀, hb₀, hexec₀⟩ := h₂.batches.get? hb hexec
    exact hended b₀ hb₀ hexec₀

theorem failUndispatchedItem_spec {item : ConfirmationBatchItem} (now : Time)
    (hitem : item.batchId = batchId) (db : Db) : wp (failUndispatchedItem now item)
      (fun _ db' => Calm (· = batchId) db db' ∧ db'.batches.get? batchId = db.batches.get? batchId ∧
        ∀ i, db'.items.get? (batchId, item.itemIndex) = some i → i.status ≠ .executing)
      (fun _ => True) db := by
  subst hitem
  let nowhere : BatchId → Prop := fun _ => False
  have hnowhere : ∀ {db db' : Db}, Calm nowhere db db' →
      Calm (· = item.batchId) db db' ∧ db'.batches.get? item.batchId =
        db.batches.get? item.batchId :=
    fun h => ⟨h.mono fun _ hb => hb.elim, (h.untouched _ fun hb => hb).1⟩
  unfold failUndispatchedItem
  refine wp_seq (mintId_adds db) fun id db₁ h₁ => ?_
  refine wp_seq (insertActionResult_adds _ db₁) fun _ db₂ h₂ => ?_
  refine wp_seq (updateItem_calm (T := (· = item.batchId)) rfl (by simp) (by simp) db₂)
    fun _ db₃ ⟨hcalm₃, hbatches₃, hitem₃⟩ => ?_
  refine wp_seq (updateConfirmationStatus_calm (T := nowhere) ?_ (by simp) db₃) fun _ db₄ h₄ => ?_
  · intro c hc
    rw [beq_iff_eq] at hc
    rw [hc]
    rfl
  refine wp_seq (calm_updateOperationStatus (T := nowhere) ?_ (by simp) db₄) fun _ db₅ h₅ => ?_
  · intro o ho
    rw [beq_iff_eq] at ho
    rw [ho]
    rfl
  have hadds := h₁.trans h₂
  have hlast := hnowhere (h₄.1.trans h₅)
  refine ⟨(hadds.calm.trans hcalm₃).trans hlast.1, ?_, fun i hi => ?_⟩
  · rw [hlast.2, hbatches₃, hadds.batches]
  · rw [((h₄.1.trans h₅).untouched _ fun hb => hb).2] at hi
    exact hitem₃ i hi fun _ _ hexec => by simpa using hexec

/-- The loop ends with the batch out of flight, or with no item of it in flight. -/
theorem recoverExecutingItems_spec {items : List ConfirmationBatchItem} (now : Time)
    (hitems : ∀ i ∈ items, i.batchId = batchId) (rest : List ConfirmationBatchItem)
    (hrest : ∀ i ∈ rest, i ∈ items) (db : Db) : wp (recoverExecutingItems batchId items now rest)
      (fun _ db' => Calm (· = batchId) db db' ∧
        ∀ b, db'.batches.get? batchId = some b → b.status = .executing →
          db.batches.get? batchId = some b ∧
          ∀ x ∈ rest, ∀ i, db'.items.get? (batchId, x.itemIndex) = some i →
            i.status ≠ .executing) (fun _ => True) db := by
  induction rest generalizing db with
  | nil => exact ⟨Calm.refl _ db, fun b hb _ => ⟨hb, by simp⟩⟩
  | cons x rest ih =>
    unfold recoverExecutingItems
    rw [wp_bind, wp_get]
    have hx := hitems x (hrest x List.mem_cons_self)
    split
    · refine wp_weaken (abandonBatch_spec x.itemIndex now hitems db)
        fun _ db' h => ⟨h.1, fun b hb hexec => ?_⟩
      exact absurd hexec (h.2 b hb)
    · refine wp_seq (failUndispatchedItem_spec now hx db) fun _ db₁ ⟨hcalm, hbatch, hdone⟩ => ?_
      refine wp_weaken (ih (fun i hi => hrest i (List.mem_cons_of_mem x hi)) db₁)
        fun _ db₂ h => ⟨hcalm.trans h.1, fun b hb hexec => ?_⟩
      obtain ⟨hb₁, hrest₁⟩ := h.2 b hb hexec
      refine ⟨hbatch ▸ hb₁, ?_⟩
      rintro y (_ | ⟨_, hy⟩) i hi hexeci
      · obtain ⟨i₁, hi₁, hexec₁⟩ := h.1.executingItems.get? hi hexeci
        exact hdone i₁ hi₁ hexec₁
      · exact hrest₁ y hy i hi hexeci

theorem recoverConfirmationBatch_spec (batchId : BatchId) (now : Time) (db : Db) :
    wp (recoverConfirmationBatch batchId now)
      (fun _ db' => Calm (· = batchId) db db' ∧ db'.BatchStuck batchId now) (fun _ => True) db := by
  unfold recoverConfirmationBatch
  rw [wp_bind, wp_get]
  cases hfind : (db.batches.get? batchId).filter fun b => b.status == .executing with
  | none =>
    refine ⟨Calm.refl _ db, fun b hb hexec => ?_⟩
    simp [hb, Option.filter_some, hexec] at hfind
  | some batch =>
    obtain ⟨hbatch, hexec⟩ := Option.filter_eq_some_iff.mp hfind
    by_cases hstart : batch.unstarted (db.batchItems batchId) = true
    · simp only [hstart, ↓reduceIte]
      split
      · next hexpired =>
          refine ⟨Calm.refl _ db, fun b hb _ => .inl ?_⟩
          rw [hbatch, Option.some.injEq] at hb
          exact hb ▸ ⟨hstart, hexpired⟩
      · refine wp_seq (updateBatch_calm (T := (· = batchId)) rfl (by simp) (by simp) db)
          fun _ db' h => ⟨h.1, fun b hb hexec => ?_⟩
        exact absurd hexec (h.2 b hb)
    · simp only [hstart, Bool.false_eq_true, ↓reduceIte]
      refine wp_weaken (recoverExecutingItems_spec now (fun i hi => (Db.mem_batchItems.mp hi).1) _
        (fun i hi => List.mem_of_mem_filter hi) db) fun _ db' h => ⟨h.1, ?_⟩
      intro b hb hexecb
      obtain ⟨hb₀, hnone⟩ := h.2 b hb hexecb
      rw [hbatch, Option.some.injEq] at hb₀
      subst hb₀
      refine .inr ⟨Bool.eq_false_iff.mpr fun hstart' => hstart ?_, fun k item hitem hexeci => ?_⟩
      · obtain ⟨hindex, hpending⟩ := unstarted_iff.mp hstart'
        refine unstarted_iff.mpr ⟨hindex, fun k item hitem => ?_⟩
        obtain ⟨item', hitem'⟩ := h.1.keptItem hitem
        obtain ⟨i₀, hi₀, hpending₀⟩ := h.1.pendingItems.get? hitem' (hpending k item' hitem')
        rw [hitem, Option.some.injEq] at hi₀
        exact hi₀ ▸ hpending₀
      · obtain ⟨i₀, hi₀, hexec₀⟩ := h.1.executingItems.get? hitem hexeci
        have hkey : (i₀.batchId, i₀.itemIndex) = (batchId, k) := Table.key_of_get? hi₀
        simp only [Prod.mk.injEq] at hkey
        obtain ⟨hbatch₀, rfl⟩ := hkey
        refine hnone i₀ (List.mem_filter.mpr ⟨?_, by simpa using hexec₀⟩) item hitem hexeci
        exact Db.mem_batchItems.mpr ⟨hbatch₀, hi₀⟩

end Batches

section Phases

variable {db db' : Db}

instance : AddCommMonoid RecoverySummary where
  add_assoc a b c := by ext <;> exact Nat.add_assoc _ _ _
  add_comm a b := by ext <;> exact Nat.add_comm _ _
  zero_add a := by ext <;> exact Nat.zero_add _
  add_zero a := by ext <;> exact Nat.add_zero _
  nsmul := nsmulRec

theorem wp_sumRecovered_counted {ι : Type} {recover : ι → StoreTxn RecoverySummary}
    (J : List ι → Db → RecoverySummary → Prop) (xs : List ι)
    (hstep : ∀ done x rest, xs = done ++ x :: rest → ∀ db acc, J done db acc →
      wp (recover x) (fun s db' => J (done ++ [x]) db' (acc + s)) (fun _ => True) db) (db : Db)
    (hdb : J [] db 0) :
    wp (sumRecovered recover xs) (fun s db' => J xs db' s) (fun _ => True) db := by
  suffices hgen : ∀ done rest, xs = done ++ rest → ∀ db acc, J done db acc →
      wp (sumRecovered recover rest) (fun s db' => J xs db' (acc + s)) (fun _ => True) db from
    wp_weaken (hgen [] xs rfl db 0 hdb) fun s db' h => zero_add s ▸ h
  intro done rest
  induction rest generalizing done with
  | nil =>
    intro hxs db acc hdb
    obtain rfl : xs = done := by simpa using hxs
    exact (add_zero acc).symm ▸ hdb
  | cons x rest ih =>
    intro hxs db acc hdb
    refine wp_seq (hstep done x rest hxs db acc hdb) fun s db₁ h₁ => ?_
    refine wp_seq (ih (done ++ [x]) (by simpa using hxs) db₁ (acc + s) h₁) fun s' db₂ h₂ => ?_
    rw [wp_pure, ← add_assoc]
    exact h₂

theorem wp_sumRecovered {ι : Type} {recover : ι → StoreTxn RecoverySummary}
    (J : List ι → Db → Prop) (xs : List ι)
    (hstep : ∀ done x rest, xs = done ++ x :: rest → ∀ db, J done db →
      wp (recover x) (fun _ db' => J (done ++ [x]) db') (fun _ => True) db) :
    ∀ db, J [] db → wp (sumRecovered recover xs) (fun _ db' => J xs db') (fun _ => True) db :=
  wp_sumRecovered_counted (fun done db _ => J done db) xs fun done x rest hxs db _ =>
    hstep done x rest hxs db

/-- Nothing of the phases before the batches is touched in any batch. -/
def nowhere : BatchId → Prop := fun _ => False

/-- Each executing confirmation is still stored as it was when its turn comes. -/
theorem wp_recoverConfirmations (J : List PendingConfirmation → Db → RecoverySummary → Prop)
    (now : Time) (db : Db)
    (hstep : ∀ done row db₁ acc, row ∈ db.executingConfirmations → J done db₁ acc →
      db₁.confirmations.get? row.id = some row → row.status = .executing →
      wp (recoverConfirmation now row) (fun s db' => J (done ++ [row]) db' (acc + s))
        (fun _ => True) db₁) (hdb : J [] db 0) :
    wp (sumRecovered (recoverConfirmation now) db.executingConfirmations)
      (fun s db' => J db.executingConfirmations db' s) (fun _ => True) db := by
  refine wp_weaken (wp_sumRecovered_counted (fun done db' s => J done db' s ∧
    ∀ k, (∀ c ∈ done, c.id ≠ k) → db'.confirmations.get? k = db.confirmations.get? k) _
    (fun done row rest hrows db₁ acc hJ => ?_) db ⟨hdb, fun _ _ => rfl⟩) fun _ _ h => h.1
  obtain ⟨hJ, hsame⟩ := hJ
  have hmem : row ∈ db.executingConfirmations := by simp [hrows]
  obtain ⟨hrow, hexec⟩ := List.mem_filter.mp hmem
  have hfresh : ∀ c ∈ done, c.id ≠ row.id := by
    have hnodup : (db.executingConfirmations.map PendingConfirmation.id).Nodup :=
      (List.filter_sublist.map key).nodup db.confirmations.nodup
    rw [hrows, List.map_append, List.map_cons, List.nodup_append] at hnodup
    intro c hc
    exact hnodup.2.2 c.id (List.mem_map_of_mem hc) row.id List.mem_cons_self
  have hget : db₁.confirmations.get? row.id = some row :=
    (hsame row.id hfresh).trans (Table.get?_of_mem hrow)
  have hexec : row.status = .executing := by simpa using hexec
  refine wp_weaken (wp_both (hstep done row db₁ acc hmem hJ hget hexec)
    (recoverConfirmation_spec (T := nowhere) now hget hexec)) fun s db₂ h₂ => ⟨h₂.1, fun k hk => ?_⟩
  have hkrow : k ≠ row.id := fun h => hk row (by simp) h.symm
  rw [h₂.2.2.2.2 k hkrow]
  exact hsame k fun c hc => hk c (by simp [hc])

theorem recoverConfirmations_spec (now : Time) (db : Db) :
    wp (sumRecovered (recoverConfirmation now) db.executingConfirmations)
      (fun _ db' => Calm nowhere db db' ∧ Resolves db db' ∧
        (∀ c ∈ db'.confirmations.rows, c.status ≠ .executing) ∧
        ∀ c ∈ db.executingConfirmations, db'.CarriedBy c.operationId c.id) (fun _ => True) db := by
  refine wp_weaken (wp_recoverConfirmations (fun done db' _ => Calm nowhere db db' ∧
    Resolves db db' ∧ ∀ c ∈ done, db'.CarriedBy c.operationId c.id) now db
    (fun done row db₁ _ _ hJ hget hexec => ?_) ⟨Calm.refl _ db, .refl db, by simp⟩)
    fun _ db' h => ?_
  · obtain ⟨hcalm, hresolves, hcarried⟩ := hJ
    refine wp_weaken (recoverConfirmation_spec (T := nowhere) now hget hexec) fun _ db₂ h => ?_
    obtain ⟨hcalm₂, hresolves₂, hcarried₂, -⟩ := h
    refine ⟨hcalm.trans hcalm₂, hresolves.trans hresolves₂ hcalm₂, fun c hc => ?_⟩
    rcases List.mem_append.mp hc with hdone | hlast
    · exact (hcarried c hdone).calm hcalm₂
    · rw [List.mem_singleton.mp hlast]
      exact hcarried₂
  · obtain ⟨hcalm, hresolves, hcarried⟩ := h
    refine ⟨hcalm, hresolves, fun c hc hexec => ?_, hcarried⟩
    obtain ⟨c₀, hc₀, hkey, hexec₀⟩ := hcalm.confirmations c hc hexec
    have hmem : c₀ ∈ db.executingConfirmations :=
      List.mem_filter.mpr ⟨hc₀, by simpa using hexec₀⟩
    obtain ⟨c', r, hc', _, hstatus, _⟩ := hcarried c₀ hmem
    have hget := Table.get?_of_mem hc
    rw [← hkey] at hget
    have hcc : c' = c := Option.some.inj (hc'.symm.trans hget)
    rw [← hcc, hstatus] at hexec
    exact r.kind.toPending_ne_executing hexec

theorem recoverLinkedUndos_spec (now : Time) (rows : List LinkedUndo) (db : Db) :
    wp (sumRecovered (recoverLinkedUndo now) rows)
      (fun _ db' => Calm nowhere db db' ∧ Resolves db db') (fun _ => True) db := by
  refine wp_sumRecovered (fun _ db' => Calm nowhere db db' ∧ Resolves db db') rows
    (fun _ row _ _ db₁ h => ?_) db ⟨Calm.refl _ db, .refl db⟩
  refine wp_weaken (recoverLinkedUndo_spec (T := nowhere) row now db₁) fun _ db₂ h₂ => ?_
  exact ⟨h.1.trans h₂.1, h.2.trans h₂.2.1 h₂.1⟩

theorem recoverOperations_spec (now : Time) (db : Db) :
    wp (sumRecovered (recoverOperation now) db.executingOperations)
      (fun _ db' => Calm nowhere db db' ∧ Resolves db db' ∧
        ∀ o ∈ db'.operations.rows, o.status ≠ .executing) (fun _ => True) db := by
  let J : List OperationRun → Db → Prop := fun done db' =>
    Calm nowhere db db' ∧ Resolves db db' ∧
      ∀ x ∈ done, ∀ o, db'.operations.get? x.id = some o → o.status ≠ .executing
  refine wp_weaken (wp_sumRecovered J _ (fun done row rest _ db₁ hJ => ?_) db
    ⟨Calm.refl _ db, .refl db, by simp⟩) fun _ db' h => ?_
  · refine wp_weaken (recoverOperation_spec (T := nowhere) row now db₁) fun _ db₂ h₂ => ?_
    refine ⟨hJ.1.trans h₂.1, hJ.2.1.trans h₂.2.1 h₂.1, fun x hx o ho hexec => ?_⟩
    rcases List.mem_append.mp hx with hdone | hlast
    · obtain ⟨o₁, ho₁, hexec₁⟩ := h₂.1.operations.get? ho hexec
      exact hJ.2.2 x hdone o₁ ho₁ hexec₁
    · rw [List.mem_singleton.mp hlast] at ho
      exact h₂.2.2.2 o ho hexec
  · refine ⟨h.1, h.2.1, fun o ho hexec => ?_⟩
    obtain ⟨o₀, ho₀, hkey, hexec₀⟩ := h.1.operations o ho hexec
    have hget := Table.get?_of_mem ho
    rw [← hkey] at hget
    exact h.2.2 o₀ (List.mem_filter.mpr ⟨ho₀, by simpa using hexec₀⟩) o hget hexec

theorem recoverUndos_spec (now : Time) (db : Db) :
    wp (sumRecovered (recoverUndo now) db.executingUndos)
      (fun _ db' => Calm nowhere db db' ∧ ∀ u ∈ db'.undos.rows, u.status ≠ .executing)
      (fun _ => True) db := by
  let J : List UndoRecord → Db → Prop := fun done db' =>
    Calm nowhere db db' ∧ ∀ x ∈ done, ∀ u, db'.undos.get? x.id = some u → u.status ≠ .executing
  refine wp_weaken (wp_sumRecovered J _ (fun done row rest _ db₁ hJ => ?_) db
    ⟨Calm.refl _ db, by simp⟩) fun _ db' h => ?_
  · refine wp_weaken (recoverUndo_spec (T := nowhere) row now db₁) fun _ db₂ h₂ => ?_
    refine ⟨hJ.1.trans h₂.1, fun x hx u hu hexec => ?_⟩
    rcases List.mem_append.mp hx with hdone | hlast
    · obtain ⟨u₁, hu₁, hexec₁⟩ := h₂.1.undos.get? hu hexec
      exact hJ.2 x hdone u₁ hu₁ hexec₁
    · rw [List.mem_singleton.mp hlast] at hu
      exact h₂.2.2.2 u hu hexec
  · refine ⟨h.1, fun u hu hexec => ?_⟩
    obtain ⟨u₀, hu₀, hkey, hexec₀⟩ := h.1.undos u hu hexec
    have hget := Table.get?_of_mem hu
    rw [← hkey] at hget
    exact h.2 u₀ (List.mem_filter.mpr ⟨hu₀, by simpa using hexec₀⟩) u hget hexec

theorem recoverBatches_spec (now : Time) (db : Db) :
    wp (db.executingBatches.forM fun b => recoverConfirmationBatch b.id now)
      (fun _ db' => Calm (fun _ => True) db db' ∧ ∀ b, db'.BatchStuck b now)
      (fun _ => True) db := by
  let J : List ConfirmationBatch → Db → Prop := fun done db' =>
    Calm (fun _ => True) db db' ∧ ∀ x ∈ done, db'.BatchStuck x.id now
  refine wp_weaken (wp_forM (E := fun _ => True) J _ (fun done row rest _ db₁ hJ => ?_) db
    ⟨Calm.refl _ db, by simp⟩)
    fun _ db' h => ?_
  · refine wp_weaken (recoverConfirmationBatch_spec row.id now db₁) fun _ db₂ h₂ => ?_
    refine ⟨hJ.1.trans (h₂.1.mono fun _ _ => trivial), fun x hx => ?_⟩
    by_cases hxrow : x.id = row.id
    · exact hxrow ▸ h₂.2
    · rcases List.mem_append.mp hx with hdone | hlast
      · exact (hJ.2 x hdone).calm h₂.1 hxrow
      · exact absurd (congrArg ConfirmationBatch.id (List.mem_singleton.mp hlast)) hxrow
  · refine ⟨h.1, fun b batch hbatch hexec => ?_⟩
    obtain ⟨b₀, hb₀, hexec₀⟩ := h.1.batches.get? hbatch hexec
    have hid : b₀.id = b := Table.key_of_get? hb₀
    refine hid ▸ h.2 b₀ (List.mem_filter.mpr ⟨Table.mem_of_get? hb₀, ?_⟩) batch (hid ▸ hbatch) hexec
    simpa using hexec₀

theorem allocateAndInsertEvent_adds (scope : SessionScope) (runId : RunId)
    (payload : RunEventPayload) (now : Time) :
    Within AddsResults (allocateAndInsertEvent scope runId payload now) := by
  refine within_get_bind fun db => ?_
  rw [wp_bind, wp_require]
  refine ⟨fun _ => ?_, fun _ => trivial⟩
  split
  · exact ⟨rfl, rfl, rfl, rfl, rfl, rfl, rfl, rfl, fun h => h⟩
  · trivial

theorem failedRuns_noNew (now : Time) :
    Table.NoNew (fun r => r.phase.active = true) db.runs (db.failedRuns now) :=
  Table.noNew_updateWhere fun _ _ hactive _ => hactive

theorem failedRuns_inactive (now : Time) {r : AssistantRun} (hr : r ∈ (db.failedRuns now).rows) :
    r.phase.active = false := by
  obtain ⟨r₀, _, rfl⟩ := Table.mem_updateWhere.mp hr
  by_cases hactive : r₀.phase.active = true
  · rw [if_pos hactive]
    rfl
  · rw [if_neg hactive]
    exact Bool.eq_false_iff.mpr hactive

theorem recoverAssistantRuns_spec (now : Time) (db : Db) : wp (recoverAssistantRuns now)
      (fun _ db' => Calm nowhere db db' ∧ ∀ r ∈ db'.runs.rows, r.phase.active = false)
      (fun _ => True) db := by
  unfold recoverAssistantRuns
  rw [wp_bind, wp_get]
  refine wp_seq (within_forM AddsResults.refl AddsResults.trans _ (fun run _ db₁ => ?_) db)
    fun _ db₁ hadds => ?_
  · exact wp_seq (allocateAndInsertEvent_adds _ _ _ _ db₁) fun _ _ h => h
  rw [wp_bind, wp_get]
  refine ⟨hadds.calm.trans { Calm.refl nowhere db₁ with
    runs := failedRuns_noNew now
    turns := ?_
    settledConfirmation := fun h _ => ⟨_, h, rfl, rfl⟩
    keptOperation := fun h => ⟨_, h, fun _ => ⟨rfl, rfl⟩⟩
    keptItem := fun h => ⟨_, h⟩
    result := fun h => h
    untouched := fun _ _ => ⟨rfl, fun _ => rfl⟩ }, fun r hr => failedRuns_inactive now hr⟩
  dsimp only
  split
  · exact Table.noNew_updateWhere fun _ _ _ hexec => by simp at hexec
  · exact Table.NoNew.refl _ _

/-- Nothing is in flight, and no batch has recovery left to do. -/
structure Db.Quiescent (db : Db) (now : Time) : Prop where
  turns : ∀ t ∈ db.turns.rows, t.status ≠ .executing
  steps : ∀ s ∈ db.steps.rows, s.status ≠ .executing ∧ s.status ≠ .compensating
  confirmations : ∀ c ∈ db.confirmations.rows, c.status ≠ .executing
  operations : ∀ o ∈ db.operations.rows, o.status ≠ .executing
  undos : ∀ u ∈ db.undos.rows, u.status ≠ .executing
  runs : ∀ r ∈ db.runs.rows, r.phase.active = false
  batches : ∀ b, db.BatchStuck b now

theorem recoveredTurns_settled {turns : Table TurnRun} {now : Time} {t : TurnRun}
    (ht : t ∈ (recoveredTurns turns now).rows) : t.status ≠ .executing := by
  obtain ⟨t₀, _, rfl⟩ := Table.mem_updateWhere.mp ht
  cases hstatus : t₀.status <;> simp [TurnRun.stranded, hstatus]

theorem recoveredSteps_settled {steps : Table OperationStep} {now : Time} {s : OperationStep}
    (hs : s ∈ (recoveredSteps steps now).rows) :
    s.status ≠ .executing ∧ s.status ≠ .compensating := by
  obtain ⟨s₂, hs₂, rfl⟩ := Table.mem_updateWhere.mp hs
  obtain ⟨s₁, hs₁, rfl⟩ := Table.mem_updateWhere.mp hs₂
  obtain ⟨s₀, _, rfl⟩ := Table.mem_updateWhere.mp hs₁
  cases hstatus : s₀.status <;> cases hat : s₀.dispatchedAt <;>
    simp [OperationStep.undispatched, OperationStep.ambiguous, hstatus, hat]

/-- An executing confirmation of an executing operation is recovered with it. -/
def Db.RecoversTogether (db db' : Db) : Prop :=
  ∀ c ∈ db.executingConfirmations,
    (db.operations.get? c.operationId).any (fun o => o.status == .executing) = true →
    db'.Carries c.operationId ∧ db'.CarriedBy c.operationId c.id

theorem recoverOrphanedRuns_spec (now : Time) (db : Db) : wp (recoverOrphanedRuns now)
      (fun _ db' => db'.Quiescent now ∧ db.RecoversTogether db' ∧
        db'.steps = recoveredSteps db.steps now) (fun _ => True) db := by
  unfold recoverOrphanedRuns
  simp only [recoverTurns, recoverSteps, wp_bind, wp_get, wp_set, wp_pure]
  generalize hdb₁ : ({ db with
    turns := recoveredTurns db.turns now, steps := recoveredSteps db.steps now } : Db) = db₁
  have hturns : ∀ t ∈ db₁.turns.rows, t.status ≠ .executing := by
    subst hdb₁
    exact fun t ht => recoveredTurns_settled ht
  have hsteps : ∀ s ∈ db₁.steps.rows, s.status ≠ .executing ∧ s.status ≠ .compensating := by
    subst hdb₁
    exact fun s hs => recoveredSteps_settled hs
  have hconfirmations : db₁.executingConfirmations = db.executingConfirmations := by
    subst hdb₁
    rfl
  have hoperations : db₁.operations = db.operations := by
    subst hdb₁
    rfl
  refine wp_weaken (recoverConfirmations_spec now db₁) fun _ db₂ h₂ => ?_
  refine wp_weaken (recoverLinkedUndos_spec now db₂.linkedUndos db₂) fun _ db₃ h₃ => ?_
  refine wp_weaken (recoverOperations_spec now db₃) fun _ db₄ h₄ => ?_
  refine wp_weaken (recoverUndos_spec now db₄) fun _ db₅ h₅ => ?_
  refine wp_weaken (recoverBatches_spec now db₅) fun _ db₆ h₆ => ?_
  refine wp_weaken (recoverAssistantRuns_spec now db₆) fun _ db₇ h₇ => ?_
  obtain ⟨hcalm₂, hresolves₂, hnone₂, hcarried₂⟩ := h₂
  let everywhere : BatchId → Prop := fun _ => True
  have hlate : Calm everywhere db₄ db₇ :=
    ((h₅.1.mono fun _ _ => trivial).trans h₆.1).trans (h₇.1.mono fun _ _ => trivial)
  have hearly : Calm everywhere db₂ db₇ :=
    ((h₃.1.trans h₄.1).mono fun _ _ => trivial).trans hlate
  have hall : Calm everywhere db₁ db₇ := (hcalm₂.mono fun _ _ => trivial).trans hearly
  refine ⟨?_, ?_, ?_⟩
  · exact {
      turns := hall.turns.none hturns
      steps := hall.steps ▸ hsteps
      confirmations := hearly.confirmations.none hnone₂
      operations := hlate.operations.none h₄.2.2
      undos := (h₆.1.trans (h₇.1.mono fun _ _ => trivial)).undos.none h₅.2
      runs := h₇.2
      batches := fun b => (h₆.2 b).calm h₇.1 fun hb => hb }
  · intro c hc hexec
    have hresolves : Resolves db₁ db₄ :=
      (hresolves₂.trans h₃.2 h₃.1).trans h₄.2.1 h₄.1
    refine ⟨?_, (hcarried₂ c (hconfirmations ▸ hc)).calm hearly⟩
    rcases hresolves c.operationId (hoperations ▸ hexec) with hexec₄ | hcarries
    · cases ho : db₄.operations.get? c.operationId with
      | none => simp [ho] at hexec₄
      | some o =>
        have hlive : o.status = .executing := by simpa [ho] using hexec₄
        exact absurd hlive (h₄.2.2 o (Table.mem_of_get? ho))
    · exact hcarries.calm hlate
  · rw [hall.steps, ← hdb₁]

end Phases

section SecondPass

variable {db : Db} {now later : Time}

theorem recoveredTurns_quiet {turns : Table TurnRun}
    (h : ∀ t ∈ turns.rows, t.status ≠ .executing) : recoveredTurns turns later = turns :=
  Table.updateWhere_eq_self fun t ht hp => absurd (by simpa [TurnRun.stranded] using hp) (h t ht)

theorem failUndispatchedSteps_quiet {steps : Table OperationStep}
    (h : ∀ s ∈ steps.rows, s.status ≠ .executing ∧ s.status ≠ .compensating) :
    failUndispatchedSteps steps later = steps := by
  unfold failUndispatchedSteps
  rw [Table.updateWhere_eq_self fun s hs hp => absurd (by simpa using hp) (h s hs).2]
  refine Table.updateWhere_eq_self fun s hs hp => absurd ?_ (h s hs).1
  simp only [OperationStep.undispatched, Bool.and_eq_true, beq_iff_eq] at hp
  exact hp.1

theorem recoveredSteps_quiet {steps : Table OperationStep}
    (h : ∀ s ∈ steps.rows, s.status ≠ .executing ∧ s.status ≠ .compensating) :
    recoveredSteps steps later = steps := by
  unfold recoveredSteps
  rw [failUndispatchedSteps_quiet h]
  refine Table.updateWhere_eq_self fun s hs hp => absurd ?_ (h s hs).1
  simp only [OperationStep.ambiguous, Bool.and_eq_true, beq_iff_eq] at hp
  exact hp.1

theorem recoverConfirmationBatch_stuck {batchId : BatchId} (h : db.BatchStuck batchId now)
    (hlater : now ≤ later) : recoverConfirmationBatch batchId later db = .ok ((), db) := by
  unfold recoverConfirmationBatch
  rw [bind_ok (a := db) (t := db) rfl]
  cases hfind : (db.batches.get? batchId).filter fun b => b.status == .executing with
  | none => rfl
  | some batch =>
    obtain ⟨hbatch, hexec⟩ := Option.filter_eq_some_iff.mp hfind
    rcases h batch hbatch (by simpa using hexec) with ⟨hstart, hexpired⟩ | ⟨hstart, hnone⟩
    · simp only [hstart, ↓reduceIte, hexpired.trans hlater]
      rfl
    · have hitems : (db.batchItems batchId).filter (fun i => i.status == .executing) = [] := by
        refine List.filter_eq_nil_iff.mpr fun i hi hexeci => ?_
        exact hnone i.itemIndex i (Db.mem_batchItems.mp hi).2 (by simpa using hexeci)
      simp only [hstart, Bool.false_eq_true, ↓reduceIte, hitems]
      rfl

theorem countP_eq_zero_of_none {α : Type} {p : α → Bool} {xs : List α}
    (h : ∀ x ∈ xs, p x = false) : xs.countP p = 0 :=
  List.countP_eq_zero.mpr fun x hx => by simp [h x hx]

theorem recoverTurns_quiet (h : db.Quiescent now) : recoverTurns later db = .ok (0, db) := by
  have hcount : db.turns.rows.countP TurnRun.stranded = 0 :=
    countP_eq_zero_of_none fun t ht => by simpa [TurnRun.stranded] using h.turns t ht
  change Except.ok (_, { db with turns := recoveredTurns db.turns later }) = _
  rw [recoveredTurns_quiet h.turns, hcount]
  rfl

theorem recoverSteps_quiet (h : db.Quiescent now) : recoverSteps later db = .ok (0, db) := by
  have hcount : (failUndispatchedSteps db.steps later).rows.countP OperationStep.ambiguous = 0 := by
    rw [failUndispatchedSteps_quiet h.steps]
    exact countP_eq_zero_of_none fun s hs => by
      simp [OperationStep.ambiguous, (h.steps s hs).1]
  change Except.ok (_, { db with steps := recoveredSteps db.steps later }) = _
  rw [recoveredSteps_quiet h.steps, hcount]
  rfl

theorem recoverAssistantRuns_quiet (h : db.Quiescent now) :
    recoverAssistantRuns later db = .ok (0, db) := by
  have horphaned : db.runs.rows.filter (fun r => r.phase.active) = [] :=
    List.filter_eq_nil_iff.mpr fun r hr => by simp [h.runs r hr]
  have hcount : db.runs.rows.countP (fun r => r.phase.active) = 0 :=
    countP_eq_zero_of_none fun r hr => h.runs r hr
  have hfailed : db.failedRuns later = db.runs :=
    Table.updateWhere_eq_self fun r hr hp => absurd hp (by simp [h.runs r hr])
  unfold recoverAssistantRuns
  rw [bind_ok (a := db) (t := db) rfl, horphaned, bind_ok (a := ⟨⟩) (t := db) rfl,
    bind_ok (a := db) (t := db) rfl, hcount, hfailed]
  rfl

theorem sumRecovered_nil {ι : Type} {recover : ι → StoreTxn RecoverySummary} {xs : List ι}
    (h : xs = []) : sumRecovered recover xs db = .ok (0, db) := by
  subst h
  rfl

/-- A pass over a quiescent database does nothing and reports nothing. -/
theorem recoverOrphanedRuns_quiescent (h : db.Quiescent now) (hlater : now ≤ later) :
    recoverOrphanedRuns later db = .ok (0, db) := by
  have hget : (get : StoreTxn Db) db = .ok (db, db) := rfl
  have hconfirmations : db.executingConfirmations = [] :=
    List.filter_eq_nil_iff.mpr fun c hc => by simpa using h.confirmations c hc
  have hundos : db.executingUndos = [] :=
    List.filter_eq_nil_iff.mpr fun u hu => by simpa using h.undos u hu
  have hlinked : db.linkedUndos = [] := by
    change db.executingUndos.flatMap _ = []
    rw [hundos]
    rfl
  have hoperations : db.executingOperations = [] :=
    List.filter_eq_nil_iff.mpr fun o ho => by simpa using h.operations o ho
  have hbatches : (db.executingBatches.forM fun b => recoverConfirmationBatch b.id later) db =
      .ok ((), db) :=
    forM_unchanged fun b _ => recoverConfirmationBatch_stuck (h.batches b.id) hlater
  unfold recoverOrphanedRuns
  rw [bind_ok (recoverTurns_quiet h), bind_ok (recoverSteps_quiet h),
    bind_ok hget, bind_ok (sumRecovered_nil hconfirmations),
    bind_ok hget, bind_ok (sumRecovered_nil hlinked),
    bind_ok hget, bind_ok (sumRecovered_nil hoperations),
    bind_ok hget, bind_ok (sumRecovered_nil hundos),
    bind_ok hget, bind_ok hbatches, bind_ok (recoverAssistantRuns_quiet h)]
  rfl

/-- A batch left in flight never started and has expired, or has no item in flight. -/
theorem Db.BatchStuck.item_settled {batchId : BatchId} {batch : ConfirmationBatch}
    {item : ConfirmationBatchItem} (h : db.BatchStuck batchId now)
    (hbatch : db.batches.get? batchId = some batch) (hexec : batch.status = .executing)
    (hitem : item ∈ db.batchItems batchId) : item.status ≠ .executing := by
  obtain ⟨_, hget⟩ := Db.mem_batchItems.mp hitem
  rcases h batch hbatch hexec with ⟨hstart, _⟩ | ⟨_, hnone⟩
  · have hpending := (unstarted_iff.mp hstart).2 item.itemIndex item hget
    simp [hpending]
  · exact hnone item.itemIndex item hget

end SecondPass

/-- A completed pass leaves no operation, step, confirmation or undo in flight and
no item in flight in a batch that still executes; an executing confirmation and its
executing operation end with one result; a later pass changes and counts nothing. -/
theorem recoverOrphanedRuns_converges {db db' : Db} {now later : Time}
    {summary : RecoverySummary} (hpass : recoverOrphanedRuns now db = .ok (summary, db'))
    (hlater : now ≤ later) : (∀ o ∈ db'.operations.rows, o.status ≠ .executing) ∧
    (∀ s ∈ db'.steps.rows, s.status ≠ .executing ∧ s.status ≠ .compensating) ∧
    (∀ c ∈ db'.confirmations.rows, c.status ≠ .executing) ∧
    (∀ u ∈ db'.undos.rows, u.status ≠ .executing) ∧ (∀ b ∈ db'.batches.rows, b.status = .executing →
      ∀ item ∈ db'.batchItems b.id, item.status ≠ .executing) ∧
    (∀ c ∈ db.confirmations.rows, c.status = .executing →
      ∀ o, db.operations.get? c.operationId = some o → o.status = .executing →
      ∃ c' o' r, db'.confirmations.get? c.id = some c' ∧
        db'.operations.get? c.operationId = some o' ∧ db'.operationResult c.operationId = some r ∧
        c'.status = r.kind.toPending ∧ o'.status = r.kind.toOperation ∧
        c'.actionResultId = some r.id ∧ o'.actionResultId = some r.id) ∧
    recoverOrphanedRuns later db' = .ok (0, db') := by
  obtain ⟨hquiet, htogether, -⟩ := wp_ok (recoverOrphanedRuns_spec now db) hpass
  refine ⟨hquiet.operations, hquiet.steps, hquiet.confirmations, hquiet.undos, ?_, ?_,
    recoverOrphanedRuns_quiescent hquiet hlater⟩
  · intro b hb hexec item hitem
    exact (hquiet.batches b.id).item_settled (Table.get?_of_mem hb) hexec hitem
  · intro c hc hexec o ho hlive
    have hmem : c ∈ db.executingConfirmations := List.mem_filter.mpr ⟨hc, by simpa using hexec⟩
    obtain ⟨⟨o', r, ho', hr, hstatus, hresult⟩, c', r', hc', hr', hstatus', hresult'⟩ :=
      htogether c hmem (by simpa [ho] using hlive)
    obtain rfl : r = r' := by simpa [hr] using hr'
    exact ⟨c', o', r, hc', ho', hr, hstatus', hstatus, hresult', hresult⟩

section Runs

def savedReceipt : CommitResult :=
  .receipt (.success { action := "clockify_clients_create", content := 0 })

/-- A single confirmation that was claimed when its process died. -/
def claimedThenCrashed : Db :=
  (Txn.commit (do
    let _ ← prepareRun [.simple 100]
    let _ ← markConfirmationExecuting 1 2) Db.empty).2

theorem recoverOrphanedRuns_converges_claimed :
    ∃ summary db', recoverOrphanedRuns 4 claimedThenCrashed = .ok (summary, db') ∧
      recoverOrphanedRuns 5 db' = .ok (0, db') := by
  have hpass : (recoverOrphanedRuns 4 claimedThenCrashed).toOption.isSome := by decide +kernel
  cases h : recoverOrphanedRuns 4 claimedThenCrashed with
  | error e => simp [h, Except.toOption] at hpass
  | ok r => exact ⟨r.1, r.2, rfl, (recoverOrphanedRuns_converges h (by decide)).2.2.2.2.2.2⟩

/-- The transactions of a Confirm-all of two previews, up to the progress write after
its first member. -/
def confirmFirstOfTwo : StoreTxn Unit := do
  let _ ← prepareRun [.simple 100, .simple 100]
  let _ ← markConfirmationBatchExecuting 4 2
  let _ ← markConfirmationExecuting 1 2
  let _ ← updateConfirmationBatchItemStatus 4 0 (fun _ => true) .executing { startedAt := some 2 }
  let resultId ← settleConfirmation 1 .succeeded "clockify_clients_create" savedReceipt 3
  let _ ← updateConfirmationBatchItemStatus 4 0 (fun _ => true) .succeeded
    { actionResultId := some resultId, completedAt := some 3 }
  let _ ← advanceConfirmationBatchProgress 4 1

/-- Recovery leaves the batch executing, so that it can be resumed. -/
theorem recoverOrphanedRuns_keeps_batch_executing :
    (confirmFirstOfTwo.commit Db.empty).1.toOption = some () ∧
    ((recoverOrphanedRuns 4).commit (confirmFirstOfTwo.commit Db.empty).2).1.toOption.isSome ∧
    ∃ b ∈ ((recoverOrphanedRuns 4).commit (confirmFirstOfTwo.commit Db.empty).2).2.batches.rows,
      b.status = .executing := by
  decide +kernel

end Runs

end ClockifyAssistant
