import Mathlib.Logic.Relation
import ClockifyAssistant.Schema

/-!
The life of a prepared write, without rows: confirmations, operations, results
and batches as lookups, and the moves a store transaction may make on them. A
preview is claimed or dropped once; a claimed one is settled with the result it
was claimed with. The store refines these moves, so an invariant of the moves is
an invariant of the database.
-/
namespace ClockifyAssistant

namespace Lifecycle

structure ConfView where
  operationId : OperationId
  status : PendingStatus
  resultId : Option ResultId
  batchId : Option BatchId

structure OpView where
  confirmationId : Option ConfirmationId
  status : OperationRunStatus
  resultId : Option ResultId

structure ResView where
  operationId : Option OperationId
  kind : ActionResultKind

structure BatchView where
  scope : SessionScope
  tuple : Hash
  status : ConfirmationBatchStatus
  currentIndex : Nat
  expiresAt : Time

structure ItemView where
  confirmationId : ConfirmationId
  operationId : OperationId
  status : ConfirmationBatchItemStatus
  resultId : Option ResultId

/-- A step is bound once its operation has left `prepared`. -/
structure StepView where
  operationId : OperationId
  bound : Bool

structure Core where
  conf : ConfirmationId → Option ConfView
  op : OperationId → Option OpView
  res : ResultId → Option ResView
  batch : BatchId → Option BatchView
  item : BatchId × Nat → Option ItemView
  step : StepId → Option StepView
  nextId : Nat

end Lifecycle

/-- A confirmation that was taken for execution, whatever came of it. -/
def PendingStatus.claimed : PendingStatus → Bool
  | .pending | .cancelled | .expired => false
  | _ => true

def ConfirmationBatchItemStatus.started : ConfirmationBatchItemStatus → Bool
  | .pending | .cancelled => false
  | _ => true

namespace Lifecycle

open Function

def Core.claimed (c : Core) (i : ConfirmationId) : Prop :=
  ∃ x, c.conf i = some x ∧ x.status.claimed

def Core.unowned (c : Core) (o : OperationId) : Prop :=
  ∀ r z, c.res r = some z → z.operationId ≠ some o

/-- The members before item `k` of its batch. -/
def Core.before (c : Core) (k : BatchId × Nat) (i : ConfirmationId) : Prop :=
  ∃ j t, j < k.2 ∧ c.item (k.1, j) = some t ∧ t.confirmationId = i

/-- What a caller grants: which operations a run settlement may overwrite, which
statuses a batch may be given, and whether executing operations may be settled or
unknown outcomes reconciled. A batch is stored with the digest of its members. -/
structure Policy where
  digest : List (ConfirmationId × OperationId) → Hash
  override : Core → OperationId → Prop
  batchStatus : Core → BatchId → ConfirmationBatchStatus → Prop
  settles : Prop
  reconciles : Prop

/-- Rows may go, but never one that a remaining row refers to. -/
structure Shrinks (c c' : Core) : Prop where
  nextId : c'.nextId = c.nextId
  conf : ∀ i, c'.conf i = c.conf i ∨ c'.conf i = none
  op : ∀ o, c'.op o = c.op o ∨ c'.op o = none
  res : ∀ r, c'.res r = c.res r ∨ c'.res r = none
  batch : ∀ b, c'.batch b = c.batch b ∨ c'.batch b = none
  item : ∀ k, c'.item k = c.item k ∨ c'.item k = none
  step : ∀ s, c'.step s = c.step s ∨ c'.step s = none
  keepsMember : ∀ k t, c'.item k = some t →
    c'.conf t.confirmationId = c.conf t.confirmationId ∧
      c'.op t.operationId = c.op t.operationId ∧ c'.batch k.1 = c.batch k.1
  keepsResult : ∀ i x r, c'.conf i = some x → x.resultId = some r → c'.res r = c.res r

section Moves

variable (c : Core)

def Core.addPreview : Core :=
  { c with
    op := update c.op c.nextId (some ⟨some (c.nextId + 1), .prepared, none⟩)
    conf := update c.conf (c.nextId + 1) (some ⟨c.nextId, .pending, none, none⟩)
    nextId := c.nextId + 2 }

def Core.addBatch (v : BatchView) (members : List (ConfirmationId × OperationId)) : Core :=
  { c with
    batch := update c.batch c.nextId (some v)
    item := fun k =>
      if k.1 = c.nextId then members[k.2]?.map fun m => ⟨m.1, m.2, .pending, none⟩ else c.item k
    conf := fun i => (c.conf i).map fun x =>
      if i ∈ members.map Prod.fst then { x with batchId := some c.nextId } else x
    nextId := c.nextId + 1 }

def Core.addOperation : Core :=
  { c with
    op := update c.op c.nextId (some ⟨none, .executing, none⟩)
    nextId := c.nextId + 1 }

def Core.setConf (i : ConfirmationId) (x : ConfView) : Core :=
  { c with conf := update c.conf i (some x) }

def Core.setOp (o : OperationId) (y : OpView) : Core :=
  { c with op := update c.op o (some y) }

def Core.setRes (r : ResultId) (z : ResView) : Core :=
  { c with res := update c.res r (some z) }

def Core.setBatch (b : BatchId) (v : BatchView) : Core :=
  { c with batch := update c.batch b (some v) }

def Core.setItem (k : BatchId × Nat) (t : ItemView) : Core :=
  { c with item := update c.item k (some t) }

def Core.setStep (s : StepId) (v : StepView) : Core :=
  { c with step := update c.step s (some v) }

def Core.reconcileConf (o : OperationId) (y : OpView) (r : ResultId) (kind : ActionResultKind) :
    Core :=
  { c with conf := fun i => (c.conf i).map fun x =>
      if y.confirmationId = some i ∧ x.operationId = o ∧ x.status = .outcomeUnknown ∧
          x.resultId = some r then { x with status := kind.toPending }
      else x }

end Moves

/-- The steps a store transaction is made of; `base` is the next id when it began. -/
inductive Move (π : Policy) (base : Nat) : Core → Core → Prop
  | mint (c : Core) : Move π base c { c with nextId := c.nextId + 1 }
  | preview (c : Core) : Move π base c c.addPreview
  | openBatch {c : Core} {v : BatchView} {members : List (ConfirmationId × OperationId)}
      (htuple : v.tuple = π.digest members) (hindex : v.currentIndex = 0) (hnodup : (members.map Prod.fst).Nodup)
      (hmember : ∀ m ∈ members, base ≤ m.1 ∧ (∃ y, c.op m.2 = some y) ∧
        ∃ x, c.conf m.1 = some x ∧ x.operationId = m.2 ∧ x.status = .pending ∧ x.batchId = none) :
      Move π base c (c.addBatch v members)
  | operation (c : Core) : Move π base c c.addOperation
  | claim {c : Core} {i : ConfirmationId} {x : ConfView} {y : OpView} {r : ResultId}
      (hx : c.conf i = some x) (hpending : x.status = .pending)
      (hy : c.op x.operationId = some y) (hprepared : y.status = .prepared)
      (hr : c.res r = none) (hlt : r < c.nextId)
      (hbefore : ∀ k t, c.item k = some t → t.confirmationId = i →
        ∀ j, c.before k j → c.claimed j) :
      Move π base c (((c.setConf i { x with status := .executing, resultId := some r }).setOp
        x.operationId ⟨y.confirmationId, .executing, some r⟩).setRes r
          ⟨some x.operationId, .outcomeUnknown⟩)
  | drop {c : Core} {i : ConfirmationId} {x : ConfView} {y : OpView} {r : ResultId}
      {s : PendingStatus} (hx : c.conf i = some x) (hpending : x.status = .pending)
      (hs : s = .cancelled ∨ s = .expired) (hy : c.op x.operationId = some y)
      (hprepared : y.status = .prepared) (hnone : y.resultId = none) (hr : c.res r = none)
      (hlt : r < c.nextId) :
      Move π base c (((c.setConf i { x with status := s, resultId := some r }).setOp
        x.operationId ⟨y.confirmationId, .definitiveFailed, some r⟩).setRes r
          ⟨some x.operationId, .definitiveFailed⟩)
  | dropOrphan {c : Core} {i : ConfirmationId} {x : ConfView} {s : PendingStatus}
      (hx : c.conf i = some x) (hpending : x.status = .pending)
      (hs : s = .cancelled ∨ s = .expired) (hy : c.op x.operationId = none) :
      Move π base c (c.setConf i { x with status := s })
  | settle {c : Core} {i : ConfirmationId} {x : ConfView} {y : OpView} {r : ResultId}
      {z : ResView} (kind : ActionResultKind) (hx : c.conf i = some x)
      (hexec : x.status = .executing) (hxr : x.resultId = some r) (hz : c.res r = some z)
      (howned : z.operationId = some x.operationId) (hy : c.op x.operationId = some y)
      (hyexec : y.status = .executing) (hallowed : π.settles) :
      Move π base c (((c.setConf i { x with status := kind.toPending }).setOp
        x.operationId ⟨y.confirmationId, kind.toOperation, some r⟩).setRes r ⟨z.operationId, kind⟩)
  | recoverConf {c : Core} {i : ConfirmationId} {x : ConfView} {r : ResultId} {z : ResView}
      (hx : c.conf i = some x) (hexec : x.status = .executing) (hxr : x.resultId = some r)
      (hz : c.res r = some z) (howned : z.operationId = some x.operationId)
      (hop : ∀ y, c.op x.operationId = some y → y.status ≠ .executing) :
      Move π base c (c.setConf i { x with status := z.kind.toPending })
  | record {c : Core} {o : OperationId} {y : OpView} {r : ResultId} (kind : ActionResultKind)
      (hy : c.op o = some y) (hexec : y.status = .executing) (hunowned : c.unowned o)
      (hr : c.res r = none) (hlt : r < c.nextId) :
      Move π base c (c.setRes r ⟨some o, kind⟩)
  | settleOp {c : Core} {o : OperationId} {y : OpView} {r : ResultId} {z : ResView}
      (hy : c.op o = some y) (hexec : y.status = .executing) (hz : c.res r = some z)
      (howned : z.operationId = some o)
      (hconf : ∀ i x, c.conf i = some x → x.operationId = o → x.status ≠ .executing)
      (hallowed : π.settles) :
      Move π base c (c.setOp o ⟨y.confirmationId, z.kind.toOperation, some r⟩)
  | failPrepared {c : Core} {o : OperationId} {y : OpView} (hy : c.op o = some y)
      (hprepared : y.status = .prepared)
      (hconf : ∀ i x, c.conf i = some x → x.operationId ≠ o) :
      Move π base c (c.setOp o ⟨y.confirmationId, .definitiveFailed, y.resultId⟩)
  | orphanResult {c : Core} {r : ResultId} (kind : ActionResultKind) (hr : c.res r = none)
      (hlt : r < c.nextId) : Move π base c (c.setRes r ⟨none, kind⟩)
  | override {c : Core} {o : OperationId} {y : OpView} {r : ResultId} {z : ResView}
      (hy : c.op o = some y) (hz : c.res r = some z) (hown : z.operationId = none)
      (hallowed : π.override c o) :
      Move π base c (c.setOp o ⟨y.confirmationId, .definitiveFailed, some r⟩)
  | reconcile {c : Core} {o : OperationId} {y : OpView} {r : ResultId} {z : ResView}
      {kind : ActionResultKind} (hkind : kind = .succeeded ∨ kind = .partially)
      (hy : c.op o = some y) (hunknown : y.status = .outcomeUnknown)
      (hyr : y.resultId = some r) (hz : c.res r = some z) (howned : z.operationId = some o)
      (hallowed : π.reconciles) :
      Move π base c (((c.reconcileConf o y r kind).setOp o
        ⟨y.confirmationId, kind.toOperation, some r⟩).setRes r ⟨z.operationId, kind⟩)
  | reconcileFresh {c : Core} {o : OperationId} {y : OpView} {r : ResultId}
      {kind : ActionResultKind} (hkind : kind = .succeeded ∨ kind = .partially)
      (hy : c.op o = some y) (hunknown : y.status = .outcomeUnknown) (hunowned : c.unowned o)
      (hr : c.res r = none) (hlt : r < c.nextId) (hallowed : π.reconciles) :
      Move π base c ((c.setOp o ⟨y.confirmationId, kind.toOperation, some r⟩).setRes r
        ⟨some o, kind⟩)
  | step {c : Core} (s : StepId) (v : StepView) (hlt : v.operationId < c.nextId)
      (hbound : v.bound → (∃ y, c.op v.operationId = some y ∧ y.status = .executing) ∨
        ∃ s' v', c.step s' = some v' ∧ v'.operationId = v.operationId ∧ v'.bound) :
      Move π base c (c.setStep s v)
  | batchStatus {c : Core} {b : BatchId} {v : BatchView} {s : ConfirmationBatchStatus}
      (hv : c.batch b = some v) (hallowed : π.batchStatus c b s) :
      Move π base c (c.setBatch b { v with status := s })
  | advance {c : Core} {b : BatchId} {v : BatchView} {n : Nat} (hv : c.batch b = some v)
      (hclaimed : ∀ j, c.before (b, n) j → c.claimed j) :
      Move π base c (c.setBatch b { v with currentIndex := n })
  | itemStatus {c : Core} {k : BatchId × Nat} {t : ItemView}
      {s : ConfirmationBatchItemStatus} (rid : Option ResultId) (ht : c.item k = some t)
      (hstarted : s.started) (hclaimed : c.claimed t.confirmationId) :
      Move π base c (c.setItem k ⟨t.confirmationId, t.operationId, s, rid⟩)
  | itemCancelled {c : Core} {k : BatchId × Nat} {t : ItemView} (ht : c.item k = some t)
      (hpending : t.status = .pending) :
      Move π base c (c.setItem k ⟨t.confirmationId, t.operationId, .cancelled, t.resultId⟩)
  | forget {c c' : Core} (h : Shrinks c c') : Move π base c c'

structure Inv (c : Core) : Prop where
  conf_lt : ∀ i x, c.conf i = some x → i < c.nextId ∧ x.operationId < c.nextId
  op_lt : ∀ o y, c.op o = some y → o < c.nextId ∧ ∀ i, y.confirmationId = some i → i < c.nextId
  res_lt : ∀ r z, c.res r = some z → r < c.nextId ∧ ∀ o, z.operationId = some o → o < c.nextId
  batch_lt : ∀ b v, c.batch b = some v → b < c.nextId
  step_lt : ∀ s v, c.step s = some v → v.operationId < c.nextId
  link : ∀ i x y, c.conf i = some x → c.op x.operationId = some y → y.confirmationId = some i
  owned_unique : ∀ r r' z z' o, c.res r = some z → c.res r' = some z' →
    z.operationId = some o → z'.operationId = some o → r = r'
  pending : ∀ i x, c.conf i = some x → x.status = .pending →
    x.resultId = none ∧ c.unowned x.operationId ∧ ∀ y, c.op x.operationId = some y →
      (y.status = .prepared ∧ y.resultId = none) ∨ y.status = .definitiveFailed
  dropped : ∀ i x, c.conf i = some x → x.status = .cancelled ∨ x.status = .expired →
    ∀ y, c.op x.operationId = some y → y.status = .definitiveFailed
  claimed : ∀ i x, c.conf i = some x → x.status.claimed →
    (∃ r z, x.resultId = some r ∧ c.res r = some z ∧ z.operationId = some x.operationId) ∧
      ∀ y, c.op x.operationId = some y → y.status ≠ .prepared
  executing : ∀ o y i, c.op o = some y → y.confirmationId = some i → y.status = .executing →
    y.resultId ≠ none
  item_conf : ∀ k t, c.item k = some t → ∃ x, c.conf t.confirmationId = some x ∧
    x.operationId = t.operationId ∧ x.batchId = some k.1
  item_op : ∀ k t, c.item k = some t → ∃ y, c.op t.operationId = some y
  item_batch : ∀ k t, c.item k = some t → ∃ v, c.batch k.1 = some v
  item_unique : ∀ k k' t t', c.item k = some t → c.item k' = some t' →
    t.confirmationId = t'.confirmationId → k = k'
  started : ∀ k t, c.item k = some t → t.status.started → c.claimed t.confirmationId
  unstarted : ∀ k t, c.item k = some t → t.status.started = false → t.resultId = none
  progress : ∀ b v, c.batch b = some v → ∀ i, c.before (b, v.currentIndex) i → c.claimed i
  prefix_claimed : ∀ k t, c.item k = some t → c.claimed t.confirmationId →
    ∀ i, c.before k i → c.claimed i
  bound : ∀ s v y, c.step s = some v → v.bound → c.op v.operationId = some y → y.status ≠ .prepared
  unbound : ∀ i x s v, c.conf i = some x → x.status = .pending → c.step s = some v →
    v.operationId = x.operationId → v.bound = false

end Lifecycle

end ClockifyAssistant
