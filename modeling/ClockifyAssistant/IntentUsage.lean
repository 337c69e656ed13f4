import Mathlib.Data.List.Induction
import ClockifyAssistant.Store.IntentCapabilities

/-!
How often a capability is used up. A consumption takes the next index of its
capability and action, up to the limit of that action, and a bound operation never
changes, so asking again for one that was counted finds its index.
-/
namespace ClockifyAssistant

open Lib Txn

inductive ConsumeCall
  | execution (input : BindIntentCapabilityOperationInput)
  | forOperation (input : IntentCapabilityOperationScope)

def ConsumeCall.operationId : ConsumeCall → OperationId
  | .execution input => input.operationId
  | .forOperation input => input.operationId

def ConsumeCall.run (hashIntentCapability : IntentCapability → Hash) (call : ConsumeCall)
    (now : Time) : CapabilityTxn ConsumeResult :=
  match call with
  | .execution input => consumeIntentCapabilityExecution input now
  | .forOperation input => consumeIntentCapabilityForOperation hashIntentCapability input now

def insertOperation (row : OperationBindingRow) : CapabilityTxn Unit := do
  let db ← get
  if h : db.operations.get? (key row) = none then
    set { db with operations := db.operations.insert row h }
  else throw (.unique "operation_runs")

def insertConfirmation (row : ConfirmationBindingRow) : CapabilityTxn Unit := do
  let db ← get
  if h : db.confirmations.get? (key row) = none then
    set { db with confirmations := db.confirmations.insert row h }
  else throw (.unique "pending_confirmations")

inductive CapabilityStep
  | create (input : CreateIntentCapabilityInput) (now : Time)
  | prepare (row : OperationBindingRow)
  | confirmation (row : ConfirmationBindingRow)
  | bind (input : BindIntentCapabilityOperationInput)
  | consume (call : ConsumeCall) (now : Time)

def CapabilityDb.step (hashIntentCapability : IntentCapability → Hash) (db : CapabilityDb) :
    CapabilityStep → CapabilityDb
  | .create input now => ((createIntentCapability hashIntentCapability input now).commit db).2
  | .prepare row => ((insertOperation row).commit db).2
  | .confirmation row => ((insertConfirmation row).commit db).2
  | .bind input => ((bindIntentCapabilityOperation input).commit db).2
  | .consume call now => ((call.run hashIntentCapability now).commit db).2

def runCapabilities (hashIntentCapability : IntentCapability → Hash) (db : CapabilityDb)
    (steps : List CapabilityStep) : CapabilityDb :=
  steps.foldl (CapabilityDb.step hashIntentCapability) db

def CapabilityDb.empty : CapabilityDb := ⟨.empty, .empty, .empty, .empty⟩

/-- A use of a capability is one that the capability grants to an operation of its owner. -/
structure GrantedUsage (db : CapabilityDb) (u : CapabilityUsage) (row : CapabilityRow)
    (operation : OperationBindingRow) : Prop where
  capability : db.capabilities.get? u.capabilityId = some row
  prepared : db.operations.get? u.operationId = some operation
  bound : operation.capabilityId = some u.capabilityId
  action : operation.actionName = u.actionName
  allowed : row.capability.mode = .allow
  declared : ∃ grant ∈ row.capability.writeActions, grant.actionName = u.actionName
  workspace : operation.workspaceId = row.scope.workspaceId
  admin : operation.adminUserId = row.scope.adminUserId
  session : operation.sessionId = row.scope.sessionId
  request : operation.requestId = some row.scope.requestId

structure UsageInvariant (db : CapabilityDb) : Prop where
  granted : ∀ u ∈ db.usage.rows, ∃ row operation, GrantedUsage db u row operation
  numbered : ∀ capabilityId actionName,
    (db.usageOf capabilityId actionName).map CapabilityUsage.executionIndex =
      List.range' 1 (db.usageOf capabilityId actionName).length
  limited : ∀ capabilityId row, db.capabilities.get? capabilityId = some row →
    ∀ grant ∈ row.capability.writeActions,
      (db.usageOf capabilityId grant.actionName).length ≤ grant.maxExecutions

theorem UsageInvariant.empty : UsageInvariant .empty := by
  refine ⟨?_, ?_, ?_⟩
  · intro u hu
    cases hu
  · intro capabilityId actionName
    rfl
  · intro capabilityId row hrow
    cases hrow

/-- Capabilities and bound operations stay, and uses are only added. -/
structure Advances (db db' : CapabilityDb) : Prop where
  capabilities : ∀ k row, db.capabilities.get? k = some row → db'.capabilities.get? k = some row
  operations : ∀ k operation, db.operations.get? k = some operation →
    operation.capabilityId ≠ none → db'.operations.get? k = some operation
  usage : ∃ more, db'.usage.rows = db.usage.rows ++ more
  invariant : UsageInvariant db → UsageInvariant db'

namespace Advances

variable {db db' db'' : CapabilityDb}

theorem refl (db : CapabilityDb) : Advances db db :=
  ⟨fun _ _ h => h, fun _ _ h _ => h, ⟨[], (List.append_nil _).symm⟩, id⟩

theorem trans (h : Advances db db') (h' : Advances db' db'') : Advances db db'' := by
  refine ⟨fun k row hrow => h'.capabilities k row (h.capabilities k row hrow), ?_, ?_,
    fun hinv => h'.invariant (h.invariant hinv)⟩
  · intro k operation hoperation hbound
    exact h'.operations k operation (h.operations k operation hoperation hbound) hbound
  · obtain ⟨more, hmore⟩ := h.usage
    obtain ⟨more', hmore'⟩ := h'.usage
    exact ⟨more ++ more', by rw [hmore', hmore, List.append_assoc]⟩

theorem of_usage (husage : db'.usage = db.usage)
    (hcapabilities : ∀ k row, db.capabilities.get? k = some row →
      db'.capabilities.get? k = some row)
    (hoperations : ∀ k operation, db.operations.get? k = some operation →
      operation.capabilityId ≠ none → db'.operations.get? k = some operation) :
    Advances db db' := by
  refine ⟨hcapabilities, hoperations, ⟨[], by rw [husage, List.append_nil]⟩, ?_⟩
  intro h
  have husageOf : ∀ capabilityId actionName,
      db'.usageOf capabilityId actionName = db.usageOf capabilityId actionName := by
    intro capabilityId actionName
    unfold CapabilityDb.usageOf
    rw [husage]
  refine ⟨?_, ?_, ?_⟩
  · intro u hu
    rw [husage] at hu
    obtain ⟨row, operation, hgranted⟩ := h.granted u hu
    refine ⟨row, operation, { hgranted with
      capability := hcapabilities _ _ hgranted.capability
      prepared := hoperations _ _ hgranted.prepared ?_ }⟩
    rw [hgranted.bound]
    exact Option.some_ne_none _
  · intro capabilityId actionName
    rw [husageOf]
    exact h.numbered capabilityId actionName
  · intro capabilityId row hrow grant hgrant
    rw [husageOf]
    cases hold : db.capabilities.get? capabilityId with
    | some old =>
      rw [hcapabilities _ _ hold] at hrow
      injection hrow with hsame
      exact h.limited capabilityId old hold grant (hsame ▸ hgrant)
    | none =>
      have hnone : db.usageOf capabilityId grant.actionName = [] := by
        unfold CapabilityDb.usageOf
        rw [List.filter_eq_nil_iff]
        intro u hu hkey
        obtain ⟨old, operation, hgranted⟩ := h.granted u hu
        have hid : u.capabilityId = capabilityId := by
          simpa using (Bool.and_eq_true_iff.mp hkey).1
        rw [← hid, hgranted.capability] at hold
        cases hold
      rw [hnone]
      exact Nat.zero_le _

end Advances

abbrev AdvancesUsage {α : Type} (m : CapabilityTxn α) : Prop := Within Advances m

theorem advances_insertOperation (row : OperationBindingRow) :
    AdvancesUsage (insertOperation row) := by
  refine within_get_bind fun db => ?_
  split
  · rename_i hfresh
    refine Advances.of_usage rfl (fun _ _ h => h) ?_
    intro k operation hoperation _
    show (db.operations.insert row hfresh).get? k = some operation
    rw [Table.get?_insert, if_neg, hoperation]
    intro hk
    rw [← hk, hoperation] at hfresh
    cases hfresh
  · trivial

theorem advances_insertConfirmation (row : ConfirmationBindingRow) :
    AdvancesUsage (insertConfirmation row) := by
  refine within_get_bind fun db => ?_
  split
  · exact Advances.of_usage rfl (fun _ _ h => h) fun _ _ h _ => h
  · trivial

/-- A transaction that only reads and checks. -/
def ReadsOnly {α : Type} (m : CapabilityTxn α) : Prop := Within (fun db db' => db' = db) m

theorem reads_assertScope (row : CapabilityRow) (scope : IntentCapabilityScope)
    (capabilityHash : Option Hash) : ReadsOnly (assertScope row scope capabilityHash) := by
  intro db
  unfold assertScope
  simp only [wp_bind, wp_require]
  simp

theorem scopedCapability_spec (id : CapabilityId) (scope : IntentCapabilityScope)
    (capabilityHash : Option Hash) (db : CapabilityDb) :
    wp (scopedCapability id scope capabilityHash)
      (fun row db' => db' = db ∧ db.capabilities.get? id = some row ∧ row.scope = scope ∧
        ∀ hash ∈ capabilityHash, row.capabilityHash = hash) (fun _ => True) db := by
  unfold scopedCapability
  rw [wp_bind, wp_get, wp_bind, wp_demand]
  refine ⟨?_, fun _ => trivial⟩
  intro row hrow
  unfold assertScope
  simp only [wp_bind, wp_require, wp_pure, implies_true, and_true]
  intro hworkspace hadmin hsession hrequest hcatalog hhash
  refine ⟨trivial, hrow, ?_, hhash⟩
  cases hscope : row.scope
  cases scope
  rw [hscope] at hworkspace hadmin hsession hrequest hcatalog
  simp_all

theorem operationBinding_spec (input : BindIntentCapabilityOperationInput) (db : CapabilityDb) :
    wp (operationBinding input)
      (fun operation db' => db' = db ∧ db.operations.get? input.operationId = some operation ∧
        operation.workspaceId = input.scope.workspaceId ∧
        operation.adminUserId = input.scope.adminUserId ∧
        operation.sessionId = input.scope.sessionId ∧
        operation.requestId = some input.scope.requestId ∧
        operation.catalogHash = input.scope.catalogHash ∧
        operation.actionName = input.actionName) (fun _ => True) db := by
  unfold operationBinding
  rw [wp_bind, wp_get, wp_bind, wp_demand]
  refine ⟨?_, fun _ => trivial⟩
  intro operation hoperation
  simp only [wp_bind, wp_require, wp_pure, implies_true, and_true]
  intro hworkspace hadmin hsession hrequest hcatalog haction
  exact ⟨trivial, hoperation, hworkspace, hadmin, hsession, hrequest, hcatalog, haction⟩

theorem reads_boundConfirmation (input : BindIntentCapabilityOperationInput)
    (confirmationId : Option ConfirmationId) :
    ReadsOnly (boundConfirmation input confirmationId) := by
  intro db
  unfold boundConfirmation
  cases confirmationId with
  | none => rfl
  | some id =>
    dsimp only
    rw [wp_bind, wp_get, wp_bind, wp_demand]
    refine ⟨?_, fun _ => trivial⟩
    intro confirmation _
    unfold assertConfirmation
    simp only [wp_bind, wp_require, wp_pure, implies_true, and_true]

theorem advances_bindIntentCapabilityOperation (input : BindIntentCapabilityOperationInput) :
    AdvancesUsage (bindIntentCapabilityOperation input) := by
  intro db
  unfold bindIntentCapabilityOperation
  refine wp_seq (scopedCapability_spec _ _ _ db) ?_
  rintro row db' ⟨rfl, -⟩
  refine wp_seq (operationBinding_spec input db') ?_
  rintro found db ⟨rfl, -⟩
  simp only [wp_bind, wp_require, implies_true, and_true]
  intro _ _ _
  refine wp_mono (reads_boundConfirmation input _ db) ?_ fun _ _ => trivial
  rintro confirmation db' rfl
  refine wp_ite (fun _ => Advances.refl db') fun _ => ?_
  simp only [wp_bind, wp_require, wp_modify, implies_true, and_true]
  intro _
  refine Advances.of_usage rfl (fun _ _ h => h) ?_
  intro k operation hoperation hbound
  dsimp only
  rw [Table.get?_updateWhere, hoperation, Option.map_some]
  have hskip : operation.capabilityId.isNone = false := by
    rw [Option.isNone_eq_false_iff, Option.isSome_iff_ne_none]
    exact hbound
  simp [hskip]

theorem advances_createIntentCapability (hashIntentCapability : IntentCapability → Hash)
    (input : CreateIntentCapabilityInput) (now : Time) :
    AdvancesUsage (createIntentCapability hashIntentCapability input now) := by
  refine within_get_bind fun db => ?_
  dsimp only
  split
  · rw [wp_bind]
    refine wp_mono (reads_assertScope _ _ _ db) ?_ fun _ _ => trivial
    rintro _ db' rfl
    exact Advances.refl db'
  · split
    · rename_i hfresh
      refine Advances.of_usage rfl ?_ fun _ _ h _ => h
      intro k row hrow
      show (db.capabilities.insert _ hfresh).get? k = some row
      rw [Table.get?_insert, if_neg, hrow]
      intro hk
      rw [← hk, hrow] at hfresh
      cases hfresh
    · trivial

/-- The operation is the owner's and bound to the capability that the call names. -/
structure BoundTo (db : CapabilityDb) (row : CapabilityRow) (operation : OperationBindingRow)
    (capabilityId : CapabilityId) (operationId : OperationId) : Prop where
  capability : db.capabilities.get? capabilityId = some row
  prepared : db.operations.get? operationId = some operation
  bound : operation.capabilityId = some capabilityId
  workspace : operation.workspaceId = row.scope.workspaceId
  admin : operation.adminUserId = row.scope.adminUserId
  session : operation.sessionId = row.scope.sessionId
  request : operation.requestId = some row.scope.requestId

/-- The rows that the checks of a call let pass. -/
def ConsumeCall.Admits (hashIntentCapability : IntentCapability → Hash) (db : CapabilityDb)
    (row : CapabilityRow) (operation : OperationBindingRow) : ConsumeCall → Prop
  | .execution input => BoundTo db row operation input.capabilityId input.operationId ∧
      row.scope = input.scope ∧ row.capabilityHash = input.capabilityHash ∧
      operation.catalogHash = input.scope.catalogHash ∧ operation.actionName = input.actionName ∧
      operation.capabilityHash = some input.capabilityHash
  | .forOperation input => BoundTo db row operation input.capabilityId input.operationId ∧
      operation.workspaceId = input.workspaceId ∧ operation.adminUserId = input.adminUserId ∧
      operation.sessionId = input.sessionId ∧
      operation.capabilityHash = some input.capabilityHash ∧
      (row.scope.catalogHash = operation.catalogHash ∧
        ∀ hash ∈ input.expectedCatalogHash, operation.catalogHash = hash) ∧
      (∀ name ∈ input.expectedActionName, operation.actionName = name) ∧
      row.capability.requestHash = row.scope.requestHash ∧
      row.capability.catalogHash = row.scope.catalogHash ∧
      (operation.capabilityHash = some row.capabilityHash ∧
        hashIntentCapability row.capability = row.capabilityHash) ∧
      ∃ action ∈ row.capability.writeActions, action.actionName = operation.actionName

variable {operation : OperationBindingRow} {row : CapabilityRow}

theorem BoundTo.advances {db db' : CapabilityDb} {capabilityId : CapabilityId}
    {operationId : OperationId}
    (h : BoundTo db row operation capabilityId operationId) (hdb : Advances db db') :
    BoundTo db' row operation capabilityId operationId :=
  { h with
    capability := hdb.capabilities _ _ h.capability
    prepared := hdb.operations _ _ h.prepared (by rw [h.bound]; exact Option.some_ne_none _) }

variable {hashIntentCapability : IntentCapability → Hash} {call : ConsumeCall}

theorem ConsumeCall.Admits.advances
    {db db' : CapabilityDb} (h : call.Admits hashIntentCapability db row operation)
    (hdb : Advances db db') : call.Admits hashIntentCapability db' row operation := by
  cases call with
  | execution input => exact ⟨h.1.advances hdb, h.2⟩
  | forOperation input => exact ⟨h.1.advances hdb, h.2⟩

theorem ConsumeCall.Admits.boundTo
    {db : CapabilityDb} (h : call.Admits hashIntentCapability db row operation) :
    BoundTo db row operation row.id call.operationId := by
  cases call with
  | execution input =>
    have hid : row.id = input.capabilityId := Table.key_of_get? h.1.capability
    rw [hid]
    exact h.1
  | forOperation input =>
    have hid : row.id = input.capabilityId := Table.key_of_get? h.1.capability
    rw [hid]
    exact h.1

theorem ConsumeCall.run_of_admits
    {db : CapabilityDb} (h : call.Admits hashIntentCapability db row operation) (now : Time) :
    call.run hashIntentCapability now db =
      consumeBoundOperation row call.operationId operation.actionName now db := by
  cases call with
  | execution input =>
    obtain ⟨hbound, hscope, hhash, hcatalog, haction, hbinding⟩ := h
    have hassert : assertScope row input.scope (some input.capabilityHash) db = .ok ((), db) := by
      unfold assertScope
      rw [bind_ok (require_ok (congrArg IntentCapabilityScope.workspaceId hscope) _ _),
        bind_ok (require_ok (congrArg IntentCapabilityScope.adminUserId hscope) _ _),
        bind_ok (require_ok (congrArg IntentCapabilityScope.sessionId hscope) _ _),
        bind_ok (require_ok ⟨congrArg IntentCapabilityScope.requestId hscope,
          congrArg IntentCapabilityScope.requestHash hscope⟩ _ _),
        bind_ok (require_ok (congrArg IntentCapabilityScope.catalogHash hscope) _ _)]
      exact require_ok (by simpa using hhash) _ _
    have hrow : scopedCapability input.capabilityId input.scope (some input.capabilityHash) db =
        .ok (row, db) := by
      unfold scopedCapability
      rw [get_bind, bind_ok (demand_ok hbound.capability _ _), bind_ok hassert]
      rfl
    have hoperation : operationBinding input db = .ok (operation, db) := by
      unfold operationBinding
      rw [← hscope, get_bind, bind_ok (demand_ok hbound.prepared _ _),
        bind_ok (require_ok hbound.workspace _ _), bind_ok (require_ok hbound.admin _ _),
        bind_ok (require_ok hbound.session _ _), bind_ok (require_ok hbound.request _ _),
        bind_ok (require_ok (hscope ▸ hcatalog) _ _), bind_ok (require_ok haction _ _)]
      rfl
    show (scopedCapability _ _ _ >>= _) db = _
    rw [bind_ok hrow, bind_ok hoperation, bind_ok (require_ok ⟨hbound.bound, hbinding⟩ _ _),
      haction]
    rfl
  | forOperation input =>
    obtain ⟨hbound, hworkspace, hadmin, hsession, hbinding, hcatalog, haction, hrequest,
      hparsed, hhash, hdeclared⟩ := h
    have hbinding' : operation.capabilityId ≠ none ∧ operation.capabilityHash ≠ none := by
      rw [hbound.bound, hbinding]
      exact ⟨Option.some_ne_none _, Option.some_ne_none _⟩
    have hfound : capabilityForOperation hashIntentCapability input db =
        .ok ((row, operation), db) := by
      unfold capabilityForOperation
      rw [get_bind, bind_ok (demand_ok hbound.prepared _ _),
        bind_ok (require_ok hworkspace _ _), bind_ok (require_ok hadmin _ _),
        bind_ok (require_ok hsession _ _), bind_ok (require_ok hbinding' _ _),
        bind_ok (require_ok hbound.bound _ _), bind_ok (require_ok hbinding _ _),
        bind_ok (demand_ok hbound.capability _ _),
        bind_ok (require_ok hbound.workspace.symm _ _),
        bind_ok (require_ok hbound.admin.symm _ _), bind_ok (require_ok hbound.session.symm _ _),
        bind_ok (require_ok hbound.request.symm _ _), bind_ok (require_ok hcatalog _ _),
        bind_ok (require_ok haction _ _), bind_ok (require_ok hrequest _ _),
        bind_ok (require_ok hparsed _ _), bind_ok (require_ok hhash _ _),
        bind_ok (require_ok hdeclared _ _)]
      rfl
    have hid : operation.id = input.operationId := Table.key_of_get? hbound.prepared
    show (capabilityForOperation _ _ >>= _) db = _
    rw [bind_ok hfound]
    show consumeBoundOperation row operation.id _ now db = _
    rw [hid]
    rfl

variable {a : ConsumeResult}

theorem ConsumeCall.admits_of_ok {db db' : CapabilityDb} {now : Time}
    (h : call.run hashIntentCapability now db = .ok (a, db')) :
    ∃ row operation, call.Admits hashIntentCapability db row operation := by
  cases call with
  | execution input =>
    have hspec : wp (consumeIntentCapabilityExecution input now) (fun _ _ => ∃ row operation,
        (ConsumeCall.execution input).Admits hashIntentCapability db row operation)
        (fun _ => True) db := by
      unfold consumeIntentCapabilityExecution
      refine wp_seq (scopedCapability_spec _ _ _ db) ?_
      rintro row db₁ ⟨rfl, hrow, hscope, hhash⟩
      refine wp_seq (operationBinding_spec input db₁) ?_
      rintro operation db₂ ⟨rfl, hoperation, hworkspace, hadmin, hsession, hrequest, hcatalog,
        haction⟩
      rw [wp_bind, wp_require]
      refine ⟨?_, fun _ => trivial⟩
      intro hbinding
      rw [← hscope] at hworkspace hadmin hsession hrequest
      refine wp_iff_forall.mpr fun _ _ _ => ⟨row, operation, ?_⟩
      exact ⟨⟨hrow, hoperation, hbinding.1, hworkspace, hadmin, hsession, hrequest⟩, hscope,
        hhash _ rfl, hcatalog, haction, hbinding.2⟩
    exact wp_ok hspec h
  | forOperation input =>
    have hspec : wp (consumeIntentCapabilityForOperation hashIntentCapability input now)
        (fun _ _ => ∃ row operation,
          (ConsumeCall.forOperation input).Admits hashIntentCapability db row operation)
        (fun _ => True) db := by
      unfold consumeIntentCapabilityForOperation capabilityForOperation
      simp only [wp_bind, wp_get, wp_require, wp_demand, wp_pure, implies_true, and_true]
      intro operation hoperation hworkspace hadmin hsession _ hbound hbinding row hrow
        hworkspace' hadmin' hsession' hrequest' hcatalog haction hrequest hparsed hhash hdeclared
      refine wp_iff_forall.mpr fun _ _ _ => ⟨row, operation, ?_⟩
      exact ⟨⟨hrow, hoperation, hbound, hworkspace'.symm, hadmin'.symm, hsession'.symm,
        hrequest'.symm⟩, hworkspace, hadmin, hsession, hbinding, hcatalog, haction, hrequest,
        hparsed, hhash, hdeclared⟩
    exact wp_ok hspec h

variable {u : CapabilityUsage}

theorem usageOf_append {db db' : CapabilityDb}
    (h : db'.usage.rows = db.usage.rows ++ [u]) (capabilityId : CapabilityId)
    (actionName : String) :
    db'.usageOf capabilityId actionName = db.usageOf capabilityId actionName ++
      if u.capabilityId = capabilityId ∧ u.actionName = actionName then [u] else [] := by
  unfold CapabilityDb.usageOf
  rw [h, List.filter_append]
  congr 1
  by_cases hu : u.capabilityId = capabilityId ∧ u.actionName = actionName
  · rw [if_pos hu]
    simp [hu]
  · rw [if_neg hu]
    simpa using hu

theorem advances_insert {db db' : CapabilityDb} {grant : IntentWriteAction}
    (husage : db'.usage.rows = db.usage.rows ++ [u])
    (hcapabilities : db'.capabilities = db.capabilities)
    (hoperations : db'.operations = db.operations)
    (hgranted : GrantedUsage db u row operation) (hgrant : grant ∈ row.capability.writeActions)
    (hname : grant.actionName = u.actionName)
    (hindex : u.executionIndex = (db.usageOf u.capabilityId u.actionName).length + 1)
    (hlimit : (db.usageOf u.capabilityId u.actionName).length < grant.maxExecutions) :
    Advances db db' := by
  refine ⟨fun _ _ h => hcapabilities ▸ h, fun _ _ h _ => hoperations ▸ h, ⟨[u], husage⟩, ?_⟩
  intro h
  refine ⟨?_, ?_, ?_⟩
  · intro v hv
    rw [husage] at hv
    have hgranted' : ∃ row operation, GrantedUsage db v row operation := by
      rcases List.mem_append.mp hv with hold | hnew
      · exact h.granted v hold
      · rw [List.mem_singleton.mp hnew]
        exact ⟨row, operation, hgranted⟩
    obtain ⟨row', operation', hv'⟩ := hgranted'
    exact ⟨row', operation', { hv' with
      capability := hcapabilities ▸ hv'.capability
      prepared := hoperations ▸ hv'.prepared }⟩
  · intro capabilityId actionName
    rw [usageOf_append husage]
    by_cases hu : u.capabilityId = capabilityId ∧ u.actionName = actionName
    · rw [if_pos hu, List.map_append, h.numbered, List.length_append, List.map_singleton, hindex,
        List.length_singleton, List.range'_concat, hu.1, hu.2]
      simp [Nat.add_comm]
    · rw [if_neg hu, List.append_nil]
      exact h.numbered capabilityId actionName
  · intro capabilityId row' hrow' grant' hgrant'
    rw [usageOf_append husage]
    rw [hcapabilities] at hrow'
    by_cases hu : u.capabilityId = capabilityId ∧ u.actionName = grant'.actionName
    · have hsame : row' = row := by
        rw [← hu.1, hgranted.capability] at hrow'
        injection hrow' with hrow'
        exact hrow'.symm
      subst hsame
      have hgrants : grant' = grant :=
        List.inj_on_of_nodup_map row'.capability.distinct hgrant' hgrant
          (hu.2.symm.trans hname.symm)
      rw [if_pos hu, List.length_append, List.length_singleton, ← hu.1, ← hu.2, hgrants]
      exact hlimit
    · rw [if_neg hu, List.append_nil]
      exact h.limited capabilityId row' hrow' grant' hgrant'

theorem insertUsage_spec {db : CapabilityDb}
    (hcapability : (db.capabilities.get? u.capabilityId).isSome)
    (hoperation : (db.operations.get? u.operationId).isSome)
    (hindex : ∀ v ∈ db.usageOf u.capabilityId u.actionName, v.executionIndex ≠ u.executionIndex)
    (hfresh : db.usage.get? (key u) = none) :
    wp (insertUsage u) (fun _ db' => db' = { db with usage := db.usage.insert u hfresh })
      (fun _ => False) db := by
  unfold insertUsage
  simp only [wp_bind, wp_get, wp_require]
  refine ⟨fun _ => ⟨fun _ => ⟨fun _ => ?_, fun h => absurd hindex h⟩, fun h => absurd hoperation h⟩,
    fun h => absurd hcapability h⟩
  rw [dif_pos hfresh]
  rfl

/-- What a consumption leaves when its operation has no use yet. -/
structure FirstUse (db : CapabilityDb) (operationId : OperationId) (a : ConsumeResult)
    (db' : CapabilityDb) : Prop where
  advances : Advances db db'
  counted : ∀ e, a = .consumed e → ∃ u, db'.usage.get? operationId = some u ∧ u.executionIndex = e
  fresh : ∀ e, a ≠ .replay e

theorem FirstUse.denied (db : CapabilityDb) (operationId : OperationId) (reason : DeniedReason) :
    FirstUse db operationId (.denied reason) db := by
  refine ⟨Advances.refl db, ?_, ?_⟩
  · intro e he
    cases he
  · intro e he
    cases he

/-- A consumption finds the index of its operation, or is denied, or adds one use. -/
theorem consumeBoundOperation_spec {db : CapabilityDb} {operationId : OperationId}
    (h : UsageInvariant db) (hbound : BoundTo db row operation row.id operationId) (now : Time) :
    wp (consumeBoundOperation row operationId operation.actionName now) (fun a db' =>
        (∀ u, db.usage.get? operationId = some u → a = .replay u.executionIndex ∧ db' = db) ∧
        (db.usage.get? operationId = none → FirstUse db operationId a db'))
      (fun _ => False) db := by
  have hknown : ∀ u, db.usage.get? operationId = some u → u.capabilityId = row.id ∧
      u.actionName = operation.actionName ∧ row.capability.mode = .allow ∧
      ∃ grant ∈ row.capability.writeActions, grant.actionName = operation.actionName := by
    intro u hu
    obtain ⟨row', operation', hgranted⟩ := h.granted u (Table.mem_of_get? hu)
    have hid : u.operationId = operationId := Table.key_of_get? hu
    have hoperation := hgranted.prepared
    rw [hid, hbound.prepared] at hoperation
    injection hoperation with hoperation
    subst hoperation
    have hcapability : u.capabilityId = row.id :=
      Option.some.inj (hgranted.bound.symm.trans hbound.bound)
    have hrow := hgranted.capability
    rw [hcapability, hbound.capability] at hrow
    injection hrow with hrow
    subst hrow
    exact ⟨hcapability, hgranted.action.symm, hgranted.allowed, hgranted.action ▸ hgranted.declared⟩
  unfold consumeBoundOperation
  refine wp_ite (fun hdeny => ?_) fun hallow => ?_
  · refine ⟨?_, fun _ => FirstUse.denied db operationId _⟩
    intro u hu
    rw [(hknown u hu).2.2.1] at hdeny
    cases hdeny
  split
  · rename_i hfind
    refine ⟨?_, fun _ => FirstUse.denied db operationId _⟩
    intro u hu
    obtain ⟨-, -, -, grant, hgrant, hname⟩ := hknown u hu
    have hnot := List.find?_eq_none.mp hfind grant hgrant
    simp [hname] at hnot
  rename_i grant hfind
  rw [wp_bind, wp_get]
  dsimp only
  split
  · rename_i existing hexisting
    obtain ⟨hcapability, haction, -⟩ := hknown existing hexisting
    rw [wp_bind, wp_require]
    refine ⟨fun _ => ⟨?_, ?_⟩, fun hdrift => absurd ⟨hcapability, haction⟩ hdrift⟩
    · intro u hu
      rw [hexisting] at hu
      injection hu with hu
      exact ⟨by rw [hu], rfl⟩
    · intro hnone
      rw [hexisting] at hnone
      cases hnone
  · rename_i hnone
    refine wp_ite (fun _ => ?_) fun hbelow => ?_
    · refine ⟨?_, fun _ => FirstUse.denied db operationId _⟩
      intro u hu
      rw [hnone] at hu
      cases hu
    · have hallowed : row.capability.mode = .allow := by
        cases hmode : row.capability.mode with
        | allow => rfl
        | denyAllWrites => exact absurd hmode hallow
      have hgrant : grant ∈ row.capability.writeActions := List.mem_of_find?_eq_some hfind
      have hname : grant.actionName = operation.actionName := by
        simpa using List.find?_some hfind
      let u : CapabilityUsage := {
        capabilityId := row.id
        operationId
        actionName := operation.actionName
        executionIndex := (db.usageOf row.id operation.actionName).length + 1
        createdAt := now }
      have hindex : ∀ v ∈ db.usageOf row.id operation.actionName,
          v.executionIndex ≠ (db.usageOf row.id operation.actionName).length + 1 := by
        intro v hv
        have hmem := List.mem_map_of_mem (f := CapabilityUsage.executionIndex) hv
        rw [h.numbered, List.mem_range'_1] at hmem
        omega
      have hfresh : db.usage.get? (key u) = none := hnone
      rw [wp_bind]
      refine wp_mono (insertUsage_spec (u := u) (by rw [hbound.capability]; rfl)
        (by rw [hbound.prepared]; rfl) hindex hfresh) ?_ fun _ he => he
      rintro _ db' rfl
      refine ⟨?_, fun _ => ⟨?_, ?_, ?_⟩⟩
      · intro v hv
        rw [hnone] at hv
        cases hv
      · have hgranted : GrantedUsage db u row operation :=
          ⟨hbound.capability, hbound.prepared, hbound.bound, rfl, hallowed,
            ⟨grant, hgrant, hname⟩, hbound.workspace, hbound.admin, hbound.session,
            hbound.request⟩
        exact advances_insert rfl rfl rfl hgranted hgrant hname rfl (Nat.lt_of_not_le hbelow)
      · intro e he
        injection he with he
        refine ⟨u, ?_, he⟩
        show (db.usage.insert u hfresh).get? operationId = some u
        rw [Table.get?_insert]
        exact if_pos rfl
      · intro e he
        cases he

/-- A call on an operation that has a use finds its index and changes nothing. -/
theorem ConsumeCall.run_again {db db' : CapabilityDb} (h : UsageInvariant db)
    (hu : db.usage.get? call.operationId = some u) {now : Time}
    (hrun : call.run hashIntentCapability now db = .ok (a, db')) :
    a = .replay u.executionIndex ∧ db' = db := by
  obtain ⟨row, operation, hadmits⟩ := ConsumeCall.admits_of_ok hrun
  rw [ConsumeCall.run_of_admits hadmits] at hrun
  exact (wp_ok (consumeBoundOperation_spec h hadmits.boundTo now) hrun).1 u hu

theorem ConsumeCall.run_advances (hashIntentCapability : IntentCapability → Hash)
    {db : CapabilityDb} (h : UsageInvariant db) (call : ConsumeCall) (now : Time) :
    Advances db ((call.run hashIntentCapability now).commit db).2 := by
  refine commit_inv (Advances.refl db) (wp_iff_forall.mpr ?_)
  intro a db' hrun
  obtain ⟨row, operation, hadmits⟩ := ConsumeCall.admits_of_ok hrun
  have hbound := hrun
  rw [ConsumeCall.run_of_admits hadmits] at hbound
  have hspec := wp_ok (consumeBoundOperation_spec h hadmits.boundTo now) hbound
  cases hu : db.usage.get? call.operationId with
  | none => exact (hspec.2 hu).advances
  | some u =>
    rw [(hspec.1 u hu).2]
    exact Advances.refl db

theorem CapabilityDb.step_advances (hashIntentCapability : IntentCapability → Hash)
    {db : CapabilityDb} (h : UsageInvariant db) (step : CapabilityStep) :
    Advances db (db.step hashIntentCapability step) := by
  cases step with
  | create input now =>
    exact commit_inv (Advances.refl db)
      (advances_createIntentCapability hashIntentCapability input now db)
  | prepare row => exact commit_inv (Advances.refl db) (advances_insertOperation row db)
  | confirmation row => exact commit_inv (Advances.refl db) (advances_insertConfirmation row db)
  | bind input =>
    exact commit_inv (Advances.refl db) (advances_bindIntentCapabilityOperation input db)
  | consume call now => exact ConsumeCall.run_advances hashIntentCapability h call now

theorem runCapabilities_advances (hashIntentCapability : IntentCapability → Hash)
    {db : CapabilityDb} (h : UsageInvariant db) (steps : List CapabilityStep) :
    Advances db (runCapabilities hashIntentCapability db steps) := by
  induction steps using List.reverseRecOn with
  | nil => exact Advances.refl db
  | append_singleton steps step ih =>
    unfold runCapabilities at ih ⊢
    rw [List.foldl_append]
    exact ih.trans (CapabilityDb.step_advances hashIntentCapability (ih.invariant h) step)

theorem usage_advances {db db' : CapabilityDb} (h : Advances db db') {k : OperationId}
    (hu : db.usage.get? k = some u) : db'.usage.get? k = some u := by
  obtain ⟨more, hmore⟩ := h.usage
  obtain ⟨hmem, hkey⟩ := Table.get?_eq_some.mp hu
  refine Table.get?_eq_some.mpr ⟨?_, hkey⟩
  rw [hmore]
  exact List.mem_append_left more hmem

def ConsumeResult.execution? : ConsumeResult → Option Nat
  | .consumed e | .replay e => some e
  | .denied _ => none

/-- A call that was counted is answered with its index ever after. -/
theorem ConsumeCall.run_ever_after
    {db db' db'' : CapabilityDb} (h : UsageInvariant db) {now : Time} {e : Nat} (hrun : call.run hashIntentCapability now db = .ok (a, db'))
    (ha : a.execution? = some e) (hlater : Advances db' db'') (later : Time) :
    call.run hashIntentCapability later db'' = .ok (.replay e, db'') := by
  obtain ⟨row, operation, hadmits⟩ := ConsumeCall.admits_of_ok hrun
  have hbound := hrun
  rw [ConsumeCall.run_of_admits hadmits] at hbound
  have hspec := wp_ok (consumeBoundOperation_spec h hadmits.boundTo now) hbound
  have hused : Advances db db' ∧
      ∃ u, db'.usage.get? call.operationId = some u ∧ u.executionIndex = e := by
    cases hu : db.usage.get? call.operationId with
    | some u =>
      obtain ⟨rfl, rfl⟩ := hspec.1 u hu
      injection ha with ha
      exact ⟨Advances.refl db', u, hu, ha⟩
    | none =>
      have hfirst := hspec.2 hu
      refine ⟨hfirst.advances, ?_⟩
      cases a with
      | consumed e' =>
        injection ha with ha
        exact ha ▸ hfirst.counted e' rfl
      | replay e' => exact absurd rfl (hfirst.fresh e')
      | denied reason => cases ha
  obtain ⟨hadvances, u, hu, rfl⟩ := hused
  have hinv := hlater.invariant (hadvances.invariant h)
  have hadmits' := hadmits.advances (hadvances.trans hlater)
  obtain ⟨a', db₃, hagain, hreplay, -⟩ := wp_iff_exists.mp
    (consumeBoundOperation_spec hinv hadmits'.boundTo later)
  obtain ⟨rfl, rfl⟩ := hreplay u (usage_advances hlater hu)
  rw [ConsumeCall.run_of_admits hadmits']
  exact hagain

structure CapabilityLaw (hashIntentCapability : IntentCapability → Hash) (db : CapabilityDb) :
    Prop where
  limited : ∀ capabilityId row, db.capabilities.get? capabilityId = some row →
    ∀ grant ∈ row.capability.writeActions,
      (db.usageOf capabilityId grant.actionName).length ≤ grant.maxExecutions
  distinct : (db.usage.rows.map CapabilityUsage.operationId).Nodup
  numbered : ∀ capabilityId actionName,
    (db.usageOf capabilityId actionName).map CapabilityUsage.executionIndex =
      List.range' 1 (db.usageOf capabilityId actionName).length
  granted : ∀ u ∈ db.usage.rows, ∃ row operation, GrantedUsage db u row operation
  again : ∀ (call : ConsumeCall) u, db.usage.get? call.operationId = some u →
    ∀ now a db', call.run hashIntentCapability now db = .ok (a, db') →
      a = .replay u.executionIndex ∧ db' = db
  ever : ∀ (call : ConsumeCall) now a db' e,
    call.run hashIntentCapability now db = .ok (a, db') → a.execution? = some e →
    ∀ more later, call.run hashIntentCapability later
        (runCapabilities hashIntentCapability db' more) =
      .ok (.replay e, runCapabilities hashIntentCapability db' more)

/-- Whatever is created, bound and consumed, every action of a capability is executed
by at most as many operations as it allows, numbered 1..n, each at its own index. -/
theorem runCapabilities_law (hashIntentCapability : IntentCapability → Hash)
    (steps : List CapabilityStep) :
    CapabilityLaw hashIntentCapability (runCapabilities hashIntentCapability .empty steps) := by
  have h := (runCapabilities_advances hashIntentCapability UsageInvariant.empty steps).invariant
    UsageInvariant.empty
  refine ⟨h.limited, Table.nodup _, h.numbered, h.granted, ?_, ?_⟩
  · intro call u hu now a db' hrun
    exact ConsumeCall.run_again h hu hrun
  · intro call now a db' e hrun ha more later
    have hstep := ConsumeCall.run_advances hashIntentCapability h call now
    rw [commit_ok hrun] at hstep
    exact ConsumeCall.run_ever_after h hrun ha
      (runCapabilities_advances hashIntentCapability (hstep.invariant h) more) later

/-- Two actions, each of which may be executed once. -/
def exampleCapability : IntentCapability where
  mode := .allow
  requestHash := 7
  catalogHash := 8
  writeActions := [⟨"clockify_tags_create", 1⟩, ⟨"clockify_tags_update", 1⟩]
  distinct := by decide
  denies := by decide
  limits := by decide

def exampleOperation (id : OperationId) (actionName : String) : OperationBindingRow where
  id
  requestId := some 3
  confirmationId := none
  sessionId := 2
  workspaceId := 1
  adminUserId := 1
  actionName
  catalogHash := 8
  capabilityId := none
  capabilityHash := none

def exampleBinding (operationId : OperationId) (actionName : String) :
    BindIntentCapabilityOperationInput where
  scope := ⟨1, 1, 2, 3, 7, 8⟩
  capabilityId := 1
  capabilityHash := 0
  operationId
  confirmationId := none
  actionName

def exampleExecution (operationId : OperationId) (actionName : String) (now : Time) :
    List CapabilityStep :=
  [.prepare (exampleOperation operationId actionName),
    .bind (exampleBinding operationId actionName),
    .consume (.execution (exampleBinding operationId actionName)) now]

/-- Each action has a limit and a numbering of its own: a capability that allows no
action twice is used up by two operations, both first, and long after it was created. -/
theorem capability_used_twice : (runCapabilities (fun _ => 0) .empty
      (.create ⟨1, 1, 1, 2, 3, exampleCapability⟩ 0 ::
        (exampleExecution 1 "clockify_tags_create" 31536000000 ++
          exampleExecution 2 "clockify_tags_update" 31536000000))).usage.rows.map
      (fun u => (u.capabilityId, u.operationId, u.executionIndex)) = [(1, 1, 1), (1, 2, 1)] ∧
    ∀ grant ∈ exampleCapability.writeActions, grant.maxExecutions = 1 :=
  ⟨rfl, by decide⟩

end ClockifyAssistant
