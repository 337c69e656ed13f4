import ClockifyAssistant.LeaseStanding

/-!
The lease of a tool call. What executes an action leaves the lease in hand; the call hands it
to the object of its result, and the emitter of that object records the outcome before it
releases the lease.
-/
namespace ClockifyAssistant

open Lib Fallible

namespace TurnMachinery

variable {config : TurnConfig} {s : Standing} {x : Watched} {E : TurnError → Watched → Prop}
  {lease? : Option Nat}

/-- An object that is no internal correction. -/
def Unmarked (object : ResultObject) (x : Watched) : Prop :=
  object ∉ x.1.memory.internalCorrectionReceipts

theorem Stands.unmarked_returned (h : Stands config s x) (id : Nat) :
    Unmarked (.returned id) x := by
  intro hmem
  obtain ⟨_, _, heq⟩ := h.marked _ hmem
  cases heq

theorem safeE_newObject (h : Stands config s x) : SafeE (S := leaseSpec config) newObject
      (fun object y => Stands config s y ∧ Unmarked object y ∧
        ∃ id < y.1.memory.made, object = .made id) E x := by
  refine safeE_bind (safeE_memory (Q := fun m y => y = x ∧ m = x.1.memory) ⟨rfl, rfl⟩) ?_
  rintro m y ⟨rfl, rfl⟩
  refine safeE_bind (safeE_remember (Q := fun _ z => Stands config s z ∧
    Unmarked (.made y.1.memory.made) z ∧ ∃ id < z.1.memory.made,
      ResultObject.made y.1.memory.made = .made id) ⟨?_, ?_, ?_⟩) fun _ z hz => safeE_pure hz
  · refine h.remember ?_ h.owners h.ready
    intro object hobject
    obtain ⟨id, hlt, heq⟩ := h.marked object hobject
    exact ⟨id, Nat.lt_succ_of_lt hlt, heq⟩
  · intro hmem
    obtain ⟨id, hlt, heq⟩ := h.marked _ hmem
    obtain rfl := ResultObject.made.inj heq
    exact Nat.lt_irrefl _ hlt
  · exact ⟨_, Nat.lt_succ_self _, rfl⟩

theorem safeE_errorOutcome {e : ErrorReceipt} (h : Stands config s x) :
    SafeE (S := leaseSpec config) (errorOutcome e)
      (fun outcome y => ∃ object, outcome = .receipt object { receipt := .error e } none ∧
        Stands config s y ∧ Unmarked object y) E x :=
  safeE_bind (safeE_newObject h) fun object _ hy => safeE_pure ⟨object, rfl, hy.1, hy.2.1⟩

section Executing

/-- What an action leaves behind under its lease. -/
def Executed (config : TurnConfig) (lease? : Option Nat) :
    ActionOutcome ResultObject → Watched → Prop
  | .receipt object _ _, y => Stands config (.inHand lease? workPhases) y ∧ Unmarked object y
  | .partially object _ _, y => Stands config (.inHand lease? workPhases) y ∧ Unmarked object y
  | .clarify _ _, y => Stands config (.inHand lease? [.held]) y
  | .preview _ _, y => Stands config (.inHand lease? [.held]) y

theorem safeE_refusal {e : ErrorReceipt} (h : Stands config (.inHand lease? workPhases) x) :
    SafeE (S := leaseSpec config) (errorOutcome e) (Executed config lease?) E x := by
  refine SafeE.weaken (safeE_errorOutcome h) ?_
  rintro outcome y ⟨object, rfl, hy⟩
  exact hy

theorem Stands.working (h : Stands config (.inHand lease? [.held]) x) :
    Stands config (.inHand lease? workPhases) x :=
  h.weaken held_work

theorem Executed.returned {outcome : ActionOutcome Nat}
    (h : Stands config (.inHand lease? [.held]) x) : Executed config lease? outcome.returned x := by
  cases outcome with
  | receipt object r operationId => exact ⟨h.working, h.unmarked_returned object⟩
  | partially object r operationId => exact ⟨h.working, h.unmarked_returned object⟩
  | clarify message options => exact h
  | preview operation card => exact h

variable {outcome : ActionOutcome ResultObject}

theorem safeE_settleImmediateOperation {operationId : Option OperationId}
    (h : Executed config lease? outcome x) :
    SafeE (S := leaseSpec config) (settleImmediateOperation operationId outcome)
      (Executed config lease?) E x := by
  cases operationId with
  | none => exact safeE_pure h
  | some id =>
    cases outcome with
    | receipt object r operationId => exact safeE_pure h
    | partially object r operationId =>
      exact safeE_bind (safeE_newObject h.1) fun object y hy => safeE_pure ⟨hy.1, hy.2.1⟩
    | clarify message options => exact safeE_pure h
    | preview operation card => exact safeE_pure h

variable {call : ToolCall}

theorem safeE_settleFailedWrite {operationId : Option OperationId}
    {e : TurnError} (h : Stands config (.inHand lease? workPhases) x) :
    SafeE (S := leaseSpec config) (settleFailedWrite call operationId e)
      (Executed config lease?) E x :=
  safeE_bind (safeE_refusal h) fun _ _ hy => safeE_settleImmediateOperation hy

theorem safeE_proposeRiskyWrite (h : Stands config (.inHand lease? [.held]) x) :
    SafeE (S := leaseSpec config) (proposeRiskyWrite call) (Executed config lease?)
      (fun _ => Stands config (.inHand lease? [.held])) x := by
  refine safeE_bind (safeE_quiet (o := .handler call) rfl h) fun outcome y hy => ?_
  have hreturned : Executed config lease? outcome.returned y := Executed.returned hy
  cases outcome with
  | receipt object r operationId =>
    simp only [ActionOutcome.returned]
    split
    · exact safeE_refusal hy.working
    · exact safeE_pure hreturned
  | partially object r operationId => exact safeE_pure hreturned
  | clarify message options => exact safeE_pure hreturned
  | preview operation card =>
    refine safeE_bind (safeE_quiet (o := .checkWriteAuthority call) rfl hy) fun detail z hz => ?_
    cases detail with
    | none => exact safeE_pure hz
    | some detail => exact safeE_refusal hz.working

theorem safeE_dispatchSafeWrite {bounded : Bool} (h : Stands config (.inHand lease? [.held]) x) :
    SafeE (S := leaseSpec config) (dispatchSafeWrite config call lease? bounded)
      (Executed config lease?) E x := by
  have hprepared : SafeE (S := leaseSpec config)
      (if config.journaled then some <$> perform (.prepareOperation call) else return none)
      (fun _ => Stands config (.inHand lease? [.held]))
      (fun _ => Stands config (.inHand lease? [.held])) x := by
    split
    · exact safeE_map (safeE_quiet (o := .prepareOperation call) rfl h)
    · exact safeE_pure h
  refine safeE_bind (safeE_caught hprepared) fun prepared y hy => ?_
  have hy : Stands config (.inHand lease? [.held]) y := by cases prepared <;> exact hy
  cases prepared with
  | error e => exact safeE_settleFailedWrite hy.working
  | ok operationId =>
    refine safeE_bind (safeE_caught (Q := fun _ => Stands config (.inHand lease? workPhases))
      (E := fun _ => Stands config (.inHand lease? workPhases)) ?_) fun executed z hz => ?_
    · have hwrite : ∀ z, Stands config (.inHand lease? [.held]) z →
          SafeE (S := leaseSpec config)
            (if bounded then some <$> perform (.executeSafeWrite call lease?) else return none)
            (fun _ => Stands config (.inHand lease? workPhases))
            (fun _ => Stands config (.inHand lease? workPhases)) z := by
        intro z hz
        split
        · exact safeE_map (safeE_executeSafeWrite hz rfl held_work)
        · exact safeE_pure hz.working
      cases operationId with
      | none => exact hwrite y hy
      | some id =>
        refine safeE_bind ?_ fun _ z hz => hwrite z hz
        exact SafeE.rethrow (safeE_quiet (o := .markExecuting id) rfl hy)
          fun _ _ hz => Stands.working hz
    rcases executed with e | _ | ⟨_ | _, object, r⟩
    · exact safeE_settleFailedWrite hz
    · exact safeE_bind (safeE_refusal hz) fun _ _ h' => safeE_settleImmediateOperation h'
    · have hreceipt : Executed config lease? (.receipt (.returned object) r none) z :=
        ⟨hz, Stands.unmarked_returned hz _⟩
      exact safeE_settleImmediateOperation hreceipt
    · have hpartial : Executed config lease? (.partially (.returned object) r none) z :=
        ⟨hz, Stands.unmarked_returned hz _⟩
      exact safeE_settleImmediateOperation hpartial

theorem safeE_authorizedWrite {bounded : Bool} (h : Stands config (.inHand lease? [.held]) x) :
    SafeE (S := leaseSpec config) (authorizedWrite config call lease? bounded)
      (Executed config lease?) (fun _ => Stands config (.inHand lease? [.held])) x := by
  refine safeE_bind (safeE_quiet (o := .authorizeWrite call.name) rfl h) fun denial y hy => ?_
  cases denial with
  | some denial => exact safeE_refusal hy.working
  | none => exact safeE_dispatchSafeWrite hy

theorem safeE_executePreparedWrite (h : Stands config (.inHand lease? [.held]) x) :
    SafeE (S := leaseSpec config) (executePreparedWrite config call lease?)
      (Executed config lease?) (fun _ => Stands config (.inHand lease? [.held])) x := by
  refine safeE_bind (safeE_caught (safeE_quiet (o := .prepareSafeWrite call) rfl h))
    fun prepared y hy => ?_
  have hy : Stands config (.inHand lease? [.held]) y := by cases prepared <;> exact hy
  cases prepared with
  | error e => exact safeE_refusal hy.working
  | ok preparation =>
    cases preparation with
    | clarification message options => exact safeE_pure hy
    | noop object r => exact safeE_pure ⟨hy.working, hy.unmarked_returned object⟩
    | invalid => exact safeE_refusal hy.working
    | absent => exact safeE_authorizedWrite hy
    | prepared =>
      refine safeE_bind (safeE_quiet (o := .checkWriteAuthority call) rfl hy) fun detail z hz => ?_
      cases detail with
      | none => exact safeE_authorizedWrite hz
      | some detail => exact safeE_refusal hz.working

theorem safeE_executeAction (h : Stands config (.inHand lease? [.held]) x) :
    SafeE (S := leaseSpec config) (executeAction config call lease?)
      (Executed config lease?) (fun _ => Stands config (.inHand lease? [.held])) x := by
  unfold executeAction
  cases config.getAction call.name with
  | none => exact safeE_refusal h.working
  | some action =>
    refine safeE_bind (safeE_quiet (o := .checkAction call) rfl h) fun refusal y hy => ?_
    cases refusal with
    | some refusal => exact safeE_refusal hy.working
    | none =>
      simp only
      split
      · refine safeE_bind (safeE_quiet (o := .checkPolicy call) rfl hy) fun refusal z hz => ?_
        cases refusal with
        | some refusal => exact safeE_refusal hz.working
        | none =>
          cases action.kind with
          | riskyWrite => exact safeE_proposeRiskyWrite hz
          | read =>
            refine safeE_bind (safeE_quiet (o := .handler call) rfl hz) ?_
            exact fun outcome v hv => safeE_pure (Executed.returned hv)
          | safeWrite => exact safeE_executePreparedWrite hz
      · exact safeE_refusal hy.working

theorem Executed.remember {m : TurnMemory}
    (h : Executed config lease? outcome x) (howners : m.resultLeases = x.1.memory.resultLeases)
    (hmarks : m.internalCorrectionReceipts = x.1.memory.internalCorrectionReceipts)
    (hmade : m.made = x.1.memory.made)
    (hpending : m.adjacentProjectCorrectionPending = x.1.memory.adjacentProjectCorrectionPending) :
    Executed config lease? outcome ({ x.1 with memory := m }, x.2) := by
  have hstands : ∀ {s : Standing}, Stands config s x →
      Stands config s ({ x.1 with memory := m }, x.2) := by
    intro s hs
    refine hs.remember ?_ (howners.trans hs.owners) fun hready => hpending.trans (hs.ready hready)
    rw [hmarks, hmade]
    exact hs.marked
  have hunmarked : ∀ {object : ResultObject}, Unmarked object x →
      Unmarked object ({ x.1 with memory := m }, x.2) := by
    intro object hobject
    unfold Unmarked
    rw [hmarks]
    exact hobject
  cases outcome with
  | receipt object r operationId => exact ⟨hstands h.1, hunmarked h.2⟩
  | partially object r operationId => exact ⟨hstands h.1, hunmarked h.2⟩
  | clarify message options => exact hstands h
  | preview operation card => exact hstands h

theorem safeE_trackProject (h : Executed config lease? outcome x) :
    SafeE (S := leaseSpec config) (trackProject config call outcome)
      (fun _ => Executed config lease? outcome) E x := by
  unfold trackProject
  split
  · split
    · split
      · refine safeE_bind (safeE_memory (Q := fun m y => y = x ∧ m = x.1.memory) ⟨rfl, rfl⟩) ?_
        rintro m y ⟨rfl, rfl⟩
        exact safeE_remember (h.remember rfl rfl rfl rfl)
      · exact safeE_pure h
    · exact safeE_pure h
  · exact safeE_pure h

theorem safeE_executeTracked (h : Stands config (.inHand lease? [.held]) x) :
    SafeE (S := leaseSpec config) (executeTracked config call lease?)
      (Executed config lease?) (fun _ => Stands config (.inHand lease? [.held])) x := by
  refine safeE_bind (safeE_executeAction h) fun outcome y hy => ?_
  exact safeE_bind (safeE_trackProject hy) fun _ z hz => safeE_pure hz

end Executing

section Handing

/-- What a call leaves behind: the object of its result has its lease, if it has one. -/
def Handed (config : TurnConfig) : ActionOutcome ResultObject → Watched → Prop
  | .receipt object _ _, y => ∃ lease?, Stands config (.owned object lease? workPhases) y ∧
      (Unmarked object y ∨ lease? = none)
  | .partially object _ _, y => ∃ lease?, Stands config (.owned object lease? workPhases) y
  | .clarify _ _, y => Stands config .rest y
  | .preview operation _, y => ∃ lease?,
      Stands config { Standing.owned operation lease? [.held] with ready := true } y

theorem owned_nobody (owner : ResultObject) : Function.update noOwners owner none = noOwners :=
  Function.update_eq_self _ _

theorem Stands.unowned (h : Stands config .rest x) (owner : ResultObject)
    (phases : List LeasePhase) : Stands config (.owned owner none phases) x :=
  { h with
    owners := h.owners.trans (owned_nobody owner).symm
    mine := nofun }

theorem Stands.disowned {owner : ResultObject} {phases : List LeasePhase}
    (h : Stands config (.owned owner none phases) x) : Stands config .rest x :=
  { h with
    owners := h.owners.trans (owned_nobody owner)
    mine := nofun }

/-- Where nothing is owed, a turn at rest may take a lease in hand. -/
theorem Stands.begin (h : Stands config .rest x) (phases : List LeasePhase)
    (hpending : x.1.memory.adjacentProjectCorrectionPending = false) :
    Stands config (.inHand none phases) x :=
  { h with
    ready := fun _ => hpending
    mine := nofun }

theorem Stands.atRest {phases : List LeasePhase} (h : Stands config (.inHand none phases) x) :
    Stands config .rest x :=
  { h with
    ready := nofun
    mine := nofun }

theorem Executed.unleased {outcome : ActionOutcome ResultObject}
    (h : Executed config none outcome x) : Handed config outcome x := by
  cases outcome with
  | receipt object r operationId => exact ⟨none, h.1.atRest.unowned object _, .inr rfl⟩
  | partially object r operationId => exact ⟨none, h.1.atRest.unowned object _⟩
  | clarify message options => exact Stands.atRest h
  | preview operation card =>
    have hrest : Stands config .rest x := Stands.atRest h
    exact ⟨none, { hrest.unowned operation [.held] with ready := h.ready }⟩

variable {lease : Nat}

theorem Stands.handOver {phases : List LeasePhase}
    (h : Stands config (.inHand (some lease) phases) x) (object : ResultObject) :
    Stands config { Standing.owned object (some lease) phases with ready := true }
      ({ x.1 with memory := { x.1.memory with
        resultLeases := Function.update x.1.memory.resultLeases object (some lease) } }, x.2) :=
  { h.remember (m := { x.1.memory with resultLeases := x.1.memory.resultLeases }) h.marked
      h.owners h.ready with
    booked := h.booked.remember _
    owners := by rw [h.owners]; rfl }

theorem safeE_holdLease {object : ResultObject} {Q : Unit → Watched → Prop}
    (h : Q () ({ x.1 with memory := { x.1.memory with
      resultLeases := Function.update x.1.memory.resultLeases object (some lease) } }, x.2)) :
    SafeE (S := leaseSpec config) (holdLease object lease) Q E x := by
  refine safeE_bind (safeE_memory (Q := fun m y => y = x ∧ m = x.1.memory) ⟨rfl, rfl⟩) ?_
  rintro m y ⟨rfl, rfl⟩
  exact safeE_remember h

theorem safeE_handOver {outcome : ActionOutcome ResultObject}
    (h : Executed config (some lease) outcome x) :
    SafeE (S := leaseSpec config) (handOver lease outcome) (fun _ => Handed config outcome) E x := by
  cases outcome with
  | receipt object r operationId =>
    exact safeE_holdLease ⟨some lease, (h.1.handOver object).unready, .inl h.2⟩
  | partially object r operationId =>
    exact safeE_holdLease ⟨some lease, (h.1.handOver object).unready⟩
  | clarify message options =>
    refine SafeE.weaken (safeE_release h rfl (by simp [Standing.inHand])) ?_
    exact fun _ y hy => Stands.atRest hy
  | preview operation card =>
    exact safeE_holdLease ⟨some lease, Stands.handOver h operation⟩

variable {call : ToolCall}

theorem safeE_executeLeased (h : Stands config (.inHand (some lease) [.held]) x) :
    SafeE (S := leaseSpec config) (executeLeased config call lease)
      (Executed config (some lease)) (fun _ => Stands config .rest) x := by
  refine safeE_tryCatch (E := fun _ => Stands config (.inHand (some lease) [.held])) ?_ ?_
  · refine safeE_bind (safeE_leaseAborted lease h) fun aborted y hy => ?_
    cases aborted with
    | true => exact safeE_bind (safeE_throw (Q := fun _ _ => False) hy) fun _ _ hf => hf.elim
    | false => exact safeE_executeTracked hy
  · intro e y hy
    refine safeE_bind (safeE_release hy rfl (by simp [Standing.inHand])) fun _ z hz => ?_
    exact safeE_throw (Stands.atRest hz)

theorem safeE_denied {e : ErrorReceipt} (h : Stands config .rest x) :
    SafeE (S := leaseSpec config) (errorOutcome e) (Handed config) E x := by
  refine SafeE.weaken (safeE_errorOutcome h) ?_
  rintro outcome y ⟨object, rfl, hy, -⟩
  exact ⟨none, hy.unowned object _, .inr rfl⟩

/-- A call that is turned away never had a lease; one that is not owes no correction. -/
def Refused (config : TurnConfig) : Option (ActionOutcome ResultObject) → Watched → Prop
  | some outcome, y => Handed config outcome y
  | none, y => Stands config (.inHand none [.held]) y

theorem safeE_refuseUndeclared {m : TurnMemory} (h : Stands config .rest x)
    (hpending : x.1.memory.adjacentProjectCorrectionPending = false) :
    SafeE (S := leaseSpec config) (refuseUndeclared config m call) (Refused config) E x := by
  unfold refuseUndeclared
  split
  · exact safeE_bind (safeE_denied h) fun outcome y hy => safeE_pure hy
  · cases config.correctableProject m call with
    | none => exact safeE_pure (h.begin _ hpending)
    | some project =>
      refine safeE_bind (safeE_newObject h) fun object y hy => ?_
      obtain ⟨hy, -, hmade⟩ := hy
      refine safeE_bind (safeE_memory (Q := fun m z => z = y ∧ m = y.1.memory) ⟨rfl, rfl⟩) ?_
      rintro m z ⟨rfl, rfl⟩
      refine safeE_bind (safeE_remember (Q := fun _ => Stands config .rest)
        (hy.remember ?_ hy.owners nofun)) fun _ v hv => safeE_pure ?_
      · intro other hother
        rcases List.mem_cons.mp hother with rfl | hold
        · exact hmade
        · exact hy.marked other hold
      · exact ⟨none, hv.unowned object _, .inr rfl⟩

theorem safeE_refuseAction (h : Stands config .rest x) :
    SafeE (S := leaseSpec config) (refuseAction config call) (Refused config) E x := by
  refine safeE_bind (safeE_memory (Q := fun m y => y = x ∧ m = x.1.memory) ⟨rfl, rfl⟩) ?_
  rintro m y ⟨rfl, rfl⟩
  by_cases hpending : y.1.memory.adjacentProjectCorrectionPending = true
  · simp only [hpending, if_true]
    split
    · refine safeE_bind (safeE_remember (Q := fun _ z => Stands config .rest z ∧
        z.1.memory.adjacentProjectCorrectionPending = false) ⟨?_, rfl⟩) ?_
      · exact h.remember h.marked h.owners nofun
      · exact fun _ z hz => safeE_refuseUndeclared hz.1 hz.2
    · exact safeE_bind (safeE_denied h) fun outcome z hz => safeE_pure hz
  · rw [if_neg hpending]
    exact safeE_refuseUndeclared h (Bool.eq_false_iff.mpr hpending)

theorem safeE_performAction (h : Stands config (.inHand none [.held]) x) :
    SafeE (S := leaseSpec config) (performAction config call) (Handed config)
      (fun _ => Stands config .rest) x := by
  have hrun : ∀ y, Stands config (.inHand none [.held]) y →
      SafeE (S := leaseSpec config) (if config.isWrite call.name then do
          let lease ← perform .acquire
          let result ← executeLeased config call lease
          handOver lease result
          return result
        else executeTracked config call none)
      (Handed config) (fun _ => Stands config .rest) y := by
    intro y hy
    split
    · refine safeE_bind (SafeE.rethrow (safeE_acquire hy rfl)
        fun _ _ he => he.atRest) fun lease z hz => ?_
      refine safeE_bind (safeE_executeLeased hz) fun result v hv => ?_
      exact safeE_bind (safeE_handOver hv) fun _ u hu => safeE_pure hu
    · exact SafeE.mono (safeE_executeTracked hy) (fun _ _ h => h.unleased) fun _ _ he => he.atRest
  unfold performAction
  simp only
  split
  · refine safeE_bind (SafeE.rethrow (safeE_quiet (o := .ensureCalendar) rfl h)
      fun _ _ he => Stands.atRest he) fun _ y hy => hrun y hy
  · exact hrun x h

theorem safeE_runAction (h : Stands config .rest x) :
    SafeE (S := leaseSpec config) (runAction config call) (Handed config)
      (fun _ => Stands config .rest) x := by
  refine safeE_bind (safeE_quiet (o := .onStatus call) rfl h) fun _ y hy => ?_
  refine safeE_bind (safeE_caught (Q := Handed config) (E := fun _ => Stands config .rest) ?_)
    fun attempt z hz => ?_
  · refine safeE_bind (safeE_refuseAction hy) fun refusal z hz => ?_
    cases refusal with
    | some refusal => exact safeE_pure hz
    | none => exact safeE_performAction hz
  · cases attempt with
    | ok result => exact safeE_pure hz
    | error e => exact safeE_denied hz

end Handing

section Emitting

variable {owner : ResultObject} {phases : List LeasePhase}

theorem safeE_bestEffort {α : Type} {m : Turn α} {Q : Option α → Watched → Prop}
    {E' : TurnError → Watched → Prop}
    (h : SafeE (S := leaseSpec config) m (fun a => Q (some a)) E x)
    (hnone : ∀ e y, E e y → Q none y) :
    SafeE (S := leaseSpec config) (bestEffort m) Q E' x := by
  refine safeE_tryCatch (E := E) (safeE_map h) fun e y hy => ?_
  exact safeE_pure (hnone e y hy)

theorem safeE_tried {o : TurnOp} (ho : o.quiet = true) (h : Stands config s x) :
    SafeE (S := leaseSpec config) (bestEffort (perform o)) (fun _ => Stands config s) E x :=
  safeE_bestEffort (safeE_quiet ho h) fun _ _ he => he

theorem Stands.takeBack {lease : Nat} (h : Stands config (.owned owner (some lease) phases) x) :
    Stands config { Standing.rest with lease? := some lease, phases }
      ({ x.1 with memory := { x.1.memory with
        resultLeases := Function.update x.1.memory.resultLeases owner none } }, x.2) := by
  have howners : Function.update x.1.memory.resultLeases owner none = noOwners := by
    rw [h.owners]
    show Function.update (Function.update noOwners owner (some lease)) owner none = noOwners
    rw [Function.update_idem, owned_nobody]
  exact ⟨h.kept, h.booked.remember _, h.marked, howners, nofun, h.mine, h.others⟩

theorem safeE_releaseResultLease (h : Stands config (.owned owner lease? phases) x)
    (hphases : phases ⊆ [.held, .recorded]) :
    SafeE (S := leaseSpec config) (releaseResultLease owner) (fun _ => Stands config .rest) E x := by
  refine safeE_bind (safeE_memory (Q := fun m y => y = x ∧ m = x.1.memory) ⟨rfl, rfl⟩) ?_
  rintro m y ⟨rfl, rfl⟩
  rw [h.lease_of_owner]
  cases lease? with
  | none => exact safeE_pure h.disowned
  | some lease =>
    refine safeE_bind (safeE_remember (Q := fun _ => Stands config
      { Standing.rest with lease? := some lease, phases }) h.takeBack) fun _ z hz => ?_
    exact safeE_release hz rfl hphases

theorem safeE_emit {result : TurnResult} (h : Stands config s x) :
    SafeE (S := leaseSpec config) (emit result) (fun _ => Stands config s)
      (fun _ => Stands config s) x := by
  refine safeE_bind (safeE_memory (Q := fun m y => y = x ∧ m = x.1.memory) ⟨rfl, rfl⟩) ?_
  rintro m y ⟨rfl, rfl⟩
  refine safeE_bind (safeE_remember (Q := fun _ => Stands config s)
    (h.remember h.marked h.owners h.ready)) fun _ z hz => ?_
  exact safeE_quiet (o := .onResult result) rfl hz

theorem safeE_storedOrGivenUp {s s' : Standing} {store : Turn ResultId} {giveUp : Turn Unit}
    (hstore : ∀ y, Stands config s y → SafeE (S := leaseSpec config) store
      (fun _ => Stands config s') (fun _ => Stands config s) y)
    (hgiveUp : ∀ y, Stands config s y → SafeE (S := leaseSpec config) giveUp
      (fun _ => Stands config s') E y) (h : Stands config s x) :
    SafeE (S := leaseSpec config) (storedOrGivenUp store giveUp)
      (fun _ => Stands config s') E x := by
  have hattempt : ∀ y, Stands config s y → SafeE (S := leaseSpec config) (bestEffort store)
      (fun r => r.elim (Stands config s) fun _ => Stands config s') E y :=
    fun y hy => safeE_bestEffort (hstore y hy) fun _ _ he => he
  refine safeE_bind (hattempt x h) fun first y hy => ?_
  cases first with
  | some resultRef => exact safeE_pure hy
  | none =>
    refine safeE_bind (hattempt y hy) fun second z hz => ?_
    cases second with
    | some resultRef => exact safeE_pure hz
    | none => exact safeE_bind (hgiveUp z hz) fun _ v hv => safeE_pure hv

variable {operationId : Option OperationId} {status : ActionResultKind}

theorem safeE_persistCanonicalResult (h : Stands config (.owned owner lease? workPhases) x) :
    SafeE (S := leaseSpec config) (persistCanonicalResult owner status operationId)
      (fun _ => Stands config (.owned owner lease? [.recorded])) E x :=
  safeE_storedOrGivenUp (fun _ hy => safeE_persistResult hy) (fun _ hy => safeE_reportDegraded hy) h

variable {outcome : ActionOutcome ResultObject}

theorem safeE_emitCanonical (h : Stands config (.owned owner lease? workPhases) x) :
    SafeE (S := leaseSpec config) (emitCanonical owner outcome status operationId)
      (fun _ => Stands config (.owned owner lease? [.recorded]))
      (fun _ => Stands config (.owned owner lease? [.recorded])) x := by
  refine safeE_bind (safeE_persistCanonicalResult h) fun resultRef y hy => ?_
  cases resultRef with
  | none => exact safeE_emit hy
  | some resultRef =>
    refine safeE_bind (safeE_tried (o := .addAuditEvent resultRef) rfl hy) fun _ z hz => ?_
    exact safeE_emit hz

theorem safeE_auditAndEmit {r : TurnReceipt}
    (h : Stands config (.owned owner lease? workPhases) x) :
    SafeE (S := leaseSpec config) (auditAndEmit owner outcome r status operationId)
      (fun _ => Stands config .rest) (fun _ => Stands config .rest) x := by
  refine safeE_ensuring (Q := fun _ => Stands config (.owned owner lease? [.recorded]))
    (E := fun _ => Stands config (.owned owner lease? [.recorded])) ?_ ?_ ?_
  · refine safeE_bind (safeE_memory (Q := fun m y => y = x ∧ m = x.1.memory) ⟨rfl, rfl⟩) ?_
    rintro m y ⟨rfl, rfl⟩
    have hrecord : ∀ z, Stands config (.owned owner lease? workPhases) z →
        SafeE (S := leaseSpec config) (do
            let _ ← bestEffort (perform (.recordUndoIfReversible r))
            emitCanonical owner outcome status operationId)
          (fun _ => Stands config (.owned owner lease? [.recorded]))
          (fun _ => Stands config (.owned owner lease? [.recorded])) z := by
      intro z hz
      refine safeE_bind (safeE_tried (o := .recordUndoIfReversible r) rfl hz) fun _ v hv => ?_
      exact safeE_emitCanonical hv
    rw [h.lease_of_owner]
    cases lease? with
    | some lease => exact hrecord y h
    | none =>
      have hidle : ∀ z, Stands config (.owned owner none workPhases) z →
          Stands config (.owned owner none [.recorded]) z := fun z hz => hz.idle rfl _
      refine safeE_bind (SafeE.rethrow (safeE_quiet (o := .turnAuthorityCurrent) rfl h)
        fun _ z hz => hidle z hz) fun current z hz => ?_
      cases current with
      | true => exact hrecord z hz
      | false => exact safeE_pure (hidle z hz)
  · exact fun _ y hy => safeE_releaseResultLease hy (by simp)
  · exact fun _ y hy => safeE_releaseResultLease hy (by simp)

theorem safeE_savePreview {card : Json} (h : Stands config s x) :
    SafeE (S := leaseSpec config) (savePreview config card owner)
      (fun _ => Stands config s) (fun _ => Stands config s) x := by
  refine safeE_bind (safeE_quiet (o := .turnAuthorityCurrent) rfl h) fun current y hy => ?_
  cases current with
  | false => exact safeE_bind (safeE_throw (Q := fun _ _ => False) hy) fun _ _ hf => hf.elim
  | true =>
    refine safeE_bind (safeE_quiet (o := .prepareOperationRun owner) rfl hy) fun _ z hz => ?_
    refine safeE_bind (safeE_quiet (o := .savePendingConfirmation owner) rfl hz) fun _ v hv => ?_
    simp only
    split
    · refine safeE_bind (safeE_quiet (o := .bindIntentCapabilityOperation owner) rfl hv) ?_
      exact fun _ u hu => safeE_emit hu
    · exact safeE_emit hv

theorem safeE_previewAborted (h : Stands config s x) :
    SafeE (S := leaseSpec config) (previewAborted owner) (fun _ => Stands config s) E x := by
  refine safeE_bind (safeE_memory (Q := fun m y => y = x ∧ m = x.1.memory) ⟨rfl, rfl⟩) ?_
  rintro m y ⟨rfl, rfl⟩
  cases y.1.memory.resultLeases owner with
  | none => exact safeE_pure h
  | some lease => exact safeE_leaseAborted lease h

theorem safeE_emitPreviewFor {card : Json} (h : Stands config (.owned owner lease? [.held]) x) :
    SafeE (S := leaseSpec config) (emitPreviewFor config card owner)
      (fun _ => Stands config .rest) (fun _ => Stands config .rest) x := by
  refine safeE_ensuring (Q := fun _ => Stands config (.owned owner lease? [.held]))
    (E := fun _ => Stands config (.owned owner lease? [.held])) ?_ ?_ ?_
  · simp only
    split
    · exact safeE_bind (safeE_throw (Q := fun _ _ => False) h) fun _ _ hf => hf.elim
    · refine safeE_bind (safeE_previewAborted h) fun aborted y hy => ?_
      cases aborted with
      | true => exact safeE_bind (safeE_throw (Q := fun _ _ => False) hy) fun _ _ hf => hf.elim
      | false => exact safeE_savePreview hy
  · exact fun _ y hy => safeE_releaseResultLease hy (by simp)
  · exact fun _ y hy => safeE_releaseResultLease hy (by simp)

theorem safeE_onStep (h : Handed config outcome x)
    (hshown : ∀ operation card, outcome ≠ .preview operation card) :
    SafeE (S := leaseSpec config) (onStep outcome) (fun _ => Stands config .rest)
      (fun _ => Stands config .rest) x := by
  cases outcome with
  | receipt object r operationId =>
    obtain ⟨lease?, hstands, hunmarked⟩ := h
    refine safeE_bind (safeE_memory (Q := fun m y => y = x ∧ m = x.1.memory) ⟨rfl, rfl⟩) ?_
    rintro m y ⟨rfl, rfl⟩
    by_cases hmarked : object ∈ y.1.memory.internalCorrectionReceipts
    · rw [if_pos (List.contains_iff_mem.mpr hmarked)]
      rcases hunmarked with hfree | rfl
      · exact absurd hmarked hfree
      · exact safeE_pure hstands.disowned
    · rw [if_neg (by simpa using hmarked)]
      exact safeE_auditAndEmit hstands
  | partially object r operationId =>
    obtain ⟨lease?, hstands⟩ := h
    exact safeE_auditAndEmit hstands
  | clarify message options => exact safeE_emit h
  | preview operation card => exact absurd rfl (hshown operation card)

end Emitting

end TurnMachinery

end ClockifyAssistant
