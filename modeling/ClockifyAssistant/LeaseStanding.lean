import ClockifyAssistant.TurnLeases

/-!
Where a turn stands with its leases: at most one is out, in a known phase, and either in the
hands of the process or handed to the object of a result. Each operation moves a turn from
one standing to another.
-/
namespace ClockifyAssistant

open Lib Fallible

namespace TurnMachinery

variable {config : TurnConfig}

/-- What the source leaves without a `catch`: the claim of a preview that throws under its
lease, and an undo that throws once it reached the host. -/
def LeaseKept (o : TurnOp) (env : TurnEnv) (w : TurnWorld) : Prop :=
  match o with
  | .markConfirmationExecuting =>
      ∃ claimed, env.answer .markConfirmationExecuting = .ok claimed
  | .undoStep lease spec =>
      (∃ step, env.answer (.undoStep lease spec) = .ok step) ∨
        env.dispatched = false ∧ (lease, .dispatched) ∉ w.log
  | .listUndoSteps lease =>
      (∃ n, env.answer (.listUndoSteps lease) = .ok n) ∨ (lease, .dispatched) ∉ w.log
  | _ => True

def leaseSpec (config : TurnConfig) : Spec ((turnServer config).watched LeaseKept) where
  Inv _ := True
  Rely _ _ := True
  Pre o x := o.NamesOut x.1
  Allowed _ _ _ := True

def noOwners : ResultObject → Option Nat := fun _ => none

/-- The lease that is out, the phases it may be in, the object it is handed to, and whether
no correction is owed. -/
structure Standing where
  lease? : Option Nat
  phases : List LeasePhase
  owners : ResultObject → Option Nat := noOwners
  ready : Bool := false

def Standing.rest : Standing where
  lease? := none
  phases := []

/-- The lease is in the hands of the process itself. -/
def Standing.inHand (lease? : Option Nat) (phases : List LeasePhase) : Standing where
  lease?
  phases
  ready := true

/-- The phases of a lease before its work is recorded. -/
def workPhases : List LeasePhase := [.held, .dispatched]

@[simp] theorem mem_workPhases {phase : LeasePhase} :
    phase ∈ workPhases ↔ phase = .held ∨ phase = .dispatched := by
  simp [workPhases]

theorem held_work : [LeasePhase.held] ⊆ workPhases := by simp

theorem work_out : workPhases ⊆ LeaseLog.outPhases := by
  intro phase hphase
  rcases mem_workPhases.mp hphase with rfl | rfl <;> simp [LeaseLog.outPhases]

def Standing.owned (owner : ResultObject) (lease? : Option Nat) (phases : List LeasePhase) :
    Standing where
  lease?
  phases
  owners := Function.update noOwners owner lease?

/-- A turn world with the note of whether everything so far was `LeaseKept`. -/
abbrev Watched : Type := TurnWorld × Prop

structure Stands (config : TurnConfig) (s : Standing) (x : Watched) : Prop where
  kept : x.2
  booked : Booked config x.1
  marked : ∀ object ∈ x.1.memory.internalCorrectionReceipts,
    ∃ id < x.1.memory.made, object = .made id
  owners : x.1.memory.resultLeases = s.owners
  ready : s.ready = true → x.1.memory.adjacentProjectCorrectionPending = false
  mine : ∀ lease, s.lease? = some lease → x.1.log.phase lease ∈ s.phases
  others : ∀ lease, s.lease? ≠ some lease →
    x.1.log.phase lease = .absent ∨ x.1.log.phase lease = .released

namespace Stands

variable {s : Standing} {x : Watched} {w : TurnWorld} {kept : Prop} {lease : Nat}
  {phases : List LeasePhase}

theorem weaken (h : Stands config s x) (hphases : s.phases ⊆ phases) :
    Stands config { s with phases } x :=
  { h with mine := fun lease hlease => hphases (h.mine lease hlease) }

theorem unready (h : Stands config s x) : Stands config { s with ready := false } x :=
  { h with ready := nofun }

theorem congr {kept' : Prop} (h : Stands config s (w, kept)) (hkept : kept ↔ kept') :
    Stands config s (w, kept') :=
  { h with kept := hkept.mp h.kept }

theorem await (h : Stands config s (w, kept)) (others : List CoordinatorStep) :
    Stands config s (w.await others, kept) :=
  { h with booked := h.booked.await others }

/-- A step that leaves everything but the memory, and the leases of the memory, alone. -/
theorem remember (h : Stands config s x) {m : TurnMemory}
    (hmarked : ∀ object ∈ m.internalCorrectionReceipts, ∃ id < m.made, object = .made id)
    (howners : m.resultLeases = s.owners)
    (hready : s.ready = true → m.adjacentProjectCorrectionPending = false) :
    Stands config s ({ x.1 with memory := m }, x.2) where
  kept := h.kept
  booked := h.booked.remember m
  marked := hmarked
  owners := howners
  ready := hready
  mine := h.mine
  others := h.others

variable {event : LeaseEvent}

theorem note (h : Stands config s (w, kept)) (hlease : s.lease? = some lease)
    (hevent : event ≠ .released) (hout : s.phases ⊆ LeaseLog.outPhases)
    (hnext : ∀ phase ∈ s.phases, phase.next event ∈ phases) :
    Stands config { s with phases } (w.note lease event, kept) where
  kept := h.kept
  booked := h.booked.note (LeaseLog.out_of_phase (hout (h.mine lease hlease))).1 hevent
  marked := h.marked
  owners := h.owners
  ready := h.ready
  mine := by
    intro other hother
    obtain rfl : lease = other := Option.some.inj (hlease.symm.trans hother)
    show (w.log ++ [(lease, event)] : LeaseLog).phase lease ∈ phases
    rw [LeaseLog.phase_concat]
    exact hnext _ (h.mine lease hlease)
  others := by
    intro other hother
    have hne : lease ≠ other := fun heq => hother (heq ▸ hlease)
    show (w.log ++ [(lease, event)] : LeaseLog).phase other = _ ∨
      (w.log ++ [(lease, event)] : LeaseLog).phase other = _
    rw [LeaseLog.phase_concat_other hne]
    exact h.others other hother

theorem act (h : Stands config s (w, kept)) (hlease : s.lease? = some lease)
    (hphases : s.phases ⊆ workPhases) (env : TurnEnv) :
    Stands config { s with phases := workPhases } (w.act env lease, kept) := by
  unfold TurnWorld.act
  split
  · refine (h.note hlease (by simp) (List.Subset.trans hphases work_out) ?_).await _
    intro phase hphase
    rcases mem_workPhases.mp (hphases hphase) with rfl | rfl <;> simp [LeasePhase.next]
  · exact (h.weaken hphases).await _

theorem record (h : Stands config s (w, kept)) (hlease : s.lease? = some lease)
    (hphases : s.phases ⊆ workPhases) (hevent : event = .stored ∨ event = .givenUp) :
    Stands config { s with phases := [.recorded] } (w.note lease event, kept) := by
  refine h.note hlease ?_ (List.Subset.trans hphases work_out) fun phase hphase => ?_
  · rcases hevent with rfl | rfl <;> simp
  · rcases mem_workPhases.mp (hphases hphase) with rfl | rfl <;>
      rcases hevent with rfl | rfl <;> simp [LeasePhase.next]

theorem idle (h : Stands config s x) (hnone : s.lease? = none) (phases : List LeasePhase) :
    Stands config { s with phases } x :=
  { h with mine := fun lease hlease => by rw [hnone] at hlease; cases hlease }

theorem lease_of_owner {owner : ResultObject} {lease? : Option Nat}
    (h : Stands config (.owned owner lease? phases) x) :
    x.1.memory.resultLeases owner = lease? := by
  rw [h.owners]
  exact Function.update_self _ _ _

theorem recordOwner {owner : ResultObject} {lease? : Option Nat}
    (h : Stands config (.owned owner lease? workPhases) (w, kept))
    (hevent : event = .stored ∨ event = .givenUp) :
    Stands config (.owned owner lease? [.recorded]) (w.noteOwner owner event, kept) := by
  have howner : w.memory.resultLeases owner = lease? := h.lease_of_owner
  unfold TurnWorld.noteOwner
  rw [howner]
  cases lease? with
  | none => exact h.idle rfl _
  | some lease => exact h.record rfl (List.Subset.refl _) hevent

theorem namesOut {o : TurnOp} (h : Stands config s x) (hphases : s.phases ⊆ LeaseLog.outPhases)
    (ho : ∀ lease, o.lease? x.1 = some lease → s.lease? = some lease) : o.NamesOut x.1 :=
  fun lease hlease => LeaseLog.out_of_phase (hphases (h.mine lease (ho lease hlease)))

theorem release (h : Stands config s (w, kept)) (hlease : s.lease? = some lease)
    (hphases : s.phases ⊆ [.held, .recorded]) :
    Stands config { s with lease? := none, phases := [] } (w.release lease, kept) where
  kept := h.kept
  booked := by
    refine h.booked.release (LeaseLog.out_of_phase ?_).1
    exact List.Subset.trans hphases (by simp [LeaseLog.outPhases]) (h.mine lease hlease)
  marked := h.marked
  owners := h.owners
  ready := h.ready
  mine := nofun
  others := by
    intro other _
    show (w.log ++ [(lease, .released)] : LeaseLog).phase other = _ ∨
      (w.log ++ [(lease, .released)] : LeaseLog).phase other = _
    by_cases heq : lease = other
    · subst heq
      rw [LeaseLog.phase_concat]
      have hcases := hphases (h.mine lease hlease)
      simp only [List.mem_cons, List.not_mem_nil, or_false] at hcases
      rcases hcases with hphase | hphase <;> rw [hphase] <;> exact .inr rfl
    · rw [LeaseLog.phase_concat_other heq]
      exact h.others other fun hsame => heq (Option.some.inj (hlease.symm.trans hsame))

theorem acquire (h : Stands config s (w, kept)) (hnone : s.lease? = none)
    (hok : (w.acquire config).1 = .ok lease) :
    Stands config { s with lease? := some lease, phases := [.held] }
      ((w.acquire config).2, kept) := by
  have hbooked := h.booked.acquire
  unfold TurnWorld.acquire at hok hbooked ⊢
  cases hgrant : (w.coordinator.acquire config.workspaceId config.generation).1 with
  | error e =>
    simp only [hgrant] at hok
    cases hok
  | ok granted =>
    simp only [hgrant] at hok hbooked ⊢
    obtain rfl : granted = lease := by simpa using hok
    have hunseen := LeaseLog.phase_of_unseen (h.booked.unseen hgrant)
    refine ⟨h.kept, hbooked, h.marked, h.owners, h.ready, ?_, ?_⟩
    · intro other hother
      obtain rfl := Option.some.inj hother
      show (w.log ++ [(granted, .acquired)] : LeaseLog).phase granted ∈ _
      rw [LeaseLog.phase_concat, hunseen]
      simp [LeasePhase.next]
    · intro other hother
      have hne : granted ≠ other := fun heq => hother (by rw [heq])
      show (w.log ++ [(granted, .acquired)] : LeaseLog).phase other = _ ∨
        (w.log ++ [(granted, .acquired)] : LeaseLog).phase other = _
      rw [LeaseLog.phase_concat_other hne]
      exact h.others other (by rw [hnone]; simp)

theorem acquire_refused (h : Stands config s (w, kept)) {e : TurnError}
    (herror : (w.acquire config).1 = .error e) : Stands config s ((w.acquire config).2, kept) := by
  have hbooked := h.booked.acquire
  unfold TurnWorld.acquire at herror hbooked ⊢
  cases hgrant : (w.coordinator.acquire config.workspaceId config.generation).1 with
  | ok granted =>
    simp only [hgrant] at herror
    cases herror
  | error e' =>
    simp only [hgrant] at hbooked ⊢
    exact { h with booked := hbooked }

end Stands

section Operations

variable {s : Standing} {x : Watched} {o : TurnOp} {phases : List LeasePhase}

/-- A value meets the first postcondition, an exception the second. -/
def Ends {α : Type} (Q : α → Watched → Prop) (E : TurnError → Watched → Prop)
    (r : Except TurnError α) (x : Watched) : Prop :=
  match r with
  | .ok a => Q a x
  | .error e => E e x

variable {E : TurnError → Watched → Prop}

theorem safeE_op {Q : o.Val → Watched → Prop} (hpre : o.NamesOut x.1)
    (h : ∀ env, Ends Q E (o.exec config env x.1).1
      ((o.exec config env x.1).2, x.2 ∧ LeaseKept o env x.1)) :
    SafeE (S := leaseSpec config) (perform o) Q E x := by
  refine safeE_perform rfl hpre fun env _ => ?_
  have hends := h env
  change Meets (M := (turnServer config).watched LeaseKept) Q E (o.exec config env x.1).1
    ((o.exec config env x.1).2, x.2 ∧ LeaseKept o env x.1)
  cases hresult : (o.exec config env x.1).1 with
  | ok a =>
    rw [hresult] at hends
    exact hends
  | error e =>
    rw [hresult] at hends
    exact hends

/-- The operations that touch neither a lease nor the memory. -/
def TurnOp.quiet : TurnOp → Bool
  | memory | remember _ | acquire | release _ => false
  | executeSafeWrite _ (some _) => false
  | persistResult _ _ _ | reportDegraded _ => false
  | undoStep _ _ | listUndoSteps _ | settleUndoOperation _ _ | reportUndoDegraded _ => false
  | markConfirmationExecuting | commit _ => false
  | settleConfirmedOperation _ _ | reportConfirmationDegraded _ => false
  | _ => true

theorem TurnOp.quiet_exec (config : TurnConfig) (ho : o.quiet = true) (env : TurnEnv)
    (w : TurnWorld) : (∃ others, (o.exec config env w).2 = w.await others) ∧ LeaseKept o env w ∧
      o.lease? w = none := by
  have hstay : ∃ others, w = w.await others := ⟨[], rfl⟩
  cases o with
  | executeSafeWrite call lease =>
    cases lease with
    | none => exact ⟨⟨env.others, rfl⟩, trivial, rfl⟩
    | some lease => cases ho
  | aborted => exact ⟨hstay, trivial, rfl⟩
  | leaseAborted lease => exact ⟨hstay, trivial, rfl⟩
  | memory | remember | acquire | release | persistResult | reportDegraded | undoStep
  | listUndoSteps | settleUndoOperation | reportUndoDegraded | markConfirmationExecuting | commit
  | settleConfirmedOperation | reportConfirmationDegraded => cases ho
  | _ => exact ⟨⟨env.others, rfl⟩, trivial, rfl⟩

theorem safeE_quiet (ho : o.quiet = true) (h : Stands config s x) :
    SafeE (S := leaseSpec config) (perform o) (fun _ => Stands config s)
      (fun _ => Stands config s) x := by
  have hpre : o.NamesOut x.1 := by
    intro lease hlease
    rw [(TurnOp.quiet_exec config ho
      ⟨fun _ => .error revokedError, false, false, []⟩ x.1).2.2] at hlease
    cases hlease
  refine safeE_op hpre fun env => ?_
  obtain ⟨⟨others, hworld⟩, hkept, -⟩ := TurnOp.quiet_exec config ho env x.1
  have hafter : Stands config s ((o.exec config env x.1).2, x.2 ∧ LeaseKept o env x.1) := by
    rw [hworld]
    exact (h.await others).congr (and_iff_left hkept).symm
  cases (o.exec config env x.1).1 <;> exact hafter

theorem safeE_leaseAborted (lease : Nat) (h : Stands config s x) :
    SafeE (S := leaseSpec config) (perform (.leaseAborted lease)) (fun _ => Stands config s) E x :=
  safeE_op nofun fun _ => h.congr (and_iff_left trivial).symm

theorem safeE_memory {Q : TurnMemory → Watched → Prop} (h : Q x.1.memory x) :
    SafeE (S := leaseSpec config) (perform .memory) Q E x := by
  refine safeE_op nofun fun env => ?_
  have hsame : ((TurnOp.memory.exec config env x.1).2, x.2 ∧ LeaseKept .memory env x.1) = x :=
    Prod.ext rfl (propext (and_iff_left trivial))
  rw [hsame]
  exact h

theorem safeE_remember {Q : Unit → Watched → Prop}
    {m : TurnMemory} (h : Q () ({ x.1 with memory := m }, x.2)) :
    SafeE (S := leaseSpec config) (perform (.remember m)) Q E x := by
  refine safeE_op nofun fun env => ?_
  have hsame : (((TurnOp.remember m).exec config env x.1).2,
      x.2 ∧ LeaseKept (.remember m) env x.1) = ({ x.1 with memory := m }, x.2) :=
    Prod.ext rfl (propext (and_iff_left trivial))
  rw [hsame]
  exact h

theorem safeE_acquire (h : Stands config s x) (hnone : s.lease? = none) :
    SafeE (S := leaseSpec config) (perform .acquire)
      (fun lease => Stands config { s with lease? := some lease, phases := [.held] })
      (fun _ => Stands config s) x := by
  refine safeE_op nofun fun env => ?_
  change Ends _ _ (x.1.acquire config).1 ((x.1.acquire config).2, x.2 ∧ True)
  cases hgrant : (x.1.acquire config).1 with
  | ok lease => exact (h.acquire hnone hgrant).congr (and_iff_left trivial).symm
  | error e => exact (h.acquire_refused hgrant).congr (and_iff_left trivial).symm

theorem safeE_release {lease : Nat} (h : Stands config s x)
    (hlease : s.lease? = some lease) (hphases : s.phases ⊆ [.held, .recorded]) :
    SafeE (S := leaseSpec config) (perform (.release lease))
      (fun _ => Stands config { s with lease? := none, phases := [] }) E x := by
  refine safeE_op ?_ fun env => ?_
  · refine h.namesOut (List.Subset.trans hphases (by simp [LeaseLog.outPhases])) ?_
    intro other hother
    obtain rfl := Option.some.inj hother
    exact hlease
  · exact (h.release hlease hphases).congr (and_iff_left trivial).symm

/-- Work under the lease may have reached the host, whether it succeeds or throws. -/
theorem safeE_acting {lease : Nat} (h : Stands config s x) (hlease : s.lease? = some lease)
    (hphases : s.phases ⊆ workPhases) (hnames : o.lease? x.1 = some lease)
    (hexec : ∀ env, o.exec config env x.1 = (env.answer o, x.1.act env lease))
    (hkept : ∀ env, LeaseKept o env x.1) : SafeE (S := leaseSpec config) (perform o)
      (fun _ => Stands config { s with phases := workPhases })
      (fun _ => Stands config { s with phases := workPhases }) x := by
  refine safeE_op ?_ fun env => ?_
  · refine h.namesOut (List.Subset.trans hphases work_out) fun other hother => ?_
    rw [hlease, ← hnames, hother]
  · rw [hexec]
    have hafter := (h.act hlease hphases env).congr (and_iff_left (hkept env)).symm
    cases env.answer o <;> exact hafter

theorem safeE_recording {s' : Standing} {after : TurnWorld} (h : Stands config s x)
    (hpre : o.NamesOut x.1)
    (hexec : ∀ env, o.exec config env x.1 = recording (env.answer o) x.1 after)
    (hkept : ∀ env, LeaseKept o env x.1) (hafter : Stands config s' (after, x.2)) :
    SafeE (S := leaseSpec config) (perform o) (fun _ => Stands config s')
      (fun _ => Stands config s) x := by
  refine safeE_op hpre fun env => ?_
  rw [hexec]
  unfold recording
  cases env.answer o with
  | ok a => exact hafter.congr (and_iff_left (hkept env)).symm
  | error e => exact h.congr (and_iff_left (hkept env)).symm

theorem safeE_reporting {s' : Standing} {after : TurnWorld} {a : o.Val} (hpre : o.NamesOut x.1)
    (hexec : ∀ env, o.exec config env x.1 = (.ok a, after))
    (hkept : ∀ env, LeaseKept o env x.1) (hafter : Stands config s' (after, x.2)) :
    SafeE (S := leaseSpec config) (perform o) (fun _ => Stands config s') E x := by
  refine safeE_op hpre fun env => ?_
  rw [hexec]
  exact hafter.congr (and_iff_left (hkept env)).symm

theorem safeE_executeSafeWrite {call : ToolCall} {lease? : Option Nat}
    (h : Stands config s x) (hlease : s.lease? = lease?) (hphases : s.phases ⊆ workPhases) :
    SafeE (S := leaseSpec config) (perform (.executeSafeWrite call lease?))
      (fun _ => Stands config { s with phases := workPhases })
      (fun _ => Stands config { s with phases := workPhases }) x := by
  cases lease? with
  | none => exact safeE_quiet (o := .executeSafeWrite call none) rfl (h.weaken hphases)
  | some lease =>
    exact safeE_acting (o := .executeSafeWrite call (some lease)) h hlease hphases rfl
      (fun _ => rfl) fun _ => trivial

section Owned

variable {owner : ResultObject} {lease? : Option Nat}

theorem namesOut_owned {o : TurnOp} (h : Stands config (.owned owner lease? workPhases) x)
    (ho : o.lease? x.1 = x.1.memory.resultLeases owner) : o.NamesOut x.1 := by
  refine h.namesOut work_out fun lease hlease => ?_
  exact (h.lease_of_owner.symm.trans ho.symm).trans hlease

theorem safeE_persistResult {status : ActionResultKind} {operationId : Option OperationId}
    (h : Stands config (.owned owner lease? workPhases) x) :
    SafeE (S := leaseSpec config) (perform (.persistResult owner status operationId))
      (fun _ => Stands config (.owned owner lease? [.recorded]))
      (fun _ => Stands config (.owned owner lease? workPhases)) x :=
  safeE_recording h (namesOut_owned h rfl) (fun _ => rfl) (fun _ => trivial)
    (h.recordOwner (.inl rfl))

theorem safeE_reportDegraded {E : TurnError → Watched → Prop}
    (h : Stands config (.owned owner lease? workPhases) x) :
    SafeE (S := leaseSpec config) (perform (.reportDegraded owner))
      (fun _ => Stands config (.owned owner lease? [.recorded])) E x :=
  safeE_reporting (namesOut_owned h rfl) (fun _ => rfl) (fun _ => trivial)
    (h.recordOwner (.inr rfl))

end Owned

end Operations

end TurnMachinery

end ClockifyAssistant
