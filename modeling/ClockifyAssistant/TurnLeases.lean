import ClockifyAssistant.LeaseDrains
import ClockifyAssistant.Routes.LeasedRequests

/-!
What the operations of a turn do to its leases. A lease of the turn is a lease of the
coordinator that is out until the turn releases it; the phase of a lease moves with the
operation that names it and with no other.
-/
namespace ClockifyAssistant

open Lib Fallible

namespace TurnMachinery

variable {config : TurnConfig} {w : TurnWorld} {env : TurnEnv} {o : TurnOp} {lease : Nat}
  {event : LeaseEvent}

/-- The leases that the log names are handles of the coordinator, released as the log says. -/
structure Booked (config : TurnConfig) (w : TurnWorld) : Prop where
  settling : w.coordinator.Settling
  resolving : w.coordinator.Resolving
  acquired : ∀ lease event, (lease, event) ∈ w.log → (lease, .acquired) ∈ w.log
  handle : ∀ lease, (lease, .acquired) ∈ w.log → ∃ handle,
    w.coordinator.handles lease = some handle ∧ handle.workspaceId = config.workspaceId ∧
      (handle.released = true ↔ (lease, .released) ∈ w.log)

namespace Booked

theorem remember (h : Booked config w) (m : TurnMemory) : Booked config { w with memory := m } :=
  ⟨h.settling, h.resolving, h.acquired, h.handle⟩

theorem await (h : Booked config w) (others : List CoordinatorStep) :
    Booked config (w.await others) := by
  refine ⟨h.settling.run _, h.resolving.run h.settling _, h.acquired, ?_⟩
  intro lease (hlease : (lease, .acquired) ∈ w.log)
  obtain ⟨handle, hhandle, hrest⟩ := h.handle lease hlease
  refine ⟨handle, ?_, hrest⟩
  refine MutationCoordinator.Keeps.run h.settling ?_ handle hhandle
  intro hmem
  have hforeign : (!w.log.contains (lease, .acquired)) = true := (List.mem_filter.mp hmem).2
  rw [List.contains_iff_mem.mpr hlease] at hforeign
  cases hforeign

theorem note (h : Booked config w) (hlease : (lease, .acquired) ∈ w.log)
    (hevent : event ≠ .released) : Booked config (w.note lease event) := by
  have hmem : ∀ other e, (other, e) ∈ (w.note lease event).log ↔
      (other, e) ∈ w.log ∨ other = lease ∧ e = event := by
    intro other e
    simp [TurnWorld.note]
  refine ⟨h.settling, h.resolving, ?_, ?_⟩
  · intro other e he
    rw [hmem] at he ⊢
    rcases he with hold | ⟨rfl, -⟩
    · exact .inl (h.acquired other e hold)
    · exact .inl hlease
  · intro other hother
    have hother' : (other, .acquired) ∈ w.log := by
      rcases (hmem _ _).mp hother with hold | ⟨rfl, -⟩
      · exact hold
      · exact hlease
    obtain ⟨handle, hhandle, hworkspace, hreleased⟩ := h.handle other hother'
    refine ⟨handle, hhandle, hworkspace, ?_⟩
    rw [hreleased, hmem]
    simp [hevent.symm]

theorem release (h : Booked config w) (hlease : (lease, .acquired) ∈ w.log) :
    Booked config (w.release lease) := by
  have hmem : ∀ other e, (other, e) ∈ w.log ++ [(lease, LeaseEvent.released)] ↔
      (other, e) ∈ w.log ∨ other = lease ∧ e = .released := by
    intro other e
    simp
  refine ⟨h.settling.release lease, h.resolving.release lease, ?_, ?_⟩
  · intro other e he
    rcases (hmem other e).mp he with hold | ⟨rfl, -⟩
    · exact (hmem _ _).mpr (.inl (h.acquired other e hold))
    · exact (hmem _ _).mpr (.inl hlease)
  · intro other hother
    have hother' : (other, .acquired) ∈ w.log := by simpa using (hmem _ _).mp hother
    obtain ⟨handle, hhandle, hworkspace, hreleased⟩ := h.handle other hother'
    by_cases heq : other = lease
    · subst heq
      obtain ⟨handle', hhandle', hdone⟩ :=
        MutationCoordinator.Settling.released_of_release w.coordinator hhandle
      obtain ⟨handle'', hhandle'', howner⟩ :
          ∃ handle'', (w.coordinator.release other).handles other = some handle'' ∧
            handle''.workspaceId = handle.workspaceId := by
        unfold MutationCoordinator.release
        simp only [hhandle]
        split
        · exact ⟨handle, hhandle, rfl⟩
        · refine ⟨{ handle with released := true }, ?_, rfl⟩
          unfold MutationCoordinator.unretire
          split <;> exact Function.update_self _ _ _
      obtain rfl := Option.some.inj (hhandle'.symm.trans hhandle'')
      refine ⟨handle', hhandle', howner.trans hworkspace, iff_of_true hdone ?_⟩
      exact (hmem _ _).mpr (.inr ⟨rfl, rfl⟩)
    · refine ⟨handle, ?_, hworkspace, ?_⟩
      · exact MutationCoordinator.Keeps.release w.coordinator (Ne.symm heq) handle hhandle
      · rw [hreleased]
        exact ⟨fun hold => (hmem _ _).mpr (.inl hold), fun hnew => by
          rcases (hmem _ _).mp hnew with hold | ⟨hsame, -⟩
          · exact hold
          · exact absurd hsame heq⟩

/-- A lease that the coordinator grants is none that the log names. -/
theorem unseen (h : Booked config w)
    (hok : (w.coordinator.acquire config.workspaceId config.generation).1 = .ok lease) :
    ∀ event, (lease, event) ∉ w.log := by
  intro event hevent
  obtain ⟨handle, hhandle, -⟩ := h.handle lease (h.acquired lease event hevent)
  have hlt := ((h.settling.seed config.workspaceId config.generation).handle_filed lease handle
    (MutationCoordinator.Keeps.seed _ _ _ handle hhandle)).1
  rw [MutationCoordinator.Settling.acquire_eq] at hok
  split at hok
  · cases hok
  · cases hok
    exact Nat.lt_irrefl _ hlt

theorem acquire (h : Booked config w) : Booked config (w.acquire config).2 := by
  have hsettling := h.settling.acquire config.workspaceId config.generation
  have hresolving := h.resolving.acquire h.settling config.workspaceId config.generation
  have hkept : ∀ lease, MutationCoordinator.Keeps lease w.coordinator
      (w.coordinator.acquire config.workspaceId config.generation).2 :=
    fun _ => MutationCoordinator.Keeps.acquire h.settling _ _
  have hold : Booked config { w with
      coordinator := (w.coordinator.acquire config.workspaceId config.generation).2 } := by
    refine ⟨hsettling, hresolving, h.acquired, ?_⟩
    intro lease hlease
    obtain ⟨handle, hhandle, hrest⟩ := h.handle lease hlease
    exact ⟨handle, hkept lease handle hhandle, hrest⟩
  unfold TurnWorld.acquire
  cases hgrant : (w.coordinator.acquire config.workspaceId config.generation).1 with
  | error e => exact hold
  | ok lease =>
    have hnew := h.unseen hgrant
    obtain ⟨id, leaseId, -, -, -, -, hhandle⟩ := h.settling.granted hgrant
    have hmem : ∀ other e, (other, e) ∈ w.log ++ [(lease, LeaseEvent.acquired)] ↔
        (other, e) ∈ w.log ∨ other = lease ∧ e = .acquired := by
      intro other e
      simp
    refine ⟨hsettling, hresolving, ?_, ?_⟩
    · intro other e he
      rcases (hmem other e).mp he with hin | ⟨rfl, -⟩
      · exact (hmem _ _).mpr (.inl (h.acquired other e hin))
      · exact (hmem _ _).mpr (.inr ⟨rfl, rfl⟩)
    · intro other hother
      rcases (hmem _ _).mp hother with hin | ⟨rfl, -⟩
      · obtain ⟨handle, hhandle', hworkspace, hreleased⟩ := hold.handle other hin
        refine ⟨handle, hhandle', hworkspace, hreleased.trans ?_⟩
        exact ⟨fun hin => (hmem _ _).mpr (.inl hin), fun hin => by simpa using (hmem _ _).mp hin⟩
      · refine ⟨_, hhandle, rfl, iff_of_false (by simp) ?_⟩
        intro hreleased
        exact hnew _ (by simpa using (hmem _ _).mp hreleased)

end Booked

/-- The lease under which an operation acts or records. -/
def TurnOp.lease? (w : TurnWorld) : TurnOp → Option Nat
  | release lease => some lease
  | executeSafeWrite _ lease => lease
  | persistResult owner _ _ => w.memory.resultLeases owner
  | reportDegraded owner => w.memory.resultLeases owner
  | undoStep lease _ => some lease
  | settleUndoOperation lease _ => some lease
  | reportUndoDegraded lease => some lease
  | commit lease => some lease
  | settleConfirmedOperation lease _ => some lease
  | reportConfirmationDegraded lease => some lease
  | _ => none

/-- An operation names only a lease that is out. -/
def TurnOp.NamesOut (o : TurnOp) (w : TurnWorld) : Prop :=
  ∀ lease, o.lease? w = some lease → (lease, .acquired) ∈ w.log ∧ (lease, .released) ∉ w.log

theorem Booked.act (h : Booked config w) (hlease : (lease, .acquired) ∈ w.log) (env : TurnEnv) :
    Booked config (w.act env lease) := by
  unfold TurnWorld.act
  split
  · exact (h.note hlease (by simp)).await _
  · exact h.await _

theorem Booked.noteOwner (h : Booked config w) {owner : ResultObject}
    (hlease : ∀ lease, w.memory.resultLeases owner = some lease → (lease, .acquired) ∈ w.log)
    (hevent : event ≠ .released) : Booked config (w.noteOwner owner event) := by
  unfold TurnWorld.noteOwner
  split
  · rename_i lease hsome
    exact h.note (hlease lease hsome) hevent
  · exact h

theorem Booked.recording {α : Type} {r : Except TurnError α} {after : TurnWorld}
    (h : Booked config w) (hafter : Booked config after) :
    Booked config (recording r w after).2 := by
  cases r with
  | ok a => exact hafter
  | error e => exact h

theorem Booked.exec (h : Booked config w) (hpre : o.NamesOut w) :
    Booked config (o.exec config env w).2 := by
  have hacquired := fun lease hlease => (hpre lease hlease).1
  cases o with
  | memory => exact h
  | remember m => exact h.remember m
  | aborted => exact h
  | leaseAborted lease => exact h
  | acquire => exact h.acquire
  | release lease => exact h.release (hacquired lease rfl)
  | executeSafeWrite call lease =>
    cases lease with
    | none => exact h.await _
    | some lease => exact h.act (hacquired lease rfl) env
  | persistResult owner status operationId =>
    exact h.recording (h.noteOwner hacquired (by simp))
  | reportDegraded owner => exact h.noteOwner hacquired (by simp)
  | undoStep lease spec => exact h.act (hacquired lease rfl) env
  | settleUndoOperation lease status =>
    exact h.recording (h.note (hacquired lease rfl) (by simp))
  | reportUndoDegraded lease => exact h.note (hacquired lease rfl) (by simp)
  | commit lease => exact h.act (hacquired lease rfl) env
  | settleConfirmedOperation lease status =>
    exact h.recording (h.note (hacquired lease rfl) (by simp))
  | reportConfirmationDegraded lease => exact h.note (hacquired lease rfl) (by simp)
  | _ => exact h.await env.others

section Log

theorem log_note (w : TurnWorld) (lease : Nat) (event : LeaseEvent) :
    w.log <+: (w.note lease event).log :=
  List.prefix_append _ _

theorem log_act (w : TurnWorld) (env : TurnEnv) (lease : Nat) :
    w.log <+: (w.act env lease).log := by
  unfold TurnWorld.act
  split
  · exact log_note w lease .dispatched
  · exact List.prefix_refl _

theorem log_noteOwner (w : TurnWorld) (owner : ResultObject) (event : LeaseEvent) :
    w.log <+: (w.noteOwner owner event).log := by
  unfold TurnWorld.noteOwner
  split
  · exact log_note w _ event
  · exact List.prefix_refl _

theorem log_recording {α : Type} {r : Except TurnError α} {after : TurnWorld}
    (h : w.log <+: after.log) : w.log <+: (recording r w after).2.log := by
  cases r with
  | ok a => exact h
  | error e => exact List.prefix_refl _

theorem TurnOp.log_exec (config : TurnConfig) (o : TurnOp) (env : TurnEnv) (w : TurnWorld) :
    w.log <+: (o.exec config env w).2.log := by
  cases o with
  | acquire =>
    show w.log <+: (w.acquire config).2.log
    unfold TurnWorld.acquire
    split
    · exact List.prefix_append _ _
    · exact List.prefix_refl _
  | release lease => exact List.prefix_append _ _
  | executeSafeWrite call lease =>
    cases lease with
    | none => exact List.prefix_refl _
    | some lease => exact log_act w env lease
  | persistResult owner status operationId => exact log_recording (log_noteOwner w owner .stored)
  | reportDegraded owner => exact log_noteOwner w owner .givenUp
  | undoStep lease spec => exact log_act w env lease
  | settleUndoOperation lease status => exact log_recording (log_note w lease .stored)
  | reportUndoDegraded lease => exact log_note w lease .givenUp
  | commit lease => exact log_act w env lease
  | settleConfirmedOperation lease status => exact log_recording (log_note w lease .stored)
  | reportConfirmationDegraded lease => exact log_note w lease .givenUp
  | _ => exact List.prefix_refl _

end Log

end TurnMachinery

end ClockifyAssistant
