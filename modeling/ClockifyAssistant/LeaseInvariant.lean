import ClockifyAssistant.Clockify.WorkspaceMutationCoordinator

/-!
What holds of the leases, drains and deletions of the coordinator at every
point. A state with leases out is the current one or a retired one, a drain
seals every generation up to the one current when it began, and an open deletion
keeps that generation current and blocked.
-/
namespace ClockifyAssistant

open Lib

def DeletionPhase.isOpen : DeletionPhase → Bool
  | .begun | .finished => true
  | .absent | .completed => false

/-- A change of a state that neither grants nor drops a lease. -/
structure WorkspaceState.Keeps (old new : WorkspaceState) : Prop where
  workspaceId : new.workspaceId = old.workspaceId
  generation : new.generation = old.generation
  leases : new.leases = old.leases
  nextLease : new.nextLease = old.nextLease
  blocked : old.blocked = true → new.blocked = true
  drainWaiters : new.leases ≠ [] → old.drainWaiters ⊆ new.drainWaiters

namespace WorkspaceState

variable (state : WorkspaceState)

theorem keeps_refl : state.Keeps state :=
  ⟨rfl, rfl, rfl, rfl, id, fun _ => List.Subset.refl _⟩

theorem keeps_abort : state.Keeps state.abort :=
  ⟨rfl, rfl, rfl, rfl, id, fun _ => List.Subset.refl _⟩

@[simp] theorem resolveDrain_workspaceId : state.resolveDrain.workspaceId = state.workspaceId := by
  unfold resolveDrain
  split <;> rfl

@[simp] theorem resolveDrain_generation : state.resolveDrain.generation = state.generation := by
  unfold resolveDrain
  split <;> rfl

@[simp] theorem resolveDrain_leases : state.resolveDrain.leases = state.leases := by
  unfold resolveDrain
  split <;> rfl

@[simp] theorem resolveDrain_nextLease : state.resolveDrain.nextLease = state.nextLease := by
  unfold resolveDrain
  split <;> rfl

@[simp] theorem resolveDrain_blocked : state.resolveDrain.blocked = state.blocked := by
  unfold resolveDrain
  split <;> rfl

theorem resolveDrain_drainWaiters (h : state.leases ≠ []) :
    state.resolveDrain.drainWaiters = state.drainWaiters := by
  unfold resolveDrain
  rw [if_neg h]

theorem blocked_block : state.block.blocked = true := by
  simp [block, abort]

theorem keeps_block : state.Keeps state.block := by
  refine ⟨by simp [block, abort], by simp [block, abort], by simp [block, abort],
    by simp [block, abort], fun _ => state.blocked_block, ?_⟩
  intro hleases
  have hkept : ({ state with blocked := true }.abort).leases ≠ [] := by
    simpa [block] using hleases
  have hwaiters := resolveDrain_drainWaiters _ hkept
  rw [block, hwaiters]
  exact List.Subset.refl _

theorem keeps_stateDrain (drain : Nat) : state.Keeps (state.stateDrain drain) := by
  unfold stateDrain
  split
  · exact state.keeps_refl
  · exact ⟨rfl, rfl, rfl, rfl, id, fun _ => List.subset_append_left _ _⟩

theorem drop_leases (leaseId : Nat) :
    (state.drop leaseId).leases = state.leases.filter (· ≠ leaseId) := by
  simp [drop]

theorem drop_drainWaiters {leaseId : Nat} (h : (state.drop leaseId).leases ≠ []) :
    (state.drop leaseId).drainWaiters = state.drainWaiters := by
  rw [drop_leases] at h
  exact resolveDrain_drainWaiters _ h

theorem leases_of_drop {leaseId : Nat} (h : (state.drop leaseId).leases ≠ []) :
    state.leases ≠ [] := by
  rw [drop_leases] at h
  intro hempty
  simp [hempty] at h

theorem mem_stateDrain {drain : Nat} (h : (state.stateDrain drain).leases ≠ []) :
    drain ∈ (state.stateDrain drain).drainWaiters := by
  have hleases : state.leases ≠ [] := by
    rw [← (state.keeps_stateDrain drain).leases]
    exact h
  simp [stateDrain, hleases]

end WorkspaceState

/-- The bookkeeping of the coordinator. -/
structure MutationCoordinator.Settling (c : MutationCoordinator) : Prop where
  owned : ∀ w id, c.states w = some id → id < c.nextState ∧ (c.heap id).workspaceId = w
  held : ∀ id, (c.heap id).leases ≠ [] →
    id < c.nextState ∧ id ∈ c.workspaceEpochs (c.heap id).workspaceId
  newest : ∀ id, id < c.nextState → ∃ current,
    c.states (c.heap id).workspaceId = some current ∧
      (c.heap id).generation ≤ (c.heap current).generation
  numbered : ∀ id leaseId, leaseId ∈ (c.heap id).leases → leaseId < (c.heap id).nextLease
  handle_filed : ∀ lease handle, c.handles lease = some handle →
    lease < c.nextHandle ∧ handle.state < c.nextState ∧
      (c.heap handle.state).workspaceId = handle.workspaceId ∧
      handle.leaseId < (c.heap handle.state).nextLease
  handle_distinct : ∀ lease lease' handle handle', c.handles lease = some handle →
    c.handles lease' = some handle' → handle.state = handle'.state →
    handle.leaseId = handle'.leaseId → lease = lease'
  counted : ∀ lease handle, c.handles lease = some handle → handle.released = false →
    handle.leaseId ∈ (c.heap handle.state).leases
  drain_filed : ∀ d drain, c.drains d = some drain → d < c.nextDrain
  barred : ∀ d drain, c.drains d = some drain → ∃ id, c.states drain.workspaceId = some id ∧
    drain.generation ≤ (c.heap id).generation ∧
    ((c.heap id).generation = drain.generation → (c.heap id).blocked = true)
  awaited : ∀ d drain, c.drains d = some drain → ∀ id,
    (c.heap id).workspaceId = drain.workspaceId → (c.heap id).generation ≤ drain.generation →
    (c.heap id).leases ≠ [] → id ∈ drain.epochs ∧ d ∈ (c.heap id).drainWaiters
  deletion_open : ∀ w d, c.deletions w = some d → (c.deletionPhase d).isOpen = true ∧
    ∃ drain, c.drains d = some drain ∧ drain.workspaceId = w ∧
      ∃ id, c.states w = some id ∧ (c.heap id).generation = drain.generation
  open_deletion : ∀ d, (c.deletionPhase d).isOpen = true →
    ∃ drain, c.drains d = some drain ∧ c.deletions drain.workspaceId = some d

namespace MutationCoordinator.Settling

variable {c : MutationCoordinator}

theorem initial : createWorkspaceMutationCoordinator.Settling := by
  constructor <;> simp [createWorkspaceMutationCoordinator, activeState, DeletionPhase.isOpen]

theorem keep (h : c.Settling) {heap : Nat → WorkspaceState}
    (hkeep : ∀ id, (c.heap id).Keeps (heap id)) : ({ c with heap := heap }).Settling := by
  refine ⟨?_, ?_, ?_, ?_, ?_, h.handle_distinct, ?_, h.drain_filed, ?_, ?_, ?_, h.open_deletion⟩
  · intro w id hid
    rw [(hkeep id).workspaceId]
    exact h.owned w id hid
  · intro id hleases
    rw [(hkeep id).leases] at hleases
    rw [(hkeep id).workspaceId]
    exact h.held id hleases
  · intro id hid
    obtain ⟨current, hcurrent, hle⟩ := h.newest id hid
    rw [(hkeep id).workspaceId, (hkeep id).generation]
    refine ⟨current, hcurrent, ?_⟩
    rw [(hkeep current).generation]
    exact hle
  · intro id leaseId hmem
    rw [(hkeep id).leases] at hmem
    rw [(hkeep id).nextLease]
    exact h.numbered id leaseId hmem
  · intro lease handle hhandle
    rw [(hkeep _).workspaceId, (hkeep _).nextLease]
    exact h.handle_filed lease handle hhandle
  · intro lease handle hhandle hout
    rw [(hkeep _).leases]
    exact h.counted lease handle hhandle hout
  · intro d drain hdrain
    obtain ⟨id, hid, hle, hblocked⟩ := h.barred d drain hdrain
    refine ⟨id, hid, ?_, ?_⟩
    · rw [(hkeep id).generation]
      exact hle
    · intro heq
      rw [(hkeep id).generation] at heq
      exact (hkeep id).blocked (hblocked heq)
  · intro d drain hdrain id hw hgen hleases
    rw [(hkeep id).workspaceId] at hw
    rw [(hkeep id).generation] at hgen
    obtain ⟨hepoch, hwaits⟩ :=
      h.awaited d drain hdrain id hw hgen (by rwa [(hkeep id).leases] at hleases)
    exact ⟨hepoch, (hkeep id).drainWaiters hleases hwaits⟩
  · intro w d hd
    obtain ⟨hphase, drain, hdrain, hw, id, hid, hgen⟩ := h.deletion_open w d hd
    refine ⟨hphase, drain, hdrain, hw, id, hid, ?_⟩
    rw [(hkeep id).generation]
    exact hgen

theorem modify (h : c.Settling) (id : Nat) {f : WorkspaceState → WorkspaceState}
    (hf : ∀ state : WorkspaceState, state.Keeps (f state)) : (c.modify id f).Settling := by
  refine h.keep ?_
  intro other
  by_cases heq : other = id
  · rw [heq, Function.update_self]
    exact hf _
  · rw [Function.update_of_ne heq]
    exact WorkspaceState.keeps_refl _

theorem retire (h : c.Settling) (w : WorkspaceId) (id : Nat) : (c.retire w id).Settling := by
  refine ⟨h.owned, ?_, h.newest, h.numbered, h.handle_filed, h.handle_distinct, h.counted,
    h.drain_filed, h.barred, h.awaited, h.deletion_open, h.open_deletion⟩
  intro other hleases
  obtain ⟨hlt, hmem⟩ := h.held other hleases
  refine ⟨hlt, ?_⟩
  show other ∈ (c.states (c.heap other).workspaceId).toList ++
    Function.update c.retiredStates w (c.retiredStates w ++ [id]) (c.heap other).workspaceId
  rcases List.mem_append.mp hmem with hcurrent | hretired
  · exact List.mem_append_left _ hcurrent
  · refine List.mem_append_right _ ?_
    by_cases hw : (c.heap other).workspaceId = w
    · rw [hw, Function.update_self]
      rw [hw] at hretired
      exact List.mem_append_left _ hretired
    · rwa [Function.update_of_ne hw]

/-- A new state of a higher generation takes over, the old one being retired
while it has leases out. -/
theorem install (h : c.Settling) {state : WorkspaceState} (hempty : state.leases = [])
    (hretired : ∀ id, c.states state.workspaceId = some id → (c.heap id).leases ≠ [] →
      id ∈ c.retiredStates state.workspaceId) (hnewer : ∀ id, c.states state.workspaceId = some id →
      (c.heap id).generation < state.generation)
    (hopen : c.deletions state.workspaceId = none) : (c.install state).Settling := by
  have hold : ∀ id, id ≠ c.nextState → (c.install state).heap id = c.heap id := by
    intro id hid
    exact Function.update_of_ne hid _ _
  have hnew : (c.install state).heap c.nextState = state := Function.update_self _ _ _
  have hcurrent : (c.install state).states state.workspaceId = some c.nextState :=
    Function.update_self _ _ _
  have hother : ∀ w, w ≠ state.workspaceId → (c.install state).states w = c.states w := by
    intro w hw
    exact Function.update_of_ne hw _ _
  refine ⟨?_, ?_, ?_, ?_, ?_, h.handle_distinct, ?_, h.drain_filed, ?_, ?_, ?_, h.open_deletion⟩
  · intro w id hid
    show id < c.nextState + 1 ∧ _
    by_cases hw : w = state.workspaceId
    · rw [hw, hcurrent] at hid
      obtain rfl : c.nextState = id := Option.some.inj hid
      rw [hnew, hw]
      exact ⟨by omega, rfl⟩
    · rw [hother w hw] at hid
      obtain ⟨hlt, howner⟩ := h.owned w id hid
      rw [hold id (by omega)]
      exact ⟨by omega, howner⟩
  · intro id hleases
    have hid : id ≠ c.nextState := by
      intro heq
      rw [heq, hnew] at hleases
      exact hleases hempty
    rw [hold id hid] at hleases ⊢
    obtain ⟨hlt, hmem⟩ := h.held id hleases
    refine ⟨Nat.lt_succ_of_lt hlt, ?_⟩
    show id ∈ ((c.install state).states _).toList ++ c.retiredStates _
    by_cases hw : (c.heap id).workspaceId = state.workspaceId
    · refine List.mem_append_right _ ?_
      rcases List.mem_append.mp hmem with hcur | hret
      · rw [hw] at hcur ⊢
        exact hretired id (by simpa using hcur) hleases
      · exact hret
    · rw [hother _ hw]
      exact hmem
  · intro id hid
    by_cases hidnew : id = c.nextState
    · rw [hidnew, hnew]
      exact ⟨c.nextState, hcurrent, Int.le_of_eq (by rw [hnew])⟩
    · have hid' : id < c.nextState + 1 := hid
      obtain ⟨current, hcur, hle⟩ := h.newest id (by omega)
      rw [hold id hidnew]
      by_cases hw : (c.heap id).workspaceId = state.workspaceId
      · rw [hw] at hcur ⊢
        have hlt := hnewer current hcur
        refine ⟨c.nextState, hcurrent, ?_⟩
        rw [hnew]
        omega
      · obtain ⟨hlt, -⟩ := h.owned _ current hcur
        refine ⟨current, by rw [hother _ hw]; exact hcur, ?_⟩
        rw [hold current (Nat.ne_of_lt hlt)]
        exact hle
  · intro id leaseId hmem
    by_cases hid : id = c.nextState
    · rw [hid, hnew, hempty] at hmem
      simp at hmem
    · rw [hold id hid] at hmem ⊢
      exact h.numbered id leaseId hmem
  · intro lease handle hhandle
    obtain ⟨hlease, hstate, howner, hid⟩ := h.handle_filed lease handle hhandle
    rw [hold _ (Nat.ne_of_lt hstate)]
    exact ⟨hlease, Nat.lt_succ_of_lt hstate, howner, hid⟩
  · intro lease handle hhandle hout
    obtain ⟨-, hstate, -⟩ := h.handle_filed lease handle hhandle
    rw [hold _ (Nat.ne_of_lt hstate)]
    exact h.counted lease handle hhandle hout
  · intro d drain hdrain
    obtain ⟨id, hid, hle, hblocked⟩ := h.barred d drain hdrain
    by_cases hw : drain.workspaceId = state.workspaceId
    · rw [hw] at hid ⊢
      have hlt := hnewer id hid
      refine ⟨c.nextState, hcurrent, ?_, ?_⟩
      · rw [hnew]
        omega
      · intro heq
        rw [hnew] at heq
        omega
    · obtain ⟨hlt, -⟩ := h.owned _ id hid
      refine ⟨id, by rw [hother _ hw]; exact hid, ?_⟩
      rw [hold id (Nat.ne_of_lt hlt)]
      exact ⟨hle, hblocked⟩
  · intro d drain hdrain id hw hgen hleases
    have hid : id ≠ c.nextState := by
      intro heq
      rw [heq, hnew] at hleases
      exact hleases hempty
    rw [hold id hid] at hw hgen hleases ⊢
    exact h.awaited d drain hdrain id hw hgen hleases
  · intro w d hd
    have hw : w ≠ state.workspaceId := by
      intro heq
      have hd' : c.deletions w = some d := hd
      rw [heq, hopen] at hd'
      cases hd'
    obtain ⟨hphase, drain, hdrain, hdw, id, hid, hgen⟩ := h.deletion_open w d hd
    obtain ⟨hlt, -⟩ := h.owned _ id hid
    refine ⟨hphase, drain, hdrain, hdw, id, by rw [hother _ hw]; exact hid, ?_⟩
    rw [hold id (Nat.ne_of_lt hlt)]
    exact hgen

theorem install_first (h : c.Settling) {state : WorkspaceState} (hempty : state.leases = [])
    (hnone : c.states state.workspaceId = none) : (c.install state).Settling := by
  refine h.install hempty ?_ ?_ ?_
  · intro id hid
    rw [hnone] at hid
    cases hid
  · intro id hid
    rw [hnone] at hid
    cases hid
  · cases hd : c.deletions state.workspaceId with
    | none => rfl
    | some d =>
      obtain ⟨-, -, -, -, id, hid, -⟩ := h.deletion_open _ d hd
      rw [hnone] at hid
      cases hid

theorem block (h : c.Settling) (w : WorkspaceId) : (c.block w).Settling := by
  unfold MutationCoordinator.block
  cases hstate : c.states w with
  | none => exact h.install_first rfl hstate
  | some id => exact h.modify id WorkspaceState.keeps_block

theorem activate (h : c.Settling) (w : WorkspaceId) (generation : Int) :
    (c.activate w generation).2.Settling := by
  unfold MutationCoordinator.activate
  split
  · exact h
  · split
    · exact h
    · rename_i hopen
      have hnone : c.deletions w = none := by simpa using hopen
      cases hstate : c.states w with
      | none => exact h.install_first rfl hstate
      | some id =>
        simp only
        split
        · exact h
        · rename_i hback
          split
          · split <;> exact h
          · rename_i hne
            have hlt : (c.heap id).generation < generation := by omega
            have haborted : (c.modify id .abort).Settling :=
              h.modify id WorkspaceState.keeps_abort
            have hsame : (c.modify id .abort).heap id = (c.heap id).abort :=
              Function.update_self _ _ _
            split
            · rename_i hempty
              refine haborted.install rfl ?_ ?_ hnone
              · intro id' hid' hleases
                obtain rfl : id = id' := Option.some.inj (hstate.symm.trans hid')
                rw [hsame] at hleases
                exact absurd hempty hleases
              · intro id' hid'
                obtain rfl : id = id' := Option.some.inj (hstate.symm.trans hid')
                rw [hsame]
                exact hlt
            · refine (haborted.retire w id).install rfl ?_ ?_ hnone
              · intro id' hid' _
                obtain rfl : id = id' := Option.some.inj (hstate.symm.trans hid')
                simp [MutationCoordinator.retire, activeState]
              · intro id' hid'
                obtain rfl : id = id' := Option.some.inj (hstate.symm.trans hid')
                show ((c.modify id .abort).heap id).generation < generation
                rw [hsame]
                exact hlt

theorem seed (h : c.Settling) (w : WorkspaceId) (generation : Int) :
    (c.seed w generation).2.Settling := by
  unfold MutationCoordinator.seed
  cases hstate : c.states w with
  | none => exact h.install_first rfl hstate
  | some id => exact h

theorem seed_current (c : MutationCoordinator) (w : WorkspaceId) (generation : Int) :
    (c.seed w generation).2.states w = some (c.seed w generation).1 := by
  unfold MutationCoordinator.seed
  cases hstate : c.states w with
  | none => exact Function.update_self _ _ _
  | some id => exact hstate

theorem observe_eq (c : MutationCoordinator) (w : WorkspaceId) (generation : Int) :
    c.observe w generation =
      if (c.seed w generation).2.refuses (c.seed w generation).1 generation then
        (.error (.revoked w generation), (c.seed w generation).2)
      else (.ok (c.seed w generation).1, (c.seed w generation).2) :=
  rfl

theorem acquire_eq (c : MutationCoordinator) (w : WorkspaceId) (generation : Int) :
    c.acquire w generation =
      if (c.seed w generation).2.refuses (c.seed w generation).1 generation then
        (.error (.revoked w generation), (c.seed w generation).2)
      else
        (.ok (c.seed w generation).2.nextHandle,
          (c.seed w generation).2.grantLease w (c.seed w generation).1) :=
  rfl

theorem observe (h : c.Settling) (w : WorkspaceId) (generation : Int) :
    (c.observe w generation).2.Settling := by
  rw [observe_eq]
  split <;> exact h.seed w generation

theorem grantLease_heap (c : MutationCoordinator) (w : WorkspaceId) (id : Nat) :
    (c.grantLease w id).heap id = (c.heap id).grant :=
  Function.update_self _ _ _

/-- A lease is granted by a state that is current and not blocked. -/
theorem grantLease (h : c.Settling) {w : WorkspaceId} {id : Nat} (hcurrent : c.states w = some id)
    (hunblocked : (c.heap id).blocked = false) : (c.grantLease w id).Settling := by
  obtain ⟨hlt, howner⟩ := h.owned w id hcurrent
  have hold : ∀ other, other ≠ id → (c.grantLease w id).heap other = c.heap other := by
    intro other hne
    exact Function.update_of_ne hne _ _
  have hgranted := grantLease_heap c w id
  have howners : ∀ other, ((c.grantLease w id).heap other).workspaceId =
      (c.heap other).workspaceId := by
    intro other
    by_cases heq : other = id
    · rw [heq, hgranted]
      rfl
    · rw [hold other heq]
  have hgenerations : ∀ other, ((c.grantLease w id).heap other).generation =
      (c.heap other).generation := by
    intro other
    by_cases heq : other = id
    · rw [heq, hgranted]
      rfl
    · rw [hold other heq]
  have hblockeds : ∀ other, ((c.grantLease w id).heap other).blocked = (c.heap other).blocked := by
    intro other
    by_cases heq : other = id
    · rw [heq, hgranted]
      rfl
    · rw [hold other heq]
  have hnext : ∀ other, (c.heap other).nextLease ≤ ((c.grantLease w id).heap other).nextLease := by
    intro other
    by_cases heq : other = id
    · rw [heq, hgranted]
      exact Nat.le_succ _
    · exact Nat.le_of_eq (by rw [hold other heq])
  have hhandles : ∀ lease handle, (c.grantLease w id).handles lease = some handle →
      (lease = c.nextHandle ∧ handle = ⟨w, id, (c.heap id).nextLease, false⟩) ∨
        c.handles lease = some handle := by
    intro lease handle hhandle
    by_cases heq : lease = c.nextHandle
    · refine .inl ⟨heq, ?_⟩
      rw [heq] at hhandle
      have hsame : some (⟨w, id, (c.heap id).nextLease, false⟩ : LeaseHandle) = some handle := by
        rw [← hhandle]
        simp [MutationCoordinator.grantLease]
      exact (Option.some.inj hsame).symm
    · refine .inr ?_
      rw [← hhandle]
      simp [MutationCoordinator.grantLease, Function.update_of_ne heq]
  refine ⟨?_, ?_, ?_, ?_, ?_, ?_, ?_, h.drain_filed, ?_, ?_, ?_, h.open_deletion⟩
  · intro w' id' hid'
    rw [howners]
    exact h.owned w' id' hid'
  · intro other hleases
    rw [howners]
    by_cases heq : other = id
    · rw [heq, howner]
      refine ⟨hlt, List.mem_append_left _ ?_⟩
      show id ∈ (c.states w).toList
      simp [hcurrent]
    · rw [hold other heq] at hleases
      exact h.held other hleases
  · intro other hother
    obtain ⟨current, hcur, hle⟩ := h.newest other hother
    rw [howners, hgenerations]
    exact ⟨current, hcur, by rw [hgenerations]; exact hle⟩
  · intro other leaseId hmem
    by_cases heq : other = id
    · rw [heq, hgranted] at hmem ⊢
      show leaseId < (c.heap id).nextLease + 1
      rcases List.mem_append.mp hmem with hin | hin
      · have := h.numbered id leaseId hin
        omega
      · rw [List.mem_singleton.mp hin]
        omega
    · rw [hold other heq] at hmem ⊢
      exact h.numbered other leaseId hmem
  · intro lease handle hhandle
    obtain ⟨rfl, rfl⟩ | hhandle := hhandles lease handle hhandle
    · refine ⟨Nat.lt_succ_self _, hlt, ?_, ?_⟩
      · rw [howners, howner]
      · rw [hgranted]
        exact Nat.lt_succ_self _
    · obtain ⟨hlease, hstate, hw, hid⟩ := h.handle_filed lease handle hhandle
      rw [howners]
      exact ⟨Nat.lt_succ_of_lt hlease, hstate, hw, Nat.lt_of_lt_of_le hid (hnext _)⟩
  · intro lease lease' handle handle' hhandle hhandle' hstate hid
    obtain ⟨rfl, rfl⟩ | hhandle := hhandles lease handle hhandle
    · obtain ⟨rfl, -⟩ | hhandle' := hhandles lease' handle' hhandle'
      · rfl
      · obtain ⟨-, -, -, hlt'⟩ := h.handle_filed lease' handle' hhandle'
        have hstate' : id = handle'.state := hstate
        have hid' : (c.heap id).nextLease = handle'.leaseId := hid
        rw [← hstate'] at hlt'
        omega
    · obtain ⟨rfl, rfl⟩ | hhandle' := hhandles lease' handle' hhandle'
      · obtain ⟨-, -, -, hlt'⟩ := h.handle_filed lease handle hhandle
        have hstate' : handle.state = id := hstate
        have hid' : handle.leaseId = (c.heap id).nextLease := hid
        rw [hstate'] at hlt'
        omega
      · exact h.handle_distinct lease lease' handle handle' hhandle hhandle' hstate hid
  · intro lease handle hhandle hout
    obtain ⟨-, rfl⟩ | hhandle := hhandles lease handle hhandle
    · rw [hgranted]
      exact List.mem_append_right _ (List.mem_singleton.mpr rfl)
    · have hmem := h.counted lease handle hhandle hout
      by_cases heq : handle.state = id
      · rw [heq] at hmem ⊢
        rw [hgranted]
        exact List.mem_append_left _ hmem
      · rw [hold _ heq]
        exact hmem
  · intro d drain hdrain
    obtain ⟨id', hid', hle, hblocked⟩ := h.barred d drain hdrain
    refine ⟨id', hid', ?_, ?_⟩
    · rw [hgenerations]
      exact hle
    · rw [hgenerations, hblockeds]
      exact hblocked
  · intro d drain hdrain other hw hgen hleases
    rw [howners] at hw
    rw [hgenerations] at hgen
    by_cases heq : other = id
    · -- a drain that covers the granting state would have blocked it
      obtain ⟨id', hid', hle, hblocked⟩ := h.barred d drain hdrain
      rw [heq] at hw hgen
      have hsame : id = id' := by
        rw [← hw, howner] at hid'
        exact Option.some.inj (hcurrent.symm.trans hid')
      rw [← hsame] at hle hblocked
      have := hblocked (by omega)
      rw [hunblocked] at this
      cases this
    · rw [hold other heq] at hleases ⊢
      exact h.awaited d drain hdrain other hw hgen hleases
  · intro w' d hd
    obtain ⟨hphase, drain, hdrain, hw, id', hid', hgen⟩ := h.deletion_open w' d hd
    refine ⟨hphase, drain, hdrain, hw, id', hid', ?_⟩
    rw [hgenerations]
    exact hgen

theorem acquire (h : c.Settling) (w : WorkspaceId) (generation : Int) :
    (c.acquire w generation).2.Settling := by
  rw [acquire_eq]
  split
  · exact h.seed w generation
  · rename_i hgranted
    refine (h.seed w generation).grantLease (seed_current c w generation) ?_
    simp only [refuses, Bool.or_eq_true, not_or, Bool.not_eq_true] at hgranted
    exact hgranted.1

theorem dropLease (h : c.Settling) {lease : Nat} {handle : LeaseHandle}
    (hhandle : c.handles lease = some handle) : (c.dropLease lease handle).Settling := by
  have hold : ∀ other, other ≠ handle.state →
      (c.dropLease lease handle).heap other = c.heap other := by
    intro other hne
    exact Function.update_of_ne hne _ _
  have hdropped : (c.dropLease lease handle).heap handle.state =
      (c.heap handle.state).drop handle.leaseId := Function.update_self _ _ _
  have hsame : ∀ other,
      ((c.dropLease lease handle).heap other).workspaceId = (c.heap other).workspaceId ∧
      ((c.dropLease lease handle).heap other).generation = (c.heap other).generation ∧
      ((c.dropLease lease handle).heap other).blocked = (c.heap other).blocked ∧
      ((c.dropLease lease handle).heap other).nextLease = (c.heap other).nextLease := by
    intro other
    by_cases heq : other = handle.state
    · rw [heq, hdropped]
      simp [WorkspaceState.drop]
    · rw [hold other heq]
      exact ⟨rfl, rfl, rfl, rfl⟩
  have hleft : ∀ other, ((c.dropLease lease handle).heap other).leases ≠ [] →
      (c.heap other).leases ≠ [] ∧
        ((c.dropLease lease handle).heap other).drainWaiters = (c.heap other).drainWaiters := by
    intro other hleases
    by_cases heq : other = handle.state
    · rw [heq, hdropped] at hleases ⊢
      exact ⟨WorkspaceState.leases_of_drop _ hleases, WorkspaceState.drop_drainWaiters _ hleases⟩
    · rw [hold other heq] at hleases ⊢
      exact ⟨hleases, rfl⟩
  have hhandles : ∀ lease' handle', (c.dropLease lease handle).handles lease' = some handle' →
      ∃ before, c.handles lease' = some before ∧ before.state = handle'.state ∧
        before.leaseId = handle'.leaseId ∧ before.workspaceId = handle'.workspaceId ∧
        (handle'.released = false → before.released = false ∧ lease' ≠ lease) := by
    intro lease' handle' hhandle'
    by_cases heq : lease' = lease
    · have hnew : some { handle with released := true } = some handle' := by
        rw [← hhandle', heq]
        simp [MutationCoordinator.dropLease]
      obtain rfl := Option.some.inj hnew
      exact ⟨handle, by rw [heq, hhandle], rfl, rfl, rfl, by simp⟩
    · have hbefore : c.handles lease' = some handle' := by
        rw [← hhandle']
        simp [MutationCoordinator.dropLease, Function.update_of_ne heq]
      exact ⟨handle', hbefore, rfl, rfl, rfl, fun hout => ⟨hout, heq⟩⟩
  refine ⟨?_, ?_, ?_, ?_, ?_, ?_, ?_, h.drain_filed, ?_, ?_, ?_, h.open_deletion⟩
  · intro w id hid
    rw [(hsame id).1]
    exact h.owned w id hid
  · intro id hleases
    rw [(hsame id).1]
    exact h.held id (hleft id hleases).1
  · intro id hid
    obtain ⟨current, hcur, hle⟩ := h.newest id hid
    rw [(hsame id).1, (hsame id).2.1]
    exact ⟨current, hcur, by rw [(hsame current).2.1]; exact hle⟩
  · intro id leaseId hmem
    rw [(hsame id).2.2.2]
    by_cases heq : id = handle.state
    · rw [heq, hdropped, WorkspaceState.drop_leases] at hmem
      rw [heq]
      exact h.numbered _ _ (List.mem_of_mem_filter hmem)
    · rw [hold id heq] at hmem
      exact h.numbered id leaseId hmem
  · intro lease' handle' hhandle'
    obtain ⟨before, hbefore, hstate, hid, hw, -⟩ := hhandles lease' handle' hhandle'
    rw [(hsame _).1, (hsame _).2.2.2, ← hstate, ← hid, ← hw]
    exact h.handle_filed lease' before hbefore
  · intro lease₁ lease₂ handle₁ handle₂ hhandle₁ hhandle₂ hstate hid
    obtain ⟨before₁, hbefore₁, hstate₁, hid₁, -⟩ := hhandles lease₁ handle₁ hhandle₁
    obtain ⟨before₂, hbefore₂, hstate₂, hid₂, -⟩ := hhandles lease₂ handle₂ hhandle₂
    refine h.handle_distinct lease₁ lease₂ before₁ before₂ hbefore₁ hbefore₂ ?_ ?_
    · rw [hstate₁, hstate₂, hstate]
    · rw [hid₁, hid₂, hid]
  · intro lease' handle' hhandle' hout
    obtain ⟨before, hbefore, hstate, hid, -, hreleased⟩ := hhandles lease' handle' hhandle'
    obtain ⟨hbout, hne⟩ := hreleased hout
    have hmem := h.counted lease' before hbefore hbout
    rw [← hstate, ← hid]
    by_cases heq : before.state = handle.state
    · have hids : before.leaseId ≠ handle.leaseId := by
        intro hids
        exact hne (h.handle_distinct lease' lease before handle hbefore hhandle heq hids)
      rw [heq, hdropped, WorkspaceState.drop_leases]
      rw [heq] at hmem
      simpa [hids] using hmem
    · rw [hold _ heq]
      exact hmem
  · intro d drain hdrain
    obtain ⟨id, hid, hle, hblocked⟩ := h.barred d drain hdrain
    refine ⟨id, hid, ?_, ?_⟩
    · rw [(hsame id).2.1]
      exact hle
    · rw [(hsame id).2.1, (hsame id).2.2.1]
      exact hblocked
  · intro d drain hdrain id hw hgen hleases
    rw [(hsame id).1] at hw
    rw [(hsame id).2.1] at hgen
    obtain ⟨hbefore, hwaiters⟩ := hleft id hleases
    rw [hwaiters]
    exact h.awaited d drain hdrain id hw hgen hbefore
  · intro w d hd
    obtain ⟨hphase, drain, hdrain, hw, id, hid, hgen⟩ := h.deletion_open w d hd
    refine ⟨hphase, drain, hdrain, hw, id, hid, ?_⟩
    rw [(hsame id).2.1]
    exact hgen

theorem unretire (h : c.Settling) (w : WorkspaceId) (id : Nat) : (c.unretire w id).Settling := by
  unfold MutationCoordinator.unretire
  split
  · rename_i hdone
    obtain ⟨hempty, -⟩ := hdone
    refine ⟨h.owned, ?_, h.newest, h.numbered, h.handle_filed, h.handle_distinct, h.counted,
      h.drain_filed, h.barred, h.awaited, h.deletion_open, h.open_deletion⟩
    intro other hleases
    obtain ⟨hlt, hmem⟩ := h.held other hleases
    have hne : other ≠ id := by
      intro heq
      have hleases' : (c.heap other).leases ≠ [] := hleases
      rw [heq] at hleases'
      exact hleases' hempty
    refine ⟨hlt, ?_⟩
    show other ∈ (c.states (c.heap other).workspaceId).toList ++
      Function.update c.retiredStates w ((c.retiredStates w).filter (· ≠ id))
        (c.heap other).workspaceId
    rcases List.mem_append.mp hmem with hcurrent | hretired
    · exact List.mem_append_left _ hcurrent
    · refine List.mem_append_right _ ?_
      by_cases hw : (c.heap other).workspaceId = w
      · rw [hw] at hretired ⊢
        rw [Function.update_self]
        simpa [hne] using hretired
      · rwa [Function.update_of_ne hw]
  · exact h

theorem release (h : c.Settling) (lease : Nat) : (c.release lease).Settling := by
  unfold MutationCoordinator.release
  cases hhandle : c.handles lease with
  | none => exact h
  | some handle =>
    simp only
    split
    · exact h
    · exact (h.dropLease hhandle).unretire _ _

theorem workspaceDrain (h : c.Settling) {w : WorkspaceId} {current : Nat}
    (hcurrent : c.states w = some current) (hblocked : (c.heap current).blocked = true) :
    (c.workspaceDrain w).Settling := by
  have hgeneration : c.currentGeneration w = (c.heap current).generation := by
    simp [currentGeneration, hcurrent]
  have hkeep : ∀ id, (c.heap id).Keeps
      (if id ∈ c.workspaceEpochs w then (c.heap id).stateDrain c.nextDrain else c.heap id) := by
    intro id
    split
    · exact WorkspaceState.keeps_stateDrain _ _
    · exact WorkspaceState.keeps_refl _
  have hk := h.keep hkeep
  have hdrains : ∀ d drain, (c.workspaceDrain w).drains d = some drain →
      (d = c.nextDrain ∧ drain = ⟨w, c.workspaceEpochs w, c.currentGeneration w⟩) ∨
        c.drains d = some drain := by
    intro d drain hdrain
    by_cases heq : d = c.nextDrain
    · refine .inl ⟨heq, ?_⟩
      rw [heq] at hdrain
      have hsame : some (⟨w, c.workspaceEpochs w, c.currentGeneration w⟩ : Drain) =
          some drain := by
        rw [← hdrain]
        simp [MutationCoordinator.workspaceDrain]
      exact (Option.some.inj hsame).symm
    · refine .inr ?_
      rw [← hdrain]
      simp [MutationCoordinator.workspaceDrain, Function.update_of_ne heq]
  have hkept : ∀ d drain, c.drains d = some drain → (c.workspaceDrain w).drains d = some drain := by
    intro d drain hdrain
    have hlt := h.drain_filed d drain hdrain
    rw [← hdrain]
    exact Function.update_of_ne (Nat.ne_of_lt hlt) _ _
  refine ⟨hk.owned, hk.held, hk.newest, hk.numbered, hk.handle_filed, hk.handle_distinct,
    hk.counted, ?_, ?_, ?_, ?_, ?_⟩
  · intro d drain hdrain
    show d < c.nextDrain + 1
    obtain ⟨rfl, -⟩ | hdrain := hdrains d drain hdrain
    · omega
    · have := h.drain_filed d drain hdrain
      omega
  · intro d drain hdrain
    obtain ⟨-, rfl⟩ | hdrain := hdrains d drain hdrain
    · refine ⟨current, hcurrent, ?_, ?_⟩
      · show c.currentGeneration w ≤ _
        rw [hgeneration]
        exact Int.le_of_eq (hkeep current).generation.symm
      · intro _
        exact (hkeep current).blocked hblocked
    · exact hk.barred d drain hdrain
  · intro d drain hdrain id hw hgen hleases
    obtain ⟨rfl, rfl⟩ | hdrain := hdrains d drain hdrain
    · have hin : id ∈ c.workspaceEpochs w := by
        have hmem : id ∈ c.workspaceEpochs ((c.workspaceDrain w).heap id).workspaceId :=
          (hk.held id hleases).2
        rwa [hw] at hmem
      refine ⟨hin, ?_⟩
      have hheap : (c.workspaceDrain w).heap id = (c.heap id).stateDrain c.nextDrain :=
        if_pos hin
      rw [hheap] at hleases ⊢
      exact WorkspaceState.mem_stateDrain _ hleases
    · exact hk.awaited d drain hdrain id hw hgen hleases
  · intro w' d hd
    obtain ⟨hphase, drain, hdrain, hrest⟩ := hk.deletion_open w' d hd
    exact ⟨hphase, drain, hkept d drain hdrain, hrest⟩
  · intro d hphase
    obtain ⟨drain, hdrain, hd⟩ := h.open_deletion d hphase
    exact ⟨drain, hkept d drain hdrain, hd⟩

/-- After a block the workspace has a current state, and it is blocked. -/
theorem block_current (c : MutationCoordinator) (w : WorkspaceId) :
    ∃ id, (c.block w).states w = some id ∧ ((c.block w).heap id).blocked = true := by
  unfold MutationCoordinator.block
  cases hstate : c.states w with
  | none =>
    refine ⟨c.nextState, ?_, ?_⟩
    · exact Function.update_self _ _ _
    · simp [MutationCoordinator.install, WorkspaceState.abort]
  | some id =>
    refine ⟨id, hstate, ?_⟩
    show (Function.update c.heap id (c.heap id).block id).blocked = true
    rw [Function.update_self]
    exact WorkspaceState.blocked_block _

theorem blockAndDrain (h : c.Settling) (w : WorkspaceId) : (c.blockAndDrain w).2.Settling := by
  obtain ⟨id, hcurrent, hblocked⟩ := block_current c w
  exact (h.block w).workspaceDrain hcurrent hblocked

theorem block_nextDrain (c : MutationCoordinator) (w : WorkspaceId) :
    (c.block w).nextDrain = c.nextDrain := by
  unfold MutationCoordinator.block
  cases c.states w <;> rfl

theorem block_deletions (c : MutationCoordinator) (w : WorkspaceId) :
    (c.block w).deletions = c.deletions := by
  unfold MutationCoordinator.block
  cases c.states w <;> rfl

/-- A drain that has just begun becomes the deletion of its workspace. -/
theorem openDeletion (h : c.Settling) {w : WorkspaceId} {d current : Nat} {drain : Drain}
    (hnone : c.deletions w = none) (hdrain : c.drains d = some drain) (hw : drain.workspaceId = w)
    (hcurrent : c.states w = some current)
    (hgen : (c.heap current).generation = drain.generation) :
    ({ c with
        deletions := Function.update c.deletions w (some d)
        deletionPhase := Function.update c.deletionPhase d .begun }).Settling := by
  refine ⟨h.owned, h.held, h.newest, h.numbered, h.handle_filed, h.handle_distinct, h.counted,
    h.drain_filed, h.barred, h.awaited, ?_, ?_⟩
  · intro w' d' hd
    show (Function.update c.deletionPhase d .begun d').isOpen = true ∧ _
    by_cases heq : w' = w
    · have hdd : d = d' := by simpa [heq] using hd
      rw [heq, ← hdd, Function.update_self]
      exact ⟨rfl, drain, hdrain, hw, current, hcurrent, hgen⟩
    · have hd' : c.deletions w' = some d' := by
        simpa [Function.update_of_ne heq] using hd
      obtain ⟨hphase, drain', hdrain', hw', hrest⟩ := h.deletion_open w' d' hd'
      have hne : d' ≠ d := by
        intro hdd
        rw [hdd] at hdrain'
        have hsame : drain' = drain := Option.some.inj (hdrain'.symm.trans hdrain)
        exact heq (by rw [← hw', hsame, hw])
      rw [Function.update_of_ne hne]
      exact ⟨hphase, drain', hdrain', hw', hrest⟩
  · intro d' hphase
    by_cases heq : d' = d
    · refine ⟨drain, by rw [heq]; exact hdrain, ?_⟩
      show Function.update c.deletions w (some d) drain.workspaceId = some d'
      rw [hw, Function.update_self, heq]
    · have hphase' : (c.deletionPhase d').isOpen = true := by
        simpa [Function.update_of_ne heq] using hphase
      obtain ⟨drain', hdrain', hd⟩ := h.open_deletion d' hphase'
      have hne : drain'.workspaceId ≠ w := by
        intro hww
        rw [hww, hnone] at hd
        cases hd
      refine ⟨drain', hdrain', ?_⟩
      show Function.update c.deletions w (some d) drain'.workspaceId = some d'
      rw [Function.update_of_ne hne]
      exact hd

theorem beginDeletion (h : c.Settling) (w : WorkspaceId) : (c.beginDeletion w).2.Settling := by
  unfold MutationCoordinator.beginDeletion
  cases hdeletion : c.deletions w with
  | some existing => exact h
  | none =>
    obtain ⟨current, hcurrent, hblocked⟩ := block_current c w
    have hbegun := (h.block w).workspaceDrain hcurrent hblocked
    have hnone : ((c.block w).workspaceDrain w).deletions w = none := by
      show (c.block w).deletions w = none
      rw [block_deletions, hdeletion]
    have hdrain : ((c.block w).workspaceDrain w).drains c.nextDrain =
        some ⟨w, (c.block w).workspaceEpochs w, (c.block w).currentGeneration w⟩ := by
      rw [← block_nextDrain c w]
      exact Function.update_self _ _ _
    refine hbegun.openDeletion hnone hdrain rfl hcurrent ?_
    have hgeneration : (c.block w).currentGeneration w = ((c.block w).heap current).generation := by
      simp [currentGeneration, hcurrent]
    show _ = (c.block w).currentGeneration w
    rw [hgeneration]
    show (if current ∈ (c.block w).workspaceEpochs w then _ else _ : WorkspaceState).generation = _
    split
    · exact (WorkspaceState.keeps_stateDrain _ _).generation
    · rfl

theorem finish (h : c.Settling) (d : Nat) : (c.finish d).Settling := by
  unfold MutationCoordinator.finish
  split
  · rename_i hbegun
    have hopen : ∀ d', (Function.update c.deletionPhase d .finished d').isOpen =
        (c.deletionPhase d').isOpen := by
      intro d'
      by_cases heq : d' = d
      · rw [heq, Function.update_self, hbegun]
        rfl
      · rw [Function.update_of_ne heq]
    refine ⟨h.owned, h.held, h.newest, h.numbered, h.handle_filed, h.handle_distinct, h.counted,
      h.drain_filed, h.barred, h.awaited, ?_, ?_⟩
    · intro w d' hd
      show (Function.update c.deletionPhase d .finished d').isOpen = true ∧ _
      rw [hopen]
      exact h.deletion_open w d' hd
    · intro d' hphase
      refine h.open_deletion d' ?_
      rw [← hopen]
      exact hphase
  · exact h

theorem complete (h : c.Settling) (d : Nat) : (c.complete d).Settling := by
  unfold MutationCoordinator.complete
  cases hdrain : c.drains d with
  | none => exact h
  | some drain =>
    simp only
    split
    · rename_i hdone
      have hopen : (c.deletionPhase d).isOpen = true := by
        rw [hdone.1]
        rfl
      obtain ⟨drain', hdrain', hd⟩ := h.open_deletion d hopen
      obtain rfl : drain' = drain := Option.some.inj (hdrain'.symm.trans hdrain)
      rw [if_pos hd]
      refine ⟨h.owned, h.held, h.newest, h.numbered, h.handle_filed, h.handle_distinct, h.counted,
        h.drain_filed, h.barred, h.awaited, ?_, ?_⟩
      · intro w d' hd'
        have hw : w ≠ drain'.workspaceId := by
          intro heq
          simp [heq] at hd'
        have hbefore : c.deletions w = some d' := by
          simpa [Function.update_of_ne hw] using hd'
        obtain ⟨hphase, drain, hdrain, hdw, hrest⟩ := h.deletion_open w d' hbefore
        have hne : d' ≠ d := by
          intro heq
          rw [heq] at hdrain
          have hsame : drain = drain' := Option.some.inj (hdrain.symm.trans hdrain')
          exact hw (by rw [← hdw, hsame])
        show (Function.update c.deletionPhase d .completed d').isOpen = true ∧ _
        rw [Function.update_of_ne hne]
        exact ⟨hphase, drain, hdrain, hdw, hrest⟩
      · intro d' hphase
        have hne : d' ≠ d := by
          intro heq
          simp [heq, DeletionPhase.isOpen] at hphase
        have hphase' : (c.deletionPhase d').isOpen = true := by
          simpa [Function.update_of_ne hne] using hphase
        obtain ⟨drain, hdrain, hdeletion⟩ := h.open_deletion d' hphase'
        refine ⟨drain, hdrain, ?_⟩
        have hw : drain.workspaceId ≠ drain'.workspaceId := by
          intro heq
          rw [heq] at hdeletion
          exact hne (Option.some.inj (hdeletion.symm.trans hd))
        show Function.update c.deletions drain'.workspaceId none drain.workspaceId = some d'
        rw [Function.update_of_ne hw]
        exact hdeletion
    · exact h

theorem with_lifecycle (h : c.Settling) (chain : PromiseChain WorkspaceId)
    (ordering : Nat → Option Int) (latest : WorkspaceId → Option Int)
    (log : List LifecycleEntry) :
    ({ c with
        chain := chain
        ordering := ordering
        latestLifecycleSequences := latest
        log := log }).Settling :=
  ⟨h.owned, h.held, h.newest, h.numbered, h.handle_filed, h.handle_distinct, h.counted,
    h.drain_filed, h.barred, h.awaited, h.deletion_open, h.open_deletion⟩

theorem runLifecycle (h : c.Settling) (w : WorkspaceId) (ordering : Option Int) :
    (c.runLifecycle w ordering).2.Settling := by
  unfold MutationCoordinator.runLifecycle
  split
  · exact h
  · exact h.with_lifecycle _ _ _ _

theorem startLifecycle (h : c.Settling) (k : Nat) : (c.startLifecycle k).Settling := by
  unfold MutationCoordinator.startLifecycle
  split
  · split
    · exact h.with_lifecycle _ _ _ _
    · exact h
  · exact h

theorem step (h : c.Settling) (s : CoordinatorStep) : (c.step s).Settling := by
  cases s with
  | activate w generation => exact h.activate w generation
  | observe w generation => exact h.observe w generation
  | acquire w generation => exact h.acquire w generation
  | release lease => exact h.release lease
  | block w => exact h.block w
  | blockAndDrain w => exact h.blockAndDrain w
  | beginDeletion w => exact h.beginDeletion w
  | finish d => exact h.finish d
  | complete d => exact h.complete d
  | runLifecycle w ordering => exact h.runLifecycle w ordering
  | startLifecycle k => exact h.startLifecycle k
  | settleLifecycle k => exact h.with_lifecycle _ _ _ _
  | releaseLifecycle k => exact h.with_lifecycle _ _ _ _
  | resolveTail k => exact h.with_lifecycle _ _ _ _
  | forgetTail k => exact h.with_lifecycle _ _ _ _

theorem run (h : c.Settling) (steps : List CoordinatorStep) : (c.run steps).Settling := by
  induction steps generalizing c with
  | nil => exact h
  | cons s rest ih => exact ih (h.step s)

end MutationCoordinator.Settling

end ClockifyAssistant
