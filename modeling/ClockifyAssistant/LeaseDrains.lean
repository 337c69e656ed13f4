import ClockifyAssistant.MutationLeases

/-!
What a lease that is out does to a drain: a handle changes only by its own release, and a
drain is resolved as soon as no lease of its workspace is out.
-/
namespace ClockifyAssistant

open Lib

namespace MutationCoordinator

/-- A handle that a step leaves as it is. -/
def Keeps (lease : Nat) (c c' : MutationCoordinator) : Prop :=
  ∀ handle, c.handles lease = some handle → c'.handles lease = some handle

namespace Keeps

variable {c c' c'' : MutationCoordinator} {lease : Nat}

theorem of_eq (h : c'.handles = c.handles) : Keeps lease c c' := by
  intro handle hhandle
  rw [h]
  exact hhandle

theorem trans (h : Keeps lease c c') (h' : Keeps lease c' c'') : Keeps lease c c'' :=
  fun handle hhandle => h' handle (h handle hhandle)

theorem seed (c : MutationCoordinator) (w : WorkspaceId) (generation : Int) :
    Keeps lease c (c.seed w generation).2 := by
  unfold MutationCoordinator.seed
  split <;> exact of_eq rfl

theorem block (c : MutationCoordinator) (w : WorkspaceId) : Keeps lease c (c.block w) := by
  unfold MutationCoordinator.block
  split <;> exact of_eq rfl

theorem acquire (h : c.Settling) (w : WorkspaceId) (generation : Int) :
    Keeps lease c (c.acquire w generation).2 := by
  rw [Settling.acquire_eq]
  split
  · exact seed c w generation
  · refine (seed c w generation).trans ?_
    intro handle hhandle
    have hlt := ((h.seed w generation).handle_filed lease handle hhandle).1
    rw [← hhandle]
    exact Function.update_of_ne (Nat.ne_of_lt hlt) _ _

theorem release (c : MutationCoordinator) {other : Nat} (hother : other ≠ lease) :
    Keeps lease c (c.release other) := by
  unfold MutationCoordinator.release
  cases hhandle : c.handles other with
  | none => exact of_eq rfl
  | some otherHandle =>
    simp only
    split
    · exact of_eq rfl
    · have hdrop : Keeps lease c (c.dropLease other otherHandle) := by
        intro handle hlease
        rw [← hlease]
        exact Function.update_of_ne hother.symm _ _
      refine hdrop.trans ?_
      unfold MutationCoordinator.unretire
      split <;> exact of_eq rfl

theorem step (h : c.Settling) {s : CoordinatorStep} (hs : s ≠ .release lease) :
    Keeps lease c (c.step s) := by
  cases s with
  | activate w generation =>
    show Keeps lease c (c.activate w generation).2
    unfold MutationCoordinator.activate
    split
    · exact of_eq rfl
    · split
      · exact of_eq rfl
      · split
        · exact of_eq rfl
        · simp only
          split
          · exact of_eq rfl
          · split
            · split <;> exact of_eq rfl
            · split <;> exact of_eq rfl
  | observe w generation =>
    show Keeps lease c (c.observe w generation).2
    rw [Settling.observe_eq]
    split <;> exact seed c w generation
  | acquire w generation => exact acquire h w generation
  | release other => exact release c fun heq => hs (by rw [heq])
  | block w => exact block c w
  | blockAndDrain w => exact (block c w).trans (of_eq rfl)
  | beginDeletion w =>
    show Keeps lease c (c.beginDeletion w).2
    unfold MutationCoordinator.beginDeletion
    split
    · exact of_eq rfl
    · exact (block c w).trans (of_eq rfl)
  | finish d =>
    show Keeps lease c (c.finish d)
    unfold MutationCoordinator.finish
    split <;> exact of_eq rfl
  | complete d =>
    show Keeps lease c (c.complete d)
    unfold MutationCoordinator.complete
    split
    · split <;> exact of_eq rfl
    · exact of_eq rfl
  | runLifecycle w ordering =>
    show Keeps lease c (c.runLifecycle w ordering).2
    unfold MutationCoordinator.runLifecycle
    split <;> exact of_eq rfl
  | startLifecycle k =>
    show Keeps lease c (c.startLifecycle k)
    unfold MutationCoordinator.startLifecycle
    split
    · split <;> exact of_eq rfl
    · exact of_eq rfl
  | settleLifecycle k => exact of_eq rfl
  | releaseLifecycle k => exact of_eq rfl
  | resolveTail k => exact of_eq rfl
  | forgetTail k => exact of_eq rfl

theorem run (h : c.Settling) {steps : List CoordinatorStep}
    (hsteps : .release lease ∉ steps) : Keeps lease c (c.run steps) := by
  induction steps generalizing c with
  | nil => exact of_eq rfl
  | cons s rest ih =>
    have hs : s ≠ .release lease := fun heq => hsteps (by simp [heq])
    have hrest : .release lease ∉ rest := fun hmem => hsteps (List.mem_cons_of_mem _ hmem)
    exact (step h hs).trans (ih (h.step s) hrest)

end Keeps

/-- Who waits for whom: every lease a state counts has a handle that is out, a state without
leases is waited for by nobody, and a drain waits for states of its own workspace. -/
structure Resolving (c : MutationCoordinator) : Prop where
  owned : ∀ id leaseId, leaseId ∈ (c.heap id).leases → ∃ lease handle,
    c.handles lease = some handle ∧ handle.state = id ∧ handle.leaseId = leaseId ∧
      handle.released = false
  idle : ∀ id, (c.heap id).leases = [] → (c.heap id).drainWaiters = []
  retired : ∀ w, ∀ id ∈ c.retiredStates w, id < c.nextState ∧ (c.heap id).workspaceId = w
  epochs : ∀ d drain, c.drains d = some drain → ∀ id ∈ drain.epochs,
    id < c.nextState ∧ (c.heap id).workspaceId = drain.workspaceId

namespace Resolving

variable {c : MutationCoordinator}

/-- A drain is resolved once every lease of its workspace is released. -/
theorem drained (h : c.Resolving) (hsettling : c.Settling) {d : Nat} {drain : Drain}
    (hdrain : c.drains d = some drain) (hreleased : ∀ lease handle, c.handles lease = some handle →
      handle.workspaceId = drain.workspaceId → handle.released = true) : c.drained d = true := by
  unfold MutationCoordinator.drained
  rw [hdrain, Option.any_some, List.all_eq_true]
  intro id hid
  rw [decide_eq_true_eq]
  intro hwaits
  have hleases : (c.heap id).leases ≠ [] := by
    intro hnone
    rw [h.idle id hnone] at hwaits
    exact List.not_mem_nil hwaits
  obtain ⟨leaseId, hleaseId⟩ := List.exists_mem_of_ne_nil _ hleases
  obtain ⟨lease, handle, hhandle, hstate, -, hout⟩ := h.owned id leaseId hleaseId
  have hworkspace := (hsettling.handle_filed lease handle hhandle).2.2.1
  rw [hstate, (h.epochs d drain hdrain id hid).2] at hworkspace
  rw [hreleased lease handle hhandle hworkspace.symm] at hout
  cases hout

theorem initial : createWorkspaceMutationCoordinator.Resolving := by
  constructor <;> simp [createWorkspaceMutationCoordinator, activeState]

/-- States that count the same leases, keep their workspace, and are waited for only while
they count one. -/
theorem move (h : c.Resolving) {c' : MutationCoordinator}
    (hleases : ∀ id, (c'.heap id).leases = (c.heap id).leases)
    (hidle : ∀ id, (c'.heap id).leases = [] → (c'.heap id).drainWaiters = [])
    (hworkspace : ∀ id < c.nextState, (c'.heap id).workspaceId = (c.heap id).workspaceId)
    (hnext : c.nextState ≤ c'.nextState) (hhandles : c'.handles = c.handles)
    (hretired : ∀ w, ∀ id ∈ c'.retiredStates w, id ∈ c.retiredStates w ∨
      id < c'.nextState ∧ (c'.heap id).workspaceId = w)
    (hdrains : ∀ d drain, c'.drains d = some drain → c.drains d = some drain ∨
      ∀ id ∈ drain.epochs, id < c'.nextState ∧ (c'.heap id).workspaceId = drain.workspaceId) :
    c'.Resolving := by
  refine ⟨?_, hidle, ?_, ?_⟩
  · intro id leaseId hleaseId
    rw [hhandles]
    rw [hleases] at hleaseId
    exact h.owned id leaseId hleaseId
  · intro w id hid
    rcases hretired w id hid with hold | hnew
    · obtain ⟨hlt, hw⟩ := h.retired w id hold
      exact ⟨Nat.lt_of_lt_of_le hlt hnext, by rw [hworkspace id hlt]; exact hw⟩
    · exact hnew
  · intro d drain hdrain id hid
    rcases hdrains d drain hdrain with hold | hnew
    · obtain ⟨hlt, hw⟩ := h.epochs d drain hold id hid
      exact ⟨Nat.lt_of_lt_of_le hlt hnext, by rw [hworkspace id hlt]; exact hw⟩
    · exact hnew id hid

theorem congr (h : c.Resolving) {c' : MutationCoordinator} (hheap : c'.heap = c.heap)
    (hnext : c'.nextState = c.nextState) (hhandles : c'.handles = c.handles)
    (hretired : c'.retiredStates = c.retiredStates) (hdrains : c'.drains = c.drains) :
    c'.Resolving := by
  refine h.move (fun id => by rw [hheap]) (fun id hid => ?_) (fun id _ => by rw [hheap])
    (Nat.le_of_eq hnext.symm) hhandles (fun w id hid => .inl ?_) fun d drain hd => .inl ?_
  · rw [hheap] at hid ⊢
    exact h.idle id hid
  · rwa [hretired] at hid
  · rwa [hdrains] at hd

theorem modify (h : c.Resolving) (id : Nat) {f : WorkspaceState → WorkspaceState}
    (hleases : ∀ state, (f state).leases = state.leases)
    (hworkspace : ∀ state, (f state).workspaceId = state.workspaceId)
    (hidle : ∀ state : WorkspaceState, state.drainWaiters = [] → (f state).drainWaiters = []) :
    (c.modify id f).Resolving := by
  have hheap : ∀ other, (c.modify id f).heap other = c.heap other ∨
      (c.modify id f).heap other = f (c.heap other) := by
    intro other
    by_cases heq : other = id
    · right
      rw [heq]
      exact Function.update_self _ _ _
    · left
      exact Function.update_of_ne heq _ _
  have hcounts : ∀ other, ((c.modify id f).heap other).leases = (c.heap other).leases := by
    intro other
    rcases hheap other with hsame | hnew
    · rw [hsame]
    · rw [hnew, hleases]
  refine h.move hcounts ?_ ?_ (Nat.le_refl _) rfl (fun w other hother => .inl hother)
    fun d drain hd => .inl hd
  · intro other hnone
    rw [hcounts] at hnone
    have hwaiters := h.idle other hnone
    rcases hheap other with hsame | hnew
    · rw [hsame, hwaiters]
    · rw [hnew]
      exact hidle _ hwaiters
  · intro other _
    rcases hheap other with hsame | hnew
    · rw [hsame]
    · rw [hnew, hworkspace]

theorem install (h : c.Resolving) (hsettling : c.Settling) {state : WorkspaceState}
    (hleases : state.leases = []) (hwaiters : state.drainWaiters = []) :
    (c.install state).Resolving := by
  have hold : ∀ id, id ≠ c.nextState → (c.install state).heap id = c.heap id := by
    intro id hid
    exact Function.update_of_ne hid _ _
  have hnew : (c.install state).heap c.nextState = state := Function.update_self _ _ _
  have hunused : (c.heap c.nextState).leases = [] := by
    by_contra hsome
    exact Nat.lt_irrefl _ (hsettling.held c.nextState hsome).1
  refine h.move ?_ ?_ ?_ (Nat.le_succ _) rfl (fun w id hid => .inl hid) fun d drain hd => .inl hd
  · intro id
    by_cases hid : id = c.nextState
    · rw [hid, hnew, hleases, hunused]
    · rw [hold id hid]
  · intro id hnone
    by_cases hid : id = c.nextState
    · rw [hid, hnew, hwaiters]
    · rw [hold id hid] at hnone ⊢
      exact h.idle id hnone
  · intro id hlt
    rw [hold id (Nat.ne_of_lt hlt)]

theorem retire (h : c.Resolving) (hsettling : c.Settling) {w : WorkspaceId} {id : Nat}
    (hid : c.states w = some id) : (c.retire w id).Resolving := by
  refine h.move (fun _ => rfl) h.idle (fun _ _ => rfl) (Nat.le_refl _) rfl ?_
    fun d drain hd => .inl hd
  intro w' other hother
  by_cases hw : w' = w
  · have hmem : other ∈ c.retiredStates w ++ [id] := by
      rw [hw] at hother
      simpa [MutationCoordinator.retire] using hother
    rcases List.mem_append.mp hmem with hin | hin
    · rw [hw]
      exact .inl hin
    · obtain rfl := List.mem_singleton.mp hin
      rw [hw]
      exact .inr (hsettling.owned w other hid)
  · left
    simpa [MutationCoordinator.retire, Function.update_of_ne hw] using hother

theorem block (h : c.Resolving) (hsettling : c.Settling) (w : WorkspaceId) :
    (c.block w).Resolving := by
  unfold MutationCoordinator.block
  split
  · exact h.install hsettling rfl rfl
  · refine h.modify _ (fun state => ?_) (fun state => ?_) fun state hnone => ?_
    · unfold WorkspaceState.block WorkspaceState.resolveDrain
      split <;> rfl
    · unfold WorkspaceState.block WorkspaceState.resolveDrain
      split <;> rfl
    · unfold WorkspaceState.block WorkspaceState.resolveDrain
      split
      · rfl
      · exact hnone

theorem seed (h : c.Resolving) (hsettling : c.Settling) (w : WorkspaceId) (generation : Int) :
    (c.seed w generation).2.Resolving := by
  unfold MutationCoordinator.seed
  split
  · exact h
  · exact h.install hsettling rfl rfl

theorem activate (h : c.Resolving) (hsettling : c.Settling) (w : WorkspaceId)
    (generation : Int) : (c.activate w generation).2.Resolving := by
  unfold MutationCoordinator.activate
  split
  · exact h
  · split
    · exact h
    · split
      · exact h.install hsettling rfl rfl
      · rename_i id hid
        have haborted : (c.modify id .abort).Resolving :=
          h.modify id (fun _ => rfl) (fun _ => rfl) fun _ hnone => hnone
        have hsettled : (c.modify id .abort).Settling :=
          hsettling.modify id WorkspaceState.keeps_abort
        simp only
        split
        · exact h
        · split
          · split <;> exact h
          · split
            · exact haborted.install hsettled rfl rfl
            · exact (haborted.retire hsettled hid).install (hsettled.retire w id) rfl rfl

theorem grantLease (h : c.Resolving) (hsettling : c.Settling) (w : WorkspaceId) (id : Nat) :
    (c.grantLease w id).Resolving := by
  have hhandles : ∀ lease handle, c.handles lease = some handle →
      (c.grantLease w id).handles lease = some handle := by
    intro lease handle hhandle
    have hlt := (hsettling.handle_filed lease handle hhandle).1
    rw [← hhandle]
    exact Function.update_of_ne (Nat.ne_of_lt hlt) _ _
  have hgranted : (c.grantLease w id).heap id = (c.heap id).grant := Function.update_self _ _ _
  have hold : ∀ other, other ≠ id → (c.grantLease w id).heap other = c.heap other := by
    intro other hother
    exact Function.update_of_ne hother _ _
  have hworkspace : ∀ other, ((c.grantLease w id).heap other).workspaceId =
      (c.heap other).workspaceId := by
    intro other
    by_cases heq : other = id
    · rw [heq, hgranted]
      rfl
    · rw [hold other heq]
  refine ⟨?_, ?_, ?_, ?_⟩
  · intro other leaseId hleaseId
    by_cases heq : other = id
    · subst heq
      rw [hgranted] at hleaseId
      rcases List.mem_append.mp hleaseId with hin | hin
      · obtain ⟨lease, handle, hhandle, hrest⟩ := h.owned other leaseId hin
        exact ⟨lease, handle, hhandles lease handle hhandle, hrest⟩
      · obtain rfl := List.mem_singleton.mp hin
        exact ⟨c.nextHandle, _, Function.update_self _ _ _, rfl, rfl, rfl⟩
    · rw [hold other heq] at hleaseId
      obtain ⟨lease, handle, hhandle, hrest⟩ := h.owned other leaseId hleaseId
      exact ⟨lease, handle, hhandles lease handle hhandle, hrest⟩
  · intro other hnone
    by_cases heq : other = id
    · rw [heq, hgranted] at hnone
      simp [WorkspaceState.grant] at hnone
    · rw [hold other heq] at hnone ⊢
      exact h.idle other hnone
  · intro w' other hother
    rw [hworkspace]
    exact h.retired w' other hother
  · intro d drain hdrain other hother
    rw [hworkspace]
    exact h.epochs d drain hdrain other hother

theorem acquire (h : c.Resolving) (hsettling : c.Settling) (w : WorkspaceId)
    (generation : Int) : (c.acquire w generation).2.Resolving := by
  rw [Settling.acquire_eq]
  split
  · exact h.seed hsettling w generation
  · exact (h.seed hsettling w generation).grantLease (hsettling.seed w generation) w _

theorem observe (h : c.Resolving) (hsettling : c.Settling) (w : WorkspaceId)
    (generation : Int) : (c.observe w generation).2.Resolving := by
  rw [Settling.observe_eq]
  split <;> exact h.seed hsettling w generation

theorem dropLease (h : c.Resolving) {lease : Nat}
    {handle : LeaseHandle} (hhandle : c.handles lease = some handle) :
    (c.dropLease lease handle).Resolving := by
  have hdropped : (c.dropLease lease handle).heap handle.state =
      (c.heap handle.state).drop handle.leaseId := Function.update_self _ _ _
  have hold : ∀ other, other ≠ handle.state →
      (c.dropLease lease handle).heap other = c.heap other := by
    intro other hother
    exact Function.update_of_ne hother _ _
  have hworkspace : ∀ other, ((c.dropLease lease handle).heap other).workspaceId =
      (c.heap other).workspaceId := by
    intro other
    by_cases heq : other = handle.state
    · rw [heq, hdropped]
      unfold WorkspaceState.drop WorkspaceState.resolveDrain
      split <;> rfl
    · rw [hold other heq]
  refine ⟨?_, ?_, ?_, ?_⟩
  · intro other leaseId hleaseId
    have hwas : leaseId ∈ (c.heap other).leases ∧
        (other = handle.state → leaseId ≠ handle.leaseId) := by
      by_cases heq : other = handle.state
      · rw [heq, hdropped, WorkspaceState.drop_leases] at hleaseId
        obtain ⟨hmem, hne⟩ := List.mem_filter.mp hleaseId
        rw [heq]
        exact ⟨hmem, fun _ => by simpa using hne⟩
      · rw [hold other heq] at hleaseId
        exact ⟨hleaseId, fun hstate => absurd hstate heq⟩
    obtain ⟨lease', handle', hhandle', hstate', hid', hout'⟩ := h.owned other leaseId hwas.1
    have hother : lease' ≠ lease := by
      intro heq
      rw [heq, hhandle] at hhandle'
      obtain rfl := Option.some.inj hhandle'
      exact hwas.2 hstate'.symm hid'.symm
    refine ⟨lease', handle', ?_, hstate', hid', hout'⟩
    rw [← hhandle']
    exact Function.update_of_ne hother _ _
  · intro other hnone
    by_cases heq : other = handle.state
    · rw [heq, hdropped] at hnone ⊢
      rw [WorkspaceState.drop_leases] at hnone
      unfold WorkspaceState.drop WorkspaceState.resolveDrain
      rw [if_pos hnone]
    · rw [hold other heq] at hnone ⊢
      exact h.idle other hnone
  · intro w' other hother
    rw [hworkspace]
    exact h.retired w' other hother
  · intro d drain hdrain other hother
    rw [hworkspace]
    exact h.epochs d drain hdrain other hother

theorem unretire (h : c.Resolving) (w : WorkspaceId) (id : Nat) : (c.unretire w id).Resolving := by
  unfold MutationCoordinator.unretire
  split
  · refine h.move (fun _ => rfl) h.idle (fun _ _ => rfl) (Nat.le_refl _) rfl
      (fun w' other hother => .inl ?_) fun d drain hd => .inl hd
    change other ∈ Function.update c.retiredStates w _ w' at hother
    by_cases hw : w' = w
    · rw [hw, Function.update_self] at hother
      rw [hw]
      exact List.mem_of_mem_filter hother
    · rwa [Function.update_of_ne hw] at hother
  · exact h

theorem release (h : c.Resolving) (lease : Nat) : (c.release lease).Resolving := by
  unfold MutationCoordinator.release
  cases hhandle : c.handles lease with
  | none => exact h
  | some handle =>
    simp only
    split
    · exact h
    · exact (h.dropLease hhandle).unretire handle.workspaceId handle.state

theorem workspaceDrain (h : c.Resolving) (hsettling : c.Settling) (w : WorkspaceId) :
    (c.workspaceDrain w).Resolving := by
  have hheap : ∀ id, (c.workspaceDrain w).heap id = c.heap id ∨
      (c.workspaceDrain w).heap id = (c.heap id).stateDrain c.nextDrain := by
    intro id
    show (if id ∈ c.workspaceEpochs w then _ else _) = _ ∨ _
    split
    · exact .inr (by simp [MutationCoordinator.workspaceDrain, *])
    · exact .inl rfl
  have hleases : ∀ id, ((c.workspaceDrain w).heap id).leases = (c.heap id).leases := by
    intro id
    rcases hheap id with hsame | hnew
    · rw [hsame]
    · rw [hnew]
      unfold WorkspaceState.stateDrain
      split <;> rfl
  have hworkspace : ∀ id, ((c.workspaceDrain w).heap id).workspaceId = (c.heap id).workspaceId := by
    intro id
    rcases hheap id with hsame | hnew
    · rw [hsame]
    · rw [hnew]
      unfold WorkspaceState.stateDrain
      split <;> rfl
  refine h.move hleases ?_ (fun id _ => hworkspace id) (Nat.le_refl _) rfl
    (fun w id hid => .inl hid) ?_
  · intro id hnone
    rw [hleases] at hnone
    have hwaiters := h.idle id hnone
    rcases hheap id with hsame | hnew
    · rw [hsame, hwaiters]
    · rw [hnew]
      unfold WorkspaceState.stateDrain
      rw [if_pos hnone, hwaiters]
  · intro d drain hdrain
    by_cases hd : d = c.nextDrain
    · right
      have hdrain' : some ⟨w, c.workspaceEpochs w, c.currentGeneration w⟩ = some drain := by
        rw [← hdrain, hd]
        show _ = Function.update c.drains c.nextDrain _ c.nextDrain
        rw [Function.update_self]
      obtain rfl := Option.some.inj hdrain'
      intro id hid
      rw [hworkspace]
      rcases List.mem_append.mp hid with hcurrent | hretired
      · exact hsettling.owned w id (by simpa using hcurrent)
      · exact h.retired w id hretired
    · left
      rw [← hdrain]
      show _ = Function.update c.drains c.nextDrain _ d
      rw [Function.update_of_ne hd]

theorem step (h : c.Resolving) (hsettling : c.Settling) (s : CoordinatorStep) :
    (c.step s).Resolving := by
  cases s with
  | activate w generation => exact h.activate hsettling w generation
  | observe w generation => exact h.observe hsettling w generation
  | acquire w generation => exact h.acquire hsettling w generation
  | release lease => exact h.release lease
  | block w => exact h.block hsettling w
  | blockAndDrain w => exact (h.block hsettling w).workspaceDrain (hsettling.block w) w
  | beginDeletion w =>
    show (c.beginDeletion w).2.Resolving
    unfold MutationCoordinator.beginDeletion
    split
    · exact h
    · exact ((h.block hsettling w).workspaceDrain (hsettling.block w) w).congr rfl rfl rfl rfl rfl
  | finish d =>
    show (c.finish d).Resolving
    unfold MutationCoordinator.finish
    split
    · exact h.congr rfl rfl rfl rfl rfl
    · exact h
  | complete d =>
    show (c.complete d).Resolving
    unfold MutationCoordinator.complete
    split
    · split
      · exact h.congr rfl rfl rfl rfl rfl
      · exact h
    · exact h
  | runLifecycle w ordering =>
    show (c.runLifecycle w ordering).2.Resolving
    unfold MutationCoordinator.runLifecycle
    split
    · exact h
    · exact h.congr rfl rfl rfl rfl rfl
  | startLifecycle k =>
    show (c.startLifecycle k).Resolving
    unfold MutationCoordinator.startLifecycle
    split
    · split
      · exact h.congr rfl rfl rfl rfl rfl
      · exact h
    · exact h
  | settleLifecycle k => exact h.congr rfl rfl rfl rfl rfl
  | releaseLifecycle k => exact h.congr rfl rfl rfl rfl rfl
  | resolveTail k => exact h.congr rfl rfl rfl rfl rfl
  | forgetTail k => exact h.congr rfl rfl rfl rfl rfl

theorem run (h : c.Resolving) (hsettling : c.Settling) (steps : List CoordinatorStep) :
    (c.run steps).Resolving := by
  induction steps generalizing c with
  | nil => exact h
  | cons s rest ih => exact ih (h.step hsettling s) (hsettling.step s)

end Resolving

end MutationCoordinator

end ClockifyAssistant
