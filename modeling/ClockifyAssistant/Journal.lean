import ClockifyAssistant.Schema

/-!
The step journal without its table: steps as a lookup and the writes made to it.
A compensation is paired with the succeeded step it reverses, and the pair moves
together; a write to one row alone never enters or leaves `compensating`.
-/
namespace ClockifyAssistant

open Function

abbrev Journal := StepId → Option OperationStep

/-- The statuses in which a step's own effect is known to have happened. -/
def StepStatus.known : StepStatus → Bool
  | .succeeded | .compensating | .compensated => true
  | _ => false

/-- A row keeps what it was prepared with. -/
structure OperationStep.Identical (s s' : OperationStep) : Prop where
  id : s'.id = s.id
  operationId : s'.operationId = s.operationId
  index : s'.index = s.index
  planStepId : s'.planStepId = s.planStepId
  kind : s'.kind = s.kind
  targetFingerprint : s'.targetFingerprint = s.targetFingerprint
  compensatesStepId : s'.compensatesStepId = s.compensatesStepId

/-- A dispatch is recorded once, on a step that is executing. -/
def OperationStep.DispatchKept (s s' : OperationStep) : Prop :=
  s'.dispatchedAt = s.dispatchedAt ∨
    (s.dispatchedAt = none ∧ s.status = .executing ∧ s'.status = .executing)

theorem OperationStep.Identical.refl (s : OperationStep) : s.Identical s := by
  constructor <;> rfl

inductive JournalMove : Journal → Journal → Prop
  | prepare {j : Journal} {s : OperationStep} (hfresh : j s.id = none)
      (hkind : s.kind = .primary) (hstatus : s.status = .prepared)
      (hdispatched : s.dispatchedAt = none) : JournalMove j (update j s.id (some s))
  | prepareCompensation {j : Journal} {k s : OperationStep} (hfresh : j k.id = none)
      (hkind : k.kind = .compensation) (hstatus : k.status = .prepared)
      (hdispatched : k.dispatchedAt = none) (hsource : k.compensatesStepId = some s.id)
      (hs : j s.id = some s) (hprimary : s.kind = .primary) (hknown : s.status.known)
      (howner : s.operationId = k.operationId)
      (hunused : ∀ i r, j i = some r → r.kind = .compensation →
        r.compensatesStepId ≠ some s.id) : JournalMove j (update j k.id (some k))
  | write {j : Journal} {s s' : OperationStep} (hs : j s.id = some s) (hsame : s.Identical s')
      (hdispatch : s.DispatchKept s')
      (hstatus : s'.status = s.status ∨ (s.kind = .primary ∧ s.status.known = false ∧
        s'.status ≠ .compensating)) : JournalMove j (update j s.id (some s'))
  | compensate {j : Journal} {k s : OperationStep} (hk : j k.id = some k)
      (hkind : k.kind = .compensation) (hprepared : k.status = .prepared)
      (hsource : k.compensatesStepId = some s.id) (hs : j s.id = some s)
      (hprimary : s.kind = .primary) (hsucceeded : s.status = .succeeded) (queuedAt : Option Time) :
      JournalMove j (update (update j k.id (some { k with status := .executing, queuedAt })) s.id
        (some { s with status := .compensating }))
  | settleCompensation {j : Journal} {k k' s s' : OperationStep} (hk : j k.id = some k)
      (hkind : k.kind = .compensation) (hexec : k.status = .executing)
      (hsource : k.compensatesStepId = some s.id) (hs : j s.id = some s)
      (hsexec : s.status = .compensating) (hsame : k.Identical k') (hsame' : s.Identical s')
      (hdispatch : k'.dispatchedAt = k.dispatchedAt) (hdispatch' : s'.dispatchedAt = s.dispatchedAt)
      (hstatus : k'.status ≠ .executing ∧ k'.status ≠ .compensating)
      (hstatus' : s'.status = .succeeded ∨ s'.status = .compensated) :
      JournalMove j (update (update j k.id (some k')) s.id (some s'))
  | recover {j : Journal} {f : OperationStep → OperationStep}
      (hsame : ∀ s : OperationStep, s.Identical (f s))
      (hdispatch : ∀ s, (f s).dispatchedAt = s.dispatchedAt)
      (hquiet : ∀ s, (f s).status ≠ .executing ∧ (f s).status ≠ .compensating)
      (hknown : ∀ s : OperationStep, s.status.known → (f s).status.known) :
      JournalMove j fun i => (j i).map f

structure JournalInv (j : Journal) : Prop where
  id : ∀ i s, j i = some s → s.id = i
  source : ∀ i k, j i = some k → k.kind = .compensation → ∃ s, k.compensatesStepId = some s.id ∧
    j s.id = some s ∧ s.kind = .primary ∧ s.status.known ∧ s.operationId = k.operationId
  unique : ∀ i i' k k' s, j i = some k → j i' = some k' → k.kind = .compensation →
    k'.kind = .compensation → k.compensatesStepId = some s → k'.compensatesStepId = some s → i = i'
  compensating : ∀ i s, j i = some s → s.status = .compensating →
    s.kind = .primary ∧ ∃ i' k, j i' = some k ∧ k.kind = .compensation ∧
      k.compensatesStepId = some i ∧ k.status = .executing
  executing : ∀ i k s, j i = some k → k.kind = .compensation → k.status = .executing →
    k.compensatesStepId = some s → ∃ r, j s = some r ∧ r.status = .compensating

namespace JournalMove

variable {j j' : Journal}

attribute [local grind →] OperationStep.Identical.id OperationStep.Identical.kind
  OperationStep.Identical.operationId OperationStep.Identical.compensatesStepId
attribute [local grind =] StepStatus.known Function.update_apply

theorem id (h : JournalMove j j') (hI : JournalInv j) : ∀ i s, j' i = some s → s.id = i := by
  have hid := hI.id
  intro i s hs
  cases h with
  | recover hsame =>
    obtain ⟨r, hr, rfl⟩ := Option.map_eq_some_iff.mp hs
    exact (hsame r).id.trans (hid i r hr)
  | _ => grind

theorem source (h : JournalMove j j') (hI : JournalInv j) :
    ∀ i k, j' i = some k → k.kind = .compensation → ∃ s, k.compensatesStepId = some s.id ∧
      j' s.id = some s ∧ s.kind = .primary ∧ s.status.known ∧ s.operationId = k.operationId := by
  have hid := hI.id
  have hsource := hI.source
  intro i k hk hkind
  cases h with
  | recover hsame hdispatch hquiet hknown =>
    obtain ⟨r, hr, rfl⟩ := Option.map_eq_some_iff.mp hk
    obtain ⟨s, hs, hjs, hprimary, hs', howner⟩ :=
      hsource i r hr ((hsame r).kind.symm.trans hkind)
    refine ⟨_, ?_, Option.map_eq_some_iff.mpr ⟨s, ?_, rfl⟩, ?_, hknown s hs', ?_⟩
    · rw [(hsame r).compensatesStepId, (hsame s).id, hs]
    · rw [(hsame s).id, hjs]
    · exact (hsame s).kind.trans hprimary
    · rw [(hsame s).operationId, (hsame r).operationId, howner]
  | _ => grind

theorem unique (h : JournalMove j j') (hI : JournalInv j) :
    ∀ i i' k k' s, j' i = some k → j' i' = some k' → k.kind = .compensation →
      k'.kind = .compensation → k.compensatesStepId = some s → k'.compensatesStepId = some s →
      i = i' := by
  have hid := hI.id
  have hunique := hI.unique
  intro i i' k k' s hk hk' hkind hkind' hs hs'
  cases h with
  | recover hsame =>
    obtain ⟨r, hr, rfl⟩ := Option.map_eq_some_iff.mp hk
    obtain ⟨r', hr', rfl⟩ := Option.map_eq_some_iff.mp hk'
    have hr₁ := hsame r
    have hr₂ := hsame r'
    grind
  | _ => grind

variable {s : OperationStep}

/-- A step that is compensating after a move was so before, or its compensation starts. -/
theorem compensating_old (h : JournalMove j j') (hI : JournalInv j) {i : StepId}
    (hs : j' i = some s) (hstatus : s.status = .compensating) :
    s.kind = .primary ∧ ((∃ s₀, j i = some s₀ ∧ s₀.status = .compensating) ∨
      ∃ i' k, j' i' = some k ∧ k.kind = .compensation ∧ k.compensatesStepId = some i ∧
        k.status = .executing) := by
  have hid := hI.id
  have hcompensating := hI.compensating
  cases h with
  | recover hsame hdispatch hquiet =>
    obtain ⟨r, hr, rfl⟩ := Option.map_eq_some_iff.mp hs
    exact absurd hstatus (hquiet r).2
  | @compensate k s₀ hk hkind hprepared hsource hs₀ hprimary hsucceeded queuedAt =>
    by_cases hi : i = s₀.id
    · have hne : k.id ≠ s₀.id := by grind
      refine ⟨by grind, .inr ⟨k.id, { k with status := .executing, queuedAt }, ?_, hkind, ?_, rfl⟩⟩
      · simp [hne]
      · rw [hi]
        exact hsource
    · grind
  | _ => grind

/-- Until its source is settled, an executing compensation stays executing. -/
theorem executing_kept (h : JournalMove j j') (hI : JournalInv j) {i i' : StepId}
    {k s : OperationStep} (hk : j i' = some k) (hkind : k.kind = .compensation)
    (hexec : k.status = .executing) (hsource : k.compensatesStepId = some i)
    (hs : j' i = some s) (hstatus : s.status = .compensating) :
    ∃ k', j' i' = some k' ∧ k'.kind = .compensation ∧ k'.compensatesStepId = some i ∧
      k'.status = .executing := by
  have hid := hI.id
  have hunique := hI.unique
  have hsources := hI.source
  cases h with
  | recover hsame hdispatch hquiet =>
    obtain ⟨r, hr, rfl⟩ := Option.map_eq_some_iff.mp hs
    exact absurd hstatus (hquiet r).2
  | @compensate k₀ s₀ hk₀ hkind₀ hprepared =>
    have hkeep : i' ≠ k₀.id ∧ i' ≠ s₀.id := by grind
    refine ⟨k, ?_, hkind, hsource, hexec⟩
    simp [hkeep, hk]
  | @settleCompensation k₀ k₀' s₀ s₀' hk₀ hkind₀ hexec₀ hsource₀ hs₀ hsexec₀ hsame hsame' _ _
      hstatus₀ hstatus₀' =>
      have hi : i ≠ s₀.id := by
        intro hi
        have hs' : s₀' = s := by simpa [hi] using hs
        rcases hstatus₀' with h | h <;> rw [hs', hstatus] at h <;> cases h
      have hkeep : i' ≠ k₀.id ∧ i' ≠ s₀.id := by grind
      refine ⟨k, ?_, hkind, hsource, hexec⟩
      simp [hkeep, hk]
  | _ => grind

theorem compensating (h : JournalMove j j') (hI : JournalInv j) :
    ∀ i s, j' i = some s → s.status = .compensating →
      s.kind = .primary ∧ ∃ i' k, j' i' = some k ∧ k.kind = .compensation ∧
        k.compensatesStepId = some i ∧ k.status = .executing := by
  intro i s hs hstatus
  obtain ⟨hkind, ⟨s₀, hs₀, hstatus₀⟩ | hnew⟩ := h.compensating_old hI hs hstatus
  · obtain ⟨-, i', k, hk, hk₁, hk₂, hk₃⟩ := hI.compensating i s₀ hs₀ hstatus₀
    exact ⟨hkind, i', h.executing_kept hI hk hk₁ hk₃ hk₂ hs hstatus⟩
  · exact ⟨hkind, hnew⟩

theorem executing (h : JournalMove j j') (hI : JournalInv j) :
    ∀ i k s, j' i = some k → k.kind = .compensation → k.status = .executing →
      k.compensatesStepId = some s → ∃ r, j' s = some r ∧ r.status = .compensating := by
  have hid := hI.id
  have hsource := hI.source
  have hunique := hI.unique
  have hexecuting := hI.executing
  intro i k s hk hkind hstatus hs
  cases h with
  | recover hsame hdispatch hquiet =>
    obtain ⟨r, hr, rfl⟩ := Option.map_eq_some_iff.mp hk
    exact absurd hstatus (hquiet r).1
  | @compensate k₀ s₀ hk₀ hkind₀ hprepared₀ hsource₀ hs₀ hprimary₀ hsucceeded₀ queuedAt =>
    by_cases hs₁ : s = s₀.id
    · exact ⟨{ s₀ with status := .compensating }, by simp [hs₁], rfl⟩
    · have hold : j i = some k := by grind
      obtain ⟨r, hr, hrs⟩ := hexecuting i k s hold hkind hstatus hs
      have hne : s ≠ k₀.id := by grind
      exact ⟨r, by simp [hs₁, hne, hr], hrs⟩
  | @settleCompensation k₀ k₀' s₀ s₀' hk₀ hkind₀ hexec₀ hsource₀ hs₀ hsexec₀ hsame hsame' _ _
      hstatus₀ hstatus₀' =>
      have hold : j i = some k := by grind
      obtain ⟨r, hr, hrs⟩ := hexecuting i k s hold hkind hstatus hs
      have hpair : s = s₀.id → i = k₀.id := fun h =>
        hunique i k₀.id k k₀ s hold hk₀ hkind hkind₀ hs (h ▸ hsource₀)
      have hids : k₀.id ≠ s₀.id := by grind
      have hi : i ≠ k₀.id := by
        intro hi
        have hk' : k₀' = k := by simpa [hi, hids] using hk
        exact hstatus₀.1 (hk' ▸ hstatus)
      have hne : s ≠ k₀.id ∧ s ≠ s₀.id := by grind
      exact ⟨r, by simp [hne, hr], hrs⟩
  | _ => grind

/-- A row stays, with what it was prepared with and with its dispatch. -/
theorem kept (h : JournalMove j j') {i : StepId} (hs : j i = some s) :
    ∃ s', j' i = some s' ∧ s.Identical s' ∧ s.DispatchKept s' := by
  have hrefl (s : OperationStep) : s.Identical s ∧ s.DispatchKept s := ⟨.refl s, .inl rfl⟩
  cases h with
  | @recover f hsame hdispatch => exact ⟨f s, by simp [hs], hsame s, .inl (hdispatch s)⟩
  | @prepare s₀ hfresh | @prepareCompensation s₀ _ hfresh =>
    have hi : i ≠ s₀.id := by
      rintro rfl
      exact nomatch hfresh.symm.trans hs
    exact ⟨s, by rw [update_of_ne hi, hs], hrefl s⟩
  | @write s₀ s' hs₀ hsame hdispatch =>
    by_cases hi : i = s₀.id
    · subst hi
      obtain rfl := Option.some.inj (hs₀.symm.trans hs)
      exact ⟨s', update_self .., hsame, hdispatch⟩
    · exact ⟨s, by rw [update_of_ne hi, hs], hrefl s⟩
  | @compensate k₀ s₀ hk₀ hkind hprepared hsource hs₀ hprimary hsucceeded queuedAt =>
    by_cases hi : i = s₀.id
    · subst hi
      obtain rfl := Option.some.inj (hs₀.symm.trans hs)
      exact ⟨_, update_self .., by constructor <;> rfl, .inl rfl⟩
    · by_cases hi' : i = k₀.id
      · subst hi'
        obtain rfl := Option.some.inj (hk₀.symm.trans hs)
        exact ⟨{ k₀ with status := .executing, queuedAt },
          by rw [update_of_ne hi, update_self], by constructor <;> rfl, .inl rfl⟩
      · exact ⟨s, by rw [update_of_ne hi, update_of_ne hi', hs], hrefl s⟩
  | @settleCompensation k₀ k₀' s₀ s₀' hk₀ _ _ _ hs₀ _ hsame hsame' hdispatch hdispatch' =>
    by_cases hi : i = s₀.id
    · subst hi
      obtain rfl := Option.some.inj (hs₀.symm.trans hs)
      exact ⟨_, update_self .., hsame', .inl hdispatch'⟩
    · by_cases hi' : i = k₀.id
      · subst hi'
        obtain rfl := Option.some.inj (hk₀.symm.trans hs)
        exact ⟨k₀', by rw [update_of_ne hi, update_self], hsame, .inl hdispatch⟩
      · exact ⟨s, by rw [update_of_ne hi, update_of_ne hi', hs], hrefl s⟩

theorem fresh (h : JournalMove j j') {i : StepId} (hi : j i = none)
    (hs : j' i = some s) : s.dispatchedAt = none := by
  cases h with
  | recover => simp [hi] at hs
  | _ => grind

theorem inv (h : JournalMove j j') (hI : JournalInv j) : JournalInv j' where
  id := h.id hI
  source := h.source hI
  unique := h.unique hI
  compensating := h.compensating hI
  executing := h.executing hI

end JournalMove

end ClockifyAssistant
