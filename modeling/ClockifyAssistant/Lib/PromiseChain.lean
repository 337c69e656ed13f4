import Mathlib.Logic.Function.Basic

/-!
Callbacks chained on promises, key by key. A callback starts once the tail of
the one registered before it has resolved; its own tail resolves once it is
released and that earlier tail has resolved. The last tail of a key is forgotten
after it has resolved, and the next callback then waits for nothing.
-/
namespace ClockifyAssistant.Lib

inductive LinkPhase
  | waiting | running | settled | released
  deriving DecidableEq

structure ChainLink (K : Type) where
  key : K
  previous : Option Nat

structure PromiseChain (K : Type) where
  links : Nat → Option (ChainLink K)
  next : Nat
  phase : Nat → LinkPhase
  resolved : Nat → Bool
  tails : K → Option Nat

namespace PromiseChain

variable {K : Type} (c : PromiseChain K)

def empty : PromiseChain K where
  links := fun _ => none
  next := 0
  phase := fun _ => .waiting
  resolved := fun _ => false
  tails := fun _ => none

def register [DecidableEq K] (key : K) : PromiseChain K :=
  { c with
    links := Function.update c.links c.next (some ⟨key, c.tails key⟩)
    next := c.next + 1
    tails := Function.update c.tails key (some c.next) }

/-- The promise that callback `k` waits for has resolved. -/
def ready (k : Nat) : Bool :=
  (c.links k).any fun link => link.previous.all c.resolved

def startable (k : Nat) : Bool := c.phase k = .waiting && c.ready k

def start (k : Nat) : PromiseChain K :=
  if c.startable k then { c with phase := Function.update c.phase k .running } else c

def settle (k : Nat) : PromiseChain K :=
  if c.phase k = .running then { c with phase := Function.update c.phase k .settled } else c

def release (k : Nat) : PromiseChain K :=
  if c.phase k = .settled then { c with phase := Function.update c.phase k .released } else c

def resolve (k : Nat) : PromiseChain K :=
  if c.phase k = .released ∧ c.ready k then
    { c with resolved := Function.update c.resolved k true }
  else c

def forget [DecidableEq K] (k : Nat) : PromiseChain K :=
  match c.links k with
  | some link =>
      if c.resolved k ∧ c.tails link.key = some k then
        { c with tails := Function.update c.tails link.key none }
      else c
  | none => c

/-- Callback `k` was registered under `key`. -/
def filed (k : Nat) (key : K) : Prop := ∃ link, c.links k = some link ∧ link.key = key

/-- The tails of all callbacks registered before `k` under its key have resolved. -/
def settledBefore (k : Nat) (key : K) : Prop :=
  ∀ j, c.filed j key → j < k → c.resolved j = true

/-- What holds of a chain at every point. -/
structure Ordered : Prop where
  fresh : ∀ k key, c.filed k key → k < c.next
  tail_filed : ∀ key k, c.tails key = some k → c.filed k key
  tail_last : ∀ key k, c.tails key = some k → ∀ j, c.filed j key → j ≤ k
  no_tail : ∀ key, c.tails key = none → ∀ j, c.filed j key → c.resolved j = true
  previous_filed : ∀ k link p, c.links k = some link → link.previous = some p →
    c.filed p link.key ∧ ∀ j, c.filed j link.key → j < k → j ≤ p
  previous_none : ∀ k link, c.links k = some link → link.previous = none →
    c.settledBefore k link.key
  resolved_before : ∀ k key, c.filed k key → c.resolved k = true → c.settledBefore k key
  started : ∀ k key, c.filed k key → c.phase k ≠ .waiting → c.settledBefore k key
  released : ∀ k key, c.filed k key → c.resolved k = true → c.phase k = .released
  unfiled : ∀ k, c.links k = none → c.phase k = .waiting ∧ c.resolved k = false

variable {c}

theorem filed.key_unique {k : Nat} {key key' : K} (h : c.filed k key) (h' : c.filed k key') :
    key = key' := by
  obtain ⟨link, hlink, hkey⟩ := h
  obtain ⟨link', hlink', hkey'⟩ := h'
  have hsame : link = link' := Option.some.inj (hlink.symm.trans hlink')
  rw [← hkey, ← hkey', hsame]

theorem filed_congr {c' : PromiseChain K} (h : c'.links = c.links) {k : Nat} {key : K} :
    c'.filed k key ↔ c.filed k key := by
  unfold filed
  rw [h]

section Moves

variable (c) (k : Nat)

theorem start_links : (c.start k).links = c.links := by
  unfold start
  split <;> rfl

theorem start_phase (h : c.startable k = true) (j : Nat) :
    (c.start k).phase j = if j = k then .running else c.phase j := by
  unfold start
  rw [if_pos h]
  by_cases heq : j = k
  · simp [heq]
  · simp [heq]

theorem settle_links : (c.settle k).links = c.links := by
  unfold settle
  split <;> rfl

theorem settle_waiting (j : Nat) : (c.settle k).phase j = .waiting ↔ c.phase j = .waiting := by
  unfold settle
  split
  · rename_i hrunning
    by_cases heq : j = k
    · simp [heq, hrunning]
    · simp [Function.update_of_ne heq]
  · exact Iff.rfl

theorem release_links : (c.release k).links = c.links := by
  unfold release
  split <;> rfl

theorem release_waiting (j : Nat) : (c.release k).phase j = .waiting ↔ c.phase j = .waiting := by
  unfold release
  split
  · rename_i hsettled
    by_cases heq : j = k
    · simp [heq, hsettled]
    · simp [Function.update_of_ne heq]
  · exact Iff.rfl

theorem resolve_links : (c.resolve k).links = c.links := by
  unfold resolve
  split <;> rfl

theorem resolve_phase : (c.resolve k).phase = c.phase := by
  unfold resolve
  split <;> rfl

theorem forget_links [DecidableEq K] : (c.forget k).links = c.links := by
  unfold forget
  split
  · split <;> rfl
  · rfl

theorem forget_phase [DecidableEq K] : (c.forget k).phase = c.phase := by
  unfold forget
  split
  · split <;> rfl
  · rfl

end Moves

namespace Ordered

theorem empty : (PromiseChain.empty : PromiseChain K).Ordered := by
  constructor <;> simp [PromiseChain.empty, filed]

/-- A callback whose promise has resolved comes after resolved tails only. -/
theorem settledBefore_of_ready (h : c.Ordered) {k : Nat} {key : K} (hfiled : c.filed k key)
    (hready : c.ready k = true) : c.settledBefore k key := by
  obtain ⟨link, hlink, rfl⟩ := hfiled
  have hprevious : link.previous.all c.resolved = true := by
    simpa [ready, hlink] using hready
  cases hp : link.previous with
  | none => exact h.previous_none k link hlink hp
  | some p =>
    obtain ⟨hpfiled, hplast⟩ := h.previous_filed k link p hlink hp
    have hpresolved : c.resolved p = true := by simpa [hp] using hprevious
    intro j hj hjk
    have hjp : j ≤ p := hplast j hj hjk
    by_cases heq : j = p
    · rw [heq]
      exact hpresolved
    · exact h.resolved_before p link.key hpfiled hpresolved j hj (by omega)

theorem ready_filed {k : Nat} (hready : c.ready k = true) : ∃ key, c.filed k key := by
  cases hlink : c.links k with
  | none => simp [ready, hlink] at hready
  | some link => exact ⟨link.key, link, hlink, rfl⟩

end Ordered

theorem filed_register [DecidableEq K] {key key' : K} {k : Nat} :
    (c.register key).filed k key' ↔ (k = c.next ∧ key' = key) ∨ (k ≠ c.next ∧ c.filed k key') := by
  by_cases hk : k = c.next
  · subst hk
    simp [filed, register, eq_comm]
  · simp [filed, register, hk]

namespace Ordered

theorem register [DecidableEq K] (h : c.Ordered) (key : K) : (c.register key).Ordered := by
  have hold : ∀ k key', c.filed k key' → k ≠ c.next := by
    intro k key' hfiled heq
    have := h.fresh k key' hfiled
    omega
  have hbefore : ∀ k key', k ≤ c.next → c.settledBefore k key' →
      (c.register key).settledBefore k key' := by
    intro k key' hk hsettled j hj hjk
    obtain ⟨rfl, -⟩ | ⟨-, hj⟩ := filed_register.mp hj
    · omega
    · exact hsettled j hj hjk
  have hnew : c.phase c.next = .waiting ∧ c.resolved c.next = false := by
    refine h.unfiled c.next ?_
    cases hlink : c.links c.next with
    | none => rfl
    | some link => exact absurd (h.fresh c.next link.key ⟨link, hlink, rfl⟩) (by omega)
  refine ⟨?_, ?_, ?_, ?_, ?_, ?_, ?_, ?_, ?_, ?_⟩
  · intro k key' hfiled
    show k < c.next + 1
    obtain ⟨rfl, -⟩ | ⟨-, hfiled⟩ := filed_register.mp hfiled
    · omega
    · have := h.fresh k key' hfiled
      omega
  · intro key' k htail
    by_cases hkey : key' = key
    · have hk : c.next = k := by simpa [PromiseChain.register, hkey] using htail
      exact filed_register.mpr (.inl ⟨hk.symm, hkey⟩)
    · have htail' : c.tails key' = some k := by
        simpa [PromiseChain.register, Function.update_of_ne hkey] using htail
      have hfiled := h.tail_filed key' k htail'
      exact filed_register.mpr (.inr ⟨hold k key' hfiled, hfiled⟩)
  · intro key' k htail j hj
    by_cases hkey : key' = key
    · have hk : c.next = k := by simpa [PromiseChain.register, hkey] using htail
      obtain ⟨rfl, -⟩ | ⟨-, hj⟩ := filed_register.mp hj
      · omega
      · have := h.fresh j key' hj
        omega
    · have htail' : c.tails key' = some k := by
        simpa [PromiseChain.register, Function.update_of_ne hkey] using htail
      obtain ⟨-, hsame⟩ | ⟨-, hj⟩ := filed_register.mp hj
      · exact absurd hsame hkey
      · exact h.tail_last key' k htail' j hj
  · intro key' htail j hj
    have hkey : key' ≠ key := by
      intro hkey
      simp [PromiseChain.register, hkey] at htail
    have htail' : c.tails key' = none := by
      simpa [PromiseChain.register, Function.update_of_ne hkey] using htail
    obtain ⟨-, hsame⟩ | ⟨-, hj⟩ := filed_register.mp hj
    · exact absurd hsame hkey
    · exact h.no_tail key' htail' j hj
  · intro k link p hlink hp
    by_cases hk : k = c.next
    · subst hk
      obtain rfl : (⟨key, c.tails key⟩ : ChainLink K) = link := by
        simpa [PromiseChain.register] using hlink
      have hfiled := h.tail_filed key p hp
      refine ⟨filed_register.mpr (.inr ⟨hold p key hfiled, hfiled⟩), ?_⟩
      intro j hj hlt
      obtain ⟨rfl, -⟩ | ⟨-, hj⟩ := filed_register.mp hj
      · omega
      · exact h.tail_last key p hp j hj
    · have hlink' : c.links k = some link := by
        simpa [PromiseChain.register, Function.update_of_ne hk] using hlink
      obtain ⟨hfiled, hlast⟩ := h.previous_filed k link p hlink' hp
      have hkold := h.fresh k link.key ⟨link, hlink', rfl⟩
      refine ⟨filed_register.mpr (.inr ⟨hold p _ hfiled, hfiled⟩), ?_⟩
      intro j hj hlt
      obtain ⟨rfl, -⟩ | ⟨-, hj⟩ := filed_register.mp hj
      · omega
      · exact hlast j hj hlt
  · intro k link hlink hp
    by_cases hk : k = c.next
    · subst hk
      obtain rfl : (⟨key, c.tails key⟩ : ChainLink K) = link := by
        simpa [PromiseChain.register] using hlink
      refine hbefore c.next key (Nat.le_refl _) ?_
      intro j hj _
      exact h.no_tail key hp j hj
    · have hlink' : c.links k = some link := by
        simpa [PromiseChain.register, Function.update_of_ne hk] using hlink
      have hkold := h.fresh k link.key ⟨link, hlink', rfl⟩
      exact hbefore _ _ (by omega) (h.previous_none k link hlink' hp)
  · intro k key' hfiled hresolved
    obtain ⟨rfl, -⟩ | ⟨-, hfiled⟩ := filed_register.mp hfiled
    · have : c.resolved c.next = true := hresolved
      simp [hnew.2] at this
    · have hkold := h.fresh k key' hfiled
      exact hbefore _ _ (by omega) (h.resolved_before k key' hfiled hresolved)
  · intro k key' hfiled hphase
    obtain ⟨rfl, -⟩ | ⟨-, hfiled⟩ := filed_register.mp hfiled
    · exact absurd hnew.1 hphase
    · have hkold := h.fresh k key' hfiled
      exact hbefore _ _ (by omega) (h.started k key' hfiled hphase)
  · intro k key' hfiled hresolved
    obtain ⟨rfl, -⟩ | ⟨-, hfiled⟩ := filed_register.mp hfiled
    · have : c.resolved c.next = true := hresolved
      simp [hnew.2] at this
    · exact h.released k key' hfiled hresolved
  · intro k hk
    have hne : k ≠ c.next := by
      intro heq
      simp [PromiseChain.register, heq] at hk
    have hk' : c.links k = none := by
      simpa [PromiseChain.register, Function.update_of_ne hne] using hk
    exact h.unfiled k hk'

/-- A move of one callback from one phase to the next. -/
theorem move (h : c.Ordered) {k : Nat} {phase : LinkPhase} (hfiled : ∃ key, c.filed k key)
    (hsettled : ∀ key, c.filed k key → c.settledBefore k key)
    (hresolved : c.resolved k = true → phase = .released) :
    ({ c with phase := Function.update c.phase k phase } : PromiseChain K).Ordered := by
  have hother : ∀ j, j ≠ k → Function.update c.phase k phase j = c.phase j := by
    intro j hj
    exact Function.update_of_ne hj _ _
  refine ⟨h.fresh, h.tail_filed, h.tail_last, h.no_tail, h.previous_filed, h.previous_none,
    h.resolved_before, ?_, ?_, ?_⟩
  · intro j key hj hphase
    by_cases heq : j = k
    · rw [heq] at hj ⊢
      exact hsettled key hj
    · have hphase' : c.phase j ≠ .waiting := by
        rw [← hother j heq]
        exact hphase
      exact h.started j key hj hphase'
  · intro j key hj hres
    show Function.update c.phase k phase j = .released
    by_cases heq : j = k
    · rw [heq] at hres ⊢
      rw [Function.update_self]
      exact hresolved hres
    · rw [hother j heq]
      exact h.released j key hj hres
  · intro j hj
    obtain ⟨key, link, hlink, -⟩ := hfiled
    have hne : j ≠ k := by
      intro heq
      rw [heq] at hj
      exact absurd (hlink.symm.trans hj) (by simp)
    show Function.update c.phase k phase j = .waiting ∧ c.resolved j = false
    rw [hother j hne]
    exact h.unfiled j hj

theorem start (h : c.Ordered) (k : Nat) : (c.start k).Ordered := by
  unfold PromiseChain.start
  split
  · rename_i hstartable
    obtain ⟨hphase, hready⟩ : c.phase k = .waiting ∧ c.ready k = true := by
      simpa [startable] using hstartable
    refine h.move (ready_filed hready) ?_ ?_
    · intro key hkey
      exact h.settledBefore_of_ready hkey hready
    · intro hresolved
      obtain ⟨key, hkey⟩ := ready_filed hready
      have := h.released k key hkey hresolved
      rw [hphase] at this
      cases this
  · exact h

theorem filed_of_phase (h : c.Ordered) {k : Nat} (hphase : c.phase k ≠ .waiting) :
    ∃ key, c.filed k key := by
  cases hlink : c.links k with
  | none => exact absurd (h.unfiled k hlink).1 hphase
  | some link => exact ⟨link.key, link, hlink, rfl⟩

theorem settle (h : c.Ordered) (k : Nat) : (c.settle k).Ordered := by
  unfold PromiseChain.settle
  split
  · rename_i hrunning
    have hphase : c.phase k ≠ .waiting := by simp [hrunning]
    refine h.move (h.filed_of_phase hphase) ?_ ?_
    · intro key hkey
      exact h.started k key hkey hphase
    · intro hresolved
      obtain ⟨key, hkey⟩ := h.filed_of_phase hphase
      have := h.released k key hkey hresolved
      rw [hrunning] at this
      cases this
  · exact h

theorem release (h : c.Ordered) (k : Nat) : (c.release k).Ordered := by
  unfold PromiseChain.release
  split
  · rename_i hsettled
    have hphase : c.phase k ≠ .waiting := by simp [hsettled]
    refine h.move (h.filed_of_phase hphase) ?_ ?_
    · intro key hkey
      exact h.started k key hkey hphase
    · intro _
      rfl
  · exact h

theorem resolve (h : c.Ordered) (k : Nat) : (c.resolve k).Ordered := by
  unfold PromiseChain.resolve
  split
  · rename_i hdue
    obtain ⟨hreleased, hready⟩ := hdue
    have hmono : ∀ j, c.resolved j = true → Function.update c.resolved k true j = true := by
      intro j hj
      by_cases heq : j = k
      · simp [heq]
      · rwa [Function.update_of_ne heq]
    have hbefore : ∀ j key, c.settledBefore j key →
        ∀ i, c.filed i key → i < j → Function.update c.resolved k true i = true := by
      intro j key hsettled i hi hij
      exact hmono i (hsettled i hi hij)
    refine ⟨h.fresh, h.tail_filed, h.tail_last, ?_, h.previous_filed, ?_, ?_, ?_, ?_, ?_⟩
    · intro key htail j hj
      exact hmono j (h.no_tail key htail j hj)
    · intro j link hlink hp
      exact hbefore j link.key (h.previous_none j link hlink hp)
    · intro j key hj hresolved
      by_cases heq : j = k
      · rw [heq] at hj ⊢
        exact hbefore k key (h.settledBefore_of_ready hj hready)
      · have hold : c.resolved j = true := by
          rw [← Function.update_of_ne heq true c.resolved]
          exact hresolved
        exact hbefore j key (h.resolved_before j key hj hold)
    · intro j key hj hphase
      exact hbefore j key (h.started j key hj hphase)
    · intro j key hj hresolved
      by_cases heq : j = k
      · rw [heq]
        exact hreleased
      · have hold : c.resolved j = true := by
          rw [← Function.update_of_ne heq true c.resolved]
          exact hresolved
        exact h.released j key hj hold
    · intro j hj
      have hne : j ≠ k := by
        intro heq
        have := (h.unfiled j hj).1
        rw [heq, hreleased] at this
        cases this
      show c.phase j = .waiting ∧ Function.update c.resolved k true j = false
      rw [Function.update_of_ne hne]
      exact h.unfiled j hj
  · exact h

theorem forget [DecidableEq K] (h : c.Ordered) (k : Nat) : (c.forget k).Ordered := by
  unfold PromiseChain.forget
  split
  · rename_i link hlink
    split
    · rename_i hdue
      obtain ⟨hresolved, htail⟩ := hdue
      have hkept : ∀ key j, Function.update c.tails link.key none key = some j →
          c.tails key = some j := by
        intro key j hj
        by_cases heq : key = link.key
        · simp [heq] at hj
        · rwa [Function.update_of_ne heq] at hj
      refine ⟨h.fresh, ?_, ?_, ?_, h.previous_filed, h.previous_none, h.resolved_before, h.started,
        h.released, h.unfiled⟩
      · intro key j hj
        exact h.tail_filed key j (hkept key j hj)
      · intro key j hj
        exact h.tail_last key j (hkept key j hj)
      · intro key hnone j hj
        by_cases heq : key = link.key
        · -- every earlier tail has resolved once the last one has
          have hfiledk : c.filed k key := ⟨link, hlink, heq.symm⟩
          have hjfiled : c.filed j key := hj
          have hjk : j ≤ k := h.tail_last key k (by rw [heq]; exact htail) j hjfiled
          by_cases hjeq : j = k
          · rw [hjeq]
            exact hresolved
          · exact h.resolved_before k key hfiledk hresolved j hjfiled (by omega)
        · refine h.no_tail key ?_ j hj
          rw [← Function.update_of_ne heq none c.tails]
          exact hnone
    · exact h
  · exact h

/-- A callback that has started finds all earlier callbacks of its key released. -/
theorem released_of_started (h : c.Ordered) {j k : Nat} {key : K} (hj : c.filed j key)
    (hk : c.filed k key) (hphase : c.phase k ≠ .waiting) (hjk : j < k) : c.phase j = .released :=
  h.released j key hj (h.started k key hk hphase j hj hjk)

end Ordered

end PromiseChain

end ClockifyAssistant.Lib
