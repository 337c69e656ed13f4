import Mathlib.Algebra.GroupWithZero.Nat

/-!
Transactions over a state, with rollback on failure.
A transaction either commits a value and a new state or fails and leaves the
state as it was. `Txn.wp` is its weakest precondition, with one postcondition
for commits and one for failures; the rules below follow the program text.
-/
namespace ClockifyAssistant.Lib

universe u v

abbrev Txn (σ ε α : Type u) : Type u := StateT σ (Except ε) α

namespace Txn

variable {σ ε α β : Type u}

def wp (m : Txn σ ε α) (Q : α → σ → Prop) (E : ε → Prop) (s : σ) : Prop :=
  match m s with
  | .ok (a, s') => Q a s'
  | .error e => E e

/-- Running a transaction against a database: a failure rolls back. -/
def commit (m : Txn σ ε α) (s : σ) : Except ε α × σ :=
  match m s with
  | .ok (a, s') => (.ok a, s')
  | .error e => (.error e, s)

def require (c : Prop) [Decidable c] (e : ε) : Txn σ ε PUnit :=
  if c then pure ⟨⟩ else throw e

def demand (o : Option α) (e : ε) : Txn σ ε α :=
  match o with
  | some a => pure a
  | none => throw e

variable {m : Txn σ ε α} {s : σ}

theorem wp_mono {Q Q' : α → σ → Prop} {E E' : ε → Prop}
    (h : wp m Q E s) (hQ : ∀ a s', Q a s' → Q' a s') (hE : ∀ e, E e → E' e) : wp m Q' E' s := by
  unfold wp at h ⊢
  cases hm : m s with
  | error e => exact hE e (by simpa [hm] using h)
  | ok r => exact hQ r.1 r.2 (by simpa [hm] using h)

variable {E : ε → Prop}

theorem wp_weaken {Q Q' : α → σ → Prop} (h : wp m Q E s) (hQ : ∀ a s', Q a s' → Q' a s') :
    wp m Q' (fun _ => True) s :=
  wp_mono h hQ fun _ _ => trivial

theorem wp_and {Q Q' : α → σ → Prop} {E E' : ε → Prop} (h : wp m Q E s) (h' : wp m Q' E' s) :
    wp m (fun a s' => Q a s' ∧ Q' a s') (fun e => E e ∧ E' e) s := by
  unfold wp at h h' ⊢
  cases hm : m s with
  | error e => exact ⟨by simpa [hm] using h, by simpa [hm] using h'⟩
  | ok r => exact ⟨by simpa [hm] using h, by simpa [hm] using h'⟩

/-- What two specifications say of every commit. -/
theorem wp_both {Q Q' : α → σ → Prop}
    (h : wp m Q (fun _ => True) s) (h' : wp m Q' (fun _ => True) s) :
    wp m (fun a s' => Q a s' ∧ Q' a s') (fun _ => True) s :=
  wp_mono (wp_and h h') (fun _ _ hQ => hQ) fun _ _ => trivial

variable {Q : α → σ → Prop}

theorem wp_ok {s s' : σ} {a : α} (h : wp m Q E s) (hm : m s = .ok (a, s')) : Q a s' := by
  simpa [wp, hm] using h

theorem wp_error {e : ε} (h : wp m Q E s) (hm : m s = .error e) : E e := by
  simpa [wp, hm] using h

theorem wp_iff_forall : wp m Q (fun _ => True) s ↔ ∀ a s', m s = .ok (a, s') → Q a s' := by
  unfold wp
  cases hm : m s with
  | error e => simp
  | ok r =>
    constructor
    · intro h a s' heq
      cases heq
      exact h
    · intro h
      exact h r.1 r.2 rfl

theorem wp_iff_exists : wp m Q (fun _ => False) s ↔ ∃ a s', m s = .ok (a, s') ∧ Q a s' := by
  unfold wp
  cases hm : m s with
  | error e => simp
  | ok r =>
    constructor
    · intro h
      exact ⟨r.1, r.2, rfl, h⟩
    · rintro ⟨a, s', heq, h⟩
      cases heq
      exact h

@[simp] theorem wp_pure (a : α) (Q : α → σ → Prop) (E : ε → Prop) (s : σ) :
    wp (pure a : Txn σ ε α) Q E s ↔ Q a s := Iff.rfl

@[simp] theorem wp_bind (m : Txn σ ε α) (f : α → Txn σ ε β) (Q : β → σ → Prop)
    (E : ε → Prop) (s : σ) : wp (m >>= f) Q E s ↔ wp m (fun a s' => wp (f a) Q E s') E s := by
  unfold wp
  cases hm : m s with
  | error e => simp [bind, StateT.bind, Except.bind, hm]
  | ok r => simp [bind, StateT.bind, Except.bind, hm]

/-- Sequencing through a specification of the first transaction. -/
theorem wp_seq {f : α → Txn σ ε β} {Q' : β → σ → Prop} (hm : wp m Q E s)
    (hf : ∀ a s', Q a s' → wp (f a) Q' E s') : wp (m >>= f) Q' E s :=
  (wp_bind m f Q' E s).mpr (wp_mono hm hf fun _ he => he)

@[simp] theorem wp_map (f : α → β) (m : Txn σ ε α) (Q : β → σ → Prop) (E : ε → Prop) (s : σ) :
    wp (f <$> m) Q E s ↔ wp m (fun a s' => Q (f a) s') E s := by
  rw [map_eq_pure_bind, wp_bind]
  rfl

@[simp] theorem wp_get (Q : σ → σ → Prop) (E : ε → Prop) (s : σ) :
    wp (get : Txn σ ε σ) Q E s ↔ Q s s := Iff.rfl

@[simp] theorem wp_set (s' : σ) (Q : PUnit → σ → Prop) (E : ε → Prop) (s : σ) :
    wp (set s' : Txn σ ε PUnit) Q E s ↔ Q ⟨⟩ s' := Iff.rfl

@[simp] theorem wp_modify (f : σ → σ) (Q : PUnit → σ → Prop) (E : ε → Prop) (s : σ) :
    wp (modify f : Txn σ ε PUnit) Q E s ↔ Q ⟨⟩ (f s) := Iff.rfl

@[simp] theorem wp_throw (e : ε) (Q : α → σ → Prop) (E : ε → Prop) (s : σ) :
    wp (throw e : Txn σ ε α) Q E s ↔ E e := Iff.rfl

@[simp] theorem wp_require (c : Prop) [Decidable c] (e : ε) (Q : PUnit → σ → Prop)
    (E : ε → Prop) (s : σ) :
    wp (require c e : Txn σ ε PUnit) Q E s ↔ (c → Q ⟨⟩ s) ∧ (¬ c → E e) := by
  by_cases hc : c <;> simp [require, hc]

@[simp] theorem wp_demand (o : Option α) (e : ε) (Q : α → σ → Prop) (E : ε → Prop) (s : σ) :
    wp (demand o e : Txn σ ε α) Q E s ↔ (∀ a, o = some a → Q a s) ∧ (o = none → E e) := by
  cases o <;> simp [demand]

theorem wp_ite {c : Prop} [Decidable c] {m n : Txn σ ε α} (hm : c → wp m Q E s)
    (hn : ¬ c → wp n Q E s) : wp (if c then m else n) Q E s := by
  by_cases hc : c
  · simpa [hc] using hm hc
  · simpa [hc] using hn hc

/-- Loop rule: `J done` holds once the items of `done` have been processed. -/
theorem wp_forM {ι : Type v} {body : ι → Txn σ ε PUnit} (J : List ι → σ → Prop) (xs : List ι)
    (hstep : ∀ done x rest, xs = done ++ x :: rest → ∀ s, J done s →
      wp (body x) (fun _ s' => J (done ++ [x]) s') E s) :
    ∀ s, J [] s → wp (xs.forM body) (fun _ s' => J xs s') E s := by
  suffices hgen : ∀ done rest, xs = done ++ rest → ∀ s, J done s →
      wp (rest.forM body) (fun _ s' => J xs s') E s from
    fun s hs => hgen [] xs rfl s hs
  intro done rest
  induction rest generalizing done with
  | nil =>
    intro hxs s hs
    have heq : xs = done := by simpa using hxs
    subst heq
    exact hs
  | cons x rest ih =>
    intro hxs s hs
    change wp (body x >>= fun _ => rest.forM body) _ E s
    rw [wp_bind]
    refine wp_mono (hstep done x rest hxs s hs) ?_ fun _ he => he
    intro _ s' hs'
    exact ih (done ++ [x]) (by simpa using hxs) s' hs'

theorem wp_forM_inv {ι : Type v} {body : ι → Txn σ ε PUnit} (I : σ → Prop) (xs : List ι)
    (hstep : ∀ x ∈ xs, ∀ s, I s → wp (body x) (fun _ s' => I s') E s) (hs : I s) : wp (xs.forM body) (fun _ s' => I s') E s :=
  wp_forM (fun _ => I) xs (fun done x rest hxs => hstep x (by simp [hxs])) s hs

/-- Every commit of `m` moves the state within `R`. -/
def Within (R : σ → σ → Prop) (m : Txn σ ε α) : Prop :=
  ∀ s, wp m (fun _ s' => R s s') (fun _ => True) s

section Within

variable {R : σ → σ → Prop}

theorem Within.mono {R' : σ → σ → Prop} {m : Txn σ ε α} (h : Within R m)
    (hR : ∀ s s', R s s' → R' s s') : Within R' m :=
  fun s => wp_mono (h s) (fun _ s' => hR s s') fun _ _ => trivial

theorem within_pure (hrefl : ∀ s, R s s) (a : α) : Within R (pure a : Txn σ ε α) :=
  fun s => hrefl s

theorem within_require (hrefl : ∀ s, R s s) (c : Prop) [Decidable c] (e : ε) :
    Within R (require c e : Txn σ ε PUnit) := by
  intro s
  rw [wp_require]
  exact ⟨fun _ => hrefl s, fun _ => trivial⟩

theorem within_demand (hrefl : ∀ s, R s s) (o : Option α) (e : ε) :
    Within R (demand o e : Txn σ ε α) := by
  intro s
  rw [wp_demand]
  exact ⟨fun _ _ => hrefl s, fun _ => trivial⟩

theorem within_modify {f : σ → σ} (h : ∀ s, R s (f s)) : Within R (modify f : Txn σ ε PUnit) :=
  fun s => h s

/-- A continuation that reads the state is checked at the state it reads. -/
theorem within_get_bind {f : σ → Txn σ ε α}
    (h : ∀ s, wp (f s) (fun _ s' => R s s') (fun _ => True) s) :
    Within R (get >>= f : Txn σ ε α) := by
  intro s
  rw [wp_bind]
  exact h s

theorem within_bind (htrans : ∀ {s s' s''}, R s s' → R s' s'' → R s s'')
    {m : Txn σ ε α} {f : α → Txn σ ε β} (hm : Within R m) (hf : ∀ a, Within R (f a)) :
    Within R (m >>= f) := by
  intro s
  rw [wp_bind]
  refine wp_mono (hm s) ?_ fun _ _ => trivial
  intro a s' hs'
  exact wp_mono (hf a s') (fun _ s'' hs'' => htrans hs' hs'') fun _ _ => trivial

/-- Continue from a state already within `R` of the start. -/
theorem Within.from_state (htrans : ∀ {s s' s''}, R s s' → R s' s'' → R s s'')
    {m : Txn σ ε α} (hm : Within R m) {s s' : σ} (hs : R s s') :
    wp m (fun _ s'' => R s s'') (fun _ => True) s' :=
  wp_mono (hm s') (fun _ _ h => htrans hs h) fun _ _ => trivial

theorem within_forM (hrefl : ∀ s, R s s)
    (htrans : ∀ {s s' s''}, R s s' → R s' s'' → R s s'') {ι : Type v}
    {body : ι → Txn σ ε PUnit} (xs : List ι) (h : ∀ x ∈ xs, Within R (body x)) :
    Within R (xs.forM body) := by
  intro s
  refine wp_forM_inv (fun s' => R s s') xs ?_ (hrefl s)
  intro x hx s' hs'
  exact Within.from_state @htrans (h x hx) hs'

end Within

theorem bind_ok {f : α → Txn σ ε β} {s t : σ} {a : α}
    (h : m s = .ok (a, t)) : (m >>= f) s = f a t := by
  simp [bind, StateT.bind, Except.bind, h]

theorem get_bind (f : σ → Txn σ ε α) (s : σ) : (get >>= f) s = f s s := rfl

theorem require_ok {c : Prop} [Decidable c] (h : c) (e : ε) (s : σ) :
    (require c e : Txn σ ε PUnit) s = .ok (⟨⟩, s) := by
  simp [require, h]
  rfl

theorem demand_ok {o : Option α} {a : α} (h : o = some a) (e : ε) (s : σ) :
    (demand o e : Txn σ ε α) s = .ok (a, s) := by
  subst h
  rfl

/-- A loop whose every turn leaves the state alone leaves it alone. -/
theorem forM_unchanged {ι : Type v} {body : ι → Txn σ ε PUnit} {xs : List ι}
    (h : ∀ x ∈ xs, body x s = .ok (⟨⟩, s)) : xs.forM body s = .ok (⟨⟩, s) := by
  induction xs with
  | nil => rfl
  | cons x rest ih =>
    change (body x >>= fun _ => rest.forM body) s = _
    rw [bind_ok (h x List.mem_cons_self)]
    exact ih fun y hy => h y (List.mem_cons_of_mem x hy)

theorem commit_ok {s t : σ} {a : α} (h : m s = .ok (a, t)) : m.commit s = (.ok a, t) := by
  simp [commit, h]

theorem commit_error {e : ε} (h : m s = .error e) : m.commit s = (.error e, s) := by
  simp [commit, h]

theorem ok_of_commit {s t : σ} {a : α} (h : m.commit s = (.ok a, t)) : m s = .ok (a, t) := by
  unfold commit at h
  split at h
  · rename_i a' s' hm
    cases h
    exact hm
  · cases h

/-- What every commit establishes and a rollback keeps holds after running `m`. -/
theorem commit_inv {m : Txn σ ε α} {s : σ} {P : σ → Prop} (hs : P s)
    (h : wp m (fun _ s' => P s') (fun _ => True) s) : P (m.commit s).2 := by
  cases hm : m s with
  | error e => simpa [commit_error hm] using hs
  | ok r => simpa [commit_ok (a := r.1) (t := r.2) hm] using wp_ok h hm

end Txn

end ClockifyAssistant.Lib
