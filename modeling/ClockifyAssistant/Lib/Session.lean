/-!
Programs over a state that keep what they did when they throw: each call they
make has committed on its own. `Session.wp` is the weakest precondition, with a
postcondition for a value and one for an exception, both of the state reached.
-/
namespace ClockifyAssistant.Lib

universe u

abbrev Session (σ ε α : Type u) : Type u := ExceptT ε (StateM σ) α

namespace Session

variable {σ ε α β : Type u}

def exec (m : Session σ ε α) (s : σ) : Except ε α × σ := m.run.run s

def wp (m : Session σ ε α) (Q : α → σ → Prop) (E : ε → σ → Prop) (s : σ) : Prop :=
  match m.exec s with
  | (.ok a, s') => Q a s'
  | (.error e, s') => E e s'

variable {Q Q' : α → σ → Prop} {E E' : ε → σ → Prop} {s : σ}

variable {m : Session σ ε α}

theorem wp_mono (h : wp m Q E s) (hQ : ∀ a s', Q a s' → Q' a s')
    (hE : ∀ e s', E e s' → E' e s') : wp m Q' E' s := by
  unfold wp at h ⊢
  rcases hm : m.exec s with ⟨r, s'⟩
  rw [hm] at h
  cases r with
  | ok a => exact hQ a s' h
  | error e => exact hE e s' h

theorem wp_ok {a : α} {t : σ} (h : wp m Q E s) (hm : m.exec s = (.ok a, t)) : Q a t := by
  simpa [wp, hm] using h

theorem wp_error {e : ε} {t : σ} (h : wp m Q E s) (hm : m.exec s = (.error e, t)) : E e t := by
  simpa [wp, hm] using h

@[simp] theorem wp_pure (a : α) : wp (pure a : Session σ ε α) Q E s ↔ Q a s := Iff.rfl

@[simp] theorem wp_throw (e : ε) : wp (throw e : Session σ ε α) Q E s ↔ E e s := Iff.rfl

@[simp] theorem wp_get {P : σ → σ → Prop} {E : ε → σ → Prop} :
    wp (get : Session σ ε σ) P E s ↔ P s s := Iff.rfl

@[simp] theorem wp_modify (f : σ → σ) {P : PUnit → σ → Prop} {E : ε → σ → Prop} :
    wp (modify f : Session σ ε PUnit) P E s ↔ P ⟨⟩ (f s) := Iff.rfl

@[simp] theorem wp_set (t : σ) {P : PUnit → σ → Prop} {E : ε → σ → Prop} :
    wp (set t : Session σ ε PUnit) P E s ↔ P ⟨⟩ t := Iff.rfl

@[simp] theorem wp_bind (m : Session σ ε α) (f : α → Session σ ε β) {P : β → σ → Prop} :
    wp (m >>= f) P E s ↔ wp m (fun a s' => wp (f a) P E s') E s := by
  have hexec : (m >>= f).exec s =
      match m.exec s with
      | (.ok a, s') => (f a).exec s'
      | (.error e, s') => (.error e, s') := by
    change ((m.run >>= fun r => ExceptT.bindCont f r).run s) = _
    change (match m.run.run s with
      | (r, s') => (ExceptT.bindCont f r).run s') = _
    rcases hm : m.run.run s with ⟨r, s'⟩
    cases r <;> simp [exec, hm, ExceptT.bindCont] <;> rfl
  unfold wp
  rw [hexec]
  rcases m.exec s with ⟨r, s'⟩
  cases r <;> rfl

@[simp] theorem wp_tryCatch (m : Session σ ε α) (h : ε → Session σ ε α) :
    wp (tryCatch m h) Q E s ↔ wp m Q (fun e s' => wp (h e) Q E s') s := by
  have hexec : (tryCatch m h : Session σ ε α).exec s =
      match m.exec s with
      | (.ok a, s') => (.ok a, s')
      | (.error e, s') => (h e).exec s' := by
    change (ExceptT.tryCatch m h).run.run s = _
    simp only [ExceptT.tryCatch, exec, ExceptT.run_mk, StateT.run_bind]
    have hrun : StateT.run (m := Id) (σ := σ) m s = m.run.run s := rfl
    rw [hrun]
    rcases m.run.run s with ⟨r, s'⟩
    cases r <;> rfl
  unfold wp
  rw [hexec]
  rcases m.exec s with ⟨r, s'⟩
  cases r <;> rfl

/-- Sequencing through a specification of the first program. -/
theorem wp_seq {f : α → Session σ ε β} {P : β → σ → Prop}
    (hm : wp m Q E s) (hf : ∀ a s', Q a s' → wp (f a) P E s') : wp (m >>= f) P E s :=
  (wp_bind m f).mpr (wp_mono hm hf fun _ _ he => he)

theorem wp_ite {c : Prop} [Decidable c] {m n : Session σ ε α} (hm : c → wp m Q E s)
    (hn : ¬ c → wp n Q E s) : wp (if c then m else n) Q E s := by
  by_cases h : c
  · rw [if_pos h]
    exact hm h
  · rw [if_neg h]
    exact hn h

theorem exists_exec_of_wp (h : wp m Q (fun _ _ => False) s) :
    ∃ a s', m.exec s = (.ok a, s') ∧ Q a s' := by
  unfold wp at h
  rcases hm : m.exec s with ⟨r, s'⟩
  rw [hm] at h
  cases r with
  | ok a => exact ⟨a, s', rfl, h⟩
  | error e => exact h.elim

end Session

end ClockifyAssistant.Lib
