import Mathlib.Data.List.Forall2

/-!
Computations that may fail: what has been computed on the way where one of them has succeeded.
-/
namespace ClockifyAssistant.Lib.Checked

variable {ε α β σ : Type}

theorem bind_eq_ok {m : Except ε α} {f : α → Except ε β} {b : β} :
    (m >>= f) = .ok b ↔ ∃ a, m = .ok a ∧ f a = .ok b := by
  cases m with
  | error e => exact ⟨nofun, fun ⟨_, h, _⟩ => nomatch h⟩
  | ok a => exact ⟨fun h => ⟨a, rfl, h⟩, fun ⟨_, h, h'⟩ => by cases h; exact h'⟩

theorem ok_of_toOption {m : Except ε α} {a : α} (h : m.toOption = some a) : m = .ok a := by
  cases m with
  | error e => cases h
  | ok b =>
    cases h
    rfl

variable {f : σ → α → Except ε σ}

theorem foldlM_nil_eq_ok {s t : σ} : [].foldlM f s = .ok t ↔ s = t := Except.ok.injEq s t ▸ Iff.rfl

variable {xs : List α}

theorem foldlM_cons_eq_ok {x : α} {s t : σ} :
    (x :: xs).foldlM f s = .ok t ↔ ∃ u, f s x = .ok u ∧ xs.foldlM f u = .ok t := by
  rw [List.foldlM_cons, bind_eq_ok]

theorem foldlM_keeps {P : σ → Prop} {s t : σ}
    (hstep : ∀ x ∈ xs, ∀ s t, f s x = .ok t → P s → P t) (h : xs.foldlM f s = .ok t) (hs : P s) :
    P t := by
  induction xs generalizing s with
  | nil => exact foldlM_nil_eq_ok.mp h ▸ hs
  | cons x xs ih =>
    obtain ⟨u, hx, hrest⟩ := foldlM_cons_eq_ok.mp h
    have hu := hstep x List.mem_cons_self s u hx hs
    exact ih (fun y hy => hstep y (List.mem_cons_of_mem x hy)) hrest hu

theorem step_of_foldlM {s t : σ} {x : α}
    (h : xs.foldlM f s = .ok t) (hx : x ∈ xs) : ∃ u v, f u x = .ok v := by
  induction xs generalizing s with
  | nil => cases hx
  | cons y xs ih =>
    obtain ⟨u, hfirst, hrest⟩ := foldlM_cons_eq_ok.mp h
    rcases List.mem_cons.mp hx with rfl | hlater
    · exact ⟨s, u, hfirst⟩
    · exact ih hrest hlater

theorem forM_eq_ok {f : α → Except ε Unit} : xs.forM f = .ok () ↔ ∀ x ∈ xs, f x = .ok () := by
  induction xs with
  | nil => exact ⟨fun _ x hx => absurd hx List.not_mem_nil, fun _ => rfl⟩
  | cons x xs ih =>
    have hcons : (x :: xs).forM f = (f x >>= fun _ => xs.forM f) := rfl
    rw [hcons, bind_eq_ok, List.forall_mem_cons, ← ih]
    exact ⟨fun ⟨_, hx, hrest⟩ => ⟨hx, hrest⟩, fun ⟨hx, hrest⟩ => ⟨(), hx, hrest⟩⟩

theorem forall₂_of_mapM {f : α → Except ε β} {ys : List β}
    (h : xs.mapM f = .ok ys) : List.Forall₂ (fun x y => f x = .ok y) xs ys := by
  induction xs generalizing ys with
  | nil =>
    cases h
    exact .nil
  | cons x xs ih =>
    rw [List.mapM_cons] at h
    obtain ⟨y, hx, hrest⟩ := bind_eq_ok.mp h
    obtain ⟨others, hxs, hys⟩ := bind_eq_ok.mp hrest
    cases hys
    exact .cons hx (ih hxs)

theorem forall₂_left {R : α → β → Prop} {ys : List β} (h : List.Forall₂ R xs ys)
    {x : α} (hx : x ∈ xs) : ∃ y ∈ ys, R x y := by
  induction h with
  | nil => cases hx
  | @cons first other xs ys hfirst hrest ih =>
    rcases List.mem_cons.mp hx with rfl | hlater
    · exact ⟨other, List.mem_cons_self, hfirst⟩
    · obtain ⟨y, hy, hxy⟩ := ih hlater
      exact ⟨y, List.mem_cons_of_mem other hy, hxy⟩

theorem forall₂_right {R : α → β → Prop} {ys : List β} (h : List.Forall₂ R xs ys)
    {y : β} (hy : y ∈ ys) : ∃ x ∈ xs, R x y := forall₂_left h.flip hy

end ClockifyAssistant.Lib.Checked
