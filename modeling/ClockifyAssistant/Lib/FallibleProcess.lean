import ClockifyAssistant.Lib.RelyGuarantee

/-!
Processes that may throw. `SafeE` is `Safe` with a second postcondition for
exceptions; a `Free` process needs nothing of the world it runs in and promises
nothing about it.
-/
namespace ClockifyAssistant.Lib

variable {Op : Type} {Val : Op → Type} {ε α β : Type}

abbrev Fallible (Op : Type) (Val : Op → Type) (ε α : Type) : Type :=
  ExceptT ε (Proc Op fun o => Except ε (Val o)) α

namespace Fallible

def perform (o : Op) : Fallible Op Val ε (Val o) := ExceptT.mk (Proc.perform o)

variable {M : Server Op fun o => Except ε (Val o)} {S : Spec M}

/-- A value meets the first postcondition, an exception the second. -/
def Meets (Q : α → M.World → Prop) (E : ε → M.World → Prop) (r : Except ε α) (w : M.World) : Prop :=
  match r with
  | .ok a => Q a w
  | .error e => E e w

variable (S) in
def SafeE (m : Fallible Op Val ε α) (Q : α → M.World → Prop) (E : ε → M.World → Prop)
    (w : M.World) : Prop :=
  Safe S m.run (Meets Q E) w

variable {Q Q' : α → M.World → Prop} {E E' : ε → M.World → Prop} {w : M.World}

variable {m : Fallible Op Val ε α}

theorem SafeE.mono (h : SafeE S m Q E w)
    (hQ : ∀ a w, Q a w → Q' a w) (hE : ∀ e w, E e w → E' e w) : SafeE S m Q' E' w := by
  refine Safe.mono (fun r w hr => ?_) h
  cases r with
  | ok a => exact hQ a w hr
  | error e => exact hE e w hr

theorem SafeE.weaken (h : SafeE S m Q E w) (hQ : ∀ a w, Q a w → Q' a w) : SafeE S m Q' E w :=
  h.mono hQ fun _ _ he => he

theorem SafeE.rethrow (h : SafeE S m Q E w) (hE : ∀ e w, E e w → E' e w) : SafeE S m Q E' w :=
  h.mono (fun _ _ hq => hq) hE

theorem safeE_pure {a : α} (h : Q a w) : SafeE S (pure a : Fallible Op Val ε α) Q E w := h

theorem safeE_throw {e : ε} (h : E e w) : SafeE S (throw e : Fallible Op Val ε α) Q E w := h

variable {f : α → Fallible Op Val ε β}

theorem safeE_bind {P : β → M.World → Prop} (hm : SafeE S m Q E w)
    (hf : ∀ a w, Q a w → SafeE S (f a) P E w) : SafeE S (m >>= f) P E w := by
  refine (safe_bind m.run _ _ w).mpr (Safe.mono (fun r w hr => ?_) hm)
  cases r with
  | ok a => exact hf a w hr
  | error e => exact hr

theorem safeE_tryCatch {f : ε → Fallible Op Val ε α}
    (hm : SafeE S m Q E w) (hf : ∀ e w, E e w → SafeE S (f e) Q E' w) :
    SafeE S (tryCatch m f) Q E' w := by
  refine (safe_bind m.run _ _ w).mpr (Safe.mono (fun r w hr => ?_) hm)
  cases r with
  | ok a => exact hr
  | error e => exact hf e w hr

/-- A process with its exception, for a `catch` that goes on. -/
def caught (m : Fallible Op Val ε α) : Fallible Op Val ε (Except ε α) :=
  tryCatch (Except.ok <$> m) fun e => return .error e

/-- `try … finally`: what the process comes to, once the second one has run. -/
def ensuring (m : Fallible Op Val ε α) (final : Fallible Op Val ε Unit) : Fallible Op Val ε α := do
  let r ← caught m
  final
  match r with
  | .ok a => return a
  | .error e => throw e

theorem safeE_map {f : α → β} {P : β → M.World → Prop}
    (h : SafeE S m (fun a => P (f a)) E w) : SafeE S (f <$> m) P E w := by
  refine (safe_bind m.run _ _ w).mpr (Safe.mono (fun r w hr => ?_) h)
  cases r with
  | ok a => exact hr
  | error e => exact hr

theorem safeE_caught (h : SafeE S m Q E w) : SafeE S (caught m) (Meets Q E) E' w := by
  refine safeE_tryCatch (E := E) (safeE_map h) fun e w' he => ?_
  exact safeE_pure he

theorem safeE_ensuring {final : Fallible Op Val ε Unit} (hm : SafeE S m Q E w)
    (hok : ∀ a w, Q a w → SafeE S final (fun _ => Q' a) E' w)
    (herr : ∀ e w, E e w → SafeE S final (fun _ => E' e) E' w) :
    SafeE S (ensuring m final) Q' E' w := by
  refine safeE_bind (safeE_caught hm) fun r w' hr => ?_
  cases r with
  | ok a => exact safeE_bind (hok a w' hr) fun _ w'' h => safeE_pure h
  | error e => exact safeE_bind (herr e w' hr) fun _ w'' h => safeE_throw h

/-- An operation that does not suspend runs where its process stands. -/
theorem safeE_perform {o : Op} {Q : Val o → M.World → Prop} (ho : M.suspends o = false)
    (hpre : S.Pre o w)
    (h : ∀ env, S.Allowed o env w → Meets Q E (M.exec o env w).1 (M.exec o env w).2) :
    SafeE S (perform o) Q E w :=
  safe_call o .ret _ ho hpre h

theorem safeE_perform_any {o : Op} (ho : M.suspends o = false) (hpre : S.Pre o w) :
    SafeE S (perform o) (fun _ _ => True) (fun _ _ => True) w := by
  refine safeE_perform ho hpre fun env _ => ?_
  cases (M.exec o env w).1 <;> trivial

/-- An awaited operation runs in whatever world the others have left. -/
theorem safeE_await {o : Op} {Q : Val o → M.World → Prop} (ho : M.suspends o = true)
    (h : ∀ w', S.Inv w' → S.Rely w w' → S.Pre o w' ∧
      ∀ env, S.Allowed o env w' → Meets Q E (M.exec o env w').1 (M.exec o env w').2) :
    SafeE S (perform o) Q E w :=
  safe_await o .ret _ ho h

variable (S) in
def Free (m : Fallible Op Val ε α) : Prop :=
  ∀ w, SafeE S m (fun _ _ => True) (fun _ _ => True) w

theorem free_pure (a : α) : Free S (pure a : Fallible Op Val ε α) := fun _ => trivial

theorem free_throw (e : ε) : Free S (throw e : Fallible Op Val ε α) := fun _ => trivial

theorem free_bind (hm : Free S m) (hf : ∀ a, Free S (f a)) : Free S (m >>= f) :=
  fun w => safeE_bind (hm w) fun a w _ => hf a w

theorem free_map {f : α → β} (hm : Free S m) : Free S (f <$> m) := by
  intro w
  refine (safe_bind m.run _ _ w).mpr (Safe.mono (fun r w _ => ?_) (hm w))
  cases r <;> trivial

theorem free_tryCatch {f : ε → Fallible Op Val ε α} (hm : Free S m)
    (hf : ∀ e, Free S (f e)) : Free S (tryCatch m f) :=
  fun w => safeE_tryCatch (hm w) fun e w _ => hf e w

theorem free_perform {o : Op} (hpre : ∀ w, S.Pre o w) : Free S (perform o) := by
  intro w w' _
  refine ⟨hpre w', fun env _ => ?_⟩
  change Meets _ _ _ _
  cases (M.exec o env w').1 <;> trivial

variable (S) in
/-- `P` survives the process, whether it returns or throws, and what it returns has `V`. -/
def Yields (P : M.World → Prop) (V : α → Prop) (m : Fallible Op Val ε α) : Prop :=
  ∀ w, P w → SafeE S m (fun a w' => V a ∧ P w') (fun _ => P) w

variable {P : M.World → Prop} {V : α → Prop} {W : β → Prop}

theorem yields_pure {a : α} (ha : V a) : Yields S P V (pure a : Fallible Op Val ε α) :=
  fun _ h => safeE_pure ⟨ha, h⟩

theorem yields_throw (e : ε) : Yields S P V (throw e : Fallible Op Val ε α) :=
  fun _ h => safeE_throw h

theorem yields_bind
    (hm : Yields S P V m) (hf : ∀ a, V a → Yields S P W (f a)) : Yields S P W (m >>= f) :=
  fun w h => safeE_bind (hm w h) fun a w' h' => hf a h'.1 w' h'.2

end Fallible

end ClockifyAssistant.Lib
