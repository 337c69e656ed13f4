import ClockifyAssistant.Lib.FallibleProcess

/-!
What a process performs. A log is the operations of one run with the answers they got;
`Performs p log a` holds of every log that the process can leave, whatever it is answered.
-/
namespace ClockifyAssistant.Lib

variable {Op : Type} {Res : Op → Type} {α β : Type}

abbrev Log (Op : Type) (Res : Op → Type) : Type := List (Σ o : Op, Res o)

inductive Performs : Proc Op Res α → Log Op Res → α → Prop
  | ret (a : α) : Performs (.ret a) [] a
  | call {o : Op} {next : Res o → Proc Op Res α} {r : Res o} {log : Log Op Res} {a : α} :
      Performs (next r) log a → Performs (.call o next) (⟨o, r⟩ :: log) a

theorem performs_ret {a b : α} {log : Log Op Res} :
    Performs (.ret a : Proc Op Res α) log b ↔ log = [] ∧ b = a := by
  constructor
  · rintro ⟨⟩
    exact ⟨rfl, rfl⟩
  · rintro ⟨rfl, rfl⟩
    exact .ret _

/-- A process in sequence performs what its parts perform. -/
theorem performs_bind {p : Proc Op Res α} {f : α → Proc Op Res β} {log : Log Op Res} {b : β} :
    Performs (p.bind f) log b ↔
      ∃ first rest a, log = first ++ rest ∧ Performs p first a ∧ Performs (f a) rest b := by
  induction p generalizing log with
  | ret a =>
    constructor
    · intro h
      exact ⟨[], log, a, rfl, .ret a, h⟩
    · rintro ⟨first, rest, a', rfl, hfirst, hrest⟩
      obtain ⟨rfl, rfl⟩ := performs_ret.mp hfirst
      exact hrest
  | call o next ih =>
    constructor
    · intro h
      cases h with
      | call h =>
        obtain ⟨first, rest, a, rfl, hfirst, hrest⟩ := (ih _).mp h
        exact ⟨_, rest, a, rfl, .call hfirst, hrest⟩
    · rintro ⟨first, rest, a, rfl, hfirst, hrest⟩
      cases hfirst with
      | call hfirst => exact .call ((ih _).mpr ⟨_, rest, a, rfl, hfirst, hrest⟩)

namespace Fallible

variable {Val : Op → Type} {ε : Type}

/-- The log of a process that may throw; its answers are values or exceptions. -/
abbrev FallibleLog (Op : Type) (Val : Op → Type) (ε : Type) : Type :=
  Log Op fun o => Except ε (Val o)

/-- The process leaves the log and comes to the value or the exception. -/
def Leaves (m : Fallible Op Val ε α) (log : FallibleLog Op Val ε) (r : Except ε α) : Prop :=
  Performs m.run log r

variable {log : FallibleLog Op Val ε}

theorem leaves_pure {a : α} {r : Except ε α} :
    Leaves (pure a : Fallible Op Val ε α) log r ↔ log = [] ∧ r = .ok a := performs_ret

theorem leaves_throw {e : ε} {r : Except ε α} :
    Leaves (throw e : Fallible Op Val ε α) log r ↔ log = [] ∧ r = .error e := performs_ret

theorem leaves_perform {o : Op} {r : Except ε (Val o)} :
    Leaves (perform o : Fallible Op Val ε (Val o)) log r ↔ log = [⟨o, r⟩] := by
  constructor
  · intro h
    cases h with
    | call h =>
      obtain ⟨rfl, rfl⟩ := performs_ret.mp h
      rfl
  · rintro rfl
    exact .call (.ret r)

variable {m : Fallible Op Val ε α}

/-- Behind an exception nothing more is performed. -/
theorem leaves_bind {f : α → Fallible Op Val ε β} {r : Except ε β} :
    Leaves (m >>= f) log r ↔ (∃ e, Leaves m log (.error e) ∧ r = .error e) ∨
      ∃ first rest a, log = first ++ rest ∧ Leaves m first (.ok a) ∧ Leaves (f a) rest r := by
  constructor
  · intro h
    obtain ⟨first, rest, a, rfl, hfirst, hrest⟩ := performs_bind.mp h
    cases a with
    | error e =>
      obtain ⟨rfl, rfl⟩ := performs_ret.mp hrest
      rw [List.append_nil]
      exact Or.inl ⟨e, hfirst, rfl⟩
    | ok a => exact Or.inr ⟨first, rest, a, rfl, hfirst, hrest⟩
  · rintro (⟨e, hm, rfl⟩ | ⟨first, rest, a, rfl, hm, hf⟩)
    · exact performs_bind.mpr ⟨log, [], _, (List.append_nil _).symm, hm, .ret _⟩
    · exact performs_bind.mpr ⟨first, rest, _, rfl, hm, hf⟩

theorem leaves_tryCatch {f : ε → Fallible Op Val ε α} {r : Except ε α} :
    Leaves (tryCatch m f) log r ↔ (∃ a, Leaves m log (.ok a) ∧ r = .ok a) ∨
      ∃ first rest e, log = first ++ rest ∧ Leaves m first (.error e) ∧ Leaves (f e) rest r := by
  constructor
  · intro h
    obtain ⟨first, rest, a, rfl, hfirst, hrest⟩ := performs_bind.mp h
    cases a with
    | ok a =>
      obtain ⟨rfl, rfl⟩ := performs_ret.mp hrest
      rw [List.append_nil]
      exact Or.inl ⟨a, hfirst, rfl⟩
    | error e => exact Or.inr ⟨first, rest, e, rfl, hfirst, hrest⟩
  · rintro (⟨a, hm, rfl⟩ | ⟨first, rest, e, rfl, hm, hf⟩)
    · exact performs_bind.mpr ⟨log, [], _, (List.append_nil _).symm, hm, .ret _⟩
    · exact performs_bind.mpr ⟨first, rest, _, rfl, hm, hf⟩

theorem leaves_map {f : α → β} {r : Except ε β} :
    Leaves (f <$> m) log r ↔ ∃ r', Leaves m log r' ∧ r = r'.map f := by
  constructor
  · intro h
    obtain ⟨first, rest, a, rfl, hfirst, hrest⟩ := performs_bind.mp h
    obtain ⟨rfl, rfl⟩ : rest = [] ∧ r = a.map f := by
      cases a <;> exact performs_ret.mp hrest
    rw [List.append_nil]
    exact ⟨a, hfirst, rfl⟩
  · rintro ⟨r', hm, rfl⟩
    refine performs_bind.mpr ⟨log, [], r', (List.append_nil _).symm, hm, ?_⟩
    cases r' <;> exact .ret _

theorem leaves_caught {r : Except ε (Except ε α)} :
    Leaves (caught m) log r ↔ ∃ r', Leaves m log r' ∧ r = .ok r' := by
  unfold caught
  constructor
  · intro h
    rcases leaves_tryCatch.mp h with ⟨a, hm, rfl⟩ | ⟨first, rest, e, rfl, hm, hf⟩
    · obtain ⟨r', hm, hr'⟩ := leaves_map.mp hm
      cases r' with
      | ok b =>
        injection hr' with hr'
        exact ⟨.ok b, hm, congrArg Except.ok hr'⟩
      | error e => cases hr'
    · obtain ⟨r', hm, hr'⟩ := leaves_map.mp hm
      obtain ⟨rfl, rfl⟩ := leaves_pure.mp hf
      cases r' with
      | ok b => cases hr'
      | error e' =>
        injection hr' with hr'
        rw [List.append_nil, hr']
        exact ⟨.error e', hm, rfl⟩
  · rintro ⟨r', hm, rfl⟩
    refine leaves_tryCatch.mpr ?_
    cases r' with
    | ok a => exact Or.inl ⟨.ok a, leaves_map.mpr ⟨.ok a, hm, rfl⟩, rfl⟩
    | error e =>
      exact Or.inr ⟨log, [], e, (List.append_nil _).symm, leaves_map.mpr ⟨.error e, hm, rfl⟩,
        leaves_pure.mpr ⟨rfl, rfl⟩⟩

end Fallible

end ClockifyAssistant.Lib
