import ClockifyAssistant.Refinement.Confirmations
import ClockifyAssistant.Store.Runs

/-!
Run rows and run events are invisible to the lifecycle: a transaction that
writes only those leaves the core as it was.
-/
namespace ClockifyAssistant

open Lib Txn Lifecycle

def SameCore (db db' : Db) : Prop := db'.core = db.core

/-- Every commit leaves the lifecycle as it was. -/
abbrev Untouched {α : Type} (m : StoreTxn α) : Prop := Within SameCore m

theorem SameCore.refl (db : Db) : SameCore db db := rfl

theorem SameCore.trans {db db' db'' : Db} (h : SameCore db db') (h' : SameCore db' db'') :
    SameCore db db'' :=
  Eq.trans h' h

section Rules

variable {α β : Type} {π : Policy} {base : Nat}

theorem Untouched.refines {m : StoreTxn α} (h : Untouched m) : Refines π base m :=
  h.mono fun _ _ => Steps.of_core_eq

theorem untouched_pure (a : α) : Untouched (pure a) := within_pure SameCore.refl a

theorem untouched_bind {m : StoreTxn α} {f : α → StoreTxn β} (hm : Untouched m)
    (hf : ∀ a, Untouched (f a)) : Untouched (m >>= f) :=
  within_bind (R := SameCore) SameCore.trans hm hf

theorem untouched_require (c : Prop) [Decidable c] (e : StoreError) : Untouched (require c e) :=
  within_require SameCore.refl c e

theorem untouched_forM {ι : Type} {body : ι → StoreTxn PUnit} (xs : List ι)
    (h : ∀ x ∈ xs, Untouched (body x)) : Untouched (xs.forM body) :=
  within_forM SameCore.refl SameCore.trans xs h

end Rules

section Runs

variable {now : Time}

theorem untouched_allocateAndInsertEvent {scope : SessionScope} {runId : RunId}
    {payload : RunEventPayload} : Untouched (allocateAndInsertEvent scope runId payload now) := by
  refine within_get_bind fun db => ?_
  dsimp only
  rw [wp_bind, wp_require]
  refine ⟨fun _ => ?_, fun _ => trivial⟩
  split
  · rfl
  · trivial

end Runs

end ClockifyAssistant
