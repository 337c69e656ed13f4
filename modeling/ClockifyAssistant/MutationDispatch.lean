import ClockifyAssistant.Rest.MutationPlanScope

/-!
Runs of the plan scope. Whatever the calls of a handler do and however they
interleave, a mutation is issued only in an open step that matches its
descriptor, once, and a primary one only after every earlier primary step was
completed and none failed.
-/
namespace ClockifyAssistant

open Lib

/-- The plan's step at this index is a primary one. -/
def ExternalMutationPlan.PrimaryAt (plan : ExternalMutationPlan) (index : Nat) : Prop :=
  ∃ s, plan.steps[index]? = some s ∧ s.kind = .primary

/-- The last step that began and matches the plan at this index has not ended. -/
def OpenIn (plan : ExternalMutationPlan) (log : List ScopeFact) (index : Nat) : Prop :=
  ∃ before input after s, log = before ++ .begun input :: after ∧
    (∀ i completed, .finished i completed ∉ after) ∧ input.index = index ∧
    plan.steps[index]? = some s ∧ s.id = input.id ∧ s.kind = input.kind

/-- Every earlier primary step was completed, and no primary step failed. -/
structure Cleared (plan : ExternalMutationPlan) (log : List ScopeFact) (index : Nat) : Prop where
  completed : ∀ i, i < index → plan.PrimaryAt i → .finished i true ∈ log
  unfailed : ∀ i, plan.PrimaryAt i → .finished i false ∉ log

/-- What must have come before a fact of the log. -/
def Disciplined (plan : ExternalMutationPlan) (log : List ScopeFact) : ScopeFact → Prop
  | .issued index =>
      .issued index ∉ log ∧ OpenIn plan log index ∧
        (plan.PrimaryAt index → Cleared plan log index ∧
          ∀ i, plan.PrimaryAt i → index < i → .issued i ∉ log)
  | .finished index true => .issued index ∈ log ∧ .denied index ∉ log
  | _ => True

section Moves

/-- What an event may do to a scope, with the fact it logs. -/
inductive ScopeMove (scope : MutationPlanScope) : MutationPlanScope → Option ScopeFact → Prop
  /-- Nothing but possibly a poison. -/
  | idle {scope' fact} (hdescriptors : scope'.descriptors = scope.descriptors)
      (hactive : scope'.active = scope.active)
      (hpoison : scope'.primaryPoison = scope.primaryPoison ∨ scope'.primaryPoison.isSome)
      (hfact : fact = none ∨ ∃ index outcome, fact = some (.answered index outcome)) :
      ScopeMove scope scope' fact
  | opened {scope'} {input d} (hd : scope.descriptors[input.index]? = some d)
      (hmatch : d.step.id = input.id ∧ d.step.kind = input.kind) (hnone : scope.active = none)
      (hclear : input.kind = .primary → scope.primaryPoison = none ∧
        ∀ i d, i < input.index → scope.descriptors[i]? = some d → d.step.kind = .primary →
          d.status = .completed)
      (hscope : scope' = { scope with active := some input.index }) :
      ScopeMove scope scope' (some (.begun input))
  /-- A descriptor fails outside its step's end. -/
  | failed {scope' fact} {index e} (hdescriptors : scope'.descriptors =
        scope.descriptors.modify index (MutationDescriptor.fail e))
      (hactive : scope'.active = scope.active)
      (hpoison : scope'.primaryPoison = scope.primaryPoison ∨ scope'.primaryPoison.isSome)
      (hfact : fact = none ∨ fact = some (.denied index)) : ScopeMove scope scope' fact
  | authorized {scope'} {index} (hscope : scope' =
        scope.update index fun d => { d with authorized := true }) : ScopeMove scope scope' none
  | issued {scope'} {index d} (hd : scope.descriptors[index]? = some d)
      (hactive : scope.active = some index) (hpending : d.status = .pending)
      (hscope : scope' = scope.update index fun d => { d with
        status := .dispatching, authorized := false, networkCalls := d.networkCalls + 1 }) :
      ScopeMove scope scope' (some (.issued index))
  | completed {scope'} {index d} (hd : scope.descriptors[index]? = some d)
      (hactive : scope.active = some index) (hstatus : d.status ≠ .failed)
      (hcalls : d.networkCalls = 1)
      (hscope : scope' = { scope.update index fun d => { d with status := .completed } with
        active := none }) :
      ScopeMove scope scope' (some (.finished index true))
  | stepFailed {scope'} {index d f} (hd : scope.descriptors[index]? = some d)
      (hactive : scope.active = some index)
      (hf : ∀ d : MutationDescriptor, (f d).step = d.step ∧ (f d).networkCalls = d.networkCalls ∧
        (f d).status = .failed)
      (hdescriptors : scope'.descriptors = scope.descriptors.modify index f)
      (hended : scope'.active = none)
      (hpoison : scope'.primaryPoison = scope.primaryPoison ∨ scope'.primaryPoison.isSome)
      (hprimary : d.step.kind = .primary → scope'.primaryPoison.isSome) :
      ScopeMove scope scope' (some (.finished index false))

namespace MutationPlanScope

variable {scope : MutationPlanScope}

@[simp] theorem poison_descriptors (kind : StepKind) (message : String) :
    (scope.poison kind message).descriptors = scope.descriptors := by
  unfold poison
  split <;> rfl

@[simp] theorem poison_active (kind : StepKind) (message : String) :
    (scope.poison kind message).active = scope.active := by
  unfold poison
  split <;> rfl

theorem poison_primaryPoison (kind : StepKind) (message : String) :
    (scope.poison kind message).primaryPoison = scope.primaryPoison ∨
      (scope.poison kind message).primaryPoison.isSome := by
  unfold poison
  split
  · exact .inr rfl
  · exact .inl rfl

theorem poison_primary {kind : StepKind} (message : String) (h : kind = .primary) :
    (scope.poison kind message).primaryPoison.isSome := by
  simp [poison, h]

variable {d : MutationDescriptor}

theorem activeDescriptor_eq_some {index : Nat} (h : scope.activeDescriptor = some (index, d)) :
    scope.active = some index ∧ scope.descriptors[index]? = some d := by
  obtain ⟨i, hactive, hd⟩ := Option.bind_eq_some_iff.mp h
  obtain ⟨d', hd', heq⟩ := Option.map_eq_some_iff.mp hd
  cases heq
  exact ⟨hactive, hd'⟩

theorem move_violate (kind : StepKind) (message : String) :
    ScopeMove scope (scope.violate kind message).2 none :=
  .idle (poison_descriptors _ _) (poison_active _ _) (poison_primaryPoison _ _) (.inl rfl)

theorem move_idle : ScopeMove scope scope none :=
  .idle rfl rfl (.inl rfl) (.inl rfl)

theorem move_excessDispatch (index : Nat) (d : MutationDescriptor) :
    ScopeMove scope (scope.excessDispatch index d).2 none :=
  .failed (poison_descriptors _ _) (poison_active _ _) (poison_primaryPoison _ _) (.inl rfl)

theorem earlierPrimaryInvalid_eq_false {input : PlanStepInput}
    (h : scope.earlierPrimaryInvalid input = false) (hkind : input.kind = .primary) {i : Nat} (hi : i < input.index) (hd : scope.descriptors[i]? = some d)
    (hprimary : d.step.kind = .primary) : d.status = .completed := by
  unfold earlierPrimaryInvalid at h
  rw [List.any_eq_false] at h
  have hmem : d ∈ (scope.descriptors.take input.index).filter fun d => d.step.kind == .primary := by
    refine List.mem_filter.mpr ⟨?_, by simp [hprimary]⟩
    refine List.mem_of_getElem? (i := i) ?_
    rw [List.getElem?_take_of_lt hi]
    exact hd
  simpa [hkind] using h d hmem

theorem move_beginStep (input : PlanStepInput) (eligible : Bool) :
    ScopeMove scope (scope.beginStep input eligible).2
      ((scope.beginStep input eligible).1.toOption.map fun _ => .begun input) := by
  unfold beginStep
  split
  · exact move_idle
  · rename_i hpoison
    split
    · exact move_violate _ _
    · rename_i d hd
      split
      · exact move_violate _ _
      · rename_i hmatch
        split
        · exact move_violate _ _
        · rename_i hfree
          split
          · exact move_violate _ _
          · rename_i hearlier
            split
            · exact move_idle
            · simp only [not_or, ne_eq, not_not, Bool.not_eq_true, Option.isSome_eq_false_iff,
                Option.isNone_iff_eq_none] at hmatch hfree hearlier
              refine .opened hd hmatch hfree.1 (fun hkind => ⟨?_, fun i d' hi hd' hprimary => ?_⟩) rfl
              · simpa [hkind] using hpoison
              · exact earlierPrimaryInvalid_eq_false hearlier hkind hi hd' hprimary

theorem move_authorizeDispatch : ScopeMove scope scope.authorizeDispatch.2 none := by
  unfold authorizeDispatch
  split
  · exact move_idle
  · split
    · exact move_excessDispatch _ _
    · exact move_idle

theorem move_dispatchAnswered (index : Nat) (answer : DispatchAnswer) (aborted : Bool) :
    ScopeMove scope (scope.dispatchAnswered index answer aborted).2
      (if answer.denies && scope.descriptors[index]?.isSome then some (.denied index)
        else none) := by
  unfold dispatchAnswered
  split
  · rename_i hnone
    simpa [hnone] using move_idle
  · rename_i d hd
    cases answer with
    | threw e => exact move_idle
    | denied denial =>
      simp only [DispatchAnswer.denies, hd, Option.isSome_some, Bool.and_self, if_true]
      exact .failed (poison_descriptors _ _) (poison_active _ _) (poison_primaryPoison _ _)
        (.inr rfl)
    | granted =>
      simp only [DispatchAnswer.denies, Bool.false_and, Bool.false_eq_true, if_false]
      split
      · exact move_idle
      · exact .authorized rfl

theorem move_commitDispatch (aborted journaled : Bool) :
    ScopeMove scope (scope.commitDispatch aborted journaled).2
      ((scope.commitDispatch aborted journaled).1.toOption.map .issued) := by
  unfold commitDispatch
  split
  · exact move_idle
  · rename_i index d hactive
    obtain ⟨hactive, hd⟩ := activeDescriptor_eq_some hactive
    split
    · exact move_excessDispatch _ _
    · rename_i hfree
      split
      · exact move_idle
      · split
        · exact .failed (poison_descriptors _ _) (poison_active _ _) (poison_primaryPoison _ _)
            (.inl rfl)
        · simp only [not_or, ne_eq, not_not] at hfree
          exact .issued hd hactive hfree.1 rfl

theorem move_finishStep {index : Nat} (outcome : Except HostError Unit)
    (hactive : scope.active = some index) (hd : scope.descriptors[index]? = some d) :
    ScopeMove scope (scope.finishStep index outcome).2
      (some (.finished index (scope.finishStep index outcome).1.toOption.isSome)) := by
  unfold finishStep
  rw [hd]
  dsimp only
  cases hresult : stepOutcome d outcome with
  | ok =>
    have hsound : d.status ≠ .failed ∧ d.networkCalls = 1 := by
      unfold stepOutcome at hresult
      split at hresult
      · cases hresult
      · split at hresult
        · cases hresult
        · split at hresult
          · cases hresult
          · rename_i hstatus hcalls
            exact ⟨hstatus, by omega⟩
    exact .completed hd hactive hsound.1 hsound.2 rfl
  | error e =>
    refine .stepFailed hd hactive (f := fun d => { d with
      status := .failed, failure := d.failure <|> some e }) (fun _ => ⟨rfl, rfl, rfl⟩) ?_ rfl ?_ ?_
    · exact poison_descriptors _ _
    · exact poison_primaryPoison _ _
    · exact poison_primary _

end MutationPlanScope

theorem ScopeEvent.move {scope : MutationPlanScope} (e : ScopeEvent)
    (hopen : ∀ index, scope.active = some index → ∃ d, scope.descriptors[index]? = some d) :
    ScopeMove scope (e.apply scope).1 (e.apply scope).2 := by
  cases e with
  | beginStep input eligible => exact MutationPlanScope.move_beginStep input eligible
  | authorizeDispatch => exact MutationPlanScope.move_authorizeDispatch
  | dispatchAnswered index answer aborted =>
    exact MutationPlanScope.move_dispatchAnswered index answer aborted
  | commitDispatch aborted journaled => exact MutationPlanScope.move_commitDispatch aborted journaled
  | hostAnswered index response => exact .idle rfl rfl (.inl rfl) (.inr ⟨index, _, rfl⟩)
  | finishStep outcome =>
    unfold apply
    cases hactive : scope.active with
    | none => exact MutationPlanScope.move_idle
    | some index =>
      obtain ⟨d, hd⟩ := hopen index hactive
      exact MutationPlanScope.move_finishStep outcome hactive hd

end Moves

section Invariant

/-- What the scope's state and its log have in common at every point of a run. -/
structure ScopeInv (plan : ExternalMutationPlan) (scope : MutationPlanScope)
    (log : List ScopeFact) : Prop where
  steps : ∀ i : Nat, scope.descriptors[i]?.map MutationDescriptor.step = plan.steps[i]?
  calls : ∀ i d, scope.descriptors[i]? = some d →
    (d.networkCalls = 0 ∧ .issued i ∉ log) ∨ (.issued i ∈ log ∧ d.status ≠ .pending)
  denied : ∀ i d, scope.descriptors[i]? = some d → .denied i ∈ log → d.status = .failed
  completed : ∀ i d, scope.descriptors[i]? = some d → d.status = .completed → .finished i true ∈ log
  ended : ∀ i d, scope.descriptors[i]? = some d → .finished i true ∈ log → d.status ≠ .pending
  poisoned : ∀ i, plan.PrimaryAt i → .finished i false ∈ log → scope.primaryPoison.isSome
  opened : ∀ i, scope.active = some i → OpenIn plan log i ∧ (plan.PrimaryAt i → Cleared plan log i)
  ordered : ∀ i, plan.PrimaryAt i → .issued i ∈ log → ∀ j, plan.PrimaryAt j → j < i →
    .finished j true ∈ log
  disciplined : Always (Disciplined plan) log

variable {plan : ExternalMutationPlan} {scope scope' : MutationPlanScope} {log : List ScopeFact}
  {index : Nat}

theorem OpenIn.concat {fact : ScopeFact} (h : OpenIn plan log index)
    (hfact : ∀ i completed, fact ≠ .finished i completed) : OpenIn plan (log ++ [fact]) index := by
  obtain ⟨before, input, after, s, rfl, hafter, hrest⟩ := h
  refine ⟨before, input, after ++ [fact], s, by simp, fun i completed hmem => ?_, hrest⟩
  rcases List.mem_append.mp hmem with h | h
  · exact hafter i completed h
  · exact hfact i completed (List.mem_singleton.mp h).symm

theorem Cleared.concat {fact : ScopeFact} (h : Cleared plan log index)
    (hfact : ∀ i, fact ≠ .finished i false) : Cleared plan (log ++ [fact]) index where
  completed i hi hprimary := List.mem_append_left _ (h.completed i hi hprimary)
  unfailed i hprimary hmem := by
    rcases List.mem_append.mp hmem with hold | hnew
    · exact h.unfailed i hprimary hold
    · exact hfact i (List.mem_singleton.mp hnew).symm

namespace ScopeInv

variable {d : MutationDescriptor}

theorem plan_step (h : ScopeInv plan scope log)
    (hd : scope.descriptors[index]? = some d) : plan.steps[index]? = some d.step := by
  rw [← h.steps, hd]
  rfl

theorem descriptor (h : ScopeInv plan scope log) {s : MutationPlanStep}
    (hs : plan.steps[index]? = some s) : ∃ d, scope.descriptors[index]? = some d ∧ d.step = s := by
  rw [← h.steps] at hs
  exact Option.map_eq_some_iff.mp hs

theorem active_descriptor (h : ScopeInv plan scope log) (hactive : scope.active = some index) :
    ∃ d, scope.descriptors[index]? = some d := by
  obtain ⟨-, -, -, s, -, -, -, hs, -⟩ := (h.opened index hactive).1
  obtain ⟨d, hd, -⟩ := h.descriptor hs
  exact ⟨d, hd⟩

theorem getElem?_modify_some {α : Type} {xs : List α} {f : α → α} {k i : Nat} {y : α}
    (h : (xs.modify k f)[i]? = some y) :
    (i ≠ k ∧ xs[i]? = some y) ∨ (i = k ∧ ∃ x, xs[i]? = some x ∧ y = f x) := by
  rw [List.getElem?_modify] at h
  obtain ⟨x, hx, rfl⟩ := Option.map_eq_some_iff.mp h
  by_cases hk : k = i
  · exact .inr ⟨hk.symm, x, hx, if_pos hk⟩
  · refine .inl ⟨fun heq => hk heq.symm, ?_⟩
    rw [hx, if_neg hk]

theorem steps_modify {f : MutationDescriptor → MutationDescriptor} (h : ScopeInv plan scope log)
    (hf : ∀ d, (f d).step = d.step) (i : Nat) :
    ((scope.descriptors.modify index f)[i]?).map MutationDescriptor.step = plan.steps[i]? := by
  rw [← h.steps, List.getElem?_modify]
  cases scope.descriptors[i]? with
  | none => rfl
  | some d =>
    by_cases hi : index = i <;> simp [hi, hf]

/-- A write that keeps a descriptor's step and calls, and its status unless it fails. -/
theorem rewritten (h : ScopeInv plan scope log) {f : MutationDescriptor → MutationDescriptor}
    (hf : ∀ d, (f d).step = d.step ∧ (f d).networkCalls = d.networkCalls ∧
      ((f d).status = d.status ∨ (f d).status = .failed))
    (hdescriptors : scope'.descriptors = scope.descriptors.modify index f)
    (hactive : scope'.active = scope.active ∨ scope'.active = none)
    (hpoison : scope'.primaryPoison = scope.primaryPoison ∨ scope'.primaryPoison.isSome) :
    ScopeInv plan scope' log where
  steps i := by
    rw [hdescriptors]
    exact h.steps_modify (fun d => (hf d).1) i
  calls i d hd := by
    rw [hdescriptors] at hd
    rcases getElem?_modify_some hd with ⟨-, hold⟩ | ⟨-, d₀, hold, rfl⟩
    · exact h.calls i d hold
    · obtain ⟨-, hcalls, hstatus⟩ := hf d₀
      rcases h.calls i d₀ hold with ⟨hzero, hnot⟩ | ⟨hissued, hpending⟩
      · exact .inl ⟨hcalls.trans hzero, hnot⟩
      · refine .inr ⟨hissued, ?_⟩
        rcases hstatus with hstatus | hstatus <;> simp [hstatus, hpending]
  denied i d hd hdenied := by
    rw [hdescriptors] at hd
    rcases getElem?_modify_some hd with ⟨-, hold⟩ | ⟨-, d₀, hold, rfl⟩
    · exact h.denied i d hold hdenied
    · rcases (hf d₀).2.2 with hstatus | hstatus
      · exact hstatus.trans (h.denied i d₀ hold hdenied)
      · exact hstatus
  completed i d hd hcompleted := by
    rw [hdescriptors] at hd
    rcases getElem?_modify_some hd with ⟨-, hold⟩ | ⟨-, d₀, hold, rfl⟩
    · exact h.completed i d hold hcompleted
    · rcases (hf d₀).2.2 with hstatus | hstatus
      · exact h.completed i d₀ hold (hstatus.symm.trans hcompleted)
      · exact nomatch hstatus.symm.trans hcompleted
  ended i d hd hended := by
    rw [hdescriptors] at hd
    rcases getElem?_modify_some hd with ⟨-, hold⟩ | ⟨-, d₀, hold, rfl⟩
    · exact h.ended i d hold hended
    · rcases (hf d₀).2.2 with hstatus | hstatus
      · rw [hstatus]
        exact h.ended i d₀ hold hended
      · simp [hstatus]
  poisoned i hprimary hfailed := by
    rcases hpoison with heq | hsome
    · rw [heq]
      exact h.poisoned i hprimary hfailed
    · exact hsome
  opened i hopen := by
    rcases hactive with heq | hnone
    · exact h.opened i (heq.symm.trans hopen)
    · exact nomatch hnone.symm.trans hopen
  ordered := h.ordered
  disciplined := h.disciplined

theorem same (h : ScopeInv plan scope log) (hdescriptors : scope'.descriptors = scope.descriptors)
    (hactive : scope'.active = scope.active)
    (hpoison : scope'.primaryPoison = scope.primaryPoison ∨ scope'.primaryPoison.isSome) :
    ScopeInv plan scope' log :=
  have hdescriptors : scope'.descriptors = scope.descriptors.modify 0 id := by
    rw [hdescriptors, List.modify_id]
  h.rewritten (fun _ => ⟨rfl, rfl, .inl rfl⟩) hdescriptors (.inl hactive) hpoison

theorem closed (h : ScopeInv plan scope log) : ScopeInv plan { scope with active := none } log :=
  { h with opened := fun _ hi => nomatch hi }

/-- An entry that is neither an issue, an end nor a denial leaves the invariant alone. -/
theorem logged {fact : ScopeFact} (h : ScopeInv plan scope log)
    (hissued : ∀ i, fact ≠ .issued i) (hfinished : ∀ i completed, fact ≠ .finished i completed)
    (hdenied : ∀ i d, fact = .denied i → scope.descriptors[i]? = some d → d.status = .failed) :
    ScopeInv plan scope (log ++ [fact]) := by
  have hmem {entry : ScopeFact} (hne : fact ≠ entry) : entry ∈ log ++ [fact] ↔ entry ∈ log := by
    rw [List.mem_append, List.mem_singleton]
    exact ⟨fun hor => hor.resolve_right fun heq => hne heq.symm, .inl⟩
  refine ⟨h.steps, fun i d hd => ?_, fun i d hd hmem' => ?_, fun i d hd hstatus => ?_,
    fun i d hd hended => ?_, fun i hprimary hfailed => ?_, fun i hactive => ?_, ?_, ?_⟩
  · rw [hmem (hissued i)]
    exact h.calls i d hd
  · rcases List.mem_append.mp hmem' with hold | hnew
    · exact h.denied i d hd hold
    · exact hdenied i d (List.mem_singleton.mp hnew).symm hd
  · rw [hmem (hfinished i true)]
    exact h.completed i d hd hstatus
  · exact h.ended i d hd ((hmem (hfinished i true)).mp hended)
  · exact h.poisoned i hprimary ((hmem (hfinished i false)).mp hfailed)
  · obtain ⟨hopen, hcleared⟩ := h.opened i hactive
    exact ⟨hopen.concat hfinished, fun hprimary =>
      (hcleared hprimary).concat fun j => hfinished j false⟩
  · intro i hprimary hi j hj hlt
    rw [hmem (hissued i)] at hi
    rw [hmem (hfinished j true)]
    exact h.ordered i hprimary hi j hj hlt
  · refine h.disciplined.concat ?_
    cases fact with
    | issued i => exact absurd rfl (hissued i)
    | finished i completed => exact absurd rfl (hfinished i completed)
    | begun | denied | answered => trivial

theorem begin_step {input : PlanStepInput} (h : ScopeInv plan scope log)
    (hd : scope.descriptors[input.index]? = some d)
    (hmatch : d.step.id = input.id ∧ d.step.kind = input.kind)
    (hclear : input.kind = .primary → scope.primaryPoison = none ∧
      ∀ i d, i < input.index → scope.descriptors[i]? = some d → d.step.kind = .primary →
        d.status = .completed) (hscope : scope' = { scope with active := some input.index }) :
    ScopeInv plan scope' (log ++ [.begun input]) := by
  have hplan := h.plan_step hd
  subst hscope
  have hlog : ScopeInv plan { scope with active := none } (log ++ [ScopeFact.begun input]) :=
    h.closed.logged (by simp) (by simp) (by simp)
  refine { hlog with opened := fun i hi => ?_ }
  obtain rfl : input.index = i := Option.some.inj hi
  refine ⟨⟨log, input, [], d.step, rfl, by simp, rfl, hplan, hmatch⟩, fun hprimary => ⟨?_, ?_⟩⟩
  · intro i hlt ⟨s, hs, hkind⟩
    obtain ⟨d', hd', rfl⟩ := h.descriptor hs
    obtain ⟨s, hs, hkind'⟩ := hprimary
    obtain rfl : d.step = s := Option.some.inj (hplan.symm.trans hs)
    have hcompleted := (hclear (hmatch.2.symm.trans hkind')).2 i d' hlt hd' hkind
    exact List.mem_append_left _ (h.completed i d' hd' hcompleted)
  · intro i hi hfailed
    obtain ⟨s, hs, hkind⟩ := hprimary
    obtain rfl : d.step = s := Option.some.inj (hplan.symm.trans hs)
    have hpoison := hlog.poisoned i hi hfailed
    have hnone : scope.primaryPoison = none := (hclear (hmatch.2.symm.trans hkind)).1
    simp [hnone] at hpoison

theorem issue (h : ScopeInv plan scope log)
    (hd : scope.descriptors[index]? = some d) (hactive : scope.active = some index)
    (hpending : d.status = .pending)
    (hscope : scope' = scope.update index fun d => { d with
      status := .dispatching, authorized := false, networkCalls := d.networkCalls + 1 }) :
    ScopeInv plan scope' (log ++ [.issued index]) := by
  obtain ⟨hopen, hcleared⟩ := h.opened index hactive
  have hnot : ScopeFact.issued index ∉ log := by
    rcases h.calls index d hd with ⟨-, hnot⟩ | ⟨-, hne⟩
    · exact hnot
    · exact absurd hpending hne
  have hunfinished : ScopeFact.finished index true ∉ log :=
    fun hended => h.ended index d hd hended hpending
  have hlater : plan.PrimaryAt index → ∀ i, plan.PrimaryAt i → index < i →
      ScopeFact.issued i ∉ log :=
    fun hprimary i hi hlt hissued => hunfinished (h.ordered i hi hissued index hprimary hlt)
  have hmem {entry : ScopeFact} (hne : entry ≠ .issued index) :
      entry ∈ log ++ [.issued index] ↔ entry ∈ log := by
    simp [hne]
  subst hscope
  refine ⟨h.steps_modify (by intro d; rfl), fun i d' hd' => ?_, fun i d' hd' hdenied => ?_,
    fun i d' hd' hcompleted => ?_, fun i d' hd' hended => ?_, fun i hprimary hfailed => ?_,
    fun i hi => ?_, fun i hprimary hissued j hj hlt => ?_, ?_⟩
  · rcases getElem?_modify_some hd' with ⟨hne, hold⟩ | ⟨rfl, d₀, -, rfl⟩
    · rw [hmem (by simpa using hne)]
      exact h.calls i d' hold
    · exact .inr ⟨by simp, by simp⟩
  · rw [hmem (by simp)] at hdenied
    rcases getElem?_modify_some hd' with ⟨-, hold⟩ | ⟨rfl, d₀, hold, rfl⟩
    · exact h.denied i d' hold hdenied
    · exact nomatch hpending.symm.trans (h.denied i d hd hdenied)
  · rw [hmem (by simp)]
    rcases getElem?_modify_some hd' with ⟨-, hold⟩ | ⟨-, d₀, -, rfl⟩
    · exact h.completed i d' hold hcompleted
    · cases hcompleted
  · rw [hmem (by simp)] at hended
    rcases getElem?_modify_some hd' with ⟨-, hold⟩ | ⟨rfl, d₀, -, rfl⟩
    · exact h.ended i d' hold hended
    · exact absurd hended hunfinished
  · rw [hmem (by simp)] at hfailed
    exact h.poisoned i hprimary hfailed
  · obtain ⟨hopen', hcleared'⟩ := h.opened i hi
    exact ⟨hopen'.concat (by simp), fun hprimary => (hcleared' hprimary).concat (by simp)⟩
  · rw [hmem (by simp)]
    rcases List.mem_append.mp hissued with hold | hnew
    · exact h.ordered i hprimary hold j hj hlt
    · obtain rfl : i = index := by simpa using hnew
      exact (hcleared hprimary).completed j hlt hj
  · exact h.disciplined.concat ⟨hnot, hopen, fun hprimary => ⟨hcleared hprimary, hlater hprimary⟩⟩

theorem finish {completed : Bool} (h : ScopeInv plan scope log)
    (hclosed : scope.active = none) (hd : scope.descriptors[index]? = some d)
    (htrue : completed = true → d.status ≠ .pending ∧ .issued index ∈ log ∧ .denied index ∉ log)
    (hfalse : completed = false → plan.PrimaryAt index → scope.primaryPoison.isSome) :
    ScopeInv plan scope (log ++ [.finished index completed]) := by
  have hmem {entry : ScopeFact} (hne : entry ≠ .finished index completed) :
      entry ∈ log ++ [.finished index completed] ↔ entry ∈ log := by
    simp [hne]
  refine ⟨h.steps, fun i d' hd' => ?_, fun i d' hd' hdenied => ?_, fun i d' hd' hcompleted => ?_,
    fun i d' hd' hended => ?_, fun i hprimary hfailed => ?_, fun i hi => (nomatch hclosed.symm.trans hi),
    fun i hprimary hissued j hj hlt => ?_, h.disciplined.concat ?_⟩
  · rw [hmem (by simp)]
    exact h.calls i d' hd'
  · exact h.denied i d' hd' ((hmem (by simp)).mp hdenied)
  · exact List.mem_append_left _ (h.completed i d' hd' hcompleted)
  · rcases List.mem_append.mp hended with hold | hnew
    · exact h.ended i d' hd' hold
    · obtain ⟨rfl, hcompleted⟩ : i = index ∧ true = completed := by simpa using hnew
      obtain rfl : d = d' := Option.some.inj (hd.symm.trans hd')
      exact (htrue hcompleted.symm).1
  · rcases List.mem_append.mp hfailed with hold | hnew
    · exact h.poisoned i hprimary hold
    · obtain ⟨rfl, hcompleted⟩ : i = index ∧ false = completed := by simpa using hnew
      exact hfalse hcompleted.symm hprimary
  · exact List.mem_append_left _ (h.ordered i hprimary ((hmem (by simp)).mp hissued) j hj hlt)
  · cases completed with
    | false => trivial
    | true => exact (htrue rfl).2

theorem mark_completed (h : ScopeInv plan scope log) (hissued : .issued index ∈ log)
    (hdenied : .denied index ∉ log) (hfinished : .finished index true ∈ log)
    (hscope : scope' = scope.update index fun d => { d with status := .completed }) :
    ScopeInv plan scope' log := by
  subst hscope
  refine { h with steps := h.steps_modify (by intro d; rfl), calls := fun i d hd => ?_,
                  denied := fun i d hd hmem => ?_, completed := fun i d hd hstatus => ?_,
                  ended := fun i d hd hmem => ?_ }
  · rcases getElem?_modify_some hd with ⟨-, hold⟩ | ⟨rfl, d₀, -, rfl⟩
    · exact h.calls i d hold
    · exact .inr ⟨hissued, by simp⟩
  · rcases getElem?_modify_some hd with ⟨-, hold⟩ | ⟨rfl, d₀, -, rfl⟩
    · exact h.denied i d hold hmem
    · exact absurd hmem hdenied
  · rcases getElem?_modify_some hd with ⟨-, hold⟩ | ⟨rfl, d₀, -, rfl⟩
    · exact h.completed i d hold hstatus
    · exact hfinished
  · rcases getElem?_modify_some hd with ⟨-, hold⟩ | ⟨rfl, d₀, -, rfl⟩
    · exact h.ended i d hold hmem
    · simp

theorem complete (h : ScopeInv plan scope log)
    (hd : scope.descriptors[index]? = some d) (hstatus : d.status ≠ .failed)
    (hcalls : d.networkCalls = 1)
    (hscope : scope' = { scope.update index fun d => { d with status := .completed } with
      active := none }) : ScopeInv plan scope' (log ++ [.finished index true]) := by
  have hissued : ScopeFact.issued index ∈ log ∧ d.status ≠ .pending := by
    rcases h.calls index d hd with ⟨hzero, -⟩ | hissued
    · omega
    · exact hissued
  have hdenied : ScopeFact.denied index ∉ log := fun hmem => hstatus (h.denied index d hd hmem)
  have hfinished : ScopeInv plan { scope with active := none } (log ++ [.finished index true]) :=
    h.closed.finish rfl hd (fun _ => ⟨hissued.2, hissued.1, hdenied⟩) (by simp)
  exact hfinished.mark_completed (List.mem_append_left _ hissued.1) (by simpa using hdenied)
    (by simp) hscope

theorem move (h : ScopeInv plan scope log) {fact : Option ScopeFact}
    (hmove : ScopeMove scope scope' fact) : ScopeInv plan scope' (log ++ fact.toList) := by
  cases hmove with
  | idle hdescriptors hactive hpoison hfact =>
    have hsame := h.same hdescriptors hactive hpoison
    rcases hfact with rfl | ⟨i, outcome, rfl⟩
    · simpa using hsame
    · exact hsame.logged (by simp) (by simp) (by simp)
  | opened hd hmatch _ hclear hscope => exact h.begin_step hd hmatch hclear hscope
  | failed hdescriptors hactive hpoison hfact =>
    rename_i index e
    have hfailed := h.rewritten (f := MutationDescriptor.fail e) (fun d => ⟨rfl, rfl, .inr rfl⟩) hdescriptors
      (.inl hactive) hpoison
    rcases hfact with rfl | rfl
    · simpa using hfailed
    · refine hfailed.logged (by simp) (by simp) fun i d hi hd => ?_
      obtain rfl : index = i := by simpa using hi
      rw [hdescriptors] at hd
      rcases getElem?_modify_some hd with ⟨hne, -⟩ | ⟨-, d₀, -, rfl⟩
      · exact absurd rfl hne
      · rfl
  | authorized hscope =>
    subst hscope
    rename_i index
    have hdescriptors : (scope.update index fun d => { d with authorized := true }).descriptors =
        scope.descriptors.modify index fun d => { d with authorized := true } := rfl
    simpa using h.rewritten (by intro d; exact ⟨rfl, rfl, .inl rfl⟩) hdescriptors (.inl rfl)
      (.inl rfl)
  | issued hd hactive hpending hscope => exact h.issue hd hactive hpending hscope
  | completed hd _ hstatus hcalls hscope => exact h.complete hd hstatus hcalls hscope
  | stepFailed hd hactive hf hdescriptors hended hpoison hprimary =>
    rename_i index d f
    clear hactive
    have hfailed := h.rewritten (fun d => ⟨(hf d).1, (hf d).2.1, .inr (hf d).2.2⟩) hdescriptors
      (.inr hended) hpoison
    have hd' : scope'.descriptors[index]? = some (f d) := by
      rw [hdescriptors, List.getElem?_modify, hd]
      simp
    refine hfailed.finish hended hd' (by simp) fun _ ⟨s, hs, hkind⟩ => hprimary ?_
    obtain rfl : d.step = s := Option.some.inj ((h.plan_step hd).symm.trans hs)
    exact hkind

theorem step {run : ScopeRun} (h : ScopeInv plan run.scope run.log) (e : ScopeEvent) :
    ScopeInv plan (run.step e).scope (run.step e).log :=
  h.move (e.move fun _ hactive => h.active_descriptor hactive)

theorem run (events : List ScopeEvent) (start : ScopeRun)
    (h : ScopeInv plan start.scope start.log) :
    ScopeInv plan (events.foldl ScopeRun.step start).scope
      (events.foldl ScopeRun.step start).log := by
  induction events generalizing start with
  | nil => exact h
  | cons e events ih => exact ih _ (h.step e)

theorem initial (h : openMutationPlanScope plan = .ok scope) : ScopeInv plan scope [] := by
  unfold openMutationPlanScope at h
  split at h
  · cases h
  · split at h
    · cases h
    · obtain rfl := Except.ok.inj h
      refine ⟨fun i => ?_, fun i d hd => ?_, by simp, fun i d hd hstatus => ?_, by simp, by simp,
        by simp, by simp, .nil⟩
      · rw [List.getElem?_map, Option.map_map]
        exact congrFun Option.map_id _
      · obtain ⟨s, -, rfl⟩ := Option.map_eq_some_iff.mp (List.getElem?_map ▸ hd)
        exact .inl ⟨rfl, by simp⟩
      · obtain ⟨s, -, rfl⟩ := Option.map_eq_some_iff.mp (List.getElem?_map ▸ hd)
        cases hstatus

end ScopeInv

end Invariant

section Scopes

theorem MutationPlanScope.close_complete {scope : MutationPlanScope}
    {result : Except HostError Bool}
    {reconciled : String → Option Bool} (h : scope.close result reconciled = .ok true)
    {d : MutationDescriptor} (hd : d ∈ scope.descriptors) (hkind : d.step.kind = .primary) :
    d.status = .completed ∨ reconciled d.step.id = some true := by
  unfold close at h
  split at h
  · cases h
  · rename_i requiresComplete
    split at h
    · split at h
      · cases h
      · rename_i hfind
        have hd' := List.find?_eq_none.mp hfind d hd
        simp only [hkind, beq_self_eq_true, Bool.true_and, Bool.and_eq_true, bne_iff_ne, ne_eq,
          Bool.not_eq_true', not_and, Bool.not_eq_false] at hd'
        by_cases hstatus : d.status = .completed
        · exact .inl hstatus
        · have hreconciled := hd' hstatus
          simp only [reconciledAmbiguous, Bool.and_eq_true, beq_iff_eq] at hreconciled
          exact .inr hreconciled.2
    · rename_i hincomplete
      exact absurd (Except.ok.inj h) hincomplete

/-- Whatever a handler does in a plan scope, the log of the scope is disciplined; and the
scope reports a complete success only if every primary step was completed or proved
settled by its caller. -/
theorem withMutationPlanScope_disciplined (plan : ExternalMutationPlan) (events : List ScopeEvent)
    (result : Except HostError Bool) (reconciled : String → Option Bool) :
    Always (Disciplined plan) (withMutationPlanScope plan events result reconciled).2 ∧
    ((withMutationPlanScope plan events result reconciled).1 = .ok true →
      ∀ index s, plan.steps[index]? = some s → s.kind = .primary →
        .finished index true ∈ (withMutationPlanScope plan events result reconciled).2 ∨
          reconciled s.id = some true) := by
  unfold withMutationPlanScope
  split
  · exact ⟨.nil, nofun⟩
  · rename_i scope hopen
    have h := ScopeInv.run events ⟨scope, []⟩ (ScopeInv.initial hopen)
    refine ⟨h.disciplined, fun hsuccess index s hs hkind => ?_⟩
    obtain ⟨d, hd, rfl⟩ := h.descriptor hs
    rcases MutationPlanScope.close_complete hsuccess (List.mem_of_getElem? hd) hkind with
      hcompleted | hreconciled
    · exact .inl (h.completed index d hd hcompleted)
    · exact .inr hreconciled

def createThenLink : ExternalMutationPlan where
  mode := .curated
  maxHostCalls := 4
  steps := [{ id := "create", kind := .primary }, { id := "link", kind := .primary }]

/-- One step of a plan: its gate, its fetch, the response, and the end of its callback. -/
def stepEvents (id : String) (index : Nat) (response : MutationResponse)
    (outcome : Except HostError Unit) : List ScopeEvent :=
  [.beginStep ⟨id, index, .primary⟩ true, .authorizeDispatch, .dispatchAnswered index .granted false,
    .commitDispatch false true, .hostAnswered index response, .finishStep outcome]

/-- A callback that swallows the host's rejection lets the next primary step be issued. -/
theorem swallowed_rejection_issues_next :
    ¬ Always (fun before fact => ∀ index, fact = .issued index → createThenLink.PrimaryAt index →
        ∀ i, i < index → createThenLink.PrimaryAt i → ∀ e, .answered i (.error e) ∉ before)
      (withMutationPlanScope createThenLink (stepEvents "create" 0 (.answered 400 true) (.ok ()) ++
          stepEvents "link" 1 (.answered 200 true) (.ok ())) (.ok true) fun _ => none).2 := by
  intro h
  have hlog := h [.begun ⟨"create", 0, .primary⟩, .issued 0,
    .answered 0 (.error (.definitiveWrite (some 400))), .finished 0 true,
    .begun ⟨"link", 1, .primary⟩] (.issued 1) [.answered 1 (.ok ()), .finished 1 true]
    (by decide +kernel) 1 rfl ⟨_, rfl, rfl⟩ 0 (by omega) ⟨_, rfl, rfl⟩
    (.definitiveWrite (some 400))
  exact hlog (by simp)

end Scopes

end ClockifyAssistant
