import ClockifyAssistant.Harness.WriteAuthority

/-!
A plan is accepted exactly when it can be cut into the blocks that its rules describe: the search
for the blocks, longest first, finds a cut whenever there is one.
-/
namespace ClockifyAssistant

open Lib

namespace WriteAuthority

variable {rule : StepRule} {rules : List StepRule} {steps : List MutationPlanStep}

/-- The id that the rule gives to the step at place `k` of its block. -/
structure StepRule.Names (rule : StepRule) (k : Nat) (id : String) : Prop where
  family : ∀ stem, rule.id = stem ++ "*" → id = stem ++ toString k
  exact : (∀ stem, rule.id ≠ stem ++ "*") → id = rule.id

structure StepRule.Block (rule : StepRule) (block : List MutationPlanStep) : Prop where
  min_le : rule.min ≤ block.length
  le_max : block.length ≤ rule.max
  kind_eq : ∀ step ∈ block, step.kind = rule.kind
  names : ∀ k (h : k < block.length), rule.Names k block[k].id

theorem getLast?_eq_star_iff {pattern : String} :
    pattern.toList.getLast? = some '*' ↔ ∃ stem, pattern = stem ++ "*" := by
  constructor
  · intro h
    have hlist : pattern.toList = pattern.toList.dropLast ++ ['*'] :=
      (List.dropLast_append_getLast? '*' h).symm
    refine ⟨String.ofList pattern.toList.dropLast, ?_⟩
    apply String.toList_injective
    rw [String.toList_append, String.toList_ofList]
    exact hlist
  · rintro ⟨stem, rfl⟩
    rw [String.toList_append]
    exact List.getLast?_concat

theorem stepIdMatches_iff {id : String} {k : Nat} :
    stepIdMatches rule.id id k = true ↔ rule.Names k id := by
  unfold stepIdMatches
  by_cases hstar : rule.id.toList.getLast? = some '*'
  · obtain ⟨stem, hstem⟩ := getLast?_eq_star_iff.mp hstar
    have hdrop : String.ofList rule.id.toList.dropLast = stem := by
      rw [hstem, String.toList_append]
      change String.ofList (stem.toList ++ ['*']).dropLast = stem
      rw [List.dropLast_concat, String.ofList_toList]
    rw [if_pos hstar, beq_iff_eq, hdrop]
    constructor
    · intro hid
      refine ⟨fun stem' hstem' => ?_, fun hnone => absurd hstem (hnone stem)⟩
      have hsame : stem = stem' := by
        rw [← hdrop, hstem', String.toList_append]
        change String.ofList (stem'.toList ++ ['*']).dropLast = stem'
        rw [List.dropLast_concat, String.ofList_toList]
      rw [hid, hsame]
    · intro hnames
      exact hnames.family stem hstem
  · have hnone : ∀ stem, rule.id ≠ stem ++ "*" := fun stem hstem =>
      hstar (getLast?_eq_star_iff.mpr ⟨stem, hstem⟩)
    rw [if_neg hstar, beq_iff_eq]
    constructor
    · intro hid
      exact ⟨fun stem hstem => absurd hstem (hnone stem), fun _ => hid⟩
    · intro hnames
      exact hnames.exact hnone

/-- The step can stand at place `k` of the rule's block. -/
structure StepRule.Takes (rule : StepRule) (k : Nat) (step : MutationPlanStep) : Prop where
  lt_max : k < rule.max
  kind_eq : step.kind = rule.kind
  names : rule.Names k step.id

theorem matchingSteps_cons {candidate : MutationPlanStep} {matching : Nat} :
    (rule.Takes matching candidate →
      matchingSteps rule matching (candidate :: steps) = matchingSteps rule (matching + 1) steps) ∧
    (¬ rule.Takes matching candidate →
      matchingSteps rule matching (candidate :: steps) = matching) := by
  constructor
  · rintro ⟨hmax, hkind, hnames⟩
    rw [matchingSteps, if_pos ⟨hmax, hkind, stepIdMatches_iff.mpr hnames⟩]
  · intro hnot
    rw [matchingSteps, if_neg]
    rintro ⟨hmax, hkind, hmatches⟩
    exact hnot ⟨hmax, hkind, stepIdMatches_iff.mp hmatches⟩

/-- A prefix can be the rule's block as far as the scan has gone, and no longer one can. -/
theorem le_matchingSteps_iff {matching count : Nat} :
    matching + count ≤ matchingSteps rule matching steps ↔
      count ≤ steps.length ∧ ∀ k (h : k < steps.length), k < count →
        rule.Takes (matching + k) steps[k] := by
  induction steps generalizing matching count with
  | nil =>
    simp only [matchingSteps, List.length_nil]
    constructor
    · intro h
      refine ⟨by omega, fun k hk => by omega⟩
    · intro h
      omega
  | cons candidate rest ih =>
    obtain ⟨htaken, hleft⟩ := @matchingSteps_cons rule rest candidate matching
    cases count with
    | zero =>
      refine ⟨fun _ => ⟨by omega, fun k _ hk => by omega⟩, fun _ => ?_⟩
      by_cases htakes : rule.Takes matching candidate
      · rw [htaken htakes]
        have hle := (@ih (matching + 1) 0).mpr ⟨by omega, fun k _ hk => by omega⟩
        omega
      · rw [hleft htakes]
        omega
    | succ count =>
      by_cases htakes : rule.Takes matching candidate
      · have hshift : matching + (count + 1) = matching + 1 + count := by omega
        rw [htaken htakes, hshift, ih]
        constructor
        · rintro ⟨hlength, htake⟩
          refine ⟨by simp only [List.length_cons]; omega, fun k hk hcount => ?_⟩
          cases k with
          | zero => exact htakes
          | succ k =>
            have hk' : k < rest.length := by
              simp only [List.length_cons] at hk
              omega
            have htail := htake k hk' (by omega)
            have hplace : matching + 1 + k = matching + (k + 1) := by omega
            rw [hplace] at htail
            exact htail
        · rintro ⟨hlength, htake⟩
          simp only [List.length_cons] at hlength
          refine ⟨by omega, fun k hk hcount => ?_⟩
          have hcons := htake (k + 1) (by simp only [List.length_cons]; omega) (by omega)
          have hplace : matching + 1 + k = matching + (k + 1) := by omega
          rw [hplace]
          exact hcons
      · rw [hleft htakes]
        constructor
        · intro h
          omega
        · rintro ⟨-, htake⟩
          exact absurd (htake 0 (by simp) (by omega)) htakes

/-- The counts that the search tries are the lengths of the prefixes that are blocks. -/
theorem block_take_iff {count : Nat} (hcount : count ≤ steps.length) :
    rule.Block (steps.take count) ↔ rule.min ≤ count ∧ count ≤ matchingSteps rule 0 steps := by
  have hlength : (steps.take count).length = count := by
    rw [List.length_take]
    omega
  have hscan := @le_matchingSteps_iff rule steps 0 count
  rw [Nat.zero_add] at hscan
  rw [hscan]
  constructor
  · rintro ⟨hmin, hmax, hkind, hnames⟩
    rw [hlength] at hmin hmax
    refine ⟨hmin, hcount, fun k hk hlt => ?_⟩
    have hk' : k < (steps.take count).length := by omega
    have hget : (steps.take count)[k] = steps[k] := List.getElem_take
    refine ⟨by omega, ?_, ?_⟩
    · rw [← hget]
      exact hkind _ (List.getElem_mem hk')
    · have hname := hnames k hk'
      rw [hget] at hname
      rw [Nat.zero_add]
      exact hname
  · rintro ⟨hmin, -, htake⟩
    refine ⟨by omega, ?_, fun step hstep => ?_, fun k hk => ?_⟩
    · rw [hlength]
      cases count with
      | zero => omega
      | succ count =>
        have hlast := (htake count (by omega) (by omega)).lt_max
        omega
    · obtain ⟨k, hk, rfl⟩ := List.getElem_of_mem hstep
      rw [List.getElem_take]
      exact (htake k (by omega) (by omega)).kind_eq
    · rw [List.getElem_take]
      have hname := (htake k (by omega) (by omega)).names
      rw [Nat.zero_add] at hname
      exact hname

theorem stepsMatch_cons_iff : stepsMatch steps (rule :: rules) = true ↔
      ∃ count ≤ steps.length, rule.Block (steps.take count) ∧
        stepsMatch (steps.drop count) rules = true := by
  rw [stepsMatch]
  simp only [List.any_eq_true, List.mem_reverse, List.mem_range'_1]
  constructor
  · rintro ⟨count, ⟨hmin, hlt⟩, hrest⟩
    have hle : count ≤ matchingSteps rule 0 steps := by omega
    have hlength : count ≤ steps.length := by
      have hscan := (@le_matchingSteps_iff rule steps 0 count).mp (by omega)
      exact hscan.1
    exact ⟨count, hlength, (block_take_iff hlength).mpr ⟨hmin, hle⟩, hrest⟩
  · rintro ⟨count, hlength, hblock, hrest⟩
    obtain ⟨hmin, hle⟩ := (block_take_iff hlength).mp hblock
    exact ⟨count, ⟨hmin, by omega⟩, hrest⟩

/-- The plan is accepted if and only if it is cut by its rules into blocks, one for each rule. -/
theorem stepsMatch_iff_blocks (steps : List MutationPlanStep) (rules : List StepRule) :
    stepsMatch steps rules = true ↔
      ∃ blocks : List (List MutationPlanStep), steps = blocks.flatten ∧
        List.Forall₂ StepRule.Block rules blocks := by
  induction rules generalizing steps with
  | nil =>
    simp only [stepsMatch, List.isEmpty_iff, List.forall₂_nil_left_iff]
    constructor
    · rintro rfl
      exact ⟨[], rfl, rfl⟩
    · rintro ⟨blocks, hsteps, rfl⟩
      exact hsteps
  | cons rule rules ih =>
    rw [stepsMatch_cons_iff]
    constructor
    · rintro ⟨count, hlength, hblock, hrest⟩
      obtain ⟨blocks, hdrop, hblocks⟩ := (ih _).mp hrest
      refine ⟨steps.take count :: blocks, ?_, List.Forall₂.cons hblock hblocks⟩
      rw [List.flatten_cons, ← hdrop, List.take_append_drop]
    · rintro ⟨blocks, hsteps, hblocks⟩
      obtain ⟨block, rest, hblock, hrest, rfl⟩ := List.forall₂_cons_left_iff.mp hblocks
      rw [List.flatten_cons] at hsteps
      have htake : steps.take block.length = block := by rw [hsteps, List.take_left]
      have hdrop : steps.drop block.length = rest.flatten := by rw [hsteps, List.drop_left]
      refine ⟨block.length, by rw [hsteps, List.length_append]; omega, ?_, ?_⟩
      · rw [htake]
        exact hblock
      · rw [hdrop]
        exact (ih _).mpr ⟨rest, rfl, hrest⟩

end WriteAuthority

end ClockifyAssistant
