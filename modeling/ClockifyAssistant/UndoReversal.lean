import ClockifyAssistant.Lib.Performed
import ClockifyAssistant.Routes.LeasedRequests

/-!
The steps that an undo issues and what it reports of them, for every log that
`reverseCreationDurably` can leave.
-/
namespace ClockifyAssistant.TurnMachinery

open Lib Fallible

/-- A step that was issued, and its answer. -/
abbrev IssuedStep : Type := UndoPlanStep × Except TurnError UndoStep

abbrev TurnLog : Type := FallibleLog TurnOp TurnOp.Val TurnError

def issuedStep : (Σ o : TurnOp, Except TurnError o.Val) → Option IssuedStep
  | ⟨.undoStep _ spec, answer⟩ => some (spec, answer)
  | _ => none

def issuedSteps (log : TurnLog) : List IssuedStep := log.filterMap issuedStep

theorem issuedSteps_append (first rest : TurnLog) :
    issuedSteps (first ++ rest) = issuedSteps first ++ issuedSteps rest :=
  List.filterMap_append

namespace IssuedStep

/-- The step is known to have taken effect. -/
def Succeeded (x : IssuedStep) : Prop := ∃ step, x.2 = .ok step ∧ step.status = .succeeded

def Unknown (x : IssuedStep) : Prop := ∃ step, x.2 = .ok step ∧ step.status = .outcomeUnknown

/-- It took effect, and the journal has settled it. -/
def Clean (x : IssuedStep) : Prop :=
  ∃ step, x.2 = .ok step ∧ step.status = .succeeded ∧ step.journalDegraded = false

def DegradedTransition (x : IssuedStep) : Prop :=
  x.1.transition = true ∧
    ∃ step, x.2 = .ok step ∧ step.status = .succeeded ∧ step.journalDegraded = true

def effect (transition : Bool) (x : IssuedStep) : Option EntityRef :=
  match x.2 with
  | .ok step =>
      if x.1.transition = transition ∧ step.status = .succeeded then some x.1.ref else none
  | .error _ => none

theorem Clean.succeeded {x : IssuedStep} (h : x.Clean) : x.Succeeded := by
  obtain ⟨step, hanswer, hstatus, -⟩ := h
  exact ⟨step, hanswer, hstatus⟩

theorem effect_eq_some {transition : Bool} {x : IssuedStep} {ref : EntityRef} :
    x.effect transition = some ref ↔ x.1.transition = transition ∧ x.Succeeded ∧ x.1.ref = ref := by
  obtain ⟨spec, answer⟩ := x
  cases answer with
  | error e =>
    constructor
    · nofun
    · rintro ⟨-, ⟨step, hanswer, -⟩, -⟩
      cases hanswer
  | ok step =>
    unfold effect
    constructor
    · intro h
      dsimp only at h
      split at h
      · rename_i hboth
        injection h with h
        exact ⟨hboth.1, ⟨step, rfl, hboth.2⟩, h⟩
      · cases h
    · rintro ⟨hkind, ⟨step', hanswer, hstatus⟩, href⟩
      injection hanswer with hanswer
      dsimp only
      rw [if_pos ⟨hkind, hanswer ▸ hstatus⟩, ← href]

end IssuedStep

/-- The references of the deletions, or of the transitions, that took effect. -/
def effects (transition : Bool) (issued : List IssuedStep) : List EntityRef :=
  issued.filterMap (IssuedStep.effect transition)

def lastAnswer (issued : List IssuedStep) : Option UndoStep :=
  issued.getLast?.bind fun x => x.2.toOption

def EntityRef.Same (a b : EntityRef) : Prop := a.type = b.type ∧ a.id = b.id

variable {ref : EntityRef}

theorem EntityRef.among_iff {refs : List EntityRef} :
    ref.among refs = true ↔ ∃ other ∈ refs, other.Same ref := by
  unfold EntityRef.among EntityRef.Same
  rw [List.any_eq_true]
  refine exists_congr fun other => and_congr_right fun _ => ?_
  rw [Bool.and_eq_true, beq_iff_eq, beq_iff_eq]

/-- One run over the steps of a plan: what it issues, and where it ends. -/
inductive Reverses : List UndoPlanStep → UndoProgress → List IssuedStep →
    Except TurnError UndoProgress → Prop
  | done (p : UndoProgress) : Reverses [] p [] (.ok p)
  | unprepared (spec : UndoPlanStep) (rest : List UndoPlanStep) (p : UndoProgress)
      (message : String) :
      Reverses (spec :: rest) p [] (.ok { p with preparationFailure := some message })
  | thrown (spec : UndoPlanStep) (rest : List UndoPlanStep) (p : UndoProgress) (e : TurnError) :
      Reverses (spec :: rest) p [(spec, .error e)] (.error e)
  | stopped (spec : UndoPlanStep) (rest : List UndoPlanStep) (p : UndoProgress) (step : UndoStep)
      (h : ¬ IssuedStep.Clean (spec, .ok step)) :
      Reverses (spec :: rest) p [(spec, .ok step)] (.ok (p.reached spec step))
  | next {spec : UndoPlanStep} {rest : List UndoPlanStep} {p : UndoProgress} {step : UndoStep}
      {issued : List IssuedStep} {r : Except TurnError UndoProgress}
      (h : IssuedStep.Clean (spec, .ok step)) (hrest : Reverses rest (p.reached spec step) issued r) :
      Reverses (spec :: rest) p ((spec, .ok step) :: issued) r

variable {spec : UndoPlanStep}

theorem clean_iff {step : UndoStep} : IssuedStep.Clean (spec, .ok step) ↔
      (decide (step.status = .succeeded) && !step.journalDegraded) = true := by
  rw [Bool.and_eq_true, decide_eq_true_eq, Bool.not_eq_true']
  constructor
  · rintro ⟨step', hanswer, hclean⟩
    injection hanswer with hanswer
    rw [hanswer]
    exact hclean
  · intro hclean
    exact ⟨step, rfl, hclean⟩

theorem leaves_bestEffort {α : Type} {m : Turn α} {log : TurnLog} {r : Except TurnError (Option α)}
    (h : Leaves (bestEffort m) log r) : ∃ r', Leaves m log r' ∧ r = .ok r'.toOption := by
  unfold bestEffort at h
  rcases leaves_tryCatch.mp h with ⟨a, hm, rfl⟩ | ⟨first, rest, e, rfl, hm, hf⟩
  · obtain ⟨r', hm, hr'⟩ := leaves_map.mp hm
    cases r' with
    | ok b =>
      injection hr' with hr'
      exact ⟨.ok b, hm, by rw [hr']; rfl⟩
    | error e => cases hr'
  · obtain ⟨r', hm, hr'⟩ := leaves_map.mp hm
    obtain ⟨rfl, rfl⟩ := leaves_pure.mp hf
    cases r' with
    | ok b => cases hr'
    | error e' =>
      rw [List.append_nil]
      exact ⟨.error e', hm, rfl⟩

theorem leaves_prepareUndoStep {log : TurnLog}
    {r : Except TurnError Bool} (h : Leaves (prepareUndoStep spec) log r) :
    issuedSteps log = [] ∧ ∃ ready, r = .ok ready := by
  unfold prepareUndoStep at h
  split at h
  · rcases leaves_bind.mp h with ⟨e, hm, rfl⟩ | ⟨first, rest, a, rfl, hm, hf⟩
    · obtain ⟨r', -, hr'⟩ := leaves_bestEffort hm
      cases hr'
    · obtain ⟨r', hm, -⟩ := leaves_bestEffort hm
      obtain ⟨rfl, rfl⟩ := leaves_pure.mp hf
      obtain rfl := leaves_perform.mp hm
      exact ⟨rfl, _, rfl⟩
  · obtain ⟨rfl, rfl⟩ := leaves_pure.mp h
    exact ⟨rfl, true, rfl⟩

theorem reverses_of_leaves {lease : Nat} {steps : List UndoPlanStep} {p : UndoProgress}
    {log : TurnLog} {r : Except TurnError UndoProgress}
    (h : Leaves (reverseSteps lease steps p) log r) : Reverses steps p (issuedSteps log) r := by
  induction steps generalizing p log with
  | nil =>
    obtain ⟨rfl, rfl⟩ := leaves_pure.mp h
    exact .done p
  | cons spec rest ih =>
    unfold reverseSteps at h
    rcases leaves_bind.mp h with ⟨e, hm, rfl⟩ | ⟨first, later, ready, rfl, hm, hgo⟩
    · obtain ⟨-, ready, hr⟩ := leaves_prepareUndoStep hm
      cases hr
    · have hquiet := (leaves_prepareUndoStep hm).1
      rw [issuedSteps_append, hquiet, List.nil_append]
      cases ready with
      | false =>
        rw [if_neg Bool.false_ne_true] at hgo
        obtain ⟨rfl, rfl⟩ := leaves_pure.mp hgo
        exact .unprepared spec rest p _
      | true =>
        rw [if_pos rfl] at hgo
        rcases leaves_bind.mp hgo with ⟨e, hm, rfl⟩ | ⟨first', later', step, rfl, hm, hend⟩
        · obtain rfl := leaves_perform.mp hm
          exact .thrown spec rest p e
        · obtain rfl := leaves_perform.mp hm
          dsimp only at hend
          split at hend
          · rename_i hclean
            exact .next (clean_iff.mpr hclean) (ih hend)
          · rename_i hclean
            obtain ⟨rfl, rfl⟩ := leaves_pure.mp hend
            exact .stopped spec rest p step fun hc => hclean (clean_iff.mp hc)

namespace Reverses

variable {steps : List UndoPlanStep} {p : UndoProgress} {issued : List IssuedStep}
  {r : Except TurnError UndoProgress}

theorem isPrefix (h : Reverses steps p issued r) : issued.map Prod.fst <+: steps := by
  induction h with
  | done p => exact List.nil_prefix
  | unprepared spec rest p message => exact List.nil_prefix
  | thrown spec rest p e => exact ⟨rest, rfl⟩
  | stopped spec rest p step _ => exact ⟨rest, rfl⟩
  | next _ _ ih => exact List.cons_prefix_cons.mpr ⟨rfl, ih⟩

theorem clean_of_not_last (h : Reverses steps p issued r) {before after : List IssuedStep}
    {x : IssuedStep} (hsplit : issued = before ++ x :: after) (hmore : after ≠ []) : x.Clean := by
  induction h generalizing before with
  | done p => cases before <;> cases hsplit
  | unprepared spec rest p message => cases before <;> cases hsplit
  | thrown spec rest p e =>
    cases before with
    | nil =>
      injection hsplit with _ htail
      exact absurd htail.symm hmore
    | cons y before =>
      injection hsplit with _ htail
      cases before <;> cases htail
  | stopped spec rest p step _ =>
    cases before with
    | nil =>
      injection hsplit with _ htail
      exact absurd htail.symm hmore
    | cons y before =>
      injection hsplit with _ htail
      cases before <;> cases htail
  | next hclean _ ih =>
    cases before with
    | nil =>
      injection hsplit with hhead _
      exact hhead ▸ hclean
    | cons y before =>
      injection hsplit with _ htail
      exact ih htail

/-- A run that returns has an answer for each step, and its progress is what they say. -/
structure Progressed (steps : List UndoPlanStep) (p : UndoProgress) (issued : List IssuedStep)
    (p' : UndoProgress) : Prop where
  answered : ∀ x ∈ issued, ∃ step, x.2 = .ok step
  deleted : p'.deleted = p.deleted ++ effects false issued
  transitioned : p'.transitioned = p.transitioned ++ effects true issued
  terminal : p'.terminal = (lastAnswer issued).or p.terminal
  /-- It stops early for a preparation that failed behind clean steps, or for its last step. -/
  ended : (issued.map Prod.fst = steps ∧ (∀ x ∈ issued, x.Clean) ∧
      p'.preparationFailure = p.preparationFailure) ∨
    ((∃ message, p'.preparationFailure = some message) ∧ ∀ x ∈ issued, x.Clean) ∨
    (∃ x, issued.getLast? = some x ∧ ¬ x.Clean ∧ p'.preparationFailure = p.preparationFailure)

theorem reached_deleted (p : UndoProgress) (spec : UndoPlanStep) (step : UndoStep) :
    (p.reached spec step).deleted = p.deleted ++ effects false [(spec, .ok step)] ∧
      (p.reached spec step).transitioned = p.transitioned ++ effects true [(spec, .ok step)] ∧
      (p.reached spec step).terminal = some step ∧
      (p.reached spec step).preparationFailure = p.preparationFailure := by
  unfold UndoProgress.reached effects
  by_cases hstatus : step.status = .succeeded
  · rw [if_pos hstatus]
    cases hkind : spec.transition with
    | true => simp [IssuedStep.effect, hkind, hstatus]
    | false => simp [IssuedStep.effect, hkind, hstatus]
  · rw [if_neg hstatus]
    simp [IssuedStep.effect, hstatus]

theorem effects_cons (transition : Bool) (x : IssuedStep) (issued : List IssuedStep) :
    effects transition (x :: issued) = effects transition [x] ++ effects transition issued :=
  List.filterMap_append (l := [x])

theorem lastAnswer_cons {x : IssuedStep} {step : UndoStep} (hx : x.2 = .ok step)
    (issued : List IssuedStep) (before : Option UndoStep) :
    (lastAnswer (x :: issued)).or before = (lastAnswer issued).or (some step) ∨
      (∃ y ∈ issued, ∀ step, y.2 ≠ .ok step) := by
  unfold lastAnswer
  cases hlast : issued.getLast? with
  | none =>
    rw [List.getLast?_eq_none_iff.mp hlast]
    left
    simp [hx, Except.toOption]
  | some y =>
    have hmem := List.mem_of_getLast? hlast
    rw [List.getLast?_cons, hlast]
    cases hy : y.2 with
    | error e => exact Or.inr ⟨y, hmem, fun step hstep => by rw [hy] at hstep; cases hstep⟩
    | ok step' =>
      left
      simp [hy, Except.toOption]

theorem progressed {p' : UndoProgress} (h : Reverses steps p issued (.ok p')) :
    Progressed steps p issued p' := by
  generalize hr : Except.ok p' = r at h
  induction h with
  | done p =>
    injection hr with hr
    subst hr
    exact ⟨nofun, (List.append_nil _).symm, (List.append_nil _).symm, rfl, Or.inl ⟨rfl, nofun, rfl⟩⟩
  | unprepared spec rest p message =>
    injection hr with hr
    subst hr
    exact ⟨nofun, (List.append_nil _).symm, (List.append_nil _).symm, rfl,
      Or.inr (Or.inl ⟨⟨message, rfl⟩, nofun⟩)⟩
  | thrown spec rest p e => cases hr
  | stopped spec rest p step hunclean =>
    injection hr with hr
    subst hr
    obtain ⟨hdeleted, htransitioned, hterminal, hfailure⟩ := reached_deleted p spec step
    refine ⟨?_, hdeleted, htransitioned, hterminal, Or.inr (Or.inr ⟨_, rfl, hunclean, hfailure⟩)⟩
    intro x hx
    rw [List.mem_singleton.mp hx]
    exact ⟨step, rfl⟩
  | @next spec rest p step issued r hclean hrest ih =>
    have hlater := ih hr
    obtain ⟨hdeleted, htransitioned, hterminal, hfailure⟩ := reached_deleted p spec step
    refine ⟨?_, ?_, ?_, ?_, ?_⟩
    · intro x hx
      rcases List.mem_cons.mp hx with rfl | hx
      · exact ⟨step, rfl⟩
      · exact hlater.answered x hx
    · rw [hlater.deleted, hdeleted, effects_cons false _ issued, List.append_assoc]
    · rw [hlater.transitioned, htransitioned, effects_cons true _ issued, List.append_assoc]
    · rw [hlater.terminal, hterminal]
      rcases lastAnswer_cons (x := (spec, .ok step)) rfl issued p.terminal with
        hlast | ⟨y, hy, hno⟩
      · exact hlast.symm
      · obtain ⟨step', hstep'⟩ := hlater.answered y hy
        exact absurd hstep' (hno step')
    · rcases hlater.ended with ⟨hall, hcleans, hkept⟩ | ⟨hfailed, hcleans⟩ | ⟨x, hlast, hx, hkept⟩
      · refine Or.inl ⟨?_, List.forall_mem_cons.mpr ⟨hclean, hcleans⟩, hkept.trans hfailure⟩
        rw [List.map_cons, hall]
      · exact Or.inr (Or.inl ⟨hfailed, List.forall_mem_cons.mpr ⟨hclean, hcleans⟩⟩)
      · refine Or.inr (Or.inr ⟨x, ?_, hx, hkept.trans hfailure⟩)
        rw [List.getLast?_cons, hlast]
        rfl

end Reverses

/-! The plan. -/

def undoSteps (ref : EntityRef) : List UndoPlanStep :=
  if ["project", "client", "task"].contains ref.type then [⟨ref, true⟩, ⟨ref, false⟩]
  else [⟨ref, false⟩]

theorem undoPlanSteps_eq (refs : List EntityRef) :
    undoPlanSteps refs = refs.reverse.flatMap undoSteps := rfl

theorem mem_undoPlanSteps {refs : List EntityRef}
    (h : spec ∈ undoPlanSteps refs) : spec.ref ∈ refs := by
  rw [undoPlanSteps_eq] at h
  obtain ⟨ref, href, hspec⟩ := List.mem_flatMap.mp h
  have hsame : spec.ref = ref := by
    unfold undoSteps at hspec
    split at hspec
    · rcases List.mem_cons.mp hspec with rfl | hspec
      · rfl
      · rw [List.mem_singleton.mp hspec]
    · rw [List.mem_singleton.mp hspec]
  rw [hsame]
  exact List.mem_reverse.mp href

theorem delete_mem_undoPlanSteps {refs : List EntityRef} (h : ref ∈ refs) :
    ⟨ref, false⟩ ∈ undoPlanSteps refs := by
  rw [undoPlanSteps_eq]
  refine List.mem_flatMap.mpr ⟨ref, List.mem_reverse.mpr h, ?_⟩
  unfold undoSteps
  split
  · exact List.mem_cons_of_mem _ (List.mem_singleton.mpr rfl)
  · exact List.mem_singleton.mpr rfl

theorem delete_behind_transition {refs : List EntityRef} {before after : List UndoPlanStep}
    (h : refs.flatMap undoSteps = before ++ ⟨ref, true⟩ :: after) :
    ∃ rest, after = ⟨ref, false⟩ :: rest := by
  induction refs generalizing before with
  | nil => cases before <;> cases h
  | cons first refs ih =>
    rw [List.flatMap_cons] at h
    unfold undoSteps at h
    split at h
    · cases before with
      | nil =>
        injection h with hhead htail
        injection hhead with href _
        exact ⟨_, by rw [← htail, href]; rfl⟩
      | cons spec before =>
        injection h with _ htail
        cases before with
        | nil =>
          injection htail with hhead _
          injection hhead with _ hkind
          cases hkind
        | cons spec' before =>
          injection htail with _ htail
          exact ih htail
    · cases before with
      | nil =>
        injection h with hhead _
        injection hhead with _ hkind
        cases hkind
      | cons spec before =>
        injection h with _ htail
        exact ih htail

/-! What is reported. -/

def KnownDeleted (issued : List IssuedStep) (ref : EntityRef) : Prop :=
  ∃ x ∈ issued, x.1.transition = false ∧ x.Succeeded ∧ x.1.ref.Same ref

theorem among_effects {transition : Bool} {issued : List IssuedStep} :
    ref.among (effects transition issued) = true ↔
      ∃ x ∈ issued, x.1.transition = transition ∧ x.Succeeded ∧ x.1.ref.Same ref := by
  rw [EntityRef.among_iff]
  constructor
  · rintro ⟨other, hother, hsame⟩
    obtain ⟨x, hx, heffect⟩ := List.mem_filterMap.mp hother
    obtain ⟨hkind, hsucceeded, rfl⟩ := IssuedStep.effect_eq_some.mp heffect
    exact ⟨x, hx, hkind, hsucceeded, hsame⟩
  · rintro ⟨x, hx, hkind, hsucceeded, hsame⟩
    exact ⟨x.1.ref, List.mem_filterMap.mpr ⟨x, hx,
      IssuedStep.effect_eq_some.mpr ⟨hkind, hsucceeded, rfl⟩⟩, hsame⟩

/-- The entities of the receipt's changed block. -/
def UndoReceipt.changed : UndoReceipt → List EntityRef
  | success deleted updated _ => deleted ++ updated
  | error _ => []

/-- The report of an undo is the truth about the steps that were issued. -/
structure UndoLaw (refs : List EntityRef) (issued : List IssuedStep)
    (result : DurableUndoResult) : Prop where
  remaining : ∃ kept : EntityRef → Bool, (∀ ref, kept ref = true ↔ ¬ KnownDeleted issued ref) ∧
    result.remaining = refs.filter kept
  undone : result.status = .undone → ∀ ref ∈ refs, KnownDeleted issued ref
  failed : result.status = .failed → ∀ x ∈ issued, ¬ x.Succeeded ∧ ¬ x.Unknown
  changed : ∀ x ∈ issued, x.Succeeded → ∃ ref ∈ result.receipt.changed, ref.Same x.1.ref

/-- The steps are issued in the reverse order of the references, a transition right before its
delete, and none behind one that was not clean. -/
structure UndoOrder (refs : List EntityRef) (issued : List IssuedStep) : Prop where
  order : issued.map Prod.fst <+: refs.reverse.flatMap undoSteps
  stops : ∀ before x after, issued = before ++ x :: after → after ≠ [] → x.Clean

section Report

variable {refs : List EntityRef} {issued : List IssuedStep} {p : UndoProgress}

/-- How a run over the plan can end, and the report of each. -/
inductive Reported (refs : List EntityRef) (issued : List IssuedStep) (p : UndoProgress) : Prop
  | unknown {x : IssuedStep} (hlast : issued.getLast? = some x) (hx : x.Unknown)
      (hresult : p.result refs = p.unknown refs)
  | unprepared {message : String} (hclean : ∀ x ∈ issued, x.Clean)
      (hresult : p.result refs = p.stopped refs message)
  | rejected {x : IssuedStep} (hlast : issued.getLast? = some x) (hfailed : ¬ x.Succeeded)
      (hknown : ¬ x.Unknown) (hresult : p.result refs = p.stopped refs undoStepRejected)
  | degraded {x : IssuedStep} (hlast : issued.getLast? = some x) (hx : x.Succeeded)
      (hunclean : ¬ x.Clean)
      (hresult : p.result refs =
        ⟨.success p.deleted [] [("operation_journal_degraded", undoStepDegraded)],
          if (p.remaining refs).isEmpty then .undone else .partiallyUndone, p.remaining refs⟩)
  | complete (hall : issued.map Prod.fst = undoPlanSteps refs) (hclean : ∀ x ∈ issued, x.Clean)
      (hresult : p.result refs = ⟨.success p.deleted [] [], .undone, []⟩)

variable {x : IssuedStep}

theorem terminal_of_last (h : Reverses.Progressed (undoPlanSteps refs) {} issued p)
    (hlast : issued.getLast? = some x) : ∃ step, x.2 = .ok step ∧ p.terminal = some step := by
  obtain ⟨step, hstep⟩ := h.answered x (List.mem_of_getLast? hlast)
  refine ⟨step, hstep, ?_⟩
  rw [h.terminal]
  unfold lastAnswer
  rw [hlast]
  simp [hstep, Except.toOption]

theorem not_unknown_of_clean (h : Reverses.Progressed (undoPlanSteps refs) {} issued p)
    (hclean : ∀ x ∈ issued, x.Clean) :
    p.terminal = none ∨ ∃ step, p.terminal = some step ∧ step.status = .succeeded ∧
      step.journalDegraded = false := by
  cases hlast : issued.getLast? with
  | none =>
    left
    rw [h.terminal]
    unfold lastAnswer
    rw [hlast]
    rfl
  | some x =>
    obtain ⟨step, hstep, hterminal⟩ := terminal_of_last h hlast
    obtain ⟨step', hstep', hstatus, hsettled⟩ := hclean x (List.mem_of_getLast? hlast)
    rw [hstep] at hstep'
    injection hstep' with hstep'
    exact Or.inr ⟨step, hterminal, hstep' ▸ hstatus, hstep' ▸ hsettled⟩

theorem reported (h : Reverses.Progressed (undoPlanSteps refs) {} issued p) :
    Reported refs issued p := by
  rcases h.ended with ⟨hall, hclean, hfailure⟩ | ⟨⟨message, hmessage⟩, hclean⟩ |
    ⟨x, hlast, hunclean, hfailure⟩
  · refine .complete hall hclean ?_
    unfold UndoProgress.result
    rcases not_unknown_of_clean h hclean with hterminal | ⟨step, hterminal, hstatus, hsettled⟩
    · rw [hterminal, hfailure]
      rfl
    · rw [hterminal, hfailure]
      simp [hstatus, hsettled]
  · have hresult : p.result refs = p.stopped refs message := by
      unfold UndoProgress.result
      rcases not_unknown_of_clean h hclean with hterminal | ⟨step, hterminal, hstatus, -⟩
      · rw [hterminal, hmessage]
        rfl
      · rw [hterminal, hmessage]
        simp [hstatus]
    exact .unprepared hclean hresult
  · obtain ⟨step, hstep, hterminal⟩ := terminal_of_last h hlast
    by_cases hunknown : step.status = .outcomeUnknown
    · refine .unknown hlast ⟨step, hstep, hunknown⟩ ?_
      unfold UndoProgress.result
      rw [hterminal]
      simp [hunknown]
    · by_cases hsucceeded : step.status = .succeeded
      · refine .degraded hlast ⟨step, hstep, hsucceeded⟩ hunclean ?_
        have hdegraded : step.journalDegraded = true := by
          cases hsettled : step.journalDegraded with
          | true => rfl
          | false => exact absurd ⟨step, hstep, hsucceeded, hsettled⟩ hunclean
        unfold UndoProgress.result
        rw [hterminal, hfailure]
        simp [hsucceeded, hdegraded]
      · refine .rejected hlast ?_ ?_ ?_
        · rintro ⟨step', hstep', hstatus⟩
          rw [hstep] at hstep'
          injection hstep' with hstep'
          exact hsucceeded (hstep' ▸ hstatus)
        · rintro ⟨step', hstep', hstatus⟩
          rw [hstep] at hstep'
          injection hstep' with hstep'
          exact hunknown (hstep' ▸ hstatus)
        · unfold UndoProgress.result
          rw [hterminal, hfailure]
          simp [hunknown, hsucceeded]

theorem IssuedStep.Clean.not_unknown (h : x.Clean) : ¬ x.Unknown := by
  rintro ⟨step, hstep, hunknown⟩
  obtain ⟨step', hstep', hstatus, -⟩ := h
  rw [hstep] at hstep'
  injection hstep' with hstep'
  rw [hstep', hstatus] at hunknown
  cases hunknown

/-- What is issued follows the plan, and has not been clean at its end only. -/
theorem Reverses.undoOrder {r : Except TurnError UndoProgress}
    (h : Reverses (undoPlanSteps refs) {} issued r) : UndoOrder refs issued :=
  ⟨h.isPrefix, fun _ _ _ hsplit hmore => h.clean_of_not_last hsplit hmore⟩

namespace UndoOrder

variable (horder : UndoOrder refs issued)

include horder

theorem ref_mem {x : IssuedStep} (hx : x ∈ issued) : x.1.ref ∈ refs :=
  mem_undoPlanSteps (horder.order.subset (List.mem_map_of_mem hx))

/-- A transition that is not the last step is followed by the delete of its reference. -/
theorem delete_next {before after : List IssuedStep} {x y : IssuedStep}
    (hsplit : issued = before ++ x :: y :: after) (hkind : x.1.transition = true) :
    y.1 = ⟨x.1.ref, false⟩ := by
  obtain ⟨rest, hplan⟩ := horder.order
  rw [hsplit, List.map_append, List.map_cons, List.map_cons, List.append_assoc, List.cons_append,
    List.cons_append] at hplan
  have hspec : x.1 = ⟨x.1.ref, true⟩ := by rw [← hkind]
  rw [hspec] at hplan
  obtain ⟨later, hlater⟩ := delete_behind_transition hplan.symm
  injection hlater with hhead _

theorem clean_or_last {x : IssuedStep} (hx : x ∈ issued) : x.Clean ∨ issued.getLast? = some x := by
  obtain ⟨before, after, hsplit⟩ := List.append_of_mem hx
  cases after with
  | nil =>
    right
    rw [hsplit]
    exact List.getLast?_concat
  | cons y after => exact Or.inl (horder.stops before x (y :: after) hsplit (List.cons_ne_nil _ _))

/-- Where the last step took effect, every transition but a last one is deleted. -/
theorem deleted_of_transition (hlast : ∀ x, issued.getLast? = some x → x.Succeeded)
    {x : IssuedStep} (hx : x ∈ issued) (hkind : x.1.transition = true) :
    issued.getLast? = some x ∨ KnownDeleted issued x.1.ref := by
  obtain ⟨before, after, hsplit⟩ := List.append_of_mem hx
  cases after with
  | nil =>
    left
    rw [hsplit]
    exact List.getLast?_concat
  | cons y after =>
    right
    have hnext := horder.delete_next hsplit hkind
    have hy : y ∈ issued := by
      rw [hsplit]
      exact List.mem_append_right _ (List.mem_cons_of_mem _ List.mem_cons_self)
    have hsucceeded : y.Succeeded := by
      rcases horder.clean_or_last hy with hclean | hend
      · exact hclean.succeeded
      · exact hlast y hend
    exact ⟨y, hy, by rw [hnext], hsucceeded, by rw [hnext]; exact ⟨rfl, rfl⟩⟩

end UndoOrder

variable (h : Reverses.Progressed (undoPlanSteps refs) {} issued p)

include h

theorem deleted_eq : p.deleted = effects false issued := h.deleted

theorem transitioned_eq : p.transitioned = effects true issued := h.transitioned

theorem knownEffects_pos_iff : 0 < p.knownEffects ↔ ∃ x ∈ issued, x.Succeeded := by
  unfold UndoProgress.knownEffects
  rw [deleted_eq h, transitioned_eq h]
  constructor
  · intro hpos
    have hsome : effects false issued ≠ [] ∨ effects true issued ≠ [] := by
      by_contra hnone
      push Not at hnone
      rw [hnone.1, hnone.2] at hpos
      exact Nat.lt_irrefl _ hpos
    rcases hsome with hsome | hsome
    · obtain ⟨ref, href⟩ := List.exists_mem_of_ne_nil _ hsome
      obtain ⟨x, hx, heffect⟩ := List.mem_filterMap.mp href
      exact ⟨x, hx, (IssuedStep.effect_eq_some.mp heffect).2.1⟩
    · obtain ⟨ref, href⟩ := List.exists_mem_of_ne_nil _ hsome
      obtain ⟨x, hx, heffect⟩ := List.mem_filterMap.mp href
      exact ⟨x, hx, (IssuedStep.effect_eq_some.mp heffect).2.1⟩
  · rintro ⟨x, hx, hsucceeded⟩
    have hmem : x.1.ref ∈ effects x.1.transition issued :=
      List.mem_filterMap.mpr ⟨x, hx, IssuedStep.effect_eq_some.mpr ⟨rfl, hsucceeded, rfl⟩⟩
    have hpos := List.length_pos_of_mem hmem
    cases hkind : x.1.transition with
    | true =>
      rw [hkind] at hpos
      omega
    | false =>
      rw [hkind] at hpos
      omega

theorem remaining_kept : ∃ kept : EntityRef → Bool,
    (∀ ref, kept ref = true ↔ ¬ KnownDeleted issued ref) ∧ p.remaining refs = refs.filter kept := by
  refine ⟨fun ref => !ref.among p.deleted, ?_, rfl⟩
  intro ref
  rw [Bool.not_eq_true', ← Bool.not_eq_true, deleted_eq h, among_effects]
  exact Iff.rfl

/-- A step that took effect is among what was deleted or updated. -/
theorem mem_deleted_or_updated (horder : UndoOrder refs issued)
    (hx : x ∈ issued) (hsucceeded : x.Succeeded) :
    ∃ ref ∈ p.deleted ++ p.updated refs, ref.Same x.1.ref := by
  refine ⟨x.1.ref, ?_, rfl, rfl⟩
  cases hkind : x.1.transition with
  | false =>
    refine List.mem_append_left _ ?_
    rw [deleted_eq h]
    exact List.mem_filterMap.mpr ⟨x, hx, IssuedStep.effect_eq_some.mpr ⟨hkind, hsucceeded, rfl⟩⟩
  | true =>
    refine List.mem_append_right _ (List.mem_filter.mpr ⟨horder.ref_mem hx, ?_⟩)
    rw [transitioned_eq h]
    exact among_effects.mpr ⟨x, hx, hkind, hsucceeded, rfl, rfl⟩

/-- Where only the deletions are listed, nothing is left out but a transition at the end. -/
theorem mem_deleted (horder : UndoOrder refs issued)
    (hlast : ∀ x, issued.getLast? = some x → x.Succeeded ∧
      (x.1.transition = true → KnownDeleted issued x.1.ref)) (hx : x ∈ issued) (hsucceeded : x.Succeeded) :
    ∃ ref ∈ p.deleted ++ [], ref.Same x.1.ref := by
  rw [List.append_nil, ← EntityRef.among_iff, deleted_eq h, among_effects]
  cases hkind : x.1.transition with
  | false => exact ⟨x, hx, hkind, hsucceeded, rfl, rfl⟩
  | true =>
    rcases horder.deleted_of_transition (fun y hy => (hlast y hy).1) hx hkind with hend | hdeleted
    · exact (hlast x hend).2 hkind
    · exact hdeleted

theorem stopped_law (horder : UndoOrder refs issued) {message : String}
    (hknown : ∀ x ∈ issued, x.Unknown → False) : UndoLaw refs issued (p.stopped refs message) := by
  by_cases heffects : p.knownEffects = 0
  · have hnone : ∀ x ∈ issued, ¬ x.Succeeded := by
      intro x hx hsucceeded
      have hpos := (knownEffects_pos_iff h).mpr ⟨x, hx, hsucceeded⟩
      omega
    have hstopped : p.stopped refs message =
        ⟨.error (failedUndoReceipt refs message), .failed, p.remaining refs⟩ := by
      unfold UndoProgress.stopped
      rw [if_pos heffects, if_pos heffects]
    rw [hstopped]
    exact {
      remaining := remaining_kept h
      undone := nofun
      failed := fun _ x hx => ⟨hnone x hx, hknown x hx⟩
      changed := fun x hx hsucceeded => absurd hsucceeded (hnone x hx) }
  · have hstopped : p.stopped refs message =
        ⟨.success p.deleted (p.updated refs) [("undo_failed", message)], .partiallyUndone,
          p.remaining refs⟩ := by
      unfold UndoProgress.stopped
      rw [if_neg heffects, if_neg heffects]
    rw [hstopped]
    exact {
      remaining := remaining_kept h
      undone := nofun
      failed := nofun
      changed := fun x hx hsucceeded => mem_deleted_or_updated h horder hx hsucceeded }

theorem unknown_law (horder : UndoOrder refs issued) : UndoLaw refs issued (p.unknown refs) := by
  refine ⟨remaining_kept h, nofun, nofun, ?_⟩
  intro x hx hsucceeded
  have hpos := (knownEffects_pos_iff h).mpr ⟨x, hx, hsucceeded⟩
  have hreceipt : (p.unknown refs).receipt.changed = p.deleted ++ p.updated refs := by
    unfold UndoProgress.unknown
    dsimp only
    rw [if_pos hpos]
    rfl
  rw [hreceipt]
  exact mem_deleted_or_updated h horder hx hsucceeded

theorem remaining_isEmpty (hempty : (p.remaining refs).isEmpty = true) :
    ∀ ref ∈ refs, KnownDeleted issued ref := by
  intro ref href
  by_contra hnot
  obtain ⟨kept, hkept, hremaining⟩ := remaining_kept h
  have hmem : ref ∈ p.remaining refs := by
    rw [hremaining]
    exact List.mem_filter.mpr ⟨href, (hkept ref).mpr hnot⟩
  rw [List.isEmpty_iff.mp hempty] at hmem
  cases hmem

theorem complete_law (horder : UndoOrder refs issued)
    (hall : issued.map Prod.fst = undoPlanSteps refs) (hclean : ∀ x ∈ issued, x.Clean) :
    UndoLaw refs issued ⟨.success p.deleted [] [], .undone, []⟩ := by
  have hdeleted : ∀ ref ∈ refs, KnownDeleted issued ref := by
    intro ref href
    have hmem := delete_mem_undoPlanSteps href
    rw [← hall] at hmem
    obtain ⟨x, hx, hspec⟩ := List.mem_map.mp hmem
    exact ⟨x, hx, by rw [hspec], (hclean x hx).succeeded, by rw [hspec]; exact ⟨rfl, rfl⟩⟩
  refine ⟨?_, fun _ => hdeleted, nofun, ?_⟩
  · obtain ⟨kept, hkept, -⟩ := remaining_kept h
    refine ⟨kept, hkept, ?_⟩
    symm
    rw [List.filter_eq_nil_iff]
    intro ref href hkeep
    exact (hkept ref).mp hkeep (hdeleted ref href)
  · intro x hx hsucceeded
    refine mem_deleted h horder (fun y hy => ?_) hx hsucceeded
    have hy := List.mem_of_getLast? hy
    exact ⟨(hclean y hy).succeeded, fun _ => hdeleted _ (horder.ref_mem hy)⟩

theorem degraded_law (horder : UndoOrder refs issued)
    (hlast : issued.getLast? = some x) (hx : x.Succeeded)
    (hlisted : x.1.transition = true → KnownDeleted issued x.1.ref) :
    UndoLaw refs issued ⟨.success p.deleted [] [("operation_journal_degraded", undoStepDegraded)],
      if (p.remaining refs).isEmpty then .undone else .partiallyUndone, p.remaining refs⟩ := by
  refine ⟨remaining_kept h, ?_, ?_, ?_⟩
  · intro hundone
    refine remaining_isEmpty h ?_
    by_contra hsome
    rw [if_neg hsome] at hundone
    cases hundone
  · intro hfailed
    dsimp only at hfailed
    split at hfailed <;> cases hfailed
  · intro y hy hsucceeded
    refine mem_deleted h horder (fun z hz => ?_) hy hsucceeded
    rw [hlast] at hz
    obtain rfl := Option.some.inj hz
    exact ⟨hx, hlisted⟩

/-- The report is the truth exactly when no transition took effect while its settlement
degraded, unless its entity is deleted all the same. -/
theorem result_law_iff (horder : UndoOrder refs issued) : UndoLaw refs issued (p.result refs) ↔
      ∀ x ∈ issued, x.DegradedTransition → KnownDeleted issued x.1.ref := by
  have hclean_not : ∀ x : IssuedStep, x.Clean → ¬ x.DegradedTransition := by
    rintro x ⟨step, hstep, -, hsettled⟩ ⟨-, step', hstep', -, hdegraded⟩
    rw [hstep] at hstep'
    injection hstep' with hstep'
    rw [hstep', hdegraded] at hsettled
    cases hsettled
  have hlast_of : ∀ x ∈ issued, x.DegradedTransition → issued.getLast? = some x := by
    intro x hx hdegraded
    rcases horder.clean_or_last hx with hclean | hend
    · exact absurd hdegraded (hclean_not x hclean)
    · exact hend
  have hsucceeded_of : ∀ x : IssuedStep, x.DegradedTransition → x.Succeeded := by
    rintro x ⟨-, step, hstep, hstatus, -⟩
    exact ⟨step, hstep, hstatus⟩
  cases reported h with
  | @unknown x hlast hx hresult =>
    rw [hresult]
    refine iff_of_true (unknown_law h horder) ?_
    intro y hy hdegraded
    have hsame := hlast_of y hy hdegraded
    rw [hlast] at hsame
    obtain rfl := Option.some.inj hsame
    obtain ⟨step, hstep, hstatus⟩ := hsucceeded_of x hdegraded
    obtain ⟨step', hstep', hunknown⟩ := hx
    rw [hstep] at hstep'
    injection hstep' with hstep'
    rw [← hstep', hstatus] at hunknown
    cases hunknown
  | unprepared hclean hresult =>
    rw [hresult]
    refine iff_of_true (stopped_law h horder fun x hx => (hclean x hx).not_unknown) ?_
    intro x hx hdegraded
    exact absurd hdegraded (hclean_not x (hclean x hx))
  | @rejected x hlast hfailed hknown hresult =>
    rw [hresult]
    have hnone : ∀ y ∈ issued, y.Unknown → False := by
      intro y hy hunknown
      rcases horder.clean_or_last hy with hclean | hend
      · exact hclean.not_unknown hunknown
      · rw [hlast] at hend
        obtain rfl := Option.some.inj hend
        exact hknown hunknown
    refine iff_of_true (stopped_law h horder hnone) ?_
    intro y hy hdegraded
    have hsame := hlast_of y hy hdegraded
    rw [hlast] at hsame
    obtain rfl := Option.some.inj hsame
    exact absurd (hsucceeded_of x hdegraded) hfailed
  | @degraded x hlast hx hunclean hresult =>
    rw [hresult]
    constructor
    · intro hlaw y hy hdegraded
      have hlisted := hlaw.changed y hy (hsucceeded_of y hdegraded)
      change ∃ ref ∈ p.deleted ++ [], ref.Same y.1.ref at hlisted
      rw [List.append_nil, ← EntityRef.among_iff, deleted_eq h, among_effects] at hlisted
      exact hlisted
    · intro hall
      refine degraded_law h horder hlast hx fun hkind => ?_
      obtain ⟨step, hstep, hstatus⟩ := hx
      refine hall x (List.mem_of_getLast? hlast) ⟨hkind, step, hstep, hstatus, ?_⟩
      cases hsettled : step.journalDegraded with
      | true => rfl
      | false => exact absurd ⟨step, hstep, hstatus, hsettled⟩ hunclean
  | complete hall hclean hresult =>
    rw [hresult]
    refine iff_of_true (complete_law h horder hall hclean) ?_
    intro x hx hdegraded
    exact absurd hdegraded (hclean_not x (hclean x hx))

end Report

/-! The undo. -/

variable {lease : Nat} {refs : List EntityRef} {log : TurnLog}
  {r : Except TurnError DurableUndoResult}

theorem leaves_reverseCreationDurably (h : Leaves (reverseCreationDurably lease refs) log r) :
    (issuedSteps log = [] ∧
      ((∃ e, r = .error e) ∨ ∃ receipt, r = .ok ⟨.error receipt, .failed, refs⟩)) ∨
    ∃ r', Reverses (undoPlanSteps refs) {} (issuedSteps log) r' ∧
      ((∃ e, r' = .error e ∧ r = .error e) ∨
        (∃ p e, r' = .ok p ∧ p.succeeded = true ∧ r = .error e) ∨
        ∃ p, r' = .ok p ∧ r = .ok (p.result refs)) := by
  unfold reverseCreationDurably at h
  by_cases hempty : refs.isEmpty = true
  · rw [if_pos hempty] at h
    obtain ⟨rfl, rfl⟩ := leaves_pure.mp h
    rw [List.isEmpty_iff.mp hempty]
    exact Or.inl ⟨rfl, Or.inr ⟨_, rfl⟩⟩
  rw [if_neg hempty] at h
  rcases leaves_bind.mp h with ⟨e, hm, rfl⟩ | ⟨first, rest, denial, rfl, hm, hpolicy⟩
  · obtain rfl := leaves_perform.mp hm
    exact Or.inl ⟨rfl, Or.inl ⟨e, rfl⟩⟩
  obtain rfl := leaves_perform.mp hm
  cases denial with
  | some denial =>
    obtain ⟨rfl, rfl⟩ := leaves_pure.mp hpolicy
    exact Or.inl ⟨rfl, Or.inr ⟨denial, rfl⟩⟩
  | none =>
    rcases leaves_bind.mp hpolicy with ⟨e, hm, rfl⟩ | ⟨first, rest, _, rfl, hm, hscope⟩
    · obtain rfl := leaves_perform.mp hm
      exact Or.inl ⟨rfl, Or.inl ⟨e, rfl⟩⟩
    obtain rfl := leaves_perform.mp hm
    right
    rw [issuedSteps_append, issuedSteps_append]
    rcases leaves_bind.mp hscope with ⟨e, hm, rfl⟩ | ⟨first, later, p, rfl, hm, hreport⟩
    · exact ⟨_, reverses_of_leaves hm, Or.inl ⟨e, rfl, rfl⟩⟩
    · have hreverses : ∀ last : TurnLog, issuedSteps last = [] →
          Reverses (undoPlanSteps refs) {} (issuedSteps (first ++ last)) (.ok p) := by
        intro last hlast
        rw [issuedSteps_append, hlast, List.append_nil]
        exact reverses_of_leaves hm
      dsimp only at hreport
      by_cases hsucceeded : p.succeeded = true
      · rw [if_pos hsucceeded] at hreport
        rcases leaves_bind.mp hreport with ⟨e, hl, rfl⟩ | ⟨listed, last, _, rfl, hl, hdone⟩
        · obtain rfl := leaves_perform.mp hl
          exact ⟨_, hreverses _ rfl, Or.inr (Or.inl ⟨p, e, rfl, hsucceeded, rfl⟩)⟩
        · obtain rfl := leaves_perform.mp hl
          obtain ⟨rfl, rfl⟩ := leaves_pure.mp hdone
          exact ⟨_, hreverses _ rfl, Or.inr (Or.inr ⟨p, rfl, rfl⟩)⟩
      · rw [if_neg hsucceeded] at hreport
        obtain ⟨rfl, rfl⟩ := leaves_pure.mp hreport
        exact ⟨_, hreverses _ rfl, Or.inr (Or.inr ⟨p, rfl, rfl⟩)⟩

/-- The undo does what it says: its steps go in order, and its report is the truth. -/
def UndoMeets (refs : List EntityRef) (issued : List IssuedStep)
    (r : Except TurnError DurableUndoResult) : Prop :=
  UndoOrder refs issued ∧ ∀ result, r = .ok result → UndoLaw refs issued result

theorem undoMeets_of_none {issued : List IssuedStep} (hnone : issued = [])
    (hr : (∃ e, r = .error e) ∨ ∃ receipt, r = .ok ⟨.error receipt, .failed, refs⟩) :
    UndoMeets refs issued r := by
  subst hnone
  refine ⟨⟨List.nil_prefix, fun before x after hsplit => ?_⟩, ?_⟩
  · cases before <;> cases hsplit
  · intro result hresult
    rcases hr with ⟨e, rfl⟩ | ⟨receipt, rfl⟩
    · cases hresult
    · injection hresult with hresult
      subst hresult
      refine ⟨⟨fun _ => true, ?_, (List.filter_true refs).symm⟩, nofun, fun _ => nofun, nofun⟩
      intro ref
      refine iff_of_true rfl ?_
      rintro ⟨x, hx, -⟩
      cases hx

/-- A run that ends with an exception has left no degraded step behind it. -/
theorem not_degraded_of_thrown {issued : List IssuedStep} {e : TurnError}
    (h : Reverses (undoPlanSteps refs) {} issued (.error e)) :
    ∀ x ∈ issued, ¬ x.DegradedTransition := by
  generalize undoPlanSteps refs = steps at h
  generalize ({} : UndoProgress) = p at h
  generalize hr : (Except.error e : Except TurnError UndoProgress) = r' at h
  induction h with
  | done p => cases hr
  | unprepared spec rest p message => cases hr
  | thrown spec rest p e' =>
    intro x hx hdegraded
    rw [List.mem_singleton.mp hx] at hdegraded
    obtain ⟨-, step, hstep, -⟩ := hdegraded
    cases hstep
  | stopped spec rest p step _ => cases hr
  | next hclean _ ih =>
    refine List.forall_mem_cons.mpr ⟨?_, ih hr⟩
    rintro ⟨-, step, hstep, -, hdegraded⟩
    obtain ⟨step', hstep', -, hsettled⟩ := hclean
    rw [hstep] at hstep'
    injection hstep' with hstep'
    rw [hstep', hsettled] at hdegraded
    cases hdegraded

theorem not_degraded_of_succeeded {issued : List IssuedStep} {p : UndoProgress}
    (h : Reverses (undoPlanSteps refs) {} issued (.ok p)) (hsucceeded : p.succeeded = true) :
    ∀ x ∈ issued, ¬ x.DegradedTransition := by
  intro x hx hdegraded
  have hprogress := h.progressed
  have hunclean : ¬ x.Clean := by
    rintro ⟨step, hstep, -, hsettled⟩
    obtain ⟨-, step', hstep', -, hnot⟩ := hdegraded
    rw [hstep] at hstep'
    injection hstep' with hstep'
    rw [hstep', hnot] at hsettled
    cases hsettled
  rcases h.undoOrder.clean_or_last hx with hclean | hlast
  · exact hunclean hclean
  · obtain ⟨step, hstep, hterminal⟩ := terminal_of_last hprogress hlast
    unfold UndoProgress.succeeded at hsucceeded
    rw [hterminal, Option.any_some, Bool.and_eq_true, beq_iff_eq, Bool.not_eq_true'] at hsucceeded
    exact hunclean ⟨step, hstep, hsucceeded⟩

/-- An undo does what it says exactly when no transition takes effect while the settlement of its
step degrades, unless the entity is deleted all the same. -/
theorem undoMeets_iff (h : Leaves (reverseCreationDurably lease refs) log r) :
    UndoMeets refs (issuedSteps log) r ↔
      ∀ x ∈ issuedSteps log, x.DegradedTransition → KnownDeleted (issuedSteps log) x.1.ref := by
  rcases leaves_reverseCreationDurably h with ⟨hnone, hr⟩ | ⟨r', hreverses, hend⟩
  · refine iff_of_true (undoMeets_of_none hnone hr) ?_
    rw [hnone]
    nofun
  · have horder := hreverses.undoOrder
    rcases hend with ⟨e, rfl, rfl⟩ | ⟨p, e, rfl, hsucceeded, rfl⟩ | ⟨p, rfl, rfl⟩
    · exact iff_of_true ⟨horder, nofun⟩
        fun x hx hdegraded => absurd hdegraded (not_degraded_of_thrown hreverses x hx)
    · exact iff_of_true ⟨horder, nofun⟩
        fun x hx hdegraded => absurd hdegraded (not_degraded_of_succeeded hreverses hsucceeded x hx)
    · rw [← result_law_iff hreverses.progressed horder]
      constructor
      · intro hmeets
        exact hmeets.2 _ rfl
      · intro hlaw
        refine ⟨horder, fun result hresult => ?_⟩
        injection hresult with hresult
        exact hresult ▸ hlaw

section Example

def createdProject : EntityRef where
  type := "project"
  id := "p1"

def archivedDegraded : UndoStep where
  status := .succeeded
  journalDegraded := true

/-- The project is archived, and the journal cannot settle it. -/
def degradedLog : TurnLog :=
  [⟨.checkUndoPolicy, .ok none⟩, ⟨.openUndoScope, .ok ()⟩,
    ⟨.prepareTransition createdProject, .ok ()⟩,
    ⟨.undoStep 0 ⟨createdProject, true⟩, .ok archivedDegraded⟩]

def degradedResult : DurableUndoResult where
  receipt := .success [] [] [("operation_journal_degraded", undoStepDegraded)]
  status := .partiallyUndone
  remaining := [createdProject]

theorem leaves_degradedLog :
    Leaves (reverseCreationDurably 0 [createdProject]) degradedLog (.ok degradedResult) := by
  have hplan : undoPlanSteps [createdProject] =
      [⟨createdProject, true⟩, ⟨createdProject, false⟩] := by
    simp [undoPlanSteps, createdProject]
  have hsteps : Leaves (reverseSteps 0 (undoPlanSteps [createdProject]) {})
      [⟨.prepareTransition createdProject, .ok ()⟩,
        ⟨.undoStep 0 ⟨createdProject, true⟩, .ok archivedDegraded⟩]
      (.ok (({} : UndoProgress).reached ⟨createdProject, true⟩ archivedDegraded)) := by
    rw [hplan]
    exact .call (.call (.ret _))
  have hresult : (({} : UndoProgress).reached ⟨createdProject, true⟩ archivedDegraded).result
      [createdProject] = degradedResult := by
    simp [UndoProgress.reached, UndoProgress.result, UndoProgress.remaining, EntityRef.among,
      archivedDegraded, degradedResult]
  unfold reverseCreationDurably
  refine leaves_bind.mpr (Or.inr ⟨[_], _, none, rfl, leaves_perform.mpr rfl, ?_⟩)
  refine leaves_bind.mpr (Or.inr ⟨[_], _, (), rfl, leaves_perform.mpr rfl, ?_⟩)
  refine leaves_bind.mpr (Or.inr ⟨_, [], _, (List.append_nil _).symm, hsteps, ?_⟩)
  rw [← hresult]
  exact .ret _

theorem not_knownDeleted : ¬ KnownDeleted (issuedSteps degradedLog) createdProject := by
  rintro ⟨x, hx, hkind, -⟩
  rw [show issuedSteps degradedLog = [(⟨createdProject, true⟩, .ok archivedDegraded)] from rfl,
    List.mem_singleton] at hx
  rw [hx] at hkind
  cases hkind

theorem undoMeets_iff_degraded :
    ¬ UndoMeets [createdProject] (issuedSteps degradedLog) (.ok degradedResult) := by
  intro hmeets
  exact not_knownDeleted ((undoMeets_iff leaves_degradedLog).mp hmeets _ List.mem_cons_self
    ⟨rfl, archivedDegraded, rfl, rfl, rfl⟩)

/-- The archived project is not in the changed block of the report. -/
theorem archived_project_unlisted : ¬ ∀ (lease : Nat) (refs : List EntityRef) (log : TurnLog)
        (r : Except TurnError DurableUndoResult),
      Leaves (reverseCreationDurably lease refs) log r → UndoMeets refs (issuedSteps log) r := by
  intro hall
  have hlaw := (hall 0 [createdProject] degradedLog _ leaves_degradedLog).2 _ rfl
  obtain ⟨ref, href, -⟩ := hlaw.changed (⟨createdProject, true⟩, .ok archivedDegraded)
    List.mem_cons_self ⟨archivedDegraded, rfl, rfl⟩
  cases href

end Example

end ClockifyAssistant.TurnMachinery
