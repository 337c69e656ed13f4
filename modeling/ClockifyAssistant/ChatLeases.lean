import ClockifyAssistant.ActionLeases

/-!
The leases of a chat turn. The turn finds itself at rest before every call of the model and
after it; only an interrupt carries a lease out of the loop, and the settlement of the turn
consumes it.
-/
namespace ClockifyAssistant

open Lib Fallible

namespace TurnMachinery

variable {config : TurnConfig} {x : Watched} {E : TurnError → Watched → Prop}

section Turns

/-- Only an interrupt hands a lease on. -/
def Concluded (config : TurnConfig) : AgentTurnResult → Watched → Prop
  | .interrupt _ card operation _, y => Handed config (.preview operation card) y
  | _, y => Stands config .rest y

def Continued (config : TurnConfig) : CallsEnd → Watched → Prop
  | .stop turn, y => Concluded config turn y
  | .goOn _ _, y => Stands config .rest y

theorem safeE_runCalls {transcript : List ModelMessage} {text : String}
    {calls honored : List ToolCall} {replies : List ModelMessage}
    {completed : List ToolCallSignature} (h : Stands config .rest x) :
    SafeE (S := leaseSpec config) (runCalls config transcript text calls honored replies completed)
      (Continued config) (fun _ => Stands config .rest) x := by
  induction calls generalizing honored replies completed x with
  | nil => exact safeE_pure h
  | cons call rest ih =>
    refine safeE_bind (safeE_quiet (o := .aborted) rfl h) fun aborted y hy => ?_
    cases aborted with
    | true => exact safeE_pure hy
    | false =>
      simp only [Bool.false_eq_true, if_false]
      split
      · exact safeE_pure hy
      · refine safeE_bind (safeE_runAction hy) fun result z hz => ?_
        cases result with
        | preview operation card => exact safeE_pure hz
        | clarify message options =>
          refine safeE_bind (safeE_onStep hz (by simp)) fun _ v hv => ?_
          exact safeE_pure hv
        | partially object r operationId =>
          refine safeE_bind (safeE_onStep hz (by simp)) fun _ v hv => ?_
          exact safeE_pure hv
        | receipt object r operationId =>
          refine safeE_bind (safeE_onStep hz (by simp)) fun _ v hv => ?_
          split
          · exact safeE_pure hv
          · exact ih hv

theorem safeE_runSteps {steps : Nat} {transcript : List ModelMessage}
    {completed : List ToolCallSignature} (h : Stands config .rest x) :
    SafeE (S := leaseSpec config) (runSteps config steps transcript completed)
      (Concluded config) (fun _ => Stands config .rest) x := by
  induction steps generalizing transcript completed x with
  | zero => exact safeE_pure h
  | succ steps ih =>
    refine safeE_bind (safeE_quiet (o := .aborted) rfl h) fun aborted y hy => ?_
    cases aborted with
    | true => exact safeE_pure hy
    | false =>
      refine safeE_bind (safeE_caught
        (safeE_quiet (o := .completeWithTools transcript) rfl hy)) fun completion z hz => ?_
      have hz : Stands config .rest z := by cases completion <;> exact hz
      cases completion with
      | error e =>
        refine safeE_bind (safeE_quiet (o := .aborted) rfl hz) fun aborted v hv => ?_
        cases aborted with
        | true => exact safeE_pure hv
        | false => exact safeE_throw hv
      | ok completion =>
        simp only
        split
        · exact safeE_pure hz
        · refine safeE_bind (safeE_runCalls hz) fun result v hv => ?_
          cases result with
          | stop turn => exact safeE_pure hv
          | goOn transcript completed => exact ih hv

variable {messages : List ModelMessage}

theorem safeE_runAgentTurn (h : Stands config .rest x) :
    SafeE (S := leaseSpec config) (runAgentTurn config messages)
      (Concluded config) (fun _ => Stands config .rest) x :=
  safeE_runSteps h

/-- A turn that ends in an interrupt owes no correction, so its preview is always consumed. -/
theorem safeE_settleAgentTurn {turn : AgentTurnResult} (h : Concluded config turn x) :
    SafeE (S := leaseSpec config) (settleAgentTurn config turn)
      (fun _ => Stands config .rest) (fun _ => Stands config .rest) x := by
  refine safeE_bind (safeE_memory (Q := fun m y => y = x ∧ m = x.1.memory) ⟨rfl, rfl⟩) ?_
  rintro m y ⟨rfl, rfl⟩
  cases turn with
  | interrupt call card operation transcript =>
    obtain ⟨lease?, hstands⟩ := h
    rw [if_neg (by rw [hstands.ready rfl]; simp)]
    exact safeE_bind (safeE_emitPreviewFor hstands.unready) fun _ z hz => safeE_pure hz
  | _ =>
    split
    · exact safeE_pure h
    · exact safeE_pure h

theorem safeE_runAgenticTurn {narrowed : Bool} (h : Stands config .rest x) :
    SafeE (S := leaseSpec config) (runAgenticTurn config messages narrowed)
      (fun _ => Stands config .rest) (fun _ => Stands config .rest) x := by
  refine safeE_bind (safeE_caught (Q := Concluded config)
    (E := fun _ => Stands config .rest) ?_) fun turn y hy => ?_
  · refine safeE_bind (safeE_runAgentTurn h) fun turn y hy => ?_
    refine safeE_bind (safeE_memory (Q := fun m z => z = y ∧ m = y.1.memory) ⟨rfl, rfl⟩) ?_
    rintro m z ⟨rfl, rfl⟩
    split
    · rename_i hagain
      have hrest : Stands config .rest z := by
        cases turn with
        | final text transcript => exact hy
        | exhausted text transcript => exact hy
        | _ => simp [AgentTurnResult.ranOut] at hagain
      exact safeE_runAgentTurn hrest
    · exact safeE_pure hy
  · cases turn with
    | error e => exact safeE_pure hy
    | ok turn => exact safeE_bind (safeE_settleAgentTurn hy) fun _ z hz => safeE_pure hz

theorem safeE_runPlannedActions {actions : List ToolCall} (h : Stands config .rest x) :
    SafeE (S := leaseSpec config) (runPlannedActions config actions)
      (fun _ => Stands config .rest) (fun _ => Stands config .rest) x := by
  induction actions generalizing x with
  | nil => exact safeE_pure h
  | cons proposed rest ih =>
    refine safeE_bind (safeE_quiet (o := .aborted) rfl h) fun aborted y hy => ?_
    cases aborted with
    | true => exact safeE_pure hy
    | false =>
      refine safeE_bind (safeE_runAction hy) fun result z hz => ?_
      cases result with
      | receipt object r operationId =>
        obtain ⟨lease?, hstands, -⟩ := hz
        exact safeE_bind (safeE_auditAndEmit hstands) fun _ v hv => ih hv
      | partially object r operationId =>
        obtain ⟨lease?, hstands⟩ := hz
        exact safeE_bind (safeE_auditAndEmit hstands) fun _ v hv => safeE_pure hv
      | clarify message options =>
        exact safeE_bind (safeE_emit hz) fun _ v hv => safeE_pure hv
      | preview operation card =>
        obtain ⟨lease?, hstands⟩ := hz
        exact safeE_bind (safeE_emitPreviewFor hstands.unready) fun _ v hv => safeE_pure hv

theorem safeE_planTurn {narrowed : Bool} (h : Stands config .rest x) :
    SafeE (S := leaseSpec config) (planTurn narrowed)
      (fun _ => Stands config .rest) (fun _ => Stands config .rest) x := by
  refine safeE_bind (safeE_quiet (o := .planConversation false) rfl h) fun plan y hy => ?_
  refine safeE_bind (safeE_quiet (o := .aborted) rfl hy) fun aborted z hz => ?_
  cases aborted with
  | true => exact safeE_pure hz
  | false =>
    simp only [Bool.false_eq_true, if_false]
    split
    · refine safeE_bind (safeE_quiet (o := .planConversation true) rfl hz) fun plan v hv => ?_
      refine safeE_bind (safeE_quiet (o := .aborted) rfl hv) fun aborted u hu => ?_
      cases aborted <;> exact safeE_pure hu
    · exact safeE_pure hz

theorem safeE_runPlannedTurn {narrowed : Bool} (h : Stands config .rest x) :
    SafeE (S := leaseSpec config) (runPlannedTurn config narrowed)
      (fun _ => Stands config .rest) (fun _ => Stands config .rest) x := by
  refine safeE_bind (safeE_caught (safeE_planTurn h)) fun plan y hy => ?_
  have hy : Stands config .rest y := by cases plan <;> exact hy
  match plan with
  | .error e =>
    refine safeE_bind (safeE_quiet (o := .aborted) rfl hy) fun aborted z hz => ?_
    cases aborted <;> exact safeE_pure hz
  | .ok none => exact safeE_pure hy
  | .ok (some plan) =>
    refine safeE_bind (safeE_runPlannedActions hy) fun asked z hz => ?_
    cases asked <;> exact safeE_pure hz

theorem safeE_runResume (h : Stands config .rest x) :
    SafeE (S := leaseSpec config) (runResume config messages)
      (fun _ => Stands config .rest) (fun _ => Stands config .rest) x := by
  refine safeE_bind (safeE_quiet (o := .resumable) rfl h) fun resumable y hy => ?_
  cases resumable with
  | false => exact safeE_pure hy
  | true =>
    refine safeE_bind (safeE_caught (safeE_runAgentTurn hy)) fun turn z hz => ?_
    cases turn with
    | error e => exact safeE_pure hz
    | ok turn => exact safeE_bind (safeE_settleAgentTurn hz) fun _ v hv => safeE_pure hv

end Turns

end TurnMachinery

end ClockifyAssistant
