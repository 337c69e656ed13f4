import ClockifyAssistant.Services.ConfirmationService
import ClockifyAssistant.Services.ResultView

/-!
What a stored result says of its action, and what its presentation says. The ledger, the
audit and the confirmations read an ambiguous outcome and a partial result off the stored
value; the presentation does not have either of them.
-/
namespace ClockifyAssistant

open Lib ResultView

/-- The terminal status of a result, read off its JSON. -/
def storedStatus (stored : JsonValue) : ActionResultKind :=
  match textProperty "kind" stored, (stored.property "receipt").bind asRecord with
  | some "partial", _ => .partially
  | some "receipt", some receipt =>
      match receipt.property "ok", textProperty "code" receipt with
      | some (.bool true), _ => .succeeded
      | _, some "commit_outcome_unknown" => .outcomeUnknown
      | _, _ => .definitiveFailed
  | _, _ => .definitiveFailed

/-- The presentation says of the result what its terminal status says. -/
def Truthful (stored : JsonValue) (presented : PresentedResult) : Prop :=
  match storedStatus stored with
  | .outcomeUnknown =>
      presented.status = .outcomeUnknown ∧
        ∀ warning ∈ presented.warnings, warning.message ≠ notCompleted
  | .partially => presented.status = .partially
  | .succeeded => presented.status = .succeeded ∨ presented.status = .noChangeNeeded
  | .definitiveFailed => presented.status = .failed

/-- The JSON that recovery writes of a confirmation that was dispatched and has no receipt. -/
def dispatchUnknownJson (actionName : String) : JsonValue :=
  .obj [("kind", .str "receipt"), ("receipt", .obj [("ok", .bool false),
    ("action", .str actionName), ("code", .str "commit_outcome_unknown"),
    ("message", .str ("This confirmation entered the dispatch window without a durable " ++
      "final receipt, so its outcome is unknown.")),
    ("recovery", .str "Verify the result in Clockify before trying the action again.")])]

theorem presentReceipt_ok (deps : ResultViewDeps) (title : String) {receipt : JsonValue}
    (hok : receipt.property "ok" = some (.bool true)) :
    (presentReceipt deps title receipt).status = .succeeded ∨
      (presentReceipt deps title receipt).status = .noChangeNeeded := by
  simp only [presentReceipt, hok]
  split
  · exact Or.inr rfl
  · exact Or.inl rfl

theorem presentReceipt_notOk (deps : ResultViewDeps) (title : String) {receipt : JsonValue}
    (hok : receipt.property "ok" ≠ some (.bool true)) :
    (presentReceipt deps title receipt).status = .failed ∧
      ∃ warning ∈ (presentReceipt deps title receipt).warnings, warning.message = notCompleted := by
  unfold presentReceipt
  split
  · contradiction
  · exact ⟨rfl, _, List.mem_cons_self, rfl⟩

/-- A stored receipt is presented by its receipt; whatever else is stored has failed. -/
theorem presentationFromStored_cases (deps : ResultViewDeps) (actionName : String)
    (stored : JsonValue) : (∃ receipt, textProperty "kind" stored = some "receipt" ∧
      (stored.property "receipt").bind asRecord = some receipt ∧
      presentationFromStored deps actionName stored =
        presentReceipt deps (humanTitle deps actionName) receipt) ∨
    ((∃ message warnings, presentationFromStored deps actionName stored =
        failedResult (humanTitle deps actionName) message warnings) ∧
      storedStatus stored ≠ .succeeded ∧ storedStatus stored ≠ .outcomeUnknown) := by
  cases stored with
  | obj fields =>
    simp only [presentationFromStored, asRecord, storedStatus]
    split
    · exact Or.inl ⟨_, ‹_›, ‹_›, rfl⟩
    all_goals
      refine Or.inr ⟨⟨_, _, rfl⟩, ?_⟩
      constructor <;> split <;> simp_all
  | _ =>
    refine Or.inr ⟨?_, by simp [storedStatus, textProperty, JsonValue.property]⟩
    simp only [presentationFromStored, asRecord]
    exact ⟨_, _, rfl⟩

theorem storedStatus_receipt {stored receipt : JsonValue}
    (hkind : textProperty "kind" stored = some "receipt")
    (hreceipt : (stored.property "receipt").bind asRecord = some receipt) :
    storedStatus stored = .succeeded ↔ receipt.property "ok" = some (.bool true) := by
  simp only [storedStatus, hkind, hreceipt]
  split <;> simp_all

/-- The presentation tells success from failure, and nothing else. -/
theorem presentationFromStored_status (deps : ResultViewDeps) (actionName : String)
    (stored : JsonValue) :
    if storedStatus stored = .succeeded then
      (presentationFromStored deps actionName stored).status = .succeeded ∨
        (presentationFromStored deps actionName stored).status = .noChangeNeeded
    else (presentationFromStored deps actionName stored).status = .failed := by
  obtain ⟨receipt, hkind, hreceipt, heq⟩ | ⟨⟨message, warnings, heq⟩, hterminal, -⟩ :=
    presentationFromStored_cases deps actionName stored
  · rw [heq]
    by_cases hok : receipt.property "ok" = some (.bool true)
    · rw [if_pos ((storedStatus_receipt hkind hreceipt).mpr hok)]
      exact presentReceipt_ok deps _ hok
    · rw [if_neg fun h => hok ((storedStatus_receipt hkind hreceipt).mp h)]
      exact (presentReceipt_notOk deps _ hok).1
  · rw [if_neg hterminal, heq]
    rfl

/-- The status agrees with the stored result exactly where the result is neither an ambiguous
receipt nor a partial result. -/
theorem presented_status_truthful (deps : ResultViewDeps) (actionName actionResultId : String)
    (stored : JsonValue) :
    Truthful stored (presentActionResult deps actionName actionResultId stored).presentation ↔
      storedStatus stored ≠ .outcomeUnknown ∧ storedStatus stored ≠ .partially := by
  have hstatus := presentationFromStored_status deps actionName stored
  show Truthful stored (presentationFromStored deps actionName stored) ↔ _
  cases hterminal : storedStatus stored with
  | succeeded =>
    rw [if_pos hterminal] at hstatus
    simpa [Truthful, hterminal] using hstatus
  | partially =>
    rw [if_neg (by simp [hterminal])] at hstatus
    simp [Truthful, hterminal, hstatus]
  | definitiveFailed =>
    rw [if_neg (by simp [hterminal])] at hstatus
    simpa [Truthful, hterminal] using hstatus
  | outcomeUnknown =>
    rw [if_neg (by simp [hterminal])] at hstatus
    simp [Truthful, hterminal, hstatus]

/-- What recovery stores of an ambiguous confirmation is presented as a failure. -/
theorem presented_unknown_as_failed :
    ¬ ∀ (deps : ResultViewDeps) (actionName actionResultId : String) (stored : JsonValue),
      Truthful stored (presentActionResult deps actionName actionResultId stored).presentation := by
  intro h
  have htruthful := h ⟨fun _ => none, fun _ => "0"⟩ "clockify_delete_entity" "result-1"
    (dispatchUnknownJson "clockify_delete_entity")
  exact absurd htruthful.1 (by decide)

end ClockifyAssistant
