import ClockifyAssistant.Ui.Protocol

/-!
What the client reads of an attachment is what the server wrote, but for the undo handle.
-/
namespace ClockifyAssistant

open Lib Protocol

@[simp] theorem ok_bind {α β : Type} (value : α) (next : α → Decode β) :
    (Except.ok value : Decode α) >>= next = next value := rfl

@[simp] theorem ok_pure {α : Type} (value : α) : (pure value : Decode α) = .ok value := rfl

@[simp] theorem property_obj (name : String) (fields : List (String × JsonValue)) :
    (JsonValue.obj fields).property name = fields.lookup name := rfl

@[simp] theorem text?_str (text : String) : (JsonValue.str text).text? = some text := rfl

@[simp] theorem record_obj (fields : List (String × JsonValue)) (name : String) :
    record (some (.obj fields)) name = .ok (.obj fields) := rfl

@[simp] theorem record_presentFields (fields : List (String × Option JsonValue)) (name : String) :
    record (some (presentFields fields)) name = .ok (presentFields fields) := rfl

/-- Fields of distinct names are found under their names, unless they are left out. -/
theorem property_presentFields {fields : List (String × Option JsonValue)}
    (hnodup : (fields.map Prod.fst).Nodup) (name : String) :
    (presentFields fields).property name = (fields.lookup name).join := by
  simp only [presentFields, property_obj]
  induction fields with
  | nil => rfl
  | cons field rest ih =>
    obtain ⟨key, value⟩ := field
    rw [List.map_cons, List.nodup_cons] at hnodup
    have hrest := ih hnodup.2
    by_cases hkey : name = key
    · subst hkey
      cases value with
      | some value => simp
      | none =>
        have habsent : rest.lookup name = none := by
          rw [List.lookup_eq_none_iff]
          intro field hfield
          have hne : name ≠ field.1 := by
            intro h
            rw [h] at hnodup
            exact hnodup.1 (List.mem_map.mpr ⟨field, hfield, rfl⟩)
          simpa using hne
        simp [hrest, habsent]
    · have hbeq : (name == key) = false := by simpa using hkey
      cases value with
      | some value => simp [List.lookup_cons, hbeq, hrest]
      | none => simp [List.lookup_cons, hbeq, hrest]

@[simp] theorem string_str (text name : String) : string (some (.str text)) name = .ok text := rfl

theorem decodeItems_map {α β : Type} {encode : α → JsonValue} {read : α → β}
    {decode : Option JsonValue → String → Decode β}
    (hdecode : ∀ item name, decode (some (encode item)) name = .ok (read item)) (name : String)
    (index : Nat) (items : List α) :
    decodeItems name decode index (items.map encode) = .ok (items.map read) := by
  induction items generalizing index with
  | nil => rfl
  | cons item rest ih =>
    simp only [List.map_cons, decodeItems, hdecode, ih]
    rfl

theorem array_map {α : Type} {encode : α → JsonValue}
    {decode : Option JsonValue → String → Decode α}
    (hdecode : ∀ item name, decode (some (encode item)) name = .ok item) (name : String)
    (items : List α) : array (some (.arr (items.map encode))) name decode = .ok items := by
  have hitems := @decodeItems_map α α encode id decode hdecode name 0 items
  simpa [array] using hitems

@[simp] theorem nonNegativeInteger_natCast (number : Nat) (name : String) :
    nonNegativeInteger (some (.num number)) name = .ok number := by
  simp [nonNegativeInteger, Rat.isInt]

theorem ofText?_text (status : PresentedStatus) :
    PresentedStatus.ofText? status.text = some status := by
  cases status <;> decide

theorem presentedFactFrom_toJson (fact : PresentedFact) (name : String) :
    presentedFactFrom (some fact.toJson) name = .ok fact := rfl

theorem presentedWarningFrom_toJson (warning : PresentedWarning) (name : String) :
    presentedWarningFrom (some warning.toJson) name = .ok warning := rfl

theorem bindingsFrom_map (name : String) (bindings : List (String × String)) :
    bindingsFrom name (bindings.map fun binding => (binding.1, .str binding.2)) = .ok bindings := by
  induction bindings with
  | nil => rfl
  | cons binding rest ih =>
    simp only [List.map_cons, bindingsFrom, ih, string_str]
    rfl

theorem referenceStatusFrom_text (status : ReferenceStatus) (name : String) :
    referenceStatusFrom (some (.str status.text)) name = .ok status := by
  cases status <;> rfl

theorem presentedReferenceFrom_toJson (reference : PresentedReference) (name : String) :
    presentedReferenceFrom (some reference.toJson) name = .ok reference := by
  have hstatus := referenceStatusFrom_text reference.status (name ++ ".status")
  have hbindings := bindingsFrom_map (name ++ ".bindings") reference.bindings
  simp [presentedReferenceFrom, PresentedReference.toJson, List.lookup_cons,
    JsonValue.record?, hstatus, hbindings]

theorem presentedRecoveryFrom_toJson (recovery : Option PresentedRecovery) (name : String) :
    presentedRecoveryFrom (recovery.map PresentedRecovery.toJson) name = .ok recovery := by
  rcases recovery with _ | recovery
  · rfl
  · cases recovery <;> rfl

theorem presentedDiagnosticFrom_toJson (diagnostic : Option DiagnosticView) (name : String) :
    presentedDiagnosticFrom (diagnostic.map DiagnosticView.toJson) name = .ok diagnostic := by
  rcases diagnostic with _ | diagnostic
  · rfl
  · have hbytes := nonNegativeInteger_natCast diagnostic.byteLength (name ++ ".byteLength")
    simp [presentedDiagnosticFrom, DiagnosticView.toJson, List.lookup_cons]

theorem presentedStatusFrom_text (status : PresentedStatus) (name : String) :
    presentedStatusFrom (some (.str status.text)) name = .ok status := by
  simp [presentedStatusFrom, ofText?_text]

theorem presentationFrom_toJson (result : PresentedResult) (name : String) :
    presentationFrom (some result.toJson) name = .ok result := by
  have hstatus := presentedStatusFrom_text result.status (name ++ ".status")
  have hrecovery := presentedRecoveryFrom_toJson result.recovery (name ++ ".recovery")
  have hfacts := array_map presentedFactFrom_toJson (name ++ ".facts") result.facts
  have hwarnings := array_map presentedWarningFrom_toJson (name ++ ".warnings") result.warnings
  have hreferences :=
    array_map presentedReferenceFrom_toJson (name ++ ".references") result.references
  simp (disch := simp) [presentationFrom, PresentedResult.toJson, property_presentFields,
    List.lookup_cons, hstatus, hrecovery, hfacts, hwarnings, hreferences]

variable {isDate : String → Bool}

theorem isoString_str {text : String} (hdate : isDate text = true)
    (name : String) : isoString isDate (some (.str text)) name = .ok text := by
  simp [isoString, hdate]

theorem confirmationFields_toJson {confirmation : EnvelopeConfirmation}
    (hdate : isDate confirmation.expiresAt = true) (name : String) :
    confirmationFields isDate confirmation.toJson name = .ok confirmation := by
  have hexpires := isoString_str hdate (name ++ ".expiresAt")
  obtain ⟨id, nonce, expiresAt, batchId⟩ := confirmation
  cases batchId <;>
    simp (disch := simp) [confirmationFields, EnvelopeConfirmation.toJson,
      property_presentFields, List.lookup_cons, hexpires]

theorem confirmationFrom_toJson {confirmation : Option EnvelopeConfirmation}
    (hdate : ∀ c, confirmation = some c → isDate c.expiresAt = true) (name : String) :
    confirmationFrom isDate (confirmation.map EnvelopeConfirmation.toJson) name =
      .ok confirmation := by
  rcases confirmation with _ | confirmation
  · rfl
  · have hfields := confirmationFields_toJson (hdate confirmation rfl) name
    show (do return some (← confirmationFields isDate confirmation.toJson name)) = _
    rw [hfields]
    rfl

def PresentedResultEnvelope.HasDates (isDate : String → Bool)
    (envelope : PresentedResultEnvelope) : Prop :=
  ∀ confirmation, envelope.confirmation = some confirmation → isDate confirmation.expiresAt = true

theorem envelopeFrom_toJson {isDate : String → Bool} {envelope : PresentedResultEnvelope}
    (hdates : envelope.HasDates isDate) :
    envelopeFrom isDate (some envelope.toJson) = .ok { envelope with undo := none } := by
  have hpresentation := presentationFrom_toJson envelope.presentation
  have hconfirmation := confirmationFrom_toJson hdates
  have hdiagnostic := presentedDiagnosticFrom_toJson envelope.diagnostic
  obtain ⟨presentation, actionResultId, confirmation, undo, diagnostic⟩ := envelope
  cases actionResultId <;>
    simp (disch := simp) [envelopeFrom, PresentedResultEnvelope.toJson, property_presentFields,
      List.lookup_cons, hpresentation, hconfirmation, hdiagnostic]

theorem candidateFrom_toJson (choice : ClarificationChoice) (name : String) :
    candidateFrom (some choice.toJson) name = .ok choice := by
  obtain ⟨optionId, label, referenceId⟩ := choice
  cases referenceId <;>
    simp (disch := simp) [candidateFrom, ClarificationChoice.toJson, property_presentFields,
      List.lookup_cons]

def RunEventAttachment.HasDates (isDate : String → Bool) : RunEventAttachment → Prop
  | assistantMessage _ _ => True
  | presentedResult _ envelope => envelope.HasDates isDate
  | pendingConfirmation _ envelope => envelope.HasDates isDate
  | pendingClarification _ _ _ _ _ expiresAt => isDate expiresAt = true

def RunEventAttachment.withoutUndo : RunEventAttachment → RunEventAttachment
  | presentedResult actionResultId envelope =>
      presentedResult actionResultId { envelope with undo := none }
  | pendingConfirmation confirmationId envelope =>
      pendingConfirmation confirmationId { envelope with undo := none }
  | attachment => attachment

/-- An attachment whose dates are dates is accepted, and read back without its undo handle. -/
theorem decodeRunEventAttachment_toJson
    {attachment : RunEventAttachment} (hdates : attachment.HasDates isDate) :
    decodeRunEventAttachment isDate attachment.toJson = .ok attachment.withoutUndo := by
  cases attachment with
  | assistantMessage messageId text => rfl
  | presentedResult actionResultId envelope =>
    have henvelope := @envelopeFrom_toJson isDate envelope hdates
    simp [decodeRunEventAttachment, RunEventAttachment.toJson, List.lookup_cons, henvelope,
      RunEventAttachment.withoutUndo]
  | pendingConfirmation confirmationId envelope =>
    have henvelope := @envelopeFrom_toJson isDate envelope hdates
    simp [decodeRunEventAttachment, RunEventAttachment.toJson, List.lookup_cons, henvelope,
      RunEventAttachment.withoutUndo]
  | pendingClarification clarificationId status question missingField candidates expiresAt =>
    have hcandidates := fun name => array_map candidateFrom_toJson name candidates
    have hexpires := isoString_str hdates
    simp [decodeRunEventAttachment, RunEventAttachment.toJson, List.lookup_cons, hcandidates,
      hexpires, RunEventAttachment.withoutUndo]

end ClockifyAssistant
