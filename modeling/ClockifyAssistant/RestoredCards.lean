import ClockifyAssistant.PresentedTruth
import ClockifyAssistant.Services.RunEventHydration
import ClockifyAssistant.Ui.Shared
import ClockifyAssistant.Ui.WireRoundTrip

/-!
The card of a stored result, live and after a reload. The live stream carries the envelope;
the history carries a receipt, of which the client reads less than the server writes.
-/
namespace ClockifyAssistant

open Lib Protocol ResultView RunEventHydration

/-- What a receipt card shows; a text or a list that is left out shows nothing. -/
structure ReceiptCard where
  title : String
  status : Option PresentedStatus
  message : String
  warnings : List (String × String)
  facts : List PresentedFact
  references : List PresentedReference
  recovery : Option PresentedRecovery
  diagnostic : Option DiagnosticView

def receiptCard (receipt : ReceiptView) : ReceiptCard where
  title := receipt.action
  status := receipt.presentedStatus
  message := receipt.message.getD ""
  warnings := (receipt.warnings.getD []).map fun warning =>
    (warning.code.getD "", warning.message)
  facts := receipt.facts.getD []
  references := receipt.references.getD []
  recovery := receipt.recovery
  diagnostic := receipt.diagnostic

/-- The action that the receipt itself names. -/
def receiptAction (stored : JsonValue) : String :=
  ((stored.property "receipt").bind fun receipt => textProperty "action" receipt).getD ""

/-- The history row of a result. -/
def restoredResult (deps : ResultViewDeps) (id : String) (stored : JsonValue) : JsonValue :=
  chatReceiptFromEnvelope (presentActionResult deps (receiptAction stored) id stored)

def restoredCard (deps : ResultViewDeps) (isDate : String → Bool) (id : String)
    (stored : JsonValue) : Option ReceiptCard :=
  (decodeReceipt isDate (restoredResult deps id stored)).toOption.map fun result =>
    receiptCard result.receipt

/-- The receipt card of the results that an attachment becomes. -/
def shownCard : List ChatResult → Option ReceiptCard
  | [.receipt result] => some (receiptCard result.receipt)
  | _ => none

/-- The receipt card of the attachment that an event is served with. -/
def liveCard {isDate : String → Bool} (ctx : HydrationContext isDate) (event : HydratedEvent) :
    Option ReceiptCard :=
  (hydrateAttachment ctx event).bind fun attachment =>
    (decodeRunEventAttachment isDate attachment.toJson).toOption.bind fun decoded =>
      shownCard (attachmentToResults decoded)

/-- The name that the live path presents the result of an event under. -/
def liveAction : HydratedEvent → Option (String × String)
  | .toolCompleted actionName actionResultId => some (actionName, actionResultId)
  | .operationCompleted actionResultId => some ("operation", actionResultId)
  | _ => none

/-- The facts that a stored result shows. -/
def storedFacts (stored : JsonValue) : List PresentedFact :=
  match storedStatus stored, stored.property "receipt" with
  | .succeeded, some receipt => factsFromReceipt receipt
  | _, _ => []

/-- The results whose card survives a reload: both paths name the action alike, and the card
has neither facts nor a diagnostic to lose. -/
structure Restorable (deps : ResultViewDeps) (actionName : String) (stored : JsonValue) :
    Prop where
  shownLive : stored.truthy = true
  sameTitle : humanTitle deps actionName = humanTitle deps (receiptAction stored)
  noFacts : storedFacts stored = []
  tooLarge : diagnosticValueMaxBytes < stored.jsonBytes deps.numberText
  notExport : ¬ (storedStatus stored = .succeeded ∧
    humanTitle deps (receiptAction stored) = "clockify_invoices_export")

section Presentation

variable (deps : ResultViewDeps) (stored : JsonValue)

theorem presentationFromStored_title (actionName other : String) :
    presentationFromStored deps actionName stored =
      { presentationFromStored deps other stored with title := humanTitle deps actionName } := by
  simp only [presentationFromStored]
  split
  · rfl
  · split
    · simp only [presentReceipt]
      split
      · split <;> rfl
      · rfl
    · rfl
    · rfl

theorem presentReceipt_okFacts (title : String) {receipt : JsonValue}
    (hok : receipt.property "ok" = some (.bool true)) :
    (presentReceipt deps title receipt).facts = factsFromReceipt receipt := by
  simp only [presentReceipt, hok]
  split <;> rfl

theorem presentReceipt_noFacts (title : String) {receipt : JsonValue}
    (hok : receipt.property "ok" ≠ some (.bool true)) :
    (presentReceipt deps title receipt).facts = [] := by
  unfold presentReceipt
  split
  · contradiction
  · rfl

theorem presentReceipt_plain (title : String) (receipt : JsonValue) :
    (presentReceipt deps title receipt).references = [] ∧
      (presentReceipt deps title receipt).recovery = none := by
  simp only [presentReceipt]
  split
  · split <;> exact ⟨rfl, rfl⟩
  · exact ⟨rfl, rfl⟩

theorem presentationFromStored_plain (actionName : String) :
    (presentationFromStored deps actionName stored).references = [] ∧
      (presentationFromStored deps actionName stored).recovery = none := by
  obtain ⟨receipt, -, -, heq⟩ | ⟨⟨message, warnings, heq⟩, -⟩ :=
    presentationFromStored_cases deps actionName stored
  · rw [heq]
    exact presentReceipt_plain deps _ receipt
  · rw [heq]
    exact ⟨rfl, rfl⟩

theorem presentationFromStored_facts (actionName : String) :
    (presentationFromStored deps actionName stored).facts = storedFacts stored := by
  obtain ⟨receipt, hkind, hreceipt, heq⟩ | ⟨⟨message, warnings, heq⟩, hstatus, -⟩ :=
    presentationFromStored_cases deps actionName stored
  · obtain ⟨value, hvalue, hrecord⟩ := Option.bind_eq_some_iff.mp hreceipt
    have hvalue' : value = receipt := by
      cases value <;> simp_all [asRecord]
    have hsucceeded := storedStatus_receipt hkind hreceipt
    by_cases hok : receipt.property "ok" = some (.bool true)
    · rw [heq, presentReceipt_okFacts deps _ hok, storedFacts, hsucceeded.mpr hok, hvalue, hvalue']
    · have hnot : storedStatus stored ≠ .succeeded := fun h => hok (hsucceeded.mp h)
      rw [heq, presentReceipt_noFacts deps _ hok]
      simp only [storedFacts]
      split <;> simp_all
  · rw [heq]
    simp only [storedFacts]
    split <;> simp_all [failedResult]

end Presentation

section Receipt

variable {isDate : String → Bool}

theorem warningFrom_toJson (warning : PresentedWarning) (name : String) :
    warningFrom (some warning.toJson) name =
      .ok { code := nonEmptyText (some warning.code), message := warning.message } := rfl

theorem warningsFrom_nonEmpty (warnings : List PresentedWarning) :
    warningsFrom (nonEmpty PresentedWarning.toJson warnings) =
      .ok (present (warnings.map fun warning =>
        { code := nonEmptyText (some warning.code), message := warning.message })) := by
  cases warnings with
  | nil => rfl
  | cons warning rest =>
    have hitems := decodeItems_map warningFrom_toJson "result.receipt.warnings" 0 (warning :: rest)
    show (do return some (← decodeItems "result.receipt.warnings" warningFrom 0
      ((warning :: rest).map PresentedWarning.toJson))) = _
    rw [hitems]
    rfl

/-- What the client keeps of a history row. -/
def keptReceipt (envelope : PresentedResultEnvelope) (artifact : Option ArtifactDescriptor) :
    ReceiptResult where
  receipt := {
    ok := statusOk envelope.presentation.status
    action := envelope.presentation.title
    message := nonEmptyText (some envelope.presentation.summary)
    warnings := present (envelope.presentation.warnings.map fun warning =>
      { code := nonEmptyText (some warning.code), message := warning.message })
    artifact
    presentedStatus := some envelope.presentation.status }

/-- A history row is refused where it looks like an export without its file. -/
theorem decodeReceipt_chatReceipt (envelope : PresentedResultEnvelope) :
    (decodeReceipt isDate (chatReceiptFromEnvelope envelope)).toOption =
      if statusOk envelope.presentation.status = true ∧
          envelope.presentation.title = "clockify_invoices_export" then none
      else some (keptReceipt envelope none) := by
  have hwarnings := warningsFrom_nonEmpty envelope.presentation.warnings
  have hstatus := ofText?_text envelope.presentation.status
  have hdecoded : decodeReceipt isDate (chatReceiptFromEnvelope envelope) =
      (if statusOk envelope.presentation.status = true ∧
          envelope.presentation.title = "clockify_invoices_export" then
        protocolError "receipt.data is required after invoice export"
      else .ok none) >>= fun artifact => .ok (keptReceipt envelope artifact) := by
    simp (disch := simp) [decodeReceipt, chatReceiptFromEnvelope, property_presentFields,
      List.lookup_cons, hwarnings, boolean, optionalString, artifactOf, undoFrom, hstatus,
      keptReceipt]
  rw [hdecoded]
  by_cases hexport : statusOk envelope.presentation.status = true ∧
      envelope.presentation.title = "clockify_invoices_export"
  · rw [if_pos hexport, if_pos hexport]
    rfl
  · rw [if_neg hexport, if_neg hexport]
    rfl

theorem nonEmptyText_getD (text : String) : (nonEmptyText (some text)).getD "" = text := by
  by_cases h : text = ""
  · simp [nonEmptyText, h]
  · simp [nonEmptyText, h]

theorem present_getD {α : Type} (items : List α) : (present items).getD [] = items := by
  cases items <;> rfl

theorem receiptCard_receiptResult (envelope : PresentedResultEnvelope) :
    receiptCard (receiptResult envelope).receipt = {
      title := envelope.presentation.title
      status := some envelope.presentation.status
      message := envelope.presentation.summary
      warnings := envelope.presentation.warnings.map fun warning =>
        (warning.code, warning.message)
      facts := envelope.presentation.facts
      references := envelope.presentation.references
      recovery := envelope.presentation.recovery
      diagnostic := envelope.diagnostic } := by
  simp [receiptCard, receiptResult, present_getD]

/-- The card of a kept receipt has the texts and the warnings of the envelope only. -/
theorem receiptCard_keptReceipt (envelope : PresentedResultEnvelope)
    (artifact : Option ArtifactDescriptor) :
    receiptCard (keptReceipt envelope artifact).receipt = {
      title := envelope.presentation.title
      status := some envelope.presentation.status
      message := envelope.presentation.summary
      warnings := envelope.presentation.warnings.map fun warning =>
        (warning.code, warning.message)
      facts := []
      references := []
      recovery := none
      diagnostic := none } := by
  simp [receiptCard, keptReceipt, present_getD, nonEmptyText_getD]

theorem statusOk_presentation (deps : ResultViewDeps) (actionName : String) (stored : JsonValue) :
    statusOk (presentationFromStored deps actionName stored).status = true ↔
      storedStatus stored = .succeeded := by
  have hstatus := presentationFromStored_status deps actionName stored
  by_cases hterminal : storedStatus stored = .succeeded
  · rw [if_pos hterminal] at hstatus
    rcases hstatus with h | h <;> simp [h, hterminal, statusOk]
  · rw [if_neg hterminal] at hstatus
    simp [hstatus, hterminal, statusOk]

theorem restoredCard_eq (deps : ResultViewDeps) (id : String) (stored : JsonValue) :
    restoredCard deps isDate id stored =
      if storedStatus stored = .succeeded ∧
          humanTitle deps (receiptAction stored) = "clockify_invoices_export" then none
      else
        let presentation := presentationFromStored deps (receiptAction stored) stored
        some {
          title := humanTitle deps (receiptAction stored)
          status := some presentation.status
          message := presentation.summary
          warnings := presentation.warnings.map fun warning => (warning.code, warning.message)
          facts := []
          references := []
          recovery := none
          diagnostic := none } := by
  have htitle : (presentationFromStored deps (receiptAction stored) stored).title =
      humanTitle deps (receiptAction stored) := by
    rw [presentationFromStored_title deps stored (receiptAction stored) ""]
  have hdecoded := @decodeReceipt_chatReceipt isDate
    (presentActionResult deps (receiptAction stored) id stored)
  simp only [restoredCard, restoredResult]
  rw [hdecoded]
  simp only [presentActionResult, statusOk_presentation, htitle]
  by_cases hexport : storedStatus stored = .succeeded ∧
      humanTitle deps (receiptAction stored) = "clockify_invoices_export"
  · rw [if_pos hexport, if_pos hexport]
    rfl
  · rw [if_neg hexport, if_neg hexport]
    simp only [Option.map_some, receiptCard_keptReceipt, htitle]

variable {actionName id : String} {event : HydratedEvent}

theorem hydrateAttachment_result (ctx : HydrationContext isDate)
    (hevent : liveAction event = some (actionName, id)) :
    hydrateAttachment ctx event = presentedAttachment ctx actionName id := by
  cases event with
  | toolCompleted name result =>
    cases hevent
    rfl
  | operationCompleted result =>
    cases hevent
    rfl
  | modelCompleted | operationPrepared | clarificationRequired | other => cases hevent

theorem presentation_notPending (deps : ResultViewDeps) (actionName : String) (stored : JsonValue) :
    (presentationFromStored deps actionName stored).status ≠ .pendingConfirmation := by
  intro h
  have hstatus := presentationFromStored_status deps actionName stored
  rw [h] at hstatus
  split at hstatus <;> simp at hstatus

/-- The card of the attachment that a stored result is served with. -/
theorem liveCard_eq (ctx : HydrationContext isDate) {stored : JsonValue}
    (hevent : liveAction event = some (actionName, id))
    (hstored : ctx.getActionResult id = some stored) :
    liveCard ctx event =
      if stored.truthy = true then
        let presentation := presentationFromStored ctx.resultViews actionName stored
        some {
          title := humanTitle ctx.resultViews actionName
          status := some presentation.status
          message := presentation.summary
          warnings := presentation.warnings.map fun warning => (warning.code, warning.message)
          facts := storedFacts stored
          references := []
          recovery := none
          diagnostic := boundedDiagnostic ctx.resultViews stored }
      else none := by
  by_cases htruthy : stored.truthy = true
  · have hattachment : hydrateAttachment ctx event = some (.presentedResult id
        (presentActionResult ctx.resultViews actionName id stored)) := by
      rw [hydrateAttachment_result ctx hevent]
      simp [presentedAttachment, hstored, htruthy]
    have hdates : (RunEventAttachment.presentedResult id
        (presentActionResult ctx.resultViews actionName id stored)).HasDates isDate := by
      intro confirmation hconfirmation
      cases hconfirmation
    have hdecoded := decodeRunEventAttachment_toJson hdates
    have htitle : (presentationFromStored ctx.resultViews actionName stored).title =
        humanTitle ctx.resultViews actionName := by
      rw [presentationFromStored_title ctx.resultViews stored actionName ""]
    have hplain := presentationFromStored_plain ctx.resultViews stored actionName
    have hfacts := presentationFromStored_facts ctx.resultViews stored actionName
    have hpending := presentation_notPending ctx.resultViews actionName stored
    rw [if_pos htruthy]
    simp only [liveCard, hattachment, Option.bind_some]
    rw [hdecoded]
    simp only [RunEventAttachment.withoutUndo, attachmentToResults, presentActionResult, hpending,
      Except.toOption, Option.bind_some, if_false, shownCard, receiptCard_receiptResult, htitle,
      hplain, hfacts]
  · rw [if_neg htruthy]
    simp [liveCard, hydrateAttachment_result ctx hevent, presentedAttachment, hstored, htruthy]

theorem boundedDiagnostic_eq_none (deps : ResultViewDeps) (stored : JsonValue) :
    boundedDiagnostic deps stored = none ↔
      diagnosticValueMaxBytes < stored.jsonBytes deps.numberText := by
  simp only [boundedDiagnostic]
  split <;> simp_all

/-- Both paths show one card exactly where the stored result is restorable. -/
theorem liveCard_restored (ctx : HydrationContext isDate) {event : HydratedEvent}
    {actionName id : String} {stored : JsonValue}
    (hevent : liveAction event = some (actionName, id))
    (hstored : ctx.getActionResult id = some stored) : (∃ card, liveCard ctx event = some card ∧
      restoredCard ctx.resultViews isDate id stored = some card) ↔
      Restorable ctx.resultViews actionName stored := by
  rw [liveCard_eq ctx hevent hstored, restoredCard_eq]
  have hsame := presentationFromStored_title ctx.resultViews stored actionName
    (receiptAction stored)
  constructor
  · rintro ⟨card, hlive, hrestored⟩
    by_cases htruthy : stored.truthy = true
    · rw [if_pos htruthy] at hlive
      by_cases hexport : storedStatus stored = .succeeded ∧
          humanTitle ctx.resultViews (receiptAction stored) = "clockify_invoices_export"
      · rw [if_pos hexport] at hrestored
        cases hrestored
      · rw [if_neg hexport] at hrestored
        have hcard := Option.some.inj (hlive.trans hrestored.symm)
        simp only [ReceiptCard.mk.injEq] at hcard
        obtain ⟨htitle, -, -, -, hfacts, -, -, hdiagnostic⟩ := hcard
        exact ⟨htruthy, htitle, hfacts, (boundedDiagnostic_eq_none _ _).mp hdiagnostic, hexport⟩
    · rw [if_neg htruthy] at hlive
      cases hlive
  · intro h
    have hdiagnostic := (boundedDiagnostic_eq_none ctx.resultViews stored).mpr h.tooLarge
    rw [if_pos h.shownLive, if_neg h.notExport]
    refine ⟨_, rfl, ?_⟩
    simp only [hsame, h.sameTitle, h.noFacts, hdiagnostic]

variable {attachment : RunEventAttachment}

theorem presentedAttachment_hasDates (ctx : HydrationContext isDate)
    (h : presentedAttachment ctx actionName id = some attachment) : attachment.HasDates isDate := by
  unfold presentedAttachment at h
  split at h
  · split at h
    · cases h
      intro confirmation hconfirmation
      cases hconfirmation
    · cases h
  · cases h

theorem hydrateAttachment_hasDates (ctx : HydrationContext isDate)
    (h : hydrateAttachment ctx event = some attachment) : attachment.HasDates isDate := by
  cases event with
  | modelCompleted chatMessageId =>
    simp only [hydrateAttachment, Option.bind_eq_bind, Option.bind_eq_some_iff] at h
    obtain ⟨messageId, -, h⟩ := h
    split at h
    · cases h
    · obtain ⟨text, -, h⟩ := Option.bind_eq_some_iff.mp h
      cases h
      trivial
  | toolCompleted actionName id => exact presentedAttachment_hasDates ctx h
  | operationCompleted id => exact presentedAttachment_hasDates ctx h
  | operationPrepared confirmationId =>
    simp only [hydrateAttachment, Option.bind_eq_bind, Option.bind_eq_some_iff] at h
    obtain ⟨record, -, h⟩ := h
    split at h
    · cases h
    · obtain ⟨nonce, -, h⟩ := Option.bind_eq_some_iff.mp h
      split at h
      · cases h
      · cases h
        intro confirmation hconfirmation
        cases hconfirmation
        exact record.expiresAt.valid
  | clarificationRequired clarificationId actionResultId =>
    simp only [hydrateAttachment, Option.bind_eq_bind, Option.bind_eq_some_iff] at h
    obtain ⟨row, -, status, -, h⟩ := h
    split at h
    · cases h
    · obtain ⟨question, -, h⟩ := Option.bind_eq_some_iff.mp h
      cases h
      exact row.expiresAt.valid
  | other => cases h

theorem hydrateFrom_attachment (ctx : HydrationContext isDate)
    (presented : List (String × String)) (events : List HydratedEvent)
    {entry : HydratedEvent × Option RunEventAttachment}
    (hentry : entry ∈ hydrateFrom ctx presented events) :
    entry.2 = none ∨ entry.2 = hydrateAttachment ctx entry.1 := by
  induction events generalizing presented with
  | nil => cases hentry
  | cons event rest ih =>
    simp only [hydrateFrom] at hentry
    split at hentry
    · split at hentry
      · rcases List.mem_cons.mp hentry with rfl | hrest
        · exact Or.inl rfl
        · exact ih _ hrest
      · rcases List.mem_cons.mp hentry with rfl | hrest
        · exact Or.inr rfl
        · exact ih _ hrest
    · rcases List.mem_cons.mp hentry with rfl | hrest
      · exact Or.inr rfl
      · exact ih _ hrest

theorem hydrated_accepted (ctx : HydrationContext isDate) (events : List HydratedEvent)
    {entry : HydratedEvent × Option RunEventAttachment}
    (hentry : entry ∈ hydrateRunEventAttachments ctx events)
    (hattachment : entry.2 = some attachment) :
    decodeRunEventAttachment isDate attachment.toJson = .ok attachment.withoutUndo := by
  rcases hydrateFrom_attachment ctx [] events hentry with hnone | hsome
  · rw [hnone] at hattachment
    cases hattachment
  · rw [hsome] at hattachment
    exact decodeRunEventAttachment_toJson (hydrateAttachment_hasDates ctx hattachment)

/-- The previews and results that a page presents, in order. -/
def presentedKeys (page : List (HydratedEvent × Option RunEventAttachment)) :
    List (String × String) :=
  page.filterMap fun entry => entry.2.bind fun _ => preKey entry.1

theorem presentedKeys_hydrateFrom (ctx : HydrationContext isDate)
    (presented : List (String × String)) (events : List HydratedEvent) :
    (presentedKeys (hydrateFrom ctx presented events)).Nodup ∧
      ∀ key ∈ presentedKeys (hydrateFrom ctx presented events), key ∉ presented := by
  induction events generalizing presented with
  | nil => simp [hydrateFrom, presentedKeys]
  | cons event rest ih =>
    unfold hydrateFrom
    split
    · rename_i key hkey
      obtain ⟨hnodup, hnew⟩ := ih (key :: presented)
      split
      · exact ih presented
      · rename_i hfresh
        have hlater : ∀ k ∈ presentedKeys (hydrateFrom ctx (key :: presented) rest),
            k ∉ presented := fun k hk hmem => hnew k hk (List.mem_cons_of_mem _ hmem)
        cases hattachment : hydrateAttachment ctx event with
        | none => exact ⟨hnodup, hlater⟩
        | some attachment =>
          have hcons : presentedKeys ((event, some attachment) ::
              hydrateFrom ctx (key :: presented) rest) =
              key :: presentedKeys (hydrateFrom ctx (key :: presented) rest) :=
            List.filterMap_cons_some hkey
          rw [hcons]
          exact ⟨List.nodup_cons.mpr ⟨fun hmem => hnew key hmem List.mem_cons_self, hnodup⟩,
            List.forall_mem_cons.mpr ⟨hfresh, hlater⟩⟩
    · rename_i hkey
      have hskip : presentedKeys ((event, hydrateAttachment ctx event) ::
          hydrateFrom ctx presented rest) = presentedKeys (hydrateFrom ctx presented rest) := by
        simp [presentedKeys, hkey]
      rw [hskip]
      exact ih presented

/-- What is attached to a served page is read back by the client as it was written, without
the undo handles. -/
theorem served_page_reads_back (ctx : HydrationContext isDate) (events : List HydratedEvent) :
    (hydrateRunEventAttachments ctx events).map (fun entry =>
        entry.2.map fun attachment => decodeRunEventAttachment isDate attachment.toJson) =
      (hydrateRunEventAttachments ctx events).map (fun entry =>
        entry.2.map fun attachment => .ok attachment.withoutUndo) := by
  refine List.map_congr_left fun entry hentry => ?_
  cases hattachment : entry.2 with
  | none => rfl
  | some attachment => exact congrArg some (hydrated_accepted ctx events hentry hattachment)

end Receipt

/-- Every attachment is accepted, and the card of a stored result is the same after a reload
exactly where both paths name its action alike, it shows no facts, its JSON is too large for
a diagnostic, and the row does not look like an export without its file. -/
theorem restored_history_matches {isDate : String → Bool} (ctx : HydrationContext isDate) :
    (∀ events, ∀ entry ∈ hydrateRunEventAttachments ctx events, ∀ attachment,
      entry.2 = some attachment →
        ∃ decoded, decodeRunEventAttachment isDate attachment.toJson = .ok decoded) ∧
    ∀ event actionName id stored, liveAction event = some (actionName, id) →
      ctx.getActionResult id = some stored → ((∃ card, liveCard ctx event = some card ∧
          restoredCard ctx.resultViews isDate id stored = some card) ↔
          Restorable ctx.resultViews actionName stored) := by
  constructor
  · intro events entry hentry attachment hattachment
    exact ⟨_, hydrated_accepted ctx events hentry hattachment⟩
  · intro event actionName id stored hevent hstored
    exact liveCard_restored ctx hevent hstored

/-- The result of a list of groups that has one group. -/
def listedGroups : JsonValue :=
  .obj [("kind", .str "receipt"), ("receipt", .obj [("ok", .bool true),
    ("action", .str "clockify_groups_list"), ("message", .str "Found 1 group."),
    ("data", .obj [("groups", .arr [.obj [("id", .str "g1"), ("name", .str "Managers")]])])])]

/-- A page of the run that read the groups. -/
def groupsPage : HydrationContext fun text => text.toList.length == 24 where
  resultViews := ⟨fun _ => none, fun number => toString number.num⟩
  findAssistantMessage := fun _ => none
  getActionResult := fun id => if id = "result-1" then some listedGroups else none
  getPendingConfirmation := fun _ => none
  rotatePendingNonce := fun _ => none
  updateConfirmationNonceHash := fun _ _ => false
  getPendingClarification := fun _ => none

theorem restored_groups_differ :
    ¬ ∃ card, liveCard groupsPage (.toolCompleted "clockify_groups_list" "result-1") = some card ∧
      restoredCard groupsPage.resultViews (fun text => text.toList.length == 24) "result-1"
        listedGroups = some card := by
  intro h
  have hrestorable := ((restored_history_matches groupsPage).2
    (.toolCompleted "clockify_groups_list" "result-1") "clockify_groups_list" "result-1" listedGroups
    rfl rfl).mp h
  exact absurd hrestorable.noFacts (by decide)

/-- The live card of a list says how many items were returned; the restored card does not. -/
theorem reload_loses_facts :
    ¬ ∀ (isDate : String → Bool) (ctx : HydrationContext isDate) (event : HydratedEvent)
      (actionName id : String) (stored : JsonValue),
      liveAction event = some (actionName, id) → ctx.getActionResult id = some stored →
        ∃ card, liveCard ctx event = some card ∧
          restoredCard ctx.resultViews isDate id stored = some card := by
  intro h
  have hcard := h _ groupsPage (.toolCompleted "clockify_groups_list" "result-1")
    "clockify_groups_list" "result-1" listedGroups rfl rfl
  have hrestorable := (@liveCard_restored _ groupsPage
    (.toolCompleted "clockify_groups_list" "result-1") _ _ _ rfl rfl).mp hcard
  exact absurd hrestorable.noFacts (by decide)

end ClockifyAssistant
