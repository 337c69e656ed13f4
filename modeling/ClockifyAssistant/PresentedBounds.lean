import ClockifyAssistant.PresentedTruth
import Mathlib.Tactic.IntervalCases

/-!
Whether the envelope of a stored result and the description of a stored preview are what the
schema of the presentation accepts. Warnings, summaries and texts of errors are cut on the
way; titles, fact labels, fact values and the warning of a cut summary are not.
-/
namespace ClockifyAssistant

open Lib ResultView

/-- The message that the summary of a result is made of. -/
def storedMessage (stored : JsonValue) : Option String :=
  match textProperty "kind" stored, (stored.property "receipt").bind asRecord with
  | some "receipt", some receipt => textProperty "message" receipt
  | some "clarify", _ => textProperty "message" stored
  | _, _ => none

/-- The warnings that a stored receipt holds, as they are presented. -/
def storedWarnings (deps : ResultViewDeps) (stored : JsonValue) : List PresentedWarning :=
  match (stored.property "receipt").bind asRecord with
  | some receipt => boundedWarnings deps (receipt.property "warnings")
  | none => []

def summaryTruncated : PresentedWarning where
  code := "summary_truncated"
  message := "The summary was shortened to fit the size limit."

/-- The envelope is accepted, and a summary that is not the whole message is a prefix of it
under a warning of its own. -/
structure WellPresented (deps : ResultViewDeps) (stored : JsonValue)
    (envelope : PresentedResultEnvelope) : Prop where
  accepted : presentedResultEnvelopeSchema deps.numberText envelope = true
  shortened : ∀ message, storedMessage stored = some message →
    envelope.presentation.summary ≠ message →
    (∃ rest, message = envelope.presentation.summary ++ rest) ∧
      envelope.presentation.warnings = storedWarnings deps stored ++ [summaryTruncated]

/-- The fields of the data that become facts. -/
def listFields (receipt : JsonValue) : List (String × List JsonValue) :=
  match (receipt.property "data").bind asRecord with
  | some (.obj fields) =>
      (fields.filterMap fun field => field.2.items?.map fun items => (field.1, items)).take 4
  | _ => []

/-- The entities of a change set that are named under a verb. -/
def changedNames (receipt : JsonValue) (verb : String) : List String :=
  match ((receipt.property "changed").bind asRecord).bind (JsonValue.property verb) with
  | some (.arr entries) => (entries.map entityName).take 5
  | _ => []

def warningCount (receipt : JsonValue) : Nat :=
  match receipt.property "warnings" with
  | some (.arr items) => items.length
  | _ => 0

/-- What a successful receipt needs: short names of its lists and of its changes, and room
for the warning of a cut summary. -/
structure ReceiptFits (receipt : JsonValue) : Prop where
  lists : ∀ field ∈ listFields receipt, utf16Length field.1 ≤ 247 ∧
    utf16Length (toString field.2.length) ≤ presentedResultFactValueMaxChars
  changes : ∀ verb ∈ ["created", "updated", "deleted"],
    utf16Length (", ".intercalate (changedNames receipt verb)) ≤ presentedResultFactValueMaxChars
  warnings : ∀ message, textProperty "message" receipt = some message →
    providerSummaryMaxBytes < message.utf8ByteSize →
      warningCount receipt < presentedResultMaxWarnings

/-- What a stored result needs to be presented well. -/
structure Presentable (deps : ResultViewDeps) (actionName actionResultId : String)
    (stored : JsonValue) : Prop where
  title : utf16Length (humanTitle deps actionName) ≤ presentedResultTitleMaxChars
  id : utf16Length actionResultId ≤ presentedResultStringIdMaxChars
  succeeded : storedStatus stored = .succeeded →
    ∀ receipt, stored.property "receipt" = some receipt → ReceiptFits receipt
  failed : storedStatus stored ≠ .succeeded →
    ∀ message, storedMessage stored = some message →
      utf16Length message ≤ presentedResultSummaryMaxChars

section Warnings

variable {deps : ResultViewDeps}

theorem warningSchema_iff {warning : PresentedWarning} : warningSchema warning = true ↔
      utf16Length warning.code ≤ 256 ∧ utf16Length warning.message ≤ 256 := by
  simp [warningSchema, presentedResultStringIdMaxChars, presentedResultWarningMaxChars]

theorem utf16Length_index {index : Nat} (h : index < presentedResultMaxWarnings) :
    utf16Length (toString index) ≤ 2 := by
  unfold presentedResultMaxWarnings at h
  interval_cases index <;> decide

theorem boundedWarning_accepted {index : Nat} (h : index < presentedResultMaxWarnings)
    (entry : JsonValue) : warningSchema (boundedWarning deps index entry) = true := by
  rw [warningSchema_iff]
  constructor
  · unfold boundedWarning
    dsimp only
    split
    · exact utf16Length_sliceUnits _ _
    · have hindex := utf16Length_index h
      have hlabel : utf16Length "warning_" = 8 := by decide
      rw [utf16Length_append, hlabel]
      omega
  · unfold boundedWarning
    dsimp only
    split <;> exact utf16Length_sliceUnits _ _

theorem boundedWarnings_accepted (raw : Option JsonValue) :
    ∀ warning ∈ boundedWarnings deps raw, warningSchema warning = true := by
  intro warning hwarning
  unfold boundedWarnings at hwarning
  split at hwarning
  · obtain ⟨⟨entry, index⟩, hentry, rfl⟩ := List.mem_map.mp hwarning
    have hindex := List.snd_lt_of_mem_zipIdx hentry
    have hlength : index < presentedResultMaxWarnings := by
      rw [List.length_take] at hindex
      omega
    exact boundedWarning_accepted hlength entry
  · cases hwarning

theorem length_boundedWarnings (receipt : JsonValue) :
    (boundedWarnings deps (receipt.property "warnings")).length =
      min presentedResultMaxWarnings (warningCount receipt) := by
  unfold boundedWarnings warningCount
  cases receipt.property "warnings" with
  | none => rfl
  | some value =>
    cases value with
    | arr items => simp
    | _ => rfl

end Warnings

section Facts

theorem factSchema_iff {fact : PresentedFact} : factSchema fact = true ↔
      utf16Length fact.label ≤ 256 ∧ utf16Length fact.value ≤ presentedResultFactValueMaxChars := by
  simp [factSchema, presentedResultFactLabelMaxChars]

def listFact (field : String × List JsonValue) : PresentedFact where
  label := field.1 ++ " returned"
  value := toString field.2.length

theorem listFact_accepted {field : String × List JsonValue} : factSchema (listFact field) = true ↔
      utf16Length field.1 ≤ 247 ∧
        utf16Length (toString field.2.length) ≤ presentedResultFactValueMaxChars := by
  have hlabel : utf16Length " returned" = 9 := by decide
  simp only [factSchema_iff, listFact, utf16Length_append, hlabel]
  omega

theorem dataFacts_eq (fields : List (String × JsonValue)) :
    dataFacts fields = ((fields.filterMap fun field =>
      field.2.items?.map fun items => (field.1, items)).take 4).map listFact := by
  rw [List.map_take, List.map_filterMap]
  simp [dataFacts, listFact, Function.comp_def]

theorem truncatedFacts_accepted (data : JsonValue) :
    ∀ fact ∈ truncatedFacts data, factSchema fact = true := by
  intro fact hfact
  unfold truncatedFacts at hfact
  split at hfact
  · obtain rfl := List.mem_singleton.mp hfact
    decide
  · cases hfact

def returnedFacts (receipt : JsonValue) : List PresentedFact :=
  match (receipt.property "data").bind asRecord with
  | some (.obj fields) => dataFacts fields ++ truncatedFacts (.obj fields)
  | _ => []

/-- The facts of the data are accepted exactly where its lists are named shortly. -/
theorem returnedFacts_accepted (receipt : JsonValue) :
    (∀ fact ∈ returnedFacts receipt, factSchema fact = true) ↔
    ∀ field ∈ listFields receipt, utf16Length field.1 ≤ 247 ∧
      utf16Length (toString field.2.length) ≤ presentedResultFactValueMaxChars := by
  unfold returnedFacts listFields
  split
  · rename_i fields hdata
    rw [dataFacts_eq]
    constructor
    · intro h field hfield
      exact listFact_accepted.mp (h _ (List.mem_append_left _ (List.mem_map_of_mem hfield)))
    · intro h fact hfact
      rcases List.mem_append.mp hfact with hlist | hcut
      · obtain ⟨field, hfield, rfl⟩ := List.mem_map.mp hlist
        exact listFact_accepted.mpr (h field hfield)
      · exact truncatedFacts_accepted _ fact hcut
  · simp

/-- The fact of a verb is accepted exactly where the names under it are short. -/
theorem changeFact_accepted {receipt changed : JsonValue} {verb label : String}
    (hchanged : (receipt.property "changed").bind asRecord = some changed)
    (hlabel : utf16Length label ≤ 256) :
    (∀ fact, changeFact changed verb label = some fact → factSchema fact = true) ↔
      utf16Length (", ".intercalate (changedNames receipt verb)) ≤
        presentedResultFactValueMaxChars := by
  unfold changeFact changedNames
  rw [hchanged, Option.bind_some]
  split
  · rename_i entry entries hentries
    rw [hentries]
    simp [factSchema_iff, hlabel]
  · rename_i hnone
    split
    · rename_i entries hentries
      cases entries with
      | nil => simp
      | cons entry entries => exact absurd hentries (hnone entry entries)
    · simp

def changeFacts (receipt : JsonValue) : List PresentedFact :=
  match (receipt.property "changed").bind asRecord with
  | some changed =>
      [("created", "Created"), ("updated", "Updated"), ("deleted", "Deleted")].filterMap fun verb =>
        changeFact changed verb.1 verb.2
  | none => []

theorem changeFacts_accepted (receipt : JsonValue) :
    (∀ fact ∈ changeFacts receipt, factSchema fact = true) ↔
    ∀ verb ∈ ["created", "updated", "deleted"],
      utf16Length (", ".intercalate (changedNames receipt verb)) ≤
        presentedResultFactValueMaxChars := by
  unfold changeFacts
  split
  · rename_i changed hchanged
    have hcreated := @changeFact_accepted receipt changed "created" "Created" hchanged (by decide)
    have hupdated := @changeFact_accepted receipt changed "updated" "Updated" hchanged (by decide)
    have hdeleted := @changeFact_accepted receipt changed "deleted" "Deleted" hchanged (by decide)
    simp only [List.mem_filterMap, List.mem_cons, List.not_mem_nil, or_false, exists_eq_or_imp,
      exists_eq_left, or_imp, forall_and, forall_eq]
    rw [hcreated, hupdated, hdeleted]
  · rename_i hnone
    simp [changedNames, hnone]

end Facts

section Results

variable {deps : ResultViewDeps} {title : String}

theorem presentedResultSchema_iff {result : PresentedResult} (href : result.references = []) :
    presentedResultSchema result = true ↔ utf16Length result.title ≤ presentedResultTitleMaxChars ∧
      utf16Length result.summary ≤ presentedResultSummaryMaxChars ∧
      (∀ fact ∈ result.facts, factSchema fact = true) ∧
      result.facts.length ≤ presentedResultMaxFacts ∧
      (∀ warning ∈ result.warnings, warningSchema warning = true) ∧
      result.warnings.length ≤ presentedResultMaxWarnings := by
  simp [presentedResultSchema, href, and_assoc]

theorem length_truncatedFacts (data : JsonValue) : (truncatedFacts data).length ≤ 1 := by
  unfold truncatedFacts
  split <;> simp

theorem length_changeFacts (receipt : JsonValue) : (changeFacts receipt).length ≤ 3 := by
  unfold changeFacts
  split
  · exact List.length_filterMap_le _ _
  · simp

theorem length_returnedFacts (receipt : JsonValue) : (returnedFacts receipt).length ≤ 5 := by
  unfold returnedFacts
  split
  · rename_i fields _
    have hcut := length_truncatedFacts (.obj fields)
    have hdata : (dataFacts fields).length ≤ 4 := List.length_take_le _ _
    rw [List.length_append]
    omega
  · simp

theorem factsFromReceipt_eq (receipt : JsonValue) :
    factsFromReceipt receipt = returnedFacts receipt ++ changeFacts receipt := by
  have hreturned := length_returnedFacts receipt
  have hchanges := length_changeFacts receipt
  have hlength : (returnedFacts receipt ++ changeFacts receipt).length ≤
      presentedResultMaxFacts := by
    rw [List.length_append, presentedResultMaxFacts]
    omega
  exact List.take_of_length_le hlength

theorem facts_accepted (receipt : JsonValue) :
    ((∀ fact ∈ factsFromReceipt receipt, factSchema fact = true) ∧
      (factsFromReceipt receipt).length ≤ presentedResultMaxFacts) ↔
    (∀ field ∈ listFields receipt, utf16Length field.1 ≤ 247 ∧
      utf16Length (toString field.2.length) ≤ presentedResultFactValueMaxChars) ∧
    ∀ verb ∈ ["created", "updated", "deleted"],
      utf16Length (", ".intercalate (changedNames receipt verb)) ≤
        presentedResultFactValueMaxChars := by
  have hlength : (factsFromReceipt receipt).length ≤ presentedResultMaxFacts :=
    List.length_take_le _ _
  rw [and_iff_left hlength, factsFromReceipt_eq, ← returnedFacts_accepted, ← changeFacts_accepted]
  exact List.forall_mem_append

variable {message : Option String}

theorem presentReadResult_cut (facts : List PresentedFact) (warnings : List PresentedWarning)
    (h : providerSummaryMaxBytes < (message.getD "").utf8ByteSize) :
    presentReadResult title message facts warnings = {
      status := .succeeded, title, facts
      summary := sliceBytes providerSummaryMaxBytes (message.getD "")
      warnings := warnings ++ [summaryTruncated] } := by
  unfold presentReadResult
  dsimp only
  rw [if_pos h, if_pos h]
  rfl

theorem presentReadResult_whole (facts : List PresentedFact) (warnings : List PresentedWarning)
    (h : ¬ providerSummaryMaxBytes < (message.getD "").utf8ByteSize) :
    presentReadResult title message facts warnings = {
      status := .succeeded, title, facts, summary := message.getD "", warnings } := by
  unfold presentReadResult
  dsimp only
  rw [if_neg h, if_neg h]

theorem some_of_cut (h : providerSummaryMaxBytes < (message.getD "").utf8ByteSize) :
    ∃ text, message = some text := by
  cases message with
  | none => simp at h
  | some text => exact ⟨text, rfl⟩

theorem summary_bounded (message : Option String) (facts : List PresentedFact)
    (warnings : List PresentedWarning) :
    utf16Length (presentReadResult title message facts warnings).summary ≤
      presentedResultSummaryMaxChars := by
  refine (utf16Length_le_utf8ByteSize _).trans ?_
  by_cases h : providerSummaryMaxBytes < (message.getD "").utf8ByteSize
  · rw [presentReadResult_cut facts warnings h]
    exact utf8ByteSize_sliceBytes _ _
  · rw [presentReadResult_whole facts warnings h]
    exact Nat.not_lt.mp h

theorem warnings_accepted (receipt : JsonValue) (facts : List PresentedFact) :
    ((∀ warning ∈ (presentReadResult title (textProperty "message" receipt) facts
        (boundedWarnings deps (receipt.property "warnings"))).warnings,
          warningSchema warning = true) ∧
      (presentReadResult title (textProperty "message" receipt) facts
        (boundedWarnings deps (receipt.property "warnings"))).warnings.length ≤
          presentedResultMaxWarnings) ↔ ∀ message, textProperty "message" receipt = some message →
      providerSummaryMaxBytes < message.utf8ByteSize →
      warningCount receipt < presentedResultMaxWarnings := by
  have hlength := @length_boundedWarnings deps receipt
  have haccepted := @boundedWarnings_accepted deps (receipt.property "warnings")
  by_cases h : providerSummaryMaxBytes < ((textProperty "message" receipt).getD "").utf8ByteSize
  · rw [presentReadResult_cut facts _ h]
    obtain ⟨message, hmessage⟩ := some_of_cut h
    rw [hmessage, Option.getD_some] at h
    have hall : ∀ warning ∈ boundedWarnings deps (receipt.property "warnings") ++
        [summaryTruncated], warningSchema warning = true := by
      intro warning hwarning
      rcases List.mem_append.mp hwarning with hold | hnew
      · exact haccepted warning hold
      · rw [List.mem_singleton.mp hnew]
        decide
    rw [and_iff_right hall, List.length_append, hlength, hmessage, List.length_singleton]
    constructor
    · intro hcount text htext hcut
      omega
    · intro hcount
      have hroom := hcount message rfl h
      omega
  · rw [presentReadResult_whole facts _ h]
    have hfits : (boundedWarnings deps (receipt.property "warnings")).length ≤
        presentedResultMaxWarnings := by
      rw [hlength]
      exact Nat.min_le_left _ _
    refine iff_of_true ⟨haccepted, hfits⟩ fun message hmessage hcut => ?_
    rw [hmessage, Option.getD_some] at h
    exact absurd hcut h

/-- A successful receipt is accepted under a short title exactly where it fits. -/
theorem presentReceipt_accepted {receipt : JsonValue}
    (hok : receipt.property "ok" = some (.bool true)) :
    presentedResultSchema (presentReceipt deps title receipt) = true ↔
      utf16Length title ≤ presentedResultTitleMaxChars ∧ ReceiptFits receipt := by
  have hstatus : presentedResultSchema (presentReceipt deps title receipt) =
      presentedResultSchema (presentReadResult title (textProperty "message" receipt)
        (factsFromReceipt receipt) (boundedWarnings deps (receipt.property "warnings"))) := by
    simp only [presentReceipt, hok]
    split <;> rfl
  have hfacts := facts_accepted receipt
  have hwarnings := @warnings_accepted deps title receipt (factsFromReceipt receipt)
  rw [hstatus, presentedResultSchema_iff rfl]
  constructor
  · rintro ⟨htitle, -, hfact, hcount, hwarning, hlength⟩
    obtain ⟨hlists, hchanges⟩ := hfacts.mp ⟨hfact, hcount⟩
    exact ⟨htitle, hlists, hchanges, hwarnings.mp ⟨hwarning, hlength⟩⟩
  · rintro ⟨htitle, hfits⟩
    obtain ⟨hfact, hcount⟩ := hfacts.mpr ⟨hfits.lists, hfits.changes⟩
    obtain ⟨hwarning, hlength⟩ := hwarnings.mpr hfits.warnings
    exact ⟨htitle, summary_bounded _ _ _, hfact, hcount, hwarning, hlength⟩

theorem failedResult_accepted {message : Option String} {warnings : List PresentedWarning}
    (hwarnings : ∀ warning ∈ warnings, warningSchema warning = true)
    (hlength : warnings.length ≤ presentedResultMaxWarnings) :
    presentedResultSchema (failedResult title message warnings) = true ↔
      utf16Length title ≤ presentedResultTitleMaxChars := by
  have hsummary : utf16Length (failedResult title message warnings).summary ≤
      presentedResultSummaryMaxChars := by
    cases message with
    | none => exact Nat.zero_le _
    | some text => exact utf16Length_sliceUnits _ _
  rw [presentedResultSchema_iff rfl]
  constructor
  · exact fun h => h.1
  · exact fun h => ⟨h, hsummary, by simp [failedResult], Nat.zero_le _, hwarnings, hlength⟩

theorem envelope_accepted {actionName actionResultId : String} {stored : JsonValue} :
    presentedResultEnvelopeSchema deps.numberText
        (presentActionResult deps actionName actionResultId stored) = true ↔
      presentedResultSchema (presentationFromStored deps actionName stored) = true ∧
        utf16Length actionResultId ≤ presentedResultStringIdMaxChars := by
  have hdiagnostic : (boundedDiagnostic deps stored).all (diagnosticViewSchema deps.numberText) =
      true := by
    unfold boundedDiagnostic
    dsimp only
    split
    · rfl
    · simp [diagnosticViewSchema, Nat.not_lt.mp ‹_›]
  simp [presentedResultEnvelopeSchema, presentActionResult, hdiagnostic]

/-- The reasons of a failed receipt are never the stored warnings and the one of a cut. -/
theorem reasons_ne_cut {reason : PresentedWarning} {warnings : List PresentedWarning}
    (hreason : reason.message = notCompleted)
    (hlength : warnings.length ≤ presentedResultMaxWarnings) :
    (reason :: warnings).take presentedResultMaxWarnings ≠ warnings ++ [summaryTruncated] := by
  intro heq
  have hne : reason ≠ summaryTruncated := by
    rintro rfl
    exact absurd hreason (by decide)
  have hlengths := congrArg List.length heq
  rw [List.length_take, List.length_cons, List.length_append, List.length_singleton] at hlengths
  rw [List.take_of_length_le (by rw [List.length_cons]; omega)] at heq
  have hcount := congrArg (List.count reason) heq
  rw [List.count_cons_self, List.count_append, List.count_singleton,
    if_neg (by simpa using hne.symm)] at hcount
  omega

theorem single_ne_cut {reason : PresentedWarning} (hne : reason ≠ summaryTruncated)
    (warnings : List PresentedWarning) : [reason] ≠ warnings ++ [summaryTruncated] := by
  intro heq
  have hlast := congrArg List.getLast? heq
  rw [List.getLast?_singleton, List.getLast?_concat] at hlast
  exact hne (Option.some.inj hlast)

theorem failedReceipt_presented {receipt : JsonValue}
    (hok : receipt.property "ok" ≠ some (.bool true)) :
    ∃ warnings, presentReceipt deps title receipt =
        failedResult title (textProperty "message" receipt) warnings ∧
      (∀ warning ∈ warnings, warningSchema warning = true) ∧
      warnings.length ≤ presentedResultMaxWarnings ∧
      warnings ≠ boundedWarnings deps (receipt.property "warnings") ++ [summaryTruncated] := by
  have hlength : (boundedWarnings deps (receipt.property "warnings")).length ≤
      presentedResultMaxWarnings := by
    rw [length_boundedWarnings]
    exact Nat.min_le_left _ _
  unfold presentReceipt
  split
  · contradiction
  · refine ⟨_, rfl, fun warning hwarning => ?_, List.length_take_le _ _, reasons_ne_cut rfl hlength⟩
    rcases List.mem_cons.mp (List.mem_of_mem_take hwarning) with rfl | hstored
    · rw [warningSchema_iff]
      dsimp only
      refine ⟨?_, by decide⟩
      split
      · exact utf16Length_sliceUnits _ _
      · decide
    · exact boundedWarnings_accepted _ warning hstored

/-- What is not a success is presented with its message and reasons that are accepted. -/
theorem failed_presented (actionName : String) {stored : JsonValue}
    (hfailed : storedStatus stored ≠ .succeeded) :
    ∃ warnings, presentationFromStored deps actionName stored =
        failedResult (humanTitle deps actionName) (storedMessage stored) warnings ∧
      (∀ warning ∈ warnings, warningSchema warning = true) ∧
      warnings.length ≤ presentedResultMaxWarnings ∧
      warnings ≠ storedWarnings deps stored ++ [summaryTruncated] := by
  have hrecord : ∀ row, asRecord stored = some row → row = stored := by
    intro row hrow
    cases stored <;> simp_all [asRecord]
  have hreason (reason : PresentedWarning) (h : warningSchema reason = true)
      (hne : reason ≠ summaryTruncated) :
      (∀ warning ∈ [reason], warningSchema warning = true) ∧
        [reason].length ≤ presentedResultMaxWarnings ∧
        [reason] ≠ storedWarnings deps stored ++ [summaryTruncated] := by
    refine ⟨fun warning hwarning => ?_, Nat.succ_le_succ (Nat.zero_le 11), single_ne_cut hne _⟩
    rwa [List.mem_singleton.mp hwarning]
  unfold presentationFromStored
  dsimp only
  split
  · rename_i hnone
    have hkind : textProperty "kind" stored = none := by
      cases stored <;> simp_all [asRecord, textProperty, JsonValue.property]
    have hmessage : storedMessage stored = none := by simp [storedMessage, hkind]
    rw [hmessage]
    exact ⟨_, rfl, hreason _ (by decide) (by decide)⟩
  · rename_i row hrow
    obtain rfl := hrecord row hrow
    split
    · rename_i receipt hkind hreceipt
      have hok : receipt.property "ok" ≠ some (.bool true) :=
        fun hok => hfailed ((storedStatus_receipt hkind hreceipt).mpr hok)
      have hmessage : storedMessage row = textProperty "message" receipt := by
        simp [storedMessage, hkind, hreceipt]
      have hstored : storedWarnings deps row =
          boundedWarnings deps (receipt.property "warnings") := by
        simp [storedWarnings, hreceipt]
      rw [hmessage, hstored]
      exact failedReceipt_presented hok
    · rename_i hkind
      have hmessage : storedMessage row = textProperty "message" row := by
        simp [storedMessage, hkind]
      rw [hmessage]
      exact ⟨_, rfl, hreason _ (by decide) (by decide)⟩
    · rename_i hclarify hreceipt
      have hmessage : storedMessage row = none := by
        unfold storedMessage
        split
        · exact (hreceipt _ ‹_› ‹_›).elim
        · exact (hclarify ‹_›).elim
        · rfl
      rw [hmessage]
      exact ⟨_, rfl, hreason _ (by decide) (by decide)⟩

theorem receipt_of_succeeded {stored : JsonValue} (h : storedStatus stored = .succeeded) :
    ∃ receipt, textProperty "kind" stored = some "receipt" ∧
      (stored.property "receipt").bind asRecord = some receipt ∧
      stored.property "receipt" = some receipt ∧ receipt.property "ok" = some (.bool true) := by
  obtain ⟨receipt, hkind, hreceipt⟩ : ∃ receipt, textProperty "kind" stored = some "receipt" ∧
      (stored.property "receipt").bind asRecord = some receipt := by
    unfold storedStatus at h
    split at h
    · cases h
    · exact ⟨_, ‹_›, ‹_›⟩
    · cases h
  refine ⟨receipt, hkind, hreceipt, ?_, (storedStatus_receipt hkind hreceipt).mp h⟩
  obtain ⟨value, hvalue, hrecord⟩ := Option.bind_eq_some_iff.mp hreceipt
  cases value <;> simp_all [asRecord]

/-- A success whose summary is not its message was cut, and says so. -/
theorem success_shortened {stored receipt : JsonValue} {message : String}
    (hreceipt : (stored.property "receipt").bind asRecord = some receipt)
    (hok : receipt.property "ok" = some (.bool true))
    (hmessage : textProperty "message" receipt = some message)
    (hsummary : (presentReceipt deps title receipt).summary ≠ message) :
    (∃ rest, message = (presentReceipt deps title receipt).summary ++ rest) ∧
      (presentReceipt deps title receipt).warnings =
        storedWarnings deps stored ++ [summaryTruncated] := by
  have hpresented : (presentReceipt deps title receipt).summary = (presentReadResult title
        (some message) (factsFromReceipt receipt)
        (boundedWarnings deps (receipt.property "warnings"))).summary ∧
      (presentReceipt deps title receipt).warnings = (presentReadResult title
        (some message) (factsFromReceipt receipt)
        (boundedWarnings deps (receipt.property "warnings"))).warnings := by
    simp only [presentReceipt, hok, hmessage]
    split <;> exact ⟨rfl, rfl⟩
  have hstored : storedWarnings deps stored =
      boundedWarnings deps (receipt.property "warnings") := by
    simp [storedWarnings, hreceipt]
  rw [hpresented.1] at hsummary
  rw [hpresented.1, hpresented.2, hstored]
  by_cases h : providerSummaryMaxBytes < ((some message).getD "").utf8ByteSize
  · rw [presentReadResult_cut _ _ h]
    exact ⟨ sliceBytes_prefix _ _, rfl⟩
  · rw [presentReadResult_whole _ _ h] at hsummary
    exact absurd rfl hsummary

/-- The envelope of a stored result is what the schema accepts, and tells of a cut summary,
exactly where the title and the id are short, a success fits its facts and has room for the
warning of a cut summary, and the message of a failure needs no cut. -/
theorem presentActionResult_wellPresented (deps : ResultViewDeps)
    (actionName actionResultId : String) (stored : JsonValue) :
    WellPresented deps stored (presentActionResult deps actionName actionResultId stored) ↔
      Presentable deps actionName actionResultId stored := by
  by_cases hsucceeded : storedStatus stored = .succeeded
  · obtain ⟨receipt, hkind, hrecord, hreceipt, hok⟩ := receipt_of_succeeded hsucceeded
    have heq : presentationFromStored deps actionName stored =
        presentReceipt deps (humanTitle deps actionName) receipt := by
      obtain ⟨receipt', -, hrecord', heq⟩ | ⟨-, hne, -⟩ :=
        presentationFromStored_cases deps actionName stored
      · rw [heq, Option.some.inj (hrecord.symm.trans hrecord')]
      · exact absurd hsucceeded hne
    have hmessage : storedMessage stored = textProperty "message" receipt := by
      simp [storedMessage, hkind, hrecord]
    have hpresentation : (presentActionResult deps actionName actionResultId stored).presentation =
        presentReceipt deps (humanTitle deps actionName) receipt := heq
    constructor
    · rintro ⟨haccept, -⟩
      obtain ⟨hpresented, hid⟩ := envelope_accepted.mp haccept
      rw [heq, presentReceipt_accepted hok] at hpresented
      refine ⟨hpresented.1, hid, fun _ receipt' hreceipt' => ?_, fun h => absurd hsucceeded h⟩
      rw [← Option.some.inj (hreceipt.symm.trans hreceipt')]
      exact hpresented.2
    · rintro ⟨htitle, hid, hfits, -⟩
      refine ⟨envelope_accepted.mpr ⟨?_, hid⟩, fun message hstored hsummary => ?_⟩
      · rw [heq, presentReceipt_accepted hok]
        exact ⟨htitle, hfits hsucceeded receipt hreceipt⟩
      · rw [hpresentation] at hsummary ⊢
        exact success_shortened hrecord hok (hmessage.symm.trans hstored) hsummary
  · obtain ⟨warnings, heq, hwarnings, hlength, hne⟩ :=
      @failed_presented deps actionName stored hsucceeded
    have hpresentation : (presentActionResult deps actionName actionResultId stored).presentation =
        failedResult (humanTitle deps actionName) (storedMessage stored) warnings := heq
    have haccepted := @failedResult_accepted (humanTitle deps actionName) (storedMessage stored)
      warnings hwarnings hlength
    constructor
    · rintro ⟨haccept, hshortened⟩
      obtain ⟨hpresented, hid⟩ := envelope_accepted.mp haccept
      rw [heq] at hpresented
      refine ⟨haccepted.mp hpresented, hid, fun h => absurd h hsucceeded, ?_⟩
      intro _ message hmessage
      by_contra hlong
      rw [hpresentation, hmessage] at hshortened
      refine hne (hshortened message rfl fun hsummary => hlong ?_).2
      exact sliceUnits_eq_self.mp hsummary
    · rintro ⟨htitle, hid, -, hmessage⟩
      refine ⟨envelope_accepted.mpr ⟨?_, hid⟩, fun message hstored hsummary => ?_⟩
      · rw [heq]
        exact haccepted.mpr htitle
      · rw [hpresentation, hstored] at hsummary
        exact absurd (sliceUnits_of_le (hmessage hsucceeded message hstored)) hsummary

end Results

/-- The name under which a target is shown. -/
def targetName (target : JsonValue) : String :=
  let id := (textProperty "id" target).getD ""
  match textProperty "name" target with
  | some name => if name = "" then id else name
  | none => id

/-- The targets of a preview that are shown. -/
def shownTargets (preview : JsonValue) : List JsonValue :=
  match preview.property "targets" with
  | some (.arr targets) => targets.take 5
  | _ => []

/-- What a stored preview needs to be presented: a short label, and short types and names of
the targets that are shown. -/
structure PreviewFits (preview : JsonValue) : Prop where
  label : ∀ label, textProperty "actionLabel" preview = some label →
    utf16Length label ≤ presentedResultTitleMaxChars
  targets : ∀ target ∈ shownTargets preview, targetName target ≠ "" →
    utf16Length ((textProperty "type" target).getD "target") ≤ 249 ∧
      utf16Length (targetName target) ≤ presentedResultFactValueMaxChars

section Previews

variable {deps : ResultViewDeps}

theorem targetFact_eq (target : JsonValue) :
    targetFact target = if targetName target = "" then none
      else some { label := "Target " ++ (textProperty "type" target).getD "target"
                  value := targetName target } := rfl

def riskFacts (deps : ResultViewDeps) (preview : JsonValue) : List PresentedFact :=
  match preview.property "riskLabels" with
  | some (.arr (label :: labels)) =>
      [{ label := "Risk", value := joinedItems deps ", " 4 2048 (label :: labels) }]
  | _ => []

theorem riskFacts_accepted (preview : JsonValue) :
    (∀ fact ∈ riskFacts deps preview, factSchema fact = true) ∧
      (riskFacts deps preview).length ≤ 1 := by
  unfold riskFacts
  split
  · refine ⟨fun fact hfact => ?_, Nat.le_refl 1⟩
    have hlabel : utf16Length "Risk" ≤ 256 := by decide
    rw [List.mem_singleton.mp hfact, factSchema_iff]
    exact ⟨hlabel, utf16Length_sliceUnits _ _⟩
  · exact ⟨fun _ h => (nomatch h), Nat.zero_le 1⟩

theorem targetFacts_accepted (targets : List JsonValue) :
    (∀ fact ∈ targets.filterMap targetFact, factSchema fact = true) ↔
      ∀ target ∈ targets, targetName target ≠ "" →
        utf16Length ((textProperty "type" target).getD "target") ≤ 249 ∧
          utf16Length (targetName target) ≤ presentedResultFactValueMaxChars := by
  have hlabel : utf16Length "Target " = 7 := by decide
  have hfact (target : JsonValue) (hname : targetName target ≠ "") :
      factSchema { label := "Target " ++ (textProperty "type" target).getD "target"
                   value := targetName target } = true ↔
        utf16Length ((textProperty "type" target).getD "target") ≤ 249 ∧
          utf16Length (targetName target) ≤ presentedResultFactValueMaxChars := by
    simp only [factSchema_iff, utf16Length_append, hlabel]
    omega
  constructor
  · intro h target htarget hname
    rw [← hfact target hname]
    refine h _ (List.mem_filterMap.mpr ⟨target, htarget, ?_⟩)
    rw [targetFact_eq, if_neg hname]
  · intro h fact hmem
    obtain ⟨target, htarget, heq⟩ := List.mem_filterMap.mp hmem
    rw [targetFact_eq] at heq
    by_cases hname : targetName target = ""
    · rw [if_pos hname] at heq
      cases heq
    · rw [if_neg hname] at heq
      obtain rfl := Option.some.inj heq
      exact (hfact target hname).mpr (h target htarget hname)

theorem presentPendingConfirmation_facts (preview : JsonValue) :
    (presentPendingConfirmation deps preview).facts =
      (shownTargets preview).filterMap targetFact ++ riskFacts deps preview := by
  have hrisk := (@riskFacts_accepted deps preview).2
  have hshown : (shownTargets preview).length ≤ 5 := by
    unfold shownTargets
    split
    · exact List.length_take_le _ _
    · exact Nat.zero_le _
  have htargets := List.length_filterMap_le targetFact (shownTargets preview)
  have hlength : ((shownTargets preview).filterMap targetFact ++ riskFacts deps preview).length ≤
      presentedResultMaxFacts := by
    rw [List.length_append, presentedResultMaxFacts]
    omega
  have hshownFacts : (match preview.property "targets" with
      | some (.arr targets) => (targets.take 5).filterMap targetFact
      | _ => []) = (shownTargets preview).filterMap targetFact := by
    unfold shownTargets
    split <;> rfl
  rw [← List.take_of_length_le hlength, ← hshownFacts]
  rfl

theorem presentPendingConfirmation_warnings (preview : JsonValue) :
    (∀ warning ∈ (presentPendingConfirmation deps preview).warnings, warningSchema warning = true) ∧
      (presentPendingConfirmation deps preview).warnings.length ≤ presentedResultMaxWarnings := by
  unfold presentPendingConfirmation
  dsimp only
  split
  · rename_i warnings _
    constructor
    · intro warning hwarning
      obtain ⟨⟨entry, index⟩, hentry, rfl⟩ := List.mem_map.mp hwarning
      have hindex := List.snd_lt_of_mem_zipIdx hentry
      rw [List.length_take] at hindex
      have hshort := @utf16Length_index index (by omega)
      have hcode : utf16Length "preview_" = 8 := by decide
      rw [warningSchema_iff]
      dsimp only
      rw [utf16Length_append, hcode]
      exact ⟨by omega, utf16Length_sliceUnits _ _⟩
    · rw [List.length_map, List.length_zipIdx]
      exact List.length_take_le _ _
  · exact ⟨fun _ h => (nomatch h), Nat.zero_le _⟩

theorem presentPendingConfirmation_accepted (preview : JsonValue) :
    presentedResultSchema (presentPendingConfirmation deps preview) = true ↔
      PreviewFits preview := by
  have hsummary : utf16Length (presentPendingConfirmation deps preview).summary ≤
      presentedResultSummaryMaxChars := by
    unfold presentPendingConfirmation
    dsimp only
    split
    · exact utf16Length_sliceUnits _ _
    · exact Nat.zero_le _
  have htitle : utf16Length (presentPendingConfirmation deps preview).title ≤
        presentedResultTitleMaxChars ↔
      ∀ label, textProperty "actionLabel" preview = some label →
        utf16Length label ≤ presentedResultTitleMaxChars := by
    have hdefault : utf16Length "Pending change" ≤ presentedResultTitleMaxChars := by decide
    unfold presentPendingConfirmation
    dsimp only
    cases hlabel : textProperty "actionLabel" preview with
    | none => simpa using hdefault
    | some label =>
      by_cases hempty : label = ""
      · subst hempty
        simpa using hdefault
      · simp [hempty]
  have hwarnings := @presentPendingConfirmation_warnings deps preview
  have hrisk := (@riskFacts_accepted deps preview).1
  have htargets := targetFacts_accepted (shownTargets preview)
  have hfacts : (∀ fact ∈ (presentPendingConfirmation deps preview).facts, factSchema fact = true) ↔
      ∀ fact ∈ (shownTargets preview).filterMap targetFact, factSchema fact = true := by
    rw [presentPendingConfirmation_facts, List.forall_mem_append, and_iff_left hrisk]
  have hcount : (presentPendingConfirmation deps preview).facts.length ≤ presentedResultMaxFacts :=
    List.length_take_le _ _
  rw [presentedResultSchema_iff rfl, htitle, hfacts, htargets]
  constructor
  · exact fun h => ⟨h.1, h.2.2.1⟩
  · exact fun h => ⟨h.label, hsummary, h.targets, hcount, hwarnings⟩

end Previews

/-- The presentations of stored results and of stored previews are well formed exactly where
the texts that no step cuts are short, and a cut summary has room for its warning. -/
theorem presented_envelopes_wellFormed (deps : ResultViewDeps) :
    (∀ actionName actionResultId stored,
      WellPresented deps stored (presentActionResult deps actionName actionResultId stored) ↔
        Presentable deps actionName actionResultId stored) ∧
    ∀ preview, presentedResultSchema (presentPendingConfirmation deps preview) = true ↔
      PreviewFits preview :=
  ⟨presentActionResult_wellPresented deps, presentPendingConfirmation_accepted⟩

/-- A name of the letter `a` alone. -/
def repeatedName (length : Nat) : String := String.ofList (List.replicate length 'a')

theorem utf16Length_repeatedName (length : Nat) : utf16Length (repeatedName length) = length := by
  have hunit : utf16Units 'a' = 1 := by decide
  rw [utf16Length, repeatedName, String.toList_ofList, List.map_replicate, hunit,
    List.sum_replicate_nat, Nat.mul_one]

/-- The receipt of a client that was created. -/
def createdReceipt (name : String) : JsonValue :=
  .obj [("ok", .bool true), ("action", .str "clockify_clients_create"),
    ("entity", .str "client"), ("changed", .obj [("created", .arr [
      .obj [("type", .str "client"), ("id", .str "c1"), ("name", .str name)]])])]

theorem changedNames_createdReceipt {name : String} (hne : name ≠ "") :
    changedNames (createdReceipt name) "created" = ["client " ++ "“" ++ name ++ "”"] := by
  simp [changedNames, createdReceipt, JsonValue.property, List.lookup_cons, asRecord, entityName,
    textProperty, JsonValue.text?, hne]

/-- A name that is longer than a fact may be takes the envelope out of the schema. -/
theorem long_name_refused : ¬ ∀ deps actionName actionResultId stored, WellPresented deps stored
      (presentActionResult deps actionName actionResultId stored) := by
  intro h
  have hlength := utf16Length_repeatedName 2048
  have hne : repeatedName 2048 ≠ "" := by
    intro hempty
    rw [hempty] at hlength
    cases hlength
  have haccepted := (h ⟨fun _ => none, fun _ => "0"⟩ "clockify_clients_create" "result-1"
    (.obj [("kind", .str "receipt"), ("receipt", createdReceipt (repeatedName 2048))])).accepted
  have hpresented := (presentReceipt_accepted rfl).mp (envelope_accepted.mp haccepted).1
  have hnames : utf16Length (", ".intercalate
      (changedNames (createdReceipt (repeatedName 2048)) "created")) ≤
      presentedResultFactValueMaxChars := hpresented.2.changes "created" (by simp)
  rw [changedNames_createdReceipt hne, String.intercalate_singleton, utf16Length_append,
    utf16Length_append, hlength] at hnames
  have hquoted : utf16Length ("client " ++ "“") = 8 := by decide
  rw [hquoted, presentedResultFactValueMaxChars] at hnames
  omega

end ClockifyAssistant
