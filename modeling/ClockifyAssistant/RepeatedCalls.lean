import ClockifyAssistant.AgentTranscript
import ClockifyAssistant.Lib.KeyedJson

/-!
When the turn takes a call for a repeated one. A signature stands for one action and one
value of its arguments; it is forgotten when a receipt reports changes, and only then.
-/
namespace ClockifyAssistant

open Lib Lib.CodeUnits Fallible

namespace AgentLoop

variable {ε : Type}

/-! The signature. -/

section Signatures

variable (localeCompare : CodeUnits → CodeUnits → Int)

open UnitJson in
theorem canonicalEntries_eq (fields : List (CodeUnits × UnitJson)) :
    (sortedEntries localeCompare (fields.map (Prod.map id stringify))).map
        (fun entry => quoted entry.1 ++ 0x3a :: entry.2) =
      stringifyFields (sortedEntries localeCompare fields) := by
  rw [← sortedEntries_map, List.map_map, stringifyFields_eq_map]
  rfl

mutual

theorem canonicalToolArguments_eq (value : ReadJson) :
    canonicalToolArguments localeCompare value = (value.shown.sorted localeCompare).stringify := by
  cases value with
  | null => rfl
  | bool value => rfl
  | num value => cases value <;> rfl
  | str value => rfl
  | arr items =>
    rw [canonicalToolArguments, canonicalItems_eq items]
    rfl
  | obj fields =>
    rw [canonicalToolArguments, canonicalChildren_eq fields, canonicalEntries_eq]
    rfl

theorem canonicalItems_eq (items : List ReadJson) : canonicalItems localeCompare items =
      UnitJson.stringifyItems (UnitJson.sortedItems localeCompare (ReadJson.shownItems items)) := by
  cases items with
  | nil => rfl
  | cons item rest =>
    rw [canonicalItems, canonicalToolArguments_eq item, canonicalItems_eq rest]
    rfl

theorem canonicalChildren_eq (fields : List (CodeUnits × ReadJson)) :
    canonicalChildren localeCompare fields =
      (UnitJson.sortedFields localeCompare (ReadJson.shownFields fields)).map
        (Prod.map id UnitJson.stringify) := by
  cases fields with
  | nil => rfl
  | cons field rest =>
    obtain ⟨key, child⟩ := field
    rw [canonicalChildren, canonicalToolArguments_eq child, canonicalChildren_eq rest]
    rfl

end

variable {localeCompare}

/-- The same action with JSON-equal arguments, up to the order of the keys. -/
def SameCall (call other : ToolCall) : Prop :=
  call.name = other.name ∧
    SameJson (ReadJson.obj call.arguments).shown (ReadJson.obj other.arguments).shown

/-- One signature stands for one call, whatever the keys are compared by. -/
theorem sameCall_of_signature_eq {call other : ToolCall}
    (h : toolCallSignature localeCompare call = toolCallSignature localeCompare other) :
    SameCall call other := by
  unfold toolCallSignature at h
  rw [canonicalToolArguments_eq, canonicalToolArguments_eq] at h
  obtain ⟨hname, harguments⟩ := UnitJson.append_cons_inj_of_notMem_right
    (UnitJson.zero_notMem_stringify _) (UnitJson.zero_notMem_stringify _) h
  exact ⟨hname, UnitJson.sameJson_of_sorted_eq localeCompare (UnitJson.stringify_injective harguments)⟩

end Signatures

/-! What a log says about effects. -/

/-- A receipt that is ok and reports no change. -/
def ActionResult.quiet : ActionResult → Bool
  | .receipt answer => answer.ok && !changes answer
  | .partially _ _ | .clarify _ _ | .preview _ _ => false

/-- A receipt that is ok and reports changes. -/
def ActionResult.reportsChanges : ActionResult → Bool
  | .receipt answer => answer.ok && changes answer
  | .partially _ _ | .clarify _ _ | .preview _ _ => false

/-- The action had, or may have had, an effect on the host. -/
def Effectful : Entry ε → Prop
  | ⟨.runAction _, .ok executed⟩ => executed.effect ≠ .untouched
  | _ => False

/-- Here a change is reported, and every signature is forgotten. -/
def Clears : Entry ε → Prop
  | ⟨.runAction _, .ok executed⟩ => executed.result.reportsChanges = true
  | _ => False

/-- An action with an effect reports changes, or its result ends the turn. -/
def Reported (entry : Entry ε) : Prop := Effectful entry → Clears entry ∨ Stops entry

/-- Before, the same call succeeded without an effect, and no action behind it had one. -/
def SoundlyRepeated (log : List (Entry ε)) (call : ToolCall) : Prop :=
  ∃ before earlier executed after, log = before ++ ran earlier executed :: after ∧
    SameCall earlier call ∧ executed.result.quiet = true ∧ executed.effect = .untouched ∧
    ∀ entry ∈ after, ¬ Effectful entry

/-- The calls of the last completion that have not run. -/
def consume (maxCalls : Nat) (remaining : List ToolCall) : Entry ε → List ToolCall
  | ⟨.completeWithTools _, .ok completion⟩ => completion.toolCalls.take maxCalls
  | ⟨.runAction _, .ok _⟩ => remaining.tail
  | _ => remaining

/-- The call that the turn has come to. -/
def nextCall (maxCalls : Nat) (log : List (Entry ε)) : Option ToolCall :=
  (log.foldl (consume maxCalls) []).head?

/-! What the signatures remember. -/

/-- Each signature is that of a call that succeeded without changes, and nothing was reported
behind it. -/
def Remembers (localeCompare : CodeUnits → CodeUnits → Int) (log : List (Entry ε))
    (completed : List CodeUnits) : Prop :=
  ∀ signature ∈ completed, ∃ before earlier executed after,
    log = before ++ ran earlier executed :: after ∧
      toolCallSignature localeCompare earlier = signature ∧ executed.result.quiet = true ∧
      ∀ entry ∈ after, ¬ Clears entry

section Remembers

variable {localeCompare : CodeUnits → CodeUnits → Int} {past log : List (Entry ε)}
  {completed : List CodeUnits} {transcript : List ModelMessage} {completion : ToolCompletion}
  {call : ToolCall} {s s' : CallsSoFar} {maxCalls : Nat}

theorem remembers_nil : Remembers localeCompare log [] :=
  fun _ hsignature => absurd hsignature List.not_mem_nil

theorem Remembers.append (h : Remembers localeCompare past completed)
    (hlog : ∀ entry ∈ log, ¬ Clears entry) : Remembers localeCompare (past ++ log) completed := by
  intro signature hsignature
  obtain ⟨before, earlier, executed, after, rfl, hearlier, hquiet, hafter⟩ := h signature hsignature
  refine ⟨before, earlier, executed, after ++ log, ?_, hearlier, hquiet, ?_⟩
  · rw [List.append_assoc, List.cons_append]
  · exact List.forall_mem_append.mpr ⟨hafter, hlog⟩

theorem CallRuns.remembers
    (h : CallRuns localeCompare transcript completion call s log (.ok (.inr s')))
    (hs : Remembers localeCompare past s.completedReadSignatures) :
    Remembers localeCompare (past ++ log) s'.completedReadSignatures := by
  cases h with
  | @answered executed receipt hnew hresult hdenied =>
    have hstreamed : ∀ entry ∈ [streamed call executed.result], ¬ Clears (ε := ε) entry := by
      simp [streamed, Clears]
    have hcompleted : ((s.honor call).answer call (toolCallSignature localeCompare call)
        receipt).completedReadSignatures =
        s.completedAfter (toolCallSignature localeCompare call) receipt := rfl
    rw [hcompleted]
    unfold CallsSoFar.completedAfter
    by_cases hquiet : (receipt.ok && !changes receipt) = true
    · rw [if_pos hquiet]
      intro signature hsignature
      have hcalm : ∀ entry ∈ [observed false, ran call executed, streamed call executed.result],
          ¬ Clears (ε := ε) entry := by
        have hreported : executed.result.reportsChanges = false := by
          rw [hresult]
          simp only [ActionResult.reportsChanges]
          simp only [Bool.and_eq_true, Bool.not_eq_true'] at hquiet
          rw [hquiet.2, Bool.and_false]
        simp [observed, ran, streamed, Clears, hreported]
      rcases List.mem_append.mp hsignature with hold | hnow
      · exact hs.append hcalm signature hold
      · refine ⟨past ++ [observed false], call, executed, [streamed call executed.result], ?_,
          (List.mem_singleton.mp hnow).symm, ?_, hstreamed⟩
        · rw [List.append_assoc, List.singleton_append]
        · rw [hresult]
          exact hquiet
    · rw [if_neg hquiet]
      by_cases hok : receipt.ok = true
      · rw [if_pos hok]
        exact remembers_nil
      · rw [if_neg hok]
        refine hs.append ?_
        have hreported : executed.result.reportsChanges = false := by
          rw [hresult]
          simp only [ActionResult.reportsChanges]
          rw [Bool.not_eq_true] at hok
          rw [hok, Bool.false_and]
        simp [observed, ran, streamed, Clears, hreported]

theorem runCalls_remembers {calls : List ToolCall}
    (h : Leaves (runCalls localeCompare transcript completion calls s) log (.ok (.inr s')))
    (hs : Remembers localeCompare past s.completedReadSignatures) :
    Remembers localeCompare (past ++ log) s'.completedReadSignatures := by
  induction calls generalizing s log past with
  | nil =>
    obtain ⟨rfl, hend⟩ := leaves_pure.mp h
    cases hend
    rwa [List.append_nil]
  | cons call rest ih =>
    rcases leaves_runCalls_cons h with ⟨-, hnot⟩ | ⟨s₁, first, others, rfl, hcall, hrest⟩
    · exact absurd rfl (hnot s')
    · rw [← List.append_assoc]
      exact ih hrest (hcall.remembers hs)

/-- The turn has come to a call whose signature is remembered. -/
def Repeats (localeCompare : CodeUnits → CodeUnits → Int) (maxCalls : Nat)
    (past log : List (Entry ε)) (calls : List ToolCall) : Prop :=
  ∃ call rest completed, log.foldl (consume maxCalls) calls = call :: rest ∧
    toolCallSignature localeCompare call ∈ completed ∧
    Remembers localeCompare (past ++ log) completed ∧ ∀ entry ∈ log, ¬ Stops entry

theorem CallRuns.consumes {rest : List ToolCall}
    (h : CallRuns localeCompare transcript completion call s log (.ok (.inr s'))) :
    log.foldl (consume maxCalls) (call :: rest) = rest := by
  cases h with
  | answered hnew hresult hdenied => rfl

theorem alreadyRecordedText_ne_nil : alreadyRecordedText ≠ [] := by
  decide

variable {t : List ModelMessage}

theorem CallRuns.repeats {rest : List ToolCall}
    (h : CallRuns localeCompare transcript completion call s log
      (.ok (.inl (.final alreadyRecordedText t))))
    (hs : Remembers localeCompare past s.completedReadSignatures) :
    Repeats localeCompare maxCalls past log (call :: rest) := by
  generalize hr : (Except.ok (Sum.inl (AgentTurnResult.final alreadyRecordedText t)) :
    Except ε (AgentTurnResult ⊕ CallsSoFar)) = r at h
  cases h with
  | recorded hrecorded =>
    refine ⟨call, rest, s.completedReadSignatures, rfl, hrecorded, hs.append ?_, ?_⟩
    · simp [observed, Clears]
    · simp [observed, Stops]
  | denied hnew hresult hdenied =>
    injection hr with hr
    injection hr with hr
    injection hr with htext
    exact absurd htext alreadyRecordedText_ne_nil
  | _ => cases hr

theorem runCalls_repeats {calls : List ToolCall}
    (h : Leaves (runCalls localeCompare transcript completion calls s) log
      (.ok (.inl (.final alreadyRecordedText t))))
    (hs : Remembers localeCompare past s.completedReadSignatures) :
    Repeats localeCompare maxCalls past log calls := by
  induction calls generalizing s log past with
  | nil =>
    obtain ⟨-, hend⟩ := leaves_pure.mp h
    cases hend
  | cons call rest ih =>
    rcases leaves_runCalls_cons h with ⟨hcall, -⟩ | ⟨s₁, first, others, rfl, hcall, hrest⟩
    · exact hcall.repeats hs
    · obtain ⟨next, others', completed, hnext, hsignature, hremembers, hcalm⟩ :=
        ih hrest (hcall.remembers hs)
      refine ⟨next, others', completed, ?_, hsignature, ?_, ?_⟩
      · rw [List.foldl_append, hcall.consumes, hnext]
      · rwa [← List.append_assoc]
      · exact List.forall_mem_append.mpr ⟨hcall.orderly.calm s₁ rfl, hcalm⟩

theorem StepRuns.remembers {next : List ModelMessage × List CodeUnits}
    (h : StepRuns localeCompare transcript maxCalls completed log (.ok (.inr next)))
    (hpast : Remembers localeCompare past completed) :
    Remembers localeCompare (past ++ log) next.2 := by
  obtain ⟨completion, calls, s, rfl, hrun, rfl⟩ := h.next_inv
  rw [← List.append_assoc]
  refine runCalls_remembers hrun (hpast.append ?_)
  simp [observed, completedWith, Clears]

theorem StepRuns.repeats {remaining : List ToolCall}
    (h : StepRuns localeCompare transcript maxCalls completed log
      (.ok (.inl (.final alreadyRecordedText t))))
    (hpast : Remembers localeCompare past completed) :
    Repeats localeCompare maxCalls past log remaining ∨ log.foldl (consume maxCalls) remaining = [] := by
  generalize hr : (Except.ok (Sum.inl (AgentTurnResult.final alreadyRecordedText t)) :
    Except ε (AgentTurnResult ⊕ (List ModelMessage × List CodeUnits))) = r at h
  cases h with
  | spoke completion hcalls => exact .inr hcalls
  | called completion hcalls hrun =>
    rename_i calls ended
    obtain _ | turn | s := ended
    · cases hr
    · cases hr
      have hasked : ∀ entry ∈ [observed false, completedWith transcript completion],
          ¬ Clears (ε := ε) entry := by
        simp [observed, completedWith, Clears]
      have hrepeats : Repeats localeCompare maxCalls _ _ _ :=
        runCalls_repeats hrun (hpast.append hasked)
      obtain ⟨call, rest, signatures, hnext, hsignature, hremembers, hcalm⟩ := hrepeats
      refine .inl ⟨call, rest, signatures, hnext, hsignature, ?_, ?_⟩
      · rwa [← List.append_assoc]
      · refine List.forall_mem_append.mpr ⟨?_, hcalm⟩
        simp [observed, completedWith, Stops]
    · cases hr
  | _ => cases hr

theorem runSteps_repeats {steps : Nat} {remaining : List ToolCall}
    (h : Leaves (runSteps localeCompare maxCalls steps transcript completed) log
      (.ok (.final alreadyRecordedText t))) (hpast : Remembers localeCompare past completed) :
    Repeats localeCompare maxCalls past log remaining ∨ log.foldl (consume maxCalls) remaining = [] := by
  induction steps generalizing transcript completed log past remaining with
  | zero =>
    obtain ⟨-, hend⟩ := leaves_pure.mp h
    cases hend
  | succ steps ih =>
    rcases leaves_runSteps_succ h with hstep | ⟨next, first, rest, rfl, hstep, hrest⟩
    · exact hstep.repeats hpast
    · rw [List.foldl_append]
      refine (ih hrest (hstep.remembers hpast)).imp_left ?_
      rintro ⟨call, others, signatures, hnext, hsignature, hremembers, hcalm⟩
      refine ⟨call, others, signatures, ?_, hsignature, ?_, ?_⟩
      · rw [List.foldl_append, hnext]
      · rwa [← List.append_assoc]
      · exact List.forall_mem_append.mpr ⟨hstep.orderly.calm next rfl, hcalm⟩

end Remembers

section Soundness

theorem ActionResult.reportsChanges_eq_of_quiet {result : ActionResult} (h : result.quiet = true) :
    result.reportsChanges = false := by
  cases result with
  | receipt answer =>
    have hchanges : changes answer = false := by simpa using (Bool.and_eq_true_iff.mp h).2
    exact Bool.and_eq_false_iff.mpr (.inr hchanges)
  | partially answer message => cases h
  | clarify message options => cases h
  | preview card operation => cases h

/-- In a run whose actions report their effects, the call that the turn calls already recorded
succeeded before, and the host is as it was then. -/
theorem runAgentTurn_repeats_soundly {localeCompare : CodeUnits → CodeUnits → Int}
    {input : RunAgentTurnInput} {log : List (Entry ε)} {transcript : List ModelMessage}
    {call : ToolCall}
    (h : Leaves (runAgentTurn localeCompare input) log (.ok (.final alreadyRecordedText transcript)))
    (hcall : nextCall input.calls log = some call) (hreported : ∀ entry ∈ log, Reported entry) :
    SoundlyRepeated log call := by
  have hrun : Repeats localeCompare input.calls [] log [] ∨
      log.foldl (consume input.calls) [] = [] := runSteps_repeats h remembers_nil
  unfold nextCall at hcall
  rcases hrun with ⟨next, rest, completed, hnext, hsignature, hremembers, hcalm⟩ | hnone
  · obtain rfl : next = call := by
      rw [hnext] at hcall
      exact Option.some.inj hcall
    rw [List.nil_append] at hremembers
    obtain ⟨before, earlier, executed, after, hlog, hearlier, hquiet, hafter⟩ :=
      hremembers _ hsignature
    refine ⟨before, earlier, executed, after, hlog, sameCall_of_signature_eq hearlier, hquiet, ?_, ?_⟩
    · have hmem : ran earlier executed ∈ log := by
        rw [hlog]
        exact List.mem_append_right before List.mem_cons_self
      by_contra heffect
      rcases hreported _ hmem heffect with hclears | hstops
      · exact absurd hclears (by simp [ran, Clears, ActionResult.reportsChanges_eq_of_quiet hquiet])
      · exact hcalm _ hmem hstops
    · intro entry hentry heffect
      have hmem : entry ∈ log := by
        rw [hlog]
        exact List.mem_append_right before (List.mem_cons_of_mem _ hentry)
      rcases hreported entry hmem heffect with hclears | hstops
      · exact hafter entry hentry hclears
      · exact hcalm entry hmem hstops
  · rw [hnone] at hcall
    cases hcall

/-- Behind an effect that no later read has followed, no repetition is sound. -/
theorem not_soundlyRepeated {first rest : List (Entry ε)} {entry : Entry ε} {call : ToolCall}
    (heffect : Effectful entry)
    (hrest : ∀ call executed, ran call executed ∈ entry :: rest → executed.result.quiet = false) :
    ¬ SoundlyRepeated (first ++ entry :: rest) call := by
  rintro ⟨before, earlier, executed, after, hlog, -, hquiet, -, hafter⟩
  rcases List.append_eq_append_iff.mp hlog with ⟨gap, -, hgap⟩ | ⟨gap, -, hgap⟩
  · have hmem : ran earlier executed ∈ entry :: rest := by
      rw [hgap]
      exact List.mem_append_right gap List.mem_cons_self
    rw [hrest earlier executed hmem] at hquiet
    cases hquiet
  · cases gap with
    | nil =>
      have hmem : ran earlier executed ∈ entry :: rest := by
        rw [← List.nil_append (entry :: rest), ← hgap]
        exact List.mem_cons_self
      rw [hrest earlier executed hmem] at hquiet
      cases hquiet
    | cons x gap =>
      refine hafter entry ?_ heffect
      rw [(List.cons.inj hgap).2]
      exact List.mem_append_right gap List.mem_cons_self

end Soundness

namespace Example

def readTwice : ToolCompletion := { bothCalls with toolCalls := [readProject, readProject] }

def repeatedLog : List (Entry Unit) :=
  [observed false, completedWith [question] readTwice, observed false, ran readProject wasRead,
    streamed readProject wasRead.result, observed false]

def repeatedTranscript : List ModelMessage :=
  [question] ++ assistantToolCallTurn readTwice [readProject] ::
    [toolResultTurn readProject.id readReceipt]

theorem leaves_repeated : Leaves (runAgentTurn byUnits input) repeatedLog
    (.ok (.final alreadyRecordedText repeatedTranscript)) :=
  .call (.call (.call (.call (.call (.call (.ret _))))))

theorem read_soundly_repeated : SoundlyRepeated repeatedLog readProject := by
  refine runAgentTurn_repeats_soundly leaves_repeated rfl ?_
  simp [repeatedLog, Reported, observed, completedWith, ran, streamed, wasRead, Effectful]

def createTag : ToolCall :=
  { readProject with id := CodeUnits.ofString "call_1", name := CodeUnits.ofString "tag_create" }

/-- The host did not answer, so the tag may be there. -/
def unknownReceipt : ToolResults.ReceiptJson where
  fields := [(ToolResults.okName, .bool false),
    (ToolResults.codeName, .str (CodeUnits.ofString "commit_outcome_unknown"))]
  ok := false
  okField := rfl
  codeField := fun _ => ⟨_, rfl⟩
  unmarked := rfl

def mayBeCreated : Executed := ⟨.receipt unknownReceipt, .uncertain⟩

def readCreateRead : ToolCompletion where
  text := []
  toolCalls := [readProject, createTag, readProject]
  reasoningContent := none

def hiddenLog : List (Entry Unit) :=
  [observed false, completedWith [question] readCreateRead, observed false, ran readProject wasRead,
    streamed readProject wasRead.result, observed false, ran createTag mayBeCreated,
    streamed createTag mayBeCreated.result, observed false]

def hiddenTranscript : List ModelMessage :=
  [question] ++ assistantToolCallTurn readCreateRead [readProject, createTag] ::
    [toolResultTurn readProject.id readReceipt, toolResultTurn createTag.id unknownReceipt]

/-- A read, an action whose outcome nobody knows, and the same read once more: it is not run. -/
theorem repeated_behind_unknown_outcome : Leaves (runAgentTurn byUnits input) hiddenLog
        (.ok (.final alreadyRecordedText hiddenTranscript)) ∧
      nextCall input.calls hiddenLog = some readProject ∧ ¬ SoundlyRepeated hiddenLog readProject := by
  refine ⟨(.call (.call (.call (.call (.call (.call (.call (.call (.call (.ret _)))))))))), rfl, ?_⟩
  have hsplit : hiddenLog =
      [observed false, completedWith [question] readCreateRead, observed false,
        ran readProject wasRead, streamed readProject wasRead.result, observed false] ++
      ran createTag mayBeCreated :: [streamed createTag mayBeCreated.result, observed false] := rfl
  rw [hsplit]
  refine not_soundlyRepeated ?_ ?_
  · simp [ran, Effectful, mayBeCreated]
  · intro call executed hmem
    simp only [ran, streamed, observed, List.mem_cons, List.not_mem_nil, or_false] at hmem
    rcases hmem with hsame | hstep | hsignal
    · injection hsame with hop hvalue
      injection hop with hcall
      subst hcall
      injection hvalue with hexecuted
      rw [hexecuted]
      rfl
    · injection hstep with hop
      cases hop
    · injection hsignal with hop
      cases hop

end Example

end AgentLoop

end ClockifyAssistant
