import ClockifyAssistant.Assistant.AgentLoop

/-!
What a turn of the agent leaves behind, whatever the provider and the actions answer: a
transcript in which every call has its reply, and no action behind the point where the turn
has to end.
-/
namespace ClockifyAssistant

open Lib Fallible

namespace AgentLoop

variable {ε : Type}

abbrev Entry (ε : Type) : Type := Σ o : LoopOp, Except ε o.Value

def observed (aborted : Bool) : Entry ε := ⟨.aborted, .ok aborted⟩

def ran (call : ToolCall) (executed : Executed) : Entry ε := ⟨.runAction call, .ok executed⟩

def streamed (call : ToolCall) (result : ActionResult) : Entry ε := ⟨.onStep call result, .ok ()⟩

def thrown (o : LoopOp) (e : ε) : Entry ε := ⟨o, .error e⟩

section Inversion

variable (localeCompare : CodeUnits → CodeUnits → Int) (transcript : List ModelMessage)
  (completion : ToolCompletion) (call : ToolCall) (s : CallsSoFar)

def CallsSoFar.Recorded : Prop :=
  toolCallSignature localeCompare call ∈ s.completedReadSignatures

/-- The ways in which one call of a completion runs. -/
inductive CallRuns : List (Entry ε) → Except ε (AgentTurnResult ⊕ CallsSoFar) → Prop
  | noSignal (e : ε) : CallRuns [thrown .aborted e] (.error e)
  | aborted : CallRuns [observed true] (.ok (.inl (.aborted transcript)))
  | recorded : s.Recorded localeCompare call →
      CallRuns [observed false] (.ok (.inl (.final alreadyRecordedText
        (if s.honored.isEmpty then transcript else s.pushedTo transcript completion))))
  | failed (e : ε) : ¬ s.Recorded localeCompare call →
      CallRuns [observed false, thrown (.runAction call) e] (.error e)
  | preview {executed : Executed} {card operation : UnitJson} : ¬ s.Recorded localeCompare call →
      executed.result = .preview card operation →
      CallRuns [observed false, ran call executed]
        (.ok (.inl (.interrupt call card operation ((s.honor call).pushedTo transcript completion))))
  | unstreamed {executed : Executed} (e : ε) : ¬ s.Recorded localeCompare call →
      CallRuns [observed false, ran call executed, thrown (.onStep call executed.result) e] (.error e)
  | clarify {executed : Executed} {message : CodeUnits} {options : List UnitJson} :
      ¬ s.Recorded localeCompare call → executed.result = .clarify message options →
      CallRuns [observed false, ran call executed, streamed call executed.result]
        (.ok (.inl (.clarify message options ((s.honor call).pushedTo transcript completion))))
  | partially {executed : Executed} {receipt : ToolResults.ReceiptJson} {message : CodeUnits} :
      ¬ s.Recorded localeCompare call → executed.result = .partially receipt message →
      CallRuns [observed false, ran call executed, streamed call executed.result]
        (.ok (.inl (.partially ((s.honor call).pushedTo transcript completion))))
  | denied {executed : Executed} {receipt : ToolResults.ReceiptJson} :
      ¬ s.Recorded localeCompare call → executed.result = .receipt receipt →
      isTerminalSafetyDenial receipt = true →
      CallRuns [observed false, ran call executed, streamed call executed.result]
        (.ok (.inl (.final [] (((s.honor call).answer call (toolCallSignature localeCompare call)
          receipt).pushedTo transcript completion))))
  | answered {executed : Executed} {receipt : ToolResults.ReceiptJson} :
      ¬ s.Recorded localeCompare call → executed.result = .receipt receipt →
      isTerminalSafetyDenial receipt = false →
      CallRuns [observed false, ran call executed, streamed call executed.result]
        (.ok (.inr ((s.honor call).answer call (toolCallSignature localeCompare call) receipt)))

variable {localeCompare transcript completion call s}

theorem leaves_perform_bind {α : Type} {o : LoopOp} {f : o.Value → Loop ε α} {log : List (Entry ε)}
    {r : Except ε α} (h : Leaves (perform o >>= f) log r) :
    (∃ e, log = [thrown o e] ∧ r = .error e) ∨
      ∃ a rest, log = ⟨o, .ok a⟩ :: rest ∧ Leaves (f a) rest r := by
  rcases leaves_bind.mp h with ⟨e, hperform, rfl⟩ | ⟨first, rest, a, rfl, hperform, hrest⟩
  · exact Or.inl ⟨e, leaves_perform.mp hperform, rfl⟩
  · obtain rfl := leaves_perform.mp hperform
    exact Or.inr ⟨a, rest, rfl, hrest⟩

theorem leaves_runCall {log : List (Entry ε)} {r : Except ε (AgentTurnResult ⊕ CallsSoFar)}
    (h : Leaves (runCall localeCompare transcript completion call s) log r) :
    CallRuns localeCompare transcript completion call s log r := by
  unfold runCall at h
  rcases leaves_perform_bind h with ⟨e, rfl, rfl⟩ | ⟨aborted, rest, rfl, hcall⟩
  · exact .noSignal e
  cases aborted with
  | true =>
    obtain ⟨rfl, rfl⟩ := leaves_pure.mp hcall
    exact .aborted
  | false =>
    by_cases hrecorded : s.completedReadSignatures.contains (toolCallSignature localeCompare call) = true
    · simp only [Bool.false_eq_true, if_false, hrecorded, if_true] at hcall
      obtain ⟨rfl, rfl⟩ := leaves_pure.mp hcall
      exact .recorded (List.contains_iff_mem.mp hrecorded)
    · have hnew : ¬ s.Recorded localeCompare call := fun hmem =>
        hrecorded (List.contains_iff_mem.mpr hmem)
      simp only [Bool.false_eq_true, if_false, if_neg hrecorded] at hcall
      rcases leaves_perform_bind hcall with ⟨e, rfl, rfl⟩ | ⟨executed, rest, rfl, hresult⟩
      · exact .failed e hnew
      obtain ⟨result, effect⟩ := executed
      cases result with
      | preview card operation =>
        obtain ⟨rfl, rfl⟩ := leaves_pure.mp hresult
        exact .preview hnew rfl
      | clarify message options =>
        rcases leaves_perform_bind hresult with ⟨e, rfl, rfl⟩ | ⟨-, rest, rfl, hend⟩
        · exact .unstreamed e hnew
        obtain ⟨rfl, rfl⟩ := leaves_pure.mp hend
        exact .clarify hnew rfl
      | partially receipt message =>
        rcases leaves_perform_bind hresult with ⟨e, rfl, rfl⟩ | ⟨-, rest, rfl, hend⟩
        · exact .unstreamed e hnew
        obtain ⟨rfl, rfl⟩ := leaves_pure.mp hend
        exact .partially hnew rfl
      | receipt receipt =>
        rcases leaves_perform_bind hresult with ⟨e, rfl, rfl⟩ | ⟨-, rest, rfl, hend⟩
        · exact .unstreamed e hnew
        cases hdenied : isTerminalSafetyDenial receipt with
        | true =>
          simp only [hdenied, if_true] at hend
          obtain ⟨rfl, rfl⟩ := leaves_pure.mp hend
          exact .denied hnew rfl hdenied
        | false =>
          simp only [hdenied, Bool.false_eq_true, if_false] at hend
          obtain ⟨rfl, rfl⟩ := leaves_pure.mp hend
          exact .answered hnew rfl hdenied

theorem leaves_runCalls_cons {rest : List ToolCall} {log : List (Entry ε)}
    {r : Except ε (AgentTurnResult ⊕ CallsSoFar)}
    (h : Leaves (runCalls localeCompare transcript completion (call :: rest) s) log r) :
    CallRuns localeCompare transcript completion call s log r ∧ (∀ s', r ≠ .ok (.inr s')) ∨
      ∃ s' first others, log = first ++ others ∧
        CallRuns localeCompare transcript completion call s first (.ok (.inr s')) ∧
        Leaves (runCalls localeCompare transcript completion rest s') others r := by
  rcases leaves_bind.mp h with ⟨e, hcall, rfl⟩ | ⟨first, others, ended, rfl, hcall, hrest⟩
  · exact .inl ⟨leaves_runCall hcall, nofun⟩
  cases ended with
  | inl turn =>
    obtain ⟨rfl, rfl⟩ := leaves_pure.mp hrest
    rw [List.append_nil]
    exact .inl ⟨leaves_runCall hcall, nofun⟩
  | inr s' => exact .inr ⟨s', first, others, rfl, leaves_runCall hcall, hrest⟩

variable {maxCalls : Nat} {completed : List CodeUnits}

def completedWith (transcript : List ModelMessage) (completion : ToolCompletion) : Entry ε :=
  ⟨.completeWithTools transcript, .ok completion⟩

/-- What the next step starts from. -/
def CallsSoFar.next (transcript : List ModelMessage) (completion : ToolCompletion)
    (s : CallsSoFar) : List ModelMessage × List CodeUnits :=
  (s.pushedTo transcript completion, s.completedReadSignatures)

variable (localeCompare maxCalls transcript completed) in
/-- The ways in which one step of the turn runs. -/
inductive StepRuns : List (Entry ε) →
    Except ε (AgentTurnResult ⊕ (List ModelMessage × List CodeUnits)) → Prop
  | noSignal (e : ε) : StepRuns [thrown .aborted e] (.error e)
  | aborted : StepRuns [observed true] (.ok (.inl (.aborted transcript)))
  | gone (e : ε) : StepRuns [observed false, thrown (.completeWithTools transcript) e, observed true]
      (.ok (.inl (.aborted transcript)))
  | failed (e : ε) :
      StepRuns [observed false, thrown (.completeWithTools transcript) e, observed false] (.error e)
  | failedTwice (e e' : ε) :
      StepRuns [observed false, thrown (.completeWithTools transcript) e, thrown .aborted e']
        (.error e')
  | spoke (completion : ToolCompletion) : completion.toolCalls.take maxCalls = [] →
      StepRuns [observed false, completedWith transcript completion]
        (.ok (.inl (.final completion.text transcript)))
  | called (completion : ToolCompletion) {log : List (Entry ε)}
      {r : Except ε (AgentTurnResult ⊕ CallsSoFar)} : completion.toolCalls.take maxCalls ≠ [] →
      Leaves (runCalls localeCompare transcript completion (completion.toolCalls.take maxCalls)
        ⟨[], [], completed⟩) log r →
      StepRuns ([observed false, completedWith transcript completion] ++ log)
        (r.map (Sum.map id (CallsSoFar.next transcript completion)))

theorem leaves_runStep {log : List (Entry ε)}
    {r : Except ε (AgentTurnResult ⊕ (List ModelMessage × List CodeUnits))}
    (h : Leaves (runStep localeCompare maxCalls transcript completed) log r) :
    StepRuns localeCompare transcript maxCalls completed log r := by
  unfold runStep at h
  rcases leaves_perform_bind h with ⟨e, rfl, rfl⟩ | ⟨aborted, rest, rfl, hstep⟩
  · exact .noSignal e
  cases aborted with
  | true =>
    obtain ⟨rfl, rfl⟩ := leaves_pure.mp hstep
    exact .aborted
  | false =>
    simp only [Bool.false_eq_true, if_false] at hstep
    rcases leaves_bind.mp hstep with ⟨e, hask, rfl⟩ | ⟨first, others, asked, rfl, hask, hrest⟩
    · obtain ⟨r', -, hr'⟩ := leaves_caught.mp hask
      cases hr'
    obtain ⟨asked', hperform, hasked⟩ := leaves_caught.mp hask
    obtain rfl : asked = asked' := Except.ok.inj hasked
    obtain rfl := leaves_perform.mp hperform
    cases asked with
    | error e =>
      rcases leaves_perform_bind hrest with ⟨e', rfl, rfl⟩ | ⟨aborted, rest, rfl, hend⟩
      · exact .failedTwice e e'
      cases aborted with
      | true =>
        obtain ⟨rfl, rfl⟩ := leaves_pure.mp hend
        exact .gone e
      | false =>
        obtain ⟨rfl, rfl⟩ := leaves_throw.mp hend
        exact .failed e
    | ok completion =>
      by_cases hcalls : completion.toolCalls.take maxCalls = []
      · simp only [hcalls, List.isEmpty_nil, if_true] at hrest
        obtain ⟨rfl, rfl⟩ := leaves_pure.mp hrest
        exact .spoke completion hcalls
      · have hsome : ¬ (completion.toolCalls.take maxCalls).isEmpty = true := by
          rwa [List.isEmpty_iff]
        simp only [if_neg hsome] at hrest
        rcases leaves_bind.mp hrest with ⟨e, hrun, rfl⟩ | ⟨log, last, ended, rfl, hrun, hend⟩
        · exact .called completion hcalls hrun
        cases ended with
        | inl turn =>
          obtain ⟨rfl, rfl⟩ := leaves_pure.mp hend
          rw [List.append_nil]
          exact .called completion hcalls hrun
        | inr s =>
          obtain ⟨rfl, rfl⟩ := leaves_pure.mp hend
          rw [List.append_nil]
          exact .called completion hcalls hrun

theorem StepRuns.next_inv {log : List (Entry ε)} {next : List ModelMessage × List CodeUnits}
    (h : StepRuns localeCompare transcript maxCalls completed log (.ok (.inr next))) :
    ∃ completion calls s, log = [observed false, completedWith transcript completion] ++ calls ∧
      Leaves (runCalls localeCompare transcript completion (completion.toolCalls.take maxCalls)
        ⟨[], [], completed⟩) calls (.ok (.inr s)) ∧ next = s.next transcript completion := by
  generalize hr : (Except.ok (Sum.inr next) :
    Except ε (AgentTurnResult ⊕ (List ModelMessage × List CodeUnits))) = r at h
  cases h with
  | called completion hcalls hrun =>
    rename_i calls ended
    obtain _ | turn | s := ended
    · cases hr
    · cases hr
    · cases hr
      exact ⟨completion, calls, s, rfl, hrun, rfl⟩
  | _ => cases hr

/-- The turn ends with its first step, or it goes on with the messages behind that. -/
theorem leaves_runSteps_succ {steps : Nat} {log : List (Entry ε)} {r : Except ε AgentTurnResult}
    (h : Leaves (runSteps localeCompare maxCalls (steps + 1) transcript completed) log r) :
    StepRuns localeCompare transcript maxCalls completed log (r.map .inl) ∨
      ∃ next first rest, log = first ++ rest ∧
        StepRuns localeCompare transcript maxCalls completed first (.ok (.inr next)) ∧
        Leaves (runSteps localeCompare maxCalls steps next.1 next.2) rest r := by
  rcases leaves_bind.mp h with ⟨e, hstep, rfl⟩ | ⟨first, rest, ended, rfl, hstep, hrest⟩
  · exact .inl (leaves_runStep hstep)
  cases ended with
  | inl turn =>
    obtain ⟨rfl, rfl⟩ := leaves_pure.mp hrest
    rw [List.append_nil]
    exact .inl (leaves_runStep hstep)
  | inr next => exact .inr ⟨next, first, rest, rfl, leaves_runStep hstep, hrest⟩

end Inversion

/-! Where the turn has to end. -/

def ActionResult.endsTurn : ActionResult → Bool
  | .receipt answer => isTerminalSafetyDenial answer
  | .partially _ _ | .clarify _ _ | .preview _ _ => true

/-- An entry that the turn does not act behind: an observed abort, a preview, a question, a
partial result, a terminal denial, or an exception. -/
def Stops : Entry ε → Prop
  | ⟨_, .error _⟩ => True
  | ⟨.aborted, .ok aborted⟩ => aborted = true
  | ⟨.runAction _, .ok executed⟩ => executed.result.endsTurn = true
  | ⟨.completeWithTools _, .ok _⟩ => False
  | ⟨.onStep _ _, .ok _⟩ => False

def asksModel (entry : Entry ε) : Bool :=
  match entry.1 with
  | .completeWithTools _ => true
  | _ => false

def runsAction (entry : Entry ε) : Bool :=
  match entry.1 with
  | .runAction _ => true
  | _ => false

def Acts (entry : Entry ε) : Prop := asksModel entry = true ∨ runsAction entry = true

/-- Nothing is done behind the entry that ends the turn, and a part of the turn that goes on
has no such entry. -/
structure Orderly {σ : Type} (log : List (Entry ε)) (r : Except ε (AgentTurnResult ⊕ σ)) :
    Prop where
  quiet : log.Pairwise fun earlier later => Stops earlier → ¬ Acts later
  calm : ∀ s, r = .ok (.inr s) → ∀ entry ∈ log, ¬ Stops entry

section Orderly

variable {σ τ : Type} {s : σ} {first rest : List (Entry ε)} {r : Except ε (AgentTurnResult ⊕ τ)}

theorem Orderly.append (hfirst : Orderly first (.ok (.inr s) : Except ε (AgentTurnResult ⊕ σ)))
    (hrest : Orderly rest r) : Orderly (first ++ rest) r where
  quiet := by
    refine List.pairwise_append.mpr ⟨hfirst.quiet, hrest.quiet, ?_⟩
    intro earlier hearlier later _ hstops
    exact absurd hstops (hfirst.calm s rfl earlier hearlier)
  calm := by
    intro t ht entry hentry
    rcases List.mem_append.mp hentry with hmem | hmem
    · exact hfirst.calm s rfl entry hmem
    · exact hrest.calm t ht entry hmem

theorem Orderly.map {f : σ → τ} {log : List (Entry ε)} {r : Except ε (AgentTurnResult ⊕ σ)}
    (h : Orderly log r) : Orderly log (r.map (Sum.map id f)) where
  quiet := h.quiet
  calm := by
    intro t ht
    obtain _ | _ | s := r
    · cases ht
    · cases ht
    · exact h.calm s rfl

end Orderly

section Calls

variable {localeCompare : CodeUnits → CodeUnits → Int} {transcript : List ModelMessage}
  {completion : ToolCompletion} {call : ToolCall} {s : CallsSoFar} {log : List (Entry ε)}
  {r : Except ε (AgentTurnResult ⊕ CallsSoFar)}

theorem CallRuns.orderly (h : CallRuns localeCompare transcript completion call s log r) :
    Orderly log r := by
  cases h with
  | answered hnew hresult hdenied =>
    refine ⟨?_, ?_⟩
    · simp [observed, ran, streamed, Acts, asksModel, runsAction, Stops]
    · intro s' _ entry hentry
      simp only [List.mem_cons, List.not_mem_nil, or_false] at hentry
      rcases hentry with rfl | rfl | rfl
      · simp [observed, Stops]
      · simp [ran, Stops, hresult, ActionResult.endsTurn, hdenied]
      · simp [streamed, Stops]
  | _ =>
    refine ⟨?_, ?_⟩
    · simp [observed, ran, streamed, thrown, Acts, asksModel, runsAction, Stops]
    · intro s' hs'
      cases hs'

theorem runCalls_orderly {calls : List ToolCall}
    (h : Leaves (runCalls localeCompare transcript completion calls s) log r) : Orderly log r := by
  induction calls generalizing s log with
  | nil =>
    obtain ⟨rfl, rfl⟩ := leaves_pure.mp h
    exact ⟨.nil, fun _ _ _ hentry => absurd hentry List.not_mem_nil⟩
  | cons call rest ih =>
    rcases leaves_runCalls_cons h with ⟨hcall, -⟩ | ⟨s', first, others, rfl, hcall, hrest⟩
    · exact hcall.orderly
    · exact hcall.orderly.append (ih hrest)

end Calls

section Steps

variable {localeCompare : CodeUnits → CodeUnits → Int} {maxCalls : Nat}
  {transcript : List ModelMessage} {completed : List CodeUnits} {log : List (Entry ε)}

theorem orderly_asked {completion : ToolCompletion} {s : Unit} :
    Orderly [observed false, completedWith transcript completion]
      (.ok (.inr s) : Except ε (AgentTurnResult ⊕ Unit)) where
  quiet := by simp [observed, completedWith, Stops]
  calm := by simp [observed, completedWith, Stops]

theorem StepRuns.orderly {r : Except ε (AgentTurnResult ⊕ (List ModelMessage × List CodeUnits))}
    (h : StepRuns localeCompare transcript maxCalls completed log r) : Orderly log r := by
  cases h with
  | called completion hcalls hrun =>
    have hlog := runCalls_orderly hrun
    exact Orderly.append (s := ()) orderly_asked hlog.map
  | _ =>
    refine ⟨?_, fun _ hs => nomatch hs⟩
    simp [observed, thrown, completedWith, Acts, asksModel, runsAction, Stops]

theorem runSteps_quiet {steps : Nat} {r : Except ε AgentTurnResult}
    (h : Leaves (runSteps localeCompare maxCalls steps transcript completed) log r) :
    log.Pairwise fun earlier later => Stops earlier → ¬ Acts later := by
  induction steps generalizing transcript completed log with
  | zero =>
    obtain ⟨rfl, rfl⟩ := leaves_pure.mp h
    exact .nil
  | succ steps ih =>
    rcases leaves_runSteps_succ h with hstep | ⟨next, first, rest, rfl, hstep, hrest⟩
    · exact hstep.orderly.quiet
    · refine List.pairwise_append.mpr ⟨hstep.orderly.quiet, ih hrest, ?_⟩
      intro earlier hearlier later _ hstops
      exact absurd hstops (hstep.orderly.calm next rfl earlier hearlier)

/-! The requests to the model. -/

theorem CallRuns.asksModel_eq {completion : ToolCompletion} {call : ToolCall} {s : CallsSoFar}
    {r : Except ε (AgentTurnResult ⊕ CallsSoFar)}
    (h : CallRuns localeCompare transcript completion call s log r) :
    ∀ entry ∈ log, asksModel entry = false := by
  cases h <;> simp [observed, ran, streamed, thrown, asksModel]

theorem runCalls_asksModel_eq {completion : ToolCompletion} {calls : List ToolCall} {s : CallsSoFar}
    {r : Except ε (AgentTurnResult ⊕ CallsSoFar)}
    (h : Leaves (runCalls localeCompare transcript completion calls s) log r) :
    ∀ entry ∈ log, asksModel entry = false := by
  induction calls generalizing s log with
  | nil =>
    obtain ⟨rfl, rfl⟩ := leaves_pure.mp h
    exact fun _ hentry => absurd hentry List.not_mem_nil
  | cons call rest ih =>
    rcases leaves_runCalls_cons h with ⟨hcall, -⟩ | ⟨s', first, others, rfl, hcall, hrest⟩
    · exact hcall.asksModel_eq
    · exact List.forall_mem_append.mpr ⟨hcall.asksModel_eq, ih hrest⟩

theorem StepRuns.countP_asksModel_le
    {r : Except ε (AgentTurnResult ⊕ (List ModelMessage × List CodeUnits))}
    (h : StepRuns localeCompare transcript maxCalls completed log r) : log.countP asksModel ≤ 1 := by
  cases h with
  | called completion hcalls hrun =>
    have hnone := List.countP_eq_zero.mpr fun entry hentry =>
      Bool.not_eq_true _ ▸ runCalls_asksModel_eq hrun entry hentry
    rw [List.countP_append, hnone]
    simp [observed, completedWith, asksModel]
  | _ => simp [observed, thrown, completedWith, asksModel, List.countP_cons]

theorem runSteps_countP_asksModel_le {steps : Nat} {r : Except ε AgentTurnResult}
    (h : Leaves (runSteps localeCompare maxCalls steps transcript completed) log r) :
    log.countP asksModel ≤ steps := by
  induction steps generalizing transcript completed log with
  | zero =>
    obtain ⟨rfl, rfl⟩ := leaves_pure.mp h
    exact Nat.le_refl 0
  | succ steps ih =>
    rcases leaves_runSteps_succ h with hstep | ⟨next, first, rest, rfl, hstep, hrest⟩
    · have hone := hstep.countP_asksModel_le
      omega
    · have hone := hstep.countP_asksModel_le
      have hsteps := ih hrest
      rw [List.countP_append]
      omega

end Steps

/-! The transcript. -/

/-- The message is the reply to the call, and calls nothing itself. -/
structure IsReply (call : ToolCall) (reply : ModelMessage) : Prop where
  role_eq : reply.role = .tool
  id_eq : reply.toolCallId = some call.id
  calls_eq : reply.toolCalls = none

/-- One reply to each call, in the order of the calls. -/
def Answers (calls : List ToolCall) (replies : List ModelMessage) : Prop :=
  List.Forall₂ IsReply calls replies

/-- Behind each turn of the assistant that calls tools stand at once the replies to its calls;
only `pending`, the last call of the last such turn, has none. -/
def Paired (pending : Option ToolCall) (transcript : List ModelMessage) : Prop :=
  ∀ before turn after calls, transcript = before ++ turn :: after → turn.role = .assistant →
    turn.toolCalls = some calls →
    (∃ replies rest, after = replies ++ rest ∧ Answers calls replies) ∨
      ∃ done call, pending = some call ∧ calls = done ++ [call] ∧ Answers done after

/-- The last turn of the assistant ends with the call, and its other calls have their replies. -/
def Suspended (call : ToolCall) (transcript : List ModelMessage) : Prop :=
  ∃ before turn done replies, transcript = before ++ turn :: replies ∧ turn.role = .assistant ∧
    turn.toolCalls = some (done ++ [call]) ∧ Answers done replies

section Paired

variable {pending : Option ToolCall} {calls : List ToolCall} {call : ToolCall}
  {replies transcript added : List ModelMessage} {completion : ToolCompletion}

theorem isReply_toolResultTurn (call : ToolCall) (receipt : ToolResults.ReceiptJson) :
    IsReply call (toolResultTurn call.id receipt) := ⟨rfl, rfl, rfl⟩

theorem Answers.isReply (h : Answers calls replies) :
    ∀ reply ∈ replies, ∃ call ∈ calls, IsReply call reply := by
  intro reply hreply
  obtain ⟨i, hi, rfl⟩ := List.mem_iff_getElem.mp hreply
  have hcalls : i < calls.length := by
    rw [List.Forall₂.length_eq h]
    exact hi
  exact ⟨_, List.getElem_mem hcalls, (List.forall₂_iff_get.mp h).2 i hcalls hi⟩

theorem Answers.role_eq (h : Answers calls replies) : ∀ reply ∈ replies, reply.role = .tool := by
  intro reply hreply
  obtain ⟨call, -, hcall⟩ := h.isReply reply hreply
  exact hcall.role_eq

theorem Answers.concat {reply : ModelMessage} (h : Answers calls replies)
    (hreply : IsReply call reply) : Answers (calls ++ [call]) (replies ++ [reply]) :=
  List.rel_append h (.cons hreply .nil)

theorem paired_nil : Paired pending [] := by
  intro before turn after calls h
  exact absurd h (by simp)

theorem Paired.append (h : Paired none transcript) (hadded : Paired pending added) :
    Paired pending (transcript ++ added) := by
  intro before turn after calls hsplit hrole hcalls
  rcases List.append_eq_append_iff.mp hsplit with ⟨gap, rfl, hgap⟩ | ⟨gap, hgap, hafter⟩
  · exact hadded gap turn after calls hgap hrole hcalls
  cases gap with
  | nil =>
    rw [List.append_nil] at hgap
    exact hadded [] turn after calls hafter.symm hrole hcalls
  | cons first gap =>
    obtain ⟨rfl, rfl⟩ := List.cons.inj hafter
    rcases h before turn gap calls hgap hrole hcalls with ⟨replies, rest, rfl, hreplies⟩ | hopen
    · exact .inl ⟨replies, rest ++ added, List.append_assoc _ _ _, hreplies⟩
    · obtain ⟨_, _, hnone, _⟩ := hopen
      cases hnone

/-- Where the only turn of the assistant is the first message, nothing else is to be checked. -/
theorem paired_cons {turn : ModelMessage} (hreplies : ∀ reply ∈ replies, reply.role = .tool)
    (hturn : ∀ calls, turn.toolCalls = some calls →
      (∃ answers rest, replies = answers ++ rest ∧ Answers calls answers) ∨
        ∃ done call, pending = some call ∧ calls = done ++ [call] ∧ Answers done replies) :
    Paired pending (turn :: replies) := by
  intro before found after calls hsplit hrole hcalls
  cases before with
  | nil =>
    obtain ⟨rfl, rfl⟩ := List.cons.inj hsplit
    exact hturn calls hcalls
  | cons first before =>
    have hmem : found ∈ replies := by
      rw [(List.cons.inj hsplit).2]
      exact List.mem_append_right before List.mem_cons_self
    rw [hreplies found hmem] at hrole
    cases hrole

theorem paired_turn (h : Answers calls replies) :
    Paired none (assistantToolCallTurn completion calls :: replies) := by
  refine paired_cons h.role_eq fun calls' hcalls => .inl ⟨replies, [], (List.append_nil _).symm, ?_⟩
  obtain rfl : calls = calls' := Option.some.inj hcalls
  exact h

theorem paired_suspended (h : Answers calls replies) :
    Paired (some call) (assistantToolCallTurn completion (calls ++ [call]) :: replies) := by
  refine paired_cons h.role_eq fun calls' hcalls => .inr ⟨calls, call, rfl, ?_, h⟩
  exact (Option.some.inj hcalls).symm

theorem suspended_turn (h : Answers calls replies) :
    Suspended call (transcript ++ assistantToolCallTurn completion (calls ++ [call]) :: replies) :=
  ⟨transcript, _, calls, replies, rfl, rfl, rfl, h⟩

end Paired

/-- The call that was run last. -/
def lastRun (log : List (Entry ε)) : Option ToolCall :=
  (log.filterMap fun entry => match entry.1 with
    | .runAction call => some call
    | _ => none).getLast?

def AgentTurnResult.suspends : AgentTurnResult → Bool
  | interrupt _ _ _ _ | clarify _ _ _ | partially _ => true
  | final _ _ | exhausted _ _ | aborted _ => false

/-- The call that the turn leaves without a reply. -/
def openCall (log : List (Entry ε)) (turn : AgentTurnResult) : Option ToolCall :=
  if turn.suspends then lastRun log else none

/-- The transcript that a turn hands back, beside the log of the turn. -/
structure TurnLaw (messages : List ModelMessage) (log : List (Entry ε)) (turn : AgentTurnResult) :
    Prop where
  extends_messages : ∃ added, turn.transcript = messages ++ added ∧ Paired (openCall log turn) added
  suspended : turn.suspends = true →
    ∃ call, lastRun log = some call ∧ Suspended call turn.transcript
  interrupted : ∀ call card operation transcript,
    turn = .interrupt call card operation transcript → lastRun log = some call

section TurnLaw

variable {messages block : List ModelMessage} {first log : List (Entry ε)} {turn : AgentTurnResult}

theorem lastRun_append {call : ToolCall} (h : lastRun log = some call) :
    lastRun (first ++ log) = some call := by
  unfold lastRun at h ⊢
  rw [List.filterMap_append, List.getLast?_append, h]
  rfl

theorem TurnLaw.openCall_append (h : TurnLaw messages log turn) :
    openCall (first ++ log) turn = openCall log turn := by
  unfold openCall
  cases hsuspends : turn.suspends with
  | false => rfl
  | true =>
    obtain ⟨call, hlast, -⟩ := h.suspended hsuspends
    rw [lastRun_append hlast, hlast]

/-- What ran before, and the messages that it appended, do not matter. -/
theorem TurnLaw.behind (h : TurnLaw (messages ++ block) log turn) (hblock : Paired none block) :
    TurnLaw messages (first ++ log) turn where
  extends_messages := by
    obtain ⟨added, htranscript, hadded⟩ := h.extends_messages
    rw [h.openCall_append]
    exact ⟨block ++ added, htranscript.trans (List.append_assoc _ _ _), hblock.append hadded⟩
  suspended := by
    intro hsuspends
    obtain ⟨call, hlast, hcall⟩ := h.suspended hsuspends
    exact ⟨call, lastRun_append hlast, hcall⟩
  interrupted := by
    intro call card operation transcript hturn
    exact lastRun_append (h.interrupted call card operation transcript hturn)

theorem TurnLaw.later (h : TurnLaw messages log turn) : TurnLaw messages (first ++ log) turn := by
  rw [← List.append_nil messages] at h
  exact h.behind paired_nil

/-- A turn that leaves no call open appends nothing, or a turn with all its replies. -/
theorem turnLaw_of_paired (hsuspends : turn.suspends = false) (hblock : Paired none block)
    (htranscript : turn.transcript = messages ++ block) : TurnLaw messages log turn where
  extends_messages := by
    unfold openCall
    rw [hsuspends]
    exact ⟨block, htranscript, hblock⟩
  suspended := by
    intro htrue
    rw [hsuspends] at htrue
    cases htrue
  interrupted := by
    rintro call card operation transcript rfl
    cases hsuspends

theorem turnLaw_of_suspended {calls : List ToolCall} {call : ToolCall} {replies : List ModelMessage}
    {completion : ToolCompletion} (hsuspends : turn.suspends = true) (hlast : lastRun log = some call)
    (hreplies : Answers calls replies) (htranscript : turn.transcript =
      messages ++ assistantToolCallTurn completion (calls ++ [call]) :: replies)
    (hcall : ∀ call' card operation transcript,
      turn = .interrupt call' card operation transcript → call' = call) :
    TurnLaw messages log turn where
  extends_messages := by
    unfold openCall
    rw [hsuspends, if_pos rfl, hlast]
    exact ⟨_, htranscript, paired_suspended hreplies⟩
  suspended := fun _ => ⟨call, hlast, htranscript ▸ suspended_turn hreplies⟩
  interrupted := by
    intro call' card operation transcript hturn
    rw [hcall call' card operation transcript hturn]
    exact hlast

end TurnLaw

section Transcript

variable {localeCompare : CodeUnits → CodeUnits → Int} {transcript : List ModelMessage}
  {completion : ToolCompletion} {call : ToolCall} {s s' : CallsSoFar} {log : List (Entry ε)}
  {turn : AgentTurnResult}

def CallsSoFar.Answered (s : CallsSoFar) : Prop := Answers s.honored s.toolResults

theorem CallsSoFar.Answered.answer {signature : CodeUnits} {receipt : ToolResults.ReceiptJson}
    (hs : s.Answered) : ((s.honor call).answer call signature receipt).Answered :=
  Answers.concat hs (isReply_toolResultTurn call receipt)

theorem CallRuns.answered_next
    (h : CallRuns localeCompare transcript completion call s log (.ok (.inr s')))
    (hs : s.Answered) : s'.Answered := by
  cases h with
  | answered hnew hresult hdenied => exact hs.answer

theorem CallRuns.turnLaw
    (h : CallRuns localeCompare transcript completion call s log (.ok (.inl turn)))
    (hs : s.Answered) : TurnLaw transcript log turn := by
  cases h with
  | aborted => exact turnLaw_of_paired rfl paired_nil (List.append_nil _).symm
  | recorded hrecorded =>
    by_cases hnone : s.honored.isEmpty = true
    · exact turnLaw_of_paired rfl paired_nil (by simp [AgentTurnResult.transcript, hnone])
    · refine turnLaw_of_paired rfl (paired_turn hs : Paired none (assistantToolCallTurn completion s.honored :: _)) ?_
      exact if_neg hnone
  | preview hnew hresult =>
    refine turnLaw_of_suspended rfl rfl hs rfl ?_
    intro call' card' operation' transcript' hturn
    injection hturn with hcall
    exact hcall.symm
  | clarify hnew hresult => exact turnLaw_of_suspended rfl rfl hs rfl nofun
  | partially hnew hresult => exact turnLaw_of_suspended rfl rfl hs rfl nofun
  | denied hnew hresult hdenied =>
    exact turnLaw_of_paired rfl (paired_turn hs.answer) rfl

theorem runCalls_answered {calls : List ToolCall}
    (h : Leaves (runCalls localeCompare transcript completion calls s) log (.ok (.inr s')))
    (hs : s.Answered) : s'.Answered := by
  induction calls generalizing s log with
  | nil =>
    obtain ⟨-, hend⟩ := leaves_pure.mp h
    cases hend
    exact hs
  | cons call rest ih =>
    rcases leaves_runCalls_cons h with ⟨-, hnot⟩ | ⟨s₁, first, others, rfl, hcall, hrest⟩
    · exact absurd rfl (hnot s')
    · exact ih hrest (hcall.answered_next hs)

theorem runCalls_turnLaw {calls : List ToolCall}
    (h : Leaves (runCalls localeCompare transcript completion calls s) log (.ok (.inl turn)))
    (hs : s.Answered) : TurnLaw transcript log turn := by
  induction calls generalizing s log with
  | nil =>
    obtain ⟨-, hend⟩ := leaves_pure.mp h
    cases hend
  | cons call rest ih =>
    rcases leaves_runCalls_cons h with ⟨hcall, -⟩ | ⟨s₁, first, others, rfl, hcall, hrest⟩
    · exact hcall.turnLaw hs
    · have hrest := ih hrest (hcall.answered_next hs)
      exact hrest.later

variable {maxCalls : Nat} {completed : List CodeUnits}

theorem StepRuns.turnLaw
    (h : StepRuns localeCompare transcript maxCalls completed log (.ok (.inl turn))) :
    TurnLaw transcript log turn := by
  generalize hr : (Except.ok (Sum.inl turn) :
    Except ε (AgentTurnResult ⊕ (List ModelMessage × List CodeUnits))) = r at h
  cases h with
  | called completion hcalls hrun =>
    rename_i calls ended
    obtain _ | turn' | s := ended
    · cases hr
    · cases hr
      have hrest := runCalls_turnLaw hrun .nil
      exact hrest.later
    · cases hr
  | aborted | gone | spoke =>
    cases hr
    exact turnLaw_of_paired rfl paired_nil (List.append_nil _).symm
  | _ => cases hr

theorem StepRuns.appends {next : List ModelMessage × List CodeUnits}
    (h : StepRuns localeCompare transcript maxCalls completed log (.ok (.inr next))) :
    ∃ block, next.1 = transcript ++ block ∧ Paired none block := by
  obtain ⟨completion, calls, s, -, hrun, rfl⟩ := h.next_inv
  exact ⟨_, rfl, paired_turn (runCalls_answered hrun .nil)⟩

theorem runSteps_turnLaw {steps : Nat}
    (h : Leaves (runSteps localeCompare maxCalls steps transcript completed) log (.ok turn)) :
    TurnLaw transcript log turn := by
  induction steps generalizing transcript completed log with
  | zero =>
    obtain ⟨-, hend⟩ := leaves_pure.mp h
    cases hend
    exact turnLaw_of_paired rfl paired_nil (List.append_nil _).symm
  | succ steps ih =>
    rcases leaves_runSteps_succ h with hstep | ⟨next, first, rest, rfl, hstep, hrest⟩
    · exact hstep.turnLaw
    · obtain ⟨block, hnext, hblock⟩ := hstep.appends
      have hrest := ih hrest
      rw [hnext] at hrest
      exact hrest.behind hblock

end Transcript

section Thrown

variable {localeCompare : CodeUnits → CodeUnits → Int} {transcript : List ModelMessage}
  {completion : ToolCompletion} {call : ToolCall} {s : CallsSoFar} {maxCalls : Nat}
  {completed : List CodeUnits} {log : List (Entry ε)} {e : ε}

theorem CallRuns.thrown_mem
    (h : CallRuns localeCompare transcript completion call s log (.error e)) :
    ∃ o, thrown o e ∈ log := by
  cases h with
  | noSignal => exact ⟨_, List.mem_singleton_self _⟩
  | failed => exact ⟨_, List.mem_cons_of_mem _ (List.mem_singleton_self _)⟩
  | unstreamed =>
    exact ⟨_, List.mem_cons_of_mem _ (List.mem_cons_of_mem _ (List.mem_singleton_self _))⟩

theorem runCalls_thrown_mem {calls : List ToolCall}
    (h : Leaves (runCalls localeCompare transcript completion calls s) log (.error e)) :
    ∃ o, thrown o e ∈ log := by
  induction calls generalizing s log with
  | nil =>
    obtain ⟨-, hend⟩ := leaves_pure.mp h
    cases hend
  | cons call rest ih =>
    rcases leaves_runCalls_cons h with ⟨hcall, -⟩ | ⟨s₁, first, others, rfl, hcall, hrest⟩
    · exact hcall.thrown_mem
    · obtain ⟨o, ho⟩ := ih hrest
      exact ⟨o, List.mem_append_right first ho⟩

theorem StepRuns.thrown_mem
    (h : StepRuns localeCompare transcript maxCalls completed log (.error e)) :
    ∃ o, thrown o e ∈ log := by
  generalize hr : (Except.error e :
    Except ε (AgentTurnResult ⊕ (List ModelMessage × List CodeUnits))) = r at h
  cases h with
  | called completion hcalls hrun =>
    rename_i calls ended
    obtain e' | ended := ended
    · cases hr
      obtain ⟨o, ho⟩ := runCalls_thrown_mem hrun
      exact ⟨o, List.mem_append_right _ ho⟩
    · cases hr
  | noSignal =>
    cases hr
    exact ⟨.aborted, List.mem_singleton_self _⟩
  | failed =>
    cases hr
    exact ⟨.completeWithTools transcript, by simp⟩
  | failedTwice =>
    cases hr
    exact ⟨.aborted, by simp⟩
  | _ => cases hr

theorem runSteps_thrown_mem {steps : Nat}
    (h : Leaves (runSteps localeCompare maxCalls steps transcript completed) log (.error e)) :
    ∃ o, thrown o e ∈ log := by
  induction steps generalizing transcript completed log with
  | zero =>
    obtain ⟨-, hend⟩ := leaves_pure.mp h
    cases hend
  | succ steps ih =>
    rcases leaves_runSteps_succ h with hstep | ⟨next, first, rest, rfl, hstep, hrest⟩
    · exact hstep.thrown_mem
    · obtain ⟨o, ho⟩ := ih hrest
      exact ⟨o, List.mem_append_right first ho⟩

end Thrown

/-- Whatever the provider and the actions answer: the turn throws what one of them threw, or it
hands back the messages with answered turns behind them; only the last call of a suspended turn
is open. No action runs behind the entry that ends the turn. -/
theorem runAgentTurn_law {localeCompare : CodeUnits → CodeUnits → Int} {input : RunAgentTurnInput}
    {log : List (Entry ε)} {r : Except ε AgentTurnResult}
    (h : Leaves (runAgentTurn localeCompare input) log r) :
    (∀ turn, r = .ok turn → TurnLaw input.messages log turn ∧
      (Paired none input.messages → Paired (openCall log turn) turn.transcript)) ∧
    (∀ e, r = .error e → ∃ o, thrown o e ∈ log) ∧
    (log.Pairwise fun earlier later => Stops earlier → ¬ Acts later) ∧
    log.countP asksModel ≤ input.steps := by
  refine ⟨?_, ?_, runSteps_quiet h, runSteps_countP_asksModel_le h⟩
  · rintro turn rfl
    have hlaw := runSteps_turnLaw h
    obtain ⟨added, htranscript, hadded⟩ := hlaw.extends_messages
    refine ⟨hlaw, fun hmessages => ?_⟩
    rw [htranscript]
    exact hmessages.append hadded
  · rintro e rfl
    exact runSteps_thrown_mem h

namespace Example

/-- On names in lower case this is the order of every locale. -/
def byUnits (left right : CodeUnits) : Int :=
  if left = right then 0 else if left ≤ right then -1 else 1

def question : ModelMessage where
  role := .user
  content := CodeUnits.ofString "archive it"
  toolCalls := none
  toolCallId := none
  reasoningContent := none

def readProject : ToolCall where
  id := CodeUnits.ofString "call_0"
  name := CodeUnits.ofString "project_get"
  arguments := []
  thoughtSignature := none

def archiveProject : ToolCall := { readProject with name := CodeUnits.ofString "project_archive" }

def readReceipt : ToolResults.ReceiptJson where
  fields := [(ToolResults.okName, .bool true)]
  ok := true
  okField := rfl
  codeField := nofun
  unmarked := rfl

def bothCalls : ToolCompletion where
  text := []
  toolCalls := [readProject, archiveProject]
  reasoningContent := none

def input : RunAgentTurnInput where
  messages := [question]
  maxSteps := none
  maxToolCallsPerStep := none

def wasRead : Executed := ⟨.receipt readReceipt, .untouched⟩

def wasShown : Executed := ⟨.preview .null .null, .untouched⟩

def suspendedLog : List (Entry Unit) :=
  [observed false, completedWith [question] bothCalls, observed false, ran readProject wasRead,
    streamed readProject wasRead.result, observed false, ran archiveProject wasShown]

def suspendedTurn : AgentTurnResult :=
  .interrupt archiveProject .null .null
    ([question] ++ assistantToolCallTurn bothCalls [readProject, archiveProject] ::
      [toolResultTurn readProject.id readReceipt])

theorem leaves_suspended : Leaves (runAgentTurn byUnits input) suspendedLog (.ok suspendedTurn) :=
  .call (.call (.call (.call (.call (.call (.call (.ret _)))))))

/-- A read and a preview under one id: the read is answered, the preview stays open. -/
theorem suspended_law :
    TurnLaw [question] suspendedLog suspendedTurn ∧ suspendedLog.countP asksModel ≤ 6 := by
  obtain ⟨hturn, -, -, hcount⟩ := runAgentTurn_law leaves_suspended
  exact ⟨(hturn suspendedTurn rfl).1, hcount⟩

end Example

end AgentLoop

end ClockifyAssistant
