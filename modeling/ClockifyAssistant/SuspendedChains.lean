import ClockifyAssistant.AgentTranscript
import ClockifyAssistant.StoredStates
import Mathlib.Data.List.TakeWhile

/-!
Chains of suspended turns: a turn stops at a risky preview, its state is stored and read again,
perhaps by a later process, and the next turn starts from it with the receipt of the commit.
-/
namespace ClockifyAssistant

open Lib Lib.CodeUnits Fallible

namespace AgentLoop

variable {ε : Type}

/-! Transcripts whose calls are all answered. -/

/-- Plain messages, and behind them turns of the assistant with the replies to all their calls. -/
inductive Dialogue : List ModelMessage → Prop
  | plain {messages : List ModelMessage} :
      (∀ message ∈ messages, message.toolCalls = none ∧ message.role ≠ .tool) → Dialogue messages
  | turn {transcript replies : List ModelMessage} {completion : ToolCompletion}
      {calls : List ToolCall} : Dialogue transcript → Answers calls replies →
      Dialogue (transcript ++ assistantToolCallTurn completion calls :: replies)

/-- The message is a reply to a call with the id. -/
def repliesTo (id : CodeUnits) (message : ModelMessage) : Bool :=
  message.role = .tool ∧ message.toolCallId = some id

/-- A provider accepts the transcript: no id occurs twice, and each call has one reply before
the next turn of the assistant. -/
structure WellAnswered (transcript : List ModelMessage) : Prop where
  distinct : ((callsOf transcript).map ToolCall.id).Nodup
  answered : ∀ before turn after calls, transcript = before ++ turn :: after →
    turn.role = .assistant → turn.toolCalls = some calls → ∀ call ∈ calls,
      (after.takeWhile fun message => message.role ≠ .assistant).countP (repliesTo call.id) = 1

section Dialogue

variable {transcript replies : List ModelMessage} {calls : List ToolCall} {call : ToolCall}
  {completion : ToolCompletion}

theorem callsOf_append (before after : List ModelMessage) :
    callsOf (before ++ after) = callsOf before ++ callsOf after := List.flatMap_append

theorem callsOf_replies (h : Answers calls replies) : callsOf replies = [] := by
  refine List.flatMap_eq_nil_iff.mpr fun reply hreply => ?_
  obtain ⟨call, -, hcall⟩ := h.isReply reply hreply
  rw [hcall.calls_eq, Option.getD_none]

theorem callsOf_turn (h : Answers calls replies) (called : List ToolCall) :
    callsOf (transcript ++ assistantToolCallTurn completion called :: replies) =
      callsOf transcript ++ called := by
  have hturn : callsOf (assistantToolCallTurn completion called :: replies) =
      called ++ callsOf replies := List.flatMap_cons
  rw [callsOf_append, hturn, callsOf_replies h, List.append_nil]

theorem repliesTo_of_isReply {reply : ModelMessage} (h : IsReply call reply) (id : CodeUnits) :
    repliesTo id reply = decide (call.id = id) := by
  simp [repliesTo, h.role_eq, h.id_eq]

theorem countP_replies (h : Answers calls replies) (id : CodeUnits) :
    replies.countP (repliesTo id) = (calls.map ToolCall.id).count id := by
  induction h with
  | nil => rfl
  | @cons first reply calls replies hreply hrest ih =>
    rw [List.countP_cons, ih, List.map_cons, List.count_cons, repliesTo_of_isReply hreply]
    simp [beq_iff_eq]

theorem takeWhile_replies (h : Answers calls replies) :
    replies.takeWhile (fun message => message.role ≠ .assistant) = replies := by
  refine List.takeWhile_eq_self_iff.mpr fun reply hreply => ?_
  rw [h.role_eq reply hreply]
  decide

theorem takeWhile_before {before after : List ModelMessage} {turn : ModelMessage}
    (h : turn.role = .assistant) :
    (before ++ turn :: after).takeWhile (fun message => message.role ≠ .assistant) =
      before.takeWhile (fun message => message.role ≠ .assistant) := by
  induction before with
  | nil => simp [h]
  | cons message rest ih =>
    rw [List.cons_append, List.takeWhile_cons, List.takeWhile_cons, ih]

theorem Dialogue.wellAnswered (h : Dialogue transcript)
    (hdistinct : ((callsOf transcript).map ToolCall.id).Nodup) : WellAnswered transcript := by
  induction h with
  | plain hplain =>
    refine ⟨hdistinct, ?_⟩
    rintro before turn after calls rfl - hcalls
    have hturn := (hplain turn (List.mem_append_right before List.mem_cons_self)).1
    rw [hturn] at hcalls
    cases hcalls
  | @turn transcript replies completion called htranscript hreplies ih =>
    refine ⟨hdistinct, ?_⟩
    rw [callsOf_turn hreplies, List.map_append] at hdistinct
    have hcalled := (List.nodup_append.mp hdistinct).2.1
    have hbefore := ih (List.nodup_append.mp hdistinct).1
    intro before turn after calls hsplit hrole hcalls call hcall
    rcases List.append_eq_append_iff.mp hsplit with ⟨gap, -, hgap⟩ | ⟨gap, hgap, hafter⟩
    · cases gap with
      | nil =>
        obtain ⟨rfl, rfl⟩ := List.cons.inj hgap
        obtain rfl : called = calls := Option.some.inj hcalls
        rw [takeWhile_replies hreplies, countP_replies hreplies]
        exact List.count_eq_one_of_mem hcalled (List.mem_map_of_mem hcall)
      | cons first gap =>
        have hmem : turn ∈ replies := by
          rw [(List.cons.inj hgap).2]
          exact List.mem_append_right gap List.mem_cons_self
        rw [hreplies.role_eq turn hmem] at hrole
        cases hrole
    · cases gap with
      | nil =>
        obtain ⟨rfl, rfl⟩ := List.cons.inj hafter
        obtain rfl : called = calls := Option.some.inj hcalls
        rw [takeWhile_replies hreplies, countP_replies hreplies]
        exact List.count_eq_one_of_mem hcalled (List.mem_map_of_mem hcall)
      | cons first gap =>
        obtain ⟨rfl, hlater⟩ := List.cons.inj hafter
        rw [hlater, List.append_eq, takeWhile_before rfl]
        exact hbefore.answered before turn gap calls hgap hrole hcalls call hcall

end Dialogue

/-! What one turn sends, and where it stops. -/

def completionsOf (log : List (Entry ε)) : List ToolCompletion :=
  log.filterMap fun entry => match entry with
    | ⟨.completeWithTools _, .ok completion⟩ => some completion
    | _ => none

/-- All calls that the provider has made. -/
def callsIn (completions : List ToolCompletion) : List ToolCall :=
  completions.flatMap ToolCompletion.toolCalls

/-- A dialogue whose calls are among those that the provider has made. -/
structure Grown (made : List ToolCall) (transcript : List ModelMessage) : Prop where
  dialogue : Dialogue transcript
  among : (callsOf transcript).Sublist made

/-- A dialogue with one more turn, whose last call is open. -/
def Stopped (made : List ToolCall) (call : ToolCall) (transcript : List ModelMessage) : Prop :=
  ∃ base completion done replies,
    transcript = base ++ assistantToolCallTurn completion (done ++ [call]) :: replies ∧
      Dialogue base ∧ Answers done replies ∧ (callsOf transcript).Sublist made

section Turns

variable {localeCompare : CodeUnits → CodeUnits → Int} {maxCalls : Nat}
  {transcript : List ModelMessage} {completed : List CodeUnits} {completion : ToolCompletion}
  {call : ToolCall} {s s' : CallsSoFar} {log : List (Entry ε)} {made : List ToolCall}
  {card operation : UnitJson} {stopped : List ModelMessage}

theorem Grown.mono (h : Grown made transcript) (more : List ToolCall) :
    Grown (made ++ more) transcript :=
  ⟨h.dialogue, h.among.trans (List.sublist_append_left made more)⟩

theorem CallRuns.honored
    (h : CallRuns localeCompare transcript completion call s log (.ok (.inr s'))) :
    s'.honored = s.honored ++ [call] := by
  cases h with
  | answered hnew hresult hdenied => rfl

theorem runCalls_honored {calls : List ToolCall}
    (h : Leaves (runCalls localeCompare transcript completion calls s) log (.ok (.inr s'))) :
    s'.honored = s.honored ++ calls := by
  induction calls generalizing s log with
  | nil =>
    obtain ⟨-, hend⟩ := leaves_pure.mp h
    cases hend
    exact (List.append_nil _).symm
  | cons call rest ih =>
    rcases leaves_runCalls_cons h with ⟨-, hnot⟩ | ⟨s₁, first, others, rfl, hcall, hrest⟩
    · exact absurd rfl (hnot s')
    · rw [ih hrest, hcall.honored, List.append_assoc, List.singleton_append]

theorem runCalls_interrupt {calls : List ToolCall}
    (h : Leaves (runCalls localeCompare transcript completion calls s) log
      (.ok (.inl (.interrupt call card operation stopped)))) (hs : s.Answered) :
    ∃ done rest replies,
      stopped = transcript ++ assistantToolCallTurn completion (done ++ [call]) :: replies ∧
        Answers done replies ∧ s.honored ++ calls = done ++ call :: rest := by
  induction calls generalizing s log with
  | nil =>
    obtain ⟨-, hend⟩ := leaves_pure.mp h
    cases hend
  | cons first rest ih =>
    rcases leaves_runCalls_cons h with ⟨hcall, -⟩ | ⟨s₁, ahead, others, rfl, hcall, hrest⟩
    · cases hcall with
      | preview hnew hresult => exact ⟨s.honored, rest, s.toolResults, rfl, hs, rfl⟩
    · obtain ⟨done, others', replies, hstopped, hreplies, hdone⟩ :=
        ih hrest (hcall.answered_next hs)
      refine ⟨done, others', replies, hstopped, hreplies, ?_⟩
      rw [← hdone, hcall.honored, List.append_assoc, List.singleton_append]

theorem completionsOf_runCalls {calls : List ToolCall} {r : Except ε (AgentTurnResult ⊕ CallsSoFar)}
    (h : Leaves (runCalls localeCompare transcript completion calls s) log r) :
    completionsOf log = [] := by
  refine List.filterMap_eq_nil_iff.mpr fun entry hentry => ?_
  have hasks := runCalls_asksModel_eq h entry hentry
  obtain ⟨o, a⟩ := entry
  cases o with
  | completeWithTools t => cases hasks
  | aborted => rfl
  | runAction call => rfl
  | onStep call result => rfl

theorem completionsOf_append (first rest : List (Entry ε)) :
    completionsOf (first ++ rest) = completionsOf first ++ completionsOf rest :=
  List.filterMap_append

theorem callsIn_asked {calls : List ToolCall} {r : Except ε (AgentTurnResult ⊕ CallsSoFar)}
    (h : Leaves (runCalls localeCompare transcript completion calls s) log r) :
    callsIn (completionsOf ([observed false, completedWith transcript completion] ++ log)) =
      completion.toolCalls := by
  rw [completionsOf_append, completionsOf_runCalls h]
  exact List.append_nil _

theorem StepRuns.sent {r : Except ε (AgentTurnResult ⊕ (List ModelMessage × List CodeUnits))}
    (h : StepRuns localeCompare transcript maxCalls completed log r) {t : List ModelMessage}
    {a : Except ε ToolCompletion} (hentry : (⟨.completeWithTools t, a⟩ : Entry ε) ∈ log) :
    t = transcript := by
  cases h with
  | called completion hcalls hrun =>
    rcases List.mem_append.mp hentry with hasked | hrest
    · simp [observed, completedWith] at hasked
      exact hasked.1
    · have hasks := runCalls_asksModel_eq hrun _ hrest
      cases hasks
  | noSignal e => simp [thrown] at hentry
  | aborted => simp [observed] at hentry
  | gone e =>
    simp [observed, thrown] at hentry
    exact hentry.1
  | failed e =>
    simp [observed, thrown] at hentry
    exact hentry.1
  | failedTwice e e' =>
    simp [observed, thrown] at hentry
    exact hentry.1
  | spoke completion hcalls =>
    simp [observed, completedWith] at hentry
    exact hentry.1

theorem StepRuns.grown {next : List ModelMessage × List CodeUnits}
    (h : StepRuns localeCompare transcript maxCalls completed log (.ok (.inr next)))
    (hmade : Grown made transcript) : Grown (made ++ callsIn (completionsOf log)) next.1 := by
  obtain ⟨completion, calls, s, rfl, hrun, rfl⟩ := h.next_inv
  have hanswered : Answers s.honored s.toolResults := runCalls_answered hrun .nil
  refine ⟨.turn hmade.dialogue hanswered, ?_⟩
  change (callsOf (transcript ++ assistantToolCallTurn completion s.honored ::
    s.toolResults)).Sublist _
  rw [callsOf_turn hanswered, callsIn_asked hrun, runCalls_honored hrun, List.nil_append]
  exact hmade.among.append (List.take_sublist _ _)

theorem StepRuns.interrupted (h : StepRuns localeCompare transcript maxCalls completed log
      (.ok (.inl (.interrupt call card operation stopped)))) (hmade : Grown made transcript) :
    Stopped (made ++ callsIn (completionsOf log)) call stopped := by
  generalize hr : (Except.ok (Sum.inl (AgentTurnResult.interrupt call card operation stopped)) :
    Except ε (AgentTurnResult ⊕ (List ModelMessage × List CodeUnits))) = r at h
  cases h with
  | called completion hcalls hrun =>
    rename_i calls ended
    obtain _ | turn | s := ended
    · cases hr
    · cases hr
      obtain ⟨done, rest, replies, hstopped, hreplies, hdone⟩ := runCalls_interrupt hrun .nil
      refine ⟨transcript, completion, done, replies, hstopped, hmade.dialogue, hreplies, ?_⟩
      rw [hstopped, callsOf_turn hreplies, callsIn_asked hrun]
      refine hmade.among.append ?_
      have hprefix : (done ++ [call]).Sublist (completion.toolCalls.take maxCalls) := by
        rw [← List.nil_append (completion.toolCalls.take maxCalls)]
        refine hdone.symm ▸ List.Sublist.append (List.Sublist.refl done) ?_
        exact List.singleton_sublist.mpr List.mem_cons_self
      exact hprefix.trans (List.take_sublist _ _)
    · cases hr
  | _ => cases hr

theorem callsIn_append (first rest : List ToolCompletion) :
    callsIn (first ++ rest) = callsIn first ++ callsIn rest := List.flatMap_append

theorem runSteps_sent {steps : Nat} {r : Except ε AgentTurnResult}
    (h : Leaves (runSteps localeCompare maxCalls steps transcript completed) log r)
    (hmade : Grown made transcript) {t : List ModelMessage} {a : Except ε ToolCompletion}
    (hentry : (⟨.completeWithTools t, a⟩ : Entry ε) ∈ log) :
    Grown (made ++ callsIn (completionsOf log)) t := by
  induction steps generalizing transcript completed log made with
  | zero =>
    obtain ⟨rfl, -⟩ := leaves_pure.mp h
    cases hentry
  | succ steps ih =>
    rcases leaves_runSteps_succ h with hstep | ⟨next, first, rest, rfl, hstep, hrest⟩
    · rw [hstep.sent hentry]
      exact hmade.mono _
    rcases List.mem_append.mp hentry with hfirst | hlater
    · rw [hstep.sent hfirst]
      exact hmade.mono _
    · rw [completionsOf_append, callsIn_append, ← List.append_assoc]
      exact ih hrest (hstep.grown hmade) hlater

theorem runSteps_stopped {steps : Nat}
    (h : Leaves (runSteps localeCompare maxCalls steps transcript completed) log
      (.ok (.interrupt call card operation stopped))) (hmade : Grown made transcript) :
    Stopped (made ++ callsIn (completionsOf log)) call stopped := by
  induction steps generalizing transcript completed log made with
  | zero =>
    obtain ⟨-, hend⟩ := leaves_pure.mp h
    cases hend
  | succ steps ih =>
    rcases leaves_runSteps_succ h with hstep | ⟨next, first, rest, rfl, hstep, hrest⟩
    · exact hstep.interrupted hmade
    · rw [completionsOf_append, callsIn_append, ← List.append_assoc]
      exact ih hrest (hstep.grown hmade)

theorem Stopped.resumed {state : AgentState} (h : Stopped made call state.transcript)
    (hcall : state.call.id = call.id) (receipt : ToolResults.ReceiptJson) :
    Grown made (resumeMessages state receipt) := by
  obtain ⟨base, completion, done, replies, htranscript, hbase, hreplies, hamong⟩ := h
  have hreply : IsReply call (toolResultTurn state.call.id receipt) := by
    rw [hcall]
    exact isReply_toolResultTurn call receipt
  have hanswered := hreplies.concat hreply
  have hresumed : resumeMessages state receipt = base ++
      assistantToolCallTurn completion (done ++ [call]) ::
        (replies ++ [toolResultTurn state.call.id receipt]) := by
    unfold resumeMessages
    rw [htranscript, List.append_assoc, List.cons_append]
  rw [htranscript, callsOf_turn hreplies] at hamong
  rw [hresumed]
  refine ⟨.turn hbase hanswered, ?_⟩
  rw [callsOf_turn hanswered]
  exact hamong

end Turns

/-! The ids of the calls. -/

/-- One completion: the process that parsed it, the counter there, and the calls in it. -/
structure Served where
  process : Nat
  seq : Nat
  offeredToolNames : List CodeUnits
  raw : List RawToolCall

namespace Served

/-- The ids that the provider supplied. -/
def supplied (served : Served) : List CodeUnits := served.raw.filterMap RawToolCall.supplied

/-- How many calls came without an id. -/
def omitted (served : Served) : Nat := served.raw.countP fun raw => raw.supplied.isNone

/-- The numbers that the counter gave to calls without an id. -/
def numbers (served : Served) : List Nat := List.range' served.seq served.omitted

/-- The counter of a process only grows, and a later process has one of its own. -/
def Before (served later : Served) : Prop :=
  served.process < later.process ∨
    served.process = later.process ∧ served.seq + served.omitted ≤ later.seq

def Parsed (served : Served) (completion : ToolCompletion) : Prop :=
  ∃ next, parseToolCalls served.offeredToolNames served.raw served.seq =
    .ok (completion.toolCalls, next)

end Served

def protoName : CodeUnits := ofString "__proto__"

/-- The arguments of the call outlive the JSON text and the schema. -/
def RawToolCall.Plain (raw : RawToolCall) : Prop :=
  ∀ arguments, raw.arguments = some (.obj arguments) →
    ReadJson.fieldsFinite arguments = true ∧ protoName ∉ arguments.map Prod.fst

section Ids

theorem syntheticId_injective : Function.Injective syntheticId := by
  intro m n h
  exact CodeUnits.ofNat_injective (List.append_cancel_left h)

variable {raw : RawToolCall}

theorem RawToolCall.supplied_ne {id : CodeUnits} (h : raw.supplied = some id) : id ≠ [] := by
  have hfilter := Option.filter_eq_some_iff.mp h
  simpa using hfilter.2

theorem syntheticId_ne (n : Nat) : syntheticId n ≠ [] := by
  unfold syntheticId
  exact List.append_ne_nil_of_left_ne_nil (by decide) _

/-- What a parsed call is, beside the call that the provider made. -/
structure ParsedFrom (seq : Nat) (raw : RawToolCall) (call : ToolCall) : Prop where
  id_eq : call.id = (callId seq raw).1
  name_ne : call.name ≠ []
  signature_ne : call.thoughtSignature ≠ some []
  arguments_eq : raw.arguments = some (.obj call.arguments)

theorem parseSignature_ne {raw : Option UnitJson} {signature : Option CodeUnits}
    (h : parseSignature raw = .ok signature) : signature ≠ some [] := by
  unfold parseSignature at h
  split at h
  · cases h
    nofun
  · cases h
    nofun
  · next text =>
    cases h
    split
    · nofun
    · next hne => exact fun hsome => hne (Option.some.inj hsome)
  · cases h

theorem parseCall_ok {seq next : Nat} {call : ToolCall} (h : parseCall seq raw = .ok (call, next)) :
    ParsedFrom seq raw call ∧ next = (callId seq raw).2 := by
  obtain ⟨id, name, arguments, thoughtSignature⟩ := raw
  unfold parseCall at h
  split at h
  · next u rest fields hname harguments =>
    cases hsignature : parseSignature thoughtSignature with
    | error reason =>
      simp only [hsignature] at h
      cases h
    | ok signature =>
      simp only [hsignature] at h
      cases h
      exact ⟨⟨rfl, List.cons_ne_nil u rest, parseSignature_ne hsignature, harguments⟩, rfl⟩
  · cases h

theorem callId_supplied {seq : Nat} {id : CodeUnits}
    (h : raw.supplied = some id) : callId seq raw = (id, seq) := by
  rw [callId, h]

theorem callId_omitted {seq : Nat} (h : raw.supplied = none) :
    callId seq raw = (syntheticId seq, seq + 1) := by
  rw [callId, h]

/-- The parsed calls carry the supplied ids and the next numbers of the counter. -/
theorem parseEach_ok {raws : List RawToolCall} {seq next : Nat} {calls : List ToolCall}
    (h : parseEach seq raws = .ok (calls, next)) :
    (calls.map ToolCall.id).Perm (raws.filterMap RawToolCall.supplied ++
        (List.range' seq (raws.countP fun raw => raw.supplied.isNone)).map syntheticId) ∧
      ∀ call ∈ calls, ∃ seq, ∃ raw ∈ raws, ParsedFrom seq raw call := by
  induction raws generalizing seq calls with
  | nil =>
    cases h
    exact ⟨.refl _, fun _ hcall => absurd hcall List.not_mem_nil⟩
  | cons raw rest ih =>
    cases hcall : parseCall seq raw with
    | error reason =>
      simp only [parseEach, hcall] at h
      cases h
    | ok parsed =>
      obtain ⟨call, seq'⟩ := parsed
      cases hrest : parseEach seq' rest with
      | error reason =>
        simp only [parseEach, hcall] at h
        change (parseEach seq' rest).bind _ = _ at h
        rw [hrest] at h
        cases h
      | ok parsedRest =>
        obtain ⟨others, last⟩ := parsedRest
        simp only [parseEach, hcall] at h
        change (parseEach seq' rest).bind _ = _ at h
        rw [hrest] at h
        cases h
        obtain ⟨hfrom, hnext⟩ := parseCall_ok hcall
        obtain ⟨hperm, hothers⟩ := ih hrest
        refine ⟨?_, ?_⟩
        · rw [List.map_cons, hfrom.id_eq]
          cases hid : raw.supplied with
          | some id =>
            rw [callId_supplied hid] at hnext ⊢
            rw [List.filterMap_cons, hid, List.countP_cons_of_neg (by simp [hid]), List.cons_append]
            rw [hnext] at hperm
            exact hperm.cons id
          | none =>
            rw [callId_omitted hid] at hnext ⊢
            rw [List.filterMap_cons, hid, List.countP_cons_of_pos (by simp [hid]),
              List.range'_succ, List.map_cons]
            rw [hnext] at hperm
            exact (hperm.cons (syntheticId seq)).trans List.perm_middle.symm
        · refine List.forall_mem_cons.mpr ⟨⟨seq, raw, List.mem_cons_self, hfrom⟩, ?_⟩
          intro other hother
          obtain ⟨seq₁, raw₁, hraw₁, hfrom₁⟩ := hothers other hother
          exact ⟨seq₁, raw₁, List.mem_cons_of_mem raw hraw₁, hfrom₁⟩

theorem parseEach_of_parsed {served : Served} {completion : ToolCompletion}
    (h : served.Parsed completion) :
    ∃ next, parseEach served.seq served.raw = .ok (completion.toolCalls, next) := by
  obtain ⟨next, hparsed⟩ := h
  unfold parseToolCalls at hparsed
  cases hnames : served.raw.forM (checkName served.offeredToolNames) with
  | error reason =>
    rw [hnames] at hparsed
    cases hparsed
  | ok _ =>
    rw [hnames] at hparsed
    exact ⟨next, hparsed⟩

end Ids

/-! The chain. -/

/-- A completion with the calls that it was parsed into. -/
abbrev Exchange : Type := Served × ToolCompletion

/-- The calls of the chain: each completion parsed by its process, and no id supplied twice. -/
structure Proper (exchanges : List Exchange) : Prop where
  parsed : ∀ exchange ∈ exchanges, exchange.1.Parsed exchange.2
  ordered : exchanges.Pairwise fun exchange later => exchange.1.Before later.1
  supplied : (exchanges.flatMap fun exchange => exchange.1.supplied).Nodup

/-- The numbers given to calls without an id tell them apart from all other calls, and the
arguments outlive the storage. -/
structure Distinguishable (exchanges : List Exchange) : Prop where
  fresh : ∀ exchange ∈ exchanges, ∀ n ∈ exchange.1.numbers, ∀ other ∈ exchanges,
    syntheticId n ∉ other.1.supplied
  processes : exchanges.Pairwise fun exchange later =>
    exchange.1.process ≠ later.1.process → ∀ n ∈ exchange.1.numbers, n ∉ later.1.numbers
  plain : ∀ exchange ∈ exchanges, ∀ raw ∈ exchange.1.raw, raw.Plain

def made (exchanges : List Exchange) : List ToolCall := callsIn (exchanges.map Prod.snd)

section Exchanges

variable {exchanges more : List Exchange}

theorem Proper.left (h : Proper (exchanges ++ more)) : Proper exchanges where
  parsed := fun exchange hexchange => h.parsed exchange (List.mem_append_left more hexchange)
  ordered := (List.pairwise_append.mp h.ordered).1
  supplied := by
    have hall := h.supplied
    rw [List.flatMap_append] at hall
    exact (List.nodup_append.mp hall).1

theorem Distinguishable.left (h : Distinguishable (exchanges ++ more)) :
    Distinguishable exchanges where
  fresh := by
    intro exchange hexchange n hn other hother
    exact h.fresh exchange (List.mem_append_left more hexchange) n hn other
      (List.mem_append_left more hother)
  processes := (List.pairwise_append.mp h.processes).1
  plain := fun exchange hexchange => h.plain exchange (List.mem_append_left more hexchange)

theorem made_append : made (exchanges ++ more) = made exchanges ++ made more := by
  unfold made
  rw [List.map_append, callsIn_append]

theorem ids_perm (h : ∀ exchange ∈ exchanges, exchange.1.Parsed exchange.2) :
    ((made exchanges).map ToolCall.id).Perm
      ((exchanges.flatMap fun exchange => exchange.1.supplied) ++
        (exchanges.flatMap fun exchange => exchange.1.numbers).map syntheticId) := by
  induction exchanges with
  | nil => exact .refl _
  | cons exchange rest ih =>
    obtain ⟨next, hparse⟩ := parseEach_of_parsed (h exchange List.mem_cons_self)
    have hfirst := (parseEach_ok hparse).1
    have hrest := ih fun other hother => h other (List.mem_cons_of_mem exchange hother)
    have hmade : made (exchange :: rest) = exchange.2.toolCalls ++ made rest := List.flatMap_cons
    rw [hmade, List.map_append, List.flatMap_cons, List.flatMap_cons, List.map_append]
    refine (hfirst.append hrest).trans ?_
    rw [List.append_assoc, List.append_assoc]
    refine List.Perm.append_left _ ?_
    rw [← List.append_assoc, ← List.append_assoc]
    exact List.perm_append_comm.append_right _

theorem numbers_nodup (hproper : Proper exchanges) (hdistinct : Distinguishable exchanges) :
    (exchanges.flatMap fun exchange => exchange.1.numbers).Nodup := by
  refine List.nodup_flatMap.mpr ⟨fun exchange _ => List.nodup_range', ?_⟩
  refine (hproper.ordered.and hdistinct.processes).imp ?_
  rintro exchange later ⟨hbefore, hprocesses⟩ n hn hlater
  by_cases hprocess : exchange.1.process = later.1.process
  · rcases hbefore with hless | ⟨-, hseq⟩
    · omega
    · have hlow := (List.mem_range'_1.mp hn).2
      have hhigh := (List.mem_range'_1.mp hlater).1
      omega
  · exact hprocesses hprocess n hn hlater

theorem ids_nodup (hproper : Proper exchanges) (hdistinct : Distinguishable exchanges) :
    ((made exchanges).map ToolCall.id).Nodup := by
  refine (ids_perm hproper.parsed).nodup_iff.mpr (List.nodup_append.mpr ⟨hproper.supplied, ?_, ?_⟩)
  · exact (numbers_nodup hproper hdistinct).map syntheticId_injective
  · rintro id hid other hother rfl
    obtain ⟨n, hn, rfl⟩ := List.mem_map.mp hother
    obtain ⟨exchange, hexchange, hnumber⟩ := List.mem_flatMap.mp hn
    obtain ⟨supplier, hsupplier, hsupplied⟩ := List.mem_flatMap.mp hid
    exact hdistinct.fresh exchange hexchange n hnumber supplier hsupplier hsupplied

theorem storable_of_made {readRecord : List (CodeUnits × ReadJson) → List (CodeUnits × ReadJson)}
    (hrecord : ∀ fields, protoName ∉ fields.map Prod.fst → readRecord fields = fields)
    (hproper : Proper exchanges) (hdistinct : Distinguishable exchanges) :
    ∀ call ∈ made exchanges, call.Storable readRecord := by
  intro call hcall
  obtain ⟨completion, hcompletion, hcall⟩ := List.mem_flatMap.mp hcall
  obtain ⟨exchange, hexchange, rfl⟩ := List.mem_map.mp hcompletion
  obtain ⟨next, hparse⟩ := parseEach_of_parsed (hproper.parsed exchange hexchange)
  obtain ⟨seq, raw, hraw, hfrom⟩ := (parseEach_ok hparse).2 call hcall
  obtain ⟨hfinite, hproto⟩ := hdistinct.plain exchange hexchange raw hraw call.arguments
    hfrom.arguments_eq
  refine ⟨?_, hfrom.name_ne, hfrom.signature_ne, hfinite, hrecord call.arguments hproto⟩
  rw [hfrom.id_eq]
  cases hid : raw.supplied with
  | some id =>
    rw [callId_supplied hid]
    exact RawToolCall.supplied_ne hid
  | none =>
    rw [callId_omitted hid]
    exact syntheticId_ne seq

end Exchanges

section Chain

variable (ε) (localeCompare : CodeUnits → CodeUnits → Int)
  (readRecord : List (CodeUnits × ReadJson) → List (CodeUnits × ReadJson))

/-- The messages that a turn of the conversation may start with, and the completions before. -/
inductive Reaches : List Exchange → List ModelMessage → Prop
  | start {messages : List ModelMessage} :
      (∀ message ∈ messages, message.toolCalls = none ∧ message.role ≠ .tool) → Reaches [] messages
  | resumed {exchanges more : List Exchange} {messages transcript : List ModelMessage}
      {maxSteps maxToolCallsPerStep : Option Nat} {log : List (Entry ε)} {call : ToolCall}
      {card operation value : UnitJson} {selectionContext : Option CodeUnits}
      {intentCapability : Option CapabilityBinding} {written state : AgentState}
      {receipt : ToolResults.ReceiptJson} :
      Reaches exchanges messages →
      Leaves (runAgentTurn localeCompare ⟨messages, maxSteps, maxToolCallsPerStep⟩) log
        (.ok (.interrupt call card operation transcript)) →
      more.map Prod.snd = completionsOf log →
      suspendedState call transcript selectionContext intentCapability = some written →
      value.stringify = written.json.stringify →
      parseAgentState readRecord value = some state → receipt.ok = true →
      Reaches (exchanges ++ more) (resumeMessages state receipt)

variable {ε localeCompare readRecord} {exchanges more : List Exchange}
  {messages transcript : List ModelMessage} {maxSteps maxToolCallsPerStep : Option Nat}
  {log : List (Entry ε)} {call : ToolCall} {card operation value : UnitJson}
  {selectionContext : Option CodeUnits} {intentCapability : Option CapabilityBinding}
  {written : AgentState}

theorem suspendedState_eq
    (h : suspendedState call transcript selectionContext intentCapability = some written) :
    written.transcript = transcript ∧ written.call.id = call.id := by
  unfold suspendedState capAgentState at h
  split at h
  · cases h
    exact ⟨rfl, rfl⟩
  · cases h

theorem stopped_of_interrupt (hmessages : Grown (made exchanges) messages)
    (hrun : Leaves (runAgentTurn localeCompare ⟨messages, maxSteps, maxToolCallsPerStep⟩) log
      (.ok (.interrupt call card operation transcript)))
    (hmore : more.map Prod.snd = completionsOf log)
    (hwritten : suspendedState call transcript selectionContext intentCapability = some written) :
    Stopped (made (exchanges ++ more)) call written.transcript := by
  have hmade : made more = callsIn (completionsOf log) := congrArg callsIn hmore
  rw [(suspendedState_eq hwritten).1, made_append, hmade]
  exact runSteps_stopped hrun hmessages

theorem Stopped.among {calls : List ToolCall} (h : Stopped calls call transcript) :
    (callsOf transcript).Sublist calls := by
  obtain ⟨base, completion, done, replies, -, -, -, hamong⟩ := h
  exact hamong

theorem Reaches.grown (h : Reaches ε localeCompare readRecord exchanges messages)
    (hrecord : ∀ fields, protoName ∉ fields.map Prod.fst → readRecord fields = fields)
    (hproper : Proper exchanges) (hdistinct : Distinguishable exchanges) :
    Grown (made exchanges) messages := by
  induction h with
  | start hplain =>
    refine ⟨.plain hplain, ?_⟩
    have hnone : callsOf _ = [] := List.flatMap_eq_nil_iff.mpr fun message hmessage => by
      rw [(hplain message hmessage).1, Option.getD_none]
    rw [hnone]
    exact List.nil_sublist _
  | resumed hreaches hrun hmore hwritten htext hread hok ih =>
    have hstopped := stopped_of_interrupt (ih hproper.left hdistinct.left) hrun hmore hwritten
    have hstorable := storable_of_made hrecord hproper hdistinct
    have hcalls := fun call hcall => hstorable call (hstopped.among.subset hcall)
    rcases parseAgentState_of_text hcalls htext with hsame | hnone
    · obtain rfl := Option.some.inj (hsame.symm.trans hread)
      exact hstopped.resumed (suspendedState_eq hwritten).2 _
    · rw [hnone] at hread
      cases hread

/-- In a chain whose calls are told apart, every transcript that is sent is well answered, and a
stored state is read as it was written, or not at all. -/
theorem suspendedChain_law
    (hrecord : ∀ fields, protoName ∉ fields.map Prod.fst → readRecord fields = fields)
    (h : Reaches ε localeCompare readRecord exchanges messages) {r : Except ε AgentTurnResult}
    (hrun : Leaves (runAgentTurn localeCompare ⟨messages, maxSteps, maxToolCallsPerStep⟩) log r)
    (hmore : more.map Prod.snd = completionsOf log) (hproper : Proper (exchanges ++ more))
    (hdistinct : Distinguishable (exchanges ++ more)) :
    (∀ sent answer, (⟨.completeWithTools sent, answer⟩ : Entry ε) ∈ log → WellAnswered sent) ∧
      ∀ call card operation transcript selectionContext intentCapability written value,
        r = .ok (.interrupt call card operation transcript) →
        suspendedState call transcript selectionContext intentCapability = some written →
        value.stringify = written.json.stringify → parseAgentState readRecord value = some written ∨
          parseAgentState readRecord value = none := by
  have hgrown := h.grown hrecord hproper.left hdistinct.left
  have hmade : made (exchanges ++ more) = made exchanges ++ callsIn (completionsOf log) := by
    rw [made_append, ← hmore]
    rfl
  refine ⟨?_, ?_⟩
  · intro sent answer hentry
    have hsent := runSteps_sent hrun hgrown hentry
    rw [← hmade] at hsent
    exact hsent.dialogue.wellAnswered
      ((hsent.among.map ToolCall.id).nodup (ids_nodup hproper hdistinct))
  · rintro call card operation transcript selectionContext intentCapability written value rfl
      hwritten htext
    have hstopped := stopped_of_interrupt hgrown hrun hmore hwritten
    have hstorable := storable_of_made hrecord hproper hdistinct
    exact parseAgentState_of_text (fun call hcall => hstorable call (hstopped.among.subset hcall))
      htext

end Chain

namespace Example

/-- Whatever the schema does to other names, this is the one that it leaves out. -/
def withoutProto (fields : List (CodeUnits × ReadJson)) : List (CodeUnits × ReadJson) :=
  fields.filter fun field => field.1 ≠ protoName

theorem withoutProto_eq (fields : List (CodeUnits × ReadJson))
    (h : protoName ∉ fields.map Prod.fst) : withoutProto fields = fields := by
  refine List.filter_eq_self.mpr fun field hfield => ?_
  simp only [decide_eq_true_eq]
  rintro hname
  exact h (hname ▸ List.mem_map_of_mem hfield)

/-- A completion with one call that came without an id. -/
def unnamed (process seq : Nat) (name : String) : Exchange where
  fst := ⟨process, seq, [ofString "project_archive", ofString "project_get"],
    [⟨none, some (ofString name), some (.obj []), none⟩]⟩
  snd := ⟨[], [⟨syntheticId seq, ofString name, [], none⟩], none⟩

/-- A completion without calls. -/
def spoken (process seq : Nat) : Exchange where
  fst := ⟨process, seq, [], []⟩
  snd := ⟨ofString "It is archived.", [], none⟩

def archiveCall : ToolCall := ⟨syntheticId 0, ofString "project_archive", [], none⟩

def getCall (seq : Nat) : ToolCall := ⟨syntheticId seq, ofString "project_get", [], none⟩

def firstLog : List (Entry Unit) :=
  [observed false, completedWith [question] (unnamed 0 0 "project_archive").2, observed false,
    ran archiveCall wasShown]

def firstTranscript : List ModelMessage :=
  [question, assistantToolCallTurn (unnamed 0 0 "project_archive").2 [archiveCall]]

def stored : AgentState := assembledState archiveCall firstTranscript none

def secondMessages : List ModelMessage := resumeMessages stored readReceipt

def thirdMessages (process seq : Nat) : List ModelMessage :=
  secondMessages ++ assistantToolCallTurn (unnamed process seq "project_get").2 [getCall seq] ::
    [toolResultTurn (syntheticId seq) readReceipt]

def secondLog (process seq : Nat) : List (Entry Unit) :=
  [observed false, completedWith secondMessages (unnamed process seq "project_get").2,
    observed false, ran (getCall seq) wasRead, streamed (getCall seq) wasRead.result,
    observed false, completedWith (thirdMessages process seq) (spoken process (seq + 1)).2]

/-- The turn archives a project, and is resumed behind the confirmation. -/
theorem reaches_second : Reaches Unit byUnits withoutProto [unnamed 0 0 "project_archive"]
    secondMessages := by
  have hrun : Leaves (runAgentTurn byUnits input) firstLog
      (.ok (.interrupt archiveCall .null .null firstTranscript)) :=
    .call (.call (.call (.call (.ret _))))
  have hstored : suspendedState archiveCall firstTranscript none none = some stored := by
    unfold suspendedState capAgentState
    rw [if_pos (by decide +kernel)]
    rfl
  have hread : parseAgentState withoutProto stored.json = some stored := rfl
  have hstart : Reaches Unit byUnits withoutProto [] [question] :=
    .start (by simp [question])
  exact hstart.resumed hrun rfl hstored rfl hread rfl

theorem leaves_second (process seq : Nat) :
    Leaves (runAgentTurn byUnits ⟨secondMessages, none, none⟩) (secondLog process seq)
      (.ok (.final (ofString "It is archived.") (thirdMessages process seq))) :=
  .call (.call (.call (.call (.call (.call (.call (.ret _)))))))

/-- The exchanges of the chain whose second turn is served from the number `seq` on. -/
def exchanges (process seq : Nat) : List Exchange :=
  [unnamed 0 0 "project_archive", unnamed process seq "project_get", spoken process (seq + 1)]

theorem parsed_exchanges (process seq : Nat) :
    ∀ exchange ∈ exchanges process seq, exchange.1.Parsed exchange.2 := by
  intro exchange hexchange
  simp only [exchanges, List.mem_cons, List.not_mem_nil, or_false] at hexchange
  rcases hexchange with rfl | rfl | rfl
  · exact ⟨1, rfl⟩
  · exact ⟨seq + 1, rfl⟩
  · exact ⟨seq + 1, rfl⟩

/-- Served by one process, the conversation goes on with the next number. -/
theorem proper_same : Proper (exchanges 0 1) where
  parsed := parsed_exchanges 0 1
  ordered := by
    simp [exchanges, unnamed, spoken, Served.Before, Served.omitted, RawToolCall.supplied]
  supplied := List.nodup_nil

theorem distinguishable_same : Distinguishable (exchanges 0 1) where
  fresh := by
    rintro exchange - n - other hother
    simp only [exchanges, List.mem_cons, List.not_mem_nil, or_false] at hother
    rcases hother with rfl | rfl | rfl <;> exact List.not_mem_nil
  processes := by simp [exchanges, unnamed, spoken]
  plain := by
    intro exchange hexchange raw hraw arguments harguments
    simp only [exchanges, List.mem_cons, List.not_mem_nil, or_false] at hexchange
    rcases hexchange with rfl | rfl | rfl
    · obtain rfl := List.mem_singleton.mp hraw
      cases harguments
      exact ⟨rfl, List.not_mem_nil⟩
    · obtain rfl := List.mem_singleton.mp hraw
      cases harguments
      exact ⟨rfl, List.not_mem_nil⟩
    · cases hraw

theorem proper_restarted : Proper (exchanges 1 0) where
  parsed := parsed_exchanges 1 0
  ordered := by
    simp [exchanges, unnamed, spoken, Served.Before, Served.omitted, RawToolCall.supplied]
  supplied := List.nodup_nil

theorem resumed_wellAnswered : WellAnswered (thirdMessages 0 1) := by
  have hmore : [unnamed 0 1 "project_get", spoken 0 2].map Prod.snd =
      completionsOf (secondLog 0 1) := rfl
  have hlaw := suspendedChain_law withoutProto_eq reaches_second (leaves_second 0 1) hmore
    proper_same distinguishable_same
  exact hlaw.1 (thirdMessages 0 1) (.ok (spoken 0 2).2) (by simp [secondLog, completedWith])

/-- The process that resumes the turn gives the number of the archived call once more. -/
theorem restarted_not_wellAnswered :
    ∃ more, Reaches Unit byUnits withoutProto [unnamed 0 0 "project_archive"] secondMessages ∧
      Leaves (runAgentTurn byUnits ⟨secondMessages, none, none⟩) (secondLog 1 0)
        (.ok (.final (ofString "It is archived.") (thirdMessages 1 0))) ∧
      more.map Prod.snd = completionsOf (secondLog 1 0) ∧
      Proper ([unnamed 0 0 "project_archive"] ++ more) ∧
      completedWith (thirdMessages 1 0) (spoken 1 1).2 ∈ secondLog 1 0 ∧
      ¬ WellAnswered (thirdMessages 1 0) := by
  refine ⟨[unnamed 1 0 "project_get", spoken 1 1], reaches_second, leaves_second 1 0, rfl,
    proper_restarted, ?_, ?_⟩
  · simp [secondLog]
  · intro hanswered
    exact absurd hanswered.distinct (by decide +kernel)

end Example

end AgentLoop

end ClockifyAssistant
