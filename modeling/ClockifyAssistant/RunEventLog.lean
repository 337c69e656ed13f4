import Mathlib.Data.List.Induction
import ClockifyAssistant.RunRows

/-!
The event log of the runs and a reader of one of them. An append takes the next
number of its run, so a reader that goes on from where it stopped has, whatever is
appended meanwhile, a prefix of the run's events.
-/
namespace ClockifyAssistant

open Lib Txn

structure EventAppend where
  scope : SessionScope
  runId : RunId
  payload : RunEventPayload

/-- The appends of one transaction. -/
def appendEvents (appends : List EventAppend) (now : Time) : StoreTxn Unit :=
  appends.forM fun a => do
    let _ ← allocateAndInsertEvent a.scope a.runId a.payload now

inductive EventLogStep
  | startRun (run : AssistantRunScope) (now : Time)
  | commitState (run : AssistantRunScope) (patch : RunStatePatch) (payload : RunEventPayload)
      (now : Time)
  | completeAfterBatch (run : AssistantRunScope) (budget : RunBudget) (items : List SettledItem)
      (now : Time)
  | completeAfterConfirmation (run : AssistantRunScope) (budget : RunBudget)
      (input : CompletedConfirmation) (now : Time)
  | appends (appends : List EventAppend) (now : Time)
  | read (limit : Nat)

structure EventReader where
  db : Db
  received : List RunEvent
  after : Nat

/-- The reader asks for the events behind the last one that it has. -/
def EventReader.read (s : AssistantRunScope) (limit : Nat) (w : EventReader) : EventReader :=
  match w.db.listEvents s w.after limit with
  | .error _ => w
  | .ok page => { w with received := w.received ++ page.events, after := page.nextAfter }

def EventReader.step (s : AssistantRunScope) (w : EventReader) : EventLogStep → EventReader
  | .startRun run now => { w with db := ((startRunWithEvent run now).commit w.db).2 }
  | .commitState run patch payload now =>
      { w with db := ((commitStateEvent run patch payload now).commit w.db).2 }
  | .completeAfterBatch run budget items now =>
      { w with db := ((completeRunAfterBatchWithEvents run budget items now).commit w.db).2 }
  | .completeAfterConfirmation run budget input now =>
      { w with db := ((completeRunAfterConfirmationWithEvents run budget input now).commit w.db).2 }
  | .appends appends now => { w with db := ((appendEvents appends now).commit w.db).2 }
  | .read limit => w.read s limit

/-- A reader of the run `s` beside the appends to all runs. -/
def runEventLog (s : AssistantRunScope) (steps : List EventLogStep) : EventReader :=
  steps.foldl (EventReader.step s) ⟨.empty, [], 0⟩

/-- The events of the run in the order in which they were appended. -/
def Db.eventsOf (db : Db) (sessionId : SessionId) (runId : RunId) : List RunEvent :=
  db.events.rows.filter fun e => e.scope.sessionId == sessionId && e.runId == runId

structure Numbered (db : Db) : Prop where
  sequences : ∀ sessionId runId, (db.eventsOf sessionId runId).map RunEvent.sequence =
    List.range' 1 (db.eventsOf sessionId runId).length
  owned : ∀ e ∈ db.events.rows, ∃ run,
    db.runs.get? (e.scope.sessionId, e.runId) = some run ∧ run.scope = e.scope

/-- The log grows at its end, and the runs keep their scopes. -/
structure Extends (db db' : Db) : Prop where
  numbered : Numbered db → Numbered db'
  events : ∃ more, db'.events.rows = db.events.rows ++ more
  runs : ∀ k run, db.runs.get? k = some run → ∃ run', db'.runs.get? k = some run' ∧
    run'.scope = run.scope ∧ run'.runId = run.runId ∧
    run'.installationGeneration = run.installationGeneration

theorem Numbered.empty : Numbered .empty := by
  refine ⟨?_, ?_⟩
  · intro sessionId runId
    rfl
  · intro e he
    cases he

namespace Extends

variable {db db' db'' : Db}

theorem refl (db : Db) : Extends db db :=
  ⟨id, ⟨[], (List.append_nil _).symm⟩, fun _ run h => ⟨run, h, rfl, rfl, rfl⟩⟩

theorem trans (h : Extends db db') (h' : Extends db' db'') : Extends db db'' := by
  refine ⟨fun hn => h'.numbered (h.numbered hn), ?_, ?_⟩
  · obtain ⟨more, hmore⟩ := h.events
    obtain ⟨more', hmore'⟩ := h'.events
    exact ⟨more ++ more', by rw [hmore', hmore, List.append_assoc]⟩
  · intro k run hrun
    obtain ⟨run', hrun', hscope, hid, hgeneration⟩ := h.runs k run hrun
    obtain ⟨run'', hrun'', hscope', hid', hgeneration'⟩ := h'.runs k run' hrun'
    exact ⟨run'', hrun'', hscope'.trans hscope, hid'.trans hid, hgeneration'.trans hgeneration⟩

theorem of_runs (hevents : db'.events = db.events)
    (hruns : ∀ k run, db.runs.get? k = some run → ∃ run', db'.runs.get? k = some run' ∧
      run'.scope = run.scope ∧ run'.runId = run.runId ∧
      run'.installationGeneration = run.installationGeneration) : Extends db db' := by
  refine ⟨?_, ⟨[], by rw [hevents, List.append_nil]⟩, hruns⟩
  intro h
  refine ⟨?_, ?_⟩
  · unfold Db.eventsOf
    rw [hevents]
    exact h.sequences
  · intro e he
    rw [hevents] at he
    obtain ⟨run, hrun, hscope⟩ := h.owned e he
    obtain ⟨run', hrun', hscope', -⟩ := hruns _ run hrun
    exact ⟨run', hrun', hscope'.trans hscope⟩

end Extends

/-- The transaction, where it commits, extends the log. -/
abbrev ExtendsLog {α : Type} (m : StoreTxn α) : Prop := Within Extends m

theorem ExtendsLog.bind {α β : Type} {m : StoreTxn α} {f : α → StoreTxn β} (hm : ExtendsLog m)
    (hf : ∀ a, ExtendsLog (f a)) : ExtendsLog (m >>= f) :=
  within_bind (fun h h' => h.trans h') hm hf

theorem ExtendsLog.commit {α : Type} {m : StoreTxn α} (h : ExtendsLog m) (db : Db) :
    Extends db (m.commit db).2 :=
  commit_inv (Extends.refl db) (h db)

variable {events : List RunEvent} {start : Nat}

theorem foldr_max_of_sequences
    (h : events.map RunEvent.sequence = List.range' (start + 1) events.length) :
    events.foldr (fun e last => max e.sequence last) 0 =
      if events.length = 0 then 0 else start + events.length := by
  induction events generalizing start with
  | nil => rfl
  | cons e rest ih =>
    rw [List.map_cons, List.length_cons, List.range'_succ] at h
    injection h with hhead htail
    rw [List.foldr_cons, ih htail, hhead, List.length_cons, if_neg (Nat.succ_ne_zero _)]
    split <;> omega

theorem Numbered.last {db : Db} (h : Numbered db) (sessionId : SessionId) (runId : RunId) :
    db.lastEventSequence sessionId runId = (db.eventsOf sessionId runId).length := by
  have hsequences : (db.eventsOf sessionId runId).map RunEvent.sequence =
      List.range' (0 + 1) (db.eventsOf sessionId runId).length := h.sequences sessionId runId
  have hmax := foldr_max_of_sequences hsequences
  show (db.eventsOf sessionId runId).foldr _ 0 = _
  rw [hmax]
  split
  · rename_i hzero
    exact hzero.symm
  · omega

theorem eventsOf_append {db db' : Db} {event : RunEvent}
    (h : db'.events.rows = db.events.rows ++ [event]) (sessionId : SessionId) (runId : RunId) :
    db'.eventsOf sessionId runId = db.eventsOf sessionId runId ++
      if event.scope.sessionId = sessionId ∧ event.runId = runId then [event] else [] := by
  unfold Db.eventsOf
  rw [h, List.filter_append]
  congr 1
  by_cases hevent : event.scope.sessionId = sessionId ∧ event.runId = runId
  · rw [if_pos hevent]
    simp [hevent]
  · rw [if_neg hevent]
    simpa using hevent

variable {run : AssistantRun}

/-- The appended event takes the number behind the last one of its run. -/
theorem Numbered.append {db db' : Db} {event : RunEvent} (h : Numbered db)
    (hrows : db'.events.rows = db.events.rows ++ [event]) (hruns : db'.runs = db.runs)
    (hsequence : event.sequence = (db.eventsOf event.scope.sessionId event.runId).length + 1) (hrun : db.runs.get? (event.scope.sessionId, event.runId) = some run)
    (hscope : run.scope = event.scope) : Numbered db' := by
  refine ⟨?_, ?_⟩
  · intro sessionId runId
    rw [eventsOf_append hrows]
    by_cases hevent : event.scope.sessionId = sessionId ∧ event.runId = runId
    · rw [if_pos hevent, List.map_append, h.sequences, List.length_append, List.map_singleton,
        hsequence, List.length_singleton, List.range'_concat, hevent.1, hevent.2]
      simp [Nat.add_comm]
    · rw [if_neg hevent, List.append_nil]
      exact h.sequences sessionId runId
  · intro e he
    rw [hrows] at he
    rw [hruns]
    rcases List.mem_append.mp he with hold | hnew
    · exact h.owned e hold
    · rw [List.mem_singleton.mp hnew]
      exact ⟨run, hrun, hscope⟩

theorem extends_allocateAndInsertEvent (scope : SessionScope) (runId : RunId)
    (payload : RunEventPayload) (now : Time) :
    ExtendsLog (allocateAndInsertEvent scope runId payload now) := by
  refine within_get_bind fun db => ?_
  dsimp only
  rw [wp_bind, wp_require]
  refine ⟨?_, fun _ => trivial⟩
  intro hany
  obtain ⟨run, hrun, hscope⟩ := (Option.any_eq_true _ _).mp hany
  have howner : run.scope = scope := by simpa using hscope
  split
  · show Extends db _
    exact {
      numbered := fun h => h.append rfl rfl
        (congrArg (· + 1) (h.last scope.sessionId runId)) hrun howner
      events := ⟨_, rfl⟩
      runs := fun _ run h => ⟨run, h, rfl, rfl, rfl⟩ }
  · trivial

variable {s : AssistantRunScope}

theorem extends_updateRun {p : AssistantRun → Bool}
    {f : AssistantRun → AssistantRun} {hf : ∀ r, key (f r) = key r}
    (hkeep : ∀ r, (f r).scope = r.scope ∧ (f r).runId = r.runId ∧
      (f r).installationGeneration = r.installationGeneration) :
    ExtendsLog (updateRun s p f hf) := by
  refine within_get_bind fun db => ?_
  split
  · exact Extends.refl db
  · show Extends db { db with runs := db.runs.update s.key f hf }
    refine Extends.of_runs rfl ?_
    intro k run hrun
    by_cases hk : k = s.key
    · exact ⟨f run, by rw [Table.get?_update, if_pos hk, hrun]; rfl, hkeep run⟩
    · exact ⟨run, by rw [Table.get?_update, if_neg hk, hrun], rfl, rfl, rfl⟩

theorem extends_updateRunState (s : AssistantRunScope) (patch : RunStatePatch) (now : Time) :
    ExtendsLog (updateRunState s patch now) :=
  ExtendsLog.bind (extends_updateRun fun _ => ⟨rfl, rfl, rfl⟩) fun _ =>
    within_require Extends.refl _ _

theorem extends_startRunWithEvent (s : AssistantRunScope) (now : Time) :
    ExtendsLog (startRunWithEvent s now) := by
  refine within_get_bind fun db => ?_
  dsimp only
  split
  · split
    · rename_i hfresh
      rw [wp_bind, wp_set]
      refine Within.from_state (fun h h' => h.trans h') (ExtendsLog.bind
        (extends_allocateAndInsertEvent s.scope s.runId .runStarted now)
        fun _ => within_pure Extends.refl ()) (Extends.of_runs rfl ?_)
      intro k run hrun
      refine ⟨run, ?_, rfl, rfl, rfl⟩
      rw [Table.get?_insert, if_neg, hrun]
      intro hk
      rw [← hk, hrun] at hfresh
      cases hfresh
    · trivial
  · trivial

theorem extends_commitStateEvent (s : AssistantRunScope) (patch : RunStatePatch)
    (payload : RunEventPayload) (now : Time) : ExtendsLog (commitStateEvent s patch payload now) :=
  ExtendsLog.bind (extends_updateRunState s patch now) fun _ =>
    extends_allocateAndInsertEvent s.scope s.runId payload now

theorem extends_frame : EventFrame Extends where
  refl := Extends.refl
  trans h h' := h.trans h'
  event := extends_allocateAndInsertEvent

theorem extends_appendEvents (appends : List EventAppend) (now : Time) :
    ExtendsLog (appendEvents appends now) :=
  within_forM Extends.refl (fun h h' => h.trans h') _ fun a _ =>
    ExtendsLog.bind (extends_allocateAndInsertEvent a.scope a.runId a.payload now) fun _ =>
      within_pure Extends.refl ()

theorem EventReader.step_extends (s : AssistantRunScope) (w : EventReader) (e : EventLogStep) :
    Extends w.db (w.step s e).db := by
  cases e with
  | startRun run now => exact (extends_startRunWithEvent run now).commit w.db
  | commitState run patch payload now =>
    exact (extends_commitStateEvent run patch payload now).commit w.db
  | completeAfterBatch run budget items now =>
    exact ExtendsLog.commit
      (extends_frame.completeRunAfterBatch extends_updateRunState run budget items now) w.db
  | completeAfterConfirmation run budget input now =>
    exact ExtendsLog.commit
      (extends_frame.completeRunAfterConfirmation extends_updateRunState run budget input now) w.db
  | appends appends now => exact (extends_appendEvents appends now).commit w.db
  | read limit =>
    show Extends w.db (w.read s limit).db
    unfold EventReader.read
    split <;> exact Extends.refl w.db

theorem Numbered.runEvents_of_owner {db : Db} (h : Numbered db)
    (hget : db.runs.get? s.key = some run) (howner : run.scope = s.scope) :
    db.runEvents s = db.eventsOf s.scope.sessionId s.runId := by
  refine List.filter_congr ?_
  intro e he
  by_cases hkey : e.scope.sessionId = s.scope.sessionId ∧ e.runId = s.runId
  · obtain ⟨run', hrun', hscope'⟩ := h.owned e he
    rw [hkey.1, hkey.2, show (s.scope.sessionId, s.runId) = s.key from rfl, hget] at hrun'
    injection hrun' with heq
    have hsame : e.scope = s.scope := by rw [← hscope', ← heq, howner]
    simp [hsame]
  · have hother : ¬ (e.scope = s.scope ∧ e.runId = s.runId) := by
      intro hsame
      exact hkey ⟨congrArg SessionScope.sessionId hsame.1, hsame.2⟩
    rw [Bool.eq_iff_iff, Bool.and_eq_true, Bool.and_eq_true, beq_iff_eq, beq_iff_eq, beq_iff_eq]
    exact ⟨fun hsame => absurd hsame hother, fun hsame => absurd hsame hkey⟩

/-- A run that has events has an owner, and they are numbered from one. -/
theorem Numbered.runEvents_sequences {db : Db} (h : Numbered db) (s : AssistantRunScope) :
    (db.runEvents s).map RunEvent.sequence = List.range' 1 (db.runEvents s).length := by
  rcases hlog : db.runEvents s with _ | ⟨e, rest⟩
  · rfl
  · have hmem : e ∈ db.runEvents s := by
      rw [hlog]
      exact List.mem_cons_self
    obtain ⟨hrow, hsame⟩ := List.mem_filter.mp hmem
    rw [Bool.and_eq_true, beq_iff_eq, beq_iff_eq] at hsame
    obtain ⟨run, hrun, hscope⟩ := h.owned e hrow
    rw [hsame.1, hsame.2] at hrun
    rw [← hlog, h.runEvents_of_owner hrun (hscope.trans hsame.1)]
    exact h.sequences _ _

theorem filter_behind_sequence (k : Nat)
    (h : events.map RunEvent.sequence = List.range' (start + 1) events.length) :
    events.filter (fun e => decide (start + k < e.sequence)) = events.drop k := by
  induction events generalizing start k with
  | nil => simp
  | cons e rest ih =>
    rw [List.map_cons, List.length_cons, List.range'_succ] at h
    injection h with hhead htail
    cases k with
    | zero =>
      rw [List.drop_zero, List.filter_cons_of_pos (by simp [hhead])]
      have hrest := ih 0 htail
      rw [List.drop_zero] at hrest
      congr 1
      rw [List.filter_eq_self] at hrest ⊢
      intro e' he'
      have hlater := hrest e' he'
      simp only [decide_eq_true_eq] at hlater ⊢
      omega
    | succ k =>
      rw [List.drop_succ_cons, List.filter_cons_of_neg (by simp [hhead])]
      rw [← ih k htail]
      congr 1
      funext e'
      congr 2
      omega

theorem insertionSort_of_sequences
    (h : events.map RunEvent.sequence = List.range' start events.length) :
    events.insertionSort (fun a b => a.sequence ≤ b.sequence) = events := by
  refine List.Pairwise.insertionSort_eq ?_
  have hsorted : (events.map RunEvent.sequence).Pairwise (· ≤ ·) := by
    rw [h]
    exact (List.pairwise_lt_range').imp Nat.le_of_lt
  exact List.pairwise_map.mp hsorted

theorem last_of_sequences
    (h : events.map RunEvent.sequence = List.range' (start + 1) events.length) :
    (events.getLast?.map RunEvent.sequence).getD start = start + events.length := by
  rw [← List.getLast?_map, h, List.getLast?_range']
  by_cases hnone : events.length = 0
  · rw [if_pos hnone, Option.getD_none, hnone, Nat.add_zero]
  · rw [if_neg hnone, Option.getD_some]
    omega

/-- The page behind the cursor of a numbered log is cut out of it in order. -/
theorem Numbered.listEvents {db : Db} (h : Numbered db)
    {after limit : Nat} {page : RunEventPage} (hpage : db.listEvents s after limit = .ok page) :
    page.events = ((db.runEvents s).drop after).take limit ∧
      page.nextAfter = after + page.events.length ∧
      page.hasMore = decide (after + limit < (db.runEvents s).length) := by
  unfold Db.listEvents at hpage
  split at hpage
  · cases hpage
  rename_i run hrun
  injection hpage with hpage
  have hsequences : (db.runEvents s).map RunEvent.sequence =
      List.range' (0 + 1) (db.runEvents s).length := h.runEvents_sequences s
  have hbehind := filter_behind_sequence after hsequences
  rw [Nat.zero_add] at hbehind
  have hrest : ((db.runEvents s).drop after).map RunEvent.sequence =
      List.range' (after + 1) ((db.runEvents s).drop after).length := by
    rw [List.map_drop, hsequences, List.drop_range', List.length_drop]
    simp [Nat.add_comm]
  rw [hbehind, insertionSort_of_sequences hrest] at hpage
  subst hpage
  have htake : (((db.runEvents s).drop after).take (limit + 1)).take limit =
      ((db.runEvents s).drop after).take limit := by
    rw [List.take_take, Nat.min_eq_left (Nat.le_succ limit)]
  refine ⟨htake, ?_, ?_⟩
  · dsimp only
    rw [htake]
    apply last_of_sequences
    rw [List.map_take, hrest, List.length_take]
    rcases Nat.le_total limit ((db.runEvents s).drop after).length with hle | hle
    · rw [List.take_range'_of_length_ge hle, Nat.min_eq_left hle]
    · rw [List.take_range'_of_length_le hle, Nat.min_eq_right hle]
  · dsimp only
    rw [List.length_take, List.length_drop, decide_eq_decide]
    omega

/-- What the reader has received is the log of its run up to the cursor. -/
structure Reads (s : AssistantRunScope) (w : EventReader) : Prop where
  numbered : Numbered w.db
  after_le : w.after ≤ (w.db.runEvents s).length
  received : w.received = (w.db.runEvents s).take w.after

theorem Extends.runEvents {db db' : Db} (h : Extends db db') (s : AssistantRunScope) :
    ∃ more, db'.runEvents s = db.runEvents s ++ more := by
  obtain ⟨more, hmore⟩ := h.events
  exact ⟨_, by unfold Db.runEvents; rw [hmore, List.filter_append]⟩

variable {w : EventReader}

theorem Reads.extends {db : Db} (h : Reads s w)
    (hdb : Extends w.db db) : Reads s { w with db := db } := by
  obtain ⟨more, hmore⟩ := hdb.runEvents s
  refine ⟨hdb.numbered h.numbered, ?_, ?_⟩
  · show w.after ≤ (db.runEvents s).length
    rw [hmore, List.length_append]
    exact Nat.le_add_right_of_le h.after_le
  · show w.received = (db.runEvents s).take w.after
    rw [hmore, List.take_append_of_le_length h.after_le]
    exact h.received

theorem Reads.read (h : Reads s w) (limit : Nat) : Reads s (w.read s limit) := by
  unfold EventReader.read
  split
  · exact h
  · rename_i page hpage
    obtain ⟨hevents, hnext, -⟩ := h.numbered.listEvents hpage
    have hlength : page.events.length = min limit ((w.db.runEvents s).length - w.after) := by
      rw [hevents, List.length_take, List.length_drop]
    refine ⟨h.numbered, ?_, ?_⟩
    · show page.nextAfter ≤ (w.db.runEvents s).length
      have hle := h.after_le
      omega
    · show w.received ++ page.events = (w.db.runEvents s).take page.nextAfter
      have hcut : ((w.db.runEvents s).drop w.after).take page.events.length = page.events := by
        rw [hlength, ← List.length_drop, hevents, ← List.take_eq_take_min]
      rw [hnext, List.take_add, hcut, h.received]

theorem EventReader.db_read (s : AssistantRunScope) (limit : Nat) (w : EventReader) :
    (w.read s limit).db = w.db := by
  unfold EventReader.read
  split <;> rfl

theorem Reads.step (h : Reads s w) (e : EventLogStep) : Reads s (w.step s e) := by
  have hdb := w.step_extends s e
  cases e with
  | read limit => exact h.read limit
  | startRun run now => exact h.extends hdb
  | commitState run patch payload now => exact h.extends hdb
  | completeAfterBatch run budget items now => exact h.extends hdb
  | completeAfterConfirmation run budget input now => exact h.extends hdb
  | appends appends now => exact h.extends hdb

theorem runEventLog_reads (s : AssistantRunScope) (steps : List EventLogStep) :
    Reads s (runEventLog s steps) := by
  induction steps using List.reverseRecOn with
  | nil => exact ⟨Numbered.empty, Nat.le_refl _, rfl⟩
  | append_singleton steps e ih =>
    unfold runEventLog at ih ⊢
    rw [List.foldl_append]
    exact ih.step e

/-- A page behind which no more remain completes the log of the run. -/
theorem Reads.complete (h : Reads s w) {limit : Nat}
    {page : RunEventPage} (hpage : w.db.listEvents s w.after limit = .ok page)
    (hmore : page.hasMore = false) : (w.read s limit).received = w.db.runEvents s := by
  obtain ⟨hevents, hnext, hflag⟩ := h.numbered.listEvents hpage
  have hend := of_decide_eq_false (hflag.symm.trans hmore)
  have hlength : ((w.db.runEvents s).drop w.after).length ≤ limit := by
    rw [List.length_drop]
    omega
  unfold EventReader.read
  rw [hpage]
  show w.received ++ page.events = w.db.runEvents s
  rw [hevents, List.take_of_length_le hlength, h.received, List.take_append_drop]

theorem Db.listEvents_of_run {db : Db} (hrun : db.getRun s = some run) (after limit : Nat) :
    ∃ page, db.listEvents s after limit = .ok page := by
  unfold Db.listEvents
  rw [hrun]
  exact ⟨_, rfl⟩

/-- Pages of a positive size reach the end of a log that stands still. -/
theorem Reads.drains {limit : Nat} (hlimit : 0 < limit) (n : Nat) : ∀ {w : EventReader}, Reads s w →
      w.db.getRun s = some run → (w.db.runEvents s).length ≤ w.after + n →
      ∃ reads page, w.db.listEvents s ((EventReader.read s limit)^[reads] w).after limit =
        .ok page ∧ page.hasMore = false := by
  induction n with
  | zero =>
    intro w h hrun hrest
    obtain ⟨page, hpage⟩ := Db.listEvents_of_run hrun w.after limit
    obtain ⟨-, -, hflag⟩ := h.numbered.listEvents hpage
    exact ⟨0, page, hpage, hflag.trans (decide_eq_false (by omega))⟩
  | succ n ih =>
    intro w h hrun hrest
    obtain ⟨page, hpage⟩ := Db.listEvents_of_run hrun w.after limit
    obtain ⟨hevents, hnext, hflag⟩ := h.numbered.listEvents hpage
    by_cases hmore : w.after + limit < (w.db.runEvents s).length
    · have hread : w.read s limit =
          { w with received := w.received ++ page.events, after := page.nextAfter } := by
        unfold EventReader.read
        rw [hpage]
      have hcut : page.events.length = min limit ((w.db.runEvents s).length - w.after) := by
        rw [hevents, List.length_take, List.length_drop]
      have hnear : ((w.read s limit).db.runEvents s).length ≤ (w.read s limit).after + n := by
        rw [hread]
        show (w.db.runEvents s).length ≤ page.nextAfter + n
        omega
      obtain ⟨reads, last, hlast, hend⟩ :=
        ih (h.read limit) (by rw [EventReader.db_read]; exact hrun) hnear
      rw [EventReader.db_read] at hlast
      exact ⟨reads + 1, last, hlast, hend⟩
    · exact ⟨0, page, hpage, hflag.trans (decide_eq_false hmore)⟩

structure EventLogLaw (s : AssistantRunScope) (w : EventReader) : Prop where
  numbered : ∀ sessionId runId, (w.db.eventsOf sessionId runId).map RunEvent.sequence =
    List.range' 1 (w.db.eventsOf sessionId runId).length
  received : w.received = (w.db.runEvents s).take w.after
  complete : ∀ limit page, w.db.listEvents s w.after limit = .ok page → page.hasMore = false →
    (w.read s limit).received = w.db.runEvents s
  drains : ∀ limit, 0 < limit → (w.db.getRun s).isSome →
    ∃ reads page, w.db.listEvents s ((EventReader.read s limit)^[reads] w).after limit =
      .ok page ∧ page.hasMore = false

end ClockifyAssistant
