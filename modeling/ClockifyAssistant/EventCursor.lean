import ClockifyAssistant.Ui.RunEvents

/-!
One cursor under a stream and any number of restores. A page that starts at or below
the cursor moves it to the end of the page, so that restores and streamed events can
overlap without an event being applied twice or left out.
-/
namespace ClockifyAssistant

open Lib Protocol

theorem positiveInteger_pos {value : Nat} (h : 0 < value) (name : String) :
    positiveInteger value name = .ok value := if_neg (Nat.ne_of_gt h)

theorem decodePageEvents_of_pos {events : List RunEvent} (h : ∀ e ∈ events, 0 < e.sequence)
    (name : String) (index : Nat) : decodePageEvents name index events = .ok events := by
  induction events generalizing index with
  | nil => rfl
  | cons e rest ih =>
    have hrest := ih (fun e' he' => h e' (List.mem_cons_of_mem e he')) (index + 1)
    unfold decodePageEvents
    dsimp only
    rw [positiveInteger_pos (h e List.mem_cons_self), hrest]
    rfl

theorem decodeRunEventsPage_eq {source page : RunEventPage} {name : String}
    (hevents : ∀ e ∈ source.events, 0 < e.sequence)
    (h : decodeRunEventsPage source name = .ok page) : page = source := by
  unfold decodeRunEventsPage at h
  rw [decodePageEvents_of_pos hevents] at h
  by_cases hnext : source.nextAfter = 0
  · simp [positiveInteger, protocolError, hnext, bind, Except.bind] at h
  · by_cases hlast : source.lastSequence = 0
    · simp [positiveInteger, protocolError, hnext, hlast, bind, Except.bind] at h
    · rw [positiveInteger_pos (Nat.pos_of_ne_zero hnext),
        positiveInteger_pos (Nat.pos_of_ne_zero hlast)] at h
      injection h with h
      exact h.symm

theorem decodeRunEventsPage_of_pos {source : RunEventPage} {name : String}
    (hevents : ∀ e ∈ source.events, 0 < e.sequence) (hnext : 0 < source.nextAfter)
    (hlast : 0 < source.lastSequence) : decodeRunEventsPage source name = .ok source := by
  unfold decodeRunEventsPage
  rw [decodePageEvents_of_pos hevents, positiveInteger_pos hnext, positiveInteger_pos hlast]
  rfl

section Served

variable {db : Db} {s : AssistantRunScope} {after : Nat} {page : RunEventPage}

theorem sequences_of_range {events : List RunEvent} {start count : Nat}
    (h : events.map RunEvent.sequence = List.range' (start + 1) count) :
    ∀ e ∈ events, start < e.sequence := by
  intro e he
  have hmem : e.sequence ∈ List.range' (start + 1) count := by
    rw [← h]
    exact List.mem_map_of_mem he
  have hbounds := List.mem_range'_1.mp hmem
  omega

theorem Numbered.page_sequences (h : Numbered db) (s : AssistantRunScope) (after limit : Nat) :
    (((db.runEvents s).drop after).take limit).map RunEvent.sequence =
      List.range' (after + 1) (((db.runEvents s).drop after).take limit).length := by
  rw [List.map_take, List.map_drop, h.runEvents_sequences s, List.drop_range', List.length_take,
    List.length_drop]
  rcases Nat.le_total limit ((db.runEvents s).length - after) with hle | hle
  · rw [List.take_range'_of_length_ge hle, Nat.min_eq_left hle]
    congr 1
    omega
  · rw [List.take_range'_of_length_le hle, Nat.min_eq_right hle]
    congr 1
    omega

/-- A page of a numbered log that the client has. -/
structure Served (db : Db) (s : AssistantRunScope) (after : Nat) (page : RunEventPage) : Prop where
  sequences : page.events.map RunEvent.sequence = List.range' (after + 1) page.events.length
  nextAfter : page.nextAfter = after + page.events.length
  length : page.events.length = min eventsPageLimit ((db.runEvents s).length - after)
  hasMore : page.hasMore = decide (after + eventsPageLimit < (db.runEvents s).length)

theorem Numbered.served (h : Numbered db) {limit : Nat} (hlimit : limit = eventsPageLimit)
    (hpage : db.listEvents s after limit = .ok page) : Served db s after page := by
  subst hlimit
  obtain ⟨hevents, hnext, hmore⟩ := h.listEvents hpage
  refine ⟨?_, hnext, ?_, hmore⟩
  · rw [hevents]
    exact h.page_sequences s after eventsPageLimit
  · rw [hevents, List.length_take, List.length_drop]

theorem Served.pos (h : Served db s after page) : ∀ e ∈ page.events, 0 < e.sequence := by
  intro e he
  exact Nat.lt_of_le_of_lt (Nat.zero_le after) (sequences_of_range h.sequences e he)

theorem Numbered.getRunEvents (h : Numbered db)
    (hpage : getRunEvents db s after = some page) : Served db s after page := by
  unfold ClockifyAssistant.getRunEvents at hpage
  split at hpage
  · cases hpage
  · rename_i source hsource
    have hserved := h.served rfl hsource
    split at hpage
    · cases hpage
    · rename_i decoded hdecoded
      injection hpage with hpage
      rw [← hpage, decodeRunEventsPage_eq hserved.pos hdecoded]
      exact hserved

theorem listEvents_lastSequence {limit : Nat} (hpage : db.listEvents s after limit = .ok page) :
    page.lastSequence = db.getLastSequence s := by
  unfold Db.listEvents at hpage
  split at hpage
  · cases hpage
  · injection hpage with hpage
    rw [← hpage]

theorem Numbered.getRunEvents_isSome (h : Numbered db) {run : AssistantRun}
    (hrun : db.getRun s = some run) (hlog : 0 < (db.runEvents s).length) (after : Nat) :
    ∃ page, ClockifyAssistant.getRunEvents db s after = some page := by
  obtain ⟨page, hpage⟩ := Db.listEvents_of_run hrun after eventsPageLimit
  have hserved := h.served rfl hpage
  have hlast : page.lastSequence = (db.runEvents s).length := by
    rw [listEvents_lastSequence hpage]
    have hsequences : (db.runEvents s).map RunEvent.sequence =
        List.range' (0 + 1) (db.runEvents s).length := h.runEvents_sequences s
    unfold Db.getLastSequence
    rw [foldr_max_of_sequences hsequences]
    split <;> omega
  have hnext : 0 < page.nextAfter := by
    have hlength := hserved.length
    have hafter := hserved.nextAfter
    unfold eventsPageLimit at hlength
    omega
  refine ⟨page, ?_⟩
  unfold ClockifyAssistant.getRunEvents
  rw [hpage]
  dsimp only
  rw [decodeRunEventsPage_of_pos hserved.pos hnext (by omega)]

end Served

namespace RunEventCursor

/-- No number behind the highest one has been seen. -/
def Sound (c : RunEventCursor) : Prop := ∀ key ∈ c.seen, key.2 ≤ c.highest

theorem accept_next {c : RunEventCursor} (h : c.Sound) : c.accept (c.highest + 1) =
      (true, { c with seen := (c.runId, c.highest + 1) :: c.seen, highest := c.highest + 1 }) := by
  unfold accept
  have hunseen : (c.runId, c.highest + 1) ∉ c.seen := by
    intro hseen
    have hle := h _ hseen
    dsimp only at hle
    omega
  dsimp only
  rw [if_neg hunseen, if_neg (by simp)]

theorem accept_other {c : RunEventCursor} {sequence : Nat} (h : sequence ≠ c.highest + 1) :
    c.accept sequence = (false, c) := by
  unfold accept
  dsimp only
  rw [if_pos h, ite_self]

end RunEventCursor

namespace Restoration

variable {s : AssistantRunScope} {w : Restoration}

/-- The events were applied one after the other. -/
structure Contiguous (w : Restoration) : Prop where
  sound : w.cursor.Sound
  applied : w.applied.map RunEvent.sequence = List.range' 1 w.cursor.highest

theorem offer_other {event : RunEvent} (h : event.sequence ≠ w.cursor.highest + 1) :
    w.offer event = w := by
  unfold offer
  rw [RunEventCursor.accept_other h]

theorem offer_restores (w : Restoration) (event : RunEvent) :
    (w.offer event).restores = w.restores ∧ (w.offer event).db = w.db := by
  unfold offer
  split <;> exact ⟨rfl, rfl⟩

theorem Contiguous.offer (h : Contiguous w) (event : RunEvent) :
    Contiguous (w.offer event) ∧ (w.offer event).cursor.highest =
      if event.sequence = w.cursor.highest + 1 then w.cursor.highest + 1
      else w.cursor.highest := by
  by_cases hnext : event.sequence = w.cursor.highest + 1
  · rw [if_pos hnext]
    unfold Restoration.offer
    rw [hnext, RunEventCursor.accept_next h.sound]
    refine ⟨⟨?_, ?_⟩, rfl⟩
    · intro key hkey
      rcases List.mem_cons.mp hkey with rfl | hold
      · exact Nat.le_refl _
      · exact Nat.le_succ_of_le (h.sound key hold)
    · show (w.applied ++ [event]).map RunEvent.sequence = List.range' 1 (w.cursor.highest + 1)
      rw [List.map_append, h.applied, List.range'_concat, List.map_singleton, hnext]
      simp [Nat.add_comm]
  · rw [if_neg hnext, offer_other hnext]
    exact ⟨h, rfl⟩

theorem offerAll_frame (w : Restoration) (events : List RunEvent) :
    (w.offerAll events).restores = w.restores ∧ (w.offerAll events).db = w.db := by
  induction events generalizing w with
  | nil => exact ⟨rfl, rfl⟩
  | cons e rest ih =>
    obtain ⟨hrestores, hdb⟩ := ih (w.offer e)
    obtain ⟨hrestores', hdb'⟩ := offer_restores w e
    exact ⟨hrestores.trans hrestores', hdb.trans hdb'⟩

/-- Consecutive events from at or below the cursor move it to their end. -/
theorem Contiguous.offerAll (h : Contiguous w) {events : List RunEvent} {after : Nat}
    (hsequences : events.map RunEvent.sequence = List.range' (after + 1) events.length)
    (hafter : after ≤ w.cursor.highest) :
    Contiguous (w.offerAll events) ∧ (w.offerAll events).cursor.highest =
      max w.cursor.highest (after + events.length) := by
  induction events generalizing w after with
  | nil => exact ⟨h, (Nat.max_eq_left hafter).symm⟩
  | cons e rest ih =>
    rw [List.map_cons, List.length_cons, List.range'_succ] at hsequences
    injection hsequences with hhead htail
    obtain ⟨hoffered, hhighest⟩ := h.offer e
    have hbelow : after + 1 ≤ (w.offer e).cursor.highest := by
      rw [hhighest, hhead]
      split <;> omega
    obtain ⟨hrest, hend⟩ := ih hoffered htail hbelow
    refine ⟨hrest, hend.trans ?_⟩
    rw [hhighest, hhead, List.length_cons]
    split <;> omega

/-- What a restore holds while it is not done: it goes on at or below the cursor. -/
def Standing (w : Restoration) : Restore → Prop
  | .asking after => after ≤ w.cursor.highest
  | .answered page => ∃ after ≤ w.cursor.highest,
      page.events.map RunEvent.sequence = List.range' (after + 1) page.events.length ∧
      page.nextAfter = after + page.events.length
  | .ended highest => highest ≤ w.cursor.highest
  | .failed => True

structure Invariant (w : Restoration) : Prop where
  numbered : Numbered w.db
  contiguous : Contiguous w
  standing : ∀ r ∈ w.restores, w.Standing r

theorem Standing.mono {w w' : Restoration} {r : Restore} (h : w.Standing r)
    (hle : w.cursor.highest ≤ w'.cursor.highest) : w'.Standing r := by
  cases r with
  | asking after => exact Nat.le_trans h hle
  | answered page =>
    obtain ⟨after, hafter, hpage⟩ := h
    exact ⟨after, Nat.le_trans hafter hle, hpage⟩
  | ended highest => exact Nat.le_trans h hle
  | failed => trivial

theorem Invariant.setRestore (h : Invariant w) {i : Nat} {r : Restore} (hr : w.Standing r) :
    Invariant (w.setRestore i r) := by
  refine ⟨h.numbered, ⟨h.contiguous.sound, h.contiguous.applied⟩, ?_⟩
  intro r' hr'
  rcases List.mem_or_eq_of_mem_set hr' with hold | rfl
  · exact Standing.mono (h.standing r' hold) (Nat.le_refl _)
  · exact Standing.mono hr (Nat.le_refl _)

theorem Invariant.offer (h : Invariant w) (event : RunEvent) : Invariant (w.offer event) := by
  obtain ⟨hcontiguous, hhighest⟩ := h.contiguous.offer event
  obtain ⟨hrestores, hdb⟩ := offer_restores w event
  refine ⟨hdb ▸ h.numbered, hcontiguous, ?_⟩
  intro r hr
  rw [hrestores] at hr
  refine Standing.mono (h.standing r hr) ?_
  rw [hhighest]
  split <;> omega

/-- The answer of a restore is applied, and the cursor stands at or behind its end. -/
theorem Invariant.offerAll (h : Invariant w) {page : RunEventPage}
    (hpage : w.Standing (.answered page)) : Invariant (w.offerAll page.events) ∧
      page.nextAfter ≤ (w.offerAll page.events).cursor.highest := by
  obtain ⟨after, hafter, hsequences, hnext⟩ := hpage
  obtain ⟨hcontiguous, hhighest⟩ := h.contiguous.offerAll hsequences hafter
  obtain ⟨hrestores, hdb⟩ := offerAll_frame w page.events
  refine ⟨⟨hdb ▸ h.numbered, hcontiguous, ?_⟩, ?_⟩
  · intro r hr
    rw [hrestores] at hr
    refine Standing.mono (h.standing r hr) ?_
    rw [hhighest]
    exact Nat.le_max_left _ _
  · rw [hhighest, hnext]
    exact Nat.le_max_right _ _

theorem Invariant.restoreTurn (h : Invariant w) (s : AssistantRunScope) (i : Nat) :
    Invariant (w.restoreTurn s i) := by
  unfold Restoration.restoreTurn
  split
  · rename_i after hasking
    have hafter : after ≤ w.cursor.highest := h.standing _ (List.mem_of_getElem? hasking)
    split
    · exact h.setRestore trivial
    · rename_i page hpage
      have hserved := h.numbered.getRunEvents hpage
      exact h.setRestore ⟨after, hafter, hserved.sequences, hserved.nextAfter⟩
  · rename_i page hanswered
    obtain ⟨happlied, hnext⟩ := h.offerAll (h.standing _ (List.mem_of_getElem? hanswered))
    dsimp only
    split
    · exact happlied.setRestore hnext
    · exact happlied.setRestore (Nat.le_refl _)
  · exact h

theorem Invariant.loseRequest (h : Invariant w) (i : Nat) : Invariant (w.loseRequest i) := by
  unfold Restoration.loseRequest
  split
  · exact h.setRestore trivial
  · exact h.setRestore trivial
  · exact h

theorem Invariant.step (h : Invariant w) (s : AssistantRunScope) (e : RestorationStep) :
    Invariant (w.step s e) := by
  cases e with
  | log e =>
    have hextends := EventReader.step_extends s ⟨w.db, [], 0⟩ e
    exact ⟨hextends.numbered h.numbered, ⟨h.contiguous.sound, h.contiguous.applied⟩,
      fun r hr => Standing.mono (h.standing r hr) (Nat.le_refl _)⟩
  | streamed event => exact h.offer event
  | restoreRunEvents startAfter =>
    show Invariant (if startAfter ≤ w.cursor.highest then _ else w)
    split
    · rename_i hstart
      refine ⟨h.numbered, ⟨h.contiguous.sound, h.contiguous.applied⟩, ?_⟩
      intro r hr
      rcases List.mem_append.mp hr with hold | hnew
      · exact Standing.mono (h.standing r hold) (Nat.le_refl _)
      · rw [List.mem_singleton.mp hnew]
        exact hstart
    · exact h
  | turn i => exact h.restoreTurn s i
  | lost i => exact h.loseRequest i

theorem invariant (s : AssistantRunScope) (steps : List RestorationStep) :
    Invariant (restoration s steps) := by
  induction steps using List.reverseRecOn with
  | nil =>
    refine ⟨Numbered.empty, ⟨?_, rfl⟩, ?_⟩
    · intro key hkey
      cases hkey
    · intro r hr
      cases hr
  | append_singleton steps e ih =>
    unfold restoration at ih ⊢
    rw [List.foldl_append]
    exact ih.step s e

section OneRestore

-- The restore at the place `i` of the list.
variable {i : Nat}

theorem getElem?_setRestore_ne {j : Nat} (h : j ≠ i) (w : Restoration) (r : Restore) :
    (w.setRestore j r).restores[i]? = w.restores[i]? := List.getElem?_set_ne h

variable {r : Restore}

theorem getElem?_setRestore_self (h : w.restores[i]? = some r) (r' : Restore) :
    (w.setRestore i r').restores[i]? = some r' := by
  obtain ⟨hlt, -⟩ := List.getElem?_eq_some_iff.mp h
  exact List.getElem?_set_self hlt

theorem db_restoreTurn (s : AssistantRunScope) (w : Restoration) (j : Nat) :
    (w.restoreTurn s j).db = w.db := by
  unfold restoreTurn
  split
  · split <;> rfl
  · dsimp only
    split <;> exact (offerAll_frame w _).2
  · rfl

theorem db_loseRequest (w : Restoration) (j : Nat) : (w.loseRequest j).db = w.db := by
  unfold loseRequest
  split <;> rfl

theorem extends_step (s : AssistantRunScope) (w : Restoration) (e : RestorationStep) :
    Extends w.db (w.step s e).db := by
  cases e with
  | log e => exact EventReader.step_extends s ⟨w.db, [], 0⟩ e
  | streamed event =>
    rw [show (w.step s (.streamed event)).db = w.db from (offer_restores w event).2]
    exact Extends.refl w.db
  | restoreRunEvents startAfter =>
    show Extends w.db (if startAfter ≤ w.cursor.highest then _ else w).db
    split <;> exact Extends.refl w.db
  | turn j =>
    rw [show (w.step s (.turn j)).db = w.db from db_restoreTurn s w j]
    exact Extends.refl w.db
  | lost j =>
    rw [show (w.step s (.lost j)).db = w.db from db_loseRequest w j]
    exact Extends.refl w.db

theorem highest_mono_step (h : Invariant w) (s : AssistantRunScope) (e : RestorationStep) :
    w.cursor.highest ≤ (w.step s e).cursor.highest := by
  cases e with
  | log e => exact Nat.le_refl _
  | streamed event =>
    show w.cursor.highest ≤ (w.offer event).cursor.highest
    rw [(h.contiguous.offer event).2]
    split <;> omega
  | restoreRunEvents startAfter =>
    show w.cursor.highest ≤ (if startAfter ≤ w.cursor.highest then _ else w).cursor.highest
    split <;> exact Nat.le_refl _
  | turn j =>
    show w.cursor.highest ≤ (w.restoreTurn s j).cursor.highest
    unfold restoreTurn
    split
    · split <;> exact Nat.le_refl _
    · rename_i page hanswered
      obtain ⟨after, hafter, hsequences, -⟩ := h.standing _ (List.mem_of_getElem? hanswered)
      have hend := (h.contiguous.offerAll hsequences hafter).2
      have hle : w.cursor.highest ≤ (w.offerAll page.events).cursor.highest := by
        rw [hend]
        exact Nat.le_max_left _ _
      dsimp only
      split <;> exact hle
    · exact Nat.le_refl _
  | lost j =>
    show w.cursor.highest ≤ (w.loseRequest j).cursor.highest
    unfold loseRequest
    split <;> exact Nat.le_refl _

theorem restores_step (h : w.restores[i]? = some r) (s : AssistantRunScope)
    {e : RestorationStep} (hturn : e.isTurn i = false) (hlost : e.isLost i = false) :
    (w.step s e).restores[i]? = some r := by
  cases e with
  | log e => exact h
  | streamed event =>
    rw [show (w.step s (.streamed event)).restores = w.restores from (offer_restores w event).1]
    exact h
  | restoreRunEvents startAfter =>
    show (if startAfter ≤ w.cursor.highest then _ else w).restores[i]? = some r
    split
    · obtain ⟨hlt, -⟩ := List.getElem?_eq_some_iff.mp h
      show (w.restores ++ [Restore.asking startAfter])[i]? = some r
      rw [List.getElem?_append_left hlt]
      exact h
    · exact h
  | turn j =>
    have hother : j ≠ i := fun heq => by simp [RestorationStep.isTurn, heq] at hturn
    show (w.restoreTurn s j).restores[i]? = some r
    unfold restoreTurn
    split
    · split
      · exact (getElem?_setRestore_ne hother w _).trans h
      · exact (getElem?_setRestore_ne hother w _).trans h
    · rename_i page hanswered
      have hframe : (w.offerAll page.events).restores[i]? = some r := by
        rw [(offerAll_frame w page.events).1]
        exact h
      dsimp only
      split
      · exact (getElem?_setRestore_ne hother _ _).trans hframe
      · exact (getElem?_setRestore_ne hother _ _).trans hframe
    · exact h
  | lost j =>
    have hother : j ≠ i := fun heq => by simp [RestorationStep.isLost, heq] at hlost
    show (w.loseRequest j).restores[i]? = some r
    unfold loseRequest
    split
    · exact (getElem?_setRestore_ne hother w _).trans h
    · exact (getElem?_setRestore_ne hother w _).trans h
    · exact h

theorem restores_lost (h : w.restores[i]? = some r) :
    (w.loseRequest i).restores[i]? = some r ∨ (w.loseRequest i).restores[i]? = some .failed := by
  unfold loseRequest
  split
  · exact Or.inr (getElem?_setRestore_self h _)
  · exact Or.inr (getElem?_setRestore_self h _)
  · exact Or.inl h

/-- What the log held when the restore began is in front of what it has yet to ask for. -/
def Covers (n : Nat) (w : Restoration) : Restore → Prop
  | .answered page => page.hasMore = false → n ≤ page.nextAfter
  | .ended _ => n ≤ w.cursor.highest
  | _ => True

/-- At most so many turns remain while the log has `n` events. -/
def turnsLeft (n : Nat) : Restore → Nat
  | .asking after => 2 * ((n - after) / eventsPageLimit) + 2
  | .answered page =>
      if page.hasMore then 2 * ((n - page.nextAfter) / eventsPageLimit) + 3 else 1
  | _ => 0

variable {n : Nat}

theorem done_of_turnsLeft (h : turnsLeft n r = 0) :
    (∃ highest, r = .ended highest) ∨ r = .failed := by
  cases r with
  | asking after =>
    unfold turnsLeft at h
    cases h
  | answered page =>
    unfold turnsLeft at h
    dsimp only at h
    by_cases hmore : page.hasMore = true
    · rw [if_pos hmore] at h
      cases h
    · rw [if_neg hmore] at h
      cases h
  | ended highest => exact Or.inl ⟨highest, rfl⟩
  | failed => exact Or.inr rfl

/-- One turn of a restore: a page is answered, or it is applied and the loop goes on behind it. -/
theorem restoreTurn_cases (h : Invariant w) (hr : w.restores[i]? = some r) :
    (∃ after, r = .asking after ∧ getRunEvents w.db s after = none ∧
      (w.restoreTurn s i).restores[i]? = some .failed) ∨
    (∃ after page, r = .asking after ∧ Served w.db s after page ∧
      (w.restoreTurn s i).restores[i]? = some (.answered page)) ∨
    (∃ page, r = .answered page ∧ page.hasMore = true ∧
      (w.restoreTurn s i).restores[i]? = some (.asking page.nextAfter)) ∨
    (∃ page highest, r = .answered page ∧ page.hasMore = false ∧
      page.nextAfter ≤ (w.restoreTurn s i).cursor.highest ∧
      (w.restoreTurn s i).restores[i]? = some (.ended highest)) ∨
    ((∀ after, r ≠ .asking after) ∧ (∀ page, r ≠ .answered page) ∧ w.restoreTurn s i = w) := by
  cases r with
  | asking after =>
    unfold restoreTurn
    rw [hr]
    dsimp only
    cases hpage : getRunEvents w.db s after with
    | none => exact Or.inl ⟨after, rfl, hpage, getElem?_setRestore_self hr _⟩
    | some page =>
      exact Or.inr (Or.inl ⟨after, page, rfl, h.numbered.getRunEvents hpage,
        getElem?_setRestore_self hr _⟩)
  | answered page =>
    obtain ⟨-, hnext⟩ := h.offerAll (h.standing _ (List.mem_of_getElem? hr))
    have hframe : (w.offerAll page.events).restores[i]? = some (.answered page) := by
      rw [(offerAll_frame w page.events).1]
      exact hr
    unfold restoreTurn
    rw [hr]
    dsimp only
    cases hmore : page.hasMore with
    | true =>
      rw [if_pos rfl]
      exact Or.inr (Or.inr (Or.inl ⟨page, rfl, hmore, getElem?_setRestore_self hframe _⟩))
    | false =>
      rw [if_neg Bool.false_ne_true]
      exact Or.inr (Or.inr (Or.inr (Or.inl
        ⟨page, _, rfl, hmore, hnext, getElem?_setRestore_self hframe _⟩)))
  | ended highest =>
    refine Or.inr (Or.inr (Or.inr (Or.inr ⟨nofun, nofun, ?_⟩)))
    unfold restoreTurn
    rw [hr]
  | failed =>
    refine Or.inr (Or.inr (Or.inr (Or.inr ⟨nofun, nofun, ?_⟩)))
    unfold restoreTurn
    rw [hr]

theorem Covers.mono {w w' : Restoration} (h : Covers n w r)
    (hle : w.cursor.highest ≤ w'.cursor.highest) : Covers n w' r := by
  cases r with
  | asking after => trivial
  | answered page => exact h
  | ended highest => exact Nat.le_trans h hle
  | failed => trivial

theorem Served.covers {db : Db} {after n : Nat} {page : RunEventPage}
    (h : Served db s after page) (hn : n ≤ (db.runEvents s).length) (w : Restoration) :
    Covers n w (.answered page) := by
  intro hmore
  have hend := of_decide_eq_false (h.hasMore.symm.trans hmore)
  have hlength := h.length
  have hnext := h.nextAfter
  omega

/-- A step leaves a restore as it is, loses its request, or is its turn. -/
theorem restoreStep_cases (hr : w.restores[i]? = some r) (e : RestorationStep) :
    e.isTurn i = false ∧ ((w.step s e).restores[i]? = some r ∨
      e.isLost i = true ∧ (w.step s e).restores[i]? = some .failed) ∨
    e.isTurn i = true ∧ w.step s e = w.restoreTurn s i := by
  cases hturn : e.isTurn i with
  | false =>
    refine .inl ⟨rfl, ?_⟩
    cases hlost : e.isLost i with
    | false => exact .inl (restores_step hr s hturn hlost)
    | true =>
      cases e with
      | lost j =>
        obtain rfl : i = j := beq_iff_eq.mp hlost
        exact (restores_lost hr).imp_right fun hfailed => ⟨rfl, hfailed⟩
      | _ => cases hlost
  | true =>
    cases e with
    | turn j =>
      obtain rfl : i = j := beq_iff_eq.mp hturn
      exact .inr ⟨rfl, rfl⟩
    | _ => cases hturn

theorem covers_step (h : Invariant w) (hr : w.restores[i]? = some r)
    (hcovers : Covers n w r) (hn : n ≤ (w.db.runEvents s).length) (e : RestorationStep) :
    ∃ r', (w.step s e).restores[i]? = some r' ∧ Covers n (w.step s e) r' := by
  have hle := highest_mono_step h s e
  rcases restoreStep_cases (s := s) hr e with ⟨-, hkept | ⟨-, hfailed⟩⟩ | ⟨-, hturn⟩
  · exact ⟨r, hkept, Covers.mono hcovers hle⟩
  · exact ⟨.failed, hfailed, trivial⟩
  rw [hturn] at hle ⊢
  rcases restoreTurn_cases h hr (s := s) with ⟨after, -, -, hnow⟩ | ⟨after, page, -, hserved, hnow⟩ |
    ⟨page, -, -, hnow⟩ | ⟨page, highest, rfl, hmore, hend, hnow⟩ | ⟨-, -, hsame⟩
  · exact ⟨_, hnow, trivial⟩
  · exact ⟨_, hnow, Served.covers hserved hn _⟩
  · exact ⟨_, hnow, trivial⟩
  · exact ⟨_, hnow, Nat.le_trans (hcovers hmore) hend⟩
  · exact ⟨r, (congrArg (fun w => w.restores[i]?) hsame).trans hr, Covers.mono hcovers hle⟩

/-- A turn brings a restore that is not done nearer to its end. -/
theorem turnsLeft_turn (h : Invariant w) (hr : w.restores[i]? = some r)
    (hn : (w.db.runEvents s).length = n) :
    ∃ r', (w.restoreTurn s i).restores[i]? = some r' ∧ turnsLeft n r' ≤ turnsLeft n r - 1 := by
  rcases restoreTurn_cases h hr (s := s) with ⟨after, -, -, hnow⟩ | ⟨after, page, rfl, hserved, hnow⟩ |
    ⟨page, rfl, hmore, hnow⟩ | ⟨page, highest, rfl, hmore, hend, hnow⟩ | ⟨hasking, hanswered, hsame⟩
  · exact ⟨_, hnow, Nat.zero_le _⟩
  · refine ⟨_, hnow, ?_⟩
    have hlength := hserved.length
    have hnext := hserved.nextAfter
    have hmore := hserved.hasMore
    unfold turnsLeft eventsPageLimit at *
    dsimp only
    by_cases hmany : after + 200 < (w.db.runEvents s).length
    · rw [hmore, if_pos (decide_eq_true hmany)]
      omega
    · rw [hmore, if_neg (by simpa using hmany)]
      omega
  · refine ⟨_, hnow, ?_⟩
    unfold turnsLeft
    dsimp only
    rw [if_pos hmore]
    omega
  · exact ⟨_, hnow, Nat.zero_le _⟩
  · refine ⟨r, (congrArg (fun w => w.restores[i]?) hsame).trans hr, ?_⟩
    cases r with
    | asking after => exact absurd rfl (hasking after)
    | answered page => exact absurd rfl (hanswered page)
    | ended highest => exact Nat.zero_le _
    | failed => exact Nat.zero_le _

theorem turnsLeft_step (h : Invariant w) (hr : w.restores[i]? = some r)
    (hn : (w.db.runEvents s).length = n) (e : RestorationStep) :
    ∃ r', (w.step s e).restores[i]? = some r' ∧
      turnsLeft n r' ≤ turnsLeft n r - (e.isTurn i).toNat := by
  rcases restoreStep_cases (s := s) hr e with ⟨hother, hkept | ⟨-, hfailed⟩⟩ | ⟨hown, hturn⟩
  · rw [hother]
    exact ⟨r, hkept, Nat.le_refl _⟩
  · exact ⟨.failed, hfailed, Nat.zero_le _⟩
  · rw [hown, hturn]
    exact turnsLeft_turn h hr hn

/-- A restore whose requests arrive does not fail on a log that is not empty. -/
theorem not_failed_step (h : Invariant w) (hr : w.restores[i]? = some r)
    (hfine : r ≠ .failed) (hrun : (w.db.getRun s).isSome)
    (hlog : 0 < (w.db.runEvents s).length) {e : RestorationStep} (hlost : e.isLost i = false) :
    ∃ r', (w.step s e).restores[i]? = some r' ∧ r' ≠ .failed := by
  rcases restoreStep_cases (s := s) hr e with ⟨-, hkept | ⟨hgone, -⟩⟩ | ⟨-, hturn⟩
  · exact ⟨r, hkept, hfine⟩
  · rw [hlost] at hgone
    cases hgone
  obtain ⟨run, hrun⟩ := Option.isSome_iff_exists.mp hrun
  rw [hturn]
  rcases restoreTurn_cases h hr (s := s) with ⟨after, -, hnone, -⟩ | ⟨after, page, -, -, hnow⟩ |
    ⟨page, -, -, hnow⟩ | ⟨page, highest, -, -, -, hnow⟩ | ⟨-, -, hsame⟩
  · obtain ⟨page, hpage⟩ := h.numbered.getRunEvents_isSome hrun hlog after
    rw [hnone] at hpage
    cases hpage
  · exact ⟨_, hnow, nofun⟩
  · exact ⟨_, hnow, nofun⟩
  · exact ⟨_, hnow, nofun⟩
  · exact ⟨r, (congrArg (fun w => w.restores[i]?) hsame).trans hr, hfine⟩

/-- The steps behind the start of a restore. -/
def run (s : AssistantRunScope) (w : Restoration) (steps : List RestorationStep) : Restoration :=
  steps.foldl (Restoration.step s) w

theorem run_concat (s : AssistantRunScope) (w : Restoration) (steps : List RestorationStep)
    (e : RestorationStep) : w.run s (steps ++ [e]) = (w.run s steps).step s e := by
  unfold run
  rw [List.foldl_append]
  rfl

theorem Invariant.run (h : Invariant w) (s : AssistantRunScope) (steps : List RestorationStep) :
    Invariant (w.run s steps) := by
  induction steps using List.reverseRecOn with
  | nil => exact h
  | append_singleton steps e ih =>
    rw [run_concat]
    exact ih.step s e

theorem extends_run (s : AssistantRunScope) (w : Restoration) (steps : List RestorationStep) :
    Extends w.db (w.run s steps).db := by
  induction steps using List.reverseRecOn with
  | nil => exact Extends.refl w.db
  | append_singleton steps e ih =>
    rw [run_concat]
    exact ih.trans (extends_step s _ e)

theorem length_runEvents_mono {db db' : Db} (h : Extends db db') (s : AssistantRunScope) :
    (db.runEvents s).length ≤ (db'.runEvents s).length := by
  obtain ⟨more, hmore⟩ := h.runEvents s
  rw [hmore, List.length_append]
  exact Nat.le_add_right _ _

theorem getRun_isSome_mono {db db' : Db} (h : Extends db db') (s : AssistantRunScope)
    (hrun : (db.getRun s).isSome) : (db'.getRun s).isSome := by
  obtain ⟨run, hrun⟩ := Option.isSome_iff_exists.mp hrun
  obtain ⟨hget, hscope⟩ := Option.filter_eq_some_iff.mp hrun
  obtain ⟨run', hget', howner, hid, hgeneration⟩ := h.runs _ run hget
  refine Option.isSome_iff_exists.mpr ⟨run', Option.filter_eq_some_iff.mpr ⟨hget', ?_⟩⟩
  unfold AssistantRun.inScope at hscope ⊢
  rw [howner, hid, hgeneration]
  exact hscope

theorem covers_run (h : Invariant w) (hr : w.restores[i]? = some r)
    (hcovers : Covers n w r) (hn : n ≤ (w.db.runEvents s).length) (steps : List RestorationStep) :
    ∃ r', (w.run s steps).restores[i]? = some r' ∧ Covers n (w.run s steps) r' := by
  induction steps using List.reverseRecOn with
  | nil => exact ⟨r, hr, hcovers⟩
  | append_singleton steps e ih =>
    obtain ⟨r', hr', hcovers'⟩ := ih
    have hlonger := length_runEvents_mono (extends_run s w steps) s
    rw [run_concat]
    exact covers_step (h.run s steps) hr' hcovers' (Nat.le_trans hn hlonger) e

theorem turnsLeft_run (h : Invariant w) (hr : w.restores[i]? = some r)
    (hn : (w.db.runEvents s).length = n) (steps : List RestorationStep)
    (hquiet : ((w.run s steps).db.runEvents s).length = n) :
    ∃ r', (w.run s steps).restores[i]? = some r' ∧
      turnsLeft n r' ≤ turnsLeft n r - steps.countP (RestorationStep.isTurn i) := by
  induction steps using List.reverseRecOn with
  | nil => exact ⟨r, hr, Nat.le_refl _⟩
  | append_singleton steps e ih =>
    rw [run_concat] at hquiet ⊢
    -- The log does not shrink, so that it stood still up to the last step.
    have hgrown := length_runEvents_mono (extends_run s w steps) s
    have hlast := length_runEvents_mono (extends_step s (w.run s steps) e) s
    have hstill : ((w.run s steps).db.runEvents s).length = n := by omega
    obtain ⟨r', hr', hle⟩ := ih hstill
    obtain ⟨r'', hr'', hle'⟩ := turnsLeft_step (h.run s steps) hr' hstill e
    refine ⟨r'', hr'', ?_⟩
    rw [List.countP_append, List.countP_singleton]
    cases hturn : e.isTurn i with
    | false =>
      rw [hturn, Bool.toNat_false] at hle'
      rw [if_neg Bool.false_ne_true]
      omega
    | true =>
      rw [hturn, Bool.toNat_true] at hle'
      rw [if_pos rfl]
      omega

theorem not_failed_run (h : Invariant w) (hr : w.restores[i]? = some r)
    (hfine : r ≠ .failed) (hrun : (w.db.getRun s).isSome)
    (hlog : 0 < (w.db.runEvents s).length) {steps : List RestorationStep}
    (hkept : ∀ e ∈ steps, e.isLost i = false) :
    ∃ r', (w.run s steps).restores[i]? = some r' ∧ r' ≠ .failed := by
  induction steps using List.reverseRecOn with
  | nil => exact ⟨r, hr, hfine⟩
  | append_singleton steps e ih =>
    obtain ⟨r', hr', hfine'⟩ := ih fun e' he' => hkept e' (List.mem_append_left _ he')
    have hextends := extends_run s w steps
    rw [run_concat]
    exact not_failed_step (h.run s steps) hr' hfine' (getRun_isSome_mono hextends s hrun)
      (Nat.lt_of_lt_of_le hlog (length_runEvents_mono hextends s))
      (hkept e (List.mem_append_right _ (List.mem_singleton.mpr rfl)))

end OneRestore

theorem Invariant.mem_applied (h : Invariant w) {sequence : Nat} :
    sequence ∈ w.applied.map RunEvent.sequence ↔ 0 < sequence ∧ sequence ≤ w.cursor.highest := by
  rw [h.contiguous.applied, List.mem_range'_1]
  omega

end Restoration

theorem Numbered.le_length {db : Db} (h : Numbered db) (s : AssistantRunScope) :
    ∀ e ∈ db.runEvents s, 0 < e.sequence ∧ e.sequence ≤ (db.runEvents s).length := by
  intro e he
  have hmem : e.sequence ∈ List.range' 1 (db.runEvents s).length := by
    rw [← h.runEvents_sequences s]
    exact List.mem_map_of_mem he
  have hbounds := List.mem_range'_1.mp hmem
  omega

section Restored

open Restoration

/-- The restore that starts behind the steps `before`. -/
def restoreAt (s : AssistantRunScope) (before after : List RestorationStep) (startAfter : Nat) :
    Option Restore :=
  (restoration s (before ++ .restoreRunEvents startAfter :: after)).restores[
    (restoration s before).restores.length]?

/-- `startAfter` is at or below the cursor behind `before`. -/
structure RestoreLaw (s : AssistantRunScope) (before after : List RestorationStep)
    (startAfter : Nat) (final : Restoration) : Prop where
  /-- What the log held when the restore was started is applied when it has returned. -/
  complete : ∀ highest, restoreAt s before after startAfter = some (.ended highest) →
    ∀ e ∈ (restoration s before).db.runEvents s, e.sequence ∈ final.applied.map RunEvent.sequence
  /-- The loop is left after so many turns on a log that does not grow. -/
  ends : final.db.runEvents s = (restoration s before).db.runEvents s →
    2 * ((final.db.runEvents s).length / eventsPageLimit + 1) ≤
      after.countP (RestorationStep.isTurn (restoration s before).restores.length) →
    (∃ highest, restoreAt s before after startAfter = some (.ended highest)) ∨
      restoreAt s before after startAfter = some .failed
  /-- It fails by a lost request, without its run, or on an empty log only. -/
  answered : ((restoration s before).db.getRun s).isSome →
    0 < ((restoration s before).db.runEvents s).length →
    (∀ e ∈ after, e.isLost (restoration s before).restores.length = false) →
    restoreAt s before after startAfter ≠ some .failed

theorem restoreLaw (s : AssistantRunScope) (before after : List RestorationStep)
    {startAfter : Nat} (hstart : startAfter ≤ (restoration s before).cursor.highest) :
    RestoreLaw s before after startAfter
      (restoration s (before ++ .restoreRunEvents startAfter :: after)) := by
  have hbefore := invariant s before
  have hbegun := hbefore.step s (.restoreRunEvents startAfter)
  have hstep : (restoration s before).step s (.restoreRunEvents startAfter) =
      { restoration s before with
        restores := (restoration s before).restores ++ [.asking startAfter] } := if_pos hstart
  rw [hstep] at hbegun
  have hnew : ((restoration s before).restores ++ [Restore.asking startAfter])[
      (restoration s before).restores.length]? = some (.asking startAfter) := by simp
  have hfinal : restoration s (before ++ .restoreRunEvents startAfter :: after) =
      Restoration.run s { restoration s before with
        restores := (restoration s before).restores ++ [.asking startAfter] } after := by
    unfold restoration
    rw [List.foldl_append, List.foldl_cons]
    exact congrArg (fun w => List.foldl (Restoration.step s) w after) hstep
  have hlast := hbegun.run s after
  have hat : restoreAt s before after startAfter =
      (Restoration.run s { restoration s before with
        restores := (restoration s before).restores ++ [.asking startAfter] } after).restores[
          (restoration s before).restores.length]? := by
    unfold restoreAt
    rw [hfinal]
  rw [hfinal]
  refine ⟨?_, ?_, ?_⟩ <;> rw [hat]
  · intro highest hended e he
    obtain ⟨r, hr, hcovers⟩ := covers_run hbegun hnew trivial (Nat.le_refl _) after
    rw [hended] at hr
    obtain rfl := Option.some.inj hr
    obtain ⟨hpos, hle⟩ := hbefore.numbered.le_length s e he
    exact hlast.mem_applied.mpr ⟨hpos, Nat.le_trans hle hcovers⟩
  · intro hquiet hturns
    have hlength : ((restoration s before).db.runEvents s).length =
        ((restoration s before).db.runEvents s).length := rfl
    obtain ⟨r, hr, hleft⟩ :=
      turnsLeft_run hbegun hnew hlength after (congrArg List.length hquiet)
    rw [hquiet] at hturns
    have hbound : turnsLeft ((restoration s before).db.runEvents s).length (.asking startAfter) ≤
        2 * (((restoration s before).db.runEvents s).length / eventsPageLimit + 1) := by
      unfold turnsLeft eventsPageLimit
      dsimp only
      omega
    have hdone : turnsLeft ((restoration s before).db.runEvents s).length r = 0 := by
      omega
    rw [hr]
    rcases done_of_turnsLeft hdone with ⟨highest, rfl⟩ | rfl
    · exact Or.inl ⟨highest, rfl⟩
    · exact Or.inr rfl
  · intro hrun hlog hkept hfailed
    obtain ⟨r, hr, hfine⟩ := not_failed_run hbegun hnew nofun hrun hlog hkept
    rw [hfailed] at hr
    exact hfine (Option.some.inj hr).symm

/-- Streamed events and restores in any order: the events are applied in order, each once, and
a restore leaves none of the log out. -/
structure EventCursorLaw (s : AssistantRunScope) (steps : List RestorationStep) : Prop where
  applied : (restoration s steps).applied.map RunEvent.sequence =
    List.range' 1 (restoration s steps).cursor.highest
  restored : ∀ before startAfter after, steps = before ++ .restoreRunEvents startAfter :: after →
    startAfter ≤ (restoration s before).cursor.highest →
    RestoreLaw s before after startAfter (restoration s steps)

theorem eventCursor_law (s : AssistantRunScope) (steps : List RestorationStep) :
    EventCursorLaw s steps := by
  refine ⟨(invariant s steps).contiguous.applied, ?_⟩
  intro before startAfter after hsteps hstart
  rw [hsteps]
  exact restoreLaw s before after hstart

end Restored

end ClockifyAssistant
