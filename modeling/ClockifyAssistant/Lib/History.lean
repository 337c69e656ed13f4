/-!
Logs of a run, oldest entry first. A property of an entry that looks only at
what came before it holds of a whole log as soon as each new entry has it.
-/
namespace ClockifyAssistant.Lib

variable {α : Type}

/-- Every entry of the log has `P` with respect to the entries before it. -/
def Always (P : List α → α → Prop) (log : List α) : Prop :=
  ∀ before entry after, log = before ++ entry :: after → P before entry

namespace Always

variable {P Q : List α → α → Prop} {log : List α} {entry : α}

theorem nil : Always P [] := by
  intro before entry after h
  simp at h

theorem concat (h : Always P log) (hentry : P log entry) : Always P (log ++ [entry]) := by
  intro before e after hsplit
  rcases List.eq_nil_or_concat after with rfl | ⟨rest, last, rfl⟩
  · obtain ⟨rfl, heq⟩ := List.append_inj' hsplit rfl
    obtain rfl : entry = e := by simpa using heq
    exact hentry
  · have hinit : log ++ [entry] = (before ++ e :: rest) ++ [last] := by
      simpa [List.append_assoc] using hsplit
    exact h before e rest (List.append_inj' hinit rfl).1

theorem concat_iff : Always P (log ++ [entry]) ↔ Always P log ∧ P log entry := by
  constructor
  · intro h
    refine ⟨fun before e after hsplit => ?_, h log entry [] rfl⟩
    exact h before e (after ++ [entry]) (by rw [hsplit, List.append_assoc, List.cons_append])
  · intro h
    exact h.1.concat h.2

theorem append {entries : List α} (h : Always P log)
    (hentries : ∀ done entry rest, entries = done ++ entry :: rest → P (log ++ done) entry) :
    Always P (log ++ entries) := by
  induction entries generalizing log with
  | nil => simpa using h
  | cons e rest ih =>
    have he : P log e := by simpa using hentries [] e rest rfl
    rw [List.append_cons]
    refine ih (h.concat he) fun done entry rest' hsplit => ?_
    have hp := hentries (e :: done) entry rest' (by rw [hsplit, List.cons_append])
    rwa [List.append_cons] at hp

theorem tail (h : Always P (entry :: log)) : Always (fun before => P (entry :: before)) log := by
  intro before e after hsplit
  exact h (entry :: before) e after (by rw [hsplit, List.cons_append])

theorem head (h : Always P (entry :: log)) : P [] entry :=
  h [] entry log rfl

theorem cons_iff : Always P (entry :: log) ↔
    P [] entry ∧ Always (fun before => P (entry :: before)) log := by
  constructor
  · intro h
    exact ⟨h.head, h.tail⟩
  · rintro ⟨hhead, htail⟩ before e after hsplit
    cases before with
    | nil =>
      injection hsplit with hentry _
      exact hentry ▸ hhead
    | cons first rest =>
      injection hsplit with hentry hrest
      exact hentry ▸ htail rest e after hrest

theorem mono (h : Always P log) (hPQ : ∀ before entry, P before entry → Q before entry) :
    Always Q log :=
  fun before entry after hsplit => hPQ before entry (h before entry after hsplit)

theorem congr (hPQ : ∀ before entry, P before entry ↔ Q before entry) :
    Always P log ↔ Always Q log :=
  ⟨fun h => h.mono fun before entry => (hPQ before entry).mp,
    fun h => h.mono fun before entry => (hPQ before entry).mpr⟩

theorem map_iff {β : Type} {P : List β → β → Prop} {f : α → β} :
    Always P (log.map f) ↔ Always (fun before entry => P (before.map f) (f entry)) log := by
  induction log generalizing P with
  | nil => exact ⟨fun _ => nil, fun _ => nil⟩
  | cons entry rest ih =>
    rw [List.map_cons, cons_iff, cons_iff]
    exact and_congr Iff.rfl ih

/-- An entry of the log, found with what came before it. -/
theorem of_mem (h : Always P log) (hentry : entry ∈ log) :
    ∃ before, before <+: log ∧ P before entry := by
  obtain ⟨before, after, hsplit⟩ := List.append_of_mem hentry
  exact ⟨before, ⟨entry :: after, hsplit.symm⟩, h before entry after hsplit⟩

/-- Each entry is related to those before it. -/
theorem pairwise {R : α → α → Prop} (h : Always (fun before entry => ∀ e ∈ before, R e entry) log) :
    log.Pairwise R := by
  induction log with
  | nil => exact List.Pairwise.nil
  | cons first rest ih =>
    refine List.Pairwise.cons ?_ (ih (h.tail.mono fun before entry hb e he =>
      hb e (List.mem_cons_of_mem _ he)))
    intro entry hentry
    obtain ⟨before, -, hbefore⟩ := h.tail.of_mem hentry
    exact hbefore first List.mem_cons_self

end Always

end ClockifyAssistant.Lib
