import ClockifyAssistant.Schema

/-!
The undo ledger without rows: the entries, the operations that reverse them and
the commits that paired the two. A commit takes an available entry, once. An
entry and its operation are settled together; one that has lost the other is
settled alone.
-/
namespace ClockifyAssistant

open Function

def ActionResultKind.toUndo : ActionResultKind → UndoStatus
  | .succeeded => .undone
  | .partially => .partiallyUndone
  | .definitiveFailed => .failed
  | .outcomeUnknown => .outcomeUnknown

/-- The entry was never taken for execution. -/
def UndoStatus.untaken : UndoStatus → Bool
  | .available | .expired => true
  | _ => false

@[simp] theorem ActionResultKind.toUndo_untaken (kind : ActionResultKind) :
    kind.toUndo.untaken = false := by
  cases kind <;> rfl

theorem ActionResultKind.toUndo_ne_executing (kind : ActionResultKind) :
    kind.toUndo ≠ .executing := by
  cases kind <;> simp [toUndo]

structure UndoEntry where
  scope : SessionScope
  status : UndoStatus
  resultId : Option ResultId

structure UndoReversal where
  scope : SessionScope
  confirmationId : Option ConfirmationId
  undoId : Option UndoId
  status : OperationRunStatus
  resultId : Option ResultId

/-- `owned` tells which operations have a result of their own. -/
@[ext] structure UndoPairs where
  entry : UndoId → Option UndoEntry
  reversal : OperationId → Option UndoReversal
  owned : OperationId → Bool

/-- In flight together, or ended together with one result. -/
def UndoEntry.Agrees (e : UndoEntry) (y : UndoReversal) : Prop :=
  (e.status = .executing ∧ y.status = .executing) ∨
    ∃ kind : ActionResultKind, e.status = kind.toUndo ∧ y.status = kind.toOperation ∧
      e.resultId = y.resultId

theorem UndoEntry.Agrees.executing_iff {e : UndoEntry} {y : UndoReversal} (h : e.Agrees y) :
    e.status = .executing ↔ y.status = .executing := by
  rcases h with ⟨he, hy⟩ | ⟨kind, he, hy, -⟩
  · simp [he, hy]
  · simp [he, hy, kind.toUndo_ne_executing]

namespace UndoPairs

section Writes

variable (v : UndoPairs)

def setEntry (u : UndoId) (e : Option UndoEntry) : UndoPairs :=
  { v with entry := update v.entry u e }

def setReversal (o : OperationId) (y : Option UndoReversal) : UndoPairs :=
  { v with reversal := update v.reversal o y }

def record (o : OperationId) : UndoPairs :=
  { v with owned := update v.owned o true }

def settleEntry (u : UndoId) (status : UndoStatus) (r : ResultId) : UndoPairs :=
  v.setEntry u <| (v.entry u).map fun e => { e with status, resultId := some r }

def settleReversal (o : OperationId) (status : OperationRunStatus) (r : ResultId) : UndoPairs :=
  v.setReversal o <| (v.reversal o).map fun y => { y with status, resultId := some r }

end Writes

variable {own : Prop} {commits : List (UndoId × OperationId)} {v v' v'' : UndoPairs}
  {u : UndoId} {o : OperationId}

/-- A write that only lets available entries lapse, or drops rows. -/
structure Fades (v v' : UndoPairs) : Prop where
  entry : ∀ u e', v'.entry u = some e' → ∃ e, v.entry u = some e ∧
    (e' = e ∨ e.status = .available ∧ e' = { e with status := .expired })
  reversal : ∀ o y, v'.reversal o = some y → v.reversal o = some y ∧
    (v'.owned o = true → v.owned o = true)

theorem Fades.refl (v : UndoPairs) : v.Fades v :=
  ⟨fun _ e h => ⟨e, h, .inl rfl⟩, fun _ _ h => ⟨h, fun hown => hown⟩⟩

theorem Fades.trans (h : v.Fades v') (h' : v'.Fades v'') : v.Fades v'' where
  entry := by
    intro u e'' he''
    obtain ⟨e', he', hlast⟩ := h'.entry u e'' he''
    obtain ⟨e, he, hfirst⟩ := h.entry u e' he'
    refine ⟨e, he, ?_⟩
    rcases hlast with rfl | ⟨havailable, hlapsed⟩
    · exact hfirst
    · rcases hfirst with rfl | ⟨-, rfl⟩
      · exact .inr ⟨havailable, hlapsed⟩
      · cases havailable
  reversal := by
    intro o y hy
    obtain ⟨hy', howned'⟩ := h'.reversal o y hy
    obtain ⟨hy, howned⟩ := h.reversal o y hy'
    exact ⟨hy, fun hown => howned (howned' hown)⟩

/-- A write after which nothing is in flight, and nothing undone, that was not before. -/
structure Drains (v v' : UndoPairs) : Prop where
  entry : ∀ u e', v'.entry u = some e' → ∃ e, v.entry u = some e ∧ e'.scope = e.scope ∧
    (e'.status = .executing ∨ e'.status = .undone → e' = e)
  reversal : ∀ o y, v'.reversal o = some y → y.status = .executing → v.reversal o = some y

theorem Drains.refl (v : UndoPairs) : v.Drains v :=
  ⟨fun _ e h => ⟨e, h, rfl, fun _ => rfl⟩, fun _ _ h _ => h⟩

theorem Drains.trans (h : v.Drains v') (h' : v'.Drains v'') : v.Drains v'' where
  entry := by
    intro u e'' he''
    obtain ⟨e', he', hscope', hlive'⟩ := h'.entry u e'' he''
    obtain ⟨e, he, hscope, hlive⟩ := h.entry u e' he'
    refine ⟨e, he, hscope'.trans hscope, fun hs => ?_⟩
    obtain rfl := hlive' hs
    exact hlive hs
  reversal := fun o y hy hs => h.reversal o y (h'.reversal o y hy hs) hs

theorem Drains.live (h : v.Drains v') {e : UndoEntry} (he : v'.entry u = some e)
    (hs : e.status = .executing ∨ e.status = .undone) : v.entry u = some e := by
  obtain ⟨e₀, he₀, -, hsame⟩ := h.entry u e he
  obtain rfl := hsame hs
  exact he₀

theorem Fades.drains (h : v.Fades v') : v.Drains v' where
  entry := by
    intro u e' he'
    obtain ⟨e, he, rfl | ⟨-, rfl⟩⟩ := h.entry u e' he'
    · exact ⟨_, he, rfl, fun _ => rfl⟩
    · exact ⟨e, he, rfl, by simp⟩
  reversal := fun o y hy _ => (h.reversal o y hy).1

/-- What the commits made so far say of the rows. -/
structure Taken (commits : List (UndoId × OperationId)) (v : UndoPairs) : Prop where
  once : (commits.map Prod.fst).Nodup
  single : (commits.map Prod.snd).Nodup
  untaken : ∀ u e, v.entry u = some e → e.status.untaken = true → u ∉ commits.map Prod.fst
  unconfirmed : ∀ o y, v.reversal o = some y → y.confirmationId = none
  committed : ∀ o y, v.reversal o = some y → y.status = .executing →
    v.owned o = false ∧ ∃ u, y.undoId = some u ∧ (u, o) ∈ commits

def Agreeing (commits : List (UndoId × OperationId)) (v : UndoPairs) : Prop :=
  ∀ u o e y, (u, o) ∈ commits → v.entry u = some e → v.reversal o = some y →
    e.scope = y.scope ∧ e.Agrees y

/-- `own` is that every commit was made in the session of its entry. -/
structure Accord (own : Prop) (commits : List (UndoId × OperationId)) (v : UndoPairs) :
    Prop extends Taken commits v where
  agree : own → Agreeing commits v

section Lookups

variable {e e' : UndoEntry} {y y' : UndoReversal} {u' : UndoId} {o' : OperationId} {r : ResultId}

theorem entry_setEntry_self (e : Option UndoEntry) : (v.setEntry u e).entry u = e :=
  update_self ..

theorem entry_setEntry_of_ne (e : Option UndoEntry) (h : u' ≠ u) :
    (v.setEntry u e).entry u' = v.entry u' :=
  update_of_ne h _ _

theorem fades_lapse (he : v.entry u = some e) (havailable : e.status = .available) :
    v.Fades (v.setEntry u (some { e with status := .expired })) where
  entry := by
    intro u' e' he'
    by_cases heq : u' = u
    · subst heq
      rw [entry_setEntry_self] at he'
      exact ⟨e, he, .inr ⟨havailable, (Option.some.inj he').symm⟩⟩
    · rw [entry_setEntry_of_ne _ heq] at he'
      exact ⟨e', he', .inl rfl⟩
  reversal := fun _ _ h => ⟨h, fun hown => hown⟩

theorem reversal_setReversal_self (y : Option UndoReversal) : (v.setReversal o y).reversal o = y :=
  update_self ..

theorem reversal_setReversal_of_ne (y : Option UndoReversal) (h : o' ≠ o) :
    (v.setReversal o y).reversal o' = v.reversal o' :=
  update_of_ne h _ _

theorem entry_settleEntry {status : UndoStatus}
    (he' : (v.settleEntry u status r).entry u' = some e') :
    ∃ e, v.entry u' = some e ∧ e'.scope = e.scope ∧
      (u' = u ∧ e'.status = status ∧ e'.resultId = some r ∨ u' ≠ u ∧ e' = e) := by
  by_cases heq : u' = u
  · subst heq
    rw [settleEntry, entry_setEntry_self] at he'
    obtain ⟨e, he, rfl⟩ := Option.map_eq_some_iff.mp he'
    exact ⟨e, he, rfl, .inl ⟨rfl, rfl, rfl⟩⟩
  · rw [settleEntry, entry_setEntry_of_ne _ heq] at he'
    exact ⟨e', he', rfl, .inr ⟨heq, rfl⟩⟩

theorem reversal_settleReversal {status : OperationRunStatus}
    (hy' : (v.settleReversal o status r).reversal o' = some y') :
    ∃ y, v.reversal o' = some y ∧ y'.scope = y.scope ∧ y'.confirmationId = y.confirmationId ∧
      (o' = o ∧ y'.status = status ∧ y'.resultId = some r ∨ o' ≠ o ∧ y' = y) := by
  by_cases heq : o' = o
  · subst heq
    rw [settleReversal, reversal_setReversal_self] at hy'
    obtain ⟨y, hy, rfl⟩ := Option.map_eq_some_iff.mp hy'
    exact ⟨y, hy, rfl, rfl, .inl ⟨rfl, rfl, rfl⟩⟩
  · rw [settleReversal, reversal_setReversal_of_ne _ heq] at hy'
    exact ⟨y', hy', rfl, rfl, .inr ⟨heq, rfl⟩⟩

theorem drains_settleEntry {status : UndoStatus} (hexec : status ≠ .executing)
    (hundone : status ≠ .undone) : v.Drains (v.settleEntry u status r) where
  entry := by
    intro u' e' he'
    obtain ⟨e, he, hscope, ⟨-, hnew, -⟩ | ⟨-, rfl⟩⟩ := entry_settleEntry he'
    · exact ⟨e, he, hscope, by simp [hnew, hexec, hundone]⟩
    · exact ⟨_, he, rfl, fun _ => rfl⟩
  reversal := fun _ _ hy _ => hy

theorem drains_settleReversal {status : OperationRunStatus} (hexec : status ≠ .executing) :
    v.Drains (v.settleReversal o status r) where
  entry := fun _ e he => ⟨e, he, rfl, fun _ => rfl⟩
  reversal := by
    intro o' y' hy' hs
    obtain ⟨y, hy, -, -, ⟨-, hnew, -⟩ | ⟨-, rfl⟩⟩ := reversal_settleReversal hy'
    · exact absurd (hnew.symm.trans hs) hexec
    · exact hy

theorem drains_record : v.Drains (v.record o) :=
  ⟨fun _ e h => ⟨e, h, rfl, fun _ => rfl⟩, fun _ _ h _ => h⟩

end Lookups

/-- No commit is in flight on both sides. -/
def Unpaired (own : Prop) (commits : List (UndoId × OperationId)) (v : UndoPairs) : Prop :=
  own → ∀ u o e y, (u, o) ∈ commits → v.entry u = some e → v.reversal o = some y →
    y.status ≠ .executing

namespace Taken

theorem operation_unique (h : Taken commits v) {o' : OperationId} (ho : (u, o) ∈ commits)
    (ho' : (u, o') ∈ commits) : o' = o :=
  congrArg Prod.snd (List.inj_on_of_nodup_map h.once ho' ho rfl)

theorem entry_unique (h : Taken commits v) {u' : UndoId} (hu : (u, o) ∈ commits)
    (hu' : (u', o) ∈ commits) : u' = u :=
  congrArg Prod.fst (List.inj_on_of_nodup_map h.single hu' hu rfl)

theorem not_available (h : Taken commits v) {e : UndoEntry} (hmem : (u, o) ∈ commits)
    (he : v.entry u = some e) : e.status ≠ .available := by
  intro havailable
  exact h.untaken u e he (by rw [havailable]; rfl) (List.mem_map_of_mem hmem)

theorem fades (h : Taken commits v) (hfades : v.Fades v') : Taken commits v' where
  once := h.once
  single := h.single
  untaken := by
    intro u e' he' huntaken
    obtain ⟨e, he, rfl | ⟨havailable, -⟩⟩ := hfades.entry u e' he'
    · exact h.untaken u _ he huntaken
    · exact h.untaken u e he (by rw [havailable]; rfl)
  unconfirmed := fun o y hy => h.unconfirmed o y (hfades.reversal o y hy).1
  committed := by
    intro o y hy hexec
    obtain ⟨hold, howned⟩ := hfades.reversal o y hy
    obtain ⟨hfree, hpair⟩ := h.committed o y hold hexec
    refine ⟨Bool.eq_false_iff.mpr fun hnow => ?_, hpair⟩
    rw [howned hnow] at hfree
    cases hfree

theorem settleReversal (h : Taken commits v) {status : OperationRunStatus} (r : ResultId)
    (hstatus : status ≠ .executing) : Taken commits (v.settleReversal o status r) where
  once := h.once
  single := h.single
  untaken := h.untaken
  unconfirmed := by
    intro o' y' hy'
    obtain ⟨y, hy, -, hconfirmation, -⟩ := reversal_settleReversal hy'
    rw [hconfirmation]
    exact h.unconfirmed o' y hy
  committed := by
    intro o' y' hy' hexec
    obtain ⟨y, hy, -, -, ⟨-, hnew, -⟩ | ⟨-, rfl⟩⟩ := reversal_settleReversal hy'
    · exact absurd (hnew.symm.trans hexec) hstatus
    · exact h.committed o' y' hy hexec

theorem settleEntry (h : Taken commits v) {status : UndoStatus} (r : ResultId)
    (hstatus : status.untaken = false) : Taken commits (v.settleEntry u status r) where
  once := h.once
  single := h.single
  untaken := by
    intro u' e' he' huntaken
    obtain ⟨e, he, -, ⟨-, hnew, -⟩ | ⟨-, rfl⟩⟩ := entry_settleEntry he'
    · rw [hnew, hstatus] at huntaken
      cases huntaken
    · exact h.untaken u' e' he huntaken
  unconfirmed := h.unconfirmed
  committed := h.committed

theorem record (h : Taken commits v) (hidle : ∀ y, v.reversal o = some y → y.status ≠ .executing) :
    Taken commits (v.record o) where
  once := h.once
  single := h.single
  untaken := h.untaken
  unconfirmed := h.unconfirmed
  committed := by
    intro o' y hy hexec
    obtain ⟨hfree, hpair⟩ := h.committed o' y hy hexec
    have hne : o' ≠ o := by
      rintro rfl
      exact hidle y hy hexec
    refine ⟨?_, hpair⟩
    rw [← hfree]
    exact update_of_ne hne _ _

end Taken

namespace Accord

theorem fades (h : Accord own commits v) (hfades : v.Fades v') : Accord own commits v' where
  toTaken := h.toTaken.fades hfades
  agree := by
    intro hown u o e' y hmem he' hy
    obtain ⟨e, he, rfl | ⟨havailable, -⟩⟩ := hfades.entry u e' he'
    · exact h.agree hown u o _ y hmem he (hfades.reversal o y hy).1
    · exact absurd havailable (h.not_available hmem he)

theorem addEntry (h : Accord own commits v) (e : UndoEntry) (hu : u ∉ commits.map Prod.fst) :
    Accord own commits (v.setEntry u (some e)) := by
  have hold : ∀ {u' e'}, u' ≠ u → (v.setEntry u (some e)).entry u' = some e' →
      v.entry u' = some e' := by
    intro u' e' hne he'
    rwa [entry_setEntry_of_ne _ hne] at he'
  refine ⟨⟨h.once, h.single, ?_, h.unconfirmed, h.committed⟩, ?_⟩
  · intro u' e' he' huntaken
    by_cases heq : u' = u
    · rw [heq]
      exact hu
    · exact h.untaken u' e' (hold heq he') huntaken
  · intro hown u' o e' y hmem he' hy
    have hne : u' ≠ u := by
      rintro rfl
      exact hu (List.mem_map_of_mem hmem)
    exact h.agree hown u' o e' y hmem (hold hne he') hy

theorem commit (h : Accord own commits v) {e : UndoEntry} {y : UndoReversal}
    (he : v.entry u = some e) (havailable : e.status = .available)
    (ho : o ∉ commits.map Prod.snd) (howned : v.owned o = false)
    (hconfirmation : y.confirmationId = none) (hundo : y.undoId = some u)
    (hexec : y.status = .executing) (hscope : own → e.scope = y.scope) :
    Accord own (commits ++ [(u, o)])
      ((v.setEntry u (some { e with status := .executing })).setReversal o (some y)) := by
  have hu : u ∉ commits.map Prod.fst := h.untaken u e he (by rw [havailable]; rfl)
  -- What the rows of the new state are.
  have hentry : ∀ u' e', update v.entry u (some { e with status := .executing }) u' = some e' →
      u' = u ∧ e' = { e with status := .executing } ∨ u' ≠ u ∧ v.entry u' = some e' := by
    intro u' e' he'
    by_cases heq : u' = u
    · subst heq
      rw [update_self] at he'
      exact .inl ⟨rfl, (Option.some.inj he').symm⟩
    · rw [update_of_ne heq] at he'
      exact .inr ⟨heq, he'⟩
  have hreversal : ∀ o' y', update v.reversal o (some y) o' = some y' →
      o' = o ∧ y' = y ∨ o' ≠ o ∧ v.reversal o' = some y' := by
    intro o' y' hy'
    by_cases heq : o' = o
    · subst heq
      rw [update_self] at hy'
      exact .inl ⟨rfl, (Option.some.inj hy').symm⟩
    · rw [update_of_ne heq] at hy'
      exact .inr ⟨heq, hy'⟩
  refine ⟨⟨?_, ?_, ?_, ?_, ?_⟩, ?_⟩
  · rw [List.map_append]
    exact h.once.append (List.nodup_singleton u) (by simpa using hu)
  · rw [List.map_append]
    exact h.single.append (List.nodup_singleton o) (by simpa using ho)
  · intro u' e' he' huntaken hmem
    rcases hentry u' e' he' with ⟨rfl, rfl⟩ | ⟨hne, hold⟩
    · cases huntaken
    · have hcommitted : u' ∈ commits.map Prod.fst := by simpa [hne] using hmem
      exact h.untaken u' e' hold huntaken hcommitted
  · intro o' y' hy'
    rcases hreversal o' y' hy' with ⟨rfl, rfl⟩ | ⟨-, hold⟩
    · exact hconfirmation
    · exact h.unconfirmed o' y' hold
  · intro o' y' hy' hexec'
    rcases hreversal o' y' hy' with ⟨rfl, rfl⟩ | ⟨-, hold⟩
    · exact ⟨howned, u, hundo, by simp⟩
    · obtain ⟨hfree, u', hu', hmem⟩ := h.committed o' y' hold hexec'
      exact ⟨hfree, u', hu', List.mem_append_left _ hmem⟩
  · intro hown u' o' e' y' hmem he' hy'
    rcases List.mem_append.mp hmem with hcommitted | hnew
    · have hneu : u' ≠ u := by
        rintro rfl
        exact hu (List.mem_map_of_mem hcommitted)
      have hneo : o' ≠ o := by
        rintro rfl
        exact ho (List.mem_map_of_mem hcommitted)
      have holde := (hentry u' e' he').resolve_left fun heq => hneu heq.1
      have holdy := (hreversal o' y' hy').resolve_left fun heq => hneo heq.1
      exact h.agree hown u' o' e' y' hcommitted holde.2 holdy.2
    · obtain ⟨rfl, rfl⟩ : u' = u ∧ o' = o := by simpa using hnew
      obtain ⟨-, rfl⟩ := (hentry u' e' he').resolve_right fun heq => heq.1 rfl
      obtain ⟨-, rfl⟩ := (hreversal o' y' hy').resolve_right fun heq => heq.1 rfl
      exact ⟨hscope hown, .inl ⟨rfl, hexec⟩⟩

variable {r : ResultId}

theorem settlePair (h : Accord own commits v) (hmem : (u, o) ∈ commits) (r : ResultId)
    (kind : ActionResultKind) :
    Accord own commits ((v.settleReversal o kind.toOperation r).settleEntry u kind.toUndo r) where
  toTaken := (h.toTaken.settleReversal r kind.toOperation_ne_executing).settleEntry r
    kind.toUndo_untaken
  agree := by
    intro hown u' o' e' y' hmem' he' hy'
    obtain ⟨e, he, hescope, hecase⟩ := entry_settleEntry he'
    obtain ⟨y, hy, hyscope, -, hycase⟩ := reversal_settleReversal hy'
    obtain ⟨hscope, hagrees⟩ := h.agree hown u' o' e y hmem' he hy
    refine ⟨by rw [hescope, hyscope, hscope], ?_⟩
    rcases hecase with ⟨rfl, hestatus, heresult⟩ | ⟨hne, rfl⟩
    · rcases hycase with ⟨-, hystatus, hyresult⟩ | ⟨hne, -⟩
      · exact .inr ⟨kind, hestatus, hystatus, by rw [heresult, hyresult]⟩
      · exact absurd (h.operation_unique hmem hmem') hne
    · rcases hycase with ⟨rfl, -, -⟩ | ⟨-, rfl⟩
      · exact absurd (h.entry_unique hmem hmem') hne
      · exact hagrees

theorem settleReversal (h : Accord own commits v) {status : OperationRunStatus} (r : ResultId)
    (hstatus : status ≠ .executing)
    (hgone : own → ∀ u e y, (u, o) ∈ commits → v.entry u = some e → v.reversal o ≠ some y) :
    Accord own commits (v.settleReversal o status r) where
  toTaken := h.toTaken.settleReversal r hstatus
  agree := by
    intro hown u o' e y' hmem he hy'
    obtain ⟨y, hy, -, -, ⟨rfl, -, -⟩ | ⟨-, rfl⟩⟩ := reversal_settleReversal hy'
    · exact absurd hy (hgone hown u e y hmem he)
    · exact h.agree hown u o' e y' hmem he hy

theorem settleEntry (h : Accord own commits v) {status : UndoStatus} (r : ResultId)
    (hstatus : status.untaken = false)
    (hgone : own → ∀ o e y, (u, o) ∈ commits → v.entry u = some e → v.reversal o ≠ some y) :
    Accord own commits (v.settleEntry u status r) where
  toTaken := h.toTaken.settleEntry r hstatus
  agree := by
    intro hown u' o e' y hmem he' hy
    obtain ⟨e, he, -, ⟨rfl, -, -⟩ | ⟨-, rfl⟩⟩ := entry_settleEntry he'
    · exact absurd hy (hgone hown o e y hmem he)
    · exact h.agree hown u' o e' y hmem he hy

theorem record (h : Accord own commits v)
    (hidle : ∀ y, v.reversal o = some y → y.status ≠ .executing) :
    Accord own commits (v.record o) :=
  ⟨h.toTaken.record hidle, h.agree⟩

theorem unpaired (h : Accord own commits v') (hunpaired : Unpaired own commits v)
    (hdrains : v.Drains v') : Unpaired own commits v' := by
  intro hown u o e y hmem he hy hexec
  have hboth := (h.agree hown u o e y hmem he hy).2.executing_iff.mpr hexec
  exact hunpaired hown u o e y hmem (hdrains.live he (.inl hboth))
    (hdrains.reversal o y hy hexec) hexec

end Accord

section Recovery

variable {kind : ActionResultKind} {r : ResultId} {status : UndoStatus}

/-- An operation in flight is settled with a result of its own; another one is left as it
is, though it may be given a result. -/
inductive RecoversReversal (v : UndoPairs) (o : OperationId) (kind : ActionResultKind)
    (r : ResultId) : UndoPairs → Prop
  | settled {y : UndoReversal} (hy : v.reversal o = some y) (hexec : y.status = .executing) :
      RecoversReversal v o kind r ((v.settleReversal o kind.toOperation r).record o)
  | recorded (hidle : ∀ y, v.reversal o = some y → y.status ≠ .executing) :
      RecoversReversal v o kind r (v.record o)
  | idle (hidle : ∀ y, v.reversal o = some y → y.status ≠ .executing) :
      RecoversReversal v o kind r v

inductive RecoversEntry (v : UndoPairs) (u : UndoId) (status : UndoStatus) (r : ResultId) :
    UndoPairs → Prop
  | settled {e : UndoEntry} (he : v.entry u = some e) (hexec : e.status = .executing) :
      RecoversEntry v u status r (v.settleEntry u status r)
  | idle (hidle : ∀ e, v.entry u = some e → e.status ≠ .executing) : RecoversEntry v u status r v

theorem RecoversReversal.drains (h : RecoversReversal v o kind r v') : v.Drains v' := by
  cases h with
  | settled hy hexec =>
    exact (drains_settleReversal kind.toOperation_ne_executing).trans drains_record
  | recorded hidle => exact drains_record
  | idle hidle => exact Drains.refl v

theorem RecoversReversal.idle_of (h : RecoversReversal v o kind r v') :
    ∀ y, v'.reversal o = some y → y.status ≠ .executing := by
  cases h with
  | settled hy hexec =>
    intro y' hy'
    obtain ⟨-, -, -, -, ⟨-, hstatus, -⟩ | ⟨hne, -⟩⟩ := reversal_settleReversal hy'
    · rw [hstatus]
      exact kind.toOperation_ne_executing
    · exact absurd rfl hne
  | recorded hidle => exact hidle
  | idle hidle => exact hidle

theorem RecoversEntry.drains (h : RecoversEntry v u status r v') (hexec : status ≠ .executing)
    (hundone : status ≠ .undone) : v.Drains v' := by
  cases h with
  | settled he hlive => exact drains_settleEntry hexec hundone
  | idle hidle => exact Drains.refl v

namespace Accord

/-- An operation whose entry is not in flight is recovered alone. -/
theorem recoverReversal (h : Accord own commits v) (ho : RecoversReversal v o kind r v')
    (hunpaired : own → ∀ u e y, (u, o) ∈ commits → v.entry u = some e → v.reversal o = some y →
      y.status ≠ .executing) : Accord own commits v' := by
  have hidle := ho.idle_of
  cases ho with
  | settled hy hexec =>
    refine (h.settleReversal r kind.toOperation_ne_executing ?_).record hidle
    intro hown u e y' hmem he hy'
    obtain rfl : y' = _ := Option.some.inj (hy'.symm.trans hy)
    exact hunpaired hown u e y' hmem he hy hexec
  | recorded hnone => exact h.record hnone
  | idle hnone => exact h

theorem recoverEntry (h : Accord own commits v) (hu : RecoversEntry v u status r v')
    (hstatus : status.untaken = false)
    (hunpaired : own → ∀ o e y, (u, o) ∈ commits → v.entry u = some e → v.reversal o = some y →
      y.status ≠ .executing) : Accord own commits v' := by
  cases hu with
  | settled he hexec =>
    refine h.settleEntry r hstatus ?_
    intro hown o e' y hmem he' hy
    obtain rfl : e' = _ := Option.some.inj (he'.symm.trans he)
    exact hunpaired hown o e' y hmem he hy
      ((h.agree hown u o e' y hmem he hy).2.executing_iff.mp hexec)
  | idle hidle => exact h

/-- What is left of a commit in flight is settled with one result. -/
theorem recoverPair (h : Accord own commits v) (hmem : (u, o) ∈ commits)
    (ho : RecoversReversal v o kind r v') (hu : RecoversEntry v' u kind.toUndo r v'') :
    Accord own commits v'' := by
  have hidle := ho.idle_of
  have halone : Accord own commits v' → Accord own commits v'' := by
    intro h'
    refine h'.recoverEntry hu kind.toUndo_untaken ?_
    intro hown o' e y hmem' he hy
    obtain rfl := h.operation_unique hmem hmem'
    exact hidle y hy
  cases ho with
  | settled hy hexec =>
    cases hu with
    | settled he hlive => exact (h.settlePair hmem r kind).record fun y' hy' => hidle y' hy'
    | idle hgone =>
      refine (h.settleReversal r kind.toOperation_ne_executing ?_).record hidle
      intro hown u' e y' hmem' he hy'
      obtain rfl := h.entry_unique hmem hmem'
      obtain rfl : y' = _ := Option.some.inj (hy'.symm.trans hy)
      exact hgone e he ((h.agree hown _ o e y' hmem he hy).2.executing_iff.mpr hexec)
  | recorded hnone => exact halone (h.record hnone)
  | idle hnone => exact halone h

end Accord

end Recovery

end UndoPairs

end ClockifyAssistant
