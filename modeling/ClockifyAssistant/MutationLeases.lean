import ClockifyAssistant.Lib.History
import ClockifyAssistant.LeaseInvariant

/-!
The law of the coordinator over its runs: what a grant shows, what a resolved
drain shows, what an open deletion refuses, and in which order the lifecycle
callbacks of a workspace start.
-/
namespace ClockifyAssistant

open Lib

namespace MutationCoordinator

/-- The part of the coordinator that only the lifecycle callbacks use. -/
def lifecyclePart (c : MutationCoordinator) :
    PromiseChain WorkspaceId × (Nat → Option Int) × (WorkspaceId → Option Int) ×
      List LifecycleEntry :=
  (c.chain, c.ordering, c.latestLifecycleSequences, c.log)

/-- An entry whose operation ran, carrying a sequence above `sequence`. -/
def Outrun (sequence : Int) (before : List LifecycleEntry) (workspaceId : WorkspaceId) : Prop :=
  ∃ p ∈ before, p.workspaceId = workspaceId ∧ p.stale = false ∧
    ∃ later, p.sequence = some later ∧ sequence < later

/-- Exactly the callbacks registered earlier for the workspace have started before it. -/
def InTurn (chain : PromiseChain WorkspaceId) (before : List LifecycleEntry)
    (entry : LifecycleEntry) : Prop :=
  ∀ j, (∃ p ∈ before, p.workspaceId = entry.workspaceId ∧ p.callback = j) ↔
    chain.filed j entry.workspaceId ∧ j < entry.callback

/-- A callback is answered as stale when a later arrival has run, and only then. -/
def SkippedWhenOutrun (before : List LifecycleEntry) (entry : LifecycleEntry) : Prop :=
  entry.stale = true ↔
    ∃ sequence, entry.sequence = some sequence ∧ Outrun sequence before entry.workspaceId

structure Serial (c : MutationCoordinator) : Prop where
  ordered : c.chain.Ordered
  sequence_pos : ∀ k sequence, c.ordering k = some sequence → 1 ≤ sequence
  logged : ∀ k w, c.chain.filed k w → c.chain.phase k ≠ .waiting →
    ∃ e ∈ c.log, e.workspaceId = w ∧ e.callback = k
  entry_filed : ∀ e ∈ c.log, c.chain.filed e.callback e.workspaceId ∧
    c.chain.phase e.callback ≠ .waiting
  latest_none : ∀ w, c.latestLifecycleSequences w = none →
    ∀ e ∈ c.log, e.workspaceId = w → e.stale = false → e.sequence = none
  latest_some : ∀ w latest, c.latestLifecycleSequences w = some latest →
    (∃ e ∈ c.log, e.workspaceId = w ∧ e.stale = false ∧ e.sequence = some latest) ∧
    ∀ e ∈ c.log, e.workspaceId = w → e.stale = false →
      ∀ sequence, e.sequence = some sequence → sequence ≤ latest
  in_turn : Always (InTurn c.chain) c.log
  skipped : Always SkippedWhenOutrun c.log

namespace Serial

variable {c : MutationCoordinator}

theorem initial : createWorkspaceMutationCoordinator.Serial := by
  refine ⟨PromiseChain.Ordered.empty, ?_, ?_, ?_, ?_, ?_, Always.nil, Always.nil⟩ <;>
    simp [createWorkspaceMutationCoordinator, PromiseChain.empty]

theorem congr {c' : MutationCoordinator} (h : c.Serial)
    (hsame : c'.lifecyclePart = c.lifecyclePart) : c'.Serial := by
  simp only [lifecyclePart, Prod.mk.injEq] at hsame
  obtain ⟨hchain, hordering, hlatest, hlog⟩ := hsame
  constructor
  · rw [hchain]; exact h.ordered
  · rw [hordering]; exact h.sequence_pos
  · rw [hchain, hlog]; exact h.logged
  · rw [hchain, hlog]; exact h.entry_filed
  · rw [hlatest, hlog]; exact h.latest_none
  · rw [hlatest, hlog]; exact h.latest_some
  · rw [hchain, hlog]; exact h.in_turn
  · rw [hlog]; exact h.skipped

theorem advance (h : c.Serial) {chain : PromiseChain WorkspaceId} (hordered : chain.Ordered)
    (hlinks : chain.links = c.chain.links)
    (hphase : ∀ k, chain.phase k = .waiting ↔ c.chain.phase k = .waiting) :
    ({ c with chain := chain }).Serial := by
  have hfiled : ∀ k w, chain.filed k w ↔ c.chain.filed k w := by
    intro k w
    exact PromiseChain.filed_congr hlinks
  refine ⟨hordered, h.sequence_pos, ?_, ?_, h.latest_none, h.latest_some, ?_, h.skipped⟩
  · intro k w hk hstarted
    exact h.logged k w ((hfiled k w).mp hk) (fun hw => hstarted ((hphase k).mpr hw))
  · intro e he
    obtain ⟨hk, hstarted⟩ := h.entry_filed e he
    exact ⟨(hfiled _ _).mpr hk, fun hw => hstarted ((hphase _).mp hw)⟩
  · refine h.in_turn.mono ?_
    intro before entry hturn j
    show _ ↔ chain.filed j entry.workspaceId ∧ j < entry.callback
    rw [hfiled]
    exact hturn j

theorem runLifecycle (h : c.Serial) (w : WorkspaceId) (ordering : Option Int) :
    (c.runLifecycle w ordering).2.Serial := by
  unfold MutationCoordinator.runLifecycle
  split
  · exact h
  · rename_i hvalid
    have hfiled : ∀ k w', (c.chain.register w).filed k w' → k ≠ c.chain.next →
        c.chain.filed k w' := by
      intro k w' hk hne
      obtain ⟨heq, -⟩ | ⟨-, hk⟩ := PromiseChain.filed_register.mp hk
      · exact absurd heq hne
      · exact hk
    have hold : ∀ k w', c.chain.filed k w' → (c.chain.register w).filed k w' := by
      intro k w' hk
      have hlt := h.ordered.fresh k w' hk
      exact PromiseChain.filed_register.mpr (.inr ⟨Nat.ne_of_lt hlt, hk⟩)
    have hnew : c.chain.phase c.chain.next = .waiting := by
      refine (h.ordered.unfiled c.chain.next ?_).1
      cases hlink : c.chain.links c.chain.next with
      | none => rfl
      | some link =>
        have := h.ordered.fresh _ _ ⟨link, hlink, rfl⟩
        omega
    refine ⟨h.ordered.register w, ?_, ?_, ?_, h.latest_none, h.latest_some, ?_, h.skipped⟩
    · intro k sequence hk
      by_cases heq : k = c.chain.next
      · have hordering : ordering = some sequence := by
          simpa [heq] using hk
        simp only [hordering, Option.any_some, Bool.or_eq_true, decide_eq_true_eq, not_or] at hvalid
        omega
      · refine h.sequence_pos k sequence ?_
        simpa [Function.update_of_ne heq] using hk
    · intro k w' hk hstarted
      have hne : k ≠ c.chain.next := by
        intro heq
        rw [heq] at hstarted
        exact hstarted hnew
      exact h.logged k w' (hfiled k w' hk hne) hstarted
    · intro e he
      obtain ⟨hk, hstarted⟩ := h.entry_filed e he
      exact ⟨hold _ _ hk, hstarted⟩
    · intro before entry after hsplit j
      have hentry : entry ∈ c.log := by
        rw [show c.log = _ from hsplit]
        simp
      have hlt := h.ordered.fresh _ _ (h.entry_filed entry hentry).1
      rw [h.in_turn before entry after hsplit j]
      constructor
      · intro hj
        exact ⟨hold _ _ hj.1, hj.2⟩
      · intro hj
        exact ⟨hfiled _ _ hj.1 (by omega), hj.2⟩

/-- The latest sequence stands for the sequences of all operations that have run. -/
theorem superseded_iff (h : c.Serial) {w : WorkspaceId} {sequence : Int} (hpos : 1 ≤ sequence) :
    c.superseded w sequence = true ↔ Outrun sequence c.log w := by
  unfold MutationCoordinator.superseded
  cases hlatest : c.latestLifecycleSequences w with
  | none =>
    simp only [Option.getD_none, decide_eq_true_eq]
    constructor
    · intro hlt
      omega
    · intro hrun
      obtain ⟨p, hp, hw, hran, later, hlater, -⟩ := hrun
      rw [h.latest_none w hlatest p hp hw hran] at hlater
      cases hlater
  | some latest =>
    obtain ⟨⟨p, hp, hw, hran, hsequence⟩, hmax⟩ := h.latest_some w latest hlatest
    simp only [Option.getD_some, decide_eq_true_eq]
    constructor
    · intro hlt
      exact ⟨p, hp, hw, hran, latest, hsequence, hlt⟩
    · intro hrun
      obtain ⟨q, hq, hqw, hqran, later, hlater, hlt⟩ := hrun
      have := hmax q hq hqw hqran later hlater
      omega

/-- The table of latest sequences after an entry that leaves it alone. -/
theorem latest_quiet (h : c.Serial) {entry : LifecycleEntry}
    (hquiet : entry.stale = true ∨ entry.sequence = none) :
    (∀ w, c.latestLifecycleSequences w = none → ∀ e ∈ c.log ++ [entry], e.workspaceId = w →
      e.stale = false → e.sequence = none) ∧ (∀ w m, c.latestLifecycleSequences w = some m →
      (∃ e ∈ c.log ++ [entry], e.workspaceId = w ∧ e.stale = false ∧ e.sequence = some m) ∧
      ∀ e ∈ c.log ++ [entry], e.workspaceId = w → e.stale = false →
        ∀ q, e.sequence = some q → q ≤ m) := by
  constructor
  · intro w hnone e he hew hran
    rcases List.mem_append.mp he with hold | hnew
    · exact h.latest_none w hnone e hold hew hran
    · rw [List.mem_singleton.mp hnew] at hran ⊢
      rcases hquiet with hskip | hquiet
      · rw [hskip] at hran
        cases hran
      · exact hquiet
  · intro w m hm
    obtain ⟨⟨p, hp, hrest⟩, hmax⟩ := h.latest_some w m hm
    refine ⟨⟨p, List.mem_append_left _ hp, hrest⟩, ?_⟩
    intro e he hew hran q hq
    rcases List.mem_append.mp he with hold | hnew
    · exact hmax e hold hew hran q hq
    · rw [List.mem_singleton.mp hnew] at hran hq
      rcases hquiet with hskip | hquiet
      · rw [hskip] at hran
        cases hran
      · rw [hquiet] at hq
        cases hq

/-- The table after an operation has started with a sequence that is not superseded. -/
theorem latest_raised (h : c.Serial) {entry : LifecycleEntry} {w : WorkspaceId} {q : Int}
    (hw : entry.workspaceId = w) (hran : entry.stale = false) (hsequence : entry.sequence = some q)
    (hpos : 1 ≤ q) (hnot : c.superseded w q = false) :
    (∀ w', Function.update c.latestLifecycleSequences w (some q) w' = none →
      ∀ e ∈ c.log ++ [entry], e.workspaceId = w' → e.stale = false → e.sequence = none) ∧
    (∀ w' m, Function.update c.latestLifecycleSequences w (some q) w' = some m →
      (∃ e ∈ c.log ++ [entry], e.workspaceId = w' ∧ e.stale = false ∧ e.sequence = some m) ∧
      ∀ e ∈ c.log ++ [entry], e.workspaceId = w' → e.stale = false →
        ∀ q', e.sequence = some q' → q' ≤ m) := by
  constructor
  · intro w' hnone e he hew hrane
    have hne : w' ≠ w := by
      intro heq
      simp [heq] at hnone
    rcases List.mem_append.mp he with hold | hnew
    · refine h.latest_none w' ?_ e hold hew hrane
      rwa [Function.update_of_ne hne] at hnone
    · rw [List.mem_singleton.mp hnew, hw] at hew
      exact absurd hew.symm hne
  · intro w' m hm
    by_cases heq : w' = w
    · have hqm : q = m := by simpa [heq] using hm
      refine ⟨⟨entry, by simp, by rw [hw, heq], hran, by rw [hsequence, hqm]⟩, ?_⟩
      intro e he hew hrane p hp
      rcases List.mem_append.mp he with hold | hnew
      · -- an operation with a higher sequence would have made this one stale
        by_contra hgt
        have hout : Outrun q c.log w :=
          ⟨e, hold, by rw [hew, heq], hrane, p, hp, by omega⟩
        have := (h.superseded_iff hpos).mpr hout
        rw [hnot] at this
        cases this
      · rw [List.mem_singleton.mp hnew, hsequence] at hp
        have := Option.some.inj hp
        omega
    · have hm' : c.latestLifecycleSequences w' = some m := by
        rwa [Function.update_of_ne heq] at hm
      obtain ⟨⟨p, hp, hrest⟩, hmax⟩ := h.latest_some w' m hm'
      refine ⟨⟨p, List.mem_append_left _ hp, hrest⟩, ?_⟩
      intro e he hew hrane q' hq'
      rcases List.mem_append.mp he with hold | hnew
      · exact hmax e hold hew hrane q' hq'
      · rw [List.mem_singleton.mp hnew, hw] at hew
        exact absurd hew.symm heq

theorem latestAfter_log (h : c.Serial) {entry : LifecycleEntry}
    (hpos : ∀ q, entry.sequence = some q → 1 ≤ q)
    (hstale : entry.stale = entry.sequence.any (c.superseded entry.workspaceId)) :
    (∀ w, c.latestAfter entry.workspaceId entry.sequence w = none →
      ∀ e ∈ c.log ++ [entry], e.workspaceId = w → e.stale = false → e.sequence = none) ∧
    (∀ w m, c.latestAfter entry.workspaceId entry.sequence w = some m →
      (∃ e ∈ c.log ++ [entry], e.workspaceId = w ∧ e.stale = false ∧ e.sequence = some m) ∧
      ∀ e ∈ c.log ++ [entry], e.workspaceId = w → e.stale = false →
        ∀ q, e.sequence = some q → q ≤ m) := by
  cases hsequence : entry.sequence with
  | none => exact h.latest_quiet (.inr hsequence)
  | some q =>
    rw [hsequence, Option.any_some] at hstale
    cases hsup : c.superseded entry.workspaceId q with
    | true =>
      have htable : c.latestAfter entry.workspaceId (some q) = c.latestLifecycleSequences := by
        simp [MutationCoordinator.latestAfter, hsup]
      rw [hsup] at hstale
      rw [htable]
      exact h.latest_quiet (.inl hstale)
    | false =>
      have htable : c.latestAfter entry.workspaceId (some q) =
          Function.update c.latestLifecycleSequences entry.workspaceId (some q) := by
        simp [MutationCoordinator.latestAfter, hsup]
      rw [hsup] at hstale
      rw [htable]
      exact h.latest_raised rfl hstale hsequence (hpos q hsequence) hsup

theorem startLifecycle (h : c.Serial) (k : Nat) : (c.startLifecycle k).Serial := by
  unfold MutationCoordinator.startLifecycle
  split
  · rename_i link hlink
    split
    · rename_i hstartable
      obtain ⟨hwaiting, hready⟩ : c.chain.phase k = .waiting ∧ c.chain.ready k = true := by
        simpa [PromiseChain.startable] using hstartable
      have hfiledk : c.chain.filed k link.key := ⟨link, hlink, rfl⟩
      have hfiled : ∀ j w, (c.chain.start k).filed j w ↔ c.chain.filed j w := by
        intro j w
        exact PromiseChain.filed_congr (PromiseChain.start_links _ _)
      have hphase := PromiseChain.start_phase c.chain k hstartable
      have hpos := h.sequence_pos k
      obtain ⟨hnone, hsome⟩ := @latestAfter_log c h
        ⟨link.key, k, c.ordering k, (c.ordering k).any (c.superseded link.key)⟩ hpos rfl
      refine ⟨h.ordered.start k, h.sequence_pos, ?_, ?_, hnone, hsome, ?_, ?_⟩
      · intro j w hj hstarted
        by_cases heq : j = k
        · rw [heq] at hj ⊢
          have hw : link.key = w := hfiledk.key_unique ((hfiled k w).mp hj)
          exact ⟨_, List.mem_append_right _ (List.mem_singleton.mpr rfl), hw, rfl⟩
        · have hstarted' : c.chain.phase j ≠ .waiting := by
            have hkept := hphase j
            rw [if_neg heq] at hkept
            rw [← hkept]
            exact hstarted
          obtain ⟨e, he, hrest⟩ := h.logged j w ((hfiled j w).mp hj) hstarted'
          exact ⟨e, List.mem_append_left _ he, hrest⟩
      · intro e he
        rcases List.mem_append.mp he with hold | hnew
        · obtain ⟨hefiled, hestarted⟩ := h.entry_filed e hold
          refine ⟨(hfiled _ _).mpr hefiled, ?_⟩
          show (c.chain.start k).phase e.callback ≠ .waiting
          rw [hphase]
          split
          · simp
          · exact hestarted
        · rw [List.mem_singleton.mp hnew]
          refine ⟨(hfiled _ _).mpr hfiledk, ?_⟩
          show (c.chain.start k).phase k ≠ .waiting
          rw [hphase, if_pos rfl]
          simp
      · refine (h.in_turn.mono ?_).concat ?_
        · intro before entry hturn j
          show _ ↔ (c.chain.start k).filed j _ ∧ _
          rw [hfiled]
          exact hturn j
        · intro j
          show (∃ p ∈ c.log, p.workspaceId = link.key ∧ p.callback = j) ↔
            (c.chain.start k).filed j link.key ∧ j < k
          rw [hfiled]
          constructor
          · intro hlogged
            obtain ⟨p, hp, hpw, hpj⟩ := hlogged
            obtain ⟨hpfiled, hpstarted⟩ := h.entry_filed p hp
            rw [hpw, hpj] at hpfiled
            rw [hpj] at hpstarted
            refine ⟨hpfiled, ?_⟩
            by_contra hge
            by_cases heq : j = k
            · rw [heq] at hpstarted
              exact hpstarted hwaiting
            · -- a later callback that has started finds this one released
              have := h.ordered.released_of_started hfiledk hpfiled hpstarted (by omega)
              rw [hwaiting] at this
              cases this
          · intro hj
            obtain ⟨hjfiled, hlt⟩ := hj
            have hresolved := h.ordered.settledBefore_of_ready hfiledk hready j hjfiled hlt
            have hreleased := h.ordered.released j link.key hjfiled hresolved
            obtain ⟨e, he, hew, hej⟩ := h.logged j link.key hjfiled (by simp [hreleased])
            exact ⟨e, he, hew, hej⟩
      · refine h.skipped.concat ?_
        show (c.ordering k).any (c.superseded link.key) = true ↔ _
        cases hordering : c.ordering k with
        | none => simp
        | some sequence =>
          simp only [Option.any_some, Option.some.injEq, exists_eq_left']
          exact h.superseded_iff (hpos sequence hordering)
    · exact h
  · exact h

/-- Installing a state, blocking and draining leave the lifecycle part alone. -/
theorem lifecyclePart_block (c : MutationCoordinator) (w : WorkspaceId) :
    (c.block w).lifecyclePart = c.lifecyclePart := by
  unfold MutationCoordinator.block
  split <;> rfl

theorem lifecyclePart_seed (c : MutationCoordinator) (w : WorkspaceId) (generation : Int) :
    (c.seed w generation).2.lifecyclePart = c.lifecyclePart := by
  unfold MutationCoordinator.seed
  split <;> rfl

theorem activate (h : c.Serial) (w : WorkspaceId) (generation : Int) :
    (c.activate w generation).2.Serial := by
  refine h.congr ?_
  unfold MutationCoordinator.activate
  split
  · rfl
  · split
    · rfl
    · split
      · rfl
      · simp only
        split
        · rfl
        · split
          · split <;> rfl
          · split <;> rfl

theorem observe (h : c.Serial) (w : WorkspaceId) (generation : Int) :
    (c.observe w generation).2.Serial := by
  refine h.congr ?_
  rw [Settling.observe_eq]
  split <;> exact lifecyclePart_seed c w generation

theorem acquire (h : c.Serial) (w : WorkspaceId) (generation : Int) :
    (c.acquire w generation).2.Serial := by
  refine h.congr ?_
  rw [Settling.acquire_eq]
  split <;> exact lifecyclePart_seed c w generation

theorem release (h : c.Serial) (lease : Nat) : (c.release lease).Serial := by
  refine h.congr ?_
  unfold MutationCoordinator.release
  split
  · rfl
  · split
    · rfl
    · unfold MutationCoordinator.unretire
      split <;> rfl

theorem beginDeletion (h : c.Serial) (w : WorkspaceId) : (c.beginDeletion w).2.Serial := by
  refine h.congr ?_
  unfold MutationCoordinator.beginDeletion
  split
  · rfl
  · exact lifecyclePart_block c w

theorem finish (h : c.Serial) (d : Nat) : (c.finish d).Serial := by
  refine h.congr ?_
  unfold MutationCoordinator.finish
  split <;> rfl

theorem complete (h : c.Serial) (d : Nat) : (c.complete d).Serial := by
  refine h.congr ?_
  unfold MutationCoordinator.complete
  split
  · split <;> rfl
  · rfl

theorem step (h : c.Serial) (s : CoordinatorStep) : (c.step s).Serial := by
  cases s with
  | activate w generation => exact h.activate w generation
  | observe w generation => exact h.observe w generation
  | acquire w generation => exact h.acquire w generation
  | release lease => exact h.release lease
  | block w => exact h.congr (lifecyclePart_block c w)
  | blockAndDrain w => exact h.congr (lifecyclePart_block c w)
  | beginDeletion w => exact h.beginDeletion w
  | finish d => exact h.finish d
  | complete d => exact h.complete d
  | runLifecycle w ordering => exact h.runLifecycle w ordering
  | startLifecycle k => exact h.startLifecycle k
  | settleLifecycle k =>
    exact h.advance (h.ordered.settle k) (PromiseChain.settle_links _ _)
      (PromiseChain.settle_waiting _ _)
  | releaseLifecycle k =>
    exact h.advance (h.ordered.release k) (PromiseChain.release_links _ _)
      (PromiseChain.release_waiting _ _)
  | resolveTail k =>
    refine h.advance (h.ordered.resolve k) (PromiseChain.resolve_links _ _) ?_
    intro j
    rw [PromiseChain.resolve_phase]
  | forgetTail k =>
    refine h.advance (h.ordered.forget k) (PromiseChain.forget_links _ _) ?_
    intro j
    rw [PromiseChain.forget_phase]

theorem run (h : c.Serial) (steps : List CoordinatorStep) : (c.run steps).Serial := by
  induction steps generalizing c with
  | nil => exact h
  | cons s rest ih => exact ih (h.step s)

end Serial

/-- What later steps keep: leases given back, drains, and that a deletion has begun. -/
structure Later (c c' : MutationCoordinator) : Prop where
  handles : ∀ lease handle, c.handles lease = some handle →
    ∃ handle', c'.handles lease = some handle' ∧ (handle.released = true → handle'.released = true)
  drains : ∀ d drain, c.drains d = some drain → c'.drains d = some drain
  begun : ∀ d, c.deletionPhase d ≠ .absent → c'.deletionPhase d ≠ .absent

namespace Later

variable {c c' c'' : MutationCoordinator}

theorem of_eq (hhandles : c'.handles = c.handles) (hdrains : c'.drains = c.drains)
    (hphase : c'.deletionPhase = c.deletionPhase) : Later c c' := by
  constructor
  · intro lease handle hhandle
    exact ⟨handle, by rw [hhandles, hhandle], id⟩
  · rw [hdrains]
    exact fun _ _ => id
  · rw [hphase]
    exact fun _ => id

theorem refl (c : MutationCoordinator) : Later c c := of_eq rfl rfl rfl

theorem trans (h : Later c c') (h' : Later c' c'') : Later c c'' := by
  refine ⟨?_, fun d drain hd => h'.drains d drain (h.drains d drain hd),
    fun d hd => h'.begun d (h.begun d hd)⟩
  intro lease handle hhandle
  obtain ⟨handle', hhandle', hkept⟩ := h.handles lease handle hhandle
  obtain ⟨handle'', hhandle'', hkept'⟩ := h'.handles lease handle' hhandle'
  exact ⟨handle'', hhandle'', fun hreleased => hkept' (hkept hreleased)⟩

theorem block (c : MutationCoordinator) (w : WorkspaceId) : Later c (c.block w) := by
  unfold MutationCoordinator.block
  split <;> exact of_eq rfl rfl rfl

theorem activate (c : MutationCoordinator) (w : WorkspaceId) (generation : Int) :
    Later c (c.activate w generation).2 := by
  unfold MutationCoordinator.activate
  split
  · exact refl c
  · split
    · exact refl c
    · split
      · exact of_eq rfl rfl rfl
      · simp only
        split
        · exact refl c
        · split
          · split <;> exact refl c
          · split <;> exact of_eq rfl rfl rfl

theorem seed (c : MutationCoordinator) (w : WorkspaceId) (generation : Int) :
    Later c (c.seed w generation).2 := by
  unfold MutationCoordinator.seed
  split <;> exact of_eq rfl rfl rfl

theorem observe (c : MutationCoordinator) (w : WorkspaceId) (generation : Int) :
    Later c (c.observe w generation).2 := by
  rw [Settling.observe_eq]
  split <;> exact seed c w generation

theorem grantLease (h : c.Settling) (w : WorkspaceId) (id : Nat) : Later c (c.grantLease w id) := by
  refine ⟨?_, fun _ _ hd => hd, fun _ hd => hd⟩
  intro lease handle hhandle
  obtain ⟨hlt, -⟩ := h.handle_filed lease handle hhandle
  refine ⟨handle, ?_, fun hreleased => hreleased⟩
  rw [← hhandle]
  exact Function.update_of_ne (Nat.ne_of_lt hlt) _ _

theorem acquire (h : c.Settling) (w : WorkspaceId) (generation : Int) :
    Later c (c.acquire w generation).2 := by
  rw [Settling.acquire_eq]
  split
  · exact seed c w generation
  · exact (seed c w generation).trans (grantLease (h.seed w generation) _ _)

theorem release (c : MutationCoordinator) (lease : Nat) : Later c (c.release lease) := by
  unfold MutationCoordinator.release
  cases hhandle : c.handles lease with
  | none => exact refl c
  | some handle =>
    simp only
    split
    · exact refl c
    · have hdrop : Later c (c.dropLease lease handle) := by
        refine ⟨?_, fun _ _ hd => hd, fun _ hd => hd⟩
        intro lease' handle' hhandle'
        by_cases heq : lease' = lease
        · refine ⟨{ handle with released := true }, ?_, fun _ => rfl⟩
          rw [heq]
          exact Function.update_self _ _ _
        · refine ⟨handle', ?_, fun hreleased => hreleased⟩
          rw [← hhandle']
          exact Function.update_of_ne heq _ _
      refine hdrop.trans ?_
      unfold MutationCoordinator.unretire
      split <;> exact of_eq rfl rfl rfl

theorem workspaceDrain (h : c.Settling) (w : WorkspaceId) : Later c (c.workspaceDrain w) := by
  refine ⟨fun lease handle hhandle => ⟨handle, hhandle, id⟩, ?_, fun _ hd => hd⟩
  intro d drain hd
  have hlt := h.drain_filed d drain hd
  rw [← hd]
  exact Function.update_of_ne (Nat.ne_of_lt hlt) _ _

theorem blockAndDrain (h : c.Settling) (w : WorkspaceId) : Later c (c.blockAndDrain w).2 :=
  (block c w).trans (workspaceDrain (h.block w) w)

theorem move (c : MutationCoordinator) (deletions : WorkspaceId → Option Nat) (d : Nat)
    {phase : DeletionPhase} (hphase : phase ≠ .absent) :
    Later c { c with
      deletions := deletions
      deletionPhase := Function.update c.deletionPhase d phase } := by
  refine ⟨fun lease handle hhandle => ⟨handle, hhandle, id⟩, fun _ _ hd => hd, ?_⟩
  intro d' hd'
  show Function.update c.deletionPhase d phase d' ≠ .absent
  by_cases heq : d' = d
  · rw [heq, Function.update_self]
    exact hphase
  · rw [Function.update_of_ne heq]
    exact hd'

theorem beginDeletion (h : c.Settling) (w : WorkspaceId) : Later c (c.beginDeletion w).2 := by
  unfold MutationCoordinator.beginDeletion
  split
  · exact refl c
  · exact (blockAndDrain h w).trans (move _ _ _ (by simp))

theorem finish (c : MutationCoordinator) (d : Nat) : Later c (c.finish d) := by
  unfold MutationCoordinator.finish
  split
  · exact move c _ _ (by simp)
  · exact refl c

theorem complete (c : MutationCoordinator) (d : Nat) : Later c (c.complete d) := by
  unfold MutationCoordinator.complete
  split
  · split
    · exact move c _ _ (by simp)
    · exact refl c
  · exact refl c

theorem runLifecycle (c : MutationCoordinator) (w : WorkspaceId) (ordering : Option Int) :
    Later c (c.runLifecycle w ordering).2 := by
  unfold MutationCoordinator.runLifecycle
  split <;> exact of_eq rfl rfl rfl

theorem startLifecycle (c : MutationCoordinator) (k : Nat) : Later c (c.startLifecycle k) := by
  unfold MutationCoordinator.startLifecycle
  split
  · split <;> exact of_eq rfl rfl rfl
  · exact refl c

theorem step (h : c.Settling) (s : CoordinatorStep) : Later c (c.step s) := by
  cases s with
  | activate w generation => exact activate c w generation
  | observe w generation => exact observe c w generation
  | acquire w generation => exact acquire h w generation
  | release lease => exact release c lease
  | block w => exact block c w
  | blockAndDrain w => exact blockAndDrain h w
  | beginDeletion w => exact beginDeletion h w
  | finish d => exact finish c d
  | complete d => exact complete c d
  | runLifecycle w ordering => exact runLifecycle c w ordering
  | startLifecycle k => exact startLifecycle c k
  | settleLifecycle k => exact of_eq rfl rfl rfl
  | releaseLifecycle k => exact of_eq rfl rfl rfl
  | resolveTail k => exact of_eq rfl rfl rfl
  | forgetTail k => exact of_eq rfl rfl rfl

theorem run (h : c.Settling) (steps : List CoordinatorStep) : Later c (c.run steps) := by
  induction steps generalizing c with
  | nil => exact refl c
  | cons s rest ih => exact (step h s).trans (ih (h.step s))

end Later

/-- No lease of the workspace from `generation` or an earlier one is out. -/
def SettledUpTo (c : MutationCoordinator) (workspaceId : WorkspaceId) (generation : Int) : Prop :=
  ∀ lease handle, c.handles lease = some handle → handle.workspaceId = workspaceId →
    (c.heap handle.state).generation ≤ generation → handle.released = true

/-- The workspace refuses every generation and is left as it is. -/
def Closed (c : MutationCoordinator) (workspaceId : WorkspaceId) : Prop :=
  ∀ generation, c.acquire workspaceId generation = (.error (.revoked workspaceId generation), c) ∧
    c.observe workspaceId generation = (.error (.revoked workspaceId generation), c) ∧
    ∃ error, c.activate workspaceId generation = (.error error, c)

namespace Settling

variable {c : MutationCoordinator}

theorem settledUpTo (h : c.Settling) {d : Nat} {drain : Drain} (hdrain : c.drains d = some drain)
    (hresolved : c.drained d = true) : c.SettledUpTo drain.workspaceId drain.generation := by
  intro lease handle hhandle hw hgen
  by_contra hout
  have hmem := h.counted lease handle hhandle (by simpa using hout)
  have hleases : (c.heap handle.state).leases ≠ [] := List.ne_nil_of_mem hmem
  obtain ⟨-, -, howner, -⟩ := h.handle_filed lease handle hhandle
  obtain ⟨hepoch, hwaits⟩ :=
    h.awaited d drain hdrain handle.state (by rw [howner, hw]) hgen hleases
  have hgone : d ∉ (c.heap handle.state).drainWaiters := by
    simp only [drained, hdrain, Option.any_some, List.all_eq_true, decide_eq_true_eq] at hresolved
    exact hresolved handle.state hepoch
  exact hgone hwaits

theorem closed (h : c.Settling) {w : WorkspaceId} {d : Nat} (hd : c.deletions w = some d) :
    c.Closed w := by
  obtain ⟨-, drain, hdrain, hw, id, hid, hgen⟩ := h.deletion_open w d hd
  obtain ⟨id', hid', -, hblocked⟩ := h.barred d drain hdrain
  rw [hw] at hid'
  obtain rfl : id = id' := Option.some.inj (hid.symm.trans hid')
  have hrefuses : ∀ generation, c.refuses id generation = true := by
    intro generation
    simp [refuses, hblocked hgen]
  have hseed : ∀ generation, c.seed w generation = (id, c) := by
    intro generation
    simp [MutationCoordinator.seed, hid]
  intro generation
  refine ⟨?_, ?_, ?_⟩
  · rw [acquire_eq, hseed, if_pos (hrefuses generation)]
  · rw [observe_eq, hseed, if_pos (hrefuses generation)]
  · unfold MutationCoordinator.activate
    by_cases hvalid : generation < 1 ∨ (maxSafeInteger : Int) < generation
    · exact ⟨_, if_pos hvalid⟩
    · rw [if_neg hvalid, if_pos (by simp [hd])]
      exact ⟨_, rfl⟩

theorem granted (h : c.Settling) {w : WorkspaceId} {generation : Int} {lease : Nat}
    (hok : (c.acquire w generation).1 = .ok lease) :
    ∃ id leaseId, (c.acquire w generation).2.states w = some id ∧
      ((c.acquire w generation).2.heap id).generation = generation ∧
      ((c.acquire w generation).2.heap id).blocked = false ∧
      (c.acquire w generation).2.deletions w = none ∧
      (c.acquire w generation).2.handles lease = some ⟨w, id, leaseId, false⟩ := by
  have hopen : (c.acquire w generation).2.deletions w = none := by
    cases hd : c.deletions w with
    | some d =>
      rw [((h.closed hd) generation).1] at hok
      cases hok
    | none =>
      have hseeded : (c.seed w generation).2.deletions w = none := by
        unfold MutationCoordinator.seed
        split <;> exact hd
      rw [acquire_eq]
      split <;> exact hseeded
  have hcurrent := seed_current c w generation
  rw [acquire_eq] at hok hopen ⊢
  split at hok
  · cases hok
  · rename_i hgranted
    obtain rfl : (c.seed w generation).2.nextHandle = lease := by
      simpa using hok
    rw [if_neg hgranted] at hopen ⊢
    simp only [refuses, Bool.or_eq_true, not_or, Bool.not_eq_true, bne_eq_false_iff_eq]
      at hgranted
    refine ⟨_, _, hcurrent, ?_, ?_, hopen, Function.update_self _ _ _⟩
    · rw [grantLease_heap]
      exact hgranted.2
    · rw [grantLease_heap]
      exact hgranted.1

end Settling

/-- What holds of a coordinator at every point of a run, and from there on. -/
structure LeaseLaw (c : MutationCoordinator) : Prop where
  granted : ∀ w generation lease, (c.acquire w generation).1 = .ok lease →
    ∃ id leaseId, (c.acquire w generation).2.states w = some id ∧
      ((c.acquire w generation).2.heap id).generation = generation ∧
      ((c.acquire w generation).2.heap id).blocked = false ∧
      (c.acquire w generation).2.deletions w = none ∧
      (c.acquire w generation).2.handles lease = some ⟨w, id, leaseId, false⟩
  drained : ∀ w steps, ((c.blockAndDrain w).2.run steps).drained (c.blockAndDrain w).1 = true →
    ((c.blockAndDrain w).2.run steps).SettledUpTo w ((c.blockAndDrain w).2.currentGeneration w)
  deletion_drained : ∀ w steps,
    ((c.beginDeletion w).2.run steps).drained (c.beginDeletion w).1.2 = true →
    ((c.beginDeletion w).2.run steps).SettledUpTo w ((c.beginDeletion w).2.currentGeneration w)
  closed : ∀ w steps,
    ((c.beginDeletion w).2.run steps).deletionPhase (c.beginDeletion w).1.2 ≠ .completed →
    ((c.beginDeletion w).2.run steps).Closed w
  no_lease_out : ∀ w d, c.deletions w = some d → c.drained d = true →
    ∀ lease handle, c.handles lease = some handle → handle.workspaceId = w → handle.released = true
  release_once : ∀ lease handle, c.handles lease = some handle → ∀ steps,
    ((c.release lease).run steps).release lease = (c.release lease).run steps
  one_at_a_time : ∀ w j k, c.chain.filed j w → c.chain.filed k w → j < k →
    c.chain.phase k ≠ .waiting → c.chain.phase j = .released
  in_turn : Always (InTurn c.chain) c.log
  skipped : Always SkippedWhenOutrun c.log

namespace Settling

variable {c : MutationCoordinator}

theorem beginDeletion_open (c : MutationCoordinator) (w : WorkspaceId) :
    (c.beginDeletion w).2.deletions w = some (c.beginDeletion w).1.2 := by
  unfold MutationCoordinator.beginDeletion
  cases hd : c.deletions w with
  | some existing => exact hd
  | none => exact Function.update_self _ _ _

/-- The drain of an open deletion began at the generation that is still current. -/
theorem deletion_generation (h : c.Settling) {w : WorkspaceId} {d : Nat}
    (hd : c.deletions w = some d) : ∃ drain, c.drains d = some drain ∧ drain.workspaceId = w ∧
      drain.generation = c.currentGeneration w := by
  obtain ⟨-, drain, hdrain, hw, id, hid, hgen⟩ := h.deletion_open w d hd
  refine ⟨drain, hdrain, hw, ?_⟩
  simp [currentGeneration, hid, hgen]

theorem drained_later (h : c.Settling) {d : Nat} {drain : Drain}
    (hdrain : c.drains d = some drain) (steps : List CoordinatorStep)
    (hresolved : (c.run steps).drained d = true) :
    (c.run steps).SettledUpTo drain.workspaceId drain.generation :=
  (h.run steps).settledUpTo ((Later.run h steps).drains d drain hdrain) hresolved

theorem blockAndDrain_drain (c : MutationCoordinator) (w : WorkspaceId) :
    (c.blockAndDrain w).2.drains (c.blockAndDrain w).1 =
      some ⟨w, (c.block w).workspaceEpochs w, (c.block w).currentGeneration w⟩ := by
  show Function.update (c.block w).drains (c.block w).nextDrain _ c.nextDrain = _
  rw [block_nextDrain, Function.update_self]

/-- The generations of the states stay what they were when a drain begins. -/
theorem currentGeneration_workspaceDrain (c : MutationCoordinator) (w : WorkspaceId) :
    (c.workspaceDrain w).currentGeneration w = c.currentGeneration w := by
  have hkept : ∀ id, ((c.workspaceDrain w).heap id).generation = (c.heap id).generation := by
    intro id
    show (if id ∈ c.workspaceEpochs w then (c.heap id).stateDrain c.nextDrain
      else c.heap id).generation = _
    split
    · exact (WorkspaceState.keeps_stateDrain _ _).generation
    · rfl
  unfold currentGeneration
  show ((c.states w).map fun id => ((c.workspaceDrain w).heap id).generation).getD 0 = _
  simp only [hkept]

variable {handle : LeaseHandle}

theorem no_lease_out (h : c.Settling) {w : WorkspaceId} {d : Nat} (hd : c.deletions w = some d)
    (hresolved : c.drained d = true) {lease : Nat}
    (hhandle : c.handles lease = some handle) (hw : handle.workspaceId = w) :
    handle.released = true := by
  obtain ⟨-, drain, hdrain, hdw, id, hid, hgen⟩ := h.deletion_open w d hd
  obtain ⟨-, hstate, howner, -⟩ := h.handle_filed lease handle hhandle
  obtain ⟨current, hcurrent, hle⟩ := h.newest handle.state hstate
  rw [howner, hw, hid] at hcurrent
  obtain rfl := Option.some.inj hcurrent
  refine h.settledUpTo hdrain hresolved lease handle hhandle (by rw [hw, hdw]) ?_
  omega

theorem released_of_release (c : MutationCoordinator) {lease : Nat}
    (hhandle : c.handles lease = some handle) :
    ∃ handle', (c.release lease).handles lease = some handle' ∧ handle'.released = true := by
  unfold MutationCoordinator.release
  simp only [hhandle]
  split
  · rename_i hreleased
    exact ⟨handle, hhandle, hreleased⟩
  · refine ⟨{ handle with released := true }, ?_, rfl⟩
    unfold MutationCoordinator.unretire
    split <;> exact Function.update_self _ _ _

theorem release_released (c : MutationCoordinator) {lease : Nat}
    (hhandle : c.handles lease = some handle) (hreleased : handle.released = true) :
    c.release lease = c := by
  unfold MutationCoordinator.release
  simp only [hhandle, hreleased, if_true]

theorem leaseLaw (h : c.Settling) (hserial : c.Serial) : c.LeaseLaw := by
  have hdeletion := fun w => h.beginDeletion w
  refine ⟨fun w generation lease hok => h.granted hok, ?_, ?_, ?_,
    fun w d hd hresolved lease handle hhandle hw => h.no_lease_out hd hresolved hhandle hw, ?_,
    fun w j k hj hk hlt hstarted => hserial.ordered.released_of_started hj hk hstarted hlt,
    hserial.in_turn, hserial.skipped⟩
  · intro w steps hresolved
    have hdrain := blockAndDrain_drain c w
    have hsettled := (h.blockAndDrain w).drained_later hdrain steps hresolved
    have hgen : (c.blockAndDrain w).2.currentGeneration w = (c.block w).currentGeneration w :=
      currentGeneration_workspaceDrain _ w
    rw [hgen]
    exact hsettled
  · intro w steps hresolved
    obtain ⟨drain, hdrain, hw, hgen⟩ :=
      (hdeletion w).deletion_generation (beginDeletion_open c w)
    have hsettled := (hdeletion w).drained_later hdrain steps hresolved
    rw [hw, hgen] at hsettled
    exact hsettled
  · intro w steps hphase
    have hopen := (hdeletion w).deletion_open w _ (beginDeletion_open c w)
    obtain ⟨hisopen, drain, hdrain, hw, -⟩ := hopen
    have hbegun : (c.beginDeletion w).2.deletionPhase (c.beginDeletion w).1.2 ≠ .absent := by
      intro habsent
      rw [habsent] at hisopen
      cases hisopen
    have hlater := Later.run (hdeletion w) steps
    have hstill : (((c.beginDeletion w).2.run steps).deletionPhase
        (c.beginDeletion w).1.2).isOpen = true := by
      have hnot := hlater.begun _ hbegun
      cases hp : ((c.beginDeletion w).2.run steps).deletionPhase (c.beginDeletion w).1.2 with
      | absent => exact absurd hp hnot
      | begun => rfl
      | finished => rfl
      | completed => exact absurd hp hphase
    obtain ⟨drain', hdrain', hd⟩ := ((hdeletion w).run steps).open_deletion _ hstill
    have hsame : drain = drain' :=
      Option.some.inj ((hlater.drains _ drain hdrain).symm.trans hdrain')
    rw [← hsame, hw] at hd
    exact ((hdeletion w).run steps).closed hd
  · intro lease handle hhandle steps
    obtain ⟨handle', hhandle', hreleased⟩ := released_of_release c hhandle
    obtain ⟨handle'', hhandle'', hkept⟩ :=
      (Later.run (h.release lease) steps).handles lease handle' hhandle'
    exact release_released _ hhandle'' (hkept hreleased)

end Settling

theorem run_leaseLaw (steps : List CoordinatorStep) :
    (createWorkspaceMutationCoordinator.run steps).LeaseLaw :=
  (Settling.initial.run steps).leaseLaw (Serial.initial.run steps)

end MutationCoordinator

end ClockifyAssistant
