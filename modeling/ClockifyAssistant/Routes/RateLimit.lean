import Mathlib.Data.List.Induction
import Mathlib.Data.List.Pairwise

/-!
The sliding-window limiter: stamps of the allowed checks of each key, pruned as
checks come in and swept now and then. It decides as a log does that keeps every
allowed check.
-/
namespace ClockifyAssistant.RateLimit

variable {K : Type}

inductive RateLimitDecision
  | allowed
  | denied (retryAfterMs : Option Int)
  deriving DecidableEq

structure Check (K : Type) where
  key : K
  nowMs : Int
  deriving DecidableEq

structure Limiter (K : Type) where
  hits : K → Option (List Int)
  checks : Nat

def createSlidingWindowLimiter : Limiter K := ⟨fun _ => none, 0⟩

def SWEEP_EVERY_CHECKS : Nat := 512

def sweepDue (checks : Nat) : Bool := checks % SWEEP_EVERY_CHECKS = 0

def sweep (windowMs nowMs : Int) (hits : K → Option (List Int)) (k : K) : Option (List Int) :=
  (hits k).filter fun stamps => !stamps.getLast?.all (· ≤ nowMs - windowMs)

def young (windowMs nowMs : Int) (stamps : List Int) : List Int :=
  stamps.filter (nowMs - windowMs < ·)

def sweptHits (due : Nat → Bool) (windowMs nowMs : Int) (limiter : Limiter K) :
    K → Option (List Int) :=
  if due (limiter.checks + 1) then sweep windowMs nowMs limiter.hits else limiter.hits

section Steps

variable [DecidableEq K]

/-- `check`, with the counter values at which it sweeps. -/
def check (due : Nat → Bool) (max : Nat) (windowMs : Int) (limiter : Limiter K) (c : Check K) :
    RateLimitDecision × Limiter K :=
  let hits := sweptHits due windowMs c.nowMs limiter
  let recent := young windowMs c.nowMs ((hits c.key).getD [])
  if max ≤ recent.length then
    (.denied (recent.head?.map (· + windowMs - c.nowMs)),
      ⟨Function.update hits c.key (some recent), limiter.checks + 1⟩)
  else (.allowed, ⟨Function.update hits c.key (some (recent ++ [c.nowMs])), limiter.checks + 1⟩)

/-- The reference: every allowed check of each key is remembered. -/
def checkLog (max : Nat) (windowMs : Int) (log : K → List Int) (c : Check K) :
    RateLimitDecision × (K → List Int) :=
  let recent := young windowMs c.nowMs (log c.key)
  if recent.length < max then (.allowed, Function.update log c.key (log c.key ++ [c.nowMs]))
  else (.denied (recent.head?.map (· + windowMs - c.nowMs)), log)

end Steps

section Runs

variable {S : Type} (step : S → Check K → RateLimitDecision × S)

def decisions : S → List (Check K) → List RateLimitDecision
  | _, [] => []
  | s, c :: rest => (step s c).1 :: decisions (step s c).2 rest

def after (s : S) (run : List (Check K)) : S := run.foldl (fun s c => (step s c).2) s

theorem decisions_append (s : S) (first rest : List (Check K)) : decisions step s (first ++ rest) =
      decisions step s first ++ decisions step (after step s first) rest := by
  induction first generalizing s with
  | nil => rfl
  | cons c first ih => exact congrArg (List.cons _) (ih (step s c).2)

theorem length_decisions (s : S) (run : List (Check K)) :
    (decisions step s run).length = run.length := by
  induction run generalizing s with
  | nil => rfl
  | cons c run ih => exact congrArg (· + 1) (ih (step s c).2)

end Runs

def Nondecreasing (run : List (Check K)) : Prop := run.Pairwise (·.nowMs ≤ ·.nowMs)

instance (run : List (Check K)) : Decidable (Nondecreasing run) :=
  inferInstanceAs (Decidable (run.Pairwise _))

section Decisions

variable [DecidableEq K]

/-- The decisions of a limiter that sweeps when `due`. -/
def limiterDecisions (due : Nat → Bool) (max : Nat) (windowMs : Int) (run : List (Check K)) :
    List RateLimitDecision :=
  decisions (check due max windowMs) createSlidingWindowLimiter run

def logDecisions (max : Nat) (windowMs : Int) (run : List (Check K)) : List RateLimitDecision :=
  decisions (checkLog max windowMs) (fun _ => []) run

/-- The times at which the limiter allowed a check of `key`. -/
def allowedTimes (max : Nat) (windowMs : Int) (run : List (Check K)) (key : K) : List Int :=
  ((run.zip (limiterDecisions sweepDue max windowMs run)).filter fun (c, answer) =>
    c.key = key ∧ answer = .allowed).map (·.1.nowMs)

variable (K) in
structure SlidingWindowLaw (max : Nat) (windowMs : Int) : Prop where
  reference : ∀ run : List (Check K), Nondecreasing run →
    limiterDecisions sweepDue max windowMs run = logDecisions max windowMs run
  bounded : ∀ run : List (Check K), Nondecreasing run → ∀ key t,
    (allowedTimes max windowMs run key).countP (fun s => t - windowMs < s ∧ s ≤ t) ≤ max
  deniedForgotten : ∀ (before : List (Check K)) (c : Check K) (rest : List (Check K)),
     Nondecreasing (before ++ c :: rest) →
    (limiterDecisions sweepDue max windowMs (before ++ [c])).getLast? ≠ some .allowed →
    limiterDecisions sweepDue max windowMs (before ++ rest) =
      (limiterDecisions sweepDue max windowMs (before ++ c :: rest)).eraseIdx before.length
  leastWait : ∀ (before : List (Check K)) (key : K) nowMs retryAfterMs,
     Nondecreasing (before ++ [⟨key, nowMs⟩]) →
    (limiterDecisions sweepDue max windowMs (before ++ [⟨key, nowMs⟩])).getLast? =
      some (.denied retryAfterMs) →
    ∃ least, retryAfterMs = some least ∧ ∀ wait, 0 ≤ wait →
      ((limiterDecisions sweepDue max windowMs
          (before ++ [⟨key, nowMs⟩, ⟨key, nowMs + wait⟩])).getLast? = some .allowed ↔
        least ≤ wait)
  sweepsUnseen : ∀ due, ∀ run : List (Check K), Nondecreasing run →
    limiterDecisions due max windowMs run = limiterDecisions sweepDue max windowMs run

end Decisions

theorem young_append (windowMs nowMs : Int) (first rest : List Int) :
    young windowMs nowMs (first ++ rest) = young windowMs nowMs first ++ young windowMs nowMs rest :=
  List.filter_append first rest

theorem young_young {windowMs nowMs later : Int} (h : nowMs ≤ later) (stamps : List Int) :
    young windowMs later (young windowMs nowMs stamps) = young windowMs later stamps := by
  unfold young
  rw [List.filter_filter]
  apply List.filter_congr
  intro t _
  apply Bool.eq_iff_iff.mpr
  simp only [Bool.and_eq_true, decide_eq_true_eq]
  omega

theorem young_eq_nil {windowMs nowMs : Int} {stamps : List Int}
    (h : ∀ t ∈ stamps, t ≤ nowMs - windowMs) : young windowMs nowMs stamps = [] := by
  apply List.filter_eq_nil_iff.mpr
  intro t ht
  have := h t ht
  simp only [decide_eq_true_eq]
  omega

theorem countP_le_young {windowMs nowMs t : Int} (ht : nowMs ≤ t) (log : List Int) :
    log.countP (fun s => t - windowMs < s ∧ s ≤ t) ≤ (young windowMs nowMs log).length := by
  unfold young
  rw [← List.countP_eq_length_filter]
  apply List.countP_mono_left
  intro s _ hs
  simp only [decide_eq_true_eq] at hs ⊢
  omega

/-- What the stamps kept at `nowMs` still say of the log, and what holds of the log itself. -/
structure Tracks (max : Nat) (windowMs nowMs : Int) (stamps log : List Int) : Prop where
  kept : stamps.Sublist log
  same : ∀ later, nowMs ≤ later → young windowMs later stamps = young windowMs later log
  sorted : log.Pairwise (· ≤ ·)
  past : ∀ t ∈ log, t ≤ nowMs
  bounded : ∀ t, log.countP (fun s => t - windowMs < s ∧ s ≤ t) ≤ max

namespace Tracks

variable {max : Nat} {windowMs nowMs : Int} {stamps log : List Int}

theorem nil : Tracks max windowMs nowMs [] [] :=
  ⟨.slnil, fun _ _ => rfl, .nil, nofun, fun _ => Nat.zero_le _⟩

theorem mono {later : Int} (h : Tracks max windowMs nowMs stamps log) (hlater : nowMs ≤ later) :
    Tracks max windowMs later stamps log := by
  refine ⟨h.kept, ?_, h.sorted, ?_, h.bounded⟩
  · intro t ht
    exact h.same t (by omega)
  · intro t ht
    have := h.past t ht
    omega

theorem dropped (h : Tracks max windowMs nowMs stamps log)
    (hold : ∀ t ∈ stamps, t ≤ nowMs - windowMs) : Tracks max windowMs nowMs [] log := by
  refine ⟨log.nil_sublist, ?_, h.sorted, h.past, h.bounded⟩
  intro later hlater
  rw [← h.same later hlater]
  refine (young_eq_nil ?_).symm
  intro t ht
  have := hold t ht
  omega

theorem pruned (h : Tracks max windowMs nowMs stamps log) :
    Tracks max windowMs nowMs (young windowMs nowMs stamps) log := by
  refine ⟨List.filter_sublist.trans h.kept, ?_, h.sorted, h.past, h.bounded⟩
  intro later hlater
  rw [young_young hlater, h.same later hlater]

theorem allowed (h : Tracks max windowMs nowMs stamps log)
    (hroom : (young windowMs nowMs log).length < max) :
    Tracks max windowMs nowMs (stamps ++ [nowMs]) (log ++ [nowMs]) := by
  refine ⟨h.kept.append (.refl _), ?_, ?_, ?_, ?_⟩
  · intro later hlater
    rw [young_append, young_append, h.same later hlater]
  · refine List.pairwise_append.mpr ⟨h.sorted, List.pairwise_singleton _ _, ?_⟩
    intro t ht s hs
    rw [List.mem_singleton.mp hs]
    exact h.past t ht
  · intro t ht
    rcases List.mem_append.mp ht with ht | ht
    · exact h.past t ht
    · exact Int.le_of_eq (List.mem_singleton.mp ht)
  · intro t
    rw [List.countP_append, List.countP_singleton]
    split
    · next hin =>
        have hin : t - windowMs < nowMs ∧ nowMs ≤ t := by simpa using hin
        have : log.countP (fun s => t - windowMs < s ∧ s ≤ t) ≤ _ := countP_le_young hin.2 log
        omega
    · have := h.bounded t
      omega

theorem young_length_le (h : Tracks max windowMs nowMs stamps log) :
    (young windowMs nowMs log).length ≤ max := by
  unfold young
  rw [← List.countP_eq_length_filter]
  refine Nat.le_trans (List.countP_mono_left ?_) (h.bounded nowMs)
  intro s hs hyoung
  have := h.past s hs
  simp only [decide_eq_true_eq] at hyoung ⊢
  omega

end Tracks

section Steps

variable (due : Nat → Bool) (max : Nat) (windowMs : Int)

def stampsOf (limiter : Limiter K) (key : K) : List Int := (limiter.hits key).getD []

theorem Tracks.swept {limiter : Limiter K} {nowMs : Int} {key : K} {log : List Int}
    (h : Tracks max windowMs nowMs (stampsOf limiter key) log) :
    Tracks max windowMs nowMs ((sweptHits due windowMs nowMs limiter key).getD []) log := by
  unfold sweptHits
  by_cases hdue : due (limiter.checks + 1) = true
  · rw [if_pos hdue]
    unfold sweep
    cases hhits : limiter.hits key with
    | none =>
      refine h.dropped ?_
      simp [stampsOf, hhits]
    | some stamps =>
      have hstamps : stampsOf limiter key = stamps := by simp [stampsOf, hhits]
      rw [hstamps] at h
      by_cases hdead : stamps.getLast?.all (· ≤ nowMs - windowMs) = true
      · rw [Option.filter_some_neg (by simp [hdead])]
        refine h.dropped ?_
        intro t ht
        have hne := List.ne_nil_of_mem ht
        have hlast : stamps.getLast hne ≤ nowMs - windowMs := by
          simpa [List.getLast?_eq_some_getLast hne] using hdead
        have := (h.sorted.sublist h.kept).rel_getLast ht
        omega
      · rw [Option.filter_some_pos (by simp [hdead])]
        exact h
  · rw [if_neg hdue]
    exact h

variable [DecidableEq K]

theorem check_fst (limiter : Limiter K) (c : Check K) : (check due max windowMs limiter c).1 =
      (checkLog max windowMs (fun key => (sweptHits due windowMs c.nowMs limiter key).getD []) c).1 := by
  unfold check checkLog
  dsimp only
  split
  · next hfull => rw [if_neg (Nat.not_lt.mpr hfull)]
  · next hroom => rw [if_pos (Nat.not_le.mp hroom)]

theorem stampsOf_check (limiter : Limiter K) (c : Check K) (key : K) :
    stampsOf (check due max windowMs limiter c).2 key =
      if key = c.key then
        young windowMs c.nowMs ((sweptHits due windowMs c.nowMs limiter key).getD []) ++
          if (check due max windowMs limiter c).1 = .allowed then [c.nowMs] else []
      else (sweptHits due windowMs c.nowMs limiter key).getD [] := by
  unfold check stampsOf
  dsimp only
  by_cases hkey : key = c.key
  · subst hkey
    rw [if_pos rfl]
    split <;> simp
  · rw [if_neg hkey]
    split <;> simp [Function.update_of_ne hkey]

theorem checkLog_eq_allowed {log : K → List Int} {c : Check K} :
    (checkLog max windowMs log c).1 = .allowed ↔
      (young windowMs c.nowMs (log c.key)).length < max := by
  unfold checkLog
  dsimp only
  split
  · next hroom => simp [hroom]
  · next hfull => simp [hfull]

theorem checkLog_full {log : K → List Int} {key : K} {nowMs : Int}
    (h : ¬ (young windowMs nowMs (log key)).length < max) :
    (checkLog max windowMs log ⟨key, nowMs⟩).1 =
      .denied ((young windowMs nowMs (log key)).head?.map (· + windowMs - nowMs)) :=
  congrArg Prod.fst (if_neg h)

theorem checkLog_snd (log : K → List Int) (c : Check K) (key : K) :
    (checkLog max windowMs log c).2 key = log key ++
      if key = c.key ∧ (checkLog max windowMs log c).1 = .allowed then [c.nowMs] else [] := by
  unfold checkLog
  by_cases hkey : key = c.key
  · subst hkey
    dsimp only
    split <;> simp
  · dsimp only
    split <;> simp [hkey]

variable {max windowMs}

/-- One check decides alike on the limiter and on the log, and keeps them together. -/
theorem check_tracks {limiter : Limiter K} {log : K → List Int} {c : Check K}
    (h : ∀ key, Tracks max windowMs c.nowMs (stampsOf limiter key) (log key)) :
    (check due max windowMs limiter c).1 = (checkLog max windowMs log c).1 ∧
      ∀ key, Tracks max windowMs c.nowMs (stampsOf (check due max windowMs limiter c).2 key)
        ((checkLog max windowMs log c).2 key) := by
  have hswept := fun key => (h key).swept due
  have hyoung := (hswept c.key).same c.nowMs (Int.le_refl _)
  have hsame : (check due max windowMs limiter c).1 = (checkLog max windowMs log c).1 := by
    rw [check_fst]
    unfold checkLog
    dsimp only
    rw [hyoung]
    split <;> rfl
  refine ⟨hsame, ?_⟩
  intro key
  rw [stampsOf_check, checkLog_snd, hsame]
  by_cases hkey : key = c.key
  · subst hkey
    have hpruned := (hswept c.key).pruned
    by_cases hallowed : (checkLog max windowMs log c).1 = .allowed
    · rw [if_pos rfl, if_pos hallowed, if_pos ⟨rfl, hallowed⟩]
      exact hpruned.allowed ((checkLog_eq_allowed max windowMs).mp hallowed)
    · rw [if_pos rfl, if_neg hallowed, if_neg fun h => hallowed h.2]
      simpa using hpruned
  · rw [if_neg hkey, if_neg fun h => hkey h.1, List.append_nil]
    exact hswept key

end Steps

section Law

theorem nondecreasing_snoc {run : List (Check K)} {c : Check K} :
    Nondecreasing (run ++ [c]) ↔ Nondecreasing run ∧ ∀ d ∈ run, d.nowMs ≤ c.nowMs := by
  unfold Nondecreasing
  rw [List.pairwise_append]
  simp

variable [DecidableEq K] (due : Nat → Bool) (max : Nat) (windowMs : Int)

/-- Over a run the limiter decides as the log does, and they stay together. -/
theorem run_tracks {run : List (Check K)} (h : Nondecreasing run) :
    limiterDecisions due max windowMs run = logDecisions max windowMs run ∧
      ∀ nowMs, (∀ c ∈ run, c.nowMs ≤ nowMs) → ∀ key, Tracks max windowMs nowMs
        (stampsOf (after (check due max windowMs) createSlidingWindowLimiter run) key)
        (after (checkLog max windowMs) (fun _ => []) run key) := by
  unfold limiterDecisions logDecisions
  induction run using List.reverseRecOn with
  | nil => exact ⟨rfl, fun _ _ _ => .nil⟩
  | append_singleton run c ih =>
    obtain ⟨hrun, -, hbefore⟩ := List.pairwise_append.mp h
    obtain ⟨hdecisions, htracks⟩ := ih hrun
    obtain ⟨hsame, hstep⟩ := check_tracks due
      (htracks c.nowMs fun d hd => hbefore d hd c List.mem_cons_self)
    constructor
    · rw [decisions_append, decisions_append, hdecisions]
      exact congrArg (_ ++ [·]) hsame
    · intro nowMs hnow key
      unfold after
      rw [List.foldl_append, List.foldl_append]
      exact (hstep key).mono (hnow c (by simp))

variable {due max windowMs}

/-- The decision on a check after a run, in terms of the log of that run. -/
theorem last_decision {run : List (Check K)} {c : Check K} (h : Nondecreasing (run ++ [c])) :
    (limiterDecisions due max windowMs (run ++ [c])).getLast? =
      some (checkLog max windowMs (after (checkLog max windowMs) (fun _ => []) run) c).1 := by
  rw [(run_tracks due max windowMs h).1]
  unfold logDecisions
  rw [decisions_append]
  exact List.getLast?_concat

theorem allowedTimes_eq {run : List (Check K)} (h : Nondecreasing run) (key : K) :
    allowedTimes max windowMs run key = after (checkLog max windowMs) (fun _ => []) run key := by
  unfold allowedTimes
  rw [(run_tracks sweepDue max windowMs h).1]
  clear h
  unfold logDecisions
  induction run using List.reverseRecOn with
  | nil => rfl
  | append_singleton run c ih =>
    rw [decisions_append, List.zip_append (length_decisions _ _ run).symm, List.filter_append,
      List.map_append, ih]
    unfold after
    rw [List.foldl_append, List.foldl_cons, List.foldl_nil, checkLog_snd]
    congr 1
    simp only [decisions, List.zip_cons_cons, List.zip_nil_right, List.filter_cons, eq_comm]
    split <;> simp_all

theorem checkLog_denied {log : K → List Int} {c : Check K}
    (h : (checkLog max windowMs log c).1 ≠ .allowed) : (checkLog max windowMs log c).2 = log := by
  funext key
  rw [checkLog_snd, if_neg fun hboth => h hboth.2, List.append_nil]

/-- A full window has room once its first stamp has left it, and not before. -/
theorem Tracks.room_iff {nowMs first wait : Int} {stamps log others : List Int}
    (h : Tracks max windowMs nowMs stamps log) (hyoung : young windowMs nowMs log = first :: others)
    (hfull : max ≤ (young windowMs nowMs log).length) (hwait : 0 ≤ wait) :
    (young windowMs (nowMs + wait) log).length < max ↔ first + windowMs - nowMs ≤ wait := by
  have hlength := h.young_length_le
  have hsorted : (first :: others).Pairwise (· ≤ ·) := by
    rw [← hyoung]
    exact h.sorted.sublist List.filter_sublist
  rw [hyoung] at hfull hlength
  rw [← young_young (Int.le_add_of_nonneg_right hwait), hyoung]
  constructor
  · intro hroom
    by_contra hearly
    have hall : young windowMs (nowMs + wait) (first :: others) = first :: others := by
      apply List.filter_eq_self.mpr
      intro t ht
      have := hsorted.rel_head ht
      simp only [List.head_cons] at this
      simp only [decide_eq_true_eq]
      omega
    rw [hall] at hroom
    omega
  · intro hlate
    have hfirst : ¬ nowMs + wait - windowMs < first := by omega
    unfold young
    rw [List.filter_cons_of_neg (by simpa using hfirst)]
    have := List.length_filter_le (nowMs + wait - windowMs < ·) others
    simp only [List.length_cons] at hlength
    omega

theorem slidingWindow_bounded {run : List (Check K)} (h : Nondecreasing run) (key : K) (t : Int) :
    (allowedTimes max windowMs run key).countP (fun s => t - windowMs < s ∧ s ≤ t) ≤ max := by
  rcases List.eq_nil_or_concat run with rfl | ⟨front, c, rfl⟩
  · exact Nat.zero_le _
  · rw [List.concat_eq_append] at h ⊢
    rw [allowedTimes_eq h]
    refine ((run_tracks sweepDue max windowMs h).2 c.nowMs ?_ key).bounded t
    intro d hd
    rcases List.mem_append.mp hd with hd | hd
    · exact (nondecreasing_snoc.mp h).2 d hd
    · exact Int.le_of_eq (congrArg _ (List.mem_singleton.mp hd))

theorem slidingWindow_denied {before rest : List (Check K)} {c : Check K}
    (h : Nondecreasing (before ++ c :: rest))
    (hdenied : (limiterDecisions sweepDue max windowMs (before ++ [c])).getLast? ≠ some .allowed) :
    limiterDecisions sweepDue max windowMs (before ++ rest) =
      (limiterDecisions sweepDue max windowMs (before ++ c :: rest)).eraseIdx before.length := by
  have hprefix : Nondecreasing (before ++ [c]) := h.sublist (by simp)
  have hwithout : Nondecreasing (before ++ rest) := h.sublist (by simp)
  rw [last_decision hprefix] at hdenied
  have hlog := checkLog_denied fun hallowed => hdenied (congrArg some hallowed)
  rw [(run_tracks _ _ _ h).1, (run_tracks _ _ _ hwithout).1]
  unfold logDecisions
  rw [decisions_append, decisions_append, decisions, hlog,
    List.eraseIdx_append_of_length_le (Nat.le_of_eq (length_decisions _ _ before)), length_decisions,
    Nat.sub_self, List.eraseIdx_cons_zero]

theorem slidingWindow_leastWait (hmax : 1 ≤ max) {before : List (Check K)} {key : K} {nowMs : Int}
    {retryAfterMs : Option Int} (h : Nondecreasing (before ++ [⟨key, nowMs⟩]))
    (hdenied : (limiterDecisions sweepDue max windowMs (before ++ [⟨key, nowMs⟩])).getLast? =
      some (.denied retryAfterMs)) : ∃ least, retryAfterMs = some least ∧ ∀ wait, 0 ≤ wait →
      ((limiterDecisions sweepDue max windowMs
          (before ++ [⟨key, nowMs⟩, ⟨key, nowMs + wait⟩])).getLast? = some .allowed ↔
        least ≤ wait) := by
  obtain ⟨hbefore, hpast⟩ := nondecreasing_snoc.mp h
  have htracks := (run_tracks sweepDue max windowMs hbefore).2 nowMs hpast key
  rw [last_decision h] at hdenied
  have hdenied := Option.some.inj hdenied
  have hlog := checkLog_denied (fun hallowed => nomatch hallowed.symm.trans hdenied)
  have hfull : ¬ (young windowMs nowMs
      (after (checkLog max windowMs) (fun _ => []) before key)).length < max := by
    intro hroom
    have hallowed := (checkLog_eq_allowed max windowMs (c := ⟨key, nowMs⟩)).mpr hroom
    exact nomatch hallowed.symm.trans hdenied
  cases hyoung : young windowMs nowMs (after (checkLog max windowMs) (fun _ => []) before key) with
  | nil =>
    rw [hyoung] at hfull
    exact absurd hmax hfull
  | cons first others =>
    have hretry : retryAfterMs = some (first + windowMs - nowMs) := by
      rw [checkLog_full max windowMs hfull, hyoung] at hdenied
      exact (RateLimitDecision.denied.inj hdenied).symm
    refine ⟨_, hretry, ?_⟩
    intro wait hwait
    have hlater : Nondecreasing ((before ++ [⟨key, nowMs⟩]) ++ [⟨key, nowMs + wait⟩]) := by
      refine nondecreasing_snoc.mpr ⟨h, ?_⟩
      intro d hd
      rcases List.mem_append.mp hd with hd | hd
      · have := hpast d hd
        dsimp only at this ⊢
        omega
      · rw [List.mem_singleton.mp hd]
        dsimp only
        omega
    have hsplit : before ++ [⟨key, nowMs⟩, ⟨key, nowMs + wait⟩] =
        (before ++ [⟨key, nowMs⟩]) ++ [⟨key, nowMs + wait⟩] := by simp
    have hafter : after (checkLog max windowMs) (fun _ => []) (before ++ [⟨key, nowMs⟩]) =
        after (checkLog max windowMs) (fun _ => []) before := by
      unfold after
      rw [List.foldl_append]
      exact hlog
    rw [hsplit, last_decision hlater, hafter, Option.some.injEq, checkLog_eq_allowed]
    exact htracks.room_iff hyoung (Nat.not_lt.mp hfull) hwait

variable (K) in
/-- The limiter decides as the log of all allowed checks does, with what follows from it. -/
theorem slidingWindow_law (hmax : 1 ≤ max) (windowMs : Int) : SlidingWindowLaw K max windowMs where
  reference _ h := (run_tracks sweepDue max windowMs h).1
  bounded _ h key t := slidingWindow_bounded h key t
  deniedForgotten _ _ _ h hdenied := slidingWindow_denied h hdenied
  leastWait _ _ _ _ h hdenied := slidingWindow_leastWait hmax h hdenied
  sweepsUnseen due _ h :=
    (run_tracks due max windowMs h).1.trans (run_tracks sweepDue max windowMs h).1.symm

theorem slidingWindow_law_once : 1 ≤ 1 ∧ SlidingWindowLaw String 1 10 ∧
    limiterDecisions sweepDue 1 10 [⟨"s", 0⟩, ⟨"t", 3⟩, ⟨"s", 4⟩, ⟨"s", 10⟩] =
      [.allowed, .allowed, .denied (some 6), .allowed] :=
  ⟨Nat.le_refl 1, slidingWindow_law String (Nat.le_refl 1) 10, by decide⟩

end Law

end ClockifyAssistant.RateLimit
