import Mathlib.Data.List.Basic
import Mathlib.Data.List.Pairwise

/-!
Alerts on sustained throttling by the host. Each of two triggers is meant to fire
once and to re-arm when the rolling window has drained. The window latch is cleared
whenever the count falls below the threshold, and the consecutive latch only by a
healthy call that finds the window empty.
-/
namespace ClockifyAssistant.HostThrottle

inductive HostAnswer
  | throttled (status : Nat)
  | healthy
  deriving DecidableEq

structure HostCall where
  answer : HostAnswer
  timestamp : Int
  deriving DecidableEq

structure Thresholds where
  consecutiveThreshold : Nat
  windowThreshold : Nat
  windowMs : Int

def MAX_GET_RETRIES : Nat := 2

def sustainedThresholds : Thresholds where
  consecutiveThreshold := 1 + MAX_GET_RETRIES + 1
  windowThreshold := 12
  windowMs := 60000

structure WorkspaceThrottleState where
  streak : Nat
  failures : List Int
  windowAlerted : Bool
  consecutiveAlerted : Bool

inductive Trigger
  | consecutive | window
  deriving DecidableEq

structure LogLine where
  status : Nat
  trigger : Trigger
  count : Nat

section Calls

variable (config : Thresholds)

def pruneWindow (timestamp : Int) (failures : List Int) : List Int :=
  failures.dropWhile (· ≤ timestamp - config.windowMs)

def capWindow (failures : List Int) : List Int :=
  if config.windowThreshold < failures.length then failures.tail else failures

def pushFailure (timestamp : Int) (failures : List Int) : List Int :=
  pruneWindow config timestamp (capWindow config (failures ++ [timestamp]))

/-- The state that `throttled` and `healthy` start from where there is no row. -/
def stateOf (row : Option WorkspaceThrottleState) : WorkspaceThrottleState :=
  row.getD ⟨0, [], false, false⟩

def throttled (state : WorkspaceThrottleState) (status : Nat) (timestamp : Int) :
    WorkspaceThrottleState × List LogLine :=
  let streak := state.streak + 1
  let failures := pushFailure config timestamp state.failures
  let tripped := streak = config.consecutiveThreshold && !state.consecutiveAlerted
  let sustained := config.windowThreshold ≤ failures.length
  (⟨streak, failures, sustained, state.consecutiveAlerted || tripped⟩,
    (if tripped then [⟨status, .consecutive, streak⟩] else []) ++
      if sustained && !state.windowAlerted then [⟨status, .window, failures.length⟩] else [])

def healthy (state : WorkspaceThrottleState) (timestamp : Int) : Option WorkspaceThrottleState :=
  let failures := pruneWindow config timestamp state.failures
  if failures = [] then none
  else some { state with
    streak := 0
    failures
    windowAlerted := state.windowAlerted && config.windowThreshold ≤ failures.length }

def step (row : Option WorkspaceThrottleState) (c : HostCall) :
    Option WorkspaceThrottleState × List LogLine :=
  match c.answer with
  | .throttled status =>
      let (state, lines) := throttled config (stateOf row) status c.timestamp
      (some state, lines)
  | .healthy => (row.bind (healthy config · c.timestamp), [])

/-! The calls of a workspace are listed newest first. -/

def row : List HostCall → Option WorkspaceThrottleState
  | [] => none
  | c :: earlier => (step config (row earlier) c).1

def lines (c : HostCall) (earlier : List HostCall) : List LogLine :=
  (step config (row config earlier) c).2

def linesIn : List HostCall → List HostCall → List LogLine
  | [], _ => []
  | c :: segment, earlier => linesIn segment earlier ++ lines config c (segment ++ earlier)

def failureTimes : List HostCall → List Int
  | [] => []
  | ⟨.throttled _, timestamp⟩ :: earlier => timestamp :: failureTimes earlier
  | ⟨.healthy, _⟩ :: earlier => failureTimes earlier

def streak : List HostCall → Nat
  | ⟨.throttled _, _⟩ :: earlier => streak earlier + 1
  | _ => 0

def recent (timestamp : Int) (failures : List Int) : Nat :=
  failures.countP (timestamp - config.windowMs < ·)

/-- No failure lies within the last `windowMs` when the call comes in. -/
def drained (c : HostCall) (earlier : List HostCall) : Bool :=
  recent config c.timestamp (failureTimes earlier) = 0

def crosses (trigger : Trigger) (c : HostCall) (earlier : List HostCall) : Bool :=
  match c.answer, trigger with
  | .healthy, _ => false
  | .throttled _, .consecutive => streak (c :: earlier) = config.consecutiveThreshold
  | .throttled _, .window =>
      config.windowThreshold ≤ recent config c.timestamp (failureTimes (c :: earlier))

def crossed (trigger : Trigger) : List HostCall → Bool
  | [] => false
  | c :: earlier =>
      crosses config trigger c earlier || (!drained config c earlier && crossed trigger earlier)

structure LatchLaw (calls : List HostCall) : Prop where
  fires : ∀ later c earlier, calls = later ++ c :: earlier → ∀ trigger,
    (lines config c earlier).countP (·.trigger = trigger) =
      if crosses config trigger c earlier ∧
        (drained config c earlier ∨ crossed config trigger earlier = false) then 1 else 0
  twoLines : ∀ later segment earlier, calls = later ++ (segment ++ earlier) →
    (∀ newer c older, segment = newer ++ c :: older → older ≠ [] →
      drained config c (older ++ earlier) = false) →
    (linesIn config segment earlier).length ≤ 2

/-- The call neither clears a latch within an outage nor finds one set after it. -/
structure Meets (row : Option WorkspaceThrottleState) (c : HostCall) : Prop where
  rearmed : c.answer ≠ .healthy → recent config c.timestamp (stateOf row).failures = 0 →
    (stateOf row).consecutiveAlerted = false ∧
      ((stateOf row).windowAlerted = false ∨ 1 < config.windowThreshold)
  latched : (stateOf row).windowAlerted → recent config c.timestamp (stateOf row).failures ≠ 0 →
    config.windowThreshold ≤ recent config c.timestamp (stateOf row).failures +
      if c.answer = .healthy then 0 else 1

def MeetsThroughout : List HostCall → Prop
  | [] => True
  | c :: earlier => Meets config (row config earlier) c ∧ MeetsThroughout earlier

instance (row : Option WorkspaceThrottleState) (c : HostCall) : Decidable (Meets config row c) :=
  decidable_of_iff (_ ∧ _) ⟨fun h => ⟨h.1, h.2⟩, fun h => ⟨h.1, h.2⟩⟩

instance decidableMeetsThroughout : ∀ calls, Decidable (MeetsThroughout config calls)
  | [] => .isTrue trivial
  | c :: earlier =>
    haveI := decidableMeetsThroughout earlier
    inferInstanceAs (Decidable (Meets config (row config earlier) c ∧ _))

end Calls

section Windows

variable {config : Thresholds} {t later : Int}

theorem recent_append (first rest : List Int) :
    recent config t (first ++ rest) = recent config t first + recent config t rest :=
  List.countP_append

theorem recent_singleton (s : Int) :
    recent config t [s] = if t - config.windowMs < s then 1 else 0 := by
  simp [recent, List.countP_singleton]

theorem recent_cons (s : Int) (rest : List Int) :
    recent config t (s :: rest) = recent config t [s] + recent config t rest :=
  recent_append [s] rest

theorem recent_pruneWindow (h : t ≤ later) (failures : List Int) :
    recent config later (pruneWindow config t failures) = recent config later failures := by
  unfold pruneWindow
  induction failures with
  | nil => rfl
  | cons s rest ih =>
    by_cases hs : s ≤ t - config.windowMs
    · have hold : ¬ later - config.windowMs < s := by omega
      rw [List.dropWhile_cons_of_pos (by simpa using hs), ih, recent_cons, recent_singleton,
        if_neg hold, Nat.zero_add]
    · rw [List.dropWhile_cons_of_neg (by simpa using hs)]

theorem recent_eq_length {s : Int} {rest : List Int} (hsorted : (s :: rest).Pairwise (· ≤ ·))
    (hs : t - config.windowMs < s) : recent config t (s :: rest) = (s :: rest).length := by
  apply List.countP_eq_length.mpr
  intro r hr
  have := hsorted.rel_head hr
  rw [List.head_cons] at this
  simp only [decide_eq_true_eq]
  omega

theorem length_pruneWindow {failures : List Int} (h : failures.Pairwise (· ≤ ·)) :
    (pruneWindow config t failures).length = recent config t failures := by
  unfold pruneWindow
  induction failures with
  | nil => rfl
  | cons s rest ih =>
    by_cases hs : s ≤ t - config.windowMs
    · have hold : ¬ t - config.windowMs < s := by omega
      rw [List.dropWhile_cons_of_pos (by simpa using hs), ih h.tail, recent_cons, recent_singleton,
        if_neg hold, Nat.zero_add]
    · rw [List.dropWhile_cons_of_neg (by simpa using hs), recent_eq_length h (by omega)]

/-- The cap drops a failure that cannot matter. -/
theorem recent_capWindow {failures : List Int} (h : failures.Pairwise (· ≤ ·))
    (hlong : failures.length ≤ config.windowThreshold + 1) :
    recent config t (capWindow config failures) =
      min config.windowThreshold (recent config t failures) := by
  unfold capWindow
  split
  · next hover =>
      cases failures with
      | nil => cases hover
      | cons s rest =>
        have hrest : rest.length = config.windowThreshold := by
          rw [List.length_cons] at hlong hover
          omega
        have hle : recent config t rest ≤ rest.length := List.countP_le_length
        by_cases hs : t - config.windowMs < s
        · have hall := recent_eq_length h hs
          rw [recent_cons, recent_singleton, if_pos hs, List.length_cons] at hall
          rw [recent_cons, recent_singleton, if_pos hs, List.tail_cons]
          omega
        · rw [recent_cons, recent_singleton, if_neg hs, List.tail_cons]
          omega
  · have hle : recent config t failures ≤ failures.length := List.countP_le_length
    omega

theorem capWindow_sublist (failures : List Int) : (capWindow config failures).Sublist failures := by
  unfold capWindow
  split
  · exact List.tail_sublist failures
  · exact .refl failures

theorem length_capWindow {failures : List Int}
    (hlong : failures.length ≤ config.windowThreshold + 1) :
    (capWindow config failures).length ≤ config.windowThreshold := by
  unfold capWindow
  split
  · rw [List.length_tail]
    omega
  · omega

end Windows

structure Follows (config : Thresholds) (state : WorkspaceThrottleState)
    (calls : List HostCall) : Prop where
  streak : state.streak = streak calls
  sorted : state.failures.Pairwise (· ≤ ·)
  capped : state.failures.length ≤ config.windowThreshold
  past : ∀ s ∈ state.failures, s ∈ failureTimes calls
  recent : ∀ t, (∀ c ∈ calls, c.timestamp ≤ t) →
    recent config t state.failures = min config.windowThreshold (recent config t (failureTimes calls))
  window : state.windowAlerted = crossed config .window calls
  consecutive : state.consecutiveAlerted = crossed config .consecutive calls

theorem mem_failureTimes {calls : List HostCall} {s : Int} (h : s ∈ failureTimes calls) :
    ∃ c ∈ calls, c.timestamp = s := by
  induction calls with
  | nil => cases h
  | cons c earlier ih =>
    obtain ⟨answer, timestamp⟩ := c
    have hlater : s ∈ failureTimes earlier → ∃ c ∈ (⟨answer, timestamp⟩ :: earlier : List HostCall),
        c.timestamp = s := by
      intro h
      obtain ⟨c, hc, hs⟩ := ih h
      exact ⟨c, List.mem_cons_of_mem _ hc, hs⟩
    cases answer with
    | healthy => exact hlater h
    | throttled status =>
      rcases List.mem_cons.mp h with rfl | h
      · exact ⟨_, List.mem_cons_self, rfl⟩
      · exact hlater h

section Steps

variable {config : Thresholds} {row : Option WorkspaceThrottleState} {earlier : List HostCall}
  {t : Int}

theorem drained_iff (h : Follows config (stateOf row) earlier)
    (hthreshold : 1 ≤ config.windowThreshold) (hpast : ∀ c ∈ earlier, c.timestamp ≤ t)
    (answer : HostAnswer) :
    drained config ⟨answer, t⟩ earlier = true ↔ recent config t (stateOf row).failures = 0 := by
  have hrecent := h.recent t hpast
  simp only [drained, decide_eq_true_eq]
  omega

structure Pushed (config : Thresholds) (t : Int) (times failures : List Int) : Prop where
  sorted : failures.Pairwise (· ≤ ·)
  capped : failures.length ≤ config.windowThreshold
  past : ∀ s ∈ failures, s ∈ t :: times
  length : failures.length = recent config t failures
  recent : ∀ later, t ≤ later → recent config later failures =
    min config.windowThreshold (recent config later [t] + recent config later times)

theorem pushed_of_follows (h : Follows config (stateOf row) earlier)
    (hpast : ∀ c ∈ earlier, c.timestamp ≤ t) :
    Pushed config t (failureTimes earlier) (pushFailure config t (stateOf row).failures) := by
  have hsorted : ((stateOf row).failures ++ [t]).Pairwise (· ≤ ·) := by
    refine List.pairwise_append.mpr ⟨h.sorted, List.pairwise_singleton _ _, ?_⟩
    intro s hs r hr
    obtain ⟨c, hc, rfl⟩ := mem_failureTimes (h.past s hs)
    rw [List.mem_singleton.mp hr]
    exact hpast c hc
  have hlong : ((stateOf row).failures ++ [t]).length ≤ config.windowThreshold + 1 := by
    simpa using h.capped
  have hcap := @capWindow_sublist config ((stateOf row).failures ++ [t])
  have hkept : (pushFailure config t (stateOf row).failures).Sublist _ := List.dropWhile_sublist _
  refine ⟨hsorted.sublist (hkept.trans hcap),
    Nat.le_trans hkept.length_le (length_capWindow hlong), ?_, ?_, ?_⟩
  · intro s hs
    rcases List.mem_append.mp ((hkept.trans hcap).subset hs) with hs | hs
    · exact List.mem_cons_of_mem t (h.past s hs)
    · rw [List.mem_singleton.mp hs]
      exact List.mem_cons_self
  · rw [pushFailure, length_pruneWindow (hsorted.sublist hcap), recent_pruneWindow (Int.le_refl t)]
  · intro later hlater
    have hold := h.recent later fun c hc => Int.le_trans (hpast c hc) hlater
    rw [pushFailure, recent_pruneWindow hlater, recent_capWindow hsorted hlong, recent_append]
    omega

theorem countP_line (p : Prop) [Decidable p] (line : LogLine) (trigger : Trigger) :
    (if p then [line] else []).countP (·.trigger = trigger) =
      if p ∧ line.trigger = trigger then 1 else 0 := by
  by_cases h : p <;> simp [h, List.countP_singleton]

theorem recent_self (h : Follows config (stateOf row) earlier)
    (hpast : ∀ c ∈ earlier, c.timestamp ≤ t) (hne : recent config t (stateOf row).failures ≠ 0) :
    recent config t [t] = 1 := by
  obtain ⟨s, hs, hyoung⟩ := List.countP_pos_iff.mp (Nat.pos_of_ne_zero hne)
  obtain ⟨c, hc, rfl⟩ := mem_failureTimes (h.past s hs)
  have := hpast c hc
  simp only [decide_eq_true_eq] at hyoung
  rw [recent_singleton, if_pos (by omega)]

/-- Before a throttled call, where the latches are as they should be, the lines are as well. -/
theorem throttled_follows (h : Follows config (stateOf row) earlier)
    (hthreshold : 1 ≤ config.windowThreshold) (hpast : ∀ c ∈ earlier, c.timestamp ≤ t)
    {status : Nat} (hmeets : Meets config row ⟨.throttled status, t⟩) :
    Follows config (throttled config (stateOf row) status t).1 (⟨.throttled status, t⟩ :: earlier) ∧
      ∀ trigger, (throttled config (stateOf row) status t).2.countP (·.trigger = trigger) =
        if crosses config trigger ⟨.throttled status, t⟩ earlier ∧
          (drained config ⟨.throttled status, t⟩ earlier ∨ crossed config trigger earlier = false)
        then 1 else 0 := by
  have hdrained := drained_iff h hthreshold hpast (.throttled status)
  have hpushed := pushed_of_follows h hpast
  have hnow := h.recent t hpast
  have hone : recent config t [t] ≤ 1 := List.countP_le_length
  have hwindow := h.window
  have hconsecutive := h.consecutive
  have hstreak := h.streak
  unfold throttled
  generalize pushFailure config t (stateOf row).failures = failures at hpushed
  have hlength := hpushed.length
  have hrecent := hpushed.recent t (Int.le_refl t)
  have hsustained : crosses config .window ⟨.throttled status, t⟩ earlier =
      decide (config.windowThreshold ≤ failures.length) := by
    refine decide_eq_decide.mpr ?_
    show config.windowThreshold ≤ recent config t (t :: failureTimes earlier) ↔ _
    rw [recent_cons]
    omega
  have htripped : crosses config .consecutive ⟨.throttled status, t⟩ earlier =
      decide ((stateOf row).streak + 1 = config.consecutiveThreshold) := by
    rw [hstreak]
    rfl
  have hlatched : drained config ⟨.throttled status, t⟩ earlier = true →
      crossed config .consecutive earlier = false ∧
        (crosses config .window ⟨.throttled status, t⟩ earlier = true →
          crossed config .window earlier = false) := by
    intro hempty
    have hnone := hdrained.mp hempty
    obtain ⟨hunset, hwide⟩ := hmeets.rearmed nofun hnone
    refine ⟨hconsecutive ▸ hunset, fun hfull => ?_⟩
    rw [hsustained, decide_eq_true_eq] at hfull
    rcases hwide with hwide | hwide
    · exact hwindow ▸ hwide
    · omega
  have hheld : drained config ⟨.throttled status, t⟩ earlier = false →
      crossed config .window earlier = true →
      crosses config .window ⟨.throttled status, t⟩ earlier = true := by
    intro hfilled hset
    have hne : recent config t (stateOf row).failures ≠ 0 := by
      intro hnone
      exact absurd (hfilled.symm.trans (hdrained.mpr hnone)) nofun
    have hfull := hmeets.latched (hwindow.trans hset) hne
    have hself := recent_self h hpast hne
    rw [if_neg nofun] at hfull
    dsimp only at hfull
    rw [hsustained, decide_eq_true_eq]
    omega
  dsimp only
  rw [hwindow, hconsecutive, ← hsustained, ← htripped]
  refine ⟨⟨congrArg (· + 1) hstreak, hpushed.sorted, hpushed.capped, hpushed.past, ?_, ?_, ?_⟩, ?_⟩
  · intro later hlater
    rw [hpushed.recent later (hlater _ List.mem_cons_self), ← recent_cons]
    rfl
  · rw [crossed]
    revert hlatched hheld
    cases drained config ⟨.throttled status, t⟩ earlier <;>
      cases crosses config .window ⟨.throttled status, t⟩ earlier <;>
        cases crossed config .window earlier <;> simp
  · rw [crossed]
    revert hlatched
    cases drained config ⟨.throttled status, t⟩ earlier <;>
      cases crosses config .consecutive ⟨.throttled status, t⟩ earlier <;>
        cases crossed config .consecutive earlier <;> simp
  · intro trigger
    rw [List.countP_append, countP_line, countP_line]
    revert hlatched
    cases trigger with
    | consecutive =>
      cases drained config ⟨.throttled status, t⟩ earlier <;>
        cases crosses config .consecutive ⟨.throttled status, t⟩ earlier <;>
          cases crossed config .consecutive earlier <;> simp
    | window =>
      cases drained config ⟨.throttled status, t⟩ earlier <;>
        cases crosses config .window ⟨.throttled status, t⟩ earlier <;>
          cases crossed config .window earlier <;> simp

theorem healthy_follows (h : Follows config (stateOf row) earlier)
    (hthreshold : 1 ≤ config.windowThreshold) (hpast : ∀ c ∈ earlier, c.timestamp ≤ t)
    (hmeets : Meets config row ⟨.healthy, t⟩) :
    Follows config (stateOf (row.bind (healthy config · t))) (⟨.healthy, t⟩ :: earlier) := by
  have hdrained := drained_iff h hthreshold hpast .healthy
  have hkept : (pruneWindow config t (stateOf row).failures).Sublist (stateOf row).failures :=
    List.dropWhile_sublist _
  have hlength : (pruneWindow config t (stateOf row).failures).length =
      recent config t (stateOf row).failures := length_pruneWindow h.sorted
  have hrecent : ∀ later, (∀ c ∈ (⟨.healthy, t⟩ :: earlier : List HostCall), c.timestamp ≤ later) →
      recent config later (pruneWindow config t (stateOf row).failures) =
        min config.windowThreshold (recent config later (failureTimes earlier)) := by
    intro later hlater
    rw [recent_pruneWindow (hlater _ List.mem_cons_self)]
    exact h.recent later fun c hc => hlater c (List.mem_cons_of_mem _ hc)
  have hwindow := h.window
  have hconsecutive := h.consecutive
  have hquiet : ∀ trigger, crossed config trigger (⟨.healthy, t⟩ :: earlier) =
      (!drained config ⟨.healthy, t⟩ earlier && crossed config trigger earlier) := by
    intro trigger
    rw [crossed]
    rfl
  by_cases hempty : pruneWindow config t (stateOf row).failures = []
  · have hnone : stateOf (row.bind (healthy config · t)) = ⟨0, [], false, false⟩ := by
      cases row with
      | none => rfl
      | some state =>
        have hdeleted : healthy config state t = none := if_pos hempty
        rw [Option.bind_some, hdeleted]
        rfl
    have hover : drained config ⟨.healthy, t⟩ earlier = true := by
      rw [hempty] at hlength
      exact hdrained.mpr hlength.symm
    rw [hempty] at hrecent
    rw [hnone]
    refine ⟨rfl, .nil, Nat.zero_le _, nofun, hrecent, ?_, ?_⟩
    · rw [hquiet, hover]
      rfl
    · rw [hquiet, hover]
      rfl
  · cases row with
    | none => exact absurd rfl hempty
    | some state =>
      have hleft : drained config ⟨.healthy, t⟩ earlier = false := by
        refine Bool.eq_false_iff.mpr fun hover => hempty ?_
        exact List.eq_nil_of_length_eq_zero (hlength.trans (hdrained.mp hover))
      have hsome : healthy config state t = some _ := if_neg hempty
      rw [Option.bind_some, hsome]
      refine ⟨rfl, h.sorted.sublist hkept, Nat.le_trans hkept.length_le h.capped,
        fun s hs => h.past s (hkept.subset hs), hrecent, ?_, ?_⟩
      · rw [hquiet, hleft, ← hwindow]
        have hheld : state.windowAlerted = true →
            config.windowThreshold ≤ (pruneWindow config t state.failures).length := by
          intro hset
          have hne : recent config t state.failures ≠ 0 := by
            intro hnone
            exact hempty (List.eq_nil_of_length_eq_zero (hlength.trans hnone))
          have hfull := hmeets.latched hset hne
          rw [if_pos rfl, Nat.add_zero] at hfull
          exact Nat.le_trans hfull (Nat.le_of_eq hlength.symm)
        cases hset : state.windowAlerted with
        | false => simp [stateOf, hset]
        | true => simp [stateOf, hset, hheld hset]
      · rw [hquiet, hleft]
        exact hconsecutive

end Steps

section Runs

variable {config : Thresholds} {calls segment earlier : List HostCall}

theorem row_follows (hthreshold : 1 ≤ config.windowThreshold)
    (hordered : calls.Pairwise (·.timestamp ≥ ·.timestamp)) (h : MeetsThroughout config calls) :
    Follows config (stateOf (row config calls)) calls := by
  induction calls with
  | nil =>
    refine ⟨rfl, .nil, Nat.zero_le _, nofun, ?_, rfl, rfl⟩
    intro t _
    exact (Nat.min_zero _).symm
  | cons c earlier ih =>
    obtain ⟨hpast, hearlier⟩ := List.pairwise_cons.mp hordered
    obtain ⟨hmeets, hbefore⟩ := h
    have hfollows := ih hearlier hbefore
    obtain ⟨answer, t⟩ := c
    cases answer with
    | throttled status => exact (throttled_follows hfollows hthreshold hpast hmeets).1
    | healthy => exact healthy_follows hfollows hthreshold hpast hmeets

theorem meetsThroughout_of_append {later : List HostCall}
    (h : MeetsThroughout config (later ++ calls)) : MeetsThroughout config calls := by
  induction later with
  | nil => exact h
  | cons c later ih => exact ih h.2

theorem fires_of_meets (hthreshold : 1 ≤ config.windowThreshold) {c : HostCall}
    (hordered : (c :: earlier).Pairwise (·.timestamp ≥ ·.timestamp))
    (h : MeetsThroughout config (c :: earlier)) (trigger : Trigger) :
    (lines config c earlier).countP (·.trigger = trigger) =
      if crosses config trigger c earlier ∧
        (drained config c earlier ∨ crossed config trigger earlier = false) then 1 else 0 := by
  obtain ⟨hpast, hearlier⟩ := List.pairwise_cons.mp hordered
  have hfollows := row_follows hthreshold hearlier h.2
  obtain ⟨answer, t⟩ := c
  cases answer with
  | throttled status => exact (throttled_follows hfollows hthreshold hpast h.1).2 trigger
  | healthy => rfl

/-- Of one trigger, a segment with no drained window inside logs at most one line. -/
theorem countP_linesIn (trigger : Trigger)
    (hfires : ∀ newer c older, segment = newer ++ c :: older →
      (lines config c (older ++ earlier)).countP (·.trigger = trigger) =
        if crosses config trigger c (older ++ earlier) ∧ (drained config c (older ++ earlier) ∨
          crossed config trigger (older ++ earlier) = false) then 1 else 0)
    (hfilled : ∀ newer c older, segment = newer ++ c :: older → older ≠ [] →
      drained config c (older ++ earlier) = false) :
    (linesIn config segment earlier).countP (·.trigger = trigger) ≤
      if crossed config trigger (segment ++ earlier) then 1 else 0 := by
  induction segment with
  | nil => exact Nat.zero_le _
  | cons c older ih =>
    have hline := hfires [] c older rfl
    have hrest := ih (fun newer d rest h => hfires (c :: newer) d rest (congrArg _ h))
      fun newer d rest h => hfilled (c :: newer) d rest (congrArg _ h)
    rw [linesIn, List.countP_append, hline, List.cons_append, crossed]
    cases older with
    | nil =>
      rw [linesIn, List.countP_nil, List.nil_append]
      cases crosses config trigger c earlier <;> simp
      split <;> simp
    | cons d rest =>
      rw [hfilled [] c (d :: rest) rfl (List.cons_ne_nil d rest)]
      revert hrest
      cases crosses config trigger c (d :: rest ++ earlier) <;>
        cases crossed config trigger (d :: rest ++ earlier) <;> simp

/-- Where no step finds a latch wrongly cleared or set, each trigger fires once an outage. -/
theorem latchLaw_of_meets (hthreshold : 1 ≤ config.windowThreshold)
    (hordered : calls.Pairwise (·.timestamp ≥ ·.timestamp)) (h : MeetsThroughout config calls) :
    LatchLaw config calls where
  fires := by
    rintro later c earlier rfl
    exact fires_of_meets hthreshold (List.pairwise_append.mp hordered).2.1
      (meetsThroughout_of_append h)
  twoLines := by
    rintro later segment earlier rfl hfilled
    have hone := fun trigger => countP_linesIn trigger (fun newer c older hsegment => by
      subst hsegment
      rw [List.append_assoc, ← List.append_assoc] at hordered h
      exact fires_of_meets hthreshold (List.pairwise_append.mp hordered).2.1
        (meetsThroughout_of_append h) trigger) hfilled
    have hone' : ∀ trigger, (linesIn config segment earlier).countP (·.trigger = trigger) ≤ 1 := by
      intro trigger
      refine Nat.le_trans (hone trigger) ?_
      split <;> simp
    have hother : (linesIn config segment earlier).countP (fun l => ¬ l.trigger = .consecutive) =
        (linesIn config segment earlier).countP (·.trigger = .window) := by
      refine List.countP_congr fun l _ => ?_
      cases l.trigger <;> simp
    have hconsecutive := hone' .consecutive
    have hwindow := hone' .window
    rw [List.length_eq_countP_add_countP (·.trigger = .consecutive)]
    simp only [decide_eq_true_eq]
    omega

/-! Runs under the configured thresholds. -/

def calledAt (timestamp : Int) (n : Nat) : List HostCall :=
  List.replicate n ⟨.throttled 429, timestamp⟩

/-- Two outages with a healthy call between them that finds the window empty. -/
def separateOutages : List HostCall :=
  calledAt 60001 4 ++ ⟨.healthy, 60000⟩ :: calledAt 0 4

theorem latchLaw_of_meets_separateOutages : MeetsThroughout sustainedThresholds separateOutages ∧
      LatchLaw sustainedThresholds separateOutages ∧
      (linesIn sustainedThresholds separateOutages []).length = 2 := by
  have h : MeetsThroughout sustainedThresholds separateOutages := by decide
  exact ⟨h, latchLaw_of_meets (by decide) (by decide) h, by decide⟩

/-- Six failures age out while six are left, and six more come: the window fires again. -/
def hoveringOutage : List HostCall :=
  calledAt 60001 6 ++ ⟨.healthy, 60000⟩ :: (calledAt 30000 6 ++ calledAt 0 6)

/-- After a minute without any call the outage goes on, and the next streak is not reported. -/
def quietGap : List HostCall :=
  calledAt 60002 4 ++ ⟨.healthy, 60001⟩ :: (calledAt 60000 1 ++ calledAt 0 4)

theorem latches_fail :
    ¬ LatchLaw sustainedThresholds hoveringOutage ∧ ¬ LatchLaw sustainedThresholds quietGap := by
  constructor
  · intro h
    exact absurd (h.fires [] _ _ rfl .window) (by decide)
  · intro h
    exact absurd (h.fires [] _ _ rfl .consecutive) (by decide)

end Runs

end ClockifyAssistant.HostThrottle
