import ClockifyAssistant.Lib.History
import ClockifyAssistant.Database

/-!
The role rechecker: a read of the caller's workspace role for each check, with a
short cache of positive verdicts and one shared read for checks that are not
forced. The host answers reads in any order. An answer resumes its check, and a
shared read is forgotten, by jobs that run in the order in which they were
queued; calls come at any point between them. The log is kept for the theorems.
-/
namespace ClockifyAssistant

open Lib

inductive RoleVerdict
  | admin | nonAdmin | unknown
  deriving DecidableEq

/-- What the host read resolves to; `undefined` is `absent`. -/
inductive HostRole
  | absent
  | text (role : String)
  | other
  deriving DecidableEq

/-- White space and line terminators, as `trim` has them. -/
def isTrimmed (c : Char) : Bool :=
  (9 ≤ c.toNat && c.toNat ≤ 13) || c.toNat == 32 || c.toNat == 0xA0 || c.toNat == 0x1680 ||
    (0x2000 ≤ c.toNat && c.toNat ≤ 0x200A) || c.toNat == 0x2028 || c.toNat == 0x2029 ||
    c.toNat == 0x202F || c.toNat == 0x205F || c.toNat == 0x3000 || c.toNat == 0xFEFF

def trimmed (text : List Char) : List Char :=
  ((text.dropWhile isTrimmed).reverse.dropWhile isTrimmed).reverse

def isAdminRole : HostRole → Bool
  | .text role =>
      let normalized := (trimmed role.toList).map Char.toLower
      normalized == ['o', 'w', 'n', 'e', 'r'] || normalized == ['a', 'd', 'm', 'i', 'n']
  | _ => false

/-- Whose role is asked for, and under which installation generation. -/
structure RoleSubject where
  workspaceId : String
  adminUserId : String
  generation : Option Int
  deriving DecidableEq

def generationText : Option Int → String
  | some generation => if generation.natAbs ≤ maxSafeInteger then toString generation else "legacy"
  | none => "legacy"

def RoleSubject.key (subject : RoleSubject) : String :=
  subject.workspaceId ++ ":" ++ subject.adminUserId ++ ":" ++ generationText subject.generation

/-- A read waits for the host, then for its job, and is done once that has run. -/
inductive RoleReadPhase
  | awaiting | queued | done
  deriving DecidableEq

structure RoleRead where
  subject : RoleSubject
  epoch : Nat
  force : Bool

inductive RoleJob
  | resume (read : Nat) (outcome : Option HostRole)
  | cleanup (read : Nat)

inductive RoleSource
  | cached
  | read (read : Nat)
  deriving DecidableEq

inductive RoleEvent
  | issued (read : Nat) (subject : RoleSubject) (force : Bool)
  | completed (read : Nat) (verdict : RoleVerdict) (at_ : Time)
  | returned (subject : RoleSubject) (force : Bool) (source : RoleSource) (at_ : Time)
  deriving DecidableEq

structure RecheckState where
  cache : String → Option Time
  latestIssued : String → Option Nat
  latestCompleted : String → Option Nat
  nonForcedInFlight : String → Option Nat
  reads : Nat → Option RoleRead
  phase : Nat → RoleReadPhase
  nextRead : Nat
  jobs : List RoleJob
  now : Time
  log : List RoleEvent

def RecheckState.initial : RecheckState where
  cache := fun _ => none
  latestIssued := fun _ => none
  latestCompleted := fun _ => none
  nonForcedInFlight := fun _ => none
  reads := fun _ => none
  phase := fun _ => .awaiting
  nextRead := 0
  jobs := []
  now := 0
  log := []

/-- A positive verdict lives for at most 60 seconds. -/
def positiveTtl (ttlMs : Int) : Nat := (max 0 (min ttlMs 60000)).toNat

namespace RecheckState

variable (ttlMs : Int) (s : RecheckState)

def issue (subject : RoleSubject) (force : Bool) : RecheckState :=
  let epoch := (s.latestIssued subject.key).getD 0 + 1
  { s with
    latestIssued := Function.update s.latestIssued subject.key (some epoch)
    reads := Function.update s.reads s.nextRead (some ⟨subject, epoch, force⟩)
    nextRead := s.nextRead + 1
    nonForcedInFlight :=
      if force then s.nonForcedInFlight
      else Function.update s.nonForcedInFlight subject.key (some s.nextRead)
    log := s.log ++ [.issued s.nextRead subject force] }

def returns (subject : RoleSubject) (force : Bool) (source : RoleSource) : RecheckState :=
  { s with log := s.log ++ [.returned subject force source s.now] }

def servesCached (subject : RoleSubject) (force : Bool) : Bool :=
  !force && (s.cache subject.key).any (s.now < ·)

def joins (subject : RoleSubject) (force : Bool) : Option Nat :=
  if s.servesCached subject force || force then none else s.nonForcedInFlight subject.key

def check (subject : RoleSubject) (force : Bool) : RecheckState :=
  if s.servesCached subject force then s.returns subject force .cached
  else
    let dropped := { s with cache := Function.update s.cache subject.key none }
    match if force then none else s.nonForcedInFlight subject.key with
    | some existing => dropped.returns subject force (.read existing)
    | none => (dropped.issue subject force).returns subject force (.read s.nextRead)

def answer (read : Nat) (outcome : Option HostRole) : RecheckState :=
  if (s.reads read).isSome ∧ s.phase read = .awaiting then
    { s with
      phase := Function.update s.phase read .queued
      jobs := s.jobs ++ [.resume read outcome] }
  else s

/-- The read is no longer the latest one issued, or a later one has completed. -/
def superseded (r : RoleRead) : Bool :=
  s.latestIssued r.subject.key != some r.epoch || r.epoch < (s.latestCompleted r.subject.key).getD 0

def verdict (r : RoleRead) (outcome : Option HostRole) : RoleVerdict :=
  if s.superseded r then .unknown
  else match outcome with
  | none => .unknown
  | some role =>
      if isAdminRole role then .admin else if role = .absent then .unknown else .nonAdmin

/-- What a completed read leaves in the cache; an exception leaves it alone. -/
def cacheAfter (r : RoleRead) (outcome : Option HostRole) : String → Option Time :=
  if s.superseded r then s.cache
  else match outcome with
  | none => s.cache
  | some role =>
      Function.update s.cache r.subject.key
        (if isAdminRole role then some (s.now + positiveTtl ttlMs) else none)

def resume (read : Nat) (outcome : Option HostRole) : RecheckState :=
  match s.reads read with
  | some r =>
      if s.phase read = .queued then
        { s with
          cache := s.cacheAfter ttlMs r outcome
          latestCompleted :=
            if s.superseded r then s.latestCompleted
            else Function.update s.latestCompleted r.subject.key (some r.epoch)
          phase := Function.update s.phase read .done
          jobs := if r.force then s.jobs else s.jobs ++ [.cleanup read]
          log := s.log ++ [.completed read (s.verdict r outcome) s.now] }
      else s
  | none => s

/-- A shared read is forgotten once it has completed. -/
def cleanup (read : Nat) : RecheckState :=
  match s.reads read with
  | some r =>
      if s.nonForcedInFlight r.subject.key = some read then
        { s with nonForcedInFlight := Function.update s.nonForcedInFlight r.subject.key none }
      else s
  | none => s

def runJob : RecheckState :=
  match s.jobs with
  | [] => s
  | .resume read outcome :: rest => { s with jobs := rest }.resume ttlMs read outcome
  | .cleanup read :: rest => { s with jobs := rest }.cleanup read

end RecheckState

inductive RecheckStep
  | check (subject : RoleSubject) (force : Bool)
  | answer (read : Nat) (outcome : Option HostRole)
  | job

def RecheckState.step (ttlMs : Int) (s : RecheckState) : RecheckStep → RecheckState
  | .check subject force => s.check subject force
  | .answer read outcome => s.answer read outcome
  | .job => s.runJob ttlMs

def RecheckState.wait (s : RecheckState) (elapsed : Nat) : RecheckState :=
  { s with now := s.now + elapsed }

def runRecheck (ttlMs : Int) (steps : List (Nat × RecheckStep)) : RecheckState :=
  steps.foldl (fun s step => (s.wait step.1).step ttlMs step.2) .initial

theorem runRecheck_concat (ttlMs : Int) (steps : List (Nat × RecheckStep))
    (step : Nat × RecheckStep) : runRecheck ttlMs (steps ++ [step]) =
      ((runRecheck ttlMs steps).wait step.1).step ttlMs step.2 := by
  simp [runRecheck]

end ClockifyAssistant
