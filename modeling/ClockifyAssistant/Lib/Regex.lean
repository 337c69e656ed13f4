import Mathlib.Algebra.GroupWithZero.Nat
import Mathlib.Data.List.Basic

/-!
Regular expressions as a backtracking matcher reads them: a match is found at the first position
that has one, and there it is the first in the order of the choices.
-/
namespace ClockifyAssistant.Lib

inductive Regex (α : Type) where
  | empty
  | symbol (accepts : α → Bool)
  | seq (first second : Regex α)
  | alt (first second : Regex α)
  | star (body : Regex α)
  | atStart
  | atEnd
  /-- Between a symbol of a word and one of none. -/
  | boundary (inWord : α → Bool)
  | ahead (body : Regex α)
  | notAhead (body : Regex α)
  | capture (body : Regex α)

namespace Regex

variable {α : Type}

/-- A position of a text, with what has been captured on the way to it. -/
structure Cursor (α : Type) where
  before : List α
  after : List α
  captured : Option (Nat × Nat)

def Cursor.position (c : Cursor α) : Nat := c.before.length

def Cursor.next (c : Cursor α) : List (Cursor α) :=
  match c.after with
  | [] => []
  | x :: rest => [{ c with before := x :: c.before, after := rest }]

/-- Where a starred step may end, the longest first; an iteration that reads nothing is none. -/
def rounds (step : Cursor α → List (Cursor α)) : Nat → Cursor α → List (Cursor α)
  | 0, c => [c]
  | fuel + 1, c =>
      ((step c).filter fun next => c.position < next.position).flatMap (rounds step fuel) ++ [c]

/-- Where a match may end, in the order of the choices. -/
def ends : Regex α → Cursor α → List (Cursor α)
  | .empty, c => [c]
  | .symbol accepts, c => if c.after.head?.any accepts then c.next else []
  | .seq first second, c => (ends first c).flatMap (ends second)
  | .alt first second, c => ends first c ++ ends second c
  | .star body, c => rounds (ends body) c.after.length c
  | .atStart, c => if c.before.isEmpty then [c] else []
  | .atEnd, c => if c.after.isEmpty then [c] else []
  | .boundary inWord, c =>
      if c.before.head?.any inWord != c.after.head?.any inWord then [c] else []
  | .ahead body, c =>
      ((ends body c).head?.map fun seen => { c with captured := seen.captured }).toList
  | .notAhead body, c => if (ends body c).isEmpty then [c] else []
  | .capture body, c =>
      (ends body c).map fun next => { next with captured := some (c.position, next.position) }

structure Match where
  start : Nat
  stop : Nat
  captured : Option (Nat × Nat)
  deriving DecidableEq

/-- The matches from a position on, each where the last one ended, or one symbol further where
that one was empty. -/
def matchesFrom (r : Regex α) : Nat → Cursor α → List Match
  | 0, _ => []
  | fuel + 1, c =>
      match (ends r c).head? with
      | none => c.next.flatMap (matchesFrom r fuel)
      | some found =>
          ⟨c.position, found.position, found.captured⟩ ::
            if c.position < found.position then
              matchesFrom r fuel { found with captured := none }
            else c.next.flatMap (matchesFrom r fuel)

/-- `text.matchAll(r)` -/
def matchAll (r : Regex α) (text : List α) : List Match :=
  matchesFrom r (text.length + 1) ⟨[], text, none⟩

/-- `r.test(text)` -/
def test (r : Regex α) (text : List α) : Bool := !(matchAll r text).isEmpty

def opt (r : Regex α) : Regex α := .alt r .empty

def plus (r : Regex α) : Regex α := .seq r (.star r)

def sequence : List (Regex α) → Regex α
  | [] => .empty
  | [r] => r
  | r :: rest => .seq r (sequence rest)

def oneOf : List (Regex α) → Regex α
  | [] => .notAhead .empty
  | [r] => r
  | r :: rest => .alt r (oneOf rest)

end Regex

end ClockifyAssistant.Lib
