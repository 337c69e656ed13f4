import ClockifyAssistant.Lib.Txn

/-!
Scans of a paged list. A scan asks for consecutive pages until one of them ends
it or its page limit is used up. `ScanEnds` is the run of a scan that a page
ends, and the slices of a list put together are a prefix of it.
-/
namespace ClockifyAssistant.Lib

variable {σ ε α : Type}

/-- The rows of one page, and whether the scan ends with it. -/
structure Chunk (α : Type) where
  rows : List α
  ends : Bool

structure Scanned (α : Type) where
  rows : List α
  complete : Bool

def scan (load : Nat → Nat → Txn σ ε (Chunk α)) : Nat → Nat → List α → Txn σ ε (Scanned α)
  | 0, _, rows => return { rows, complete := false }
  | limit + 1, page, rows => do
      let chunk ← load page rows.length
      if chunk.ends then return { rows := rows ++ chunk.rows, complete := true }
      scan load limit (page + 1) (rows ++ chunk.rows)

/-- The scan goes on from `page` for `n` pages and the next one ends it. -/
inductive ScanEnds (load : Nat → Nat → Txn σ ε (Chunk α)) :
    Nat → List α → σ → Nat → List α → σ → Prop
  | here {page rows s chunk s'} (hload : load page rows.length s = .ok (chunk, s'))
      (hends : chunk.ends = true) : ScanEnds load page rows s 0 (rows ++ chunk.rows) s'
  | later {page rows s chunk s' n rows' s''} (hload : load page rows.length s = .ok (chunk, s'))
      (hends : chunk.ends = false)
      (hrest : ScanEnds load (page + 1) (rows ++ chunk.rows) s' n rows' s'') :
      ScanEnds load page rows s (n + 1) rows' s''

variable {load : Nat → Nat → Txn σ ε (Chunk α)}

theorem scan_complete_iff {limit page : Nat} {rows rows' : List α} {s s' : σ} :
    scan load limit page rows s = .ok ({ rows := rows', complete := true }, s') ↔
      ∃ n < limit, ScanEnds load page rows s n rows' s' := by
  induction limit generalizing page rows s with
  | zero =>
    constructor
    · intro h
      cases h
    · rintro ⟨n, hn, _⟩
      omega
  | succ limit ih =>
    rw [scan]
    cases hload : load page rows.length s with
    | error e =>
      constructor
      · intro h
        simp [bind, StateT.bind, Except.bind, hload] at h
      · rintro ⟨n, _, hends⟩
        cases hends <;> simp_all
    | ok r =>
      obtain ⟨chunk, t⟩ := r
      rw [Txn.bind_ok hload]
      cases hends : chunk.ends with
      | true =>
        constructor
        · intro h
          cases h
          exact ⟨0, by omega, .here hload hends⟩
        · rintro ⟨n, _, hrun⟩
          cases hrun with
          | here hload' hends' =>
            rw [hload] at hload'
            cases hload'
            rfl
          | later hload' hends' _ =>
            rw [hload] at hload'
            cases hload'
            rw [hends] at hends'
            cases hends'
      | false =>
        rw [if_neg (by simp), ih]
        constructor
        · rintro ⟨n, hn, hrun⟩
          exact ⟨n + 1, by omega, .later hload hends hrun⟩
        · rintro ⟨n, hn, hrun⟩
          cases hrun with
          | here hload' hends' =>
            rw [hload] at hload'
            cases hload'
            rw [hends] at hends'
            cases hends'
          | later hload' hends' hrest =>
            rw [hload] at hload'
            cases hload'
            exact ⟨_, by omega, hrest⟩

theorem ScanEnds.prefix {page n : Nat} {rows rows' : List α} {s s' : σ}
    (h : ScanEnds load page rows s n rows' s') : rows <+: rows' := by
  induction h with
  | here => exact List.prefix_append _ _
  | later _ _ _ ih => exact (List.prefix_append _ _).trans ih

section Slices

/-- The rows of `xs` that fall on page `n`, counted from 0, with `size` rows on a page. -/
def slice (xs : List α) (size n : Nat) : List α :=
  (xs.drop (n * size)).take size

theorem take_append_slice (xs : List α) (size n : Nat) :
    xs.take (n * size) ++ slice xs size n = xs.take ((n + 1) * size) := by
  rw [slice, Nat.succ_mul, List.take_add]

end Slices

end ClockifyAssistant.Lib
