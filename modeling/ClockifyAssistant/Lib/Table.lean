import Mathlib.Data.List.Nodup

/-!
Keyed tables: finite lists of rows with pairwise distinct keys.
Rows are updated in place, inserted under a fresh key, or deleted.
Every operation is described by what a lookup returns afterwards, so a
development over several tables never reasons about row order.
-/
namespace ClockifyAssistant.Lib

universe u v

class Keyed (ρ : Type u) (κ : outParam (Type v)) where
  key : ρ → κ

export Keyed (key)

structure Table (ρ : Type u) {κ : Type v} [Keyed ρ κ] where
  rows : List ρ
  nodup : (rows.map key).Nodup

namespace Table

variable {ρ : Type u} {κ : Type v} [Keyed ρ κ]

@[ext] theorem ext {s t : Table ρ} (h : s.rows = t.rows) : s = t := by
  cases s
  cases t
  cases h
  rfl

instance [DecidableEq ρ] : DecidableEq (Table ρ) := fun s t =>
  decidable_of_iff (s.rows = t.rows) ⟨ext, fun h => h ▸ rfl⟩

def empty : Table ρ := ⟨[], List.nodup_nil⟩

instance : Inhabited (Table ρ) := ⟨empty⟩

def updateWhere (t : Table ρ) (p : ρ → Bool) (f : ρ → ρ)
    (hf : ∀ r, key (f r) = key r := by intro r; rfl) : Table ρ where
  rows := t.rows.map fun r => if p r then f r else r
  nodup := by
    have hkeys : (t.rows.map fun r => if p r then f r else r).map key = t.rows.map key := by
      rw [List.map_map]
      refine List.map_congr_left fun r _ => ?_
      by_cases hp : p r <;> simp [hp, hf]
    rw [hkeys]
    exact t.nodup

def deleteWhere (t : Table ρ) (p : ρ → Bool) : Table ρ where
  rows := t.rows.filter fun r => !p r
  nodup := (List.filter_sublist.map key).nodup t.nodup

theorem mem_updateWhere {t : Table ρ} {p : ρ → Bool} {f : ρ → ρ}
    {hf : ∀ r, key (f r) = key r} {r' : ρ} :
    r' ∈ (t.updateWhere p f hf).rows ↔ ∃ r ∈ t.rows, (if p r then f r else r) = r' :=
  List.mem_map

theorem mem_deleteWhere {t : Table ρ} {p : ρ → Bool} {r : ρ} :
    r ∈ (t.deleteWhere p).rows ↔ r ∈ t.rows ∧ p r = false := by
  simp [deleteWhere]

theorem updateWhere_eq_self {t : Table ρ} {p : ρ → Bool} {f : ρ → ρ}
    {hf : ∀ r, key (f r) = key r} (h : ∀ r ∈ t.rows, p r = true → f r = r) :
    t.updateWhere p f hf = t := by
  apply ext
  change t.rows.map _ = t.rows
  conv_rhs => rw [← List.map_id t.rows]
  refine List.map_congr_left fun r hr => ?_
  by_cases hp : p r
  · simpa [hp] using h r hr hp
  · simp [hp]

/-- No row of `t'` satisfies `p` unless the row of its key already did in `t`. -/
def NoNew (p : ρ → Prop) (t t' : Table ρ) : Prop :=
  ∀ r' ∈ t'.rows, p r' → ∃ r ∈ t.rows, key r = key r' ∧ p r

section NoNew

variable {p : ρ → Prop} {t t' t'' : Table ρ}

theorem NoNew.refl (p : ρ → Prop) (t : Table ρ) : NoNew p t t :=
  fun r hr hp => ⟨r, hr, rfl, hp⟩

theorem NoNew.of_eq (h : t' = t) : NoNew p t t' := h ▸ NoNew.refl p t

theorem NoNew.trans (h : NoNew p t t') (h' : NoNew p t' t'') : NoNew p t t'' := by
  intro r'' hr'' hp''
  obtain ⟨r', hr', hkey', hp'⟩ := h' r'' hr'' hp''
  obtain ⟨r, hr, hkey, hp⟩ := h r' hr' hp'
  exact ⟨r, hr, hkey.trans hkey', hp⟩

theorem NoNew.none (h : NoNew p t t') (hnone : ∀ r ∈ t.rows, ¬ p r) : ∀ r ∈ t'.rows, ¬ p r := by
  intro r' hr' hp'
  obtain ⟨r, hr, _, hp⟩ := h r' hr' hp'
  exact hnone r hr hp

theorem noNew_updateWhere {q : ρ → Bool} {f : ρ → ρ} {hf : ∀ r, key (f r) = key r}
    (h : ∀ r ∈ t.rows, q r = true → p (f r) → p r) : NoNew p t (t.updateWhere q f hf) := by
  intro r' hr' hp'
  obtain ⟨r, hr, rfl⟩ := mem_updateWhere.mp hr'
  by_cases hq : q r = true
  · simp only [hq, ↓reduceIte] at hp' ⊢
    exact ⟨r, hr, (hf r).symm, h r hr hq hp'⟩
  · simp only [hq, Bool.false_eq_true, ↓reduceIte] at hp' ⊢
    exact ⟨r, hr, rfl, hp'⟩

end NoNew

section Lookup

variable [DecidableEq κ]

def get? (t : Table ρ) (k : κ) : Option ρ :=
  t.rows.find? fun r => decide (key r = k)

def update (t : Table ρ) (k : κ) (f : ρ → ρ)
    (hf : ∀ r, key (f r) = key r := by intro r; rfl) : Table ρ :=
  t.updateWhere (fun r => decide (key r = k)) f hf

def delete (t : Table ρ) (k : κ) : Table ρ :=
  t.deleteWhere fun r => decide (key r = k)

def insert (t : Table ρ) (r : ρ) (h : t.get? (key r) = none) : Table ρ where
  rows := t.rows ++ [r]
  nodup := by
    rw [List.map_append, List.nodup_append]
    refine ⟨t.nodup, List.nodup_singleton _, ?_⟩
    intro k hk k' hk' heq
    obtain ⟨r', hr', rfl⟩ := List.mem_map.mp hk
    have hkey : key r' = key r := by simpa [heq] using hk'
    have hnot := List.find?_eq_none.mp h r' hr'
    simp [hkey] at hnot

theorem get?_eq_some {t : Table ρ} {k : κ} {r : ρ} :
    t.get? k = some r ↔ r ∈ t.rows ∧ key r = k := by
  constructor
  · intro h
    exact ⟨List.mem_of_find?_eq_some h, by simpa using List.find?_some h⟩
  · rintro ⟨hmem, hkey⟩
    cases hfind : t.get? k with
    | none =>
      have hnot := List.find?_eq_none.mp hfind r hmem
      simp [hkey] at hnot
    | some r' =>
      have hmem' := List.mem_of_find?_eq_some hfind
      have hkey' : key r' = k := by simpa using List.find?_some hfind
      have hinj := List.inj_on_of_nodup_map t.nodup
      rw [hinj hmem' hmem (hkey'.trans hkey.symm)]

theorem get?_eq_none {t : Table ρ} {k : κ} : t.get? k = none ↔ ∀ r ∈ t.rows, key r ≠ k := by
  simp [get?, List.find?_eq_none]

theorem key_of_get? {t : Table ρ} {k : κ} {r : ρ} (h : t.get? k = some r) : key r = k :=
  (get?_eq_some.mp h).2

theorem mem_of_get? {t : Table ρ} {k : κ} {r : ρ} (h : t.get? k = some r) : r ∈ t.rows :=
  (get?_eq_some.mp h).1

theorem get?_of_mem {t : Table ρ} {r : ρ} (h : r ∈ t.rows) : t.get? (key r) = some r :=
  get?_eq_some.mpr ⟨h, rfl⟩

@[simp] theorem get?_empty (k : κ) : (empty : Table ρ).get? k = none := rfl

@[simp] theorem get?_updateWhere (t : Table ρ) (p : ρ → Bool) (f : ρ → ρ)
    (hf : ∀ r, key (f r) = key r) (k : κ) :
    (t.updateWhere p f hf).get? k = (t.get? k).map fun r => if p r then f r else r := by
  have hkey : ∀ r, key (if p r then f r else r) = key r := by
    intro r
    by_cases hp : p r <;> simp [hp, hf]
  simp [get?, updateWhere, List.find?_map, Function.comp_def, hkey]

@[simp] theorem get?_update (t : Table ρ) (k : κ) (f : ρ → ρ)
    (hf : ∀ r, key (f r) = key r) (k' : κ) :
    (t.update k f hf).get? k' = if k' = k then (t.get? k').map f else t.get? k' := by
  rw [update, get?_updateWhere]
  cases h : t.get? k' with
  | none => simp
  | some r =>
    have hkey := key_of_get? h
    by_cases heq : k' = k <;> simp [hkey, heq]

@[simp] theorem get?_deleteWhere (t : Table ρ) (p : ρ → Bool) (k : κ) :
    (t.deleteWhere p).get? k = (t.get? k).filter fun r => !p r := by
  cases h : t.get? k with
  | none =>
    rw [Option.filter_none]
    refine get?_eq_none.mpr fun r hr => ?_
    exact get?_eq_none.mp h r (mem_deleteWhere.mp hr).1
  | some r =>
    by_cases hp : p r
    · simp only [Option.filter_some, hp, Bool.not_true, Bool.false_eq_true, ↓reduceIte]
      refine get?_eq_none.mpr fun r' hr' hkey => ?_
      obtain ⟨hmem, hnot⟩ := mem_deleteWhere.mp hr'
      have hsome := get?_eq_some.mpr ⟨hmem, hkey⟩
      rw [h] at hsome
      cases hsome
      simp [hp] at hnot
    · simp only [Option.filter_some, hp, Bool.not_false, ↓reduceIte]
      exact get?_eq_some.mpr ⟨mem_deleteWhere.mpr ⟨mem_of_get? h, by simpa using hp⟩, key_of_get? h⟩

theorem get?_insert (t : Table ρ) (r : ρ) (h : t.get? (key r) = none) (k : κ) :
    (t.insert r h).get? k = if k = key r then some r else t.get? k := by
  by_cases hk : k = key r
  · subst hk
    rw [if_pos rfl]
    exact get?_eq_some.mpr ⟨by simp [insert], rfl⟩
  · rw [if_neg hk]
    have hne : ¬ key r = k := fun heq => hk heq.symm
    simp [get?, insert, List.find?_append, hne]

theorem mem_insert {t : Table ρ} {r r' : ρ} {h : t.get? (key r) = none} :
    r' ∈ (t.insert r h).rows ↔ r' ∈ t.rows ∨ r' = r := by
  simp [insert]

@[simp] theorem get?_delete (t : Table ρ) (k k' : κ) :
    (t.delete k).get? k' = if k' = k then none else t.get? k' := by
  rw [delete, get?_deleteWhere]
  cases h : t.get? k' with
  | none => simp
  | some r =>
    have hkey := key_of_get? h
    by_cases heq : k' = k <;> simp [hkey, heq]

/-- Insert the row, or replace the one of its key. -/
def put (t : Table ρ) (r : ρ) : Table ρ :=
  (t.delete (key r)).insert r (by simp)

@[simp] theorem get?_put (t : Table ρ) (r : ρ) (k : κ) :
    (t.put r).get? k = if k = key r then some r else t.get? k := by
  rw [put, get?_insert, get?_delete]
  by_cases hk : k = key r <;> simp [hk]

theorem update_eq_self {t : Table ρ} {k : κ} {f : ρ → ρ} {hf : ∀ r, key (f r) = key r}
    (h : ∀ r, t.get? k = some r → f r = r) : t.update k f hf = t :=
  updateWhere_eq_self fun r hr hp => h r (get?_eq_some.mpr ⟨hr, by simpa using hp⟩)

theorem noNew_update {p : ρ → Prop} {t : Table ρ} {k : κ} {f : ρ → ρ}
    {hf : ∀ r, key (f r) = key r} (h : ∀ r, t.get? k = some r → p (f r) → p r) :
    NoNew p t (t.update k f hf) :=
  noNew_updateWhere fun r hr hk =>
    h r (get?_eq_some.mpr ⟨hr, by simpa using hk⟩)

theorem NoNew.get? {p : ρ → Prop} {t t' : Table ρ} (h : NoNew p t t') {k : κ} {r' : ρ}
    (hr' : t'.get? k = some r') (hp : p r') : ∃ r, t.get? k = some r ∧ p r := by
  obtain ⟨r, hr, hkey, hpr⟩ := h r' (mem_of_get? hr') hp
  exact ⟨r, get?_eq_some.mpr ⟨hr, hkey.trans (key_of_get? hr')⟩, hpr⟩

section Counting

variable {t t' t'' : Table ρ} {p q : ρ → Bool} {ks ks' : List κ} {k : κ} {f : ρ → ρ}

/-- How many rows with `p` have become rows with `q`. -/
def moved (p q : ρ → Bool) (t t' : Table ρ) : Nat :=
  t.rows.countP fun r => p r && (t'.get? (key r)).any q

theorem moved_eq_countP (h : ∀ r ∈ t.rows, p r = true → (t'.get? (key r)).any q = true) :
    moved p q t t' = t.rows.countP p :=
  List.countP_congr fun r hr => by
    rw [Bool.and_eq_true]
    exact and_iff_left_of_imp (h r hr)

/-- A count depends only on which keys hold a row that is counted. -/
theorem countP_of_get? (h : ∀ k, (t.get? k).any p = (t'.get? k).any q) :
    t.rows.countP p = t'.rows.countP q := by
  have hmem : ∀ (s : Table ρ) (r : ρ → Bool) (k : κ),
      k ∈ (s.rows.filter r).map key ↔ (s.get? k).any r = true := by
    intro s r k
    simp only [List.mem_map, List.mem_filter, Option.any_eq_true, get?_eq_some]
    exact ⟨fun ⟨x, ⟨hx, hr⟩, hk⟩ => ⟨x, ⟨hx, hk⟩, hr⟩, fun ⟨x, ⟨hx, hk⟩, hr⟩ => ⟨x, ⟨hx, hr⟩, hk⟩⟩
  have hnodup : ∀ (s : Table ρ) (r : ρ → Bool), ((s.rows.filter r).map key).Nodup :=
    fun s _ => (List.filter_sublist.map key).nodup s.nodup
  have hperm : ((t.rows.filter p).map key).Perm ((t'.rows.filter q).map key) :=
    (List.perm_ext_iff_of_nodup (hnodup t p) (hnodup t' q)).mpr fun k => by
      rw [hmem, hmem, h]
  simpa only [List.countP_eq_length_filter, List.length_map] using hperm.length_eq

/-- Updating a counted row so that it counts no more. -/
theorem countP_update (hf : ∀ r, key (f r) = key r) (h : (t.get? k).any p = true)
    (hout : ∀ r, p (f r) = false) : t.rows.countP p = (t.update k f hf).rows.countP p + 1 := by
  obtain ⟨r, hr, hp⟩ := (Option.any_eq_true _ _).mp h
  obtain ⟨hmem, hkey⟩ := get?_eq_some.mp hr
  obtain ⟨before, after, hrows⟩ := List.append_of_mem hmem
  have hnodup := t.nodup
  rw [hrows, List.map_append, List.map_cons, List.nodup_append, List.nodup_cons, hkey] at hnodup
  have hsame : ∀ rows : List ρ, k ∉ rows.map key →
      rows.map (fun r => if decide (key r = k) then f r else r) = rows := by
    intro rows hk
    refine (List.map_congr_left fun x hx => if_neg ?_).trans (List.map_id rows)
    simpa using fun heq : key x = k => hk (heq ▸ List.mem_map_of_mem hx)
  have hbefore : k ∉ before.map key := fun hk => hnodup.2.2 k hk k List.mem_cons_self rfl
  have hupdate : (t.update k f hf).rows = before ++ f r :: after := by
    change t.rows.map _ = _
    rw [hrows, List.map_append, List.map_cons, hsame before hbefore, hsame after hnodup.2.1.1]
    simp [hkey]
  rw [hupdate, hrows]
  simp only [List.countP_append, List.countP_cons, hp, hout, ↓reduceIte, Bool.false_eq_true]
  omega

/-- Outside `ks` the rows are as they were, and at `ks` none satisfies `p`. -/
structure Clears (p : ρ → Bool) (ks : List κ) (t t' : Table ρ) : Prop where
  kept : ∀ k ∉ ks, t'.get? k = t.get? k
  cleared : ∀ k ∈ ks, (t'.get? k).any p = false

theorem Clears.of_eq (h : t' = t) : Clears p [] t t' :=
  ⟨fun _ _ => by rw [h], by simp⟩

theorem Clears.trans (h : Clears p ks t t') (h' : Clears p ks' t' t'') :
    Clears p (ks ++ ks') t t'' where
  kept := fun k hk => by
    rw [List.mem_append, not_or] at hk
    rw [h'.kept k hk.2, h.kept k hk.1]
  cleared := fun k hk => by
    by_cases hk' : k ∈ ks'
    · exact h'.cleared k hk'
    · rw [h'.kept k hk']
      exact h.cleared k ((List.mem_append.mp hk).resolve_right hk')

theorem clears_update (hf : ∀ r, key (f r) = key r) (hout : ∀ r, p (f r) = false) :
    Clears p [k] t (t.update k f hf) where
  kept := fun k' hk => by
    rw [get?_update, if_neg (by simpa using hk)]
  cleared := fun k' hk => by
    rw [List.mem_singleton.mp hk, get?_update, if_pos rfl]
    cases t.get? k <;> simp [hout]

theorem Clears.any (h : Clears p ks t t') (k : κ) :
    (t'.get? k).any p = ((t.get? k).any p && !decide (k ∈ ks)) := by
  by_cases hk : k ∈ ks
  · simp [h.cleared k hk, hk]
  · simp [h.kept k hk, hk]

theorem Clears.mem_iff (h : Clears p ks t t') {r : ρ} (hp : p r = true) :
    r ∈ t'.rows ↔ r ∈ t.rows ∧ key r ∉ ks := by
  have hget : ∀ s : Table ρ, r ∈ s.rows ↔ s.get? (key r) = some r :=
    fun s => ⟨get?_of_mem, mem_of_get?⟩
  rw [hget, hget]
  by_cases hk : key r ∈ ks
  · refine iff_of_false (fun hr => ?_) fun hr => hr.2 hk
    have hnone := h.cleared (key r) hk
    rw [hr, Option.any_some, hp] at hnone
    exact absurd hnone (by decide)
  · rw [h.kept (key r) hk]
    exact (and_iff_left hk).symm

end Counting

end Lookup

end Table

end ClockifyAssistant.Lib
