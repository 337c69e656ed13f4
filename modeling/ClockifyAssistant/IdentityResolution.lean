import ClockifyAssistant.Harness.Resolve
import Mathlib.Data.List.Nodup

/-!
What a resolved reference stands for. A reference is resolved to an id that a row of the list
has, to the admin, to an id that the caller trusts, or to the one row of a whole list that has
the name.
-/
namespace ClockifyAssistant.Resolve

open Lib

variable {α : Type} {lower : String → String}

/-- The list is whole, and the row is the only one that may be meant by the name. -/
structure NamedBy (lower : String → String) (listed : ListResult α) (includeArchived : Bool)
    (name : String) (row : Entity α) : Prop where
  complete : listed.truncated = false
  only : namedRows lower listed.rows name includeArchived = [row]

/-- The id that a reference gives, without the space around it. -/
def EntityRef.givenId (ref : EntityRef) : Option String := given (ref.id.map trimmed)

/-- An id is trusted where the caller does not want it verified, it is the id of a row, or it
comes from a name that is given without a 24-hex id. -/
inductive EntityGrounded (lower : String → String) (ref : EntityRef) (opts : EntityOptions α) :
    String → Option String → Option (Entity α) → Prop
  | trusted {id : String} : opts.verifyId = false → ref.givenId = some id →
      looksLikeClockifyId id = true → EntityGrounded lower ref opts id ref.name none
  | listed {row : Entity α} : row ∈ opts.listed.rows → ref.givenId = some row.id →
      EntityGrounded lower ref opts row.id (some row.name) (some row)
  | named {row : Entity α} : (∀ id, ref.givenId = some id → looksLikeClockifyId id = false) →
      NamedBy lower opts.listed opts.includeArchived
        (trimmed ((ref.name.or (ref.id.map trimmed)).getD "")) row →
      EntityGrounded lower ref opts row.id (some row.name) (some row)

inductive UserGrounded (lower : String → String) (ref : EntityRef) (opts : UserOptions α) :
    String → String → Prop
  | me : lower (trimmed ((ref.id.or ref.name).getD "")) = "me" →
      UserGrounded lower ref opts opts.adminUserId "you"
  | trusted {id : String} : opts.trustIds = true → ref.givenId = some id →
      looksLikeClockifyId id = true → UserGrounded lower ref opts id (ref.name.getD id)
  | listed {row : Entity α} : row ∈ opts.listUsers.rows → ref.id = some row.id →
      UserGrounded lower ref opts row.id row.name
  | named {row : Entity α} :
      NamedBy lower opts.listUsers false (trimmed ((ref.name.or ref.id).getD "")) row →
      UserGrounded lower ref opts row.id row.name

/-- One reference of a list, without the space around it. -/
inductive ItemGrounded (lower : String → String) (opts : ListOptions α) (ref : String) :
    String × String → Prop
  | special {found : String × String} : opts.special ref = some found →
      ItemGrounded lower opts ref found
  | trusted : opts.trustIds = true → looksLikeClockifyId ref = true →
      ItemGrounded lower opts ref (ref, ref)
  | listed {row : Entity α} : row ∈ opts.listed.rows → row.id = ref →
      ItemGrounded lower opts ref (row.id, row.name)
  | named {row : Entity α} : NamedBy lower opts.listed false ref row →
      ItemGrounded lower opts ref (row.id, row.name)

/-- The references that are not blank. -/
def listedRefs (refs : List String) : List String := (refs.map trimmed).filter fun ref => ref ≠ ""

/-- Each of several findings under the first place at which its id occurs. -/
def firstOccurrences (found : List (String × String)) : List (String × String) :=
  found.eraseDupsBy fun later earlier => later.1 == earlier.1

/-- Ids and labels are those of the references in order, each id once and under its own label. -/
structure ListGrounded (lower : String → String) (refs : List String) (opts : ListOptions α)
    (ids labels : List String) : Prop where
  found : ∃ found, List.Forall₂ (ItemGrounded lower opts) (listedRefs refs) found ∧
    ids = (firstOccurrences found).map Prod.fst ∧ labels = (firstOccurrences found).map Prod.snd
  nodup : ids.Nodup

section Single

theorem matchByName_one {items : List (Entity α)} {name : String} {includeArchived : Bool}
    {row : Entity α} (h : matchByName lower items name includeArchived = .one row) :
    namedRows lower items name includeArchived = [row] := by
  unfold matchByName at h
  split at h
  · exact absurd h nofun
  · rename_i entity hrows
    rw [hrows, NameMatch.one.inj h]
  · exact absurd h nofun

theorem resolveEntityName_ok {opts : EntityOptions α} {query id : String} {name : Option String}
    {entity : Option (Entity α)} (h : resolveEntityName lower opts query = .ok id name entity) :
    ∃ row, NamedBy lower opts.listed opts.includeArchived query row ∧ id = row.id ∧
      name = some row.name ∧ entity = some row := by
  simp only [resolveEntityName] at h
  split at h
  · rename_i row hmatch
    split at h
    · exact absurd h nofun
    · rename_i hcomplete
      obtain ⟨rfl, rfl, rfl⟩ := ResolvedEntity.ok.inj h
      exact ⟨row, ⟨by simpa using hcomplete, matchByName_one hmatch⟩, rfl, rfl, rfl⟩
  · exact absurd h nofun
  · split at h <;> exact absurd h nofun

theorem resolveEntityRef_ok {ref : EntityRef} {opts : EntityOptions α} {id : String}
    {name : Option String} {entity : Option (Entity α)}
    (h : resolveEntityRef lower ref opts = .ok id name entity) :
    EntityGrounded lower ref opts id name entity := by
  simp only [resolveEntityRef] at h
  split at h
  · rename_i hnone
    obtain ⟨row, hnamed, rfl, rfl, rfl⟩ := resolveEntityName_ok h
    refine .named (fun id hid => ?_) hnamed
    exact absurd (hnone.symm.trans hid) nofun
  · rename_i rawId hraw
    split at h
    · rename_i htrusted
      obtain ⟨hhex, hverify⟩ : looksLikeClockifyId rawId = true ∧ opts.verifyId = false := by
        simpa using htrusted
      obtain ⟨rfl, rfl, rfl⟩ := ResolvedEntity.ok.inj h
      exact .trusted hverify hraw hhex
    · rename_i htrusted
      split at h
      · rename_i exact hfind
        obtain ⟨rfl, rfl, rfl⟩ := ResolvedEntity.ok.inj h
        have hid : exact.id = rawId := by simpa using List.find?_some hfind
        exact .listed (List.mem_of_find?_eq_some hfind) (hid ▸ hraw)
      · split at h
        · split at h <;> exact absurd h nofun
        · rename_i hverified
          obtain ⟨row, hnamed, rfl, rfl, rfl⟩ := resolveEntityName_ok h
          refine .named (fun id hid => ?_) hnamed
          obtain rfl := Option.some.inj (hraw.symm.trans hid)
          cases hhex : looksLikeClockifyId rawId with
          | false => rfl
          | true =>
            rw [hhex] at htrusted hverified
            cases hverify : opts.verifyId <;> simp [hverify] at htrusted hverified

theorem resolveUserName_ok {opts : UserOptions α} {query userId label : String}
    (h : resolveUserName lower opts query = .ok userId label) :
    ∃ row, NamedBy lower opts.listUsers false query row ∧ userId = row.id ∧ label = row.name := by
  simp only [resolveUserName] at h
  split at h
  · exact absurd h nofun
  · split at h
    · exact absurd h nofun
    · rename_i row hmatch
      split at h
      · exact absurd h nofun
      · rename_i hcomplete
        obtain ⟨rfl, rfl⟩ := ResolvedUser.ok.inj h
        exact ⟨row, ⟨by simpa using hcomplete, matchByName_one hmatch⟩, rfl, rfl⟩
    · exact absurd h nofun

theorem resolveUserRef_ok {ref : EntityRef} {opts : UserOptions α} {userId label : String}
    (h : resolveUserRef lower ref opts = .ok userId label) :
    UserGrounded lower ref opts userId label := by
  simp only [resolveUserRef] at h
  split at h
  · rename_i hme
    obtain ⟨rfl, rfl⟩ := ResolvedUser.ok.inj h
    exact .me hme
  · split at h
    · rename_i id htrusted
      obtain ⟨hid, htrust⟩ := Option.filter_eq_some_iff.mp htrusted
      obtain ⟨htrust, hhex⟩ : opts.trustIds = true ∧ looksLikeClockifyId id = true := by
        simpa using htrust
      obtain ⟨rfl, rfl⟩ := ResolvedUser.ok.inj h
      exact .trusted htrust hid hhex
    · split at h
      · rename_i row hfind
        obtain ⟨id, hid, hrow⟩ := Option.bind_eq_some_iff.mp hfind
        obtain ⟨hgiven, -⟩ := Option.filter_eq_some_iff.mp hid
        obtain ⟨rfl, rfl⟩ := ResolvedUser.ok.inj h
        have hsame : row.id = id := by simpa using List.find?_some hrow
        exact .listed (List.mem_of_find?_eq_some hrow) (hsame ▸ hgiven)
      · obtain ⟨row, hnamed, rfl, rfl⟩ := resolveUserName_ok h
        exact .named hnamed

end Single

section Lists

variable {opts : ListOptions α}

theorem resolveListItem_ok {ref : String} {found : String × String}
    (h : resolveListItem lower opts ref = .ok found) : ItemGrounded lower opts ref found := by
  simp only [resolveListItem] at h
  split at h
  · rename_i special hspecial
    obtain rfl := Except.ok.inj h
    exact .special hspecial
  · split at h
    · rename_i htrusted
      obtain ⟨htrust, hhex⟩ : opts.trustIds = true ∧ looksLikeClockifyId ref = true := by
        simpa using htrusted
      obtain rfl := Except.ok.inj h
      exact .trusted htrust hhex
    · split at h
      · rename_i row hfind
        obtain rfl := Except.ok.inj h
        have hid : row.id = ref := by simpa using List.find?_some hfind
        exact .listed (List.mem_of_find?_eq_some hfind) hid
      · split at h
        · rename_i row hmatch
          split at h
          · exact absurd h nofun
          · rename_i hcomplete
            obtain rfl := Except.ok.inj h
            exact .named ⟨by simpa using hcomplete, matchByName_one hmatch⟩
        · exact absurd h nofun
        · split at h <;> exact absurd h nofun

theorem resolveRefsFrom_ok {refs ids labels ids' labels' : List String}
    (h : resolveRefsFrom lower opts refs ids labels = .ok ids' labels') :
    ∃ found, List.Forall₂ (ItemGrounded lower opts) (listedRefs refs) found ∧
      (ids', labels') = found.foldl (fun out next => pushRef out.1 out.2 next) (ids, labels) := by
  induction refs generalizing ids labels with
  | nil =>
    obtain ⟨rfl, rfl⟩ := ResolvedList.ok.inj h
    exact ⟨[], .nil, rfl⟩
  | cons raw rest ih =>
    simp only [resolveRefsFrom] at h
    by_cases hblank : trimmed raw = ""
    · rw [if_pos hblank] at h
      obtain ⟨found, hfound, hpushed⟩ := ih h
      refine ⟨found, ?_, hpushed⟩
      rwa [listedRefs, List.map_cons, List.filter_cons, if_neg (by simpa using hblank)]
    · rw [if_neg hblank] at h
      cases hitem : resolveListItem lower opts (trimmed raw) with
      | error clarify =>
        rw [hitem] at h
        exact absurd h nofun
      | ok next =>
        rw [hitem] at h
        obtain ⟨found, hfound, hpushed⟩ := ih h
        refine ⟨next :: found, ?_, hpushed⟩
        rw [listedRefs, List.map_cons, List.filter_cons, if_pos (by simpa using hblank)]
        exact .cons (resolveListItem_ok hitem) hfound

theorem foldl_pushRef (found pairs : List (String × String)) :
    found.foldl (fun out next => pushRef out.1 out.2 next)
        (pairs.map Prod.fst, pairs.map Prod.snd) =
      let out := pairs ++ firstOccurrences (found.filter fun next => next.1 ∉ pairs.map Prod.fst)
      (out.map Prod.fst, out.map Prod.snd) := by
  induction found generalizing pairs with
  | nil => simp [firstOccurrences]
  | cons next rest ih =>
    rw [List.foldl_cons, pushRef]
    by_cases hold : next.1 ∈ pairs.map Prod.fst
    · rw [if_pos hold, ih pairs, List.filter_cons, if_neg (by simpa using hold)]
    · have hpairs : (pairs.map Prod.fst ++ [next.1], pairs.map Prod.snd ++ [next.2]) =
          ((pairs ++ [next]).map Prod.fst, (pairs ++ [next]).map Prod.snd) := by simp
      have hrest : (rest.filter fun later => later.1 ∉ (pairs ++ [next]).map Prod.fst) =
          (rest.filter fun later => later.1 ∉ pairs.map Prod.fst).filter
            fun later => (later.1 == next.1) = false := by
        have hmem : ∀ later : String × String, later.1 ∈ (pairs ++ [next]).map Prod.fst ↔
            later.1 ∈ pairs.map Prod.fst ∨ later.1 = next.1 := by
          intro later
          rw [List.map_append, List.mem_append, List.map_singleton, List.mem_singleton]
        rw [List.filter_filter]
        congr 1
        funext later
        rw [Bool.eq_iff_iff]
        simp only [decide_eq_true_eq, Bool.and_eq_true, hmem, not_or, beq_eq_false_iff_ne, ne_eq,
          and_comm]
      rw [if_neg hold, hpairs, ih (pairs ++ [next]), List.filter_cons,
        if_pos (by simpa using hold), hrest]
      simp only [firstOccurrences, List.eraseDupsBy_cons, List.append_assoc, List.singleton_append]

theorem foldl_pushRef_nodup (found : List (String × String)) {ids labels : List String}
    (hids : ids.Nodup) :
    (found.foldl (fun out next => pushRef out.1 out.2 next) (ids, labels)).1.Nodup := by
  induction found generalizing ids labels with
  | nil => exact hids
  | cons next rest ih =>
    rw [List.foldl_cons, pushRef]
    by_cases hold : next.1 ∈ ids
    · rw [if_pos hold]
      exact ih hids
    · rw [if_neg hold]
      apply ih
      refine List.nodup_append.mpr ⟨hids, List.nodup_singleton next.1, ?_⟩
      intro id hid other hother hsame
      rw [List.mem_singleton] at hother
      exact hold (hother ▸ hsame ▸ hid)

theorem resolveRefList_ok {refs : List String} {ids labels : List String}
    (h : resolveRefList lower refs opts = .ok ids labels) :
    ListGrounded lower refs opts ids labels := by
  obtain ⟨found, hfound, hpushed⟩ := resolveRefsFrom_ok h
  have hnodup := @foldl_pushRef_nodup found [] [] List.nodup_nil
  rw [← hpushed] at hnodup
  have hpairs := foldl_pushRef found []
  have hall : (found.filter fun next => next.1 ∉ ([] : List (String × String)).map Prod.fst) =
      found := List.filter_eq_self.mpr fun _ _ => by simp
  rw [hall] at hpairs
  obtain ⟨hids, hlabels⟩ := Prod.mk.inj (hpushed.trans hpairs)
  exact ⟨⟨found, hfound, hids, hlabels⟩, hnodup⟩

end Lists

/-- References are resolved to ids of the list, to trusted ids, to the admin, or to the one row
of a whole list that has the name; a list of references keeps its order. -/
theorem resolution_grounded (lower : String → String) :
    (∀ (ref : EntityRef) (opts : EntityOptions α) (id : String) (name : Option String)
        (entity : Option (Entity α)), resolveEntityRef lower ref opts = .ok id name entity →
        EntityGrounded lower ref opts id name entity) ∧
    (∀ (ref : EntityRef) (opts : UserOptions α) (userId label : String),
      resolveUserRef lower ref opts = .ok userId label → UserGrounded lower ref opts userId label) ∧
    (∀ (refs : List String) (opts : ListOptions α) (ids labels : List String),
      resolveRefList lower refs opts = .ok ids labels → ListGrounded lower refs opts ids labels) :=
  ⟨fun _ _ _ _ _ => resolveEntityRef_ok, fun _ _ _ _ => resolveUserRef_ok,
    fun _ _ _ _ => resolveRefList_ok⟩

section Trusted

/-- The id of a project, from a caller that does not verify it. -/
def unlistedRef : EntityRef where
  id := some "5f0c1a2b3c4d5e6f70819293"

def noProjects : EntityOptions Unit where
  noun := "project"
  verb := "update"
  list := fun _ => { rows := [], truncated := false }

/-- An id that no row has is resolved without a list. -/
theorem trusted_id_unlisted : ¬ ∀ (lower : String → String) (ref : EntityRef)
    (opts : EntityOptions Unit) (id : String) (name : Option String) (entity : Option (Entity Unit)),
    resolveEntityRef lower ref opts = .ok id name entity → ∃ row ∈ opts.listed.rows, row.id = id := by
  intro hall
  have hresolved : resolveEntityRef (fun text => text) unlistedRef noProjects =
      .ok "5f0c1a2b3c4d5e6f70819293" none none := by rfl
  obtain ⟨row, hrow, -⟩ := hall _ _ _ _ _ _ hresolved
  exact absurd hrow List.not_mem_nil

end Trusted

end ClockifyAssistant.Resolve
