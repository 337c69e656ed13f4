import ClockifyAssistant.Rest.MemberRoles

/-!
Whose role opens the mutations of a workspace: the entries that the search for the role considers,
and those that the workspace's id ties to it. The search takes an entry that is marked WORKSPACE for
one of any workspace, misses one that names the workspace as its entity only, and stops at the first.
-/
namespace ClockifyAssistant

namespace MemberRoles

section Considered

variable {workspaceId : String} {roles : List RoleEntry} {entry : RoleEntry}

/-- The entries one of which the search picks. -/
def considered (workspaceId : String) (roles : List RoleEntry) : List RoleEntry :=
  let found := roles.filter (·.isScoped workspaceId)
  if found = [] then (onlyUnscopedRole roles).toList else found

theorem pickedRole_eq (workspaceId : String) (roles : List RoleEntry) :
    pickedRole workspaceId roles = (considered workspaceId roles).head? := by
  unfold pickedRole considered
  rw [← List.head?_filter]
  cases roles.filter (·.isScoped workspaceId) with
  | nil => cases onlyUnscopedRole roles <;> rfl
  | cons entry rest => rfl

theorem onlyUnscopedRole_eq_some :
    onlyUnscopedRole roles = some entry ↔ roles = [entry] ∧ entry.isUnscoped = true := by
  constructor
  · intro h
    unfold onlyUnscopedRole at h
    split at h
    · split at h
      next hentry =>
        cases h
        exact ⟨rfl, hentry⟩
      · cases h
    · cases h
  · rintro ⟨rfl, hentry⟩
    exact if_pos hentry

theorem considered_of_scoped (hentry : entry ∈ roles) (hscoped : entry.isScoped workspaceId = true) :
    considered workspaceId roles = roles.filter (·.isScoped workspaceId) := by
  have hmem : entry ∈ roles.filter (·.isScoped workspaceId) := List.mem_filter.mpr ⟨hentry, hscoped⟩
  exact if_neg (List.ne_nil_of_mem hmem)

/-- The only entry of all, without a scope, is the one that is considered. -/
theorem considered_unscoped (hentry : entry.isUnscoped = true) :
    considered workspaceId [entry] = [entry] := by
  by_cases hscoped : entry.isScoped workspaceId = true
  · rw [considered_of_scoped List.mem_cons_self hscoped, List.filter_cons_of_pos hscoped,
      List.filter_nil]
  · have hnone : [entry].filter (·.isScoped workspaceId) = [] := by simp [hscoped]
    rw [considered, hnone, if_pos rfl, onlyUnscopedRole_eq_some.mpr ⟨rfl, hentry⟩]
    rfl

theorem considered_perm {roles' : List RoleEntry} (h : roles.Perm roles') :
    (considered workspaceId roles).Perm (considered workspaceId roles') := by
  have hscoped := h.filter (·.isScoped workspaceId)
  unfold considered
  by_cases hnone : roles.filter (·.isScoped workspaceId) = []
  · have hnone' : roles'.filter (·.isScoped workspaceId) = [] := (hnone ▸ hscoped).nil_eq.symm
    rw [hnone, hnone', if_pos rfl, if_pos rfl]
    by_cases hone : roles.length = 1
    · obtain ⟨entry, rfl⟩ := List.length_eq_one_iff.mp hone
      rw [List.singleton_perm.mp h]
    · have hmany : ∀ list : List RoleEntry, list.length ≠ 1 → onlyUnscopedRole list = none := by
        intro list hlength
        unfold onlyUnscopedRole
        split
        · exact absurd rfl hlength
        · rfl
      rw [hmany roles hone, hmany roles' (h.length_eq ▸ hone)]
  · have hsome' : roles'.filter (·.isScoped workspaceId) ≠ [] :=
      fun hnil => hnone (hnil ▸ hscoped).eq_nil
    simpa [hnone, hsome'] using hscoped

/-- Any entry that is considered is the one that is picked, in some order of the entries. -/
theorem exists_order_picking (h : entry ∈ considered workspaceId roles) :
    ∃ roles', roles.Perm roles' ∧ pickedRole workspaceId roles' = some entry := by
  by_cases hscoped : entry ∈ roles ∧ entry.isScoped workspaceId = true
  · obtain ⟨before, after, rfl⟩ := List.append_of_mem hscoped.1
    refine ⟨entry :: (before ++ after), List.perm_middle, ?_⟩
    rw [pickedRole_eq, considered_of_scoped List.mem_cons_self hscoped.2,
      List.filter_cons_of_pos hscoped.2, List.head?_cons]
  · refine ⟨roles, List.Perm.refl roles, ?_⟩
    rw [pickedRole_eq]
    unfold considered at h ⊢
    dsimp only at h ⊢
    split at h
    next hnone =>
      rw [if_pos hnone]
      rw [Option.mem_toList] at h
      rw [h]
      rfl
    · exact absurd (List.mem_filter.mp h) hscoped

end Considered

section Verdict

variable {workspaceId : String} {row : MemberRow}

theorem opens_normalized (value : HostRole) :
    opensMutations (normalizeWorkspaceRole value) = isAdminClass value := rfl

/-- Without a top-level role the verdict is the class of the first entry considered. -/
theorem opensMutations_memberRole (workspaceId : String) (row : MemberRow)
    (hrole : normalizeWorkspaceRole row.role = none) : opensMutations (memberRole workspaceId row) =
      (considered workspaceId (row.roles.getD [])).head?.any fun entry =>
        isAdminClass entry.roleValue := by
  have hmember : opensMutations (if row.roles.isSome then some "MEMBER" else none) = false := by
    split
    · decide
    · rfl
  unfold memberRole
  rw [hrole, pickedRole_eq, Option.none_or]
  dsimp only
  cases (considered workspaceId (row.roles.getD [])).head? with
  | none => exact hmember
  | some entry =>
    dsimp only [Option.map_some, Option.getD_some, Option.any_some]
    rw [← opens_normalized]
    cases normalizeWorkspaceRole entry.roleValue with
    | none => exact hmember
    | some role => rfl

/-- The entry stands for the workspace: its id ties it there, or it is the only one of all and has
no scope. -/
def Speaks (workspaceId : String) (roles : List RoleEntry) (entry : RoleEntry) : Prop :=
  entry.isTied workspaceId = true ∨ (roles = [entry] ∧ entry.isUnscoped = true)

/-- What the claimed role of a member may say. -/
structure RoleScopeLaw (workspaceId : String) (row : MemberRow) : Prop where
  sound : opensMutations (memberRole workspaceId row) = true → isAdminClass row.role = true ∨
    ∃ entry ∈ row.roles.getD [], Speaks workspaceId (row.roles.getD []) entry ∧
      isAdminClass entry.roleValue = true
  complete : normalizeWorkspaceRole row.role = none → ∀ entry ∈ row.roles.getD [],
    entry.isTied workspaceId = true → isAdminClass entry.roleValue = true →
      opensMutations (memberRole workspaceId row) = true
  unordered : ∀ roles', (row.roles.getD []).Perm roles' →
    opensMutations (memberRole workspaceId { row with roles := some roles' }) =
      opensMutations (memberRole workspaceId row)

/-- The entries considered are of one class. -/
def Agree (workspaceId : String) (roles : List RoleEntry) : Prop :=
  ∀ entry ∈ considered workspaceId roles, ∀ other ∈ considered workspaceId roles,
    isAdminClass entry.roleValue = isAdminClass other.roleValue

def ConsidersAdmin (workspaceId : String) (roles : List RoleEntry) : Prop :=
  ∃ entry ∈ considered workspaceId roles, isAdminClass entry.roleValue = true

/-- The entries considered are of one class, and of the admin's exactly if an entry that stands for
the workspace is. -/
structure Unmistaken (workspaceId : String) (roles : List RoleEntry) : Prop where
  agree : Agree workspaceId roles
  admin : ConsidersAdmin workspaceId roles ↔
    ∃ entry ∈ roles, Speaks workspaceId roles entry ∧ isAdminClass entry.roleValue = true

theorem opens_iff (row : MemberRow) (hrole : normalizeWorkspaceRole row.role = none)
    (h : Agree workspaceId (row.roles.getD [])) : opensMutations (memberRole workspaceId row) = true ↔
      ConsidersAdmin workspaceId (row.roles.getD []) := by
  rw [opensMutations_memberRole workspaceId row hrole, ConsidersAdmin]
  unfold Agree at h
  cases hlist : considered workspaceId (row.roles.getD []) with
  | nil => simp
  | cons first rest =>
    rw [hlist] at h
    rw [List.head?_cons, Option.any_some]
    constructor
    · intro hfirst
      exact ⟨first, List.mem_cons_self, hfirst⟩
    · rintro ⟨entry, hentry, hadmin⟩
      rw [h first List.mem_cons_self entry hentry, hadmin]

theorem Unmistaken.law (hrole : normalizeWorkspaceRole row.role = none)
    (h : Unmistaken workspaceId (row.roles.getD [])) : RoleScopeLaw workspaceId row where
  sound := fun hopens => .inr (h.admin.mp ((opens_iff row hrole h.agree).mp hopens))
  complete := fun _ entry hentry htied hadmin =>
    (opens_iff row hrole h.agree).mpr (h.admin.mpr ⟨entry, hentry, .inl htied, hadmin⟩)
  unordered := by
    intro roles' hperm
    have hmem : ∀ entry, entry ∈ considered workspaceId roles' ↔
        entry ∈ considered workspaceId (row.roles.getD []) :=
      fun entry => (considered_perm hperm).mem_iff.symm
    have hagree : Agree workspaceId roles' := by
      intro entry hentry other hother
      exact h.agree entry ((hmem entry).mp hentry) other ((hmem other).mp hother)
    have hopens' := opens_iff { row with roles := some roles' } hrole hagree
    rw [Bool.eq_iff_iff, hopens', opens_iff row hrole h.agree]
    exact exists_congr fun entry => and_congr_left fun _ => hmem entry

theorem law_of_role (hrole : normalizeWorkspaceRole row.role ≠ none) : RoleScopeLaw workspaceId row := by
  obtain ⟨role, hsome⟩ := Option.ne_none_iff_exists'.mp hrole
  have hmember : ∀ roles, memberRole workspaceId { row with roles } = some role := by
    intro roles
    unfold memberRole
    rw [hsome]
    rfl
  constructor
  · intro hopens
    rw [hmember row.roles, ← hsome] at hopens
    exact .inl hopens
  · intro hnone
    exact absurd hnone hrole
  · intro roles' _
    rw [hmember, hmember row.roles]

theorem RoleScopeLaw.unmistaken (h : RoleScopeLaw workspaceId row)
    (hrole : normalizeWorkspaceRole row.role = none) :
    Unmistaken workspaceId (row.roles.getD []) := by
  -- any entry considered is picked in some order, and the verdict is that of every order
  have hclass : ∀ entry ∈ considered workspaceId (row.roles.getD []),
      isAdminClass entry.roleValue = opensMutations (memberRole workspaceId row) := by
    intro entry hentry
    obtain ⟨roles', hperm, hpicked⟩ := exists_order_picking hentry
    have hverdict := opensMutations_memberRole workspaceId { row with roles := some roles' } hrole
    rw [← h.unordered roles' hperm, hverdict, Option.getD_some, ← pickedRole_eq, hpicked,
      Option.any_some]
  have hagree : Agree workspaceId (row.roles.getD []) := by
    intro entry hentry other hother
    rw [hclass entry hentry, hclass other hother]
  refine ⟨hagree, ?_⟩
  constructor
  · intro hadmin
    obtain htop | hentry := h.sound ((opens_iff row hrole hagree).mpr hadmin)
    · rw [← opens_normalized, hrole] at htop
      exact absurd htop (by decide)
    · exact hentry
  · rintro ⟨entry, hentry, htied | ⟨honly, hunscoped⟩, hadmin⟩
    · exact (opens_iff row hrole hagree).mp (h.complete hrole entry hentry htied hadmin)
    · refine ⟨entry, ?_, hadmin⟩
      rw [honly, considered_unscoped hunscoped]
      exact List.mem_singleton_self entry

theorem roleScopeLaw_iff (workspaceId : String) (row : MemberRow) : RoleScopeLaw workspaceId row ↔
    normalizeWorkspaceRole row.role ≠ none ∨ Unmistaken workspaceId (row.roles.getD []) := by
  constructor
  · intro h
    by_cases hrole : normalizeWorkspaceRole row.role = none
    · exact .inr (h.unmistaken hrole)
    · exact .inl hrole
  · intro h
    by_cases hrole : normalizeWorkspaceRole row.role = none
    · exact (h.resolve_left (absurd hrole)).law hrole
    · exact law_of_role hrole

/-- The owner of another workspace, whose entry is marked as one of a workspace. -/
def ownerElsewhere : MemberRow where
  id := "u"
  roles := some [{ role := .text "OWNER", entityId := some "other", sourceType := some "WORKSPACE" }]

theorem ownerElsewhere_opens : ¬ ∀ (workspaceId : String) (row : MemberRow),
    RoleScopeLaw workspaceId row := by
  intro hall
  have hopens : opensMutations (memberRole "ws" ownerElsewhere) = true := by decide
  obtain htop | ⟨entry, hentry, hspeaks, -⟩ := (hall "ws" ownerElsewhere).sound hopens
  · exact absurd htop (by decide)
  · rw [List.mem_singleton.mp hentry] at hspeaks
    obtain htied | ⟨-, hunscoped⟩ := hspeaks
    · exact absurd htied (by decide)
    · exact absurd hunscoped (by decide)

end Verdict

end MemberRoles

end ClockifyAssistant
