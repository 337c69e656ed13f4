import ClockifyAssistant.ModelCallJournal

/-!
The set of loaded tools. A search puts the used tools first and fills the rest up to the
limit, so the set never outgrows what an event can name, and the used tools stay loaded.
-/
namespace ClockifyAssistant

open ApiDiscovery

section Names

variable {names added : List String} {name x : String}

theorem mem_addName : x ∈ addName names name ↔ x ∈ names ∨ x = name := by
  unfold addName
  split
  · rename_i hmem
    have hname := List.contains_iff_mem.mp hmem
    refine ⟨Or.inl, ?_⟩
    rintro (h | rfl)
    · exact h
    · exact hname
  · rw [List.mem_append, List.mem_singleton]

theorem nodup_addName (h : names.Nodup) (name : String) : (addName names name).Nodup := by
  unfold addName
  split
  · exact h
  · rename_i hnew
    rw [List.contains_iff_mem] at hnew
    exact List.nodup_append.mpr ⟨h, List.nodup_singleton name, fun a ha b hb heq =>
      hnew (List.mem_singleton.mp hb ▸ heq ▸ ha)⟩

theorem mem_foldl_addName : x ∈ added.foldl addName names ↔ x ∈ names ∨ x ∈ added := by
  induction added generalizing names with
  | nil => simp
  | cons first rest ih => rw [List.foldl_cons, ih, mem_addName, List.mem_cons, or_assoc]

theorem nodup_foldl_addName (h : names.Nodup) : (added.foldl addName names).Nodup := by
  induction added generalizing names with
  | nil => exact h
  | cons first rest ih => exact ih (nodup_addName h first)

theorem mem_addWithinLimit (h : x ∈ addWithinLimit names name) : x ∈ names ∨ x = name := by
  unfold addWithinLimit at h
  split at h
  · exact Or.inl h
  · exact mem_addName.mp h

theorem subset_addWithinLimit : names ⊆ addWithinLimit names name := by
  intro x hx
  unfold addWithinLimit
  split
  · exact hx
  · exact mem_addName.mpr (Or.inl hx)

theorem length_addWithinLimit (h : (apiToolNames names).length ≤ maxLoadedApiTools) :
    (apiToolNames (addWithinLimit names name)).length ≤ maxLoadedApiTools := by
  unfold addWithinLimit addName
  split
  · exact h
  · rename_i hroom
    split
    · exact h
    · have hone : (apiToolNames [name]).length ≤ 1 := List.length_filter_le _ _
      have happend : apiToolNames (names ++ [name]) = apiToolNames names ++ apiToolNames [name] :=
        List.filter_append _ _
      rw [happend, List.length_append]
      omega

theorem mem_foldl_addWithinLimit (h : x ∈ added.foldl addWithinLimit names) :
    x ∈ names ∨ x ∈ added := by
  induction added generalizing names with
  | nil => exact Or.inl h
  | cons first rest ih =>
    rcases ih h with hold | hrest
    · rcases mem_addWithinLimit hold with hnames | rfl
      · exact Or.inl hnames
      · exact Or.inr List.mem_cons_self
    · exact Or.inr (List.mem_cons_of_mem _ hrest)

theorem subset_foldl_addWithinLimit : names ⊆ added.foldl addWithinLimit names := by
  induction added generalizing names with
  | nil => exact List.Subset.refl names
  | cons first rest ih => exact List.Subset.trans subset_addWithinLimit ih

theorem length_foldl_addWithinLimit (h : (apiToolNames names).length ≤ maxLoadedApiTools) :
    (apiToolNames (added.foldl addWithinLimit names)).length ≤ maxLoadedApiTools := by
  induction added generalizing names with
  | nil => exact h
  | cons first rest ih => exact ih (length_addWithinLimit h)

theorem mem_apiToolNames : x ∈ apiToolNames names ↔ x ∈ names ∧ x ≠ discoveryMetaToolName := by
  simp [apiToolNames, List.mem_filter]

end Names

namespace RunJournal

variable {registry : ActionRegistry} {state : RunState}

/-- The used tools, which a search puts first. -/
def usedFirst (usedNames : List String) : List String :=
  (apiToolNames usedNames).foldl addName [discoveryMetaToolName]

theorem ToolsFit.length_usedFirst (h : ToolsFit registry state) :
    (apiToolNames (usedFirst state.usedToolNames)).length ≤ maxLoadedApiTools := by
  have hnodup : (apiToolNames (usedFirst state.usedToolNames)).Nodup :=
    (nodup_foldl_addName (List.nodup_singleton _)).filter _
  have hsub : apiToolNames (usedFirst state.usedToolNames) ⊆
      apiToolNames state.loadedToolNames := by
    intro x hx
    obtain ⟨hmem, hmeta⟩ := mem_apiToolNames.mp hx
    rcases mem_foldl_addName.mp hmem with hsingle | hused
    · exact absurd (List.mem_singleton.mp hsingle) hmeta
    · exact mem_apiToolNames.mpr ⟨h.usedLoaded x (mem_apiToolNames.mp hused).1 hmeta, hmeta⟩
  exact (List.subperm_of_subset hnodup hsub).length_le.trans h.loaded

/-- A search keeps the tools within the limit, known, and the used ones loaded. -/
theorem ToolsFit.refined (h : ToolsFit registry state) {ranked : List String}
    (hranked : ∀ name ∈ ranked, (registry.get name).isSome = true) :
    ToolsFit registry { state with
      loadedToolNames := refineLoadedToolSet state.loadedToolNames state.usedToolNames ranked
      usedToolNames := addName state.usedToolNames discoveryMetaToolName } := by
  refine ⟨?_, ?_, nodup_addName h.usedNodup _, ?_⟩
  · exact length_foldl_addWithinLimit (length_foldl_addWithinLimit h.length_usedFirst)
  · intro name hname hmeta
    rcases mem_foldl_addWithinLimit hname with hnext | hcurrent
    · rcases mem_foldl_addWithinLimit hnext with hused | hnew
      · rcases mem_foldl_addName.mp hused with hsingle | hold
        · exact absurd (List.mem_singleton.mp hsingle) hmeta
        · exact h.known name (h.usedLoaded name (mem_apiToolNames.mp hold).1 hmeta) hmeta
      · exact hranked name hnew
    · exact h.known name (mem_apiToolNames.mp (List.mem_of_mem_filter hcurrent)).1 hmeta
  · intro name hname hmeta
    rcases mem_addName.mp hname with hused | rfl
    · refine subset_foldl_addWithinLimit (subset_foldl_addWithinLimit ?_)
      exact mem_foldl_addName.mpr (Or.inr (mem_apiToolNames.mpr ⟨hused, hmeta⟩))
    · exact absurd rfl hmeta

theorem ToolsFit.used (h : ToolsFit registry state) {name : String}
    (hname : name ∈ state.loadedToolNames) :
    ToolsFit registry { state with usedToolNames := addName state.usedToolNames name } := by
  refine ⟨h.loaded, h.known, nodup_addName h.usedNodup name, ?_⟩
  intro x hx hmeta
  rcases mem_addName.mp hx with hused | rfl
  · exact h.usedLoaded x hused hmeta
  · exact hname

theorem known_initialV2ToolSet {registry : ActionRegistry} {cachedNames : List String}
    {name : String} (h : name ∈ initialV2ToolSet registry cachedNames)
    (hmeta : name ≠ discoveryMetaToolName) : (registry.get name).isSome = true := by
  rcases mem_foldl_addWithinLimit h with hsingle | hcached
  · exact absurd (List.mem_singleton.mp hsingle) hmeta
  · exact (List.mem_filter.mp hcached).2

/-- A new run fits, whatever it has taken over from an earlier one. -/
theorem freshState_fits (scope : RunnerScope) (prior : Option RunState) :
    RowFits scope.registry (Runner.freshState scope prior) := by
  obtain ⟨cachedNames, hloaded⟩ : ∃ cachedNames,
      (Runner.freshState scope prior).loadedToolNames =
        initialV2ToolSet scope.registry cachedNames := by
    show ∃ cachedNames, seedCacheFromPriorRun scope.registry prior scope.registry.hash = _
    unfold seedCacheFromPriorRun
    split
    · exact ⟨_, rfl⟩
    · split <;> exact ⟨_, rfl⟩
  refine ⟨⟨?_, ?_, List.nodup_nil, nofun⟩, Nat.le_refl 0, Nat.zero_le maxApiCalls⟩
  · rw [hloaded]
    exact length_foldl_addWithinLimit (by decide)
  · intro name hname hmeta
    rw [hloaded] at hname
    exact known_initialV2ToolSet hname hmeta

end RunJournal

end ClockifyAssistant
