import ClockifyAssistant.AssistantV2.ApiSearch
import ClockifyAssistant.LoadedTools

/-!
The places of the loaded tools. The used tools come first and are at most as many as there are
places, then the matches of a search enter in the order of their rank, and what was loaded
before stays only where every match has found a place; so there is nothing to evict.
-/
namespace ClockifyAssistant

open ApiDiscovery RunJournal

section Eviction

/-- The name that the loop at the end of `refineLoadedToolSet` deletes. -/
def evictable (usedNames names : List String) : Option String :=
  names.find? fun name => name != discoveryMetaToolName && !usedNames.contains name

def evictOne (usedNames names : List String) : List String :=
  match evictable usedNames names with
  | some name => names.erase name
  | none => names

/-- The loop itself; `none` where it is still going after so many passes. -/
def evictionLoop (usedNames : List String) : Nat → List String → Option (List String)
  | 0, names => if (apiToolNames names).length ≤ maxLoadedApiTools then some names else none
  | passes + 1, names =>
      if (apiToolNames names).length ≤ maxLoadedApiTools then some names
      else evictionLoop usedNames passes (evictOne usedNames names)

theorem evictionLoop_of_fits {names : List String}
    (h : (apiToolNames names).length ≤ maxLoadedApiTools) (usedNames : List String)
    (passes : Nat) : evictionLoop usedNames passes names = some names := by
  cases passes with
  | zero => exact if_pos h
  | succ passes => exact if_pos h

end Eviction

section Places

variable {names added : List String}

theorem foldl_addWithinLimit_full (h : maxLoadedApiTools ≤ (apiToolNames names).length) :
    added.foldl addWithinLimit names = names := by
  induction added with
  | nil => rfl
  | cons first rest ih =>
    have hfirst : addWithinLimit names first = names := if_pos h
    rw [List.foldl_cons, hfirst, ih]

theorem foldl_addWithinLimit_take (names added : List String) :
    ∃ n ≤ added.length, added.foldl addWithinLimit names = (added.take n).foldl addName names ∧
      (n < added.length →
        maxLoadedApiTools ≤ (apiToolNames (added.foldl addWithinLimit names)).length) := by
  induction added generalizing names with
  | nil => exact ⟨0, Nat.le_refl 0, rfl, fun h => absurd h (Nat.lt_irrefl 0)⟩
  | cons first rest ih =>
    by_cases hfull : maxLoadedApiTools ≤ (apiToolNames names).length
    · refine ⟨0, Nat.zero_le _, foldl_addWithinLimit_full hfull, fun _ => ?_⟩
      rw [foldl_addWithinLimit_full hfull]
      exact hfull
    · obtain ⟨n, hn, hfold, hrest⟩ := ih (addName names first)
      have hfirst : addWithinLimit names first = addName names first := if_neg hfull
      refine ⟨n + 1, Nat.succ_le_succ hn, ?_, fun hlt => ?_⟩
      · rw [List.foldl_cons, hfirst, hfold]
        rfl
      · rw [List.foldl_cons, hfirst]
        exact hrest (Nat.lt_of_succ_lt_succ hlt)

end Places

/-- What a search makes of the loaded tools: the used ones, the `entered` best matches, and
earlier ones only where every match has entered. -/
structure Refinement (loaded usedNames ranked next : List String) : Prop where
  /-- The loop ends where it begins. -/
  ends : ∀ passes, evictionLoop usedNames passes next = some next
  discovery : discoveryMetaToolName ∈ next
  used : ∀ name ∈ usedNames, name ∈ next
  best : ∃ entered ≤ ranked.length, ranked.take entered ⊆ next ∧
    (entered < ranked.length → (apiToolNames next).length = maxLoadedApiTools) ∧
    ∀ name ∈ next, name = discoveryMetaToolName ∨ name ∈ usedNames ∨
      name ∈ ranked.take entered ∨ (entered = ranked.length ∧ name ∈ loaded)

/-- The loaded tools of a run: the search is always among them. -/
structure ToolSet (registry : ActionRegistry) (state : RunState) : Prop
    extends ToolsFit registry state where
  discovery : discoveryMetaToolName ∈ state.loadedToolNames

section ToolSet

variable {registry : ActionRegistry} {state state' : RunState} {ranked : List String}

theorem ToolSet.congr (h : ToolSet registry state)
    (hloaded : state'.loadedToolNames = state.loadedToolNames)
    (hused : state'.usedToolNames = state.usedToolNames) : ToolSet registry state' := by
  obtain ⟨⟨hlimit, hknown, hnodup, hsub⟩, hdiscovery⟩ := h
  refine ⟨⟨?_, ?_, ?_, ?_⟩, ?_⟩
  · rwa [hloaded]
  · rwa [hloaded]
  · rwa [hused]
  · rwa [hused, hloaded]
  · rwa [hloaded]

/-- A search of a run finds a place for every tool that it keeps. -/
theorem ToolSet.refinement (h : ToolSet registry state) (ranked : List String) :
    Refinement state.loadedToolNames state.usedToolNames ranked
      (refineLoadedToolSet state.loadedToolNames state.usedToolNames ranked) := by
  have hnext : (apiToolNames (ranked.foldl addWithinLimit
      (usedFirst state.usedToolNames))).length ≤ maxLoadedApiTools :=
    length_foldl_addWithinLimit h.length_usedFirst
  have hlength : (apiToolNames (refineLoadedToolSet state.loadedToolNames state.usedToolNames
      ranked)).length ≤ maxLoadedApiTools := length_foldl_addWithinLimit hnext
  have hfirst : usedFirst state.usedToolNames ⊆
      refineLoadedToolSet state.loadedToolNames state.usedToolNames ranked :=
    List.Subset.trans subset_foldl_addWithinLimit subset_foldl_addWithinLimit
  have hdiscovery : discoveryMetaToolName ∈ usedFirst state.usedToolNames :=
    mem_foldl_addName.mpr (Or.inl (List.mem_singleton_self _))
  refine ⟨evictionLoop_of_fits hlength _, hfirst hdiscovery, ?_, ?_⟩
  · intro name hname
    by_cases hmeta : name = discoveryMetaToolName
    · exact hfirst (hmeta ▸ hdiscovery)
    · exact hfirst (mem_foldl_addName.mpr (Or.inr (mem_apiToolNames.mpr ⟨hname, hmeta⟩)))
  · obtain ⟨entered, hle, hfold, hfull⟩ :=
      foldl_addWithinLimit_take (usedFirst state.usedToolNames) ranked
    have hnoEarlier : entered < ranked.length →
        refineLoadedToolSet state.loadedToolNames state.usedToolNames ranked =
          ranked.foldl addWithinLimit (usedFirst state.usedToolNames) :=
      fun hlt => foldl_addWithinLimit_full (hfull hlt)
    have hentered : ∀ name, name ∈ ranked.foldl addWithinLimit (usedFirst state.usedToolNames) ↔
        name ∈ usedFirst state.usedToolNames ∨ name ∈ ranked.take entered := by
      intro name
      rw [hfold, mem_foldl_addName]
    have hold : ∀ name ∈ usedFirst state.usedToolNames,
        name = discoveryMetaToolName ∨ name ∈ state.usedToolNames := by
      intro name hname
      rcases mem_foldl_addName.mp hname with hsingle | hused
      · exact Or.inl (List.mem_singleton.mp hsingle)
      · exact Or.inr (mem_apiToolNames.mp hused).1
    refine ⟨entered, hle, ?_, ?_, ?_⟩
    · intro name hname
      exact subset_foldl_addWithinLimit ((hentered name).mpr (Or.inr hname))
    · intro hlt
      refine Nat.le_antisymm hlength ?_
      rw [hnoEarlier hlt]
      exact hfull hlt
    · intro name hname
      by_cases hall : entered = ranked.length
      · rcases mem_foldl_addWithinLimit hname with hnext | hloaded
        · rcases (hentered name).mp hnext with hused | hmatch
          · rcases hold name hused with hmeta | hused
            · exact Or.inl hmeta
            · exact Or.inr (Or.inl hused)
          · exact Or.inr (Or.inr (Or.inl hmatch))
        · have hmem := (mem_apiToolNames.mp (List.mem_of_mem_filter hloaded)).1
          exact Or.inr (Or.inr (Or.inr ⟨hall, hmem⟩))
      · rw [hnoEarlier (Nat.lt_of_le_of_ne hle hall)] at hname
        rcases (hentered name).mp hname with hused | hmatch
        · rcases hold name hused with hmeta | hused
          · exact Or.inl hmeta
          · exact Or.inr (Or.inl hused)
        · exact Or.inr (Or.inr (Or.inl hmatch))

theorem ToolSet.refined (h : ToolSet registry state)
    (hranked : ∀ name ∈ ranked, (registry.get name).isSome = true) :
    ToolSet registry { state with
      loadedToolNames := refineLoadedToolSet state.loadedToolNames state.usedToolNames ranked
      usedToolNames := addName state.usedToolNames discoveryMetaToolName } :=
  ⟨h.toToolsFit.refined hranked, (h.refinement ranked).discovery⟩

theorem ToolSet.used (h : ToolSet registry state) {name : String}
    (hname : name ∈ state.loadedToolNames) :
    ToolSet registry { state with usedToolNames := addName state.usedToolNames name } :=
  ⟨h.toToolsFit.used hname, h.discovery⟩

theorem discovery_initialV2ToolSet (registry : ActionRegistry) (cachedNames : List String) :
    discoveryMetaToolName ∈ initialV2ToolSet registry cachedNames :=
  subset_foldl_addWithinLimit (List.mem_singleton_self _)

theorem seedCacheFromPriorRun_reads {prior : Option RunState} {hash name : String}
    (h : name ∈ seedCacheFromPriorRun registry prior hash)
    (hmeta : name ≠ discoveryMetaToolName) : registry.isReadAction name = true := by
  have hseeded : ∀ cachedNames : List String, name ∈ initialV2ToolSet registry cachedNames →
      name ∈ cachedNames := by
    intro cachedNames hname
    rcases mem_foldl_addWithinLimit hname with hsingle | hcached
    · exact absurd (List.mem_singleton.mp hsingle) hmeta
    · exact (mem_apiToolNames.mp (List.mem_of_mem_filter hcached)).1
  unfold seedCacheFromPriorRun at h
  split at h
  · exact absurd (hseeded _ h) List.not_mem_nil
  · dsimp only at h
    split at h
    · exact absurd (hseeded _ h) List.not_mem_nil
    · exact (List.mem_filter.mp (hseeded _ h)).2

/-- A new run has a tool set, whatever it has taken over from an earlier one. -/
theorem freshState_toolSet (scope : RunnerScope) (prior : Option RunState) :
    ToolSet scope.registry (Runner.freshState scope prior) := by
  refine ⟨(freshState_fits scope prior).tools, ?_⟩
  show discoveryMetaToolName ∈ seedCacheFromPriorRun scope.registry prior scope.registry.hash
  unfold seedCacheFromPriorRun
  split
  · exact discovery_initialV2ToolSet _ _
  · dsimp only
    split
    · exact discovery_initialV2ToolSet _ _
    · exact discovery_initialV2ToolSet _ _

end ToolSet

end ClockifyAssistant
