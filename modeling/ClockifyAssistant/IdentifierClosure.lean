import ClockifyAssistant.Harness.WriteAuthority

/-!
The identifiers of an operation that is accepted. The scan knows a leaf by the text of its path,
so an identifier below two arrays, or under a key with a dot in it, can pass unseen.
-/
namespace ClockifyAssistant

open Lib Lib.CodeUnits

namespace WriteAuthority

inductive Segment
  | key (name : CodeUnits)
  | item

def Segment.text : Segment → CodeUnits
  | key name => ofString "." ++ name
  | item => ofString "[]"

def pathText (path : List Segment) : CodeUnits :=
  ofString "operation" ++ path.flatMap Segment.text

def isScalar : UnitJson → Bool
  | .arr _ => false
  | .obj _ => false
  | _ => true

/-- A scalar stands in the value at the path. -/
inductive ScalarAt : UnitJson → List Segment → Prop
  | here {value : UnitJson} (h : isScalar value = true) : ScalarAt value []
  | item {items : List UnitJson} {item : UnitJson} {path : List Segment} (hmem : item ∈ items)
      (h : ScalarAt item path) : ScalarAt (.arr items) (.item :: path)
  | field {fields : List (CodeUnits × UnitJson)} {field : CodeUnits × UnitJson}
      {path : List Segment} (hmem : field ∈ fields) (h : ScalarAt field.2 path) :
      ScalarAt (.obj fields) (.key field.1 :: path)

/-- A scalar below the key, through `depth` arrays. -/
structure IdentifierPath where
  before : List Segment
  name : CodeUnits
  depth : Nat

namespace IdentifierPath

def segments (id : IdentifierPath) : List Segment :=
  id.before ++ .key id.name :: List.replicate id.depth .item

/-- The operation has an identifier here, outside the reviewed evidence. -/
structure Within (operation : UnitJson) (id : IdentifierPath) : Prop where
  scalar : ScalarAt operation id.segments
  names : namesIdentifier id.name = true
  reviewed : ∀ name, Segment.key name ∈ id.segments → name ∉ evidenceSegments

def Declared (authority : WriteAuthorityMetadata) (id : IdentifierPath) : Prop :=
  id.name ∈ ownIdentifiers ∨
    metadataPathMatches authority.serverDerivedIdPaths (pathText id.segments) = true

/-- What stands behind the last dot of the key. -/
def lastPart (id : IdentifierPath) : CodeUnits := id.name.rtakeWhile fun u => !isDot u

/-- The text of the path hides the identifier: behind more than one array, under a key whose last
part is an identifier of the operation's own, or among keys whose parts look like evidence. -/
def Hidden (id : IdentifierPath) : Prop :=
  1 < id.depth ∨ id.lastPart ∈ ownIdentifiers ∨ evidencePath (pathText id.segments) = true

end IdentifierPath

/-- Every identifier of the operation is at a declared path. -/
def Closed (authority : WriteAuthorityMetadata) (operation : UnitJson) : Prop :=
  ∀ id : IdentifierPath, id.Within operation → id.Declared authority

def HiddenDeclared (authority : WriteAuthorityMetadata) (operation : UnitJson) : Prop :=
  ∀ id : IdentifierPath, id.Within operation → id.Hidden → id.Declared authority

section Leaves

theorem mem_itemLeaves {items : List UnitJson} {path leaf : CodeUnits} :
    leaf ∈ itemLeaves items path ↔ ∃ item ∈ items, leaf ∈ collectOperationLeaves item path := by
  induction items with
  | nil => simp [itemLeaves]
  | cons first rest ih => simp [itemLeaves, ih]

theorem mem_fieldLeaves {fields : List (CodeUnits × UnitJson)} {path leaf : CodeUnits} :
    leaf ∈ fieldLeaves fields path ↔ ∃ field ∈ fields,
      leaf ∈ collectOperationLeaves field.2 (path ++ ofString "." ++ field.1) := by
  induction fields with
  | nil => simp [fieldLeaves]
  | cons first rest ih =>
    obtain ⟨key, child⟩ := first
    simp [fieldLeaves, ih]

theorem mem_collectOperationLeaves {value : UnitJson} {path : List Segment}
    (h : ScalarAt value path) (start : CodeUnits) :
    start ++ path.flatMap Segment.text ∈ collectOperationLeaves value start := by
  induction h generalizing start with
  | @here value hscalar =>
    have hleaf : collectOperationLeaves value start = [start] := by
      cases value with
      | arr items => exact absurd hscalar nofun
      | obj fields => exact absurd hscalar nofun
      | _ => rfl
    rw [hleaf]
    simp
  | @item items item path hmem _ ih =>
    rw [collectOperationLeaves, mem_itemLeaves]
    refine ⟨item, hmem, ?_⟩
    have hleaf := ih (start ++ ofString "[]")
    rw [List.append_assoc] at hleaf
    exact hleaf
  | @field fields field path hmem _ ih =>
    rw [collectOperationLeaves, mem_fieldLeaves]
    refine ⟨field, hmem, ?_⟩
    have hleaf := ih (start ++ ofString "." ++ field.1)
    simp only [List.append_assoc] at hleaf
    simp only [List.flatMap_cons, Segment.text, List.append_assoc]
    exact hleaf

end Leaves

section Names

variable {id : IdentifierPath} {authority : WriteAuthorityMetadata}

theorem rtakeWhile_append_dot (before after : CodeUnits) :
    (before ++ 0x2e :: after).rtakeWhile (fun u => !isDot u) =
      after.rtakeWhile fun u => !isDot u := by
  unfold List.rtakeWhile
  rw [List.reverse_append, List.reverse_cons, List.append_assoc, List.takeWhile_append]
  have hdot : (([0x2e] : CodeUnits) ++ before.reverse).takeWhile (fun u => !isDot u) = [] := rfl
  rw [hdot, List.append_nil]
  split
  · next hlength =>
    have hstart := List.takeWhile_prefix (l := after.reverse) fun u => !isDot u
    rw [hstart.eq_of_length hlength]
  · rfl

theorem rtakeWhile_append_of_undotted {before after : CodeUnits}
    (h : ∀ u ∈ after, isDot u = false) : (before ++ after).rtakeWhile (fun u => !isDot u) =
      before.rtakeWhile (fun u => !isDot u) ++ after := by
  unfold List.rtakeWhile
  rw [List.reverse_append, List.takeWhile_append_of_pos, List.reverse_append, List.reverse_reverse]
  intro u hu
  rw [h u (List.mem_reverse.mp hu)]
  rfl

theorem suffix_rtakeWhile {name : CodeUnits} {ending : CodeUnits} (hsuffix : ending <:+ name)
    (hdots : ending.any isDot = false) : ending <:+ name.rtakeWhile fun u => !isDot u := by
  obtain ⟨stem, rfl⟩ := hsuffix
  have hundotted : ∀ u ∈ ending, isDot u = false := by simpa using hdots
  rw [rtakeWhile_append_of_undotted hundotted]
  exact List.suffix_append _ _

theorem namesIdentifier_iff {name : CodeUnits} :
    namesIdentifier name = true ↔ ofString "Id" <:+ name ∨ ofString "Ids" <:+ name := by
  simp [namesIdentifier]

theorem namesIdentifier_lastPart (h : namesIdentifier id.name = true) :
    namesIdentifier id.lastPart = true := by
  rw [namesIdentifier_iff] at h ⊢
  rcases h with hone | hmany
  · exact Or.inl (suffix_rtakeWhile hone (by decide))
  · exact Or.inr (suffix_rtakeWhile hmany (by decide))

theorem withoutMarker_append (text : CodeUnits) : withoutMarker (text ++ ofString "[]") = text := by
  have hsuffix : (ofString "[]").isSuffixOf (text ++ ofString "[]") = true :=
    List.isSuffixOf_iff_suffix.mpr (List.suffix_append _ _)
  rw [withoutMarker, if_pos hsuffix]
  have hmarker : ofString "[]" = [0x5b] ++ [0x5d] := rfl
  rw [hmarker, ← List.append_assoc, List.dropLast_concat, List.dropLast_concat]

theorem withoutMarker_of_names {text : CodeUnits} (h : namesIdentifier text = true) :
    withoutMarker text = text := by
  have hlast : ∀ ending : CodeUnits, ending ≠ [] → ending <:+ text →
      text.getLast? = ending.getLast? := by
    rintro ending hne ⟨stem, rfl⟩
    exact List.getLast?_append_of_ne_nil _ hne
  rw [withoutMarker, if_neg]
  intro hmarker
  have hbracket := hlast _ (by decide) (List.isSuffixOf_iff_suffix.mp hmarker)
  rcases namesIdentifier_iff.mp h with hone | hmany
  · exact absurd (hbracket.symm.trans (hlast _ (by decide) hone)) (by decide)
  · exact absurd (hbracket.symm.trans (hlast _ (by decide) hmany)) (by decide)

/-- The marker of the last array is cut off, and no other one. -/
theorem leafName_pathText (hnames : namesIdentifier id.name = true) :
    leafName (pathText id.segments) =
      id.lastPart ++ (List.replicate (id.depth - 1) (ofString "[]")).flatten := by
  have htext : pathText id.segments = (ofString "operation" ++ id.before.flatMap Segment.text) ++
      0x2e :: (id.name ++ (List.replicate id.depth (ofString "[]")).flatten) := by
    have hitems : (List.replicate id.depth Segment.item).flatMap Segment.text =
        (List.replicate id.depth (ofString "[]")).flatten := by
      rw [List.flatMap_def, List.map_replicate]
      rfl
    simp only [pathText, IdentifierPath.segments, List.flatMap_append, List.flatMap_cons, hitems,
      Segment.text, List.append_assoc]
    rfl
  have hmarkers : ∀ u ∈ (List.replicate id.depth (ofString "[]")).flatten, isDot u = false := by
    intro u hu
    obtain ⟨marker, hmarker, hunit⟩ := List.mem_flatten.mp hu
    rw [List.eq_of_mem_replicate hmarker] at hunit
    have hall : (ofString "[]").any isDot = false := by decide
    simpa using List.any_eq_false.mp hall u hunit
  rw [leafName, htext, rtakeWhile_append_dot, rtakeWhile_append_of_undotted hmarkers]
  cases hdepth : id.depth with
  | zero =>
    change withoutMarker (id.lastPart ++ []) = id.lastPart ++ []
    rw [List.append_nil]
    exact withoutMarker_of_names (namesIdentifier_lastPart hnames)
  | succ depth =>
    rw [List.replicate_succ', List.flatten_append, List.flatten_singleton, ← List.append_assoc,
      withoutMarker_append]
    rfl

/-- Behind more than one array the leaf's name ends in a bracket. -/
theorem names_leafName_iff (hnames : namesIdentifier id.name = true) :
    namesIdentifier (leafName (pathText id.segments)) = true ↔ id.depth ≤ 1 := by
  rw [leafName_pathText hnames]
  constructor
  · intro h
    by_contra hdeep
    obtain ⟨depth, hdepth⟩ : ∃ depth, id.depth - 1 = depth + 1 := ⟨id.depth - 2, by omega⟩
    rw [hdepth, List.replicate_succ', List.flatten_append, List.flatten_singleton,
      ← List.append_assoc] at h
    have hcut := withoutMarker_of_names h
    rw [withoutMarker_append] at hcut
    exact absurd (List.self_eq_append_right.mp hcut) (by decide)
  · intro hdepth
    have hzero : id.depth - 1 = 0 := by omega
    rw [hzero, List.replicate_zero, List.flatten_nil, List.append_nil]
    exact namesIdentifier_lastPart hnames

/-- The scan looks at exactly the identifiers that are not hidden. -/
theorem hidden_iff (hnames : namesIdentifier id.name = true) :
    id.Hidden ↔ evidencePath (pathText id.segments) = true ∨
      namesIdentifier (leafName (pathText id.segments)) = false ∨
      leafName (pathText id.segments) ∈ ownIdentifiers := by
  by_cases hdepth : id.depth ≤ 1
  · have hseen := (names_leafName_iff hnames).mpr hdepth
    have hleaf : leafName (pathText id.segments) = id.lastPart := by
      have hzero : id.depth - 1 = 0 := by omega
      rw [leafName_pathText hnames, hzero, List.replicate_zero, List.flatten_nil, List.append_nil]
    have hshallow : ¬ 1 < id.depth := by omega
    rw [IdentifierPath.Hidden, hseen, hleaf]
    simp only [hshallow, false_or, Bool.true_eq_false]
    exact or_comm
  · have hunseen : namesIdentifier (leafName (pathText id.segments)) = false := by
      rw [← Bool.not_eq_true, names_leafName_iff hnames]
      exact hdepth
    have hdeep : 1 < id.depth := by omega
    exact ⟨fun _ => Or.inr (Or.inl hunseen), fun _ => Or.inl hdeep⟩

end Names

section Acceptance

variable {authority : WriteAuthorityMetadata} {operation : UnitJson}
  {plan : Option ExternalMutationPlan}

theorem leaves_covered
    (h : validateWriteAuthorityOperation (some authority) operation plan = none) :
    ∀ leaf ∈ collectOperationLeaves operation (ofString "operation"),
      leafRefusal authority leaf = none := by
  unfold validateWriteAuthorityOperation at h
  split at h
  · exact absurd h nofun
  · exact absurd h nofun
  · next heq _ =>
    obtain rfl := Option.some.inj heq
    split at h
    · exact absurd h nofun
    split at h
    · exact absurd h nofun
    split at h
    · exact absurd h nofun
    exact List.findSome?_eq_none_iff.mp h

theorem matches_of_covered {leaf : CodeUnits} (h : leafRefusal authority leaf = none)
    (hseen : evidencePath leaf = false) (hnames : namesIdentifier (leafName leaf) = true)
    (hown : leafName leaf ∉ ownIdentifiers) :
    metadataPathMatches authority.serverDerivedIdPaths leaf = true := by
  by_contra hunmatched
  have hcontains : ownIdentifiers.contains (leafName leaf) = false := by
    rw [← Bool.not_eq_true, List.contains_iff_mem]
    exact hown
  rw [leafRefusal, hseen, hnames, hcontains, Bool.not_eq_true _ |>.mp hunmatched] at h
  exact absurd h nofun

/-- Every identifier of an accepted operation is declared exactly when the hidden ones are. -/
theorem closed_iff_hiddenDeclared
    (h : validateWriteAuthorityOperation (some authority) operation plan = none) :
    Closed authority operation ↔ HiddenDeclared authority operation := by
  constructor
  · intro hclosed id hwithin _
    exact hclosed id hwithin
  · intro hdeclared id hwithin
    by_cases hhidden : id.Hidden
    · exact hdeclared id hwithin hhidden
    · rw [hidden_iff hwithin.names] at hhidden
      simp only [not_or, Bool.not_eq_true, Bool.not_eq_false] at hhidden
      obtain ⟨hseen, hnames, hown⟩ := hhidden
      have hleaf := mem_collectOperationLeaves hwithin.scalar (ofString "operation")
      exact Or.inr (matches_of_covered (leaves_covered h _ hleaf) hseen hnames hown)

end Acceptance

section Example

/-- The authority of `clockify_entries_delete`. -/
def entriesDeleteAuthority : WriteAuthorityMetadata where
  literalControlledPaths := [ofString "id"]
  serverDerivedIdPaths := ["operation.adminUserId", "operation.id", "operation.operationId",
    "operation.workspaceId"].map ofString
  permittedServerDefaultPaths := []
  preservedStatePaths := ["operation.archiveBody.*", "operation.body.*", "operation.doneBody.*",
    "operation.originalBody.*", "operation.patch.*", "operation.prepared.body.*",
    "operation.prepared.source.*", "operation.restoreBody.*", "operation.updateBody.*"].map ofString
  maxExecutions := 1
  mutationPlans := [{
    mode := .single
    minSteps := 1
    maxSteps := 1
    steps := [{ id := "delete-time-entry", kind := .primary, min := 1, max := 1 }] }]

def deletePlan : ExternalMutationPlan where
  mode := .single
  maxHostCalls := 1
  steps := [{ id := "delete-time-entry", kind := .primary }]

/-- `{ "entryIds": [["e1"]] }` -/
def nestedIdentifiers : UnitJson :=
  .obj [(ofString "entryIds", .arr [.arr [.str (ofString "e1")]])]

def nestedPath : IdentifierPath where
  before := []
  name := ofString "entryIds"
  depth := 2

theorem within_nestedIdentifiers : nestedPath.Within nestedIdentifiers := by
  refine ⟨?_, by decide, ?_⟩
  · refine ScalarAt.field List.mem_cons_self ?_
    exact ScalarAt.item List.mem_cons_self (ScalarAt.item List.mem_cons_self (ScalarAt.here rfl))
  · intro name hname
    obtain rfl : name = ofString "entryIds" := by
      simpa [nestedPath, IdentifierPath.segments, List.replicate] using hname
    decide

theorem not_declared_nestedPath : ¬ nestedPath.Declared entriesDeleteAuthority := by
  rintro (hown | hmatches)
  · exact absurd hown (by decide)
  · exact absurd hmatches (by decide)

theorem closed_iff_hiddenDeclared_nested :
    ¬ HiddenDeclared entriesDeleteAuthority nestedIdentifiers := by
  have haccepted : validateWriteAuthorityOperation (some entriesDeleteAuthority) nestedIdentifiers
      (some deletePlan) = none := by decide +kernel
  intro hdeclared
  exact not_declared_nestedPath
    ((closed_iff_hiddenDeclared haccepted).mpr hdeclared nestedPath within_nestedIdentifiers)

/-- `{ "entryIds": [["e1"]] }` is accepted for the deletion of an entry, whose authority knows of
no `entryIds`. -/
theorem nested_identifier_accepted : ¬ ∀ (authority : WriteAuthorityMetadata) (operation : UnitJson)
        (plan : Option ExternalMutationPlan),
      validateWriteAuthorityOperation (some authority) operation plan = none →
      Closed authority operation := by
  intro hclosed
  have haccepted : validateWriteAuthorityOperation (some entriesDeleteAuthority) nestedIdentifiers
      (some deletePlan) = none := by decide +kernel
  exact not_declared_nestedPath (hclosed _ _ _ haccepted nestedPath within_nestedIdentifiers)

end Example

end WriteAuthority

end ClockifyAssistant
