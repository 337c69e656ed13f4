import Mathlib.Data.List.Induction
import ClockifyAssistant.Store.TurnRuns

/-!
What a second claim of a request id is told. The turn of one request is fresh,
claimed under a hash, or finished with a response; the rows of the store say the
same, so the answer to a claim can be read off the calls made before it.
-/
namespace ClockifyAssistant

open Lib Txn

inductive TurnStep
  | claim (input : TurnRunClaimInput) (now : Time)
  | markExecuting (sessionId : SessionId) (requestId : RequestId) (now : Time)
  | finish (sessionId : SessionId) (requestId : RequestId) (outcome : TurnOutcome)
      (response : JsonValue) (resultLinks : List DurableResultLink) (now : Time)
  | writeResults (actionResults : ResultId → Option JsonValue)

structure TurnRuns where
  store : TurnStore
  answers : List (TurnRunClaimInput × TurnRunClaimResult)

def TurnRuns.step (w : TurnRuns) : TurnStep → TurnRuns
  | .claim input now =>
      let (answer, store) := (claimTurnRun input now).commit w.store
      { store, answers := w.answers ++ answer.toOption.toList.map fun a => (input, a) }
  | .markExecuting sessionId requestId now =>
      { w with store := ((markTurnRunExecuting sessionId requestId now).commit w.store).2 }
  | .finish sessionId requestId outcome response resultLinks now =>
      { w with store :=
          ((finishTurnRun sessionId requestId outcome response resultLinks now).commit w.store).2 }
  | .writeResults actionResults => { w with store := { w.store with actionResults } }

def runTurns (steps : List TurnStep) : TurnRuns :=
  steps.foldl TurnRuns.step ⟨⟨.empty, .empty, fun _ => none⟩, []⟩

structure TurnFinish where
  response : JsonValue
  resultLinks : List DurableResultLink

/-- Where the turn of one request stands. -/
inductive TurnState
  | fresh
  | claimed (intentHash : Hash) (finish : Option TurnFinish)

def TurnRunClaimInput.turn (input : TurnRunClaimInput) : SessionId × RequestId :=
  (input.sessionId, input.requestId)

def TurnState.after (turn : SessionId × RequestId) (st : TurnState) (step : TurnStep) : TurnState :=
  match st, step with
  | .fresh, .claim input _ => if input.turn = turn then .claimed input.intentHash none else .fresh
  | .claimed intentHash _, .finish sessionId requestId _ response resultLinks _ =>
      if (sessionId, requestId) = turn then .claimed intentHash (some ⟨response, resultLinks⟩)
      else st
  | _, _ => st

def turnState (turn : SessionId × RequestId) (steps : List TurnStep) : TurnState :=
  steps.foldl (TurnState.after turn) .fresh

/-- The result that a link stands for: confirmations stand for none. -/
def DurableResultLink.value (actionResults : ResultId → Option JsonValue) :
    DurableResultLink → Option JsonValue
  | .actionResult ref => actionResults ref
  | .preview descriptor | .inline descriptor => some descriptor
  | .confirmation _ => none

def TurnFinish.replayed (f : TurnFinish) (actionResults : ResultId → Option JsonValue) :
    JsonValue :=
  replayResponse (storedEnvelope f.response)
    (f.resultLinks.filterMap (DurableResultLink.value actionResults))

def TurnState.answer (input : TurnRunClaimInput)
    (actionResults : ResultId → Option JsonValue) : TurnState → TurnRunClaimResult
  | .fresh => .won
  | .claimed intentHash finish =>
      if intentHash ≠ input.intentHash then .conflict
      else match finish with
        | none => .inFlight
        | some f => .replay (f.replayed actionResults)

def linkRow (turn : SessionId × RequestId) (entry : DurableResultLink × Nat) :
    TurnRunResultLink where
  sessionId := turn.1
  requestId := turn.2
  resultIndex := entry.2
  descriptorKind := entry.1.kind
  actionResultId := (durableLinkColumns entry.1).actionResultId
  descriptorJson := (durableLinkColumns entry.1).descriptorJson

def TurnStore.linkRows (store : TurnStore) (turn : SessionId × RequestId) :
    List TurnRunResultLink :=
  store.links.rows.filter fun link => link.sessionId == turn.1 && link.requestId == turn.2

/-- The rows of the turn say where it stands. -/
def TurnState.Stored (store : TurnStore) (turn : SessionId × RequestId) : TurnState → Prop
  | .fresh => store.turns.get? turn = none
  | .claimed intentHash finish => ∃ row, store.turns.get? turn = some row ∧
      row.intentHash = intentHash ∧
      match finish with
      | none => row.status = .prepared ∨ row.status = .executing
      | some f => row.status ≠ .prepared ∧ row.status ≠ .executing ∧
          row.responseEnvelope = some (storedEnvelope f.response) ∧
          store.linkRows turn = f.resultLinks.zipIdx.map (linkRow turn)

theorem linkRow_result (turn : SessionId × RequestId) (entry : DurableResultLink × Nat)
    (actionResults : ResultId → Option JsonValue) :
    (linkRow turn entry).result actionResults = entry.1.value actionResults := by
  obtain ⟨link, index⟩ := entry
  cases link <;> rfl

theorem linkRows_sorted (turn : SessionId × RequestId) (links : List DurableResultLink)
    (start : Nat) : ((links.zipIdx start).map (linkRow turn)).Pairwise
      fun a b => a.resultIndex ≤ b.resultIndex := by
  induction links generalizing start with
  | nil => exact List.Pairwise.nil
  | cons link rest ih =>
    rw [List.zipIdx_cons, List.map_cons]
    refine List.Pairwise.cons ?_ (ih (start + 1))
    intro row hrow
    obtain ⟨entry, hentry, rfl⟩ := List.mem_map.mp hrow
    have hindex := List.le_snd_of_mem_zipIdx hentry
    show start ≤ entry.2
    omega

variable {store : TurnStore} {links : List DurableResultLink}

theorem linksOf_results {sessionId : SessionId} {requestId : RequestId}
    (actionResults : ResultId → Option JsonValue) (h : store.linkRows (sessionId, requestId) =
      links.zipIdx.map (linkRow (sessionId, requestId))) :
    (store.linksOf sessionId requestId).filterMap (TurnRunResultLink.result actionResults) =
      links.filterMap (DurableResultLink.value actionResults) := by
  have hsorted : store.linksOf sessionId requestId =
      links.zipIdx.map (linkRow (sessionId, requestId)) := by
    unfold TurnStore.linksOf
    unfold TurnStore.linkRows at h
    rw [h]
    exact (linkRows_sorted _ _ _).insertionSort_eq
  rw [hsorted, List.filterMap_map]
  have hvalue : (TurnRunResultLink.result actionResults ∘ linkRow (sessionId, requestId)) =
      fun entry => entry.1.value actionResults :=
    funext fun entry => linkRow_result _ entry actionResults
  rw [hvalue]
  conv_rhs => rw [← List.zipIdx_map_fst 0 links, List.filterMap_map]
  rfl

/-- The row that a won claim inserts. -/
def TurnRunClaimInput.row (input : TurnRunClaimInput) (now : Time) : TurnRunRow where
  requestId := input.requestId
  sessionId := input.sessionId
  workspaceId := input.workspaceId
  adminUserId := input.adminUserId
  intentHash := input.intentHash
  status := .prepared
  responseEnvelope := none
  createdAt := now
  updatedAt := now

variable {input : TurnRunClaimInput}

theorem claimTurnRun_fresh {now : Time} (h : store.turns.get? (key (input.row now)) = none) :
    wp (claimTurnRun input now) (fun answer store' => answer = .won ∧
      store' = { store with turns := store.turns.insert (input.row now) h })
      (fun _ => False) store := by
  unfold claimTurnRun
  rw [wp_bind, wp_get]
  dsimp only
  split
  · rename_i existing hget
    change store.turns.get? (key (input.row now)) = some existing at hget
    rw [h] at hget
    cases hget
  · exact ⟨rfl, rfl⟩

theorem claimTurnRun_known {row : TurnRunRow}
    {finish : Option TurnFinish} (now : Time) (hrow : store.turns.get? input.turn = some row)
    (hstored : (TurnState.claimed row.intentHash finish).Stored store input.turn) :
    wp (claimTurnRun input now) (fun answer store' => store' = store ∧
      answer = (TurnState.claimed row.intentHash finish).answer input store.actionResults)
      (fun _ => False) store := by
  obtain ⟨row', hrow', -, hfinish⟩ := hstored
  rw [hrow] at hrow'
  injection hrow' with heq
  subst heq
  unfold claimTurnRun
  rw [wp_bind, wp_get]
  dsimp only
  split
  · rename_i existing hget
    change store.turns.get? input.turn = some existing at hget
    rw [hrow] at hget
    injection hget with hget
    subst hget
    by_cases hhash : row.intentHash = input.intentHash
    · dsimp only [TurnState.answer]
      rw [if_neg (not_not.mpr hhash), if_neg (not_not.mpr hhash)]
      cases finish with
      | none =>
        rw [if_pos hfinish]
        exact ⟨rfl, rfl⟩
      | some f =>
        obtain ⟨hprepared, hexecuting, hresponse, hlinks⟩ := hfinish
        rw [if_neg (not_or.mpr ⟨hprepared, hexecuting⟩), hresponse]
        refine ⟨rfl, ?_⟩
        rw [linksOf_results store.actionResults hlinks]
        rfl
    · dsimp only [TurnState.answer]
      rw [if_pos hhash, if_pos hhash]
      exact ⟨rfl, rfl⟩
  · rename_i hget
    change store.turns.get? input.turn = none at hget
    rw [hrow] at hget
    cases hget

variable {turn : SessionId × RequestId}

theorem insertResultLink_fresh {entry : DurableResultLink × Nat}
    (hturn : (store.turns.get? turn).isSome)
    (hfresh : store.links.get? (key (linkRow turn entry)) = none) :
    wp (insertResultLink turn.1 turn.2 entry) (fun _ store' => store' =
        { store with links := store.links.insert (linkRow turn entry) hfresh })
      (fun _ => False) store := by
  unfold insertResultLink
  rw [wp_bind, wp_get]
  dsimp only
  rw [wp_bind, wp_require]
  refine ⟨?_, fun hnone => absurd hturn hnone⟩
  intro _
  split
  · rfl
  · rename_i hused
    exact hused hfresh

theorem insertResultLinks_spec {n : Nat} (hturn : (store.turns.get? turn).isSome)
    (hbelow : ∀ row ∈ store.linkRows turn, row.resultIndex < n) :
    wp ((links.zipIdx n).forM (insertResultLink turn.1 turn.2))
      (fun _ store' => store'.turns = store.turns ∧
        store'.links.rows = store.links.rows ++ (links.zipIdx n).map (linkRow turn))
      (fun _ => False) store := by
  induction links generalizing n store with
  | nil => exact ⟨rfl, (List.append_nil _).symm⟩
  | cons link rest ih =>
    rw [List.zipIdx_cons]
    show wp (insertResultLink turn.1 turn.2 (link, n) >>= fun _ =>
      (rest.zipIdx (n + 1)).forM (insertResultLink turn.1 turn.2)) _ _ store
    have hfresh : store.links.get? (key (linkRow turn (link, n))) = none := by
      rw [Table.get?_eq_none]
      intro row hrow hkey
      have hsame : row.sessionId = turn.1 ∧ row.requestId = turn.2 ∧
          row.resultIndex = n := by simpa [key, linkRow] using hkey
      have hmem : row ∈ store.linkRows turn :=
        List.mem_filter.mpr ⟨hrow, by simp [hsame]⟩
      have hlt := hbelow row hmem
      omega
    refine wp_seq (insertResultLink_fresh hturn hfresh) ?_
    rintro _ store' rfl
    refine wp_mono (ih (n := n + 1) hturn ?_) ?_ fun _ he => he
    · intro row hrow
      obtain ⟨hmem, hsame⟩ := List.mem_filter.mp hrow
      rcases (Table.mem_insert (h := hfresh)).mp hmem with hold | hnew
      · have hlt := hbelow row (List.mem_filter.mpr ⟨hold, hsame⟩)
        omega
      · rw [hnew]
        exact Nat.lt_succ_self n
    · rintro _ store' ⟨hturns, hrows⟩
      refine ⟨hturns, ?_⟩
      rw [hrows]
      show (store.links.rows ++ [_]) ++ _ = _
      rw [List.append_assoc]
      rfl

theorem linkRows_linkRow (turn : SessionId × RequestId) (links : List DurableResultLink)
    (k : SessionId × RequestId) :
    (links.zipIdx.map (linkRow turn)).filter
        (fun link => link.sessionId == k.1 && link.requestId == k.2) =
      if k = turn then links.zipIdx.map (linkRow turn) else [] := by
  by_cases hk : k = turn
  · rw [if_pos hk, List.filter_eq_self]
    intro row hrow
    obtain ⟨entry, -, rfl⟩ := List.mem_map.mp hrow
    simp [hk, linkRow]
  · rw [if_neg hk, List.filter_eq_nil_iff]
    intro row hrow hkey
    obtain ⟨entry, -, rfl⟩ := List.mem_map.mp hrow
    simp only [linkRow, Bool.and_eq_true, beq_iff_eq] at hkey
    exact hk (Prod.ext hkey.1.symm hkey.2.symm)

/-- Finishing a claimed turn replaces its links and its response. -/
theorem finishTurnRun_claimed
    {row : TurnRunRow} (hrow : store.turns.get? turn = some row) (outcome : TurnOutcome)
    (response : JsonValue) (links : List DurableResultLink) (now : Time) :
    wp (finishTurnRun turn.1 turn.2 outcome response links now)
      (fun _ store' => store'.turns.get? turn = some { row with
          status := outcome.status
          responseEnvelope := some (storedEnvelope response)
          updatedAt := now } ∧
        store'.linkRows turn = links.zipIdx.map (linkRow turn)) (fun _ => False) store := by
  unfold finishTurnRun
  rw [wp_bind, wp_modify]
  have hkey : key row = turn := Table.key_of_get? hrow
  refine wp_mono (insertResultLinks_spec ?_ ?_) ?_ fun _ he => he
  · simp [hrow]
  · intro link hlink
    obtain ⟨hmem, hsame⟩ := List.mem_filter.mp hlink
    have hgone := (Table.mem_deleteWhere.mp hmem).2
    rw [hgone] at hsame
    cases hsame
  · rintro _ store' ⟨hturns, hrows⟩
    refine ⟨?_, ?_⟩
    · rw [hturns, Table.get?_updateWhere, hrow]
      simp [hkey]
    · unfold TurnStore.linkRows
      rw [hrows, List.filter_append, linkRows_linkRow, if_pos rfl]
      have hnone : ((store.links.deleteWhere fun link =>
          link.sessionId == turn.1 && link.requestId == turn.2).rows).filter
            (fun link => link.sessionId == turn.1 && link.requestId == turn.2) = [] := by
        rw [List.filter_eq_nil_iff]
        intro link hlink
        rw [(Table.mem_deleteWhere.mp hlink).2]
        exact Bool.false_ne_true
      rw [hnone, List.nil_append]

/-- Only the rows of the one turn are written. -/
def SameTurns (turn : SessionId × RequestId) (store store' : TurnStore) : Prop :=
  ∀ k, k ≠ turn → store'.turns.get? k = store.turns.get? k ∧ store'.linkRows k = store.linkRows k

theorem SameTurns.refl (turn : SessionId × RequestId) (store : TurnStore) :
    SameTurns turn store store := fun _ _ => ⟨rfl, rfl⟩

variable {st : TurnState}

theorem SameTurns.stored {turn k : SessionId × RequestId} {store store' : TurnStore}
    (h : SameTurns turn store store') (hk : k ≠ turn) (hst : st.Stored store k) :
    st.Stored store' k := by
  obtain ⟨hturn, hlinks⟩ := h k hk
  unfold TurnState.Stored at hst ⊢
  rw [hturn, hlinks]
  exact hst

theorem insertResultLink_keeps (turn : SessionId × RequestId) (entry : DurableResultLink × Nat) :
    Within (fun store store' => store'.turns = store.turns ∧ SameTurns turn store store')
      (insertResultLink turn.1 turn.2 entry) := by
  refine within_get_bind fun store => ?_
  dsimp only
  rw [wp_bind, wp_require]
  refine ⟨fun _ => ?_, fun _ => trivial⟩
  split
  · refine ⟨rfl, fun k hk => ⟨rfl, ?_⟩⟩
    show (store.links.rows ++ [linkRow turn entry]).filter _ = store.links.rows.filter _
    have hother : [linkRow turn entry].filter
        (fun link => link.sessionId == k.1 && link.requestId == k.2) = [] := by
      rw [List.filter_eq_nil_iff]
      intro row hrow hkey
      rw [List.mem_singleton.mp hrow] at hkey
      simp only [linkRow, Bool.and_eq_true, beq_iff_eq] at hkey
      exact hk (Prod.ext hkey.1.symm hkey.2.symm)
    rw [List.filter_append, hother, List.append_nil]
  · trivial

theorem finishTurnRun_keeps (turn : SessionId × RequestId) (outcome : TurnOutcome)
    (response : JsonValue) (links : List DurableResultLink) (now : Time) :
    Within (fun store store' => SameTurns turn store store' ∧
        (store.turns.get? turn = none → store'.turns.get? turn = none))
      (finishTurnRun turn.1 turn.2 outcome response links now) := by
  intro store
  unfold finishTurnRun
  rw [wp_bind, wp_modify]
  refine wp_mono (within_forM (fun store => ⟨rfl, SameTurns.refl turn store⟩) ?_ _
    (fun entry _ => insertResultLink_keeps turn entry) _) ?_ fun _ _ => trivial
  · intro store store' store'' h h'
    refine ⟨h'.1.trans h.1, fun k hk => ?_⟩
    exact ⟨(h'.2 k hk).1.trans (h.2 k hk).1, (h'.2 k hk).2.trans (h.2 k hk).2⟩
  · rintro _ store' ⟨hturns, hsame⟩
    refine ⟨fun k hk => ⟨?_, ?_⟩, ?_⟩
    · rw [(hsame k hk).1, Table.get?_updateWhere]
      cases hrow : store.turns.get? k with
      | none => rfl
      | some row => simp [Table.key_of_get? hrow, hk]
    · rw [(hsame k hk).2]
      show (store.links.rows.filter _).filter _ = store.links.rows.filter _
      rw [List.filter_filter]
      refine List.filter_congr fun link _ => ?_
      by_cases hkey : link.sessionId = k.1 ∧ link.requestId = k.2
      · have hother : ¬ (link.sessionId = turn.1 ∧ link.requestId = turn.2) := fun hturn =>
          hk (Prod.ext (hkey.1.symm.trans hturn.1) (hkey.2.symm.trans hturn.2))
        rw [← not_and_or.symm] at hother
        simp_all
      · simp_all
    · intro hnone
      rw [hturns, Table.get?_updateWhere, hnone]
      rfl

theorem claimTurnRun_keeps (input : TurnRunClaimInput) (now : Time) :
    Within (SameTurns input.turn) (claimTurnRun input now) := by
  refine within_get_bind fun store => ?_
  dsimp only
  split
  · have hsame := SameTurns.refl input.turn store
    refine wp_ite (fun _ => hsame) fun _ => wp_ite (fun _ => hsame) fun _ => ?_
    split <;> exact hsame
  · rename_i hfree
    refine fun k hk => ⟨?_, rfl⟩
    show (store.turns.insert _ hfree).get? k = store.turns.get? k
    rw [Table.get?_insert]
    exact if_neg hk

theorem markTurnRunExecuting_get? (store : TurnStore) (sessionId : SessionId)
    (requestId : RequestId) (now : Time) (turn : SessionId × RequestId) :
    ((markTurnRunExecuting sessionId requestId now).commit store).2.turns.get? turn =
      (store.turns.get? turn).map fun row =>
        if key row == (sessionId, requestId) && row.status == .prepared then
          { row with status := .executing, updatedAt := now }
        else row :=
  Table.get?_updateWhere store.turns
    (fun row => key row == (sessionId, requestId) && row.status == .prepared)
    (fun row => { row with status := .executing, updatedAt := now }) (fun _ => rfl) turn

theorem markTurnRunExecuting_stored (h : st.Stored store turn) (sessionId : SessionId)
    (requestId : RequestId) (now : Time) :
    st.Stored ((markTurnRunExecuting sessionId requestId now).commit store).2 turn := by
  have hget := markTurnRunExecuting_get? store sessionId requestId now turn
  cases st with
  | fresh =>
    rw [show store.turns.get? turn = none from h] at hget
    exact hget
  | claimed intentHash finish =>
    obtain ⟨row, hrow, hhash, hfinish⟩ := h
    rw [hrow, Option.map_some] at hget
    refine ⟨_, hget, ?_⟩
    by_cases hmarked : (key row == (sessionId, requestId) && row.status == .prepared) = true
    · rw [if_pos hmarked]
      refine ⟨hhash, ?_⟩
      cases finish with
      | none => exact Or.inr rfl
      | some f =>
        have hprepared : row.status = .prepared := by
          simpa using (Bool.and_eq_true_iff.mp hmarked).2
        exact absurd hprepared hfinish.1
    · rw [if_neg hmarked]
      exact ⟨hhash, hfinish⟩

theorem TurnState.after_of_ne (h : turn ≠ input.turn) (st : TurnState) (now : Time) :
    st.after turn (.claim input now) = st := by
  cases st with
  | fresh => exact if_neg (Ne.symm h)
  | claimed intentHash finish => rfl

theorem TurnState.finish_of_ne {sessionId : SessionId}
    {requestId : RequestId} (h : turn ≠ (sessionId, requestId)) (st : TurnState)
    (outcome : TurnOutcome) (response : JsonValue) (links : List DurableResultLink) (now : Time) :
    st.after turn (.finish sessionId requestId outcome response links now) = st := by
  cases st with
  | fresh => rfl
  | claimed intentHash finish => exact if_neg (Ne.symm h)

theorem claimTurnRun_stored (h : st.Stored store input.turn) (now : Time) :
    ∃ store', claimTurnRun input now store = .ok (st.answer input store.actionResults, store') ∧
      (st.after input.turn (.claim input now)).Stored store' input.turn := by
  cases st with
  | fresh =>
    have hfree : store.turns.get? (key (input.row now)) = none := h
    obtain ⟨answer, store', hclaim, rfl, rfl⟩ := wp_iff_exists.mp (claimTurnRun_fresh hfree)
    refine ⟨_, hclaim, ?_⟩
    rw [show TurnState.fresh.after input.turn (.claim input now) =
      .claimed input.intentHash none from if_pos rfl]
    exact ⟨input.row now, by rw [Table.get?_insert]; exact if_pos rfl, rfl, Or.inl rfl⟩
  | claimed intentHash finish =>
    obtain ⟨row, hrow, hhash, hfinish⟩ := h
    subst hhash
    have hstored : (TurnState.claimed row.intentHash finish).Stored store input.turn :=
      ⟨row, hrow, rfl, hfinish⟩
    obtain ⟨answer, store', hclaim, rfl, rfl⟩ :=
      wp_iff_exists.mp (claimTurnRun_known now hrow hstored)
    exact ⟨_, hclaim, row, hrow, rfl, hfinish⟩

theorem finishTurnRun_stored
    (h : st.Stored store turn) (outcome : TurnOutcome) (response : JsonValue)
    (links : List DurableResultLink) (now : Time) :
    (st.after turn (.finish turn.1 turn.2 outcome response links now)).Stored
      ((finishTurnRun turn.1 turn.2 outcome response links now).commit store).2 turn := by
  cases st with
  | fresh =>
    have hfree : store.turns.get? turn = none := h
    have hkeep := wp_mono (finishTurnRun_keeps turn outcome response links now store)
      (fun _ _ hkeep => hkeep.2 hfree) fun _ _ => trivial
    exact commit_inv (P := fun s : TurnStore => s.turns.get? turn = none) hfree hkeep
  | claimed intentHash finish =>
    obtain ⟨row, hrow, hhash, -⟩ := h
    obtain ⟨_, store', hfinish, hrow', hlinks⟩ := wp_iff_exists.mp
      (finishTurnRun_claimed hrow outcome response links now)
    rw [commit_ok hfinish, show (TurnState.claimed intentHash finish).after turn
      (.finish turn.1 turn.2 outcome response links now) =
        .claimed intentHash (some ⟨response, links⟩) from if_pos rfl]
    refine ⟨_, hrow', hhash, ?_, ?_, rfl, hlinks⟩
    · cases outcome <;> exact fun hstatus => by cases hstatus
    · cases outcome <;> exact fun hstatus => by cases hstatus

def TurnRunClaimResult.isWon : TurnRunClaimResult → Bool
  | .won => true
  | _ => false

def TurnRuns.wonCount (w : TurnRuns) (turn : SessionId × RequestId) : Nat :=
  w.answers.countP fun a => a.1.turn == turn && a.2.isWon

def TurnState.wins : TurnState → Nat
  | .fresh => 0
  | .claimed _ _ => 1

structure TurnRunInvariant (steps : List TurnStep) : Prop where
  stored : ∀ turn, (turnState turn steps).Stored (runTurns steps).store turn
  wins : ∀ turn, (runTurns steps).wonCount turn = (turnState turn steps).wins

theorem runTurns_snoc (steps : List TurnStep) (step : TurnStep) :
    runTurns (steps ++ [step]) = (runTurns steps).step step := by
  unfold runTurns
  rw [List.foldl_append]
  rfl

theorem turnState_snoc (turn : SessionId × RequestId) (steps : List TurnStep) (step : TurnStep) :
    turnState turn (steps ++ [step]) = (turnState turn steps).after turn step := by
  unfold turnState
  rw [List.foldl_append]
  rfl

theorem TurnState.wins_after (st : TurnState) (turn : SessionId × RequestId) (step : TurnStep)
    (h : ∀ input now, step ≠ .claim input now) : (st.after turn step).wins = st.wins := by
  cases step with
  | claim input now => exact absurd rfl (h input now)
  | markExecuting sessionId requestId now => cases st <;> rfl
  | writeResults actionResults => cases st <;> rfl
  | finish sessionId requestId outcome response links now =>
    cases st with
    | fresh => rfl
    | claimed intentHash finish =>
      unfold TurnState.after
      dsimp only
      split <;> rfl

/-- One call keeps the rows in step with the state of every turn. -/
theorem TurnRuns.step_stored {w : TurnRuns} (h : st.Stored w.store turn) (step : TurnStep) :
    (st.after turn step).Stored (w.step step).store turn := by
  cases step with
  | claim input now =>
    by_cases hturn : turn = input.turn
    · subst hturn
      obtain ⟨store', hclaim, hst⟩ := claimTurnRun_stored h now
      show TurnState.Stored ((claimTurnRun input now).commit w.store).2 _ _
      rw [commit_ok hclaim]
      exact hst
    · rw [TurnState.after_of_ne hturn]
      exact (commit_inv (SameTurns.refl input.turn w.store)
        (claimTurnRun_keeps input now w.store)).stored hturn h
  | markExecuting sessionId requestId now =>
    rw [show st.after turn (.markExecuting sessionId requestId now) = st by cases st <;> rfl]
    exact markTurnRunExecuting_stored h sessionId requestId now
  | finish sessionId requestId outcome response links now =>
    by_cases hturn : turn = (sessionId, requestId)
    · subst hturn
      exact finishTurnRun_stored h outcome response links now
    · rw [TurnState.finish_of_ne hturn]
      have hkeep := commit_inv ⟨SameTurns.refl (sessionId, requestId) w.store, id⟩
        (finishTurnRun_keeps (sessionId, requestId) outcome response links now w.store)
      exact hkeep.1.stored hturn h
  | writeResults actionResults =>
    rw [show st.after turn (.writeResults actionResults) = st by cases st <;> rfl]
    exact h

theorem TurnState.answer_isWon (st : TurnState) (input : TurnRunClaimInput)
    (actionResults : ResultId → Option JsonValue) :
    (st.answer input actionResults).isWon = true ↔ st = .fresh := by
  cases st with
  | fresh => exact ⟨fun _ => rfl, fun _ => rfl⟩
  | claimed intentHash finish =>
    refine ⟨fun hwon => ?_, fun h => by cases h⟩
    unfold TurnState.answer at hwon
    dsimp only at hwon
    split at hwon
    · cases hwon
    · cases finish <;> cases hwon

theorem TurnRuns.step_wins {w : TurnRuns}
    (hstored : ∀ input : TurnRunClaimInput, input.turn = turn → st.Stored w.store input.turn)
    (h : w.wonCount turn = st.wins) (step : TurnStep) :
    (w.step step).wonCount turn = (st.after turn step).wins := by
  by_cases hclaim : ∃ input now, step = .claim input now
  · obtain ⟨input, now, rfl⟩ := hclaim
    by_cases hturn : input.turn = turn
    · obtain ⟨store', hanswer, -⟩ := claimTurnRun_stored (hstored input hturn) now
      have hanswers : (w.step (.claim input now)).answers =
          w.answers ++ [(input, st.answer input w.store.actionResults)] := by
        simp [TurnRuns.step, commit_ok hanswer, Except.toOption]
      unfold TurnRuns.wonCount at h ⊢
      rw [hanswers, List.countP_append, h]
      cases st with
      | fresh => simp [TurnState.answer, TurnState.after, TurnState.wins, hturn,
          TurnRunClaimResult.isWon]
      | claimed intentHash finish =>
        have hlost : ((TurnState.claimed intentHash finish).answer input
            w.store.actionResults).isWon = false := by
          rw [← Bool.not_eq_true, TurnState.answer_isWon]
          exact fun hfresh => by cases hfresh
        simp [hlost, TurnState.after, TurnState.wins]
    · rw [TurnState.after_of_ne (Ne.symm hturn), ← h]
      unfold TurnRuns.wonCount
      show List.countP _ (w.answers ++ _) = _
      rw [List.countP_append, Nat.add_eq_left, List.countP_eq_zero]
      intro a ha hwon
      obtain ⟨answer, -, rfl⟩ := List.mem_map.mp ha
      simp [hturn] at hwon
  · rw [st.wins_after turn step fun input now heq => hclaim ⟨input, now, heq⟩, ← h]
    cases step with
    | claim input now => exact absurd ⟨input, now, rfl⟩ hclaim
    | markExecuting sessionId requestId now => rfl
    | finish sessionId requestId outcome response links now => rfl
    | writeResults actionResults => rfl

theorem runTurns_invariant (steps : List TurnStep) : TurnRunInvariant steps := by
  induction steps using List.reverseRecOn with
  | nil => exact ⟨fun _ => rfl, fun _ => rfl⟩
  | append_singleton steps step ih =>
    refine ⟨?_, ?_⟩
    · intro turn
      rw [runTurns_snoc, turnState_snoc]
      exact TurnRuns.step_stored (ih.stored turn) step
    · intro turn
      rw [runTurns_snoc, turnState_snoc]
      exact TurnRuns.step_wins (fun input hturn => hturn ▸ ih.stored turn) (ih.wins turn) step

/-- The fields of a response that are stored, those of its body among them. -/
def keptFields : JsonValue → List (String × JsonValue)
  | .obj fields =>
      match (fields.lookup "body").bind JsonValue.record? with
      | some body => fields.filter (fun field => field.1 != "body") ++
          body.filter fun field => field.1 != "results" && field.1 != "runEvents"
      | none => fields
  | .arr items => items.zipIdx.map fun entry => (toString entry.2, entry.1)
  | _ => []

/-- The name occurs in a stored field or in a linked result. -/
def TurnFinish.Keeps (f : TurnFinish) (actionResults : ResultId → Option JsonValue)
    (name : String) : Prop :=
  (∃ field ∈ keptFields f.response, field.1 = name ∨ field.2.Mentions name) ∨
    ∃ link ∈ f.resultLinks, ∃ value, link.value actionResults = some value ∧ value.Mentions name

theorem keptFields_of_body {fields body : List (String × JsonValue)}
    (hbody : (fields.lookup "body").bind JsonValue.record? = some body) :
    keptFields (.obj fields) = fields.filter (fun field => field.1 != "body") ++
      body.filter fun field => field.1 != "results" && field.1 != "runEvents" := by
  simp only [keptFields, hbody]

theorem replayed_of_body {fields body : List (String × JsonValue)}
    (actionResults : ResultId → Option JsonValue)
    (hbody : (fields.lookup "body").bind JsonValue.record? = some body) :
    (TurnFinish.mk (.obj fields) links).replayed actionResults =
      .obj (JsonValue.withField "body" (.obj (JsonValue.withField "results"
          (.arr (links.filterMap (DurableResultLink.value actionResults)))
          (body.filter fun field => field.1 != "results" && field.1 != "runEvents")))
        (JsonValue.withField "body"
          (.obj (body.filter fun field => field.1 != "results" && field.1 != "runEvents"))
          fields)) := by
  unfold TurnFinish.replayed storedEnvelope
  dsimp only
  rw [hbody]
  unfold replayResponse
  dsimp only
  rw [JsonValue.lookup_withField]
  rfl

/-- A replay shows no name but those kept from the response and of the linked results. -/
theorem replayed_mentions {f : TurnFinish} {actionResults : ResultId → Option JsonValue}
    {name : String} (h : (f.replayed actionResults).Mentions name) :
    name = "body" ∨ name = "results" ∨ f.Keeps actionResults name := by
  obtain ⟨response, links⟩ := f
  cases response with
  | obj fields =>
    cases hbody : (fields.lookup "body").bind JsonValue.record? with
    | some body =>
      rw [replayed_of_body actionResults hbody, JsonValue.mentions_obj] at h
      obtain ⟨field, hfield, hname⟩ := h
      rcases JsonValue.mem_withField hfield with hnew | ⟨hold, hne⟩
      · rw [hnew] at hname
        rcases hname with hname | hname
        · exact Or.inl hname.symm
        obtain ⟨inner, hinner, hname⟩ := JsonValue.mentions_obj.mp hname
        rcases JsonValue.mem_withField hinner with hresults | ⟨hkept, -⟩
        · rw [hresults] at hname
          rcases hname with hname | hname
          · exact Or.inr (Or.inl hname.symm)
          obtain ⟨value, hvalue, hmentions⟩ := JsonValue.mentions_arr.mp hname
          obtain ⟨link, hlink, hlinked⟩ := List.mem_filterMap.mp hvalue
          exact Or.inr (Or.inr (Or.inr ⟨link, hlink, value, hlinked, hmentions⟩))
        · refine Or.inr (Or.inr (Or.inl ⟨inner, ?_, hname⟩))
          rw [keptFields_of_body hbody]
          exact List.mem_append_right _ hkept
      · rcases JsonValue.mem_withField hold with hstored | ⟨hold, -⟩
        · exact absurd (congrArg Prod.fst hstored) hne
        · refine Or.inr (Or.inr (Or.inl ⟨field, ?_, hname⟩))
          rw [keptFields_of_body hbody]
          exact List.mem_append_left _ (List.mem_filter.mpr ⟨hold, by simpa using hne⟩)
    | none =>
      have hreplay : (TurnFinish.mk (.obj fields) links).replayed actionResults = .obj fields := by
        simp [TurnFinish.replayed, storedEnvelope, replayResponse, hbody]
      rw [hreplay, JsonValue.mentions_obj] at h
      obtain ⟨field, hfield, hname⟩ := h
      refine Or.inr (Or.inr (Or.inl ⟨field, ?_, hname⟩))
      simpa only [keptFields, hbody] using hfield
  | arr items =>
    obtain ⟨item, hitem, hmentions⟩ := JsonValue.mentions_arr.mp h
    obtain ⟨index, hindex, rfl⟩ := List.mem_iff_getElem.mp hitem
    refine Or.inr (Or.inr (Or.inl ⟨(toString index, items[index]), ?_, Or.inr hmentions⟩))
    refine List.mem_map.mpr ⟨(items[index], index), ?_, rfl⟩
    exact List.mk_mem_zipIdx_iff_getElem?.mpr (List.getElem?_eq_getElem hindex)
  | null => exact absurd h (JsonValue.not_mentions_nil name)
  | bool value => exact absurd h (JsonValue.not_mentions_nil name)
  | num value => exact absurd h (JsonValue.not_mentions_nil name)
  | str value => exact absurd h (JsonValue.not_mentions_nil name)

structure TurnRunLaw (steps : List TurnStep) : Prop where
  wonOnce : ∀ turn, (runTurns steps).wonCount turn ≤ 1
  answer : ∀ input now, ((claimTurnRun input now).commit (runTurns steps).store).1 =
    .ok ((turnState input.turn steps).answer input (runTurns steps).store.actionResults)
  hidden : ∀ turn intentHash f name, turnState turn steps = .claimed intentHash (some f) →
    (f.replayed (runTurns steps).store.actionResults).Mentions name →
    name = "body" ∨ name = "results" ∨ f.Keeps (runTurns steps).store.actionResults name

/-- A request id is won once; a second claim conflicts, waits, or is told what the
last finish of the turn left, without its events and its confirmations. -/
theorem runTurns_law (steps : List TurnStep) : TurnRunLaw steps := by
  have h := runTurns_invariant steps
  refine ⟨?_, ?_, ?_⟩
  · intro turn
    rw [h.wins turn]
    cases turnState turn steps with
    | fresh => exact Nat.zero_le 1
    | claimed intentHash finish => exact Nat.le_refl 1
  · intro input now
    obtain ⟨store', hclaim, -⟩ := claimTurnRun_stored (h.stored input.turn) now
    rw [commit_ok hclaim]
  · intro turn intentHash f name _ hmentions
    exact replayed_mentions hmentions

def exampleClaim : TurnRunClaimInput where
  requestId := 7
  sessionId := 1
  workspaceId := 1
  adminUserId := 1
  intentHash := 5

/-- While the first claim is at work a second one of the same hash gets no response,
and a name that the body holds beside its results and its events is replayed. -/
theorem not_always_replayed :
    ((claimTurnRun exampleClaim 1).commit (runTurns [.claim exampleClaim 0]).store).1 =
      .ok .inFlight ∧
    ∃ response, ((claimTurnRun exampleClaim 2).commit (runTurns [.claim exampleClaim 0,
        .finish 1 7 .succeeded (.obj [("body", .obj [("nonce", .null)])])
          [] 1]).store).1 = .ok (.replay response) ∧ response.Mentions "nonce" := by
  refine ⟨rfl, _, rfl, ?_⟩
  exact .field List.mem_cons_self (.key List.mem_cons_self)

end ClockifyAssistant
