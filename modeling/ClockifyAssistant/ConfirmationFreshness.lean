import ClockifyAssistant.ConfirmationClaims

/-!
A preview is claimed only before its expiry and only with the nonce whose hash is
stored then, provided nothing happens to it while its confirm request waits for
the authority check: the checks of `confirmSingle` stand on one side of that
await and the claim on the other.
-/
namespace ClockifyAssistant

open Lib Txn Fallible

variable (service : ConfirmationService)

/-- The stored preview is not pending, or it is and `P` holds of it. -/
def ServiceWorld.IfPending (w : ServiceWorld) (id : ConfirmationId)
    (P : PendingConfirmation → Prop) : Prop :=
  ∀ row, w.db.confirmations.get? id = some row → row.status = .pending → P row

/-- When the authority check of a single confirmation is passed, its preview, if still
pending, has the nonce hash that was checked and has not expired; and the clock does not
reach the expiry on the way from the last check to the claim. -/
def Undisturbed (env : ServiceEnv) (w : ServiceWorld) : ServiceOp → Prop
  | .verifyWriteAuthority _ (some (record, _)) =>
      env.authority = .ok none → w.IfPending record.id fun row =>
        row.nonceHash = record.nonceHash ∧ env.now < row.expiresAt
  | .markConfirmationExecuting record _ =>
      w.IfPending record.id fun row => w.clock < row.expiresAt → env.now < row.expiresAt
  | _ => True

/-- The claim of a preview meets the nonce hash and the expiry stored for it. -/
def Fresh (w : ServiceWorld) : ServiceOp → Prop
  | .markConfirmationExecuting record nonce =>
      w.IfPending record.id fun row =>
        row.nonceHash = some (service.hashes.nonceHashOf record nonce) ∧ w.clock < row.expiresAt
  | _ => True

def freshness : Spec (confirmationServer service) where
  Inv _ := True
  Rely _ _ := True
  Pre o w := Fresh service w o
  Allowed o env w := Undisturbed env w o

instance lenient_freshness : Lenient (freshness service) where
  pre := by
    intro o ho w
    cases o with
    | markConfirmationExecuting record nonce => cases ho
    | _ => trivial

section Single

variable {service}

theorem safe_acquireLease (claims : SessionScope) (installation : Installation)
    {P : ServiceWorld → Prop} {w : ServiceWorld} (h : P w) :
    SafeE (freshness service) (acquireLease claims installation) (fun _ w => P w)
      (fun _ _ => True) w := by
  refine safeE_bind (Q := fun _ w => P w) (safeE_perform rfl trivial fun env _ => ?_)
    fun lease w h => ?_
  · change Meets (M := confirmationServer service) _ _ env.lease w
    cases env.lease with
    | error e => trivial
    | ok lease => exact h
  · cases lease <;> exact safeE_pure h

theorem safe_confirmSingle (claims : SessionScope) (record : PendingConfirmation) (nonce : Nonce)
    (w : ServiceWorld) : SafeE (freshness service) (confirmSingle service claims record nonce)
      (fun _ _ => True) (fun _ _ => True) w := by
  refine safeE_bind (safe_checkSingle (S := freshness service) claims record nonce w)
    fun checked w hchecked => ?_
  cases checked with
  | error failed => exact safeE_pure trivial
  | ok installation =>
    have hnonce := hchecked installation rfl
    refine safeE_bind (Q := fun denied w => denied = none →
      Fresh service w (.markConfirmationExecuting record nonce))
      (safeE_await rfl fun w' _ _ => ⟨trivial, fun env hundisturbed => ?_⟩) fun denied w hfresh => ?_
    · change Meets _ _ env.authority _
      cases hauthority : env.authority with
      | error e => trivial
      | ok denied =>
        rintro rfl row hrow hpending
        obtain ⟨hsame, hdue⟩ := hundisturbed hauthority row hrow hpending
        exact ⟨hsame.trans hnonce, hdue⟩
    · cases denied with
      | some denied => exact safeE_pure trivial
      | none =>
        refine safeE_bind (safe_acquireLease claims installation
          (P := fun w => Fresh service w (.markConfirmationExecuting record nonce)) (hfresh rfl))
          fun lease w hfresh => ?_
        cases lease with
        | error failed => exact safeE_pure trivial
        | ok _ =>
          refine safeE_bind (safeE_perform_any rfl hfresh) fun claimed w _ => ?_
          split
          · exact safeE_pure trivial
          · refine safeE_bind (safe_dispatchConfirmedPreview claims installation
              (free_perform (fun _ => trivial) w)) fun dispatched w _ => ?_
            exact free_bind (free_bestEffort (free_op rfl)) (fun _ => free_pure _) w

end Single

section Batch

variable {service}

variable {w : ServiceWorld}

theorem ServiceEnv.query_world {α : Type} (env : ServiceEnv) (f : Db → α) (w : ServiceWorld) :
    (env.query f w).2 = w := by
  unfold ServiceEnv.query ServiceEnv.transact
  split <;> rfl

theorem fresh_checkMember (claims : SessionScope) (installation : Installation)
    {record : PendingConfirmation} (nonce : Nonce)
    (hrecord : w.db.confirmations.get? record.id = some record) :
    SafeE (freshness service) (checkMember service claims installation record nonce)
      (fun r w => r = .ok () → Fresh service w (.markConfirmationExecuting record nonce))
      (fun _ _ => True) w := by
  refine safe_checkMember (safeE_perform rfl trivial fun env _ hconfirm row hrow _ => ?_)
    fun o w ho hfresh => ?_
  · obtain rfl : record = row := Option.some.inj (hrecord.symm.trans hrow)
    obtain ⟨_, _, hdue, hnonce⟩ := confirmPending_ok hconfirm
    exact ⟨hnonce, hdue⟩
  · have hpre : o.suspends = false ∧ o.privileged = false ∧ ∀ env, (o.exec env w).2 = w := by
      cases o with
      | getOperationRun id => exact ⟨rfl, rfl, fun env => env.query_world _ w⟩
      | loadPolicy claims => exact ⟨rfl, rfl, fun _ => rfl⟩
      | _ => cases ho
    obtain ⟨hsuspends, hprivileged, hread⟩ := hpre
    refine safeE_perform hsuspends (Lenient.pre hprivileged w) fun env _ => ?_
    change Meets (M := confirmationServer service) _ _ (o.exec env w).1 (o.exec env w).2
    rw [hread env]
    cases (o.exec env w).1 with
    | ok a => exact hfresh
    | error e => trivial

theorem safe_dispatchMember (claims : SessionScope) (installation : Installation)
    (batchId : BatchId) (nowIso : Time) (entry : BatchEntry) {record : PendingConfirmation}
    (nonce : Nonce) (hrecord : w.db.confirmations.get? record.id = some record) :
    SafeE (freshness service)
      (dispatchMember service claims installation batchId nowIso entry record nonce)
      (fun _ _ => True) (fun _ _ => True) w := by
  refine safeE_bind (fresh_checkMember claims installation nonce hrecord) fun checked w hchecked => ?_
  cases checked with
  | error failed => exact safeE_pure trivial
  | ok _ =>
    refine safeE_bind (safeE_perform_any rfl (hchecked rfl)) fun claimed w _ => ?_
    split
    · exact safeE_pure trivial
    · refine safeE_bind (free_op rfl w) fun _ w _ => ?_
      refine safeE_bind (safe_dispatchConfirmedPreview claims installation
        (free_perform (fun _ => trivial) w)) fun dispatched w _ => ?_
      refine free_bind (free_op rfl) (fun _ => free_bind (free_op rfl) fun _ => ?_) w
      exact free_bind (free_op rfl) fun _ => free_pure _

theorem safe_getPendingConfirmation (id : ConfirmationId) (w : ServiceWorld) :
    SafeE (freshness service) (perform (.getPendingConfirmation id))
      (fun record w => ∀ row, record = some row →
        w.db.confirmations.get? row.id = some row) (fun _ _ => True) w := by
  refine safeE_perform rfl trivial fun env _ => ?_
  change Meets (M := confirmationServer service) _ _
    (env.transact (ClockifyAssistant.getPendingConfirmation id env.now) w).1
    (env.transact (ClockifyAssistant.getPendingConfirmation id env.now) w).2
  unfold ServiceEnv.transact
  split
  · trivial
  · cases hread : ClockifyAssistant.getPendingConfirmation id env.now w.db with
    | error e =>
      rw [commit_error hread]
      trivial
    | ok result =>
      obtain ⟨record, db⟩ := result
      rw [commit_ok hread]
      intro row hrow
      have hget : wp (ClockifyAssistant.getPendingConfirmation id env.now)
          (fun record db => record = db.confirmations.get? id) (fun _ => True) w.db := by
        unfold ClockifyAssistant.getPendingConfirmation
        rw [wp_bind]
        exact (wp_iff_forall.mpr fun _ _ _ => rfl)
      have hresult := wp_ok hget hread
      have hfound : some row = db.confirmations.get? id := hrow.symm.trans hresult
      rw [show row.id = id from Table.key_of_get? hfound.symm]
      exact hfound.symm

end Batch

theorem admits_freshness : Admits service (freshness service) where
  single claims record nonce w := safe_confirmSingle claims record nonce w
  member claims installation batchId nowIso entry w :=
    (safe_getPendingConfirmation entry.item.confirmationId w).weaken fun _ _ hrecord row nonce hrow =>
      safe_dispatchMember claims installation batchId nowIso entry nonce (hrecord row hrow)

theorem sound_freshness : Sound (freshness service) where
  refl _ := trivial
  trans _ _ := trivial
  exec _ _ _ _ _ _ := ⟨trivial, trivial⟩
  handler request w _ := Safe.mono (fun _ _ _ => trivial) (free_handler (admits_freshness service) request w)
  restart _ _ _ _ _ := trivial

section Claim

open Server

theorem markConfirmationExecuting_others (env : ServiceEnv) (w : ServiceWorld)
    (record : PendingConfirmation) (nonce : Nonce) {id : ConfirmationId} (hid : id ≠ record.id) :
    ((ServiceOp.markConfirmationExecuting record nonce).exec env w).2.db.confirmations.get? id =
      w.db.confirmations.get? id := by
  change (env.transact (ClockifyAssistant.markConfirmationExecuting record.id env.now)
    w).2.db.confirmations.get? id = _
  unfold ServiceEnv.transact
  split
  · rfl
  · exact commit_inv (P := fun db => db.confirmations.get? id = w.db.confirmations.get? id) rfl
      (wp_mono (wp_markConfirmationExecuting record.id env.now w.db)
        (fun _ _ h => h.1 id hid) fun _ _ => trivial)

/-- Every operation an event performs finds its preview undisturbed. -/
def UndisturbedEvent (c : (confirmationServer service).Config)
    (e : (confirmationServer service).Event) : Prop :=
  ∀ o env, operation? c e = some (o, env) → Undisturbed env c.world o

/-- An event that takes a preview from pending to executing claims it before its stored
expiry, for the nonce whose hash is stored. -/
def ClaimsFresh (c : (confirmationServer service).Config) (e : (confirmationServer service).Event)
    (c' : (confirmationServer service).Config) : Prop :=
  ∀ id row row', c.world.db.confirmations.get? id = some row → row.status = .pending →
    c'.world.db.confirmations.get? id = some row' → row'.status = .executing →
      ∃ record nonce env, operation? c e = some (.markConfirmationExecuting record nonce, env) ∧
        record.id = id ∧ row.nonceHash = some (service.hashes.nonceHashOf record nonce) ∧
        env.now < row.expiresAt

variable {service}

/-- In a run without a disturbance every claim is fresh. -/
theorem claimsFresh_of_undisturbed {w : ServiceWorld} {c c' : (confirmationServer service).Config}
    {e : (confirmationServer service).Event}
    (hreach : Reaches (UndisturbedEvent service) (initial w) c)
    (hundisturbed : UndisturbedEvent service c e) (hstep : step c e = some c') :
    ClaimsFresh service c e c' := by
  intro id row row' hrow hpending hrow' hexec
  obtain ⟨record, nonce, env, ho⟩ := claimed_by_claim hstep hrow hpending hrow' hexec
  have hid : record.id = id := by
    by_contra hne
    have hworld : c'.world.db.confirmations.get? id = c.world.db.confirmations.get? id := by
      rcases world_step hstep with hsame | ⟨o, env', ho', hworld⟩ | ⟨env', rfl, _⟩
      · rw [hsame]
      · obtain ⟨rfl, rfl⟩ := Prod.mk.inj (Option.some.inj (ho.symm.trans ho'))
        rw [hworld]
        exact markConfirmationExecuting_others env c.world record nonce (Ne.symm hne)
      · cases ho
    rw [hworld, hrow, Option.some.injEq] at hrow'
    rw [hrow', hexec] at hpending
    cases hpending
  subst hid
  have hready := Sound.ready_reaches (sound_freshness service) trivial hreach
  have hfresh := Sound.pre_of_operation (sound_freshness service) hready ho
  obtain ⟨hnonce, hclock⟩ := hfresh row hrow hpending
  exact ⟨record, nonce, env, ho, rfl, hnonce, hundisturbed _ env ho row hrow hpending hclock⟩

/-- Hashes under which a nonce is its own hash. -/
def plainService : ConfirmationService where
  hashes := {
    hashNonce := fun nonce _ _ => nonce
    confirmationOperationBindingHash := fun _ => 0
    actionFingerprint := fun _ => 0
    catalogHash := 0 }
  computeOrderedTupleHash := fun _ => 0

/-- One preview that expires at 100, with the nonce 0. -/
def previewWorld : ServiceWorld := ⟨(Txn.commit (prepareRun [.simple 100]) Db.empty).2, 1⟩

/-- The installation is active, the authority grants, the lease is held. -/
def grantedAt (now : Time) : ServiceEnv := { now, installation := some ⟨true, 1⟩ }

/-- The preview's confirmation up to its claim; `others` happen while it is awaited. -/
def claimAt (record : PendingConfirmation) (others : List (confirmationServer plainService).Event)
    (now : Time) : List (confirmationServer plainService).Event :=
  [.accept (.confirmSingle ⟨1, 1, 1⟩ record 0)] ++ List.replicate 4 (.perform (grantedAt 5)) ++
    others ++ [.resume 0 (grantedAt now), .perform (grantedAt now)]

/-- The nonce is re-issued while its confirmation is awaited. -/
def rotation : List (confirmationServer plainService).Event :=
  .accept (.reissueNonce ⟨1, 1, 1⟩ 1 7) :: List.replicate 3 (.perform (grantedAt 6))

/-- The nonce of a claim about to be made, and when it is made. -/
def claimedNonce? (c : (confirmationServer plainService).Config)
    (e : (confirmationServer plainService).Event) : Option (Nonce × Time) :=
  match operation? c e with
  | some (.markConfirmationExecuting _ nonce, env) => some (nonce, env.now)
  | _ => none

/-- What a claim finds in the row of its preview and leaves there. -/
def claimSeen (others : List (confirmationServer plainService).Event) (now : Time) :
    Option ((Option Hash × Time × PendingStatus) × (Nonce × Time) × PendingStatus) := do
  let record ← previewWorld.db.confirmations.get? 1
  let c ← run (initial previewWorld) (claimAt record others now)
  let c' ← step c (.perform (grantedAt now))
  let row ← c.world.db.confirmations.get? 1
  let row' ← c'.world.db.confirmations.get? 1
  let claimed ← claimedNonce? c (.perform (grantedAt now))
  return ((row.nonceHash, row.expiresAt, row.status), claimed, row'.status)

theorem not_claimsFresh {others : List (confirmationServer plainService).Event} {now : Time}
    {hash : Option Hash} {expiresAt : Time} {nonce : Nonce} {at' : Time}
    (hseen : claimSeen others now = some ((hash, expiresAt, .pending), (nonce, at'), .executing))
    (hstale : hash ≠ some nonce ∨ expiresAt ≤ at') :
    ∃ c e c', Reaches (fun _ _ => True) (initial previewWorld) c ∧ step c e = some c' ∧
      ¬ClaimsFresh plainService c e c' := by
  unfold claimSeen at hseen
  simp only [Option.bind_eq_bind, Option.bind_eq_some_iff, Option.pure_def, Option.some.injEq,
    Prod.mk.injEq] at hseen
  obtain ⟨record, -, c, hrun, c', hstep, row, hrow, row', hrow', claimed, hclaimed,
    ⟨rfl, rfl, hpending⟩, rfl, hexec⟩ := hseen
  refine ⟨c, _, c', reaches_of_run hrun, hstep, fun hfresh => ?_⟩
  obtain ⟨record', nonce', env, ho, -, hnonce, hdue⟩ :=
    hfresh 1 row row' hrow hpending hrow' hexec
  obtain ⟨rfl, rfl⟩ : nonce' = nonce ∧ env.now = at' := by
    simpa [claimedNonce?, ho] using hclaimed
  rcases hstale with hne | hle
  · exact hne hnonce
  · exact absurd hdue (not_lt.mpr hle)

/-- A nonce that was replaced while its confirmation was awaited still claims. -/
theorem rotated_nonce_claims : ∃ c e c', Reaches (fun _ _ => True) (initial previewWorld) c ∧
    step c e = some c' ∧ ¬ClaimsFresh plainService c e c' := by
  have hseen : claimSeen rotation 8 = some ((some 7, 100, .pending), (0, 8), .executing) := by
    decide +kernel
  exact not_claimsFresh hseen (.inl (by decide))

/-- The conditions of an undisturbed event, asked of the row whatever its status. -/
def quietEvent (c : (confirmationServer plainService).Config)
    (e : (confirmationServer plainService).Event) : Bool :=
  match operation? c e with
  | some (.verifyWriteAuthority _ (some (record, _)), env) =>
      (c.world.db.confirmations.get? record.id).all fun row =>
        row.nonceHash == record.nonceHash && decide (env.now < row.expiresAt)
  | some (.markConfirmationExecuting record _, env) =>
      (c.world.db.confirmations.get? record.id).all fun row => decide (env.now < row.expiresAt)
  | _ => true

theorem undisturbed_of_quiet {c : (confirmationServer plainService).Config}
    {e : (confirmationServer plainService).Event} (h : quietEvent c e = true) :
    UndisturbedEvent plainService c e := by
  intro o env ho
  unfold quietEvent at h
  rw [ho] at h
  cases o with
  | verifyWriteAuthority claims preview =>
    cases preview with
    | none => trivial
    | some preview =>
      intro _ row hrow _
      simpa [hrow] using h
  | markConfirmationExecuting record nonce =>
    intro row hrow _ _
    simpa [hrow] using h
  | _ => trivial

/-- The same confirmation with nothing in between. -/
theorem claimsFresh_of_quiet_run : ∃ record c c',
    previewWorld.db.confirmations.get? 1 = some record ∧
    runIf quietEvent (initial previewWorld) (claimAt record [] 8) = some c ∧
    step c (.perform (grantedAt 8)) = some c' ∧ claimedNonce? c (.perform (grantedAt 8)) = some (0, 8) ∧
    ClaimsFresh plainService c (.perform (grantedAt 8)) c' := by
  have hseen : (do
      let record ← previewWorld.db.confirmations.get? 1
      let c ← runIf quietEvent (initial previewWorld) (claimAt record [] 8)
      let _ ← step c (.perform (grantedAt 8))
      return (claimedNonce? c (.perform (grantedAt 8)), quietEvent c (.perform (grantedAt 8)))) =
        some (some (0, 8), true) := by
    decide +kernel
  simp only [Option.bind_eq_bind, Option.bind_eq_some_iff, Option.pure_def, Option.some.injEq,
    Prod.mk.injEq] at hseen
  obtain ⟨record, hrecord, c, hrun, c', hstep, hclaimed, hquiet⟩ := hseen
  exact ⟨record, c, c', hrecord, hrun, hstep, hclaimed, claimsFresh_of_undisturbed
    (reaches_of_runIf (fun _ _ h => undisturbed_of_quiet h) hrun) (undisturbed_of_quiet hquiet)
    hstep⟩

end Claim

end ClockifyAssistant
