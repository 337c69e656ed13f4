import Mathlib.Data.String.Basic
import ClockifyAssistant.Lib.Checked
import ClockifyAssistant.Store.RestoreVerification

/-!
What the evidence of a verified restore says about the installations: the primary was probed
and decides, every active row with a usable service URL has its entry behind it.
-/
namespace ClockifyAssistant.RestoreVerification

open Lib Lib.Checked

section Steps

variable {α β : Type}

theorem require_ok {condition : Bool} {check : VerificationCheck} {code : String} {u : Unit}
    (h : require condition check code = .ok u) : condition = true := by
  unfold require at h
  split at h
  · assumption
  · cases h

theorem expect_ok {value : Option α} {check : VerificationCheck} {code : String} {a : α}
    (h : expect value check code = .ok a) : value = some a := by
  unfold expect at h
  split at h
  · injection h with h
    rw [h]
  · cases h

end Steps

section Evidence

variable {rt : Runtime} {options : RestoreOptions}

/-- The digest of the checksum file and the backup's own metadata are those of the candidate. -/
structure ChecksumLaw (rt : Runtime) (files : RestoreFiles) (digest : String) (bytes : Nat)
    (metadata : BackupMetadata) : Prop where
  candidate : files.candidate = some (digest, bytes)
  checksum : ∃ line, files.checksumLine = some line ∧ firstWord line = digest
  read : ∃ raw parsed record, files.rawMetadata = some raw ∧ rt.parseJson raw = some parsed ∧
    asRecord parsed = some record ∧ metadataShape rt record = some metadata
  sha256 : metadata.sha256 = digest
  length : metadata.bytes = bytes
  timeline : laterThan rt metadata.dataAsOf metadata.createdAt = false

theorem checksum_ok {files : RestoreFiles} {digest : String} {bytes : Nat}
    {metadata : BackupMetadata}
    (h : verifyChecksumAndMetadata rt files = .ok (digest, bytes, metadata)) :
    ChecksumLaw rt files digest bytes metadata := by
  obtain ⟨line, hline, h⟩ := bind_eq_ok.mp h
  obtain ⟨raw, hraw, h⟩ := bind_eq_ok.mp h
  obtain ⟨_, -, h⟩ := bind_eq_ok.mp h
  obtain ⟨⟨digest', bytes'⟩, hcandidate, h⟩ := bind_eq_ok.mp h
  obtain ⟨_, hdigest, h⟩ := bind_eq_ok.mp h
  obtain ⟨parsed, hparsed, h⟩ := bind_eq_ok.mp h
  obtain ⟨record, hrecord, h⟩ := bind_eq_ok.mp h
  obtain ⟨metadata', hshape, h⟩ := bind_eq_ok.mp h
  obtain ⟨_, htimeline, h⟩ := bind_eq_ok.mp h
  obtain ⟨_, hmatch, h⟩ := bind_eq_ok.mp h
  injection h with h
  injection h with hd h
  injection h with hb hm
  subst hd hb hm
  have hmatch := require_ok hmatch
  rw [Bool.and_eq_true, beq_iff_eq, beq_iff_eq] at hmatch
  exact {
    candidate := expect_ok hcandidate
    checksum := ⟨line, expect_ok hline, (beq_iff_eq.mp (require_ok hdigest)).symm⟩
    read := ⟨raw, parsed, record, expect_ok hraw, expect_ok hparsed,
      (Option.filter_eq_some_iff.mp (expect_ok hrecord)).1, expect_ok hshape⟩
    sha256 := hmatch.1
    length := hmatch.2
    timeline := by simpa using require_ok htimeline }

variable {db : RestoredDatabase}

theorem assertSchema_ok {version : Int}
    {required : List (String × List String)} {code : String} {u : Unit}
    (h : assertSchema db version required code = .ok u) :
    db.userVersion = version ∧ required.all db.hasColumns = true := by
  obtain ⟨_, hversion, hcolumns⟩ := bind_eq_ok.mp h
  exact ⟨beq_iff_eq.mp (require_ok hversion), require_ok hcolumns⟩

theorem assertSupportedSourceSchema_ok {version : Int}
    (h : assertSupportedSourceSchema db = .ok version) :
    version = db.userVersion ∧ minSupportedRestoreSourceSchemaVersion ≤ db.userVersion ∧
      db.userVersion ≤ latestSchemaVersion := by
  obtain ⟨_, hrange, h⟩ := bind_eq_ok.mp h
  obtain ⟨_, -, h⟩ := bind_eq_ok.mp h
  injection h with h
  have hrange := require_ok hrange
  rw [Bool.and_eq_true, decide_eq_true_eq, decide_eq_true_eq] at hrange
  exact ⟨h.symm, hrange⟩

theorem verifyMigratedClone_ok {migrated : Option RestoredDatabase} {u : Unit}
    (h : verifyMigratedClone migrated = .ok u) :
    ∃ db, migrated = some db ∧ db.integrityCheck = "ok" ∧
      db.userVersion = latestSchemaVersion ∧ requiredSchema.all db.hasColumns = true := by
  obtain ⟨db, hdb, h⟩ := bind_eq_ok.mp h
  obtain ⟨_, hintegrity, h⟩ := bind_eq_ok.mp h
  exact ⟨db, expect_ok hdb, beq_iff_eq.mp (require_ok hintegrity), assertSchema_ok h⟩

/-! The order of the rows. -/

theorem rowBefore_total (a b : InstallationRow) : rowBefore a b = true ∨ rowBefore b a = true := by
  unfold rowBefore
  rcases a.updatedAt with _ | x <;> rcases b.updatedAt with _ | y
  · simpa using le_total a.workspaceId b.workspaceId
  · exact Or.inr rfl
  · exact Or.inl rfl
  · rcases lt_trichotomy x y with hlt | rfl | hlt
    · exact Or.inr (by simp [hlt])
    · simpa using le_total a.workspaceId b.workspaceId
    · exact Or.inl (by simp [hlt])

theorem rowBefore_trans {a b c : InstallationRow} (hab : rowBefore a b = true)
    (hbc : rowBefore b c = true) : rowBefore a c = true := by
  unfold rowBefore at *
  rcases ha : a.updatedAt with _ | x <;> rcases hb : b.updatedAt with _ | y <;>
    rcases hc : c.updatedAt with _ | z <;> rw [ha, hb] at hab <;> rw [hb, hc] at hbc <;>
    simp only [Bool.or_eq_true, Bool.and_eq_true, decide_eq_true_eq, beq_iff_eq,
      Bool.false_eq_true] at hab hbc ⊢
  · exact le_trans hab hbc
  · rcases hab with hxy | ⟨rfl, hid⟩
    · rcases hbc with hyz | ⟨rfl, -⟩
      · exact Or.inl (lt_trans hyz hxy)
      · exact Or.inl hxy
    · rcases hbc with hyz | ⟨rfl, hid'⟩
      · exact Or.inl hyz
      · exact Or.inr ⟨rfl, le_trans hid hid'⟩

theorem activeRows_perm (db : RestoredDatabase) :
    (activeRows db).Perm (db.installations.filter fun row => row.status == "active") :=
  List.perm_insertionSort _ _

theorem activeRows_pairwise (db : RestoredDatabase) :
    (activeRows db).Pairwise fun a b => rowBefore a b = true := by
  have htotal : Std.Total fun a b : InstallationRow => rowBefore a b = true := ⟨rowBefore_total⟩
  have htrans : IsTrans InstallationRow fun a b => rowBefore a b = true :=
    ⟨fun _ _ _ => rowBefore_trans⟩
  exact List.pairwise_insertionSort _ _

/-! The entries. -/

/-- The entry tells how the probe of the row went. -/
def Describes (rt : Runtime) (options : RestoreOptions) (row : InstallationRow)
    (entry : ProbedInstallation) : Prop :=
  entry.workspaceSha256 = rt.sha256 row.workspaceId ∧ entry.primary = false ∧
    ∃ candidate calls, candidateOf rt row = some candidate ∧
      entry.httpStatus = (probeInstallation rt options calls candidate).1

def Usable (rt : Runtime) (row : InstallationRow) : Bool := (apiBaseOf rt row).isSome

theorem candidateOf_of_usable {row : InstallationRow} {apiBase : String}
    (h : apiBaseOf rt row = some apiBase) :
    candidateOf rt row = some ⟨rt.sha256 row.workspaceId, row.addonTokenCiphertext, apiBase⟩ := by
  unfold candidateOf
  rw [h]

theorem candidateOf_of_not_usable {row : InstallationRow} (h : apiBaseOf rt row = none) :
    candidateOf rt row = none := by
  unfold candidateOf
  rw [h]

/-- The probed rows are those whose service URL can be resolved, in their order. -/
theorem probeAll_describes (rt : Runtime) (options : RestoreOptions) (rows : List InstallationRow)
    (calls : Nat) : List.Forall₂ (Describes rt options) (rows.filter (Usable rt))
      (probeAll rt options calls (rows.filterMap (candidateOf rt))) := by
  induction rows generalizing calls with
  | nil => exact List.Forall₂.nil
  | cons row rest ih =>
    cases hbase : apiBaseOf rt row with
    | none =>
      have hskip : Usable rt row = false := by
        unfold Usable
        rw [hbase]
        rfl
      rw [List.filter_cons_of_neg (by rw [hskip]; exact Bool.false_ne_true),
        List.filterMap_cons_none (candidateOf_of_not_usable hbase)]
      exact ih calls
    | some apiBase =>
      have hkeep : Usable rt row = true := by
        unfold Usable
        rw [hbase]
        rfl
      have hcandidate := candidateOf_of_usable hbase
      rw [List.filter_cons_of_pos hkeep, List.filterMap_cons_some hcandidate]
      exact List.Forall₂.cons ⟨rfl, rfl, _, calls, hcandidate, rfl⟩ (ih _)

theorem readInstallation_ok {installation : ReadInstallation}
    (h : readInstallation rt db = .ok installation) :
    ∃ primary others apiBase, activeRows db = primary :: others ∧
      apiBaseOf rt primary = some apiBase ∧ installation = {
        activeCount := (db.installations.filter fun row => row.status == "active").length
        token := primary.addonTokenCiphertext
        apiBase
        all := ⟨rt.sha256 primary.workspaceId, primary.addonTokenCiphertext, apiBase⟩ ::
          others.filterMap (candidateOf rt) } := by
  unfold readInstallation at h
  split at h
  · split at h
    · cases h
    · rename_i primary others hrows
      split at h
      · cases h
      · rename_i apiBase hbase
        injection h with h
        refine ⟨primary, others, apiBase, hrows, hbase, ?_⟩
        rw [← h, List.filterMap_cons_some (candidateOf_of_usable hbase)]
  · cases h

/-- The token of the row decrypts, and the host answers with a user. -/
def PrimaryAnswers (rt : Runtime) (options : RestoreOptions) (row : InstallationRow) : Prop :=
  ∃ apiBase token body, apiBaseOf rt row = some apiBase ∧
    decryptInstallationToken rt options row.addonTokenCiphertext = .ok token ∧
    rt.fetchImpl 0 ⟨apiBase ++ "/user", token⟩ = .response 200 body ∧ (userId body).isSome

theorem tokenBackedRead_ok {calls : Nat} {apiBase token : String} {u : Unit}
    (h : tokenBackedRead rt calls apiBase token = .ok u) :
    ∃ body, rt.fetchImpl calls ⟨apiBase ++ "/user", token⟩ = .response 200 body ∧
      (userId body).isSome := by
  unfold tokenBackedRead at h
  split at h
  · cases h
  · cases h
  · rename_i status body hanswer
    split at h
    · cases h
    · rename_i hstatus
      obtain rfl := not_not.mp hstatus
      exact ⟨body, hanswer, require_ok h⟩

/-- The list of the probed installations of a verified database. -/
structure Listed (rt : Runtime) (options : RestoreOptions) (db : RestoredDatabase)
    (probed : List ProbedInstallation) (primary : InstallationRow)
    (others : List InstallationRow) : Prop where
  rows : (primary :: others).Perm (db.installations.filter fun row => row.status == "active")
  latest : ∀ row ∈ others, rowBefore primary row = true
  first : probed.head? = some ⟨rt.sha256 primary.workspaceId, .status 200, true⟩
  rest : List.Forall₂ (Describes rt options) (others.filter (Usable rt)) probed.tail
  answers : PrimaryAnswers rt options primary

theorem verifyStatically_ok {database : Option RestoredDatabase} {version : Int}
    {installation : ReadInstallation} {probed : List ProbedInstallation}
    (h : verifyStatically rt options database = .ok (version, installation, probed)) :
    ∃ db primary others, database = some db ∧ db.integrityCheck = "ok" ∧
      minSupportedRestoreSourceSchemaVersion ≤ db.userVersion ∧
      db.userVersion ≤ latestSchemaVersion ∧ version = db.userVersion ∧
      installation.activeCount = (primary :: others).length ∧
      Listed rt options db probed primary others := by
  obtain ⟨db, hdb, h⟩ := bind_eq_ok.mp h
  obtain ⟨_, hintegrity, h⟩ := bind_eq_ok.mp h
  obtain ⟨version', hversion, h⟩ := bind_eq_ok.mp h
  obtain ⟨installation', hread, h⟩ := bind_eq_ok.mp h
  obtain ⟨token, htoken, h⟩ := bind_eq_ok.mp h
  obtain ⟨_, hanswer, h⟩ := bind_eq_ok.mp h
  injection h with h
  injection h with hv h
  injection h with hi hp
  subst hv hi hp
  obtain ⟨hsame, hlower, hupper⟩ := assertSupportedSourceSchema_ok hversion
  obtain ⟨primary, others, apiBase, hrows, hbase, rfl⟩ := readInstallation_ok hread
  obtain ⟨body, hbody, huser⟩ := tokenBackedRead_ok hanswer
  have hperm := activeRows_perm db
  have hpairwise := activeRows_pairwise db
  rw [hrows] at hperm hpairwise
  refine ⟨db, primary, others, expect_ok hdb, beq_iff_eq.mp (require_ok hintegrity), hlower,
    hupper, hsame, hperm.length_eq.symm, ?_⟩
  exact {
    rows := hperm
    latest := (List.pairwise_cons.mp hpairwise).1
    first := rfl
    rest := probeAll_describes rt options others 1
    answers := ⟨apiBase, token, body, hbase, htoken, hbody, huser⟩ }

/-- The application has started on the clone, as the release that is asked for. -/
structure ReadinessLaw (rt : Runtime) (options : RestoreOptions) (readiness : ReadinessProof)
    (proof : JsonValue) : Prop where
  shape : (asRecord proof).bind (readinessShape rt) = some readiness
  releaseSha : readiness.releaseSha = options.releaseSha
  releaseBuildHash : readiness.releaseBuildHash = options.releaseBuildHash

/-- What has succeeded where a verification has, and what its evidence lists. -/
structure RestoreLaw (rt : Runtime) (options : RestoreOptions) (files : RestoreFiles)
    (evidence : RestoreVerificationEvidence) : Prop where
  checksum : ∃ metadata, ChecksumLaw rt files evidence.digest evidence.bytes metadata
  database : ∃ db primary others, files.database = some db ∧ db.integrityCheck = "ok" ∧
    minSupportedRestoreSourceSchemaVersion ≤ db.userVersion ∧
    db.userVersion ≤ latestSchemaVersion ∧ evidence.sourceUserVersion = db.userVersion ∧
    evidence.activeCount = (primary :: others).length ∧
    Listed rt options db evidence.probed primary others
  readiness : ∃ probe proof, options.applicationReadinessProbe = some probe ∧
    probe.proof = .ok proof ∧ ReadinessLaw rt options evidence.readiness proof ∧
    ∃ db, probe.migrated = some db ∧ db.integrityCheck = "ok" ∧
      db.userVersion = latestSchemaVersion ∧ requiredSchema.all db.hasColumns = true

theorem verifyApplicationReadiness_ok {probe : ReadinessOutcome} {readiness : ReadinessProof}
    (h : verifyApplicationReadiness rt options probe = .ok readiness) :
    ∃ proof, probe.proof = .ok proof ∧ ReadinessLaw rt options readiness proof := by
  obtain ⟨proof, hproof, h⟩ := bind_eq_ok.mp h
  obtain ⟨readiness', hshape, h⟩ := bind_eq_ok.mp h
  obtain ⟨_, hrelease, h⟩ := bind_eq_ok.mp h
  injection h with h
  subst h
  have hrelease := require_ok hrelease
  rw [Bool.and_eq_true, beq_iff_eq, beq_iff_eq] at hrelease
  refine ⟨proof, ?_, ⟨expect_ok hshape, hrelease.1, hrelease.2⟩⟩
  cases hprobe : probe.proof with
  | error failure =>
    rw [hprobe] at hproof
    cases hproof
  | ok value =>
    rw [hprobe] at hproof
    injection hproof with hproof
    rw [hproof]

/-- The evidence lists the primary first and each other active row whose service URL can be
resolved behind it, and what decides has succeeded. -/
theorem restore_evidence {files : RestoreFiles} {evidence : RestoreVerificationEvidence}
    (h : verifyRestoredDatabase rt options files = .ok evidence) :
    RestoreLaw rt options files evidence := by
  obtain ⟨probe, hprobe, h⟩ := bind_eq_ok.mp h
  obtain ⟨_, -, h⟩ := bind_eq_ok.mp h
  obtain ⟨_, -, h⟩ := bind_eq_ok.mp h
  dsimp only at h
  split at h
  · obtain ⟨⟨digest, bytes, metadata⟩, hchecksum, h⟩ := bind_eq_ok.mp h
    obtain ⟨⟨version, installation, probed⟩, hstatic, h⟩ := bind_eq_ok.mp h
    obtain ⟨readiness, hreadiness, h⟩ := bind_eq_ok.mp h
    obtain ⟨_, hmigrated, h⟩ := bind_eq_ok.mp h
    obtain ⟨recovery, -, h⟩ := bind_eq_ok.mp h
    injection h with h
    subst h
    obtain ⟨db, primary, others, hdb, hintegrity, hlower, hupper, hversion, hcount, hlisted⟩ :=
      verifyStatically_ok hstatic
    obtain ⟨proof, hproof, hready⟩ := verifyApplicationReadiness_ok hreadiness
    exact {
      checksum := ⟨metadata, checksum_ok hchecksum⟩
      database := ⟨db, primary, others, hdb, hintegrity, hlower, hupper, hversion, hcount, hlisted⟩
      readiness := ⟨probe, proof, expect_ok hprobe, hproof, hready,
        verifyMigratedClone_ok hmigrated⟩ }
  · cases h

end Evidence

namespace Example

def digest : String := "e3b0c44298fc1c149afbf4c8996fb92427ae41e4649b934ca495991b7852b855"

def instant : String := "2026-07-18T10:00:00.000Z"

/-- The text of the metadata file, and what it parses to. -/
def metadataText : String := "metadata"

def metadata : JsonValue := .obj [("format", .num 2), ("dataAsOf", .str instant),
  ("createdAt", .str instant), ("bytes", .num 4096), ("sha256", .str digest)]

def clockifyUrl (hostname origin : String) : Url where
  protocol := "https:"
  username := ""
  password := ""
  hostname := hostname
  port := ""
  pathname := "/api"
  search := ""
  hash := ""
  origin := origin

def user : JsonValue := .obj [("id", .str "u1")]

/-- The host knows the token of the live workspace only. -/
def runtime : Runtime where
  dateParse text := if text = instant then some 1784368800000 else none
  toISOString _ := instant
  parseJson text := if text = metadataText then some metadata else none
  sha256 text := text
  decryptSecret ciphertext _ := some ciphertext
  parseUrl raw :=
    if raw = "https://api.clockify.me/api" then
      some (clockifyUrl "api.clockify.me" "https://api.clockify.me")
    else if raw = "https://moved.example.com/api" then
      some (clockifyUrl "moved.example.com" "https://moved.example.com")
    else none
  fetchImpl _ request :=
    if request.token = "live" then .response 200 (some user) else .response 401 none

def row (workspaceId token : String) (apiUrl : Option String) : InstallationRow where
  workspaceId := workspaceId
  addonTokenCiphertext := token
  apiUrl := apiUrl
  backendUrl := none
  updatedAt := some instant
  status := "active"

/-- The live workspace, one whose URL is not Clockify's, and one whose token is not accepted. -/
def database (userVersion : Int) : RestoredDatabase where
  integrityCheck := "ok"
  userVersion := userVersion
  tables := requiredSchema.map fun entry =>
    if entry.1 = "installations" then (entry.1, entry.2 ++ ["updated_at"]) else entry
  installations := [row "a" "live" none, row "b" "moved" (some "https://moved.example.com/api"),
    row "c" "dead" none]

def proof : JsonValue := .obj [("endpoint", .str "GET /health"), ("httpStatus", .num 200),
  ("startupInitialization", .str "production"), ("serverArtifact", .str "dist/server/server.js"),
  ("portBinding", .str "child_ephemeral_ipc"), ("releaseSha", .str digest),
  ("releaseBuildHash", .str digest), ("serverArtifactSha256", .str digest),
  ("readinessConfirmedAt", .str instant), ("elapsedMs", .num 23),
  ("shutdownVerification", .obj [("childExitCode", .num 0), ("databaseIntegrity", .str "ok"),
    ("writerLock", .str "available")])]

def options : RestoreOptions where
  encryptionKey := "key"
  previousEncryptionKey := none
  releaseSha := digest
  releaseBuildHash := digest
  drillStartedAt := none
  incidentAt := none
  applicationReadinessProbe := some ⟨.ok proof, some (database 13)⟩

def files : RestoreFiles where
  cloned := true
  checksumLine := some (digest ++ "  candidate.sqlite")
  rawMetadata := some metadataText
  candidate := some (digest, 4096)
  database := some (database 12)
  cloneRemoved := true

def evidence : RestoreVerificationEvidence where
  bytes := 4096
  digest := digest
  dataAsOf := instant
  backupCreatedAt := instant
  sourceUserVersion := 12
  migrationRequired := true
  activeCount := 3
  probed := [⟨"a", .status 200, true⟩, ⟨"c", .status 401, false⟩]
  readiness := ⟨digest, digest, digest, instant⟩
  recovery := none

theorem verified : verifyRestoredDatabase runtime options files = .ok evidence :=
  ok_of_toOption (by decide +kernel)

theorem restore_evidence_example : RestoreLaw runtime options files evidence :=
  restore_evidence verified

/-- The moved workspace has no entry, and the verification passes with a probe that failed. -/
theorem moved_row_unlisted_dead_row_passes :
    (¬ ∀ (rt : Runtime) (options : RestoreOptions) (files : RestoreFiles)
        (evidence : RestoreVerificationEvidence) (db : RestoredDatabase),
      verifyRestoredDatabase rt options files = .ok evidence → files.database = some db →
      evidence.probed.length = (activeRows db).length) ∧
    ¬ ∀ (rt : Runtime) (options : RestoreOptions) (files : RestoreFiles)
        (evidence : RestoreVerificationEvidence),
      verifyRestoredDatabase rt options files = .ok evidence →
      ∀ entry ∈ evidence.probed, entry.httpStatus = .status 200 := by
  constructor
  · intro hcomplete
    have hlength := hcomplete runtime options files evidence (database 12) verified rfl
    have hthree : (activeRows (database 12)).length = 3 := by decide +kernel
    rw [hthree] at hlength
    cases hlength
  · intro hstrict
    have hdead : (⟨"c", .status 401, false⟩ : ProbedInstallation) ∈ evidence.probed :=
      List.mem_cons_of_mem _ (List.mem_singleton.mpr rfl)
    cases hstrict runtime options files evidence verified _ hdead

end Example

end ClockifyAssistant.RestoreVerification
