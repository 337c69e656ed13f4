import ClockifyAssistant.Lib.Checked
import ClockifyAssistant.Lib.Paging
import ClockifyAssistant.Rest.Lists

/-!
When a list read that reports a complete list has returned the host's list.
Every read is a scan whose page step depends on the adapter; the condition asks,
at the page that ends the scan, that the bodies up to it declare their lists and
that the host has no rows behind it.
-/
namespace ClockifyAssistant

open Lib Txn

/-- The list reads of the adapter. -/
inductive ListRead
  | paginate (path : String)
  | paginateEnvelope (path envelopeKey : String)
  | searchRequests
  | listWebhookLogs
  | getAllProjectScheduleTotals
  | searchAuditLog (page : Option ℕ+)
  | listEntityChanges
  | listHolidays
  | listHolidaysInPeriod
  | getOneProjectScheduleTotals
  | listCurrencies
  | listRawInvoiceItems
  | listInvoiceItems
  | listInvoicePayments
  | listWebhooks
  | getProjectMemberships

namespace ListRead

variable (rt : JsRuntime) (inMutationPlan : Bool)

def run (call : Nat → HostRead JsonValue) : ListRead → HostRead ListResult
  | paginate path => ClockifyAssistant.paginate inMutationPlan path call
  | paginateEnvelope path envelopeKey =>
      ClockifyAssistant.paginateEnvelope inMutationPlan path envelopeKey call
  | searchRequests => ClockifyAssistant.searchRequests inMutationPlan call
  | listWebhookLogs => ClockifyAssistant.listWebhookLogs inMutationPlan call
  | getAllProjectScheduleTotals =>
      ClockifyAssistant.getAllProjectScheduleTotals inMutationPlan call
  | searchAuditLog page => ClockifyAssistant.searchAuditLog inMutationPlan page call
  | listEntityChanges => ClockifyAssistant.listEntityChanges call
  | listHolidays => ClockifyAssistant.listHolidays call
  | listHolidaysInPeriod => ClockifyAssistant.listHolidaysInPeriod call
  | getOneProjectScheduleTotals => ClockifyAssistant.getOneProjectScheduleTotals call
  | listCurrencies => ClockifyAssistant.listCurrencies call
  | listRawInvoiceItems => ClockifyAssistant.listRawInvoiceItems call
  | listInvoiceItems => ClockifyAssistant.listInvoiceItems call
  | listInvoicePayments => ClockifyAssistant.listInvoicePayments call
  | listWebhooks => ClockifyAssistant.listWebhooks call
  | getProjectMemberships => ClockifyAssistant.getProjectMemberships rt call

/-- The list a body declares: the body itself, or what its envelope resolves to. -/
def declared : ListRead → JsonValue → Option (List JsonValue)
  | paginateEnvelope _ envelopeKey, body => unwrap (envelopeKey.splitOn ".") (some body)
  | searchRequests, body => body.items?.or ((body.property "requests").bind JsonValue.items?)
  | listCurrencies, body => (body.property "currencies").bind JsonValue.items?
  | listRawInvoiceItems, body => (body.property "items").bind JsonValue.items?
  | listInvoiceItems, body => (body.property "items").bind JsonValue.items?
  | listInvoicePayments, body =>
      body.items?.or <| (JsonValue.coalesce (body.property "payments") <|
        JsonValue.coalesce (body.property "items") (body.property "data")).bind JsonValue.items?
  | listWebhooks, body => body.items?.or ((body.property "webhooks").bind JsonValue.items?)
  | getProjectMemberships, body => (body.property "memberships").bind JsonValue.items?
  | _, body => body.items?

/-- A membership keeps only its known fields; every other read returns its rows as they are. -/
def view : ListRead → JsonValue → JsonValue
  | getProjectMemberships, row => ((decodeMembershipRow rt 0 row).toOption).getD row
  | _, row => row

def limit : ListRead → Nat
  | paginate _ => mutationReadPageLimit inMutationPlan
  | paginateEnvelope _ _ => mutationReadPageLimit inMutationPlan
  | searchRequests => mutationReadPageLimit inMutationPlan
  | listWebhookLogs => mutationReadPageLimit inMutationPlan
  | getAllProjectScheduleTotals => mutationReadPageLimit inMutationPlan
  | searchAuditLog none => mutationReadPageLimit inMutationPlan
  | _ => 1

def firstPage : ListRead → Nat
  | searchAuditLog (some page) => page
  | _ => 1

end ListRead

/-- The step of a strict helper: a list, or the read fails. -/
def strictChunk (message : String) (items : Option (List JsonValue)) :
    Except ReadError (Chunk JsonValue) :=
  match items with
  | none => .error (.error message)
  | some items => .ok { rows := items, ends := decide (items.length < pageSize) }

/-- The step of `collectPages`. -/
def collectChunk (inputPageSize seen : Nat) (result : PageResult) :
    Except ReadError (Chunk JsonValue) :=
  match result.rows.spread, result.rows.length with
  | some rows, some length =>
      .ok { rows, ends := result.total.any (· ≤ ((seen + rows.length : Nat) : Rat)) ||
        decide (length < inputPageSize) }
  | _, _ => .error (.typeError "Spread syntax requires ...iterable[Symbol.iterator] to be a function")

def mappedChunk (rows : JsonValue) (ends : List JsonValue → Bool) :
    Except ReadError (Chunk JsonValue) :=
  match rows.items? with
  | none => .error (.typeError "map is not a function")
  | some items => .ok { rows := items, ends := ends items }

/-- What a read takes from one body, after `seen` rows. -/
def ListRead.chunk (rt : JsRuntime) (seen : Nat) (body : JsonValue) :
    ListRead → Except ReadError (Chunk JsonValue)
  | paginate path =>
      strictChunk ("Clockify GET " ++ path ++
        " returned an invalid list response; expected a JSON array.") body.items?
  | paginateEnvelope path envelopeKey =>
      strictChunk ("Clockify GET " ++ path ++ " returned an invalid list response; envelope " ++
        envelopeKey ++ " must resolve to a JSON array.")
        (unwrap (envelopeKey.splitOn ".") (some body))
  | searchRequests => collectChunk pageSize seen (searchRequestsPage body)
  | listWebhookLogs => collectChunk pageSize seen { rows := .arr (listOrEmpty body) }
  | getAllProjectScheduleTotals => collectChunk pageSize seen { rows := .arr (listOrSingle body) }
  | searchAuditLog none => collectChunk auditPageSize seen { rows := .arr (listOrEmpty body) }
  | searchAuditLog (some page) => .ok {
      rows := listOrEmpty body
      ends := !(1 < page || (listOrEmpty body).length == auditPageSize) }
  | listEntityChanges | listHolidays | listHolidaysInPeriod =>
      .ok { rows := listOrEmpty body, ends := true }
  | getOneProjectScheduleTotals => .ok { rows := listOrSingle body, ends := true }
  | listCurrencies =>
      mappedChunk ((JsonValue.coalesce (body.property "currencies") (some (.arr []))).getD (.arr []))
        fun _ => true
  | listRawInvoiceItems | listInvoiceItems =>
      .ok { rows := ((body.property "items").bind JsonValue.items?).getD [], ends := true }
  | listInvoicePayments => mappedChunk (paymentsOf body) fun _ => true
  | listWebhooks =>
      mappedChunk (webhooksOf body) fun rows =>
        !((body.property "workspaceWebhookCount").bind JsonValue.number?).any
          ((rows.length : Rat) < ·)
  | getProjectMemberships =>
      match body.property "memberships" with
      | none => .error (malformedProjectField "memberships")
      | some memberships =>
          (decodeProjectMembershipRows rt memberships).map fun rows => { rows, ends := true }

section Scan

variable (rt : JsRuntime) (inMutationPlan : Bool) (responses : Nat → Except ReadError JsonValue)

/-- One step of the read: a response, and what is taken from it. -/
def ListRead.load (r : ListRead) (page seen : Nat) : HostRead (Chunk JsonValue) := do
  let body ← receive responses page
  match r.chunk rt seen body with
  | .error e => throw e
  | .ok chunk => return chunk

def listResult (scanned : Scanned JsonValue) : ListResult :=
  { rows := scanned.rows, truncated := !scanned.complete }

variable {rt responses}

theorem receive_error {page : Nat} {e : ReadError} (h : responses page = .error e)
    (bodies : List JsonValue) : receive responses page bodies = .error e := by
  simp only [receive, h]
  rfl

theorem receive_ok {page : Nat} {body : JsonValue} (h : responses page = .ok body)
    (bodies : List JsonValue) : receive responses page bodies = .ok (body, bodies ++ [body]) := by
  simp only [receive, h]
  rfl

theorem bind_error {m : HostRead JsonValue} {α : Type} {f : JsonValue → HostRead α}
    {s : List JsonValue} {e : ReadError} (h : m s = .error e) : (m >>= f) s = .error e := by
  simp [bind, StateT.bind, Except.bind, h]

theorem ListRead.load_error {r : ListRead} {page seen : Nat} {body : JsonValue} {e : ReadError}
    (hbody : responses page = .ok body) (hchunk : r.chunk rt seen body = .error e)
    (bodies : List JsonValue) : r.load rt responses page seen bodies = .error e := by
  rw [load, bind_ok (receive_ok hbody bodies), hchunk]
  rfl

theorem ListRead.load_ok {r : ListRead} {page seen : Nat} {body : JsonValue}
    {chunk : Chunk JsonValue} (hbody : responses page = .ok body)
    (hchunk : r.chunk rt seen body = .ok chunk) (bodies : List JsonValue) :
    r.load rt responses page seen bodies = .ok (chunk, bodies ++ [body]) := by
  rw [load, bind_ok (receive_ok hbody bodies), hchunk]
  rfl

/-- A loop that takes the read's chunk from each page is the read's scan. -/
theorem pages_eq_scan {r : ListRead} {pages : Nat → Nat → List JsonValue → HostRead ListResult}
    {g : Nat → Nat → List JsonValue → JsonValue → HostRead ListResult}
    (hzero : ∀ page rows, pages 0 page rows = pure { rows, truncated := true })
    (hsucc : ∀ left page rows,
      pages (left + 1) page rows = receive responses page >>= g left page rows)
    (hnext : ∀ left page rows body, g left page rows body =
      match r.chunk rt rows.length body with
      | .error e => throw e
      | .ok chunk =>
          if chunk.ends then pure { rows := rows ++ chunk.rows, truncated := false }
          else pages left (page + 1) (rows ++ chunk.rows))
    (left page : Nat) (rows : List JsonValue) :
    pages left page rows = listResult <$> scan (r.load rt responses) left page rows := by
  induction left generalizing page rows with
  | zero =>
    rw [hzero]
    rfl
  | succ left ih =>
    funext bodies
    rw [hsucc, scan, map_bind]
    cases hbody : responses page with
    | error e =>
      have hload : r.load rt responses page rows.length bodies = .error e :=
        bind_error (receive_error hbody bodies)
      simp only [bind, StateT.bind, Except.bind, hload, receive_error hbody]
    | ok body =>
      rw [bind_ok (receive_ok hbody bodies), hnext]
      cases hchunk : r.chunk rt rows.length body with
      | error e =>
        have hload := ListRead.load_error hbody hchunk bodies
        simp only [bind, StateT.bind, Except.bind, hload]
        rfl
      | ok chunk =>
        rw [bind_ok (ListRead.load_ok hbody hchunk bodies)]
        obtain ⟨items, ends⟩ := chunk
        cases ends with
        | true => rfl
        | false => exact congrFun (ih (page + 1) (rows ++ items)) _

theorem single_eq_scan {r : ListRead} {m : JsonValue → HostRead ListResult} (page : Nat)
    (h : ∀ body, m body =
      match r.chunk rt 0 body with
      | .error e => throw e
      | .ok chunk => pure { rows := chunk.rows, truncated := !chunk.ends }) :
    (receive responses page >>= m) = listResult <$> scan (r.load rt responses) 1 page [] := by
  funext bodies
  rw [scan, map_bind]
  cases hbody : responses page with
  | error e =>
    have hload : r.load rt responses page 0 bodies = .error e :=
      bind_error (receive_error hbody bodies)
    simp only [bind, StateT.bind, Except.bind, List.length_nil, hload, receive_error hbody]
  | ok body =>
    rw [bind_ok (receive_ok hbody bodies), h]
    cases hchunk : r.chunk rt 0 body with
    | error e =>
      have hload := ListRead.load_error hbody hchunk bodies
      simp only [bind, StateT.bind, Except.bind, List.length_nil, hload]
      rfl
    | ok chunk =>
      rw [List.length_nil, bind_ok (ListRead.load_ok hbody hchunk bodies)]
      obtain ⟨items, ends⟩ := chunk
      cases ends <;> rfl

theorem collectPages_eq_scan {r : ListRead} {inputPageSize firstPage : Nat}
    {result : JsonValue → PageResult}
    (h : ∀ seen body, r.chunk rt seen body = collectChunk inputPageSize seen (result body)) :
    collectPages inMutationPlan inputPageSize firstPage (fun page => do
        let body ← receive responses page
        return result body) =
      listResult <$> scan (r.load rt responses) (mutationReadPageLimit inMutationPlan)
        firstPage [] := by
  refine pages_eq_scan (g := fun left page rows body => ?_) ?_ ?_ ?_ _ _ _
  · exact match (result body).rows.spread, (result body).rows.length with
      | some items, some length =>
        if (result body).total.any (· ≤ ((rows ++ items).length : Rat)) then
          pure { rows := rows ++ items, truncated := false }
        else if length < inputPageSize then pure { rows := rows ++ items, truncated := false }
        else collectPages.pages inputPageSize (fun page => do
          let body ← receive responses page
          return result body) left (page + 1) (rows ++ items)
      | _, _ =>
        throw (.typeError "Spread syntax requires ...iterable[Symbol.iterator] to be a function")
  · exact fun _ _ => rfl
  · intro left page rows
    rw [collectPages.pages, bind_assoc]
    rfl
  · intro left page rows body
    rw [h, collectChunk]
    cases hspread : (result body).rows.spread with
    | none => rfl
    | some items =>
      cases hlength : (result body).rows.length with
      | none => rfl
      | some length =>
        by_cases htotal : (result body).total.any (· ≤ ((rows ++ items).length : Rat)) <;>
          by_cases hshort : length < inputPageSize <;> simp_all

theorem strict_eq_scan {r : ListRead} {message : String}
    {listOf : JsonValue → Option (List JsonValue)}
    {pages : Nat → Nat → List JsonValue → HostRead ListResult}
    (hchunk : ∀ seen body, r.chunk rt seen body = strictChunk message (listOf body))
    (hzero : ∀ page rows, pages 0 page rows = pure { rows, truncated := true })
    (hsucc : ∀ left page rows, pages (left + 1) page rows = do
      let body ← receive responses page
      match listOf body with
      | none => throw (.error message)
      | some arr =>
          if arr.length < pageSize then return { rows := rows ++ arr, truncated := false }
          pages left (page + 1) (rows ++ arr))
    {left page : Nat} {rows : List JsonValue} :
    pages left page rows = listResult <$> scan (r.load rt responses) left page rows := by
  refine pages_eq_scan hzero hsucc (fun left page rows body => ?_) _ _ _
  rw [hchunk]
  cases h : listOf body with
  | none => rfl
  | some arr => by_cases hshort : arr.length < pageSize <;> simp [strictChunk, hshort]

theorem mapped_eq_scan {r : ListRead} (rowsOf : JsonValue → JsonValue)
    (truncated : JsonValue → List JsonValue → Bool) (hchunk : ∀ body,
      r.chunk rt 0 body = mappedChunk (rowsOf body) fun rows => !truncated body rows) :
    (receive responses 1 >>= fun body => mapped (rowsOf body) >>= fun rows =>
        pure { rows, truncated := truncated body rows }) =
      listResult <$> scan (r.load rt responses) 1 1 [] := by
  refine single_eq_scan 1 fun body => ?_
  rw [hchunk, mappedChunk, mapped]
  cases (rowsOf body).items? with
  | none => rfl
  | some items => simp

theorem ListRead.run_eq_scan (r : ListRead) : r.run rt inMutationPlan (receive responses) =
      listResult <$> scan (r.load rt responses) (r.limit inMutationPlan) r.firstPage [] := by
  cases r with
  | paginate path =>
    exact strict_eq_scan (fun _ _ => rfl) (fun _ _ => rfl) fun _ _ _ => rfl
  | paginateEnvelope path envelopeKey =>
    exact strict_eq_scan (fun _ _ => rfl) (fun _ _ => rfl) fun _ _ _ => rfl
  | searchRequests => exact collectPages_eq_scan inMutationPlan fun _ _ => rfl
  | listWebhookLogs => exact collectPages_eq_scan inMutationPlan fun _ _ => rfl
  | getAllProjectScheduleTotals => exact collectPages_eq_scan inMutationPlan fun _ _ => rfl
  | searchAuditLog page =>
    cases page with
    | none => exact collectPages_eq_scan inMutationPlan fun _ _ => rfl
    | some page => exact single_eq_scan page fun body => by simp [ListRead.chunk]
  | listEntityChanges => exact single_eq_scan 1 fun _ => rfl
  | listHolidays => exact single_eq_scan 1 fun _ => rfl
  | listHolidaysInPeriod => exact single_eq_scan 1 fun _ => rfl
  | getOneProjectScheduleTotals => exact single_eq_scan 1 fun _ => rfl
  | listCurrencies => exact mapped_eq_scan _ (fun _ _ => false) fun _ => rfl
  | listRawInvoiceItems => exact single_eq_scan 1 fun _ => rfl
  | listInvoiceItems => exact single_eq_scan 1 fun _ => rfl
  | listInvoicePayments =>
    rw [ListRead.run, ClockifyAssistant.listInvoicePayments, listPaymentsRaw, bind_assoc]
    exact mapped_eq_scan paymentsOf (fun _ _ => false) fun _ => rfl
  | listWebhooks => exact mapped_eq_scan webhooksOf _ fun _ => rfl
  | getProjectMemberships =>
    refine single_eq_scan 1 fun body => ?_
    simp only [ListRead.chunk]
    cases body.property "memberships" with
    | none => rfl
    | some memberships =>
      dsimp only
      cases decodeProjectMembershipRows rt memberships <;> rfl

end Scan

/-- The host's list, and how many of its rows the host puts on a page. -/
structure HostList where
  rows : List JsonValue
  pageSize : Nat

/-- The list does not change: a body that declares a list declares the rows of its page. -/
def HostList.Answers (host : HostList) (r : ListRead)
    (responses : Nat → Except ReadError JsonValue) : Prop :=
  ∀ page body items, responses page = .ok body → r.declared body = some items →
    items = slice host.rows host.pageSize (page - 1)

/-- A list reported complete: every body received was a list, and the rows are the host's. -/
def CompleteIsComplete (rt : JsRuntime) (inMutationPlan : Bool) (host : HostList)
    (responses : Nat → Except ReadError JsonValue) (r : ListRead) : Prop :=
  ∀ rows bodies,
    r.run rt inMutationPlan (receive responses) [] = .ok ({ rows, truncated := false }, bodies) →
    (∀ body ∈ bodies, (r.declared body).isSome) ∧ rows = host.rows.map (r.view rt)

/-- Memberships are returned in the order of their user ids. -/
def ListRead.inOrder (rt : JsRuntime) (items : List JsonValue) : ListRead → Prop
  | getProjectMemberships =>
      let rows := items.map (getProjectMemberships.view rt)
      sortMemberships rt rows = rows
  | _ => True

/-- The adapter takes `n` pages for unfinished ones from `page` on, and ends with the next. -/
def ListRead.EndsAt (rt : JsRuntime) (responses : Nat → Except ReadError JsonValue)
    (r : ListRead) : Nat → Nat → Nat → Prop
  | page, seen, 0 => ∃ body chunk, responses page = .ok body ∧
      r.chunk rt seen body = .ok chunk ∧ chunk.ends = true
  | page, seen, n + 1 => ∃ body chunk, responses page = .ok body ∧
      r.chunk rt seen body = .ok chunk ∧ chunk.ends = false ∧
      r.EndsAt rt responses (page + 1) (seen + chunk.rows.length) n

/-- The bodies of `n + 1` pages declare lists in order, and the host has no rows behind them. -/
structure HostList.EndsBy (host : HostList) (rt : JsRuntime)
    (responses : Nat → Except ReadError JsonValue) (r : ListRead) (page n : Nat) : Prop where
  lists : ∀ m ≤ n, ∃ body items, responses (page + m) = .ok body ∧
    r.declared body = some items ∧ r.inOrder rt items
  whole : host.rows.length ≤ (page + n) * host.pageSize

section Steps

variable {rt : JsRuntime} {responses : Nat → Except ReadError JsonValue} {r : ListRead}

theorem ListRead.load_ok_iff {page seen : Nat} {bodies bodies' : List JsonValue}
    {chunk : Chunk JsonValue} : r.load rt responses page seen bodies = .ok (chunk, bodies') ↔
      ∃ body, responses page = .ok body ∧ r.chunk rt seen body = .ok chunk ∧
        bodies' = bodies ++ [body] := by
  cases hbody : responses page with
  | error e =>
    have hload : r.load rt responses page seen bodies = .error e :=
      bind_error (receive_error hbody bodies)
    simp [hload]
  | ok body =>
    cases hchunk : r.chunk rt seen body with
    | error e =>
      rw [load_error hbody hchunk]
      simp [hchunk]
    | ok chunk' =>
      rw [load_ok hbody hchunk]
      simp only [Except.ok.injEq, Prod.mk.injEq, exists_eq_left', hchunk]
      exact ⟨fun h => ⟨h.1, h.2.symm⟩, fun h => ⟨h.1, h.2.symm⟩⟩

theorem ListRead.endsAt_of_scanEnds {page n : Nat} {rows rows' bodies bodies' : List JsonValue}
    (h : ScanEnds (r.load rt responses) page rows bodies n rows' bodies') :
    r.EndsAt rt responses page rows.length n := by
  induction h with
  | here hload hends =>
    obtain ⟨body, hbody, hchunk, _⟩ := load_ok_iff.mp hload
    exact ⟨body, _, hbody, hchunk, hends⟩
  | later hload hends _ ih =>
    obtain ⟨body, hbody, hchunk, _⟩ := load_ok_iff.mp hload
    rw [List.length_append] at ih
    exact ⟨body, _, hbody, hchunk, hends, ih⟩

theorem ListRead.scanEnds_of_endsAt {page n : Nat} (rows bodies : List JsonValue)
    (h : r.EndsAt rt responses page rows.length n) :
    ∃ rows' bodies', ScanEnds (r.load rt responses) page rows bodies n rows' bodies' := by
  induction n generalizing page rows bodies with
  | zero =>
    obtain ⟨body, chunk, hbody, hchunk, hends⟩ := h
    exact ⟨_, _, .here (load_ok hbody hchunk bodies) hends⟩
  | succ n ih =>
    obtain ⟨body, chunk, hbody, hchunk, hends, hrest⟩ := h
    rw [← List.length_append] at hrest
    obtain ⟨rows', bodies', hrun⟩ := ih _ (bodies ++ [body]) hrest
    exact ⟨rows', bodies', .later (load_ok hbody hchunk bodies) hends hrun⟩

theorem ListRead.bodies_initial {page n : Nat} {rows rows' bodies bodies' : List JsonValue}
    (h : ScanEnds (r.load rt responses) page rows bodies n rows' bodies') : bodies <+: bodies' := by
  induction h with
  | here hload _ =>
    obtain ⟨body, _, _, rfl⟩ := load_ok_iff.mp hload
    exact List.prefix_append _ _
  | later hload _ _ ih =>
    obtain ⟨body, _, _, rfl⟩ := load_ok_iff.mp hload
    exact (List.prefix_append _ _).trans ih

/-- A run that reports a complete list is a scan that a page ended. -/
theorem ListRead.run_complete_iff {inMutationPlan : Bool} {rows bodies : List JsonValue} :
    r.run rt inMutationPlan (receive responses) [] = .ok ({ rows, truncated := false }, bodies) ↔
      ∃ n < r.limit inMutationPlan,
        ScanEnds (r.load rt responses) r.firstPage [] [] n rows bodies := by
  rw [run_eq_scan, ← scan_complete_iff]
  cases hscan : scan (r.load rt responses) (r.limit inMutationPlan) r.firstPage [] [] with
  | error e =>
    have herror : (listResult <$> scan (r.load rt responses) (r.limit inMutationPlan)
        r.firstPage []) [] = .error e := by
      simp only [Functor.map, StateT.map, bind, Except.bind, hscan]
    simp [herror]
  | ok result =>
    obtain ⟨scanned, bodies'⟩ := result
    have hok : (listResult <$> scan (r.load rt responses) (r.limit inMutationPlan)
        r.firstPage []) [] = .ok (listResult scanned, bodies') := by
      simp only [Functor.map, StateT.map, bind, Except.bind, hscan]
      rfl
    obtain ⟨rows', complete⟩ := scanned
    rw [hok]
    cases complete <;> simp [listResult]

end Steps

section Rows

variable {rt : JsRuntime}

theorem decodeMembershipRate_ok {value rate : Option JsonValue} {field : String} (field' : String)
    (h : decodeMembershipRate rt value field = .ok rate) :
    decodeMembershipRate rt value field' = .ok rate := by
  unfold decodeMembershipRate at h ⊢
  split at h
  · exact h
  · exact h
  · dsimp only at h ⊢
    split at h
    · cases h
    · rename_i hamount
      split at h
      · cases h
      · rename_i hsince
        rw [if_neg hamount, if_neg hsince]
        exact h
  · cases h

theorem decodeMembershipLabel_ok {value : Option JsonValue} {labels : List String}
    {field : String} {label : Option String} (field' : String)
    (h : decodeMembershipLabel value labels field = .ok label) :
    decodeMembershipLabel value labels field' = .ok label := by
  unfold decodeMembershipLabel at h ⊢
  split at h
  · exact h
  · split at h
    · rename_i hlabel
      rw [if_pos hlabel]
      exact h
    · cases h
  · cases h

theorem decodeMembershipUserId_ok {value : Option JsonValue} {field userId : String}
    (field' : String) (h : decodeMembershipUserId value field = .ok userId) :
    decodeMembershipUserId value field' = .ok userId := by
  unfold decodeMembershipUserId at h ⊢
  split at h
  · cases h
  · split at h
    · cases h
    · rename_i hempty
      rw [if_neg hempty]
      exact h

theorem decodeMembershipRow_view {index : Nat} {item row : JsonValue}
    (h : decodeMembershipRow rt index item = .ok row) :
    ListRead.getProjectMemberships.view rt item = row := by
  have hzero : decodeMembershipRow rt 0 item = .ok row := by
    unfold decodeMembershipRow at h ⊢
    cases item with
    | obj fields =>
      obtain ⟨userId, huser, h⟩ := Checked.bind_eq_ok.mp h
      obtain ⟨hourlyRate, hhourly, h⟩ := Checked.bind_eq_ok.mp h
      obtain ⟨costRate, hcost, h⟩ := Checked.bind_eq_ok.mp h
      obtain ⟨status, hstatus, h⟩ := Checked.bind_eq_ok.mp h
      obtain ⟨type, htype, h⟩ := Checked.bind_eq_ok.mp h
      dsimp only
      rw [decodeMembershipUserId_ok _ huser, decodeMembershipRate_ok _ hhourly,
        decodeMembershipRate_ok _ hcost, decodeMembershipLabel_ok _ hstatus,
        decodeMembershipLabel_ok _ htype]
      exact h
    | _ => cases h
  rw [ListRead.view, hzero]
  rfl

theorem decodeProjectMembershipRows_eq {items rows : List JsonValue}
    (h : decodeProjectMembershipRows rt (.arr items) = .ok rows) :
    rows = sortMemberships rt (items.map (ListRead.getProjectMemberships.view rt)) := by
  have hmap (items : List JsonValue) (start : Nat) (rows : List JsonValue)
      (h : (items.zipIdx start).mapM (fun row => decodeMembershipRow rt row.2 row.1) =
        .ok rows) : rows = items.map (ListRead.getProjectMemberships.view rt) := by
    induction items generalizing start rows with
    | nil =>
      cases h
      rfl
    | cons item items ih =>
      rw [List.zipIdx_cons, List.mapM_cons] at h
      obtain ⟨row, hrow, h⟩ := Checked.bind_eq_ok.mp h
      obtain ⟨rest, hrest, h⟩ := Checked.bind_eq_ok.mp h
      cases h
      rw [List.map_cons, decodeMembershipRow_view hrow, ← ih _ _ hrest]
  simp only [decodeProjectMembershipRows, JsonValue.items?] at h
  obtain ⟨decoded, hdecoded, h⟩ := Checked.bind_eq_ok.mp h
  split at h
  · cases h
    rw [hmap items 0 decoded hdecoded]
  · cases h

variable {items : List JsonValue} {chunk : Chunk JsonValue}

theorem strictChunk_rows {message : String}
    {listed : Option (List JsonValue)} (hitems : listed = some items)
    (h : strictChunk message listed = .ok chunk) : chunk.rows = items := by
  rw [hitems] at h
  cases h
  rfl

theorem collectChunk_rows {inputPageSize seen : Nat} {result : PageResult}
    (h : collectChunk inputPageSize seen result = .ok chunk) (hitems : result.rows = .arr items) :
    chunk.rows = items := by
  rw [collectChunk, hitems] at h
  cases h
  rfl

theorem mappedChunk_rows {rows : JsonValue} {ends : List JsonValue → Bool}
    (h : mappedChunk rows ends = .ok chunk) (hitems : rows = .arr items) : chunk.rows = items := by
  rw [mappedChunk, hitems] at h
  cases h
  rfl

variable {body : JsonValue}

theorem searchRequestsPage_rows (h : ListRead.searchRequests.declared body = some items) :
    (searchRequestsPage body).rows = .arr items := by
  cases body with
  | arr list =>
    obtain rfl : list = items := Option.some.inj h
    rfl
  | obj fields => simp only [searchRequestsPage, JsonValue.coalesce_of_items h, Option.getD_some]
  | _ => cases h

theorem paymentsOf_rows (h : ListRead.listInvoicePayments.declared body = some items) :
    paymentsOf body = .arr items := by
  cases body with
  | arr list =>
    obtain rfl : list = items := Option.some.inj h
    rfl
  | obj fields =>
    rw [paymentsOf, JsonValue.coalesce_assoc, JsonValue.coalesce_assoc,
      ← JsonValue.coalesce_assoc (JsonValue.property "payments" (.obj fields)),
      JsonValue.coalesce_of_items h, Option.getD_some]
    exact fun _ => nofun
  | _ => cases h

theorem webhooksOf_rows
    (h : ListRead.listWebhooks.declared body = some items) : webhooksOf body = .arr items := by
  cases body with
  | arr list =>
    obtain rfl : list = items := Option.some.inj h
    rfl
  | obj fields => simp only [webhooksOf, JsonValue.coalesce_of_items h, Option.getD_some]
  | _ => cases h

/-- The rows taken from a declared list: as many, and the same ones if they are in order. -/
theorem ListRead.chunk_rows {r : ListRead} {seen : Nat} (hdeclared : r.declared body = some items)
    (hchunk : r.chunk rt seen body = .ok chunk) :
    chunk.rows.length = items.length ∧ (chunk.rows = items.map (r.view rt) ↔ r.inOrder rt items) := by
  have hbare (h : body.items? = some items) : body.items? = some items := h
  have hsame (h : chunk.rows = items) :
      chunk.rows.length = items.length ∧ (chunk.rows = items.map (fun row => row) ↔ True) := by
    rw [List.map_id', h]
    simp
  cases r with
  | getProjectMemberships =>
    obtain ⟨list, hlist, hitems⟩ := Option.bind_eq_some_iff.mp hdeclared
    obtain rfl := JsonValue.items?_eq_some.mp hitems
    simp only [ListRead.chunk, hlist] at hchunk
    cases hrows : decodeProjectMembershipRows rt (.arr items) with
    | error e =>
      rw [hrows] at hchunk
      cases hchunk
    | ok rows =>
      rw [hrows] at hchunk
      cases hchunk
      rw [decodeProjectMembershipRows_eq hrows]
      exact ⟨by simp [sortMemberships], Iff.rfl⟩
  | paginate path => exact hsame (strictChunk_rows hdeclared hchunk)
  | paginateEnvelope path envelopeKey => exact hsame (strictChunk_rows hdeclared hchunk)
  | searchRequests =>
    exact hsame (collectChunk_rows hchunk (searchRequestsPage_rows hdeclared))
  | listWebhookLogs =>
    rw [ListRead.chunk] at hchunk
    refine hsame (collectChunk_rows hchunk ?_)
    simp [listOrEmpty, hbare hdeclared]
  | getAllProjectScheduleTotals =>
    rw [ListRead.chunk] at hchunk
    refine hsame (collectChunk_rows hchunk ?_)
    simp [listOrSingle, hbare hdeclared]
  | searchAuditLog page =>
    cases page with
    | none =>
      rw [ListRead.chunk] at hchunk
      refine hsame (collectChunk_rows hchunk ?_)
      simp [listOrEmpty, hbare hdeclared]
    | some page =>
      cases hchunk
      exact hsame (by simp [listOrEmpty, hbare hdeclared])
  | listEntityChanges =>
    cases hchunk
    exact hsame (by simp [listOrEmpty, hbare hdeclared])
  | listHolidays =>
    cases hchunk
    exact hsame (by simp [listOrEmpty, hbare hdeclared])
  | listHolidaysInPeriod =>
    cases hchunk
    exact hsame (by simp [listOrEmpty, hbare hdeclared])
  | getOneProjectScheduleTotals =>
    cases hchunk
    exact hsame (by simp [listOrSingle, hbare hdeclared])
  | listCurrencies =>
    refine hsame (mappedChunk_rows hchunk ?_)
    rw [JsonValue.coalesce_of_items hdeclared]
    rfl
  | listRawInvoiceItems =>
    cases hchunk
    exact hsame (by rw [show (body.property "items").bind _ = some items from hdeclared]; rfl)
  | listInvoiceItems =>
    cases hchunk
    exact hsame (by rw [show (body.property "items").bind _ = some items from hdeclared]; rfl)
  | listInvoicePayments => exact hsame (mappedChunk_rows hchunk (paymentsOf_rows hdeclared))
  | listWebhooks => exact hsame (mappedChunk_rows hchunk (webhooksOf_rows hdeclared))

end Rows

section Completeness

variable {rt : JsRuntime} {responses : Nat → Except ReadError JsonValue} {r : ListRead}
  {host : HostList}

theorem take_map_append_slice (f : JsonValue → JsonValue) {page : Nat} (hpage : 1 ≤ page) :
    (host.rows.take ((page - 1) * host.pageSize)).map f ++
        (slice host.rows host.pageSize (page - 1)).map f =
      (host.rows.take (page * host.pageSize)).map f := by
  rw [← List.map_append, take_append_slice, show page - 1 + 1 = page by omega]

/-- Of two prefixes with the same length, what follows a common start is the same. -/
theorem append_cancel_left_of_take {xs ys zs all : List JsonValue} (hy : xs ++ ys <+: all)
    (hz : xs ++ zs <+: all) (hlength : ys.length = zs.length) : ys = zs := by
  have h := List.prefix_of_prefix_length_le hy hz (by simp [hlength])
  exact List.append_cancel_left (h.eq_of_length (by simp [hlength]))

variable {chunk : Chunk JsonValue}

/-- A page whose list is in order carries the rows collected so far one page on. -/
theorem append_chunk_rows (hanswers : host.Answers r responses) {page : Nat}
    {rows items : List JsonValue} {body : JsonValue}
    (hbody : responses page = .ok body) (hchunk : r.chunk rt rows.length body = .ok chunk)
    (hpage : 1 ≤ page)
    (hrows : rows = (host.rows.take ((page - 1) * host.pageSize)).map (r.view rt))
    (hitems : r.declared body = some items) (horder : r.inOrder rt items) :
    rows ++ chunk.rows = (host.rows.take (page * host.pageSize)).map (r.view rt) := by
  rw [(ListRead.chunk_rows hitems hchunk).2.mpr horder, hanswers page body items hbody hitems,
    hrows, take_map_append_slice _ hpage]

/-- Rows that agree with the host's were taken from a list in order. -/
theorem inOrder_of_initial (hanswers : host.Answers r responses) {page : Nat}
    {rows items : List JsonValue} {body : JsonValue}
    (hbody : responses page = .ok body) (hchunk : r.chunk rt rows.length body = .ok chunk)
    (hpage : 1 ≤ page)
    (hrows : rows = (host.rows.take ((page - 1) * host.pageSize)).map (r.view rt))
    (hitems : r.declared body = some items)
    (hinit : rows ++ chunk.rows <+: host.rows.map (r.view rt)) : r.inOrder rt items := by
  obtain ⟨hlength, horder⟩ := ListRead.chunk_rows hitems hchunk
  refine horder.mp (append_cancel_left_of_take hinit ?_ (by simpa using hlength))
  rw [hanswers page body items hbody hitems, hrows, take_map_append_slice _ hpage]
  exact (List.take_prefix _ _).map _

theorem forall_mem_concat {bodies : List JsonValue} {body : JsonValue} {P : JsonValue → Prop} :
    (∀ b ∈ bodies ++ [body], P b) ↔ (∀ b ∈ bodies, P b) ∧ P body := by
  simp only [List.mem_append, List.mem_singleton, or_imp, forall_and, forall_eq]

theorem scanEnds_complete_iff (hanswers : host.Answers r responses) {page n : Nat}
    {rows rows' bodies bodies' : List JsonValue}
    (h : ScanEnds (r.load rt responses) page rows bodies n rows' bodies') (hpage : 1 ≤ page)
    (hrows : rows = (host.rows.take ((page - 1) * host.pageSize)).map (r.view rt)) :
    (∀ body ∈ bodies', (r.declared body).isSome) ∧ rows' = host.rows.map (r.view rt) ↔
      (∀ body ∈ bodies, (r.declared body).isSome) ∧ host.EndsBy rt responses r page n := by
  induction h with
  | @here page rows bodies chunk bodies' hload hends =>
    obtain ⟨body, hbody, hchunk, rfl⟩ := ListRead.load_ok_iff.mp hload
    rw [forall_mem_concat]
    constructor
    · rintro ⟨⟨hdeclared, hlast⟩, hall⟩
      obtain ⟨items, hitems⟩ := Option.isSome_iff_exists.mp hlast
      have horder := inOrder_of_initial hanswers hbody hchunk hpage hrows hitems
        (hall ▸ List.prefix_rfl)
      rw [append_chunk_rows hanswers hbody hchunk hpage hrows hitems horder] at hall
      refine ⟨hdeclared, fun m hm => ?_, ?_⟩
      · obtain rfl : m = 0 := by omega
        exact ⟨body, items, hbody, hitems, horder⟩
      · have hlength := congrArg List.length hall
        simp only [List.length_map, List.length_take] at hlength
        rw [Nat.add_zero]
        omega
    · rintro ⟨hdeclared, hlists, hwhole⟩
      obtain ⟨body', items, hbody', hitems, horder⟩ := hlists 0 (by omega)
      obtain rfl : body = body' := Except.ok.inj (hbody.symm.trans hbody')
      refine ⟨⟨hdeclared, by rw [hitems]; rfl⟩, ?_⟩
      rw [append_chunk_rows hanswers hbody hchunk hpage hrows hitems horder,
        List.take_of_length_le (by simpa using hwhole)]
  | @later page rows bodies chunk bodies₁ n rows' bodies' hload hends hrest ih =>
    obtain ⟨body, hbody, hchunk, rfl⟩ := ListRead.load_ok_iff.mp hload
    have hstep {items : List JsonValue} (hitems : r.declared body = some items)
        (horder : r.inOrder rt items) := ih (by omega)
      (append_chunk_rows hanswers hbody hchunk hpage hrows hitems horder)
    constructor
    · rintro ⟨hdeclared, hall⟩
      have hmem : body ∈ bodies' := (ListRead.bodies_initial hrest).subset (by simp)
      obtain ⟨items, hitems⟩ := Option.isSome_iff_exists.mp (hdeclared body hmem)
      have horder := inOrder_of_initial hanswers hbody hchunk hpage hrows hitems
        (hall ▸ hrest.prefix)
      obtain ⟨hbefore, hlists, hwhole⟩ := (hstep hitems horder).mp ⟨hdeclared, hall⟩
      refine ⟨(forall_mem_concat.mp hbefore).1, fun m hm => ?_, ?_⟩
      · cases m with
        | zero => exact ⟨body, items, hbody, hitems, horder⟩
        | succ m =>
          rw [show page + (m + 1) = page + 1 + m by omega]
          exact hlists m (by omega)
      · rwa [show page + (n + 1) = page + 1 + n by omega]
    · rintro ⟨hdeclared, hlists, hwhole⟩
      obtain ⟨body', items, hbody', hitems, horder⟩ := hlists 0 (by omega)
      obtain rfl : body = body' := Except.ok.inj (hbody.symm.trans hbody')
      refine (hstep hitems horder).mpr ⟨forall_mem_concat.mpr ⟨hdeclared, by rw [hitems]; rfl⟩,
        fun m hm => ?_, ?_⟩
      · rw [show page + 1 + m = page + (m + 1) by omega]
        exact hlists (m + 1) (by omega)
      · rwa [show page + 1 + n = page + (n + 1) by omega]

theorem ListRead.firstPage_of_endsAt {inMutationPlan : Bool} {n seen : Nat}
    (h : r.EndsAt rt responses r.firstPage seen n) (hn : n < r.limit inMutationPlan) :
    r.firstPage = 1 := by
  cases r with
  | searchAuditLog page =>
    cases page with
    | none => rfl
    | some page =>
      obtain rfl : n = 0 := by simpa [limit] using hn
      obtain ⟨body, chunk, hbody, hchunk, hends⟩ := h
      cases hchunk
      have hpage : page ≤ 1 := by
        by_contra hlate
        simp [not_le.mp hlate] at hends
      exact congrArg PNat.val (le_antisymm hpage page.property)
  | _ => rfl

theorem completeIsComplete_of_endsBy {inMutationPlan : Bool} (hanswers : host.Answers r responses)
    (hends : ∀ n < r.limit inMutationPlan, r.EndsAt rt responses r.firstPage 0 n →
      host.EndsBy rt responses r r.firstPage n) :
    CompleteIsComplete rt inMutationPlan host responses r := by
  intro rows bodies hrun
  obtain ⟨n, hn, h⟩ := ListRead.run_complete_iff.mp hrun
  have hend := ListRead.endsAt_of_scanEnds h
  have hfirst := ListRead.firstPage_of_endsAt hend hn
  exact (scanEnds_complete_iff hanswers h (by omega) (by simp [hfirst])).mpr
    ⟨by simp, hends n hn hend⟩

/-- A host with one time-off request, whose search answers with a null body. -/
def oneRequestHost : HostList where
  rows := [.obj [("id", .str "r1")]]
  pageSize := 200

theorem oneRequestHost_answers : oneRequestHost.Answers .searchRequests fun _ => .ok .null := by
  intro page body items hbody hitems
  cases hbody
  cases hitems

end Completeness

end ClockifyAssistant
