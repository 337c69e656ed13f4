import ClockifyAssistant.Lib.JsonValue
import ClockifyAssistant.Lib.Txn
import Mathlib.Data.PNat.Defs
import Mathlib.Order.Lattice

/-!
The list reads of the REST adapter: the two paging helpers of the core, the
paged searches and the lists that one GET returns. A read keeps the bodies it
received. Each port method then maps the rows one by one.
-/
namespace ClockifyAssistant

open Lib

inductive ReadError
  | typeError (message : String)
  | error (message : String)

/-- A read and the response bodies it has received. -/
abbrev HostRead (α : Type) : Type := Txn (List JsonValue) ReadError α

structure ListResult where
  rows : List JsonValue
  truncated : Bool

/-- One request, by its page number; a list of one GET asks for page 1. -/
def receive (responses : Nat → Except ReadError JsonValue) (page : Nat) : HostRead JsonValue := do
  match responses page with
  | .error e => throw e
  | .ok body =>
      modify (· ++ [body])
      return body

def pageSize : Nat := 200

def maxPages : Nat := 50

def mutationReadPageLimit (inMutationPlan : Bool) : Nat :=
  if inMutationPlan then 1 else maxPages

section Core

variable (inMutationPlan : Bool) (path : String)

def paginate (call : Nat → HostRead JsonValue) : HostRead ListResult :=
  pages (mutationReadPageLimit inMutationPlan) 1 []
where
  pages : Nat → Nat → List JsonValue → HostRead ListResult
    | 0, _, out => return { rows := out, truncated := true }
    | left + 1, page, out => do
        let rows ← call page
        match rows.items? with
        | none =>
            throw (.error ("Clockify GET " ++ path ++
              " returned an invalid list response; expected a JSON array."))
        | some arr =>
            let out := out ++ arr
            if arr.length < pageSize then return { rows := out, truncated := false }
            pages left (page + 1) out

/-- A missing or wrong envelope at any level resolves to no list. -/
def unwrap : List String → Option JsonValue → Option (List JsonValue)
  | _, some (.arr items) => some items
  | key :: keys, some (.obj fields) => unwrap keys (fields.lookup key)
  | _, _ => none

def paginateEnvelope (envelopeKey : String) (call : Nat → HostRead JsonValue) : HostRead ListResult :=
  pages (mutationReadPageLimit inMutationPlan) 1 []
where
  pages : Nat → Nat → List JsonValue → HostRead ListResult
    | 0, _, out => return { rows := out, truncated := true }
    | left + 1, page, out => do
        let data ← call page
        match unwrap (envelopeKey.splitOn ".") (some data) with
        | none =>
            throw (.error ("Clockify GET " ++ path ++ " returned an invalid list response; envelope " ++
              envelopeKey ++ " must resolve to a JSON array."))
        | some arr =>
            let out := out ++ arr
            if arr.length < pageSize then return { rows := out, truncated := false }
            pages left (page + 1) out

/-- The rows of a loaded page are whatever value the adapter took for them. -/
structure PageResult where
  rows : JsonValue
  total : Option Rat := none

def collectPages (inputPageSize firstPage : Nat) (load : Nat → HostRead PageResult) :
    HostRead ListResult :=
  pages (mutationReadPageLimit inMutationPlan) firstPage []
where
  pages : Nat → Nat → List JsonValue → HostRead ListResult
    | 0, _, rows => return { rows, truncated := true }
    | left + 1, page, rows => do
        let result ← load page
        match result.rows.spread, result.rows.length with
        | some items, some length =>
            let rows := rows ++ items
            if result.total.any (· ≤ (rows.length : Rat)) then return { rows, truncated := false }
            if length < inputPageSize then return { rows, truncated := false }
            pages left (page + 1) rows
        | _, _ => throw (.typeError "Spread syntax requires ...iterable[Symbol.iterator] to be a function")

end Core

section Searches

variable (inMutationPlan : Bool)

/-- `Array.isArray(rows) ? rows : []` -/
def listOrEmpty (rows : JsonValue) : List JsonValue :=
  rows.items?.getD []

/-- `Array.isArray(out) ? out : out ? [out] : []` -/
def listOrSingle (out : JsonValue) : List JsonValue :=
  out.items?.getD (if out.truthy then [out] else [])

def searchRequestsPage (env : JsonValue) : PageResult :=
  match env with
  | .arr items => { rows := .arr items }
  | _ => {
      rows := (JsonValue.coalesce (env.property "requests") (some (.arr []))).getD (.arr [])
      total := (env.property "count").bind JsonValue.number? }

def searchRequests (call : Nat → HostRead JsonValue) : HostRead ListResult :=
  collectPages inMutationPlan pageSize 1 fun page => do
    let env ← call page
    return searchRequestsPage env

def listWebhookLogs (call : Nat → HostRead JsonValue) : HostRead ListResult :=
  collectPages inMutationPlan pageSize 1 fun page => do
    let rows ← call page
    return { rows := .arr (listOrEmpty rows) }

def getAllProjectScheduleTotals (call : Nat → HostRead JsonValue) : HostRead ListResult :=
  collectPages inMutationPlan pageSize 1 fun page => do
    let out ← call page
    return { rows := .arr (listOrSingle out) }

def auditPageSize : Nat := 50

def searchAuditLog (inputPage : Option ℕ+) (call : Nat → HostRead JsonValue) : HostRead ListResult := do
  match inputPage with
  | some page =>
      let rows ← call page
      let rows := listOrEmpty rows
      return { rows, truncated := 1 < page || rows.length == auditPageSize }
  | none =>
      collectPages inMutationPlan auditPageSize 1 fun page => do
        let rows ← call page
        return { rows := .arr (listOrEmpty rows) }

end Searches

section SingleGets

/-- The body of a list that one GET returns, seen as an array or as `[]`. -/
def listSingle (call : Nat → HostRead JsonValue) : HostRead ListResult := do
  let rows ← call 1
  return { rows := listOrEmpty rows, truncated := false }

def listEntityChanges := listSingle

def listHolidays := listSingle

def listHolidaysInPeriod := listSingle

def getOneProjectScheduleTotals (call : Nat → HostRead JsonValue) : HostRead ListResult := do
  let one ← call 1
  return { rows := listOrSingle one, truncated := false }

/-- `rows.map(…)` on a value that need not be an array. -/
def mapped (rows : JsonValue) : HostRead (List JsonValue) :=
  match rows.items? with
  | some items => pure items
  | none => throw (.typeError "map is not a function")

/-- What the read returns before its rows are cached; the cache answers later reads. -/
def listCurrencies (call : Nat → HostRead JsonValue) : HostRead ListResult := do
  let doc ← call 1
  let rows ← mapped ((JsonValue.coalesce (doc.property "currencies") (some (.arr []))).getD (.arr []))
  return { rows, truncated := false }

/-- The items embedded in the invoice; a 404 is a null document. -/
def listRawInvoiceItems (call : Nat → HostRead JsonValue) : HostRead ListResult := do
  let detail ← call 1
  return { rows := ((detail.property "items").bind JsonValue.items?).getD [], truncated := false }

def listInvoiceItems := listRawInvoiceItems

def paymentsOf (env : JsonValue) : JsonValue :=
  match env with
  | .arr items => .arr items
  | _ =>
      (JsonValue.coalesce (env.property "payments") <| JsonValue.coalesce (env.property "items") <|
        JsonValue.coalesce (env.property "data") (some (.arr []))).getD (.arr [])

def listPaymentsRaw (call : Nat → HostRead JsonValue) : HostRead JsonValue := do
  let env ← call 1
  return paymentsOf env

def listInvoicePayments (call : Nat → HostRead JsonValue) : HostRead ListResult := do
  let payments ← listPaymentsRaw call
  let rows ← mapped payments
  return { rows, truncated := false }

def webhooksOf (data : JsonValue) : JsonValue :=
  match data with
  | .arr items => .arr items
  | _ => (JsonValue.coalesce (data.property "webhooks") (some (.arr []))).getD (.arr [])

def listWebhooks (call : Nat → HostRead JsonValue) : HostRead ListResult := do
  let data ← call 1
  let rows ← mapped (webhooksOf data)
  let total := (data.property "workspaceWebhookCount").bind JsonValue.number?
  return { rows, truncated := total.any ((rows.length : Rat) < ·) }

end SingleGets

section Memberships

/-- The two library functions whose answer depends on the engine and its locale. -/
structure JsRuntime where
  dateParses : String → Bool
  localeLe : String → String → Bool

variable (rt : JsRuntime)

def malformedProjectField (field : String) : ReadError :=
  .typeError ("Clockify returned a malformed project field: " ++ field ++ ".")

/-- The characters against a pattern in which `d` stands for any digit. -/
def matchesPattern : List Char → List Char → Bool
  | [], [] => true
  | 'd' :: pattern, c :: cs => c.isDigit && matchesPattern pattern cs
  | p :: pattern, c :: cs => p == c && matchesPattern pattern cs
  | _, _ => false

def isInstant (since : String) : Bool :=
  let cs := since.toList
  let fraction := (cs.drop 20).dropLast
  matchesPattern "dddd-dd-ddTdd:dd:dd".toList (cs.take 19) &&
    (cs.drop 19 == ['Z'] ||
      cs.getLast? == some 'Z' && cs[19]? == some '.' && fraction.all Char.isDigit &&
        decide (1 ≤ fraction.length) && decide (fraction.length ≤ 9))

def decodeMembershipRate (value : Option JsonValue) (field : String) :
    Except ReadError (Option JsonValue) :=
  match value with
  | none => .ok none
  | some .null => .ok none
  | some (.obj row) =>
      let amount := (row.lookup "amount").bind JsonValue.number?
      let since := row.lookup "since"
      if !amount.any (fun a => a.isInt && decide (0 ≤ a) && decide (a ≤ 2147483647)) then
        .error (malformedProjectField (field ++ ".amount"))
      else if since.isSome &&
          !(since.bind JsonValue.text?).any (fun s => isInstant s && rt.dateParses s) then
        .error (malformedProjectField (field ++ ".since"))
      else
        .ok (some (.obj (("amount", .num (amount.getD 0)) ::
          ((since.bind JsonValue.text?).map fun s => ("since", JsonValue.str s)).toList)))
  | some _ => .error (malformedProjectField field)

def membershipStatuses : List String :=
  ["PENDING", "ACTIVE", "DECLINED", "INACTIVE"]

def membershipTypes : List String :=
  ["WORKSPACE", "PROJECT", "USERGROUP"]

def decodeMembershipLabel (value : Option JsonValue) (labels : List String) (field : String) :
    Except ReadError (Option String) :=
  match value with
  | none => .ok none
  | some (.str label) =>
      if labels.contains label then .ok (some label) else .error (malformedProjectField field)
  | some _ => .error (malformedProjectField field)

def decodeMembershipUserId (value : Option JsonValue) (field : String) : Except ReadError String :=
  match value.bind JsonValue.text? with
  | none => .error (malformedProjectField field)
  | some userId => if userId = "" then .error (malformedProjectField field) else .ok userId

def decodeMembershipRow (index : Nat) (item : JsonValue) : Except ReadError JsonValue := do
  let field := "memberships[" ++ toString index ++ "]"
  match item with
  | .obj row =>
      let userId ← decodeMembershipUserId (row.lookup "userId") (field ++ ".userId")
      let hourlyRate ← decodeMembershipRate rt (row.lookup "hourlyRate") (field ++ ".hourlyRate")
      let costRate ← decodeMembershipRate rt (row.lookup "costRate") (field ++ ".costRate")
      let status ← decodeMembershipLabel (row.lookup "membershipStatus") membershipStatuses
        (field ++ ".membershipStatus")
      let type ← decodeMembershipLabel (row.lookup "membershipType") membershipTypes
        (field ++ ".membershipType")
      return .obj (("userId", .str userId) ::
        ((status.map fun s => ("membershipStatus", JsonValue.str s)).toList ++
          (type.map fun t => ("membershipType", JsonValue.str t)).toList ++
          (hourlyRate.map fun r => ("hourlyRate", r)).toList ++
          (costRate.map fun r => ("costRate", r)).toList))
  | _ => .error (malformedProjectField field)

def membershipUserId (row : JsonValue) : String :=
  ((row.property "userId").bind JsonValue.text?).getD ""

def sortMemberships (rows : List JsonValue) : List JsonValue :=
  rows.mergeSort fun left right => rt.localeLe (membershipUserId left) (membershipUserId right)

def decodeProjectMembershipRows (value : JsonValue) : Except ReadError (List JsonValue) := do
  match value.items? with
  | none => .error (malformedProjectField "memberships")
  | some items =>
      let rows ← items.zipIdx.mapM fun (item, index) => decodeMembershipRow rt index item
      let normalized := sortMemberships rt rows
      if (normalized.map membershipUserId).Nodup then return normalized
      else .error (malformedProjectField "memberships[].userId")

def getProjectMemberships (call : Nat → HostRead JsonValue) : HostRead ListResult := do
  let project ← call 1
  match project.property "memberships" with
  | none => throw (malformedProjectField "memberships")
  | some memberships =>
      match decodeProjectMembershipRows rt memberships with
      | .error e => throw e
      | .ok rows => return { rows, truncated := false }

end Memberships

end ClockifyAssistant
