import Mathlib.Data.List.DropRight

/-!
The service URLs of Clockify: what may be stored and called, and the base of the REST API
of an installation.
-/
namespace ClockifyAssistant

/-- The parts of a URL as the runtime's parser gives them. -/
structure Url where
  protocol : String
  username : String
  password : String
  hostname : String
  port : String
  pathname : String
  search : String
  hash : String
  origin : String

inductive ClockifyService
  | api
  | reports
  | audit

def ClockifyService.allowedPaths : ClockifyService → List String
  | .api => ["/", "/api", "/api/v1", "/v1"]
  | .reports => ["/", "/report", "/report/v1", "/v1"]
  | .audit => ["/v1"]

/-- `text.replace(/\/+$/, "")` -/
def withoutTrailingSlashes (text : String) : String :=
  String.ofList (text.toList.rdropWhile (· == '/'))

-- A parsed host name is ASCII.
def clockifyHostname (hostname : String) : Bool :=
  let lower := hostname.toList.map Char.toLower
  lower == "clockify.me".toList || ".clockify.me".toList.isSuffixOf lower

section Parser

-- `new URL(raw)`, which throws for what is not a URL.
variable (parseUrl : String → Option Url)

def validateClockifyServiceUrl (raw : String) (service : ClockifyService) : Option Url :=
  match parseUrl raw with
  | none => none
  | some url =>
      let stripped := withoutTrailingSlashes url.pathname
      let path := if stripped = "" then "/" else stripped
      if url.protocol ≠ "https:" || (url.port ≠ "" && url.port ≠ "443") || url.username ≠ "" ||
          url.password ≠ "" || !clockifyHostname url.hostname || url.search ≠ "" ||
          url.hash ≠ "" || !service.allowedPaths.contains path then none
      else some { url with pathname := path }

def resolveClockifyApiBase (apiUrl backendUrl : Option String) : Option String :=
  let raw := (apiUrl.orElse fun _ => backendUrl).getD "https://api.clockify.me/api"
  match validateClockifyServiceUrl parseUrl raw .api with
  | none => none
  | some validated =>
      let rootPath := if validated.pathname = "/" then "/api" else validated.pathname
      let root := withoutTrailingSlashes (validated.origin ++ rootPath)
      if "/v1".toList.isSuffixOf root.toList then some root else some (root ++ "/v1")

end Parser

end ClockifyAssistant
