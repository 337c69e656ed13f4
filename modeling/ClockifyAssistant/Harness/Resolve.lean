import ClockifyAssistant.Lib.JsonText

/-!
From names to entities: references that a model wrote are resolved against the lists of the
workspace, or the admin is asked. How a text is lower-cased is a parameter.
-/
namespace ClockifyAssistant.Resolve

open Lib

structure Entity (α : Type) where
  id : String
  name : String
  archived : Bool
  rest : α

structure ListResult (α : Type) where
  rows : List (Entity α)
  truncated : Bool

structure ClarifyOption where
  id : String
  label : String

structure Clarify where
  clarify : String
  options : Option (List ClarifyOption) := none
  field : Option String := none

inductive NameMatch (α : Type)
  | none
  | one (entity : Entity α)
  | many (candidates : List (Entity α))

def maxSuggestions : Nat := 12

def trimmed (text : String) : String := .ofList (trimText text.toList)

def isHexDigit (c : Char) : Bool :=
  ('0' ≤ c && c ≤ '9') || ('a' ≤ c && c ≤ 'f') || ('A' ≤ c && c ≤ 'F')

def looksLikeClockifyId (value : String) : Bool :=
  let text := trimText value.toList
  text.length == 24 && text.all isHexDigit

variable {α : Type}

def optionLabel (item : Entity α) : String :=
  if item.archived then item.name ++ " (archived)" else item.name

section Names

variable (lower : String → String)

/-- `text.includes(part)` -/
def includes (text part : String) : Bool :=
  text.toList.tails.any fun rest => part.toList.isPrefixOf rest

def suggestOptions (items : List (Entity α)) (query : String) (includeArchived : Bool) :
    List ClarifyOption :=
  let candidates := if includeArchived then items else items.filter fun item => !item.archived
  let q := lower (trimmed query)
  let contains := if q = "" then [] else candidates.filter fun item => includes (lower item.name) q
  let pool := if contains.isEmpty then candidates else contains
  (pool.take maxSuggestions).map fun item => { id := item.id, label := optionLabel item }

def namedRows (items : List (Entity α)) (name : String) (includeArchived : Bool) :
    List (Entity α) :=
  items.filter fun item =>
    (includeArchived || !item.archived) && lower (trimmed item.name) == lower (trimmed name)

def matchByName (items : List (Entity α)) (name : String) (includeArchived : Bool) : NameMatch α :=
  match namedRows lower items name includeArchived with
  | [] => .none
  | [entity] => .one entity
  | candidates => .many candidates

end Names

/-- A list is asked for without a filter, or for one archived state. -/
abbrev ListFor (α : Type) := Option Bool → ListResult α

/-- Active and archived entities, of which a backend may ignore the filter. -/
def listBothArchivedStates (list : ListFor α) : ListResult α :=
  let active := list (some false)
  let archived := list (some true)
  { rows := active.rows ++ archived.rows.filter fun item => active.rows.all fun row => row.id != item.id
    truncated := active.truncated || archived.truncated }

def incompleteListClarify (query noun verb : String) : Clarify where
  clarify := "Clockify returned an incomplete " ++ noun ++ " list, so I can't prove \"" ++ query ++
    "\" is unique or absent. Provide the exact id or use a narrower filter before I " ++ verb ++ "."

structure EntityRef where
  id : Option String := none
  name : Option String := none

structure EntityOptions (α : Type) where
  noun : String
  verb : String
  list : ListFor α
  includeArchived : Bool := false
  notFoundHint : Option String := none
  verifyId : Bool := false
  field : Option String := none

inductive ResolvedEntity (α : Type)
  | ok (id : String) (name : Option String) (entity : Option (Entity α))
  | ask (clarify : Clarify)

def article (noun : String) : String :=
  match noun.toList with
  | c :: _ => if c ∈ ['a', 'e', 'i', 'o', 'u', 'A', 'E', 'I', 'O', 'U'] then "an" else "a"
  | [] => "a"

def given (text : Option String) : Option String := text.filter fun t => t ≠ ""

def EntityOptions.listed (opts : EntityOptions α) : ListResult α :=
  if opts.includeArchived then listBothArchivedStates opts.list else opts.list none

def EntityOptions.qualifier (opts : EntityOptions α) : String :=
  if opts.includeArchived then "" else "active "

section Refs

variable (lower : String → String)

def noneClarify (opts : EntityOptions α) (items : List (Entity α)) (query : String) : Clarify :=
  let options := suggestOptions lower items query opts.includeArchived
  let noneArticle := if opts.includeArchived then article opts.noun else "an active"
  let base :=
    if options.isEmpty then
      "There is no " ++ opts.qualifier ++ opts.noun ++ " named \"" ++ query ++ "\" to " ++
        opts.verb ++ "."
    else
      "I couldn't find " ++ noneArticle ++ " " ++ opts.noun ++ " named \"" ++ query ++
        "\". Did you mean one of these?"
  { clarify := match given opts.notFoundHint with
      | some hint => base ++ " " ++ hint
      | none => base
    options := if options.isEmpty then none else some options
    field := if options.isEmpty then none else given opts.field }

/-- A name is resolved where one row of a whole list has it. -/
def resolveEntityName (opts : EntityOptions α) (query : String) : ResolvedEntity α :=
  let listed := opts.listed
  match matchByName lower listed.rows query opts.includeArchived with
  | .one entity =>
      if listed.truncated then .ask (incompleteListClarify query opts.noun opts.verb)
      else .ok entity.id (some entity.name) (some entity)
  | .many candidates =>
      .ask
        { clarify := "More than one " ++ opts.qualifier ++ opts.noun ++ " is named \"" ++ query ++
            "\". Which one should I " ++ opts.verb ++ "?"
          options := some (candidates.map fun m => { id := m.id, label := optionLabel m })
          field := given opts.field }
  | .none =>
      if listed.truncated then .ask (incompleteListClarify query opts.noun opts.verb)
      else .ask (noneClarify lower opts listed.rows query)

def resolveEntityRef (ref : EntityRef) (opts : EntityOptions α) : ResolvedEntity α :=
  let rawId := ref.id.map trimmed
  let query := trimmed ((ref.name.or rawId).getD "")
  match given rawId with
  | none => resolveEntityName lower opts query
  | some id =>
      let isHexId := looksLikeClockifyId id
      if isHexId && !opts.verifyId then .ok id ref.name none
      else
        match opts.listed.rows.find? fun item => item.id = id with
        | some exact => .ok exact.id (some exact.name) (some exact)
        | none =>
            -- a verified id is never matched by name
            if isHexId && opts.verifyId then
              if opts.listed.truncated then .ask (incompleteListClarify id opts.noun opts.verb)
              else .ask
                { clarify := "I couldn't find " ++ article opts.noun ++ " " ++ opts.noun ++
                    " with id " ++ id ++ " to " ++ opts.verb ++ "." }
            else resolveEntityName lower opts query

def manyMatchClarify (candidates : List (Entity α)) (query verb pluralNoun : String) : Clarify where
  clarify := "Several " ++ pluralNoun ++ " match \"" ++ query ++ "\". Which one should I " ++ verb ++
    "?"
  options := some (candidates.map fun m => { id := m.id, label := m.name })

def notFoundClarify (options : List ClarifyOption) (query verb singularPhrase pronoun : String) :
    Clarify where
  clarify := "\"" ++ query ++ "\" isn't " ++ singularPhrase ++ ", so I can't " ++ verb ++ " " ++
    pronoun ++ "."
  options := some options

structure ListOptions (α : Type) where
  verb : String
  pluralNoun : String
  singularPhrase : String
  pronoun : String
  listed : ListResult α
  special : String → Option (String × String) := fun _ => none
  trustIds : Bool := false

inductive ResolvedList
  | ok (ids labels : List String)
  | ask (clarify : Clarify)

def resolveListItem (opts : ListOptions α) (ref : String) : Except Clarify (String × String) :=
  match opts.special ref with
  | some special => .ok special
  | none =>
      if opts.trustIds && looksLikeClockifyId ref then .ok (ref, ref)
      else
        match opts.listed.rows.find? fun item => item.id = ref with
        | some byId => .ok (byId.id, byId.name)
        | none =>
            match matchByName lower opts.listed.rows ref false with
            | .one entity =>
                if opts.listed.truncated then
                  .error (incompleteListClarify ref opts.pluralNoun opts.verb)
                else .ok (entity.id, entity.name)
            | .many candidates =>
                .error (manyMatchClarify candidates ref opts.verb opts.pluralNoun)
            | .none =>
                if opts.listed.truncated then
                  .error (incompleteListClarify ref opts.pluralNoun opts.verb)
                else
                  .error (notFoundClarify (suggestOptions lower opts.listed.rows ref false) ref
                    opts.verb opts.singularPhrase opts.pronoun)

/-- `push`: an id that is there already is not added again. -/
def pushRef (ids labels : List String) (found : String × String) : List String × List String :=
  if found.1 ∈ ids then (ids, labels) else (ids ++ [found.1], labels ++ [found.2])

def resolveRefsFrom (opts : ListOptions α) : List String → List String → List String → ResolvedList
  | [], ids, labels => .ok ids labels
  | raw :: rest, ids, labels =>
      let ref := trimmed raw
      if ref = "" then resolveRefsFrom opts rest ids labels
      else
        match resolveListItem lower opts ref with
        | .error clarify => .ask clarify
        | .ok found =>
            let pushed := pushRef ids labels found
            resolveRefsFrom opts rest pushed.1 pushed.2

def resolveRefList (refs : List String) (opts : ListOptions α) : ResolvedList :=
  resolveRefsFrom lower opts refs [] []

structure UserOptions (α : Type) where
  verb : String
  adminUserId : String
  listUsers : ListResult α
  trustIds : Bool := false

inductive ResolvedUser
  | ok (userId label : String)
  | ask (clarify : Clarify)

/-- A name is matched after the id was not found. -/
def resolveUserName (opts : UserOptions α) (query : String) : ResolvedUser :=
  let users := opts.listUsers.rows
  let missing : Clarify :=
    if opts.listUsers.truncated then incompleteListClarify query "workspace users" opts.verb
    else notFoundClarify (suggestOptions lower users query false) query opts.verb
      "a workspace member" "them"
  if query = "" then .ask missing
  else
    match matchByName lower users query false with
    | .many candidates => .ask (manyMatchClarify candidates query opts.verb "workspace users")
    | .one user =>
        if opts.listUsers.truncated then
          .ask (incompleteListClarify query "workspace users" opts.verb)
        else .ok user.id user.name
    | .none => .ask missing

def resolveUserRef (ref : EntityRef) (opts : UserOptions α) : ResolvedUser :=
  let text := (ref.id.or ref.name).getD ""
  if lower (trimmed text) = "me" then .ok opts.adminUserId "you"
  else
    let rawId := given (ref.id.map trimmed)
    match rawId.filter fun id => opts.trustIds && looksLikeClockifyId id with
    | some id => .ok id (ref.name.getD id)
    | none =>
        match (given ref.id).bind fun id => opts.listUsers.rows.find? fun user => user.id = id with
        | some user => .ok user.id user.name
        | none => resolveUserName lower opts (trimmed ((ref.name.or ref.id).getD ""))

end Refs

end ClockifyAssistant.Resolve
