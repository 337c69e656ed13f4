import ClockifyAssistant.Auth.RoleRecheck
import ClockifyAssistant.Lib.JsonText

/-!
The role that a member has in a workspace, as it is read from the member's row: a top-level role,
or else the first entry that looks scoped to the workspace, or else the only entry of all.
-/
namespace ClockifyAssistant

namespace MemberRoles

/-- `c.toUpperCase()`, as far as it makes ASCII letters. -/
def upperChar (c : Char) : List Char :=
  match c.toNat with
  | 0xdf => ['S', 'S']
  | 0x131 => ['I']
  | 0x17f => ['S']
  | 0xfb00 => ['F', 'F']
  | 0xfb01 => ['F', 'I']
  | 0xfb02 => ['F', 'L']
  | 0xfb03 => ['F', 'F', 'I']
  | 0xfb04 => ['F', 'F', 'L']
  | 0xfb05 => ['S', 'T']
  | 0xfb06 => ['S', 'T']
  | _ => [c.toUpper]

def upperText (text : List Char) : List Char := text.flatMap upperChar

def normalizeWorkspaceRole : HostRole → Option String
  | .text role =>
      let name := trimmed role.toList
      if name = [] then none
      else
        let normalized := upperText name
        if normalized ∈ ["WORKSPACE_OWN", "WORKSPACE_OWNER", "OWNER"].map String.toList then
          some "OWNER"
        else if normalized ∈ ["WORKSPACE_ADMIN", "ADMINISTRATOR", "ADMIN"].map String.toList then
          some "ADMIN"
        else some role
  | .absent | .other => none

structure RoleEntity where
  id : Option String := none
  type : Option String := none

structure RoleEntry where
  role : HostRole := .absent
  name : HostRole := .absent
  entityId : Option String := none
  entity : Option RoleEntity := none
  /-- The ids of the entities. -/
  entities : Option (List (Option String)) := none
  sourceType : Option String := none

structure MemberRow where
  id : String
  role : HostRole := .absent
  roles : Option (List RoleEntry) := none

def isBlank (text : Option String) : Bool := text.getD "" == ""

namespace RoleEntry

variable (workspaceId : String) (entry : RoleEntry)

def entityRef : Option String := entry.entity.bind RoleEntity.id

def entityType : Option String := entry.entity.bind RoleEntity.type

def lists : Bool := entry.entities.any fun ids => ids.any fun id => id == some workspaceId

def isMarked : Bool :=
  upperText ((entry.entityType.or entry.sourceType).getD "").toList == "WORKSPACE".toList

def isScoped : Bool :=
  entry.entityId == some workspaceId || entry.lists workspaceId || entry.isMarked

def isUnscoped : Bool :=
  isBlank entry.entityId && isBlank entry.entityRef && isBlank entry.entityType &&
    isBlank entry.sourceType && (entry.entities.getD []).isEmpty

def roleValue : HostRole := if entry.role = .absent then entry.name else entry.role

end RoleEntry

def onlyUnscopedRole : List RoleEntry → Option RoleEntry
  | [entry] => if entry.isUnscoped then some entry else none
  | _ => none

def pickedRole (workspaceId : String) (roles : List RoleEntry) : Option RoleEntry :=
  (roles.find? (·.isScoped workspaceId)).or (onlyUnscopedRole roles)

def memberRole (workspaceId : String) (row : MemberRow) : Option String :=
  (normalizeWorkspaceRole row.role).or <|
    let picked := pickedRole workspaceId (row.roles.getD [])
    (normalizeWorkspaceRole ((picked.map RoleEntry.roleValue).getD .absent)).or <|
      -- a row that lists roles, but none that counts, is a verdict
      if row.roles.isSome then some "MEMBER" else none

/-- The sibling read ties an entry to a workspace by the id of its entity, too. -/
def RoleEntry.isTied (workspaceId : String) (entry : RoleEntry) : Bool :=
  entry.entityId == some workspaceId || entry.entityRef == some workspaceId ||
    entry.lists workspaceId

/-- The role of the text, once it is normalized, opens the mutations. -/
def isAdminClass (value : HostRole) : Bool :=
  (normalizeWorkspaceRole value).any fun role => isAdminRole (.text role)

def opensMutations (role : Option String) : Bool := role.any fun role => isAdminRole (.text role)

end MemberRoles

end ClockifyAssistant
