import OpenWebui.Base.Json

/-! The tables behind access grants, and the queries and loops that decide who may
use a resource. -/

namespace OpenWebui.AccessGrants

structure AccessGrant where
  id : String
  resource_type : String
  resource_id : String
  principal_type : String
  principal_id : String
  permission : String
  created_at : Int

structure Group where
  id : String
  deriving DecidableEq

structure GroupMember where
  group_id : String
  user_id : String
  deriving DecidableEq

structure User where
  id : String
  role : String
  named : id ≠ ""

structure Document where
  id : String
  user_id : Option String
  deriving DecidableEq

structure Database where
  access_grant : List AccessGrant
  group : List Group
  group_member : List GroupMember
  user : List User

/-- `Groups.get_groups_by_member_id`: the join of the groups with the memberships of a
user. -/
def get_groups_by_member_id (db : Database) (user_id : String) : List Group :=
  db.group.filter (fun group => db.group_member.any (fun member =>
    decide (member.group_id = group.id) && decide (member.user_id = user_id)))

/-- `Groups.get_group_user_ids_by_id`: no group row is needed. -/
def get_group_user_ids_by_id (db : Database) (id : String) : List String :=
  (db.group_member.filter (fun member => decide (member.group_id = id))).map
    (fun member => member.user_id)

/-- `Groups.delete_group_by_id`: the rows of the members are left to the database, which
keeps them where foreign keys are not enforced. -/
def delete_group_by_id (db : Database) (id : String) : Database :=
  { db with group := db.group.filter (fun group => decide (group.id ≠ id)) }

/-- `Users.get_users` for the roles `!pending`. -/
def get_users (db : Database) : List User :=
  db.user.filter (fun user => decide (user.role ≠ "pending"))

def get_users_by_user_ids (db : Database) (user_ids : List String) : List User :=
  db.user.filter (fun user => decide (user.id ∈ user_ids))

def groupIds (db : Database) (user_id : String) (user_group_ids : Option (List String)) :
    List String :=
  user_group_ids.getD ((get_groups_by_member_id db user_id).map (fun group => group.id))

def isPublic (grant : AccessGrant) : Bool :=
  decide (grant.principal_type = "user") && decide (grant.principal_id = "*")

def isDirect (user_id : String) (grant : AccessGrant) : Bool :=
  decide (grant.principal_type = "user") && decide (grant.principal_id = user_id)

def isGroup (user_group_ids : List String) (grant : AccessGrant) : Bool :=
  decide (grant.principal_type = "group") && decide (grant.principal_id ∈ user_group_ids)

def conditions (user_id : String) (user_group_ids : List String) (grant : AccessGrant) : Bool :=
  isPublic grant || isDirect user_id grant ||
    (!user_group_ids.isEmpty && isGroup user_group_ids grant)

def has_access (db : Database) (user_id resource_type resource_id permission : String)
    (user_group_ids : Option (List String)) : Bool :=
  (db.access_grant.find? (fun grant =>
    decide (grant.resource_type = resource_type) && decide (grant.resource_id = resource_id) &&
      decide (grant.permission = permission) &&
        conditions user_id (groupIds db user_id user_group_ids) grant)).isSome

def get_accessible_resource_ids (db : Database) (user_id resource_type : String)
    (resource_ids : List String) (permission : String) (user_group_ids : Option (List String)) :
    List String :=
  if resource_ids.isEmpty then []
  else ((db.access_grant.filter (fun grant =>
    decide (grant.resource_type = resource_type) && decide (grant.resource_id ∈ resource_ids) &&
      decide (grant.permission = permission) &&
        conditions user_id (groupIds db user_id user_group_ids) grant)).map
          (fun grant => grant.resource_id)).eraseDups

def grantUserIds (db : Database) (grant : AccessGrant) : List String :=
  if grant.principal_type = "user" then [grant.principal_id]
  else if grant.principal_type = "group" then get_group_user_ids_by_id db grant.principal_id
  else []

def get_users_with_access (db : Database) (resource_type resource_id permission : String) :
    List User :=
  let grants := db.access_grant.filter (fun grant =>
    decide (grant.resource_type = resource_type) && decide (grant.resource_id = resource_id) &&
      decide (grant.permission = permission))
  if grants.any isPublic then get_users db
  else
    let user_ids_with_access := grants.flatMap (grantUserIds db)
    if user_ids_with_access.isEmpty then []
    else get_users_by_user_ids db user_ids_with_access

/-- `user_id` of the filter, when it is not empty. -/
def filterUser (user_id : Option String) : Option String :=
  user_id.filter (fun id => decide (id ≠ ""))

def ownedBy (user_id : Option String) (document : Document) : Bool :=
  (filterUser user_id).any (fun id => decide (document.user_id = some id))

def grantExists (db : Database) (resource_type permission : String) (document : Document)
    (principal : AccessGrant → Bool) : Bool :=
  db.access_grant.any (fun grant =>
    decide (grant.resource_type = resource_type) && decide (grant.resource_id = document.id) &&
      decide (grant.permission = permission) && principal grant)

def filterPrincipal (user_id : Option String) (group_ids : List String) (grant : AccessGrant) :
    Bool :=
  (filterUser user_id).any (fun id => isDirect id grant) ||
    (!group_ids.isEmpty && isGroup group_ids grant)

def has_read_only_permission_filter (db : Database) (documents : List Document)
    (user_id : Option String) (group_ids : List String) (resource_type : String) : List Document :=
  documents.filter (fun document =>
    grantExists db resource_type "read" document (filterPrincipal user_id group_ids) &&
      !grantExists db resource_type "write" document (filterPrincipal user_id group_ids) &&
      !grantExists db resource_type "read" document isPublic &&
      (filterUser user_id).all (fun id =>
        (document.user_id.map (fun owner => decide (owner ≠ id))).getD false))

def has_permission_filter (db : Database) (documents : List Document) (user_id : Option String)
    (group_ids : List String) (resource_type permission : String) : List Document :=
  if permission = "read_only" then
    has_read_only_permission_filter db documents user_id group_ids resource_type
  else if (filterUser user_id).isNone && group_ids.isEmpty then documents
  else documents.filter (fun document =>
    grantExists db resource_type permission document (fun grant =>
        isPublic grant || filterPrincipal user_id group_ids grant) ||
      ownedBy user_id document)

def get_grants_by_resource (db : Database) (resource_type resource_id : String) :
    List AccessGrant :=
  db.access_grant.filter (fun grant =>
    decide (grant.resource_type = resource_type) && decide (grant.resource_id = resource_id))

def dictFields (grant : AccessGrant) : Fields :=
  [("id", .str grant.id), ("resource_type", .str grant.resource_type),
    ("resource_id", .str grant.resource_id), ("principal_type", .str grant.principal_type),
    ("principal_id", .str grant.principal_id), ("permission", .str grant.permission),
    ("created_at", .num grant.created_at)]

def grantDict (grant : AccessGrant) : Json := .obj (dictFields grant)

/-- `principal_id in user_group_ids`. -/
def inGroups (user_group_ids : List String) (principal_id : Json) : Except PyError Bool :=
  if principal_id.hashable then
    .ok (principal_id.str?.any (fun id => decide (id ∈ user_group_ids)))
  else .error .typeError

def grantAdmits (user_id permission : String) (user_group_ids : List String) (grant : Json) :
    Except PyError Bool :=
  match grant with
  | .obj fields =>
    if getField fields "permission" ≠ .str permission then .ok false
    else
      let principal_type := getField fields "principal_type"
      let principal_id := getField fields "principal_id"
      if principal_type = .str "user" ∧
          (principal_id = .str "*" ∨ principal_id = .str user_id) then
        .ok true
      else if principal_type = .str "group" ∧ user_group_ids ≠ [] then
        inGroups user_group_ids principal_id
      else .ok false
  | _ => .ok false

def anyGrant (user_id permission : String) (user_group_ids : List String) :
    List Json → Except PyError Bool
  | [] => .ok false
  | grant :: rest => do
    if ← grantAdmits user_id permission user_group_ids grant then .ok true
    else anyGrant user_id permission user_group_ids rest

/-- `access_control.has_access` on a list of grants that was loaded before. -/
def inMemoryAccess (db : Database) (user_id permission : String) (access_grants : List Json)
    (user_group_ids : Option (List String)) : Except PyError Bool :=
  if access_grants.isEmpty then .ok false
  else anyGrant user_id permission (groupIds db user_id user_group_ids) access_grants

end OpenWebui.AccessGrants
