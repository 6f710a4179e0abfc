/-
Module: Zigopt.Organizations.Data
Layer: Model
Purpose: The tables of users, organizations, clients, memberships, permissions, invites and pending permissions,
  with the constraints of the database and the cascades of its foreign keys.
Main exports: Tables, Constraints, Database, OrganizationProcess, moveClient, setInviteOrganization
-/
import Mathlib.Data.PNat.Basic
import Mathlib.Tactic.MkIffOfInductiveProp
import Zigopt.Lib.Commit
import Zigopt.Lib.Rows

namespace Zigopt.Organizations

inductive MembershipType where
  | member
  | owner
  deriving DecidableEq, Repr

inductive Role where
  | admin
  | user
  | readOnly
  | uninvited
  deriving DecidableEq, Repr

/-! ### Rows

Ids come from sequences that start at 1, so that no id reads as false. -/

/-- A user; only a verified address is taken for the user's own. -/
structure User where
  id : ℕ+
  email : String
  deleted : Bool := false
  hasVerifiedEmail : Bool := false
  deriving DecidableEq

/-- An organization with the domains whose users may join it. -/
structure Organization where
  id : ℕ+
  deleted : Bool := false
  emailDomains : List String := []
  deriving DecidableEq

/-- A client of an organization, with the setting that decides what its users see of each other. -/
structure Client where
  id : ℕ+
  organizationId : ℕ+
  deleted : Bool := false
  allowUsersToSeeExperimentsByOthers : Bool := false
  deriving DecidableEq

/-- The client's row under another organization. -/
def Client.inOrganization (organizationId : ℕ+) (client : Client) : Client :=
  { client with organizationId := organizationId }

/-- A row of memberships; a user has at most one in an organization. -/
structure Membership where
  userId : ℕ+
  organizationId : ℕ+
  membershipType : MembershipType := .member
  deriving DecidableEq

def Membership.isOwner (membership : Membership) : Bool := membership.membershipType = .owner

structure PermissionMeta where
  canAdmin : Bool := false
  canWrite : Bool := false
  canRead : Bool := false
  canSeeExperimentsByOthers : Bool := false
  deriving DecidableEq, Repr

/-- A row of `roles`. -/
structure Permission where
  id : ℕ+
  clientId : ℕ+
  organizationId : ℕ+
  userId : ℕ+
  permissionMeta : PermissionMeta
  deriving DecidableEq

/-- The permission's row under another organization. -/
def Permission.inOrganization (organizationId : ℕ+) (permission : Permission) : Permission :=
  { permission with organizationId := organizationId }

structure Invite where
  id : ℕ+
  email : String
  organizationId : Option ℕ+
  inviter : ℕ+
  membershipType : MembershipType
  deriving DecidableEq

structure PendingPermission where
  id : ℕ+
  inviteId : ℕ+
  clientId : ℕ+
  organizationId : Option ℕ+
  role : Role
  deriving DecidableEq

/-- What the services of organizations read of a token. -/
structure Token where
  clientId : Option ℕ+
  userId : Option ℕ+
  deriving DecidableEq

/-- The tables that memberships, permissions, invites and clients are read from. -/
structure Tables where
  users : List User := []
  organizations : List Organization := []
  clients : List Client := []
  memberships : List Membership := []
  permissions : List Permission := []
  invites : List Invite := []
  pendingPermissions : List PendingPermission := []
  tokens : List Token := []
  nextPermissionId : ℕ+ := 1
  nextInviteId : ℕ+ := 1
  nextPendingPermissionId : ℕ+ := 1

/-! ### Constraints -/

/-- Primary keys, with ids that the sequences have passed; unique constraints; and foreign keys, where one with a
    null column refers to nothing. -/
@[mk_iff] structure Constraints (tables : Tables) : Prop where
  userIds : Rows.Keyed User.id tables.users
  organizationIds : Rows.Keyed Organization.id tables.organizations
  clientIds : Rows.Keyed Client.id tables.clients
  memberships : Rows.Keyed (fun membership : Membership => (membership.userId, membership.organizationId))
    tables.memberships
  permissionIds : Rows.Keyed Permission.id tables.permissions
  permissions : Rows.Keyed (fun permission : Permission => (permission.clientId, permission.userId))
    tables.permissions
  inviteIds : Rows.Keyed Invite.id tables.invites
  inviteEmails : (tables.invites.filterMap fun invite =>
    invite.organizationId.map fun organizationId => (organizationId, invite.email)).Nodup
  pendingPermissionIds : Rows.Keyed PendingPermission.id tables.pendingPermissions
  pendingPermissions : Rows.Keyed (fun pending : PendingPermission => (pending.inviteId, pending.clientId))
    tables.pendingPermissions
  permissionSequence : ∀ permission ∈ tables.permissions, permission.id < tables.nextPermissionId
  inviteSequence : ∀ invite ∈ tables.invites, invite.id < tables.nextInviteId
  pendingPermissionSequence : ∀ pending ∈ tables.pendingPermissions, pending.id < tables.nextPendingPermissionId
  clientOrganization : ∀ client ∈ tables.clients, ∃ organization ∈ tables.organizations,
    organization.id = client.organizationId
  membershipUser : ∀ membership ∈ tables.memberships, ∃ user ∈ tables.users, user.id = membership.userId
  membershipOrganization : ∀ membership ∈ tables.memberships, ∃ organization ∈ tables.organizations,
    organization.id = membership.organizationId
  permissionMembership : ∀ permission ∈ tables.permissions, ∃ membership ∈ tables.memberships,
    membership.userId = permission.userId ∧ membership.organizationId = permission.organizationId
  permissionClient : ∀ permission ∈ tables.permissions, ∃ client ∈ tables.clients,
    client.id = permission.clientId ∧ client.organizationId = permission.organizationId
  inviteOrganization : ∀ invite ∈ tables.invites, ∀ organizationId ∈ invite.organizationId,
    ∃ organization ∈ tables.organizations, organization.id = organizationId
  inviteInviter : ∀ invite ∈ tables.invites, ∃ user ∈ tables.users, user.id = invite.inviter
  pendingPermissionInvite : ∀ pending ∈ tables.pendingPermissions, ∀ organizationId ∈ pending.organizationId,
    ∃ invite ∈ tables.invites, invite.id = pending.inviteId ∧ invite.organizationId = some organizationId
  pendingPermissionClient : ∀ pending ∈ tables.pendingPermissions, ∀ organizationId ∈ pending.organizationId,
    ∃ client ∈ tables.clients, client.id = pending.clientId ∧ client.organizationId = organizationId

instance (tables : Tables) : Decidable (Constraints tables) := decidable_of_iff _ (constraints_iff tables).symm

/-- The tables with their constraints: no statement leaves them violated. -/
abbrev Database := { tables : Tables // Constraints tables }

/-! ### Queries -/

namespace Tables

variable (tables : Tables)

/-- A deleted user is not found, and neither is a deleted organization or client. -/
def findUser (userId : ℕ+) : Option User :=
  tables.users.find? fun user => decide (user.id = userId) && !user.deleted

def findOrganization (organizationId : ℕ+) : Option Organization :=
  tables.organizations.find? fun organization => decide (organization.id = organizationId) && !organization.deleted

/-- The client of an id, deleted or not. -/
def findClient (clientId : ℕ+) : Option Client :=
  tables.clients.find? fun client => decide (client.id = clientId) && !client.deleted

def clientsOf (organizationId : ℕ+) : List Client :=
  tables.clients.filter fun client => decide (client.organizationId = organizationId) && !client.deleted

/-- `find_by_user_and_organization`. -/
def findMembership (userId organizationId : ℕ+) : Option Membership :=
  tables.memberships.find? fun membership =>
    decide ((membership.userId, membership.organizationId) = (userId, organizationId))

def membershipsOf (organizationId : ℕ+) : List Membership :=
  tables.memberships.filter fun membership => membership.organizationId = organizationId

/-- `find_by_client_and_user`. -/
def findPermission (clientId userId : ℕ+) : Option Permission :=
  tables.permissions.find? fun permission => decide ((permission.clientId, permission.userId) = (clientId, userId))

def invitesTo (organizationId : ℕ+) : List Invite :=
  tables.invites.filter fun invite => invite.organizationId = some organizationId

/-- `find_by_email_and_organization`. -/
def findInvite (email : String) (organizationId : ℕ+) : Option Invite :=
  tables.invites.find? fun invite => invite.email = email ∧ invite.organizationId = some organizationId

def pendingPermissionsOf (inviteId : ℕ+) : List PendingPermission :=
  tables.pendingPermissions.filter fun pending => pending.inviteId = inviteId

/-! ### Statements, with the cascades of the foreign keys -/

def insertMembership (membership : Membership) : Tables :=
  { tables with memberships := tables.memberships ++ [membership] }

/-- Deletes the permissions of a membership along with it. -/
def deleteMembershipsOf (organizationId : ℕ+) : Tables :=
  { tables with
    memberships := tables.memberships.filter fun membership => membership.organizationId ≠ organizationId
    permissions := tables.permissions.filter fun permission => !tables.memberships.any fun membership =>
      decide (membership.organizationId = organizationId) &&
        decide ((membership.userId, membership.organizationId) = (permission.userId, permission.organizationId)) }

def insertPermission (clientId organizationId userId : ℕ+) (permissionMeta : PermissionMeta) : Tables :=
  { tables with
    permissions := tables.permissions ++ [{
      id := tables.nextPermissionId, clientId := clientId, organizationId := organizationId, userId := userId
      permissionMeta := permissionMeta }]
    nextPermissionId := tables.nextPermissionId + 1 }

def updatePermissionMeta (permissionId : ℕ+) (permissionMeta : PermissionMeta) : Tables :=
  { tables with
    permissions := Rows.update (fun permission => permission.id = permissionId)
      (fun permission => { permission with permissionMeta := permissionMeta }) tables.permissions }

/-- `upsert`: every column of the row of that id. -/
def upsertPermission (permission : Permission) : Tables :=
  { tables with
    permissions :=
      if tables.permissions.any fun other => other.id = permission.id then
        Rows.update (fun other => other.id = permission.id) (fun _ => permission) tables.permissions
      else tables.permissions ++ [permission] }

/-- `delete_by_organization_and_user`. -/
def deletePermissionsIn (organizationId userId : ℕ+) : Tables :=
  { tables with
    permissions := tables.permissions.filter fun permission =>
      !(decide (permission.organizationId = organizationId) && decide (permission.userId = userId)) }

/-- `delete_by_client_and_user`. -/
def deletePermission (clientId userId : ℕ+) : Tables :=
  { tables with
    permissions := tables.permissions.filter fun permission =>
      !decide ((permission.clientId, permission.userId) = (clientId, userId)) }

/-- Moves a client to another organization, and its permissions along with it. -/
def moveClient (clientId organizationId : ℕ+) : Tables :=
  { tables with
    clients := Rows.update (fun client => client.id = clientId) (Client.inOrganization organizationId) tables.clients
    permissions := Rows.update
      (fun permission => ∃ client ∈ tables.clients, client.id = clientId ∧
        (client.id, client.organizationId) = (permission.clientId, permission.organizationId))
      (Permission.inOrganization organizationId) tables.permissions }

/-- Takes the pending permissions that refer to the invite along. -/
def setInviteOrganization (inviteId : ℕ+) (organizationId : Option ℕ+) : Tables :=
  { tables with
    invites := Rows.update (fun invite => invite.id = inviteId)
      (fun invite => { invite with organizationId := organizationId }) tables.invites
    pendingPermissions := Rows.update
      (fun pending => pending.organizationId.isSome ∧ ∃ invite ∈ tables.invites, invite.id = inviteId ∧
        (invite.id, invite.organizationId) = (pending.inviteId, pending.organizationId))
      (fun pending => { pending with organizationId := organizationId }) tables.pendingPermissions }

/-- Deletes the pending permissions that refer to an invite along with it. -/
def deleteInvites (selected : Invite → Bool) : Tables :=
  { tables with
    invites := tables.invites.filter fun invite => !selected invite
    pendingPermissions := tables.pendingPermissions.filter fun pending =>
      !(pending.organizationId.isSome && tables.invites.any fun invite => selected invite &&
        decide ((invite.id, invite.organizationId) = (pending.inviteId, pending.organizationId))) }

def setPendingPermissionOrganization (pendingId organizationId : ℕ+) : Tables :=
  { tables with
    pendingPermissions := Rows.update (fun pending => pending.id = pendingId)
      (fun pending => { pending with organizationId := some organizationId }) tables.pendingPermissions }

def markOrganizationDeleted (organizationId : ℕ+) : Tables :=
  { tables with
    organizations := Rows.update (fun organization => organization.id = organizationId)
      (fun organization => { organization with deleted := true }) tables.organizations }

end Tables

/-! ### Processes -/

inductive OrganizationError where
  | notFound (msg : String)
  | validation (msg : String)
  | invalidValue (msg : String)
  | conflictingData (msg : String)
  | forbidden (msg : String)
  | valueError (msg : String)
  | unrecognizedRole
  | keyError
  | noResultFound
  | integrity
  | assertion
  deriving DecidableEq, Repr

/-- A service's statements in order, over the constrained tables. -/
abbrev OrganizationProcess (α : Type) := Process Unit Database OrganizationError α

/-- A statement that only reads. -/
def query (view : Tables → α) : OrganizationProcess α := .read () fun store => view store.1

def commit (change : Tables → Tables) : OrganizationProcess Unit := .commit () .integrity change

theorem run_query (view : Tables → α) (store : Database) : (query view).run store = (.ok (view store.1), store) := rfl

theorem run_commit {change : Tables → Tables} {store : Database} (keeps : Constraints (change store.1)) :
    (commit change).run store = (.ok (), ⟨change store.1, keeps⟩) :=
  Process.run_commit () OrganizationError.integrity keeps

end Zigopt.Organizations
