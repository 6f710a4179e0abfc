/-
Module: Zigopt.Organizations.Services
Layer: Model
Purpose: The services for memberships, permissions, invites and organizations: what they query and write, statement
  by statement.
Main exports: createIfNotExists, upsert, upsertFromRole, migrateClient, mergeOrganizationsIntoDestination,
  filterToValidInvites, createMembershipsAndPermissionsFromInvites
-/
import Zigopt.Organizations.Data

namespace Zigopt.Organizations

/-! ### Memberships -/

def insertMembership (userId organizationId : ℕ+) (membershipType : MembershipType) :
    OrganizationProcess Membership := do
  let membership : Membership := {
    userId := userId, organizationId := organizationId, membershipType := membershipType }
  commit fun tables => tables.insertMembership membership
  pure membership

/-- A missing membership type makes a member. -/
def createIfNotExists (userId organizationId : ℕ+) (membershipType : Option MembershipType) :
    OrganizationProcess Membership := do
  match ← query fun tables => tables.findMembership userId organizationId with
  | some existing => pure existing
  | none => insertMembership userId organizationId (membershipType.getD .member)

/-! ### Permissions -/

/-- `upsert` for a client and a user that are given; the stored flags are overwritten. -/
def upsert (client : Client) (user : User) (canAdmin canWrite canRead : Bool) : OrganizationProcess Unit := do
  match ← query fun tables => tables.findMembership user.id client.organizationId with
  | none => .raised (.valueError "Permission cannot be created without a membership.")
  | some _ =>
      let permissionMeta : PermissionMeta := {
        canAdmin := canAdmin, canWrite := canWrite, canRead := canRead
        canSeeExperimentsByOthers := canAdmin || client.allowUsersToSeeExperimentsByOthers }
      match ← query fun tables => tables.findPermission client.id user.id with
      | some permission => commit fun tables => tables.updatePermissionMeta permission.id permissionMeta
      | none => commit fun tables =>
          tables.insertPermission client.id client.organizationId user.id permissionMeta

/-- `upsert_from_role`: the flags that a role stands for. -/
def upsertFromRole (inviteRole : Role) (client : Client) (user : User) : OrganizationProcess Unit :=
  match inviteRole with
  | .admin => upsert client user true true true
  | .user => upsert client user false true true
  | .readOnly => upsert client user false false true
  | .uninvited => .raised .unrecognizedRole

/-- Moves a permission to another client, unless the user has one there; the old one is deleted. -/
def migrateClient (permission : Permission) (newClientId : ℕ+) : OrganizationProcess Unit := do
  let clientPermissions ← query fun tables =>
    tables.permissions.filter fun other => other.clientId = newClientId
  match ← query fun tables => tables.findClient newClientId with
  | none => .raised (.notFound s!"Client {(newClientId : ℕ)} was not found")
  | some newClient => do
      if clientPermissions.any fun other => other.userId = permission.userId then
        pure ()
      else do
        let _ ← createIfNotExists permission.userId newClient.organizationId none
        commit fun tables => tables.upsertPermission
          { permission with clientId := newClient.id, organizationId := newClient.organizationId }
      commit fun tables => tables.deletePermission permission.clientId permission.userId

/-! ### Merging organizations -/

/-- The owners of the source organization become admins of its clients, unless they own the destination; who does
    own it loses the permissions of a member, so that they are not moved. -/
def mergePermissions (clients : List Client) (membership destinationMembership : Membership) :
    OrganizationProcess Unit := do
  if membership.isOwner && !destinationMembership.isOwner then
    match ← query fun tables => tables.findUser membership.userId with
    | none => .raised .assertion
    | some user => clients.forM (upsertFromRole .admin · user)
  if !membership.isOwner && destinationMembership.isOwner then
    commit fun tables => tables.deletePermissionsIn membership.organizationId membership.userId

def mergeMembershipIntoDestination (destOrganization : Organization) (clients : List Client)
    (membership : Membership) : OrganizationProcess Unit := do
  let _ ← createIfNotExists membership.userId destOrganization.id (some .member)
  match ← query fun tables => tables.findMembership membership.userId destOrganization.id with
  | none => pure ()
  | some destinationMembership => mergePermissions clients membership destinationMembership

def mergeMembershipsIntoDestination (destOrganization : Organization) (memberships : List Membership)
    (clients : List Client) : OrganizationProcess Unit :=
  memberships.forM (mergeMembershipIntoDestination destOrganization clients)

/-- An invite moves to the destination unless its email has one there. -/
def moveInvite (destOrganization : Organization) (invite : Invite) : OrganizationProcess Unit := do
  match ← query fun tables => tables.findInvite invite.email destOrganization.id with
  | some _ => commit fun tables => tables.deleteInvites fun other => other.id = invite.id
  | none => commit fun tables => tables.setInviteOrganization invite.id (some destOrganization.id)

def mergeInvite (destOrganization : Organization) (invite : Invite) : OrganizationProcess Unit := do
  moveInvite destOrganization invite
  let pendingPermissions ← query fun tables => tables.pendingPermissionsOf invite.id
  pendingPermissions.forM fun pending =>
    commit fun tables => tables.setPendingPermissionOrganization pending.id destOrganization.id

/-- `organization_service.delete_by_id`. -/
def deleteOrganization (organizationId : ℕ+) : OrganizationProcess Unit := do
  commit fun tables => tables.deleteInvites fun invite => invite.organizationId = some organizationId
  commit fun tables => tables.deleteMembershipsOf organizationId
  commit fun tables => tables.markOrganizationDeleted organizationId

def mergeOrganization (destOrganization : Organization) (organizationId : ℕ+) : OrganizationProcess Unit := do
  let clients ← query fun tables => tables.clientsOf organizationId
  let memberships ← query fun tables => tables.membershipsOf organizationId
  mergeMembershipsIntoDestination destOrganization memberships clients
  let invitesToOrganization ← query fun tables => tables.invitesTo organizationId
  invitesToOrganization.forM fun invite => commit fun tables => tables.setInviteOrganization invite.id none
  clients.forM fun client => commit fun tables => tables.moveClient client.id destOrganization.id
  invitesToOrganization.forM (mergeInvite destOrganization)
  commit fun tables => tables.deleteMembershipsOf organizationId
  deleteOrganization organizationId

/-- `merge_organizations_into_destination`, one organization after the other. -/
def mergeOrganizationsIntoDestination (destOrganizationId : ℕ+) (organizationIds : List ℕ+) :
    OrganizationProcess Unit := do
  match ← query fun tables => tables.findOrganization destOrganizationId with
  | none => .raised (.notFound "")
  | some destOrganization => organizationIds.forM (mergeOrganization destOrganization)

/-! ### Invites -/

/-- How emails are read, and whether they have to be verified. -/
structure EmailCalls where
  normalizeEmail : String → String
  getDomainFromEmail : String → String
  verificationEnabled : Bool

section Invites

variable (calls : EmailCalls)

def hasVerifiedEmailIfNeeded (user : User) : Bool :=
  if calls.verificationEnabled then user.hasVerifiedEmail else true

def eligibleDomainsForInvite (organization : Organization) (inviter : Option User) : List String :=
  if organization.emailDomains.isEmpty then
    match inviter with
    | some inviter => [calls.getDomainFromEmail inviter.email]
    | none => organization.emailDomains
  else organization.emailDomains

def matchesAnyDomainInList (emailDomains : List String) (email : String) : Bool :=
  emailDomains.any fun domain => calls.getDomainFromEmail email = calls.normalizeEmail domain

def emailIsPermittedByOrganizationForInvite (organization : Organization) (email : String)
    (inviter : Option User) : Bool :=
  matchesAnyDomainInList calls (eligibleDomainsForInvite calls organization inviter) email

def canAcceptInviteToOrganization (user : User) (organization : Organization) (inviter : Option User) : Bool :=
  emailIsPermittedByOrganizationForInvite calls organization user.email inviter &&
    hasVerifiedEmailIfNeeded calls user

def canActAsOrganizationOwner (organizationId : Option ℕ+) (inviterMembership : Membership) :
    Except OrganizationError Bool :=
  if some inviterMembership.organizationId = organizationId then .ok inviterMembership.isOwner
  else .error .assertion

/-- An admin of a client may invite to that client, an owner to every client of the organization. -/
def inviterHasPermissionToInviteToClient (organizationId : Option ℕ+) (clientId : ℕ+)
    (inviterMembership : Membership) (inviterPermission : Option Permission) : Except OrganizationError Bool :=
  match inviterPermission with
  | some permission =>
      if permission.organizationId ≠ inviterMembership.organizationId then .error .assertion
      else if permission.clientId = clientId && permission.permissionMeta.canAdmin then .ok true
      else canActAsOrganizationOwner organizationId inviterMembership
  | none => canActAsOrganizationOwner organizationId inviterMembership

/-- Whether the inviter can invite to the clients of all pending permissions, up to the first one that they
    cannot invite to. -/
def inviterHasPermissionToInviteToClients (inviterMembership : Membership) (inviterPermissions : List Permission) :
    List PendingPermission → Except OrganizationError Bool
  | [] => .ok true
  | pending :: rest => do
      let permission := inviterPermissions.find? fun permission => permission.clientId = pending.clientId
      if ← inviterHasPermissionToInviteToClient pending.organizationId pending.clientId inviterMembership permission
      then inviterHasPermissionToInviteToClients inviterMembership inviterPermissions rest
      else pure false

/-- A member invite with no pending permission is not valid. -/
def inviterHasPermissionToInviteToOrganization (organizationId : ℕ+) (inviterMembership : Membership)
    (inviterPermissions : List Permission) (intendedMembershipType : MembershipType)
    (pendingPermissions : List PendingPermission) : Except OrganizationError Bool :=
  match intendedMembershipType with
  | .owner => canActAsOrganizationOwner (some organizationId) inviterMembership
  | .member =>
      if pendingPermissions.isEmpty then .ok false
      else inviterHasPermissionToInviteToClients inviterMembership inviterPermissions pendingPermissions

def inviteIsValid (tables : Tables) (invite : Invite) : Except OrganizationError Bool :=
  match tables.findUser invite.inviter, invite.organizationId with
  | some inviter, some organizationId =>
      match tables.findMembership inviter.id organizationId with
      | some inviterMembership =>
          inviterHasPermissionToInviteToOrganization organizationId inviterMembership
            (tables.permissions.filter fun permission => permission.userId = inviter.id)
            invite.membershipType (tables.pendingPermissionsOf invite.id)
      | none => .ok false
  | _, _ => .ok false

/-- `_filter_to_valid_invites`. -/
def filterToValidInvites (tables : Tables) : List Invite → Except OrganizationError (List Invite)
  | [] => .ok []
  | invite :: rest => do
      let isValid ← inviteIsValid tables invite
      let others ← filterToValidInvites tables rest
      pure (if isValid then invite :: others else others)

/-- `find_by_email` with `valid_only`. -/
def findValidInvites (tables : Tables) (email : String) : Except OrganizationError (List Invite) :=
  filterToValidInvites tables (tables.invites.filter fun invite => invite.email = email)

/-- One pending permission of an accepted invite; a deleted client is a missing key. -/
def acceptPendingPermission (user : User) (pending : PendingPermission) : OrganizationProcess Unit := do
  match ← query fun tables => tables.findClient pending.clientId with
  | none => .raised .keyError
  | some client => upsertFromRole pending.role client user

/-- An invite to an organization that is deleted, or whose inviter may not invite that email, is passed over. -/
def acceptInvite (user : User) (invite : Invite) : OrganizationProcess Unit := do
  match ← query fun tables => invite.organizationId.bind tables.findOrganization with
  | none => pure ()
  | some organization => do
      let inviter ← query fun tables => tables.findUser invite.inviter
      if canAcceptInviteToOrganization calls user organization inviter then do
        let _ ← createIfNotExists user.id organization.id (some invite.membershipType)
        let pendingPermissions ← query fun tables => tables.pendingPermissionsOf invite.id
        pendingPermissions.forM (acceptPendingPermission user)
      else
        pure ()

/-- `create_memberships_and_permissions_from_invites`: one invalid invite fails all of them. -/
def createMembershipsAndPermissionsFromInvites (user : User) (invites : List Invite) : OrganizationProcess Unit := do
  let validInvites ← query fun tables => filterToValidInvites tables invites
  if (← .ofExcept validInvites) = invites then
    invites.forM (acceptInvite calls user)
  else
    .raised .assertion

end Invites

end Zigopt.Organizations
