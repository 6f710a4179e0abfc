/-
Module: Zigopt.Organizations.Access
Layer: Proofs
Purpose: What a user may do on a client: everything as an owner of its organization, otherwise what their permission
  says. Merging organizations takes nothing of it away.
Main exports: effectiveAccess, AccessPreserved, Reaches, OrganizationMerged.access
-/
import Mathlib.Order.Basic
import Zigopt.Organizations.Merge

namespace Zigopt.Organizations

/-! ### Flags of a permission -/

inductive RequestedPermission where
  | read
  | write
  | admin
  deriving DecidableEq, Repr

/-- The flag of a permission for a request. -/
def PermissionMeta.allows (permissionMeta : PermissionMeta) : RequestedPermission → Bool
  | .read => permissionMeta.canRead
  | .write => permissionMeta.canWrite
  | .admin => permissionMeta.canAdmin

/-! ### Effective access -/

/-- An owner may do everything on the clients of the organization. -/
def effectiveAccess (tables : Tables) (userId clientId : ℕ+) : PermissionMeta :=
  match (tables.findClient clientId).bind fun client => tables.findOrganization client.organizationId with
  | some organization =>
      match tables.findMembership userId organization.id with
      | some membership =>
          if membership.isOwner then adminMeta
          else ((tables.findPermission clientId userId).map Permission.permissionMeta).getD {}
      | none => {}
  | none => {}

/-- Each flag implies the other's. -/
structure PermissionMeta.AtMost (first second : PermissionMeta) : Prop where
  canAdmin : first.canAdmin ≤ second.canAdmin
  canWrite : first.canWrite ≤ second.canWrite
  canRead : first.canRead ≤ second.canRead
  canSeeExperimentsByOthers : first.canSeeExperimentsByOthers ≤ second.canSeeExperimentsByOthers

theorem PermissionMeta.AtMost.refl (permissionMeta : PermissionMeta) : permissionMeta.AtMost permissionMeta :=
  ⟨le_rfl, le_rfl, le_rfl, le_rfl⟩

theorem PermissionMeta.AtMost.trans {first second third : PermissionMeta} (lower : first.AtMost second)
    (upper : second.AtMost third) : first.AtMost third :=
  ⟨lower.canAdmin.trans upper.canAdmin, lower.canWrite.trans upper.canWrite, lower.canRead.trans upper.canRead,
    lower.canSeeExperimentsByOthers.trans upper.canSeeExperimentsByOthers⟩

theorem none_atMost (permissionMeta : PermissionMeta) : PermissionMeta.AtMost {} permissionMeta :=
  ⟨Bool.false_le _, Bool.false_le _, Bool.false_le _, Bool.false_le _⟩

theorem atMost_admin (permissionMeta : PermissionMeta) : permissionMeta.AtMost adminMeta :=
  ⟨Bool.le_true _, Bool.le_true _, Bool.le_true _, Bool.le_true _⟩

theorem PermissionMeta.AtMost.allows {first second : PermissionMeta} (atMost : first.AtMost second)
    (requested : RequestedPermission) : first.allows requested ≤ second.allows requested := by
  cases requested with
  | read => exact atMost.canRead
  | write => exact atMost.canWrite
  | admin => exact atMost.canAdmin

/-- Every user may do on every client what they could do before. -/
def AccessPreserved (before after : Tables) : Prop :=
  ∀ userId clientId, (effectiveAccess before userId clientId).AtMost (effectiveAccess after userId clientId)

theorem AccessPreserved.refl (tables : Tables) : AccessPreserved tables tables :=
  fun _ _ => PermissionMeta.AtMost.refl _

/-- Access that is preserved twice is preserved. -/
theorem AccessPreserved.trans {before between after : Tables} (first : AccessPreserved before between)
    (second : AccessPreserved between after) : AccessPreserved before after :=
  fun userId clientId => (first userId clientId).trans (second userId clientId)

/-! ### Access by rows -/

section Rows

variable {tables : Tables} {client : Client} {organization : Organization} {membership : Membership} {userId : ℕ+}

/-- A live client of a live organization in which the user has a membership. -/
structure Reaches (tables : Tables) (userId : ℕ+) (client : Client) (organization : Organization)
    (membership : Membership) : Prop where
  isClient : client ∈ tables.clients
  clientLive : client.deleted = false
  isOrganization : organization ∈ tables.organizations
  organizationLive : organization.deleted = false
  inOrganization : client.organizationId = organization.id
  isMembership : membership ∈ tables.memberships
  ofUser : membership.userId = userId
  ofOrganization : membership.organizationId = organization.id

/-- Who reaches a client has an owner's access there, or what the permission row gives. -/
theorem Reaches.access (constraints : Constraints tables) (reaches : Reaches tables userId client organization membership) :
    effectiveAccess tables userId client.id =
      if membership.isOwner then adminMeta
      else ((tables.findPermission client.id userId).map Permission.permissionMeta).getD {} := by
  have clientFound : tables.findClient client.id = some client :=
    (findClient_iff constraints).mpr ⟨reaches.isClient, rfl, reaches.clientLive⟩
  have organizationFound : tables.findOrganization client.organizationId = some organization :=
    (findOrganization_iff constraints).mpr
      ⟨reaches.isOrganization, reaches.inOrganization.symm, reaches.organizationLive⟩
  have membershipFound : tables.findMembership userId organization.id = some membership :=
    (findMembership_iff constraints).mpr
      ⟨reaches.isMembership, by rw [reaches.ofUser, reaches.ofOrganization]⟩
  rw [effectiveAccess, clientFound, Option.bind_some, organizationFound]
  dsimp only
  rw [membershipFound]

/-- Without a membership there is no access. -/
theorem reaches_or_none (constraints : Constraints tables) (userId clientId : ℕ+) :
    effectiveAccess tables userId clientId = {} ∨
      ∃ client organization membership, client.id = clientId ∧
        Reaches tables userId client organization membership := by
  unfold effectiveAccess
  cases clientFound : tables.findClient clientId with
  | none => exact .inl rfl
  | some client =>
      rw [Option.bind_some]
      cases organizationFound : tables.findOrganization client.organizationId with
      | none => exact .inl rfl
      | some organization =>
          dsimp only
          cases membershipFound : tables.findMembership userId organization.id with
          | none => exact .inl rfl
          | some membership =>
              rcases (findClient_iff constraints).mp clientFound with ⟨isClient, isId, clientLive⟩
              rcases (findOrganization_iff constraints).mp organizationFound
                with ⟨isOrganization, inOrganization, organizationLive⟩
              rcases (findMembership_iff constraints).mp membershipFound with ⟨isMembership, isKey⟩
              rcases Prod.mk.inj isKey with ⟨ofUser, ofOrganization⟩
              exact .inr ⟨client, organization, membership, isId, isClient, clientLive, isOrganization,
                organizationLive, inOrganization.symm, isMembership, ofUser, ofOrganization⟩

theorem Reaches.atLeast_permission (constraints : Constraints tables)
    (reaches : Reaches tables userId client organization membership) {permission : Permission}
    (member : permission ∈ tables.permissions) (isKey : (permission.clientId, permission.userId) = (client.id, userId)) :
    permission.permissionMeta.AtMost (effectiveAccess tables userId client.id) := by
  have found : tables.findPermission client.id userId = some permission :=
    (findPermission_iff constraints).mpr ⟨member, isKey⟩
  rw [reaches.access constraints, found]
  split
  · exact atMost_admin _
  · exact PermissionMeta.AtMost.refl _

/-- What there is to show for a user with access: that they still own the organization, or have the permission. -/
theorem Reaches.atMost {after : Tables} (constraints : Constraints tables)
    (reaches : Reaches tables userId client organization membership)
    (owner : membership.isOwner = true → adminMeta.AtMost (effectiveAccess after userId client.id))
    (permitted : membership.isOwner = false → ∀ permission ∈ tables.permissions,
      (permission.clientId, permission.userId) = (client.id, userId) →
        permission.permissionMeta.AtMost (effectiveAccess after userId client.id)) :
    (effectiveAccess tables userId client.id).AtMost (effectiveAccess after userId client.id) := by
  rw [reaches.access constraints]
  cases isOwner : membership.isOwner with
  | true => exact owner isOwner
  | false =>
      rw [if_neg Bool.false_ne_true]
      cases found : tables.findPermission client.id userId with
      | none => exact none_atMost _
      | some permission =>
          rcases (findPermission_iff constraints).mp found with ⟨member, isKey⟩
          exact permitted isOwner permission member isKey

end Rows

/-! ### Access after merging -/

section Merge

variable {before merged moved after : Tables} {destOrganization : Organization} {organizationId : ℕ+}
  {client : Client} {organization : Organization} {membership : Membership} {userId : ℕ+}

theorem OrganizationMerged.organization_elsewhere
    (isMerged : OrganizationMerged before destOrganization organizationId merged moved after)
    (member : organization ∈ before.organizations) (elsewhere : organization.id ≠ organizationId) :
    organization ∈ after.organizations := by
  rw [isMerged.settling.organizations organization elsewhere, isMerged.clients.organizations,
    isMerged.memberships.rest.organizations]
  exact member

/-- On the clients of other organizations, the destination among them. -/
theorem access_elsewhere (constraintsBefore : Constraints before) (constraints : Constraints after)
    (isMerged : OrganizationMerged before destOrganization organizationId merged moved after)
    (reaches : Reaches before userId client organization membership)
    (elsewhere : organization.id ≠ organizationId) :
    (effectiveAccess before userId client.id).AtMost (effectiveAccess after userId client.id) := by
  have clientElsewhere : client.organizationId ≠ organizationId := by
    rw [reaches.inOrganization]
    exact elsewhere
  have membershipElsewhere : membership.organizationId ≠ organizationId := by
    rw [reaches.ofOrganization]
    exact elsewhere
  have reachesAfter : Reaches after userId client organization membership := {
    reaches with
    isClient := isMerged.client_elsewhere constraintsBefore reaches.isClient clientElsewhere
    isOrganization := isMerged.organization_elsewhere reaches.isOrganization elsewhere
    isMembership := isMerged.membership_elsewhere
      ((isMerged.memberships.memberships membership).mpr (.inl reaches.isMembership)) membershipElsewhere }
  apply reaches.atMost constraintsBefore
  · intro isOwner
    rw [reachesAfter.access constraints, if_pos isOwner]
    exact PermissionMeta.AtMost.refl _
  · intro _ permission member isKey
    have permissionElsewhere : permission.organizationId ≠ organizationId := by
      rcases constraintsBefore.permissionClient permission member with ⟨other, isOther, isId, inOrganization⟩
      rw [constraintsBefore.clientIds.eq_of_key isOther reaches.isClient (isId.trans (Prod.mk.inj isKey).1)]
        at inOrganization
      rw [← inOrganization]
      exact clientElsewhere
    exact reachesAfter.atLeast_permission constraints
      (isMerged.permission_elsewhere constraintsBefore member permissionElsewhere) isKey

/-- On the clients of the source organization. -/
theorem access_moved (constraintsBefore : Constraints before) (constraints : Constraints after)
    (isOrganization : destOrganization ∈ before.organizations) (live : destOrganization.deleted = false)
    (distinct : organizationId ≠ destOrganization.id)
    (isMerged : OrganizationMerged before destOrganization organizationId merged moved after)
    (reaches : Reaches before userId client organization membership)
    (isSource : organization.id = organizationId) :
    (effectiveAccess before userId client.id).AtMost (effectiveAccess after userId client.id) := by
  have inSource := reaches.inOrganization.trans isSource
  have membershipInSource := reaches.ofOrganization.trans isSource
  have listed : client ∈ before.clientsOf organizationId :=
    mem_clientsOf.mpr ⟨reaches.isClient, inSource, reaches.clientLive⟩
  have isListed : membership ∈ before.membershipsOf organizationId :=
    mem_membershipsOf.mpr ⟨reaches.isMembership, membershipInSource⟩
  rcases isMerged.memberships.isMember constraintsBefore reaches.isMembership membershipInSource
    with ⟨joined, joinedMember, joinedUser, inDestination⟩
  have joinedElsewhere : joined.organizationId ≠ organizationId := by
    rw [inDestination]
    exact distinct.symm
  have reachesAfter : Reaches after userId (client.inOrganization destOrganization.id) destOrganization joined := {
    isClient := isMerged.client_moved listed
    clientLive := reaches.clientLive
    isOrganization := isMerged.organization_elsewhere isOrganization distinct.symm
    organizationLive := live
    inOrganization := rfl
    isMembership := isMerged.membership_elsewhere joinedMember joinedElsewhere
    ofUser := joinedUser.trans reaches.ofUser
    ofOrganization := inDestination }
  change (effectiveAccess before userId client.id).AtMost
    (effectiveAccess after userId (client.inOrganization destOrganization.id).id)
  cases owns : joined.isOwner with
  | true =>
      rw [reachesAfter.access constraints, if_pos owns]
      exact atMost_admin _
  | false =>
      have notOwns : before.owns membership.userId destOrganization.id = false := by
        unfold Tables.owns
        cases found : before.findMembership membership.userId destOrganization.id with
        | none => rfl
        | some other =>
            rcases (findMembership_iff constraintsBefore).mp found with ⟨otherMember, isKey⟩
            have inMerged := (isMerged.memberships.memberships other).mpr (.inl otherMember)
            have sameKey : (other.userId, other.organizationId) = (joined.userId, joined.organizationId) := by
              rw [isKey, joinedUser, inDestination]
            rw [isMerged.constraints.memberships.eq_of_key inMerged joinedMember sameKey]
            exact owns
      have userMerged := isMerged.memberships.merged membership isListed
      apply reaches.atMost constraintsBefore
      · intro isOwner
        rcases userMerged.promoted isOwner notOwns client listed with ⟨permission, member, isKey, isAdmin⟩
        rw [reaches.ofUser] at isKey
        rw [← isAdmin]
        have inAfter := isMerged.permission_moved distinct member listed (Prod.mk.inj isKey).1
        have atLeast : (permission.inOrganization destOrganization.id).permissionMeta.AtMost
            (effectiveAccess after userId (client.inOrganization destOrganization.id).id) :=
          reachesAfter.atLeast_permission constraints inAfter isKey
        exact atLeast
      · intro notOwner permission member isKey
        have inMerged : permission ∈ merged.permissions := by
          apply (userMerged.others permission ((Prod.mk.inj isKey).2.trans reaches.ofUser.symm) _).mpr
          · refine ⟨member, fun _ impossible => ?_⟩
            rw [notOwns] at impossible
            cases impossible
          · intro impossible
            rw [notOwner] at impossible
            cases impossible
        have inAfter := isMerged.permission_moved distinct inMerged listed (Prod.mk.inj isKey).1
        have atLeast : (permission.inOrganization destOrganization.id).permissionMeta.AtMost
            (effectiveAccess after userId (client.inOrganization destOrganization.id).id) :=
          reachesAfter.atLeast_permission constraints inAfter isKey
        exact atLeast

/-- A merge that ran through changes nobody's access to the clients of its organizations. -/
theorem OrganizationMerged.access (constraintsBefore : Constraints before) (constraints : Constraints after)
    (isOrganization : destOrganization ∈ before.organizations) (live : destOrganization.deleted = false)
    (distinct : organizationId ≠ destOrganization.id)
    (isMerged : OrganizationMerged before destOrganization organizationId merged moved after) :
    AccessPreserved before after := by
  intro userId clientId
  rcases reaches_or_none constraintsBefore userId clientId with none | ⟨client, organization, membership, rfl, reaches⟩
  · rw [none]
    exact none_atMost _
  · by_cases isSource : organization.id = organizationId
    · exact access_moved constraintsBefore constraints isOrganization live distinct isMerged reaches isSource
    · exact access_elsewhere constraintsBefore constraints isMerged reaches isSource

end Merge

end Zigopt.Organizations
