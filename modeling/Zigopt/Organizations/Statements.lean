/-
Module: Zigopt.Organizations.Statements
Layer: Proofs
Purpose: What the statements on memberships, permissions, clients and invites do to the rows, and which of them no
  constraint stands against.
Main exports: constraints_insertMembership, constraints_setPermission, constraints_moveClient
-/
import Mathlib.Tactic.Common
import Zigopt.Organizations.Services

namespace Zigopt.Organizations

variable {tables : Tables}

/-! ### Rows that queries find -/

/-- The membership of a user and an organization is the row of that pair. -/
theorem findMembership_iff (constraints : Constraints tables) {userId organizationId : ℕ+} {membership : Membership} :
    tables.findMembership userId organizationId = some membership ↔
      membership ∈ tables.memberships ∧
        (membership.userId, membership.organizationId) = (userId, organizationId) :=
  Rows.findKey_iff constraints.memberships

theorem findMembership_eq_none {userId organizationId : ℕ+} :
    tables.findMembership userId organizationId = none ↔
      ∀ membership ∈ tables.memberships, (membership.userId, membership.organizationId) ≠ (userId, organizationId) := by
  simp [Tables.findMembership]

theorem findPermission_iff (constraints : Constraints tables) {clientId userId : ℕ+} {permission : Permission} :
    tables.findPermission clientId userId = some permission ↔
      permission ∈ tables.permissions ∧ (permission.clientId, permission.userId) = (clientId, userId) :=
  Rows.findKey_iff constraints.permissions

theorem findPermission_eq_none {clientId userId : ℕ+} :
    tables.findPermission clientId userId = none ↔
      ∀ permission ∈ tables.permissions, (permission.clientId, permission.userId) ≠ (clientId, userId) := by
  simp [Tables.findPermission]

theorem findUser_iff (constraints : Constraints tables) {userId : ℕ+} {user : User} :
    tables.findUser userId = some user ↔ user ∈ tables.users ∧ user.id = userId ∧ user.deleted = false := by
  rw [Tables.findUser, Rows.find_iff constraints.userIds, Bool.not_eq_true']

theorem findOrganization_iff (constraints : Constraints tables) {organizationId : ℕ+} {organization : Organization} :
    tables.findOrganization organizationId = some organization ↔
      organization ∈ tables.organizations ∧ organization.id = organizationId ∧ organization.deleted = false := by
  rw [Tables.findOrganization, Rows.find_iff constraints.organizationIds, Bool.not_eq_true']

theorem findClient_iff (constraints : Constraints tables) {clientId : ℕ+} {client : Client} :
    tables.findClient clientId = some client ↔
      client ∈ tables.clients ∧ client.id = clientId ∧ client.deleted = false := by
  rw [Tables.findClient, Rows.find_iff constraints.clientIds, Bool.not_eq_true']

theorem mem_clientsOf {organizationId : ℕ+} {client : Client} :
    client ∈ tables.clientsOf organizationId ↔
      client ∈ tables.clients ∧ client.organizationId = organizationId ∧ client.deleted = false := by
  simp [Tables.clientsOf]

theorem mem_membershipsOf {organizationId : ℕ+} {membership : Membership} :
    membership ∈ tables.membershipsOf organizationId ↔
      membership ∈ tables.memberships ∧ membership.organizationId = organizationId := by
  simp [Tables.membershipsOf]

/-! ### Memberships -/

/-- A membership of a user and an organization that exist, under a new pair, keeps the constraints. -/
theorem constraints_insertMembership (constraints : Constraints tables) {membership : Membership}
    (new : tables.findMembership membership.userId membership.organizationId = none)
    (ofUser : ∃ user ∈ tables.users, user.id = membership.userId)
    (ofOrganization : ∃ organization ∈ tables.organizations, organization.id = membership.organizationId) :
    Constraints (tables.insertMembership membership) :=
  { constraints with
    memberships := Rows.keyed_append constraints.memberships (findMembership_eq_none.mp new)
    membershipUser := by
      rw [Tables.insertMembership, List.forall_mem_append, List.forall_mem_singleton]
      exact ⟨constraints.membershipUser, ofUser⟩
    membershipOrganization := by
      rw [Tables.insertMembership, List.forall_mem_append, List.forall_mem_singleton]
      exact ⟨constraints.membershipOrganization, ofOrganization⟩
    permissionMembership := by
      intro permission member
      rcases constraints.permissionMembership permission member with ⟨other, otherMember, same⟩
      exact ⟨other, List.mem_append_left _ otherMember, same⟩ }

namespace Tables

/-- What `create_if_not_exists` leaves. -/
def ensureMembership (tables : Tables) (membership : Membership) : Tables :=
  match tables.findMembership membership.userId membership.organizationId with
  | some _ => tables
  | none => tables.insertMembership membership

end Tables

theorem mem_ensureMembership {membership other : Membership} :
    other ∈ (tables.ensureMembership membership).memberships ↔
      other ∈ tables.memberships ∨
        (tables.findMembership membership.userId membership.organizationId = none ∧ other = membership) := by
  unfold Tables.ensureMembership
  cases found : tables.findMembership membership.userId membership.organizationId with
  | some existing => simp
  | none => simp [Tables.insertMembership]

theorem findMembership_ensureMembership (membership : Membership) :
    (tables.ensureMembership membership).findMembership membership.userId membership.organizationId =
      some ((tables.findMembership membership.userId membership.organizationId).getD membership) := by
  unfold Tables.ensureMembership
  cases found : tables.findMembership membership.userId membership.organizationId with
  | some existing => exact found
  | none =>
      have isNew : tables.memberships.find? (fun other => decide ((other.userId, other.organizationId) =
          (membership.userId, membership.organizationId))) = none := found
      simp only [Tables.findMembership, Tables.insertMembership, List.find?_append, isNew]
      simp

theorem run_createIfNotExists (store : Database) {userId organizationId : ℕ+}
    (membershipType : Option MembershipType) (ofUser : ∃ user ∈ store.1.users, user.id = userId)
    (ofOrganization : ∃ organization ∈ store.1.organizations, organization.id = organizationId) :
    ∃ keeps, (createIfNotExists userId organizationId membershipType).run store =
      (.ok ((store.1.findMembership userId organizationId).getD
        { userId := userId, organizationId := organizationId, membershipType := membershipType.getD .member }),
        ⟨store.1.ensureMembership
          { userId := userId, organizationId := organizationId, membershipType := membershipType.getD .member },
          keeps⟩) := by
  unfold createIfNotExists Tables.ensureMembership
  rw [Process.run_bind_ok (run_query _ store)]
  cases found : store.1.findMembership userId organizationId with
  | some existing => exact ⟨store.2, rfl⟩
  | none =>
      have keeps : Constraints (store.1.insertMembership {
          userId := userId, organizationId := organizationId, membershipType := membershipType.getD .member }) :=
        constraints_insertMembership store.2 found ofUser ofOrganization
      refine ⟨keeps, ?_⟩
      dsimp only [insertMembership]
      rw [Process.run_bind_ok (run_commit keeps)]
      rfl

/-! ### Permissions -/

namespace Tables

/-- What `upsert` leaves. -/
def setPermission (tables : Tables) (client : Client) (userId : ℕ+) (permissionMeta : PermissionMeta) : Tables :=
  match tables.findPermission client.id userId with
  | some permission => tables.updatePermissionMeta permission.id permissionMeta
  | none => tables.insertPermission client.id client.organizationId userId permissionMeta

end Tables

/-- No constraint is on the flags of a permission. -/
theorem constraints_updateMetas (constraints : Constraints tables) (selected : Permission → Prop)
    [DecidablePred selected] (newMeta : Permission → PermissionMeta) :
    Constraints { tables with
      permissions := Rows.update selected (fun permission => { permission with permissionMeta := newMeta permission })
        tables.permissions } := by
  have updated : ∀ new ∈ Rows.update selected
        (fun permission => { permission with permissionMeta := newMeta permission }) tables.permissions,
      ∃ old ∈ tables.permissions, new.id = old.id ∧ new.clientId = old.clientId ∧ new.userId = old.userId ∧
        new.organizationId = old.organizationId := by
    intro new member
    rcases Rows.mem_update.mp member with ⟨old, oldMember, rfl⟩
    refine ⟨old, oldMember, ?_⟩
    split <;> exact ⟨rfl, rfl, rfl, rfl⟩
  exact { constraints with
    permissionIds := by
      refine (Rows.keyed_update ?_).mpr constraints.permissionIds
      exact fun _ _ _ => rfl
    permissions := by
      refine (Rows.keyed_update ?_).mpr constraints.permissions
      exact fun _ _ _ => rfl
    permissionSequence := by
      intro new member
      rcases updated new member with ⟨old, oldMember, sameId, _⟩
      rw [sameId]
      exact constraints.permissionSequence old oldMember
    permissionMembership := by
      intro new member
      rcases updated new member with ⟨old, oldMember, _, _, sameUser, sameOrganization⟩
      rw [sameUser, sameOrganization]
      exact constraints.permissionMembership old oldMember
    permissionClient := by
      intro new member
      rcases updated new member with ⟨old, oldMember, _, sameClient, _, sameOrganization⟩
      rw [sameClient, sameOrganization]
      exact constraints.permissionClient old oldMember }

theorem constraints_updatePermissionMeta (constraints : Constraints tables) (permissionId : ℕ+)
    (permissionMeta : PermissionMeta) : Constraints (tables.updatePermissionMeta permissionId permissionMeta) :=
  constraints_updateMetas constraints _ _

theorem constraints_insertPermission (constraints : Constraints tables) {client : Client} {userId : ℕ+}
    (permissionMeta : PermissionMeta) (new : tables.findPermission client.id userId = none)
    (ofClient : client ∈ tables.clients)
    (ofMembership : ∃ membership ∈ tables.memberships,
      membership.userId = userId ∧ membership.organizationId = client.organizationId) :
    Constraints (tables.insertPermission client.id client.organizationId userId permissionMeta) :=
  { constraints with
    permissionIds := Rows.keyed_append constraints.permissionIds fun permission member =>
      (constraints.permissionSequence permission member).ne
    permissions := Rows.keyed_append constraints.permissions (findPermission_eq_none.mp new)
    permissionSequence := by
      rw [Tables.insertPermission, List.forall_mem_append, List.forall_mem_singleton]
      refine ⟨?_, PNat.lt_add_right _ _⟩
      intro permission member
      exact (constraints.permissionSequence permission member).trans (PNat.lt_add_right _ _)
    permissionMembership := by
      rw [Tables.insertPermission, List.forall_mem_append, List.forall_mem_singleton]
      exact ⟨constraints.permissionMembership, ofMembership⟩
    permissionClient := by
      rw [Tables.insertPermission, List.forall_mem_append, List.forall_mem_singleton]
      exact ⟨constraints.permissionClient, client, ofClient, rfl, rfl⟩ }

/-- A permission of a member of the client's organization keeps the constraints. -/
theorem constraints_setPermission (constraints : Constraints tables) {client : Client} {userId : ℕ+}
    (permissionMeta : PermissionMeta) (ofClient : client ∈ tables.clients)
    (ofMembership : ∃ membership ∈ tables.memberships,
      membership.userId = userId ∧ membership.organizationId = client.organizationId) :
    Constraints (tables.setPermission client userId permissionMeta) := by
  unfold Tables.setPermission
  split
  · exact constraints_updatePermissionMeta constraints _ permissionMeta
  · rename_i new
    exact constraints_insertPermission constraints permissionMeta new ofClient ofMembership

/-- Only the permissions differ. -/
theorem setPermission_rest (tables : Tables) (client : Client) (userId : ℕ+) (permissionMeta : PermissionMeta) :
    ∃ permissions next, tables.setPermission client userId permissionMeta =
      { tables with permissions := permissions, nextPermissionId := next } := by
  unfold Tables.setPermission
  split
  · exact ⟨_, _, rfl⟩
  · exact ⟨_, _, rfl⟩

theorem exists_setPermission (constraints : Constraints tables) (client : Client) (userId : ℕ+)
    (permissionMeta : PermissionMeta) :
    ∃ permission ∈ (tables.setPermission client userId permissionMeta).permissions,
      (permission.clientId, permission.userId) = (client.id, userId) ∧
        permission.permissionMeta = permissionMeta := by
  unfold Tables.setPermission
  cases found : tables.findPermission client.id userId with
  | some permission =>
      rcases (findPermission_iff constraints).mp found with ⟨member, isKey⟩
      refine ⟨_, Rows.mem_update.mpr ⟨permission, member, rfl⟩, ?_⟩
      rw [if_pos rfl]
      exact ⟨isKey, rfl⟩
  | none => exact ⟨_, List.mem_append_right _ (List.mem_singleton_self _), rfl, rfl⟩

theorem mem_setPermission_of_ne (constraints : Constraints tables) {client : Client} {userId : ℕ+}
    (permissionMeta : PermissionMeta) {permission : Permission}
    (other : (permission.clientId, permission.userId) ≠ (client.id, userId)) :
    permission ∈ (tables.setPermission client userId permissionMeta).permissions ↔
      permission ∈ tables.permissions := by
  unfold Tables.setPermission
  cases found : tables.findPermission client.id userId with
  | some existing =>
      rcases (findPermission_iff constraints).mp found with ⟨member, isKey⟩
      have keepsKey : ∀ old ∈ tables.permissions, old.id = existing.id →
          (old.clientId, old.userId) = (client.id, userId) := by
        intro old oldMember sameId
        rw [constraints.permissionIds.eq_of_key oldMember member sameId]
        exact isKey
      dsimp only [Tables.updatePermissionMeta]
      rw [Rows.mem_update]
      constructor
      · rintro ⟨old, oldMember, isNew⟩
        by_cases sameId : old.id = existing.id
        · rw [if_pos sameId] at isNew
          rw [← isNew] at other
          exact absurd (keepsKey old oldMember sameId) other
        · rw [if_neg sameId] at isNew
          rw [← isNew]
          exact oldMember
      · intro oldMember
        refine ⟨permission, oldMember, if_neg ?_⟩
        intro sameId
        exact other (keepsKey permission oldMember sameId)
  | none =>
      dsimp only [Tables.insertPermission]
      rw [List.mem_append, List.mem_singleton]
      constructor
      · rintro (oldMember | isNew)
        · exact oldMember
        · rw [isNew] at other
          exact absurd rfl other
      · exact .inl

/-- What `upsert` does for a user who is a member. -/
theorem run_upsert {store : Database} {client : Client} {user : User} (canAdmin canWrite canRead : Bool)
    (ofClient : client ∈ store.1.clients)
    (isMember : (store.1.findMembership user.id client.organizationId).isSome) :
    ∃ keeps, (upsert client user canAdmin canWrite canRead).run store =
      (.ok (), ⟨store.1.setPermission client user.id {
        canAdmin := canAdmin, canWrite := canWrite, canRead := canRead
        canSeeExperimentsByOthers := canAdmin || client.allowUsersToSeeExperimentsByOthers }, keeps⟩) := by
  unfold upsert
  rw [Process.run_bind_ok (run_query _ store)]
  cases foundMembership : store.1.findMembership user.id client.organizationId with
  | none =>
      rw [foundMembership] at isMember
      cases isMember
  | some membership =>
      rcases (findMembership_iff store.2).mp foundMembership with ⟨member, isKey⟩
      have ofMembership : ∃ membership ∈ store.1.memberships,
          membership.userId = user.id ∧ membership.organizationId = client.organizationId :=
        ⟨membership, member, Prod.mk.inj isKey⟩
      have keeps := constraints_setPermission store.2 {
        canAdmin := canAdmin, canWrite := canWrite, canRead := canRead
        canSeeExperimentsByOthers := canAdmin || client.allowUsersToSeeExperimentsByOthers } ofClient ofMembership
      unfold Tables.setPermission at keeps ⊢
      dsimp only
      rw [Process.run_bind_ok (run_query _ store)]
      cases found : store.1.findPermission client.id user.id with
      | some permission =>
          rw [found] at keeps
          exact ⟨keeps, run_commit keeps⟩
      | none =>
          rw [found] at keeps
          exact ⟨keeps, run_commit keeps⟩

/-- Fewer permissions never violate a constraint. -/
theorem constraints_filterPermissions (constraints : Constraints tables) (selected : Permission → Bool) :
    Constraints { tables with permissions := tables.permissions.filter selected } :=
  { constraints with
    permissionIds := Rows.keyed_filter constraints.permissionIds selected
    permissions := Rows.keyed_filter constraints.permissions selected
    permissionSequence := fun permission member =>
      constraints.permissionSequence permission (List.mem_of_mem_filter member)
    permissionMembership := fun permission member =>
      constraints.permissionMembership permission (List.mem_of_mem_filter member)
    permissionClient := fun permission member =>
      constraints.permissionClient permission (List.mem_of_mem_filter member) }

/-! ### Invites -/

theorem constraints_clearInviteOrganization (constraints : Constraints tables) (inviteId : ℕ+) :
    Constraints (tables.setInviteOrganization inviteId none) := by
  have updatedInvite : ∀ new ∈ (tables.setInviteOrganization inviteId none).invites, ∃ old ∈ tables.invites,
      new.id = old.id ∧ new.inviter = old.inviter ∧
        (new.organizationId = none ∨ new.organizationId = old.organizationId) := by
    intro new member
    rcases Rows.mem_update.mp member with ⟨old, oldMember, rfl⟩
    refine ⟨old, oldMember, ?_⟩
    split
    · exact ⟨rfl, rfl, .inl rfl⟩
    · exact ⟨rfl, rfl, .inr rfl⟩
  have updatedPending : ∀ new ∈ (tables.setInviteOrganization inviteId none).pendingPermissions,
      ∃ old ∈ tables.pendingPermissions, new.id = old.id ∧ (new.organizationId.isSome → new = old ∧
        ¬∃ invite ∈ tables.invites, invite.id = inviteId ∧
          (invite.id, invite.organizationId) = (old.inviteId, old.organizationId)) := by
    intro new member
    rcases Rows.mem_update.mp member with ⟨old, oldMember, rfl⟩
    refine ⟨old, oldMember, ?_⟩
    split
    · exact ⟨rfl, fun impossible => nomatch impossible⟩
    · rename_i notSelected
      refine ⟨rfl, fun refers => ⟨rfl, fun selected => notSelected ⟨refers, selected⟩⟩⟩
  exact { constraints with
    inviteIds := by
      refine (Rows.keyed_update ?_).mpr constraints.inviteIds
      exact fun _ _ _ => rfl
    inviteEmails := by
      have sublist : ((tables.setInviteOrganization inviteId none).invites.filterMap fun invite =>
          invite.organizationId.map fun organizationId => (organizationId, invite.email)).Sublist
          (tables.invites.filterMap fun invite =>
            invite.organizationId.map fun organizationId => (organizationId, invite.email)) := by
        rw [Tables.setInviteOrganization, Rows.update, List.filterMap_map]
        apply Rows.filterMap_sublist
        intro invite _
        dsimp only [Function.comp]
        split
        · exact .inl rfl
        · exact .inr rfl
      exact constraints.inviteEmails.sublist sublist
    inviteSequence := by
      intro new member
      rcases updatedInvite new member with ⟨old, oldMember, sameId, _⟩
      rw [sameId]
      exact constraints.inviteSequence old oldMember
    inviteOrganization := by
      intro new member organizationId isOrganization
      rcases updatedInvite new member with ⟨old, oldMember, _, _, isNone | same⟩
      · rw [isNone] at isOrganization
        cases isOrganization
      · rw [same] at isOrganization
        exact constraints.inviteOrganization old oldMember organizationId isOrganization
    inviteInviter := by
      intro new member
      rcases updatedInvite new member with ⟨old, oldMember, _, sameInviter, _⟩
      rw [sameInviter]
      exact constraints.inviteInviter old oldMember
    pendingPermissionIds := by
      refine (Rows.keyed_update ?_).mpr constraints.pendingPermissionIds
      exact fun _ _ _ => rfl
    pendingPermissions := by
      refine (Rows.keyed_update ?_).mpr constraints.pendingPermissions
      exact fun _ _ _ => rfl
    pendingPermissionSequence := by
      intro new member
      rcases updatedPending new member with ⟨old, oldMember, sameId, _⟩
      rw [sameId]
      exact constraints.pendingPermissionSequence old oldMember
    pendingPermissionInvite := by
      intro new member organizationId isOrganization
      rcases updatedPending new member with ⟨old, oldMember, _, unchanged⟩
      rcases unchanged (Option.isSome_of_mem isOrganization) with ⟨rfl, notSelected⟩
      rcases constraints.pendingPermissionInvite new oldMember organizationId isOrganization
        with ⟨invite, inviteMember, isInvite, inOrganization⟩
      refine ⟨invite, Rows.mem_update.mpr ⟨invite, inviteMember, if_neg ?_⟩, isInvite, inOrganization⟩
      intro isCleared
      apply notSelected
      refine ⟨invite, inviteMember, isCleared, ?_⟩
      rw [isInvite, inOrganization, Option.mem_def.mp isOrganization]
    pendingPermissionClient := by
      intro new member organizationId isOrganization
      rcases updatedPending new member with ⟨old, oldMember, _, unchanged⟩
      rcases unchanged (Option.isSome_of_mem isOrganization) with ⟨rfl, _⟩
      exact constraints.pendingPermissionClient new oldMember organizationId isOrganization }

theorem constraints_deleteInvites (constraints : Constraints tables) (selected : Invite → Bool) :
    Constraints (tables.deleteInvites selected) :=
  { constraints with
    inviteIds := Rows.keyed_filter constraints.inviteIds _
    inviteEmails := constraints.inviteEmails.sublist (List.filter_sublist.filterMap _)
    inviteSequence := fun invite member => constraints.inviteSequence invite (List.mem_of_mem_filter member)
    inviteOrganization := fun invite member => constraints.inviteOrganization invite (List.mem_of_mem_filter member)
    inviteInviter := fun invite member => constraints.inviteInviter invite (List.mem_of_mem_filter member)
    pendingPermissionIds := Rows.keyed_filter constraints.pendingPermissionIds _
    pendingPermissions := Rows.keyed_filter constraints.pendingPermissions _
    pendingPermissionSequence := fun pending member =>
      constraints.pendingPermissionSequence pending (List.mem_of_mem_filter member)
    pendingPermissionInvite := by
      intro pending member organizationId isOrganization
      rcases List.mem_filter.mp member with ⟨oldMember, notDeleted⟩
      rcases constraints.pendingPermissionInvite pending oldMember organizationId isOrganization
        with ⟨invite, inviteMember, isInvite, inOrganization⟩
      refine ⟨invite, List.mem_filter.mpr ⟨inviteMember, ?_⟩, isInvite, inOrganization⟩
      cases isSelected : selected invite with
      | false => rfl
      | true =>
          have deleted : (tables.invites.any fun other => selected other &&
              decide ((other.id, other.organizationId) = (pending.inviteId, pending.organizationId))) = true := by
            apply List.any_eq_true.mpr
            refine ⟨invite, inviteMember, ?_⟩
            rw [isSelected, isInvite, inOrganization, Option.mem_def.mp isOrganization]
            simp
          rw [deleted, Option.isSome_of_mem isOrganization] at notDeleted
          cases notDeleted
    pendingPermissionClient := fun pending member =>
      constraints.pendingPermissionClient pending (List.mem_of_mem_filter member) }

/-! ### Organizations -/

theorem constraints_deleteMembershipsOf (constraints : Constraints tables) (organizationId : ℕ+) :
    Constraints (tables.deleteMembershipsOf organizationId) :=
  { constraints with
    memberships := Rows.keyed_filter constraints.memberships _
    membershipUser := fun membership member =>
      constraints.membershipUser membership (List.mem_of_mem_filter member)
    membershipOrganization := fun membership member =>
      constraints.membershipOrganization membership (List.mem_of_mem_filter member)
    permissionIds := Rows.keyed_filter constraints.permissionIds _
    permissions := Rows.keyed_filter constraints.permissions _
    permissionSequence := fun permission member =>
      constraints.permissionSequence permission (List.mem_of_mem_filter member)
    permissionMembership := by
      intro permission member
      rcases List.mem_filter.mp member with ⟨oldMember, notDeleted⟩
      rcases constraints.permissionMembership permission oldMember
        with ⟨membership, membershipMember, sameUser, sameOrganization⟩
      refine ⟨membership, List.mem_filter.mpr ⟨membershipMember, decide_eq_true ?_⟩, sameUser, sameOrganization⟩
      intro inOrganization
      have deleted : (tables.memberships.any fun other => decide (other.organizationId = organizationId) &&
          decide ((other.userId, other.organizationId) = (permission.userId, permission.organizationId))) = true := by
        apply List.any_eq_true.mpr
        refine ⟨membership, membershipMember, ?_⟩
        rw [sameUser, sameOrganization, ← sameOrganization, inOrganization]
        simp
      rw [deleted] at notDeleted
      cases notDeleted
    permissionClient := fun permission member =>
      constraints.permissionClient permission (List.mem_of_mem_filter member) }

theorem constraints_markOrganizationDeleted (constraints : Constraints tables) (organizationId : ℕ+) :
    Constraints (tables.markOrganizationDeleted organizationId) := by
  have stillThere : ∀ id : ℕ+, (∃ organization ∈ tables.organizations, organization.id = id) →
      ∃ organization ∈ (tables.markOrganizationDeleted organizationId).organizations, organization.id = id := by
    rintro id ⟨organization, member, isId⟩
    refine ⟨_, Rows.mem_update.mpr ⟨organization, member, rfl⟩, ?_⟩
    split <;> exact isId
  exact { constraints with
    organizationIds := by
      refine (Rows.keyed_update ?_).mpr constraints.organizationIds
      exact fun _ _ _ => rfl
    clientOrganization := fun client member => stillThere _ (constraints.clientOrganization client member)
    membershipOrganization := fun membership member =>
      stillThere _ (constraints.membershipOrganization membership member)
    inviteOrganization := fun invite member organizationId isOrganization =>
      stillThere _ (constraints.inviteOrganization invite member organizationId isOrganization) }

/-! ### Clients -/

/-- The cascade reaches the permissions on the client. -/
theorem moveClient_permissions (constraints : Constraints tables) (clientId organizationId : ℕ+) :
    (tables.moveClient clientId organizationId).permissions =
      Rows.update (fun permission => permission.clientId = clientId)
        (Permission.inOrganization organizationId) tables.permissions := by
  rw [Tables.moveClient, Rows.update, Rows.update]
  apply List.map_congr_left
  intro permission member
  have selected : (∃ client ∈ tables.clients, client.id = clientId ∧
      (client.id, client.organizationId) = (permission.clientId, permission.organizationId)) ↔
        permission.clientId = clientId := by
    constructor
    · rintro ⟨client, _, isClient, sameKey⟩
      rw [← (Prod.mk.inj sameKey).1, isClient]
    · intro onClient
      rcases constraints.permissionClient permission member with ⟨client, clientMember, isClient, inOrganization⟩
      refine ⟨client, clientMember, isClient.trans onClient, ?_⟩
      rw [isClient, inOrganization]
  by_cases onClient : permission.clientId = clientId
  · rw [if_pos (selected.mpr onClient), if_pos onClient]
  · rw [if_neg fun isSelected => onClient (selected.mp isSelected), if_neg onClient]

/-- A client can move if its users are members of the organization and no pending permission keeps it where it
    is. -/
theorem constraints_moveClient (constraints : Constraints tables) {clientId organizationId : ℕ+}
    (exists_organization : ∃ organization ∈ tables.organizations, organization.id = organizationId)
    (members : ∀ permission ∈ tables.permissions, permission.clientId = clientId →
      ∃ membership ∈ tables.memberships,
        membership.userId = permission.userId ∧ membership.organizationId = organizationId)
    (notPending : ∀ pending ∈ tables.pendingPermissions, pending.clientId = clientId →
      ∀ other ∈ pending.organizationId, other = organizationId) :
    Constraints (tables.moveClient clientId organizationId) := by
  have isRows := moveClient_permissions constraints clientId organizationId
  have updated : ∀ new ∈ (tables.moveClient clientId organizationId).permissions, ∃ old ∈ tables.permissions,
      new.id = old.id ∧ new.clientId = old.clientId ∧ new.userId = old.userId ∧
        new.organizationId = if old.clientId = clientId then organizationId else old.organizationId := by
    intro new member
    rw [isRows] at member
    rcases Rows.mem_update.mp member with ⟨old, oldMember, rfl⟩
    refine ⟨old, oldMember, ?_⟩
    split <;> exact ⟨rfl, rfl, rfl, rfl⟩
  exact { constraints with
    clientIds := by
      refine (Rows.keyed_update ?_).mpr constraints.clientIds
      exact fun _ _ _ => rfl
    permissionIds := by
      rw [isRows]
      refine (Rows.keyed_update ?_).mpr constraints.permissionIds
      exact fun _ _ _ => rfl
    permissions := by
      rw [isRows]
      refine (Rows.keyed_update ?_).mpr constraints.permissions
      exact fun _ _ _ => rfl
    permissionSequence := by
      intro new member
      rcases updated new member with ⟨old, oldMember, sameId, _⟩
      rw [sameId]
      exact constraints.permissionSequence old oldMember
    clientOrganization := by
      intro new member
      rcases Rows.mem_update.mp member with ⟨old, oldMember, rfl⟩
      split
      · exact exists_organization
      · exact constraints.clientOrganization old oldMember
    permissionMembership := by
      intro new member
      rcases updated new member with ⟨old, oldMember, _, _, sameUser, inOrganization⟩
      rw [sameUser, inOrganization]
      split
      · rename_i onClient
        exact members old oldMember onClient
      · exact constraints.permissionMembership old oldMember
    permissionClient := by
      intro new member
      rcases updated new member with ⟨old, oldMember, _, sameClient, _, inOrganization⟩
      rcases constraints.permissionClient old oldMember with ⟨client, clientMember, isClient, inSame⟩
      refine ⟨_, Rows.mem_update.mpr ⟨client, clientMember, rfl⟩, ?_⟩
      rw [sameClient, inOrganization]
      by_cases onClient : old.clientId = clientId
      · rw [if_pos (isClient.trans onClient), if_pos onClient]
        exact ⟨isClient, rfl⟩
      · rw [if_neg fun isMoved => onClient (isClient.symm.trans isMoved), if_neg onClient]
        exact ⟨isClient, inSame⟩
    pendingPermissionClient := by
      intro pending member other isOther
      rcases constraints.pendingPermissionClient pending member other isOther with ⟨client, clientMember, isClient, inOther⟩
      refine ⟨_, Rows.mem_update.mpr ⟨client, clientMember, rfl⟩, ?_⟩
      by_cases isMoved : client.id = clientId
      · rw [if_pos isMoved]
        exact ⟨isClient, (notPending pending member (isClient.symm.trans isMoved) other isOther).symm⟩
      · rw [if_neg isMoved]
        exact ⟨isClient, inOther⟩ }

end Zigopt.Organizations
