/-
Module: Zigopt.Organizations.Privacy
Layer: Proofs
Purpose: The flag of a permission that lets its user see the experiments of others is a copy of the setting of the
  client. Every operation on permissions keeps the copies right, except for moving a permission to a client with
  another setting: the flags are moved along as they are.
Main exports: PermissionOperation, perform, FlagsFollow, MovesAlike, privacy_follows, privacy_not_followed
-/
import Zigopt.Organizations.Merge

namespace Zigopt.Organizations

/-! ### The operations -/

namespace Tables

/-- `update_security`. -/
def updateSecurity (tables : Tables) (clientId : ℕ+) (allow : Bool) : Tables :=
  { tables with
    clients := Rows.update (fun client => client.id = clientId)
      (fun client => { client with allowUsersToSeeExperimentsByOthers := allow }) tables.clients }

/-- `update_privacy_for_client`: the permissions of admins are left out. -/
def updatePrivacyForClient (tables : Tables) (clientId : ℕ+) (allow : Bool) : Tables :=
  { tables with
    permissions := Rows.update
      (fun permission => permission.permissionMeta.canAdmin = false ∧ permission.clientId = clientId)
      (fun permission => { permission with
        permissionMeta := { permission.permissionMeta with canSeeExperimentsByOthers := allow } })
      tables.permissions }

end Tables

/-- The `client_security` of a client update. -/
def updateClientSecurity (clientId : ℕ+) (allow : Bool) : OrganizationProcess Unit := do
  match ← query fun tables => tables.findClient clientId with
  | none => .raised (.notFound s!"Client {(clientId : ℕ)} was not found")
  | some client => do
      commit fun tables => tables.updateSecurity client.id allow
      commit fun tables => tables.updatePrivacyForClient client.id allow

/-- The operations that write a permission row or a client's setting. -/
inductive PermissionOperation where
  | setRole (role : Role) (clientId userId : ℕ+)
  | updateClientSecurity (clientId : ℕ+) (allow : Bool)
  | migrateClient (clientId userId newClientId : ℕ+)
  | mergeOrganizations (destOrganizationId : ℕ+) (organizationIds : List ℕ+)
  | acceptInvites (userId : ℕ+)
  | deletePermission (clientId userId : ℕ+)

/-- The operations, with the rows that they are called with. -/
def perform (calls : EmailCalls) : PermissionOperation → OrganizationProcess Unit
  | .setRole role clientId userId => do
      match ← query fun tables => tables.findClient clientId, ← query fun tables => tables.findUser userId with
      | some client, some user => upsertFromRole role client user
      | _, _ => .raised (.notFound "")
  | .updateClientSecurity clientId allow => updateClientSecurity clientId allow
  | .migrateClient clientId userId newClientId => do
      match ← query fun tables => tables.findPermission clientId userId with
      | some permission => migrateClient permission newClientId
      | none => .raised (.notFound "")
  | .mergeOrganizations destOrganizationId organizationIds =>
      mergeOrganizationsIntoDestination destOrganizationId organizationIds
  | .acceptInvites userId => do
      match ← query fun tables => tables.findUser userId with
      | none => .raised (.notFound "")
      | some user => do
          let invites ← query fun tables => findValidInvites tables user.email
          createMembershipsAndPermissionsFromInvites calls user (← .ofExcept invites)
  | .deletePermission clientId userId => commit fun tables => tables.deletePermission clientId userId

/-! ### Flags that follow the setting -/

/-- A permission can see the experiments of others if it is one of an admin, or if its client lets everyone. -/
def FlagsFollow (tables : Tables) : Prop :=
  ∀ permission ∈ tables.permissions, ∀ client ∈ tables.clients, client.id = permission.clientId →
    permission.permissionMeta.canSeeExperimentsByOthers =
      (permission.permissionMeta.canAdmin || client.allowUsersToSeeExperimentsByOthers)

instance (tables : Tables) : Decidable (FlagsFollow tables) :=
  inferInstanceAs (Decidable (∀ permission ∈ tables.permissions, ∀ client ∈ tables.clients, _ → _))

/-- A permission that is moved, and not just deleted, is one of an admin, or both clients have the same setting. -/
def MovesAlike (tables : Tables) : PermissionOperation → Prop
  | .migrateClient clientId userId newClientId =>
      ∀ permission, tables.findPermission clientId userId = some permission →
        ∀ newClient, tables.findClient newClientId = some newClient →
          (∀ other ∈ tables.permissions, other.clientId = newClientId → other.userId ≠ userId) →
            permission.permissionMeta.canAdmin = true ∨ ∀ client ∈ tables.clients, client.id = clientId →
              client.allowUsersToSeeExperimentsByOthers = newClient.allowUsersToSeeExperimentsByOthers
  | _ => True

/-! ### Statements -/

section Statements

variable {before after : Tables}

/-- Rows that may be fewer, but whose flags and settings are as they were. -/
theorem FlagsFollow.of_rows (follows : FlagsFollow before)
    (permissions : ∀ permission ∈ after.permissions, ∃ old ∈ before.permissions,
      old.clientId = permission.clientId ∧ old.permissionMeta = permission.permissionMeta)
    (clients : ∀ client ∈ after.clients, ∃ old ∈ before.clients, old.id = client.id ∧
      old.allowUsersToSeeExperimentsByOthers = client.allowUsersToSeeExperimentsByOthers) : FlagsFollow after := by
  intro permission isPermission client isClient ofClient
  obtain ⟨old, isOld, sameClient, sameMeta⟩ := permissions permission isPermission
  obtain ⟨oldClient, isOldClient, sameId, sameSetting⟩ := clients client isClient
  rw [← sameMeta, ← sameSetting]
  exact follows old isOld oldClient isOldClient (sameId.trans (ofClient.trans sameClient.symm))

/-- Permissions are deleted. -/
theorem FlagsFollow.of_subset (follows : FlagsFollow before)
    (fewer : ∀ permission ∈ after.permissions, permission ∈ before.permissions)
    (sameClients : after.clients = before.clients) : FlagsFollow after := by
  apply follows.of_rows
  · intro permission isPermission
    exact ⟨permission, fewer permission isPermission, rfl, rfl⟩
  · intro client isClient
    exact ⟨client, sameClients ▸ isClient, rfl, rfl⟩

theorem FlagsFollow.deletePermission (follows : FlagsFollow before) (clientId userId : ℕ+) :
    FlagsFollow (before.deletePermission clientId userId) :=
  follows.of_subset (fun _ member => List.mem_of_mem_filter member) rfl

theorem FlagsFollow.deletePermissionsIn (follows : FlagsFollow before) (organizationId userId : ℕ+) :
    FlagsFollow (before.deletePermissionsIn organizationId userId) :=
  follows.of_subset (fun _ member => List.mem_of_mem_filter member) rfl

/-- Deleting memberships touches no permission. -/
theorem FlagsFollow.deleteMembershipsOf (follows : FlagsFollow before) (organizationId : ℕ+) :
    FlagsFollow (before.deleteMembershipsOf organizationId) :=
  follows.of_subset (fun _ member => List.mem_of_mem_filter member) rfl

/-- A client that moves keeps its setting, and the permissions their flags. -/
theorem FlagsFollow.moveClient (follows : FlagsFollow before) (clientId organizationId : ℕ+) :
    FlagsFollow (before.moveClient clientId organizationId) := by
  apply follows.of_rows
  · intro permission isPermission
    obtain ⟨old, isOld, rfl⟩ := Rows.mem_update.mp isPermission
    refine ⟨old, isOld, ?_⟩
    split <;> exact ⟨rfl, rfl⟩
  · intro client isClient
    obtain ⟨old, isOld, rfl⟩ := Rows.mem_update.mp isClient
    refine ⟨old, isOld, ?_⟩
    split <;> exact ⟨rfl, rfl⟩

/-- The meta that `upsert` writes. -/
def roleMeta (client : Client) (canAdmin canWrite canRead : Bool) : PermissionMeta where
  canAdmin := canAdmin
  canWrite := canWrite
  canRead := canRead
  canSeeExperimentsByOthers := canAdmin || client.allowUsersToSeeExperimentsByOthers

/-- A permission is written for a client as it is stored, or for an admin. -/
theorem FlagsFollow.written (constraints : Constraints before) {client : Client} {canAdmin canWrite canRead : Bool}
    (stored : canAdmin = true ∨ client ∈ before.clients) {other : Client} (isClient : other ∈ before.clients)
    (sameId : other.id = client.id) :
    (roleMeta client canAdmin canWrite canRead).canSeeExperimentsByOthers =
      ((roleMeta client canAdmin canWrite canRead).canAdmin || other.allowUsersToSeeExperimentsByOthers) := by
  rcases stored with admin | isStored
  · rw [roleMeta, admin, Bool.true_or, Bool.true_or]
  · rw [constraints.clientIds.eq_of_key isClient isStored sameId, roleMeta]

theorem FlagsFollow.updatePermissionMeta (follows : FlagsFollow before) (constraints : Constraints before)
    {client : Client} {userId : ℕ+} {permission : Permission}
    (found : before.findPermission client.id userId = some permission) {canAdmin canWrite canRead : Bool}
    (stored : canAdmin = true ∨ client ∈ before.clients) :
    FlagsFollow (before.updatePermissionMeta permission.id (roleMeta client canAdmin canWrite canRead)) := by
  obtain ⟨isFound, isKey⟩ := (findPermission_iff constraints).mp found
  intro new isNew other isClient ofClient
  obtain ⟨old, isOld, rfl⟩ := Rows.mem_update.mp isNew
  by_cases sameId : old.id = permission.id
  · have same := constraints.permissionIds.eq_of_key isOld isFound sameId
    rw [if_pos sameId] at ofClient ⊢
    rw [same] at ofClient
    exact FlagsFollow.written constraints stored isClient (ofClient.trans (Prod.mk.inj isKey).1)
  · rw [if_neg sameId] at ofClient ⊢
    exact follows old isOld other isClient ofClient

theorem FlagsFollow.insertPermission (follows : FlagsFollow before) (constraints : Constraints before)
    {client : Client} {userId : ℕ+} {canAdmin canWrite canRead : Bool}
    (stored : canAdmin = true ∨ client ∈ before.clients) :
    FlagsFollow (before.insertPermission client.id client.organizationId userId
      (roleMeta client canAdmin canWrite canRead)) := by
  intro permission isPermission other isClient ofClient
  rcases List.mem_append.mp isPermission with isOld | isNew
  · exact follows permission isOld other isClient ofClient
  · rw [List.mem_singleton.mp isNew] at ofClient ⊢
    exact FlagsFollow.written constraints stored isClient ofClient

/-- After the setting of a client has been changed, its permissions are all that do not follow. -/
theorem FlagsFollow.updateSecurity (follows : FlagsFollow before) (clientId : ℕ+) (allow : Bool) :
    FlagsFollow ((before.updateSecurity clientId allow).updatePrivacyForClient clientId allow) := by
  intro permission isPermission client isClient ofClient
  obtain ⟨old, isOld, rfl⟩ := Rows.mem_update.mp isPermission
  obtain ⟨oldClient, isOldClient, rfl⟩ := Rows.mem_update.mp isClient
  have oldFollows := follows old isOld oldClient isOldClient
  have sameId : (if oldClient.id = clientId then
      { oldClient with allowUsersToSeeExperimentsByOthers := allow } else oldClient).id = oldClient.id := by
    split <;> rfl
  rw [sameId] at ofClient
  by_cases written : old.permissionMeta.canAdmin = false ∧ old.clientId = clientId
  · rw [if_pos written] at ofClient ⊢
    rw [if_pos (ofClient.trans written.2)]
    simp [written.1]
  · rw [if_neg written] at ofClient ⊢
    by_cases sameClient : oldClient.id = clientId
    · have admin : old.permissionMeta.canAdmin = true := by
        by_contra notAdmin
        exact written ⟨Bool.eq_false_of_not_eq_true notAdmin, ofClient.symm.trans sameClient⟩
      rw [oldFollows ofClient, admin, Bool.true_or, Bool.true_or]
    · rw [if_neg sameClient]
      exact oldFollows ofClient

end Statements

theorem constraints_updatePrivacyForClient {tables : Tables} (constraints : Constraints tables) (clientId : ℕ+)
    (allow : Bool) : Constraints (tables.updatePrivacyForClient clientId allow) :=
  constraints_updateMetas constraints _ _

/-! ### Processes -/

section Processes

/-- The flags follow, whether the process comes to its end or not. -/
def Keeps {α : Type} (process : OrganizationProcess α) : Prop :=
  Process.Ensures (fun store : Database => FlagsFollow store.1) process (fun _ store => FlagsFollow store.1)
    fun store => FlagsFollow store.1

theorem keeps_raised {α : Type} (failure : OrganizationError) :
    Keeps (.raised failure : OrganizationProcess α) :=
  Process.ensures_raised fun _ follows => follows

theorem keeps_returned {α : Type} (value : α) : Keeps (.returned value : OrganizationProcess α) :=
  Process.ensures_returned fun _ follows => follows

theorem keeps_query {α : Type} (view : Tables → α) : Keeps (query view) := ensures_query_keeping view

theorem keeps_commit {change : Tables → Tables} (keeps : ∀ tables, FlagsFollow tables → FlagsFollow (change tables)) :
    Keeps (commit change) :=
  ensures_commit_keeping keeps

/-- What does not depend on the memberships. -/
theorem ensures_createIfNotExists_keeping {good : Tables → Prop}
    (beside : ∀ tables membership, good tables → good (tables.insertMembership membership))
    (userId organizationId : ℕ+) (membershipType : Option MembershipType) :
    Process.Ensures (fun store : Database => good store.1) (createIfNotExists userId organizationId membershipType)
      (fun _ store => good store.1) fun store => good store.1 := by
  apply (ensures_query_keeping _).bind
  intro found
  cases found with
  | some existing => exact Process.ensures_returned fun _ holds => holds
  | none =>
      have inserted : Process.Ensures (fun store : Database => good store.1)
          (commit fun tables => tables.insertMembership {
            userId := userId, organizationId := organizationId, membershipType := membershipType.getD .member })
          (fun _ store => good store.1) fun store => good store.1 :=
        ensures_commit_keeping fun tables holds => beside tables _ holds
      apply inserted.bind
      intro _
      exact Process.ensures_returned fun _ holds => holds

theorem keeps_createIfNotExists (userId organizationId : ℕ+) (membershipType : Option MembershipType) :
    Keeps (createIfNotExists userId organizationId membershipType) :=
  ensures_createIfNotExists_keeping (fun _ _ follows => follows) userId organizationId membershipType

/-- The permission of a client as it is stored, or of an admin. -/
theorem ensures_upsert {client : Client} {user : User} {canAdmin canWrite canRead : Bool} :
    Process.Ensures (fun store : Database => FlagsFollow store.1 ∧ (canAdmin = true ∨ client ∈ store.1.clients))
      (upsert client user canAdmin canWrite canRead) (fun _ store => FlagsFollow store.1)
      fun store => FlagsFollow store.1 := by
  apply Process.ensures_read.bind
  intro membership
  cases membership with
  | none => exact Process.ensures_raised fun _ holds => holds.1.1
  | some membership =>
      apply Process.ensures_read.bind
      intro found
      cases found with
      | some permission =>
          apply Process.ensures_commit
          · intro store holds _
            obtain ⟨⟨⟨follows, stored⟩, _⟩, isFound⟩ := holds
            exact follows.updatePermissionMeta store.2 isFound.symm stored
          · exact fun _ holds _ => holds.1.1.1
      | none =>
          apply Process.ensures_commit
          · intro store holds _
            obtain ⟨⟨⟨follows, stored⟩, _⟩, _⟩ := holds
            exact follows.insertPermission store.2 stored
          · exact fun _ holds _ => holds.1.1.1

theorem ensures_upsertFromRole {role : Role} {client : Client} {user : User} :
    Process.Ensures (fun store : Database => FlagsFollow store.1 ∧ client ∈ store.1.clients)
      (upsertFromRole role client user) (fun _ store => FlagsFollow store.1) fun store => FlagsFollow store.1 := by
  have stored : ∀ canAdmin : Bool, ∀ store : Database, FlagsFollow store.1 ∧ client ∈ store.1.clients →
      FlagsFollow store.1 ∧ (canAdmin = true ∨ client ∈ store.1.clients) :=
    fun _ _ holds => ⟨holds.1, Or.inr holds.2⟩
  cases role with
  | admin => exact ensures_upsert.imp (stored true) (fun _ _ follows => follows) fun _ follows => follows
  | user => exact ensures_upsert.imp (stored false) (fun _ _ follows => follows) fun _ follows => follows
  | readOnly => exact ensures_upsert.imp (stored false) (fun _ _ follows => follows) fun _ follows => follows
  | uninvited => exact Process.ensures_raised fun _ holds => holds.1

theorem keeps_promote (client : Client) (user : User) : Keeps (upsertFromRole .admin client user) :=
  ensures_upsert.imp (fun _ follows => ⟨follows, Or.inl rfl⟩) (fun _ _ follows => follows) fun _ follows => follows

/-- A client that was looked up right before its permission is written. -/
theorem ensures_foundClient {clientId : ℕ+} {found : Option Client} {store : Database}
    (holds : FlagsFollow store.1 ∧ found = store.1.findClient clientId) {client : Client} (isFound : found = some client) :
    FlagsFollow store.1 ∧ client ∈ store.1.clients := by
  rw [isFound] at holds
  exact ⟨holds.1, ((findClient_iff store.2).mp holds.2.symm).1⟩

theorem keeps_acceptPendingPermission (user : User) (pending : PendingPermission) :
    Keeps (acceptPendingPermission user pending) := by
  apply Process.ensures_read.bind
  intro found
  cases found with
  | none => exact Process.ensures_raised fun _ holds => holds.1
  | some client =>
      exact ensures_upsertFromRole.imp (fun _ holds => ensures_foundClient holds rfl) (fun _ _ follows => follows)
        fun _ follows => follows

theorem keeps_acceptInvite (calls : EmailCalls) (user : User) (invite : Invite) :
    Keeps (acceptInvite calls user invite) := by
  apply (keeps_query _).bind
  intro organization
  cases organization with
  | none => exact keeps_returned ()
  | some organization =>
      apply (keeps_query _).bind
      intro inviter
      split
      · apply (keeps_createIfNotExists _ _ _).bind
        intro _
        apply (keeps_query _).bind
        intro pendingPermissions
        exact ensures_forM_keeping fun pending _ => keeps_acceptPendingPermission user pending
      · exact keeps_returned ()

theorem keeps_ofExcept {α : Type} (result : Except OrganizationError α) :
    Keeps (Process.ofExcept result : OrganizationProcess α) :=
  (Process.silent_ofExcept result).ensures

theorem keeps_acceptInvites (calls : EmailCalls) (user : User) (invites : List Invite) :
    Keeps (createMembershipsAndPermissionsFromInvites calls user invites) := by
  apply (keeps_query _).bind
  intro validInvites
  apply (keeps_ofExcept validInvites).bind
  intro valid
  split
  · exact ensures_forM_keeping fun invite _ => keeps_acceptInvite calls user invite
  · exact keeps_raised _

theorem keeps_mergePermissions (clients : List Client) (membership destinationMembership : Membership) :
    Keeps (mergePermissions clients membership destinationMembership) := by
  have rest : Keeps (if !membership.isOwner && destinationMembership.isOwner then
      commit fun tables => tables.deletePermissionsIn membership.organizationId membership.userId else pure ()) := by
    split
    · exact keeps_commit fun _ follows => follows.deletePermissionsIn _ _
    · exact keeps_returned ()
  unfold mergePermissions
  dsimp only
  by_cases promoting : (membership.isOwner && !destinationMembership.isOwner) = true
  · rw [if_pos promoting]
    apply (keeps_query _).bind
    intro found
    cases found with
    | none => exact keeps_raised _
    | some user =>
        have promoted : Keeps (clients.forM (upsertFromRole .admin · user)) :=
          ensures_forM_keeping fun client _ => keeps_promote client user
        apply promoted.bind
        intro _
        exact rest
  · rw [if_neg promoting]
    exact rest

theorem keeps_mergeMembership (destOrganization : Organization) (clients : List Client) (membership : Membership) :
    Keeps (mergeMembershipIntoDestination destOrganization clients membership) := by
  apply (keeps_createIfNotExists _ _ _).bind
  intro _
  apply (keeps_query _).bind
  intro found
  cases found with
  | none => exact keeps_returned ()
  | some destinationMembership => exact keeps_mergePermissions clients membership destinationMembership

theorem keeps_mergeInvite (destOrganization : Organization) (invite : Invite) :
    Keeps (mergeInvite destOrganization invite) := by
  have moved : Keeps (moveInvite destOrganization invite) := by
    apply (keeps_query _).bind
    intro found
    cases found with
    | some _ => exact keeps_commit fun _ follows => follows
    | none => exact keeps_commit fun _ follows => follows
  apply moved.bind
  intro _
  apply (keeps_query _).bind
  intro pendingPermissions
  exact ensures_forM_keeping fun pending _ => keeps_commit fun _ follows => follows

theorem keeps_deleteOrganization (organizationId : ℕ+) : Keeps (deleteOrganization organizationId) := by
  have invitesDeleted : Keeps (commit fun tables =>
      tables.deleteInvites fun invite => invite.organizationId = some organizationId) :=
    keeps_commit fun _ follows => follows
  apply invitesDeleted.bind
  intro _
  apply (keeps_commit fun _ follows => follows.deleteMembershipsOf organizationId).bind
  intro _
  exact keeps_commit fun _ follows => follows

theorem keeps_mergeOrganization (destOrganization : Organization) (organizationId : ℕ+) :
    Keeps (mergeOrganization destOrganization organizationId) := by
  apply (keeps_query _).bind
  intro clients
  apply (keeps_query _).bind
  intro memberships
  have membershipsMerged : Keeps (mergeMembershipsIntoDestination destOrganization memberships clients) :=
    ensures_forM_keeping fun membership _ => keeps_mergeMembership destOrganization clients membership
  apply membershipsMerged.bind
  intro _
  apply (keeps_query _).bind
  intro invites
  have invitesCleared : Keeps (invites.forM fun invite =>
      commit fun tables => tables.setInviteOrganization invite.id none) :=
    ensures_forM_keeping fun invite _ => keeps_commit fun _ follows => follows
  apply invitesCleared.bind
  intro _
  have clientsMoved : Keeps (clients.forM fun client =>
      commit fun tables => tables.moveClient client.id destOrganization.id) :=
    ensures_forM_keeping fun client _ => keeps_commit fun _ follows => follows.moveClient _ _
  apply clientsMoved.bind
  intro _
  have invitesMerged : Keeps (invites.forM (mergeInvite destOrganization)) :=
    ensures_forM_keeping fun invite _ => keeps_mergeInvite destOrganization invite
  apply invitesMerged.bind
  intro _
  apply (keeps_commit fun _ follows => follows.deleteMembershipsOf organizationId).bind
  intro _
  exact keeps_deleteOrganization organizationId

theorem keeps_mergeOrganizations (destOrganizationId : ℕ+) (organizationIds : List ℕ+) :
    Keeps (mergeOrganizationsIntoDestination destOrganizationId organizationIds) := by
  apply (keeps_query _).bind
  intro found
  cases found with
  | none => exact keeps_raised _
  | some destOrganization =>
      exact ensures_forM_keeping fun organizationId _ => keeps_mergeOrganization destOrganization organizationId

/-- The new setting is written to the client first; the copies do not follow until they are written as well, and nothing
    stands against that. -/
theorem keeps_updateClientSecurity (clientId : ℕ+) (allow : Bool) : Keeps (updateClientSecurity clientId allow) := by
  apply Process.ensures_read.bind
  intro found
  cases found with
  | none => exact Process.ensures_raised fun _ holds => holds.1
  | some client =>
      have written : Process.Ensures (fun store : Database => FlagsFollow store.1)
          (commit fun tables => tables.updateSecurity client.id allow)
          (fun _ store => FlagsFollow (store.1.updatePrivacyForClient client.id allow))
          fun store => FlagsFollow store.1 :=
        Process.ensures_commit (fun _ follows _ => follows.updateSecurity client.id allow) fun _ follows _ => follows
      apply (written.imp (fun _ holds => holds.1) (fun _ _ holds => holds) fun _ holds => holds).bind
      intro _
      apply Process.ensures_commit_of
      · intro store _
        exact constraints_updatePrivacyForClient store.2 client.id allow
      · intro _ follows _
        exact follows

/-- A permission that can be moved to the client. -/
structure MovesTo (permission : Permission) (newClient : Client) (tables : Tables) : Prop where
  follows : FlagsFollow tables
  isPermission : permission ∈ tables.permissions
  isClient : newClient ∈ tables.clients
  alike : permission.permissionMeta.canAdmin = true ∨ ∀ client ∈ tables.clients, client.id = permission.clientId →
    client.allowUsersToSeeExperimentsByOthers = newClient.allowUsersToSeeExperimentsByOthers

theorem MovesTo.upsertPermission {permission : Permission} {newClient : Client} {tables : Tables}
    (moves : MovesTo permission newClient tables) (constraints : Constraints tables) :
    FlagsFollow (tables.upsertPermission
      { permission with clientId := newClient.id, organizationId := newClient.organizationId }) := by
  have stored : (tables.permissions.any fun other => other.id = permission.id) = true :=
    List.any_eq_true.mpr ⟨permission, moves.isPermission, decide_eq_true rfl⟩
  obtain ⟨client, isClient, isOld, _⟩ := constraints.permissionClient permission moves.isPermission
  have ownFlag := moves.follows permission moves.isPermission client isClient isOld
  intro new isNew other isOther ofOther
  simp only [Tables.upsertPermission, stored, if_true] at isNew
  obtain ⟨old, isOldRow, rfl⟩ := Rows.mem_update.mp isNew
  by_cases moved : old.id = permission.id
  · rw [if_pos moved] at ofOther ⊢
    rw [constraints.clientIds.eq_of_key isOther moves.isClient ofOther]
    rcases moves.alike with admin | sameSetting
    · rw [admin, Bool.true_or] at ownFlag
      rw [ownFlag, admin, Bool.true_or]
    · rw [ownFlag, sameSetting client isClient isOld]
  · rw [if_neg moved] at ofOther ⊢
    exact moves.follows old isOldRow other isOther ofOther

/-- The permission that is moved keeps its flags: they follow if it is one of an admin, or the settings are the same. -/
theorem ensures_migrateClient {permission : Permission} {newClientId : ℕ+} :
    Process.Ensures
      (fun store : Database => FlagsFollow store.1 ∧ permission ∈ store.1.permissions ∧
        ∀ newClient, store.1.findClient newClientId = some newClient →
          (∀ other ∈ store.1.permissions, other.clientId = newClientId → other.userId ≠ permission.userId) →
            permission.permissionMeta.canAdmin = true ∨
              ∀ client ∈ store.1.clients, client.id = permission.clientId →
                client.allowUsersToSeeExperimentsByOthers = newClient.allowUsersToSeeExperimentsByOthers)
      (migrateClient permission newClientId) (fun _ store => FlagsFollow store.1) fun store => FlagsFollow store.1 := by
  have deleted : Keeps (commit fun tables => tables.deletePermission permission.clientId permission.userId) :=
    keeps_commit fun _ follows => follows.deletePermission _ _
  apply Process.ensures_read.bind
  intro clientPermissions
  apply Process.ensures_read.bind
  intro found
  cases found with
  | none => exact Process.ensures_raised fun _ holds => holds.1.1.1
  | some newClient =>
      dsimp only
      split
      · exact deleted.imp (fun _ holds => holds.1.1.1) (fun _ _ follows => follows) fun _ follows => follows
      · rename_i notThere
        have created : Process.Ensures (fun store : Database => MovesTo permission newClient store.1)
            (createIfNotExists permission.userId newClient.organizationId none)
            (fun _ store => MovesTo permission newClient store.1) fun store => MovesTo permission newClient store.1 :=
          ensures_createIfNotExists_keeping (fun _ _ moves => ⟨moves.follows, moves.isPermission, moves.isClient, moves.alike⟩)
            _ _ _
        have moved : Process.Ensures (fun store : Database => MovesTo permission newClient store.1)
            (commit fun tables => tables.upsertPermission
              { permission with clientId := newClient.id, organizationId := newClient.organizationId })
            (fun _ store => FlagsFollow store.1) fun store => FlagsFollow store.1 :=
          Process.ensures_commit (fun store moves _ => moves.upsertPermission store.2) fun _ moves _ => moves.follows
        apply (created.imp ?_ (fun _ _ moves => moves) fun _ moves => moves.follows).bind
        · intro _
          apply moved.bind
          intro _
          exact deleted
        · intro store holds
          obtain ⟨⟨⟨follows, isPermission, alike⟩, isRead⟩, isFound⟩ := holds
          refine ⟨follows, isPermission, ((findClient_iff store.2).mp isFound.symm).1, alike newClient isFound.symm ?_⟩
          intro other isOther ofNewClient sameUser
          apply notThere
          rw [isRead]
          exact List.any_eq_true.mpr ⟨other, List.mem_filter.mpr ⟨isOther, decide_eq_true ofNewClient⟩,
            decide_eq_true sameUser⟩

/-- An operation whose moves are alike keeps the flags right. -/
theorem ensures_perform (calls : EmailCalls) (operation : PermissionOperation) :
    Process.Ensures (fun store : Database => FlagsFollow store.1 ∧ MovesAlike store.1 operation)
      (perform calls operation) (fun _ store => FlagsFollow store.1) fun store => FlagsFollow store.1 := by
  have always : ∀ {process : OrganizationProcess Unit}, Keeps process →
      Process.Ensures (fun store : Database => FlagsFollow store.1 ∧ MovesAlike store.1 operation) process
        (fun _ store => FlagsFollow store.1) fun store => FlagsFollow store.1 :=
    fun keeps => keeps.imp (fun _ holds => holds.1) (fun _ _ follows => follows) fun _ follows => follows
  cases operation with
  | setRole role clientId userId =>
      apply Process.ensures_read.bind
      intro found
      apply Process.ensures_read.bind
      intro user
      cases found with
      | none => exact Process.ensures_raised fun _ holds => holds.1.1.1
      | some client =>
          cases user with
          | none => exact Process.ensures_raised fun _ holds => holds.1.1.1
          | some user =>
              exact ensures_upsertFromRole.imp
                (fun _ holds => ensures_foundClient ⟨holds.1.1.1, holds.1.2⟩ rfl) (fun _ _ follows => follows)
                fun _ follows => follows
  | updateClientSecurity clientId allow => exact always (keeps_updateClientSecurity clientId allow)
  | migrateClient clientId userId newClientId =>
      apply Process.ensures_read.bind
      intro found
      cases found with
      | none => exact Process.ensures_raised fun _ holds => holds.1.1
      | some permission =>
          apply ensures_migrateClient.imp ?_ (fun _ _ follows => follows) fun _ follows => follows
          intro store holds
          obtain ⟨⟨follows, alike⟩, isFound⟩ := holds
          obtain ⟨isPermission, isKey⟩ := (findPermission_iff store.2).mp isFound.symm
          obtain ⟨isClient, isUser⟩ := Prod.mk.inj isKey
          refine ⟨follows, isPermission, ?_⟩
          intro newClient found notThere
          rw [isUser] at notThere
          rw [isClient]
          exact alike permission isFound.symm newClient found notThere
  | mergeOrganizations destOrganizationId organizationIds =>
      exact always (keeps_mergeOrganizations destOrganizationId organizationIds)
  | acceptInvites userId =>
      apply always
      apply (keeps_query _).bind
      intro found
      cases found with
      | none => exact keeps_raised _
      | some user =>
          apply (keeps_query _).bind
          intro invites
          apply (keeps_ofExcept invites).bind
          intro valid
          exact keeps_acceptInvites calls user valid
  | deletePermission clientId userId => exact always (keeps_commit fun _ follows => follows.deletePermission _ _)

end Processes

/-! ### Main results -/

/-- A sequence of operations, each with the state it leaves, whether it raises or not. -/
def PermissionRun (calls : EmailCalls) : Database → List (PermissionOperation × Database) → Prop :=
  Trace.Every fun before operation after => after = ((perform calls operation).run before).2

def StoreFollows (store : Database) : Prop := FlagsFollow store.1

/-- The flags follow in every state of a run that starts with flags that do, if the permissions that it moves have flags
    that fit their new clients. -/
theorem privacy_follows {calls : EmailCalls} {start : Database} {steps : List (PermissionOperation × Database)}
    (follows : FlagsFollow start.1) (run : PermissionRun calls start steps)
    (alike : Trace.Every (fun before operation _ => MovesAlike before.1 operation) start steps) :
    ∀ store ∈ Trace.reached start steps, FlagsFollow store.1 := by
  have both : Trace.Every (fun (before : Database) operation after =>
      after = ((perform calls operation).run before).2 ∧ MovesAlike before.1 operation) start steps :=
    Trace.every_and.mpr ⟨run, alike⟩
  have kept : ∀ store ∈ Trace.reached start steps, StoreFollows store := by
    refine Trace.every_invariant ?_ follows both
    intro before operation after followsBefore step
    rw [step.1]
    exact (ensures_perform calls operation).run ⟨followsBefore, step.2⟩
  exact kept

/-- Two clients of an organization, of which the second one does not let its users see the experiments of others. -/
def twoClients : Tables where
  users := [{ id := 1, email := "member@example.com" }]
  organizations := [{ id := 1 }]
  clients := [{ id := 1, organizationId := 1, allowUsersToSeeExperimentsByOthers := true },
    { id := 2, organizationId := 1, allowUsersToSeeExperimentsByOthers := false }]
  memberships := [{ userId := 1, organizationId := 1 }]

def plainEmails : EmailCalls where
  normalizeEmail := id
  getDomainFromEmail := id
  verificationEnabled := false

theorem constraints_twoClients : Constraints twoClients := by
  constructor <;> simp [twoClients, Rows.Keyed]

/-- What a run of operations leaves. -/
def performAll (calls : EmailCalls) (start : Database) (operations : List PermissionOperation) :
    List (PermissionOperation × Database) :=
  Trace.play (fun before operation => ((perform calls operation).run before).2) start operations

/-- A member becomes a user of the first client, and then its admin; the client changes its setting, and the admin may only
    read from then on. -/
def roleOperations : List PermissionOperation :=
  [.setRole .user 1 1, .setRole .admin 1 1, .updateClientSecurity 1 false, .setRole .readOnly 1 1]

/-- The flags follow the settings through changes of a role and of the setting. -/
theorem privacy_follows_roles :
    PermissionRun plainEmails ⟨twoClients, constraints_twoClients⟩
        (performAll plainEmails ⟨twoClients, constraints_twoClients⟩ roleOperations) ∧
      ∀ store ∈ Trace.reached ⟨twoClients, constraints_twoClients⟩
        (performAll plainEmails ⟨twoClients, constraints_twoClients⟩ roleOperations), FlagsFollow store.1 := by
  have run : PermissionRun plainEmails ⟨twoClients, constraints_twoClients⟩
      (performAll plainEmails ⟨twoClients, constraints_twoClients⟩ roleOperations) :=
    Trace.every_play _ _ _
  have follows : FlagsFollow twoClients := by
    intro permission isPermission
    cases isPermission
  exact ⟨run, privacy_follows follows run ⟨trivial, trivial, trivial, trivial, trivial⟩⟩

/-- A user of the first client is moved to the second one, and can see there what its other users cannot. -/
theorem privacy_not_followed :
    ∃ (start : Database) (operations : List PermissionOperation), FlagsFollow start.1 ∧
      PermissionRun plainEmails start (performAll plainEmails start operations) ∧
        ¬∀ store ∈ Trace.reached start (performAll plainEmails start operations), FlagsFollow store.1 := by
  refine ⟨⟨twoClients, constraints_twoClients⟩, [.setRole .user 1 1, .migrateClient 1 1 2], ?_,
    Trace.every_play _ _ _, ?_⟩
  · intro permission isPermission
    cases isPermission
  · intro follows
    revert follows
    decide +kernel

end Zigopt.Organizations
