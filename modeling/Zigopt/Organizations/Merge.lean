/-
Module: Zigopt.Organizations.Merge
Layer: Proofs
Purpose: What merging an organization into another one leaves: first of its memberships and permissions, while its
  clients are still its own, then of its clients; what follows changes neither for any client that is left.
Main exports: UserMerged, MembershipsMerged, ensures_mergeMemberships, ClientsMoved, ensures_mergeOrganization
-/
import Zigopt.Organizations.Statements

namespace Zigopt.Organizations

namespace Tables

/-- Whether the user is an owner of the organization. -/
def owns (tables : Tables) (userId organizationId : ℕ+) : Bool :=
  (tables.findMembership userId organizationId).any Membership.isOwner

end Tables

/-- The tables beside memberships and permissions, except for the invites. -/
structure SameRest (before after : Tables) : Prop where
  users : after.users = before.users
  organizations : after.organizations = before.organizations
  clients : after.clients = before.clients
  tokens : after.tokens = before.tokens

theorem SameRest.refl (tables : Tables) : SameRest tables tables := ⟨rfl, rfl, rfl, rfl⟩

/-- What two statements leave alone, both together do. -/
theorem SameRest.trans {before between after : Tables} (first : SameRest before between)
    (second : SameRest between after) : SameRest before after where
  users := second.users.trans first.users
  organizations := second.organizations.trans first.organizations
  clients := second.clients.trans first.clients
  tokens := second.tokens.trans first.tokens

theorem sameRest_permissions (tables : Tables) (permissions : List Permission) (next : ℕ+) :
    SameRest tables { tables with permissions := permissions, nextPermissionId := next } :=
  ⟨rfl, rfl, rfl, rfl⟩

/-- The permission of an admin. -/
def adminMeta : PermissionMeta where
  canAdmin := true
  canWrite := true
  canRead := true
  canSeeExperimentsByOthers := true

/-! ### The permissions on the clients of an owner -/

/-- The user has got admin permissions on some clients. -/
structure Promoted (before : Tables) (userId : ℕ+) (clients : List Client) (after : Tables) : Prop where
  rest : SameRest before after
  memberships : after.memberships = before.memberships
  onClients : ∀ client ∈ clients, ∃ permission ∈ after.permissions,
    (permission.clientId, permission.userId) = (client.id, userId) ∧ permission.permissionMeta = adminMeta
  others : ∀ permission : Permission, (permission.userId = userId → ∀ client ∈ clients, permission.clientId ≠ client.id) →
    (permission ∈ after.permissions ↔ permission ∈ before.permissions)

/-- One more client gets the permission of an owner. -/
theorem Promoted.step {before after : Tables} {userId : ℕ+} {clients : List Client} (constraints : Constraints after)
    (promoted : Promoted before userId clients after) (client : Client) :
    Promoted before userId (clients ++ [client]) (after.setPermission client userId adminMeta) := by
  rcases setPermission_rest after client userId adminMeta with ⟨permissions, next, isRest⟩
  constructor
  · rw [isRest]
    exact promoted.rest.trans (sameRest_permissions after permissions next)
  · rw [isRest]
    exact promoted.memberships
  · intro other member
    by_cases same : other.id = client.id
    · rw [same]
      exact exists_setPermission constraints client userId adminMeta
    · rcases List.mem_append.mp member with earlier | isNew
      · rcases promoted.onClients other earlier with ⟨permission, permissionMember, isKey, isAdmin⟩
        refine ⟨permission, (mem_setPermission_of_ne constraints adminMeta ?_).mpr permissionMember, isKey, isAdmin⟩
        rw [isKey]
        exact fun sameKey => same (Prod.mk.inj sameKey).1
      · rw [List.mem_singleton.mp isNew] at same
        exact absurd rfl same
  · intro permission elsewhere
    have notOnClient : (permission.clientId, permission.userId) ≠ (client.id, userId) := by
      intro sameKey
      rcases Prod.mk.inj sameKey with ⟨sameClient, sameUser⟩
      exact elsewhere sameUser client (List.mem_append_right _ (List.mem_singleton_self _)) sameClient
    rw [mem_setPermission_of_ne constraints adminMeta notOnClient]
    apply promoted.others
    intro sameUser other member
    exact elsewhere sameUser other (List.mem_append_left _ member)

/-- An owner of the organization gets the permissions of an admin on its clients. -/
theorem ensures_promote {before : Tables} {user : User} {clients : List Client} {organizationId : ℕ+}
    (ofOrganization : ∀ client ∈ clients, client ∈ before.clients ∧ client.organizationId = organizationId)
    (isMember : (before.findMembership user.id organizationId).isSome) {failed : Database → Prop} :
    Process.Ensures (fun store : Database => store.1 = before) (clients.forM (upsertFromRole .admin · user))
      (fun _ store => Promoted before user.id clients store.1) failed := by
  have start : ∀ store : Database, store.1 = before → Promoted before user.id [] store.1 := by
    intro store isBefore
    rw [isBefore]
    exact ⟨SameRest.refl before, rfl, fun _ impossible => (nomatch impossible), fun _ _ => Iff.rfl⟩
  have loop : Process.Ensures (fun store : Database => Promoted before user.id [] store.1)
      (clients.forM (upsertFromRole .admin · user)) (fun _ store => Promoted before user.id clients store.1) failed := by
    apply Process.ensures_forM clients fun done (store : Database) => Promoted before user.id done store.1
    intro done client others isSplit store promoted
    rcases ofOrganization client (by rw [isSplit]; simp) with ⟨ofBefore, inOrganization⟩
    have ofClient : client ∈ store.1.clients := by
      rw [promoted.rest.clients]
      exact ofBefore
    have stillMember : (store.1.findMembership user.id client.organizationId).isSome := by
      rw [Tables.findMembership, promoted.memberships, inOrganization]
      exact isMember
    rcases run_upsert true true true ofClient stillMember with ⟨keeps, isRun⟩
    rw [upsertFromRole, isRun]
    exact promoted.step store.2 client
  exact loop.imp start (fun _ _ holds => holds) fun _ holds => holds

/-! ### The permissions of one user -/

/-- The permissions after those of the user have been merged, where `owns` tells whether they own the destination. -/
structure PermissionsMerged (before : Tables) (clients : List Client) (membership : Membership) (owns : Bool)
    (after : Tables) : Prop where
  rest : SameRest before after
  memberships : after.memberships = before.memberships
  promoted : membership.isOwner = true → owns = false → ∀ client ∈ clients, ∃ permission ∈ after.permissions,
    (permission.clientId, permission.userId) = (client.id, membership.userId) ∧
      permission.permissionMeta = adminMeta
  others : ∀ permission : Permission,
    (permission.userId = membership.userId → membership.isOwner = true → owns = false →
      ∀ client ∈ clients, permission.clientId ≠ client.id) →
    (permission ∈ after.permissions ↔ permission ∈ before.permissions ∧
      (permission.userId = membership.userId → membership.isOwner = false → owns = true →
        permission.organizationId ≠ membership.organizationId))

theorem ensures_mergePermissions {before : Tables} {clients : List Client}
    {membership destinationMembership : Membership}
    (ofOrganization : ∀ client ∈ clients, client ∈ before.clients ∧ client.organizationId = membership.organizationId)
    (isMember : (before.findMembership membership.userId membership.organizationId).isSome) {failed : Database → Prop}
    (absent : before.findUser membership.userId = none → ∀ store, failed store) :
    Process.Ensures (fun store : Database => store.1 = before)
      (mergePermissions clients membership destinationMembership)
      (fun _ store => PermissionsMerged before clients membership destinationMembership.isOwner store.1) failed := by
  intro store isBefore
  unfold mergePermissions
  cases owner : membership.isOwner with
  | true =>
      cases owns : destinationMembership.isOwner with
      | true =>
          rw [if_neg (by simp), if_neg (by simp)]
          change PermissionsMerged before clients membership true store.1
          rw [isBefore]
          exact ⟨SameRest.refl before, rfl, by simp, by simp [owner]⟩
      | false =>
          rw [if_pos (by simp), if_neg (by simp)]
          cases found : store.1.findUser membership.userId with
          | none =>
              rw [Process.run_bind_ok (run_query _ store), found]
              rw [isBefore] at found
              exact absent found store
          | some user =>
              have named := ((findUser_iff store.2).mp found).2.1
              rw [Process.run_bind_ok (run_query _ store), found]
              have stillMember : (before.findMembership user.id membership.organizationId).isSome := by
                rw [named]
                exact isMember
              have promoted : Process.Ensures (fun store : Database => store.1 = before)
                  (clients.forM (upsertFromRole .admin · user))
                  (fun _ store => Promoted before membership.userId clients store.1) failed := by
                rw [← named]
                exact ensures_promote ofOrganization stillMember
              refine (promoted.bind ?_) store isBefore
              intro _
              apply Process.ensures_returned
              intro left isPromoted
              exact {
                rest := isPromoted.rest
                memberships := isPromoted.memberships
                promoted := fun _ _ => isPromoted.onClients
                others := by
                  intro permission elsewhere
                  rw [isPromoted.others permission fun sameUser => elsewhere sameUser owner rfl]
                  simp [owner] }
  | false =>
      cases owns : destinationMembership.isOwner with
      | true =>
          rw [if_neg (by simp), if_pos (by simp)]
          have keeps : Constraints (store.1.deletePermissionsIn membership.organizationId membership.userId) :=
            constraints_filterPermissions store.2 _
          have isRun : (commit fun tables => tables.deletePermissionsIn membership.organizationId membership.userId).run
              store = (.ok (), ⟨_, keeps⟩) := run_commit keeps
          dsimp only
          rw [isRun, ← isBefore]
          exact {
            rest := sameRest_permissions _ _ _
            memberships := rfl
            promoted := by simp [owner]
            others := by
              intro permission _
              dsimp only [Tables.deletePermissionsIn]
              rw [List.mem_filter]
              simp only [owner, Bool.not_and, Bool.or_eq_true, Bool.not_eq_true', decide_eq_false_iff_not, ne_eq,
                forall_const]
              tauto }
      | false =>
          rw [if_neg (by simp), if_neg (by simp)]
          change PermissionsMerged before clients membership false store.1
          rw [isBefore]
          exact ⟨SameRest.refl before, rfl, by simp [owner], by simp [owner]⟩

/-! ### All memberships -/

/-- The permissions of a user with a membership in the source organization, once that has been merged. -/
structure UserMerged (before : Tables) (destOrganization : Organization) (clients : List Client)
    (membership : Membership) (permissions : List Permission) : Prop where
  promoted : membership.isOwner = true → before.owns membership.userId destOrganization.id = false →
    ∀ client ∈ clients, ∃ permission ∈ permissions,
      (permission.clientId, permission.userId) = (client.id, membership.userId) ∧
        permission.permissionMeta = adminMeta
  others : ∀ permission : Permission, permission.userId = membership.userId →
    (membership.isOwner = true → before.owns membership.userId destOrganization.id = false →
      ∀ client ∈ clients, permission.clientId ≠ client.id) →
    (permission ∈ permissions ↔ permission ∈ before.permissions ∧
      (membership.isOwner = false → before.owns membership.userId destOrganization.id = true →
        permission.organizationId ≠ membership.organizationId))

/-- The merge of a user is about that user's permissions only. -/
theorem UserMerged.congr {before : Tables} {destOrganization : Organization} {clients : List Client}
    {membership : Membership} {permissions others : List Permission}
    (same : ∀ permission : Permission, permission.userId = membership.userId →
      (permission ∈ others ↔ permission ∈ permissions))
    (merged : UserMerged before destOrganization clients membership permissions) :
    UserMerged before destOrganization clients membership others where
  promoted := by
    intro owner owns client member
    rcases merged.promoted owner owns client member with ⟨permission, isPermission, isKey, isAdmin⟩
    exact ⟨permission, (same permission (Prod.mk.inj isKey).2).mpr isPermission, isKey, isAdmin⟩
  others := by
    intro permission isUser elsewhere
    rw [same permission isUser]
    exact merged.others permission isUser elsewhere

/-- The tables after some of the memberships of the source organization have been merged. -/
structure MembershipsMerged (before : Tables) (destOrganization : Organization) (clients : List Client)
    (done : List Membership) (after : Tables) : Prop where
  rest : SameRest before after
  memberships : ∀ membership, membership ∈ after.memberships ↔ membership ∈ before.memberships ∨
    ∃ merged ∈ done, before.findMembership merged.userId destOrganization.id = none ∧
      membership = { userId := merged.userId, organizationId := destOrganization.id }
  untouched : ∀ permission : Permission, (∀ merged ∈ done, merged.userId ≠ permission.userId) →
    (permission ∈ after.permissions ↔ permission ∈ before.permissions)
  merged : ∀ merged ∈ done, UserMerged before destOrganization clients merged after.permissions

section Merge

variable {before : Tables} {destOrganization : Organization} {clients : List Client}

theorem membershipsMerged_nil : MembershipsMerged before destOrganization clients [] before where
  rest := SameRest.refl before
  memberships := by simp
  untouched _ _ := Iff.rfl
  merged _ impossible := nomatch impossible

theorem sameRest_ensureMembership (tables : Tables) (membership : Membership) :
    SameRest tables (tables.ensureMembership membership) := by
  unfold Tables.ensureMembership
  split
  · exact SameRest.refl tables
  · exact ⟨rfl, rfl, rfl, rfl⟩

/-- A user whose membership has not been merged yet has the memberships they had before. -/
theorem MembershipsMerged.findMembership_fresh {done : List Membership} {after : Tables}
    (merged : MembershipsMerged before destOrganization clients done after) (constraintsBefore : Constraints before)
    (constraints : Constraints after) {userId : ℕ+} (fresh : ∀ other ∈ done, other.userId ≠ userId)
    (organizationId : ℕ+) : after.findMembership userId organizationId = before.findMembership userId organizationId := by
  cases found : before.findMembership userId organizationId with
  | some membership =>
      rcases (findMembership_iff constraintsBefore).mp found with ⟨member, isKey⟩
      exact (findMembership_iff constraints).mpr ⟨(merged.memberships membership).mpr (.inl member), isKey⟩
  | none =>
      apply findMembership_eq_none.mpr
      intro membership member isKey
      rcases (merged.memberships membership).mp member with inBefore | ⟨other, otherMember, _, rfl⟩
      · exact findMembership_eq_none.mp found membership inBefore isKey
      · exact fresh other otherMember (Prod.mk.inj isKey).1

theorem isOwner_getD (userId organizationId : ℕ+) :
    ((before.findMembership userId organizationId).getD
      { userId := userId, organizationId := organizationId }).isOwner = before.owns userId organizationId := by
  unfold Tables.owns
  cases before.findMembership userId organizationId with
  | some membership => rfl
  | none => rfl

/-- The membership in the destination that a member of the source organization gets. -/
def joining (destOrganization : Organization) (membership : Membership) : Membership where
  userId := membership.userId
  organizationId := destOrganization.id

/-- One more member is merged, with the permissions on all clients. -/
theorem MembershipsMerged.step {done : List Membership} {between after : Tables} {membership : Membership}
    (merged : MembershipsMerged before destOrganization clients done between)
    (constraintsBefore : Constraints before) (constraints : Constraints between)
    (fresh : ∀ other ∈ done, other.userId ≠ membership.userId)
    (permissionsMerged : PermissionsMerged (between.ensureMembership (joining destOrganization membership)) clients
      membership (before.owns membership.userId destOrganization.id) after) :
    MembershipsMerged before destOrganization clients (done ++ [membership]) after := by
  have samePermissions : (between.ensureMembership (joining destOrganization membership)).permissions =
      between.permissions := by
    unfold Tables.ensureMembership
    split <;> rfl
  constructor
  · exact merged.rest.trans ((sameRest_ensureMembership _ _).trans permissionsMerged.rest)
  · intro other
    have sameFound := merged.findMembership_fresh constraintsBefore constraints fresh destOrganization.id
    rw [permissionsMerged.memberships, mem_ensureMembership, merged.memberships, joining, sameFound]
    simp only [List.mem_append, List.mem_singleton, or_and_right, exists_or, exists_eq_left, or_assoc]
  · intro permission others
    have notUser : permission.userId ≠ membership.userId := fun same =>
      others membership (List.mem_append_right _ (List.mem_singleton_self _)) same.symm
    rw [permissionsMerged.others permission fun same => absurd same notUser, samePermissions,
      merged.untouched permission fun other member => others other (List.mem_append_left _ member)]
    simp [notUser]
  · intro other member
    rcases List.mem_append.mp member with earlier | isNew
    · apply (merged.merged other earlier).congr
      intro permission isOther
      have notUser : permission.userId ≠ membership.userId := fun same => fresh other earlier (isOther.symm.trans same)
      rw [permissionsMerged.others permission fun same => absurd same notUser, samePermissions]
      simp [notUser]
    · rw [List.mem_singleton.mp isNew]
      constructor
      · exact permissionsMerged.promoted
      · intro permission isUser elsewhere
        rw [permissionsMerged.others permission fun _ => elsewhere, samePermissions,
          merged.untouched permission fun other member same => fresh other member (same.trans isUser)]
        simp [isUser]

theorem ensures_mergeMembership (constraintsBefore : Constraints before)
    (isOrganization : destOrganization ∈ before.organizations) {done : List Membership} {membership : Membership}
    (member : membership ∈ before.memberships) (fresh : ∀ other ∈ done, other.userId ≠ membership.userId)
    (ofOrganization : ∀ client ∈ clients, client ∈ before.clients ∧ client.organizationId = membership.organizationId)
    {failed : Database → Prop} (absent : before.findUser membership.userId = none → ∀ store, failed store) :
    Process.Ensures (fun store : Database => MembershipsMerged before destOrganization clients done store.1)
      (mergeMembershipIntoDestination destOrganization clients membership)
      (fun _ store => MembershipsMerged before destOrganization clients (done ++ [membership]) store.1) failed := by
  intro store merged
  have ofUser : ∃ other ∈ store.1.users, other.id = membership.userId := by
    rw [merged.rest.users]
    exact constraintsBefore.membershipUser membership member
  have ofDestination : ∃ other ∈ store.1.organizations, other.id = destOrganization.id := by
    rw [merged.rest.organizations]
    exact ⟨destOrganization, isOrganization, rfl⟩
  obtain ⟨keeps, isRun⟩ : ∃ keeps, (createIfNotExists membership.userId destOrganization.id (some .member)).run store =
      (.ok ((store.1.findMembership membership.userId destOrganization.id).getD (joining destOrganization membership)),
        ⟨store.1.ensureMembership (joining destOrganization membership), keeps⟩) :=
    run_createIfNotExists store (some .member) ofUser ofDestination
  unfold mergeMembershipIntoDestination
  rw [Process.run_bind_ok isRun, Process.run_bind_ok (run_query _ _)]
  have isFound : (store.1.ensureMembership (joining destOrganization membership)).findMembership membership.userId
      destOrganization.id = some ((store.1.findMembership membership.userId destOrganization.id).getD
        (joining destOrganization membership)) := findMembership_ensureMembership _
  dsimp only
  rw [isFound, merged.findMembership_fresh constraintsBefore store.2 fresh]
  dsimp only
  have sameRest : SameRest before (store.1.ensureMembership (joining destOrganization membership)) :=
    merged.rest.trans (sameRest_ensureMembership _ _)
  have inBetween : ∀ client ∈ clients,
      client ∈ (store.1.ensureMembership (joining destOrganization membership)).clients ∧
        client.organizationId = membership.organizationId := by
    rw [sameRest.clients]
    exact ofOrganization
  have isMember : ((store.1.ensureMembership (joining destOrganization membership)).findMembership
      membership.userId membership.organizationId).isSome := by
    apply Option.isSome_iff_exists.mpr
    refine ⟨membership, (findMembership_iff keeps).mpr ⟨?_, rfl⟩⟩
    exact mem_ensureMembership.mpr (.inl ((merged.memberships membership).mpr (.inl member)))
  have stillAbsent : (store.1.ensureMembership (joining destOrganization membership)).findUser membership.userId =
      none → ∀ store, failed store := by
    rw [Tables.findUser, sameRest.users]
    exact absent
  have finished : Process.Ensures
      (fun store' : Database => store'.1 = store.1.ensureMembership (joining destOrganization membership))
      (mergePermissions clients membership ((before.findMembership membership.userId destOrganization.id).getD
        (joining destOrganization membership)))
      (fun _ left => MembershipsMerged before destOrganization clients (done ++ [membership]) left.1) failed := by
    apply (ensures_mergePermissions inBetween isMember stillAbsent).imp (fun _ holds => holds) _
      fun _ holds => holds
    intro _ left permissionsMerged
    have owns : ((before.findMembership membership.userId destOrganization.id).getD
        (joining destOrganization membership)).isOwner = before.owns membership.userId destOrganization.id :=
      isOwner_getD _ _
    rw [owns] at permissionsMerged
    exact merged.step constraintsBefore store.2 fresh permissionsMerged
  exact finished _ rfl

/-- A deleted user has no memberships. -/
def LiveMembers (tables : Tables) : Prop :=
  ∀ membership ∈ tables.memberships, (tables.findUser membership.userId).isSome

/-- Within one organization a user has one membership. -/
theorem membershipsOf_split (constraints : Constraints before) {organizationId : ℕ+} {done others : List Membership}
    {membership : Membership} (isSplit : before.membershipsOf organizationId = done ++ membership :: others) :
    ∀ other ∈ done, other.userId ≠ membership.userId := by
  have keyed := Rows.keyed_filter constraints.memberships fun membership => membership.organizationId = organizationId
  change Rows.Keyed _ (before.membershipsOf organizationId) at keyed
  have inOrganization : ∀ other ∈ before.membershipsOf organizationId, other.organizationId = organizationId :=
    fun other member => (mem_membershipsOf.mp member).2
  rw [isSplit] at keyed inOrganization
  rw [Rows.Keyed, List.map_append, List.map_cons, List.nodup_append] at keyed
  intro other member sameUser
  have otherOrganization := inOrganization other (by simp [member])
  have sameOrganization := inOrganization membership (by simp)
  apply keyed.2.2 _ (List.mem_map_of_mem member) _ (List.mem_cons_self ..)
  rw [sameUser, otherOrganization, sameOrganization]

/-- Moving the memberships ends with all merged, and fails only where a member's user is gone. -/
theorem ensures_mergeMemberships (constraintsBefore : Constraints before)
    (isOrganization : destOrganization ∈ before.organizations) {organizationId : ℕ+} {failed : Database → Prop}
    (dead : ¬LiveMembers before → ∀ store, failed store) :
    Process.Ensures (fun store : Database => store.1 = before)
      (mergeMembershipsIntoDestination destOrganization (before.membershipsOf organizationId)
        (before.clientsOf organizationId))
      (fun _ store => MembershipsMerged before destOrganization (before.clientsOf organizationId)
        (before.membershipsOf organizationId) store.1) failed := by
  have loop : Process.Ensures
      (fun store : Database => MembershipsMerged before destOrganization (before.clientsOf organizationId) [] store.1)
      (mergeMembershipsIntoDestination destOrganization (before.membershipsOf organizationId)
        (before.clientsOf organizationId))
      (fun _ store => MembershipsMerged before destOrganization (before.clientsOf organizationId)
        (before.membershipsOf organizationId) store.1) failed := by
    apply Process.ensures_forM (before.membershipsOf organizationId) fun done (store : Database) =>
      MembershipsMerged before destOrganization (before.clientsOf organizationId) done store.1
    intro done membership others isSplit
    have isMember : membership ∈ before.membershipsOf organizationId := by
      rw [isSplit]
      simp
    rcases mem_membershipsOf.mp isMember with ⟨member, inOrganization⟩
    apply ensures_mergeMembership constraintsBefore isOrganization member (membershipsOf_split constraintsBefore isSplit)
    · intro client clientMember
      rcases mem_clientsOf.mp clientMember with ⟨isClient, clientOrganization, _⟩
      exact ⟨isClient, clientOrganization.trans inOrganization.symm⟩
    · intro noUser
      apply dead
      intro live
      have isUser := live membership member
      rw [noUser] at isUser
      cases isUser
  apply loop.imp _ (fun _ _ holds => holds) fun _ holds => holds
  intro store isBefore
  rw [isBefore]
  exact membershipsMerged_nil

/-! ### Clearing invites -/

/-- The tables beside the invites and pending permissions. -/
structure SameBesideInvites (before after : Tables) : Prop where
  rest : SameRest before after
  memberships : after.memberships = before.memberships
  permissions : after.permissions = before.permissions

theorem SameBesideInvites.refl (tables : Tables) : SameBesideInvites tables tables := ⟨SameRest.refl tables, rfl, rfl⟩

theorem ensures_clearInvites {between : Tables} {organizationId : ℕ+} {failed : Database → Prop} :
    Process.Ensures (fun store : Database => store.1 = between)
      ((between.invitesTo organizationId).forM fun invite =>
        commit fun tables => tables.setInviteOrganization invite.id none)
      (fun _ store => SameBesideInvites between store.1 ∧
        ∀ invite ∈ store.1.invites, invite.organizationId ≠ some organizationId) failed := by
  have loop : Process.Ensures
      (fun store : Database => SameBesideInvites between store.1 ∧ ∀ invite ∈ store.1.invites,
        invite.organizationId = some organizationId →
          (∃ listed ∈ between.invitesTo organizationId, listed.id = invite.id) ∧
            ∀ cleared ∈ ([] : List Invite), cleared.id ≠ invite.id)
      ((between.invitesTo organizationId).forM fun invite =>
        commit fun tables => tables.setInviteOrganization invite.id none)
      (fun _ store => SameBesideInvites between store.1 ∧ ∀ invite ∈ store.1.invites,
        invite.organizationId = some organizationId →
          (∃ listed ∈ between.invitesTo organizationId, listed.id = invite.id) ∧
            ∀ cleared ∈ between.invitesTo organizationId, cleared.id ≠ invite.id) failed := by
    apply Process.ensures_forM (between.invitesTo organizationId) fun done (store : Database) =>
      SameBesideInvites between store.1 ∧ ∀ invite ∈ store.1.invites, invite.organizationId = some organizationId →
        (∃ listed ∈ between.invitesTo organizationId, listed.id = invite.id) ∧
          ∀ cleared ∈ done, cleared.id ≠ invite.id
    intro done item others _
    apply Process.ensures_commit_of
    · intro store _
      exact constraints_clearInviteOrganization store.2 item.id
    · rintro store ⟨same, listed⟩ _
      refine ⟨⟨⟨same.rest.users, same.rest.organizations, same.rest.clients, same.rest.tokens⟩, same.memberships,
        same.permissions⟩, ?_⟩
      intro invite member inOrganization
      rcases Rows.mem_update.mp member with ⟨old, oldMember, isNew⟩
      by_cases isItem : old.id = item.id
      · rw [if_pos isItem] at isNew
        rw [← isNew] at inOrganization
        cases inOrganization
      · rw [if_neg isItem] at isNew
        subst isNew
        rcases listed old oldMember inOrganization with ⟨isListed, notCleared⟩
        refine ⟨isListed, ?_⟩
        intro cleared clearedMember
        rcases List.mem_append.mp clearedMember with earlier | isLast
        · exact notCleared cleared earlier
        · rw [List.mem_singleton.mp isLast]
          exact Ne.symm isItem
  apply loop.imp
  · intro store isBetween
    rw [isBetween]
    refine ⟨SameBesideInvites.refl between, ?_⟩
    intro invite member inOrganization
    exact ⟨⟨invite, by simp [Tables.invitesTo, member, inOrganization], rfl⟩, fun _ impossible => nomatch impossible⟩
  · rintro _ store ⟨same, listed⟩
    refine ⟨same, ?_⟩
    intro invite member inOrganization
    rcases listed invite member inOrganization with ⟨⟨other, otherMember, sameId⟩, notCleared⟩
    exact notCleared other otherMember sameId
  · exact fun _ holds => holds

/-! ### Moving clients -/

/-- The tables after some clients have moved, with their permissions. -/
structure ClientsMoved (between : Tables) (organizationId : ℕ+) (done : List Client) (after : Tables) : Prop where
  users : after.users = between.users
  organizations : after.organizations = between.organizations
  tokens : after.tokens = between.tokens
  memberships : after.memberships = between.memberships
  invites : after.invites = between.invites
  clients : after.clients = Rows.update (fun client => ∃ moved ∈ done, moved.id = client.id)
    (Client.inOrganization organizationId) between.clients
  permissions : after.permissions = Rows.update (fun permission => ∃ moved ∈ done, moved.id = permission.clientId)
    (Permission.inOrganization organizationId) between.permissions

theorem clientsMoved_nil (between : Tables) (organizationId : ℕ+) : ClientsMoved between organizationId [] between where
  users := rfl
  organizations := rfl
  tokens := rfl
  memberships := rfl
  invites := rfl
  clients := by
    rw [Rows.update_none]
    simp
  permissions := by
    rw [Rows.update_none]
    simp

/-- One more client is moved. -/
theorem ClientsMoved.step {between after : Tables} {organizationId : ℕ+} {done : List Client}
    (constraints : Constraints after) (moved : ClientsMoved between organizationId done after) (client : Client) :
    ClientsMoved between organizationId (done ++ [client]) (after.moveClient client.id organizationId) where
  users := moved.users
  organizations := moved.organizations
  tokens := moved.tokens
  memberships := moved.memberships
  invites := moved.invites
  clients := by
    change Rows.update _ _ after.clients = _
    have again : ∀ row : Client, (row.inOrganization organizationId).inOrganization organizationId =
        row.inOrganization organizationId := fun _ => rfl
    rw [moved.clients, Rows.update_update again]
    apply Rows.update_congr
    intro row
    simp [or_and_right, exists_or, eq_comm]
  permissions := by
    have again : ∀ row : Permission, (row.inOrganization organizationId).inOrganization organizationId =
        row.inOrganization organizationId := fun _ => rfl
    rw [moveClient_permissions constraints, moved.permissions, Rows.update_update again]
    apply Rows.update_congr
    intro row
    simp [or_and_right, exists_or, eq_comm]

theorem ensures_moveClients {between : Tables} (constraints : Constraints between) {organizationId destinationId : ℕ+}
    (isOrganization : ∃ organization ∈ between.organizations, organization.id = destinationId)
    (cleared : ∀ invite ∈ between.invites, invite.organizationId ≠ some organizationId)
    (members : ∀ permission ∈ between.permissions, permission.organizationId = organizationId →
      ∃ membership ∈ between.memberships,
        membership.userId = permission.userId ∧ membership.organizationId = destinationId)
    {failed : Database → Prop} :
    Process.Ensures (fun store : Database => store.1 = between)
      ((between.clientsOf organizationId).forM fun client =>
        commit fun tables => tables.moveClient client.id destinationId)
      (fun _ store => ClientsMoved between destinationId (between.clientsOf organizationId) store.1) failed := by
  have loop : Process.Ensures (fun store : Database => ClientsMoved between destinationId [] store.1)
      ((between.clientsOf organizationId).forM fun client =>
        commit fun tables => tables.moveClient client.id destinationId)
      (fun _ store => ClientsMoved between destinationId (between.clientsOf organizationId) store.1) failed := by
    apply Process.ensures_forM (between.clientsOf organizationId) fun done (store : Database) =>
      ClientsMoved between destinationId done store.1
    intro done client others isSplit
    have listed : client ∈ between.clientsOf organizationId := by
      rw [isSplit]
      simp
    rcases mem_clientsOf.mp listed with ⟨isClient, inOrganization, _⟩
    have isRow : ∀ other ∈ between.clients, other.id = client.id → other = client := fun other member same =>
      constraints.clientIds.eq_of_key member isClient same
    apply Process.ensures_commit_of
    · intro store moved
      apply constraints_moveClient store.2
      · rw [moved.organizations]
        exact isOrganization
      · intro permission member onClient
        rw [moved.permissions] at member
        rcases Rows.mem_update.mp member with ⟨old, oldMember, isNew⟩
        have sameKey : permission.userId = old.userId ∧ permission.clientId = old.clientId := by
          rw [← isNew]
          split <;> exact ⟨rfl, rfl⟩
        rcases constraints.permissionClient old oldMember with ⟨other, otherMember, isOther, sameOrganization⟩
        rw [isRow other otherMember (isOther.trans (sameKey.2.symm.trans onClient)), inOrganization] at sameOrganization
        rw [moved.memberships, sameKey.1]
        exact members old oldMember sameOrganization.symm
      · intro pending member onClient other isOther
        rcases store.2.pendingPermissionClient pending member other isOther with ⟨row, rowMember, isId, inOther⟩
        rw [moved.clients] at rowMember
        rcases Rows.mem_update.mp rowMember with ⟨old, oldMember, isNew⟩
        by_cases hasMoved : ∃ moved ∈ done, moved.id = old.id
        · rw [if_pos hasMoved] at isNew
          rw [← inOther, ← isNew]
          rfl
        · rw [if_neg hasMoved] at isNew
          subst isNew
          have isSource : other = organizationId := by
            rw [← inOther, isRow old oldMember (isId.trans onClient)]
            exact inOrganization
          rcases store.2.pendingPermissionInvite pending member other isOther with ⟨invite, inviteMember, _, inSource⟩
          rw [moved.invites] at inviteMember
          rw [isSource] at inSource
          exact absurd inSource (cleared invite inviteMember)
    · intro store moved _
      exact moved.step store.2 client
  apply loop.imp _ (fun _ _ holds => holds) fun _ holds => holds
  intro store isBetween
  rw [isBetween]
  exact clientsMoved_nil between destinationId

/-! ### What is left over -/

/-- From here on only the invites change, and what is left of the source organization. -/
structure Settling (moved : Tables) (organizationId : ℕ+) (after : Tables) : Prop where
  users : after.users = moved.users
  tokens : after.tokens = moved.tokens
  clients : after.clients = moved.clients
  organizations : ∀ organization : Organization, organization.id ≠ organizationId →
    (organization ∈ after.organizations ↔ organization ∈ moved.organizations)
  memberships : ∀ membership : Membership, membership.organizationId ≠ organizationId →
    (membership ∈ after.memberships ↔ membership ∈ moved.memberships)
  permissions : ∀ permission : Permission, permission.organizationId ≠ organizationId →
    (permission ∈ after.permissions ↔ permission ∈ moved.permissions)
  leftMemberships : ∀ membership ∈ after.memberships, membership ∈ moved.memberships
  leftPermissions : ∀ permission ∈ after.permissions, permission ∈ moved.permissions

theorem Settling.refl (moved : Tables) (organizationId : ℕ+) : Settling moved organizationId moved where
  users := rfl
  tokens := rfl
  clients := rfl
  organizations _ _ := Iff.rfl
  memberships _ _ := Iff.rfl
  permissions _ _ := Iff.rfl
  leftMemberships _ member := member
  leftPermissions _ member := member

/-- A statement on the invites. -/
theorem Settling.invites {moved after : Tables} {organizationId : ℕ+} (settling : Settling moved organizationId after)
    (invites : List Invite) (pendingPermissions : List PendingPermission) :
    Settling moved organizationId { after with invites := invites, pendingPermissions := pendingPermissions } :=
  ⟨settling.users, settling.tokens, settling.clients, settling.organizations, settling.memberships,
    settling.permissions, settling.leftMemberships, settling.leftPermissions⟩

/-- Deleting the memberships of the merged organization is a part of settling. -/
theorem Settling.deleteMembershipsOf {moved after : Tables} {organizationId : ℕ+}
    (settling : Settling moved organizationId after) :
    Settling moved organizationId (after.deleteMembershipsOf organizationId) where
  users := settling.users
  tokens := settling.tokens
  clients := settling.clients
  organizations := settling.organizations
  memberships := by
    intro membership elsewhere
    rw [← settling.memberships membership elsewhere]
    simp [Tables.deleteMembershipsOf, elsewhere]
  permissions := by
    intro permission elsewhere
    rw [← settling.permissions permission elsewhere]
    dsimp only [Tables.deleteMembershipsOf]
    rw [List.mem_filter]
    constructor
    · exact And.left
    · intro member
      refine ⟨member, ?_⟩
      rw [Bool.not_eq_true', List.any_eq_false]
      intro membership _ both
      rw [Bool.and_eq_true, decide_eq_true_iff, decide_eq_true_iff] at both
      exact elsewhere ((Prod.mk.inj both.2).2.symm.trans both.1)
  leftMemberships membership member := settling.leftMemberships membership (List.mem_of_mem_filter member)
  leftPermissions permission member := settling.leftPermissions permission (List.mem_of_mem_filter member)

theorem Settling.markOrganizationDeleted {moved after : Tables} {organizationId : ℕ+}
    (settling : Settling moved organizationId after) :
    Settling moved organizationId (after.markOrganizationDeleted organizationId) where
  users := settling.users
  tokens := settling.tokens
  clients := settling.clients
  organizations := by
    intro organization elsewhere
    rw [← settling.organizations organization elsewhere]
    dsimp only [Tables.markOrganizationDeleted]
    rw [Rows.mem_update]
    constructor
    · rintro ⟨old, member, isNew⟩
      by_cases isSource : old.id = organizationId
      · rw [if_pos isSource] at isNew
        rw [← isNew] at elsewhere
        exact absurd isSource elsewhere
      · rw [if_neg isSource] at isNew
        rw [← isNew]
        exact member
    · intro member
      exact ⟨organization, member, if_neg elsewhere⟩
  memberships := settling.memberships
  permissions := settling.permissions
  leftMemberships := settling.leftMemberships
  leftPermissions := settling.leftPermissions

section Keeping

variable {α : Type} {good : Tables → Prop}

theorem ensures_query_keeping (view : Tables → α) :
    Process.Ensures (fun store : Database => good store.1) (query view) (fun _ store => good store.1)
      fun store => good store.1 :=
  Process.Silent.ensures (Process.silent_read () _)

theorem ensures_commit_keeping {change : Tables → Tables} (keeps : ∀ tables, good tables → good (change tables)) :
    Process.Ensures (fun store : Database => good store.1) (commit change) (fun _ store => good store.1)
      fun store => good store.1 :=
  Process.ensures_commit (fun store holds _ => keeps store.1 holds) fun _ holds _ => holds

theorem ensures_forM_keeping {items : List α} {body : α → OrganizationProcess Unit} {failed : Database → Prop}
    (keeps : ∀ item ∈ items, Process.Ensures (fun store : Database => good store.1) (body item)
      (fun _ store => good store.1) failed) :
    Process.Ensures (fun store : Database => good store.1) (items.forM body) (fun _ store => good store.1) failed := by
  apply Process.ensures_forM items fun _ (store : Database) => good store.1
  intro done item others isSplit
  apply keeps
  rw [isSplit]
  simp

end Keeping

theorem ensures_mergeInvite {moved : Tables} {organizationId : ℕ+} (invite : Invite) :
    Process.Ensures (fun store : Database => Settling moved organizationId store.1)
      (mergeInvite destOrganization invite) (fun _ store => Settling moved organizationId store.1)
      fun store => Settling moved organizationId store.1 := by
  have inviteMoved : Process.Ensures (fun store : Database => Settling moved organizationId store.1)
      (moveInvite destOrganization invite) (fun _ store => Settling moved organizationId store.1)
      fun store => Settling moved organizationId store.1 := by
    apply (ensures_query_keeping _).bind
    intro found
    cases found with
    | some _ => exact ensures_commit_keeping fun _ settling => settling.invites _ _
    | none => exact ensures_commit_keeping fun _ settling => settling.invites _ _
  apply inviteMoved.bind
  intro _
  apply (ensures_query_keeping _).bind
  intro pendingPermissions
  apply ensures_forM_keeping
  intro pending _
  exact ensures_commit_keeping fun _ settling => settling.invites _ _

theorem ensures_deleteOrganization {moved : Tables} {organizationId : ℕ+} :
    Process.Ensures (fun store : Database => Settling moved organizationId store.1) (deleteOrganization organizationId)
      (fun _ store => Settling moved organizationId store.1) fun store => Settling moved organizationId store.1 := by
  have invitesDeleted : Process.Ensures (fun store : Database => Settling moved organizationId store.1)
      (commit fun tables => tables.deleteInvites fun invite => invite.organizationId = some organizationId)
      (fun _ store => Settling moved organizationId store.1) fun store => Settling moved organizationId store.1 :=
    ensures_commit_keeping fun _ settling => settling.invites _ _
  apply invitesDeleted.bind
  intro _
  apply (ensures_commit_keeping fun _ settling => settling.deleteMembershipsOf).bind
  intro _
  exact ensures_commit_keeping fun _ settling => settling.markOrganizationDeleted

/-- What merging leaves, whether it comes to its end or not: the steps that it may fail in are the last ones. -/
structure OrganizationMerged (before : Tables) (destOrganization : Organization) (organizationId : ℕ+)
    (merged moved after : Tables) : Prop where
  constraints : Constraints merged
  memberships : MembershipsMerged before destOrganization (before.clientsOf organizationId)
    (before.membershipsOf organizationId) merged
  clients : ClientsMoved merged destOrganization.id (before.clientsOf organizationId) moved
  settling : Settling moved organizationId after

theorem MembershipsMerged.besideInvites {done : List Membership} {merged between : Tables}
    (isMerged : MembershipsMerged before destOrganization clients done merged)
    (same : SameBesideInvites merged between) :
    MembershipsMerged before destOrganization clients done between where
  rest := isMerged.rest.trans same.rest
  memberships := by
    rw [same.memberships]
    exact isMerged.memberships
  untouched := by
    rw [same.permissions]
    exact isMerged.untouched
  merged := by
    rw [same.permissions]
    exact isMerged.merged

/-- Whoever is a member of the source organization has been made a member of the destination. -/
theorem MembershipsMerged.isMember {merged : Tables} {organizationId : ℕ+} (constraintsBefore : Constraints before)
    (isMerged : MembershipsMerged before destOrganization clients (before.membershipsOf organizationId) merged)
    {membership : Membership} (member : membership ∈ before.memberships)
    (inOrganization : membership.organizationId = organizationId) :
    ∃ other ∈ merged.memberships,
      other.userId = membership.userId ∧ other.organizationId = destOrganization.id := by
  cases found : before.findMembership membership.userId destOrganization.id with
  | some other =>
      rcases (findMembership_iff constraintsBefore).mp found with ⟨otherMember, isKey⟩
      exact ⟨other, (isMerged.memberships other).mpr (.inl otherMember), Prod.mk.inj isKey⟩
  | none =>
      have isNew : joining destOrganization membership ∈ merged.memberships :=
        (isMerged.memberships _).mpr
          (.inr ⟨membership, mem_membershipsOf.mpr ⟨member, inOrganization⟩, found, rfl⟩)
      exact ⟨_, isNew, rfl, rfl⟩

/-- Only the new memberships were not there before, and they are in the destination. -/
theorem MembershipsMerged.elsewhere {done : List Membership} {merged : Tables}
    (isMerged : MembershipsMerged before destOrganization clients done merged) {membership : Membership}
    (elsewhere : membership.organizationId ≠ destOrganization.id) :
    membership ∈ merged.memberships ↔ membership ∈ before.memberships := by
  rw [isMerged.memberships]
  constructor
  · rintro (inBefore | ⟨other, _, _, rfl⟩)
    · exact inBefore
    · exact absurd rfl elsewhere
  · exact .inl

/-- The merge of one organization, whether it goes through or stops at its last step, has moved all it holds. -/
theorem ensures_mergeOrganization (constraintsBefore : Constraints before)
    (isOrganization : destOrganization ∈ before.organizations) {organizationId : ℕ+}
    (distinct : organizationId ≠ destOrganization.id) :
    Process.Ensures (fun store : Database => store.1 = before) (mergeOrganization destOrganization organizationId)
      (fun _ store => ∃ merged moved, OrganizationMerged before destOrganization organizationId merged moved store.1)
      (fun store => LiveMembers before →
        ∃ merged moved, OrganizationMerged before destOrganization organizationId merged moved store.1) := by
  intro store isBefore
  unfold mergeOrganization
  rw [Process.run_bind_ok (run_query _ store), Process.run_bind_ok (run_query _ store)]
  dsimp only
  rw [isBefore]
  refine ((ensures_mergeMemberships constraintsBefore isOrganization fun dead _ live => absurd live dead).bind ?_)
    store isBefore
  intro _ merged isMerged
  rw [Process.run_bind_ok (run_query _ merged)]
  refine (ensures_clearInvites.bind ?_) merged rfl
  rintro _ between ⟨same, cleared⟩
  have isBetween := isMerged.besideInvites same
  have sameClients : before.clientsOf organizationId = between.1.clientsOf organizationId := by
    rw [Tables.clientsOf, Tables.clientsOf, isBetween.rest.clients]
  have ofDestination : ∃ organization ∈ between.1.organizations, organization.id = destOrganization.id := by
    rw [isBetween.rest.organizations]
    exact ⟨destOrganization, isOrganization, rfl⟩
  have members : ∀ permission ∈ between.1.permissions, permission.organizationId = organizationId →
      ∃ membership ∈ between.1.memberships,
        membership.userId = permission.userId ∧ membership.organizationId = destOrganization.id := by
    intro permission member inSource
    rcases between.2.permissionMembership permission member with ⟨membership, membershipMember, sameUser, sameOrganization⟩
    have inOrganization := sameOrganization.trans inSource
    have inBefore : membership ∈ before.memberships := by
      apply (isBetween.elsewhere _).mp membershipMember
      rw [inOrganization]
      exact distinct
    rw [← sameUser]
    exact isBetween.isMember constraintsBefore inBefore inOrganization
  rw [sameClients]
  refine ((ensures_moveClients between.2 ofDestination cleared members).bind ?_) between rfl
  intro _ moved isMoved
  rw [← sameClients] at isMoved
  have settled : Process.Ensures (fun store : Database => Settling moved.1 organizationId store.1)
      (do
        (merged.1.invitesTo organizationId).forM (mergeInvite destOrganization)
        commit fun tables => tables.deleteMembershipsOf organizationId
        deleteOrganization organizationId)
      (fun _ store => Settling moved.1 organizationId store.1)
      fun store => Settling moved.1 organizationId store.1 := by
    apply (ensures_forM_keeping fun invite _ => ensures_mergeInvite invite).bind
    intro _
    apply (ensures_commit_keeping fun _ settling => settling.deleteMembershipsOf).bind
    intro _
    exact ensures_deleteOrganization
  have finish : ∀ left : Database, Settling moved.1 organizationId left.1 →
      ∃ merged moved, OrganizationMerged before destOrganization organizationId merged moved left.1 :=
    fun left settling => ⟨between.1, moved.1, between.2, isBetween, isMoved, settling⟩
  exact (settled.imp (fun _ holds => holds) (fun _ => finish) fun left settling _ => finish left settling) moved
    (Settling.refl moved.1 organizationId)

/-! ### Rows of the merged organizations -/

section Rows

variable {organizationId : ℕ+} {merged moved after : Tables}

theorem notListed_of_elsewhere (constraintsBefore : Constraints before) {client : Client}
    (member : client ∈ before.clients) (elsewhere : client.organizationId ≠ organizationId) :
    ∀ listed ∈ before.clientsOf organizationId, listed.id ≠ client.id := by
  intro listed isListed same
  rcases mem_clientsOf.mp isListed with ⟨isClient, inOrganization, _⟩
  rw [constraintsBefore.clientIds.eq_of_key isClient member same] at inOrganization
  exact elsewhere inOrganization

theorem OrganizationMerged.client_elsewhere (constraintsBefore : Constraints before)
    (isMerged : OrganizationMerged before destOrganization organizationId merged moved after) {client : Client}
    (member : client ∈ before.clients) (elsewhere : client.organizationId ≠ organizationId) :
    client ∈ after.clients := by
  rw [isMerged.settling.clients, isMerged.clients.clients, isMerged.memberships.rest.clients]
  refine Rows.mem_update.mpr ⟨client, member, if_neg ?_⟩
  rintro ⟨listed, isListed, same⟩
  exact notListed_of_elsewhere constraintsBefore member elsewhere listed isListed same

theorem OrganizationMerged.client_moved
    (isMerged : OrganizationMerged before destOrganization organizationId merged moved after) {client : Client}
    (listed : client ∈ before.clientsOf organizationId) :
    client.inOrganization destOrganization.id ∈ after.clients := by
  rw [isMerged.settling.clients, isMerged.clients.clients, isMerged.memberships.rest.clients]
  exact Rows.mem_update.mpr ⟨client, (mem_clientsOf.mp listed).1, if_pos ⟨client, listed, rfl⟩⟩

theorem OrganizationMerged.membership_elsewhere
    (isMerged : OrganizationMerged before destOrganization organizationId merged moved after) {membership : Membership}
    (member : membership ∈ merged.memberships) (elsewhere : membership.organizationId ≠ organizationId) :
    membership ∈ after.memberships := by
  rw [isMerged.settling.memberships membership elsewhere, isMerged.clients.memberships]
  exact member

/-- A permission on a client of another organization stays. -/
theorem OrganizationMerged.permission_elsewhere (constraintsBefore : Constraints before)
    (isMerged : OrganizationMerged before destOrganization organizationId merged moved after) {permission : Permission}
    (member : permission ∈ before.permissions) (elsewhere : permission.organizationId ≠ organizationId) :
    permission ∈ after.permissions := by
  rcases constraintsBefore.permissionClient permission member with ⟨client, isClient, isId, inOrganization⟩
  have notListed : ∀ listed ∈ before.clientsOf organizationId, listed.id ≠ permission.clientId := by
    rw [← isId]
    apply notListed_of_elsewhere constraintsBefore isClient
    rw [inOrganization]
    exact elsewhere
  have inMerged : permission ∈ merged.permissions := by
    by_cases listed : ∃ membership ∈ before.membershipsOf organizationId, membership.userId = permission.userId
    · rcases listed with ⟨membership, isListed, sameUser⟩
      apply ((isMerged.memberships.merged membership isListed).others permission sameUser.symm _).mpr
      · refine ⟨member, fun _ _ => ?_⟩
        rw [(mem_membershipsOf.mp isListed).2]
        exact elsewhere
      · intro _ _ listed isListedClient same
        exact notListed listed isListedClient same.symm
    · apply (isMerged.memberships.untouched permission _).mpr member
      intro membership isListed same
      exact listed ⟨membership, isListed, same⟩
  rw [isMerged.settling.permissions permission elsewhere, isMerged.clients.permissions]
  refine Rows.mem_update.mpr ⟨permission, inMerged, if_neg ?_⟩
  rintro ⟨listed, isListed, same⟩
  exact notListed listed isListed same

theorem OrganizationMerged.permission_moved (distinct : organizationId ≠ destOrganization.id)
    (isMerged : OrganizationMerged before destOrganization organizationId merged moved after) {permission : Permission}
    (member : permission ∈ merged.permissions) {client : Client} (listed : client ∈ before.clientsOf organizationId)
    (onClient : permission.clientId = client.id) :
    permission.inOrganization destOrganization.id ∈ after.permissions := by
  have inMoved : permission.inOrganization destOrganization.id ∈ moved.permissions := by
    rw [isMerged.clients.permissions]
    exact Rows.mem_update.mpr ⟨permission, member, if_pos ⟨client, listed, onClient.symm⟩⟩
  exact (isMerged.settling.permissions _ distinct.symm).mpr inMoved

end Rows

end Merge

end Zigopt.Organizations
