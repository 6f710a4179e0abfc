/-
Module: Zigopt.Organizations.AccessKept
Layer: Proofs
Purpose: Merging organizations into another one takes no access away from anyone, unless the destination is among
  the organizations that are merged: it is emptied and deleted then.
Main exports: AccessKept, MergeKeepsAccess, keeps_access_of_elsewhere, merge_keeps_access_iff
-/
import Zigopt.Organizations.Access

namespace Zigopt.Organizations

/-- Everybody has the access they had, as a member that they are once, and no permission is without a membership. -/
structure AccessKept (before : Tables) (destOrganizationId : ℕ+) (after : Tables) : Prop where
  access : AccessPreserved before after
  oneMembership : ((after.membershipsOf destOrganizationId).map Membership.userId).Nodup
  ofMembership : ∀ permission ∈ after.permissions, ∃ membership ∈ after.memberships,
    membership.userId = permission.userId ∧ membership.organizationId = permission.organizationId

theorem accessKept_of {before after : Tables} (constraints : Constraints after)
    (preserved : AccessPreserved before after) (destOrganizationId : ℕ+) :
    AccessKept before destOrganizationId after where
  access := preserved
  oneMembership := by
    have keyed := Rows.keyed_filter constraints.memberships
      fun membership => membership.organizationId = destOrganizationId
    change ((after.membershipsOf destOrganizationId).map _).Nodup at keyed
    apply List.Nodup.of_map fun userId => (userId, destOrganizationId)
    rw [List.map_map]
    have sameKeys : (after.membershipsOf destOrganizationId).map
        (fun membership => (membership.userId, membership.organizationId)) =
        (after.membershipsOf destOrganizationId).map
          ((fun userId => (userId, destOrganizationId)) ∘ Membership.userId) := by
      apply List.map_congr_left
      intro membership member
      rw [Function.comp_apply, (mem_membershipsOf.mp member).2]
    rw [← sameKeys]
    exact keyed
  ofMembership := constraints.permissionMembership

/-- However merging ends; where a deleted user is still a member of an organization, if it comes to its end. -/
def MergeKeepsAccess (destOrganizationId : ℕ+) (organizationIds : List ℕ+) : Prop :=
  ∀ (store left : Database) (outcome : Except OrganizationError Unit),
    (mergeOrganizationsIntoDestination destOrganizationId organizationIds).run store = (outcome, left) →
    LiveMembers store.1 ∨ outcome = .ok () → AccessKept store.1 destOrganizationId left.1

/-! ### Other organizations -/

section Elsewhere

variable {before merged moved between after : Tables} {destOrganization : Organization} {organizationId : ℕ+}

theorem OrganizationMerged.liveMembers
    (isMerged : OrganizationMerged before destOrganization organizationId merged moved after)
    (live : LiveMembers before) : LiveMembers after := by
  have sameUsers : after.users = before.users :=
    isMerged.settling.users.trans (isMerged.clients.users.trans isMerged.memberships.rest.users)
  intro membership member
  rw [Tables.findUser, sameUsers]
  have inMerged := isMerged.settling.leftMemberships membership member
  rw [isMerged.clients.memberships] at inMerged
  rcases (isMerged.memberships.memberships membership).mp inMerged with inBefore | ⟨source, isListed, _, isJoined⟩
  · exact live membership inBefore
  · rw [isJoined]
    exact live source (mem_membershipsOf.mp isListed).1

/-- What holds between the organizations that are merged one after the other. -/
structure Merging (before : Tables) (destOrganization : Organization) (between : Tables) : Prop where
  access : AccessPreserved before between
  live : LiveMembers before → LiveMembers between
  destination : destOrganization ∈ between.organizations

/-- One more organization is merged, and access is still what it was. -/
theorem Merging.step (constraintsBetween : Constraints between) (constraints : Constraints after)
    (live : destOrganization.deleted = false) (distinct : organizationId ≠ destOrganization.id)
    (merging : Merging before destOrganization between)
    (isMerged : OrganizationMerged between destOrganization organizationId merged moved after) :
    Merging before destOrganization after where
  access := merging.access.trans (isMerged.access constraintsBetween constraints merging.destination live distinct)
  live liveBefore := isMerged.liveMembers (merging.live liveBefore)
  destination := isMerged.organization_elsewhere merging.destination distinct.symm

theorem ensures_mergeOrganizations {organizationIds : List ℕ+} (live : destOrganization.deleted = false)
    (elsewhere : destOrganization.id ∉ organizationIds) :
    Process.Ensures (fun store : Database => Merging before destOrganization store.1)
      (organizationIds.forM (mergeOrganization destOrganization))
      (fun _ store => Merging before destOrganization store.1)
      fun store => LiveMembers before → Merging before destOrganization store.1 := by
  apply ensures_forM_keeping
  intro organizationId member
  have distinct : organizationId ≠ destOrganization.id := by
    intro same
    rw [same] at member
    exact elsewhere member
  intro store merging
  have ensured := ensures_mergeOrganization store.2 merging.destination distinct store rfl
  cases outcome : (mergeOrganization destOrganization organizationId).run store with
  | mk result left =>
      rw [outcome] at ensured
      cases result with
      | ok value =>
          rcases ensured with ⟨merged, moved, isMerged⟩
          exact merging.step store.2 left.2 live distinct isMerged
      | error failure =>
          intro liveBefore
          rcases ensured (merging.live liveBefore) with ⟨merged, moved, isMerged⟩
          exact merging.step store.2 left.2 live distinct isMerged

/-- Access is kept where the destination is none of the organizations that are merged into it. -/
theorem keeps_access_of_elsewhere {destOrganizationId : ℕ+} {organizationIds : List ℕ+}
    (elsewhere : destOrganizationId ∉ organizationIds) : MergeKeepsAccess destOrganizationId organizationIds := by
  intro store left outcome isRun ended
  apply accessKept_of left.2
  rw [mergeOrganizationsIntoDestination, Process.run_bind_ok (run_query _ store)] at isRun
  cases found : store.1.findOrganization destOrganizationId with
  | none =>
      rw [found] at isRun
      rcases Prod.mk.inj isRun with ⟨_, rfl⟩
      exact AccessPreserved.refl store.1
  | some destOrganization =>
      rw [found] at isRun
      rcases (findOrganization_iff store.2).mp found with ⟨isOrganization, isId, live⟩
      rw [← isId] at elsewhere
      have start : Merging store.1 destOrganization store.1 := ⟨AccessPreserved.refl store.1, id, isOrganization⟩
      have ensured := ensures_mergeOrganizations live elsewhere store start
      rw [isRun] at ensured
      cases outcome with
      | ok value => exact ensured.access
      | error failure =>
          rcases ended with liveMembers | impossible
          · exact (ensured liveMembers).access
          · cases impossible

end Elsewhere

/-! ### The destination itself -/

section Itself

variable {before : Tables} {organization : Organization}

/-- What is left of an organization that has been merged into itself. -/
structure Emptied (before : Tables) (organizationId : ℕ+) (after : Tables) : Prop where
  clients : ∀ client ∈ after.clients, client ∈ before.clients
  memberships : ∀ membership ∈ after.memberships, membership.organizationId ≠ organizationId

theorem ensures_mergeMembership_itself (isOrganization : organization ∈ before.organizations) (clients : List Client)
    {membership : Membership} (member : membership ∈ before.membershipsOf organization.id) {failed : Database → Prop} :
    Process.Ensures (fun store : Database => store.1 = before)
      (mergeMembershipIntoDestination organization clients membership) (fun _ store => store.1 = before) failed := by
  intro store isBefore
  subst isBefore
  rcases mem_membershipsOf.mp member with ⟨isMembership, inOrganization⟩
  have found : store.1.findMembership membership.userId organization.id = some membership :=
    (findMembership_iff store.2).mpr ⟨isMembership, by rw [inOrganization]⟩
  obtain ⟨keeps, isRun⟩ : ∃ keeps, (createIfNotExists membership.userId organization.id (some .member)).run store =
      (.ok ((store.1.findMembership membership.userId organization.id).getD (joining organization membership)),
        ⟨store.1.ensureMembership (joining organization membership), keeps⟩) :=
    run_createIfNotExists store (some .member) (store.2.membershipUser membership isMembership)
      ⟨organization, isOrganization, rfl⟩
  have unchanged : store.1.ensureMembership (joining organization membership) = store.1 := by
    rw [Tables.ensureMembership, joining, found]
  have stillFound : (store.1.ensureMembership (joining organization membership)).findMembership membership.userId
      organization.id = some membership := by
    rw [unchanged, found]
  unfold mergeMembershipIntoDestination
  rw [Process.run_bind_ok isRun, Process.run_bind_ok (run_query _ _)]
  dsimp only
  rw [stillFound]
  dsimp only [mergePermissions]
  rw [if_neg (by simp), if_neg (by simp)]
  exact unchanged

/-- With no invites in between, nothing refuses to merge an organization into itself. -/
theorem ensures_mergeOrganization_itself (constraintsBefore : Constraints before)
    (isOrganization : organization ∈ before.organizations) (noInvites : before.invitesTo organization.id = [])
    {failed : Database → Prop} :
    Process.Ensures (fun store : Database => store.1 = before) (mergeOrganization organization organization.id)
      (fun _ store => Emptied before organization.id store.1) failed := by
  intro store isBefore
  unfold mergeOrganization
  rw [Process.run_bind_ok (run_query _ store), Process.run_bind_ok (run_query _ store)]
  dsimp only
  rw [isBefore]
  have memberships : Process.Ensures (fun store : Database => store.1 = before)
      (mergeMembershipsIntoDestination organization (before.membershipsOf organization.id)
        (before.clientsOf organization.id)) (fun _ store => store.1 = before) failed :=
    @ensures_forM_keeping Membership (· = before) _ _ _ fun membership member =>
      ensures_mergeMembership_itself isOrganization _ member
  refine (memberships.bind ?_) store isBefore
  intro _ between isBetween
  have returned : ∀ body : Invite → OrganizationProcess Unit, ([] : List Invite).forM body = .returned () :=
    fun _ => rfl
  rw [Process.run_bind_ok (run_query _ between), isBetween, noInvites, returned, returned, Process.returned_bind]
  have noneTo : ∀ invite ∈ before.invites, invite.organizationId ≠ some organization.id := by
    intro invite member inOrganization
    have listed : invite ∈ before.invitesTo organization.id := by simp [Tables.invitesTo, member, inOrganization]
    rw [noInvites] at listed
    cases listed
  have ofItself : ∀ permission ∈ before.permissions, permission.organizationId = organization.id →
      ∃ membership ∈ before.memberships,
        membership.userId = permission.userId ∧ membership.organizationId = organization.id := by
    intro permission member inOrganization
    rw [← inOrganization]
    exact constraintsBefore.permissionMembership permission member
  refine ((ensures_moveClients constraintsBefore ⟨organization, isOrganization, rfl⟩ noneTo ofItself).bind ?_) between
    isBetween
  intro _ moved isMoved
  have sameClients : ∀ client ∈ moved.1.clients, client ∈ before.clients := by
    intro client member
    rw [isMoved.clients] at member
    rcases Rows.mem_update.mp member with ⟨old, oldMember, isNew⟩
    by_cases hasMoved : ∃ listed ∈ before.clientsOf organization.id, listed.id = old.id
    · rw [if_pos hasMoved] at isNew
      rcases hasMoved with ⟨listed, isListed, sameId⟩
      rcases mem_clientsOf.mp isListed with ⟨isClient, inOrganization, _⟩
      rw [← constraintsBefore.clientIds.eq_of_key isClient oldMember sameId, Client.inOrganization,
        ← inOrganization] at isNew
      rw [← isNew]
      exact isClient
    · rw [if_neg hasMoved] at isNew
      rw [← isNew]
      exact oldMember
  have settled : Process.Ensures (fun store : Database => ∀ client ∈ store.1.clients, client ∈ before.clients)
      (do
        commit fun tables => tables.deleteMembershipsOf organization.id
        deleteOrganization organization.id)
      (fun _ store => Emptied before organization.id store.1) failed := by
    have emptied : Process.Ensures (fun store : Database => ∀ client ∈ store.1.clients, client ∈ before.clients)
        (commit fun tables => tables.deleteMembershipsOf organization.id)
        (fun _ store => Emptied before organization.id store.1) failed := by
      apply Process.ensures_commit_of
      · intro store _
        exact constraints_deleteMembershipsOf store.2 organization.id
      · intro store clients _
        refine ⟨clients, ?_⟩
        intro membership member
        exact of_decide_eq_true (List.mem_filter.mp member).2
    apply emptied.bind
    intro _
    have invitesDeleted : Process.Ensures (fun store : Database => Emptied before organization.id store.1)
        (commit fun tables => tables.deleteInvites fun invite => invite.organizationId = some organization.id)
        (fun _ store => Emptied before organization.id store.1) failed := by
      apply Process.ensures_commit_of
      · intro store _
        exact constraints_deleteInvites store.2 _
      · intro store emptied _
        exact ⟨emptied.clients, emptied.memberships⟩
    apply invitesDeleted.bind
    intro _
    have stillEmptied : Process.Ensures (fun store : Database => Emptied before organization.id store.1)
        (commit fun tables => tables.deleteMembershipsOf organization.id)
        (fun _ store => Emptied before organization.id store.1) failed := by
      apply Process.ensures_commit_of
      · intro store _
        exact constraints_deleteMembershipsOf store.2 organization.id
      · intro store emptied _
        exact ⟨emptied.clients, fun membership member => emptied.memberships membership (List.mem_of_mem_filter member)⟩
    apply stillEmptied.bind
    intro _
    apply Process.ensures_commit_of
    · intro store _
      exact constraints_markOrganizationDeleted store.2 organization.id
    · intro store emptied _
      exact ⟨emptied.clients, emptied.memberships⟩
  exact settled moved sameClients

/-- Nobody has access to the clients of an organization that has been emptied. -/
theorem Emptied.access {after : Tables} (constraintsBefore : Constraints before) (constraints : Constraints after)
    {organizationId : ℕ+} (emptied : Emptied before organizationId after) {client : Client}
    (member : client ∈ before.clients) (inOrganization : client.organizationId = organizationId) (userId : ℕ+) :
    effectiveAccess after userId client.id = {} := by
  rcases reaches_or_none constraints userId client.id with none | ⟨other, reached, membership, sameId, reaches⟩
  · exact none
  · have isClient := constraintsBefore.clientIds.eq_of_key (emptied.clients other reaches.isClient) member sameId
    have ofEmptied : membership.organizationId = organizationId := by
      rw [reaches.ofOrganization, ← reaches.inOrganization, isClient, inOrganization]
    exact absurd ofEmptied (emptied.memberships membership reaches.isMembership)

/-- An organization with one owner and one client. -/
def ownedTables (organizationId : ℕ+) : Tables where
  users := [{ id := 1, email := "owner@example.com" }]
  organizations := [{ id := organizationId }]
  clients := [{ id := 1, organizationId := organizationId }]
  memberships := [{ userId := 1, organizationId := organizationId, membershipType := .owner }]

theorem constraints_ownedTables (organizationId : ℕ+) : Constraints (ownedTables organizationId) := by
  constructor <;> simp [ownedTables, Rows.Keyed]

theorem ownedTables_access (organizationId : ℕ+) : effectiveAccess (ownedTables organizationId) 1 1 = adminMeta := by
  have reaches : Reaches (ownedTables organizationId) 1 { id := 1, organizationId := organizationId }
      { id := organizationId } { userId := 1, organizationId := organizationId, membershipType := .owner } := by
    constructor <;> simp [ownedTables]
  have access := reaches.access (constraints_ownedTables organizationId)
  exact access

theorem ensures_merge_itself (organizationId : ℕ+) {failed : Database → Prop} :
    Process.Ensures (fun store : Database => store.1 = ownedTables organizationId)
      (mergeOrganizationsIntoDestination organizationId [organizationId])
      (fun _ store => Emptied (ownedTables organizationId) organizationId store.1) failed := by
  intro store isOwned
  have constraints := constraints_ownedTables organizationId
  have isOrganization : ({ id := organizationId } : Organization) ∈ (ownedTables organizationId).organizations :=
    List.mem_singleton_self _
  have found : store.1.findOrganization organizationId = some { id := organizationId } := by
    rw [isOwned]
    exact (findOrganization_iff constraints).mpr ⟨isOrganization, rfl, rfl⟩
  rw [mergeOrganizationsIntoDestination, Process.run_bind_ok (run_query _ store), found]
  have alone : [organizationId].forM (mergeOrganization { id := organizationId }) =
      (mergeOrganization { id := organizationId } organizationId >>= fun _ => .returned ()) := rfl
  dsimp only
  rw [alone]
  refine ((ensures_mergeOrganization_itself constraints isOrganization rfl).bind ?_) store isOwned
  intro _
  exact Process.ensures_returned fun _ emptied => emptied

/-- An organization that is merged into itself loses all of its memberships. -/
theorem loses_access_by_itself (organizationId : ℕ+) : ¬MergeKeepsAccess organizationId [organizationId] := by
  intro keeps
  have constraints := constraints_ownedTables organizationId
  have ensured : Process.Ensures _ _ _ fun _ => False := ensures_merge_itself organizationId
  have emptied := ensured ⟨ownedTables organizationId, constraints⟩ rfl
  cases isRun : (mergeOrganizationsIntoDestination organizationId [organizationId]).run
      ⟨ownedTables organizationId, constraints⟩ with
  | mk outcome left =>
      rw [isRun] at emptied
      cases outcome with
      | error failure => exact emptied
      | ok value =>
          have kept := (keeps _ left _ isRun (.inr rfl)).access 1 1
          have isClient : ({ id := 1, organizationId := organizationId } : Client) ∈
              (ownedTables organizationId).clients := List.mem_singleton_self _
          have nothing : effectiveAccess left.1 1 1 = {} :=
            emptied.access constraints left.2 isClient rfl 1
          rw [nothing, ownedTables_access] at kept
          have impossible : true ≤ false := kept.canRead
          exact absurd impossible (by decide)

end Itself

/-! ### Main results -/

/-- Merging an organization into another one keeps everyone's access exactly if the two are different ones. -/
theorem merge_keeps_access_iff (destOrganizationId organizationId : ℕ+) :
    MergeKeepsAccess destOrganizationId [organizationId] ↔ organizationId ≠ destOrganizationId := by
  constructor
  · rintro keeps rfl
    exact loses_access_by_itself organizationId keeps
  · intro distinct
    apply keeps_access_of_elsewhere
    rw [List.mem_singleton]
    exact distinct.symm

/-- An organization that is merged into itself is deleted with its memberships. -/
theorem merge_loses_access :
    ¬∀ destOrganizationId organizationId, MergeKeepsAccess destOrganizationId [organizationId] :=
  fun keeps => loses_access_by_itself 1 (keeps 1 1)

end Zigopt.Organizations
