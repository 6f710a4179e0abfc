/-
Module: Zigopt.Authorization.Restriction
Layer: Proofs
Purpose: A token that is restricted to a client grants nothing that its user is not granted by a login, and where the
  owner's list of experiments differs from the check of each.
Main exports: UserAuthorization.ReadFrom, authorization_restricts
-/
import Zigopt.Authorization.Model
import Zigopt.Lib.Raising
import Zigopt.Organizations.Access

namespace Zigopt.Authorization

open Organizations (User Organization Client Membership Permission Tables Database EmailCalls
  hasVerifiedEmailIfNeeded Constraints)

/-! ### Restrictions that were read from the tables -/

/-- The membership and the permission of a restriction are rows, and the client of the permission is not deleted. -/
structure UserAuthorization.ReadFrom (tables : Tables) (auth : UserAuthorization) : Prop where
  membership : ∀ membership ∈ auth.scopedMembership, membership ∈ tables.memberships
  permission : ∀ permission ∈ auth.scopedPermission, permission ∈ tables.permissions
  client : ∀ permission ∈ auth.scopedPermission, ∀ client ∈ tables.clients, client.id = permission.clientId →
    client.deleted = false

section Scoped

variable {calls : EmailCalls} {tables : Tables} {auth : UserAuthorization}

theorem noMembershipStatus_not_granted : auth.noMembershipStatus calls ≠ .granted := by
  unfold UserAuthorization.noMembershipStatus
  split
  · exact Answer.noConfusion
  · exact Answer.noConfusion

theorem membership_of_unscoped (user : User) (organization : Organization) :
    (UserAuthorization.unscoped user).membership calls tables (some organization) =
      if hasVerifiedEmailIfNeeded calls user then tables.findMembership user.id organization.id else none := rfl

/-- The membership of a restriction is the one that is found. -/
theorem membership_unscoped (constraints : Constraints tables) (readFrom : auth.ReadFrom tables)
    {organization : Option Organization} {membership : Membership}
    (found : auth.membership calls tables organization = some membership) :
    (UserAuthorization.unscoped auth.currentUser).membership calls tables organization = some membership := by
  cases organization with
  | none => cases found
  | some organization =>
      rw [membership_of_unscoped]
      unfold UserAuthorization.membership at found
      simp only at found
      by_cases verified : hasVerifiedEmailIfNeeded calls auth.currentUser = true
      · rw [if_pos verified] at found ⊢
        cases restriction : auth.scopedMembership with
        | none => simpa [restriction] using found
        | some restricting =>
            simp only [restriction] at found
            split at found
            · rename_i inOrganization
              cases found
              rw [Organizations.findMembership_iff constraints, inOrganization,
                auth.membershipOfUser membership restriction]
              exact ⟨readFrom.membership membership restriction, rfl⟩
            · cases found
      · rw [if_neg verified] at found
        cases found

theorem permission_unscoped (constraints : Constraints tables) (readFrom : auth.ReadFrom tables) {clientId : ℕ+}
    {permission : Permission} (found : auth.permission tables clientId = some permission) :
    (UserAuthorization.unscoped auth.currentUser).permission tables clientId = some permission := by
  unfold UserAuthorization.permission at found ⊢
  simp only [UserAuthorization.unscoped]
  cases restriction : auth.scopedPermission with
  | none => simpa [restriction] using found
  | some restricting =>
      simp only [restriction] at found
      split at found
      · rename_i ofClient
        cases found
        rw [Organizations.findPermission_iff constraints, ofClient, auth.permissionOfUser permission restriction]
        exact ⟨readFrom.permission permission restriction, rfl⟩
      · cases found

/-- The organization of a permission is that of its client, which is not deleted. -/
theorem inferOrganizationId_unscoped (constraints : Constraints tables) (readFrom : auth.ReadFrom tables)
    {clientId : Option ℕ+} {organizationId : ℕ+}
    (inferred : auth.inferOrganizationIdFromClientId tables clientId = some organizationId) :
    (clientId.bind tables.findClient).map Client.organizationId = some organizationId := by
  unfold UserAuthorization.inferOrganizationIdFromClientId at inferred
  cases restriction : auth.scopedPermission with
  | none => simpa [restriction] using inferred
  | some restricting =>
      simp only [restriction] at inferred
      split at inferred
      · rename_i ofClient
        cases inferred
        obtain ⟨client, isClient, sameId, sameOrganization⟩ :=
          constraints.permissionClient restricting (readFrom.permission restricting restriction)
        have live := readFrom.client restricting restriction client isClient sameId
        have found : tables.findClient restricting.clientId = some client :=
          (Organizations.findClient_iff constraints).mpr ⟨isClient, sameId, live⟩
        rw [← ofClient]
        simp [found, sameOrganization]
      · exact inferred

theorem inferOrganizationId_of_unscoped (user : User) (clientId : Option ℕ+) :
    (UserAuthorization.unscoped user).inferOrganizationIdFromClientId tables clientId =
      (clientId.bind tables.findClient).map Client.organizationId := rfl

/-! ### What is granted -/

theorem ofBool_granted {isGranted : Bool} : Answer.ofBool isGranted = .granted ↔ isGranted = true := by
  cases isGranted with
  | false => simp [Answer.ofBool]
  | true => simp [Answer.ofBool]

theorem onlyIf_granted {condition : Bool} {answer : Answer} :
    Answer.onlyIf condition answer = .granted ↔ condition = true ∧ answer = .granted := by
  cases condition with
  | false => simp [Answer.onlyIf]
  | true => simp [Answer.onlyIf]

theorem and_granted {answer other : Answer} :
    answer.and other = .granted ↔ answer = .granted ∧ other = .granted := by
  cases answer with
  | granted => simp [Answer.and]
  | denied => simp [Answer.and]
  | needsEmailVerification => simp [Answer.and]

theorem comparePermissions_some {currentPermission : Option Permission} {requested : Requested}
    (granted : UserAuthorization.comparePermissions currentPermission requested = .granted) :
    ∃ permission, currentPermission = some permission := by
  cases currentPermission with
  | none => cases requested <;> cases granted
  | some permission => exact ⟨permission, rfl⟩

/-- An owner of the organization is granted everything on its clients, and a member what the permission says. -/
theorem canActOnClientId_granted {requested : Requested} {clientId : ℕ+} {organizationId : Option ℕ+} :
    auth.canActOnClientId calls tables requested clientId organizationId = .granted ↔
      ∃ inferred organization membership,
        (organizationId.orElse fun _ => auth.inferOrganizationIdFromClientId tables (some clientId)) = some inferred ∧
          tables.findOrganization inferred = some organization ∧
          auth.membership calls tables (some organization) = some membership ∧
          (membership.isOwner = true ∨
            UserAuthorization.comparePermissions (auth.permission tables clientId) requested = .granted) := by
  unfold UserAuthorization.canActOnClientId
  simp only
  cases known : organizationId.orElse fun _ => auth.inferOrganizationIdFromClientId tables (some clientId) with
  | none => simp [UserAuthorization.membership, noMembershipStatus_not_granted]
  | some inferred =>
      cases found : tables.findOrganization inferred with
      | none => simp [UserAuthorization.membership, noMembershipStatus_not_granted, found]
      | some organization =>
          cases joined : auth.membership calls tables (some organization) with
          | none => simp [joined, noMembershipStatus_not_granted, found]
          | some membership =>
              cases owner : membership.isOwner with
              | true => simp [joined, owner, found]
              | false => simp [joined, owner, found]

theorem canActOnOrganization_granted {requested : Requested} {organization : Organization} :
    auth.canActOnOrganization calls tables requested organization = .granted ↔
      ∃ membership, auth.membership calls tables (some organization) = some membership ∧
        (requested = .read ∨ (requested = .write ∨ requested = .admin) ∧ membership.isOwner = true) := by
  unfold UserAuthorization.canActOnOrganization
  cases joined : auth.membership calls tables (some organization) with
  | none => simp [noMembershipStatus_not_granted]
  | some membership => cases requested <;> simp [ofBool_granted]

/-- The permission of a member lets the artifacts of others be seen, or it is one of their own. -/
theorem canActOnClientArtifacts_granted {requested : Requested} {clientId ownerIdForArtifacts : Option ℕ+} :
    auth.canActOnClientArtifacts calls tables requested clientId ownerIdForArtifacts = .granted ↔
      ∃ ofClient inferred organization membership, clientId = some ofClient ∧
        auth.inferOrganizationIdFromClientId tables clientId = some inferred ∧
        tables.findOrganization inferred = some organization ∧
        auth.membership calls tables (some organization) = some membership ∧
        (membership.isOwner = true ∨
          ∃ permission, auth.permission tables ofClient = some permission ∧
            (permission.permissionMeta.canSeeExperimentsByOthers = true ∨
              some auth.currentUser.id = ownerIdForArtifacts) ∧
            UserAuthorization.comparePermissions (some permission) requested = .granted) := by
  unfold UserAuthorization.canActOnClientArtifacts
  cases clientId with
  | none => simp
  | some clientId =>
      cases known : auth.inferOrganizationIdFromClientId tables (some clientId) with
      | none => simp
      | some inferred =>
          cases found : tables.findOrganization inferred with
          | none => simp [UserAuthorization.membership, noMembershipStatus_not_granted, found]
          | some organization =>
              cases joined : auth.membership calls tables (some organization) with
              | none => simp [joined, noMembershipStatus_not_granted, found]
              | some membership =>
                  cases owner : membership.isOwner with
                  | true => simp [joined, owner, found]
                  | false =>
                      cases permitted : auth.permission tables clientId with
                      | none => simp [joined, owner, found, permitted]
                      | some permission =>
                          by_cases visible : permission.permissionMeta.canSeeExperimentsByOthers = true ∨
                              some auth.currentUser.id = ownerIdForArtifacts
                          · simp [joined, owner, found, permitted, visible]
                          · simp [joined, owner, found, permitted, visible, noMembershipStatus_not_granted]

/-! ### Nothing is added -/

/-- The three checks of a restricted user that are granted are granted to the login. -/
theorem canActOnClientArtifacts_unscoped (constraints : Constraints tables) (readFrom : auth.ReadFrom tables)
    {requested : Requested} {clientId ownerIdForArtifacts : Option ℕ+}
    (granted : auth.canActOnClientArtifacts calls tables requested clientId ownerIdForArtifacts = .granted) :
    (UserAuthorization.unscoped auth.currentUser).canActOnClientArtifacts calls tables requested clientId
      ownerIdForArtifacts = .granted := by
  rw [canActOnClientArtifacts_granted] at granted ⊢
  obtain ⟨ofClient, inferred, organization, membership, isClient, known, found, joined, allowed⟩ := granted
  refine ⟨ofClient, inferred, organization, membership, isClient,
    inferOrganizationId_unscoped constraints readFrom known, found, membership_unscoped constraints readFrom joined, ?_⟩
  rcases allowed with owner | ⟨permission, permitted, visible, compared⟩
  · exact .inl owner
  · exact .inr ⟨permission, permission_unscoped constraints readFrom permitted, visible, compared⟩

theorem canActOnOrganization_unscoped (constraints : Constraints tables) (readFrom : auth.ReadFrom tables)
    {requested : Requested} {organization : Organization}
    (granted : auth.canActOnOrganization calls tables requested organization = .granted) :
    (UserAuthorization.unscoped auth.currentUser).canActOnOrganization calls tables requested organization =
      .granted := by
  rw [canActOnOrganization_granted] at granted ⊢
  obtain ⟨membership, joined, allowed⟩ := granted
  exact ⟨membership, membership_unscoped constraints readFrom joined, allowed⟩

/-- Of a client that is a row the organization need not be inferred. -/
theorem canActOnClient_unscoped (constraints : Constraints tables) (readFrom : auth.ReadFrom tables)
    {requested : Requested} {client : Client} (isClient : client ∈ tables.clients) {organizationId : Option ℕ+}
    (ofClient : organizationId = none ∨ organizationId = some client.organizationId)
    (granted : auth.canActOnClientId calls tables requested client.id organizationId = .granted) :
    (UserAuthorization.unscoped auth.currentUser).canActOnClient calls tables requested client = .granted := by
  unfold UserAuthorization.canActOnClient
  rw [canActOnClientId_granted] at granted ⊢
  obtain ⟨inferred, organization, membership, known, found, joined, allowed⟩ := granted
  have sameOrganization : inferred = client.organizationId := by
    rcases ofClient with rfl | rfl
    · have read := inferOrganizationId_unscoped constraints readFrom known
      simp only [Option.bind_some, Option.map_eq_some_iff] at read
      obtain ⟨other, isFound, ofOther⟩ := read
      obtain ⟨isOther, sameId, _⟩ := (Organizations.findClient_iff constraints).mp isFound
      rw [← ofOther, Rows.Keyed.eq_of_key constraints.clientIds isOther isClient sameId]
    · exact (Option.some.inj known).symm
  subst sameOrganization
  refine ⟨client.organizationId, organization, membership, rfl, found,
    membership_unscoped constraints readFrom joined, ?_⟩
  rcases allowed with owner | compared
  · exact .inl owner
  · obtain ⟨permission, permitted⟩ := comparePermissions_some compared
    rw [permitted] at compared
    rw [permission_unscoped constraints readFrom permitted]
    exact .inr compared

end Scoped

/-! ### Logins -/

def requestedOf : Organizations.RequestedPermission → Requested
  | .read => .read
  | .write => .write
  | .admin => .admin

theorem comparePermissions_requestedOf (permission : Permission) (requested : Organizations.RequestedPermission) :
    UserAuthorization.comparePermissions (some permission) (requestedOf requested) = .granted ↔
      permission.permissionMeta.allows requested = true := by
  cases requested with
  | read => exact ofBool_granted
  | write => exact ofBool_granted
  | admin => exact ofBool_granted

section Logins

variable (calls : EmailCalls) (tables : Tables) (user : User) (requested : Organizations.RequestedPermission)
  (clientId : ℕ+)

/-- A login finds its membership if its email is verified, where it has to be. -/
theorem unscoped_membership (organization : Organization) :
    (UserAuthorization.unscoped user).membership calls tables (some organization) =
      if hasVerifiedEmailIfNeeded calls user then tables.findMembership user.id organization.id else none := rfl

/-- A login is granted on a client what its effective access allows. -/
theorem unscoped_canActOnClientId :
    (UserAuthorization.unscoped user).canActOnClientId calls tables (requestedOf requested) clientId none = .granted ↔
      hasVerifiedEmailIfNeeded calls user = true ∧
        (Organizations.effectiveAccess tables user.id clientId).allows requested = true := by
  have nothing : Organizations.PermissionMeta.allows {} requested = false := by cases requested <;> rfl
  have everything : Organizations.adminMeta.allows requested = true := by cases requested <;> rfl
  have permitted : (UserAuthorization.unscoped user).permission tables clientId =
      tables.findPermission clientId user.id := rfl
  rw [canActOnClientId_granted]
  unfold Organizations.effectiveAccess
  simp only [Option.orElse, inferOrganizationId_of_unscoped, Option.bind_some, permitted]
  cases tables.findClient clientId with
  | none => simp [nothing]
  | some client =>
      cases live : tables.findOrganization client.organizationId with
      | none => simp [live, nothing]
      | some organization =>
          cases verified : hasVerifiedEmailIfNeeded calls user with
          | false => simp [live, unscoped_membership, verified]
          | true =>
              cases joined : tables.findMembership user.id organization.id with
              | none => simp [live, unscoped_membership, verified, joined, nothing]
              | some membership =>
                  cases owner : membership.isOwner with
                  | true => simp [live, unscoped_membership, verified, joined, owner, everything]
                  | false =>
                      cases found : tables.findPermission clientId user.id with
                      | none =>
                          cases requested <;>
                            simp [live, unscoped_membership, verified, joined, owner, nothing, requestedOf,
                              UserAuthorization.comparePermissions, ofBool_granted]
                      | some permission =>
                          simp [live, unscoped_membership, verified, joined, owner, comparePermissions_requestedOf]

/-- The artifacts of others are hidden from a login whose effective access does not let them be seen. -/
theorem unscoped_canActOnClientArtifacts (ownerIdForArtifacts : Option ℕ+) :
    (UserAuthorization.unscoped user).canActOnClientArtifacts calls tables (requestedOf requested) (some clientId)
        ownerIdForArtifacts = .granted ↔
      hasVerifiedEmailIfNeeded calls user = true ∧
        (Organizations.effectiveAccess tables user.id clientId).allows requested = true ∧
        ((Organizations.effectiveAccess tables user.id clientId).canSeeExperimentsByOthers = true ∨
          some user.id = ownerIdForArtifacts) := by
  have nothing : Organizations.PermissionMeta.allows {} requested = false := by cases requested <;> rfl
  have everything : Organizations.adminMeta.allows requested = true := by cases requested <;> rfl
  have seesAll : Organizations.adminMeta.canSeeExperimentsByOthers = true := rfl
  have permitted : (UserAuthorization.unscoped user).permission tables clientId =
      tables.findPermission clientId user.id := rfl
  have ownId : (UserAuthorization.unscoped user).currentUser.id = user.id := rfl
  rw [canActOnClientArtifacts_granted]
  unfold Organizations.effectiveAccess
  simp only [Option.some.injEq, exists_and_left, exists_eq_left', inferOrganizationId_of_unscoped, Option.bind_some,
    permitted, ownId]
  cases tables.findClient clientId with
  | none => simp [nothing]
  | some client =>
      cases live : tables.findOrganization client.organizationId with
      | none => simp [live, nothing]
      | some organization =>
          cases verified : hasVerifiedEmailIfNeeded calls user with
          | false => simp [live, unscoped_membership, verified]
          | true =>
              cases joined : tables.findMembership user.id organization.id with
              | none => simp [live, unscoped_membership, verified, joined, nothing]
              | some membership =>
                  cases owner : membership.isOwner with
                  | true => simp [live, unscoped_membership, verified, joined, owner, everything, seesAll]
                  | false =>
                      cases found : tables.findPermission clientId user.id with
                      | none => simp [live, unscoped_membership, verified, joined, owner, nothing]
                      | some permission =>
                          simp [live, unscoped_membership, verified, joined, owner, comparePermissions_requestedOf,
                            and_comm]

end Logins

/-! ### Tokens -/

section Tokens

variable {calls : EmailCalls} {store : Store} {requested : Requested}

/-- An owner's token grants what the restricted user is granted, in the organization of the client. -/
theorem owner_granted {auth : OwnerAuthorization} (readFrom : auth.userAuthorization.ReadFrom store.tables)
    {target : Target} (isStored : target.StoredIn store.tables)
    (granted : (AnyAuthorization.owner auth).canActOn calls store requested target = .granted) :
    (AnyAuthorization.user (.unscoped auth.currentUser)).canActOn calls store requested target = .granted := by
  have artifacts : ∀ {clientId ownerIdForArtifacts : Option ℕ+},
      auth.canActOnClientArtifacts calls store.tables requested clientId ownerIdForArtifacts = .granted →
      (UserAuthorization.unscoped auth.currentUser).canActOnClientArtifacts calls store.tables requested clientId
        ownerIdForArtifacts = .granted := by
    intro clientId ownerIdForArtifacts granted
    unfold OwnerAuthorization.canActOnClientArtifacts at granted
    split at granted
    · cases granted
    · rw [← auth.sameUser]
      exact canActOnClientArtifacts_unscoped store.database.2 readFrom (and_granted.mp granted).2
  cases target with
  | client client =>
      have ofUser := (onlyIf_granted.mp granted).2
      rw [← auth.sameUser]
      exact canActOnClient_unscoped store.database.2 readFrom isStored (.inr rfl) ofUser
  | project project => exact artifacts granted
  | experiment experiment => exact artifacts granted
  | trainingRun trainingRun => exact artifacts granted
  | organization organization =>
      have ofUser := (onlyIf_granted.mp granted).2
      rw [← auth.sameUser]
      exact canActOnOrganization_unscoped store.database.2 readFrom ofUser

/-- A member's token grants what the restricted user is granted, on the client of the permission. -/
theorem member_granted {auth : MemberAuthorization} (readFrom : auth.userAuthorization.ReadFrom store.tables)
    {target : Target} (isStored : target.StoredIn store.tables)
    (granted : (AnyAuthorization.member auth).canActOn calls store requested target = .granted) :
    (AnyAuthorization.user (.unscoped auth.currentUser)).canActOn calls store requested target = .granted := by
  have artifacts : ∀ {clientId ownerIdForArtifacts : Option ℕ+},
      auth.canActOnClientArtifacts calls store.tables requested clientId ownerIdForArtifacts = .granted →
      (UserAuthorization.unscoped auth.currentUser).canActOnClientArtifacts calls store.tables requested clientId
        ownerIdForArtifacts = .granted := by
    intro clientId ownerIdForArtifacts granted
    unfold MemberAuthorization.canActOnClientArtifacts at granted
    split at granted
    · rw [← auth.sameUser]
      exact canActOnClientArtifacts_unscoped store.database.2 readFrom (onlyIf_granted.mp granted).2
    · cases granted
  cases target with
  | client client =>
      have ofUser := (onlyIf_granted.mp granted).2
      rw [← auth.sameUser]
      exact canActOnClient_unscoped store.database.2 readFrom isStored (.inl rfl) ofUser
  | project project => exact artifacts granted
  | experiment experiment => exact artifacts granted
  | trainingRun trainingRun => exact artifacts granted
  | organization organization =>
      have ofUser := (onlyIf_granted.mp granted).2
      rw [← auth.sameUser]
      exact canActOnOrganization_unscoped store.database.2 readFrom ofUser

end Tokens

/-! ### Authentication -/

section Authentication

variable {tables : Tables} {token : Tokens.Token}

/-- The restrictions of a result are rows about its user and its client, which is not deleted. -/
structure AuthenticationResult.ReadFrom (tables : Tables) (token : Tokens.Token) (result : AuthenticationResult) :
    Prop where
  client : ∀ client ∈ result.client, client ∈ tables.clients ∧ client.deleted = false
  membership : ∀ membership ∈ result.membership, membership ∈ tables.memberships
  permission : ∀ permission ∈ result.permission, permission ∈ tables.permissions ∧
    ∃ client ∈ result.client, client.id = permission.clientId
  alone : result.client = none → result.membership = none ∧ result.permission = none
  ofUser : result.client.isSome = true → result.user = none → token.userId = none

theorem readFrom_nothing : AuthenticationResult.ReadFrom tables token {} where
  client _ member := by cases member
  membership _ member := by cases member
  permission _ member := by cases member
  alone _ := ⟨rfl, rfl⟩
  ofUser isSome := by cases isSome

theorem authenticateUserToken_ok {result : AuthenticationResult}
    (authenticated : authenticateUserToken tables token = .ok result) :
    AuthenticationResult.ReadFrom tables token result := by
  unfold authenticateUserToken at authenticated
  split at authenticated
  · split at authenticated
    · cases authenticated
    · cases authenticated
      exact ⟨nofun, nofun, nofun, fun _ => ⟨rfl, rfl⟩, nofun⟩
  · cases authenticated
    exact readFrom_nothing

theorem authenticateClientToken_ok (constraints : Constraints tables) {result : AuthenticationResult}
    (authenticated : authenticateClientToken tables token = .ok result) :
    AuthenticationResult.ReadFrom tables token result := by
  unfold authenticateClientToken at authenticated
  split at authenticated
  · cases authenticated
    exact readFrom_nothing
  · rename_i client isFound
    obtain ⟨clientId, _, found⟩ := Option.bind_eq_some_iff.mp isFound
    have isClient : client ∈ tables.clients := List.mem_of_find?_eq_some found
    split at authenticated
    · cases authenticated
    · rename_i live
      have live : client.deleted = false := by simpa using live
      split at authenticated
      · rename_i noUser
        cases authenticated
        refine ⟨?_, nofun, nofun, nofun, fun _ _ => noUser⟩
        intro other member
        cases member
        exact ⟨isClient, live⟩
      · rename_i userId ofUser
        split at authenticated
        · cases authenticated
          exact readFrom_nothing
        · rename_i user isUser
          split at authenticated
          · cases authenticated
            exact readFrom_nothing
          · rename_i membership joined
            simp only at authenticated
            split at authenticated
            · split at authenticated
              · cases authenticated
              · cases authenticated
                refine ⟨?_, ?_, ?_, nofun, nofun⟩
                · intro other member
                  cases member
                  exact ⟨isClient, live⟩
                · intro other member
                  cases member
                  exact ((Organizations.findMembership_iff constraints).mp joined).1
                · intro permission permitted
                  obtain ⟨isPermission, sameKey⟩ := (Organizations.findPermission_iff constraints).mp permitted
                  exact ⟨isPermission, client, rfl, (congrArg Prod.fst sameKey).symm⟩
            · cases authenticated
              exact readFrom_nothing

theorem authenticateToken_ok (constraints : Constraints tables) {result : AuthenticationResult}
    (authenticated : authenticateToken tables token = .ok result) :
    AuthenticationResult.ReadFrom tables token result := by
  unfold authenticateToken at authenticated
  split at authenticated
  · exact authenticateUserToken_ok authenticated
  · exact authenticateClientToken_ok constraints authenticated
  · exact authenticateClientToken_ok constraints authenticated
  · exact authenticateClientToken_ok constraints authenticated

/-- The user of a restricted token has the restrictions of the result. -/
theorem userAuthorizationOf_ok {user : User} {membership : Option Membership} {permission : Option Permission}
    {auth : UserAuthorization} (built : userAuthorizationOf user membership permission = .ok auth) :
    auth.currentUser = user ∧ auth.scopedMembership = membership ∧ auth.scopedPermission = permission := by
  unfold userAuthorizationOf at built
  split at built
  · cases built
    exact ⟨rfl, rfl, rfl⟩
  · cases built

/-- What an authorization of a token is, by its kind. -/
def AnyAuthorization.BuiltFor (tables : Tables) (token : Tokens.Token) : AnyAuthorization → Prop
  | .empty => False
  | .user auth => auth = .unscoped auth.currentUser
  | .owner auth => auth.userAuthorization.ReadFrom tables
  | .member auth => auth.userAuthorization.ReadFrom tables
  | .client _ | .guest _ | .signupLink _ => token.userId = none

theorem readFrom_of_result (constraints : Constraints tables) {result : AuthenticationResult}
    (readFrom : AuthenticationResult.ReadFrom tables token result) {user : User} {auth : UserAuthorization}
    (built : userAuthorizationOf user result.membership result.permission = .ok auth) : auth.ReadFrom tables := by
  obtain ⟨_, sameMembership, samePermission⟩ := userAuthorizationOf_ok built
  refine ⟨?_, ?_, ?_⟩
  · rw [sameMembership]
    exact readFrom.membership
  · rw [samePermission]
    exact fun permission member => (readFrom.permission permission member).1
  · rw [samePermission]
    intro permission member client isClient sameId
    obtain ⟨_, other, isOther, otherId⟩ := readFrom.permission permission member
    obtain ⟨isRow, live⟩ := readFrom.client other isOther
    rw [Rows.Keyed.eq_of_key constraints.clientIds isClient isRow (sameId.trans otherId.symm)]
    exact live

theorem doApiTokenAuthentication_ok (constraints : Constraints tables) {appUrl : String} {auth : AnyAuthorization}
    (authenticated : doApiTokenAuthentication tables token appUrl = .ok auth) : auth.BuiltFor tables token := by
  unfold doApiTokenAuthentication at authenticated
  obtain ⟨result, isResult, authenticated⟩ := Raising.bind_eq_ok.mp authenticated
  have readFrom := authenticateToken_ok constraints isResult
  split at authenticated
  · rename_i client user membership isClient isUser isMembership
    obtain ⟨restricted, built, authenticated⟩ := Raising.bind_eq_ok.mp authenticated
    rw [← isMembership] at built
    have scopedFrom := readFrom_of_result constraints readFrom built
    split at authenticated
    · obtain ⟨owner, constructed, authenticated⟩ := Raising.bind_eq_ok.mp authenticated
      cases authenticated
      unfold constructOwner at constructed
      split at constructed
      · cases constructed
        exact scopedFrom
      · cases constructed
    · split at authenticated
      · obtain ⟨member, constructed, authenticated⟩ := Raising.bind_eq_ok.mp authenticated
        cases authenticated
        unfold constructMember at constructed
        split at constructed
        · cases constructed
          exact scopedFrom
        · cases constructed
      · cases authenticated
  · rename_i client isClient isUser isMembership
    have noUser := readFrom.ofUser (by rw [isClient]; rfl) isUser
    unfold authorizeClient at authenticated
    split at authenticated
    · split at authenticated
      · cases authenticated
        exact noUser
      · split at authenticated
        · cases authenticated
          exact noUser
        · cases authenticated
          exact noUser
    · cases authenticated
  · cases authenticated
  · rename_i user isClient isUser
    obtain ⟨restricted, built, authenticated⟩ := Raising.bind_eq_ok.mp authenticated
    cases authenticated
    obtain ⟨noMembership, noPermission⟩ := readFrom.alone isClient
    obtain ⟨_, sameMembership, samePermission⟩ := userAuthorizationOf_ok built
    obtain ⟨currentUser, scopedMembership, scopedPermission, _, _⟩ := restricted
    simp only at sameMembership samePermission
    rw [noMembership] at sameMembership
    rw [noPermission] at samePermission
    subst sameMembership samePermission
    rfl
  · cases authenticated

end Authentication

/-! ### Tokens without a user -/

/-- The client itself, what is the client's, or its organization. -/
def Target.IsOf (client : Client) : Target → Prop
  | .client target => target.id = client.id
  | .project target => target.clientId = client.id
  | .experiment target => target.clientId = some client.id
  | .trainingRun target => target.clientId = client.id
  | .organization target => target.id = client.organizationId

section Userless

variable {calls : EmailCalls} {store : Store} {requested : Requested} {target : Target}

theorem client_granted {auth : ClientAuthorization}
    (granted : (AnyAuthorization.client auth).canActOn calls store requested target = .granted) :
    requested ≠ .admin ∧ target.IsOf auth.currentClient := by
  have ofClient : ∀ {clientId : Option ℕ+}, auth.canActOnClientId requested clientId = .granted →
      requested ≠ .admin ∧ clientId = some auth.currentClient.id := by
    intro clientId granted
    unfold ClientAuthorization.canActOnClientId at granted
    cases requested with
    | none => cases granted
    | read => simp_all [ofBool_granted]
    | write => simp_all [ofBool_granted]
    | admin => cases granted
  cases target with
  | client target =>
      obtain ⟨notAdmin, isClient⟩ := ofClient granted
      exact ⟨notAdmin, Option.some.inj isClient⟩
  | project target =>
      obtain ⟨notAdmin, isClient⟩ := ofClient granted
      exact ⟨notAdmin, Option.some.inj isClient⟩
  | experiment target => exact ofClient granted
  | trainingRun target =>
      obtain ⟨notAdmin, isClient⟩ := ofClient granted
      exact ⟨notAdmin, Option.some.inj isClient⟩
  | organization target =>
      cases requested with
      | read =>
          have both := ofBool_granted.mp granted
          simp only [Bool.and_eq_true, decide_eq_true_eq] at both
          exact ⟨Tokens.Permission.noConfusion, both.2.symm⟩
      | none => cases granted
      | write => cases granted
      | admin => cases granted

theorem readonly_granted {answer : Answer} (granted : readonly requested answer = .granted) :
    requested ≠ .admin ∧ answer = .granted := by
  obtain ⟨isRead, answered⟩ := onlyIf_granted.mp granted
  refine ⟨?_, answered⟩
  rintro rfl
  cases isRead

theorem guest_granted {auth : GuestAuthorization}
    (granted : (AnyAuthorization.guest auth).canActOn calls store requested target = .granted) :
    requested ≠ .admin ∧ target.IsOf auth.currentClient := by
  have ofClient : ∀ {clientId : Option ℕ+}, auth.canActOnClientId clientId = true →
      clientId = some auth.currentClient.id := by
    intro clientId isClient
    simp only [GuestAuthorization.canActOnClientId, Bool.and_eq_true, decide_eq_true_eq] at isClient
    exact isClient.2
  cases target with
  | client target =>
      obtain ⟨notAdmin, answered⟩ := readonly_granted granted
      exact ⟨notAdmin, Option.some.inj (ofClient (ofBool_granted.mp answered))⟩
  | project target =>
      obtain ⟨notAdmin, answered⟩ := readonly_granted granted
      refine ⟨notAdmin, ?_⟩
      split at answered
      · have both := ofBool_granted.mp answered
        rw [Bool.and_eq_true] at both
        exact Option.some.inj (ofClient both.1)
      · cases answered
  | experiment target =>
      obtain ⟨notAdmin, answered⟩ := readonly_granted granted
      have both := ofBool_granted.mp answered
      rw [Bool.and_eq_true] at both
      exact ⟨notAdmin, ofClient both.1⟩
  | trainingRun target =>
      obtain ⟨notAdmin, answered⟩ := readonly_granted granted
      exact ⟨notAdmin, Option.some.inj (ofClient (onlyIf_granted.mp answered).1)⟩
  | organization target =>
      obtain ⟨notAdmin, answered⟩ := readonly_granted granted
      have both := ofBool_granted.mp answered
      simp only [Bool.and_eq_true, decide_eq_true_eq] at both
      exact ⟨notAdmin, both.2.symm⟩

theorem signupLink_granted {auth : SignupLinkAuthorization}
    (granted : (AnyAuthorization.signupLink auth).canActOn calls store requested target = .granted) :
    requested ≠ .admin ∧ target.IsOf auth.currentClient := by
  cases target with
  | client target =>
      obtain ⟨notAdmin, answered⟩ := readonly_granted granted
      have both := ofBool_granted.mp answered
      simp only [Bool.and_eq_true, decide_eq_true_eq] at both
      exact ⟨notAdmin, both.2.symm⟩
  | organization target =>
      obtain ⟨notAdmin, answered⟩ := readonly_granted granted
      have both := ofBool_granted.mp answered
      simp only [Bool.and_eq_true, decide_eq_true_eq] at both
      exact ⟨notAdmin, both.2.symm⟩
  | project target => cases granted
  | experiment target => cases granted
  | trainingRun target => cases granted

end Userless

/-! ### The owner's list -/

section List

variable {calls : EmailCalls} {store : Store} {auth : OwnerAuthorization}

/-- The organization that the fast path asks for. -/
def inOwnersOrganization (store : Store) (auth : OwnerAuthorization) (experiment : Experiment) : Bool :=
  store.tables.clients.any fun client =>
    experiment.clientId = some client.id && client.organizationId = auth.currentMembership.organizationId

theorem inOwnersOrganization_iff {experiment : Experiment} :
    inOwnersOrganization store auth experiment = true ↔
      ∃ client ∈ store.tables.clients, experiment.clientId = some client.id ∧
        client.organizationId = auth.currentMembership.organizationId := by
  simp [inOwnersOrganization]

theorem filterCanActOnExperiments_eq {experiments : List Experiment}
    (stored : ∀ experiment ∈ experiments, experiment ∈ store.experiments) :
    auth.filterCanActOnExperiments store experiments = experiments.filter (inOwnersOrganization store auth) := by
  unfold OwnerAuthorization.filterCanActOnExperiments
  apply List.filter_congr
  intro experiment member
  rw [Bool.eq_iff_iff]
  simp only [decide_eq_true_eq, List.mem_map, List.mem_filter, Bool.and_eq_true]
  constructor
  · intro ⟨row, ⟨isRow, inOrganization, _⟩, sameId⟩
    rw [← Rows.Keyed.eq_of_key store.experimentIds isRow (stored experiment member) sameId]
    exact inOrganization
  · intro inOrganization
    exact ⟨experiment, ⟨stored experiment member, inOrganization, experiment, member, rfl⟩, rfl⟩

/-- What the check of one experiment asks for beyond the organization. -/
theorem isExperimentActionable_owner (readFrom : auth.userAuthorization.ReadFrom store.tables)
    {requested : Requested} {experiment : Experiment} {client : Client} (isClient : client ∈ store.tables.clients)
    (ofClient : experiment.clientId = some client.id) :
    (AnyAuthorization.owner auth).isExperimentActionable calls store requested experiment = true ↔
      client.organizationId = auth.currentMembership.organizationId ∧ client.deleted = false ∧
        (store.tables.findOrganization client.organizationId).isSome = true ∧
        hasVerifiedEmailIfNeeded calls auth.currentUser = true := by
  have constraints : Constraints store.tables := store.database.2
  have artifacts : (AnyAuthorization.owner auth).canActOnExperiment calls store requested experiment =
      auth.canActOnClientArtifacts calls store.tables requested experiment.clientId experiment.createdBy := rfl
  unfold AnyAuthorization.isExperimentActionable
  rw [decide_eq_true_eq, artifacts, ofClient]
  constructor
  · intro granted
    unfold OwnerAuthorization.canActOnClientArtifacts at granted
    split at granted
    · cases granted
    · rename_i found isFound
      obtain ⟨isRow, sameId, live⟩ := (Organizations.findClient_iff constraints).mp isFound
      cases Rows.Keyed.eq_of_key constraints.clientIds isRow isClient sameId
      obtain ⟨onClient, _⟩ := and_granted.mp granted
      obtain ⟨sameOrganization, onClient⟩ := onlyIf_granted.mp onClient
      obtain ⟨inferred, organization, membership, known, isOrganization, joined, _⟩ :=
        canActOnClientId_granted.mp onClient
      cases known
      refine ⟨of_decide_eq_true sameOrganization, live, by rw [isOrganization]; rfl, ?_⟩
      rw [← auth.sameUser]
      unfold UserAuthorization.membership at joined
      simp only at joined
      split at joined
      · rename_i verified
        exact verified
      · cases joined
  · intro ⟨sameOrganization, live, isOrganization, verified⟩
    obtain ⟨organization, isOrganization⟩ := Option.isSome_iff_exists.mp isOrganization
    have isFound : store.tables.findClient client.id = some client :=
      (Organizations.findClient_iff constraints).mpr ⟨isClient, rfl, live⟩
    have organizationId : organization.id = client.organizationId :=
      ((Organizations.findOrganization_iff constraints).mp isOrganization).2.1
    have joined : auth.userAuthorization.membership calls store.tables (some organization) =
        some auth.currentMembership := by
      unfold UserAuthorization.membership
      simp [auth.sameUser, verified, auth.restrictedTo, organizationId, sameOrganization]
    have inferred : auth.userAuthorization.inferOrganizationIdFromClientId store.tables (some client.id) =
        some client.organizationId := by
      unfold UserAuthorization.inferOrganizationIdFromClientId
      cases restriction : auth.userAuthorization.scopedPermission with
      | none => simp [isFound]
      | some permission =>
          by_cases ofPermission : some permission.clientId = some client.id
          · obtain ⟨other, isOther, sameId, otherOrganization⟩ :=
              constraints.permissionClient permission (readFrom.permission permission restriction)
            have sameClient : other = client :=
              Rows.Keyed.eq_of_key constraints.clientIds isOther isClient (sameId.trans (Option.some.inj ofPermission))
            simp [ofPermission, ← otherOrganization, sameClient]
          · simp [ofPermission, isFound]
    unfold OwnerAuthorization.canActOnClientArtifacts
    simp only [Option.bind_some, isFound]
    refine and_granted.mpr ⟨onlyIf_granted.mpr ⟨decide_eq_true sameOrganization, ?_⟩, ?_⟩
    · exact canActOnClientId_granted.mpr ⟨_, organization, _, rfl, isOrganization, joined, .inl auth.isOwner⟩
    · exact canActOnClientArtifacts_granted.mpr
        ⟨client.id, _, organization, _, rfl, inferred, isOrganization, joined, .inl auth.isOwner⟩

/-- The list is the one of the checks exactly if these pass in the organization. -/
theorem filterCanActOnExperiments_iff (readFrom : auth.userAuthorization.ReadFrom store.tables)
    {requested : Requested} {experiments : List Experiment}
    (stored : ∀ experiment ∈ experiments, experiment ∈ store.experiments) :
    (AnyAuthorization.owner auth).filterCanActOnExperiments calls store requested experiments =
        experiments.filter ((AnyAuthorization.owner auth).isExperimentActionable calls store requested) ↔
      ∀ experiment ∈ experiments, ∀ client ∈ store.tables.clients, experiment.clientId = some client.id →
        client.organizationId = auth.currentMembership.organizationId →
          client.deleted = false ∧ (store.tables.findOrganization client.organizationId).isSome = true ∧
            hasVerifiedEmailIfNeeded calls auth.currentUser = true := by
  have fastPath : (AnyAuthorization.owner auth).filterCanActOnExperiments calls store requested experiments =
      experiments.filter (inOwnersOrganization store auth) := filterCanActOnExperiments_eq stored
  rw [fastPath]
  constructor
  · intro same experiment member client isClient ofClient inOrganization
    have listed : experiment ∈ experiments.filter (inOwnersOrganization store auth) :=
      List.mem_filter.mpr ⟨member, inOwnersOrganization_iff.mpr ⟨client, isClient, ofClient, inOrganization⟩⟩
    rw [same] at listed
    exact ((isExperimentActionable_owner readFrom isClient ofClient).mp (List.mem_filter.mp listed).2).2
  · intro pass
    apply List.filter_congr
    intro experiment member
    rw [Bool.eq_iff_iff, inOwnersOrganization_iff]
    constructor
    · intro ⟨client, isClient, ofClient, inOrganization⟩
      exact (isExperimentActionable_owner readFrom isClient ofClient).mpr
        ⟨inOrganization, pass experiment member client isClient ofClient inOrganization⟩
    · intro actionable
      cases ofClient : experiment.clientId with
      | none =>
          have unasked : (AnyAuthorization.owner auth).canActOnExperiment calls store requested experiment =
              auth.canActOnClientArtifacts calls store.tables requested experiment.clientId experiment.createdBy := rfl
          unfold AnyAuthorization.isExperimentActionable at actionable
          rw [decide_eq_true_eq, unasked, ofClient] at actionable
          cases actionable
      | some clientId =>
          obtain ⟨client, isClient, sameId⟩ :=
            store.experimentClient experiment (stored experiment member) clientId ofClient
          rw [← sameId] at ofClient ⊢
          exact ⟨client, isClient, rfl, ((isExperimentActionable_owner readFrom isClient ofClient).mp actionable).1⟩

end List

/-! ### All tokens -/

/-- What a token with a user grants, the login of this user grants; a token without one grants nothing but reading and
    writing on its client. The owner's list is the one of the checks exactly if the clients of the organization that it
    has experiments of are not deleted, and neither is the organization, and the owner's email is verified where it has
    to be. -/
theorem authorization_restricts (calls : EmailCalls) (store : Store) {token : Tokens.Token} {appUrl : String}
    {auth : AnyAuthorization} (authenticated : doApiTokenAuthentication store.tables token appUrl = .ok auth) :
    (∀ user ∈ auth.currentUser, ∀ (requested : Requested) (target : Target), target.StoredIn store.tables →
      auth.canActOn calls store requested target = .granted →
        (AnyAuthorization.user (.unscoped user)).canActOn calls store requested target = .granted) ∧
      (auth.currentUser = none → token.userId = none ∧ ∃ client ∈ auth.currentClient,
        ∀ (requested : Requested) (target : Target), auth.canActOn calls store requested target = .granted →
          requested ≠ .admin ∧ target.IsOf client) ∧
      ∀ owner, auth = .owner owner → ∀ (requested : Requested) (experiments : List Experiment),
        (∀ experiment ∈ experiments, experiment ∈ store.experiments) →
          (auth.filterCanActOnExperiments calls store requested experiments =
              experiments.filter (auth.isExperimentActionable calls store requested) ↔
            ∀ experiment ∈ experiments, ∀ client ∈ store.tables.clients, experiment.clientId = some client.id →
              client.organizationId = owner.currentMembership.organizationId →
                client.deleted = false ∧ (store.tables.findOrganization client.organizationId).isSome = true ∧
                  hasVerifiedEmailIfNeeded calls owner.currentUser = true) := by
  have built := doApiTokenAuthentication_ok store.database.2 authenticated
  refine ⟨?_, ?_, ?_⟩
  · intro user isUser requested target isStored granted
    cases auth with
    | user auth =>
        cases isUser
        rw [built] at granted
        exact granted
    | owner auth =>
        cases isUser
        exact owner_granted built isStored granted
    | member auth =>
        cases isUser
        exact member_granted built isStored granted
    | empty => cases isUser
    | client auth => cases isUser
    | guest auth => cases isUser
    | signupLink auth => cases isUser
  · intro noUser
    cases auth with
    | client auth => exact ⟨built, auth.currentClient, rfl, fun _ _ granted => client_granted granted⟩
    | guest auth => exact ⟨built, auth.currentClient, rfl, fun _ _ granted => guest_granted granted⟩
    | signupLink auth => exact ⟨built, auth.currentClient, rfl, fun _ _ granted => signupLink_granted granted⟩
    | empty => cases built
    | user auth => cases noUser
    | owner auth => cases noUser
    | member auth => cases noUser
  · intro owner isOwner requested experiments stored
    subst isOwner
    exact filterCanActOnExperiments_iff built stored

/-! ### An owner whose email is not verified -/

def newOwner : User where
  id := 1
  email := "owner@example.com"

def ownedClient : Client where
  id := 1
  organizationId := 1

def ownedTables : Tables where
  users := [newOwner]
  organizations := [{ id := 1 }]
  clients := [ownedClient]
  memberships := [{ userId := 1, organizationId := 1, membershipType := .owner }]

def ownedExperiment : Experiment where
  id := 1
  clientId := some 1
  projectId := none
  createdBy := some 1

def ownedStore : Store where
  database := ⟨ownedTables, by decide⟩
  experiments := [ownedExperiment]
  trainingRuns := []
  experimentIds := by simp [Rows.Keyed]
  experimentClient := by decide

/-- The token of the owner for the client. -/
def ownersToken : Tokens.Token where
  token := "ABC"
  tokenType := .clientApi
  clientId := some 1
  userId := some 1
  tokenMeta := { dateCreated := 0 }

def ownersAuthorization : OwnerAuthorization where
  currentClient := ownedClient
  currentUser := newOwner
  clientToken := ownersToken
  currentMembership := { userId := 1, organizationId := 1, membershipType := .owner }
  userAuthorization := {
    currentUser := newOwner
    scopedMembership := some { userId := 1, organizationId := 1, membershipType := .owner }
    scopedPermission := none
    membershipOfUser := by decide
    permissionOfUser := by decide }
  tokenOfClient := rfl
  restrictedTo := rfl
  sameUser := rfl
  isOwner := rfl
  inOrganization := rfl
  ofUser := rfl

theorem ownersToken_authenticated :
    doApiTokenAuthentication ownedStore.tables ownersToken "" = .ok (.owner ownersAuthorization) := by
  rfl

def emailCalls (verificationEnabled : Bool) : EmailCalls where
  normalizeEmail := id
  getDomainFromEmail := id
  verificationEnabled := verificationEnabled

/-- Where emails need not be verified, the owner's token lists the experiment, which the owner may write to. -/
theorem authorization_restricts_owner :
    (AnyAuthorization.user (.unscoped newOwner)).canActOn (emailCalls false) ownedStore .write
        (.experiment ownedExperiment) = .granted ∧
      (AnyAuthorization.owner ownersAuthorization).filterCanActOnExperiments (emailCalls false) ownedStore .read
          [ownedExperiment] =
        [ownedExperiment].filter
          ((AnyAuthorization.owner ownersAuthorization).isExperimentActionable (emailCalls false) ownedStore .read) := by
  obtain ⟨restricts, _, listed⟩ := authorization_restricts (emailCalls false) ownedStore ownersToken_authenticated
  exact ⟨restricts newOwner rfl .write (.experiment ownedExperiment) trivial (by decide),
    (listed ownersAuthorization rfl .read [ownedExperiment] (by decide)).mpr (by decide)⟩

/-- Where they have to be, the list still shows the experiment, which the check of it refuses. -/
theorem unverifiedOwner_listed :
    ¬∀ (calls : EmailCalls) (store : Store) (token : Tokens.Token) (appUrl : String) (auth : AnyAuthorization),
      doApiTokenAuthentication store.tables token appUrl = .ok auth →
        ∀ (requested : Requested) (experiments : List Experiment),
          (∀ experiment ∈ experiments, experiment ∈ store.experiments) →
            auth.filterCanActOnExperiments calls store requested experiments =
              experiments.filter (auth.isExperimentActionable calls store requested) := by
  intro always
  have same := always (emailCalls true) ownedStore ownersToken "" _ ownersToken_authenticated .read [ownedExperiment]
    (by decide)
  revert same
  decide

end Zigopt.Authorization
