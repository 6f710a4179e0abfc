/-
Module: Zigopt.Authorization.Model
Layer: Model
Purpose: The authorizations that an API token is given (`authorization/*.py`), what each lets its holder do with a
  client, a project, an experiment, a training run or an organization, and how a token comes to its authorization
  (`authentication/token.py`, `api/auth.py`).
Main exports: Store, Target, Answer, UserAuthorization, OwnerAuthorization, MemberAuthorization, ClientAuthorization,
  GuestAuthorization, SignupLinkAuthorization, AnyAuthorization, AnyAuthorization.canActOn, doApiTokenAuthentication,
  OwnerAuthorization.filterCanActOnExperiments
-/
import Zigopt.Organizations.Services
import Zigopt.Tokens.Model

namespace Zigopt.Authorization

open Organizations (User Organization Client Membership Permission Tables Database EmailCalls
  hasVerifiedEmailIfNeeded)

/-- The permissions that are asked for, by the enum of the protobuf of tokens. -/
abbrev Requested := Tokens.Permission

/-! ### Objects -/

structure Project where
  id : ℕ+
  clientId : ℕ+
  createdBy : Option ℕ+
  deriving DecidableEq

/-- What authorization reads of an experiment. -/
structure Experiment where
  id : ℕ+
  clientId : Option ℕ+
  projectId : Option ℕ+
  createdBy : Option ℕ+
  deleted : Bool := false
  deriving DecidableEq

/-- What authorization reads of a training run. -/
structure TrainingRun where
  id : ℕ+
  clientId : ℕ+
  projectId : Option ℕ+
  experimentId : Option ℕ+
  createdBy : Option ℕ+
  deriving DecidableEq

/-- The rows, with the primary key of the experiments and their foreign key. -/
structure Store where
  database : Database
  experiments : List Experiment
  trainingRuns : List TrainingRun
  experimentIds : Rows.Keyed Experiment.id experiments
  experimentClient : ∀ experiment ∈ experiments, ∀ clientId ∈ experiment.clientId,
    ∃ client ∈ database.1.clients, client.id = clientId

namespace Store

variable (store : Store)

/-- The tables of the database. -/
def tables : Tables := store.database.1

def findExperiment (experimentId : ℤ) : Option Experiment :=
  store.experiments.find? fun experiment => decide ((experiment.id : ℤ) = experimentId) && !experiment.deleted

def findTrainingRun (trainingRunId : ℤ) : Option TrainingRun :=
  store.trainingRuns.find? fun trainingRun => (trainingRun.id : ℤ) = trainingRunId

end Store

/-- What an action is on. -/
inductive Target where
  | client (client : Client)
  | project (project : Project)
  | experiment (experiment : Experiment)
  | trainingRun (trainingRun : TrainingRun)
  | organization (organization : Organization)

/-- A client is a row of the table; of the other objects nothing is asked. -/
def Target.StoredIn (tables : Tables) : Target → Prop
  | .client target => target ∈ tables.clients
  | _ => True

/-- What a check returns: `AuthorizationDenied.NEEDS_EMAIL_VERIFICATION` is false as well. -/
inductive Answer where
  | granted
  | denied
  | needsEmailVerification
  deriving DecidableEq, Repr

def Answer.ofBool (isGranted : Bool) : Answer :=
  if isGranted then .granted else .denied

/-- `condition and answer`. -/
def Answer.onlyIf (condition : Bool) (answer : Answer) : Answer :=
  if condition then answer else .denied

/-- `self and other`. -/
def Answer.and (answer other : Answer) : Answer :=
  match answer with
  | .granted => other
  | falsy => falsy

/-! ### Users -/

/-- The user of a token, with the membership and the permission that the token restricts to. -/
structure UserAuthorization where
  currentUser : User
  scopedMembership : Option Membership
  scopedPermission : Option Permission
  membershipOfUser : ∀ membership ∈ scopedMembership, membership.userId = currentUser.id
  permissionOfUser : ∀ permission ∈ scopedPermission, permission.userId = currentUser.id

namespace UserAuthorization

/-- The authorization of a login. -/
def unscoped (user : User) : UserAuthorization where
  currentUser := user
  scopedMembership := none
  scopedPermission := none
  membershipOfUser _ member := by cases member
  permissionOfUser _ member := by cases member

variable (calls : EmailCalls) (tables : Tables) (auth : UserAuthorization)

/-- A permission that is at hand saves the client from being fetched. -/
def inferOrganizationIdFromClientId (clientId : Option ℕ+) : Option ℕ+ :=
  match auth.scopedPermission with
  | some permission =>
      if some permission.clientId = clientId then some permission.organizationId
      else (clientId.bind tables.findClient).map Client.organizationId
  | none => (clientId.bind tables.findClient).map Client.organizationId

/-- `_membership`. -/
def membership (organization : Option Organization) : Option Membership :=
  match organization with
  | some organization =>
      if hasVerifiedEmailIfNeeded calls auth.currentUser then
        match auth.scopedMembership with
        | some membership => if membership.organizationId = organization.id then some membership else none
        | none => tables.findMembership auth.currentUser.id organization.id
      else none
  | none => none

/-- `_permission`. -/
def permission (clientId : ℕ+) : Option Permission :=
  match auth.scopedPermission with
  | some permission => if permission.clientId = clientId then some permission else none
  | none => tables.findPermission clientId auth.currentUser.id

def noMembershipStatus : Answer :=
  if hasVerifiedEmailIfNeeded calls auth.currentUser then .denied else .needsEmailVerification

def comparePermissions (currentPermission : Option Permission) : Requested → Answer
  | .read => .ofBool (currentPermission.any fun permission => permission.permissionMeta.canRead)
  | .write => .ofBool (currentPermission.any fun permission => permission.permissionMeta.canWrite)
  | .admin => .ofBool (currentPermission.any fun permission => permission.permissionMeta.canAdmin)
  | .none => .denied

def canActOnClientId (requested : Requested) (clientId : ℕ+) (organizationId : Option ℕ+) : Answer :=
  let organizationId := organizationId.orElse fun _ => auth.inferOrganizationIdFromClientId tables (some clientId)
  match auth.membership calls tables (organizationId.bind tables.findOrganization) with
  | some membership =>
      if membership.isOwner then .granted else comparePermissions (auth.permission tables clientId) requested
  | none => auth.noMembershipStatus calls

def canActOnClient (requested : Requested) (client : Client) : Answer :=
  auth.canActOnClientId calls tables requested client.id (some client.organizationId)

def canActOnOrganization (requested : Requested) (organization : Organization) : Answer :=
  match auth.membership calls tables (some organization) with
  | some membership =>
      match requested with
      | .read => .granted
      | .write | .admin => .ofBool membership.isOwner
      | .none => .denied
  | none => auth.noMembershipStatus calls

/-- `_can_act_on_client_artifacts`: the artifacts of others may be hidden. -/
def canActOnClientArtifacts (requested : Requested) (clientId ownerIdForArtifacts : Option ℕ+) : Answer :=
  match clientId, auth.inferOrganizationIdFromClientId tables clientId with
  | some clientId, some organizationId =>
      match auth.membership calls tables (tables.findOrganization organizationId) with
      | some membership =>
          if membership.isOwner then .granted
          else
            match auth.permission tables clientId with
            | some permission =>
                if permission.permissionMeta.canSeeExperimentsByOthers ||
                    some auth.currentUser.id = ownerIdForArtifacts then
                  comparePermissions (some permission) requested
                else auth.noMembershipStatus calls
            | none => .denied
      | none => auth.noMembershipStatus calls
  | _, _ => .denied

end UserAuthorization

/-! ### Owners and members

Both restrict the authorization of a user to a client of an organization; what their constructors assert is kept with
them. -/

/-- The authorization of a client token with an owner behind it; the fields that end it are asserted by the
    constructor. -/
structure OwnerAuthorization where
  currentClient : Client
  currentUser : User
  clientToken : Tokens.Token
  currentMembership : Membership
  userAuthorization : UserAuthorization
  tokenOfClient : clientToken.clientId = some (currentClient.id : ℤ)
  restrictedTo : userAuthorization.scopedMembership = some currentMembership
  sameUser : userAuthorization.currentUser = currentUser
  isOwner : currentMembership.isOwner = true
  inOrganization : currentMembership.organizationId = currentClient.organizationId
  ofUser : currentMembership.userId = currentUser.id

namespace OwnerAuthorization

variable (calls : EmailCalls) (tables : Tables) (auth : OwnerAuthorization)

def canActOnClient (requested : Requested) (client : Client) : Answer :=
  .onlyIf (client.organizationId = auth.currentMembership.organizationId)
    (auth.userAuthorization.canActOnClient calls tables requested client)

def canActOnOrganization (requested : Requested) (organization : Organization) : Answer :=
  .onlyIf (organization.id = auth.currentMembership.organizationId)
    (auth.userAuthorization.canActOnOrganization calls tables requested organization)

def canActOnClientArtifacts (requested : Requested) (clientId ownerIdForArtifacts : Option ℕ+) : Answer :=
  match clientId.bind tables.findClient with
  | none => .denied
  | some client =>
      (auth.canActOnClient calls tables requested client).and
        (auth.userAuthorization.canActOnClientArtifacts calls tables requested clientId ownerIdForArtifacts)

end OwnerAuthorization

/-- The authorization of a client token with a member behind it, whose permission it carries. -/
structure MemberAuthorization where
  currentClient : Client
  currentUser : User
  clientToken : Tokens.Token
  currentMembership : Membership
  currentPermission : Permission
  userAuthorization : UserAuthorization
  tokenOfClient : clientToken.clientId = some (currentClient.id : ℤ)
  restrictedTo : userAuthorization.scopedMembership = some currentMembership
  scopedPermission : currentMembership.isOwner = true ∨ userAuthorization.scopedPermission.isSome = true
  sameUser : userAuthorization.currentUser = currentUser
  permissionOfClient : currentPermission.clientId = currentClient.id
  permissionOfUser : currentPermission.userId = currentUser.id

namespace MemberAuthorization

variable (calls : EmailCalls) (tables : Tables) (auth : MemberAuthorization)

/-- `_can_act_on_client_id`. -/
def canActOnClientId (requested : Requested) (clientId : Option ℕ+) : Answer :=
  match clientId with
  | some clientId =>
      .onlyIf (auth.currentPermission.clientId = clientId)
        (auth.userAuthorization.canActOnClientId calls tables requested clientId none)
  | none => .denied

def canActOnClient (requested : Requested) (client : Client) : Answer :=
  auth.canActOnClientId calls tables requested (some client.id)

def canActOnOrganization (requested : Requested) (organization : Organization) : Answer :=
  .onlyIf (auth.currentPermission.organizationId = organization.id)
    (auth.userAuthorization.canActOnOrganization calls tables requested organization)

def canActOnClientArtifacts (requested : Requested) (clientId ownerIdForArtifacts : Option ℕ+) : Answer :=
  match auth.canActOnClientId calls tables requested clientId with
  | .granted =>
      .onlyIf
        (if auth.currentPermission.permissionMeta.canSeeExperimentsByOthers then
          clientId = some auth.currentClient.id
        else ownerIdForArtifacts = some auth.currentUser.id)
        (auth.userAuthorization.canActOnClientArtifacts calls tables requested clientId ownerIdForArtifacts)
  | _ => .denied

end MemberAuthorization

/-! ### Tokens without a user -/

/-- `Token.guest_can_write`. -/
def guestCanWrite (token : Tokens.Token) : Bool :=
  token.tokenType == .guest && token.tokenMeta.guestPermissions == .write

/-- `Token.all_experiments`. -/
def allExperiments (token : Tokens.Token) : Bool :=
  guestCanWrite token || token.tokenType ∈ [.clientApi, .clientDev, .user]

/-- A client token with no user behind it, which sees all experiments of its client. -/
structure ClientAuthorization where
  currentClient : Client
  clientToken : Tokens.Token
  tokenOfClient : clientToken.clientId = some (currentClient.id : ℤ)
  isAllExperiments : allExperiments clientToken = true

namespace ClientAuthorization

variable (auth : ClientAuthorization)

def canActOnClientId (requested : Requested) (clientId : Option ℕ+) : Answer :=
  let allowedToRead := auth.clientToken.guestCanRead && clientId = some auth.currentClient.id
  match requested with
  | .read => .ofBool allowedToRead
  | .write => .ofBool (allowedToRead && guestCanWrite auth.clientToken)
  | .admin | .none => .denied

def canActOnClient (requested : Requested) (client : Client) : Answer :=
  auth.canActOnClientId requested (some client.id)

def canActOnOrganization (requested : Requested) (organization : Organization) : Answer :=
  match requested with
  | .read => .ofBool (auth.clientToken.guestCanRead && auth.currentClient.organizationId = organization.id)
  | _ => .denied

def canActOnClientArtifacts (requested : Requested) (clientId _ownerIdForArtifacts : Option ℕ+) : Answer :=
  auth.canActOnClientId requested clientId

end ClientAuthorization

/-- `@readonly`. -/
def readonly (requested : Requested) (answer : Answer) : Answer :=
  .onlyIf (requested = .read || requested = .none) answer

/-- A guest token, restricted by its metadata to one experiment or run. -/
structure GuestAuthorization where
  currentClient : Client
  clientToken : Tokens.Token
  tokenOfClient : clientToken.clientId = some (currentClient.id : ℤ)

namespace GuestAuthorization

variable (store : Store) (auth : GuestAuthorization)

def canActOnClientId (clientId : Option ℕ+) : Bool :=
  auth.clientToken.guestCanRead && clientId = some auth.currentClient.id

def canActOnClient (requested : Requested) (client : Client) : Answer :=
  readonly requested (.ofBool (auth.canActOnClientId (some client.id)))

def canActOnOrganization (requested : Requested) (organization : Organization) : Answer :=
  readonly requested
    (.ofBool (auth.clientToken.guestCanRead && auth.currentClient.organizationId = organization.id))

def canActOnExperiment (requested : Requested) (experiment : Experiment) : Answer :=
  readonly requested
    (.ofBool (auth.canActOnClientId experiment.clientId &&
      auth.clientToken.guestExperimentId = some (experiment.id : ℤ)))

/-- The project of the experiment and of the training run that the token shares, if it is one. -/
def sharedProjectIds : List ℕ+ :=
  (((auth.clientToken.guestExperimentId.bind store.findExperiment).bind Experiment.projectId).toList ++
    ((auth.clientToken.guestTrainingRunId.bind store.findTrainingRun).bind TrainingRun.projectId).toList).dedup

def canActOnProject (requested : Requested) (project : Project) : Answer :=
  readonly requested
    (match auth.sharedProjectIds store with
      | [projectId] => .ofBool (auth.canActOnClientId (some project.clientId) && projectId = project.id)
      | _ => .denied)

/-- The token of an experiment shows all of its training runs. -/
def canActOnTrainingRun (requested : Requested) (trainingRun : TrainingRun) : Answer :=
  readonly requested
    (.onlyIf (auth.canActOnClientId (some trainingRun.clientId))
      (match trainingRun.experimentId with
        | some experimentId => .ofBool (auth.clientToken.guestExperimentId = some (experimentId : ℤ))
        | none => .ofBool (auth.clientToken.guestTrainingRunId = some (trainingRun.id : ℤ))))

end GuestAuthorization

/-- A guest token of a sign-up link. -/
structure SignupLinkAuthorization where
  currentClient : Client
  clientToken : Tokens.Token
  tokenOfClient : clientToken.clientId = some (currentClient.id : ℤ)

namespace SignupLinkAuthorization

variable (auth : SignupLinkAuthorization)

def canActOnClient (requested : Requested) (client : Client) : Answer :=
  readonly requested (.ofBool (auth.clientToken.guestCanRead && auth.currentClient.id = client.id))

def canActOnOrganization (requested : Requested) (organization : Organization) : Answer :=
  readonly requested
    (.ofBool (auth.clientToken.guestCanRead && auth.currentClient.organizationId = organization.id))

end SignupLinkAuthorization

/-! ### All authorizations -/

/-- The classes of authorization that a request can come with. -/
inductive AnyAuthorization where
  | empty
  | user (auth : UserAuthorization)
  | owner (auth : OwnerAuthorization)
  | member (auth : MemberAuthorization)
  | client (auth : ClientAuthorization)
  | guest (auth : GuestAuthorization)
  | signupLink (auth : SignupLinkAuthorization)

namespace AnyAuthorization

def currentUser : AnyAuthorization → Option User
  | .user auth => some auth.currentUser
  | .owner auth => some auth.currentUser
  | .member auth => some auth.currentUser
  | _ => none

def currentClient : AnyAuthorization → Option Client
  | .owner auth => some auth.currentClient
  | .member auth => some auth.currentClient
  | .client auth => some auth.currentClient
  | .guest auth => some auth.currentClient
  | .signupLink auth => some auth.currentClient
  | _ => none

variable (calls : EmailCalls) (store : Store) (auth : AnyAuthorization)

def canActOnClient (requested : Requested) (client : Client) : Answer :=
  match auth with
  | .empty => .denied
  | .user auth => auth.canActOnClient calls store.tables requested client
  | .owner auth => auth.canActOnClient calls store.tables requested client
  | .member auth => auth.canActOnClient calls store.tables requested client
  | .client auth => auth.canActOnClient requested client
  | .guest auth => auth.canActOnClient requested client
  | .signupLink auth => auth.canActOnClient requested client

def canActOnOrganization (requested : Requested) (organization : Organization) : Answer :=
  match auth with
  | .empty => .denied
  | .user auth => auth.canActOnOrganization calls store.tables requested organization
  | .owner auth => auth.canActOnOrganization calls store.tables requested organization
  | .member auth => auth.canActOnOrganization calls store.tables requested organization
  | .client auth => auth.canActOnOrganization requested organization
  | .guest auth => auth.canActOnOrganization requested organization
  | .signupLink auth => auth.canActOnOrganization requested organization

/-- A guest is asked by the methods of its own below. -/
def canActOnClientArtifacts (requested : Requested) (clientId ownerIdForArtifacts : Option ℕ+) : Answer :=
  match auth with
  | .user auth => auth.canActOnClientArtifacts calls store.tables requested clientId ownerIdForArtifacts
  | .owner auth => auth.canActOnClientArtifacts calls store.tables requested clientId ownerIdForArtifacts
  | .member auth => auth.canActOnClientArtifacts calls store.tables requested clientId ownerIdForArtifacts
  | .client auth => auth.canActOnClientArtifacts requested clientId ownerIdForArtifacts
  | .empty | .guest _ | .signupLink _ => .denied

def canActOnExperiment (requested : Requested) (experiment : Experiment) : Answer :=
  match auth with
  | .guest auth => auth.canActOnExperiment requested experiment
  | auth => auth.canActOnClientArtifacts calls store requested experiment.clientId experiment.createdBy

def canActOnProject (requested : Requested) (project : Project) : Answer :=
  match auth with
  | .guest auth => auth.canActOnProject store requested project
  | auth => auth.canActOnClientArtifacts calls store requested (some project.clientId) project.createdBy

def canActOnTrainingRun (requested : Requested) (trainingRun : TrainingRun) : Answer :=
  match auth with
  | .guest auth => auth.canActOnTrainingRun requested trainingRun
  | auth => auth.canActOnClientArtifacts calls store requested (some trainingRun.clientId) trainingRun.createdBy

/-- The method of the authorization that the kind of target asks for. -/
def canActOn (requested : Requested) : Target → Answer
  | .client target => auth.canActOnClient calls store requested target
  | .project target => auth.canActOnProject calls store requested target
  | .experiment target => auth.canActOnExperiment calls store requested target
  | .trainingRun target => auth.canActOnTrainingRun calls store requested target
  | .organization target => auth.canActOnOrganization calls store requested target

/-- The item by item check. -/
def isExperimentActionable (requested : Requested) (experiment : Experiment) : Bool :=
  auth.canActOnExperiment calls store requested experiment = .granted

end AnyAuthorization

/-- The owner's own `filter_can_act_on_experiments`: one query for the experiments of clients of the organization. -/
def OwnerAuthorization.filterCanActOnExperiments (store : Store) (auth : OwnerAuthorization)
    (experiments : List Experiment) : List Experiment :=
  let experimentIds := experiments.map Experiment.id
  let actionable := store.experiments.filter fun experiment =>
    (store.tables.clients.any fun client =>
      experiment.clientId = some client.id && client.organizationId = auth.currentMembership.organizationId) &&
        experiment.id ∈ experimentIds
  experiments.filter fun experiment => experiment.id ∈ actionable.map Experiment.id

namespace AnyAuthorization

/-- `filter_can_act_on_experiments`. -/
def filterCanActOnExperiments (calls : EmailCalls) (store : Store) (auth : AnyAuthorization) (requested : Requested)
    (experiments : List Experiment) : List Experiment :=
  match auth with
  | .owner auth => auth.filterCanActOnExperiments store experiments
  | auth => experiments.filter (auth.isExperimentActionable calls store requested)

end AnyAuthorization

/-! ### From tokens to authorizations -/

inductive AuthenticationError where
  | forbidden (msg : String)
  | assertion
  deriving DecidableEq, Repr

/-- What a token stands for; nothing where it stands for nothing any more. -/
structure AuthenticationResult where
  user : Option User := none
  client : Option Client := none
  permission : Option Permission := none
  membership : Option Membership := none

section Authenticate

variable (tables : Tables) (token : Tokens.Token)

/-- Deleted users are found as well. -/
def findUserOfToken (userId : ℤ) : Option User :=
  tables.users.find? fun user => (user.id : ℤ) = userId

def authenticateUserToken : Except AuthenticationError AuthenticationResult :=
  match token.userId.bind (findUserOfToken tables) with
  | some user =>
      if user.deleted then .error (.forbidden s!"User {(user.id : ℕ)} has been deleted") else .ok { user := some user }
  | none => .ok {}

def findClientOfToken (clientId : ℤ) : Option Client :=
  tables.clients.find? fun client => (client.id : ℤ) = clientId

def authenticateClientToken : Except AuthenticationError AuthenticationResult :=
  match token.clientId.bind (findClientOfToken tables) with
  | none => .ok {}
  | some client =>
      if client.deleted then .error (.forbidden s!"Client {(client.id : ℕ)} has been deleted")
      else
        match token.userId with
        | none => .ok { client := some client }
        | some userId =>
            match findUserOfToken tables userId with
            | none => .ok {}
            | some user =>
                match tables.findMembership user.id client.organizationId with
                | none => .ok {}
                | some membership =>
                    let permission := tables.findPermission client.id user.id
                    if permission.any (fun permission => permission.permissionMeta.canRead) || membership.isOwner then
                      if user.deleted then .error (.forbidden s!"User {(user.id : ℕ)} has been deleted")
                      else
                        .ok { user := some user, client := some client, permission := permission
                              membership := some membership }
                    else .ok {}

/-- The type of a token is one of those of users or of clients. -/
def authenticateToken : Except AuthenticationError AuthenticationResult :=
  match token.tokenType with
  | .user => authenticateUserToken tables token
  | .clientApi | .clientDev | .guest => authenticateClientToken tables token

/-- The user of the token, as the restrictions have it. -/
def userAuthorizationOf (user : User) (membership : Option Membership) (permission : Option Permission) :
    Except AuthenticationError UserAuthorization :=
  if owned : (∀ owned ∈ membership, owned.userId = user.id) ∧ ∀ owned ∈ permission, owned.userId = user.id then
    .ok ⟨user, membership, permission, owned.1, owned.2⟩
  else .error .assertion

def constructOwner (auth : UserAuthorization) (client : Client) (membership : Membership) :
    Except AuthenticationError OwnerAuthorization :=
  if asserts : token.clientId = some (client.id : ℤ) ∧ auth.scopedMembership = some membership ∧
      membership.isOwner = true ∧ membership.organizationId = client.organizationId ∧
        membership.userId = auth.currentUser.id then
    .ok {
      currentClient := client, currentUser := auth.currentUser, clientToken := token, currentMembership := membership
      userAuthorization := auth, tokenOfClient := asserts.1, restrictedTo := asserts.2.1, sameUser := rfl
      isOwner := asserts.2.2.1, inOrganization := asserts.2.2.2.1, ofUser := asserts.2.2.2.2 }
  else .error .assertion

def constructMember (auth : UserAuthorization) (client : Client) (membership : Membership) (permission : Permission) :
    Except AuthenticationError MemberAuthorization :=
  if asserts : token.clientId = some (client.id : ℤ) ∧ auth.scopedMembership = some membership ∧
      (membership.isOwner = true ∨ auth.scopedPermission.isSome = true) ∧ permission.clientId = client.id ∧
        permission.userId = auth.currentUser.id then
    .ok {
      currentClient := client, currentUser := auth.currentUser, clientToken := token, currentMembership := membership
      currentPermission := permission, userAuthorization := auth, tokenOfClient := asserts.1, restrictedTo := asserts.2.1
      scopedPermission := asserts.2.2.1, sameUser := rfl, permissionOfClient := asserts.2.2.2.1
      permissionOfUser := asserts.2.2.2.2 }
  else .error .assertion

/-- The authorization of a client without a user. -/
def authorizeClient (client : Client) : Except AuthenticationError AnyAuthorization :=
  if ofClient : token.clientId = some (client.id : ℤ) then
    if isAll : allExperiments token = true then .ok (.client ⟨client, token, ofClient, isAll⟩)
    else if token.guestCanRead then .ok (.guest ⟨client, token, ofClient⟩)
    else .ok (.signupLink ⟨client, token, ofClient⟩)
  else .error .assertion

def helpfulMsg (appUrl : String) : String :=
  s!"You can find your API Token at {appUrl}/tokens/info. API requests " ++
    "are authenticated using HTTP Basic Auth, with the API token as the username and a blank password. " ++
    s!"Please see {appUrl}/docs/overview/authentication for more details."

/-- `_do_api_token_authentication` of a token that has not expired. -/
def doApiTokenAuthentication (appUrl : String) : Except AuthenticationError AnyAuthorization := do
  let authentication ← authenticateToken tables token
  match authentication.client, authentication.user, authentication.membership with
  | some client, some user, some membership =>
      let auth ← userAuthorizationOf user (some membership) authentication.permission
      if membership.isOwner then
        let owner ← constructOwner token auth client membership
        .ok (.owner owner)
      else
        match authentication.permission with
        | some permission => do
            let member ← constructMember token auth client membership permission
            .ok (.member member)
        | none => .error .assertion
  | some client, none, none => authorizeClient token client
  | some _, _, _ => .error .assertion
  | none, some user, membership => do
      let auth ← userAuthorizationOf user membership authentication.permission
      .ok (.user auth)
  | none, none, _ => .error (.forbidden ("This endpoint requires a valid API token. " ++ helpfulMsg appUrl))

end Authenticate

end Zigopt.Authorization
