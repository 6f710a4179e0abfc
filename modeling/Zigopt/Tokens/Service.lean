/-
Module: Zigopt.Tokens.Service
Layer: Model
Purpose: The token service (`token/service.py`) over the table of tokens. Every operation is one
  function of the time of the call, the strings that `random_string()` draws in it, and the table; it
  returns what the operation returns or raises, with the table it leaves behind.
Main exports: Config, Issued, makeMeta, findByToken, createUserToken, createTemporaryUserToken,
  createGuestExperimentToken, createGuestTrainingRunToken, getOrCreateRoleToken,
  getOrCreateClientSignupToken, renewToken, rotateToken, updateLastsForever, authenticateToken
-/
import Mathlib.Data.List.MinMax
import Mathlib.Data.List.ReduceOption
import Zigopt.Tokens.Model

namespace Zigopt.Tokens

/-- The settings of the config broker that the service reads. -/
structure Config where
  idleTimeoutSeconds : Option Int := none
  maxConcurrentSessions : Option Int := none
  tokenTtlSeconds : Option Int := none

/-- A row of the table. The session expiration and the ttl that its creation was given are kept beside
    it for the statements below; they are no columns, and no operation reads them. -/
structure Issued where
  row : Token
  sessionExpiration : Option Int
  ttl : Option Int
  deriving DecidableEq, Repr

/-- The rows of the tokens table with what is known of their issue. -/
abbrev Table := List Issued

inductive ServiceError where
  /-- The primary key: a drawn string that another row has already. -/
  | integrityError
  /-- `min` of an empty sequence. -/
  | valueError
  /-- `update_one` that finds no row. -/
  | noResultFound
  /-- `authenticate_token` of an expired token. -/
  | tokenExpired
  deriving DecidableEq, Repr

/-- A new row with what it was given. A token that is created to last forever is given no ttl. -/
def issue (token : Token) (sessionExpiration : Option Int) : Issued where
  row := token
  sessionExpiration := sessionExpiration
  ttl := if token.tokenMeta.lastsForever then none else token.tokenMeta.ttlSeconds

/-- The tokens of the table. -/
def names (table : Table) : List String := table.map fun issued => issued.row.token

/-- A row is inserted, unless its token is taken. -/
def insert (table : Table) (new : Issued) : Except ServiceError Issued × Table :=
  if new.row.token ∈ names table then (.error .integrityError, table) else (.ok new, table ++ [new])

def deleteTokens (table : Table) (tokens : List Issued) : Table :=
  table.filter fun issued => decide (issued.row.token ∉ names tokens)

def deleteToken (table : Table) (token : String) : Table :=
  table.filter fun issued => decide (issued.row.token ≠ token)

/-! ### Lookups -/

/-- The tokens that are valid, and the table without the expired ones among them. -/
def rejectExpired (now : Int) (table : Table) (tokens : List Issued) : List Issued × Table :=
  let expired := tokens.filter fun issued => issued.row.expired now
  let valid := tokens.filter fun issued => !issued.row.expired now
  (valid, if expired.isEmpty then table else deleteTokens table expired)

/-- `find_by_token`, which deletes what it finds expired. -/
def findByToken (now : Int) (table : Table) (token : String) (includeExpired : Bool) :
    Option Issued × Table :=
  let tokenObj := table.find? fun issued => issued.row.token == token
  if includeExpired then (tokenObj, table)
  else
    let rejected := rejectExpired now table tokenObj.toList
    (if rejected.1.isEmpty then none else tokenObj, rejected.2)

def findGuestTokens (now : Int) (table : Table) (clientId : Int) (creatingUserId : Option Int) :
    List Issued × Table :=
  rejectExpired now table <| table.filter fun issued =>
    issued.row.clientId == some clientId && issued.row.tokenType == .guest &&
      (creatingUserId.isNone || issued.row.tokenMeta.creatingUserId == creatingUserId)

def findByUserId (now : Int) (table : Table) (userId : Int) (tokenType : Option TokenType) :
    List Issued × Table :=
  rejectExpired now table <| table.filter fun issued =>
    issued.row.userId == some userId && (tokenType.isNone || some issued.row.tokenType == tokenType)

def findByClientAndUser (now : Int) (table : Table) (clientId userId : Int) : List Issued × Table :=
  rejectExpired now table <| table.filter fun issued =>
    issued.row.clientId == some clientId && issued.row.userId == some userId

/-- The lookup of every request (`authentication/token.py`): no token, a token to go on with, or the
    error of an expired one. -/
def authenticateToken (now : Int) (table : Table) (token : String) : Except ServiceError (Option Issued) :=
  match (findByToken now table token true).1 with
  | none => .ok none
  | some tokenObj => if tokenObj.row.expired now then .error .tokenExpired else .ok (some tokenObj)

/-! ### Creation -/

/-- `make_meta`: the shortest of the times to live that apply. -/
def makeMeta (config : Config) (now : Int) (sessionExpiration : Option Int) (tokenType : TokenType)
    (canRenew : Bool) : TokenMeta where
  dateCreated := now
  canRenew := canRenew
  ttlSeconds := List.min? <| List.reduceOption
    [Token.defaultTtlSeconds tokenType canRenew,
      sessionExpiration.map fun expiration => max (expiration - now) 0,
      config.tokenTtlSeconds]

def roleToken (config : Config) (now : Int) (token : String) (clientId userId : Int) (development : Bool) :
    Token :=
  let tokenType := if development then TokenType.clientDev else TokenType.clientApi
  { token := token, tokenType := tokenType, clientId := some clientId, userId := some userId,
    tokenMeta := { makeMeta config now none tokenType false with creatingUserId := some userId } }

/-- `get_or_create_role_token`: an existing token of the same mode is handed out again. -/
def getOrCreateRoleToken (config : Config) (now : Int) (token : String) (table : Table)
    (clientId userId : Int) (development : Bool) : Except ServiceError Issued × Table :=
  let found := findByClientAndUser now table clientId userId
  match found.1.find? fun issued => issued.row.development == development with
  | some existing => (.ok existing, found.2)
  | none => insert found.2 (issue (roleToken config now token clientId userId development) none)

def isGuestReadToken (now : Int) (creatingUserId : Option Int) (token : Token) : Bool :=
  token.tokenType == .guest && token.userId.isNone &&
    (creatingUserId.isNone || token.creatingUserId == creatingUserId) &&
    token.guestExperimentId.isNone && token.guestCanRead && !token.expired now &&
    token.tokenMeta.scope == .signup

def signupToken (config : Config) (now : Int) (token : String) (clientId creatingUserId : Int) : Token where
  token := token
  tokenType := .guest
  clientId := some clientId
  userId := none
  tokenMeta :=
    { makeMeta config now none .guest false with
      creatingUserId := some creatingUserId, guestPermissions := .read, lastsForever := true,
      scope := .signup }

/-- `get_client_signup_token` calls `_is_guest_read_token` without a creating user: the query has
    already asked for it. -/
def getOrCreateClientSignupToken (config : Config) (now : Int) (token : String) (table : Table)
    (clientId creatingUserId : Int) : Except ServiceError Issued × Table :=
  let found := findGuestTokens now table clientId (some creatingUserId)
  match found.1.find? fun issued => isGuestReadToken now none issued.row with
  | some existing => (.ok existing, found.2)
  | none => insert found.2 (issue (signupToken config now token clientId creatingUserId) none)

def makeGuestTokenMeta (config : Config) (now : Int) (sessionExpiration creatingUserId : Option Int) :
    TokenMeta :=
  { makeMeta config now sessionExpiration .guest false with
    guestPermissions := .read, scope := .sharedExperiment,
    creatingUserId := orNone creatingUserId }

def guestExperimentToken (config : Config) (now : Int) (token : String) (clientId experimentId : Int)
    (creatingUserId sessionExpiration : Option Int) : Token where
  token := token
  tokenType := .guest
  clientId := some clientId
  userId := none
  tokenMeta :=
    { makeGuestTokenMeta config now sessionExpiration creatingUserId with
      guestExperimentId := some experimentId }

/-- `create_guest_experiment_token`, whose session may end it earlier. -/
def createGuestExperimentToken (config : Config) (now : Int) (token : String) (table : Table)
    (clientId experimentId : Int) (creatingUserId sessionExpiration : Option Int) :
    Except ServiceError Issued × Table :=
  insert table
    (issue (guestExperimentToken config now token clientId experimentId creatingUserId sessionExpiration)
      sessionExpiration)

def guestTrainingRunToken (config : Config) (now : Int) (token : String) (clientId trainingRunId : Int)
    (experimentId creatingUserId sessionExpiration : Option Int) : Token where
  token := token
  tokenType := .guest
  clientId := some clientId
  userId := none
  tokenMeta :=
    { makeGuestTokenMeta config now sessionExpiration creatingUserId with
      guestTrainingRunId := some trainingRunId, guestExperimentId := experimentId }

/-- `create_guest_training_run_token`, whose session may end it earlier. -/
def createGuestTrainingRunToken (config : Config) (now : Int) (token : String) (table : Table)
    (clientId trainingRunId : Int) (experimentId creatingUserId sessionExpiration : Option Int) :
    Except ServiceError Issued × Table :=
  insert table
    (issue
      (guestTrainingRunToken config now token clientId trainingRunId experimentId creatingUserId
        sessionExpiration)
      sessionExpiration)

def userToken (config : Config) (now : Int) (token : String) (userId : Int)
    (sessionExpiration : Option Int) (canRenew : Bool) : Token where
  token := token
  tokenType := .user
  clientId := none
  userId := some userId
  tokenMeta := makeMeta config now sessionExpiration .user canRenew

/-- A user with too many sessions loses the oldest one. -/
def createUserToken (config : Config) (now : Int) (token : String) (table : Table) (userId : Int)
    (sessionExpiration : Option Int) (canRenew : Bool) : Except ServiceError Issued × Table :=
  let current := findByUserId now table userId (some .user)
  let new := issue (userToken config now token userId sessionExpiration canRenew) sessionExpiration
  if (current.1.length : Int) ≥ config.maxConcurrentSessions.getD maxConcurrentSessions then
    match @List.argmin Issued Int Int.instLinearOrder.toPreorder Int.instLinearOrder.toDecidableLT
        (fun issued => issued.row.tokenMeta.dateCreated) current.1 with
    | none => (.error .valueError, current.2)
    | some oldestToken => insert (deleteToken current.2 oldestToken.row.token) new
  else insert current.2 new

/-- The session expiration of a temporary user token: without one (or with 0) the idle timeout counts. -/
def temporaryExpiration (config : Config) (now : Int) (sessionExpiration : Option Int) : Int :=
  (orNone sessionExpiration).getD (now + config.idleTimeoutSeconds.getD userTokenExpirySeconds)

/-- `create_temporary_user_token`: a user's token that cannot be renewed. -/
def createTemporaryUserToken (config : Config) (now : Int) (token : String) (table : Table) (userId : Int)
    (sessionExpiration : Option Int) : Except ServiceError Issued × Table :=
  createUserToken config now token table userId
    (some (temporaryExpiration config now sessionExpiration)) false

/-! ### Changes to stored tokens -/

/-- An update of the rows with a token string that meet a condition. -/
def modifyRows (table : Table) (token : String) (condition : Token → Bool) (change : Token → Token) : Table :=
  table.map fun issued =>
    if issued.row.token = token ∧ condition issued.row = true then
      { issued with row := change issued.row }
    else issued

def Token.renewed (now : Int) (row : Token) : Token :=
  { row with tokenMeta := { row.tokenMeta with dateRenewed := some now } }

def Token.renamed (fresh : String) (row : Token) : Token := { row with token := fresh }

def Token.withLastsForever (lastsForever : Bool) (row : Token) : Token :=
  { row with tokenMeta := { row.tokenMeta with lastsForever := lastsForever } }

/-- `renew_token`, which does nothing to a token that cannot be renewed. -/
def renewToken (now : Int) (table : Table) (token : String) : Table :=
  modifyRows table token (fun row => row.tokenMeta.canRenew) (Token.renewed now)

/-- `rotate_token`: a fresh name that another row has violates the key. -/
def rotateToken (fresh : String) (table : Table) (token : String) : Except ServiceError Unit × Table :=
  if token ∈ names table ∧ fresh ≠ token ∧ fresh ∈ names table then (.error .integrityError, table)
  else (.ok (), modifyRows table token (fun _ => true) (Token.renamed fresh))

/-- The loop of `rotate_tokens_for_user`, with one drawn string for each token. A rotation that raises
    ends it. -/
def rotateTokens (table : Table) : List (Issued × String) → Except ServiceError Unit × Table
  | [] => (.ok (), table)
  | (issued, fresh) :: rest =>
      match rotateToken fresh table issued.row.token with
      | (.ok (), rotated) => rotateTokens rotated rest
      | (.error error, rotated) => (.error error, rotated)

def rotateTokensForUser (now : Int) (fresh : List String) (table : Table) (userId : Int) :
    Except ServiceError Unit × Table :=
  let found := findByUserId now table userId none
  rotateTokens found.2 (found.1.zip fresh)

/-- `update_meta` as the update handler calls it: the meta it has just read, with another
    `lasts_forever`. -/
def updateLastsForever (table : Table) (token : String) (lastsForever : Bool) : Except ServiceError Unit × Table :=
  if token ∈ names table then
    (.ok (), modifyRows table token (fun _ => true) (Token.withLastsForever lastsForever))
  else (.error .noResultFound, table)

end Zigopt.Tokens
