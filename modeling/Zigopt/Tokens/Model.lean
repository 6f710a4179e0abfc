/-
Module: Zigopt.Tokens.Model
Layer: Model
Purpose: API tokens (`token/model.py`): the stored row with its protobuf meta, and how the expiration of
  a token is read from its kind, its user, its guest experiment and the optional fields of its meta.
  Times are whole seconds, as `unix_timestamp()` returns them.
Main exports: TokenType, TokenMeta, Token, Token.defaultTtlSeconds, Token.ttlSeconds,
  Token.expirationTimestamp, Token.expired
-/
import Mathlib.Data.List.Basic

namespace Zigopt.Tokens

/-- The kinds of token, which decide the default time to live. -/
inductive TokenType where
  | user
  | clientDev
  | clientApi
  | guest
  deriving DecidableEq, Repr

/-- The permissions of a token's metadata. -/
inductive Permission where
  | none
  | read
  | write
  | admin
  deriving DecidableEq, Repr

inductive Scope where
  | allEndpoints
  | sharedExperiment
  | signup
  deriving DecidableEq, Repr

/-- `tokenmeta.proto`. An optional integer that is read without asking for it counts as 0. -/
structure TokenMeta where
  creatingUserId : Option Int := none
  guestExperimentId : Option Int := none
  dateCreated : Int
  guestPermissions : Permission := .none
  lastsForever : Bool := false
  scope : Scope := .allEndpoints
  ttlSeconds : Option Int := none
  guestTrainingRunId : Option Int := none
  dateRenewed : Option Int := none
  canRenew : Bool := false
  deriving DecidableEq, Repr

/-- A row of the tokens table, as far as expiry and authorization read it. -/
structure Token where
  token : String
  tokenType : TokenType
  clientId : Option Int
  userId : Option Int
  tokenMeta : TokenMeta
  deriving DecidableEq, Repr

def guestTokenExpirySeconds : Int := 30 * 24 * 60 * 60

def userTokenExpirySeconds : Int := 7 * 24 * 60 * 60

def maxConcurrentSessions : Int := 20

/-- Python's `value or None` of an optional protobuf integer. -/
def orNone (value : Option Int) : Option Int :=
  if value.getD 0 = 0 then none else value

namespace Token

def guestExperimentId (token : Token) : Option Int :=
  if token.tokenType = .guest then orNone token.tokenMeta.guestExperimentId else none

def guestTrainingRunId (token : Token) : Option Int :=
  if token.tokenType = .guest then orNone token.tokenMeta.guestTrainingRunId else none

/-- `default_ttl_seconds`: guests' tokens expire, users' where they can be renewed, others never. -/
def defaultTtlSeconds (tokenType : TokenType) (canRenew : Bool) : Option Int :=
  match tokenType with
  | .guest => some guestTokenExpirySeconds
  | .user => if canRenew then some userTokenExpirySeconds else none
  | _ => none

/-- A guest token without user and experiment: a token of the client itself, which does not expire. -/
def isUserlessClientToken (token : Token) : Bool :=
  token.tokenType == .guest && token.userId.isNone && token.guestExperimentId.isNone

/-- `ttl_seconds`, where the tests for tokens without an end come first. -/
def ttlSeconds (token : Token) : Option Int :=
  if token.isUserlessClientToken then none
  else if token.tokenMeta.lastsForever then none
  else
    match token.tokenMeta.ttlSeconds with
    | some ttlSeconds => some ttlSeconds
    | none => defaultTtlSeconds token.tokenType token.tokenMeta.canRenew

/-- A renewed token starts its lifetime again. -/
def startDate (token : Token) : Int :=
  token.tokenMeta.dateRenewed.getD token.tokenMeta.dateCreated

/-- `expiration_timestamp`, counted from the last renewal. -/
def expirationTimestamp (token : Token) : Option Int :=
  token.ttlSeconds.map fun ttlSeconds => token.startDate + ttlSeconds

/-- `expired`, which a token is only after its last second. -/
def expired (now : Int) (token : Token) : Bool :=
  match token.expirationTimestamp with
  | some expirationTimestamp => decide (expirationTimestamp < now)
  | none => false

def creatingUserId (token : Token) : Option Int := orNone token.tokenMeta.creatingUserId

def guestCanRead (token : Token) : Bool :=
  token.tokenType == .guest &&
    (token.tokenMeta.guestPermissions == .read || token.tokenMeta.guestPermissions == .write)

/-- Whether the token is one of development mode. -/
def development (token : Token) : Bool := token.tokenType == .clientDev

theorem expired_iff {now : Int} {token : Token} :
    token.expired now = true ↔ ∃ expiration, token.expirationTimestamp = some expiration ∧ expiration < now := by
  unfold expired
  cases token.expirationTimestamp with
  | none => simp
  | some expiration => simp

theorem expirationTimestamp_eq_some {token : Token} {expiration : Int} :
    token.expirationTimestamp = some expiration ↔
      ∃ ttlSeconds, token.ttlSeconds = some ttlSeconds ∧ token.startDate + ttlSeconds = expiration := by
  exact Option.map_eq_some_iff

/-- A ttl in the meta counts exactly for a token that is neither a client's own nor lasting forever. -/
theorem ttlSeconds_of_meta {token : Token} {ttl : Int} (given : token.tokenMeta.ttlSeconds = some ttl) :
    token.ttlSeconds =
      if token.isUserlessClientToken || token.tokenMeta.lastsForever then none else some ttl := by
  unfold ttlSeconds
  rw [given]
  cases token.isUserlessClientToken <;> simp

end Token

end Zigopt.Tokens
