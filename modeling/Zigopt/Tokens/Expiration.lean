/-
Module: Zigopt.Tokens.Expiration
Layer: Proofs
Purpose: Runs of token-service operations over a clock that never goes back. A token that was created
  with a session expiration is rejected by every lookup after it, and no token outlives the ttl it was
  given: exactly if no guest token is created without an experiment, none is created for a session that
  is over, none is renewed beyond its session, and none that was given a ttl is made to last forever.
Main exports: Operation, perform, Accepted, SessionsEnd, Fine, sessions_end_iff, session_never_ends
-/
import Mathlib.Data.List.Nodup
import Zigopt.Lib.Trace
import Zigopt.Tokens.Service

namespace Zigopt.Tokens

/-! ### Runs -/

/-- The operations with their arguments and the strings that `random_string()` draws in them. -/
inductive Operation where
  | createTemporaryUserToken (token : String) (userId : Int) (sessionExpiration : Option Int)
  | createUserToken (token : String) (userId : Int) (sessionExpiration : Option Int) (canRenew : Bool)
  | createGuestExperimentToken (token : String) (clientId experimentId : Int)
      (creatingUserId sessionExpiration : Option Int)
  | createGuestTrainingRunToken (token : String) (clientId trainingRunId : Int)
      (experimentId creatingUserId sessionExpiration : Option Int)
  | getOrCreateRoleToken (token : String) (clientId userId : Int) (development : Bool)
  | getOrCreateClientSignupToken (token : String) (clientId creatingUserId : Int)
  | renewToken (token : String)
  | rotateToken (fresh token : String)
  | rotateTokensForUser (fresh : List String) (userId : Int)
  | updateLastsForever (token : String) (lastsForever : Bool)
  | deleteToken (token : String)
  | findByToken (token : String) (includeExpired : Bool)
  | findGuestTokens (clientId : Int) (creatingUserId : Option Int)
  | findByUserId (userId : Int) (tokenType : Option TokenType)
  | findByClientAndUser (clientId userId : Int)
  deriving DecidableEq, Repr

/-- What the operation raises, if it does, and the table it leaves behind. -/
def perform (config : Config) (now : Int) (table : Table) : Operation → Option ServiceError × Table
  | .createTemporaryUserToken token userId sessionExpiration =>
      raised (createTemporaryUserToken config now token table userId sessionExpiration)
  | .createUserToken token userId sessionExpiration canRenew =>
      raised (createUserToken config now token table userId sessionExpiration canRenew)
  | .createGuestExperimentToken token clientId experimentId creatingUserId sessionExpiration =>
      raised (createGuestExperimentToken config now token table clientId experimentId creatingUserId
        sessionExpiration)
  | .createGuestTrainingRunToken token clientId trainingRunId experimentId creatingUserId
      sessionExpiration =>
      raised (createGuestTrainingRunToken config now token table clientId trainingRunId experimentId
        creatingUserId sessionExpiration)
  | .getOrCreateRoleToken token clientId userId development =>
      raised (getOrCreateRoleToken config now token table clientId userId development)
  | .getOrCreateClientSignupToken token clientId creatingUserId =>
      raised (getOrCreateClientSignupToken config now token table clientId creatingUserId)
  | .renewToken token => (none, Tokens.renewToken now table token)
  | .rotateToken fresh token => raised (Tokens.rotateToken fresh table token)
  | .rotateTokensForUser fresh userId => raised (Tokens.rotateTokensForUser now fresh table userId)
  | .updateLastsForever token lastsForever => raised (Tokens.updateLastsForever table token lastsForever)
  | .deleteToken token => (none, Tokens.deleteToken table token)
  | .findByToken token includeExpired => (none, (Tokens.findByToken now table token includeExpired).2)
  | .findGuestTokens clientId creatingUserId =>
      (none, (Tokens.findGuestTokens now table clientId creatingUserId).2)
  | .findByUserId userId tokenType => (none, (Tokens.findByUserId now table userId tokenType).2)
  | .findByClientAndUser clientId userId =>
      (none, (Tokens.findByClientAndUser now table clientId userId).2)
where
  raised {α : Type} : Except ServiceError α × Table → Option ServiceError × Table
    | (.ok _, table) => (none, table)
    | (.error error, table) => (some error, table)

structure State where
  now : Int
  tokens : Table

def after (config : Config) (before : State) (step : Int × Operation) : State :=
  ⟨step.1, (perform config step.1 before.tokens step.2).2⟩

/-- One operation, at a time that is not before the last one. -/
def Accepted (config : Config) (before : State) (step : Int × Operation) (reached : State) : Prop :=
  before.now ≤ step.1 ∧ reached = after config before step

/-! ### Sessions that end -/

/-- No lookup of the service finds the token, and a request that is made with it is refused. -/
structure RejectedByEveryLookup (now : Int) (table : Table) (issued : Issued) : Prop where
  byToken : (findByToken now table issued.row.token false).1 = none
  byRequest : authenticateToken now table issued.row.token = .error .tokenExpired
  amongGuestTokens : ∀ (clientId : Int) (creatingUserId : Option Int),
    issued ∉ (findGuestTokens now table clientId creatingUserId).1
  amongUserTokens : ∀ (userId : Int) (tokenType : Option TokenType),
    issued ∉ (findByUserId now table userId tokenType).1
  amongClientTokens : ∀ clientId userId : Int, issued ∉ (findByClientAndUser now table clientId userId).1

/-- From now on, whoever asks: a token that was created with a session expiration is rejected after it,
    and what remains of a token's lifetime is at most the ttl it was given. -/
structure SessionsEnd (state : State) : Prop where
  rejected : ∀ issued ∈ state.tokens, ∀ sessionExpiration, issued.sessionExpiration = some sessionExpiration →
    ∀ time, state.now ≤ time → sessionExpiration < time → RejectedByEveryLookup time state.tokens issued
  remaining : ∀ issued ∈ state.tokens, ∀ ttl, issued.ttl = some ttl → ∀ time, state.now ≤ time →
    ∃ expiration, issued.row.expirationTimestamp = some expiration ∧ expiration - time ≤ ttl

/-! ### The condition on a step -/

/-- A token is created for a session that is not over yet, unless the configured ttl is negative. -/
def InTime (config : Config) (now sessionExpiration : Int) : Prop :=
  now ≤ sessionExpiration ∨ ∃ ttl, config.tokenTtlSeconds = some ttl ∧ ttl < 0

/-- The condition under which sessions still end after an operation. It speaks of creations only where
    the new token is stored: a drawn string that is taken stores nothing. -/
def Fine (config : Config) (before : State) (step : Int × Operation) (_after : State) : Prop :=
  let stored := (perform config step.1 before.tokens step.2).1 = none
  match step.2 with
  | .createTemporaryUserToken _ _ sessionExpiration =>
      stored → InTime config step.1 (temporaryExpiration config step.1 sessionExpiration)
  | .createUserToken _ _ sessionExpiration _ =>
      stored → ∀ expiration, sessionExpiration = some expiration → InTime config step.1 expiration
  | .createGuestExperimentToken _ _ experimentId _ sessionExpiration =>
      stored → experimentId ≠ 0 ∧
        ∀ expiration, sessionExpiration = some expiration → InTime config step.1 expiration
  | .createGuestTrainingRunToken _ _ _ experimentId _ sessionExpiration =>
      stored → (∃ id, experimentId = some id ∧ id ≠ 0) ∧
        ∀ expiration, sessionExpiration = some expiration → InTime config step.1 expiration
  | .renewToken token =>
      ∀ issued ∈ before.tokens, issued.row.token = token → issued.row.tokenMeta.canRenew = true →
        ∀ expiration ttl, issued.sessionExpiration = some expiration →
          issued.row.tokenMeta.ttlSeconds = some ttl → step.1 + ttl ≤ expiration ∨ ttl < 0
  | .updateLastsForever token lastsForever =>
      lastsForever = true → ∀ issued ∈ before.tokens, issued.row.token = token → issued.ttl = none
  | _ => True

/-! ### Rows -/

/-- A row whose session and lifetime end in time, from `now` on. -/
structure Ends (now : Int) (issued : Issued) : Prop where
  session : ∀ sessionExpiration, issued.sessionExpiration = some sessionExpiration →
    ∃ expiration, issued.row.expirationTimestamp = some expiration ∧
      (expiration ≤ sessionExpiration ∨ expiration < now)
  lifetime : ∀ ttl, issued.ttl = some ttl →
    ∃ expiration, issued.row.expirationTimestamp = some expiration ∧ expiration ≤ now + ttl

/-- What every row has kept of its creation. -/
structure Traced (issued : Issued) : Prop where
  ttl : ∀ ttl, issued.ttl = some ttl → issued.row.tokenMeta.ttlSeconds = some ttl
  session : ∀ sessionExpiration, issued.sessionExpiration = some sessionExpiration →
    ∃ ttl, issued.ttl = some ttl

/-- The table has every token once, and each row the time to live that it was issued with. -/
structure Sound (table : Table) : Prop where
  distinct : (names table).Nodup
  traced : ∀ issued ∈ table, Traced issued

/-- What has ended stays ended. -/
theorem Ends.later {before now : Int} {issued : Issued} (ends : Ends before issued) (later : before ≤ now) :
    Ends now issued where
  session := by
    intro sessionExpiration given
    obtain ⟨expiration, expires, bound⟩ := ends.session sessionExpiration given
    exact ⟨expiration, expires, by omega⟩
  lifetime := by
    intro ttl given
    obtain ⟨expiration, expires, bound⟩ := ends.lifetime ttl given
    exact ⟨expiration, expires, by omega⟩

/-! ### Lookups reject exactly the expired tokens -/

theorem find_named {table : Table} (distinct : (names table).Nodup) {issued : Issued} (member : issued ∈ table) :
    (table.find? fun other => other.row.token == issued.row.token) = some issued := by
  induction table with
  | nil => simp at member
  | cons first rest inductionHypothesis =>
      simp only [names, List.map_cons, List.nodup_cons] at distinct
      rcases List.mem_cons.mp member with here | inRest
      · subst here
        simp
      · have apart : first.row.token ≠ issued.row.token := by
          intro same
          exact distinct.1 (same ▸ List.mem_map_of_mem inRest)
        rw [List.find?_cons_of_neg (by simpa using apart)]
        exact inductionHypothesis distinct.2 inRest

theorem mem_rejectExpired {now : Int} {table : Table} {tokens : List Issued} {issued : Issued} :
    issued ∈ (rejectExpired now table tokens).1 ↔ issued ∈ tokens ∧ issued.row.expired now = false := by
  simp [rejectExpired]

theorem rejected_iff_expired {now : Int} {table : Table} (distinct : (names table).Nodup) {issued : Issued}
    (member : issued ∈ table) :
    RejectedByEveryLookup now table issued ↔ issued.row.expired now = true := by
  have found := find_named distinct member
  constructor
  · intro rejected
    have refused := rejected.byRequest
    unfold authenticateToken findByToken at refused
    simp only [found, if_true] at refused
    by_contra valid
    simp [valid] at refused
  · intro expired
    have unlisted : ∀ tokens : List Issued, issued ∉ (rejectExpired now table tokens).1 := by
      intro tokens listed
      have valid := (mem_rejectExpired.mp listed).2
      simp [expired] at valid
    constructor
    · simp [findByToken, found, rejectExpired, expired]
    · simp [authenticateToken, findByToken, found, expired]
    · exact fun clientId creatingUserId => unlisted _
    · exact fun userId tokenType => unlisted _
    · exact fun clientId userId => unlisted _

/-- Sessions end in a state if each of its rows ends in time. The first time that counts for a
    session is the one after its expiration, or now. -/
theorem sessionsEnd_iff {state : State} (distinct : (names state.tokens).Nodup) :
    SessionsEnd state ↔ ∀ issued ∈ state.tokens, Ends state.now issued := by
  constructor
  · intro sessionsEnd issued member
    constructor
    · intro sessionExpiration given
      have rejected := sessionsEnd.rejected issued member sessionExpiration given
        (max state.now (sessionExpiration + 1)) (by omega) (by omega)
      obtain ⟨expiration, expires, before⟩ :=
        Token.expired_iff.mp ((rejected_iff_expired distinct member).mp rejected)
      exact ⟨expiration, expires, by omega⟩
    · intro ttl given
      obtain ⟨expiration, expires, bound⟩ := sessionsEnd.remaining issued member ttl given state.now (by omega)
      exact ⟨expiration, expires, by omega⟩
  · intro ends
    constructor
    · intro issued member sessionExpiration given time later after
      obtain ⟨expiration, expires, bound⟩ := (ends issued member).session sessionExpiration given
      apply (rejected_iff_expired distinct member).mpr
      exact Token.expired_iff.mpr ⟨expiration, expires, by omega⟩
    · intro issued member ttl given time later
      obtain ⟨expiration, expires, bound⟩ := (ends issued member).lifetime ttl given
      exact ⟨expiration, expires, by omega⟩

/-! ### Deletions -/

theorem rejectExpired_sublist (now : Int) (table : Table) (tokens : List Issued) :
    (rejectExpired now table tokens).2.Sublist table := by
  unfold rejectExpired
  dsimp only
  split
  · exact List.Sublist.refl _
  · exact List.filter_sublist

theorem findByToken_sublist (now : Int) (table : Table) (token : String) (includeExpired : Bool) :
    (findByToken now table token includeExpired).2.Sublist table := by
  unfold findByToken
  cases includeExpired with
  | true => exact List.Sublist.refl _
  | false => exact rejectExpired_sublist now table _

theorem Sound.sublist {table kept : Table} (sound : Sound table) (sublist : kept.Sublist table) : Sound kept where
  distinct := sound.distinct.sublist (sublist.map _)
  traced := fun issued member => sound.traced issued (sublist.subset member)

/-! ### Creations -/

/-- An operation that creates a token: it may raise, or find a token that is there already, or store the
    new one; and it may delete tokens before that. -/
inductive Creation (before : Table) (new : Issued) : Option ServiceError × Table → Prop where
  | refused (error : ServiceError) {kept : Table} (sublist : kept.Sublist before) :
      Creation before new (some error, kept)
  | stored {kept : Table} (sublist : kept.Sublist before) (fresh : new.row.token ∉ names kept) :
      Creation before new (none, kept ++ [new])

theorem insert_creation {before kept : Table} (sublist : kept.Sublist before) (new : Issued) :
    Creation before new (perform.raised (insert kept new)) := by
  unfold insert
  split
  · exact .refused _ sublist
  · exact .stored sublist ‹_›

theorem createUserToken_creation (config : Config) (now : Int) (token : String) (before : Table) (userId : Int)
    (sessionExpiration : Option Int) (canRenew : Bool) :
    Creation before
      (issue (userToken config now token userId sessionExpiration canRenew) sessionExpiration)
      (perform.raised (createUserToken config now token before userId sessionExpiration canRenew)) := by
  have kept : (findByUserId now before userId (some .user)).2.Sublist before := rejectExpired_sublist _ _ _
  unfold createUserToken
  dsimp only
  split
  · split
    · exact .refused _ kept
    · exact insert_creation (List.filter_sublist.trans kept) _
  · exact insert_creation kept _

/-- A creation that looks for a token first leaves a part of the table, or adds the new token to it. -/
theorem getOrCreateRoleToken_creation (config : Config) (now : Int) (token : String) (before : Table)
    (clientId userId : Int) (development : Bool) :
    let result := perform.raised (getOrCreateRoleToken config now token before clientId userId development)
    result.2.Sublist before ∨
      Creation before (issue (roleToken config now token clientId userId development) none) result := by
  have kept : (findByClientAndUser now before clientId userId).2.Sublist before := rejectExpired_sublist _ _ _
  unfold getOrCreateRoleToken
  dsimp only
  cases (findByClientAndUser now before clientId userId).1.find? fun issued =>
      issued.row.development == development with
  | some existing => exact Or.inl kept
  | none => exact Or.inr (insert_creation kept _)

theorem getOrCreateClientSignupToken_creation (config : Config) (now : Int) (token : String) (before : Table)
    (clientId creatingUserId : Int) :
    let result := perform.raised (getOrCreateClientSignupToken config now token before clientId creatingUserId)
    result.2.Sublist before ∨
      Creation before (issue (signupToken config now token clientId creatingUserId) none) result := by
  have kept : (findGuestTokens now before clientId (some creatingUserId)).2.Sublist before :=
    rejectExpired_sublist _ _ _
  unfold getOrCreateClientSignupToken
  dsimp only
  cases (findGuestTokens now before clientId (some creatingUserId)).1.find? fun issued =>
      isGuestReadToken now none issued.row with
  | some existing => exact Or.inl kept
  | none => exact Or.inr (insert_creation kept _)

theorem Creation.sound {before : Table} {new : Issued} {result : Option ServiceError × Table}
    (creation : Creation before new result) (sound : Sound before) (traced : Traced new) : Sound result.2 := by
  cases creation with
  | refused error sublist => exact sound.sublist sublist
  | @stored kept sublist fresh =>
      constructor
      · have split : names (kept ++ [new]) = names kept ++ [new.row.token] := by simp [names]
        rw [split, List.nodup_append]
        refine ⟨(sound.sublist sublist).distinct, by simp, ?_⟩
        intro name inKept other isNew same
        rw [List.mem_singleton] at isNew
        exact fresh (isNew ▸ same ▸ inKept)
      · intro issued member
        rcases List.mem_append.mp member with inKept | isNew
        · exact sound.traced issued (sublist.subset inKept)
        · rw [List.mem_singleton.mp isNew]
          exact traced

/-- Rows that are only kept still end in time, so that the new one decides. -/
theorem Creation.ends_iff {before : Table} {new : Issued} {result : Option ServiceError × Table} {now : Int}
    (creation : Creation before new result) (ends : ∀ issued ∈ before, Ends now issued) :
    (∀ issued ∈ result.2, Ends now issued) ↔ (result.1 = none → Ends now new) := by
  cases creation with
  | refused error sublist =>
      constructor
      · intro _ raised
        cases raised
      · intro _ issued member
        exact ends issued (sublist.subset member)
  | stored sublist fresh =>
      constructor
      · intro all _
        exact all new (List.mem_append_right _ (List.mem_singleton_self _))
      · intro newEnds issued member
        rcases List.mem_append.mp member with inKept | isNew
        · exact ends issued (sublist.subset inKept)
        · rw [List.mem_singleton.mp isNew]
          exact newEnds rfl

/-! ### The ttl of a new token -/

theorem makeMeta_ttl (config : Config) (now : Int) (sessionExpiration : Option Int) (tokenType : TokenType)
    (canRenew : Bool) (option : Int)
    (given : some option ∈ [Token.defaultTtlSeconds tokenType canRenew,
      sessionExpiration.map fun expiration => max (expiration - now) 0, config.tokenTtlSeconds]) :
    ∃ ttl, (makeMeta config now sessionExpiration tokenType canRenew).ttlSeconds = some ttl ∧ ttl ≤ option := by
  have listed := List.reduceOption_mem_iff.mpr given
  cases least : (makeMeta config now sessionExpiration tokenType canRenew).ttlSeconds with
  | none =>
      have empty := List.min?_eq_none_iff.mp least
      rw [empty] at listed
      cases listed
  | some ttl => exact ⟨ttl, rfl, (List.min?_eq_some_iff.mp least).2 option listed⟩

theorem makeMeta_guest (config : Config) (now : Int) (sessionExpiration : Option Int) (canRenew : Bool) :
    ∃ ttl, (makeMeta config now sessionExpiration .guest canRenew).ttlSeconds = some ttl := by
  obtain ⟨ttl, set, _⟩ := makeMeta_ttl config now sessionExpiration .guest canRenew guestTokenExpirySeconds
    List.mem_cons_self
  exact ⟨ttl, set⟩

/-- The ttl ends within the session, or at once, exactly if the token is made in time: only the
    configured ttl can be negative. -/
theorem makeMeta_session (config : Config) (now expiration : Int) (tokenType : TokenType) (canRenew : Bool) :
    ∃ ttl, (makeMeta config now (some expiration) tokenType canRenew).ttlSeconds = some ttl ∧
      (now + ttl ≤ expiration ∨ ttl < 0 ↔ InTime config now expiration) := by
  obtain ⟨ttl, set, bound⟩ := makeMeta_ttl config now (some expiration) tokenType canRenew
    (max (expiration - now) 0) (by simp)
  refine ⟨ttl, set, ?_⟩
  have listed := List.reduceOption_mem_iff.mp (List.min?_eq_some_iff.mp set).1
  constructor
  · intro ends
    by_cases inTime : now ≤ expiration
    · exact Or.inl inTime
    · have negative : ttl < 0 := by omega
      simp only [List.mem_cons, Option.map_some, Option.some.injEq, List.not_mem_nil, or_false] at listed
      rcases listed with isDefault | isSession | isConfigured
      · exfalso
        unfold Token.defaultTtlSeconds guestTokenExpirySeconds userTokenExpirySeconds at isDefault
        split at isDefault
        · injection isDefault with isDefault
          omega
        · split at isDefault
          · injection isDefault with isDefault
            omega
          · cases isDefault
        · cases isDefault
      · omega
      · exact Or.inr ⟨ttl, isConfigured.symm, negative⟩
  · rintro (inTime | ⟨configured, isConfigured, negative⟩)
    · omega
    · obtain ⟨least, setAgain, below⟩ := makeMeta_ttl config now (some expiration) tokenType canRenew configured
        (by simp [isConfigured])
      rw [set] at setAgain
      injection setAgain with same
      omega

/-! ### New rows -/

theorem issue_traced {token : Token} {sessionExpiration : Option Int} (ends : token.tokenMeta.lastsForever = false)
    (set : ∀ expiration, sessionExpiration = some expiration → ∃ ttl, token.tokenMeta.ttlSeconds = some ttl) :
    Traced (issue token sessionExpiration) where
  ttl := by
    intro ttl given
    simpa [issue, ends] using given
  session := by
    intro expiration given
    obtain ⟨ttl, isSet⟩ := set expiration given
    exact ⟨ttl, by simpa [issue, ends] using isSet⟩

/-- A new token whose ttl counts ends in time exactly if that ttl ends within its session. -/
theorem issue_ends_iff {now : Int} {token : Token} {sessionExpiration : Option Int}
    (starts : token.startDate = now) (ends : token.tokenMeta.lastsForever = false)
    (counts : token.isUserlessClientToken = false)
    (set : ∀ expiration, sessionExpiration = some expiration → ∃ ttl, token.tokenMeta.ttlSeconds = some ttl) :
    Ends now (issue token sessionExpiration) ↔
      ∀ expiration, sessionExpiration = some expiration → ∀ ttl, token.tokenMeta.ttlSeconds = some ttl →
        now + ttl ≤ expiration ∨ ttl < 0 := by
  have expires : ∀ ttl, token.tokenMeta.ttlSeconds = some ttl → token.expirationTimestamp = some (now + ttl) := by
    intro ttl given
    rw [Token.expirationTimestamp, Token.ttlSeconds_of_meta given, counts, ends, starts]
    rfl
  constructor
  · intro rowEnds expiration isGiven ttl given
    obtain ⟨timestamp, isTimestamp, bound⟩ := rowEnds.session expiration isGiven
    have same := (expires ttl given).symm.trans isTimestamp
    injection same with same
    omega
  · intro within
    constructor
    · intro expiration isGiven
      obtain ⟨ttl, given⟩ := set expiration isGiven
      have bound := within expiration isGiven ttl given
      exact ⟨now + ttl, expires ttl given, by omega⟩
    · intro ttl isGiven
      have given : token.tokenMeta.ttlSeconds = some ttl := by simpa [issue, ends] using isGiven
      exact ⟨now + ttl, expires ttl given, le_refl _⟩

/-- A client's own token that was given a ttl outlives it. -/
theorem not_ends_of_userless {now ttl : Int} {issued : Issued} (given : issued.ttl = some ttl)
    (userless : issued.row.isUserlessClientToken = true) : ¬ Ends now issued := by
  intro ends
  obtain ⟨expiration, expires, _⟩ := ends.lifetime ttl given
  have never : issued.row.expirationTimestamp = none := by
    simp [Token.expirationTimestamp, Token.ttlSeconds, userless]
  rw [never] at expires
  cases expires

/-- A guest token ends in time exactly if it has an experiment and is made in time. -/
theorem guest_ends_iff {config : Config} {now : Int} {sessionExpiration : Option Int} {token : Token}
    (isGuest : token.tokenType = .guest) (noUser : token.userId = none) (starts : token.startDate = now)
    (ends : token.tokenMeta.lastsForever = false)
    (set : token.tokenMeta.ttlSeconds = (makeMeta config now sessionExpiration .guest false).ttlSeconds) :
    Ends now (issue token sessionExpiration) ↔
      (∃ id, token.tokenMeta.guestExperimentId = some id ∧ id ≠ 0) ∧
        ∀ expiration, sessionExpiration = some expiration → InTime config now expiration := by
  have alone : token.isUserlessClientToken = true ↔
      ¬ ∃ id, token.tokenMeta.guestExperimentId = some id ∧ id ≠ 0 := by
    unfold Token.isUserlessClientToken Token.guestExperimentId orNone
    cases token.tokenMeta.guestExperimentId with
    | none => simp [isGuest, noUser]
    | some id => by_cases zero : id = 0 <;> simp [isGuest, noUser, zero]
  obtain ⟨ttl, isTtl⟩ := makeMeta_guest config now sessionExpiration false
  by_cases hasExperiment : ∃ id, token.tokenMeta.guestExperimentId = some id ∧ id ≠ 0
  · have counts : token.isUserlessClientToken = false := by
      rw [← Bool.not_eq_true, alone, not_not]
      exact hasExperiment
    rw [issue_ends_iff starts ends counts fun _ _ => ⟨ttl, set.trans isTtl⟩]
    constructor
    · intro within
      refine ⟨hasExperiment, ?_⟩
      intro expiration isGiven
      obtain ⟨sessionTtl, isSessionTtl, exact⟩ := makeMeta_session config now expiration .guest false
      subst isGiven
      exact exact.mp (within expiration rfl sessionTtl (set.trans isSessionTtl))
    · rintro ⟨_, inTime⟩ expiration isGiven givenTtl isGivenTtl
      obtain ⟨sessionTtl, isSessionTtl, exact⟩ := makeMeta_session config now expiration .guest false
      subst isGiven
      rw [set, isSessionTtl] at isGivenTtl
      injection isGivenTtl with same
      exact same ▸ exact.mpr (inTime expiration rfl)
  · have givenTtl : (issue token sessionExpiration).ttl = some ttl := by simp [issue, ends, set, isTtl]
    have outlives : ¬ Ends now (issue token sessionExpiration) :=
      not_ends_of_userless givenTtl (alone.mpr hasExperiment)
    constructor
    · intro rowEnds
      exact absurd rowEnds outlives
    · rintro ⟨present, _⟩
      exact absurd present hasExperiment

theorem guestExperimentToken_ends_iff {config : Config} {now : Int} {token : String} {clientId experimentId : Int}
    {creatingUserId sessionExpiration : Option Int} :
    Ends now
        (issue (guestExperimentToken config now token clientId experimentId creatingUserId sessionExpiration)
          sessionExpiration) ↔
      experimentId ≠ 0 ∧ ∀ expiration, sessionExpiration = some expiration → InTime config now expiration := by
  have exact : Ends now
        (issue (guestExperimentToken config now token clientId experimentId creatingUserId sessionExpiration)
          sessionExpiration) ↔
      (∃ id, some experimentId = some id ∧ id ≠ 0) ∧
        ∀ expiration, sessionExpiration = some expiration → InTime config now expiration :=
    guest_ends_iff rfl rfl rfl rfl rfl
  simpa using exact

theorem userToken_ends_iff {config : Config} {now : Int} {token : String} {userId : Int}
    {sessionExpiration : Option Int} {canRenew : Bool} :
    Ends now (issue (userToken config now token userId sessionExpiration canRenew) sessionExpiration) ↔
      ∀ expiration, sessionExpiration = some expiration → InTime config now expiration := by
  have set : ∀ expiration, sessionExpiration = some expiration →
      ∃ ttl, (makeMeta config now sessionExpiration .user canRenew).ttlSeconds = some ttl ∧
        (now + ttl ≤ expiration ∨ ttl < 0 ↔ InTime config now expiration) := by
    intro expiration isGiven
    subst isGiven
    exact makeMeta_session config now expiration .user canRenew
  have hasTtl : ∀ expiration, sessionExpiration = some expiration →
      ∃ ttl, (userToken config now token userId sessionExpiration canRenew).tokenMeta.ttlSeconds = some ttl := by
    intro expiration isGiven
    obtain ⟨ttl, isTtl, _⟩ := set expiration isGiven
    exact ⟨ttl, isTtl⟩
  have starts : (userToken config now token userId sessionExpiration canRenew).startDate = now := rfl
  rw [issue_ends_iff starts rfl rfl hasTtl]
  constructor
  · intro within expiration isGiven
    obtain ⟨ttl, isTtl, exact⟩ := set expiration isGiven
    exact exact.mp (within expiration isGiven ttl isTtl)
  · intro inTime expiration isGiven ttl isTtl
    obtain ⟨sessionTtl, isSessionTtl, exact⟩ := set expiration isGiven
    have same := isTtl.symm.trans isSessionTtl
    injection same with same
    exact same ▸ exact.mpr (inTime expiration isGiven)

theorem userToken_traced {config : Config} {now : Int} {token : String} {userId : Int}
    {sessionExpiration : Option Int} {canRenew : Bool} :
    Traced (issue (userToken config now token userId sessionExpiration canRenew) sessionExpiration) := by
  apply issue_traced rfl
  intro expiration isGiven
  subst isGiven
  obtain ⟨ttl, isTtl, _⟩ := makeMeta_session config now expiration .user canRenew
  exact ⟨ttl, isTtl⟩

theorem roleToken_ends (config : Config) (now : Int) (token : String) (clientId userId : Int)
    (development : Bool) : Ends now (issue (roleToken config now token clientId userId development) none) := by
  have counts : (roleToken config now token clientId userId development).isUserlessClientToken = false := by
    cases development <;> rfl
  apply (issue_ends_iff rfl rfl counts (fun _ isGiven => by cases isGiven)).mpr
  intro expiration isGiven
  cases isGiven

theorem signupToken_ends (config : Config) (now : Int) (token : String) (clientId creatingUserId : Int) :
    Ends now (issue (signupToken config now token clientId creatingUserId) none) where
  session := by
    intro expiration isGiven
    cases isGiven
  lifetime := by
    intro ttl isGiven
    cases isGiven

/-! ### Changes to stored rows -/

theorem forall_modifyRows (property : Issued → Prop) {table : Table} {token : String}
    {condition : Token → Bool} {change : Token → Token} :
    (∀ issued ∈ modifyRows table token condition change, property issued) ↔
      ∀ issued ∈ table,
        if issued.row.token = token ∧ condition issued.row = true then
          property { issued with row := change issued.row }
        else property issued := by
  unfold modifyRows
  rw [List.forall_mem_map]
  apply forall₂_congr
  intro issued member
  split <;> rfl

theorem names_modifyRows {table : Table} {token : String} {condition : Token → Bool} {change : Token → Token}
    (keepsName : ∀ row, (change row).token = row.token) :
    names (modifyRows table token condition change) = names table := by
  unfold names modifyRows
  rw [List.map_map]
  apply List.map_congr_left
  intro issued member
  simp only [Function.comp]
  split
  · exact keepsName _
  · rfl

theorem modifyRows_traced {table : Table} {token : String} {condition : Token → Bool} {change : Token → Token}
    (sound : Sound table) (keepsTtl : ∀ row, (change row).tokenMeta.ttlSeconds = row.tokenMeta.ttlSeconds) :
    ∀ issued ∈ modifyRows table token condition change, Traced issued := by
  apply (forall_modifyRows Traced).mpr
  intro issued member
  have traced := sound.traced issued member
  split
  · constructor
    · intro ttl isGiven
      exact (keepsTtl _).trans (traced.ttl ttl isGiven)
    · exact traced.session
  · exact traced

theorem modifyRows_sound {table : Table} {token : String} {condition : Token → Bool} {change : Token → Token}
    (sound : Sound table) (keepsName : ∀ row, (change row).token = row.token)
    (keepsTtl : ∀ row, (change row).tokenMeta.ttlSeconds = row.tokenMeta.ttlSeconds) :
    Sound (modifyRows table token condition change) where
  distinct := by
    rw [names_modifyRows keepsName]
    exact sound.distinct
  traced := modifyRows_traced sound keepsTtl

/-- A renewal starts the ttl again: the token ends in time exactly if it still ends within its session. -/
theorem renewed_ends_iff {now : Int} {issued : Issued} (traced : Traced issued) (ends : Ends now issued) :
    Ends now { issued with row := issued.row.renewed now } ↔
      ∀ expiration ttl, issued.sessionExpiration = some expiration →
        issued.row.tokenMeta.ttlSeconds = some ttl → now + ttl ≤ expiration ∨ ttl < 0 := by
  have expires : ∀ ttl, issued.ttl = some ttl → (issued.row.renewed now).expirationTimestamp = some (now + ttl) := by
    intro ttl given
    obtain ⟨expiration, expiresBefore, _⟩ := ends.lifetime ttl given
    obtain ⟨current, isCurrent, _⟩ := Token.expirationTimestamp_eq_some.mp expiresBefore
    have counts := Token.ttlSeconds_of_meta (traced.ttl ttl given)
    have same : current = ttl := by
      rw [isCurrent] at counts
      split at counts
      · cases counts
      · injection counts
    apply Token.expirationTimestamp_eq_some.mpr
    exact ⟨ttl, same ▸ isCurrent, rfl⟩
  constructor
  · intro renewedEnds expiration ttl isGiven isTtl
    obtain ⟨givenTtl, isGivenTtl⟩ := traced.session expiration isGiven
    have same := (traced.ttl givenTtl isGivenTtl).symm.trans isTtl
    injection same with same
    obtain ⟨timestamp, isTimestamp, bound⟩ := renewedEnds.session expiration isGiven
    have sameTimestamp := (expires givenTtl isGivenTtl).symm.trans isTimestamp
    injection sameTimestamp with sameTimestamp
    omega
  · intro within
    constructor
    · intro expiration isGiven
      obtain ⟨ttl, isTtl⟩ := traced.session expiration isGiven
      have bound := within expiration ttl isGiven (traced.ttl ttl isTtl)
      exact ⟨now + ttl, expires ttl isTtl, by omega⟩
    · intro ttl isTtl
      exact ⟨now + ttl, expires ttl isTtl, le_refl _⟩

theorem renewToken_ends_iff {now : Int} {table : Table} {token : String} (sound : Sound table)
    (ends : ∀ issued ∈ table, Ends now issued) :
    (∀ issued ∈ renewToken now table token, Ends now issued) ↔
      ∀ issued ∈ table, issued.row.token = token → issued.row.tokenMeta.canRenew = true →
        ∀ expiration ttl, issued.sessionExpiration = some expiration →
          issued.row.tokenMeta.ttlSeconds = some ttl → now + ttl ≤ expiration ∨ ttl < 0 := by
  unfold renewToken
  rw [forall_modifyRows]
  apply forall₂_congr
  intro issued member
  have exact := renewed_ends_iff (sound.traced issued member) (ends issued member)
  split
  · rename_i chosen
    rw [exact]
    constructor
    · exact fun within _ _ => within
    · exact fun within => within chosen.1 chosen.2
  · rename_i unchosen
    constructor
    · exact fun _ named renewable => absurd ⟨named, renewable⟩ unchosen
    · exact fun _ => ends issued member

theorem names_renamed (table : Table) (token fresh : String) :
    names (modifyRows table token (fun _ => true) (Token.renamed fresh)) =
      (names table).map fun name => if name = token then fresh else name := by
  unfold names modifyRows
  rw [List.map_map, List.map_map]
  apply List.map_congr_left
  intro issued member
  by_cases named : issued.row.token = token <;> simp [named, Token.renamed]

/-- Two names can only fall together on the drawn string, which no other row has. -/
theorem rotateToken_sound {fresh token : String} {table : Table} (sound : Sound table) :
    Sound (rotateToken fresh table token).2 := by
  unfold rotateToken
  split
  · exact sound
  · rename_i accepted
    dsimp only
    have keepsTtl : ∀ row : Token, (row.renamed fresh).tokenMeta.ttlSeconds = row.tokenMeta.ttlSeconds :=
      fun _ => rfl
    refine ⟨?_, modifyRows_traced sound keepsTtl⟩
    rw [names_renamed]
    apply List.Nodup.map_on ?_ sound.distinct
    intro first inFirst second inSecond same
    by_cases firstNamed : first = token <;> by_cases secondNamed : second = token
    · rw [firstNamed, secondNamed]
    · rw [if_pos firstNamed, if_neg secondNamed] at same
      exact absurd ⟨firstNamed ▸ inFirst, same ▸ secondNamed, same ▸ inSecond⟩ accepted
    · rw [if_neg firstNamed, if_pos secondNamed] at same
      exact absurd ⟨secondNamed ▸ inSecond, same ▸ firstNamed, same ▸ inFirst⟩ accepted
    · rwa [if_neg firstNamed, if_neg secondNamed] at same

/-- The name of a token plays no part in its expiration. -/
theorem rotateToken_ends {now : Int} (fresh token : String) {table : Table}
    (ends : ∀ issued ∈ table, Ends now issued) : ∀ issued ∈ (rotateToken fresh table token).2, Ends now issued := by
  unfold rotateToken
  split
  · exact ends
  · dsimp only
    apply (forall_modifyRows (Ends now)).mpr
    intro issued member
    split
    · exact ⟨(ends issued member).session, (ends issued member).lifetime⟩
    · exact ends issued member

theorem updateLastsForever_sound {table : Table} {token : String} {lastsForever : Bool} (sound : Sound table) :
    Sound (updateLastsForever table token lastsForever).2 := by
  unfold updateLastsForever
  split
  · have keepsName : ∀ row : Token, (row.withLastsForever lastsForever).token = row.token := fun _ => rfl
    have keepsTtl : ∀ row : Token,
        (row.withLastsForever lastsForever).tokenMeta.ttlSeconds = row.tokenMeta.ttlSeconds := fun _ => rfl
    dsimp only
    exact modifyRows_sound sound keepsName keepsTtl
  · exact sound

theorem withLastsForever_ends_iff {now : Int} {issued : Issued} {lastsForever : Bool} (traced : Traced issued)
    (ends : Ends now issued) :
    Ends now { issued with row := issued.row.withLastsForever lastsForever } ↔
      (lastsForever = true → issued.ttl = none) := by
  cases lastsForever with
  | true =>
      have never : (issued.row.withLastsForever true).expirationTimestamp = none := by
        simp [Token.expirationTimestamp, Token.ttlSeconds, Token.withLastsForever]
      constructor
      · intro changedEnds _
        by_contra someTtl
        obtain ⟨ttl, isTtl⟩ := Option.ne_none_iff_exists'.mp someTtl
        obtain ⟨expiration, expires, _⟩ := changedEnds.lifetime ttl isTtl
        exact Option.some_ne_none _ (expires.symm.trans never)
      · intro noTtl
        constructor
        · intro expiration isGiven
          obtain ⟨ttl, isTtl⟩ := traced.session expiration isGiven
          exact absurd ((noTtl rfl).symm.trans isTtl) (Option.some_ne_none ttl).symm
        · intro ttl isTtl
          exact absurd ((noTtl rfl).symm.trans isTtl) (Option.some_ne_none ttl).symm
  | false =>
      have keeps : ∀ expiration, issued.row.expirationTimestamp = some expiration →
          (issued.row.withLastsForever false).expirationTimestamp = some expiration := by
        intro expiration expires
        obtain ⟨ttl, isTtl, isExpiration⟩ := Token.expirationTimestamp_eq_some.mp expires
        apply Token.expirationTimestamp_eq_some.mpr
        refine ⟨ttl, ?_, isExpiration⟩
        unfold Token.ttlSeconds at isTtl
        split at isTtl
        · cases isTtl
        · rename_i limited
          split at isTtl
          · cases isTtl
          · have stillLimited : ¬ (issued.row.withLastsForever false).isUserlessClientToken = true := limited
            rw [Token.ttlSeconds, if_neg stillLimited]
            exact isTtl
      constructor
      · intro _ isTrue
        cases isTrue
      · intro _
        constructor
        · intro sessionExpiration isGiven
          obtain ⟨expiration, expires, bound⟩ := ends.session sessionExpiration isGiven
          exact ⟨expiration, keeps expiration expires, bound⟩
        · intro ttl isTtl
          obtain ⟨expiration, expires, bound⟩ := ends.lifetime ttl isTtl
          exact ⟨expiration, keeps expiration expires, bound⟩

theorem updateLastsForever_ends_iff {now : Int} {table : Table} {token : String} {lastsForever : Bool}
    (sound : Sound table) (ends : ∀ issued ∈ table, Ends now issued) :
    (∀ issued ∈ (updateLastsForever table token lastsForever).2, Ends now issued) ↔
      (lastsForever = true → ∀ issued ∈ table, issued.row.token = token → issued.ttl = none) := by
  unfold updateLastsForever
  split
  · dsimp only
    rw [forall_modifyRows (Ends now)]
    constructor
    · intro changed isTrue issued member named
      have here := changed issued member
      rw [if_pos ⟨named, rfl⟩] at here
      exact (withLastsForever_ends_iff (sound.traced issued member) (ends issued member)).mp here isTrue
    · intro noTtl issued member
      split
      · rename_i chosen
        apply (withLastsForever_ends_iff (sound.traced issued member) (ends issued member)).mpr
        exact fun isTrue => noTtl isTrue issued member chosen.1
      · exact ends issued member
  · rename_i absent
    constructor
    · intro _ _ issued member named
      exact absurd (named ▸ List.mem_map_of_mem member) absent
    · exact fun _ => ends

theorem rotateTokens_keeps {now : Int} (rotations : List (Issued × String)) {table : Table}
    (sound : Sound table) (ends : ∀ issued ∈ table, Ends now issued) :
    Sound (rotateTokens table rotations).2 ∧ ∀ issued ∈ (rotateTokens table rotations).2, Ends now issued := by
  induction rotations generalizing table with
  | nil => exact ⟨sound, ends⟩
  | cons rotation rest inductionHypothesis =>
      rcases rotation with ⟨issued, fresh⟩
      have rotatedSound : Sound (rotateToken fresh table issued.row.token).2 := rotateToken_sound sound
      have rotatedEnds := rotateToken_ends fresh issued.row.token ends
      unfold rotateTokens
      cases rotated : rotateToken fresh table issued.row.token with
      | mk outcome after =>
          rw [rotated] at rotatedSound rotatedEnds
          cases outcome with
          | error error => exact ⟨rotatedSound, rotatedEnds⟩
          | ok done => exact inductionHypothesis rotatedSound rotatedEnds

/-! ### One operation -/

theorem unchanged_ends {now : Int} {before after : Table} (sublist : after.Sublist before)
    (ends : ∀ issued ∈ before, Ends now issued) : (∀ issued ∈ after, Ends now issued) ↔ True :=
  iff_true_intro fun issued member => ends issued (sublist.subset member)

theorem raised_snd {α : Type} (result : Except ServiceError α × Table) : (perform.raised result).2 = result.2 := by
  rcases result with ⟨outcome, table⟩
  cases outcome <;> rfl

/-- What the operation does to the soundness of the table, and when the rows it leaves behind end
    in time: one case for each operation. -/
theorem perform_keeps (config : Config) (now : Int) (before : State) (operation : Operation) (after : State)
    (sound : Sound before.tokens) (ends : ∀ issued ∈ before.tokens, Ends now issued) :
    Sound (perform config now before.tokens operation).2 ∧
      ((∀ issued ∈ (perform config now before.tokens operation).2, Ends now issued) ↔
        Fine config before (now, operation) after) := by
  cases operation with
  | createTemporaryUserToken token userId sessionExpiration =>
      have creation := createUserToken_creation config now token before.tokens userId
        (some (temporaryExpiration config now sessionExpiration)) false
      refine ⟨creation.sound sound userToken_traced, (creation.ends_iff ends).trans ?_⟩
      apply imp_congr_right
      intro _
      rw [userToken_ends_iff]
      constructor
      · exact fun inTime => inTime _ rfl
      · rintro inTime expiration isGiven
        injection isGiven with same
        exact same ▸ inTime
  | createUserToken token userId sessionExpiration canRenew =>
      have creation := createUserToken_creation config now token before.tokens userId sessionExpiration canRenew
      refine ⟨creation.sound sound userToken_traced, (creation.ends_iff ends).trans ?_⟩
      exact imp_congr_right fun _ => userToken_ends_iff
  | createGuestExperimentToken token clientId experimentId creatingUserId sessionExpiration =>
      have creation := insert_creation (List.Sublist.refl before.tokens)
        (issue (guestExperimentToken config now token clientId experimentId creatingUserId sessionExpiration)
          sessionExpiration)
      refine ⟨creation.sound sound (issue_traced rfl fun _ _ => makeMeta_guest config now sessionExpiration false),
        (creation.ends_iff ends).trans ?_⟩
      exact imp_congr_right fun _ => guestExperimentToken_ends_iff
  | createGuestTrainingRunToken token clientId trainingRunId experimentId creatingUserId sessionExpiration =>
      have creation := insert_creation (List.Sublist.refl before.tokens)
        (issue
          (guestTrainingRunToken config now token clientId trainingRunId experimentId creatingUserId
            sessionExpiration)
          sessionExpiration)
      refine ⟨creation.sound sound (issue_traced rfl fun _ _ => makeMeta_guest config now sessionExpiration false),
        (creation.ends_iff ends).trans ?_⟩
      exact imp_congr_right fun _ => guest_ends_iff rfl rfl rfl rfl rfl
  | getOrCreateRoleToken token clientId userId development =>
      have traced : Traced (issue (roleToken config now token clientId userId development) none) :=
        issue_traced rfl fun _ isGiven => by cases isGiven
      rcases getOrCreateRoleToken_creation config now token before.tokens clientId userId development with
        kept | creation
      · exact ⟨sound.sublist kept, unchanged_ends kept ends⟩
      · refine ⟨creation.sound sound traced, (creation.ends_iff ends).trans ?_⟩
        exact iff_true_intro fun _ => roleToken_ends ..
  | getOrCreateClientSignupToken token clientId creatingUserId =>
      have traced : Traced (issue (signupToken config now token clientId creatingUserId) none) := by
        constructor
        · intro ttl isGiven
          cases isGiven
        · intro expiration isGiven
          cases isGiven
      rcases getOrCreateClientSignupToken_creation config now token before.tokens clientId creatingUserId with
        kept | creation
      · exact ⟨sound.sublist kept, unchanged_ends kept ends⟩
      · refine ⟨creation.sound sound traced, (creation.ends_iff ends).trans ?_⟩
        exact iff_true_intro fun _ => signupToken_ends ..
  | renewToken token =>
      have keepsName : ∀ row : Token, (row.renewed now).token = row.token := fun _ => rfl
      have keepsTtl : ∀ row : Token, (row.renewed now).tokenMeta.ttlSeconds = row.tokenMeta.ttlSeconds :=
        fun _ => rfl
      have renewedSound : Sound (Tokens.renewToken now before.tokens token) :=
        modifyRows_sound sound keepsName keepsTtl
      exact ⟨renewedSound, renewToken_ends_iff sound ends⟩
  | rotateToken fresh token =>
      unfold perform
      rw [raised_snd]
      exact ⟨rotateToken_sound sound, iff_true_intro (rotateToken_ends fresh token ends)⟩
  | rotateTokensForUser fresh userId =>
      have kept : (findByUserId now before.tokens userId none).2.Sublist before.tokens := rejectExpired_sublist _ _ _
      have rotated := rotateTokens_keeps ((findByUserId now before.tokens userId none).1.zip fresh)
        (sound.sublist kept) fun issued member => ends issued (kept.subset member)
      unfold perform
      rw [raised_snd]
      exact ⟨rotated.1, iff_true_intro rotated.2⟩
  | updateLastsForever token lastsForever =>
      unfold perform
      rw [raised_snd]
      exact ⟨updateLastsForever_sound sound, updateLastsForever_ends_iff sound ends⟩
  | deleteToken token =>
      have kept : (Tokens.deleteToken before.tokens token).Sublist before.tokens := List.filter_sublist
      exact ⟨sound.sublist kept, unchanged_ends kept ends⟩
  | findByToken token includeExpired =>
      have kept := findByToken_sublist now before.tokens token includeExpired
      exact ⟨sound.sublist kept, unchanged_ends kept ends⟩
  | findGuestTokens clientId creatingUserId =>
      have kept : (Tokens.findGuestTokens now before.tokens clientId creatingUserId).2.Sublist before.tokens :=
        rejectExpired_sublist _ _ _
      exact ⟨sound.sublist kept, unchanged_ends kept ends⟩
  | findByUserId userId tokenType =>
      have kept : (Tokens.findByUserId now before.tokens userId tokenType).2.Sublist before.tokens :=
        rejectExpired_sublist _ _ _
      exact ⟨sound.sublist kept, unchanged_ends kept ends⟩
  | findByClientAndUser clientId userId =>
      have kept : (Tokens.findByClientAndUser now before.tokens clientId userId).2.Sublist before.tokens :=
        rejectExpired_sublist _ _ _
      exact ⟨sound.sublist kept, unchanged_ends kept ends⟩

/-! ### Runs -/

/-- In every run of token-service operations, the tokens end as they were told to in every state that is
    reached, exactly if every operation of the run meets the condition. -/
theorem sessions_end_iff (config : Config) (start : Int) {steps : List ((Int × Operation) × State)}
    (run : Trace.Every (Accepted config) ⟨start, []⟩ steps) :
    (∀ state ∈ steps.map Prod.snd, SessionsEnd state) ↔ Trace.Every (Fine config) ⟨start, []⟩ steps := by
  let good : State → Prop := fun state =>
    Sound state.tokens ∧ ∀ issued ∈ state.tokens, Ends state.now issued
  have startGood : good ⟨start, []⟩ := ⟨⟨List.nodup_nil, by simp⟩, by simp⟩
  have states : Trace.Every (fun _ _ after => SessionsEnd after) ⟨start, []⟩ steps ↔
      ∀ state ∈ steps.map Prod.snd, SessionsEnd state := Trace.every_state_iff
  rw [← states]
  apply Trace.every_iff _ _ good ?_ ?_ startGood run
  · rintro before ⟨now, operation⟩ after ⟨sound, ends⟩ ⟨later, rfl⟩
    have endsNow : ∀ issued ∈ before.tokens, Ends now issued := fun issued member => (ends issued member).later later
    have kept := perform_keeps config now before operation before sound endsNow
    exact (sessionsEnd_iff kept.1.distinct).trans kept.2
  · rintro before ⟨now, operation⟩ after ⟨sound, ends⟩ ⟨later, rfl⟩ sessionsEnd
    have endsNow : ∀ issued ∈ before.tokens, Ends now issued := fun issued member => (ends issued member).later later
    have kept := perform_keeps config now before operation before sound endsNow
    exact ⟨kept.1, (sessionsEnd_iff kept.1.distinct).mp sessionsEnd⟩

/-- A token shared for a training run that belongs to no experiment, by a session that ends at 100. -/
def runShared : Int × Operation := (0, .createGuestTrainingRunToken "r" 1 7 none (some 2) (some 100))

/-- It is never rejected. -/
theorem session_never_ends :
    ∃ steps, Trace.Every (Accepted {}) ⟨0, []⟩ steps ∧ ¬ ∀ state ∈ steps.map Prod.snd, SessionsEnd state := by
  refine ⟨Trace.play (after {}) ⟨0, []⟩ [runShared], ⟨⟨le_refl _, rfl⟩, trivial⟩, ?_⟩
  intro sessionsEnd
  have ends := sessionsEnd _ (List.mem_singleton_self _)
  have rejected := ends.rejected _ (List.mem_singleton_self _) 100 rfl 101 (by decide) (by decide)
  have unfound := rejected.byToken
  revert unfound
  decide

/-- A renewable session of a user, a guest token made in it for an experiment, rotations of both and a
    renewal. -/
def sessionShared : List (Int × Operation) :=
  [(0, .createUserToken "u" 2 (some 1000000) true),
    (10, .createGuestExperimentToken "g" 1 7 (some 2) (some 1000000)),
    (20, .rotateToken "h" "g"),
    (30, .rotateTokensForUser ["v"] 2),
    (40, .renewToken "v")]

/-- The sessions of all the tokens above end in time. -/
theorem sessions_end_shared :
    Trace.Every (Accepted {}) ⟨0, []⟩ (Trace.play (after {}) ⟨0, []⟩ sessionShared) ∧
      ∀ state ∈ (Trace.play (after {}) ⟨0, []⟩ sessionShared).map Prod.snd, SessionsEnd state := by
  have run : Trace.Every (Accepted {}) ⟨0, []⟩ (Trace.play (after {}) ⟨0, []⟩ sessionShared) :=
    ⟨⟨by decide, rfl⟩, ⟨by decide, rfl⟩, ⟨by decide, rfl⟩, ⟨by decide, rfl⟩, ⟨by decide, rfl⟩, trivial⟩
  refine ⟨run, (sessions_end_iff {} 0 run).mpr ?_⟩
  have renewable : ∀ table : Table,
      (∀ issued ∈ table, issued.row.token = "v" →
        issued.sessionExpiration = some 1000000 ∧ issued.row.tokenMeta.ttlSeconds = some 604800) →
      ∀ issued ∈ table, issued.row.token = "v" → issued.row.tokenMeta.canRenew = true →
        ∀ expiration ttl, issued.sessionExpiration = some expiration →
          issued.row.tokenMeta.ttlSeconds = some ttl → 40 + ttl ≤ expiration ∨ ttl < 0 := by
    intro table known issued member named _ expiration ttl isGiven isTtl
    obtain ⟨session, lifetime⟩ := known issued member named
    rw [session] at isGiven
    rw [lifetime] at isTtl
    injection isGiven with isGiven
    injection isTtl with isTtl
    omega
  refine ⟨?_, ?_, trivial, trivial, renewable _ (by decide), trivial⟩
  · rintro - expiration isGiven
    injection isGiven with same
    exact Or.inl (same ▸ by decide)
  · rintro -
    refine ⟨by decide, ?_⟩
    intro expiration isGiven
    injection isGiven with same
    exact Or.inl (same ▸ by decide)

end Zigopt.Tokens
