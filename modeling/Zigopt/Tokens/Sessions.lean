/-
Module: Zigopt.Tokens.Sessions
Layer: Proofs
Purpose: Logins of a user at the same time (`_create_user_token` of `token/service.py`): each lists the tokens of the
  user, deletes the oldest beyond the cap, and inserts a new one, and between these statements any other login may run.
  The cap holds as long as a login lists the tokens only while no other is on its way, or while there is room for all
  of them.
Main exports: Login, LoginStep, Sessions, loginServer, createUserToken_steps, Unhurried, RoomLeft, sessions_capped,
  logins_exceed
-/
import Zigopt.Lib.InFlight
import Zigopt.Tokens.Service

namespace Zigopt.Tokens

/-- What a login asks for. -/
structure Login where
  sessionExpiration : Option Int
  canRenew : Bool
  deriving DecidableEq, Repr

/-- What a login does next: list the tokens, delete the one it has found to be the oldest, insert its own. -/
inductive LoginStep where
  | called (login : Login)
  | deleting (login : Login) (oldest : String)
  | inserting (login : Login)
  deriving DecidableEq, Repr

/-- The table with the clock, and the tokens that logins have created. -/
structure Sessions where
  now : Int
  table : Table
  created : List String

namespace Config

def sessionCap (config : Config) : Int := config.maxConcurrentSessions.getD Tokens.maxConcurrentSessions

end Config

/-- One statement of a login; `drawn` is what `random_string()` draws in it. -/
def loginStep (config : Config) (userId : Int) (sessions : Sessions) (drawn : String) : LoginStep → Sessions × Option LoginStep
  | .called login =>
      let current := findByUserId sessions.now sessions.table userId (some .user)
      let listed := { sessions with table := current.2 }
      if (current.1.length : Int) ≥ config.sessionCap then
        match @List.argmin Issued Int Int.instLinearOrder.toPreorder Int.instLinearOrder.toDecidableLT
            (fun issued => issued.row.tokenMeta.dateCreated) current.1 with
        | none => (listed, none)
        | some oldestToken => (listed, some (.deleting login oldestToken.row.token))
      else (listed, some (.inserting login))
  | .deleting login oldest =>
      ({ sessions with table := deleteToken sessions.table oldest }, some (.inserting login))
  | .inserting login =>
      let token := userToken config sessions.now drawn userId login.sessionExpiration login.canRenew
      match insert sessions.table (issue token login.sessionExpiration) with
      | (.ok _, table) => ({ sessions with table := table, created := sessions.created ++ [drawn] }, none)
      | (.error _, table) => ({ sessions with table := table }, none)

/-- The tokens that a login lists, and the table without the expired ones. -/
def listing (userId : Int) (sessions : Sessions) : List Issued × Table :=
  findByUserId sessions.now sessions.table userId (some .user)

def oldestOf (tokens : List Issued) : Option Issued :=
  @List.argmin Issued Int Int.instLinearOrder.toPreorder Int.instLinearOrder.toDecidableLT
    (fun issued => issued.row.tokenMeta.dateCreated) tokens

theorem loginStep_room {config : Config} {userId : Int} {sessions : Sessions} {login : Login}
    (room : ((listing userId sessions).1.length : Int) < config.sessionCap) (drawn : String) :
    loginStep config userId sessions drawn (.called login) =
      ({ sessions with table := (listing userId sessions).2 }, some (.inserting login)) := by
  have notFull : ¬((listing userId sessions).1.length : Int) ≥ config.sessionCap := not_le.mpr room
  unfold loginStep
  exact if_neg notFull

theorem loginStep_full {config : Config} {userId : Int} {sessions : Sessions} {login : Login}
    (full : ((listing userId sessions).1.length : Int) ≥ config.sessionCap) (drawn : String) :
    loginStep config userId sessions drawn (.called login) =
      ({ sessions with table := (listing userId sessions).2 },
        (oldestOf (listing userId sessions).1).map fun oldest => .deleting login oldest.row.token) := by
  unfold loginStep
  refine (if_pos full).trans ?_
  change (match oldestOf (listing userId sessions).1 with
    | none => _
    | some oldestToken => _) = _
  cases oldestOf (listing userId sessions).1 <;> rfl

/-- Logins of one user, interleaved between their statements while time passes. -/
def loginServer (config : Config) (userId : Int) : InFlight.Server Sessions Login LoginStep String ℕ where
  receive := .called
  step sessions drawn := loginStep config userId sessions drawn
  environment sessions elapsed := { sessions with now := sessions.now + elapsed }

/-- The steps of a login that is alone, from where it is. -/
def alone (config : Config) (userId : Int) (drawn : String) : ℕ → Sessions → Option LoginStep → Sessions
  | 0, sessions, _ => sessions
  | _, sessions, none => sessions
  | steps + 1, sessions, some request =>
      let stepped := loginStep config userId sessions drawn request
      alone config userId drawn steps stepped.1 stepped.2

/-- A login that runs alone is `_create_user_token`. -/
theorem createUserToken_steps (config : Config) (userId : Int) (drawn : String) (sessions : Sessions) (login : Login) :
    (alone config userId drawn 3 sessions (some (.called login))).table =
      (createUserToken config sessions.now drawn sessions.table userId login.sessionExpiration
        login.canRenew).2 := by
  have inserts : ∀ (steps : ℕ) (before : Sessions), before.now = sessions.now →
      (alone config userId drawn (steps + 1) before (some (.inserting login))).table =
        (insert before.table (issue (userToken config sessions.now drawn userId login.sessionExpiration
          login.canRenew) login.sessionExpiration)).2 := by
    intro steps before sameNow
    simp only [alone, loginStep, sameNow]
    split
    · next table inserted => cases steps <;> simp [alone, inserted]
    · next table inserted => cases steps <;> simp [alone, inserted]
  unfold createUserToken
  by_cases full : ((listing userId sessions).1.length : Int) ≥ config.sessionCap
  · rw [alone, loginStep_full full]
    refine Eq.trans ?_ (congrArg Prod.snd (if_pos full).symm)
    change _ = Prod.snd  (match oldestOf (listing userId sessions).1 with
      | none => _
      | some oldestToken => _)
    cases oldestOf (listing userId sessions).1 with
    | none => rfl
    | some oldestToken => exact inserts 0 _ rfl
  · rw [alone, loginStep_room (not_le.mp full)]
    refine Eq.trans ?_ (congrArg Prod.snd (if_neg full).symm)
    exact inserts 1 _ rfl

/-! ### Live tokens -/

def isSession (userId now : Int) (issued : Issued) : Bool :=
  issued.row.userId == some userId && some issued.row.tokenType == some .user && !issued.row.expired now

/-- The session tokens of the user that have not expired. -/
def live (userId : Int) (sessions : Sessions) : List Issued :=
  sessions.table.filter (isSession userId sessions.now)

theorem listing_eq (userId : Int) (sessions : Sessions) : (listing userId sessions).1 = live userId sessions := by
  change List.filter (fun issued => !issued.row.expired sessions.now) (List.filter _ sessions.table) = _
  rw [List.filter_filter]
  refine List.filter_congr fun issued _ => ?_
  simp [isSession, Bool.and_comm, Bool.and_assoc]

theorem listing_sublist (userId : Int) (sessions : Sessions) : (listing userId sessions).2.Sublist sessions.table := by
  unfold listing findByUserId rejectExpired
  simp only
  split
  · exact List.Sublist.refl _
  · exact List.filter_sublist

/-- A token that is live later is live now. -/
theorem isSession_of_later {userId now : Int} {elapsed : ℕ} {issued : Issued}
    (later : isSession userId (now + elapsed) issued = true) : isSession userId now issued = true := by
  unfold isSession at later ⊢
  rw [Bool.and_eq_true, Bool.not_eq_true'] at later ⊢
  refine ⟨later.1, ?_⟩
  rw [Bool.eq_false_iff]
  intro expired
  obtain ⟨expiration, isExpiration, past⟩ := Token.expired_iff.mp expired
  have expiredLater : Token.expired (now + elapsed) issued.row = true :=
    Token.expired_iff.mpr ⟨expiration, isExpiration, by omega⟩
  rw [later.2] at expiredLater
  cases expiredLater

/-- A token that is no longer among the live ones leaves room for one. -/
theorem room_of_gone {before after : List Issued} (fewer : after.Sublist before) {name : String}
    (was : name ∈ names before) (gone : name ∉ names after) : after.length + 1 ≤ before.length := by
  rcases Nat.lt_or_ge after.length before.length with shorter | longer
  · exact shorter
  · rw [fewer.eq_of_length_le longer] at gone
    exact absurd was gone

/-! ### Room -/

def LoginStep.isInserting : LoginStep → Bool
  | .inserting _ => true
  | _ => false

def LoginStep.isDeleting : LoginStep → Bool
  | .deleting _ _ => true
  | _ => false

/-- Between listing the tokens and inserting the new one. -/
def LoginStep.hasListed (request : LoginStep) : Bool := request.isDeleting || request.isInserting

/-- There is room for every token that is about to be inserted; a login whose oldest token is still there makes it. -/
structure RoomLeft (config : Config) (live : List Issued) (inFlight : List LoginStep) : Prop where
  room : (live.length + inFlight.countP LoginStep.isInserting : Int) ≤ config.sessionCap
  onlyOne : inFlight.countP LoginStep.isDeleting ≤ 1
  gone : ∀ login oldest, .deleting login oldest ∈ inFlight → oldest ∉ names live →
    (live.length + inFlight.countP LoginStep.isInserting + 1 : Int) ≤ config.sessionCap

/-- Fewer live tokens leave at least as much room. -/
theorem RoomLeft.of_sublist {config : Config} {before after : List Issued} {inFlight : List LoginStep}
    (left : RoomLeft config before inFlight) (fewer : after.Sublist before) : RoomLeft config after inFlight where
  room := by
    have shorter := fewer.length_le
    have room := left.room
    omega
  onlyOne := left.onlyOne
  gone login oldest member missing := by
    have room := left.room
    by_cases was : oldest ∈ names before
    · have freed := room_of_gone fewer was missing
      omega
    · have shorter := fewer.length_le
      have gone := left.gone login oldest member was
      omega

theorem countP_hasListed (inFlight : List LoginStep) : inFlight.countP LoginStep.hasListed =
    inFlight.countP LoginStep.isDeleting + inFlight.countP LoginStep.isInserting := by
  induction inFlight with
  | nil => rfl
  | cons request rest inductionHypothesis =>
      rw [List.countP_cons, List.countP_cons, List.countP_cons, inductionHypothesis]
      cases request <;> simp [LoginStep.hasListed, LoginStep.isDeleting, LoginStep.isInserting] <;> omega

/-- A login lists the tokens while no other is on its way, or while there is room for all of them; and `random_string()`
    draws a new string. -/
def UnhurriedStep (config : Config) (userId : Int) (configuration : InFlight.Configuration Sessions LoginStep)
    (drawn : String) : Option LoginStep → Prop
  | some (.called _) =>
      configuration.inFlight.countP LoginStep.hasListed = 0 ∨
        ((live userId configuration.store).length + configuration.inFlight.countP LoginStep.hasListed : Int) <
          config.sessionCap
  | some (.inserting _) => drawn ∉ names configuration.store.table
  | _ => True

/-- Every statement of a login comes when it may; other events come at any time. -/
def Unhurried (config : Config) (userId : Int) (configuration : InFlight.Configuration Sessions LoginStep) :
    InFlight.Event Login String ℕ → Prop
  | .step position drawn => UnhurriedStep config userId configuration drawn configuration.inFlight[position]?
  | _ => True

instance decidableUnhurriedStep (config : Config) (userId : Int)
    (configuration : InFlight.Configuration Sessions LoginStep) (drawn : String) :
    (request : Option LoginStep) → Decidable (UnhurriedStep config userId configuration drawn request)
  | some (.called _) => instDecidableOr
  | some (.inserting _) => instDecidableNot
  | some (.deleting _ _) => instDecidableTrue
  | none => instDecidableTrue

instance decidableUnhurried (config : Config) (userId : Int)
    (configuration : InFlight.Configuration Sessions LoginStep) :
    (event : InFlight.Event Login String ℕ) → Decidable (Unhurried config userId configuration event)
  | .step position drawn =>
      decidableUnhurriedStep config userId configuration drawn configuration.inFlight[position]?
  | .receive _ => instDecidableTrue
  | .environment _ => instDecidableTrue

/-- The last token that was created is there, unless a login is on its way. -/
def LastKept (configuration : InFlight.Configuration Sessions LoginStep) : Prop :=
  configuration.inFlight.countP LoginStep.hasListed = 0 →
    ∀ last, configuration.store.created.getLast? = some last → last ∈ names configuration.store.table

structure Capped (config : Config) (userId : Int) (configuration : InFlight.Configuration Sessions LoginStep) :
    Prop where
  room : RoomLeft config (live userId configuration.store) configuration.inFlight
  last : LastKept configuration

section Steps

variable {config : Config} {userId : Int} {front back : List LoginStep} {sessions : Sessions}

/-- How the counts change when a login moves on. -/
theorem moved (request left : LoginStep) (front back : List LoginStep) (property : LoginStep → Bool) :
    (front ++ (some left).toList ++ back).countP property + (if property request then 1 else 0) =
      (front ++ request :: back).countP property + (if property left then 1 else 0) := by
  rw [InFlight.countP_step front back request (some left) property, Option.toList_some, List.countP_singleton]

theorem listed_ne_zero {left : LoginStep} (listed : left.hasListed = true) :
    (front ++ (some left).toList ++ back).countP LoginStep.hasListed ≠ 0 := by
  have isCounted : 0 < (front ++ (some left).toList ++ back).countP LoginStep.hasListed :=
    List.countP_pos_iff.mpr ⟨left, InFlight.mem_stepped_left front back left, listed⟩
  omega

/-- The list of tokens is read and there is room for one more. -/
theorem roomLeft_room {login : Login}
    (left : RoomLeft config (live userId sessions) (front ++ .called login :: back))
    (room : ((live userId sessions).length : Int) < config.sessionCap)
    (unhurried : (front ++ .called login :: back).countP LoginStep.hasListed = 0 ∨
      ((live userId sessions).length + (front ++ .called login :: back).countP LoginStep.hasListed : Int) <
        config.sessionCap) :
    RoomLeft config (live userId sessions) (front ++ (some (LoginStep.inserting login)).toList ++ back) := by
  have counted := countP_hasListed (front ++ .called login :: back)
  have inserting : _ + 0 = _ + 1 := moved (.called login) (.inserting login) front back
    LoginStep.isInserting
  have deleting : _ + 0 = _ + 0 := moved (.called login) (.inserting login) front back
    LoginStep.isDeleting
  constructor
  · omega
  · have onlyOne := left.onlyOne
    omega
  · intro other oldest member missing
    rcases @InFlight.mem_stepped _ _ _ (.called login) _ _ member with before | isNew
    · have isCounted : 0 < (front ++ .called login :: back).countP LoginStep.isDeleting :=
        List.countP_pos_iff.mpr ⟨_, before, rfl⟩
      omega
    · cases isNew

/-- The list of tokens is full, and its oldest one is found. -/
theorem roomLeft_full {login : Login} {oldest : String}
    (left : RoomLeft config (live userId sessions) (front ++ .called login :: back))
    (full : ((live userId sessions).length : Int) ≥ config.sessionCap)
    (unhurried : (front ++ .called login :: back).countP LoginStep.hasListed = 0 ∨
      ((live userId sessions).length + (front ++ .called login :: back).countP LoginStep.hasListed : Int) <
        config.sessionCap)
    (found : oldest ∈ names (live userId sessions)) :
    RoomLeft config (live userId sessions) (front ++ (some (LoginStep.deleting login oldest)).toList ++ back) := by
  have counted := countP_hasListed (front ++ .called login :: back)
  have inserting : _ + 0 = _ + 0 := moved (.called login) (.deleting login oldest) front back
    LoginStep.isInserting
  have deleting : _ + 0 = _ + 1 := moved (.called login) (.deleting login oldest) front back
    LoginStep.isDeleting
  constructor
  · have room := left.room
    omega
  · omega
  · intro other name member missing
    rcases @InFlight.mem_stepped _ _ _ (.called login) _ _ member with before | isNew
    · have isCounted : 0 < (front ++ .called login :: back).countP LoginStep.isDeleting :=
        List.countP_pos_iff.mpr ⟨_, before, rfl⟩
      omega
    · cases isNew
      exact absurd found missing

/-- The oldest token is deleted, if it is still there. -/
theorem roomLeft_deleted {login : Login} {oldest : String} {after : List Issued}
    (left : RoomLeft config (live userId sessions) (front ++ .deleting login oldest :: back))
    (fewer : after.Sublist (live userId sessions)) (gone : oldest ∉ names after) :
    RoomLeft config after (front ++ (some (LoginStep.inserting login)).toList ++ back) := by
  have inserting : _ + 0 = _ + 1 := moved (.deleting login oldest) (.inserting login) front back
    LoginStep.isInserting
  have deleting : _ + 1 = _ + 0 := moved (.deleting login oldest) (.inserting login) front back
    LoginStep.isDeleting
  have onlyOne := left.onlyOne
  have shorter := fewer.length_le
  constructor
  · have room := left.room
    by_cases was : oldest ∈ names (live userId sessions)
    · have freed := room_of_gone fewer was gone
      omega
    · have already := left.gone login oldest (List.mem_append_right _ List.mem_cons_self) was
      omega
  · omega
  · intro other name member missing
    have isCounted : 0 < (front ++ (some (LoginStep.inserting login)).toList ++ back).countP LoginStep.isDeleting :=
      List.countP_pos_iff.mpr ⟨_, member, rfl⟩
    omega

/-- The new token is inserted. -/
theorem roomLeft_inserted {login : Login} {added : List Issued}
    (left : RoomLeft config (live userId sessions) (front ++ .inserting login :: back))
    (atMost : added.length ≤ 1) :
    RoomLeft config (live userId sessions ++ added) (front ++ (none : Option LoginStep).toList ++ back) := by
  have inserting : _ + 1 = _ + 0 :=
    InFlight.countP_step front back (.inserting login) none LoginStep.isInserting
  have deleting : _ + 0 = _ + 0 :=
    InFlight.countP_step front back (.inserting login) none LoginStep.isDeleting
  have longer : (live userId sessions ++ added).length ≤ (live userId sessions).length + 1 := by
    rw [List.length_append]
    omega
  constructor
  · have room := left.room
    omega
  · have onlyOne := left.onlyOne
    omega
  · intro other oldest member missing
    have before : LoginStep.deleting other oldest ∈ front ++ .inserting login :: back := by
      rcases @InFlight.mem_stepped _ _ _ (.inserting login) _ _ member with before | isNew
      · exact before
      · cases isNew
    have wasMissing : oldest ∉ names (live userId sessions) := by
      intro there
      refine missing ?_
      rw [names, List.map_append]
      exact List.mem_append_left _ there
    have gone := left.gone other oldest before wasMissing
    omega

theorem insert_fresh {table : Table} {new : Issued} (fresh : new.row.token ∉ names table) :
    insert table new = (.ok new, table ++ [new]) :=
  if_neg fresh

theorem deleteToken_gone (table : Table) (token : String) (selected : Issued → Bool) :
    token ∉ names ((deleteToken table token).filter selected) := by
  intro there
  obtain ⟨issued, member, isToken⟩ := List.mem_map.mp there
  have kept := (List.mem_filter.mp (List.mem_filter.mp member).1).2
  rw [decide_eq_true_eq] at kept
  exact kept isToken

/-- A step of a login that is not hurried. -/
theorem capped_step (capIsPositive : 1 ≤ config.sessionCap) {position : ℕ} {drawn : String}
    {configuration : InFlight.Configuration Sessions LoginStep}
    (capped : Capped config userId configuration)
    (unhurried : Unhurried config userId configuration (.step position drawn)) :
    Capped config userId (InFlight.next (loginServer config userId) configuration (.step position drawn)) := by
  cases found : configuration.inFlight[position]? with
  | none =>
      rw [InFlight.next_step_none found]
      exact capped
  | some request =>
      obtain ⟨front, back, split, isNext⟩ := InFlight.next_step (loginServer config userId) found drawn
      rw [isNext]
      have room := capped.room
      rw [split] at room
      change UnhurriedStep config userId configuration drawn configuration.inFlight[position]? at unhurried
      rw [found] at unhurried
      change Capped config userId ⟨(loginStep config userId configuration.store drawn request).1,
        front ++ (loginStep config userId configuration.store drawn request).2.toList ++ back⟩
      cases request with
      | called login =>
          unfold UnhurriedStep at unhurried
          rw [split] at unhurried
          have fewer : (live userId { configuration.store with table := (listing userId configuration.store).2 }).Sublist
              (live userId configuration.store) := (listing_sublist userId configuration.store).filter _
          by_cases full : ((listing userId configuration.store).1.length : Int) ≥ config.sessionCap
          · rw [loginStep_full full]
            rw [listing_eq] at full ⊢
            cases isOldest : oldestOf (live userId configuration.store) with
            | none =>
                have noToken : live userId configuration.store = [] := List.argmin_eq_none.mp isOldest
                rw [noToken, List.length_nil] at full
                omega
            | some oldest =>
                have among : oldest ∈ live userId configuration.store := List.argmin_mem isOldest
                have left := @roomLeft_full _ _ _ _ _ login _ room full unhurried (List.mem_map_of_mem among)
                refine ⟨left.of_sublist fewer, fun nobody => ?_⟩
                exact absurd nobody (listed_ne_zero rfl)
          · rw [loginStep_room (not_le.mp full)]
            rw [listing_eq, not_le] at full
            have left := @roomLeft_room _ _ _ _ _ login room full unhurried
            refine ⟨left.of_sublist fewer, fun nobody => ?_⟩
            exact absurd nobody (listed_ne_zero rfl)
      | deleting login oldest =>
          have fewer : (live userId { configuration.store with table := deleteToken configuration.store.table oldest }).Sublist
              (live userId configuration.store) := List.filter_sublist.filter _
          have left := roomLeft_deleted room fewer (deleteToken_gone _ _ _)
          exact ⟨left, fun nobody => absurd nobody (listed_ne_zero rfl)⟩
      | inserting login =>
          have isNew : loginStep config userId configuration.store drawn (.inserting login) =
              ({ configuration.store with
                  table := configuration.store.table ++
                    [issue (userToken config configuration.store.now drawn userId login.sessionExpiration
                      login.canRenew) login.sessionExpiration]
                  created := configuration.store.created ++ [drawn] }, none) := by
            unfold loginStep
            simp only [@insert_fresh _ (issue (userToken config configuration.store.now drawn userId
              login.sessionExpiration login.canRenew) login.sessionExpiration) unhurried]
          rw [isNew]
          constructor
          · unfold live
            simp only [List.filter_append]
            refine roomLeft_inserted room ?_
            exact List.length_filter_le _ _
          · intro _ last isLast
            simp only [List.getLast?_concat, Option.some.injEq] at isLast
            rw [← isLast, names, List.map_append]
            exact List.mem_append_right _ List.mem_cons_self

theorem capped_next (capIsPositive : 1 ≤ config.sessionCap) {event : InFlight.Event Login String ℕ}
    {configuration : InFlight.Configuration Sessions LoginStep} (capped : Capped config userId configuration)
    (unhurried : Unhurried config userId configuration event) :
    Capped config userId (InFlight.next (loginServer config userId) configuration event) := by
  cases event with
  | step position drawn => exact capped_step capIsPositive capped unhurried
  | receive login =>
      have same : ∀ property : LoginStep → Bool, property (.called login) = false →
          (configuration.inFlight ++ [LoginStep.called login]).countP property =
            configuration.inFlight.countP property := by
        intro property uncounted
        rw [List.countP_append, List.countP_singleton, uncounted]
        rfl
      have room := capped.room
      refine ⟨⟨?_, ?_, ?_⟩, ?_⟩
      · rw [InFlight.next, loginServer, same LoginStep.isInserting rfl]
        exact room.room
      · rw [InFlight.next, loginServer, same LoginStep.isDeleting rfl]
        exact room.onlyOne
      · intro other oldest member missing
        rcases List.mem_append.mp member with before | isNew
        · rw [InFlight.next, loginServer, same LoginStep.isInserting rfl]
          exact room.gone other oldest before missing
        · cases List.mem_singleton.mp isNew
      · intro nobody
        exact capped.last ((same LoginStep.hasListed rfl).symm.trans nobody)
  | environment elapsed =>
      have fewer : (live userId { configuration.store with now := configuration.store.now + elapsed }).Sublist
          (live userId configuration.store) :=
        List.monotone_filter_right _ fun issued => isSession_of_later
      exact ⟨capped.room.of_sublist fewer, capped.last⟩

end Steps

/-- In every run of logins that are not hurried, from a table within the cap: no more session tokens than the cap are
    live, and the token of the last login is there once no login is on its way. -/
theorem sessions_capped (config : Config) (userId : Int) (capIsPositive : 1 ≤ config.sessionCap) (start : Sessions)
    (withinCap : ((live userId start).length : Int) ≤ config.sessionCap) (nothingCreated : start.created = [])
    (events : List (InFlight.Event Login String ℕ))
    (unhurried : Trace.Every (fun before event _ => Unhurried config userId before event) ⟨start, []⟩
      (InFlight.run (loginServer config userId) ⟨start, []⟩ events)) :
    ∀ configuration ∈ Trace.reached ⟨start, []⟩ (InFlight.run (loginServer config userId) ⟨start, []⟩ events),
      ((live userId configuration.store).length : Int) ≤ config.sessionCap ∧
        (configuration.inFlight = [] → ∀ last, configuration.store.created.getLast? = some last →
          last ∈ names configuration.store.table) := by
  have startCapped : Capped config userId ⟨start, []⟩ := by
    refine ⟨⟨?_, Nat.zero_le _, fun _ _ member => nomatch member⟩, ?_⟩
    · simpa using withinCap
    · intro _ last isLast
      rw [nothingCreated] at isLast
      cases isLast
  have always := @Trace.every_invariant _ _
    (fun before event after =>
      after = InFlight.next (loginServer config userId) before event ∧ Unhurried config userId before event)
    (Capped config userId)
    (fun before event after capped accepted => accepted.1 ▸ capped_next capIsPositive capped accepted.2) _ _ startCapped
    (Trace.every_and.mpr ⟨Trace.every_play _ _ _, unhurried⟩)
  intro configuration reached
  have capped := always configuration reached
  constructor
  · have room := capped.room.room
    omega
  · intro nobody
    refine capped.last ?_
    rw [nobody]
    rfl

/-! ### Two logins at once -/

/-- One session for each user. -/
def oneSession : Config where
  maxConcurrentSessions := some 1

def browser : Login := ⟨none, true⟩

def noSessions : Sessions := ⟨100, [], []⟩

/-- A login that runs alone, and then another one. -/
def oneAfterTheOther : List (InFlight.Event Login String ℕ) :=
  [.receive browser, .step 0 "", .step 0 "first", .receive browser, .step 0 "", .step 0 "", .step 0 "second"]

/-- Both list the tokens before either inserts its own. -/
def bothAtOnce : List (InFlight.Event Login String ℕ) :=
  [.receive browser, .receive browser, .step 0 "", .step 1 "", .step 0 "first", .step 0 "second"]

/-- After both logins one session is live, and it is that of the second. -/
theorem sessions_capped_oneAfterTheOther :
    ((live 7 (InFlight.after (loginServer oneSession 7) ⟨noSessions, []⟩ oneAfterTheOther).store).length : Int) ≤
        oneSession.sessionCap ∧
      ((InFlight.after (loginServer oneSession 7) ⟨noSessions, []⟩ oneAfterTheOther).inFlight = [] →
        ∀ last, (InFlight.after (loginServer oneSession 7) ⟨noSessions, []⟩ oneAfterTheOther).store.created.getLast? =
          some last →
            last ∈ names (InFlight.after (loginServer oneSession 7) ⟨noSessions, []⟩ oneAfterTheOther).store.table) :=
  sessions_capped oneSession 7 (by decide) noSessions (by decide) rfl oneAfterTheOther (by decide) _
    (List.mem_of_getLast? rfl)

/-- With one session for each user, two are live after both. -/
theorem logins_exceed :
    ¬∀ (config : Config) (userId : Int), 1 ≤ config.sessionCap → ∀ start : Sessions,
      ((live userId start).length : Int) ≤ config.sessionCap → start.created = [] →
      ∀ (events : List (InFlight.Event Login String ℕ)),
      ∀ configuration ∈ Trace.reached ⟨start, []⟩ (InFlight.run (loginServer config userId) ⟨start, []⟩ events),
        configuration.inFlight = [] → ((live userId configuration.store).length : Int) ≤ config.sessionCap ∧
          ∀ last, configuration.store.created.getLast? = some last → last ∈ names configuration.store.table := by
  intro always
  have reached := always oneSession 7 (by decide) noSessions (by decide) rfl bothAtOnce
    (InFlight.after (loginServer oneSession 7) ⟨noSessions, []⟩ bothAtOnce) (List.mem_of_getLast? rfl) rfl
  exact absurd reached.1 (by decide)

end Zigopt.Tokens
