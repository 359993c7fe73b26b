import BackgroundAgents.Lib.Table
import BackgroundAgents.Lib.Transition
import BackgroundAgents.Lib.Workers

/-!
# Resolving a provider identity to a user

`UserStore.resolveOrCreateUser` looks the identity up, then its email, and links
or creates. Every query, the enrollment admission and every insertion is a step
of its own; what two unique indexes refuse is retried once from the start. A
database that violates them, or its foreign key, cannot be built.
-/

namespace BackgroundAgents.Users

open Transition

structure ProviderIdentity where
  provider : String
  providerUserId : String
  providerLogin : Option String
  providerEmail : Option String
  displayName : Option String
  avatarUrl : Option String
  deriving DecidableEq, Repr

structure UserRow where
  id : Nat
  display_name : Option String
  email : Option String
  email_verified : Bool
  avatar_url : Option String
  created_at : Int
  updated_at : Int
  deriving DecidableEq, Repr

structure UserIdentityRow where
  id : Nat
  user_id : Nat
  provider : String
  provider_user_id : String
  provider_login : Option String
  provider_email : Option String
  provider_issuer : Option String
  created_at : Int
  deriving DecidableEq, Repr

/-- `idx_user_identities_provider` -/
def UserIdentityRow.identity (row : UserIdentityRow) : Option (String × String) :=
  some (row.provider, row.provider_user_id)

structure Db where
  users : Table UserRow.id
  user_identities : Table UserIdentityRow.id
  emails : users.Unique UserRow.email
  identities : user_identities.Unique UserIdentityRow.identity
  owned : ∀ row ∈ user_identities.rows, ∃ user ∈ users.rows, user.id = row.user_id

inductive ResolveError where
  | uniqueConstraint
  | foreignKey
  /-- the admission threw, an error that reads as a uniqueness error or another -/
  | admission (readsUnique : Bool)
  | orphanedIdentity (identityId userId : Nat)
  deriving DecidableEq, Repr

def isUniqueConstraintError : ResolveError → Bool
  | .uniqueConstraint => true
  | .foreignKey => false
  | .admission readsUnique => readsUnique
  | .orphanedIdentity _ _ => false

namespace Db

def getIdentity (db : Db) (provider providerUserId : String) : Option UserIdentityRow :=
  db.user_identities.find? fun row =>
    row.provider = provider ∧ row.provider_user_id = providerUserId

def getUserById (db : Db) (userId : Nat) : Option UserRow := db.users.get? userId

def insertUser (db : Db) (row : UserRow) : Except ResolveError Db :=
  if h : db.users.Taken UserRow.email row then .error .uniqueConstraint
  else
    match hi : db.users.insert? row with
    | none => .error .uniqueConstraint
    | some users =>
      .ok
        { db with
          users
          emails := Table.unique_insert? db.emails h hi
          owned := by
            intro identity hidentity
            obtain ⟨user, huser, hid⟩ := db.owned identity hidentity
            exact ⟨user, (Table.mem_insert? hi).mpr (.inl huser), hid⟩ }

def insertIdentity (db : Db) (row : UserIdentityRow) : Except ResolveError Db :=
  if h : db.user_identities.Taken UserIdentityRow.identity row then .error .uniqueConstraint
  else
    match hi : db.user_identities.insert? row with
    | none => .error .uniqueConstraint
    | some user_identities =>
      if howned : ∃ user ∈ db.users.rows, user.id = row.user_id then
        .ok
          { db with
            user_identities
            identities := Table.unique_insert? db.identities h hi
            owned := by
              intro identity hidentity
              rcases (Table.mem_insert? hi).mp hidentity with hidentity | rfl
              · exact db.owned identity hidentity
              · exact howned }
      else .error .foreignKey

end Db

/-! ## Emails -/

section Emails

-- `String.prototype.trim` and `String.prototype.toLowerCase`
variable (trim toLowerCase : String → String)

def normalizeEmail (email : Option String) : Option String :=
  match email.map fun email => toLowerCase (trim email) with
  | none => none
  | some normalized => if normalized = "" then none else some normalized

def Db.getUserByEmail (db : Db) (email : String) : Option UserRow :=
  (normalizeEmail trim toLowerCase (some email)).bind fun email =>
    db.users.find? fun user => user.email = some email

end Emails

/-! ## Calls -/

inductive ResolveUserOutcome where
  | existing
  | linked
  | created
  deriving DecidableEq, Repr

structure ResolvedUser where
  id : Nat
  displayName : Option String
  email : Option String
  outcome : ResolveUserOutcome
  deriving DecidableEq, Repr

def UserRow.resolved (user : UserRow) (outcome : ResolveUserOutcome) : ResolvedUser where
  id := user.id
  displayName := user.display_name
  email := user.email
  outcome

inductive Stage where
  | readingIdentity
  | readingUser (existing : UserIdentityRow)
  | readingEmail (normalizedEmail : String)
  | linking (emailUser : UserRow)
  | asking
  | creating
  deriving DecidableEq, Repr

/-- A call, with the user who had its email when it began, and whether it has asked admission. -/
structure Call where
  identity : ProviderIdentity
  retrying : Bool
  stage : Stage
  emailUser : Option Nat
  asked : Bool
  deriving DecidableEq, Repr

inductive Result where
  | returned (user : ResolvedUser)
  | failed (error : ResolveError)
  deriving DecidableEq, Repr

inductive Progress where
  | more (next : Call)
  | done (result : Result)
  deriving DecidableEq, Repr

def Progress.next? : Progress → Option Call
  | .more next => some next
  | .done _ => none

/-- What the admission of a new user comes to. -/
inductive Admission where
  | admitted
  | refused (readsUnique : Bool)
  deriving DecidableEq, Repr

structure Finished where
  call : Call
  result : Result
  deriving DecidableEq, Repr

structure State where
  db : Db
  now : Int
  /-- the ids drawn so far -/
  drawn : Nat
  calls : List Call
  finished : List Finished

/-- The `catch` of `resolveOrCreateUser`. -/
def Call.caught (c : Call) (error : ResolveError) : Progress :=
  if isUniqueConstraintError error ∧ c.retrying = false then
    .more { c with retrying := true, stage := .readingIdentity }
  else .done (.failed error)

def getSignInProviderIssuer : String → Option String
  | "github" => some "https://github.com"
  | "google" => some "https://accounts.google.com"
  | _ => none

def isEmailAttestingProvider (provider : String) : Bool :=
  provider = "slack" ∨ provider = "linear"

section Steps

variable (trim toLowerCase : String → String)

def Call.normalizedEmail (c : Call) : Option String :=
  normalizeEmail trim toLowerCase c.identity.providerEmail

/-- The identity row that a call inserts. -/
def Call.identityRow (c : Call) (id userId : Nat) (now : Int) : UserIdentityRow where
  id
  user_id := userId
  provider := c.identity.provider
  provider_user_id := c.identity.providerUserId
  provider_login := c.identity.providerLogin
  provider_email := c.normalizedEmail trim toLowerCase
  provider_issuer := getSignInProviderIssuer c.identity.provider
  created_at := now

def Call.userRow (c : Call) (id : Nat) (now : Int) : UserRow where
  id
  display_name := c.identity.displayName
  email := c.normalizedEmail trim toLowerCase
  email_verified :=
    (c.normalizedEmail trim toLowerCase).isSome && isEmailAttestingProvider c.identity.provider
  avatar_url := c.identity.avatarUrl
  created_at := now
  updated_at := now

/-- The next await of `doResolveOrCreate`. -/
def Call.next (s : State) (c : Call) (admission : Admission) : Db × Progress :=
  match c.stage with
  | .readingIdentity =>
    match s.db.getIdentity c.identity.provider c.identity.providerUserId with
    | some existing => (s.db, .more { c with stage := .readingUser existing })
    | none =>
      match c.normalizedEmail trim toLowerCase with
      | some normalizedEmail => (s.db, .more { c with stage := .readingEmail normalizedEmail })
      | none => (s.db, .more { c with stage := .asking, asked := true })
  | .readingUser existing =>
    match s.db.getUserById existing.user_id with
    | none => (s.db, c.caught (.orphanedIdentity existing.id existing.user_id))
    | some user => (s.db, .done (.returned (user.resolved .existing)))
  | .readingEmail normalizedEmail =>
    match s.db.getUserByEmail trim toLowerCase normalizedEmail with
    | some emailUser => (s.db, .more { c with stage := .linking emailUser })
    | none => (s.db, .more { c with stage := .asking, asked := true })
  | .linking emailUser =>
    match s.db.insertIdentity (c.identityRow trim toLowerCase s.drawn emailUser.id s.now) with
    | .error error => (s.db, c.caught error)
    | .ok db => (db, .done (.returned (emailUser.resolved .linked)))
  | .asking =>
    match admission with
    | .admitted => (s.db, .more { c with stage := .creating })
    | .refused readsUnique => (s.db, c.caught (.admission readsUnique))
  | .creating =>
    -- one batch: a refused identity takes the user back
    match (s.db.insertUser (c.userRow trim toLowerCase s.drawn s.now)).bind fun db =>
        db.insertIdentity (c.identityRow trim toLowerCase (s.drawn + 1) s.drawn s.now) with
    | .error error => (s.db, c.caught error)
    | .ok db =>
      (db, .done (.returned ((c.userRow trim toLowerCase s.drawn s.now).resolved .created)))

inductive Act where
  | resolve (identity : ProviderIdentity)
  | next (call : Nat) (admission : Admission)
  | tick (now : Int)
  deriving DecidableEq, Repr

/-- A call that begins. -/
def Call.begin (db : Db) (identity : ProviderIdentity) : Call where
  identity
  retrying := false
  stage := .readingIdentity
  emailUser :=
    ((identity.providerEmail.bind fun email => db.getUserByEmail trim toLowerCase email).map (·.id))
  asked := false

def Progress.finished (c : Call) : Progress → List Finished
  | .more _ => []
  | .done result => [{ call := c, result }]

def State.step (s : State) : Act → Option State
  | .resolve identity =>
    some { s with calls := s.calls ++ [Call.begin trim toLowerCase s.db identity] }
  | .next i admission =>
    (s.calls[i]?).map fun c =>
      let moved := c.next trim toLowerCase s admission
      { s with
        db := moved.1
        drawn := s.drawn + 2
        calls := advance s.calls i moved.2.next?
        finished := s.finished ++ moved.2.finished c }
  | .tick now => if s.now ≤ now then some { s with now } else none

def resolveSystem : System State Act where
  step := State.step trim toLowerCase

end Steps

def State.initial (db : Db) (drawn : Nat) (now : Int) : State where
  db
  now
  drawn
  calls := []
  finished := []

end BackgroundAgents.Users
