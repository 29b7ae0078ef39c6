import ChatBI.Lib.Table
import ChatBI.Lib.Text

/-!
# Accounts and sessions

The rows of the account tables, and what an operation of `AuthService` or of the administration
decides once it has read them. Lower case, hashing and the verification of a password are
parameters.
-/

namespace ChatBI.Auth

open ChatBI.Lib

/-- Microseconds since the epoch. -/
abbrev Time := Int

def minutes (n : Int) : Time := n * 60 * 1000000

def idleTtl : Time := minutes 30
def absoluteTtl : Time := minutes (8 * 60)
def maxFailedLoginAttempts : Nat := 5
def failedLoginLockDuration : Time := minutes 15
def minPasswordLength : Nat := 12

structure Role where
  id : Nat
  name : String
  permissions : List String
  deriving DecidableEq

structure User where
  id : Nat
  username : String
  passwordHash : String
  isActive : Bool
  mustChangePassword : Bool
  failedLoginCount : Nat
  lockedUntil : Option Time
  updatedAt : Time
  roles : List Role
  deriving DecidableEq

structure UserSession where
  tokenHash : String
  userId : Nat
  createdAt : Time
  lastSeenAt : Time
  expiresAt : Time
  absoluteExpiresAt : Time
  revokedAt : Option Time
  deriving DecidableEq

structure AuthContext where
  userId : Nat
  username : String
  permissions : List String
  mustChangePassword : Bool
  deriving DecidableEq

structure Database where
  roles : List Role
  users : Table User.id
  sessions : Table UserSession.tokenHash
  names : users.UniqueOn User.username
  deriving DecidableEq

/-- The functions outside the repository. -/
structure Env where
  lower : String → String
  hashToken : String → String
  verify : String → String → Bool

/-- Texts stand for themselves, and every password is right. -/
def plainEnv : Env := ⟨id, id, fun _ _ => true⟩

namespace User

def hasRole (u : User) (name : String) : Bool := u.roles.any (·.name = name)

def activeAdmin (u : User) : Bool := u.isActive && u.hasRole "admin"

/-- `user.locked_until is not None and user.locked_until > now`. -/
def lockedAt (u : User) (now : Time) : Bool := u.lockedUntil.any (now < ·)

/-- `_context_for_user`. -/
def context (u : User) : AuthContext where
  userId := u.id
  username := u.username
  permissions := (u.roles.flatMap Role.permissions).dedup
  mustChangePassword := u.mustChangePassword

/-- The row after its password has been changed. -/
def withPassword (u : User) (hash : String) (mustChange : Bool) (now : Time) : User :=
  { u with
    passwordHash := hash
    mustChangePassword := mustChange
    failedLoginCount := 0
    lockedUntil := none
    updatedAt := now }

end User

/-- `now >= record.expires_at or now >= record.absolute_expires_at`. -/
def UserSession.expired (r : UserSession) (now : Time) : Bool :=
  r.expiresAt ≤ now || r.absoluteExpiresAt ≤ now

/-- `normalize_username`. -/
def normalizeUsername (env : Env) (username : String) : Option String :=
  let normalized := env.lower (strip username)
  if normalized = "" ∨ 128 < normalized.length ∨ normalized.toList.any isSpace then none
  else some normalized

/-- A new password with the hash that it gets. -/
structure NewPassword where
  text : String
  hash : String
  deriving DecidableEq

/-- `validate_password`. -/
def NewPassword.Valid (p : NewPassword) : Prop := minPasswordLength ≤ p.text.length

instance (p : NewPassword) : Decidable p.Valid := inferInstanceAs (Decidable (_ ≤ _))

/-- The fields of the form of a user. -/
structure UserForm where
  username : Option String
  password : Option NewPassword
  isActive : Option Bool
  mustChangePassword : Option Bool
  roles : Option (List Nat)
  deriving DecidableEq

inductive Op where
  | login (username password token : String)
  | authenticate (token : String)
  | authenticateReadonly (token : String)
  | logout (token : String)
  | changePassword (token current : String) (new : NewPassword)
  | recoverAdmin (username : String) (new : NewPassword) (environment project : String)
  | resetPassword (userId : Nat) (new : NewPassword)
  | disableUser (userId : Nat)
  | enableUser (userId : Nat)
  | setUserRoles (userId : Nat) (names : List String)
  | editUser (userId : Nat) (form : UserForm)
  deriving DecidableEq

def fixedRoleNames : List String := ["admin", "analyst"]

/-- The checks of the arguments in front of the transaction. -/
def Op.Valid (env : Env) : Op → Prop
  | .login username _ token => normalizeUsername env username ≠ none ∧ token ≠ ""
  | .authenticate token | .authenticateReadonly token | .logout token => token ≠ ""
  | .changePassword token _ new => token ≠ "" ∧ new.Valid
  | .recoverAdmin username new environment project =>
    environment = "dev" ∧ project ≠ "" ∧ project.length ≤ 128 ∧
      normalizeUsername env username ≠ none ∧ new.Valid
  | .resetPassword _ new => new.Valid
  | .disableUser _ | .enableUser _ => True
  | .setUserRoles _ names => ∀ name ∈ names, name ∈ fixedRoleNames
  | .editUser _ form => (∀ name ∈ form.username, normalizeUsername env name ≠ none) ∧
      ∀ new ∈ form.password, new.Valid

instance (env : Env) : DecidablePred (Op.Valid env)
  | .login .. | .recoverAdmin .. => inferInstanceAs (Decidable (_ ∧ _))
  | .authenticate _ | .authenticateReadonly _ | .logout _ => inferInstanceAs (Decidable (_ ≠ _))
  | .changePassword .. => inferInstanceAs (Decidable (_ ∧ _))
  | .resetPassword _ new => inferInstanceAs (Decidable new.Valid)
  | .disableUser _ | .enableUser _ => isTrue trivial
  | .setUserRoles _ names => inferInstanceAs (Decidable (∀ name ∈ names, name ∈ fixedRoleNames))
  | .editUser _ form => inferInstanceAs (Decidable ((∀ name ∈ form.username, _) ∧
      ∀ new ∈ form.password, _))

/-- The token whose session an operation reads first. -/
def Op.token? : Op → Option String
  | .authenticate token | .authenticateReadonly token | .logout token
  | .changePassword token _ _ => some token
  | _ => none

/-- What a transaction writes when it commits. The row of a user is written by the transaction that
has locked it. -/
inductive Effect where
  | none
  | touch (tokenHash : String) (lastSeenAt expiresAt : Time)
  | revoke (tokenHash : String) (now : Time)
  | user (row : User) (revokeAll : Option Time) (session : Option UserSession)
  deriving DecidableEq

/-- The sessions of a user, revoked unless they are already. -/
def revokeUserSessions (sessions : Table UserSession.tokenHash) (userId : Nat) (now : Time) :
    Table UserSession.tokenHash :=
  sessions.update (fun r => r.userId = userId && r.revokedAt.isNone)
    (fun r => { r with revokedAt := some now }) (fun _ => rfl)

/-- The database after a commit, `none` when a key or the name of a user is taken. -/
def Effect.apply (db : Database) : Effect → Option Database
  | .none => some db
  | .touch tokenHash lastSeenAt expiresAt => some { db with
      sessions := db.sessions.update (fun r => r.tokenHash = tokenHash)
        (fun r => { r with lastSeenAt := lastSeenAt, expiresAt := expiresAt }) (fun _ => rfl) }
  | .revoke tokenHash now => some { db with
      sessions := db.sessions.update (fun r => r.tokenHash = tokenHash)
        (fun r => { r with revokedAt := some now }) (fun _ => rfl) }
  | .user row revokeAll session =>
    if h : ∀ u ∈ db.users, u.id ≠ row.id → u.username ≠ row.username then
      let revoked := revokeAll.elim db.sessions (revokeUserSessions db.sessions row.id)
      (session.elim (some revoked) revoked.insert?).map fun sessions =>
        { db with users := db.users.set row, sessions := sessions, names := db.names.set_fresh h }
    else .none

/-- What an operation decides with the locked row of its user. -/
inductive Decision where
  | fail
  | ready (effect : Effect) (context : Option AuthContext)
  | guard (effect : Effect)
  deriving DecidableEq

/-- `validate_user_mutation` up to the count of the other administrators. -/
def validateUserMutation (isActive : Bool) (roles : List Role) (effect : Effect) : Decision :=
  if ¬∀ role ∈ roles, role.name ∈ fixedRoleNames then .fail
  else if isActive && roles.any (·.name = "admin") then .ready effect none
  else .guard effect

/-- `_resolve_roles` for the role ids of a form. -/
def resolveRoles (db : Database) (current : List Role) : Option (List Nat) → Option (List Role)
  | none => some current
  | some ids =>
    let roles := db.roles.filter (·.id ∈ ids)
    if roles.length = ids.dedup.length then some roles else none

section Deciding

variable (env : Env) (db : Database) (user : User) (now : Time)

def decideLogin (password token : String) : Decision :=
  if ¬user.isActive ∨ user.lockedAt now then .ready .none none
  else if ¬env.verify password user.passwordHash then
    let count := user.failedLoginCount + 1
    .ready (.user { user with
      failedLoginCount := count
      lockedUntil :=
        if maxFailedLoginAttempts ≤ count then some (now + failedLoginLockDuration)
        else user.lockedUntil } none none) none
  else .ready (.user { user with failedLoginCount := 0, lockedUntil := none } none (some {
      tokenHash := env.hashToken token
      userId := user.id
      createdAt := now
      lastSeenAt := now
      expiresAt := now + idleTtl
      absoluteExpiresAt := now + absoluteTtl
      revokedAt := none })) (some user.context)

/-- `change_password` reads the session again behind the lock. -/
def decideChangePassword (token current : String) (new : NewPassword) : Decision :=
  match db.sessions.find? (env.hashToken token) with
  | none => .fail
  | some record =>
    if record.revokedAt ≠ none ∨ ¬user.isActive ∨ record.expired now then .fail
    else if ¬env.verify current user.passwordHash then .fail
    else .ready (.user (user.withPassword new.hash false now) (some now) none) none

def decideEdit (form : UserForm) : Decision :=
  match resolveRoles db user.roles form.roles with
  | none => .fail
  | some roles =>
    let isActive := form.isActive.getD user.isActive
    validateUserMutation isActive roles (.user { user with
        username := (form.username.bind (normalizeUsername env)).getD user.username
        passwordHash := (form.password.map NewPassword.hash).getD user.passwordHash
        mustChangePassword :=
          if form.password ≠ none then true else form.mustChangePassword.getD user.mustChangePassword
        isActive := isActive
        roles := roles }
      (if isActive = false ∨ form.password ≠ none then some now else none) none)

def decide : Op → Decision
  | .login _ password token => decideLogin env user now password token
  | .authenticate _ | .authenticateReadonly _ | .logout _ => .fail
  | .changePassword token current new => decideChangePassword env db user now token current new
  | .recoverAdmin _ new _ _ =>
    if user.activeAdmin then .ready (.user (user.withPassword new.hash true now) (some now) none) none
    else .fail
  | .resetPassword _ new =>
    .ready (.user (user.withPassword new.hash true now) (some now) none) none
  | .disableUser _ =>
    .ready (.user { user with isActive := false, updatedAt := now } (some now) none) none
  | .enableUser _ => .ready (.user { user with isActive := true, updatedAt := now } none none) none
  | .setUserRoles _ names =>
    let roles := db.roles.filter (·.name ∈ names)
    validateUserMutation user.isActive roles (.user { user with roles := roles } none none)
  | .editUser _ form => decideEdit env db user now form

end Deciding

end ChatBI.Auth
