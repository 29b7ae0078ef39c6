import ChatBI.Auth.Accounts
import ChatBI.Lib.Transition

/-!
# Transactions on the account tables

Every operation is one transaction at READ COMMITTED. A statement reads what has been committed, a
row lock is held until the transaction ends, and the writes appear at the commit. Any transaction
may fail before it commits.
-/

namespace ChatBI.Auth

open ChatBI.Lib

/-- A row that a transaction has selected `FOR UPDATE`. -/
inductive Lock where
  | user (id : Nat)
  | adminRole
  deriving DecidableEq

/-- How far a transaction has come. -/
inductive Phase where
  | begun
  | found (record : UserSession)
  | checked (record : UserSession)
  | locked (user : User)
  | guarding (user : User) (effect : Effect)
  | ready (effect : Effect) (context : Option AuthContext)
  deriving DecidableEq

def Phase.isReady : Phase → Bool
  | .ready _ _ => true
  | _ => false

structure Tx where
  id : Nat
  op : Op
  now : Time
  phase : Phase
  locks : List Lock
  deriving DecidableEq

structure State where
  db : Database
  txs : Table Tx.id
  deriving DecidableEq

/-- No other transaction holds the lock. -/
def State.Free (s : State) (tx : Tx) (lock : Lock) : Prop :=
  ∀ other ∈ s.txs, lock ∈ other.locks → other.id = tx.id

instance (s : State) (tx : Tx) (lock : Lock) : Decidable (s.Free tx lock) :=
  inferInstanceAs (Decidable (∀ other ∈ s.txs, lock ∈ other.locks → other.id = tx.id))

/-- What becomes of a transaction with its next statement. -/
inductive Outcome where
  | waits
  | ends
  | goes (tx : Tx)
  deriving DecidableEq

namespace Tx

def enter (tx : Tx) (phase : Phase) : Tx := { tx with phase := phase }

def acquire (tx : Tx) (lock : Lock) (phase : Phase) : Tx :=
  { tx with phase := phase, locks := lock :: tx.locks }

end Tx

/-- The row that an operation without a token selects. -/
def Op.row? (env : Env) (db : Database) : Op → Option User
  | .login username _ _ | .recoverAdmin username _ _ _ =>
    (normalizeUsername env username).bind fun name => db.users.first (·.username = name)
  | .resetPassword userId _ | .disableUser userId | .enableUser userId | .setUserRoles userId _
  | .editUser userId _ => db.users.find? userId
  | .authenticate _ | .authenticateReadonly _ | .logout _ | .changePassword _ _ _ => none

namespace State

variable (env : Env) (s : State) (tx : Tx)

/-- `SELECT ... FOR UPDATE` on the row of a user. -/
def lockUser : Option User → Outcome
  | none => .ends
  | some user =>
    if s.Free tx (.user user.id) then .goes (tx.acquire (.user user.id) (.locked user)) else .waits

/-- `SELECT ... FOR UPDATE` on the row of the role `admin`. -/
def lockAdminRole (user : User) (effect : Effect) : Outcome :=
  if ¬s.Free tx .adminRole then .waits
  else if s.db.roles.any (·.name = "admin") then
    .goes (tx.acquire .adminRole (.guarding user effect))
  else .ends

/-- The session of the presented token. -/
def readSession (token : String) : Outcome :=
  match s.db.sessions.find? (env.hashToken token) with
  | none => .ends
  | some record =>
    if record.revokedAt ≠ none then .ends
    else match tx.op with
      | .logout _ => .goes (tx.enter (.ready (.revoke record.tokenHash tx.now) none))
      | _ => .goes (tx.enter (.found record))

/-- The user of the session and the limits of the session. An expired session is marked as revoked
by a transaction that then fails, so the mark is rolled back. -/
def checkSession (record : UserSession) : Outcome :=
  match s.db.users.find? record.userId with
  | none => .ends
  | some user =>
    if ¬user.isActive ∨ record.expired tx.now then .ends
    else match tx.op with
      | .authenticate _ => .goes (tx.enter (.ready (.touch record.tokenHash tx.now
          (min (tx.now + idleTtl) record.absoluteExpiresAt)) (some user.context)))
      | .authenticateReadonly _ => .goes (tx.enter (.ready .none (some user.context)))
      | _ => .goes (tx.enter (.checked record))

/-- The decision of an operation that holds the row of its user. -/
def decideLocked (user : User) : Outcome :=
  match decide env s.db user tx.now tx.op with
  | .fail => .ends
  | .ready effect context => .goes (tx.enter (.ready effect context))
  | .guard effect => s.lockAdminRole tx user effect

/-- The count of the other active administrators. -/
def countAdmins (user : User) (effect : Effect) : Outcome :=
  if ∃ other ∈ s.db.users, other.activeAdmin ∧ other.id ≠ user.id then
    .goes (tx.enter (.ready effect none))
  else .ends

/-- The next statement of a transaction that is not ready to commit. -/
def statement : Outcome :=
  match tx.phase with
  | .begun =>
    match tx.op.token? with
    | some token => readSession env s tx token
    | none => s.lockUser tx (tx.op.row? env s.db)
  | .found record => s.checkSession tx record
  | .checked record => s.lockUser tx (s.db.users.find? record.userId)
  | .locked user => decideLocked env s tx user
  | .guarding user effect => s.countAdmins tx user effect
  | .ready _ _ => .waits

def close : Table Tx.id := s.txs.delete (·.id = tx.id)

end State

inductive Action where
  | start (id : Nat) (op : Op) (now : Time)
  | run (id : Nat)
  | abort (id : Nat)
  deriving DecidableEq

/-- The state after an action, `none` when it cannot be taken. -/
def next (env : Env) (s : State) : Action → Option State
  | .start id op now =>
    if op.Valid env then
      (s.txs.insert? ⟨id, op, now, .begun, []⟩).map fun txs => { s with txs := txs }
    else none
  | .run id =>
    (s.txs.find? id).bind fun tx =>
      match tx.phase with
      | .ready effect _ => (effect.apply s.db).map fun db => ⟨db, s.close tx⟩
      | _ =>
        match s.statement env tx with
        | .waits => none
        | .ends => some { s with txs := s.close tx }
        | .goes tx' => some { s with txs := s.txs.set tx' }
  | .abort id => (s.txs.find? id).map fun tx => { s with txs := s.close tx }

/-- The runs of the operations from the given states. -/
def system (env : Env) (init : State → Prop) : System State Action where
  init := init
  step s a t := next env s a = some t

end ChatBI.Auth
