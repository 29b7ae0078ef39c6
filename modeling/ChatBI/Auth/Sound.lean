import ChatBI.Auth.Decisions

/-!
# What a transaction knows

The row of a user is only written by the transaction that holds its lock, so the copy that a
transaction has read behind the lock is the row itself until the transaction commits. A session
that has been read continues in the table.
-/

namespace ChatBI.Auth

open ChatBI.Lib

/-- The user whom an operation is about. -/
def Op.Addresses (env : Env) (db : Database) (op : Op) (user : User) : Prop :=
  match op with
  | .login username _ _ | .recoverAdmin username _ _ _ =>
    normalizeUsername env username = some user.username
  | .authenticate token | .authenticateReadonly token | .logout token
  | .changePassword token _ _ =>
    ∃ r ∈ db.sessions, r.tokenHash = env.hashToken token ∧ r.userId = user.id
  | .resetPassword userId _ | .disableUser userId | .enableUser userId | .setUserRoles userId _
  | .editUser userId _ => user.id = userId

/-- The session with the presented token, as it was read. -/
structure Tx.Presents (env : Env) (db : Database) (tx : Tx) (record : UserSession) : Prop where
  token : ∃ token, tx.op.token? = some token ∧ record.tokenHash = env.hashToken token
  stored : ∃ r ∈ db.sessions, record.Continues r

/-- The locked row of the user. -/
structure Tx.Holds (env : Env) (db : Database) (tx : Tx) (user : User) : Prop where
  mem : user ∈ db.users
  lock : .user user.id ∈ tx.locks
  addressed : tx.op.Addresses env db user

/-- What stands behind every phase of a transaction. -/
inductive Tx.Sound (env : Env) (db : Database) (tx : Tx) : Phase → Prop
  | begun : Sound env db tx .begun
  | found {record : UserSession} (presents : tx.Presents env db record) :
      Sound env db tx (.found record)
  | checked {record : UserSession} (presents : tx.Presents env db record) :
      Sound env db tx (.checked record)
  | locked {user : User} (holds : tx.Holds env db user) : Sound env db tx (.locked user)
  | guarding {user : User} {effect : Effect} (holds : tx.Holds env db user)
      (role : .adminRole ∈ tx.locks) (guarded : Guarded tx.op tx.now user effect) :
      Sound env db tx (.guarding user effect)
  | touching {record : UserSession} {token : String} {expiresAt : Time} {context : AuthContext}
      (presents : tx.Presents env db record) (op : tx.op = .authenticate token)
      (limited : expiresAt ≤ record.absoluteExpiresAt) :
      Sound env db tx (.ready (.touch record.tokenHash tx.now expiresAt) (some context))
  | reading {token : String} {context : AuthContext} (op : tx.op = .authenticateReadonly token) :
      Sound env db tx (.ready .none (some context))
  | revoking {record : UserSession} {token : String} (op : tx.op = .logout token)
      (hash : record.tokenHash = env.hashToken token) :
      Sound env db tx (.ready (.revoke record.tokenHash tx.now) none)
  | ready {user : User} {effect : Effect} {context : Option AuthContext}
      (holds : tx.Holds env db user) (decided : Ready tx.op tx.now user effect context) :
      Sound env db tx (.ready effect context)
  | counted {user : User} {effect : Effect} (holds : tx.Holds env db user)
      (role : .adminRole ∈ tx.locks) (guarded : Guarded tx.op tx.now user effect) :
      Sound env db tx (.ready effect none)

def State.Sound (env : Env) (s : State) : Prop := ∀ tx ∈ s.txs, tx.Sound env s.db tx.phase

/-- Every session of `db` continues in `db'`. -/
def Database.Continues (db db' : Database) : Prop :=
  ∀ r ∈ db.sessions, ∃ r' ∈ db'.sessions, r.Continues r'

lemma Database.Continues.refl (db : Database) : db.Continues db := fun r hr => ⟨r, hr, .refl r⟩

lemma Database.Continues.trans {db db' db'' : Database} (h : db.Continues db')
    (h' : db'.Continues db'') : db.Continues db'' := by
  intro r hr
  obtain ⟨r', hr', hcontinues⟩ := h r hr
  obtain ⟨r'', hr'', hcontinues'⟩ := h' r' hr'
  exact ⟨r'', hr'', hcontinues.trans hcontinues'⟩

lemma Op.row?_addresses {env : Env} {db : Database} {op : Op} {user : User}
    (h : op.row? env db = some user) : user ∈ db.users ∧ op.Addresses env db user := by
  have hkey : ∀ {userId : Nat}, db.users.find? userId = some user →
      user ∈ db.users ∧ user.id = userId := Table.find?_eq_some_iff.mp
  have hname : ∀ {username : String},
      ((normalizeUsername env username).bind fun name => db.users.first (·.username = name)) =
        some user → user ∈ db.users ∧ normalizeUsername env username = some user.username := by
    intro username h
    obtain ⟨name, hname, hfirst⟩ := Option.bind_eq_some_iff.mp h
    obtain ⟨hmem, hp⟩ := Table.first_some hfirst
    rw [decide_eq_true_iff] at hp
    rw [hp]
    exact ⟨hmem, hname⟩
  cases op with
  | login | recoverAdmin => exact hname h
  | resetPassword | disableUser | enableUser | setUserRoles | editUser => exact hkey h
  | authenticate | authenticateReadonly | logout | changePassword => cases h

section Evolving

variable {env : Env} {db db' : Database} {tx tx' : Tx}

lemma Op.Addresses.evolve {op : Op} {user : User} (h : op.Addresses env db user)
    (sessions : db.Continues db') : op.Addresses env db' user := by
  have hsession : ∀ {token : String},
      (∃ r ∈ db.sessions, r.tokenHash = env.hashToken token ∧ r.userId = user.id) →
      ∃ r ∈ db'.sessions, r.tokenHash = env.hashToken token ∧ r.userId = user.id := by
    rintro token ⟨r, hr, htoken, huser⟩
    obtain ⟨r', hr', hcontinues⟩ := sessions r hr
    exact ⟨r', hr', hcontinues.tokenHash.trans htoken, hcontinues.userId.trans huser⟩
  cases op with
  | authenticate | authenticateReadonly | logout | changePassword => exact hsession h
  | _ => exact h

lemma Tx.Presents.evolve {record : UserSession} (h : tx.Presents env db record)
    (op : tx'.op = tx.op) (sessions : db.Continues db') : tx'.Presents env db' record := by
  refine ⟨by rw [op]; exact h.token, ?_⟩
  obtain ⟨r, hr, hcontinues⟩ := h.stored
  obtain ⟨r', hr', hcontinues'⟩ := sessions r hr
  exact ⟨r', hr', hcontinues.trans hcontinues'⟩

lemma Tx.Holds.evolve {user : User} (h : tx.Holds env db user) (op : tx'.op = tx.op)
    (held : ∀ lock ∈ tx.locks, lock ∈ tx'.locks) (sessions : db.Continues db')
    (users : ∀ u ∈ db.users, .user u.id ∈ tx.locks → u ∈ db'.users) : tx'.Holds env db' user where
  mem := users user h.mem h.lock
  lock := held _ h.lock
  addressed := by
    rw [op]
    exact h.addressed.evolve sessions

/-- What a transaction knows is not touched by the commits of the others. -/
theorem Tx.Sound.evolve {phase : Phase} (h : tx.Sound env db phase) (sessions : db.Continues db')
    (users : ∀ u ∈ db.users, .user u.id ∈ tx.locks → u ∈ db'.users) : tx.Sound env db' phase := by
  have hheld : ∀ {user : User}, tx.Holds env db user → tx.Holds env db' user :=
    fun holds => holds.evolve rfl (fun _ h => h) sessions users
  cases h with
  | begun => exact .begun
  | found presents => exact .found (presents.evolve rfl sessions)
  | checked presents => exact .checked (presents.evolve rfl sessions)
  | locked holds => exact .locked (hheld holds)
  | guarding holds role guarded => exact .guarding (hheld holds) role guarded
  | touching presents op limited => exact .touching (presents.evolve rfl sessions) op limited
  | reading op => exact .reading op
  | revoking op hash => exact .revoking op hash
  | ready holds decided => exact .ready (hheld holds) decided
  | counted holds role guarded => exact .counted (hheld holds) role guarded

/-- The row that a ready transaction writes is the row that it has locked. -/
lemma Tx.Sound.row {effect : Effect} {context : Option AuthContext} {row : User}
    (h : tx.Sound env db (.ready effect context)) (hrow : effect.row? = some row) :
    ∃ user, tx.Holds env db user ∧ row.id = user.id := by
  cases h with
  | touching | reading | revoking => cases hrow
  | ready holds decided =>
    cases decided with
    | refused => cases hrow
    | written writes =>
      cases hrow
      exact ⟨_, holds, writes.id⟩
  | counted holds _ guarded =>
    cases guarded with
    | written writes =>
      cases hrow
      exact ⟨_, holds, writes.id⟩

end Evolving

/-- A statement builds on what its transaction knows. -/
theorem Goes.sound {env : Env} {s : State} {tx tx' : Tx} (h : Goes env s tx tx')
    (hsound : tx.Sound env s.db tx.phase) : tx'.Sound env s.db tx'.phase := by
  have hsame := h.same
  have hholds : ∀ {user : User}, tx.Holds env s.db user → tx'.Holds env s.db user :=
    fun holds => holds.evolve hsame.op hsame.held (.refl s.db) (fun _ hu _ => hu)
  have hpresents : ∀ {record : UserSession}, tx.Presents env s.db record →
      tx'.Presents env s.db record := fun presents => presents.evolve hsame.op (.refl s.db)
  cases h with
  | revoking phase op read open_ =>
    exact .revoking op (Table.find?_eq_some_iff.mp read).2
  | found phase op read open_ =>
    obtain ⟨hmem, hhash⟩ := Table.find?_eq_some_iff.mp read
    exact .found ⟨⟨_, op, hhash⟩, _, hmem, .refl _⟩
  | authenticated phase op =>
    rw [phase] at hsound
    cases hsound with
    | found presents => exact .touching (hpresents presents) op (min_le_right _ _)
  | authenticatedReadonly phase op => exact .reading op
  | checked phase =>
    rw [phase] at hsound
    cases hsound with
    | found presents => exact .checked (hpresents presents)
  | selected phase op read free =>
    obtain ⟨hmem, haddressed⟩ := Op.row?_addresses read
    exact .locked ⟨hmem, List.mem_cons_self, haddressed⟩
  | joined phase read free =>
    rw [phase] at hsound
    obtain ⟨hmem, hid⟩ := Table.find?_eq_some_iff.mp read
    cases hsound with
    | checked presents =>
      obtain ⟨token, htoken, hhash⟩ := presents.token
      obtain ⟨r, hr, hcontinues⟩ := presents.stored
      have hsession : ∃ r ∈ s.db.sessions, r.tokenHash = env.hashToken token ∧
          r.userId = _ := ⟨r, hr, hcontinues.tokenHash.trans hhash, hcontinues.userId.trans hid.symm⟩
      refine .locked ⟨hmem, List.mem_cons_self, ?_⟩
      change tx.op.Addresses env s.db _
      cases hop : tx.op with
      | authenticate | authenticateReadonly | logout | changePassword =>
        rw [hop] at htoken
        cases htoken
        exact hsession
      | _ =>
        rw [hop] at htoken
        cases htoken
  | decided phase decision =>
    rw [phase] at hsound
    cases hsound with
    | locked holds => exact .ready (hholds holds) (decide_ready decision)
  | guarded phase decision free =>
    rw [phase] at hsound
    cases hsound with
    | locked holds =>
      exact .guarding (hholds holds) List.mem_cons_self (decide_guard decision)
  | counted phase other =>
    rw [phase] at hsound
    cases hsound with
    | guarding holds role guarded => exact .counted (hholds holds) role guarded

/-- A commit keeps the rows that the other transactions have locked. -/
lemma locked_kept {env : Env} {s : State} (hexclusive : s.Exclusive) (hsound : s.Sound env)
    {tx other : Tx} {effect : Effect} {context : Option AuthContext} {db : Database}
    (htx : tx ∈ s.txs) (hphase : tx.phase = .ready effect context)
    (hwritten : effect.apply s.db = some db) (hother : other ∈ s.txs) (hne : other.id ≠ tx.id)
    {u : User} (hu : u ∈ s.db.users) (hlock : .user u.id ∈ other.locks) : u ∈ db.users := by
  rw [(apply_users hwritten).1]
  cases hrow : effect.row? with
  | none => exact hu
  | some row =>
    have hready := hsound tx htx
    rw [hphase] at hready
    obtain ⟨user, holds, hid⟩ := hready.row hrow
    refine (Table.mem_set holds.mem hid).mpr (.inr ⟨hu, fun heq => hne ?_⟩)
    rw [heq, hid] at hlock
    rw [hexclusive other hother tx htx _ hlock holds.lock]

lemma Step.continues {env : Env} {s t : State} {a : Action} (h : Step env s a t) :
    s.db.Continues t.db := by
  cases h with
  | committed mem phase written =>
    intro r hr
    obtain ⟨r', hr', hcontinues, -⟩ := apply_continues written hr
    exact ⟨r', hr', hcontinues⟩
  | started | went | ended | aborted => exact .refl s.db

theorem Step.sound {env : Env} {s t : State} {a : Action} (h : Step env s a t)
    (hexclusive : s.Exclusive) (hsound : s.Sound env) : t.Sound env := by
  intro tx htx
  have hcontinues := h.continues
  cases h with
  | started _ rows =>
    rcases (Table.mem_of_rows_append rows).mp htx with htx | rfl
    · exact hsound tx htx
    · exact .begun
  | committed mem phase written =>
    obtain ⟨htx, hne⟩ := mem_close.mp htx
    exact (hsound tx htx).evolve hcontinues
      (fun u hu hlock => locked_kept hexclusive hsound mem phase written htx hne hu hlock)
  | went mem _ goes =>
    rcases (Table.mem_set mem goes.same.id).mp htx with rfl | ⟨htx, -⟩
    · exact goes.sound (hsound _ mem)
    · exact hsound tx htx
  | ended => exact hsound tx (mem_close.mp htx).1
  | aborted => exact hsound tx (mem_close.mp htx).1

/-- The locks and the knowledge of the transactions. -/
structure State.Consistent (env : Env) (s : State) : Prop where
  exclusive : s.Exclusive
  sound : s.Sound env

theorem Step.consistent {env : Env} {s t : State} {a : Action} (h : Step env s a t)
    (hs : s.Consistent env) : t.Consistent env :=
  ⟨h.exclusive hs.exclusive, h.sound hs.exclusive hs.sound⟩

/-- Before the first transaction there is nothing to know. -/
lemma State.Consistent.of_idle {env : Env} {s : State} (h : s.txs = .empty) : s.Consistent env := by
  have hnone : ∀ tx, tx ∉ s.txs := by
    intro tx htx
    rw [h] at htx
    exact Table.not_mem_empty tx htx
  exact ⟨fun tx htx => absurd htx (hnone tx), fun tx htx => absurd htx (hnone tx)⟩

end ChatBI.Auth
