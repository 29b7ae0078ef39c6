import ChatBI.Auth.Sound

/-!
# Revoked sessions

A session that a commit has revoked stays revoked through every later write, and no transaction
reads its token as valid any more. The expiry of a session never passes its absolute expiry.
-/

namespace ChatBI.Auth

open ChatBI.Lib

/-- The sessions that an operation revokes when it commits. -/
def Op.Covers (env : Env) (db : Database) (op : Op) (r : UserSession) : Prop :=
  (∃ token, op = .logout token ∧ r.tokenHash = env.hashToken token) ∨
    op.RevokesAll ∧ ∃ user ∈ db.users, op.Addresses env db user ∧ r.userId = user.id

/-- No session lives past its absolute expiry. -/
def State.Limited (s : State) : Prop := ∀ r ∈ s.db.sessions, r.expiresAt ≤ r.absoluteExpiresAt

/-- No transaction has begun, and the sessions are within their limits. -/
def State.Idle (s : State) : Prop := s.txs = .empty ∧ s.Limited

/-- The token of the session is refused since the state `s`: the session is revoked, and every
transaction that presents the token has not read it yet or had read it before. -/
structure State.Barred (env : Env) (s : State) (r : UserSession) (t : State) : Prop where
  revoked : ∃ r' ∈ t.db.sessions, r'.tokenHash = r.tokenHash ∧ r'.revokedAt ≠ none
  unread : ∀ tx ∈ t.txs, ∀ token, tx.op.token? = some token →
    env.hashToken token = r.tokenHash → tx.phase = .begun ∨
      ∃ tx₀ ∈ s.txs, tx₀.id = tx.id ∧ tx₀.op = tx.op ∧ tx₀.phase ≠ .begun

section Covering

variable {env : Env} {db : Database} {tx : Tx} {effect : Effect} {context : Option AuthContext}

/-- An operation is about one user. -/
lemma Op.Addresses.unique {op : Op} {u v : User} (hu : u ∈ db.users) (hv : v ∈ db.users)
    (h : op.Addresses env db u) (h' : op.Addresses env db v) : u.id = v.id := by
  have hsession : ∀ {token : String},
      (∃ r ∈ db.sessions, r.tokenHash = env.hashToken token ∧ r.userId = u.id) →
      (∃ r ∈ db.sessions, r.tokenHash = env.hashToken token ∧ r.userId = v.id) → u.id = v.id := by
    rintro token ⟨r, hr, htoken, huser⟩ ⟨r', hr', htoken', huser'⟩
    rw [← huser, ← huser', Table.eq_of_key hr hr' (htoken.trans htoken'.symm)]
  have hname : ∀ {username : String}, normalizeUsername env username = some u.username →
      normalizeUsername env username = some v.username → u.id = v.id := by
    intro username hname hname'
    rw [hname] at hname'
    rw [db.names u hu v hv (Option.some.inj hname')]
  cases op with
  | login | recoverAdmin => exact hname h h'
  | authenticate | authenticateReadonly | logout | changePassword => exact hsession h h'
  | resetPassword | disableUser | enableUser | setUserRoles | editUser =>
    exact Eq.trans h (Eq.symm h')

lemma Writes.covers {op : Op} {now : Time} {user row : User} {revokeAll : Option Time}
    {session : Option UserSession} (h : Writes op now user row revokeAll session)
    (hop : op.RevokesAll) {r : UserSession} (hr : r.userId = user.id) :
    (Effect.user row revokeAll session).Covers r := by
  rw [h.revokes hop]
  exact hr.trans h.id.symm

/-- What an operation covers its write revokes. -/
theorem Tx.Sound.covers (h : tx.Sound env db (.ready effect context)) {r : UserSession}
    (hcovers : tx.op.Covers env db r) : effect.Covers r := by
  -- an operation that holds the row of its user revokes the sessions of that user
  have hwrites : ∀ {user row : User} {revokeAll : Option Time} {session : Option UserSession},
      tx.Holds env db user → Writes tx.op tx.now user row revokeAll session →
      (Effect.user row revokeAll session).Covers r := by
    intro user row revokeAll session holds writes
    rcases hcovers with ⟨token, hop, -⟩ | ⟨hop, other, hother, haddressed, hr⟩
    · have hlocks := writes.locks
      rw [hop] at hlocks
      exact hlocks.elim
    · exact writes.covers hop
        (hr.trans (haddressed.unique hother holds.mem holds.addressed))
  cases h with
  | touching _ op | reading op =>
    rw [op] at hcovers
    rcases hcovers with ⟨token, hop, -⟩ | ⟨hop, -⟩
    · cases hop
    · exact hop.elim
  | revoking op hash =>
    rw [op] at hcovers
    rcases hcovers with ⟨token, hop, hhash⟩ | ⟨hop, -⟩
    · cases hop
      exact hhash.trans hash.symm
    · exact hop.elim
  | ready holds decided =>
    cases decided with
    | refused login =>
      obtain ⟨username, password, token, hlogin⟩ := login
      rw [hlogin] at hcovers
      rcases hcovers with ⟨token, hop, -⟩ | ⟨hop, -⟩
      · cases hop
      · exact hop.elim
    | written writes => exact hwrites holds writes
  | counted holds role guarded =>
    obtain ⟨writes⟩ := guarded
    exact hwrites holds writes

/-- A write of a sound transaction keeps the sessions within their limits. -/
theorem Tx.Sound.limited {db' : Database} (h : tx.Sound env db (.ready effect context))
    (hwritten : effect.apply db = some db')
    (hlimited : ∀ r ∈ db.sessions, r.expiresAt ≤ r.absoluteExpiresAt) :
    ∀ r ∈ db'.sessions, r.expiresAt ≤ r.absoluteExpiresAt := by
  intro r' hr'
  rcases mem_sessions_written hwritten hr' with ⟨r, hr, hcontinues, hexpires⟩ |
    ⟨row, revokeAll, rfl⟩
  · rw [hcontinues.absoluteExpiresAt]
    rcases hexpires with heq | ⟨lastSeenAt, htouch⟩
    · rw [heq]
      exact hlimited r hr
    · generalize hkey : r.tokenHash = tokenHash at htouch
      generalize r'.expiresAt = expiresAt at htouch ⊢
      subst htouch
      cases h with
      | touching presents op limited =>
        obtain ⟨r₀, hr₀, hcontinues₀⟩ := presents.stored
        have hsame : r = r₀ := Table.eq_of_key hr hr₀ (hkey.trans hcontinues₀.tokenHash.symm)
        rw [hsame, hcontinues₀.absoluteExpiresAt]
        exact limited
      | ready holds decided => cases decided
      | counted holds role guarded => cases guarded
  · cases h with
    | ready holds decided =>
      cases decided with
      | written writes => exact writes.limited r' rfl
    | counted holds role guarded =>
      cases guarded

end Covering

section Runs

variable {env : Env} {s t u : State} {a : Action} {r : UserSession}

theorem Step.limited (h : Step env s a t) (hs : s.Consistent env) (hlimited : s.Limited) :
    t.Limited := by
  cases h with
  | committed mem phase written =>
    have hready := hs.sound _ mem
    rw [phase] at hready
    exact hready.limited written hlimited
  | started | went | ended | aborted => exact hlimited

/-- The commit of an operation bars the sessions that it covers. -/
lemma barred_of_commit {tx : Tx} {effect : Effect} {context : Option AuthContext} {db : Database}
    (hs : s.Consistent env) (htx : tx ∈ s.txs) (hphase : tx.phase = .ready effect context)
    (hwritten : effect.apply s.db = some db) (hr : r ∈ s.db.sessions)
    (hcovers : tx.op.Covers env s.db r) :
    State.Barred env ⟨db, s.close tx⟩ r ⟨db, s.close tx⟩ := by
  have hready := hs.sound tx htx
  rw [hphase] at hready
  obtain ⟨r', hr', hcontinues, hrevoked⟩ := apply_continues hwritten hr
  refine ⟨⟨r', hr', hcontinues.tokenHash, hrevoked (hready.covers hcovers)⟩, ?_⟩
  intro other hother token _ _
  by_cases hbegun : other.phase = .begun
  · exact .inl hbegun
  · exact .inr ⟨other, hother, rfl, rfl, hbegun⟩

/-- A statement of a transaction that has not read a revoked session does not let it go on. -/
lemma not_goes_of_revoked {tx tx' : Tx} {token : String} (htoken : tx.op.token? = some token)
    (hphase : tx.phase = .begun) (hhash : env.hashToken token = r.tokenHash)
    (hrevoked : ∃ r' ∈ s.db.sessions, r'.tokenHash = r.tokenHash ∧ r'.revokedAt ≠ none) :
    ¬Goes env s tx tx' := by
  intro h
  obtain ⟨r', hr', hkey, hnot⟩ := hrevoked
  have hread : ∀ {token' : String} {record : UserSession}, tx.op.token? = some token' →
      s.db.sessions.find? (env.hashToken token') = some record → record.revokedAt ≠ none := by
    intro token' record htoken' hread
    rw [htoken] at htoken'
    cases htoken'
    obtain ⟨hmem, hhash'⟩ := Table.find?_eq_some_iff.mp hread
    rw [Table.eq_of_key hmem hr' (hhash'.trans (hhash.trans hkey.symm))]
    exact hnot
  cases h with
  | revoking phase op read open_ => exact hread (by rw [op]; rfl) read open_
  | found phase op read open_ => exact hread op read open_
  | selected phase op =>
    rw [htoken] at op
    cases op
  | authenticated phase | authenticatedReadonly phase | checked phase | joined phase
  | decided phase | guarded phase | counted phase =>
    rw [hphase] at phase
    cases phase

/-- No step lifts the bar. -/
theorem Step.barred (h : Step env t a u) (hs : State.Barred env s r t) : State.Barred env s r u := by
  have hcontinues := h.continues
  refine ⟨?_, ?_⟩
  · obtain ⟨r', hr', hkey, hrevoked⟩ := hs.revoked
    obtain ⟨r'', hr'', hsame⟩ := hcontinues r' hr'
    exact ⟨r'', hr'', hsame.tokenHash.trans hkey, hsame.revoked hrevoked⟩
  · intro tx htx token htoken hhash
    rcases h.mem htx with htx | ⟨hbegun, -⟩ | ⟨tx₀, htx₀, hgoes, -⟩
    · exact hs.unread tx htx token htoken hhash
    · exact .inl hbegun
    · have hsame := hgoes.same
      rw [hsame.op] at htoken
      rcases hs.unread tx₀ htx₀ token htoken hhash with hbegun | ⟨old, hold, hid, hop, hread⟩
      · exact absurd hgoes (not_goes_of_revoked htoken hbegun hhash hs.revoked)
      · exact .inr ⟨old, hold, hid.trans hsame.id.symm, hop.trans hsame.op.symm, hread⟩

/-- A read-only authentication writes nothing. -/
lemma readonly_writes_nothing {tx : Tx} {token : String} {effect : Effect}
    {context : Option AuthContext} (hs : tx.Sound env s.db (.ready effect context))
    (hop : tx.op = .authenticateReadonly token) : effect = .none := by
  cases hs with
  | touching _ hop' | revoking hop' =>
    rw [hop] at hop'
    cases hop'
  | reading => rfl
  | ready holds decided =>
    cases decided with
    | refused => rfl
    | written writes =>
      have hlocks := writes.locks
      rw [hop] at hlocks
      exact hlocks.elim
  | counted holds role guarded =>
    obtain ⟨writes⟩ := guarded
    have hlocks := writes.locks
    rw [hop] at hlocks
    exact hlocks.elim

/-- A step of a read-only authentication leaves the database as it was. -/
lemma readonly_keeps {tx : Tx} {token : String} (hs : s.Consistent env) (htx : tx ∈ s.txs)
    (hop : tx.op = .authenticateReadonly token) (h : Step env s (.run tx.id) t) : t.db = s.db := by
  generalize hrun : Action.run tx.id = a at h
  cases h with
  | committed mem phase written =>
    have hsame : tx = _ := Table.eq_of_key htx mem (Action.run.inj hrun)
    subst hsame
    have hready := hs.sound tx htx
    rw [phase] at hready
    rw [readonly_writes_nothing hready hop] at written
    exact (Option.some.inj written).symm
  | started | went | ended | aborted => rfl

/-- A login that is about to succeed holds a user who is active and not locked. -/
lemma login_admits {tx : Tx} {username password token : String} {effect : Effect}
    {context : AuthContext} (hs : tx.Sound env s.db (.ready effect (some context)))
    (hop : tx.op = .login username password token) :
    ∃ user ∈ s.db.users, normalizeUsername env username = some user.username ∧
      user.isActive = true ∧ user.lockedAt tx.now = false := by
  cases hs with
  | touching _ hop' | reading hop' =>
    rw [hop] at hop'
    cases hop'
  | ready holds decided =>
    cases decided with
    | written writes keeps admits =>
      have haddressed := holds.addressed
      rw [hop] at haddressed
      exact ⟨_, holds.mem, haddressed, admits (Option.some_ne_none context)⟩

lemma consistent_of_reachable (h : (system env State.Idle).Reachable s) : s.Consistent env := by
  refine System.Reachable.invariant ?_ ?_ h
  · intro s hinit
    exact .of_idle hinit.1
  · intro s a t hs hstep
    exact (next_step hstep).consistent hs

lemma limited_of_reachable (h : (system env State.Idle).Reachable s) : s.Limited := by
  have hboth : s.Consistent env ∧ s.Limited := by
    refine System.Reachable.invariant (I := fun s => s.Consistent env ∧ s.Limited) ?_ ?_ h
    · intro s hinit
      exact ⟨.of_idle hinit.1, hinit.2⟩
    · intro s a t hs hstep
      exact ⟨(next_step hstep).consistent hs.1, (next_step hstep).limited hs.1 hs.2⟩
  exact hboth.2

end Runs

/-- The state right after the commit of an operation that revokes the session. -/
def RevokedAt (env : Env) (s : State) (r : UserSession) : Prop :=
  ∃ s₀ tx, (system env State.Idle).Reachable s₀ ∧ tx ∈ s₀.txs ∧ tx.phase.isReady ∧
    r ∈ s₀.db.sessions ∧ tx.op.Covers env s₀.db r ∧ next env s₀ (.run tx.id) = some s

lemma RevokedAt.barred {env : Env} {s : State} {r : UserSession} (h : RevokedAt env s r) :
    State.Barred env s r s := by
  obtain ⟨s₀, tx, hreachable, htx, hready, hr, hcovers, hnext⟩ := h
  have hs := consistent_of_reachable hreachable
  generalize hrun : Action.run tx.id = a at hnext
  have hstep := next_step hnext
  cases hstep with
  | started => cases hrun
  | committed mem phase written =>
    have hsame : tx = _ := Table.eq_of_key htx mem (Action.run.inj hrun)
    subst hsame
    exact barred_of_commit hs mem phase written hr hcovers
  | went mem unready | ended mem unready =>
    have hsame : tx = _ := Table.eq_of_key htx mem (Action.run.inj hrun)
    rw [hsame, unready] at hready
    cases hready
  | aborted => cases hrun

/-- Revocation is permanent, no session outlives its absolute expiry, a read-only authentication
changes nothing, and a login that succeeds finds its user active and not locked. -/
theorem sessions_revoked_for_good (env : Env) :
    (∀ s t r es, RevokedAt env s r → (system env State.Idle).Run s es t →
      State.Barred env s r t) ∧
    ∀ s, (system env State.Idle).Reachable s → s.Limited ∧
      (∀ tx ∈ s.txs, ∀ token, tx.op = .authenticateReadonly token →
        ∀ t, next env s (.run tx.id) = some t → t.db = s.db) ∧
      ∀ tx ∈ s.txs, ∀ username password token, tx.op = .login username password token →
        ∀ effect context, tx.phase = .ready effect (some context) →
          ∃ user ∈ s.db.users, normalizeUsername env username = some user.username ∧
            user.isActive = true ∧ user.lockedAt tx.now = false := by
  refine ⟨?_, ?_⟩
  · intro s t r es hrevoked hrun
    refine hrun.invariant ?_ hrevoked.barred
    intro t a u hbarred hstep
    exact (next_step hstep).barred hbarred
  · intro s hreachable
    have hs := consistent_of_reachable hreachable
    refine ⟨limited_of_reachable hreachable, ?_, ?_⟩
    · intro tx htx token hop t hnext
      exact readonly_keeps hs htx hop (next_step hnext)
    · intro tx htx username password token hop effect context hphase
      have hready := hs.sound tx htx
      rw [hphase] at hready
      exact login_admits hready hop

section Runs

def oneUser : State where
  db := ⟨[], ⟨[⟨1, "a", "", true, false, 0, none, 0, []⟩], by decide⟩, .empty, by decide⟩
  txs := .empty

/-- The session of the token `k` as its login leaves it. -/
def loggedOut : UserSession := ⟨"k", 1, 0, 0, idleTtl, absoluteTtl, none⟩

/-- The state behind actions that start with one user. -/
def behind (actions : List Action) : State :=
  (System.exec (next plainEnv) (fun _ _ => true) oneUser actions).getD oneUser

lemma run_behind {actions : List Action}
    (h : (System.exec (next plainEnv) (fun _ _ => true) oneUser actions).isSome = true) :
    (system plainEnv State.Idle).Run oneUser actions (behind actions) := by
  obtain ⟨s, hs⟩ := Option.isSome_iff_exists.mp h
  unfold behind
  rw [hs, Option.getD_some]
  exact System.exec_run (fun _ _ _ _ hnext => hnext) hs

/-- The commit of the logout of the session. -/
lemma revokedAt_behind {actions : List Action} {tx : Tx}
    (h : (System.exec (next plainEnv) (fun _ _ => true) oneUser actions).isSome = true)
    (htx : (behind actions).txs.find? 1 = some tx) (hop : tx.op = .logout "k")
    (hready : tx.phase.isReady = true) (hr : loggedOut ∈ (behind actions).db.sessions)
    (hnext : next plainEnv (behind actions) (.run 1) = some (behind (actions ++ [.run 1]))) :
    RevokedAt plainEnv (behind (actions ++ [.run 1])) loggedOut := by
  obtain ⟨hmem, hid⟩ := Table.find?_eq_some_iff.mp htx
  have hidle : oneUser.Idle := ⟨rfl, fun r hr => absurd hr (Table.not_mem_empty r)⟩
  refine ⟨behind actions, tx, ⟨oneUser, actions, hidle, run_behind h⟩, hmem, hready, hr, ?_, ?_⟩
  · exact .inl ⟨"k", hop, rfl⟩
  · rw [hid]
    exact hnext

/-- A login and the logout of its token up to the commit. -/
def loggingOut : List Action :=
  [.start 0 (.login "a" "" "k") 0, .run 0, .run 0, .run 0, .start 1 (.logout "k") 5, .run 1]

/-- Another login of the user, and an authentication with the token that is logged out. -/
def returning : List Action :=
  [.start 2 (.login "a" "" "m") 6, .run 2, .run 2, .run 2, .start 3 (.authenticate "k") 7]

/-- The logout of a session, another login, and an authentication with the old token, which ends
without a commit. -/
theorem sessions_revoked_for_good_loggedOut :
    ∃ s t u, RevokedAt plainEnv s loggedOut ∧
      (system plainEnv State.Idle).Run s (returning ++ [.run 3]) u ∧
      (system plainEnv State.Idle).Run s returning t ∧
      (t.txs.find? 3).map Tx.op = some (.authenticate "k") ∧ u.txs.find? 3 = none ∧ u.db = t.db ∧
      (∃ r ∈ u.db.sessions, r.tokenHash = "m" ∧ r.revokedAt = none) ∧
      State.Barred plainEnv s loggedOut u := by
  have hrevoked : RevokedAt plainEnv (behind (loggingOut ++ [.run 1])) loggedOut :=
    @revokedAt_behind _ ⟨1, .logout "k", 5, .ready (.revoke "k" 5) none, []⟩ (by decide)
      (by decide) rfl rfl (by decide) (by decide)
  have hreturning : System.exec (next plainEnv) (fun _ _ => true) (behind (loggingOut ++ [.run 1]))
      returning = some (behind (loggingOut ++ [.run 1] ++ returning)) := by decide
  have hended : System.exec (next plainEnv) (fun _ _ => true) (behind (loggingOut ++ [.run 1]))
      (returning ++ [.run 3]) = some (behind (loggingOut ++ [.run 1] ++ returning ++ [.run 3])) := by
    decide
  have hrun : (system plainEnv State.Idle).Run (behind (loggingOut ++ [.run 1])) (returning ++ [.run 3])
      (behind (loggingOut ++ [.run 1] ++ returning ++ [.run 3])) :=
    System.exec_run (fun _ _ _ _ hnext => hnext) hended
  have hstarted : (system plainEnv State.Idle).Run (behind (loggingOut ++ [.run 1])) returning
      (behind (loggingOut ++ [.run 1] ++ returning)) :=
    System.exec_run (fun _ _ _ _ hnext => hnext) hreturning
  exact ⟨_, _, _, hrevoked, hrun, hstarted, by decide, by decide, by decide, by decide,
    (sessions_revoked_for_good plainEnv).1 _ _ _ _ hrevoked hrun⟩

/-- A login, an authentication with its token that has read the session, and a logout up to its
commit. -/
def overlapping : List Action :=
  [.start 0 (.login "a" "" "k") 0, .run 0, .run 0, .run 0, .start 2 (.authenticate "k") 4, .run 2,
    .start 1 (.logout "k") 5, .run 1]

/-- An authentication that has read its session before the logout commits succeeds behind it. -/
theorem authenticated_after_logout :
    ∃ s t u, RevokedAt plainEnv s loggedOut ∧ (system plainEnv State.Idle).Run s [.run 2] t ∧
      (∃ tx ∈ t.txs, tx.id = 2 ∧ tx.op = .authenticate "k" ∧
        ∃ effect context, tx.phase = .ready effect (some context)) ∧
      next plainEnv t (.run 2) = some u ∧ u.txs = .empty ∧
      ∃ r ∈ u.db.sessions, r.tokenHash = "k" ∧ r.revokedAt = some 5 ∧ r.lastSeenAt = 4 := by
  have hrevoked : RevokedAt plainEnv (behind (overlapping ++ [.run 1])) loggedOut :=
    @revokedAt_behind _ ⟨1, .logout "k", 5, .ready (.revoke "k" 5) none, []⟩ (by decide)
      (by decide) rfl rfl (by decide) (by decide)
  have hnext : next plainEnv (behind (overlapping ++ [.run 1])) (.run 2) =
      some (behind (overlapping ++ [.run 1, .run 2])) := by decide
  have htx : (behind (overlapping ++ [.run 1, .run 2])).txs.find? 2 =
      some ⟨2, .authenticate "k", 4, .ready (.touch "k" 4 (4 + idleTtl)) (some ⟨1, "a", [], false⟩),
        []⟩ := by decide
  obtain ⟨hmem, -⟩ := Table.find?_eq_some_iff.mp htx
  have hcommit : next plainEnv (behind (overlapping ++ [.run 1, .run 2])) (.run 2) =
      some (behind (overlapping ++ [.run 1, .run 2, .run 2])) := by decide
  exact ⟨_, _, _, hrevoked, .single hnext, ⟨_, hmem, rfl, rfl, _, _, rfl⟩, hcommit, by decide,
    by decide⟩

end Runs

end ChatBI.Auth
