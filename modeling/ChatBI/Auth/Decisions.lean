import ChatBI.Auth.Steps

/-!
# What the operations decide and write

One case for every kind of decision, and what the writes of a commit keep of the sessions and of
the users.
-/

namespace ChatBI.Auth

open ChatBI.Lib

/-- The operations that revoke all sessions of their user. -/
def Op.RevokesAll : Op → Prop
  | .changePassword _ _ _ | .recoverAdmin _ _ _ _ | .resetPassword _ _ | .disableUser _ => True
  | .editUser _ form => form.password ≠ none ∨ form.isActive = some false
  | _ => False

/-- The operations that lock the row of their user. -/
def Op.Locks : Op → Prop
  | .authenticate _ | .authenticateReadonly _ | .logout _ => False
  | _ => True

/-- What is written for an operation that holds the row `user`. -/
structure Writes (op : Op) (now : Time) (user row : User) (revokeAll : Option Time)
    (session : Option UserSession) : Prop where
  id : row.id = user.id
  locks : op.Locks
  revokes : op.RevokesAll → revokeAll = some now
  limited : ∀ r, session = some r → r.expiresAt ≤ r.absoluteExpiresAt

/-- The decisions that need no count of the administrators. -/
inductive Ready (op : Op) (now : Time) (user : User) : Effect → Option AuthContext → Prop
  | refused (login : ∃ username password token, op = .login username password token) :
      Ready op now user .none none
  | written {row : User} {revokeAll : Option Time} {session : Option UserSession}
      {context : Option AuthContext} (writes : Writes op now user row revokeAll session)
      (keeps : (∀ id, op ≠ .disableUser id) → user.activeAdmin = true → row.activeAdmin = true)
      (admits : context ≠ none → user.isActive = true ∧ user.lockedAt now = false) :
      Ready op now user (.user row revokeAll session) context

/-- The decisions that wait for the count. -/
inductive Guarded (op : Op) (now : Time) (user : User) : Effect → Prop
  | written {row : User} {revokeAll : Option Time} (writes : Writes op now user row revokeAll none) :
      Guarded op now user (.user row revokeAll none)

section Deciding

variable {env : Env} {db : Database} {user : User} {now : Time} {effect : Effect}
  {context : Option AuthContext}

lemma Ready.withPassword (op : Op) (hop : op.Locks) (hash : String)
    (mustChange : Bool) :
    Ready op now user (.user (user.withPassword hash mustChange now) (some now) none) none :=
  .written ⟨rfl, hop, fun _ => rfl, fun _ h => nomatch h⟩ (fun _ h => h) (fun h => absurd rfl h)

lemma decideLogin_ready {name password token : String}
    (h : decideLogin env user now password token = .ready effect context) :
    Ready (.login name password token) now user effect context := by
  unfold decideLogin at h
  split_ifs at h with hclosed hwrong
  · cases h
    exact .refused ⟨name, password, token, rfl⟩
  · cases h
    rw [not_or, not_not, Bool.not_eq_true] at hclosed
    refine .written ⟨rfl, trivial, False.elim, ?_⟩ (fun _ h => h) (fun _ => hclosed)
    intro r hr
    cases hr
    exact Int.add_le_add_left (by decide) now
  · cases h
    exact .written ⟨rfl, trivial, False.elim, fun _ h => nomatch h⟩ (fun _ h => h) (fun h => absurd rfl h)

lemma decideLogin_not_guard {password token : String} :
    decideLogin env user now password token ≠ .guard effect := by
  unfold decideLogin
  split_ifs <;> exact Decision.noConfusion

lemma decideChangePassword_ready {token current : String} {new : NewPassword}
    (h : decideChangePassword env db user now token current new = .ready effect context) :
    Ready (.changePassword token current new) now user effect context := by
  unfold decideChangePassword at h
  split at h
  · cases h
  · split_ifs at h
    cases h
    exact .withPassword (.changePassword token current new) trivial _ _

lemma decideChangePassword_not_guard {token current : String} {new : NewPassword} :
    decideChangePassword env db user now token current new ≠ .guard effect := by
  unfold decideChangePassword
  split
  · exact Decision.noConfusion
  · split_ifs <;> exact Decision.noConfusion

/-- A mutation that needs no count keeps an active administrator. -/
lemma validateUserMutation_ready {isActive : Bool} {roles : List Role} {effect' : Effect}
    (h : validateUserMutation isActive roles effect' = .ready effect context) :
    effect = effect' ∧ context = none ∧ isActive = true ∧ roles.any (·.name = "admin") = true := by
  unfold validateUserMutation at h
  split_ifs at h with hfixed hadmin
  cases h
  rw [Bool.and_eq_true] at hadmin
  exact ⟨rfl, rfl, hadmin⟩

lemma validateUserMutation_guard {isActive : Bool} {roles : List Role} {effect' : Effect}
    (h : validateUserMutation isActive roles effect' = .guard effect) : effect = effect' := by
  unfold validateUserMutation at h
  split_ifs at h
  cases h
  rfl

/-- The row and the time of revocation that the form of a user asks for. -/
lemma decideEdit_spec (env : Env) (db : Database) (user : User) (now : Time) (form : UserForm) :
    decideEdit env db user now form = .fail ∨
      ∃ row revokeAll isActive roles, row.isActive = isActive ∧ row.roles = roles ∧
        Writes (.editUser user.id form) now user row revokeAll none ∧
        decideEdit env db user now form =
          validateUserMutation isActive roles (.user row revokeAll none) := by
  unfold decideEdit
  cases resolveRoles db user.roles form.roles with
  | none => exact .inl rfl
  | some roles =>
    refine .inr ⟨_, _, _, roles, ?_, ?_, ?_, rfl⟩
    · rfl
    · rfl
    refine ⟨rfl, trivial, ?_, fun _ h => nomatch h⟩
    intro hrevokes
    apply if_pos
    rcases hrevokes with hpassword | hactive
    · exact .inr hpassword
    · exact .inl (by rw [hactive]; rfl)

theorem decide_ready {op : Op} (h : decide env db user now op = .ready effect context) :
    Ready op now user effect context := by
  cases op with
  | login name password token => exact decideLogin_ready h
  | authenticate | authenticateReadonly | logout => cases h
  | changePassword token current new => exact decideChangePassword_ready h
  | recoverAdmin name new environment project =>
    simp only [decide] at h
    split_ifs at h
    cases h
    exact .withPassword (.recoverAdmin name new environment project) trivial _ _
  | resetPassword id new =>
    cases h
    exact .withPassword (.resetPassword id new) trivial _ _
  | disableUser id =>
    cases h
    exact .written ⟨rfl, trivial, fun _ => rfl, fun _ h => nomatch h⟩
      (fun h => absurd rfl (h id)) (fun h => absurd rfl h)
  | enableUser id =>
    cases h
    refine .written ⟨rfl, trivial, False.elim, fun _ h => nomatch h⟩ ?_ (fun h => absurd rfl h)
    intro _ hadmin
    unfold User.activeAdmin at hadmin ⊢
    rw [Bool.and_eq_true] at hadmin
    exact hadmin.2
  | setUserRoles id names =>
    obtain ⟨rfl, rfl, hactive, hadmin⟩ := validateUserMutation_ready h
    refine .written ⟨rfl, trivial, False.elim, fun _ h => nomatch h⟩ ?_ (fun h => absurd rfl h)
    intro _ _
    exact Bool.and_eq_true_iff.mpr ⟨hactive, hadmin⟩
  | editUser id form =>
    change decideEdit env db user now form = _ at h
    obtain hfail | ⟨row, revokeAll, isActive, roles, hisActive, hroles, hwrites, heq⟩ :=
      decideEdit_spec env db user now form
    · rw [hfail] at h
      cases h
    · rw [heq] at h
      obtain ⟨rfl, rfl, hactive, hadmin⟩ := validateUserMutation_ready h
      refine .written ⟨hwrites.id, trivial, hwrites.revokes, hwrites.limited⟩ ?_ (fun h => absurd rfl h)
      intro _ _
      rw [← hisActive] at hactive
      rw [← hroles] at hadmin
      exact Bool.and_eq_true_iff.mpr ⟨hactive, hadmin⟩

theorem decide_guard {op : Op} (h : decide env db user now op = .guard effect) :
    Guarded op now user effect := by
  cases op with
  | login name password token => exact absurd h decideLogin_not_guard
  | authenticate | authenticateReadonly | logout | resetPassword | disableUser | enableUser => cases h
  | changePassword token current new => exact absurd h decideChangePassword_not_guard
  | recoverAdmin name new environment project =>
    simp only [decide] at h
    split_ifs at h
  | setUserRoles id names =>
    rw [validateUserMutation_guard h]
    exact .written ⟨rfl, trivial, False.elim, fun _ h => nomatch h⟩
  | editUser id form =>
    change decideEdit env db user now form = _ at h
    obtain hfail | ⟨row, revokeAll, isActive, roles, hisActive, hroles, hwrites, heq⟩ :=
      decideEdit_spec env db user now form
    · rw [hfail] at h
      cases h
    · rw [heq] at h
      rw [validateUserMutation_guard h]
      exact .written ⟨hwrites.id, trivial, hwrites.revokes, hwrites.limited⟩

end Deciding

/-! ### The writes of a commit -/

/-- What no write changes in a session. -/
structure UserSession.Continues (r r' : UserSession) : Prop where
  tokenHash : r'.tokenHash = r.tokenHash
  userId : r'.userId = r.userId
  absoluteExpiresAt : r'.absoluteExpiresAt = r.absoluteExpiresAt
  revoked : r.revokedAt ≠ none → r'.revokedAt ≠ none

lemma UserSession.Continues.refl (r : UserSession) : r.Continues r := ⟨rfl, rfl, rfl, id⟩

lemma UserSession.Continues.trans {r r' r'' : UserSession} (h : r.Continues r')
    (h' : r'.Continues r'') : r.Continues r'' where
  tokenHash := h'.tokenHash.trans h.tokenHash
  userId := h'.userId.trans h.userId
  absoluteExpiresAt := h'.absoluteExpiresAt.trans h.absoluteExpiresAt
  revoked := fun hr => h'.revoked (h.revoked hr)

/-- The sessions that a write revokes. -/
def Effect.Covers (effect : Effect) (r : UserSession) : Prop :=
  match effect with
  | .revoke tokenHash _ => r.tokenHash = tokenHash
  | .user row (some _) _ => r.userId = row.id
  | _ => False

section Writing

variable {db db' : Database} {effect : Effect}

/-- The parts of a write to the row of a user. -/
lemma apply_user {row : User} {revokeAll : Option Time} {session : Option UserSession}
    (h : (Effect.user row revokeAll session).apply db = some db') :
    db'.users = db.users.set row ∧ db'.roles = db.roles ∧
      (session = none ∧ db'.sessions =
          revokeAll.elim db.sessions (revokeUserSessions db.sessions row.id) ∨
        ∃ r, session = some r ∧ db'.sessions.rows =
          (revokeAll.elim db.sessions (revokeUserSessions db.sessions row.id)).rows ++ [r]) := by
  simp only [Effect.apply] at h
  split_ifs at h
  obtain ⟨sessions, hsessions, rfl⟩ := Option.map_eq_some_iff.mp h
  refine ⟨rfl, rfl, ?_⟩
  cases session with
  | none => exact .inl ⟨rfl, (Option.some.inj hsessions).symm⟩
  | some r => exact .inr ⟨r, rfl, (Table.insert?_some hsessions).1⟩

/-- A session behind an update that continues every session it touches. -/
lemma update_continues {sessions : Table UserSession.tokenHash} (p : UserSession → Bool)
    (f : UserSession → UserSession) (hf : ∀ r, (f r).tokenHash = r.tokenHash)
    (hcontinues : ∀ r : UserSession, r.Continues (f r)) {r : UserSession} (hr : r ∈ sessions) :
    ∃ r' ∈ sessions.update p f hf, r.Continues r' ∧ (p r = true → r' = f r) := by
  refine ⟨_, Table.mem_update.mpr ⟨r, hr, rfl⟩, ?_⟩
  split_ifs with hp
  · exact ⟨hcontinues r, fun _ => rfl⟩
  · exact ⟨.refl r, fun h => absurd h hp⟩

/-- A session in front of such an update. -/
lemma update_continued {sessions : Table UserSession.tokenHash} (p : UserSession → Bool)
    (f : UserSession → UserSession) (hf : ∀ r, (f r).tokenHash = r.tokenHash)
    (hcontinues : ∀ r : UserSession, r.Continues (f r)) {r' : UserSession}
    (hr' : r' ∈ sessions.update p f hf) :
    ∃ r ∈ sessions, r.Continues r' ∧ (r' = r ∨ p r = true ∧ r' = f r) := by
  obtain ⟨r, hr, rfl⟩ := Table.mem_update.mp hr'
  refine ⟨r, hr, ?_⟩
  split_ifs with hp
  · exact ⟨hcontinues r, .inr ⟨hp, rfl⟩⟩
  · exact ⟨.refl r, .inl rfl⟩

lemma revoke_continues (now : Time) (r : UserSession) :
    r.Continues { r with revokedAt := some now } := ⟨rfl, rfl, rfl, fun _ h => nomatch h⟩

lemma revokeUserSessions_continues {sessions : Table UserSession.tokenHash} {userId : Nat}
    {now : Time} {r : UserSession} (hr : r ∈ sessions) :
    ∃ r' ∈ revokeUserSessions sessions userId now, r.Continues r' ∧
      (r.userId = userId → r'.revokedAt ≠ none) := by
  obtain ⟨r', hr', hcontinues, hrevoked⟩ :=
    update_continues (fun r => r.userId = userId && r.revokedAt.isNone)
      (fun r => { r with revokedAt := some now }) (fun _ => rfl) (revoke_continues now) hr
  refine ⟨r', hr', hcontinues, ?_⟩
  intro huser
  by_cases hopen : r.revokedAt = none
  · rw [hrevoked (by simp [huser, hopen])]
    exact Option.some_ne_none now
  · exact hcontinues.revoked hopen

lemma revokeUserSessions_continued {sessions : Table UserSession.tokenHash} {userId : Nat}
    {now : Time} {r' : UserSession} (hr' : r' ∈ revokeUserSessions sessions userId now) :
    ∃ r ∈ sessions, r.Continues r' ∧ r'.expiresAt = r.expiresAt := by
  obtain ⟨r, hr, hcontinues, heq⟩ :=
    update_continued (fun r => r.userId = userId && r.revokedAt.isNone)
      (fun r => { r with revokedAt := some now }) (fun _ => rfl) (revoke_continues now) hr'
  refine ⟨r, hr, hcontinues, ?_⟩
  rcases heq with rfl | ⟨-, rfl⟩ <;> rfl

lemma touch_continues (lastSeenAt expiresAt : Time) (r : UserSession) :
    r.Continues { r with lastSeenAt := lastSeenAt, expiresAt := expiresAt } := ⟨rfl, rfl, rfl, id⟩

/-- Every session continues through a commit, and the sessions that the write covers are revoked. -/
theorem apply_continues (h : effect.apply db = some db') {r : UserSession} (hr : r ∈ db.sessions) :
    ∃ r' ∈ db'.sessions, r.Continues r' ∧ (effect.Covers r → r'.revokedAt ≠ none) := by
  cases effect with
  | none =>
    cases h
    exact ⟨r, hr, .refl r, False.elim⟩
  | touch tokenHash lastSeenAt expiresAt =>
    cases h
    obtain ⟨r', hr', hcontinues, -⟩ := update_continues (fun r => r.tokenHash = tokenHash)
      (fun r => { r with lastSeenAt := lastSeenAt, expiresAt := expiresAt }) (fun _ => rfl)
      (touch_continues lastSeenAt expiresAt) hr
    exact ⟨r', hr', hcontinues, False.elim⟩
  | revoke tokenHash now =>
    cases h
    obtain ⟨r', hr', hcontinues, hrevoked⟩ := update_continues (fun r => r.tokenHash = tokenHash)
      (fun r => { r with revokedAt := some now }) (fun _ => rfl) (revoke_continues now) hr
    refine ⟨r', hr', hcontinues, ?_⟩
    intro hcovers
    rw [hrevoked (decide_eq_true hcovers)]
    exact Option.some_ne_none now
  | user row revokeAll session =>
    -- the sessions before the new one is inserted
    have hrevoked : ∃ r' ∈ revokeAll.elim db.sessions (revokeUserSessions db.sessions row.id),
        r.Continues r' ∧ ((Effect.user row revokeAll session).Covers r → r'.revokedAt ≠ none) := by
      cases revokeAll with
      | none => exact ⟨r, hr, .refl r, False.elim⟩
      | some now => exact revokeUserSessions_continues hr
    obtain ⟨r', hr', hcontinues⟩ := hrevoked
    refine ⟨r', ?_, hcontinues⟩
    obtain ⟨-, -, ⟨-, heq⟩ | ⟨_, -, hrows⟩⟩ := apply_user h
    · rw [heq]
      exact hr'
    · exact (Table.mem_of_rows_append hrows).mpr (.inl hr')

/-- Where the sessions after a commit come from. -/
theorem mem_sessions_written (h : effect.apply db = some db') {r' : UserSession}
    (hr' : r' ∈ db'.sessions) :
    (∃ r ∈ db.sessions, r.Continues r' ∧ (r'.expiresAt = r.expiresAt ∨
        ∃ lastSeenAt, effect = .touch r.tokenHash lastSeenAt r'.expiresAt)) ∨
      ∃ row revokeAll, effect = .user row revokeAll (some r') := by
  cases effect with
  | none =>
    cases h
    exact .inl ⟨r', hr', .refl r', .inl rfl⟩
  | touch tokenHash lastSeenAt expiresAt =>
    cases h
    obtain ⟨r, hr, hcontinues, heq⟩ := update_continued (fun r => r.tokenHash = tokenHash)
      (fun r => { r with lastSeenAt := lastSeenAt, expiresAt := expiresAt }) (fun _ => rfl)
      (touch_continues lastSeenAt expiresAt) hr'
    refine .inl ⟨r, hr, hcontinues, ?_⟩
    rcases heq with rfl | ⟨htoken, rfl⟩
    · exact .inl rfl
    · rw [of_decide_eq_true htoken]
      exact .inr ⟨lastSeenAt, rfl⟩
  | revoke tokenHash now =>
    cases h
    obtain ⟨r, hr, hcontinues, heq⟩ := update_continued (fun r => r.tokenHash = tokenHash)
      (fun r => { r with revokedAt := some now }) (fun _ => rfl) (revoke_continues now) hr'
    refine .inl ⟨r, hr, hcontinues, .inl ?_⟩
    rcases heq with rfl | ⟨-, rfl⟩ <;> rfl
  | user row revokeAll session =>
    have hrevoked : r' ∈ revokeAll.elim db.sessions (revokeUserSessions db.sessions row.id) →
        ∃ r ∈ db.sessions, r.Continues r' ∧ r'.expiresAt = r.expiresAt := by
      intro hmem
      cases revokeAll with
      | none => exact ⟨r', hmem, .refl r', rfl⟩
      | some now => exact revokeUserSessions_continued hmem
    obtain ⟨-, -, ⟨-, heq⟩ | ⟨new, hnew, hrows⟩⟩ := apply_user h
    · rw [heq] at hr'
      obtain ⟨r, hr, hcontinues, hexpires⟩ := hrevoked hr'
      exact .inl ⟨r, hr, hcontinues, .inl hexpires⟩
    · rcases (Table.mem_of_rows_append hrows).mp hr' with hold | rfl
      · obtain ⟨r, hr, hcontinues, hexpires⟩ := hrevoked hold
        exact .inl ⟨r, hr, hcontinues, .inl hexpires⟩
      · rw [hnew]
        exact .inr ⟨row, revokeAll, rfl⟩

/-- The row that a commit writes, when it writes one. -/
def Effect.row? : Effect → Option User
  | .user row _ _ => some row
  | .none | .touch _ _ _ | .revoke _ _ => Option.none

theorem apply_users (h : effect.apply db = some db') :
    db'.users = effect.row?.elim db.users db.users.set ∧ db'.roles = db.roles := by
  cases effect with
  | none | touch | revoke =>
    cases h
    exact ⟨rfl, rfl⟩
  | user row revokeAll session =>
    obtain ⟨husers, hroles, -⟩ := apply_user h
    exact ⟨husers, hroles⟩

end Writing

end ChatBI.Auth
