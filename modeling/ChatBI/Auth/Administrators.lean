import ChatBI.Auth.Sound

/-!
# The last administrator

A mutation that takes the role or the account from an administrator counts the others behind the
lock of the role. `disable_user` does not: the accounts keep an active administrator as long as it
is not called on the last one.
-/

namespace ChatBI.Auth

open ChatBI.Lib

/-- Some account can administer the others. -/
def State.Administered (s : State) : Prop := ∃ u ∈ s.db.users, u.activeAdmin = true

instance (s : State) : Decidable s.Administered :=
  inferInstanceAs (Decidable (∃ u ∈ s.db.users, u.activeAdmin = true))

/-- No transaction has begun and there is an active administrator. -/
def State.Opened (s : State) : Prop := s.txs = .empty ∧ s.Administered

/-- A transaction that has counted the other administrators and has not committed. -/
def Tx.Counted (tx : Tx) : Prop := tx.phase.isReady ∧ .adminRole ∈ tx.locks

instance : DecidablePred Tx.Counted := fun _ => inferInstanceAs (Decidable (_ ∧ _))

/-- `disable_user` finds the account no active administrator, or it leaves one that no transaction
past its count is about to remove. -/
def State.Spares (s : State) (userId : Nat) : Prop :=
  (∀ u ∈ s.db.users, u.id = userId → u.activeAdmin = false) ∨
    ∃ v ∈ s.db.users, v.activeAdmin = true ∧ v.id ≠ userId ∧
      ∀ tx ∈ s.txs, tx.Counted → .user v.id ∉ tx.locks

instance (s : State) (userId : Nat) : Decidable (s.Spares userId) :=
  inferInstanceAs (Decidable ((∀ u ∈ s.db.users, u.id = userId → u.activeAdmin = false) ∨
    ∃ v ∈ s.db.users, v.activeAdmin = true ∧ v.id ≠ userId ∧
      ∀ tx ∈ s.txs, tx.Counted → .user v.id ∉ tx.locks))

/-- The account that an operation disables without a count. -/
def Op.disabled? : Op → Option Nat
  | .disableUser userId => some userId
  | _ => none

/-- Every commit of `disable_user` spares an administrator. -/
def SparingStep (s : State) (a : Action) : Prop :=
  ∀ tx ∈ s.txs, a = .run tx.id → tx.phase.isReady → ∀ userId ∈ tx.op.disabled?, s.Spares userId

instance (s : State) (a : Action) : Decidable (SparingStep s a) :=
  inferInstanceAs (Decidable (∀ tx ∈ s.txs, a = .run tx.id → tx.phase.isReady →
    ∀ userId ∈ tx.op.disabled?, s.Spares userId))

lemma SparingStep.spares {s : State} {tx : Tx} {effect : Effect} {context : Option AuthContext}
    (h : SparingStep s (.run tx.id)) (htx : tx ∈ s.txs) (hphase : tx.phase = .ready effect context)
    (userId : Nat) (hop : tx.op = .disableUser userId) : s.Spares userId := by
  apply h tx htx rfl
  · rw [hphase]
    rfl
  · rw [hop]
    rfl

/-- Behind a mutation that has counted stands another active administrator. -/
structure Tx.Backed (db : Database) (tx : Tx) (row : User) : Prop where
  role : .adminRole ∈ tx.locks
  lock : .user row.id ∈ tx.locks
  other : ∃ v ∈ db.users, v.activeAdmin = true ∧ v.id ≠ row.id

/-- A write that is ready keeps its user an administrator or another one stands behind it. -/
def State.Backed (env : Env) (s : State) : Prop :=
  ∀ tx ∈ s.txs, ∀ effect context row, tx.phase = .ready effect context →
    effect.row? = some row →
    (∃ user, tx.Holds env s.db user ∧ Ready tx.op tx.now user effect context) ∨
      tx.Backed s.db row

/-- The users behind a commit. -/
lemma mem_users_written {env : Env} {s : State} {tx : Tx} {effect : Effect}
    {context : Option AuthContext} {db : Database} (hsound : s.Sound env) (htx : tx ∈ s.txs)
    (hphase : tx.phase = .ready effect context) (hwritten : effect.apply s.db = some db)
    {row : User} (hrow : effect.row? = some row) {u : User} :
    u ∈ db.users ↔ u = row ∨ u ∈ s.db.users ∧ u.id ≠ row.id := by
  have hready := hsound tx htx
  rw [hphase] at hready
  obtain ⟨user, holds, hid⟩ := hready.row hrow
  rw [(apply_users hwritten).1, hrow]
  exact Table.mem_set holds.mem hid

/-- The row that a decision without a count writes for an active administrator. -/
lemma Ready.keeps {op : Op} {now : Time} {user row : User} {effect : Effect}
    {context : Option AuthContext} (h : Ready op now user effect context)
    (hrow : effect.row? = some row) : row.id = user.id ∧
      ((∀ id, op ≠ .disableUser id) → user.activeAdmin = true → row.activeAdmin = true) := by
  cases h with
  | refused => cases hrow
  | written writes keeps =>
    cases hrow
    exact ⟨writes.id, keeps⟩

/-- An administrator that a set of locks does not name outlives a commit which spares one. -/
lemma admin_outlives {env : Env} {s : State} {tx : Tx} {effect : Effect}
    {context : Option AuthContext} {db : Database} (hsound : s.Sound env)
    (hbacked : s.Backed env) (htx : tx ∈ s.txs) (hphase : tx.phase = .ready effect context)
    (hwritten : effect.apply s.db = some db)
    (hspares : ∀ userId, tx.op = .disableUser userId → s.Spares userId) (avoided : Nat → Prop)
    (hcounted : (∀ id, ¬avoided id) ∨ .adminRole ∉ tx.locks)
    (havoided : ∀ v, (∀ other ∈ s.txs, other.Counted → .user v ∉ other.locks) → ¬avoided v)
    (hadmin : ∃ v ∈ s.db.users, v.activeAdmin = true ∧ ¬avoided v.id) :
    ∃ v ∈ db.users, v.activeAdmin = true ∧ ¬avoided v.id := by
  obtain ⟨v, hv, hvadmin, hvavoided⟩ := hadmin
  cases hrow : effect.row? with
  | none =>
    rw [(apply_users hwritten).1, hrow]
    exact ⟨v, hv, hvadmin, hvavoided⟩
  | some row =>
    have hmem : ∀ {u : User}, u ∈ db.users ↔ u = row ∨ u ∈ s.db.users ∧ u.id ≠ row.id :=
      mem_users_written hsound htx hphase hwritten hrow
    rcases hbacked tx htx effect context row hphase hrow with ⟨user, holds, hready⟩ | hback
    · obtain ⟨hid, hkeeps⟩ := hready.keeps hrow
      by_cases hdisable : ∃ id, tx.op = .disableUser id
      · obtain ⟨userId, hop⟩ := hdisable
        have huser : user.id = userId := by
          have haddressed := holds.addressed
          rw [hop] at haddressed
          exact haddressed
        rcases hspares userId hop with hquiet | ⟨w, hw, hwadmin, hne, hfree⟩
        · have hne : v.id ≠ row.id := by
            intro heq
            rw [hquiet v hv (heq.trans (hid.trans huser))] at hvadmin
            cases hvadmin
          exact ⟨v, hmem.mpr (.inr ⟨hv, hne⟩), hvadmin, hvavoided⟩
        · have hne' : w.id ≠ row.id := by rwa [hid, huser]
          exact ⟨w, hmem.mpr (.inr ⟨hw, hne'⟩), hwadmin, havoided w.id hfree⟩
      · by_cases heq : v.id = row.id
        · have hvuser : v = user := Table.eq_of_key hv holds.mem (heq.trans hid)
          subst hvuser
          refine ⟨row, hmem.mpr (.inl rfl), ?_, heq ▸ hvavoided⟩
          exact hkeeps (fun id hop => hdisable ⟨id, hop⟩) hvadmin
        · exact ⟨v, hmem.mpr (.inr ⟨hv, heq⟩), hvadmin, hvavoided⟩
    · rcases hcounted with hnone | hlock
      · obtain ⟨w, hw, hwadmin, hne⟩ := hback.other
        exact ⟨w, hmem.mpr (.inr ⟨hw, hne⟩), hwadmin, hnone w.id⟩
      · exact absurd hback.role hlock

/-- What holds of the administrators in every state. -/
structure State.Guards (env : Env) (s : State) : Prop extends State.Consistent env s where
  administered : s.Administered
  backed : s.Backed env

/-- A commit which spares an administrator. -/
lemma administered_committed {env : Env} {s : State} {tx : Tx} {effect : Effect}
    {context : Option AuthContext} {db : Database} (hs : s.Guards env) (htx : tx ∈ s.txs)
    (hphase : tx.phase = .ready effect context) (hwritten : effect.apply s.db = some db)
    (hspares : ∀ userId, tx.op = .disableUser userId → s.Spares userId) :
    ∃ v ∈ db.users, v.activeAdmin = true := by
  obtain ⟨u, hu, hadmin⟩ := hs.administered
  obtain ⟨v, hv, hvadmin, -⟩ := admin_outlives hs.sound hs.backed htx hphase hwritten hspares
    (fun _ => False) (.inl fun _ => id) (fun _ _ => id) ⟨u, hu, hadmin, id⟩
  exact ⟨v, hv, hvadmin⟩

/-- The administrator behind a mutation that has counted is still there after the commit of another
transaction. -/
lemma Tx.Backed.committed {env : Env} {s : State} {tx other : Tx} {effect effect' : Effect}
    {context context' : Option AuthContext} {db : Database} {row : User} (hs : s.Guards env)
    (htx : tx ∈ s.txs) (hphase : tx.phase = .ready effect context)
    (hwritten : effect.apply s.db = some db)
    (hspares : ∀ userId, tx.op = .disableUser userId → s.Spares userId)
    (hother : other ∈ s.txs) (hne : other.id ≠ tx.id)
    (hphase' : other.phase = .ready effect' context') (h : other.Backed s.db row) :
    other.Backed db row := by
  refine ⟨h.role, h.lock, ?_⟩
  have hfree : .adminRole ∉ tx.locks := by
    intro hrole
    exact hne (congrArg Tx.id (hs.exclusive other hother tx htx _ h.role hrole))
  refine admin_outlives hs.sound hs.backed htx hphase hwritten hspares (fun id => id = row.id)
    (.inr hfree) ?_ h.other
  intro v hv heq
  rw [heq] at hv
  exact hv other hother ⟨by rw [hphase']; rfl, h.role⟩ h.lock

/-- A statement that makes a write ready has decided it or has counted. -/
lemma Goes.backed {env : Env} {s : State} {tx tx' : Tx} (h : Goes env s tx tx')
    (hsound : tx.Sound env s.db tx.phase) {effect : Effect} {context : Option AuthContext}
    {row : User} (hphase : tx'.phase = .ready effect context) (hrow : effect.row? = some row) :
    (∃ user, tx'.Holds env s.db user ∧ Ready tx'.op tx'.now user effect context) ∨
      tx'.Backed s.db row := by
  cases h with
  | found | checked | selected | joined | guarded => cases hphase
  | revoking | authenticated | authenticatedReadonly =>
    cases hphase
    cases hrow
  | decided phase decision =>
    rw [phase] at hsound
    cases hphase
    cases hsound with
    | locked holds =>
      exact .inl ⟨_, ⟨holds.mem, holds.lock, holds.addressed⟩, decide_ready decision⟩
  | counted phase other =>
    rw [phase] at hsound
    cases hphase
    cases hsound with
    | guarding holds role guarded =>
      obtain ⟨writes⟩ := guarded
      cases hrow
      refine .inr ⟨role, ?_, ?_⟩
      · rw [writes.id]
        exact holds.lock
      · rw [writes.id]
        exact other

theorem Step.guards {env : Env} {s t : State} {a : Action} (h : Step env s a t)
    (hsparing : SparingStep s a) (hs : s.Guards env) : t.Guards env := by
  refine ⟨h.consistent hs.toConsistent, ?_, ?_⟩
  · cases h with
    | committed mem phase written =>
      exact administered_committed hs mem phase written (hsparing.spares mem phase)
    | started | went | ended | aborted => exact hs.administered
  · intro tx htx effect context row hphase hrow
    have hcontinues := h.continues
    cases h with
    | started _ rows =>
      rcases (Table.mem_of_rows_append rows).mp htx with htx | rfl
      · exact hs.backed tx htx effect context row hphase hrow
      · cases hphase
    | committed mem phase written =>
      obtain ⟨htx, hne⟩ := mem_close.mp htx
      rcases hs.backed tx htx effect context row hphase hrow with ⟨user, holds, hready⟩ | hback
      · refine .inl ⟨user, holds.evolve rfl (fun _ h => h) hcontinues ?_, hready⟩
        intro u hu hlock
        exact locked_kept hs.exclusive hs.sound mem phase written htx hne hu hlock
      · exact .inr (hback.committed hs mem phase written (hsparing.spares mem phase) htx
          hne hphase)
    | went mem _ goes =>
      rcases (Table.mem_set mem goes.same.id).mp htx with rfl | ⟨htx, -⟩
      · exact goes.backed (hs.sound _ mem) hphase hrow
      · exact hs.backed tx htx effect context row hphase hrow
    | ended => exact hs.backed tx (mem_close.mp htx).1 effect context row hphase hrow
    | aborted => exact hs.backed tx (mem_close.mp htx).1 effect context row hphase hrow

lemma State.Opened.guards {env : Env} {s : State} (h : s.Opened) : s.Guards env := by
  have hnone : ∀ tx, tx ∉ s.txs := by
    intro tx htx
    rw [h.1] at htx
    exact Table.not_mem_empty tx htx
  exact ⟨.of_idle h.1, h.2, fun tx htx => absurd htx (hnone tx)⟩

/-- Every state that is reached from one with an active administrator has one, when the commits of
`disable_user` spare an administrator. -/
theorem administered_of_sparing (env : Env) {s : State}
    (h : ((system env State.Opened).restrict SparingStep).Reachable s) : s.Administered := by
  have hguards : s.Guards env := by
    refine System.Reachable.invariant ?_ ?_ h
    · intro s hinit
      exact State.Opened.guards hinit
    · intro s a t hs hstep
      exact (next_step hstep.2).guards hstep.1 hs
  exact hguards.administered

def adminRole : Role := ⟨1, "admin", ["admin.users"]⟩

def adminUser (id : Nat) (username : String) : User where
  id := id
  username := username
  passwordHash := ""
  isActive := true
  mustChangePassword := false
  failedLoginCount := 0
  lockedUntil := none
  updatedAt := 0
  roles := [adminRole]

/-- Two administrators, no session. -/
def twoAdmins : State where
  db := ⟨[adminRole], ⟨[adminUser 1 "a", adminUser 2 "b"], by decide⟩, .empty, by decide⟩
  txs := .empty

def oneAdmin : State where
  db := ⟨[adminRole], ⟨[adminUser 1 "a"], by decide⟩, .empty, by decide⟩
  txs := .empty

/-- The state after actions that all spare an administrator. -/
def sparingRun (s : State) (actions : List Action) : Option State :=
  System.exec (next plainEnv) (fun s a => Decidable.decide (SparingStep s a)) s actions

/-- One administrator loses the role, then the account is disabled. -/
def demotion : List Action :=
  [.start 0 (.setUserRoles 2 []) 0, .run 0, .run 0, .run 0, .run 0,
    .start 1 (.disableUser 2) 5, .run 1, .run 1, .run 1]

theorem administered_of_sparing_demoted :
    ∃ s, sparingRun twoAdmins demotion = some s ∧ s.Administered := by
  have hrun : (sparingRun twoAdmins demotion).isSome = true := by decide
  obtain ⟨s, hs⟩ := Option.isSome_iff_exists.mp hrun
  have hsteps : ((system plainEnv State.Opened).restrict SparingStep).Run twoAdmins demotion s := by
    refine System.exec_run ?_ hs
    intro s a t hsparing hnext
    exact ⟨of_decide_eq_true hsparing, hnext⟩
  exact ⟨s, hs, administered_of_sparing plainEnv ⟨twoAdmins, demotion, ⟨rfl, by decide⟩, hsteps⟩⟩

/-- `disable_user` on the only active administrator. -/
theorem disable_last_admin : ∃ s, (system plainEnv State.Opened).Reachable s ∧ ¬s.Administered := by
  let actions : List Action := [.start 0 (.disableUser 1) 0, .run 0, .run 0, .run 0]
  have hrun : (System.exec (next plainEnv) (fun _ _ => true) oneAdmin actions).any
      (fun s => Decidable.decide (¬s.Administered)) = true := by decide
  obtain ⟨s, hs, hnone⟩ := (Option.any_eq_true _ _).mp hrun
  have hsteps : (system plainEnv State.Opened).Run oneAdmin actions s :=
    System.exec_run (fun _ _ _ _ hnext => hnext) hs
  exact ⟨s, ⟨oneAdmin, actions, ⟨rfl, by decide⟩, hsteps⟩, of_decide_eq_true hnone⟩

end ChatBI.Auth
