import ChatBI.Auth.Transactions

/-!
# What a statement of a transaction can do

One case for every way in which a statement moves its transaction on, and for every way in which an
action changes the state.
-/

namespace ChatBI.Auth

open ChatBI.Lib

/-- The statements after which a transaction goes on. -/
inductive Goes (env : Env) (s : State) (tx : Tx) : Tx → Prop
  | revoking {token : String} {record : UserSession} (phase : tx.phase = .begun)
      (op : tx.op = .logout token)
      (read : s.db.sessions.find? (env.hashToken token) = some record)
      (open_ : record.revokedAt = none) :
      Goes env s tx (tx.enter (.ready (.revoke record.tokenHash tx.now) none))
  | found {token : String} {record : UserSession} (phase : tx.phase = .begun)
      (op : tx.op.token? = some token)
      (read : s.db.sessions.find? (env.hashToken token) = some record)
      (open_ : record.revokedAt = none) : Goes env s tx (tx.enter (.found record))
  | authenticated {token : String} {record : UserSession} {context : AuthContext}
      (phase : tx.phase = .found record) (op : tx.op = .authenticate token) :
      Goes env s tx (tx.enter (.ready (.touch record.tokenHash tx.now
        (min (tx.now + idleTtl) record.absoluteExpiresAt)) (some context)))
  | authenticatedReadonly {token : String} {record : UserSession} {context : AuthContext}
      (phase : tx.phase = .found record) (op : tx.op = .authenticateReadonly token) :
      Goes env s tx (tx.enter (.ready .none (some context)))
  | checked {record : UserSession} (phase : tx.phase = .found record) :
      Goes env s tx (tx.enter (.checked record))
  | selected {user : User} (phase : tx.phase = .begun) (op : tx.op.token? = none)
      (read : tx.op.row? env s.db = some user) (free : s.Free tx (.user user.id)) :
      Goes env s tx (tx.acquire (.user user.id) (.locked user))
  | joined {record : UserSession} {user : User} (phase : tx.phase = .checked record)
      (read : s.db.users.find? record.userId = some user) (free : s.Free tx (.user user.id)) :
      Goes env s tx (tx.acquire (.user user.id) (.locked user))
  | decided {user : User} {effect : Effect} {context : Option AuthContext}
      (phase : tx.phase = .locked user)
      (decision : decide env s.db user tx.now tx.op = .ready effect context) :
      Goes env s tx (tx.enter (.ready effect context))
  | guarded {user : User} {effect : Effect} (phase : tx.phase = .locked user)
      (decision : decide env s.db user tx.now tx.op = .guard effect) (free : s.Free tx .adminRole) :
      Goes env s tx (tx.acquire .adminRole (.guarding user effect))
  | counted {user : User} {effect : Effect} (phase : tx.phase = .guarding user effect)
      (other : ∃ other ∈ s.db.users, other.activeAdmin ∧ other.id ≠ user.id) :
      Goes env s tx (tx.enter (.ready effect none))

section Statements

variable {env : Env} {s : State} {tx tx' : Tx}

lemma lockUser_goes {user? : Option User} (h : s.lockUser tx user? = .goes tx') :
    ∃ user, user? = some user ∧ s.Free tx (.user user.id) ∧
      tx' = tx.acquire (.user user.id) (.locked user) := by
  unfold State.lockUser at h
  split at h
  · cases h
  · rename_i user
    split at h
    · rename_i hfree
      cases h
      exact ⟨user, rfl, hfree, rfl⟩
    · cases h

lemma readSession_goes {token : String} (hphase : tx.phase = .begun)
    (hop : tx.op.token? = some token) (h : s.readSession env tx token = .goes tx') :
    Goes env s tx tx' := by
  unfold State.readSession at h
  split at h
  · cases h
  · rename_i record hread
    split at h
    · cases h
    · rename_i hopen
      have hnone : record.revokedAt = none := Decidable.not_not.mp hopen
      split at h
      · rename_i token' hlogout
        have htoken : token = token' := by
          rw [hlogout] at hop
          exact (Option.some.inj hop).symm
        subst htoken
        cases h
        exact .revoking hphase hlogout hread hnone
      · cases h
        exact .found hphase hop hread hnone

lemma checkSession_goes {record : UserSession} (hphase : tx.phase = .found record)
    (h : s.checkSession tx record = .goes tx') : Goes env s tx tx' := by
  unfold State.checkSession at h
  split at h
  · cases h
  · split at h
    · cases h
    · split at h
      · rename_i token hop
        cases h
        exact .authenticated hphase hop
      · rename_i token hop
        cases h
        exact .authenticatedReadonly hphase hop
      · cases h
        exact .checked hphase

lemma decideLocked_goes {user : User} (hphase : tx.phase = .locked user)
    (h : s.decideLocked env tx user = .goes tx') : Goes env s tx tx' := by
  unfold State.decideLocked at h
  split at h
  · cases h
  · rename_i hdecision
    cases h
    exact .decided hphase hdecision
  · rename_i hdecision
    unfold State.lockAdminRole at h
    split at h
    · cases h
    · rename_i hfree
      split at h
      · cases h
        exact .guarded hphase hdecision (Decidable.not_not.mp hfree)
      · cases h

lemma countAdmins_goes {user : User} {effect : Effect} (hphase : tx.phase = .guarding user effect)
    (h : s.countAdmins tx user effect = .goes tx') : Goes env s tx tx' := by
  unfold State.countAdmins at h
  split at h
  · rename_i hother
    cases h
    exact .counted hphase hother
  · cases h

theorem statement_goes (h : s.statement env tx = .goes tx') : Goes env s tx tx' := by
  unfold State.statement at h
  split at h
  · rename_i hphase
    split at h
    · rename_i token hop
      exact readSession_goes hphase hop h
    · rename_i hop
      obtain ⟨user, hread, hfree, rfl⟩ := lockUser_goes h
      exact .selected hphase hop hread hfree
  · rename_i hphase
    exact checkSession_goes hphase h
  · rename_i hphase
    obtain ⟨user, hread, hfree, rfl⟩ := lockUser_goes h
    exact .joined hphase hread hfree
  · rename_i hphase
    exact decideLocked_goes hphase h
  · rename_i hphase
    exact countAdmins_goes hphase h
  · cases h

end Statements

/-- What a statement keeps of its transaction, and the lock that it takes. -/
structure Tx.Same (s : State) (tx tx' : Tx) : Prop where
  id : tx'.id = tx.id
  op : tx'.op = tx.op
  now : tx'.now = tx.now
  held : ∀ lock ∈ tx.locks, lock ∈ tx'.locks
  taken : ∀ lock ∈ tx'.locks, lock ∈ tx.locks ∨ s.Free tx lock
  moved : tx'.phase ≠ .begun

lemma Tx.Same.enter {s : State} {tx : Tx} {phase : Phase} (hphase : phase ≠ .begun) :
    tx.Same s (tx.enter phase) :=
  ⟨rfl, rfl, rfl, fun _ h => h, fun _ h => .inl h, hphase⟩

lemma Tx.Same.acquire {s : State} {tx : Tx} {lock : Lock} {phase : Phase} (free : s.Free tx lock)
    (hphase : phase ≠ .begun) : tx.Same s (tx.acquire lock phase) where
  id := rfl
  op := rfl
  now := rfl
  held := fun _ h => List.mem_cons_of_mem _ h
  taken := by
    intro lock' h
    rcases List.mem_cons.mp h with rfl | h
    · exact .inr free
    · exact .inl h
  moved := hphase

lemma Goes.same {env : Env} {s : State} {tx tx' : Tx} (h : Goes env s tx tx') : tx.Same s tx' := by
  cases h with
  | selected _ _ _ free => exact .acquire free Phase.noConfusion
  | joined _ _ free => exact .acquire free Phase.noConfusion
  | guarded _ _ free => exact .acquire free Phase.noConfusion
  | _ => exact .enter Phase.noConfusion

/-- The actions on a state. -/
inductive Step (env : Env) (s : State) : Action → State → Prop
  | started {id : Nat} {op : Op} {now : Time} {txs : Table Tx.id} (valid : op.Valid env)
      (rows : txs.rows = s.txs.rows ++ [⟨id, op, now, .begun, []⟩]) :
      Step env s (.start id op now) { s with txs := txs }
  | committed {tx : Tx} {effect : Effect} {context : Option AuthContext} {db : Database}
      (mem : tx ∈ s.txs) (phase : tx.phase = .ready effect context)
      (written : effect.apply s.db = some db) : Step env s (.run tx.id) ⟨db, s.close tx⟩
  | went {tx tx' : Tx} (mem : tx ∈ s.txs) (unready : tx.phase.isReady = false)
      (goes : Goes env s tx tx') :
      Step env s (.run tx.id) { s with txs := s.txs.set tx' }
  | ended {tx : Tx} (mem : tx ∈ s.txs) (unready : tx.phase.isReady = false) :
      Step env s (.run tx.id) { s with txs := s.close tx }
  | aborted {tx : Tx} (mem : tx ∈ s.txs) : Step env s (.abort tx.id) { s with txs := s.close tx }

theorem next_step {env : Env} {s t : State} {a : Action} (h : next env s a = some t) :
    Step env s a t := by
  cases a with
  | start id op now =>
    simp only [next, Option.ite_none_right_eq_some, Option.map_eq_some_iff] at h
    obtain ⟨hvalid, txs, hinsert, rfl⟩ := h
    exact .started hvalid (Table.insert?_some hinsert).1
  | run id =>
    obtain ⟨tx, hfind, hrun⟩ := Option.bind_eq_some_iff.mp h
    obtain ⟨hmem, rfl⟩ := Table.find?_eq_some_iff.mp hfind
    split at hrun
    · rename_i hphase
      obtain ⟨db, hwritten, rfl⟩ := Option.map_eq_some_iff.mp hrun
      exact .committed hmem hphase hwritten
    · rename_i hphase
      have hunready : tx.phase.isReady = false := by
        cases hcase : tx.phase with
        | ready effect context => exact absurd hcase (hphase effect context)
        | _ => rfl
      split at hrun
      · cases hrun
      · cases hrun
        exact .ended hmem hunready
      · rename_i tx' hgoes
        cases hrun
        exact .went hmem hunready (statement_goes hgoes)
  | abort id =>
    obtain ⟨tx, hfind, rfl⟩ := Option.map_eq_some_iff.mp h
    obtain ⟨hmem, rfl⟩ := Table.find?_eq_some_iff.mp hfind
    exact .aborted hmem

lemma mem_close {s : State} {tx other : Tx} :
    other ∈ s.close tx ↔ other ∈ s.txs ∧ other.id ≠ tx.id := by
  unfold State.close
  rw [Table.mem_delete, decide_eq_false_iff_not]

/-- Where the transactions after a step come from. -/
lemma Step.mem {env : Env} {s t : State} {a : Action} (h : Step env s a t) {tx : Tx}
    (htx : tx ∈ t.txs) :
    tx ∈ s.txs ∨ tx.phase = .begun ∧ tx.locks = [] ∨
      ∃ tx₀ ∈ s.txs, Goes env s tx₀ tx ∧ t.db = s.db := by
  cases h with
  | started _ rows =>
    rcases (Table.mem_of_rows_append rows).mp htx with htx | rfl
    · exact .inl htx
    · exact .inr (.inl ⟨rfl, rfl⟩)
  | committed => exact .inl (mem_close.mp htx).1
  | went mem _ goes =>
    rcases (Table.mem_set mem goes.same.id).mp htx with rfl | ⟨htx, -⟩
    · exact .inr (.inr ⟨_, mem, goes, rfl⟩)
    · exact .inl htx
  | ended => exact .inl (mem_close.mp htx).1
  | aborted => exact .inl (mem_close.mp htx).1

/-! ### Locks -/

/-- No lock is held by two transactions. -/
def State.Exclusive (s : State) : Prop :=
  ∀ a ∈ s.txs, ∀ b ∈ s.txs, ∀ lock ∈ a.locks, lock ∈ b.locks → a = b

lemma State.Exclusive.mono {s t : State} (h : s.Exclusive) (hmem : ∀ tx ∈ t.txs, tx ∈ s.txs) :
    t.Exclusive := fun a ha b hb => h a (hmem a ha) b (hmem b hb)

lemma State.Exclusive.started {s t : State} (h : s.Exclusive) {tx : Tx}
    (rows : t.txs.rows = s.txs.rows ++ [tx]) (hlocks : tx.locks = []) : t.Exclusive := by
  have hold : ∀ a ∈ t.txs, ∀ lock ∈ a.locks, a ∈ s.txs := by
    intro a ha lock hlock
    rcases (Table.mem_of_rows_append rows).mp ha with ha | rfl
    · exact ha
    · rw [hlocks] at hlock
      cases hlock
  intro a ha b hb lock hla hlb
  exact h a (hold a ha lock hla) b (hold b hb lock hlb) lock hla hlb

lemma State.Exclusive.went {s : State} (h : s.Exclusive) {tx tx' : Tx} (htx : tx ∈ s.txs)
    (hsame : tx.Same s tx') : ({ s with txs := s.txs.set tx' } : State).Exclusive := by
  -- the lock of the new transaction against another one
  have hother : ∀ b ∈ s.txs, b.id ≠ tx'.id → ∀ lock ∈ tx'.locks, lock ∉ b.locks := by
    intro b hb hne lock hlock hlb
    rw [hsame.id] at hne
    rcases hsame.taken lock hlock with hheld | hfree
    · exact hne (congrArg Tx.id (h tx htx b hb lock hheld hlb).symm)
    · exact hne (hfree b hb hlb)
  intro a ha b hb lock hla hlb
  rcases (Table.mem_set htx hsame.id).mp ha with rfl | ⟨ha', hna⟩ <;>
    rcases (Table.mem_set htx hsame.id).mp hb with rfl | ⟨hb', hnb⟩
  · rfl
  · exact absurd hlb (hother b hb' hnb lock hla)
  · exact absurd hla (hother a ha' hna lock hlb)
  · exact h a ha' b hb' lock hla hlb

theorem Step.exclusive {env : Env} {s t : State} {a : Action} (h : Step env s a t)
    (hs : s.Exclusive) : t.Exclusive := by
  cases h with
  | started _ rows => exact hs.started rows rfl
  | committed => exact hs.mono (fun tx htx => (mem_close.mp htx).1)
  | went mem _ goes => exact hs.went mem goes.same
  | ended => exact hs.mono (fun tx htx => (mem_close.mp htx).1)
  | aborted => exact hs.mono (fun tx htx => (mem_close.mp htx).1)

end ChatBI.Auth
