import ChatBI.Lib.Transition
import Mathlib.Data.Finset.Insert
import Mathlib.Data.Finset.Erase
import Mathlib.Data.List.Count
import Mathlib.Logic.Function.Basic

/-!
# The locks of the operations

`serialize_operation` keeps one lock object for every key that is in use, with the number of the
callers that refer to it. The condition of the runtime makes the two updates of the table atomic;
taking and releasing the lock itself happens outside of it.
-/

namespace ChatBI.Execution.OperationLocks

open ChatBI.Lib

/-- Where a caller stands: in front of `lock.acquire`, in the body, or behind it with the reference
not given back. -/
inductive Phase where
  | waiting
  | inside
  | leaving
  deriving DecidableEq

structure Caller (κ : Type) where
  key : κ
  lock : ℕ
  phase : Phase
  deriving DecidableEq

/-- The table, the number of lock objects that have been made, those that are locked, and the
callers between the first and the last statement. -/
structure State (κ : Type) where
  operationLocks : κ → Option (ℕ × ℕ)
  created : ℕ
  locked : Finset ℕ
  callers : List (Caller κ)

inductive Event (κ : Type) where
  | enter (key : κ)
  | acquire
  | interrupt
  | release
  | giveBack
  deriving DecidableEq

section Operations

variable {κ : Type} [DecidableEq κ]

/-- The first block: the lock of the key, or a new one, gets another reference. -/
def State.enter (s : State κ) (key : κ) : State κ :=
  let entry := (s.operationLocks key).getD (s.created, 0)
  { s with
    operationLocks := Function.update s.operationLocks key (some (entry.1, entry.2 + 1))
    created := s.created + 1
    callers := s.callers ++ [⟨key, entry.1, .waiting⟩] }

/-- The entry behind the last block, which reads the one before. -/
def givenBack (entry : ℕ × ℕ) : Option (ℕ × ℕ) :=
  if entry.2 = 1 then none else some (entry.1, entry.2 - 1)

/-- A step of one of the callers. Giving back the reference needs the entry of the key. -/
inductive Step (s : State κ) : Event κ → State κ → Prop
  | enter (key : κ) : Step s (.enter key) (s.enter key)
  | acquire {before after : List (Caller κ)} {c : Caller κ} (hcallers : s.callers = before ++ c :: after)
      (hphase : c.phase = .waiting) (hfree : c.lock ∉ s.locked) :
      Step s .acquire { s with
        locked := insert c.lock s.locked
        callers := before ++ { c with phase := .inside } :: after }
  | interrupt {before after : List (Caller κ)} {c : Caller κ}
      (hcallers : s.callers = before ++ c :: after) (hphase : c.phase = .waiting) :
      Step s .interrupt { s with callers := before ++ { c with phase := .leaving } :: after }
  | release {before after : List (Caller κ)} {c : Caller κ} (hcallers : s.callers = before ++ c :: after)
      (hphase : c.phase = .inside) (hlocked : c.lock ∈ s.locked) :
      Step s .release { s with
        locked := s.locked.erase c.lock
        callers := before ++ { c with phase := .leaving } :: after }
  | giveBack {before after : List (Caller κ)} {c : Caller κ} {entry : ℕ × ℕ}
      (hcallers : s.callers = before ++ c :: after) (hphase : c.phase = .leaving)
      (hentry : s.operationLocks c.key = some entry) :
      Step s .giveBack { s with
        operationLocks := Function.update s.operationLocks c.key (givenBack entry)
        callers := before ++ after }

def start : State κ := ⟨fun _ => none, 0, ∅, []⟩

/-- All callers of all keys. -/
def system (κ : Type) [DecidableEq κ] : System (State κ) (Event κ) where
  init s := s = start
  step := Step

/-- The callers of a key. -/
def callersOf (key : κ) (callers : List (Caller κ)) : ℕ := callers.countP (·.key = key)

/-- The callers of a key in a phase. -/
def phaseOf (key : κ) (phase : Phase) (callers : List (Caller κ)) : ℕ :=
  callers.countP fun c => c.key = key ∧ c.phase = phase

end Operations

/-- The callers that hold a lock object. -/
def holders {κ : Type} (lock : ℕ) (callers : List (Caller κ)) : ℕ :=
  callers.countP fun c => c.lock = lock ∧ c.phase = .inside

/-- The holders of a lock, around one caller. -/
lemma holders_split {κ : Type} (lock : ℕ) (before after : List (Caller κ)) (c : Caller κ) :
    holders lock (before ++ c :: after) =
      holders lock (before ++ after) + if c.lock = lock ∧ c.phase = .inside then 1 else 0 := by
  unfold holders
  rw [List.countP_append, List.countP_cons, List.countP_append, ← Nat.add_assoc]
  by_cases hc : c.lock = lock ∧ c.phase = .inside
  · rw [if_pos hc, if_pos (decide_eq_true hc)]
  · rw [if_neg hc, if_neg (by simpa using hc)]

/-- The lock that a caller of the key gets, with the references that it had. -/
def State.entryFor {κ : Type} (s : State κ) (key : κ) : ℕ × ℕ :=
  (s.operationLocks key).getD (s.created, 0)

lemma State.entryFor_none {κ : Type} {s : State κ} {key : κ} (h : s.operationLocks key = none) :
    s.entryFor key = (s.created, 0) := by
  unfold State.entryFor
  rw [h]
  rfl

lemma State.entryFor_some {κ : Type} {s : State κ} {key : κ} {entry : ℕ × ℕ}
    (h : s.operationLocks key = some entry) : s.entryFor key = entry := by
  unfold State.entryFor
  rw [h]
  rfl

section Invariant

variable {κ : Type} [DecidableEq κ] {s t : State κ} {key : κ} {entry : ℕ × ℕ}

/-- The entry of a key counts its callers, who all refer to the lock of the entry. -/
structure Counted (s : State κ) (key : κ) (entry : ℕ × ℕ) : Prop where
  count : entry.2 = callersOf key s.callers
  positive : 0 < entry.2
  shared : ∀ c ∈ s.callers, c.key = key → c.lock = entry.1

/-- The table counts the callers, keys have locks of their own, and a lock is locked by one holder. -/
structure Sound (s : State κ) : Prop where
  absent : ∀ key, s.operationLocks key = none → callersOf key s.callers = 0
  counted : ∀ key entry, s.operationLocks key = some entry → Counted s key entry
  fresh : ∀ key entry, s.operationLocks key = some entry → entry.1 < s.created
  own : ∀ key key' entry entry', s.operationLocks key = some entry →
    s.operationLocks key' = some entry' → entry.1 = entry'.1 → key = key'
  held : ∀ lock, holders lock s.callers = if lock ∈ s.locked then 1 else 0

lemma Sound.entry_of_mem (h : Sound s) {c : Caller κ} (hc : c ∈ s.callers) :
    ∃ entry, s.operationLocks c.key = some entry ∧ Counted s c.key entry := by
  cases hentry : s.operationLocks c.key with
  | none =>
    have hzero := h.absent c.key hentry
    have hpos : 0 < callersOf c.key s.callers := List.countP_pos_iff.mpr ⟨c, hc, decide_eq_true rfl⟩
    omega
  | some entry => exact ⟨entry, rfl, h.counted c.key entry hentry⟩

lemma sound_start : Sound (start : State κ) := by
  refine ⟨fun _ _ => rfl, ?_, ?_, ?_, ?_⟩
  · intro key entry hentry
    cases hentry
  · intro key entry hentry
    cases hentry
  · intro key key' entry entry' hentry
    cases hentry
  · intro lock
    exact (if_neg (Finset.notMem_empty lock)).symm

/-- A change of the phase of one caller leaves the table sound, when the locked objects follow. -/
lemma Sound.turn (h : Sound s) {before after : List (Caller κ)} {c : Caller κ} {phase : Phase}
    {locked : Finset ℕ} (hcallers : s.callers = before ++ c :: after)
    (hheld : ∀ lock, holders lock (before ++ { c with phase := phase } :: after) =
      if lock ∈ locked then 1 else 0) :
    Sound { s with locked := locked, callers := before ++ { c with phase := phase } :: after } := by
  have hcount : ∀ key, callersOf key (before ++ { c with phase := phase } :: after) =
      callersOf key s.callers := by
    intro key
    unfold callersOf
    rw [hcallers, List.countP_append, List.countP_append, List.countP_cons, List.countP_cons]
  refine ⟨?_, ?_, h.fresh, h.own, hheld⟩
  · intro key hkey
    rw [hcount key]
    exact h.absent key hkey
  · intro key entry hentry
    obtain ⟨hequal, hpositive, hshared⟩ := h.counted key entry hentry
    refine ⟨hequal.trans (hcount key).symm, hpositive, ?_⟩
    intro d hd hkey
    rcases List.mem_append.mp hd with hbefore | hrest
    · exact hshared d (hcallers ▸ List.mem_append_left _ hbefore) hkey
    · rcases List.mem_cons.mp hrest with rfl | hafter
      · exact hshared c (hcallers ▸ List.mem_append_right _ List.mem_cons_self) hkey
      · exact hshared d (hcallers ▸ List.mem_append_right _ (List.mem_cons_of_mem c hafter)) hkey

/-- The callers of a key, with one more. -/
lemma callersOf_concat (key : κ) (callers : List (Caller κ)) (c : Caller κ) :
    callersOf key (callers ++ [c]) = callersOf key callers + if c.key = key then 1 else 0 := by
  unfold callersOf
  rw [List.countP_append, List.countP_singleton]
  by_cases hkey : c.key = key
  · rw [if_pos hkey, if_pos (decide_eq_true hkey)]
  · rw [if_neg hkey, if_neg (by simpa using hkey)]

/-- The lock is that of all callers of the key. -/
lemma Sound.counted_entryFor (h : Sound s) (key : κ) :
    (s.entryFor key).2 = callersOf key s.callers ∧
      ∀ c ∈ s.callers, c.key = key → c.lock = (s.entryFor key).1 := by
  cases hsome : s.operationLocks key with
  | none =>
    have hzero := h.absent key hsome
    rw [State.entryFor_none hsome]
    refine ⟨hzero.symm, ?_⟩
    intro c hc hkey
    have hpos : 0 < callersOf key s.callers := List.countP_pos_iff.mpr ⟨c, hc, decide_eq_true hkey⟩
    omega
  | some entry =>
    rw [State.entryFor_some hsome]
    have hcounted := h.counted key entry hsome
    exact ⟨hcounted.count, hcounted.shared⟩

lemma Sound.entryFor_lt (h : Sound s) (key : κ) : (s.entryFor key).1 < s.created + 1 := by
  cases hsome : s.operationLocks key with
  | none =>
    rw [State.entryFor_none hsome]
    exact Nat.lt_succ_self _
  | some entry =>
    rw [State.entryFor_some hsome]
    exact Nat.lt_succ_of_lt (h.fresh key entry hsome)

/-- The lock is that of no other key. -/
lemma Sound.entryFor_ne (h : Sound s) {key' : κ} (hne : key' ≠ key)
    (hentry : s.operationLocks key' = some entry) : entry.1 ≠ (s.entryFor key).1 := by
  intro heq
  cases hsome : s.operationLocks key with
  | none =>
    have hfresh := h.fresh key' entry hentry
    rw [heq, State.entryFor_none hsome] at hfresh
    exact absurd hfresh (Nat.lt_irrefl _)
  | some own =>
    rw [State.entryFor_some hsome] at heq
    exact hne (h.own key' key entry own hentry hsome heq)

lemma sound_enter (h : Sound s) (key : κ) : Sound (s.enter key) := by
  have hshape : s.enter key = {
      operationLocks := Function.update s.operationLocks key
        (some ((s.entryFor key).1, (s.entryFor key).2 + 1))
      created := s.created + 1
      locked := s.locked
      callers := s.callers ++ [⟨key, (s.entryFor key).1, .waiting⟩] } := rfl
  obtain ⟨hcount, hall⟩ := h.counted_entryFor key
  have hbelow := h.entryFor_lt key
  have hown : ∀ key' entry', key' ≠ key → s.operationLocks key' = some entry' →
      entry'.1 ≠ (s.entryFor key).1 := fun _ _ hne hentry => h.entryFor_ne hne hentry
  generalize s.entryFor key = used at hshape hcount hall hbelow hown
  rw [hshape]
  constructor
  case absent =>
    intro key' hnone
    by_cases hkey : key' = key
    · subst hkey
      change Function.update s.operationLocks key' _ key' = none at hnone
      rw [Function.update_self] at hnone
      cases hnone
    · change Function.update s.operationLocks key _ key' = none at hnone
      rw [Function.update_of_ne hkey] at hnone
      change callersOf key' (s.callers ++ _) = 0
      rw [callersOf_concat, if_neg fun heq => hkey heq.symm, h.absent key' hnone]
  case counted =>
    intro key' entry' hsome
    change Function.update s.operationLocks key _ key' = some entry' at hsome
    by_cases hkey : key' = key
    · subst hkey
      rw [Function.update_self] at hsome
      obtain rfl := Option.some.inj hsome
      refine ⟨?_, Nat.succ_pos _, ?_⟩
      · change used.2 + 1 = callersOf key' (s.callers ++ _)
        rw [callersOf_concat, if_pos rfl, hcount]
      · intro c hc hkey
        rcases List.mem_append.mp hc with hold | hnew
        · exact hall c hold hkey
        · rw [List.mem_singleton.mp hnew]
    · rw [Function.update_of_ne hkey] at hsome
      obtain ⟨hequal, hpositive, hshared⟩ := h.counted key' entry' hsome
      refine ⟨?_, hpositive, ?_⟩
      · change entry'.2 = callersOf key' (s.callers ++ _)
        rw [callersOf_concat, if_neg fun heq => hkey heq.symm]
        exact hequal
      · intro c hc hkey'
        rcases List.mem_append.mp hc with hold | hnew
        · exact hshared c hold hkey'
        · rw [List.mem_singleton.mp hnew] at hkey'
          exact absurd hkey'.symm hkey
  case fresh =>
    intro key' entry' hsome
    change Function.update s.operationLocks key _ key' = some entry' at hsome
    by_cases hkey : key' = key
    · rw [hkey, Function.update_self] at hsome
      rw [← Option.some.inj hsome]
      exact hbelow
    · rw [Function.update_of_ne hkey] at hsome
      exact Nat.lt_succ_of_lt (h.fresh key' entry' hsome)
  case own =>
    intro k k' entry entry' hk hk' heq
    change Function.update s.operationLocks key _ k = some entry at hk
    change Function.update s.operationLocks key _ k' = some entry' at hk'
    by_cases hkey : k = key
    · by_cases hkey' : k' = key
      · rw [hkey, hkey']
      · rw [hkey, Function.update_self] at hk
        rw [Function.update_of_ne hkey'] at hk'
        rw [← Option.some.inj hk] at heq
        exact absurd heq.symm (hown k' entry' hkey' hk')
    · rw [Function.update_of_ne hkey] at hk
      by_cases hkey' : k' = key
      · rw [hkey', Function.update_self] at hk'
        rw [← Option.some.inj hk'] at heq
        exact absurd heq (hown k entry hkey hk)
      · rw [Function.update_of_ne hkey'] at hk'
        exact h.own k k' entry entry' hk hk' heq
  case held =>
    intro lock
    change holders lock (s.callers ++ _) = _
    rw [← h.held lock]
    unfold holders
    rw [List.countP_append, List.countP_singleton, if_neg (by simp)]
    rfl

/-- A caller that leaves takes its reference with it. -/
lemma sound_giveBack (h : Sound s) {before after : List (Caller κ)} {c : Caller κ}
    (hcallers : s.callers = before ++ c :: after) (hphase : c.phase = .leaving)
    (hentry : s.operationLocks c.key = some entry) :
    Sound { s with
      operationLocks := Function.update s.operationLocks c.key (givenBack entry)
      callers := before ++ after } := by
  have hcount : ∀ key, callersOf key s.callers =
      callersOf key (before ++ after) + if c.key = key then 1 else 0 := by
    intro key
    unfold callersOf
    rw [hcallers, List.countP_append, List.countP_cons, List.countP_append, ← Nat.add_assoc]
    by_cases hkey : c.key = key
    · rw [if_pos hkey, if_pos (decide_eq_true hkey)]
    · rw [if_neg hkey, if_neg (by simpa using hkey)]
  have hmem : ∀ d ∈ before ++ after, d ∈ s.callers := by
    intro d hd
    rw [hcallers]
    rcases List.mem_append.mp hd with hbefore | hafter
    · exact List.mem_append_left _ hbefore
    · exact List.mem_append_right _ (List.mem_cons_of_mem c hafter)
  have hcounted := h.counted c.key entry hentry
  -- the entry that is left is that of the key before, with one reference less
  have hleft : ∀ key' entry',
      Function.update s.operationLocks c.key (givenBack entry) key' = some entry' →
      ∃ old, s.operationLocks key' = some old ∧ entry'.1 = old.1 ∧ 0 < entry'.2 ∧
        old.2 = entry'.2 + if c.key = key' then 1 else 0 := by
    intro key' entry' hsome
    by_cases hkey : c.key = key'
    · subst hkey
      rw [Function.update_self] at hsome
      unfold givenBack at hsome
      split at hsome
      · cases hsome
      · next hone =>
        have hpositive := hcounted.positive
        obtain rfl := Option.some.inj hsome
        refine ⟨entry, hentry, rfl, ?_, ?_⟩
        · change 0 < entry.2 - 1
          omega
        · rw [if_pos rfl]
          change entry.2 = entry.2 - 1 + 1
          omega
    · rw [Function.update_of_ne fun heq => hkey heq.symm] at hsome
      refine ⟨entry', hsome, rfl, (h.counted key' entry' hsome).positive, ?_⟩
      rw [if_neg hkey, Nat.add_zero]
  constructor
  case absent =>
    intro key' hnone
    have hcount' := hcount key'
    change Function.update s.operationLocks c.key _ key' = none at hnone
    change callersOf key' (before ++ after) = 0
    by_cases hkey : c.key = key'
    · subst hkey
      rw [Function.update_self] at hnone
      unfold givenBack at hnone
      split at hnone
      · next hone =>
        rw [if_pos rfl, ← hcounted.count, hone] at hcount'
        omega
      · cases hnone
    · rw [Function.update_of_ne fun heq => hkey heq.symm] at hnone
      rw [if_neg hkey, h.absent key' hnone] at hcount'
      omega
  case counted =>
    intro key' entry' hsome
    obtain ⟨old, hold, hlock, hpositive, hreferences⟩ := hleft key' entry' hsome
    obtain ⟨hequal, -, hshared⟩ := h.counted key' old hold
    refine ⟨?_, hpositive, ?_⟩
    · have hcount' := hcount key'
      change entry'.2 = callersOf key' (before ++ after)
      omega
    · intro d hd hkey
      rw [hlock]
      exact hshared d (hmem d hd) hkey
  case fresh =>
    intro key' entry' hsome
    obtain ⟨old, hold, hlock, -, -⟩ := hleft key' entry' hsome
    rw [hlock]
    exact h.fresh key' old hold
  case own =>
    intro k k' e e' hk hk' heq
    obtain ⟨old, hold, hlock, -, -⟩ := hleft k e hk
    obtain ⟨old', hold', hlock', -, -⟩ := hleft k' e' hk'
    rw [hlock, hlock'] at heq
    exact h.own k k' old old' hold hold' heq
  case held =>
    intro lock
    have hsplit := holders_split lock before after c
    rw [hphase, if_neg (by simp), Nat.add_zero] at hsplit
    change holders lock (before ++ after) = _
    rw [← hsplit, ← hcallers]
    exact h.held lock

lemma sound_step {e : Event κ} (h : Sound s) (hstep : Step s e t) : Sound t := by
  cases hstep with
  | enter key => exact sound_enter h key
  | @acquire before after c hcallers hphase hfree =>
    apply h.turn hcallers
    intro lock
    have hbefore := h.held lock
    rw [hcallers, holders_split, hphase, if_neg (by simp)] at hbefore
    rw [holders_split]
    by_cases hlock : c.lock = lock
    · subst hlock
      rw [if_neg hfree] at hbefore
      rw [if_pos ⟨rfl, rfl⟩, if_pos (Finset.mem_insert_self _ _)]
      omega
    · have hmem : lock ∈ insert c.lock s.locked ↔ lock ∈ s.locked := by
        rw [Finset.mem_insert]
        exact or_iff_right fun heq => hlock heq.symm
      rw [if_neg fun hboth => hlock hboth.1, if_congr hmem rfl rfl]
      exact hbefore
  | @interrupt before after c hcallers hphase =>
    apply h.turn hcallers
    intro lock
    have hbefore := h.held lock
    rw [hcallers, holders_split, hphase, if_neg (by simp)] at hbefore
    rw [holders_split, if_neg (by simp)]
    exact hbefore
  | @release before after c hcallers hphase hlocked =>
    apply h.turn hcallers
    intro lock
    have hbefore := h.held lock
    rw [hcallers, holders_split, hphase] at hbefore
    rw [holders_split, if_neg (by simp)]
    by_cases hlock : c.lock = lock
    · subst hlock
      rw [if_pos ⟨rfl, rfl⟩, if_pos hlocked] at hbefore
      rw [if_neg (Finset.notMem_erase _ _)]
      omega
    · have hmem : lock ∈ s.locked.erase c.lock ↔ lock ∈ s.locked := by
        rw [Finset.mem_erase]
        exact and_iff_right fun heq => hlock heq.symm
      rw [if_congr hmem rfl rfl, ← hbefore, if_neg fun hboth => hlock hboth.1]
  | giveBack hcallers hphase hentry => exact sound_giveBack h hcallers hphase hentry

lemma sound_reachable (h : (system κ).Reachable s) : Sound s := by
  apply h.invariant
  · rintro _ rfl
    exact sound_start
  · exact fun _ _ _ hsound hstep => sound_step hsound hstep

/-- Every caller is in one of the phases. -/
lemma callersOf_eq (key : κ) (callers : List (Caller κ)) :
    callersOf key callers = phaseOf key .waiting callers + phaseOf key .inside callers +
      phaseOf key .leaving callers := by
  unfold callersOf phaseOf
  induction callers with
  | nil => rfl
  | cons c callers ih =>
    rw [List.countP_cons, List.countP_cons, List.countP_cons, List.countP_cons, ih]
    by_cases hkey : c.key = key
    · cases hphase : c.phase <;> simp [hkey] <;> omega
    · simp [hkey]

/-- Whoever is in the body of a key holds its lock. -/
lemma Sound.inside_le (h : Sound s) {c : Caller κ} (hc : c ∈ s.callers) :
    phaseOf c.key .inside s.callers ≤ holders c.lock s.callers := by
  obtain ⟨entry, -, hcounted⟩ := h.entry_of_mem hc
  apply List.countP_mono_left
  intro d hd hinside
  obtain ⟨hkey, hphase⟩ := of_decide_eq_true hinside
  have hlock : d.lock = c.lock := by
    rw [hcounted.shared d hd hkey, hcounted.shared c hc rfl]
  exact decide_eq_true ⟨hlock, hphase⟩

/-- Nobody of another key holds the lock. -/
lemma Sound.holders_le (h : Sound s) {c : Caller κ} (hc : c ∈ s.callers) :
    holders c.lock s.callers ≤ phaseOf c.key .inside s.callers := by
  obtain ⟨entry, hentry, hcounted⟩ := h.entry_of_mem hc
  apply List.countP_mono_left
  intro d hd hholds
  obtain ⟨hlock, hphase⟩ := of_decide_eq_true hholds
  obtain ⟨entry', hentry', hcounted'⟩ := h.entry_of_mem hd
  have hkey : d.key = c.key := by
    apply h.own d.key c.key entry' entry hentry' hentry
    rw [← hcounted'.shared d hd rfl, ← hcounted.shared c hc rfl, hlock]
  exact decide_eq_true ⟨hkey, hphase⟩

lemma Sound.inside_le_one (h : Sound s) (key : κ) : phaseOf key .inside s.callers ≤ 1 := by
  by_cases hpresent : ∃ c ∈ s.callers, c.key = key
  · obtain ⟨c, hc, rfl⟩ := hpresent
    apply (h.inside_le hc).trans
    rw [h.held c.lock]
    split
    · exact le_refl 1
    · exact Nat.zero_le 1
  · apply le_of_eq_of_le _ (Nat.zero_le 1)
    apply List.countP_eq_zero.mpr
    intro c hc hinside
    exact hpresent ⟨c, hc, (of_decide_eq_true hinside).1⟩

/-- A caller finds its lock free exactly when nobody is inside for its key: the table works like one
lock for each key. -/
theorem free_iff_nobody_inside (h : (system κ).Reachable s) {c : Caller κ} (hc : c ∈ s.callers) :
    c.lock ∉ s.locked ↔ phaseOf c.key .inside s.callers = 0 := by
  have hsound := sound_reachable h
  have hheld := hsound.held c.lock
  have hle := hsound.inside_le hc
  have hge := hsound.holders_le hc
  by_cases hlocked : c.lock ∈ s.locked
  · rw [if_pos hlocked] at hheld
    exact iff_of_false (not_not.mpr hlocked) (by omega)
  · rw [if_neg hlocked] at hheld
    exact iff_of_true hlocked (by omega)

/-- The references of a key, none without an entry. -/
def State.references (s : State κ) (key : κ) : ℕ := ((s.operationLocks key).map Prod.snd).getD 0

/-- At most one caller is inside for a key, the references of a key are its callers, from the first
statement to the last, and its entry is there while there are any, all of its callers refer to one
lock, and neither giving back a reference nor releasing a lock fails. -/
theorem operations_serialized (h : (system κ).Reachable s) :
    (∀ key, phaseOf key .inside s.callers ≤ 1) ∧
    (∀ key, (s.operationLocks key ≠ none ↔ 0 < s.references key) ∧
      s.references key = phaseOf key .waiting s.callers + phaseOf key .inside s.callers +
        phaseOf key .leaving s.callers) ∧
    (∀ c ∈ s.callers, ∀ d ∈ s.callers, c.key = d.key → c.lock = d.lock) ∧
    (∀ c ∈ s.callers, s.operationLocks c.key ≠ none) ∧
    ∀ c ∈ s.callers, c.phase = .inside → c.lock ∈ s.locked := by
  have hsound := sound_reachable h
  refine ⟨hsound.inside_le_one, ?_, ?_, ?_, ?_⟩
  · intro key
    rw [← callersOf_eq]
    unfold State.references
    cases hentry : s.operationLocks key with
    | none =>
      rw [hsound.absent key hentry]
      exact ⟨iff_of_false (not_not.mpr rfl) (Nat.lt_irrefl 0), rfl⟩
    | some entry =>
      obtain ⟨hcount, hpositive, -⟩ := hsound.counted key entry hentry
      exact ⟨iff_of_true (Option.some_ne_none entry) hpositive, hcount⟩
  · intro c hc d hd hkey
    obtain ⟨entry, -, hcounted⟩ := hsound.entry_of_mem hd
    rw [hcounted.shared c hc hkey, hcounted.shared d hd rfl]
  · intro c hc
    obtain ⟨entry, hentry, -⟩ := hsound.entry_of_mem hc
    rw [hentry]
    exact Option.some_ne_none entry
  · intro c hc hinside
    by_contra hfree
    have hheld := hsound.held c.lock
    rw [if_neg hfree] at hheld
    exact List.countP_eq_zero.mp hheld c hc (decide_eq_true ⟨rfl, hinside⟩)

end Invariant

/-- Three callers of one key and one of another, none of them inside. -/
def queued : State Bool := (((start.enter true).enter true).enter true).enter false

/-- Of the first three, one has released the lock, one is inside and one waits; the fourth is inside
for its own key. -/
def contended : State Bool :=
  { queued with
    locked := insert 3 (insert 0 ((insert 0 ∅ : Finset ℕ).erase 0))
    callers := [⟨true, 0, .leaving⟩, ⟨true, 0, .inside⟩, ⟨true, 0, .waiting⟩, ⟨false, 3, .inside⟩] }

lemma contended_reachable : (system Bool).Reachable contended := by
  have hstart : (system Bool).Reachable start := .of_init rfl
  have hqueued : (system Bool).Reachable queued :=
    (((hstart.step (Step.enter true)).step (Step.enter true)).step (Step.enter true)).step
      (Step.enter false)
  have hfirst := hqueued.step (@Step.acquire Bool _ _ []
    [⟨true, 0, .waiting⟩, ⟨true, 0, .waiting⟩, ⟨false, 3, .waiting⟩] ⟨true, 0, .waiting⟩ rfl rfl
    (Finset.notMem_empty 0))
  have hreleased := hfirst.step (@Step.release Bool _ _ []
    [⟨true, 0, .waiting⟩, ⟨true, 0, .waiting⟩, ⟨false, 3, .waiting⟩] ⟨true, 0, .inside⟩ rfl rfl
    (Finset.mem_insert_self 0 ∅))
  have hsecond := hreleased.step (@Step.acquire Bool _ _ [⟨true, 0, .leaving⟩]
    [⟨true, 0, .waiting⟩, ⟨false, 3, .waiting⟩] ⟨true, 0, .waiting⟩ rfl rfl (by decide))
  exact hsecond.step (@Step.acquire Bool _ _
    [⟨true, 0, .leaving⟩, ⟨true, 0, .inside⟩, ⟨true, 0, .waiting⟩] [] ⟨false, 3, .waiting⟩ rfl rfl
    (by decide))

/-- The references of both keys, and the locks of their callers. -/
theorem operations_serialized_released :
    phaseOf true .inside contended.callers ≤ 1 ∧ contended.references true = 1 + 1 + 1 ∧
      contended.references false = 0 + 1 + 0 ∧
      (∀ c ∈ contended.callers, ∀ d ∈ contended.callers, c.key = d.key → c.lock = d.lock) ∧
      ∀ c ∈ contended.callers, c.phase = .inside → c.lock ∈ contended.locked := by
  obtain ⟨hinside, hcount, hlocks, -, hlocked⟩ := operations_serialized contended_reachable
  exact ⟨hinside true, (hcount true).2, (hcount false).2, hlocks, hlocked⟩

/-- One caller has released its lock and has not given back its reference. -/
def released : State Unit :=
  ⟨Function.update (fun _ => none) () (some (0, 1)), 1, (insert 0 ∅ : Finset ℕ).erase 0,
    [⟨(), 0, .leaving⟩]⟩

lemma released_reachable : (system Unit).Reachable released := by
  have hstart : (system Unit).Reachable start := .of_init rfl
  have hentered := hstart.step (Step.enter ())
  have hinside := hentered.step
    (@Step.acquire Unit _ _ [] [] ⟨(), 0, .waiting⟩ rfl rfl (Finset.notMem_empty 0))
  exact hinside.step
    (@Step.release Unit _ _ [] [] ⟨(), 0, .inside⟩ rfl rfl (Finset.mem_insert_self 0 ∅))

/-- Such a caller is referred to, and neither inside nor waiting. -/
theorem leaving_caller_counts :
    ¬∀ s : State Unit, (system Unit).Reachable s → ∀ key,
      (s.operationLocks key ≠ none ↔ 0 < s.references key) ∧
        s.references key = phaseOf key .waiting s.callers + phaseOf key .inside s.callers := by
  intro h
  have hcount := (h released released_reachable ()).2
  revert hcount
  decide

end ChatBI.Execution.OperationLocks
