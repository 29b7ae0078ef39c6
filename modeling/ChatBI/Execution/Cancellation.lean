import ChatBI.Lib.Transition
import ChatBI.Store.Rows
import Mathlib.Logic.Function.Basic

/-!
# Database cancellation

`_ExecutionStopControl`: the first stop is recorded and takes the registered callback under the
lock, and calls it later; a scope that is entered behind the stop calls its own. Every scope has a
callback of its own, and the calls of a scope are counted.
-/

namespace ChatBI.Execution

open ChatBI.Lib ChatBI.Store

variable {ι : Type} [DecidableEq ι]

/-- A scope of `register_database_cancel`. Where it is entered behind a stop it has still to call
its callback before its body runs. -/
inductive ScopePhase where
  | absent
  | entered
  | inside
  | left
  deriving DecidableEq

/-- The call of `signal` that recorded the stop: it reports the status, then calls the callback that
it took. -/
inductive Signal (ι : Type) where
  | idle
  | reporting (callback : Option ι)
  | calling (callback : Option ι)
  | ended
  deriving DecidableEq

def Signal.taken : Signal ι → Option ι
  | .reporting callback | .calling callback => callback
  | .idle | .ended => none

/-- The record that a persisted stop returns. -/
structure StopRecord where
  stopping : Bool
  stopReason : Option ExecutionStopReason

/-- The fields of the control, the scopes and the signal. `owed` are the scopes that a stop found
open or that were opened behind it, `late` those whose callback was called when they were left. -/
structure StopControl (ι : Type) where
  reason : Option ExecutionStopReason := none
  databaseCancel : Option ι := none
  phase : ι → ScopePhase := fun _ => .absent
  previous : ι → Option ι := fun _ => none
  signal : Signal ι := .idle
  calls : ι → ℕ := fun _ => 0
  owed : ι → Bool := fun _ => false
  late : List ι := []

inductive StopLabel (ι : Type) where
  | signal (reason : ExecutionStopReason)
  | requestStop (reason : ExecutionStopReason) (record : Option StopRecord)
  | report (raised : Bool)
  | call
  | enter (scope : ι)
  | callEntered (scope : ι)
  | leave (scope : ι)

namespace StopControl

/-- A callback is called. -/
def invoke (s : StopControl ι) (scope : ι) : StopControl ι :=
  { s with
    calls := Function.update s.calls scope (s.calls scope + 1)
    late := if s.phase scope = .left then s.late ++ [scope] else s.late }

/-- `signal`, under the lock. -/
def record (s : StopControl ι) (reason : ExecutionStopReason) : StopControl ι :=
  if s.reason ≠ none then s
  else { s with
    reason := some reason
    signal := .reporting s.databaseCancel
    owed := fun scope => s.phase scope = .inside }

/-- `register_database_cancel` up to its `yield`, under the lock. -/
def register (s : StopControl ι) (scope : ι) : StopControl ι :=
  { s with
    previous := Function.update s.previous scope s.databaseCancel
    databaseCancel := some scope
    phase := Function.update s.phase scope (if s.reason = none then .inside else .entered)
    owed := Function.update s.owed scope (s.reason ≠ none) }

/-- The `finally` of `register_database_cancel`. -/
def restore (s : StopControl ι) (scope : ι) : StopControl ι :=
  { s with
    databaseCancel := if s.databaseCancel = some scope then s.previous scope else s.databaseCancel
    phase := Function.update s.phase scope .left }

/-- One step of a thread, `none` where no thread can take it. A stop that is not persisted, or whose
record is not stopping, is no signal. -/
def step (s : StopControl ι) : StopLabel ι → Option (StopControl ι)
  | .signal reason => some (s.record reason)
  | .requestStop reason persisted =>
    match persisted with
    | some ⟨true, stopReason⟩ => some (s.record (stopReason.getD reason))
    | _ => some s
  | .report raised =>
    match s.signal with
    | .reporting callback =>
      some { s with signal := if raised then .ended else .calling callback }
    | _ => none
  | .call =>
    match s.signal with
    | .calling (some scope) => some { s.invoke scope with signal := .ended }
    | .calling none => some { s with signal := .ended }
    | _ => none
  | .enter scope => if s.phase scope = .absent then some (s.register scope) else none
  | .callEntered scope =>
    if s.phase scope = .entered then
      some { s.invoke scope with phase := Function.update s.phase scope .inside }
    else none
  | .leave scope => if s.phase scope = .inside then some (s.restore scope) else none

end StopControl

/-- The threads that share a control. -/
def stopControl : System (StopControl ι) (StopLabel ι) where
  init := fun s => s = {}
  step := fun s e t => s.step e = some t

/-- A first stop finds the registered callback to be that of the one open scope. -/
def StopControl.Single (s : StopControl ι) : Prop :=
  s.reason = none → ∀ scope, s.phase scope = .inside ↔ s.databaseCancel = some scope

/-- A step that the delivery bears: a stop is recorded while no other scope is open than that of the
registered callback, its status is reported, and no scope is left while its callback is taken. -/
def Bearable (s : StopControl ι) : StopLabel ι → Prop
  | .signal _ => s.Single
  | .requestStop _ persisted => (∃ record ∈ persisted, record.stopping = true) → s.Single
  | .report raised => s.signal.taken ≠ none → raised = false
  | .leave scope => s.signal.taken ≠ some scope
  | .call | .enter _ | .callEntered _ => True

/-- Every callback is called at most once and never behind its scope; where its scope was open at
the stop or opened behind it, it was called once when the scope is left, and otherwise not at
all. -/
structure Delivered (s : StopControl ι) : Prop where
  once : ∀ scope, s.calls scope ≤ 1
  left : ∀ scope, s.phase scope = .left → s.calls scope = if s.owed scope then 1 else 0
  prompt : s.late = []

section Delivery

variable {s t : StopControl ι} {scope : ι} {label : StopLabel ι}

/-- A call that is still to come. -/
def StopControl.Due (s : StopControl ι) (scope : ι) : Prop :=
  s.signal.taken = some scope ∨ s.phase scope = .entered

instance : Decidable (s.Due scope) := inferInstanceAs (Decidable (_ ∨ _))

/-- Of every owed scope the call is due or done, and taken callbacks are of open scopes. -/
structure StopControl.Balanced (s : StopControl ι) : Prop where
  balance : ∀ scope, s.calls scope + (if s.Due scope then 1 else 0) = if s.owed scope then 1 else 0
  taken : ∀ scope, s.signal.taken = some scope → s.phase scope = .inside
  prompt : s.late = []
  unowed : ∀ scope, s.phase scope = .absent → s.owed scope = false
  before : s.reason = none → s.signal.taken = none ∧ ∀ scope, s.owed scope = false

lemma StopControl.Balanced.delivered (h : s.Balanced) : Delivered s where
  once := by
    intro scope
    have hbalance := h.balance scope
    split at hbalance <;> split at hbalance <;> omega
  left := by
    intro scope hleft
    have hnot : ¬s.Due scope := by
      rintro (htaken | hentered)
      · rw [h.taken scope htaken] at hleft
        cases hleft
      · rw [hentered] at hleft
        cases hleft
    have hbalance := h.balance scope
    rw [if_neg hnot] at hbalance
    exact hbalance
  prompt := h.prompt

lemma balanced_init : ({} : StopControl ι).Balanced where
  balance := fun _ => rfl
  taken := fun _ h => nomatch h
  prompt := rfl
  unowed := fun _ _ => rfl
  before := fun _ => ⟨rfl, fun _ => rfl⟩

/-- A first stop owes a call to the one open scope. -/
lemma StopControl.Balanced.record (h : s.Balanced) (hsingle : s.Single)
    (reason : ExecutionStopReason) : (s.record reason).Balanced := by
  unfold StopControl.record
  by_cases hreason : s.reason = none
  · rw [if_neg (not_not.mpr hreason)]
    obtain ⟨htaken, howed⟩ := h.before hreason
    have hopen := hsingle hreason
    constructor
    · intro i
      have hbalance := h.balance i
      rw [howed i] at hbalance
      have hnot : ¬s.Due i := by
        intro hdue
        rw [if_pos hdue] at hbalance
        exact absurd hbalance (Nat.succ_ne_zero _)
      have hcalls : s.calls i = 0 := Nat.eq_zero_of_add_eq_zero_right hbalance
      have hdue : StopControl.Due { s with
          reason := some reason
          signal := .reporting s.databaseCancel
          owed := fun scope => s.phase scope = .inside } i ↔ s.phase i = .inside := by
        rw [hopen i]
        exact or_iff_left fun hentered => hnot (.inr hentered)
      simp only [hdue, hcalls, Nat.zero_add, decide_eq_true_eq]
    · exact fun i htaken => (hopen i).mpr htaken
    · exact h.prompt
    · intro i habsent
      have habsent' : s.phase i = .absent := habsent
      change decide (s.phase i = .inside) = false
      rw [habsent']
      rfl
    · exact fun hnone => nomatch hnone
  · rw [if_pos hreason]
    exact h

lemma StopControl.Balanced.report (h : s.Balanced) {callback : Option ι} {raised : Bool}
    (hsignal : s.signal = .reporting callback) (hraised : s.signal.taken ≠ none → raised = false) :
    ({ s with signal := if raised then .ended else .calling callback } : StopControl ι).Balanced := by
  set s' : StopControl ι := { s with signal := if raised then .ended else .calling callback } with hs'
  have htaken : s'.signal.taken = s.signal.taken := by
    have hcallback : s.signal.taken = callback := by
      rw [hsignal]
      rfl
    rw [hcallback] at hraised ⊢
    cases raised with
    | false => rfl
    | true =>
      by_contra hne
      exact absurd (hraised fun hnone => hne (by rw [hnone]; rfl)) Bool.noConfusion
  have hdue : ∀ i, s'.Due i ↔ s.Due i := by
    intro i
    rw [Due, Due, htaken]
  constructor
  · intro i
    simp only [hdue]
    exact h.balance i
  · rw [htaken]
    exact h.taken
  · exact h.prompt
  · exact h.unowed
  · rw [htaken]
    exact h.before

/-- A call that is due, of a scope that is not left, is done and due no more. -/
lemma StopControl.Balanced.invoke (h : s.Balanced) (hdue : s.Due scope)
    (hcalls : t.calls = (s.invoke scope).calls) (hlate : t.late = (s.invoke scope).late)
    (howed : t.owed = s.owed) (hother : ∀ i, t.Due i ↔ s.Due i ∧ i ≠ scope) (i : ι) :
    (t.calls i + (if t.Due i then 1 else 0) = if t.owed i then 1 else 0) ∧ t.late = [] := by
  constructor
  · have hbalance := h.balance i
    rw [hcalls, howed]
    by_cases hsame : i = scope
    · subst hsame
      rw [if_pos hdue] at hbalance
      rw [if_neg fun hdue' => ((hother i).mp hdue').2 rfl]
      change Function.update s.calls i (s.calls i + 1) i + 0 = _
      rw [Function.update_self, Nat.add_zero]
      exact hbalance
    · have hiff : t.Due i ↔ s.Due i := by
        rw [hother i]
        exact and_iff_left hsame
      change Function.update s.calls scope (s.calls scope + 1) i + _ = _
      rw [Function.update_of_ne hsame]
      simp only [hiff]
      exact hbalance
  · have hphase : s.phase scope ≠ .left := by
      intro hleft
      rcases hdue with htaken | hentered
      · rw [h.taken scope htaken] at hleft
        cases hleft
      · rw [hentered] at hleft
        cases hleft
    rw [hlate, StopControl.invoke]
    dsimp only
    rw [if_neg hphase]
    exact h.prompt

lemma StopControl.Balanced.call (h : s.Balanced) (hsignal : s.signal = .calling (some scope)) :
    ({ s.invoke scope with signal := .ended } : StopControl ι).Balanced := by
  have htaken : s.signal.taken = some scope := by
    rw [hsignal]
    rfl
  set t : StopControl ι := { s.invoke scope with signal := .ended } with ht
  have hother : ∀ i, t.Due i ↔ s.Due i ∧ i ≠ scope := by
    intro i
    constructor
    · rintro (hnone | hentered)
      · cases hnone
      · have hentered' : s.phase i = .entered := hentered
        refine ⟨.inr hentered', ?_⟩
        rintro rfl
        rw [h.taken i htaken] at hentered'
        cases hentered'
    · rintro ⟨hcaught | hentered, hne⟩
      · rw [htaken] at hcaught
        exact absurd (Option.some.inj hcaught).symm hne
      · exact .inr hentered
  have hinvoked := h.invoke (.inl htaken) (t := t) rfl rfl rfl hother
  constructor
  · exact fun i => (hinvoked i).1
  · exact fun i hnone => nomatch hnone
  · exact (hinvoked scope).2
  · exact h.unowed
  · exact fun hreason => ⟨rfl, (h.before hreason).2⟩

/-- A signal that took no callback ends. -/
lemma StopControl.Balanced.ended (h : s.Balanced) (hnone : s.signal.taken = none) :
    ({ s with signal := .ended } : StopControl ι).Balanced := by
  have hdue : ∀ i, StopControl.Due { s with signal := .ended } i ↔ s.Due i := by
    intro i
    rw [StopControl.Due, StopControl.Due, hnone]
    rfl
  constructor
  · intro i
    simp only [hdue]
    exact h.balance i
  · exact fun i htaken => nomatch htaken
  · exact h.prompt
  · exact h.unowed
  · exact fun hreason => ⟨rfl, (h.before hreason).2⟩

lemma StopControl.Balanced.callEntered (h : s.Balanced) (hphase : s.phase scope = .entered) :
    ({ s.invoke scope with phase := Function.update s.phase scope .inside } :
      StopControl ι).Balanced := by
  set t : StopControl ι := { s.invoke scope with
    phase := Function.update s.phase scope .inside } with ht
  have hself : t.phase scope = .inside := Function.update_self _ _ _
  have hkept : ∀ i, i ≠ scope → t.phase i = s.phase i := fun i hne => Function.update_of_ne hne _ _
  have huncaught : s.signal.taken ≠ some scope := by
    intro htaken
    rw [h.taken scope htaken] at hphase
    cases hphase
  have hother : ∀ i, t.Due i ↔ s.Due i ∧ i ≠ scope := by
    intro i
    by_cases hsame : i = scope
    · subst hsame
      refine iff_of_false ?_ fun hand => hand.2 rfl
      rintro (htaken | hentered)
      · exact huncaught htaken
      · rw [hself] at hentered
        cases hentered
    · rw [StopControl.Due, hkept i hsame]
      exact (and_iff_left hsame).symm
  have hinvoked := h.invoke (.inr hphase) (t := t) rfl rfl rfl hother
  constructor
  · exact fun i => (hinvoked i).1
  · intro i htaken
    have htaken' : s.signal.taken = some i := htaken
    by_cases hsame : i = scope
    · exact absurd (hsame ▸ htaken') huncaught
    · rw [hkept i hsame]
      exact h.taken i htaken'
  · exact (hinvoked scope).2
  · intro i habsent
    by_cases hsame : i = scope
    · rw [hsame, hself] at habsent
      cases habsent
    · rw [hkept i hsame] at habsent
      exact h.unowed i habsent
  · exact h.before

/-- A scope that is entered behind the stop owes its own call. -/
lemma StopControl.Balanced.register (h : s.Balanced) (hphase : s.phase scope = .absent) :
    (s.register scope).Balanced := by
  have hself : (s.register scope).phase scope = if s.reason = none then .inside else .entered :=
    Function.update_self _ _ _
  have howed : (s.register scope).owed scope = decide (s.reason ≠ none) := Function.update_self _ _ _
  have hkept : ∀ i, i ≠ scope → (s.register scope).phase i = s.phase i :=
    fun i hne => Function.update_of_ne hne _ _
  have huncaught : s.signal.taken ≠ some scope := by
    intro htaken
    rw [h.taken scope htaken] at hphase
    cases hphase
  constructor
  · intro i
    by_cases hsame : i = scope
    · subst hsame
      have hbalance := h.balance i
      rw [h.unowed i hphase] at hbalance
      have hcalls : s.calls i = 0 := Nat.eq_zero_of_add_eq_zero_right hbalance
      have hdue : (s.register i).Due i ↔ s.reason ≠ none := by
        constructor
        · rintro (htaken | hentered)
          · exact absurd htaken huncaught
          · intro hnone
            rw [hself, if_pos hnone] at hentered
            cases hentered
        · intro hreason
          right
          rw [hself, if_neg hreason]
      change s.calls i + _ = _
      simp only [hdue, howed, hcalls, Nat.zero_add, decide_eq_true_eq]
    · have hdue : (s.register scope).Due i ↔ s.Due i := by
        rw [StopControl.Due, hkept i hsame]
        rfl
      have howed' : (s.register scope).owed i = s.owed i := Function.update_of_ne hsame _ _
      simp only [hdue, howed']
      exact h.balance i
  · intro i htaken
    have htaken' : s.signal.taken = some i := htaken
    by_cases hsame : i = scope
    · exact absurd (hsame ▸ htaken') huncaught
    · rw [hkept i hsame]
      exact h.taken i htaken'
  · exact h.prompt
  · intro i habsent
    by_cases hsame : i = scope
    · rw [hsame, hself] at habsent
      split at habsent <;> cases habsent
    · rw [hkept i hsame] at habsent
      exact (Function.update_of_ne hsame _ _).trans (h.unowed i habsent)
  · intro hreason
    have hreason' : s.reason = none := hreason
    refine ⟨(h.before hreason').1, fun i => ?_⟩
    by_cases hsame : i = scope
    · rw [hsame, howed, hreason']
      rfl
    · exact (Function.update_of_ne hsame _ _).trans ((h.before hreason').2 i)

lemma StopControl.Balanced.restore (h : s.Balanced) (hphase : s.phase scope = .inside)
    (huncaught : s.signal.taken ≠ some scope) : (s.restore scope).Balanced := by
  have hself : (s.restore scope).phase scope = .left := Function.update_self _ _ _
  have hkept : ∀ i, i ≠ scope → (s.restore scope).phase i = s.phase i :=
    fun i hne => Function.update_of_ne hne _ _
  have hdue : ∀ i, (s.restore scope).Due i ↔ s.Due i := by
    intro i
    by_cases hsame : i = scope
    · subst hsame
      rw [StopControl.Due, StopControl.Due, hself, hphase]
      exact or_congr Iff.rfl (iff_of_false ScopePhase.noConfusion ScopePhase.noConfusion)
    · rw [StopControl.Due, hkept i hsame]
      rfl
  constructor
  · intro i
    simp only [hdue]
    exact h.balance i
  · intro i htaken
    have htaken' : s.signal.taken = some i := htaken
    by_cases hsame : i = scope
    · exact absurd (hsame ▸ htaken') huncaught
    · rw [hkept i hsame]
      exact h.taken i htaken'
  · exact h.prompt
  · intro i habsent
    by_cases hsame : i = scope
    · rw [hsame, hself] at habsent
      cases habsent
    · rw [hkept i hsame] at habsent
      exact h.unowed i habsent
  · exact h.before

/-- A bearable step keeps the balance of the calls. -/
theorem StopControl.Balanced.step (h : s.Balanced) (hbearable : Bearable s label)
    (hstep : s.step label = some t) : t.Balanced := by
  cases label with
  | signal reason =>
    cases hstep
    exact h.record hbearable reason
  | requestStop reason persisted =>
    match persisted with
    | some ⟨true, stopReason⟩ =>
      cases hstep
      exact h.record (hbearable ⟨⟨true, stopReason⟩, rfl, rfl⟩) _
    | some ⟨false, _⟩ | none =>
      cases hstep
      exact h
  | report raised =>
    rw [StopControl.step] at hstep
    split at hstep
    · next hsignal =>
      cases hstep
      exact h.report hsignal hbearable
    · cases hstep
  | call =>
    rw [StopControl.step] at hstep
    split at hstep
    · next hsignal =>
      cases hstep
      exact h.call hsignal
    · next hsignal =>
      cases hstep
      exact h.ended (by rw [hsignal]; rfl)
    · cases hstep
  | enter scope =>
    rw [StopControl.step] at hstep
    split at hstep
    · next hphase =>
      cases hstep
      exact h.register hphase
    · cases hstep
  | callEntered scope =>
    rw [StopControl.step] at hstep
    split at hstep
    · next hphase =>
      cases hstep
      exact h.callEntered hphase
    · cases hstep
  | leave scope =>
    rw [StopControl.step] at hstep
    split at hstep
    · next hphase =>
      cases hstep
      exact h.restore hphase hbearable
    · cases hstep

/-- In every run of bearable steps, the callbacks are delivered in every state. -/
theorem delivered_of_bearable {s : StopControl ι} (h : (stopControl.restrict Bearable).Reachable s) :
    Delivered s := by
  have hbalanced : s.Balanced := by
    apply h.invariant
    · rintro _ rfl
      exact balanced_init
    · exact fun _ _ _ hs hstep => hs.step hstep.1 hstep.2
  exact hbalanced.delivered

end Delivery

/-- The steps of a query that is stopped. -/
def stoppedQuery : List (StopLabel Unit) :=
  [.enter (), .signal .userCancelled, .report false, .call, .leave ()]

/-- The state behind some steps, when they can be taken. -/
def StopControl.after (labels : List (StopLabel ι)) : Option (StopControl ι) :=
  labels.foldlM StopControl.step {}

theorem delivered_of_bearable_stopped : ∃ s : StopControl Unit,
    StopControl.after stoppedQuery = some s ∧ s.phase () = .left ∧ s.calls () = 1 ∧ Delivered s := by
  refine ⟨_, rfl, rfl, rfl, delivered_of_bearable ⟨{}, stoppedQuery, rfl, ?_⟩⟩
  have hlabels : stoppedQuery =
      ((([] ++ [.enter ()]) ++ [.signal .userCancelled]) ++ [.report false]) ++ [.call] ++
        [.leave ()] := rfl
  rw [hlabels]
  refine .snoc (.snoc (.snoc (.snoc (.snoc (.nil _) ⟨?_, rfl⟩) ⟨?_, rfl⟩) ⟨?_, rfl⟩) ⟨?_, rfl⟩)
    ⟨?_, rfl⟩
  · trivial
  · exact fun _ _ => iff_of_true rfl rfl
  · exact fun _ => rfl
  · trivial
  · exact fun htaken => nomatch htaken

/-- The outer of two nested scopes is left without its call, and a callback that was taken is
called behind its scope. -/
theorem not_delivered :
    (∃ s : StopControl Bool, StopControl.after [.enter false, .enter true, .signal .userCancelled,
      .report false, .call, .leave true, .leave false] = some s ∧ ¬Delivered s) ∧
    ∃ s : StopControl Unit, StopControl.after [.enter (), .signal .userCancelled, .report false,
      .leave (), .call] = some s ∧ s.late = [()] ∧ ¬Delivered s := by
  constructor
  · refine ⟨_, rfl, fun hdelivered => ?_⟩
    have hleft := hdelivered.left false rfl
    cases hleft
  · exact ⟨_, rfl, rfl, fun hdelivered => nomatch hdelivered.prompt⟩

end ChatBI.Execution
