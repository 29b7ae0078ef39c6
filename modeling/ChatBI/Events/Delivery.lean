import ChatBI.Events.Serving
import ChatBI.Lib.Transition

/-!
# From the channel to its clients

The runs of a channel with its subscribers, and that its clients follow it. The payload of every
sequence number is recorded beside the channel.
-/

namespace ChatBI.Events

open ChatBI.Lib ChatBI.Store

/-- A subscription: how far it has read, and the messages it was given, the first snapshot
included. -/
structure Subscription where
  cursor : Nat
  received : List ExecutionEvent
  closed : Bool
  deriving DecidableEq

structure World where
  channel : Channel
  history : List (Except String Snapshot)
  subscriptions : List Subscription

inductive Action where
  | call (a : Channel.Call)
  | subscribe
  | read (i : Nat)
  | close (i : Nat)
  deriving DecidableEq

/-- Steps that return normally. Reading is one step: what `read` returns depends on the channel
at the moment it stops waiting. -/
inductive World.Step : World → Action → World → Prop where
  | call {w : World} {a : Channel.Call} (h : (w.channel.call a).1 = .ok ()) :
      Step w (.call a) { w with
        channel := (w.channel.call a).2
        history := w.history ++ w.channel.added a }
  | subscribe {w : World} {m : ExecutionEvent} (h : w.channel.subscribe.1 = .ok m) :
      Step w .subscribe { w with
        channel := w.channel.subscribe.2
        subscriptions := w.subscriptions ++ [⟨m.sequence, [m], false⟩] }
  | read {w : World} {i : Nat} {s : Subscription} {events : List ExecutionEvent} {cursor : Nat}
      (hs : w.subscriptions[i]? = some s) (hopen : s.closed = false)
      (h : w.channel.readAfter s.cursor = .ok (events, cursor)) :
      Step w (.read i) { w with
        subscriptions := w.subscriptions.set i ⟨cursor, s.received ++ events, false⟩ }
  | close {w : World} {i : Nat} {s : Subscription} (hs : w.subscriptions[i]? = some s)
      (hopen : s.closed = false) (h : w.channel.unsubscribe.1 = .ok ()) :
      Step w (.close i) { w with
        channel := w.channel.unsubscribe.2
        subscriptions := w.subscriptions.set i { s with closed := true } }

/-- The step that an action takes. -/
def World.next (w : World) : Action → Option World
  | .call a =>
    if (w.channel.call a).1 = .ok () then some { w with
      channel := (w.channel.call a).2
      history := w.history ++ w.channel.added a }
    else none
  | .subscribe =>
    match w.channel.subscribe.1 with
    | .ok m => some { w with
        channel := w.channel.subscribe.2
        subscriptions := w.subscriptions ++ [⟨m.sequence, [m], false⟩] }
    | .error _ => none
  | .read i =>
    match w.subscriptions[i]? with
    | some s =>
      match w.channel.readAfter s.cursor with
      | .ok (events, cursor) =>
        if s.closed then none
        else some { w with
          subscriptions := w.subscriptions.set i ⟨cursor, s.received ++ events, false⟩ }
      | .error _ => none
    | none => none
  | .close i =>
    match w.subscriptions[i]? with
    | some s =>
      if s.closed = false ∧ w.channel.unsubscribe.1 = .ok () then some { w with
        channel := w.channel.unsubscribe.2
        subscriptions := w.subscriptions.set i { s with closed := true } }
      else none
    | none => none

lemma World.next_step {w w' : World} {a : Action} (h : w.next a = some w') : World.Step w a w' := by
  cases a with
  | call a =>
    simp only [World.next] at h
    split at h
    · next hok =>
      cases h
      exact .call hok
    · cases h
  | subscribe =>
    simp only [World.next] at h
    split at h
    · next m hm =>
      cases h
      exact .subscribe hm
    · cases h
  | read i =>
    simp only [World.next] at h
    split at h
    · next s hs =>
      split at h
      · next events cursor hread =>
        split at h
        · cases h
        · next hopen =>
          cases h
          exact .read hs (by simpa using hopen) hread
      · cases h
    · cases h
  | close i =>
    simp only [World.next] at h
    split at h
    · next s hs =>
      split at h
      · next hok =>
        cases h
        exact .close hs hok.1 hok.2
      · cases h
    · cases h

/-- The runs of a new channel of an execution that has not ended. -/
def delivery (x : Execution) (maxEvents maxBytes maxSubscribers : Nat) : System World Action where
  init w := isTerminal x.status = false ∧ w.subscriptions = [] ∧
    Channel.new x maxEvents maxBytes maxSubscribers = .ok w.channel ∧
    w.history = [w.channel.snapshotOf w.channel.draft.parts]
  step := World.Step

def InOrder (w : World) : Action → Prop
  | .call a => w.channel.InOrder a
  | _ => True

instance (w : World) : DecidablePred (InOrder w)
  | .call a => inferInstanceAs (Decidable (w.channel.InOrder a))
  | .subscribe | .read _ | .close _ => isTrue trivial

def SafeTotals : Action → Prop
  | .call a => a.SafeTotal
  | _ => True

instance : DecidablePred SafeTotals
  | .call a => inferInstanceAs (Decidable a.SafeTotal)
  | .subscribe | .read _ | .close _ => isTrue trivial

section Reading

variable {x : Execution} {c : Channel} {history : List (Except String Snapshot)}
  {messages events : List ExecutionEvent} {cursor first : Nat}

/-- Messages with one sequence number after the other. -/
def Consecutive (first : Nat) (messages : List ExecutionEvent) : Prop :=
  ∀ i m, messages[i]? = some m → m.sequence = first + i

lemma Consecutive.tail {m : ExecutionEvent} (h : Consecutive first (m :: messages)) :
    Consecutive (first + 1) messages := by
  intro i m' hm'
  have hnext := h (i + 1) m' hm'
  omega

/-- The messages after a number start at the next one. -/
lemma Consecutive.after (h : Consecutive first messages) (hcursor : first ≤ cursor + 1) :
    Consecutive (cursor + 1) (messages.filter fun m => cursor < m.sequence) := by
  induction messages generalizing first with
  | nil =>
    intro i m hm
    cases hm
  | cons m messages ih =>
    have hm : m.sequence = first := h 0 m rfl
    by_cases hseen : first ≤ cursor
    · rw [List.filter_cons_of_neg (by simp; omega)]
      exact ih h.tail (by omega)
    · obtain rfl : first = cursor + 1 := by omega
      have hall : ∀ m' ∈ m :: messages, decide (cursor < m'.sequence) = true := by
        intro m' hm'
        obtain ⟨i, hi⟩ := List.mem_iff_getElem?.mp hm'
        have hnumber := h i m' hi
        exact decide_eq_true (by omega)
      rw [List.filter_eq_self.mpr hall]
      exact h

lemma Consecutive.isChain (h : Consecutive first messages) : messages.IsChain Next := by
  induction messages generalizing first with
  | nil => exact .nil
  | cons m messages ih =>
    refine List.isChain_cons.mpr ⟨?_, ih h.tail⟩
    intro m' hm'
    have hm : m.sequence = first := h 0 m rfl
    have hnext : m'.sequence = first + 1 := h.tail 0 m' (by rw [← List.head?_eq_getElem?]; exact hm')
    exact .inr (by omega)

lemma Consecutive.last (h : Consecutive first messages) {m : ExecutionEvent}
    (hm : m ∈ messages.getLast?) : m.sequence + 1 = first + messages.length := by
  rw [Option.mem_def, List.getLast?_eq_getElem?] at hm
  have hnumber := h _ m hm
  have hlt := (List.getElem?_eq_some_iff.mp hm).1
  omega

lemma Serves.consecutive (h : Serves x c history) :
    Consecutive (c.sequence + 1 - c.ring.length) (c.ring.map Prod.fst) := by
  intro i m hm
  rw [List.getElem?_map] at hm
  obtain ⟨e, he, rfl⟩ := Option.map_eq_some_iff.mp hm
  have hnumber := h.numbers i e he
  have hlt := (List.getElem?_eq_some_iff.mp he).1
  have hfirst := h.numbers 0 _ (List.getElem?_eq_getElem (by omega))
  omega

lemma Serves.snapshot (h : Serves x c history) {m : ExecutionEvent} (hm : c.snapshot = .ok m) :
    Genuine x history m ∧ m.sequence = c.sequence ∧ ∃ p, m.payload = .snapshot p := by
  obtain ⟨draft, hdraft, hat⟩ := h.draft
  have hvalid : reportDraft (shownDraft c.draft draft) = some (shownDraft c.draft draft) := by
    unfold shownDraft
    split
    · rfl
    · have hbytes := h.bytes
      have hkinds : draft.all (fun e => validDraftField e.1 e.2) = true :=
        List.all_eq_true.mpr hdraft.kinds
      rw [← hdraft.bytes] at hbytes
      rw [reportDraft, if_pos ⟨hkinds, hbytes⟩]
  obtain ⟨p, hp, rfl⟩ := except_map_ok.mp hm
  rw [snapshotOf_ok hdraft] at hp
  obtain rfl := Except.ok.inj hp
  refine ⟨?_, rfl, _, rfl⟩
  have hgenuine := Genuine.snapshot (x := x) hat hvalid
  rw [← h.execution] at hgenuine ⊢
  exact hgenuine

/-- What `_read_after` gives continues where the reader is. -/
lemma Serves.readAfter (h : Serves x c history) (hcursor : cursor ≤ c.sequence) {next : Nat}
    (hread : c.readAfter cursor = .ok (events, next)) :
    (∀ m ∈ events, Genuine x history m) ∧ events.IsChain Next ∧
      (∀ m ∈ events.head?, (∃ p, m.payload = .snapshot p) ∧ cursor ≤ m.sequence ∨
        m.sequence = cursor + 1) ∧
      (∀ m ∈ events.getLast?, m.sequence = next) ∧ (events = [] → next = cursor) ∧
      next ≤ c.sequence := by
  have hconsecutive := h.consecutive
  unfold Channel.readAfter at hread
  cases hring : c.ring with
  | nil =>
    rw [hring] at hread
    cases hread
    exact ⟨by simp, .nil, by simp, by simp, fun _ => rfl, hcursor⟩
  | cons oldest ring =>
    simp only [hring] at hread
    have hfirst : oldest.1.sequence + c.ring.length = c.sequence + 1 :=
      h.numbers 0 oldest (by rw [hring]; rfl)
    split at hread
    · obtain ⟨m, hm, hevents⟩ := except_map_ok.mp hread
      cases hevents
      obtain ⟨hgenuine, hsequence, hpayload⟩ := h.snapshot hm
      refine ⟨by simpa using hgenuine, .singleton m, ?_, by simp, nofun, Nat.le_of_eq hsequence⟩
      rintro m' ⟨⟩
      exact .inl ⟨hpayload, by omega⟩
    · have hstart : c.sequence + 1 - c.ring.length ≤ cursor + 1 := by omega
      have hafter := hconsecutive.after hstart
      obtain ⟨hevents, hnext⟩ := Prod.mk.inj (Except.ok.inj hread)
      rw [← hring] at hevents hnext
      rw [hevents] at hafter hnext
      have hmem : ∀ m ∈ events, Genuine x history m ∧ m.sequence ≤ c.sequence := by
        intro m hm
        rw [← hevents] at hm
        have hall := List.mem_of_mem_filter hm
        obtain ⟨e, he, rfl⟩ := List.mem_map.mp hall
        obtain ⟨i, hi⟩ := List.mem_iff_getElem?.mp he
        have hnumber := h.numbers i e hi
        have hlt := (List.getElem?_eq_some_iff.mp hi).1
        exact ⟨h.genuine e he, by omega⟩
      have hlast : ∀ m ∈ events.getLast?, m.sequence = next := by
        intro m hm
        rw [Option.mem_def] at hm
        rw [← hnext, hm]
        rfl
      refine ⟨fun m hm => (hmem m hm).1, hafter.isChain, ?_, hlast, ?_, ?_⟩
      · intro m hm
        rw [List.head?_eq_getElem?] at hm
        exact .inr (hafter 0 m hm)
      · intro hnil
        rw [hnil] at hnext
        exact hnext.symm
      · cases hend : events.getLast? with
        | none =>
          rw [hend] at hnext
          rw [← hnext]
          exact hcursor
        | some m =>
          rw [← hlast m hend]
          exact (hmem m (List.mem_of_getLast? hend)).2

end Reading

section Subscriptions

variable {x : Execution} {c c' : Channel} {history history' : List (Except String Snapshot)}
  {s : Subscription} {n : Nat}

/-- What a subscription was given: a snapshot and what follows it, up to its cursor. -/
structure Subscription.Fed (x : Execution) (c : Channel) (history : List (Except String Snapshot))
    (s : Subscription) : Prop where
  genuine : ∀ m ∈ s.received, Genuine x history m
  chain : s.received.IsChain Next
  first : ∃ m ∈ s.received.head?, ∃ p, m.payload = .snapshot p
  last : ∀ m ∈ s.received.getLast?, m.sequence = s.cursor
  cursor : s.cursor ≤ c.sequence

lemma Subscription.Fed.later (h : s.Fed x c history) (hhistory : history <+: history')
    (hsequence : c.sequence ≤ c'.sequence) : s.Fed x c' history' where
  genuine := fun m hm => by
    obtain ⟨more, rfl⟩ := hhistory
    exact (h.genuine m hm).append more
  chain := h.chain
  first := h.first
  last := h.last
  cursor := h.cursor.trans hsequence

/-- A new subscription starts with the current snapshot. -/
lemma Serves.subscribed (h : Serves x c history) {m : ExecutionEvent} (hm : c.snapshot = .ok m) :
    Subscription.Fed x c history ⟨m.sequence, [m], false⟩ := by
  obtain ⟨hgenuine, hsequence, hpayload⟩ := h.snapshot hm
  refine ⟨by simpa using hgenuine, .singleton m, ⟨m, rfl, hpayload⟩, by simp, ?_⟩
  exact Nat.le_of_eq hsequence

lemma Serves.read (h : Serves x c history) (hs : s.Fed x c history)
    {events : List ExecutionEvent} {next : Nat} (hread : c.readAfter s.cursor = .ok (events, next))
    : Subscription.Fed x c history ⟨next, s.received ++ events, false⟩ := by
  obtain ⟨hgenuine, hchain, hfirst, hlast, hnone, hnext⟩ := h.readAfter hs.cursor hread
  obtain ⟨m₀, hm₀, hsnapshot⟩ := hs.first
  refine ⟨?_, ?_, ?_, ?_, hnext⟩
  · intro m hm
    rcases List.mem_append.mp hm with hm | hm
    · exact hs.genuine m hm
    · exact hgenuine m hm
  · refine List.isChain_append.mpr ⟨hs.chain, hchain, ?_⟩
    intro m hm m' hm'
    have hcursor := hs.last m hm
    rcases hfirst m' hm' with ⟨hpayload, hle⟩ | hnumber
    · exact .inl ⟨hpayload, by omega⟩
    · exact .inr (by omega)
  · refine ⟨m₀, ?_, hsnapshot⟩
    rw [List.head?_append, Option.mem_def.mp hm₀]
    rfl
  · intro m hm
    rw [List.getLast?_append] at hm
    cases hend : events.getLast? with
    | none =>
      rw [hend] at hm
      rw [hs.last m hm]
      exact (hnone (List.getLast?_eq_none_iff.mp hend)).symm
    | some last =>
      rw [hend] at hm
      cases hm
      exact hlast _ hend

lemma Serves.withSubscribers (h : Serves x c history) :
    Serves x { c with subscribers := n } history :=
  ⟨h.execution, h.length, h.timeline, h.draft, h.terminal, h.bytes, h.numbers, h.genuine⟩

end Subscriptions

section Runs

variable {x : Execution} {maxEvents maxBytes maxSubscribers : Nat} {w w' : World} {a : Action}

/-- The channel and every subscription are in step with the history. -/
structure World.Faithful (x : Execution) (w : World) : Prop where
  serves : Serves x w.channel w.history
  fed : ∀ s ∈ w.subscriptions, s.Fed x w.channel w.history

/-- The runs with the calls in order and with totals that the client can hold. -/
def inOrderDelivery (x : Execution) (maxEvents maxBytes maxSubscribers : Nat) :
    System World Action :=
  (delivery x maxEvents maxBytes maxSubscribers).restrict fun w a => InOrder w a ∧ SafeTotals a

lemma faithful_init (h : (inOrderDelivery x maxEvents maxBytes maxSubscribers).init w) :
    w.Faithful x := by
  obtain ⟨-, hnone, hnew, hhistory⟩ := h
  refine ⟨?_, by simp [hnone]⟩
  rw [hhistory]
  exact .new hnew

lemma subscribe_ok {c : Channel} {m : ExecutionEvent} (h : c.subscribe.1 = .ok m) :
    c.snapshot = .ok m ∧ c.subscribe.2 = { c with subscribers := c.subscribers + 1 } := by
  unfold Channel.subscribe at h ⊢
  split at h
  · cases h
  · next hfree =>
    rw [if_neg hfree]
    exact ⟨h, rfl⟩

lemma unsubscribe_ok {c : Channel} (h : c.unsubscribe.1 = .ok ()) :
    c.unsubscribe.2 = { c with subscribers := c.subscribers - 1 } := by
  unfold Channel.unsubscribe at h ⊢
  split at h
  · cases h
  · next hsome => rw [if_neg hsome]

/-- A step keeps the world in step with a history that only grows. -/
lemma faithful_step (h : w.Faithful x)
    (hstep : (inOrderDelivery x maxEvents maxBytes maxSubscribers).step w a w') :
    w'.Faithful x ∧ w.history <+: w'.history := by
  obtain ⟨⟨hin, hsafe⟩, hstep⟩ := hstep
  cases hstep with
  | @call a hok =>
    have hserves := h.serves.call hin hsafe hok
    have hprefix : w.history <+: w.history ++ w.channel.added a := List.prefix_append _ _
    refine ⟨⟨hserves, ?_⟩, hprefix⟩
    intro s hs
    have hbefore := h.serves.length
    have hafter := hserves.length
    rw [List.length_append] at hafter
    have hsequence : w.channel.sequence ≤ (w.channel.call a).2.sequence := by omega
    exact (h.fed s hs).later hprefix hsequence
  | @subscribe m hm =>
    obtain ⟨hsnapshot, hchannel⟩ := subscribe_ok hm
    simp only [hchannel]
    refine ⟨⟨h.serves.withSubscribers, ?_⟩, List.prefix_rfl⟩
    intro s hs
    rcases List.mem_append.mp hs with hs | hs
    · exact (h.fed s hs).later List.prefix_rfl (Nat.le_refl _)
    · cases List.mem_singleton.mp hs
      exact (h.serves.subscribed hsnapshot).later List.prefix_rfl (Nat.le_refl _)
  | @read i s events next hs hopen hread =>
    refine ⟨⟨h.serves, ?_⟩, List.prefix_rfl⟩
    intro s' hs'
    rcases List.mem_or_eq_of_mem_set hs' with hs' | rfl
    · exact h.fed s' hs'
    · exact h.serves.read (h.fed s (List.mem_of_getElem? hs)) hread
  | @close i s hs hopen hok =>
    have hchannel := unsubscribe_ok hok
    simp only [hchannel]
    refine ⟨⟨h.serves.withSubscribers, ?_⟩, List.prefix_rfl⟩
    intro s' hs'
    rcases List.mem_or_eq_of_mem_set hs' with hs' | rfl
    · exact (h.fed s' hs').later List.prefix_rfl (Nat.le_refl _)
    · have hfed := h.fed s (List.mem_of_getElem? hs)
      exact ⟨hfed.genuine, hfed.chain, hfed.first, hfed.last, hfed.cursor⟩

lemma faithful (h : (inOrderDelivery x maxEvents maxBytes maxSubscribers).Reachable w) :
    w.Faithful x :=
  h.invariant (fun _ hw => faithful_init hw) (fun _ _ _ hw hstep => (faithful_step hw hstep).1)

/-- What stands at a number of the history stays there. -/
lemma history_grows {es : List Action}
    (h : (inOrderDelivery x maxEvents maxBytes maxSubscribers).Reachable w)
    (hrun : (inOrderDelivery x maxEvents maxBytes maxSubscribers).Run w es w') :
    w.history <+: w'.history :=
  hrun.relation (I := World.Faithful x) (R := fun w w' => w.history <+: w'.history)
    (fun _ => List.prefix_rfl) (fun h h' => h.trans h')
    (fun _ _ _ hw hstep => (faithful_step hw hstep).1)
    (fun _ _ _ hw hstep => (faithful_step hw hstep).2) (faithful h)

/-- The current payload of the channel stands at its sequence number. -/
lemma Serves.current {c : Channel} {history : List (Except String Snapshot)}
    (h : Serves x c history) : history[c.sequence]? = some (c.snapshotOf c.draft.parts) := by
  obtain ⟨draft, hdraft, hat⟩ := h.draft
  rw [snapshotOf_ok hdraft]
  exact hat

/-- A channel before its first step. -/
def World.start (c : Channel) : World := ⟨c, [c.snapshotOf c.draft.parts], []⟩

lemma exec_reachable {c : Channel} {actions : List Action} {ok : World → Action → Prop}
    [∀ w a, Decidable (ok w a)] (hstatus : isTerminal x.status = false)
    (hnew : Channel.new x maxEvents maxBytes maxSubscribers = .ok c)
    (h : System.exec World.next (fun w a => decide (ok w a)) (World.start c) actions = some w) :
    ((delivery x maxEvents maxBytes maxSubscribers).restrict ok).Reachable w := by
  have hrun := System.exec_run (M := (delivery x maxEvents maxBytes maxSubscribers).restrict ok)
    (fun w a w' hok hnext => ⟨of_decide_eq_true hok, World.next_step hnext⟩) h
  exact ⟨_, _, ⟨hstatus, rfl, hnew, rfl⟩, hrun⟩

/-- A message that some subscription was given. -/
def World.Given (w : World) (m : ExecutionEvent) : Prop := ∃ s ∈ w.subscriptions, m ∈ s.received

/-- A client of the channel shows the payload of its number, does not go back, and does not ask for
a snapshot as long as it gets the messages of its subscription in order. -/
theorem client_follows_channel {w₀ : World} {es : List Action} (hx : Identified x)
    (h : (inOrderDelivery x maxEvents maxBytes maxSubscribers).Reachable w₀)
    (hrun : (inOrderDelivery x maxEvents maxBytes maxSubscribers).Run w₀ es w)
    (hsafe : w.channel.sequence ≤ maxSafeInteger) :
    w.history[w₀.channel.sequence]? = some (w₀.channel.snapshotOf w₀.channel.draft.parts) ∧
    (∀ messages m, (∀ m' ∈ messages ++ [m], w.Given m') →
      (∀ state ∈ reduceAll none messages,
        ∃ state' ∈ (reduceExecutionEvent (reduceAll none messages) m).state,
          state.sequence ≤ state'.sequence ∧ (m.sequence ≤ state.sequence → state' = state)) ∧
      ((reduceExecutionEvent (reduceAll none messages) m).resnapshot = false →
        ∃ state ∈ (reduceExecutionEvent (reduceAll none messages) m).state,
          Shows x w.history state)) ∧
    ∀ messages, (∀ m' ∈ messages, w.Given m') → ∀ s ∈ w.subscriptions,
      (∀ state ∈ reduceAll none messages, ∀ m ∈ s.received.head?, state.sequence ≤ m.sequence) →
        ∀ before m after, s.received = before ++ m :: after →
          (reduceExecutionEvent (reduceAll (reduceAll none messages) before) m).resnapshot =
            false := by
  have hw₀ := faithful h
  have hw := faithful (h.run hrun)
  have hlength : w.history.length ≤ maxSafeInteger + 1 := by
    rw [hw.serves.length]
    omega
  have hgiven : ∀ m, w.Given m → Genuine x w.history m := by
    rintro m ⟨s, hs, hm⟩
    exact (hw.fed s hs).genuine m hm
  have hshows : ∀ messages, (∀ m ∈ messages, w.Given m) →
      ∀ state ∈ reduceAll none messages, Shows x w.history state := by
    intro messages hmessages
    have hnone : ∀ state ∈ (none : Option ExecutionState), Shows x w.history state := by simp
    exact shows_reduceAll hx hw.serves.timeline hlength hnone
      (fun m hm => hgiven m (hmessages m hm))
  refine ⟨?_, ?_, ?_⟩
  · obtain ⟨more, hmore⟩ := history_grows h hrun
    have hcurrent := hw₀.serves.current
    have hlt := (List.getElem?_eq_some_iff.mp hcurrent).1
    rw [← hmore, List.getElem?_append_left hlt, hcurrent]
  · intro messages m hall
    have hcurrent := hshows messages (fun m' hm' => hall m' (List.mem_append_left _ hm'))
    have hm := hgiven m (hall m (List.mem_append_right _ (List.mem_singleton_self m)))
    have hfollows := follows_reduce hx hw.serves.timeline hlength hcurrent hm
    generalize reduceExecutionEvent (reduceAll none messages) m = r at hfollows
    constructor
    · intro state hstate
      cases hfollows with
      | old hsame hseen => exact ⟨state, hstate, Nat.le_refl _, fun _ => rfl⟩
      | asked _ => exact ⟨state, hstate, Nat.le_refl _, fun _ => rfl⟩
      | @new state' hnew hsequence hlater =>
        have hlt := hlater state hstate
        exact ⟨state', rfl, by omega, fun hle => by omega⟩
    · intro hquiet
      cases hfollows with
      | @old state hstate _ => exact ⟨state, hstate, hcurrent state hstate⟩
      | asked _ => cases hquiet
      | @new state hnew _ _ => exact ⟨state, rfl, hnew⟩
  · intro messages hmessages s hs hbefore before m after hreceived
    have hfed := hw.fed s hs
    obtain ⟨m₀, hm₀, hsnapshot⟩ := hfed.first
    refine inOrder_never_asks hx hw.serves.timeline hlength (hshows messages hmessages)
      hfed.genuine hfed.chain ?_ hreceived
    intro m' hm'
    obtain rfl : m₀ = m' := Option.mem_unique hm₀ hm'
    exact .inl ⟨hsnapshot, fun state hstate => hbefore state hstate m₀ hm'⟩

/-- The new channel of an accepted execution. -/
def newChannel : Channel where
  execution := ⟨"e", "h", "t", .accepted, none⟩
  maxEvents := 64
  maxBytes := 4096
  maxSubscribers := 8
  status := .accepted
  stopReason := none
  terminal := false

/-- The second of two texts that a subscription reads. -/
theorem client_follows_channel_texts :
    ∃ w : World, ∃ s ∈ w.subscriptions, ∃ m₀ m₁ m, s.received = [m₀, m₁, m] ∧
      (reduceExecutionEvent (reduceAll none [m₀, m₁]) m).resnapshot = false := by
  have hexec : (System.exec World.next (fun w a => decide (InOrder w a ∧ SafeTotals a))
      (World.start newChannel) [.subscribe, .call (.textDelta "title" none 0 [.scalar 'a']),
        .call (.textDelta "title" none 1 [.scalar 'b']), .read 0]).any (fun w =>
          w.channel.sequence ≤ maxSafeInteger ∧
            ∃ s ∈ w.subscriptions, s.received.length = 3) = true := by decide +kernel
  obtain ⟨w, hw, hread⟩ := (Option.any_eq_true _ _).mp hexec
  obtain ⟨hsafe, s, hs, hlength⟩ := of_decide_eq_true hread
  obtain ⟨m₀, m₁, m, hreceived⟩ := List.length_eq_three.mp hlength
  have hnew : Channel.new newChannel.execution 64 4096 8 = .ok newChannel := rfl
  have hreachable := exec_reachable rfl hnew hw
  have hfollows := client_follows_channel ⟨by decide, by decide⟩ hreachable (.nil w) hsafe
  have hquiet := hfollows.2.2 [] (by simp) s hs (by simp [reduceAll]) [m₀, m₁] m [] hreceived
  exact ⟨w, s, hs, m₀, m₁, m, hreceived, hquiet⟩

/-- The server sets a total that the client cannot hold. -/
theorem client_asks_unsafe_total :
    ∃ w : World, ((delivery newChannel.execution 64 4096 8).restrict InOrder).Reachable w ∧
      ∃ s ∈ w.subscriptions, ∃ m, s.received = [m] ∧
        (reduceExecutionEvent none m).resnapshot = true := by
  have hexec : (System.exec World.next (fun w a => decide (InOrder w a))
      (World.start newChannel) [.call (.setTaskProgress 0 (2 ^ 53)), .subscribe]).any (fun w =>
          ∃ s ∈ w.subscriptions, ∃ m ∈ s.received, s.received = [m] ∧
            (reduceExecutionEvent none m).resnapshot = true) = true := by decide +kernel
  obtain ⟨w, hw, hread⟩ := (Option.any_eq_true _ _).mp hexec
  obtain ⟨s, hs, m, -, hreceived, hasks⟩ := of_decide_eq_true hread
  have hnew : Channel.new newChannel.execution 64 4096 8 = .ok newChannel := rfl
  have hreachable := exec_reachable rfl hnew hw
  exact ⟨w, hreachable, s, hs, m, hreceived, hasks⟩

end Runs

end ChatBI.Events
