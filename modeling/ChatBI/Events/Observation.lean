import ChatBI.Events.Reaching
import ChatBI.Lib.Transition

/-!
# Observing an execution to its end

`observeExecution`: one client that connects, loses its connection and connects again, while the
worker uses the channel, the record changes and the lease is released. A connection starts with
the snapshot of the channel or, after the release, with that of the record.
-/

namespace ChatBI.Events

open ChatBI.Lib ChatBI.Store

/-- An open stream of the channel: its cursor, and the events on the way to the client. -/
structure Connection where
  cursor : Nat
  pending : List ExecutionEvent
  deriving DecidableEq

structure Observation where
  channel : Channel
  status : ExecutionStatus
  stopReason : Option String
  released : Bool
  client : Option ExecutionState
  connection : Option Connection
  returned : Option ExecutionState
  failed : Bool
  deriving DecidableEq

inductive ObserverAction where
  | call (a : Channel.Call)
  | record (status : ExecutionStatus) (stopReason : Option String)
  | release
  | connect
  | read
  | deliver
  | disconnect
  deriving DecidableEq

/-- `_persisted_snapshot`. -/
def persistedSnapshot (x : Execution) (status : ExecutionStatus) (stopReason : Option String) :
    ExecutionEvent :=
  x.event 0 0 (.snapshot {
    status
    stage := none
    completedTasks := 0
    totalTasks := none
    stopReason := stopReason.map Text.ofString
    draftGeneration := 0
    draft := none })

def Execution.identity (x : Execution) : ExecutionIdentity := ⟨x.id, x.historyId, x.turnId⟩

namespace Observation

variable (o : Observation)

/-- What the server sends first on a new connection. -/
def sent : Except String ExecutionEvent :=
  if o.released then .ok (persistedSnapshot o.channel.execution o.status o.stopReason)
  else o.channel.snapshot

/-- One turn of the loop over the events of a connection. A client that asks for a new snapshot
closes the connection; an event that the decoder rejects ends the observation. -/
def take (m : ExecutionEvent) : Observation :=
  if decodeExecutionEvent o.channel.execution.identity m then
    if (reduceExecutionEvent o.client m).resnapshot then { o with connection := none }
    else { o with
      client := (reduceExecutionEvent o.client m).state
      returned := (reduceExecutionEvent o.client m).state.filter (isTerminal ·.status) }
  else { o with connection := none, failed := true }

/-- The release of the lease, which ends a channel that has not ended. -/
def release : Observation :=
  { o with
    channel := if o.channel.terminal then o.channel else (o.channel.finish .unconfirmed none).2
    released := true }

/-- The observer still waits for the end. -/
def waits : Bool := o.returned.isNone && !o.failed

end Observation

/-- The steps around one observer. The worker's calls are in order; they may raise. -/
inductive Observation.Step : Observation → ObserverAction → Observation → Prop where
  | call {o : Observation} {a : Channel.Call} (hheld : o.released = false)
      (hin : o.channel.InOrder a) :
      Step o (.call a) { o with channel := (o.channel.call a).2 }
  | record {o : Observation} {status : ExecutionStatus} {stopReason : Option String}
      (hopen : isTerminal o.status = false) :
      Step o (.record status stopReason) { o with status := status, stopReason := stopReason }
  | release {o : Observation} (hheld : o.released = false) : Step o .release o.release
  | connect {o : Observation} {m : ExecutionEvent} (hwaits : o.waits = true)
      (hidle : o.connection = none) (hm : o.sent = .ok m) :
      Step o .connect (Observation.take { o with
        connection := if o.released then none else some ⟨m.sequence, []⟩ } m)
  | read {o : Observation} {k : Connection} {events : List ExecutionEvent} {cursor : Nat}
      (hk : o.connection = some k) (h : o.channel.readAfter k.cursor = .ok (events, cursor)) :
      Step o .read { o with connection := some ⟨cursor, k.pending ++ events⟩ }
  | deliver {o : Observation} {cursor : Nat} {m : ExecutionEvent} {rest : List ExecutionEvent}
      (hwaits : o.waits = true) (hk : o.connection = some ⟨cursor, m :: rest⟩) :
      Step o .deliver (Observation.take { o with connection := some ⟨cursor, rest⟩ } m)
  | disconnect {o : Observation} : Step o .disconnect { o with connection := none }

/-- The step that an action takes. -/
def Observation.next (o : Observation) : ObserverAction → Option Observation
  | .call a =>
    if o.released = false ∧ o.channel.InOrder a then
      some { o with channel := (o.channel.call a).2 }
    else none
  | .record status stopReason =>
    if isTerminal o.status then none
    else some { o with status := status, stopReason := stopReason }
  | .release => if o.released then none else some o.release
  | .connect =>
    match o.sent with
    | .ok m =>
      if o.waits = true ∧ o.connection = none then some (Observation.take { o with
        connection := if o.released then none else some ⟨m.sequence, []⟩ } m)
      else none
    | .error _ => none
  | .read =>
    match o.connection with
    | some k =>
      match o.channel.readAfter k.cursor with
      | .ok (events, cursor) =>
        some { o with connection := some ⟨cursor, k.pending ++ events⟩ }
      | .error _ => none
    | none => none
  | .deliver =>
    match o.connection with
    | some ⟨cursor, m :: rest⟩ =>
      if o.waits then
        some (Observation.take { o with connection := some ⟨cursor, rest⟩ } m)
      else none
    | _ => none
  | .disconnect => some { o with connection := none }

lemma Observation.next_step {o o' : Observation} {a : ObserverAction} (h : o.next a = some o') :
    Observation.Step o a o' := by
  cases a with
  | call a =>
    simp only [Observation.next] at h
    split at h
    · next hok =>
      cases h
      exact .call hok.1 hok.2
    · cases h
  | record status stopReason =>
    simp only [Observation.next] at h
    split at h
    · cases h
    · next hopen =>
      cases h
      exact .record (by simpa using hopen)
  | release =>
    simp only [Observation.next] at h
    split at h
    · cases h
    · next hheld =>
      cases h
      exact .release (by simpa using hheld)
  | connect =>
    simp only [Observation.next] at h
    split at h
    · next m hm =>
      split at h
      · next hok =>
        cases h
        exact .connect hok.1 hok.2 hm
      · cases h
    · cases h
  | read =>
    simp only [Observation.next] at h
    split at h
    · next k hk =>
      split at h
      · next events cursor hread =>
        cases h
        exact .read hk hread
      · cases h
    · cases h
  | deliver =>
    simp only [Observation.next] at h
    split at h
    · next cursor m rest hk =>
      split at h
      · next hwaits =>
        cases h
        exact .deliver hwaits hk
      · cases h
    · cases h
  | disconnect =>
    cases h
    exact .disconnect

/-- An observation before its first step. -/
def Observation.start (c : Channel) : Observation where
  channel := c
  status := c.status
  stopReason := c.execution.stopReason
  released := false
  client := none
  connection := none
  returned := none
  failed := false

/-- The observations of an execution with a new channel. -/
def observing (x : Execution) (maxEvents maxBytes maxSubscribers : Nat) :
    System Observation ObserverAction where
  init o := Channel.new x maxEvents maxBytes maxSubscribers = .ok o.channel ∧
    o.released = false ∧ o.client = none ∧ o.connection = none ∧ o.returned = none ∧
    o.failed = false
  step := Observation.Step

section Runs

variable {x : Execution} {maxEvents maxBytes maxSubscribers : Nat} {o o' : Observation}
  {a : ObserverAction} {m : ExecutionEvent}

/-- What holds around an observer. -/
structure Observation.Sound (x : Execution) (o : Observation) : Prop where
  execution : o.channel.execution = x
  ended : o.channel.terminal = isTerminal o.channel.status
  ring : ∀ e ∈ o.channel.ring, Told o.channel e.1
  pending : ∀ k ∈ o.connection, ∀ m ∈ k.pending, Told o.channel m
  client : ∀ s ∈ o.client, Known o.channel s
  released : o.released = true → o.channel.terminal = true
  waits : o.returned = none → ∀ s ∈ o.client, isTerminal s.status = false

lemma statusRank_of_terminal {s : ExecutionStatus} (h : isTerminal s = true) : statusRank s = 3 := by
  cases s <;> simp_all [isTerminal, statusRank]

lemma statusRank_le_three (s : ExecutionStatus) : statusRank s ≤ 3 := by
  cases s <;> simp [statusRank]

/-- The record's snapshot says nothing that an ended channel has not reached. -/
lemma told_persisted {c : Channel} (hended : isTerminal c.status = true) (status : ExecutionStatus)
    (stopReason : Option String) : Told c (persistedSnapshot c.execution status stopReason) := by
  refine ⟨⟨0, rfl, Nat.zero_le _⟩, Nat.zero_le _, ?_, ?_, ?_, ?_⟩
  · rintro _ ⟨⟩
    rw [statusRank_of_terminal hended]
    exact statusRank_le_three status
  · rintro _ ⟨⟩
    rfl
  · rintro _ ⟨⟩
    exact Nat.zero_le _
  · rintro _ ⟨⟩ _ ⟨⟩

lemma Observation.Sound.sent (h : o.Sound x) (hm : o.sent = .ok m) : Told o.channel m := by
  unfold Observation.sent at hm
  by_cases hreleased : o.released = true
  · rw [if_pos hreleased] at hm
    rw [← Except.ok.inj hm]
    have hended := h.ended.symm.trans (h.released hreleased)
    exact told_persisted hended _ _
  · rw [if_neg hreleased] at hm
    exact told_snapshot hm

/-- One message taken by the client. -/
lemma Observation.Sound.take (h : o.Sound x) (hm : Told o.channel m) : (o.take m).Sound x := by
  unfold Observation.take
  split
  · split
    · exact ⟨h.execution, h.ended, h.ring, by simp, h.client, h.released, h.waits⟩
    · refine ⟨h.execution, h.ended, h.ring, h.pending, known_reduce hm h.client, h.released, ?_⟩
      intro hnone s hs
      simp only [Option.mem_def] at hs
      simp only [hs, Option.filter_some] at hnone
      split at hnone
      · cases hnone
      · next hrunning => simpa using hrunning
  · exact ⟨h.execution, h.ended, h.ring, by simp, h.client, h.released, h.waits⟩

/-- A channel that moved on, with new events in its ring. -/
lemma Observation.Sound.withChannel {c : Channel} {r : Bool} (h : o.Sound x)
    (hlater : Later o.channel c) (hring : ∀ e ∈ c.ring, e ∈ o.channel.ring ∨ Told c e.1)
    (hended : c.terminal = isTerminal c.status) (hreleased : r = true → c.terminal = true) :
    Observation.Sound x { o with channel := c, released := r } := by
  refine ⟨hlater.execution.trans h.execution, hended, ?_, ?_, ?_, hreleased, h.waits⟩
  · intro e he
    rcases hring e he with hold | hnew
    · exact (h.ring e hold).later hlater
    · exact hnew
  · intro k hk m hm
    exact (h.pending k hk m hm).later hlater
  · intro s hs
    exact (h.client s hs).later hlater

lemma readAfter_told {c : Channel} {cursor next : Nat} {events : List ExecutionEvent}
    (hring : ∀ e ∈ c.ring, Told c e.1) (h : c.readAfter cursor = .ok (events, next)) :
    ∀ m ∈ events, Told c m := by
  unfold Channel.readAfter at h
  cases hr : c.ring with
  | nil =>
    rw [hr] at h
    cases h
    simp
  | cons oldest ring =>
    simp only [hr] at h
    split at h
    · obtain ⟨m, hm, hevents⟩ := except_map_ok.mp h
      cases hevents
      simpa using told_snapshot hm
    · obtain ⟨hevents, -⟩ := Prod.mk.inj (Except.ok.inj h)
      intro m hm
      rw [← hevents] at hm
      obtain ⟨e, he, rfl⟩ := List.mem_map.mp (List.mem_of_mem_filter hm)
      exact hring e (hr ▸ he)

/-- The channel after the release of the lease. -/
lemma Observation.release_channel (o : Observation) :
    o.channel.terminal = true ∧ o.release.channel = o.channel ∨
      o.channel.terminal = false ∧
        Called o.channel (.finish .unconfirmed none) o.release.channel ∧
          o.release.channel.terminal = true := by
  unfold Observation.release
  by_cases hterminal : o.channel.terminal = true
  · exact .inl ⟨hterminal, by simp only [if_pos hterminal]⟩
  · have hrunning : o.channel.terminal = false := by simpa using hterminal
    have hcalled := called o.channel (.finish .unconfirmed none)
    have hended : (o.channel.finish .unconfirmed none).2.terminal = true := by
      unfold Channel.finish
      rw [if_neg (by decide), if_neg hterminal]
      have happended := (appended { o.channel with
        status := .unconfirmed, draft := {}, terminal := true }
          (.terminal .unconfirmed (Channel.safeError none))).fields
      rw [happended]
    simp only [if_neg hterminal]
    exact .inr ⟨hrunning, hcalled, hended⟩

lemma Observation.Sound.step (h : o.Sound x) (hstep : Observation.Step o a o') : o'.Sound x := by
  cases hstep with
  | @call a hheld hin =>
    have hcalled := called o.channel a
    obtain ⟨hlater, hring⟩ := hcalled.later hin h.ended
    exact h.withChannel hlater hring (hcalled.ended h.ended) (by simp [hheld])
  | record hopen =>
    exact ⟨h.execution, h.ended, h.ring, h.pending, h.client, h.released, h.waits⟩
  | release hheld =>
    rcases o.release_channel with ⟨hterminal, hsame⟩ | ⟨-, hcalled, hterminal⟩
    · have hnew := h.withChannel (c := o.release.channel) (r := true)
        (by rw [hsame]; exact Later.refl _) (fun e he => .inl (by rw [hsame] at he; exact he))
        (by rw [hsame]; exact h.ended) (fun _ => by rw [hsame]; exact hterminal)
      exact hnew
    · obtain ⟨hlater, hring⟩ := hcalled.later trivial h.ended
      have hnew := h.withChannel (r := true) hlater hring (hcalled.ended h.ended)
        (fun _ => hterminal)
      exact hnew
  | @connect m hwaits hidle hm =>
    refine Observation.Sound.take ?_ (h.sent hm)
    refine ⟨h.execution, h.ended, h.ring, ?_, h.client, h.released, h.waits⟩
    intro k hk m' hm'
    simp only [Option.mem_def] at hk
    split at hk
    · cases hk
    · cases hk
      cases hm'
  | @read k events cursor hk hread =>
    refine ⟨h.execution, h.ended, h.ring, ?_, h.client, h.released, h.waits⟩
    rintro _ ⟨⟩ m hm
    rcases List.mem_append.mp hm with hm | hm
    · exact h.pending k hk m hm
    · exact readAfter_told h.ring hread m hm
  | @deliver cursor m rest hwaits hk =>
    have hm := h.pending _ hk m List.mem_cons_self
    refine Observation.Sound.take ?_ hm
    refine ⟨h.execution, h.ended, h.ring, ?_, h.client, h.released, h.waits⟩
    rintro _ ⟨⟩ m' hm'
    exact h.pending _ hk m' (List.mem_cons_of_mem m hm')
  | disconnect => exact ⟨h.execution, h.ended, h.ring, by simp, h.client, h.released, h.waits⟩

lemma exec_observing {c : Channel} {actions : List ObserverAction}
    (hnew : Channel.new x maxEvents maxBytes maxSubscribers = .ok c)
    (h : System.exec Observation.next (fun _ _ => true) (Observation.start c) actions = some o) :
    (observing x maxEvents maxBytes maxSubscribers).Reachable o :=
  ⟨_, _, ⟨hnew, rfl, rfl, rfl, rfl, rfl⟩,
    System.exec_run (fun _ _ _ _ hnext => Observation.next_step hnext) h⟩

theorem observation_sound (h : (observing x maxEvents maxBytes maxSubscribers).Reachable o) :
    o.Sound x := by
  refine h.invariant ?_ (fun _ _ _ hsound hstep => hsound.step hstep)
  rintro o ⟨hnew, hreleased, hclient, hconnection, -, -⟩
  obtain ⟨_, -, hnew⟩ := except_bind_ok.mp hnew
  have hchannel := except_pure_ok.mp hnew
  refine ⟨?_, ?_, ?_, by simp [hconnection], by simp [hclient], by simp [hreleased],
    by simp [hclient]⟩
  · rw [← hchannel]
  · rw [← hchannel]
  · rw [← hchannel]
    simp

/-- A snapshot that a client in the given state does not drop: it can decode the snapshot, is at
another number, and its generation is not above the snapshot's. -/
def Reportable (x : Execution) (current : Option ExecutionState) (m : ExecutionEvent) : Prop :=
  decodeExecutionEvent x.identity m = true ∧
    ∀ s ∈ current, (∀ g ∈ m.draftGeneration, s.draftGeneration ≤ g) ∧ s.sequence ≠ m.sequence

lemma decode_snapshot {s : Snapshot} (hpayload : m.payload = .snapshot s)
    (h : decodeExecutionEvent x.identity m = true) :
    m.historyId = some x.historyId ∧ m.turnId = some x.turnId ∧
      (∃ g, m.draftGeneration = some g ∧ safeCount g = true) ∧ validCounts s = true ∧
        (reportDraft s.draft).isSome = true := by
  simp only [decodeExecutionEvent, hpayload, decodeSnapshot, Execution.identity, Bool.and_eq_true,
    decide_eq_true_eq, Option.any_eq_true] at h
  obtain ⟨-, ⟨⟨hhistory, hturn⟩, g, hg, hsafe⟩, ⟨⟨⟨⟨hcounts, -⟩, -⟩, -⟩, -⟩, hdraft⟩ := h
  exact ⟨of_decide_eq_true hhistory, of_decide_eq_true hturn, ⟨g, hg, hsafe⟩, hcounts, hdraft⟩

lemma fromSnapshot_status (current : Option ExecutionState) (e : Envelope) {s : Snapshot}
    (h : (reportDraft s.draft).isSome = true) :
    (fromSnapshot current e s).resnapshot = false ∧
      (fromSnapshot current e s).state.any (·.status = s.status) = true := by
  obtain ⟨draft, hdraft⟩ := Option.isSome_iff_exists.mp h
  simp [fromSnapshot, hdraft, keep]

/-- A terminal snapshot that the client can decode gives a state with its status, unless the client
drops it. -/
lemma reduce_terminal_snapshot {c : Channel} {current : Option ExecutionState} {s : Snapshot}
    (hx : Identified c.execution) (hcurrent : ∀ t ∈ current, Known c t)
    (hrunning : ∀ t ∈ current, isTerminal t.status = false) (hm : Told c m)
    (hpayload : m.payload = .snapshot s) (hs : isTerminal s.status = true)
    (hforward : ∀ t ∈ current, t.sequence < m.sequence → snapshotRegresses t s = false)
    (h : decodeExecutionEvent c.execution.identity m = true) :
    ((reduceExecutionEvent current m).resnapshot = false ∧
      (reduceExecutionEvent current m).state.any (·.status = s.status) = true) ↔
        ∀ t ∈ current, (∀ g ∈ m.draftGeneration, t.draftGeneration ≤ g) ∧
          t.sequence ≠ m.sequence := by
  obtain ⟨hhistory, hturn, ⟨g, hg, hsafe⟩, hcounts, hdraft⟩ := decode_snapshot hpayload h
  have hid : m.executionId = c.execution.id := by
    obtain ⟨g, hsource, -⟩ := hm.source
    rw [hsource]
    rfl
  have henvelope : envelope? m =
      some ⟨c.execution.id, c.execution.historyId, c.execution.turnId, m.sequence, g⟩ := by
    simp only [envelope?, hhistory, hturn, hg, hid]
    rw [if_pos ⟨hx.history, hx.turn, hsafe⟩]
  have hown : ¬∃ t ∈ current, ¬(Envelope.mk c.execution.id c.execution.historyId
      c.execution.turnId m.sequence g).Of t := by
    rintro ⟨t, ht, hother⟩
    exact hother ⟨(hcurrent t ht).execution.symm, (hcurrent t ht).history.symm,
      (hcurrent t ht).turn.symm⟩
  have hauth : m.payload ≠ .authLost := by simp [hpayload]
  rw [reduceExecutionEvent, if_neg hauth, henvelope]
  simp only [if_neg hown, hpayload]
  cases current with
  | none =>
    have hnew := fromSnapshot_status none ⟨c.execution.id,
      c.execution.historyId, c.execution.turnId, m.sequence, g⟩ hdraft
    simp only [reduceSnapshot, hcounts, if_true]
    exact ⟨fun _ => by simp, fun _ => hnew⟩
  | some t =>
    have hstatus : t.status ≠ s.status := by
      intro hsame
      have hfalse := hrunning t rfl
      rw [hsame, hs] at hfalse
      cases hfalse
    have hkept : ¬((keep (some t)).resnapshot = false ∧
        (keep (some t)).state.any (·.status = s.status) = true) := by
      simp [keep, hstatus]
    simp only [reduceSnapshot]
    by_cases hgeneration : g < t.draftGeneration
    · rw [if_pos hgeneration]
      refine iff_of_false hkept ?_
      intro hall
      have hle := (hall t rfl).1 g hg
      omega
    rw [if_neg hgeneration, if_neg (not_not_intro hcounts)]
    have hle : ∀ g' ∈ m.draftGeneration, t.draftGeneration ≤ g' := by
      intro g' hg'
      obtain rfl : g = g' := Option.mem_unique hg hg'
      omega
    by_cases hbefore : m.sequence < t.sequence
    · rw [if_pos hbefore, if_pos ⟨hs, by simp [hrunning t rfl]⟩]
      refine iff_of_true (by simp [keep]) ?_
      rintro t' ⟨⟩
      exact ⟨hle, by omega⟩
    rw [if_neg hbefore]
    by_cases hsame : m.sequence = t.sequence
    · rw [if_pos hsame]
      refine iff_of_false hkept ?_
      intro hall
      exact (hall t rfl).2 hsame.symm
    have hregress := hforward t rfl (by omega)
    rw [if_neg hsame, if_neg (by simp [hrunning t rfl]), if_neg (by simp [hregress])]
    have hnew := fromSnapshot_status (some t) ⟨c.execution.id,
      c.execution.historyId, c.execution.turnId, m.sequence, g⟩ hdraft
    refine iff_of_true hnew ?_
    rintro t' ⟨⟩
    exact ⟨hle, fun he => hsame he.symm⟩

lemma snapshotRegresses_of_reached {c : Channel} {state : ExecutionState}
    {draft : Option ReportDraft} (h : Reached c state.fields) :
    snapshotRegresses state (c.state draft) = false := by
  have hstatus : ¬statusRank c.status < statusRank state.status :=
    Nat.not_lt.mpr (h.status _ rfl)
  have hcompleted : ¬c.completedTasks < state.completedTasks := Nat.not_lt.mpr (h.completed _ rfl)
  have htotal : (state.totalTasks.isSome && decide (c.totalTasks ≠ state.totalTasks)) = false := by
    cases ht : state.totalTasks with
    | none => rfl
    | some n =>
      have hsame := h.total _ rfl n ht
      simp [hsame]
  unfold snapshotRegresses
  simp only [Bool.or_eq_false_iff]
  exact ⟨⟨⟨decide_eq_false hstatus, h.stage _ rfl⟩, decide_eq_false hcompleted⟩, htotal⟩

/-- The snapshot on a new connection does not go back behind a client at an earlier number. -/
lemma Observation.Sound.forward (h : o.Sound x) (hm : o.sent = .ok m) {s : Snapshot}
    (hpayload : m.payload = .snapshot s) :
    ∀ t ∈ o.client, t.sequence < m.sequence → snapshotRegresses t s = false := by
  intro t ht hbefore
  unfold Observation.sent at hm
  by_cases hreleased : o.released = true
  · rw [if_pos hreleased] at hm
    rw [← Except.ok.inj hm] at hbefore
    exact absurd hbefore (Nat.not_lt_zero _)
  · rw [if_neg hreleased] at hm
    obtain ⟨p, hp, rfl⟩ := except_map_ok.mp hm
    obtain ⟨draft, -, rfl⟩ := except_map_ok.mp hp
    obtain rfl := Payload.snapshot.inj hpayload
    exact snapshotRegresses_of_reached (h.client t ht).reached

lemma Observation.take_returned {s : Snapshot} (hnone : o.returned = none)
    (hs : isTerminal s.status = true) :
    (o.take m).returned.map ExecutionState.status = some s.status ↔
      decodeExecutionEvent o.channel.execution.identity m = true ∧
        (reduceExecutionEvent o.client m).resnapshot = false ∧
          (reduceExecutionEvent o.client m).state.any (·.status = s.status) = true := by
  unfold Observation.take
  by_cases hdecode : decodeExecutionEvent o.channel.execution.identity m = true
  · rw [if_pos hdecode]
    by_cases hasks : (reduceExecutionEvent o.client m).resnapshot = true
    · rw [if_pos hasks]
      simp [hnone, hasks]
    · rw [if_neg hasks]
      cases hstate : (reduceExecutionEvent o.client m).state with
      | none => simp
      | some state =>
        simp only [Option.filter_some, Option.any_some, decide_eq_true_eq]
        by_cases hstatus : state.status = s.status
        · simp [hstatus, hs, hdecode, hasks]
        · have hdropped : ∀ {b : Bool}, (if b = true then some state else none).map
              ExecutionState.status ≠ some s.status := by
            intro b
            cases b <;> simp [hstatus]
          exact iff_of_false hdropped (fun hall => hstatus hall.2.2)
  · rw [if_neg hdecode]
    simp [hnone, hdecode]

/-- A connection of an observer that still waits returns the status of a terminal snapshot exactly
when the client does not drop the snapshot. -/
theorem connect_returns_iff (hx : Identified x)
    (h : (observing x maxEvents maxBytes maxSubscribers).Reachable o)
    (hstep : (observing x maxEvents maxBytes maxSubscribers).step o .connect o')
    (hm : o.sent = .ok m) {s : Snapshot} (hpayload : m.payload = .snapshot s)
    (hs : isTerminal s.status = true) :
    o'.returned.map ExecutionState.status = some s.status ↔ Reportable x o.client m := by
  have hsound := observation_sound h
  cases hstep with
  | @connect m' hwaits hidle hm' =>
    obtain rfl : m = m' := Except.ok.inj (hm.symm.trans hm')
    have hnone : o.returned = none := by
      simp only [Observation.waits, Bool.and_eq_true, Option.isNone_iff_eq_none] at hwaits
      exact hwaits.1
    have htake := Observation.take_returned (m := m) (o := { o with
      connection := if o.released then none else some ⟨m.sequence, []⟩ }) hnone hs
    rw [htake]
    have hexecution : Identified o.channel.execution := hsound.execution ▸ hx
    refine Iff.trans ?_ (and_congr_right fun hdecode => reduce_terminal_snapshot hexecution
      hsound.client (hsound.waits hnone) (hsound.sent hm) hpayload hs
      (hsound.forward hm hpayload) ?_)
    · rw [hsound.execution]
    · rw [hsound.execution]
      exact hdecode

end Runs

end ChatBI.Events
