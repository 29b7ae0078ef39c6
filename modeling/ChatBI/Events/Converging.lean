import ChatBI.Events.Delivery
import ChatBI.Events.Observation

/-!
# The end of an observation

When a terminal snapshot ends an observation: always when it comes from a channel that told its
end, and from the record unless the client saw no event or a model retry.
-/

namespace ChatBI.Events

open ChatBI.Lib ChatBI.Store

section Ending

variable {x : Execution} {maxEvents maxBytes maxSubscribers : Nat} {o o' : Observation}
  {a : ObserverAction} {c : Channel} {m : ExecutionEvent}

/-- A message that says a terminal status. -/
def Final (m : ExecutionEvent) : Prop :=
  ∃ t, m.payload.fields.status = some t ∧ isTerminal t = true

/-- The calls that end the channel append their event. -/
def EndIsTold (o : Observation) : ObserverAction → Prop
  | .call (.finish status publicError) =>
    (o.channel.call (.finish status publicError)).1 = .ok ()
  | .release => o.channel.terminal = true ∨ (o.channel.finish .unconfirmed none).1 = .ok ()
  | _ => True

/-- At the last number of an ended channel every message and every client is final. -/
structure Observation.EndsTold (o : Observation) : Prop where
  ring : o.channel.terminal = true → ∀ e ∈ o.channel.ring,
    e.1.sequence = o.channel.sequence → Final e.1
  pending : o.channel.terminal = true → ∀ k ∈ o.connection, ∀ m ∈ k.pending,
    m.sequence = o.channel.sequence → Final m
  client : o.channel.terminal = true → o.released = false → ∀ s ∈ o.client,
    s.sequence = o.channel.sequence → isTerminal s.status = true

lemma finish_ok {status : ExecutionStatus} {publicError : Option PublicError}
    (hrunning : c.terminal = false) (h : (c.finish status publicError).1 = .ok ()) :
    isTerminal status = true ∧ ∃ size, (c.finish status publicError).2 =
      ({ c with status := status, draft := {}, terminal := true } : Channel).push
        (({ c with status := status, draft := {}, terminal := true } : Channel).envelope
          (c.sequence + 1) (.terminal status (Channel.safeError publicError))) size := by
  unfold Channel.finish at h ⊢
  by_cases hstatus : isTerminal status = true
  · rw [if_neg (not_not_intro hstatus), if_neg (by simp [hrunning])] at h ⊢
    exact ⟨hstatus, append_ok h⟩
  · rw [if_pos hstatus] at h
    cases h

/-- A channel that ends with its event: whatever it said before has an earlier number. -/
lemma ring_finish {status : ExecutionStatus} {publicError : Option PublicError}
    (hring : ∀ e ∈ c.ring, Told c e.1) (hrunning : c.terminal = false)
    (h : (c.finish status publicError).1 = .ok ()) :
    c.sequence < (c.finish status publicError).2.sequence ∧
      ∀ e ∈ (c.finish status publicError).2.ring,
        e.1.sequence = (c.finish status publicError).2.sequence → Final e.1 := by
  obtain ⟨hstatus, size, hpush⟩ := finish_ok hrunning h
  rw [hpush]
  refine ⟨Nat.lt_succ_self _, ?_⟩
  intro e he hlast
  have hall := (trim_suffix _ _ _ _).subset he
  rcases List.mem_append.mp hall with hold | hnew
  · have hbefore : e.1.sequence ≤ c.sequence := (hring e hold).sequence
    have hnumber : e.1.sequence = c.sequence + 1 := hlast
    omega
  · cases List.mem_singleton.mp hnew
    exact ⟨status, rfl, hstatus⟩

/-- The client after a message that is final at the last number. -/
lemma final_reduce {n : Nat} {current : Option ExecutionState}
    (hcurrent : ∀ s ∈ current, s.sequence = n → isTerminal s.status = true)
    (hm : m.sequence = n → Final m) :
    ∀ s ∈ (reduceExecutionEvent current m).state, s.sequence = n → isTerminal s.status = true := by
  have hreduction := reduction current m
  generalize (reduceExecutionEvent current m).state = next at hreduction
  rintro new rfl hnumber
  cases hreduction with
  | kept => exact hcurrent new rfl hnumber
  | snapshot hpayload hgen hid hhistory hturn hfields hsame hdraft =>
    obtain ⟨t, ht, hterminal⟩ := hm (hsame ▸ hnumber)
    rw [← hfields] at ht
    rw [Option.some.inj ht]
    exact hterminal
  | ended hpayload hsome hstatus => exact hstatus
  | @next state _ g hevent hgen hsome hid hhistory hturn hsame hdraft hfields =>
    obtain ⟨t, ht, hterminal⟩ := hm (hsame ▸ hnumber)
    have hprogress : m.payload.progressFields.status = some t := by
      cases hpayload : m.payload with
      | snapshot s => exact absurd hpayload (hevent s)
      | _ =>
        rw [hpayload] at ht
        exact ht
    have hstatus := congrArg Progress.status hfields
    rw [hprogress] at hstatus
    rw [Option.some.inj hstatus]
    exact hterminal

lemma final_snapshot (hended : c.terminal = isTerminal c.status) (hterminal : c.terminal = true)
    (h : c.snapshot = .ok m) : Final m := by
  obtain ⟨s, hs, rfl⟩ := except_map_ok.mp h
  obtain ⟨draft, -, rfl⟩ := except_map_ok.mp hs
  exact ⟨c.status, rfl, hended.symm.trans hterminal⟩

lemma readAfter_final {cursor next : Nat} {events : List ExecutionEvent}
    (hended : c.terminal = isTerminal c.status) (hterminal : c.terminal = true)
    (hring : ∀ e ∈ c.ring, e.1.sequence = c.sequence → Final e.1)
    (h : c.readAfter cursor = .ok (events, next)) :
    ∀ m ∈ events, m.sequence = c.sequence → Final m := by
  unfold Channel.readAfter at h
  cases hr : c.ring with
  | nil =>
    rw [hr] at h
    cases h
    simp
  | cons oldest ring =>
    simp only [hr] at h
    split at h
    · obtain ⟨m, hm, hevents⟩ := except_map_ok.mp h
      cases hevents
      simpa using fun _ => final_snapshot hended hterminal hm
    · obtain ⟨hevents, -⟩ := Prod.mk.inj (Except.ok.inj h)
      intro m hm
      rw [← hevents] at hm
      obtain ⟨e, he, rfl⟩ := List.mem_map.mp (List.mem_of_mem_filter hm)
      exact hring e (hr ▸ he)

lemma Observation.EndsTold.take (h : o.EndsTold)
    (hm : o.channel.terminal = true → o.released = false → m.sequence = o.channel.sequence →
      Final m) : (o.take m).EndsTold := by
  unfold Observation.take
  split
  · split
    · exact ⟨h.ring, by simp, h.client⟩
    · refine ⟨h.ring, h.pending, ?_⟩
      intro hterminal hheld
      exact final_reduce (h.client hterminal hheld) (hm hterminal hheld)
  · exact ⟨h.ring, by simp, h.client⟩

/-- A channel that ends with its event behind every message. -/
lemma Observation.EndsTold.finish {status : ExecutionStatus} {publicError : Option PublicError}
    {r : Bool} (hsound : o.Sound x) (hrunning : o.channel.terminal = false)
    (hok : (o.channel.finish status publicError).1 = .ok ()) :
    Observation.EndsTold { o with
      channel := (o.channel.finish status publicError).2, released := r } := by
  obtain ⟨hlater, hring⟩ := ring_finish hsound.ring hrunning hok
  refine ⟨fun _ => hring, ?_, ?_⟩
  · intro _ k hk m hm hlast
    have hbefore := (hsound.pending k hk m hm).sequence
    simp only [] at hlast
    omega
  · intro _ _ s hs hlast
    have hbefore := (hsound.client s hs).sequence
    simp only [] at hlast
    omega

/-- Only `finish` ends a channel. -/
lemma Called.running {c' : Channel} {a : Channel.Call} (h : Called c a c')
    (hrunning : c.terminal = false) (ha : ∀ status publicError, a ≠ .finish status publicError) :
    c'.terminal = false := by
  cases h with
  | unchanged => exact hrunning
  | unexplained => exact hrunning
  | status _ _ _ h =>
    rw [h.fields]
    exact hrunning
  | stage _ _ h =>
    rw [h.fields]
    exact hrunning
  | tasks _ _ _ _ h =>
    rw [h.fields]
    exact hrunning
  | text =>
    rw [appendChunks_fields]
    exact hrunning
  | reset _ h =>
    rw [h.fields]
    exact hrunning
  | finish => exact absurd rfl (ha _ _)

lemma Observation.EndsTold.step (hsound : o.Sound x) (h : o.EndsTold) (hend : EndIsTold o a)
    (hstep : Observation.Step o a o') : o'.EndsTold := by
  cases hstep with
  | @call a hheld hin =>
    have hcalled := called o.channel a
    by_cases hterminal : o.channel.terminal = true
    · rw [hcalled.unchanged_of_terminal hterminal]
      exact h
    have hrunning : o.channel.terminal = false := by simpa using hterminal
    cases a with
    | finish status publicError => exact EndsTold.finish hsound hrunning hend
    | _ =>
      have hstill := hcalled.running hrunning (by simp)
      refine ⟨?_, ?_, ?_⟩ <;> simp [hstill]
  | record hopen => exact ⟨h.ring, h.pending, h.client⟩
  | release hheld =>
    rcases o.release_channel with ⟨hterminal, hsame⟩ | ⟨hrunning, -, -⟩
    · refine ⟨?_, ?_, ?_⟩
      · rw [hsame]
        exact h.ring
      · rw [hsame]
        exact h.pending
      · intro _ hfalse
        cases hfalse
    · have hok := hend.resolve_left (by simp [hrunning])
      have hfinished := EndsTold.finish (r := true) hsound hrunning hok
      unfold Observation.release
      simp only [hrunning]
      exact hfinished
  | @connect m hwaits hidle hm =>
    refine EndsTold.take ⟨h.ring, ?_, h.client⟩ ?_
    · intro hterminal k hk m' hm'
      simp only [Option.mem_def] at hk
      split at hk
      · cases hk
      · cases hk
        cases hm'
    · intro hterminal hheld _
      have hlive : o.released = false := hheld
      rw [Observation.sent, if_neg (by simp [hlive])] at hm
      exact final_snapshot hsound.ended hterminal hm
  | @read k events cursor hk hread =>
    refine ⟨h.ring, ?_, h.client⟩
    rintro hterminal _ ⟨⟩ m hm hlast
    rcases List.mem_append.mp hm with hm | hm
    · exact h.pending hterminal k hk m hm hlast
    · exact readAfter_final hsound.ended hterminal (h.ring hterminal) hread m hm hlast
  | @deliver cursor m rest hwaits hk =>
    refine EndsTold.take ⟨h.ring, ?_, h.client⟩ ?_
    · rintro hterminal _ ⟨⟩ m' hm'
      exact h.pending hterminal _ hk m' (List.mem_cons_of_mem m hm')
    · intro hterminal _ hlast
      exact h.pending hterminal _ hk m List.mem_cons_self hlast
  | disconnect => exact ⟨h.ring, by simp, h.client⟩

theorem observation_endsTold
    (h : ((observing x maxEvents maxBytes maxSubscribers).restrict EndIsTold).Reachable o) :
    o.EndsTold := by
  have hboth : o.Sound x ∧ o.EndsTold := by
    refine h.invariant (I := fun o => o.Sound x ∧ o.EndsTold) ?_ ?_
    · intro o hinit
      refine ⟨observation_sound (.of_init hinit), ?_⟩
      obtain ⟨hnew, hreleased, hclient, hconnection, -, -⟩ := hinit
      obtain ⟨_, -, hnew⟩ := except_bind_ok.mp hnew
      have hchannel := except_pure_ok.mp hnew
      refine ⟨?_, by simp [hconnection], by simp [hclient]⟩
      rw [← hchannel]
      simp
    · intro o a o' hboth hstep
      exact ⟨hboth.1.step hstep.2, hboth.2.step hboth.1 hstep.1 hstep.2⟩
  exact hboth.2

/-- An observer that still waits is behind an ended channel whose end was told. -/
lemma Observation.EndsTold.behind (hsound : o.Sound x) (h : o.EndsTold) (hnone : o.returned = none)
    (hheld : o.released = false) (hterminal : o.channel.terminal = true) :
    ∀ s ∈ o.client, s.sequence < o.channel.sequence := by
  intro s hs
  have hle := (hsound.client s hs).sequence
  by_contra hnot
  have hfinal := h.client hterminal hheld s hs (by omega)
  rw [hsound.waits hnone s hs] at hfinal
  cases hfinal

/-- A terminal snapshot ends the observation exactly when the client is at another number and of no
later generation; from a channel whose end was told it always does, from the record it does
unless the client saw no event or a model retry. -/
theorem terminal_snapshot_returned_iff (hx : Identified x)
    (h : (observing x maxEvents maxBytes maxSubscribers).Reachable o)
    (hstep : (observing x maxEvents maxBytes maxSubscribers).step o .connect o')
    (hm : o.sent = .ok m) {s : Snapshot} (hpayload : m.payload = .snapshot s)
    (hs : isTerminal s.status = true) :
    (o'.returned.map ExecutionState.status = some s.status ↔ Reportable x o.client m) ∧
    (o.released = true → (Reportable x o.client m ↔ decodeExecutionEvent x.identity m = true ∧
      ∀ t ∈ o.client, t.draftGeneration = 0 ∧ t.sequence ≠ 0)) ∧
    (((observing x maxEvents maxBytes maxSubscribers).restrict EndIsTold).Reachable o →
      o.released = false → decodeExecutionEvent x.identity m = true →
        Reportable x o.client m) := by
  have hsound := observation_sound h
  refine ⟨connect_returns_iff hx h hstep hm hpayload hs, ?_, ?_⟩
  · intro hreleased
    unfold Observation.sent at hm
    rw [if_pos hreleased] at hm
    rw [← Except.ok.inj hm]
    refine and_congr_right fun _ => forall₂_congr fun t ht => ?_
    refine and_congr ?_ Iff.rfl
    exact ⟨fun hall => Nat.le_zero.mp (hall 0 rfl), fun hzero g hg => by omega⟩
  · intro htold hheld hdecode
    refine ⟨hdecode, ?_⟩
    have hlive := hm
    unfold Observation.sent at hlive
    rw [if_neg (by simp [hheld])] at hlive
    obtain ⟨p, hp, rfl⟩ := except_map_ok.mp hlive
    obtain ⟨draft, -, rfl⟩ := except_map_ok.mp hp
    obtain rfl := Payload.snapshot.inj hpayload
    have hnone : o.returned = none := by
      cases hstep with
      | connect hwaits =>
        simp only [Observation.waits, Bool.and_eq_true, Option.isNone_iff_eq_none] at hwaits
        exact hwaits.1
    have hterminal : o.channel.terminal = true := hsound.ended.trans hs
    have hbehind := (observation_endsTold htold).behind hsound hnone hheld hterminal
    intro t ht
    refine ⟨?_, Nat.ne_of_lt (hbehind t ht)⟩
    rintro _ ⟨⟩
    exact (hsound.client t ht).generation

instance (x : Execution) (current : Option ExecutionState) (m : ExecutionEvent) :
    Decidable (Reportable x current m) :=
  inferInstanceAs (Decidable (_ ∧ ∀ s ∈ current, (∀ g ∈ m.draftGeneration,
    s.draftGeneration ≤ g) ∧ s.sequence ≠ m.sequence))

/-- A client that saw one event returns with the record. -/
theorem terminal_snapshot_returned_record :
    ∃ o o' : Observation, (observing newChannel.execution 64 4096 8).step o .connect o' ∧
      o.released = true ∧ o'.returned.map ExecutionState.status = some .succeeded := by
  have hexec : (System.exec Observation.next (fun _ _ => true) (Observation.start newChannel)
      [.connect, .call (.setStatus .running none), .read, .deliver, .disconnect,
        .call (.finish .succeeded none), .record .succeeded none, .release]).any (fun o =>
          o.waits = true ∧ o.connection = none ∧ o.released = true ∧
            o.sent = .ok (persistedSnapshot newChannel.execution .succeeded none) ∧
              Reportable newChannel.execution o.client
                (persistedSnapshot newChannel.execution .succeeded none)) = true := by
    decide +kernel
  obtain ⟨o, ho, hstate⟩ := (Option.any_eq_true _ _).mp hexec
  obtain ⟨hwaits, hidle, hreleased, hsent, hreportable⟩ := of_decide_eq_true hstate
  have hnew : Channel.new newChannel.execution 64 4096 8 = .ok newChannel := rfl
  have hreachable := exec_observing hnew ho
  have hstep : (observing newChannel.execution 64 4096 8).step o .connect _ :=
    .connect hwaits hidle hsent
  have hiff := (terminal_snapshot_returned_iff ⟨by decide, by decide⟩ hreachable hstep hsent rfl
    rfl).1
  exact ⟨o, _, hstep, hreleased, hiff.mpr hreportable⟩

/-- After a model retry the record's snapshot is dropped, and the observation goes on. -/
theorem terminal_snapshot_dropped :
    ∃ o o' : Observation, (observing newChannel.execution 64 4096 8).Reachable o ∧
      (observing newChannel.execution 64 4096 8).step o .connect o' ∧
      o.sent = .ok (persistedSnapshot newChannel.execution .succeeded none) ∧
      o.client.any (fun s => !isTerminal s.status) = true ∧ o'.client = o.client ∧
      o'.returned = none ∧ o'.failed = false := by
  have hexec : (System.exec Observation.next (fun _ _ => true) (Observation.start newChannel)
      [.connect, .call (.reset "model_retry"), .read, .deliver, .disconnect,
        .call (.finish .succeeded none), .record .succeeded none, .release]).any (fun o =>
          o.sent = .ok (persistedSnapshot newChannel.execution .succeeded none) ∧
            o.client.any (fun s => !isTerminal s.status) = true ∧
            (o.next .connect).any (fun o' =>
              o'.client = o.client ∧ o'.returned = none ∧ o'.failed = false) = true) = true := by
    decide +kernel
  obtain ⟨o, ho, hstate⟩ := (Option.any_eq_true _ _).mp hexec
  obtain ⟨hsent, hclient, hnext⟩ := of_decide_eq_true hstate
  obtain ⟨o', ho', hdropped⟩ := (Option.any_eq_true _ _).mp hnext
  have hnew : Channel.new newChannel.execution 64 4096 8 = .ok newChannel := rfl
  have hstep : (observing newChannel.execution 64 4096 8).step o .connect o' :=
    Observation.next_step ho'
  exact ⟨o, o', exec_observing hnew ho, hstep, hsent, hclient, of_decide_eq_true hdropped⟩

end Ending

end ChatBI.Events
