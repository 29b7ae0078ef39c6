import ChatBI.Events.Atomic
import ChatBI.Events.Converging

/-!
# The observation stream

The loop of `observe_execution` over one subscription, while the channel takes any operations. The
client stays connected and authorized. Every event is encoded before it is sent; an event that
cannot be encoded ends the loop with an exception.
-/

namespace ChatBI.Events

open ChatBI.Lib ChatBI.Store

inductive Frame where
  | event (m : ExecutionEvent)
  | heartbeat
  deriving DecidableEq

/-- `encode_sse`: a line for the sequence, one for the type and one for the data. -/
def ExecutionEvent.encodeSse (e : ExecutionEvent) : Except String (List Nat) := do
  let data ← e.text
  return Utf8.encode ("id: ".toList ++ Nat.toDigits 10 e.sequence ++ ['\n'] ++
    ("event: ".toList ++ e.payload.type.toList ++ ['\n']) ++ ("data: ".toList ++ data ++ ['\n']) ++
    ['\n'])

/-- What the stream sends for a frame. -/
def Frame.encode : Frame → Except String (List Nat)
  | .event m => m.encodeSse
  | .heartbeat => .ok (Utf8.encode (": heartbeat".toList ++ ['\n'] ++ ['\n']))

/-- Where the loop stands: in front of `subscribe`, in front of a read, with events of the last
read still to send, behind its `return`, or behind an exception of `encode_sse`. -/
inductive Phase where
  | idle
  | reading (cursor : Nat)
  | sending (cursor : Nat) (m : ExecutionEvent) (rest : List ExecutionEvent)
  | ended
  | raised
  deriving DecidableEq

structure Stream where
  channel : Channel
  phase : Phase
  frames : List Frame
  deriving DecidableEq

inductive StreamAction where
  | operation (a : ChannelAction)
  | subscribe
  | read
  | send
  deriving DecidableEq

/-- The steps of the loop. -/
def StreamAction.isLoop : StreamAction → Bool
  | .operation _ => false
  | _ => true

def Phase.cursor? : Phase → Option Nat
  | .reading cursor | .sending cursor _ _ => some cursor
  | .idle | .ended | .raised => none

/-- The turn of the loop with the given events left. -/
def Phase.resume (cursor : Nat) : List ExecutionEvent → Phase
  | [] => .reading cursor
  | m :: rest => .sending cursor m rest

/-- A frame that says a terminal status. -/
def Frame.SaysEnd : Frame → Prop
  | .event m => Final m
  | .heartbeat => False

namespace Stream

variable (s : Stream)

/-- The loop returns, and the subscription is closed. -/
def close : Stream := { s with channel := s.channel.unsubscribe.2, phase := .ended }

/-- The loop raises, and the subscription is closed. -/
def fail : Stream := { s with channel := s.channel.unsubscribe.2, phase := .raised }

/-- The first frame: the snapshot of the subscription. -/
def opened (m : ExecutionEvent) : Stream :=
  match m.encodeSse with
  | .error _ => { s with channel := s.channel.subscribe.2 }.fail
  | .ok _ =>
    if m.payload.fields.status.any isTerminal then
      { s with channel := s.channel.subscribe.2, frames := s.frames ++ [Frame.event m] }.close
    else { s with
      channel := s.channel.subscribe.2
      phase := .reading m.sequence
      frames := s.frames ++ [.event m] }

/-- A read that returned the given events. -/
def got (events : List ExecutionEvent) (cursor : Nat) : Stream :=
  { s with
    phase := .resume cursor events
    frames := if events = [] then s.frames ++ [.heartbeat] else s.frames }

/-- One turn of the loop over the events of a read. -/
def sent (cursor : Nat) (m : ExecutionEvent) (rest : List ExecutionEvent) : Stream :=
  match m.encodeSse with
  | .error _ => s.fail
  | .ok _ =>
    if m.payload.type = "terminal" then { s with frames := s.frames ++ [Frame.event m] }.close
    else { s with phase := .resume cursor rest, frames := s.frames ++ [.event m] }

end Stream

/-- A read is one step: what it returns depends on the channel when it stops waiting. -/
inductive Stream.Step : Stream → StreamAction → Stream → Prop where
  | operation {s : Stream} {a : ChannelAction} :
      Step s (.operation a) { s with channel := s.channel.operated a }
  | subscribe {s : Stream} {m : ExecutionEvent} (hphase : s.phase = .idle)
      (hm : s.channel.subscribe.1 = .ok m) : Step s .subscribe (s.opened m)
  | read {s : Stream} {cursor next : Nat} {events : List ExecutionEvent}
      (hphase : s.phase = .reading cursor) (h : s.channel.readAfter cursor = .ok (events, next)) :
      Step s .read (s.got events next)
  | send {s : Stream} {cursor : Nat} {m : ExecutionEvent} {rest : List ExecutionEvent}
      (hphase : s.phase = .sending cursor m rest) : Step s .send (s.sent cursor m rest)

/-- The step that an action takes. -/
def Stream.next (s : Stream) : StreamAction → Option Stream
  | .operation a => some { s with channel := s.channel.operated a }
  | .subscribe =>
    match s.channel.subscribe.1 with
    | .ok m => if s.phase = .idle then some (s.opened m) else none
    | .error _ => none
  | .read =>
    match s.phase with
    | .reading cursor =>
      match s.channel.readAfter cursor with
      | .ok (events, next) => some (s.got events next)
      | .error _ => none
    | _ => none
  | .send =>
    match s.phase with
    | .sending cursor m rest => some (s.sent cursor m rest)
    | _ => none

lemma Stream.next_step {s s' : Stream} {a : StreamAction} (h : s.next a = some s') :
    Stream.Step s a s' := by
  cases a with
  | operation a =>
    cases h
    exact .operation
  | subscribe =>
    simp only [Stream.next] at h
    split at h
    · next m hm =>
      split at h
      · next hphase =>
        cases h
        exact .subscribe hphase hm
      · cases h
    · cases h
  | read =>
    simp only [Stream.next] at h
    split at h
    · next cursor hphase =>
      split at h
      · next events next hread =>
        cases h
        exact .read hphase hread
      · cases h
    · cases h
  | send =>
    simp only [Stream.next] at h
    split at h
    · next cursor m rest hphase =>
      cases h
      exact .send hphase
    · cases h

/-- The stream of one observation of an execution with a new channel. -/
def streaming (x : Execution) (maxEvents maxBytes maxSubscribers : Nat) :
    System Stream StreamAction where
  init s := Channel.new x maxEvents maxBytes maxSubscribers = .ok s.channel ∧ s.phase = .idle ∧
    s.frames = []
  step := Stream.Step

/-- From here on the loop takes `n` steps, at most one of them a read, sends no heartbeat, and says
the terminal status in its last frame only. -/
structure Closing (s : Stream) (n : Nat) (es : List StreamAction) (t : Stream) : Prop where
  steps : (es.filter StreamAction.isLoop).length ≤ n
  ended : t.phase = .ended ↔ (es.filter StreamAction.isLoop).length = n
  goesOn : t.phase ≠ .ended → t.phase ≠ .idle → ∃ a t', a.isLoop = true ∧ Stream.Step t a t'
  reads : es.count .read ≤ 1
  quiet : ∃ events : List ExecutionEvent, t.frames = s.frames ++ events.map .event
  last : t.phase = .ended → ∃ before frame, t.frames = before ++ [frame] ∧ frame.SaysEnd ∧
    ∀ f ∈ before, ¬f.SaysEnd
  before : t.phase ≠ .ended → ∀ f ∈ t.frames, ¬f.SaysEnd

/-- Every run that goes on from here lets the loop close. -/
def EndsWell (x : Execution) (maxEvents maxBytes maxSubscribers : Nat) (s : Stream) : Prop :=
  ∃ n, ∀ es t, (streaming x maxEvents maxBytes maxSubscribers).Run s es t → Closing s n es t

section Encoding

variable {s : Stream} {m : ExecutionEvent} {cursor : Nat} {rest : List ExecutionEvent}

lemma encode_ok (h : m.Writable) : ∃ bytes, (Frame.event m).encode = .ok bytes := by
  rw [Frame.encode, ExecutionEvent.encodeSse, text_of_writable h]
  exact ⟨_, rfl⟩

lemma encode_error (h : ¬m.Writable) : ∃ message, m.encodeSse = .error message := by
  obtain ⟨message, htext⟩ := text_of_not_writable h
  rw [ExecutionEvent.encodeSse, htext]
  exact ⟨message, rfl⟩

lemma opened_writable (h : m.Writable) : s.opened m =
    if m.payload.fields.status.any isTerminal then
      { s with channel := s.channel.subscribe.2, frames := s.frames ++ [Frame.event m] }.close
    else { s with
      channel := s.channel.subscribe.2
      phase := .reading m.sequence
      frames := s.frames ++ [.event m] } := by
  obtain ⟨bytes, hbytes⟩ := encode_ok h
  rw [Frame.encode] at hbytes
  rw [Stream.opened, hbytes]

lemma opened_raises (h : ¬m.Writable) :
    s.opened m = { s with channel := s.channel.subscribe.2 }.fail := by
  obtain ⟨message, hmessage⟩ := encode_error h
  rw [Stream.opened, hmessage]

lemma sent_writable (h : m.Writable) : s.sent cursor m rest =
    if m.payload.type = "terminal" then { s with frames := s.frames ++ [Frame.event m] }.close
    else { s with phase := .resume cursor rest, frames := s.frames ++ [.event m] } := by
  obtain ⟨bytes, hbytes⟩ := encode_ok h
  rw [Frame.encode] at hbytes
  rw [Stream.sent, hbytes]

lemma sent_raises (h : ¬m.Writable) : s.sent cursor m rest = s.fail := by
  obtain ⟨message, hmessage⟩ := encode_error h
  rw [Stream.sent, hmessage]

end Encoding

/-- An event that does not end the stream. -/
structure Quiet (m : ExecutionEvent) : Prop where
  type : m.payload.type ≠ "terminal"
  status : ¬Final m

/-- A ring with increasing numbers, of which no event ends the stream before the channel ends. -/
structure OrderlyRing (maxEvents : Nat) (ring : List (ExecutionEvent × Nat))
    (bytes sequence : Nat) (terminal : Bool) : Prop where
  positive : 1 ≤ maxEvents
  ordered : ring.Pairwise (fun e e' => e.1.sequence < e'.1.sequence)
  sequence : ∀ e ∈ ring, e.1.sequence ≤ sequence
  bytes : bytes = (ring.map Prod.snd).sum
  writable : ∀ e ∈ ring, e.1.Writable
  quiet : terminal = false → ∀ e ∈ ring, Quiet e.1

def Orderly (c : Channel) : Prop :=
  OrderlyRing c.maxEvents c.ring c.ringBytes c.sequence c.terminal

/-- The channel when `finish` appends its event. -/
def Channel.finishing (c : Channel) (status : ExecutionStatus) : Channel :=
  { c with status := status, draft := {}, terminal := true }

def Channel.endEvent (c : Channel) (status : ExecutionStatus) (publicError : Option PublicError) :
    ExecutionEvent :=
  (c.finishing status).envelope (c.sequence + 1) (.terminal status (Channel.safeError publicError))

def Channel.endSize (c : Channel) (status : ExecutionStatus) (publicError : Option PublicError) :
    Nat := Utf8.size (JsonDoc.dumps (c.endEvent status publicError).toJson)

/-- The event of the end can be written and fits, and the events that it evicts are not behind the
cursor. -/
def Channel.KeepsUp (c : Channel) (status : ExecutionStatus) (publicError : Option PublicError)
    (cursor : Nat) : Prop :=
  ((c.endEvent status publicError).Writable ∧ c.endSize status publicError ≤ c.maxBytes) ∧
    ∀ oldest ∈ (Channel.trim c.maxEvents c.maxBytes
        (c.ring ++ [(c.endEvent status publicError, c.endSize status publicError)])
        (c.ringBytes + c.endSize status publicError)).1.head?,
      oldest.1.sequence ≤ cursor + 1

/-- A snapshot with the next number can be encoded. Its status and its draft do not matter. -/
def Channel.Tellable (c : Channel) : Prop :=
  (c.envelope (c.sequence + 1) (.snapshot (c.state none))).Writable

/-- The loop can encode what it has to send when the channel ends, and keeps up with the end. -/
def Stream.KeepsUp (s : Stream) (status : ExecutionStatus) (publicError : Option PublicError) :
    Prop :=
  match s.phase with
  | .idle => s.channel.Tellable
  | .reading cursor => s.channel.KeepsUp status publicError cursor
  | .sending cursor m rest =>
    (∀ m' ∈ m :: rest, m'.Writable) ∧ s.channel.KeepsUp status publicError cursor
  | .ended | .raised => False

section Rings

variable {c c' : Channel} {payload : Payload} {a : Channel.Call} {e : ExecutionEvent × Nat}
  {ring : List (ExecutionEvent × Nat)} {maxEvents maxBytes bytes : Nat}

lemma trim_bytes (h : bytes = (ring.map Prod.snd).sum) :
    (Channel.trim maxEvents maxBytes ring bytes).2 =
      ((Channel.trim maxEvents maxBytes ring bytes).1.map Prod.snd).sum := by
  induction ring generalizing bytes with
  | nil => exact h
  | cons e ring ih =>
    rw [List.map_cons, List.sum_cons] at h
    rw [Channel.trim]
    split
    · exact ih (by omega)
    · rw [List.map_cons, List.sum_cons]
      exact h

/-- The last event stays in the ring when it fits alone. -/
lemma trim_last (hpositive : 1 ≤ maxEvents) (hfits : e.2 ≤ maxBytes)
    (h : bytes = (ring.map Prod.snd).sum + e.2) :
    ∃ before, (Channel.trim maxEvents maxBytes (ring ++ [e]) bytes).1 = before ++ [e] ∧
      before <:+ ring := by
  induction ring generalizing bytes with
  | nil =>
    refine ⟨[], ?_, List.suffix_rfl⟩
    have hbytes : bytes = e.2 := by simpa using h
    rw [List.nil_append, Channel.trim, if_neg (by simp; omega)]
  | cons e' ring ih =>
    rw [List.map_cons, List.sum_cons] at h
    rw [List.cons_append, Channel.trim]
    split
    · have hrest : bytes - e'.2 = (ring.map Prod.snd).sum + e.2 := by omega
      obtain ⟨before, htrim, hsuffix⟩ := ih hrest
      exact ⟨before, htrim, hsuffix.trans (List.suffix_cons e' ring)⟩
    · exact ⟨e' :: ring, rfl, List.suffix_rfl⟩

lemma append_push (hwritable : (c.envelope (c.sequence + 1) payload).Writable)
    (hsize : Utf8.size (JsonDoc.dumps (c.envelope (c.sequence + 1) payload).toJson) ≤ c.maxBytes) :
    c.append payload = (.ok (), c.push (c.envelope (c.sequence + 1) payload)
      (Utf8.size (JsonDoc.dumps (c.envelope (c.sequence + 1) payload).toJson))) := by
  simp only [Channel.append, text_of_writable hwritable, if_neg (Nat.not_lt.mpr hsize)]

lemma append_ring (h : ¬((c.envelope (c.sequence + 1) payload).Writable ∧
    Utf8.size (JsonDoc.dumps (c.envelope (c.sequence + 1) payload).toJson) ≤ c.maxBytes)) :
    (c.append payload).2.ring = c.ring := by
  by_cases hwritable : (c.envelope (c.sequence + 1) payload).Writable
  · rw [append_too_large hwritable (Nat.lt_of_not_le fun hfits => h ⟨hwritable, hfits⟩)]
  · rw [append_not_writable hwritable]

lemma quiet_envelope {n : Nat} (htype : payload.type ≠ "terminal")
    (hstatus : ∀ t ∈ payload.fields.status, isTerminal t = false) : Quiet (c.envelope n payload) := by
  refine ⟨htype, ?_⟩
  rintro ⟨t, ht, hterminal⟩
  rw [hstatus t ht] at hterminal
  cases hterminal

lemma quiet_progress {n : Nat} : Quiet (c.envelope n c.progressPayload) := by
  apply quiet_envelope
  · simp [Channel.progressPayload, Payload.type]
  · rintro t ⟨⟩

lemma Orderly.push {size : Nat} (h : Orderly c)
    (hwritable : (c.envelope (c.sequence + 1) payload).Writable)
    (hquiet : c.terminal = false → Quiet (c.envelope (c.sequence + 1) payload)) :
    Orderly (c.push (c.envelope (c.sequence + 1) payload) size) := by
  have hbytes : c.ringBytes + size =
      ((c.ring ++ [(c.envelope (c.sequence + 1) payload, size)]).map Prod.snd).sum := by
    have hring := h.bytes
    simp only [List.map_append, List.sum_append, List.map_cons, List.map_nil, List.sum_cons,
      List.sum_nil]
    omega
  have hsuffix := trim_suffix c.maxEvents c.maxBytes (c.ringBytes + size)
    (c.ring ++ [(c.envelope (c.sequence + 1) payload, size)])
  refine ⟨h.positive, ?_, ?_, trim_bytes hbytes, ?_, ?_⟩
  · apply List.Pairwise.sublist hsuffix.sublist
    rw [List.pairwise_append]
    refine ⟨h.ordered, List.pairwise_singleton _ _, ?_⟩
    intro e he e' he'
    cases List.mem_singleton.mp he'
    exact Nat.lt_succ_of_le (h.sequence e he)
  · intro e he
    rcases List.mem_append.mp (hsuffix.subset he) with hold | hnew
    · exact (h.sequence e hold).trans (Nat.le_succ _)
    · cases List.mem_singleton.mp hnew
      exact Nat.le_refl _
  · intro e he
    rcases List.mem_append.mp (hsuffix.subset he) with hold | hnew
    · exact h.writable e hold
    · cases List.mem_singleton.mp hnew
      exact hwritable
  · intro hrunning e he
    rcases List.mem_append.mp (hsuffix.subset he) with hold | hnew
    · exact h.quiet hrunning e hold
    · cases List.mem_singleton.mp hnew
      exact hquiet hrunning

lemma Orderly.appended (h : Orderly c)
    (hquiet : c.terminal = false → Quiet (c.envelope (c.sequence + 1) payload))
    (happended : Appended c payload c') : Orderly c' := by
  rcases happended.outcome with rfl | rfl | ⟨size, hwritable, rfl⟩
  · exact h
  · exact ⟨h.positive, h.ordered, fun e he => (h.sequence e he).trans (Nat.le_succ _), h.bytes,
      h.writable, h.quiet⟩
  · exact h.push hwritable hquiet

lemma Orderly.appendChunks {key : DraftKey} {offset : Nat} {chunks : List (List Char)}
    (h : Orderly c) : Orderly (c.appendChunks key offset chunks).2 := by
  induction chunks generalizing c offset with
  | nil => exact h
  | cons chunk chunks ih =>
    have hfirst : Orderly (c.append (.textDelta key.1 key.2 offset chunk)).2 := by
      refine h.appended (fun _ => quiet_envelope ?_ ?_) (ChatBI.Events.appended c _)
      · simp [Payload.type]
      · rintro t ⟨⟩
    rw [Channel.appendChunks]
    split
    · next hfailed =>
      rw [hfailed] at hfirst
      exact hfirst
    · next happended =>
      rw [happended] at hfirst
      exact ih hfirst

lemma Called.orderly (hcalled : Called c a c') (h : Orderly c) : Orderly c' := by
  cases hcalled with
  | unchanged => exact h
  | unexplained => exact h
  | @status status _ r _ _ hstatus _ happended =>
    refine Orderly.appended (c := { c with status := status, stopReason := r.elim c.stopReason some })
      h (fun _ => quiet_envelope ?_ ?_) happended
    · simp [Payload.type]
    · rintro t ⟨⟩
      exact hstatus
  | @stage _ value _ _ _ happended =>
    exact Orderly.appended (c := { c with stage := some value }) h (fun _ => quiet_progress) happended
  | @tasks completed total _ _ _ _ _ happended =>
    exact Orderly.appended (c := c.withTasks completed.toNat total.toNat) h
      (fun _ => quiet_progress) happended
  | @text _ _ _ _ δ => exact Orderly.appendChunks (c := { c with draft := c.draft.write δ }) h
  | reset _ happended =>
    refine Orderly.appended
      (c := { c with draftGeneration := c.draftGeneration + 1, draft := {} }) h
      (fun _ => quiet_envelope ?_ ?_) happended
    · simp [Payload.type]
    · rintro t ⟨⟩
  | @finish status _ _ _ _ happended =>
    apply Orderly.appended (c := { c with status := status, draft := {}, terminal := true })
      ⟨h.positive, h.ordered, h.sequence, h.bytes, h.writable, by simp⟩ _ happended
    simp

end Rings

section Reads

variable {c : Channel} {cursor next : Nat} {events : List ExecutionEvent}

/-- What a read returns: nothing, one snapshot, or the events behind the cursor. -/
lemma readAfter_cases (h : c.readAfter cursor = .ok (events, next)) :
    (∃ m, c.snapshot = .ok m ∧ events = [m] ∧ next = c.sequence) ∨
      events = (c.ring.map Prod.fst).filter (fun e => cursor < e.sequence) ∧
        next = (events.getLast?.map ExecutionEvent.sequence).getD cursor := by
  unfold Channel.readAfter at h
  cases hring : c.ring with
  | nil =>
    rw [hring] at h
    cases h
    exact .inr ⟨rfl, rfl⟩
  | cons oldest ring =>
    simp only [hring] at h
    split at h
    · obtain ⟨m, hm, hevents⟩ := except_map_ok.mp h
      cases hevents
      obtain ⟨s, -, rfl⟩ := except_map_ok.mp hm
      exact .inl ⟨_, hm, rfl, rfl⟩
    · cases h
      exact .inr ⟨rfl, rfl⟩

/-- A cursor before the oldest event gets the snapshot. -/
lemma readAfter_resync {oldest : ExecutionEvent × Nat} (hhead : oldest ∈ c.ring.head?)
    (hbehind : cursor + 1 < oldest.1.sequence) (h : c.readAfter cursor = .ok (events, next)) :
    ∃ m, c.snapshot = .ok m ∧ events = [m] := by
  unfold Channel.readAfter at h
  cases hring : c.ring with
  | nil =>
    rw [hring] at hhead
    cases hhead
  | cons first ring =>
    rw [hring] at hhead
    obtain rfl := Option.some.inj hhead
    simp only [hring, if_pos hbehind] at h
    obtain ⟨m, hm, hevents⟩ := except_map_ok.mp h
    exact ⟨m, hm, (Prod.mk.inj hevents).1.symm⟩

lemma readAfter_ok (h : Drafted c) (cursor : Nat) : ∃ result, c.readAfter cursor = .ok result := by
  obtain ⟨draft, hshown⟩ := h.shown
  unfold Channel.readAfter
  cases c.ring with
  | nil => exact ⟨_, rfl⟩
  | cons oldest ring =>
    simp only []
    split
    · rw [Channel.snapshot, hshown]
      exact ⟨_, rfl⟩
    · exact ⟨_, rfl⟩

lemma readAfter_cursor (horderly : Orderly c) (hcursor : cursor ≤ c.sequence)
    (h : c.readAfter cursor = .ok (events, next)) : next ≤ c.sequence := by
  rcases readAfter_cases h with ⟨m, -, -, hnext⟩ | ⟨hevents, hnext⟩
  · exact Nat.le_of_eq hnext
  · cases hlast : events.getLast? with
    | none =>
      rw [hnext, hlast]
      exact hcursor
    | some m =>
      rw [hnext, hlast]
      have hm := List.mem_of_getLast? hlast
      rw [hevents] at hm
      obtain ⟨e, he, rfl⟩ := List.mem_map.mp (List.mem_of_mem_filter hm)
      exact horderly.sequence e he

lemma readAfter_none (h : ∀ e ∈ c.ring, e.1.sequence ≤ cursor) :
    c.readAfter cursor = .ok ([], cursor) := by
  unfold Channel.readAfter
  cases hring : c.ring with
  | nil => rfl
  | cons oldest ring =>
    rw [hring] at h
    have holdest := h oldest List.mem_cons_self
    have hnone : ((oldest :: ring).map Prod.fst).filter (fun e => cursor < e.sequence) = [] := by
      apply List.filter_eq_nil_iff.mpr
      intro m hm
      obtain ⟨e, he, rfl⟩ := List.mem_map.mp hm
      have hbehind := h e he
      simpa using hbehind
    simp only [if_neg (Nat.not_lt.mpr (Nat.le_succ_of_le holdest)), hnone]
    rfl

lemma last_greatest {ms : List ExecutionEvent} {last m : ExecutionEvent}
    (hordered : ms.Pairwise (fun e e' => e.sequence < e'.sequence)) (hlast : ms.getLast? = some last)
    (hm : m ∈ ms) : m.sequence ≤ last.sequence := by
  obtain ⟨before, rfl⟩ := List.getLast?_eq_some_iff.mp hlast
  rcases List.mem_append.mp hm with hbefore | hsame
  · exact Nat.le_of_lt ((List.pairwise_append.mp hordered).2.2 m hbefore last (by simp))
  · cases List.mem_singleton.mp hsame
    exact Nat.le_refl _

/-- A second read of a channel that has not changed returns nothing. -/
lemma readAfter_again (horderly : Orderly c) (h : c.readAfter cursor = .ok (events, next)) :
    c.readAfter next = .ok ([], next) := by
  apply readAfter_none
  intro e he
  rcases readAfter_cases h with ⟨m, -, -, rfl⟩ | ⟨hevents, hnext⟩
  · exact horderly.sequence e he
  have hcursor : e.1.sequence ≤ cursor ∨ e.1 ∈ events := by
    rw [hevents, List.mem_filter, decide_eq_true_eq]
    by_cases hlt : cursor < e.1.sequence
    · exact .inr ⟨List.mem_map_of_mem he, hlt⟩
    · exact .inl (Nat.le_of_not_lt hlt)
  cases hlast : events.getLast? with
  | none =>
    rw [List.getLast?_eq_none_iff.mp hlast] at hcursor
    rw [hnext, hlast]
    simpa using hcursor
  | some last =>
    rw [hnext, hlast]
    have hordered : events.Pairwise (fun e e' => e.sequence < e'.sequence) := by
      rw [hevents]
      apply List.Pairwise.filter
      rw [List.pairwise_map]
      exact horderly.ordered
    rcases hcursor with hbefore | hin
    · have hmem := List.mem_of_getLast? hlast
      rw [hevents, List.mem_filter, decide_eq_true_eq] at hmem
      exact hbefore.trans (Nat.le_of_lt hmem.2)
    · exact last_greatest hordered hlast hin

lemma snapshot_type {m : ExecutionEvent} (h : c.snapshot = .ok m) : m.payload.type ≠ "terminal" := by
  obtain ⟨s, -, rfl⟩ := except_map_ok.mp h
  simp [Channel.envelope, Payload.type]

/-- What a read returns before the channel ends. -/
lemma readAfter_quiet (horderly : Orderly c) (hended : c.terminal = isTerminal c.status)
    (hrunning : c.terminal = false) (h : c.readAfter cursor = .ok (events, next)) :
    ∀ m ∈ events, Quiet m := by
  intro m hm
  rcases readAfter_cases h with ⟨m', hsnapshot, rfl, -⟩ | ⟨rfl, -⟩
  · cases List.mem_singleton.mp hm
    refine ⟨snapshot_type hsnapshot, ?_⟩
    rintro ⟨t, ht, hterminal⟩
    obtain ⟨s, hs, rfl⟩ := except_map_ok.mp hsnapshot
    obtain ⟨draft, -, rfl⟩ := except_map_ok.mp hs
    have hstatus := Option.some.inj ht
    rw [← hstatus] at hterminal
    exact absurd (hended.trans hterminal) (by simp [hrunning])
  · obtain ⟨e, he, rfl⟩ := List.mem_map.mp (List.mem_of_mem_filter hm)
    exact horderly.quiet hrunning e he

end Reads

section Runs

variable {x : Execution} {maxEvents maxBytes maxSubscribers : Nat} {s s' : Stream}
  {a : StreamAction} {c : Channel}

/-- What every reachable channel keeps. -/
structure Steady (c : Channel) : Prop where
  drafted : Drafted c
  ended : c.terminal = isTerminal c.status
  orderly : Orderly c
  subscribable : 1 ≤ c.maxSubscribers

lemma Steady.subscribers {n : Nat} (h : Steady c) : Steady { c with subscribers := n } :=
  ⟨h.drafted, h.ended, h.orderly, h.subscribable⟩

lemma Steady.unsubscribe (h : Steady c) : Steady c.unsubscribe.2 := by
  rw [unsubscribe_subscribers]
  exact h.subscribers

lemma unsubscribe_terminal (c : Channel) : c.unsubscribe.2.terminal = c.terminal := by
  rw [unsubscribe_subscribers]

lemma Called.steady {a : Channel.Call} {c' : Channel} (hcalled : Called c a c') (h : Steady c) :
    Steady c' :=
  ⟨hcalled.drafted h.drafted, hcalled.ended h.ended, hcalled.orderly h.orderly,
    hcalled.grown.maxSubscribers ▸ h.subscribable⟩

/-- An operation keeps the channel steady, does not go back, and changes an ended channel in its
subscribers only. -/
lemma operated (h : Steady c) (a : ChannelAction) :
    Steady (c.operated a) ∧ c.sequence ≤ (c.operated a).sequence ∧
      (c.terminal = true → ∃ n, c.operated a = { c with subscribers := n }) := by
  refine ⟨?_, (grown_operated c a).sequence, fun hterminal => operated_of_terminal hterminal a⟩
  cases a with
  | call a => exact (called c a).steady h
  | subscribe =>
    rw [Channel.operated, subscribe_subscribers]
    exact h.subscribers
  | unsubscribe => exact h.unsubscribe

structure Stream.Sound (s : Stream) : Prop where
  steady : Steady s.channel
  cursor : ∀ q ∈ s.phase.cursor?, q ≤ s.channel.sequence
  idle : s.phase = .idle → s.frames = []
  running : s.channel.terminal = false → s.phase ≠ .ended ∧ (∀ f ∈ s.frames, ¬f.SaysEnd) ∧
    ∀ q m rest, s.phase = .sending q m rest → ∀ m' ∈ m :: rest, Quiet m'

lemma snapshot_final {m : ExecutionEvent} (hended : c.terminal = isTerminal c.status)
    (h : c.snapshot = .ok m) :
    (m.payload.fields.status.any isTerminal = true ↔ c.terminal = true) ∧
      (Final m ↔ c.terminal = true) := by
  obtain ⟨s, hs, rfl⟩ := except_map_ok.mp h
  obtain ⟨draft, -, rfl⟩ := except_map_ok.mp hs
  rw [hended]
  refine ⟨Iff.rfl, ?_⟩
  constructor
  · rintro ⟨t, ht, hterminal⟩
    rw [← Option.some.inj ht] at hterminal
    exact hterminal
  · intro hterminal
    exact ⟨c.status, rfl, hterminal⟩

lemma cursor_resume {q : Nat} {events : List ExecutionEvent} :
    (Phase.resume q events).cursor? = some q := by
  cases events <;> rfl

lemma resume_sending {q q' : Nat} {events rest : List ExecutionEvent} {m : ExecutionEvent}
    (h : Phase.resume q events = .sending q' m rest) : events = m :: rest := by
  cases events with
  | nil => cases h
  | cons m' events =>
    cases h
    rfl

lemma resume_ne {q : Nat} {events : List ExecutionEvent} :
    Phase.resume q events ≠ .idle ∧ Phase.resume q events ≠ .ended ∧
      Phase.resume q events ≠ .raised := by
  cases events <;> simp [Phase.resume]

/-- A loop that raises has sent nothing. -/
lemma Stream.Sound.fail (h : s.Sound) : s.fail.Sound := by
  refine ⟨h.steady.unsubscribe, by simp [Stream.fail, Phase.cursor?], by simp [Stream.fail], ?_⟩
  intro hrunning
  obtain ⟨-, hframes, -⟩ := h.running ((unsubscribe_terminal _).symm.trans hrunning)
  exact ⟨by simp [Stream.fail], hframes, by simp [Stream.fail]⟩

lemma Stream.Sound.operated (h : s.Sound) (a : ChannelAction) :
    Stream.Sound { s with channel := s.channel.operated a } := by
  obtain ⟨hsteady, hsequence, hfrozen⟩ := Events.operated h.steady a
  refine ⟨hsteady, fun q hq => (h.cursor q hq).trans hsequence, h.idle, ?_⟩
  intro hrunning
  apply h.running
  by_contra hterminal
  obtain ⟨n, hsame⟩ := hfrozen (by simpa using hterminal)
  simp only [hsame] at hrunning
  exact hterminal hrunning

lemma Stream.Sound.opened {m : ExecutionEvent} (h : s.Sound) (hphase : s.phase = .idle)
    (hm : s.channel.subscribe.1 = .ok m) : (s.opened m).Sound := by
  obtain ⟨hsnapshot, hchannel⟩ := subscribe_ok hm
  obtain ⟨hany, hfinal⟩ := snapshot_final h.steady.ended hsnapshot
  by_cases hwritable : m.Writable
  swap
  · rw [opened_raises hwritable, hchannel]
    exact Stream.Sound.fail ⟨h.steady.subscribers, h.cursor, h.idle, h.running⟩
  rw [opened_writable hwritable]
  unfold Stream.close
  by_cases hterminal : s.channel.terminal = true
  · rw [if_pos (hany.mpr hterminal)]
    simp only [hchannel]
    refine ⟨h.steady.subscribers.unsubscribe, by simp [Phase.cursor?], by simp, ?_⟩
    intro hrunning
    simp only [unsubscribe_terminal, hterminal, Bool.true_eq_false] at hrunning
  · rw [if_neg (fun hsays => hterminal (hany.mp hsays))]
    have hsequence : m.sequence ≤ s.channel.sequence := (told_snapshot hsnapshot).sequence
    simp only [hchannel]
    refine ⟨h.steady.subscribers, ?_, by simp, ?_⟩
    · rintro q ⟨⟩
      exact hsequence
    · intro hrunning
      refine ⟨by simp, ?_, by simp⟩
      simp only [h.idle hphase, List.nil_append, List.mem_singleton, forall_eq]
      exact fun hend => hterminal (hfinal.mp hend)

lemma Stream.Sound.got {cursor next : Nat} {events : List ExecutionEvent} (h : s.Sound)
    (hphase : s.phase = .reading cursor) (hread : s.channel.readAfter cursor = .ok (events, next)) :
    (s.got events next).Sound := by
  have hcursor := h.cursor cursor (by rw [hphase]; rfl)
  refine ⟨h.steady, ?_, ?_, ?_⟩
  · intro q hq
    simp only [Stream.got, cursor_resume, Option.mem_some_iff] at hq
    rw [← hq]
    exact readAfter_cursor h.steady.orderly hcursor hread
  · intro hidle
    exact absurd hidle resume_ne.1
  · intro hrunning
    obtain ⟨-, hframes, -⟩ := h.running hrunning
    refine ⟨resume_ne.2.1, ?_, ?_⟩
    · intro f hf
      simp only [Stream.got] at hf
      split at hf
      · rcases List.mem_append.mp hf with hold | hnew
        · exact hframes f hold
        · rw [List.mem_singleton.mp hnew]
          exact id
      · exact hframes f hf
    · intro q m rest hsending
      rw [← resume_sending hsending]
      exact readAfter_quiet h.steady.orderly h.steady.ended hrunning hread

lemma Stream.Sound.sent {cursor : Nat} {m : ExecutionEvent} {rest : List ExecutionEvent}
    (h : s.Sound) (hphase : s.phase = .sending cursor m rest) : (s.sent cursor m rest).Sound := by
  by_cases hwritable : m.Writable
  swap
  · rw [sent_raises hwritable]
    exact h.fail
  rw [sent_writable hwritable]
  unfold Stream.close
  by_cases htype : m.payload.type = "terminal"
  · rw [if_pos htype]
    refine ⟨h.steady.unsubscribe, by simp [Phase.cursor?], by simp, ?_⟩
    intro hrunning
    obtain ⟨-, -, hquiet⟩ := h.running ((unsubscribe_terminal _).symm.trans hrunning)
    exact absurd htype (hquiet cursor m rest hphase m List.mem_cons_self).type
  · rw [if_neg htype]
    refine ⟨h.steady, ?_, ?_, ?_⟩
    · intro q hq
      simp only [cursor_resume, Option.mem_some_iff] at hq
      rw [← hq]
      exact h.cursor cursor (by rw [hphase]; rfl)
    · intro hidle
      exact absurd hidle resume_ne.1
    · intro hrunning
      obtain ⟨-, hframes, hquiet⟩ := h.running hrunning
      have hrest := hquiet cursor m rest hphase
      refine ⟨resume_ne.2.1, ?_, ?_⟩
      · intro f hf
        rcases List.mem_append.mp hf with hold | hnew
        · exact hframes f hold
        · rw [List.mem_singleton.mp hnew]
          exact (hrest m List.mem_cons_self).status
      · intro q m' rest' hsending m'' hm''
        rw [← resume_sending hsending] at hm''
        exact hrest m'' (List.mem_cons_of_mem m hm'')

lemma Stream.Sound.step (h : s.Sound) (hstep : Stream.Step s a s') : s'.Sound := by
  cases hstep with
  | operation => exact h.operated _
  | subscribe hphase hm => exact h.opened hphase hm
  | read hphase hread => exact h.got hphase hread
  | send hphase => exact h.sent hphase

lemma stream_sound (h : (streaming x maxEvents maxBytes maxSubscribers).Reachable s) : s.Sound := by
  refine h.invariant ?_ (fun _ _ _ hsound hstep => hsound.step hstep)
  rintro s ⟨hnew, hphase, hframes⟩
  obtain ⟨_, hbounds, hnew⟩ := except_bind_ok.mp hnew
  have hchannel := except_pure_ok.mp hnew
  have hpositive := require_ok.mp hbounds
  refine ⟨?_, by simp [hphase, Phase.cursor?], fun _ => hframes, ?_⟩
  · rw [← hchannel]
    refine ⟨⟨[], Draft.Ok.empty⟩, rfl, ?_, ?_⟩
    · refine ⟨?_, List.Pairwise.nil, by simp, rfl, by simp, by simp⟩
      exact hpositive.trans (Nat.min_le_left _ _)
    · exact hpositive.trans ((Nat.min_le_right _ _).trans (Nat.min_le_right _ _))
  · intro _
    rw [hphase, hframes]
    simp

/-- What the loop still sends and does on an ended channel: the events, the number of its steps and
that of its reads. -/
inductive Remaining (c : Channel) : Phase → List ExecutionEvent → Nat → Nat → Prop where
  | ended : Remaining c .ended [] 0 0
  | idle {m : ExecutionEvent} (hm : c.snapshot = .ok m) (hwritable : m.Writable)
      (hstatus : m.payload.fields.status.any isTerminal = true) : Remaining c .idle [m] 1 0
  | reading {q next : Nat} {before : List ExecutionEvent} {m : ExecutionEvent}
      (h : c.readAfter q = .ok (before ++ [m], next)) (hwritable : ∀ m' ∈ before ++ [m], m'.Writable)
      (hbefore : ∀ m' ∈ before, m'.payload.type ≠ "terminal") (hm : m.payload.type = "terminal") :
      Remaining c (.reading q) (before ++ [m]) (before.length + 2) 1
  | last {q : Nat} {e m : ExecutionEvent} {rest before : List ExecutionEvent}
      (hrest : e :: rest = before ++ [m]) (hwritable : ∀ m' ∈ before ++ [m], m'.Writable)
      (hbefore : ∀ m' ∈ before, m'.payload.type ≠ "terminal") (hm : m.payload.type = "terminal") :
      Remaining c (.sending q e rest) (before ++ [m]) (before.length + 1) 0
  | more {q n : Nat} {e : ExecutionEvent} {rest events : List ExecutionEvent}
      (hwritable : ∀ m ∈ e :: rest, m.Writable) (hrest : ∀ m ∈ e :: rest, m.payload.type ≠ "terminal")
      (h : Remaining c (.reading q) events n 1) :
      Remaining c (.sending q e rest) (e :: rest ++ events) (rest.length + 1 + n) 1

variable {phase : Phase} {events : List ExecutionEvent} {n r : Nat}

lemma Remaining.subscribers {k : Nat} (h : Remaining c phase events n r) :
    Remaining { c with subscribers := k } phase events n r := by
  induction h with
  | ended => exact .ended
  | idle hm hwritable hstatus => exact .idle hm hwritable hstatus
  | reading h hwritable hbefore hm => exact .reading h hwritable hbefore hm
  | last hrest hwritable hbefore hm => exact .last hrest hwritable hbefore hm
  | more hwritable hrest _ ih => exact .more hwritable hrest ih

lemma Remaining.ended_iff (h : Remaining c phase events n r) :
    (phase = .ended ↔ n = 0) ∧ (phase = .ended ↔ events = []) ∧ r ≤ 1 := by
  cases h with
  | ended => simp
  | idle => simp
  | reading => simp
  | last => simp
  | more => simp

/-- A loop that has something left can do it. -/
lemma Remaining.goesOn (h : Remaining s.channel s.phase events n r) (hopen : s.phase ≠ .ended)
    (hidle : s.phase ≠ .idle) : ∃ a s', a.isLoop = true ∧ Stream.Step s a s' := by
  cases hphase : s.phase with
  | idle => exact absurd hphase hidle
  | ended => exact absurd hphase hopen
  | reading q =>
    rw [hphase] at h
    cases h with
    | reading hread => exact ⟨.read, _, rfl, .read hphase hread⟩
  | sending q m rest => exact ⟨.send, _, rfl, .send hphase⟩
  | raised =>
    rw [hphase] at h
    cases h

lemma Remaining.resume_last {q : Nat} {before : List ExecutionEvent} {m : ExecutionEvent}
    (hwritable : ∀ m' ∈ before ++ [m], m'.Writable)
    (hbefore : ∀ m' ∈ before, m'.payload.type ≠ "terminal") (hm : m.payload.type = "terminal") :
    Remaining c (.resume q (before ++ [m])) (before ++ [m]) (before.length + 1) 0 := by
  cases hall : before ++ [m] with
  | nil => simp at hall
  | cons e rest =>
    rw [Phase.resume, ← hall]
    exact .last hall.symm hwritable hbefore hm

lemma Remaining.resume {q : Nat} {rest : List ExecutionEvent}
    (h : Remaining c (.reading q) events n 1) (hwritable : ∀ m ∈ rest, m.Writable)
    (hrest : ∀ m ∈ rest, m.payload.type ≠ "terminal") :
    Remaining c (.resume q rest) (rest ++ events) (rest.length + n) 1 := by
  cases rest with
  | nil =>
    rw [List.length_nil, Nat.zero_add]
    exact h
  | cons e rest => exact .more hwritable hrest h

/-- A step of the loop sends the first events that are due, and one step less is due. -/
lemma Remaining.step (h : Remaining s.channel s.phase events n r) (hstep : Stream.Step s a s')
    (ha : a.isLoop = true) : ∃ out rest k, events = out ++ rest ∧ n = k + 1 ∧
      Remaining s'.channel s'.phase rest k (r - [a].count .read) ∧ [a].count .read ≤ r ∧
      s'.frames = s.frames ++ out.map .event := by
  cases hstep with
  | operation => cases ha
  | @subscribe m hphase hm =>
    obtain ⟨hsnapshot, -⟩ := subscribe_ok hm
    rw [hphase] at h
    cases h with
    | @idle m' hm' hwritable hstatus =>
      obtain rfl := Except.ok.inj (hm'.symm.trans hsnapshot)
      rw [opened_writable hwritable, if_pos hstatus]
      exact ⟨[m'], [], 0, rfl, rfl, .ended, by simp, rfl⟩
  | @read cursor next events hphase hread =>
    rw [hphase] at h
    cases h with
    | @reading _ next' before m hreads hwritable hbefore hm =>
      obtain ⟨hevents, hnext⟩ := Prod.mk.inj (Except.ok.inj (hreads.symm.trans hread))
      subst hevents hnext
      refine ⟨[], before ++ [m], before.length + 1, rfl, rfl, ?_, by simp, ?_⟩
      · exact .resume_last hwritable hbefore hm
      · rw [Stream.got, if_neg (by simp), List.map_nil, List.append_nil]
  | @send cursor m rest hphase =>
    rw [hphase] at h
    cases h with
    | @last _ _ e _ before hrest hwritable hbefore he =>
      cases before with
      | nil =>
        obtain ⟨rfl, rfl⟩ := List.cons.inj hrest
        rw [sent_writable (hwritable m List.mem_cons_self), if_pos he]
        exact ⟨[m], [], 0, rfl, rfl, .ended, by simp, rfl⟩
      | cons m' before =>
        obtain ⟨rfl, rfl⟩ := List.cons.inj hrest
        rw [sent_writable (hwritable m List.mem_cons_self),
          if_neg (hbefore m List.mem_cons_self)]
        refine ⟨[m], before ++ [e], before.length + 1, rfl, rfl, ?_, by simp, rfl⟩
        exact .resume_last (fun m' hm' => hwritable m' (List.mem_cons_of_mem m hm'))
          (fun m' hm' => hbefore m' (List.mem_cons_of_mem m hm')) he
    | @more _ k _ _ events hwritable hrest hnext =>
      rw [sent_writable (hwritable m List.mem_cons_self), if_neg (hrest m List.mem_cons_self)]
      refine ⟨[m], rest ++ events, rest.length + k, rfl, by omega, ?_, by simp, rfl⟩
      exact hnext.resume (fun m' hm' => hwritable m' (List.mem_cons_of_mem m hm'))
        (fun m' hm' => hrest m' (List.mem_cons_of_mem m hm'))

/-- Neither the first frame nor a later one ends the channel. -/
lemma opened_terminal {m : ExecutionEvent} :
    (s.opened m).channel.terminal = s.channel.terminal := by
  have hsubscribed : s.channel.subscribe.2.terminal = s.channel.terminal := by
    rw [subscribe_subscribers]
  unfold Stream.opened Stream.close Stream.fail
  split
  · rw [unsubscribe_terminal, hsubscribed]
  split
  · rw [unsubscribe_terminal, hsubscribed]
  · exact hsubscribed

lemma sent_terminal {q : Nat} {m : ExecutionEvent} {rest : List ExecutionEvent} :
    (s.sent q m rest).channel.terminal = s.channel.terminal := by
  unfold Stream.sent Stream.close Stream.fail
  split
  · exact unsubscribe_terminal _
  split
  · exact unsubscribe_terminal _
  · rfl

lemma Steady.stays (h : Steady s.channel) (hterminal : s.channel.terminal = true)
    (hstep : Stream.Step s a s') : s'.channel.terminal = true := by
  cases hstep with
  | @operation a =>
    obtain ⟨n, hsame⟩ := (operated h a).2.2 hterminal
    simp only [hsame]
    exact hterminal
  | subscribe => rw [opened_terminal, hterminal]
  | read => exact hterminal
  | send => rw [sent_terminal, hterminal]

/-- The steps of a run from an ended channel. -/
lemma Remaining.run {es : List StreamAction} {t : Stream} (hsound : s.Sound)
    (hterminal : s.channel.terminal = true) (h : Remaining s.channel s.phase events n r)
    (hrun : (streaming x maxEvents maxBytes maxSubscribers).Run s es t) :
    ∃ out rest k r', events = out ++ rest ∧ n = k + (es.filter StreamAction.isLoop).length ∧
      r = r' + es.count .read ∧ t.Sound ∧ t.channel.terminal = true ∧
      Remaining t.channel t.phase rest k r' ∧ t.frames = s.frames ++ out.map .event := by
  induction hrun with
  | nil => exact ⟨[], events, n, r, rfl, rfl, rfl, hsound, hterminal, h, by simp⟩
  | @snoc t u es a _ hstep ih =>
    obtain ⟨out, rest, k, r', hevents, hsteps, hreads, ht, hended, hremaining, hframes⟩ := ih
    have hsteady := ht.steady
    have hnext := ht.step hstep
    have hstays : u.channel.terminal = true := hsteady.stays hended hstep
    by_cases ha : a.isLoop = true
    · obtain ⟨out', rest', k', hrest, hk, hafter, hle, hsent⟩ := hremaining.step hstep ha
      refine ⟨out ++ out', rest', k', r' - [a].count .read, ?_, ?_, ?_, hnext, hstays, hafter, ?_⟩
      · rw [hevents, hrest, List.append_assoc]
      · rw [List.filter_append, List.length_append, List.filter_cons_of_pos ha]
        simp only [List.filter_nil, List.length_singleton]
        omega
      · rw [List.count_append]
        omega
      · rw [hsent, hframes, List.map_append, List.append_assoc]
    · cases hstep with
      | @operation a =>
        obtain ⟨m, hsame⟩ := (operated hsteady a).2.2 hended
        refine ⟨out, rest, k, r', hevents, ?_, ?_, hnext, hstays, ?_, hframes⟩
        · rw [List.filter_append, List.filter_cons_of_neg ha, List.filter_nil, List.append_nil]
          exact hsteps
        · simpa [List.count_append] using hreads
        · simp only [hsame]
          exact hremaining.subscribers
      | subscribe => exact absurd rfl ha
      | read => exact absurd rfl ha
      | send => exact absurd rfl ha

/-- A loop whose remaining events say the end in the last place closes well. -/
theorem Remaining.endsWell (hsound : s.Sound) (hterminal : s.channel.terminal = true)
    (h : Remaining s.channel s.phase events n r) {before : List Frame} {frame : Frame}
    (hall : s.frames ++ events.map .event = before ++ [frame]) (hframe : frame.SaysEnd)
    (hbefore : ∀ f ∈ before, ¬f.SaysEnd) :
    EndsWell x maxEvents maxBytes maxSubscribers s := by
  refine ⟨n, ?_⟩
  intro es t hrun
  obtain ⟨out, rest, k, r', hevents, hsteps, hreads, ht, hended, hremaining, hframes⟩ :=
    h.run hsound hterminal hrun
  obtain ⟨hk, hrest, -⟩ := hremaining.ended_iff
  have hcount := h.ended_iff.2.2
  have hsplit : t.frames ++ rest.map .event = before ++ [frame] := by
    rw [hframes, List.append_assoc, ← List.map_append, ← hevents]
    exact hall
  refine ⟨by omega, ?_, ?_, by omega, ⟨out, hframes⟩, ?_, ?_⟩
  · rw [hk]
    omega
  · intro hopen hidle
    exact hremaining.goesOn hopen hidle
  · intro hdone
    rw [hrest.mp hdone, List.map_nil, List.append_nil] at hsplit
    exact ⟨before, frame, hsplit, hframe, hbefore⟩
  · intro hopen f hf
    have hlength := congrArg List.length hsplit
    have hpositive := List.length_pos_of_ne_nil (fun hnone => hopen (hrest.mpr hnone))
    simp only [List.length_append, List.length_map, List.length_singleton] at hlength
    have hstart : t.frames <+: before :=
      List.prefix_of_prefix_length_le ⟨_, hsplit⟩ (List.prefix_append before [frame]) (by omega)
    exact hbefore f (hstart.subset hf)

section Finishing

variable {status : ExecutionStatus} {publicError : Option PublicError} {q next : Nat}

lemma finish_append (hrunning : c.terminal = false) (hstatus : isTerminal status = true) :
    c.finish status publicError =
      (c.finishing status).append (.terminal status (Channel.safeError publicError)) := by
  rw [Channel.finish, if_neg (not_not_intro hstatus), if_neg (by simp [hrunning])]
  rfl

lemma finish_terminal (hrunning : c.terminal = false) (hstatus : isTerminal status = true) :
    (c.finish status publicError).2.terminal = true := by
  rw [finish_append hrunning hstatus, (appended _ _).fields]
  rfl

/-- The channel after an end whose event can be written and fits. -/
lemma finish_push (hrunning : c.terminal = false) (hstatus : isTerminal status = true)
    (hwritable : (c.endEvent status publicError).Writable)
    (hsize : c.endSize status publicError ≤ c.maxBytes) :
    (c.finish status publicError).2 =
      (c.finishing status).push (c.endEvent status publicError) (c.endSize status publicError) := by
  rw [finish_append hrunning hstatus, append_push (c := c.finishing status) hwritable hsize]
  rfl

/-- The ring after an end whose event cannot be written or does not fit. -/
lemma finish_ring (hrunning : c.terminal = false) (hstatus : isTerminal status = true)
    (h : ¬((c.endEvent status publicError).Writable ∧ c.endSize status publicError ≤ c.maxBytes)) :
    (c.finish status publicError).2.ring = c.ring := by
  rw [finish_append hrunning hstatus]
  exact append_ring (c := c.finishing status) h

/-- Behind a cursor that is not before the oldest event, a read returns the last one. -/
lemma readAfter_kept {before : List (ExecutionEvent × Nat)} {e : ExecutionEvent × Nat}
    (hring : c.ring = before ++ [e]) (hhead : ∀ oldest ∈ c.ring.head?, oldest.1.sequence ≤ q + 1)
    (hlast : q < e.1.sequence) : ∃ next, c.readAfter q =
      .ok ((before.map Prod.fst).filter (fun m => q < m.sequence) ++ [e.1], next) := by
  have hfilter : (c.ring.map Prod.fst).filter (fun m => q < m.sequence) =
      (before.map Prod.fst).filter (fun m => q < m.sequence) ++ [e.1] := by
    rw [hring, List.map_append, List.filter_append]
    simp [hlast]
  unfold Channel.readAfter
  cases hall : c.ring with
  | nil =>
    rw [hall] at hring
    simp at hring
  | cons oldest ring =>
    rw [hall] at hhead
    have holdest := hhead oldest rfl
    simp only [if_neg (Nat.not_lt.mpr holdest)]
    rw [← hall, hfilter]
    exact ⟨_, rfl⟩

/-- The event of an end that the cursor keeps up with is the last one of the next read. -/
lemma readAfter_finish (horderly : Orderly c) (hrunning : c.terminal = false)
    (hstatus : isTerminal status = true) (hq : q ≤ c.sequence)
    (h : c.KeepsUp status publicError q) :
    ∃ before m next, (c.finish status publicError).2.readAfter q = .ok (before ++ [m], next) ∧
      (∀ m' ∈ before ++ [m], m'.Writable) ∧ (∀ m' ∈ before, Quiet m') ∧
      m.payload.type = "terminal" ∧ Final m := by
  obtain ⟨⟨hwritable, hsize⟩, hevicted⟩ := h
  have hbytes : c.ringBytes + c.endSize status publicError =
      (c.ring.map Prod.snd).sum + c.endSize status publicError := by rw [horderly.bytes]
  obtain ⟨before, htrim, hsuffix⟩ := trim_last
    (e := (c.endEvent status publicError, c.endSize status publicError))
    horderly.positive hsize hbytes
  rw [finish_push hrunning hstatus hwritable hsize]
  have hlast : q < (c.endEvent status publicError).sequence := Nat.lt_succ_of_le hq
  obtain ⟨next, hread⟩ := readAfter_kept
    (c := (c.finishing status).push (c.endEvent status publicError) (c.endSize status publicError))
    (e := (c.endEvent status publicError, c.endSize status publicError)) htrim hevicted hlast
  refine ⟨_, _, next, hread, ?_, ?_, rfl, status, rfl, hstatus⟩
  · intro m hm
    rcases List.mem_append.mp hm with hold | hnew
    · obtain ⟨e, he, rfl⟩ := List.mem_map.mp (List.mem_of_mem_filter hold)
      exact horderly.writable e (hsuffix.subset he)
    · rw [List.mem_singleton.mp hnew]
      exact hwritable
  · intro m hm
    obtain ⟨e, he, rfl⟩ := List.mem_map.mp (List.mem_of_mem_filter hm)
    exact horderly.quiet hrunning e (hsuffix.subset he)

/-- An end that the cursor does not keep up with is not told by the next read. -/
lemma readAfter_missed {events : List ExecutionEvent} (horderly : Orderly c)
    (hrunning : c.terminal = false) (hstatus : isTerminal status = true)
    (h : ¬c.KeepsUp status publicError q)
    (hread : (c.finish status publicError).2.readAfter q = .ok (events, next)) :
    ∀ m ∈ events, m.payload.type ≠ "terminal" := by
  intro m hm
  by_cases hfits : (c.endEvent status publicError).Writable ∧
      c.endSize status publicError ≤ c.maxBytes
  · rw [Channel.KeepsUp, and_iff_right hfits] at h
    simp only [not_forall, Nat.not_le] at h
    obtain ⟨oldest, hhead, hbehind⟩ := h
    rw [finish_push hrunning hstatus hfits.1 hfits.2] at hread
    obtain ⟨m', hsnapshot, rfl⟩ := readAfter_resync hhead hbehind hread
    rw [List.mem_singleton.mp hm]
    exact snapshot_type hsnapshot
  · rcases readAfter_cases hread with ⟨m', hsnapshot, rfl, -⟩ | ⟨rfl, -⟩
    · rw [List.mem_singleton.mp hm]
      exact snapshot_type hsnapshot
    · obtain ⟨e, he, rfl⟩ := List.mem_map.mp (List.mem_of_mem_filter hm)
      rw [finish_ring hrunning hstatus hfits] at he
      exact (horderly.quiet hrunning e he).type

/-- The loop sends events that do not end it, and reads again, unless it raises at one of them. -/
lemma run_sends {events : List ExecutionEvent} (hphase : s.phase = .resume q events)
    (hevents : ∀ m ∈ events, m.payload.type ≠ "terminal") :
    ∃ es t, (streaming x maxEvents maxBytes maxSubscribers).Run s es t ∧ (t.phase = .raised ∨
      (∀ m ∈ events, m.Writable) ∧ t.channel = s.channel ∧ t.phase = .reading q ∧
        t.frames = s.frames ++ events.map .event) := by
  induction events generalizing s with
  | nil => exact ⟨[], s, .nil s, .inr ⟨by simp, rfl, hphase, by simp⟩⟩
  | cons m rest ih =>
    have hstep : Stream.Step s .send (s.sent q m rest) := .send hphase
    by_cases hwritable : m.Writable
    swap
    · rw [sent_raises hwritable] at hstep
      exact ⟨_, _, .single hstep, .inl rfl⟩
    rw [sent_writable hwritable, if_neg (hevents m List.mem_cons_self)] at hstep
    obtain ⟨es, t, hrun, hsends⟩ := ih
      (s := { s with phase := .resume q rest, frames := s.frames ++ [.event m] }) rfl
      (fun m' hm' => hevents m' (List.mem_cons_of_mem m hm'))
    refine ⟨_, t, (System.Run.single hstep).append hrun, hsends.imp_right ?_⟩
    rintro ⟨hrest, hchannel, hreading, hframes⟩
    refine ⟨List.forall_mem_cons.mpr ⟨hwritable, hrest⟩, hchannel, hreading, ?_⟩
    rw [hframes, List.append_assoc]
    rfl

/-- From a read that does not tell the end, the loop raises or comes to a heartbeat. -/
lemma run_heartbeat (hsteady : Steady s.channel) (hphase : s.phase = .reading q)
    (hread : ∀ events next, s.channel.readAfter q = .ok (events, next) →
      ∀ m ∈ events, m.payload.type ≠ "terminal") :
    ∃ es t, (streaming x maxEvents maxBytes maxSubscribers).Run s es t ∧ (t.phase = .raised ∨
      ∃ out, t.frames = s.frames ++ out ∧ .heartbeat ∈ out) := by
  obtain ⟨⟨events, next⟩, hevents⟩ := readAfter_ok hsteady.drafted q
  have hstep : Stream.Step s .read (s.got events next) := .read hphase hevents
  by_cases hnone : events = []
  · refine ⟨_, _, .single hstep, .inr ⟨[.heartbeat], ?_, by simp⟩⟩
    exact if_pos hnone
  · obtain ⟨es, t, hrun, hsends⟩ :
        ∃ es t, (streaming x maxEvents maxBytes maxSubscribers).Run (s.got events next) es t ∧ _ :=
      run_sends rfl (hread events next hevents)
    have hboth := (System.Run.single hstep).append hrun
    rcases hsends with hraised | ⟨-, hchannel, hreading, hframes⟩
    · exact ⟨_, t, hboth, .inl hraised⟩
    have hagain := readAfter_again hsteady.orderly hevents
    have hlast : Stream.Step t .read (t.got [] next) := .read hreading (by rw [hchannel]; exact hagain)
    refine ⟨_, _, hboth.snoc hlast, .inr ⟨events.map .event ++ [.heartbeat], ?_, by simp⟩⟩
    simp only [Stream.got, hframes, if_pos, if_neg hnone, List.append_assoc]

/-- A loop whose first snapshot cannot be encoded raises as soon as there is a subscription left. -/
lemma run_raises {m : ExecutionEvent} {k : Nat} (hk : s.channel.subscribers = k)
    (hpositive : 1 ≤ s.channel.maxSubscribers) (hphase : s.phase = .idle)
    (hm : s.channel.snapshot = .ok m) (h : ¬m.Writable) :
    ∃ es t, (streaming x maxEvents maxBytes maxSubscribers).Run s es t ∧ t.phase = .raised := by
  induction k generalizing s with
  | zero =>
    have hsubscribed : s.channel.subscribe.1 = .ok m := by
      rw [Channel.subscribe, if_neg (by omega)]
      exact hm
    have hstep : Stream.Step s .subscribe (s.opened m) := .subscribe hphase hsubscribed
    rw [opened_raises h] at hstep
    exact ⟨_, _, .single hstep, rfl⟩
  | succ k ih =>
    have hleft : s.channel.operated .unsubscribe = { s.channel with subscribers := k } := by
      rw [Channel.operated, Channel.unsubscribe, if_neg (by omega), hk]
      rfl
    have hstep : Stream.Step s (.operation .unsubscribe)
        { s with channel := s.channel.operated .unsubscribe } := .operation
    rw [hleft] at hstep
    obtain ⟨es, t, hrun, hraised⟩ := ih
      (s := { s with channel := { s.channel with subscribers := k } }) rfl hpositive hphase hm
    exact ⟨_, t, (System.Run.single hstep).append hrun, hraised⟩

/-- A loop that has raised does nothing any more. -/
lemma not_endsWell_of_raised {es : List StreamAction} {t : Stream}
    (hrun : (streaming x maxEvents maxBytes maxSubscribers).Run s es t)
    (hraised : t.phase = .raised) : ¬EndsWell x maxEvents maxBytes maxSubscribers s := by
  rintro ⟨n, hcloses⟩
  obtain ⟨a, t', ha, hstep⟩ := (hcloses es t hrun).goesOn (by simp [hraised]) (by simp [hraised])
  cases hstep with
  | operation => cases ha
  | subscribe hphase => cases hraised.symm.trans hphase
  | read hphase => cases hraised.symm.trans hphase
  | send hphase => cases hraised.symm.trans hphase

/-- Whether a snapshot can be encoded depends on its numbers and on the stop reason. -/
lemma snapshot_writable {draft : Option ReportDraft} {n : Nat} :
    (c.envelope n (.snapshot (c.state draft))).Writable ↔
      (∀ k ∈ n :: c.draftGeneration :: c.completedTasks :: c.draftGeneration ::
        c.totalTasks.toList, (Nat.toDigits 10 k).length ≤ maxStrDigits) ∧
        ∀ t ∈ c.stopReason.toList, t.Encodable := Iff.rfl

/-- The number of a channel that has ended can be written exactly when the next one can. -/
lemma sequence_finish (hrunning : c.terminal = false) (hstatus : isTerminal status = true) :
    (Nat.toDigits 10 (c.finish status publicError).2.sequence).length ≤ maxStrDigits ↔
      (Nat.toDigits 10 (c.sequence + 1)).length ≤ maxStrDigits := by
  by_cases hwritable : (c.endEvent status publicError).Writable
  · have hnext : (Nat.toDigits 10 (c.sequence + 1)).length ≤ maxStrDigits :=
      hwritable.1 _ List.mem_cons_self
    refine iff_of_true ?_ hnext
    have hafter := appended (c.finishing status) (.terminal status (Channel.safeError publicError))
    rw [← finish_append hrunning hstatus] at hafter
    rcases hafter.outcome with hsame | hskipped | ⟨size, -, hpushed⟩
    · rw [hsame]
      exact (length_toDigits_mono (Nat.le_succ c.sequence)).trans hnext
    · rw [hskipped]
      exact hnext
    · rw [hpushed]
      exact hnext
  · rw [finish_append hrunning hstatus, append_not_writable hwritable]
    rfl

/-- The snapshot of a channel that has ended can be encoded exactly when that before the end, with
the next number, could. -/
lemma tellable_iff (hrunning : c.terminal = false) (hstatus : isTerminal status = true)
    {m : ExecutionEvent} (hm : (c.finish status publicError).2.snapshot = .ok m) :
    m.Writable ↔ c.Tellable := by
  obtain ⟨s, hs, rfl⟩ := except_map_ok.mp hm
  obtain ⟨draft, -, rfl⟩ := except_map_ok.mp hs
  have hnumber := @sequence_finish c status publicError hrunning hstatus
  have hafter := appended (c.finishing status) (.terminal status (Channel.safeError publicError))
  rw [← finish_append hrunning hstatus] at hafter
  have hgeneration : (c.finish status publicError).2.draftGeneration = c.draftGeneration := by
    rw [hafter.fields]
    rfl
  have hcompleted : (c.finish status publicError).2.completedTasks = c.completedTasks := by
    rw [hafter.fields]
    rfl
  have htotal : (c.finish status publicError).2.totalTasks = c.totalTasks := by
    rw [hafter.fields]
    rfl
  have hreason : (c.finish status publicError).2.stopReason = c.stopReason := by
    rw [hafter.fields]
    rfl
  rw [Channel.Tellable, snapshot_writable, snapshot_writable, hgeneration, hcompleted, htotal,
    hreason]
  simp only [List.forall_mem_cons, hnumber]

/-- A stream whose channel has ended and whose remaining frames say so in the last place. -/
def Closes (s : Stream) : Prop :=
  ∃ events n r before frame, Remaining s.channel s.phase events n r ∧
    s.frames ++ events.map .event = before ++ [frame] ∧ frame.SaysEnd ∧ ∀ f ∈ before, ¬f.SaysEnd

lemma Closes.endsWell (h : Closes s) (hsound : s.Sound) (hterminal : s.channel.terminal = true) :
    EndsWell x maxEvents maxBytes maxSubscribers s := by
  obtain ⟨events, n, r, before, frame, hremaining, hall, hframe, hbefore⟩ := h
  exact hremaining.endsWell hsound hterminal hall hframe hbefore

lemma Closes.step (h : Closes s) (hsound : s.Sound) (hterminal : s.channel.terminal = true)
    (hstep : (streaming x maxEvents maxBytes maxSubscribers).step s a s') : Closes s' := by
  obtain ⟨events, n, r, before, frame, hremaining, hall, hframe, hbefore⟩ := h
  obtain ⟨out, rest, k, r', hevents, -, -, -, -, hafter, hframes⟩ :=
    hremaining.run hsound hterminal (.single hstep)
  refine ⟨rest, k, r', before, frame, hafter, ?_, hframe, hbefore⟩
  rw [hframes, List.append_assoc, ← List.map_append, ← hevents]
  exact hall

/-- A loop that has not subscribed yet gets the end with its first snapshot. -/
lemma closes_idle (hsteady : Steady c) (hterminal : c.terminal = true)
    (hwritable : ∀ m, c.snapshot = .ok m → m.Writable) : Closes ⟨c, .idle, []⟩ := by
  obtain ⟨m, hsnapshot⟩ := hsteady.drafted.snapshot
  obtain ⟨hany, hfinal⟩ := snapshot_final hsteady.ended hsnapshot
  exact ⟨_, 1, 0, [], _, .idle hsnapshot (hwritable _ hsnapshot) (hany.mpr hterminal), rfl,
    hfinal.mpr hterminal, by simp⟩

lemma quiet_frames {frames : List Frame} {events : List ExecutionEvent}
    (hframes : ∀ f ∈ frames, ¬f.SaysEnd) (hevents : ∀ m ∈ events, Quiet m) :
    ∀ f ∈ frames ++ events.map Frame.event, ¬f.SaysEnd := by
  intro f hf
  rcases List.mem_append.mp hf with hold | hnew
  · exact hframes f hold
  · obtain ⟨m, hm, rfl⟩ := List.mem_map.mp hnew
    exact (hevents m hm).status

lemma finish_closes (hsound : s.Sound) (hrunning : s.channel.terminal = false)
    (hstatus : isTerminal status = true) (h : s.KeepsUp status publicError) :
    Closes { s with channel := (s.channel.finish status publicError).2 } := by
  obtain ⟨-, hframes, hquiet⟩ := hsound.running hrunning
  have hsteady : Steady (s.channel.finish status publicError).2 :=
    (called s.channel (.finish status publicError)).steady hsound.steady
  obtain ⟨c, phase, frames⟩ := s
  cases phase with
  | idle =>
    obtain rfl : frames = [] := hsound.idle rfl
    exact closes_idle hsteady (finish_terminal hrunning hstatus) fun m hm =>
      (tellable_iff hrunning hstatus hm).mpr h
  | ended => exact h.elim
  | raised => exact h.elim
  | reading q =>
    obtain ⟨before, m, next, hread, hwritable, hbefore, htype, hfinal⟩ := readAfter_finish
      hsound.steady.orderly hrunning hstatus (hsound.cursor q rfl) h
    refine ⟨_, _, _, frames ++ before.map .event, .event m,
      .reading hread hwritable (fun m' hm' => (hbefore m' hm').type) htype, ?_, hfinal, ?_⟩
    · rw [List.map_append, List.append_assoc]
      rfl
    · exact quiet_frames hframes hbefore
  | sending q e rest =>
    obtain ⟨hsendable, hkeeps⟩ := h
    obtain ⟨before, m, next, hread, hwritable, hbefore, htype, hfinal⟩ := readAfter_finish
      hsound.steady.orderly hrunning hstatus (hsound.cursor q rfl) hkeeps
    have hrest := hquiet q e rest rfl
    refine ⟨_, _, _, frames ++ (e :: rest ++ before).map .event, .event m,
      .more hsendable (fun m' hm' => (hrest m' hm').type)
        (.reading hread hwritable (fun m' hm' => (hbefore m' hm').type) htype), ?_, hfinal, ?_⟩
    · rw [← List.append_assoc, List.map_append, List.append_assoc]
      rfl
    · apply quiet_frames hframes
      intro m' hm'
      rcases List.mem_append.mp hm' with hin | hin
      · exact hrest m' hin
      · exact hbefore m' hin

/-- Only `finish` ends the channel. -/
lemma step_ends (hrunning : s.channel.terminal = false) (hterminal : s'.channel.terminal = true)
    (hstep : Stream.Step s a s') : ∃ status publicError,
      a = .operation (.call (.finish status publicError)) ∧ isTerminal status = true ∧
        s' = { s with channel := (s.channel.finish status publicError).2 } := by
  cases hstep with
  | @operation a =>
    cases a with
    | call a =>
      have hcalled := called s.channel a
      cases a with
      | finish status publicError =>
        refine ⟨status, publicError, rfl, ?_, rfl⟩
        by_contra hstatus
        simp only [Channel.operated, Channel.call, Channel.finish, if_pos hstatus, hrunning,
          Bool.false_eq_true] at hterminal
      | _ =>
        have hstill := hcalled.running hrunning (by simp)
        simp only [Channel.operated, hstill, Bool.false_eq_true] at hterminal
    | subscribe =>
      rw [Channel.operated, subscribe_subscribers] at hterminal
      simp only [hrunning, Bool.false_eq_true] at hterminal
    | unsubscribe =>
      rw [Channel.operated, unsubscribe_subscribers] at hterminal
      simp only [hrunning, Bool.false_eq_true] at hterminal
  | subscribe => rw [opened_terminal, hrunning] at hterminal; cases hterminal
  | read =>
    simp only [Stream.got, hrunning, Bool.false_eq_true] at hterminal
  | send => rw [sent_terminal, hrunning] at hterminal; cases hterminal

/-- A loop that reads on behind an end that it does not keep up with raises or comes to a
heartbeat. -/
lemma finish_missed (hsound : s.Sound) (hrunning : s.channel.terminal = false)
    (hstatus : isTerminal status = true) {events : List ExecutionEvent}
    (hphase : s.phase = .resume q events) (hevents : ∀ m ∈ events, m.payload.type ≠ "terminal")
    (h : ¬((∀ m ∈ events, m.Writable) ∧ s.channel.KeepsUp status publicError q)) :
    ¬EndsWell x maxEvents maxBytes maxSubscribers
      { s with channel := (s.channel.finish status publicError).2 } := by
  have hsteady : Steady (s.channel.finish status publicError).2 :=
    (called s.channel (.finish status publicError)).steady hsound.steady
  obtain ⟨es, t, hrun, hsends⟩ := @run_sends x maxEvents maxBytes maxSubscribers
    { s with channel := (s.channel.finish status publicError).2 } _ _ hphase hevents
  rcases hsends with hraised | ⟨hwritable, hchannel, hreading, hframes⟩
  · exact not_endsWell_of_raised hrun hraised
  change t.channel = (s.channel.finish status publicError).2 at hchannel
  have hmissed : ∀ events next, t.channel.readAfter q = .ok (events, next) →
      ∀ m ∈ events, m.payload.type ≠ "terminal" := by
    intro events next hread
    rw [hchannel] at hread
    exact readAfter_missed hsound.steady.orderly hrunning hstatus
      (fun hkeeps => h ⟨hwritable, hkeeps⟩) hread
  obtain ⟨es', t', hrun', hbeats⟩ := run_heartbeat (hchannel ▸ hsteady) hreading hmissed
  rcases hbeats with hraised | ⟨out, hbeat, hin⟩
  · exact not_endsWell_of_raised (hrun.append hrun') hraised
  rintro ⟨n, hcloses⟩
  obtain ⟨sent, hsent⟩ := (hcloses _ t' (hrun.append hrun')).quiet
  rw [hbeat, hframes, List.append_assoc] at hsent
  have hall := List.append_cancel_left hsent
  have hsends : Frame.heartbeat ∈ sent.map Frame.event := by
    rw [← hall]
    exact List.mem_append_right _ hin
  simp at hsends

/-- A loop that does not keep up raises or comes to a heartbeat. -/
lemma finish_not_endsWell (hsound : s.Sound) (hrunning : s.channel.terminal = false)
    (hstatus : isTerminal status = true) (h : ¬s.KeepsUp status publicError) :
    ¬EndsWell x maxEvents maxBytes maxSubscribers
      { s with channel := (s.channel.finish status publicError).2 } := by
  obtain ⟨hopen, -, hquiet⟩ := hsound.running hrunning
  have hsteady : Steady (s.channel.finish status publicError).2 :=
    (called s.channel (.finish status publicError)).steady hsound.steady
  unfold Stream.KeepsUp at h
  cases hphase : s.phase with
  | idle =>
    rw [hphase] at h
    obtain ⟨m, hsnapshot⟩ := hsteady.drafted.snapshot
    obtain ⟨es, t, hrun, hraised⟩ := @run_raises x maxEvents maxBytes maxSubscribers
      { s with channel := (s.channel.finish status publicError).2 } _ _ rfl
      hsteady.subscribable hphase hsnapshot
      (fun hwritable => h ((tellable_iff hrunning hstatus hsnapshot).mp hwritable))
    rw [hphase] at hrun
    exact not_endsWell_of_raised hrun hraised
  | ended => exact absurd hphase hopen
  | raised =>
    exact not_endsWell_of_raised (.nil _) rfl
  | reading q =>
    rw [hphase] at h
    rw [← hphase]
    exact finish_missed hsound hrunning hstatus (show s.phase = .resume q [] from hphase) (by simp)
      fun hboth => h hboth.2
  | sending q m rest =>
    rw [hphase] at h
    rw [← hphase]
    exact finish_missed hsound hrunning hstatus (show s.phase = .resume q (m :: rest) from hphase)
      (fun m' hm' => (hquiet q m rest hphase m' hm').type) h

end Finishing

/-- The ends that the loop keeps up with. -/
def KeptUp (s : Stream) : StreamAction → Prop
  | .operation (.call (.finish status publicError)) =>
    s.channel.terminal = false → isTerminal status = true → s.KeepsUp status publicError
  | _ => True

/-- The first snapshot of a new channel can be encoded. -/
lemma snapshot_new {m : ExecutionEvent}
    (hnew : Channel.new x maxEvents maxBytes maxSubscribers = .ok c) (hm : c.snapshot = .ok m) :
    m.Writable := by
  obtain ⟨_, -, hnew⟩ := except_bind_ok.mp hnew
  obtain rfl := except_pure_ok.mp hnew
  obtain ⟨s, hs, rfl⟩ := except_map_ok.mp hm
  obtain ⟨draft, -, rfl⟩ := except_map_ok.mp hs
  have hzero : ∀ k ∈ [0, 0, 0, 0], (Nat.toDigits 10 k).length ≤ maxStrDigits := by decide
  refine snapshot_writable.mpr ⟨hzero, fun t ht => ?_⟩
  obtain ⟨reason, -, rfl⟩ := Option.map_eq_some_iff.mp (Option.mem_toList.mp ht)
  exact Text.encodable_ofString reason

/-- A stream ends well exactly when the loop keeps up with the end of the channel. A loop that has
not subscribed yet needs a snapshot that can be encoded. For one that has subscribed, what it still
has to send can be encoded, the event of the end can be encoded and fits, and it evicts no event
that the loop still has to read. -/
theorem stream_ends_iff :
    (∀ s status publicError, (streaming x maxEvents maxBytes maxSubscribers).Reachable s →
      s.channel.terminal = false → isTerminal status = true →
        (EndsWell x maxEvents maxBytes maxSubscribers
            { s with channel := (s.channel.call (.finish status publicError)).2 } ↔
          s.KeepsUp status publicError)) ∧
    ∀ s, ((streaming x maxEvents maxBytes maxSubscribers).restrict KeptUp).Reachable s →
      s.channel.terminal = true → EndsWell x maxEvents maxBytes maxSubscribers s := by
  constructor
  · intro s status publicError hreachable hrunning hstatus
    have hsound := stream_sound hreachable
    constructor
    · intro hends
      by_contra hmissed
      exact finish_not_endsWell hsound hrunning hstatus hmissed hends
    · intro hkeeps
      have hfinished : (streaming x maxEvents maxBytes maxSubscribers).step s
          (.operation (.call (.finish status publicError)))
          { s with channel := (s.channel.call (.finish status publicError)).2 } := .operation
      exact (finish_closes hsound hrunning hstatus hkeeps).endsWell (hsound.step hfinished)
        (finish_terminal hrunning hstatus)
  · intro s hreachable hterminal
    have hboth : s.Sound ∧ (s.channel.terminal = true → Closes s) := by
      refine hreachable.invariant (I := fun s => s.Sound ∧ (s.channel.terminal = true → Closes s))
        ?_ ?_
      · rintro s hinit
        have hsound := stream_sound (.of_init hinit)
        refine ⟨hsound, ?_⟩
        intro hended
        obtain ⟨c, phase, frames⟩ := s
        obtain ⟨hnew, rfl, rfl⟩ := hinit
        exact closes_idle hsound.steady hended fun m hm => snapshot_new hnew hm
      · rintro s a s' ⟨hsound, hcloses⟩ ⟨hkept, hstep⟩
        refine ⟨hsound.step hstep, ?_⟩
        intro hended
        by_cases hbefore : s.channel.terminal = true
        · exact (hcloses hbefore).step hsound hbefore hstep
        · rw [Bool.not_eq_true] at hbefore
          obtain ⟨status, publicError, rfl, hstatus, rfl⟩ := step_ends hbefore hended hstep
          exact finish_closes hsound hbefore hstatus (hkept hbefore hstatus)
    exact (hboth.2 hterminal).endsWell hboth.1 hterminal

/-- A stream before its first step. -/
def Stream.start (c : Channel) : Stream := ⟨c, .idle, []⟩

lemma exec_streaming {actions : List StreamAction}
    (hnew : Channel.new x maxEvents maxBytes maxSubscribers = .ok c)
    (h : System.exec Stream.next (fun _ _ => true) (Stream.start c) actions = some s) :
    (streaming x maxEvents maxBytes maxSubscribers).Reachable s :=
  ⟨_, _, ⟨hnew, rfl, rfl⟩, System.exec_run (fun _ _ _ _ hnext => Stream.next_step hnext) h⟩

instance (status : ExecutionStatus) (publicError : Option PublicError) (q : Nat) :
    Decidable (c.KeepsUp status publicError q) :=
  inferInstanceAs (Decidable (_ ∧ _))

/-- A loop that has read nothing before a channel of few events ends. -/
theorem stream_ends_iff_kept :
    ∃ s : Stream, s.channel.terminal = false ∧ s.phase = .reading 0 ∧
      EndsWell newChannel.execution 64 4096 8
        { s with channel := (s.channel.call (.finish .succeeded none)).2 } := by
  have hexec : (System.exec Stream.next (fun _ _ => true) (Stream.start newChannel)
      [.subscribe, .operation (.call (.setStatus .running none))]).any (fun s =>
        s.channel.terminal = false ∧ s.phase = .reading 0 ∧
          s.channel.KeepsUp .succeeded none 0) = true := by decide +kernel
  obtain ⟨s, hs, hstate⟩ := (Option.any_eq_true _ _).mp hexec
  obtain ⟨hrunning, hphase, hkeeps⟩ := of_decide_eq_true hstate
  have hnew : Channel.new newChannel.execution 64 4096 8 = .ok newChannel := rfl
  have hiff := stream_ends_iff.1 s .succeeded none (exec_streaming hnew hs) hrunning rfl
  refine ⟨s, hrunning, hphase, hiff.mpr ?_⟩
  rw [Stream.KeepsUp, hphase]
  exact hkeeps

/-- A channel with room for two events. -/
def smallChannel : Channel := { newChannel with maxEvents := 2 }

/-- A slow reader gets the end in a snapshot, and then heartbeats. -/
theorem stream_heartbeats :
    ∃ s first m, (streaming smallChannel.execution 2 4096 8).Reachable s ∧
      s.channel.terminal = true ∧ s.phase = .reading 4 ∧
      s.frames = [.event first, .event m, .heartbeat, .heartbeat] ∧ Final m := by
  have hexec : (System.exec Stream.next (fun _ _ => true) (Stream.start smallChannel)
      [.subscribe, .operation (.call (.setStatus .running none)),
        .operation (.call (.setTaskProgress 0 2)), .operation (.call (.setTaskProgress 1 2)),
        .operation (.call (.finish .succeeded none)), .read, .send, .read, .read]).any (fun s =>
        s.channel.terminal = true ∧ s.phase = .reading 4 ∧
          s.frames = [
            .event (newChannel.execution.event 0 0 (.snapshot (newChannel.state none))),
            .event (newChannel.execution.event 4 0 (.snapshot { newChannel.state none with
              status := .succeeded, completedTasks := 1, totalTasks := some 2 })),
            .heartbeat, .heartbeat]) = true := by
    decide +kernel
  obtain ⟨s, hs, hstate⟩ := (Option.any_eq_true _ _).mp hexec
  obtain ⟨hterminal, hphase, hframes⟩ := of_decide_eq_true hstate
  have hnew : Channel.new smallChannel.execution 2 4096 8 = .ok smallChannel := rfl
  exact ⟨s, _, _, exec_streaming hnew hs, hterminal, hphase, hframes, .succeeded, rfl, rfl⟩

end Runs

end ChatBI.Events
