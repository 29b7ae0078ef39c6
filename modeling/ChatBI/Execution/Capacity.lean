import ChatBI.Events.Publishing
import ChatBI.Execution.Pool
import ChatBI.Lib.Holding
import Mathlib.Data.Multiset.Bind
import Mathlib.Algebra.BigOperators.Group.Finset.Basic

/-!
# The accounts of the execution capacity

Between any two steps the counts of the capacity, the histories, the analysis runs and the registries
are what the reservations hold of them. A failing `reserve` leaves the accounts as it found them.
-/

namespace ChatBI.Execution.Capacity

open ChatBI.Lib ChatBI.Store ChatBI.Events

variable {ω : Type}

section Invariant

/-- The numbers of a channel can be written. -/
def Short (c : Channel) : Prop :=
  (Nat.toDigits 10 c.sequence).length ≤ maxStrDigits ∧
    (Nat.toDigits 10 c.draftGeneration).length ≤ maxStrDigits

/-- A channel with the default buffer and short identifiers. -/
def Roomy (c : Channel) : Prop := 1024 * 1024 ≤ c.maxBytes ∧ c.idBytes ≤ 900000

/-- The channel has numbers that cannot be written. -/
def Reservation.Overrun (r : Reservation ω) : Prop := ∃ c ∈ r.channel, ¬Short c

/-- The parts that a reservation may hold where it is. -/
def Reservation.MayHold (r : Reservation ω) (p : Part) : Prop :=
  match r.stage with
  | .history => p = .capacity
  | .analysis => p = .capacity ∨ p = .history
  | .admission => p = .capacity ∨ p = .history ∨ p = .analysis
  | .undoing rest => p ∈ rest ∧ p ≠ .channel
  | .failed => False
  | .issued => True
  | .releasing rest => p ∈ rest ∨ p = .channel ∧ r.Overrun
  | .released => p = .channel ∧ r.Overrun

/-- What is left to give back is the end of the order in which it is given back. -/
def Reservation.InOrder (r : Reservation ω) : Prop :=
  match r.stage with
  | .undoing rest => rest <:+ undoOrder
  | .releasing rest => rest <:+ r.releaseOrder
  | _ => True

/-- A call in an inner step of `reserve`. -/
def Stage.inner : Stage → Bool
  | .history | .analysis | .admission => true
  | _ => false

/-- The capacity lease of a call and its channel. -/
structure Reservation.Steady (r : Reservation ω) : Prop where
  leased : r.held .capacity = r.unreleased
  order : r.InOrder
  roomy : ∀ c ∈ r.channel, Roomy c

structure Reservation.Ok (r : Reservation ω) : Prop where
  allowed : ∀ p, r.held p = true → r.MayHold p
  plain : r.historyId = none → ∀ p, r.held p = true → p = .capacity
  inner : r.stage.inner = true → r.historyId ≠ none
  keyed : r.held .analysis = true → r.analysisKey ≠ none
  bound : r.held .channel = true ∨ r.held .control = true → r.executionId ≠ none
  attached : r.executionId ≠ none → r.historyId ≠ none
  steady : r.Steady

/-- The entries of a registry are those of reservations that hold the part. -/
def Entered (rows : Reservations ω) (p : Part) (registry : Uuid → Option ℕ) : Prop :=
  ∀ x id, registry x = some id → ∃ r ∈ rows, r.id = id ∧ r.held p = true ∧ r.executionId = some x

variable {r u : Reservation ω} {p : Part}

lemma Reservation.Ok.held_eq_false (h : r.Ok) (hp : ¬r.MayHold p) : r.held p = false := by
  cases hheld : r.held p with
  | false => rfl
  | true => exact absurd (h.allowed p hheld) hp

lemma Entered.set {rows : Reservations ω} {registry : Uuid → Option ℕ}
    (h : Entered rows p registry) (hr : r ∈ rows) (hid : u.id = r.id)
    (hkept : r.held p = true → u.held p = true ∧ u.executionId = r.executionId) :
    Entered (rows.set u) p registry := by
  intro x id hx
  obtain ⟨a, ha, haid, hheld, hexec⟩ := h x id hx
  by_cases hsame : a.id = u.id
  · obtain rfl := Table.eq_of_key ha hr (hsame.trans hid)
    obtain ⟨hheld', hexec'⟩ := hkept hheld
    exact ⟨u, (Table.mem_set hr hid).mpr (.inl rfl), hid.trans haid, hheld', hexec'.trans hexec⟩
  · exact ⟨a, (Table.mem_set hr hid).mpr (.inr ⟨ha, hsame⟩), haid, hheld, hexec⟩

/-- A reservation that holds a part is registered under its execution. -/
lemma Entered.register {rows : Reservations ω} {registry : Uuid → Option ℕ} {x : Uuid}
    (h : Entered rows p registry) (hr : r ∈ rows) (hid : u.id = r.id) (hheld : u.held p = true)
    (hexec : u.executionId = some x) (hkept : r.held p = true → u.executionId = r.executionId) :
    Entered (rows.set u) p (Function.update registry x (some r.id)) := by
  intro y id hy
  by_cases hsame : y = x
  · subst hsame
    rw [Function.update_self] at hy
    cases hy
    exact ⟨u, (Table.mem_set hr hid).mpr (.inl rfl), hid, hheld, hexec⟩
  · rw [Function.update_of_ne hsame] at hy
    exact h.set hr hid (fun hp => ⟨hheld, hkept hp⟩) y id hy

lemma Reservation.held_take (r : Reservation ω) {p q : Part} (h : q ≠ p) :
    (r.take p).held q = r.held q := Function.update_of_ne h _ _

lemma Reservation.held_take_self (r : Reservation ω) (p : Part) : (r.take p).held p = true :=
  Function.update_self _ _ _

lemma Reservation.held_drop (r : Reservation ω) {p q : Part} (h : q ≠ p) :
    (r.drop p).held q = r.held q := Function.update_of_ne h _ _

lemma Reservation.held_drop_self (r : Reservation ω) (p : Part) : (r.drop p).held p = false :=
  Function.update_self _ _ _

lemma Reservation.of_held_drop {q : Part} (h : (r.drop p).held q = true) :
    q ≠ p ∧ r.held q = true := by
  by_cases hsame : q = p
  · subst hsame
    rw [r.held_drop_self] at h
    cases h
  · rw [r.held_drop hsame] at h
    exact ⟨hsame, h⟩

lemma Reservation.of_held_take {q : Part} (h : (r.take p).held q = true) :
    q = p ∨ r.held q = true := by
  by_cases hsame : q = p
  · exact .inl hsame
  · rw [r.held_take hsame] at h
    exact .inr h

/-- A call that moves on with its capacity and its channel. -/
lemma Reservation.Steady.move (h : r.Steady) (hheld : u.held .capacity = r.held .capacity)
    (hunreleased : u.unreleased = r.unreleased) (horder : u.InOrder)
    (hchannel : u.channel = r.channel) : u.Steady :=
  ⟨by rw [hheld, h.leased, hunreleased], horder, hchannel ▸ h.roomy⟩

lemma Stage.unreleased_of_inner (h : r.stage.inner = true) : r.unreleased = true := by
  unfold Reservation.unreleased
  revert h
  cases r.stage <;> simp [Stage.inner]

lemma Reservation.unreleased_eq {rest : List Part}
    (hstage : r.stage = .undoing rest ∨ r.stage = .releasing rest) :
    r.unreleased = decide (.capacity ∈ rest) := by
  unfold Reservation.unreleased
  rcases hstage with hstage | hstage <;> rw [hstage]

lemma Reservation.suffix_releaseOrder (r : Reservation ω) :
    ∃ before, r.releaseOrder = before ++ [.capacity] := by
  unfold Reservation.releaseOrder
  split
  · exact ⟨[], rfl⟩
  · exact ⟨[.channel, .control, .analysis, .history], rfl⟩

/-- The capacity is given back last, so nothing is left behind it. -/
lemma Reservation.Steady.rest_eq_nil (h : r.Steady) (hreleased : r.unreleased = false)
    {rest : List Part} (hstage : r.stage = .undoing rest ∨ r.stage = .releasing rest) :
    rest = [] := by
  have hlast : ∀ before, rest <:+ before ++ [.capacity] → .capacity ∉ rest → rest = [] := by
    intro before hsuffix hnot
    rcases List.suffix_concat_iff.mp hsuffix with hnil | ⟨init, rfl, -⟩
    · exact hnil
    · exact absurd (List.mem_append_right init (List.mem_singleton_self _)) hnot
  have horder := h.order
  unfold Reservation.InOrder at horder
  rw [Reservation.unreleased_eq hstage] at hreleased
  rcases hstage with hstage | hstage <;> rw [hstage] at horder
  · exact hlast [.analysis, .history] horder (of_decide_eq_false hreleased)
  · obtain ⟨before, hbefore⟩ := r.suffix_releaseOrder
    rw [hbefore] at horder
    exact hlast before horder (of_decide_eq_false hreleased)

lemma Reservation.InOrder.nodup {rest : List Part} (h : r.InOrder)
    (hstage : r.stage = .undoing rest ∨ r.stage = .releasing rest) : rest.Nodup := by
  unfold Reservation.InOrder at h
  rcases hstage with hstage | hstage <;> rw [hstage] at h
  · exact h.sublist.nodup (by decide)
  · refine h.sublist.nodup ?_
    unfold Reservation.releaseOrder
    split <;> decide

/-- The parts that a call in an inner step of `reserve` may hold are given back by its undoing. -/
lemma Reservation.Ok.undo (h : r.Ok) (hinner : r.stage.inner = true) : r.undo.Ok where
  allowed := by
    intro p hp
    have hmay := h.allowed p hp
    change p ∈ [Part.analysis, Part.history, Part.capacity] ∧ p ≠ .channel
    unfold Reservation.MayHold at hmay
    cases hstage : r.stage with
    | history =>
      rw [hstage] at hmay
      simp [show p = .capacity from hmay]
    | analysis =>
      rw [hstage] at hmay
      rcases (show p = .capacity ∨ p = .history from hmay) with rfl | rfl <;> simp
    | admission =>
      rw [hstage] at hmay
      rcases (show p = .capacity ∨ p = .history ∨ p = .analysis from hmay) with rfl | rfl | rfl <;>
        simp
    | undoing | failed | issued | releasing | released =>
      rw [hstage] at hinner
      cases hinner
  plain := h.plain
  inner := fun hundo => nomatch hundo
  keyed := h.keyed
  bound := h.bound
  attached := h.attached
  steady := h.steady.move rfl (Stage.unreleased_of_inner hinner).symm (List.suffix_refl _) rfl

section Channels

variable {c : Channel} {a : ChannelAction} {n : ℕ}

lemma textBytes_uuidText (id : Uuid) :
    JsonDoc.textBytes (String.ofList (Listing.uuidText id)).toList ≤ 864 := by
  have hbytes := textBytes_le (Listing.uuidText id)
  have hsize := size_le_length (Listing.uuidText id)
  rw [Listing.length_uuidText] at hsize
  rw [String.toList_ofList]
  omega

lemma roomy_new {e : Admitted} (h : Channel.new e.execution = .ok c) : Roomy c := by
  obtain ⟨_, -, h⟩ := except_bind_ok.mp h
  obtain rfl := except_pure_ok.mp h
  have hid := textBytes_uuidText e.id
  have hhistory := textBytes_uuidText e.historyId
  have hturn := textBytes_uuidText e.turnId
  refine ⟨Nat.le_refl _, ?_⟩
  change JsonDoc.textBytes (String.ofList (Listing.uuidText e.id)).toList +
    JsonDoc.textBytes (String.ofList (Listing.uuidText e.historyId)).toList +
    JsonDoc.textBytes (String.ofList (Listing.uuidText e.turnId)).toList ≤ 900000
  omega

lemma Roomy.grown {c' : Channel} (h : Roomy c) (hgrown : Grown c c') : Roomy c' := by
  unfold Roomy Channel.idBytes at *
  rw [hgrown.maxBytes, hgrown.execution]
  exact h

lemma Short.of_grown {c' : Channel} (h : Short c') (hgrown : Grown c c') : Short c :=
  ⟨(length_toDigits_mono hgrown.sequence).trans h.1,
    (length_toDigits_mono hgrown.draftGeneration).trans h.2⟩

/-- A channel that cannot be finished has come to numbers that cannot be written. -/
lemma not_short_of_finish (h : Roomy c) (hopen : ¬c.terminal = true) {message : String}
    (hfinish : (c.finish .unconfirmed none).1 = .error message) :
    ¬Short (c.finish .unconfirmed none).2 := by
  have hnot : ¬((Nat.toDigits 10 (c.sequence + 1)).length ≤ maxStrDigits ∧
      (Nat.toDigits 10 c.draftGeneration).length ≤ maxStrDigits) := by
    rintro ⟨hsequence, hgeneration⟩
    have hroom : c.Room (0 + 1) 0 := ⟨Bool.not_eq_true _ ▸ hopen, h.1, h.2, hsequence, hgeneration⟩
    rw [hroom.finish rfl] at hfinish
    cases hfinish
  set ended : Channel := { c with status := .unconfirmed, draft := {}, terminal := true } with hended
  have hwritable : ¬(ended.envelope (ended.sequence + 1) (.terminal .unconfirmed none)).Writable := by
    rintro ⟨hnumbers, -⟩
    apply hnot
    exact ⟨hnumbers _ List.mem_cons_self,
      hnumbers _ (List.mem_cons_of_mem _ (List.mem_cons_self))⟩
  have hlast : (c.finish .unconfirmed none).2 = { ended with sequence := ended.sequence + 1 } := by
    unfold Channel.finish
    rw [if_neg (not_not_intro (show isTerminal .unconfirmed = true from rfl)), if_neg hopen]
    exact append_not_writable hwritable
  rw [hlast]
  exact hnot

end Channels

section Tending

/-- A reservation whose channel has taken calls. -/
def Reservation.Tended (r u : Reservation ω) : Prop :=
  ∃ f : Channel → Channel, (∀ c, Grown c (f c)) ∧ u = { r with channel := r.channel.map f }

namespace Reservation.Tended

lemma refl (r : Reservation ω) : r.Tended r :=
  ⟨fun c => c, Grown.refl, by rw [Option.map_id']⟩

lemma overrun (h : r.Tended u) (hover : r.Overrun) : u.Overrun := by
  obtain ⟨f, hf, rfl⟩ := h
  obtain ⟨c, hc, hshort⟩ := hover
  exact ⟨f c, Option.mem_map_of_mem f hc, fun hnew => hshort (hnew.of_grown (hf c))⟩

lemma roomy (h : r.Tended u) (hroomy : ∀ c ∈ r.channel, Roomy c) : ∀ c ∈ u.channel, Roomy c := by
  obtain ⟨f, hf, rfl⟩ := h
  intro c' hc'
  obtain ⟨c, hc, rfl⟩ := Option.mem_map.mp hc'
  exact (hroomy c hc).grown (hf c)

lemma ok (h : r.Tended u) (hok : r.Ok) : u.Ok := by
  have hover := h.overrun
  have hroomy := h.roomy hok.steady.roomy
  obtain ⟨f, hf, rfl⟩ := h
  refine ⟨?_, hok.plain, hok.inner, hok.keyed, hok.bound, hok.attached,
    hok.steady.leased, hok.steady.order, hroomy⟩
  intro p hp
  have hmay := hok.allowed p hp
  unfold MayHold at hmay ⊢
  revert hmay
  dsimp only
  cases r.stage with
  | releasing rest => exact Or.imp_right (And.imp_right hover)
  | released => exact And.imp_right hover
  | history | analysis | admission | undoing | failed | issued => exact fun h => h

end Reservation.Tended

lemma tended_finishChannel (r : Reservation ω) : r.Tended r.finishChannel.2 := by
  refine ⟨fun c => if c.terminal then c else (c.finish .unconfirmed none).2, fun c => ?_, ?_⟩
  · dsimp only
    split
    · exact .refl c
    · exact (called c (.finish .unconfirmed none)).grown
  · unfold Reservation.finishChannel
    obtain ⟨id, owner, historyId, analysisKey, held, stage, executionId, channel, submitted⟩ := r
    cases channel with
    | none => rfl
    | some c =>
      dsimp only [Option.map_some]
      split <;> rfl

lemma tended_signal (r : Reservation ω) (stopping : Option ExecutionStopReason) :
    r.Tended (r.signal stopping).2 := by
  obtain ⟨id, owner, historyId, analysisKey, held, stage, executionId, channel, submitted⟩ := r
  cases stopping with
  | none => exact .refl _
  | some reason =>
    refine ⟨fun c => (c.setStatus .stopping (some (Text.ofString (stopReasonValue reason)))).2,
      fun c => (called c (.setStatus .stopping _)).grown, ?_⟩
    cases channel with
    | none => rfl
    | some c => rfl

/-- A channel that cannot be finished has overrun its numbers. -/
lemma overrun_finishChannel (hroomy : ∀ c ∈ r.channel, Roomy c) {message : String}
    (h : r.finishChannel.1 = .error message) : r.finishChannel.2.Overrun := by
  unfold Reservation.finishChannel at h ⊢
  cases hchannel : r.channel with
  | none =>
    rw [hchannel] at h
    cases h
  | some c =>
    rw [hchannel] at h
    dsimp only at h ⊢
    split at h
    · cases h
    · next hopen =>
      rw [if_neg hopen]
      exact ⟨_, rfl, not_short_of_finish (hroomy c hchannel) hopen h⟩

end Tending

section Accounts

variable [DecidableEq ω] {s t : Pool ω}

/-- The shared state of a part is what the reservations hold of it. -/
def Accounted (s : Pool ω) : Part → Prop
  | .capacity => s.rows.Counted (fun r => r.held .capacity) s.activeTotal ∧
      (∀ o, s.rows.Counted (fun r => r.held .capacity && decide (r.owner = o)) (s.activeByUser o)) ∧
      s.activeTotal ≤ s.maxTotal ∧ ∀ o, s.activeByUser o ≤ s.maxPerUser
  | .history => s.rows.Occupied Reservation.historyKey s.running
  | .analysis => s.rows.Occupied Reservation.runKey s.analyses
  | .channel => Entered s.rows .channel s.channels
  | .control => Entered s.rows .control s.controls

structure Sound (s : Pool ω) : Prop where
  ok : ∀ r ∈ s.rows, r.Ok
  accounted : ∀ p, Accounted s p
  single : s.doubleRelease = false

/-- Two states share a part. -/
def SameAt (s t : Pool ω) : Part → Prop
  | .capacity => t.activeTotal = s.activeTotal ∧ t.activeByUser = s.activeByUser ∧
      t.maxTotal = s.maxTotal ∧ t.maxPerUser = s.maxPerUser
  | .history => t.running = s.running
  | .analysis => t.analyses = s.analyses
  | .channel => t.channels = s.channels
  | .control => t.controls = s.controls

/-- What a reservation keeps while it moves on. -/
structure Reservation.Follows (r u : Reservation ω) : Prop where
  id : u.id = r.id
  owner : u.owner = r.owner
  historyId : u.historyId = r.historyId
  analysisKey : u.analysisKey = r.analysisKey
  executionId : r.held .channel = true ∨ r.held .control = true → u.executionId = r.executionId

/-- A part that no step touches stays accounted for. -/
lemma Accounted.frame (h : Accounted s p) (hr : r ∈ s.rows) (hrows : t.rows = s.rows.set u)
    (hfollows : r.Follows u) (hheld : u.held p = r.held p) (hsame : SameAt s t p) :
    Accounted t p := by
  have hid := hfollows.id
  cases p with
  | capacity =>
    obtain ⟨htotal, hbyUser, hlimit, huserLimit⟩ := h
    obtain ⟨htotal', hbyUser', hmax, hmaxUser⟩ := hsame
    rw [Accounted, hrows, htotal', hbyUser', hmax, hmaxUser]
    refine ⟨htotal.set hr hid hheld, fun o => (hbyUser o).set hr hid ?_, hlimit, huserLimit⟩
    rw [hheld, hfollows.owner]
  | history =>
    rw [Accounted, hrows, show t.running = s.running from hsame]
    refine Table.Occupied.set h hr hid ?_
    rw [Reservation.historyKey, Reservation.historyKey, hheld, hfollows.historyId]
  | analysis =>
    rw [Accounted, hrows, show t.analyses = s.analyses from hsame]
    refine Table.Occupied.set h hr hid ?_
    rw [Reservation.runKey, Reservation.runKey, hheld, hfollows.analysisKey]
  | channel =>
    rw [Accounted, hrows, show t.channels = s.channels from hsame]
    exact Entered.set h hr hid fun hc => ⟨hheld.trans hc, hfollows.executionId (.inl hc)⟩
  | control =>
    rw [Accounted, hrows, show t.controls = s.controls from hsame]
    exact Entered.set h hr hid fun hc => ⟨hheld.trans hc, hfollows.executionId (.inr hc)⟩

/-- A step that changes one part of one reservation. -/
lemma Sound.change (h : Sound s) (hr : r ∈ s.rows) (hrows : t.rows = s.rows.set u)
    (hsingle : t.doubleRelease = s.doubleRelease) (hu : u.Ok) (hfollows : r.Follows u) (q : Part)
    (hheld : ∀ p, p ≠ q → u.held p = r.held p) (hsame : ∀ p, p ≠ q → SameAt s t p)
    (hpart : Accounted t q) : Sound t where
  ok := by
    intro a ha
    rw [hrows] at ha
    rcases (Table.mem_set hr hfollows.id).mp ha with rfl | ⟨hin, -⟩
    · exact hu
    · exact h.ok a hin
  accounted := by
    intro p
    by_cases hp : p = q
    · exact hp ▸ hpart
    · exact (h.accounted p).frame hr hrows hfollows (hheld p hp) (hsame p hp)
  single := hsingle.trans h.single

/-- A reservation moves on and holds what it held. -/
lemma Sound.put (h : Sound s) (hr : r ∈ s.rows) (hu : u.Ok) (hfollows : r.Follows u)
    (hheld : u.held = r.held) : Sound (s.put u) := by
  have hsame : ∀ p, SameAt s (s.put u) p := by
    intro p
    cases p with
    | capacity => exact ⟨rfl, rfl, rfl, rfl⟩
    | history | analysis | channel | control => rfl
  have hheld' : ∀ p, u.held p = r.held p := fun p => by rw [hheld]
  refine h.change hr rfl rfl hu hfollows .capacity (fun p _ => hheld' p) (fun p _ => hsame p) ?_
  exact (h.accounted .capacity).frame hr rfl hfollows (hheld' _) (hsame _)

lemma Sound.undo (h : Sound s) (hr : r ∈ s.rows) (hinner : r.stage.inner = true) :
    Sound (s.put r.undo) :=
  h.put hr ((h.ok r hr).undo hinner) ⟨rfl, rfl, rfl, rfl, fun _ => rfl⟩ rfl

/-- The counts behind a reservation whose capacity is taken. -/
lemma accounted_taken (h : Sound s) {rows : Reservations ω} (happend : rows.rows = s.rows.rows ++ [u])
    (hheld : u.held .capacity = true) (huser : s.activeByUser u.owner < s.maxPerUser)
    (htotal : s.activeTotal < s.maxTotal) :
    Accounted { s with
      activeByUser := Function.update s.activeByUser u.owner (s.activeByUser u.owner + 1)
      activeTotal := s.activeTotal + 1
      rows } .capacity := by
  obtain ⟨hcount, hbyUser, -, huserLimit⟩ := h.accounted .capacity
  refine ⟨hcount.append_one happend hheld, ?_, htotal, ?_⟩
  · intro o
    by_cases ho : o = u.owner
    · subst ho
      change rows.Counted _ (Function.update s.activeByUser u.owner _ u.owner)
      rw [Function.update_self]
      refine (hbyUser u.owner).append_one happend ?_
      rw [hheld, decide_eq_true rfl]
      rfl
    · change rows.Counted _ (Function.update s.activeByUser u.owner _ o)
      rw [Function.update_of_ne ho]
      refine (hbyUser o).append happend ?_
      rw [decide_eq_false (Ne.symm ho), Bool.and_false]
  · intro o
    change Function.update s.activeByUser u.owner _ o ≤ s.maxPerUser
    by_cases ho : o = u.owner
    · rw [ho, Function.update_self]
      exact huser
    · rw [Function.update_of_ne ho]
      exact huserLimit o

/-- A reservation whose capacity is free. -/
lemma sound_reserveOwner (h : Sound s) (hheld : r.held = fun _ => false)
    (hexec : r.executionId = none) (hchannel : r.channel = none)
    (hstage : r.stage = .issued ∨ r.stage = .history ∧ r.historyId ≠ none)
    (ht : s.reserveOwner r = some t) : Sound t := by
  unfold Pool.reserveOwner at ht
  split_ifs at ht with haccepting huser htotal
  obtain ⟨rows, hrows, rfl⟩ := Option.map_eq_some_iff.mp ht
  obtain ⟨happend, -⟩ := Table.insert?_some hrows
  set u := r.take .capacity with hu
  have hother : ∀ p, p ≠ .capacity → u.held p = false := by
    intro p hp
    rw [r.held_take hp, hheld]
  have honly : ∀ p, u.held p = true → p = .capacity := by
    intro p hp
    by_contra hne
    rw [hother p hne] at hp
    cases hp
  have hself : u.held .capacity = true := r.held_take_self .capacity
  have hentered : ∀ {p : Part} {registry : Uuid → Option ℕ}, Entered s.rows p registry →
      Entered rows p registry := by
    intro p registry hregistry x id hx
    obtain ⟨a, ha, hrest⟩ := hregistry x id hx
    exact ⟨a, (Table.mem_of_rows_append happend).mpr (.inl ha), hrest⟩
  constructor
  · intro a ha
    rcases (Table.mem_of_rows_append happend).mp ha with ha | rfl
    · exact h.ok a ha
    · constructor
      · intro p hp
        unfold Reservation.MayHold
        rcases hstage with hstage | ⟨hstage, -⟩
        · rw [show u.stage = .issued from hstage]
          trivial
        · rw [show u.stage = .history from hstage]
          exact honly p hp
      · exact fun _ => honly
      · intro hinner hnone
        rcases hstage with hstage | ⟨-, hhistory⟩
        · rw [show u.stage = .issued from hstage] at hinner
          cases hinner
        · exact hhistory hnone
      · exact fun hanalysis => absurd (honly _ hanalysis) Part.noConfusion
      · rintro (hchannel | hcontrol)
        · exact absurd (honly _ hchannel) Part.noConfusion
        · exact absurd (honly _ hcontrol) Part.noConfusion
      · exact fun hattached => absurd hexec hattached
      · refine ⟨hself.trans ?_, ?_, ?_⟩
        · rcases hstage with hstage | ⟨hstage, -⟩ <;>
            rw [Reservation.unreleased, show u.stage = _ from hstage]
        · rcases hstage with hstage | ⟨hstage, -⟩ <;>
            rw [Reservation.InOrder, show u.stage = _ from hstage] <;> trivial
        · intro c hc
          rw [show u.channel = none from hchannel] at hc
          cases hc
  · intro p
    cases p with
    | capacity =>
      exact accounted_taken (u := u) h happend hself (not_le.mp huser) (not_le.mp htotal)
    | history =>
      refine Table.Occupied.append (h.accounted .history) happend ?_
      rw [Reservation.historyKey, hother _ Part.noConfusion]
      rfl
    | analysis =>
      refine Table.Occupied.append (h.accounted .analysis) happend ?_
      rw [Reservation.runKey, hother _ Part.noConfusion]
      rfl
    | channel => exact hentered (h.accounted .channel)
    | control => exact hentered (h.accounted .control)
  · exact h.single

omit [DecidableEq ω] in
/-- A change of one part leaves the others. -/
lemma sameAt_put {q : Part} (hsame : ∀ p, p ≠ q → SameAt s t p) :
    ∀ p, p ≠ q → SameAt s (t.put u) p := by
  intro p hp
  have hold := hsame p hp
  cases p <;> exact hold

lemma sound_reserveHistory (h : Sound s) (hr : r ∈ s.rows) (hstage : r.stage = .history)
    (lost closing : Bool) : Sound (s.reserveHistory r lost closing) := by
  have hok := h.ok r hr
  have hinner : r.stage.inner = true := by
    rw [hstage]
    rfl
  have hundo := h.undo hr hinner
  have honly : ∀ p, r.held p = true → p = .capacity := by
    intro p hp
    have hmay := hok.allowed p hp
    rw [Reservation.MayHold, hstage] at hmay
    exact hmay
  unfold Pool.reserveHistory
  split
  · exact hundo
  split
  · -- the flag of the history runtime is no part of the accounts
    refine ⟨hundo.ok, fun p => ?_, hundo.single⟩
    cases p with
    | capacity => exact hundo.accounted .capacity
    | history => exact hundo.accounted .history
    | analysis => exact hundo.accounted .analysis
    | channel => exact hundo.accounted .channel
    | control => exact hundo.accounted .control
  cases hhistory : r.historyId with
  | none => exact hundo
  | some historyId =>
    dsimp only
    split
    · exact hundo
    next hbusy =>
    have hfree : historyId ∉ s.running := fun hin => hbusy (.inr hin)
    set u : Reservation ω := { r.take .history with stage := .analysis } with hu
    have hheld : ∀ p, p ≠ .history → u.held p = r.held p := fun p hp => r.held_take hp
    have hfollows : r.Follows u := ⟨rfl, rfl, rfl, rfl, fun _ => rfl⟩
    have hsteady : u.Steady :=
      hok.steady.move (hheld _ Part.noConfusion) (Stage.unreleased_of_inner hinner).symm trivial rfl
    refine h.change hr rfl rfl ⟨?_, ?_, ?_, ?_, ?_, hok.attached, hsteady⟩ hfollows .history hheld
      (sameAt_put fun p hp => ?_) ?_
    · intro p hp
      rcases Reservation.of_held_take hp with rfl | hp
      · exact .inr rfl
      · exact .inl (honly p hp)
    · exact fun hplain => absurd (hhistory.symm.trans hplain) (Option.some_ne_none _)
    · exact fun _ hplain => absurd (hhistory.symm.trans hplain) (Option.some_ne_none _)
    · intro hanalysis
      cases honly _ ((hheld _ Part.noConfusion).symm.trans hanalysis)
    · rw [hheld _ Part.noConfusion, hheld _ Part.noConfusion]
      exact hok.bound
    · cases p with
      | capacity => exact ⟨rfl, rfl, rfl, rfl⟩
      | history => exact absurd rfl hp
      | analysis | channel | control => rfl
    · refine Table.Occupied.acquire (h.accounted .history) hr hfollows.id hfree ?_ ?_
      · rw [Reservation.historyKey, if_neg]
        exact fun hheld => absurd (honly _ hheld) Part.noConfusion
      · rw [Reservation.historyKey, show u.held .history = true from r.held_take_self .history]
        exact hhistory

lemma sound_reserveAnalysis (h : Sound s) (hr : r ∈ s.rows) (hstage : r.stage = .analysis)
    (unbound closing : Bool) : Sound (s.reserveAnalysis r unbound closing) := by
  have hok := h.ok r hr
  have hinner : r.stage.inner = true := by
    rw [hstage]
    rfl
  have honly : ∀ p, r.held p = true → p = .capacity ∨ p = .history := by
    intro p hp
    have hmay := hok.allowed p hp
    rw [Reservation.MayHold, hstage] at hmay
    exact hmay
  unfold Pool.reserveAnalysis
  cases hkey : r.analysisKey with
  | none =>
    refine h.put hr ⟨?_, hok.plain, fun _ => hok.inner hinner, ?_, hok.bound, hok.attached,
      hok.steady.move rfl (Stage.unreleased_of_inner hinner).symm trivial rfl⟩
      ⟨rfl, rfl, rfl, hkey.symm, fun _ => rfl⟩ rfl
    · exact fun p hp => (honly p hp).imp_right .inl
    · exact fun hanalysis => absurd hkey (hok.keyed hanalysis)
  | some key =>
    dsimp only
    split
    · exact h.undo hr hinner
    next hbusy =>
    have hfree : key ∉ s.analyses := fun hin => hbusy (.inr (.inr hin))
    set u : Reservation ω := { r.take .analysis with stage := .admission } with hu
    have hheld : ∀ p, p ≠ .analysis → u.held p = r.held p := fun p hp => r.held_take hp
    have hfollows : r.Follows u := ⟨rfl, rfl, rfl, rfl, fun _ => rfl⟩
    have hsteady : u.Steady :=
      hok.steady.move (hheld _ Part.noConfusion) (Stage.unreleased_of_inner hinner).symm trivial rfl
    refine h.change hr rfl rfl ⟨?_, ?_, ?_, ?_, ?_, hok.attached, hsteady⟩ hfollows .analysis hheld
      (sameAt_put fun p hp => ?_) ?_
    · intro p hp
      rcases Reservation.of_held_take hp with rfl | hp
      · exact .inr (.inr rfl)
      · exact (honly p hp).imp_right .inl
    · exact fun hplain => absurd hplain (hok.inner hinner)
    · exact fun _ => hok.inner hinner
    · rw [hfollows.analysisKey, hkey]
      exact fun _ => Option.some_ne_none _
    · rw [hheld _ Part.noConfusion, hheld _ Part.noConfusion]
      exact hok.bound
    · cases p with
      | capacity => exact ⟨rfl, rfl, rfl, rfl⟩
      | analysis => exact absurd rfl hp
      | history | channel | control => rfl
    · refine Table.Occupied.acquire (h.accounted .analysis) hr hfollows.id hfree ?_ ?_
      · rw [Reservation.runKey, if_neg]
        intro hheld
        rcases honly _ hheld with hp | hp <;> cases hp
      · rw [Reservation.runKey, show u.held .analysis = true from r.held_take_self .analysis]
        exact hkey

lemma sound_admission (h : Sound s) (hr : r ∈ s.rows) (hstage : r.stage = .admission) :
    Sound (s.put (if s.accepting then { r with stage := .issued } else r.undo)) := by
  have hok := h.ok r hr
  have hinner : r.stage.inner = true := by
    rw [hstage]
    rfl
  split
  · have hissued : Reservation.Ok { r with stage := .issued } :=
      ⟨fun _ _ => trivial, hok.plain, (fun h => nomatch h), hok.keyed, hok.bound, hok.attached,
        hok.steady.move rfl (Stage.unreleased_of_inner hinner).symm trivial rfl⟩
    exact h.put hr hissued ⟨rfl, rfl, rfl, rfl, fun _ => rfl⟩ rfl
  · exact h.undo hr hinner

/-- The parts of a lease that is released are given back by its release. -/
lemma sound_release (h : Sound s) (hr : r ∈ s.rows) (ht : s.release r = some t) : Sound t := by
  have hok := h.ok r hr
  unfold Pool.release at ht
  split at ht
  · next hstage =>
    cases ht
    have hissued : r.unreleased = true := by
      rw [Reservation.unreleased, hstage]
    have hrest : Reservation.unreleased { r with stage := .releasing r.releaseOrder } = true := by
      obtain ⟨before, hbefore⟩ := r.suffix_releaseOrder
      change decide (.capacity ∈ r.releaseOrder) = true
      rw [hbefore]
      exact decide_eq_true (List.mem_append_right _ (List.mem_singleton_self _))
    have hsteady : Reservation.Steady { r with stage := .releasing r.releaseOrder } :=
      hok.steady.move rfl (hrest.trans hissued.symm) (List.suffix_refl _) rfl
    refine h.put hr
      ⟨?_, hok.plain, (fun h => nomatch h), hok.keyed, hok.bound, hok.attached, hsteady⟩
      ⟨rfl, rfl, rfl, rfl, fun _ => rfl⟩ rfl
    intro p hp
    left
    unfold Reservation.releaseOrder
    split
    · next hplain => exact List.mem_singleton.mpr (hok.plain hplain p hp)
    · cases p <;> decide
  · cases ht
    exact h
  · cases ht
    exact h
  · cases ht

/-- The calls on a channel are no part of the accounts. -/
lemma Sound.tend (h : Sound s) (hr : r ∈ s.rows) (htended : r.Tended u) : Sound (s.put u) := by
  have hu := htended.ok (h.ok r hr)
  obtain ⟨f, -, rfl⟩ := htended
  exact h.put hr hu ⟨rfl, rfl, rfl, rfl, fun _ => rfl⟩ rfl

lemma sound_attachProgress (h : Sound s) (hr : r ∈ s.rows) {execution : Admitted}
    (ht : s.attachProgress r execution = some t) : Sound t := by
  have hok := h.ok r hr
  unfold Pool.attachProgress at ht
  split at ht
  · cases ht
  next hhistory =>
  split at ht
  · next hstage =>
    split at ht
    · cases ht
      exact h
    next hfree =>
    rw [not_or, not_not] at hfree
    obtain ⟨-, hunbound⟩ := hfree
    cases hnew : Channel.new execution.execution with
    | error e =>
      rw [hnew] at ht
      cases ht
      exact h
    | ok c =>
    rw [hnew] at ht
    dsimp only at ht
    split at ht
    · cases ht
      exact h
    cases ht
    set u : Reservation ω :=
      { r.take .channel with executionId := some execution.id, channel := some c } with hu
    have hheld : ∀ p, p ≠ .channel → u.held p = r.held p := fun p hp => r.held_take hp
    have hfollows : r.Follows u :=
      ⟨rfl, rfl, rfl, rfl, fun hbound => absurd hunbound (hok.bound hbound)⟩
    have hsteady : u.Steady := by
      refine ⟨(hheld _ Part.noConfusion).trans hok.steady.leased, ?_, ?_⟩
      · rw [Reservation.InOrder, show u.stage = .issued from hstage]
        trivial
      · rintro _ ⟨⟩
        exact roomy_new hnew
    refine h.change hr rfl rfl ⟨?_, ?_, ?_, ?_, ?_, fun _ => hhistory, hsteady⟩ hfollows .channel
      hheld (sameAt_put fun p hp => ?_) ?_
    · intro p hp
      rw [Reservation.MayHold, show u.stage = .issued from hstage]
      trivial
    · exact fun hplain => absurd hplain hhistory
    · exact fun _ => hhistory
    · intro hanalysis
      exact hok.keyed ((hheld _ Part.noConfusion).symm.trans hanalysis)
    · exact fun _ => Option.some_ne_none _
    · cases p with
      | capacity => exact ⟨rfl, rfl, rfl, rfl⟩
      | channel => exact absurd rfl hp
      | history | analysis | control => rfl
    · exact Entered.register (h.accounted .channel) hr hfollows.id (r.held_take_self .channel) rfl
        fun hc => hfollows.executionId (.inl hc)
  · cases ht
    exact h
  · cases ht
    exact h
  · cases ht

lemma sound_bindStopControl (h : Sound s) (hr : r ∈ s.rows) {stopping : Option ExecutionStopReason}
    (ht : s.bindStopControl r stopping = some t) : Sound t := by
  unfold Pool.bindStopControl at ht
  split at ht
  · next hstage =>
    cases hexec : r.executionId with
    | none =>
      rw [hexec] at ht
      cases ht
      exact h
    | some x =>
      rw [hexec] at ht
      dsimp only at ht
      split at ht
      · cases ht
        exact h
      have htended := tended_signal r stopping
      generalize r.signal stopping = signalled at ht htended
      obtain ⟨result, r'⟩ := signalled
      cases result with
      | error e =>
        cases ht
        exact h.tend hr htended
      | ok =>
      cases ht
      have hok : r'.Ok := htended.ok (h.ok r hr)
      obtain ⟨f, -, hr'⟩ := htended
      dsimp only at hr'
      have hstage' : r'.stage = .issued := by
        rw [hr']
        exact hstage
      have hexec' : r'.executionId = some x := by
        rw [hr']
        exact hexec
      have hheld : ∀ p, p ≠ .control → (r'.take .control).held p = r.held p := by
        intro p hp
        rw [r'.held_take hp, hr']
      have hfollows : r.Follows (r'.take .control) := by
        rw [hr']
        exact ⟨rfl, rfl, rfl, rfl, fun _ => rfl⟩
      have hhistory := hok.attached (hexec' ▸ Option.some_ne_none _)
      have hsteady : (r'.take .control).Steady :=
        hok.steady.move (r'.held_take Part.noConfusion) rfl hok.steady.order rfl
      refine h.change hr rfl rfl ⟨?_, ?_, ?_, ?_, ?_, hok.attached, hsteady⟩ hfollows .control hheld
        (sameAt_put fun p hp => ?_) ?_
      · intro p hp
        rw [Reservation.MayHold, show (r'.take .control).stage = .issued from hstage']
        trivial
      · exact fun hplain => absurd hplain hhistory
      · exact fun _ => hhistory
      · intro hanalysis
        exact hok.keyed ((r'.held_take Part.noConfusion).symm.trans hanalysis)
      · exact fun _ => hexec' ▸ Option.some_ne_none _
      · cases p with
        | capacity => exact ⟨rfl, rfl, rfl, rfl⟩
        | control => exact absurd rfl hp
        | history | analysis | channel => rfl
      · exact Entered.register (h.accounted .control) hr hfollows.id (r'.held_take_self .control)
          hexec' fun _ => hexec'.trans hexec.symm
  · cases ht
    exact h
  · cases ht
    exact h
  · cases ht

/-- Giving back the capacity that a reservation holds is never a double release. -/
lemma releaseOwner_eq (h : Sound s) (hr : r ∈ s.rows) (hheld : r.held .capacity = true) :
    s.releaseOwner r.owner = { s with
      activeByUser := Function.update s.activeByUser r.owner (s.activeByUser r.owner - 1)
      activeTotal := s.activeTotal - 1 } := by
  obtain ⟨htotal, hbyUser, -, -⟩ := h.accounted .capacity
  have hpos : 0 < s.activeTotal := by
    rw [htotal]
    exact List.length_pos_of_mem (Table.mem_select.mpr ⟨hr, hheld⟩)
  have hposUser : 0 < s.activeByUser r.owner := by
    rw [hbyUser r.owner]
    apply List.length_pos_of_mem (a := r)
    apply Table.mem_select.mpr ⟨hr, _⟩
    rw [hheld, decide_eq_true rfl]
    rfl
  apply if_neg
  omega

/-- The counts behind a reservation whose capacity is given back. -/
lemma accounted_released (h : Sound s) (hr : r ∈ s.rows) (hheld : r.held .capacity = true)
    (hfollows : r.Follows u) (hgone : u.held .capacity = false) :
    Accounted (Pool.put { s with
      activeByUser := Function.update s.activeByUser r.owner (s.activeByUser r.owner - 1)
      activeTotal := s.activeTotal - 1 } u) .capacity := by
  obtain ⟨htotal, hbyUser, hlimit, huserLimit⟩ := h.accounted .capacity
  refine ⟨htotal.release hr hfollows.id hheld hgone, ?_, (Nat.sub_le _ _).trans hlimit, ?_⟩
  · intro o
    by_cases ho : o = r.owner
    · subst ho
      change (s.rows.set u).Counted _ (Function.update s.activeByUser r.owner _ r.owner)
      rw [Function.update_self]
      refine (hbyUser r.owner).release hr hfollows.id ?_ ?_
      · rw [hheld, decide_eq_true rfl]
        rfl
      · rw [hgone]
        rfl
    · change (s.rows.set u).Counted _ (Function.update s.activeByUser r.owner _ o)
      rw [Function.update_of_ne ho]
      refine (hbyUser o).set hr hfollows.id ?_
      rw [decide_eq_false (show ¬u.owner = o from fun hu => ho (hu.symm.trans hfollows.owner)),
        decide_eq_false (show ¬r.owner = o from fun hr => ho hr.symm), Bool.and_false, Bool.and_false]
  · intro o
    change Function.update s.activeByUser r.owner _ o ≤ s.maxPerUser
    by_cases ho : o = r.owner
    · rw [ho, Function.update_self]
      exact (Nat.sub_le _ _).trans (huserLimit _)
    · rw [Function.update_of_ne ho]
      exact huserLimit o

lemma mem_deregister {registry : Uuid → Option ℕ} {id id' : ℕ} {executionId : Option Uuid}
    {x : Uuid} (h : Pool.deregister registry id executionId x = some id') :
    registry x = some id' ∧ ¬(executionId = some x ∧ id' = id) := by
  unfold Pool.deregister at h
  split at h
  · cases h
  · next hnot =>
    refine ⟨h, ?_⟩
    rintro ⟨hexec, rfl⟩
    exact hnot ⟨hexec, h⟩

omit [DecidableEq ω] in
/-- The entries of a registry without that of a reservation. -/
lemma Entered.drop {registry : Uuid → Option ℕ} (h : Entered s.rows p registry) (hr : r ∈ s.rows)
    (hid : u.id = r.id) (hexec : u.executionId = r.executionId) :
    Entered (s.rows.set u) p (Pool.deregister registry r.id r.executionId) := by
  intro x id hx
  obtain ⟨hx, hnot⟩ := mem_deregister hx
  obtain ⟨a, ha, rfl, hheld, haexec⟩ := h x id hx
  have hne : a.id ≠ u.id := by
    intro hsame
    obtain rfl := Table.eq_of_key ha hr (hsame.trans hid)
    exact hnot ⟨haexec, rfl⟩
  exact ⟨a, (Table.mem_set hr hid).mpr (.inr ⟨ha, hne⟩), rfl, hheld, haexec⟩

/-- The reservation behind a part that is given back: its channel may have been finished, and the
part may be dropped. -/
lemma giveBack_row (s : Pool ω) (r : Reservation ω) (p : Part) :
    ∃ u, (u = r ∨ u = r.finishChannel.2) ∧
      ((s.giveBack r p).2 = u ∨ (s.giveBack r p).2 = u.drop p) := by
  unfold Pool.giveBack
  split
  · exact ⟨r, .inl rfl, .inl rfl⟩
  · cases p with
    | capacity | control => exact ⟨r, .inl rfl, .inr rfl⟩
    | history =>
      dsimp only
      split
      · exact ⟨r, .inl rfl, .inl rfl⟩
      · exact ⟨r, .inl rfl, .inr rfl⟩
    | analysis =>
      dsimp only
      split
      · exact ⟨r, .inl rfl, .inl rfl⟩
      · exact ⟨r, .inl rfl, .inr rfl⟩
    | channel =>
      generalize r.finishChannel = finished
      obtain ⟨result, r'⟩ := finished
      cases result with
      | error e => exact ⟨r', .inr rfl, .inl rfl⟩
      | ok => exact ⟨r', .inr rfl, .inr rfl⟩

lemma giveBack_tended (s : Pool ω) (r : Reservation ω) (p : Part) :
    ∃ u, r.Tended u ∧ ((s.giveBack r p).2 = u ∨ (s.giveBack r p).2 = u.drop p) := by
  obtain ⟨u, rfl | rfl, hgiven⟩ := giveBack_row s r p
  · exact ⟨u, .refl u, hgiven⟩
  · exact ⟨_, tended_finishChannel r, hgiven⟩

/-- What a reservation is otherwise stays when it gives a part back. -/
lemma giveBack_follows (s : Pool ω) (r : Reservation ω) (p : Part) :
    r.Follows (s.giveBack r p).2 ∧ (s.giveBack r p).2.executionId = r.executionId := by
  obtain ⟨u, ⟨f, -, rfl⟩, hgiven | hgiven⟩ := giveBack_tended s r p <;>
    · rw [hgiven]
      exact ⟨⟨rfl, rfl, rfl, rfl, fun _ => rfl⟩, rfl⟩

/-- The channel takes at most the call that finishes it. -/
lemma giveBack_channel (hroomy : ∀ c ∈ r.channel, Roomy c) (p : Part) :
    (r.Overrun → (s.giveBack r p).2.Overrun) ∧ ∀ c ∈ (s.giveBack r p).2.channel, Roomy c := by
  obtain ⟨u, htended, hgiven | hgiven⟩ := giveBack_tended s r p <;>
    · rw [hgiven]
      exact ⟨htended.overrun, htended.roomy hroomy⟩

/-- A part that is given back is not held behind it, except a channel that cannot be finished. -/
lemma giveBack_held (hok : r.Ok) {q : Part} (hq : (s.giveBack r p).2.held q = true) :
    r.held q = true ∧ (q = p → p = .channel ∧ (s.giveBack r p).2.Overrun) := by
  unfold Pool.giveBack at hq ⊢
  by_cases hheld : r.held p = false
  · rw [if_pos hheld] at hq ⊢
    refine ⟨hq, ?_⟩
    rintro rfl
    rw [hheld] at hq
    cases hq
  · rw [if_neg hheld] at hq ⊢
    rw [Bool.not_eq_false] at hheld
    have hdrop : ∀ {u : Reservation ω} {p' : Part}, (u.drop p').held q = true →
        u.held q = true ∧ q ≠ p' := fun h => (Reservation.of_held_drop h).symm
    cases p with
    | capacity =>
      obtain ⟨hold, hne⟩ := hdrop hq
      exact ⟨hold, fun hsame => absurd hsame hne⟩
    | history =>
      cases hhistory : r.historyId with
      | none => cases hok.plain hhistory _ hheld
      | some historyId =>
        rw [hhistory] at hq
        obtain ⟨hold, hne⟩ := hdrop hq
        exact ⟨hold, fun hsame => absurd hsame hne⟩
    | analysis =>
      cases hkey : r.analysisKey with
      | none => exact absurd hkey (hok.keyed hheld)
      | some key =>
        rw [hkey] at hq
        obtain ⟨hold, hne⟩ := hdrop hq
        exact ⟨hold, fun hsame => absurd hsame hne⟩
    | channel =>
      obtain ⟨f, -, hfinished⟩ := tended_finishChannel r
      have hover := fun message => @overrun_finishChannel _ r hok.steady.roomy message
      generalize r.finishChannel = finished at *
      obtain ⟨result, r'⟩ := finished
      cases result with
      | error e =>
        dsimp only at hq hfinished ⊢
        rw [hfinished] at hq
        exact ⟨hq, fun _ => ⟨rfl, hover e rfl⟩⟩
      | ok =>
        obtain ⟨hold, hne⟩ := hdrop hq
        dsimp only at hfinished
        rw [hfinished] at hold
        exact ⟨hold, fun hsame => absurd hsame hne⟩
    | control =>
      obtain ⟨hold, hne⟩ := hdrop hq
      exact ⟨hold, fun hsame => absurd hsame hne⟩

/-- The capacity is given back with its own part. -/
lemma giveBack_capacity (s : Pool ω) (r : Reservation ω) (p : Part) :
    (s.giveBack r p).2.held .capacity = (r.held .capacity && decide (p ≠ .capacity)) := by
  by_cases hp : p = .capacity
  · subst hp
    rw [decide_eq_false (fun h => h rfl), Bool.and_false]
    unfold Pool.giveBack
    split
    · assumption
    · exact r.held_drop_self .capacity
  · rw [decide_eq_true hp, Bool.and_true]
    obtain ⟨u, ⟨f, -, rfl⟩, hgiven | hgiven⟩ := giveBack_tended s r p
    · rw [hgiven]
    · rw [hgiven, Reservation.held_drop _ (Ne.symm hp)]

/-- One part is given back, and the reservation moves on. -/
theorem sound_giveBack (h : Sound s) (hr : r ∈ s.rows) (p : Part) (hu : u.Ok)
    (hheld : u.held = (s.giveBack r p).2.held) (hfollows : r.Follows u)
    (hexec : u.executionId = r.executionId) : Sound ((s.giveBack r p).1.put u) := by
  have hok := h.ok r hr
  unfold Pool.giveBack at hheld ⊢
  by_cases hp : r.held p = false
  · rw [if_pos hp] at hheld ⊢
    exact h.put hr hu hfollows hheld
  rw [if_neg hp] at hheld ⊢
  rw [Bool.not_eq_false] at hp
  cases p with
  | capacity =>
    dsimp only at hheld ⊢
    have hgone : u.held .capacity = false := by
      rw [hheld]
      exact r.held_drop_self .capacity
    have hkept : ∀ p, p ≠ .capacity → u.held p = r.held p := by
      intro p hne
      rw [hheld]
      exact r.held_drop hne
    rw [releaseOwner_eq h hr hp]
    refine h.change hr rfl rfl hu hfollows .capacity hkept (sameAt_put fun p hne => ?_) ?_
    · cases p with
      | capacity => exact absurd rfl hne
      | history | analysis | channel | control => rfl
    · exact accounted_released h hr hp hfollows hgone
  | history =>
    cases hhistory : r.historyId with
    | none => cases hok.plain hhistory _ hp
    | some historyId =>
      rw [hhistory] at hheld
      dsimp only at hheld ⊢
      have hkept : ∀ p, p ≠ .history → u.held p = r.held p := by
        intro p hne
        rw [hheld]
        exact r.held_drop hne
      refine h.change hr rfl rfl hu hfollows .history hkept (sameAt_put fun p hne => ?_) ?_
      · cases p with
        | capacity => exact ⟨rfl, rfl, rfl, rfl⟩
        | history => exact absurd rfl hne
        | analysis | channel | control => rfl
      · refine Table.Occupied.release (h.accounted .history) hr hfollows.id ?_ ?_
        · rw [Reservation.historyKey, hp]
          exact hhistory
        · rw [Reservation.historyKey, hheld, r.held_drop_self]
          rfl
  | analysis =>
    cases hkey : r.analysisKey with
    | none => exact absurd hkey (hok.keyed hp)
    | some key =>
      rw [hkey] at hheld
      dsimp only at hheld ⊢
      have hkept : ∀ p, p ≠ .analysis → u.held p = r.held p := by
        intro p hne
        rw [hheld]
        exact r.held_drop hne
      refine h.change hr rfl rfl hu hfollows .analysis hkept (sameAt_put fun p hne => ?_) ?_
      · cases p with
        | capacity => exact ⟨rfl, rfl, rfl, rfl⟩
        | analysis => exact absurd rfl hne
        | history | channel | control => rfl
      · refine Table.Occupied.release (h.accounted .analysis) hr hfollows.id ?_ ?_
        · rw [Reservation.runKey, hp]
          exact hkey
        · rw [Reservation.runKey, hheld, r.held_drop_self]
          rfl
  | channel =>
    obtain ⟨f, -, hfinished⟩ := tended_finishChannel r
    generalize r.finishChannel = finished at *
    obtain ⟨result, r'⟩ := finished
    dsimp only at hfinished
    subst hfinished
    cases result with
    | error e => exact h.put hr hu hfollows hheld
    | ok =>
      have hkept : ∀ p, p ≠ .channel → u.held p = r.held p := by
        intro p hne
        rw [hheld]
        exact Reservation.held_drop _ hne
      refine h.change hr rfl rfl hu hfollows .channel hkept (sameAt_put fun p hne => ?_) ?_
      · cases p with
        | capacity => exact ⟨rfl, rfl, rfl, rfl⟩
        | channel => exact absurd rfl hne
        | history | analysis | control => rfl
      · exact Entered.drop (h.accounted .channel) hr hfollows.id hexec
  | control =>
    have hkept : ∀ p, p ≠ .control → u.held p = r.held p := by
      intro p hne
      rw [hheld]
      exact r.held_drop hne
    refine h.change hr rfl rfl hu hfollows .control hkept (sameAt_put fun p hne => ?_) ?_
    · cases p with
      | capacity => exact ⟨rfl, rfl, rfl, rfl⟩
      | control => exact absurd rfl hne
      | history | analysis | channel => rfl
    · exact Entered.drop (h.accounted .control) hr hfollows.id hexec

/-- A part that is given back, with the parts that remain. -/
lemma sound_given (h : Sound s) (hr : r ∈ s.rows) {rest : List Part} (stage : Stage)
    (hinner : stage.inner = false) (hbefore : r.unreleased = decide (.capacity ∈ p :: rest))
    (hnodup : (p :: rest).Nodup)
    (hbehind : Reservation.unreleased { (s.giveBack r p).2 with stage } = decide (.capacity ∈ rest))
    (hrest : Reservation.InOrder { (s.giveBack r p).2 with stage })
    (hmay : ∀ q, (s.giveBack r p).2.held q = true →
      Reservation.MayHold { (s.giveBack r p).2 with stage } q) :
    Sound ((s.giveBack r p).1.put { (s.giveBack r p).2 with stage }) := by
  have hok := h.ok r hr
  obtain ⟨hfollows, hexec⟩ := giveBack_follows s r p
  have hheld : ∀ q, (s.giveBack r p).2.held q = true → r.held q = true :=
    fun q hq => (giveBack_held hok hq).1
  have hsteady : Reservation.Steady { (s.giveBack r p).2 with stage } := by
    refine ⟨?_, hrest, (giveBack_channel hok.steady.roomy p).2⟩
    rw [hbehind]
    refine (giveBack_capacity s r p).trans ?_
    rw [hok.steady.leased, hbefore]
    by_cases hp : p = .capacity
    · have hnot : .capacity ∉ rest := hp ▸ (List.nodup_cons.mp hnodup).1
      simp [hp, hnot]
    · simp [hp, Ne.symm hp]
  refine sound_giveBack h hr p ⟨hmay, ?_, ?_, ?_, ?_, ?_, hsteady⟩ rfl
    ⟨hfollows.id, hfollows.owner, hfollows.historyId, hfollows.analysisKey, fun _ => hexec⟩ hexec
  · exact fun hplain q hq => hok.plain (hfollows.historyId.symm.trans hplain) q (hheld q hq)
  · intro hstage
    rw [show stage.inner = true from hstage] at hinner
    cases hinner
  · intro hanalysis hnone
    exact hok.keyed (hheld _ hanalysis) (hfollows.analysisKey.symm.trans hnone)
  · intro hbound hnone
    exact hok.bound (hbound.imp (hheld _) (hheld _)) (hexec.symm.trans hnone)
  · intro hattached hnone
    exact hok.attached (fun hr => hattached (hexec.trans hr)) (hfollows.historyId.symm.trans hnone)

/-- A reservation that has given back its last part. -/
lemma sound_ended (h : Sound s) (hr : r ∈ s.rows) (stage : Stage) (hinner : stage.inner = false)
    (hunreleased : Reservation.unreleased { r with stage } = r.unreleased)
    (hrest : Reservation.InOrder { r with stage })
    (hmay : ∀ q, r.held q = true → Reservation.MayHold { r with stage } q) :
    Sound (s.put { r with stage }) := by
  have hok := h.ok r hr
  refine h.put hr ⟨hmay, hok.plain, ?_, hok.keyed, hok.bound, hok.attached,
    hok.steady.move rfl hunreleased hrest rfl⟩ ⟨rfl, rfl, rfl, rfl, fun _ => rfl⟩ rfl
  intro hstage
  rw [show stage.inner = true from hstage] at hinner
  cases hinner

/-- A call gives its next part back. -/
lemma sound_giveNext (h : Sound s) (hr : r ∈ s.rows) (ht : s.giveNext r = some t) : Sound t := by
  have hok := h.ok r hr
  have horder := hok.steady.order
  have hallowed : ∀ q, r.held q = true → r.MayHold q := hok.allowed
  have hnodup := fun rest => @Reservation.InOrder.nodup _ r rest horder
  have hunreleased := fun rest => @Reservation.unreleased_eq _ r rest
  unfold Reservation.MayHold at hallowed
  unfold Reservation.InOrder at horder
  unfold Pool.giveNext at ht
  split at ht
  · next hstage =>
    cases ht
    rw [hstage] at hallowed
    apply sound_ended h hr .failed rfl (hunreleased [] (.inl hstage)).symm trivial
    exact fun q hq => absurd (hallowed q hq).1 List.not_mem_nil
  · next p rest hstage =>
    cases ht
    rw [hstage] at hallowed horder
    have hrest : rest <:+ Reservation.undoOrder := (List.suffix_cons p rest).trans horder
    apply sound_given h hr (.undoing rest) rfl (hunreleased _ (.inl hstage))
      (hnodup _ (.inl hstage)) rfl hrest
    intro q hq
    obtain ⟨hold, hsame⟩ := giveBack_held hok hq
    obtain ⟨hin, hchannel⟩ := hallowed q hold
    refine ⟨(List.mem_cons.mp hin).resolve_left fun hqp => ?_, hchannel⟩
    exact hchannel (hqp.trans (hsame hqp).1)
  · next hstage =>
    cases ht
    rw [hstage] at hallowed
    apply sound_ended h hr .released rfl (hunreleased [] (.inr hstage)).symm trivial
    exact fun q hq => (hallowed q hq).resolve_left List.not_mem_nil
  · next p rest hstage =>
    cases ht
    rw [hstage] at hallowed horder
    have hhistory := (giveBack_follows s r p).1.historyId
    have hrest : Reservation.InOrder { (s.giveBack r p).2 with stage := .releasing rest } := by
      change rest <:+ if (s.giveBack r p).2.historyId = none then _ else _
      rw [hhistory]
      exact (List.suffix_cons p rest).trans horder
    apply sound_given h hr (.releasing rest) rfl (hunreleased _ (.inr hstage))
      (hnodup _ (.inr hstage)) rfl hrest
    intro q hq
    obtain ⟨hold, hsame⟩ := giveBack_held hok hq
    by_cases hqp : q = p
    · exact .inr ⟨hqp.trans (hsame hqp).1, (hsame hqp).2⟩
    · refine (hallowed q hold).imp (fun hin => (List.mem_cons.mp hin).resolve_left hqp) ?_
      exact fun ⟨hchannel, hover⟩ =>
        ⟨hchannel, (giveBack_channel hok.steady.roomy p).1 hover⟩
  · cases ht

lemma sound_submitted (h : Sound s) (hr : r ∈ s.rows) (submitted : Bool) :
    Sound (s.put { r with submitted }) := by
  have hok := h.ok r hr
  exact h.put hr ⟨hok.allowed, hok.plain, hok.inner, hok.keyed, hok.bound, hok.attached,
    hok.steady.move rfl rfl hok.steady.order rfl⟩ ⟨rfl, rfl, rfl, rfl, fun _ => rfl⟩ rfl

lemma sound_init (hs : capacity.init s) : Sound s := by
  obtain ⟨maxPerUser, maxTotal, rfl⟩ := hs
  have hnone : ∀ p, Entered (.empty : Reservations ω) p fun _ => none :=
    fun p x id hx => nomatch hx
  refine ⟨fun r hr => absurd hr (Table.not_mem_empty r), fun p => ?_, rfl⟩
  cases p with
  | capacity => exact ⟨.empty, fun _ => .empty, Nat.zero_le _, fun _ => Nat.zero_le _⟩
  | history | analysis => exact .empty
  | channel | control => exact hnone _

lemma sound_step {e : Label ω} (h : Sound s) (ht : s.step e = some t) : Sound t := by
  have hrow : ∀ {id : ℕ} {next : Reservation ω → Option (Pool ω)},
      (s.rows.find? id).bind next = some t → ∃ r ∈ s.rows, next r = some t := by
    intro id next hbind
    obtain ⟨r, hfind, hnext⟩ := Option.bind_eq_some_iff.mp hbind
    exact ⟨r, (Table.find?_eq_some_iff.mp hfind).1, hnext⟩
  cases e with
  | reserveOwner id owner =>
    cases ht
    cases hreserve : s.reserveOwner { id, owner, stage := .issued } with
    | none => exact h
    | some u => exact sound_reserveOwner h rfl rfl rfl (.inl rfl) hreserve
  | reserve id owner historyId analysisKey =>
    cases ht
    cases hreserve : s.reserveOwner
        { id, owner, historyId := some historyId, analysisKey, stage := .history } with
    | none => exact h
    | some u =>
      exact sound_reserveOwner h rfl rfl rfl (.inr ⟨rfl, Option.some_ne_none _⟩) hreserve
  | history id lost closing =>
    obtain ⟨r, hr, hnext⟩ := hrow ht
    split at hnext
    · next hstage =>
      cases hnext
      exact sound_reserveHistory h hr hstage lost closing
    · cases hnext
  | analysis id unbound closing =>
    obtain ⟨r, hr, hnext⟩ := hrow ht
    split at hnext
    · next hstage =>
      cases hnext
      exact sound_reserveAnalysis h hr hstage unbound closing
    · cases hnext
  | admission id =>
    obtain ⟨r, hr, hnext⟩ := hrow ht
    split at hnext
    · next hstage =>
      cases hnext
      exact sound_admission h hr hstage
    · cases hnext
  | giveBack id =>
    obtain ⟨r, hr, hnext⟩ := hrow ht
    exact sound_giveNext h hr hnext
  | release id =>
    obtain ⟨r, hr, hnext⟩ := hrow ht
    exact sound_release h hr hnext
  | attachProgress id execution =>
    obtain ⟨r, hr, hnext⟩ := hrow ht
    exact sound_attachProgress h hr hnext
  | bindStopControl id stopping =>
    obtain ⟨r, hr, hnext⟩ := hrow ht
    exact sound_bindStopControl h hr hnext
  | operate id a =>
    obtain ⟨r, hr, hnext⟩ := hrow ht
    obtain ⟨c, hc, rfl⟩ := Option.map_eq_some_iff.mp hnext
    exact h.tend hr ⟨(·.operated a), (grown_operated · a), by rw [hc, Option.map_some]⟩
  | submit id =>
    obtain ⟨r, hr, hnext⟩ := hrow ht
    split at hnext
    · cases hnext
      exact sound_submitted h hr true
    · cases hnext
  | submitFailed id =>
    obtain ⟨r, hr, hnext⟩ := hrow ht
    split at hnext
    · cases hnext
      exact sound_submitted h hr false
    · cases hnext
  | closeAdmission =>
    cases ht
    refine ⟨h.ok, fun p => ?_, h.single⟩
    cases p with
    | capacity => exact h.accounted .capacity
    | history => exact h.accounted .history
    | analysis => exact h.accounted .analysis
    | channel => exact h.accounted .channel
    | control => exact h.accounted .control

theorem sound_reachable (h : (capacity (ω := ω)).Reachable s) : Sound s :=
  h.invariant (fun _ => sound_init) fun _ _ _ hs ht => sound_step hs ht

/-- The accounts that hold between any two steps. -/
structure Balanced (s : Pool ω) : Prop where
  leases : s.activeTotal = (s.rows.select Reservation.unreleased).length
  owners : ∃ owners : Finset ω, (∀ o, o ∈ owners ↔ s.activeByUser o ≠ 0) ∧
    ∑ o ∈ owners, s.activeByUser o = s.activeTotal
  userLimit : ∀ o, s.activeByUser o ≤ s.maxPerUser
  limit : s.activeTotal ≤ s.maxTotal
  running : ∀ h, h ∈ s.running ↔ ∃ r ∈ s.rows, r.historyKey = some h
  analyses : ∀ k, k ∈ s.analyses ↔ ∃ r ∈ s.rows, r.runKey = some k
  failed : ∀ r ∈ s.rows, r.stage = .failed → ∀ p, r.held p = false
  released : ∀ r ∈ s.rows, r.unreleased = false → ∀ p, r.held p = true → p = .channel ∧ r.Overrun
  channels : ∀ r ∈ s.rows, r.unreleased = false → (∀ c ∈ r.channel, Short c) →
    ∀ x, s.channels x ≠ some r.id
  controls : ∀ r ∈ s.rows, r.unreleased = false → ∀ x, s.controls x ≠ some r.id
  single : s.doubleRelease = false

/-- The counts of the users add up to that of the process. -/
lemma Sound.sum_activeByUser (h : Sound s) : ∃ owners : Finset ω,
    (∀ o, o ∈ owners ↔ s.activeByUser o ≠ 0) ∧
      ∑ o ∈ owners, s.activeByUser o = s.activeTotal := by
  obtain ⟨htotal, hbyUser, -, -⟩ := h.accounted .capacity
  set holders := (s.rows.select fun r => r.held .capacity).map Reservation.owner with hholders
  have hcount : ∀ o, s.activeByUser o = holders.count o := by
    intro o
    rw [hbyUser o, hholders, List.count_eq_countP, List.countP_map, List.countP_eq_length_filter]
    unfold Table.select
    rw [List.filter_filter]
    congr 1
    apply List.filter_congr
    intro r _
    rw [Bool.and_comm]
    rfl
  refine ⟨holders.toFinset, fun o => ?_, ?_⟩
  · rw [List.mem_toFinset, hcount, ← List.count_pos_iff]
    omega
  · rw [Finset.sum_congr rfl fun o _ => hcount o, List.sum_toFinset_count_eq_length, hholders,
      List.length_map, htotal]

omit [DecidableEq ω] in
/-- An entry of a registry belongs to a reservation that holds the part. -/
lemma Entered.ne_some {registry : Uuid → Option ℕ} (h : Entered s.rows p registry) (hr : r ∈ s.rows)
    (hfree : r.held p = false) (x : Uuid) : registry x ≠ some r.id := by
  intro hx
  obtain ⟨a, ha, haid, hheld, -⟩ := h x r.id hx
  rw [Table.eq_of_key ha hr haid, hfree] at hheld
  cases hheld

omit [DecidableEq ω] in
/-- What a reservation holds that has given its capacity back. -/
lemma Reservation.Ok.released (h : r.Ok) (hreleased : r.unreleased = false)
    (hp : r.held p = true) : p = .channel ∧ r.Overrun := by
  have hmay := h.allowed p hp
  have hrest := fun rest => @Reservation.Steady.rest_eq_nil _ r h.steady hreleased rest
  cases hstage : r.stage with
  | history | analysis | admission | issued =>
    rw [Reservation.unreleased, hstage] at hreleased
    cases hreleased
  | undoing rest =>
    obtain rfl := hrest rest (.inl hstage)
    rw [Reservation.MayHold, hstage] at hmay
    exact absurd hmay.1 List.not_mem_nil
  | failed =>
    rw [Reservation.MayHold, hstage] at hmay
    exact hmay.elim
  | releasing rest =>
    obtain rfl := hrest rest (.inr hstage)
    rw [Reservation.MayHold, hstage] at hmay
    exact hmay.resolve_left List.not_mem_nil
  | released =>
    rw [Reservation.MayHold, hstage] at hmay
    exact hmay

theorem Sound.balanced (h : Sound s) : Balanced s := by
  obtain ⟨htotal, -, hlimit, huserLimit⟩ := h.accounted .capacity
  have hleases : s.rows.select (fun r => r.held .capacity) = s.rows.select Reservation.unreleased :=
    List.filter_congr fun r hr => (h.ok r hr).steady.leased
  refine ⟨hleases ▸ htotal, h.sum_activeByUser, huserLimit, hlimit,
    fun _ => Table.Occupied.mem_iff (h.accounted .history),
    fun _ => Table.Occupied.mem_iff (h.accounted .analysis), ?_,
    fun r hr hreleased p => (h.ok r hr).released hreleased, ?_, ?_, h.single⟩
  · intro r hr hstage p
    apply (h.ok r hr).held_eq_false
    rw [Reservation.MayHold, hstage]
    exact id
  · intro r hr hreleased hshort x
    refine Entered.ne_some (h.accounted .channel) hr (Bool.eq_false_iff.mpr fun hheld => ?_) x
    obtain ⟨-, c, hc, hlong⟩ := (h.ok r hr).released hreleased hheld
    exact hlong (hshort c hc)
  · intro r hr hreleased x
    refine Entered.ne_some (h.accounted .control) hr (Bool.eq_false_iff.mpr fun hheld => ?_) x
    cases ((h.ok r hr).released hreleased hheld).1

end Accounts

end Invariant

end ChatBI.Execution.Capacity
