import ChatBI.Execution.Capacity

/-!
# Failing reservations and channels that are finished

A call of `reserve` that fails moves its own reservation alone, so that it leaves the accounts as
it found them. The numbers of a channel are bounded by the calls that it takes, so that its release
can finish it.
-/

namespace ChatBI.Execution.Capacity

open ChatBI.Lib ChatBI.Store ChatBI.Events

section Restoring

variable {ω : Type} [DecidableEq ω] {s t : Pool ω} {r u : Reservation ω}

/-- A step of the thread that is inside of this call of `reserve`. -/
def Label.Inside (id : ℕ) : Label ω → Prop
  | .reserve i _ _ _ | .history i _ _ | .analysis i _ _ | .admission i | .giveBack i => i = id
  | _ => False

/-- Only the reservation has moved, and nothing is attached to it. -/
structure Moved (id : ℕ) (s t : Pool ω) : Prop where
  accepting : t.accepting = s.accepting
  channels : t.channels = s.channels
  controls : t.controls = s.controls
  others : ∀ r, r.id ≠ id → (r ∈ t.rows ↔ r ∈ s.rows)
  unattached : ∀ r ∈ t.rows, r.id = id → r.executionId = none

/-- What the other threads find of the runtime, of the history runtime and of the guard. -/
structure Restored (s t : Pool ω) : Prop where
  accepting : t.accepting = s.accepting
  activeTotal : t.activeTotal = s.activeTotal
  activeByUser : t.activeByUser = s.activeByUser
  running : ∀ h, h ∈ t.running ↔ h ∈ s.running
  analyses : ∀ k, k ∈ t.analyses ↔ k ∈ s.analyses
  channels : t.channels = s.channels
  controls : t.controls = s.controls

variable {id : ℕ}

omit [DecidableEq ω] in
lemma Moved.refl (h : ∀ r ∈ s.rows, r.id = id → r.executionId = none) : Moved id s s :=
  ⟨rfl, rfl, rfl, fun _ _ => Iff.rfl, h⟩

omit [DecidableEq ω] in
lemma Moved.trans {u : Pool ω} (h : Moved id s t) (h' : Moved id t u) : Moved id s u :=
  ⟨h'.accepting.trans h.accepting, h'.channels.trans h.channels, h'.controls.trans h.controls,
    fun r hr => (h'.others r hr).trans (h.others r hr), h'.unattached⟩

omit [DecidableEq ω] in
lemma Moved.put (hr : r ∈ s.rows) (hid : u.id = r.id) (hexec : u.executionId = none)
    (hrows : t.rows = s.rows) (haccepting : t.accepting = s.accepting)
    (hchannels : t.channels = s.channels) (hcontrols : t.controls = s.controls) :
    Moved r.id s (t.put u) := by
  have hmem : ∀ a, a ∈ (t.put u).rows ↔ a = u ∨ a ∈ s.rows ∧ a.id ≠ u.id := by
    intro a
    change a ∈ t.rows.set u ↔ _
    rw [hrows]
    exact Table.mem_set hr hid
  refine ⟨haccepting, hchannels, hcontrols, ?_, ?_⟩
  · intro a ha
    rw [hmem]
    constructor
    · rintro (rfl | ⟨hin, -⟩)
      · exact absurd hid ha
      · exact hin
    · exact fun hin => .inr ⟨hin, fun hau => ha (hau.trans hid)⟩
  · intro a ha haid
    rcases (hmem a).mp ha with rfl | ⟨-, hne⟩
    · exact hexec
    · exact absurd (haid.trans hid.symm) hne

/-- The fields that giving a part back leaves alone. -/
lemma giveBack_kept (s : Pool ω) (r : Reservation ω) (p : Part) :
    (s.giveBack r p).1.rows = s.rows ∧ (s.giveBack r p).1.accepting = s.accepting ∧
      (s.giveBack r p).1.valid = s.valid := by
  unfold Pool.giveBack
  split
  · exact ⟨rfl, rfl, rfl⟩
  cases p with
  | capacity =>
    dsimp only [Pool.releaseOwner]
    split <;> exact ⟨rfl, rfl, rfl⟩
  | history | analysis | channel =>
    dsimp only
    split <;> exact ⟨rfl, rfl, rfl⟩
  | control => exact ⟨rfl, rfl, rfl⟩

/-- Giving a part back touches no registry where nothing is attached. -/
lemma moved_giveBack (hr : r ∈ s.rows) (hexec : r.executionId = none) (p : Part) (stage : Stage) :
    Moved r.id s ((s.giveBack r p).1.put { (s.giveBack r p).2 with stage }) := by
  obtain ⟨hfollows, hexec'⟩ := giveBack_follows s r p
  have hregistry : ∀ registry, Pool.deregister registry r.id r.executionId = registry := by
    intro registry
    funext x
    apply if_neg
    rw [hexec]
    exact fun h => nomatch h.1
  have hgiven : (s.giveBack r p).1.channels = s.channels ∧
      (s.giveBack r p).1.controls = s.controls := by
    unfold Pool.giveBack
    split
    · exact ⟨rfl, rfl⟩
    cases p with
    | capacity =>
      dsimp only [Pool.releaseOwner]
      split <;> exact ⟨rfl, rfl⟩
    | history | analysis =>
      dsimp only
      split <;> exact ⟨rfl, rfl⟩
    | channel =>
      dsimp only
      split
      · exact ⟨rfl, rfl⟩
      · exact ⟨hregistry _, rfl⟩
    | control => exact ⟨rfl, hregistry _⟩
  obtain ⟨hrows, haccepting, -⟩ := giveBack_kept s r p
  exact Moved.put hr hfollows.id (hexec'.trans hexec) hrows haccepting hgiven.1 hgiven.2

lemma moved_giveNext (hr : r ∈ s.rows) (hexec : r.executionId = none) (ht : s.giveNext r = some t) :
    Moved r.id s t := by
  unfold Pool.giveNext at ht
  split at ht
  · cases ht
    exact .put hr rfl hexec rfl rfl rfl rfl
  · cases ht
    exact moved_giveBack hr hexec _ _
  · cases ht
    exact .put hr rfl hexec rfl rfl rfl rfl
  · cases ht
    exact moved_giveBack hr hexec _ _
  · cases ht

omit [DecidableEq ω] in
lemma moved_reserveHistory (hr : r ∈ s.rows) (hexec : r.executionId = none) (lost closing : Bool) :
    Moved r.id s (s.reserveHistory r lost closing) := by
  unfold Pool.reserveHistory
  split
  · exact .put hr rfl hexec rfl rfl rfl rfl
  split
  · exact .put hr rfl hexec rfl rfl rfl rfl
  cases r.historyId with
  | none => exact .put hr rfl hexec rfl rfl rfl rfl
  | some historyId =>
    dsimp only
    split
    · exact .put hr rfl hexec rfl rfl rfl rfl
    · exact .put hr rfl hexec rfl rfl rfl rfl

omit [DecidableEq ω] in
lemma moved_reserveAnalysis (hr : r ∈ s.rows) (hexec : r.executionId = none)
    (unbound closing : Bool) : Moved r.id s (s.reserveAnalysis r unbound closing) := by
  unfold Pool.reserveAnalysis
  cases r.analysisKey with
  | none => exact .put hr rfl hexec rfl rfl rfl rfl
  | some key =>
    dsimp only
    split
    · exact .put hr rfl hexec rfl rfl rfl rfl
    · exact .put hr rfl hexec rfl rfl rfl rfl

/-- The capacity is taken for a row of its own. -/
lemma moved_reserveOwner (hexec : r.executionId = none) (ht : s.reserveOwner r = some t) :
    Moved r.id s t := by
  unfold Pool.reserveOwner at ht
  split_ifs at ht
  obtain ⟨rows, hrows, rfl⟩ := Option.map_eq_some_iff.mp ht
  obtain ⟨happend, hfresh⟩ := Table.insert?_some hrows
  refine ⟨rfl, rfl, rfl, ?_, ?_⟩
  · intro a ha
    change a ∈ rows ↔ _
    rw [Table.mem_of_rows_append happend]
    constructor
    · rintro (hin | rfl)
      · exact hin
      · exact absurd rfl ha
    · exact .inl
  · intro a ha haid
    rcases (Table.mem_of_rows_append happend).mp ha with hin | rfl
    · exact absurd haid (hfresh a hin)
    · exact hexec

/-- A step inside of `reserve` moves its own reservation alone. -/
lemma moved_step {e : Label ω} (hin : e.Inside id)
    (hs : ∀ r ∈ s.rows, r.id = id → r.executionId = none) (ht : s.step e = some t) :
    Moved id s t := by
  have hrow : ∀ {next : Reservation ω → Option (Pool ω)},
      (s.rows.find? id).bind next = some t →
        ∃ r ∈ s.rows, r.id = id ∧ r.executionId = none ∧ next r = some t := by
    intro next hbind
    obtain ⟨r, hfind, hnext⟩ := Option.bind_eq_some_iff.mp hbind
    obtain ⟨hr, hid⟩ := Table.find?_eq_some_iff.mp hfind
    exact ⟨r, hr, hid, hs r hr hid, hnext⟩
  cases e with
  | reserve i owner historyId analysisKey =>
    obtain rfl : i = id := hin
    cases ht
    cases hreserve : s.reserveOwner
        { id := i, owner, historyId := some historyId, analysisKey, stage := .history } with
    | none => exact .refl hs
    | some u => exact moved_reserveOwner rfl hreserve
  | history i lost closing =>
    obtain rfl : i = id := hin
    obtain ⟨r, hr, rfl, hexec, hnext⟩ := hrow ht
    split at hnext
    · cases hnext
      exact moved_reserveHistory hr hexec lost closing
    · cases hnext
  | analysis i unbound closing =>
    obtain rfl : i = id := hin
    obtain ⟨r, hr, rfl, hexec, hnext⟩ := hrow ht
    split at hnext
    · cases hnext
      exact moved_reserveAnalysis hr hexec unbound closing
    · cases hnext
  | admission i =>
    obtain rfl : i = id := hin
    obtain ⟨r, hr, rfl, hexec, hnext⟩ := hrow ht
    split at hnext
    · cases hnext
      split
      · exact .put hr rfl hexec rfl rfl rfl rfl
      · exact .put hr rfl hexec rfl rfl rfl rfl
    · cases hnext
  | giveBack i =>
    obtain rfl : i = id := hin
    obtain ⟨r, hr, rfl, hexec, hnext⟩ := hrow ht
    exact moved_giveNext hr hexec hnext
  | reserveOwner | release | attachProgress | bindStopControl | operate | submit | submitFailed
  | closeAdmission => exact hin.elim

lemma moved_run {es : List (Label ω)} (hrun : capacity.Run s es t) (hin : ∀ e ∈ es, e.Inside id)
    (hs : ∀ r ∈ s.rows, r.id = id → r.executionId = none) : Moved id s t := by
  induction hrun with
  | nil => exact .refl hs
  | snoc _ hstep ih =>
    have hmoved := ih (fun e he => hin e (List.mem_append_left _ he))
    have hlast := hin _ (List.mem_append_right _ List.mem_cons_self)
    exact hmoved.trans (moved_step hlast hmoved.unattached hstep)

/-- Two sound states that differ in reservations that hold nothing have the same accounts. -/
lemma Moved.restored (h : Sound s) (h' : Sound t) (hmoved : Moved id s t)
    (hs : ∀ r ∈ s.rows, r.id = id → ∀ p, r.held p = false)
    (ht : ∀ r ∈ t.rows, r.id = id → ∀ p, r.held p = false) : Restored s t := by
  have hholder : ∀ (r : Reservation ω) p, r.held p = true → (r ∈ t.rows ↔ r ∈ s.rows) := by
    intro r p hheld
    by_cases hid : r.id = id
    · constructor
      · intro hr
        rw [ht r hr hid p] at hheld
        cases hheld
      · intro hr
        rw [hs r hr hid p] at hheld
        cases hheld
    · exact hmoved.others r hid
  obtain ⟨htotal, hbyUser, -, -⟩ := h.accounted .capacity
  obtain ⟨htotal', hbyUser', -, -⟩ := h'.accounted .capacity
  refine ⟨hmoved.accepting, ?_, ?_, ?_, ?_, hmoved.channels, hmoved.controls⟩
  · rw [htotal, htotal']
    exact Table.length_select_congr fun r hr => hholder r _ hr
  · funext o
    rw [hbyUser, hbyUser']
    apply Table.length_select_congr
    intro r hr
    rw [Bool.and_eq_true] at hr
    exact hholder r _ hr.1
  · intro k
    rw [Table.Occupied.mem_iff (h.accounted .history),
      Table.Occupied.mem_iff (h'.accounted .history)]
    apply exists_congr
    intro r
    apply and_congr_left
    intro hkey
    unfold Reservation.historyKey at hkey
    split at hkey
    · next hheld => exact hholder r _ hheld
    · cases hkey
  · intro k
    rw [Table.Occupied.mem_iff (h.accounted .analysis),
      Table.Occupied.mem_iff (h'.accounted .analysis)]
    apply exists_congr
    intro r
    apply and_congr_left
    intro hkey
    unfold Reservation.runKey at hkey
    split at hkey
    · next hheld => exact hholder r _ hheld
    · cases hkey

end Restoring

section Counting

/-- The most events that the calls of the worker, of the subscribers and of a new stop control add. -/
def Label.events {ω : Type} : Label ω → ℕ
  | .operate _ a => a.events
  | .bindStopControl _ (some _) => 1
  | _ => 0

/-- The numbers of a channel that has taken some events and, when it has ended, the last one. -/
def Within (n : ℕ) (c : Channel) : Prop :=
  c.sequence ≤ n + c.terminal.toNat ∧ c.draftGeneration ≤ n

variable {ω : Type} {c : Channel} {n m : ℕ} {r : Reservation ω}

lemma Within.mono (h : Within n c) (hle : n ≤ m) : Within m c := by
  unfold Within at *
  omega

lemma within_new {e : Admitted} (h : Channel.new e.execution = .ok c) : Within n c := by
  obtain ⟨_, -, h⟩ := except_bind_ok.mp h
  obtain rfl := except_pure_ok.mp h
  exact ⟨Nat.zero_le _, Nat.zero_le _⟩

lemma Within.operated (h : Within n c) (a : ChannelAction) :
    Within (n + a.events) (c.operated a) := by
  by_cases hterminal : c.terminal = true
  · obtain ⟨k, hk⟩ := operated_of_terminal hterminal a
    rw [hk]
    exact h.mono (Nat.le_add_right _ _)
  · obtain ⟨hsequence, hgeneration⟩ := counted_operated c a
    rw [Bool.not_eq_true] at hterminal
    unfold Within at *
    rw [hterminal, Bool.toNat_false] at h
    omega

/-- The event of the end is the one that an ended channel may have besides. -/
lemma Within.finish (h : Within n c) (hopen : ¬c.terminal = true) :
    Within n (c.finish .unconfirmed none).2 := by
  have happended := appended { c with status := .unconfirmed, draft := {}, terminal := true }
    (.terminal .unconfirmed none)
  have hlast : (c.finish .unconfirmed none).2 =
      ({ c with status := .unconfirmed, draft := {}, terminal := true }.append
        (.terminal .unconfirmed none)).2 := by
    unfold Channel.finish
    rw [if_neg (not_not_intro (show isTerminal .unconfirmed = true from rfl)), if_neg hopen]
    rfl
  have hsequence := happended.sequence_le
  rw [Bool.not_eq_true] at hopen
  unfold Within at *
  rw [hopen, Bool.toNat_false] at h
  rw [hlast, happended.fields]
  refine ⟨hsequence.trans ?_, h.2⟩
  exact Nat.succ_le_succ h.1

lemma Within.finishChannel (h : ∀ c ∈ r.channel, Within n c) :
    ∀ c ∈ r.finishChannel.2.channel, Within n c := by
  unfold Reservation.finishChannel
  cases hchannel : r.channel with
  | none => rwa [hchannel] at h ⊢
  | some c =>
    dsimp only
    split
    · exact h
    · next hopen =>
      rintro _ ⟨⟩
      exact (h c hchannel).finish hopen

lemma Within.signal (h : ∀ c ∈ r.channel, Within n c) (id : ℕ)
    (stopping : Option ExecutionStopReason) : ∀ c ∈ (r.signal stopping).2.channel,
      Within (n + (Label.bindStopControl id stopping : Label ω).events) c := by
  unfold Reservation.signal
  cases stopping with
  | none => exact h
  | some reason =>
    cases hchannel : r.channel with
    | none =>
      intro c hc
      rw [show r.channel = _ from hchannel] at hc
      cases hc
    | some c =>
      rintro _ ⟨⟩
      exact (h c hchannel).operated (.call (.setStatus .stopping _))

/-- The numbers of the channel grow by no more than some events. -/
def Reservation.Grows (k : ℕ) (r u : Reservation ω) : Prop :=
  ∀ n, (∀ c ∈ r.channel, Within n c) → ∀ c ∈ u.channel, Within (n + k) c

lemma Reservation.Grows.kept {k : ℕ} {u : Reservation ω} (h : u.channel = r.channel) :
    r.Grows k u := by
  intro n hr c hc
  rw [h] at hc
  exact (hr c hc).mono (Nat.le_add_right _ _)

variable {s t : Pool ω} {u : Reservation ω} {k : ℕ}

/-- What is left after a step of some events: no row but the old ones, new ones without a channel
and those whose numbers have grown by no more, and the history runtime as valid as before. -/
structure Stepped (k : ℕ) (s t : Pool ω) : Prop where
  valid : t.valid = s.valid
  rows : ∀ a ∈ t.rows, a ∈ s.rows ∨ a.channel = none ∨ ∃ r ∈ s.rows, r.Grows k a

lemma Stepped.refl : Stepped k s s := ⟨rfl, fun _ ha => .inl ha⟩

lemma Stepped.put (hr : r ∈ s.rows) (hid : u.id = r.id) (hrows : t.rows = s.rows)
    (hvalid : t.valid = s.valid) (hu : r.Grows k u) : Stepped k s (t.put u) := by
  refine ⟨hvalid, fun a ha => ?_⟩
  change a ∈ t.rows.set u at ha
  rw [hrows] at ha
  rcases (Table.mem_set hr hid).mp ha with rfl | ⟨ha, -⟩
  · exact .inr (.inr ⟨r, hr, hu⟩)
  · exact .inl ha

/-- The operations that leave the channel of their row alone. -/
lemma Stepped.kept (hr : r ∈ s.rows) (hid : u.id = r.id) (hrows : t.rows = s.rows)
    (hvalid : t.valid = s.valid) (hchannel : u.channel = r.channel) : Stepped k s (t.put u) :=
  .put hr hid hrows hvalid (.kept hchannel)

lemma stepped_reserveHistory (hr : r ∈ s.rows) (closing : Bool) :
    Stepped k s (s.reserveHistory r false closing) := by
  unfold Pool.reserveHistory
  split
  · exact .kept hr rfl rfl rfl rfl
  rw [if_neg Bool.false_ne_true]
  cases r.historyId with
  | none => exact .kept hr rfl rfl rfl rfl
  | some historyId =>
    dsimp only
    split
    · exact .kept hr rfl rfl rfl rfl
    · exact .kept hr rfl rfl rfl rfl

/-- A check that finds the guard connection lost. -/
lemma stepped_lost (hr : r ∈ s.rows) (closing : Bool) :
    Stepped k { s with valid := false } (s.reserveHistory r true closing) := by
  unfold Pool.reserveHistory
  split
  · next hinvalid => exact .kept hr rfl rfl hinvalid rfl
  · rw [if_pos rfl]
    exact .kept hr rfl rfl rfl rfl

lemma stepped_reserveAnalysis (hr : r ∈ s.rows) (unbound closing : Bool) :
    Stepped k s (s.reserveAnalysis r unbound closing) := by
  unfold Pool.reserveAnalysis
  cases r.analysisKey with
  | none => exact .kept hr rfl rfl rfl rfl
  | some key =>
    dsimp only
    split
    · exact .kept hr rfl rfl rfl rfl
    · exact .kept hr rfl rfl rfl rfl

lemma stepped_release (hr : r ∈ s.rows) (ht : s.release r = some t) : Stepped k s t := by
  unfold Pool.release at ht
  split at ht
  · cases ht
    exact .kept hr rfl rfl rfl rfl
  · cases ht
    exact .refl
  · cases ht
    exact .refl
  · cases ht

lemma stepped_attachProgress {execution : Admitted} (hr : r ∈ s.rows)
    (ht : s.attachProgress r execution = some t) : Stepped k s t := by
  unfold Pool.attachProgress at ht
  split at ht
  · cases ht
  split at ht
  · split at ht
    · cases ht
      exact .refl
    split at ht
    · cases ht
      exact .refl
    next hnew =>
    split at ht
    · cases ht
      exact .refl
    · cases ht
      refine .put hr rfl rfl rfl fun n _ => ?_
      rintro _ ⟨⟩
      exact within_new hnew
  · cases ht
    exact .refl
  · cases ht
    exact .refl
  · cases ht

lemma stepped_bindStopControl {stopping : Option ExecutionStopReason} (hr : r ∈ s.rows) (id : ℕ)
    (ht : s.bindStopControl r stopping = some t) :
    Stepped (Label.bindStopControl id stopping : Label ω).events s t := by
  have hsignal : r.Grows (Label.bindStopControl id stopping : Label ω).events
      (r.signal stopping).2 := fun n hown => Within.signal hown id stopping
  obtain ⟨f, -, hsignalled⟩ := tended_signal r stopping
  unfold Pool.bindStopControl at ht
  split at ht
  · split at ht
    · cases ht
      exact .refl
    split at ht
    · cases ht
      exact .refl
    generalize r.signal stopping = signalled at *
    obtain ⟨result, r'⟩ := signalled
    have hid : r'.id = r.id := by
      dsimp only at hsignalled
      rw [hsignalled]
    cases result with
    | error e =>
      cases ht
      exact .put hr hid rfl rfl hsignal
    | ok =>
      cases ht
      exact .put hr hid rfl rfl hsignal
  · cases ht
    exact .refl
  · cases ht
    exact .refl
  · cases ht

/-- The numbers of all channels are bounded. -/
def Numbered (n : ℕ) (s : Pool ω) : Prop := ∀ r ∈ s.rows, ∀ c ∈ r.channel, Within n c

lemma Stepped.numbered (hstep : Stepped k s t) (h : Numbered n s) : Numbered (n + k) t := by
  intro a ha c hc
  rcases hstep.rows a ha with ha | hnone | ⟨r, hr, hgrows⟩
  · exact (h a ha c hc).mono (Nat.le_add_right _ _)
  · rw [hnone] at hc
    cases hc
  · exact hgrows n (h r hr) c hc

variable [DecidableEq ω]

lemma stepped_reserveOwner (hchannel : r.channel = none) :
    Stepped k s ((s.reserveOwner r).getD s) := by
  cases hreserve : s.reserveOwner r with
  | none => exact .refl
  | some t =>
    unfold Pool.reserveOwner at hreserve
    split_ifs at hreserve
    obtain ⟨rows, hrows, rfl⟩ := Option.map_eq_some_iff.mp hreserve
    obtain ⟨happend, -⟩ := Table.insert?_some hrows
    refine ⟨rfl, fun a ha => ?_⟩
    rcases (Table.mem_of_rows_append happend).mp ha with ha | rfl
    · exact .inl ha
    · exact .inr (.inl hchannel)

lemma stepped_giveBack (hr : r ∈ s.rows) (p : Part) (stage : Stage) :
    Stepped k s ((s.giveBack r p).1.put { (s.giveBack r p).2 with stage }) := by
  obtain ⟨hrows, -, hvalid⟩ := giveBack_kept s r p
  refine .put hr (giveBack_follows s r p).1.id hrows hvalid fun n hown => ?_
  obtain ⟨u, hu, hgiven⟩ := giveBack_row s r p
  have hwithin : ∀ c ∈ u.channel, Within n c := by
    rcases hu with rfl | rfl
    · exact hown
    · exact Within.finishChannel hown
  rcases hgiven with hgiven | hgiven <;>
    · rw [hgiven]
      exact fun c hc => (hwithin c hc).mono (Nat.le_add_right _ _)

lemma stepped_giveNext (hr : r ∈ s.rows) (ht : s.giveNext r = some t) : Stepped k s t := by
  unfold Pool.giveNext at ht
  split at ht
  · cases ht
    exact .kept hr rfl rfl rfl rfl
  · cases ht
    exact stepped_giveBack hr _ _
  · cases ht
    exact .kept hr rfl rfl rfl rfl
  · cases ht
    exact stepped_giveBack hr _ _
  · cases ht

/-- Only a check that finds the guard connection lost invalidates the history runtime. -/
lemma stepped_step {e : Label ω} (ht : s.step e = some t) : Stepped e.events s t ∨
    (∃ id closing, e = .history id true closing) ∧ Stepped e.events { s with valid := false } t := by
  have hrow : ∀ {id : ℕ} {next : Reservation ω → Option (Pool ω)},
      (s.rows.find? id).bind next = some t → ∃ r ∈ s.rows, next r = some t := by
    intro id next hbind
    obtain ⟨r, hfind, hnext⟩ := Option.bind_eq_some_iff.mp hbind
    exact ⟨r, (Table.find?_eq_some_iff.mp hfind).1, hnext⟩
  cases e with
  | reserveOwner id owner =>
    cases ht
    exact .inl (stepped_reserveOwner rfl)
  | reserve id owner historyId analysisKey =>
    cases ht
    exact .inl (stepped_reserveOwner rfl)
  | history id lost closing =>
    obtain ⟨r, hr, hnext⟩ := hrow ht
    split at hnext <;> cases hnext
    cases lost with
    | false => exact .inl (stepped_reserveHistory hr closing)
    | true => exact .inr ⟨⟨id, closing, rfl⟩, stepped_lost hr closing⟩
  | analysis id unbound closing =>
    obtain ⟨r, hr, hnext⟩ := hrow ht
    split at hnext <;> cases hnext
    exact .inl (stepped_reserveAnalysis hr unbound closing)
  | admission id =>
    obtain ⟨r, hr, hnext⟩ := hrow ht
    split at hnext <;> cases hnext
    split
    · exact .inl (.kept hr rfl rfl rfl rfl)
    · exact .inl (.kept hr rfl rfl rfl rfl)
  | giveBack id =>
    obtain ⟨r, hr, hnext⟩ := hrow ht
    exact .inl (stepped_giveNext hr hnext)
  | release id =>
    obtain ⟨r, hr, hnext⟩ := hrow ht
    exact .inl (stepped_release hr hnext)
  | attachProgress id execution =>
    obtain ⟨r, hr, hnext⟩ := hrow ht
    exact .inl (stepped_attachProgress hr hnext)
  | bindStopControl id stopping =>
    obtain ⟨r, hr, hnext⟩ := hrow ht
    exact .inl (stepped_bindStopControl hr id hnext)
  | operate id a =>
    obtain ⟨r, hr, hnext⟩ := hrow ht
    obtain ⟨c, hc, rfl⟩ := Option.map_eq_some_iff.mp hnext
    refine .inl (.put hr rfl rfl rfl fun n hown => ?_)
    rintro _ ⟨⟩
    exact (hown c hc).operated a
  | submit id | submitFailed id =>
    obtain ⟨r, hr, hnext⟩ := hrow ht
    split at hnext <;> cases hnext
    exact .inl (.kept hr rfl rfl rfl rfl)
  | closeAdmission =>
    cases ht
    exact .inl ⟨rfl, fun _ ha => .inl ha⟩

lemma valid_run {es : List (Label ω)} (hrun : capacity.Run s es t) :
    t.valid = s.valid ∨ ∃ id closing, .history id true closing ∈ es := by
  induction hrun with
  | nil => exact .inl rfl
  | snoc _ hstep ih =>
    rcases ih with hkept | ⟨id, closing, hin⟩
    · rcases stepped_step hstep with hlast | ⟨⟨id, closing, rfl⟩, -⟩
      · exact .inl (hlast.valid.trans hkept)
      · exact .inr ⟨id, closing, List.mem_append_right _ List.mem_cons_self⟩
    · exact .inr ⟨id, closing, List.mem_append_left _ hin⟩

lemma numbered_run {es : List (Label ω)} (hs : capacity.init s) (hrun : capacity.Run s es t) :
    Numbered (es.map Label.events).sum t := by
  induction hrun with
  | nil =>
    obtain ⟨maxPerUser, maxTotal, rfl⟩ := hs
    exact fun r hr => absurd hr (Table.not_mem_empty r)
  | snoc _ hstep ih =>
    rw [List.map_append, List.sum_append, List.map_singleton, List.sum_singleton]
    rcases stepped_step hstep with hkept | ⟨-, hlost⟩
    · exact hkept.numbered ih
    · exact hlost.numbered ih

/-- A channel of fewer events has numbers that can be written. -/
lemma Within.short (h : Within n c) (hn : n + 1 < 10 ^ maxStrDigits) : Short c := by
  obtain ⟨hsequence, hgeneration⟩ := h
  have hlast := c.terminal.toNat_le
  have hpos : 0 < maxStrDigits := by decide
  unfold Short
  rw [Nat.length_toDigits_le_iff (by decide) hpos, Nat.length_toDigits_le_iff (by decide) hpos]
  constructor <;> omega

end Counting

section Capacity

variable {ω : Type} [DecidableEq ω] {s : Pool ω}

/-- The accounts balance in every reachable state. A released lease has no channel registered as
long as the channels take fewer than `10 ^ 4300` events, and a call of `reserve` that fails without
interruption leaves the accounts as it found them. -/
theorem balanced_reachable (h : (capacity (ω := ω)).Reachable s) : Balanced s ∧
    (∀ s₀ es, capacity.init s₀ → capacity.Run s₀ es s →
      (es.map Label.events).sum + 1 < 10 ^ maxStrDigits →
      ∀ r ∈ s.rows, r.unreleased = false → ∀ x, s.channels x ≠ some r.id) ∧
    ∀ id es t, s.rows.find? id = none → capacity.Run s es t → (∀ e ∈ es, e.Inside id) →
      (∃ r ∈ t.rows, r.id = id ∧ r.stage = .failed) →
      Restored s t ∧ (t.valid = s.valid ∨ ∃ closing, .history id true closing ∈ es) := by
  have hsound := sound_reachable h
  refine ⟨hsound.balanced, ?_, fun id es t hfresh hrun hin hfailed => ⟨?_, ?_⟩⟩
  · intro s₀ es hs₀ hrun hevents r hr hreleased
    apply hsound.balanced.channels r hr hreleased
    exact fun c hc => (numbered_run hs₀ hrun r hr c hc).short hevents
  · have habsent : ∀ r ∈ s.rows, r.id ≠ id := Table.find?_eq_none_iff.mp hfresh
    have hsound' := sound_reachable (h.run hrun)
    have hmoved := moved_run hrun hin fun r hr hid => absurd hid (habsent r hr)
    obtain ⟨f, hf, hfid, hfstage⟩ := hfailed
    refine hmoved.restored hsound hsound' (fun r hr hid => absurd hid (habsent r hr)) ?_
    intro r hr hid
    rw [Table.eq_of_key hr hf (hid.trans hfid.symm)]
    exact hsound'.balanced.failed f hf hfstage
  · refine (valid_run hrun).imp_right ?_
    rintro ⟨i, closing, hlost⟩
    obtain rfl : i = id := hin _ hlost
    exact ⟨closing, hlost⟩

end Capacity

section Runs

/-- A lease of `reserve_owner`, and one whose worker publishes a stage before it is released. -/
def leasing : List (Label ℕ) :=
  [.reserveOwner 1 7, .reserve 3 8 21 (some ("oidc", "subject", 5)), .history 3 false false,
    .analysis 3 false false, .admission 3,
    .attachProgress 3 ⟨31, 21, 41, .accepted, none⟩, .bindStopControl 3 none,
    .submit 3, .operate 3 (.call (.setStage "retrieval")), .release 3,
    .giveBack 3, .giveBack 3, .giveBack 3, .giveBack 3, .giveBack 3, .giveBack 3]

/-- A call of `reserve` that fails in its history, `lost` telling that the guard connection is. -/
def failing (lost : Bool) : List (Label ℕ) :=
  [.reserve 2 7 11 none, .history 2 lost true, .giveBack 2, .giveBack 2, .giveBack 2, .giveBack 2]

def opened : Pool ℕ := { maxPerUser := 2, maxTotal := 2 }

/-- The pool behind a list of labels. -/
def behind (s : Pool ℕ) (es : List (Label ℕ)) : Pool ℕ :=
  (System.exec Pool.step (fun _ _ => true) s es).getD s

def leased : Pool ℕ := behind opened leasing

/-- The runs go through, the lease is given back, and the call fails. -/
lemma behind_leasing :
    (System.exec Pool.step (fun _ _ => true) opened leasing).isSome = true ∧
      leased.activeTotal = 1 ∧ leased.valid = true ∧ leased.rows.find? 2 = none ∧
      (∃ r ∈ leased.rows, r.id = 3 ∧ r.unreleased = false) ∧
      ∀ lost, (System.exec Pool.step (fun _ _ => true) leased (failing lost)).isSome = true ∧
        (∃ r ∈ (behind leased (failing lost)).rows, r.id = 2 ∧ r.stage = .failed) ∧
        (behind leased (failing lost)).valid = !lost := by
  decide +kernel

lemma run_behind {s : Pool ℕ} {es : List (Label ℕ)}
    (h : (System.exec Pool.step (fun _ _ => true) s es).isSome = true) :
    capacity.Run s es (behind s es) := by
  obtain ⟨t, ht⟩ := Option.isSome_iff_exists.mp h
  unfold behind
  rw [ht, Option.getD_some]
  exact System.exec_run (fun _ _ _ _ hstep => hstep) ht

lemma run_leasing : capacity.Run opened leasing leased := run_behind behind_leasing.1

lemma reachable_leased : capacity.Reachable leased := ⟨opened, leasing, ⟨2, 2, rfl⟩, run_leasing⟩

lemma inside_failing (lost : Bool) : ∀ e ∈ failing lost, e.Inside 2 := by
  simp [failing, Label.Inside]

theorem balanced_reachable_closing :
    leased.activeTotal = 1 ∧ (leased.rows.select Reservation.unreleased).length = 1 ∧
      (∀ r ∈ leased.rows, r.unreleased = false → ∀ x, leased.channels x ≠ some r.id) ∧
      (∃ r ∈ leased.rows, r.id = 3 ∧ r.unreleased = false) ∧
      Restored leased (behind leased (failing false)) ∧
      (behind leased (failing false)).valid = true := by
  obtain ⟨-, htotal, -, hfresh, hlease, hfailing⟩ := behind_leasing
  obtain ⟨hbalanced, hreleased, hrestored⟩ := balanced_reachable reachable_leased
  have hevents : (leasing.map Label.events).sum + 1 < 10 ^ maxStrDigits :=
    lt_of_lt_of_le (by decide : (leasing.map Label.events).sum + 1 < 10 ^ 1)
      (Nat.pow_le_pow_right (by decide) (by decide))
  obtain ⟨hexec, hfailed, hvalid⟩ := hfailing false
  have hkept := hrestored 2 (failing false) (behind leased (failing false)) hfresh
    (run_behind hexec) (inside_failing false) hfailed
  exact ⟨htotal, hbalanced.leases.symm.trans htotal,
    hreleased opened leasing ⟨2, 2, rfl⟩ run_leasing hevents, hlease, hkept.1, hvalid⟩

/-- A failed `reserve` that finds the guard connection lost leaves the history runtime invalid. -/
theorem invalid_after_failing : ∃ s t : Pool ℕ, capacity.Reachable s ∧ ∃ id es,
    s.rows.find? id = none ∧ capacity.Run s es t ∧ (∀ e ∈ es, e.Inside id) ∧
      (∃ r ∈ t.rows, r.id = id ∧ r.stage = .failed) ∧ s.valid = true ∧ t.valid = false := by
  obtain ⟨-, -, hvalid, hfresh, -, hfailing⟩ := behind_leasing
  obtain ⟨hexec, hfailed, hinvalid⟩ := hfailing true
  exact ⟨leased, behind leased (failing true), reachable_leased, 2, failing true, hfresh,
    run_behind hexec, inside_failing true, hfailed, hvalid, hinvalid⟩

end Runs

end ChatBI.Execution.Capacity
