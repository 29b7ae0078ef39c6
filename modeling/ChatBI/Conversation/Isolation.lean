import ChatBI.Conversation.Store
import Mathlib.Data.List.Nodup

/-!
# The isolation of leases

A lease is held while its conversation has its token. What others do leaves it so, except that a
conversation whose record has expired is deleted under its lease.
-/

namespace ChatBI.Conversation

open ChatBI.Lib

variable {σ : Type} {idleTtl : Int} {lease : ConversationLease σ} {s : Store σ}
  {entries : Entries σ} {op : Op σ} {ops : List (Op σ)}

/-- The conversation of the lease is as it was when the lease was issued. -/
def Held (lease : ConversationLease σ) (entries : Entries σ) : Prop :=
  entries lease.record.conversationId = some ⟨lease.record, some lease.token⟩

/-- No turn has the token of the lease. -/
def Stale (lease : ConversationLease σ) (entries : Entries σ) : Prop :=
  ∀ stored, entries lease.record.conversationId = some stored →
    stored.inFlightToken ≠ some lease.token

/-- An operation of the subject of the lease on its conversation. -/
def Op.own (lease : ConversationLease σ) : Op σ → Bool
  | .create .. => false
  | .acquire conversationId subjectId .. =>
    strip conversationId = lease.record.conversationId ∧ strip subjectId = lease.record.subjectId
  | .commit used .. | .abort used =>
    used.record.conversationId = lease.record.conversationId ∧
      used.record.subjectId = lease.record.subjectId

/-- A commit or an abort with the lease. -/
def Op.Uses (lease : ConversationLease σ) : Op σ → Prop
  | .create .. | .acquire .. => False
  | .commit used .. | .abort used => used = lease

/-- The operation draws another token than that of the lease. -/
def Op.Draws (lease : ConversationLease σ) : Op σ → Prop
  | .acquire _ _ _ uuid => uuid ≠ lease.token
  | .create .. | .commit .. | .abort _ => True

/-- The operation has nothing of the lease. -/
def Op.Apart (lease : ConversationLease σ) : Op σ → Prop
  | .create .. => True
  | .acquire _ _ _ uuid => uuid ≠ lease.token
  | .commit used .. | .abort used => used.token ≠ lease.token

/-- The operation does not find the record of the lease expired: where it creates a conversation,
or acquires that of the lease for its subject, it reads the clock before the record expires. -/
def Op.Prompt (idleTtl : Int) (lease : ConversationLease σ) : Op σ → Prop
  | .create subjectId _ clock _ =>
    strip subjectId ≠ "" → ∀ now ∈ clock, ¬isExpired idleTtl lease.record now
  | .acquire conversationId subjectId clock _ =>
    strip conversationId = lease.record.conversationId →
      strip subjectId = lease.record.subjectId →
        ∀ now ∈ clock, ¬isExpired idleTtl lease.record now
  | .commit .. | .abort _ => True

section Creating

variable {subjectId : String} {state : Option σ} {clock : Option Int} {uuids : List String}
  {conversationId : String} {stored : StoredConversation σ}

lemma purgeExpired_of_not {now : Int} (h : entries conversationId = some stored)
    (hprompt : ¬isExpired idleTtl stored.record now) :
    purgeExpired idleTtl entries now conversationId = some stored := by
  rw [purgeExpired, h, Option.filter_some, if_pos (decide_eq_true hprompt)]

lemma of_purgeExpired {now : Int}
    (h : purgeExpired idleTtl entries now conversationId = some stored) :
    entries conversationId = some stored := by
  unfold purgeExpired at h
  exact (Option.filter_eq_some_iff.mp h).1

lemma requiredText_blank {name : String} (h : strip subjectId = "") :
    requiredText subjectId name = .error (.value s!"{name} 必须是非空字符串") := by
  rw [requiredText, h]
  rfl

lemma requiredText_of_ne {name : String} (h : strip subjectId ≠ "") :
    requiredText subjectId name = .ok (strip subjectId) := by
  rw [requiredText, require_ok.mpr h]
  rfl

/-- A creation deletes the expired conversations and enters one without a turn. -/
lemma create_cases (idleTtl : Int) (entries : Entries σ) (subjectId : String) (state : Option σ)
    (clock : Option Int) (uuids : List String) {after : Entries σ}
    (h : (create idleTtl entries subjectId state clock uuids).2 = after) :
    after = entries ∧ (strip subjectId = "" ∨ clock = none) ∨
      ∃ now, strip subjectId ≠ "" ∧ clock = some now ∧
        (∀ c stored, after c = some stored →
          purgeExpired idleTtl entries now c = some stored ∨
            stored.inFlightToken = none ∧ stored.record.conversationId = c) ∧
        ∀ c stored, purgeExpired idleTtl entries now c = some stored → after c = some stored := by
  unfold create at h
  by_cases hsubject : strip subjectId = ""
  · rw [requiredText_blank hsubject] at h
    exact .inl ⟨h.symm, .inl hsubject⟩
  rw [requiredText_of_ne hsubject] at h
  cases clock with
  | none => exact .inl ⟨h.symm, .inr rfl⟩
  | some now =>
    refine .inr ⟨now, hsubject, rfl, ?_⟩
    simp only [readNow] at h
    cases hfind : uuids.find? fun c => (purgeExpired idleTtl entries now c).isNone with
    | none =>
      rw [hfind] at h
      dsimp only at h
      rw [← h]
      exact ⟨fun _ _ h => .inl h, fun _ _ h => h⟩
    | some new =>
      have hisNone := List.find?_some hfind
      have hnew : purgeExpired idleTtl entries now new = none :=
        Option.isNone_iff_eq_none.mp hisNone
      rw [hfind] at h
      dsimp only at h
      constructor
      · intro c stored hc
        rw [← h] at hc
        by_cases hsame : c = new
        · subst hsame
          rw [Function.update_self] at hc
          cases hc
          exact .inr ⟨rfl, rfl⟩
        · rw [Function.update_of_ne hsame] at hc
          exact .inl hc
      · intro c stored hc
        rw [← h, Function.update_of_ne, hc]
        rintro rfl
        rw [hnew] at hc
        cases hc

end Creating

section Acquiring

variable {conversationId subjectId : String} {clock : Option Int} {uuid : String}
  {stored : StoredConversation σ} {c : String}

/-- An acquisition does nothing, deletes an expired conversation of its subject or gives its turn
away. -/
lemma acquire_cases (idleTtl : Int) (entries : Entries σ) (conversationId subjectId : String)
    (clock : Option Int) (uuid : String) :
    (acquire idleTtl entries conversationId subjectId clock uuid).2 = entries ∧
        (acquire idleTtl entries conversationId subjectId clock uuid).1.toOption = none ∧
        (∀ now ∈ clock, ∀ stored, entries (strip conversationId) = some stored →
          strip conversationId ≠ "" → strip subjectId ≠ "" →
          stored.record.subjectId = strip subjectId → ¬isExpired idleTtl stored.record now) ∨
      ∃ now stored, clock = some now ∧ entries (strip conversationId) = some stored ∧
        stored.record.subjectId = strip subjectId ∧ strip conversationId ≠ "" ∧
        strip subjectId ≠ "" ∧
        (isExpired idleTtl stored.record now ∧
          (acquire idleTtl entries conversationId subjectId clock uuid).1.toOption = none ∧
          (acquire idleTtl entries conversationId subjectId clock uuid).2 =
            Function.update entries (strip conversationId) none ∨
        ¬isExpired idleTtl stored.record now ∧ stored.inFlightToken = none ∧
          acquire idleTtl entries conversationId subjectId clock uuid =
            (.ok ⟨stored.record, uuid⟩, Function.update entries (strip conversationId)
              (some { stored with inFlightToken := some uuid }))) := by
  unfold acquire
  by_cases hid : strip conversationId = ""
  · rw [if_pos hid]
    exact .inl ⟨rfl, rfl, fun _ _ _ _ hne => absurd hid hne⟩
  rw [if_neg hid]
  by_cases hsubject : strip subjectId = ""
  · rw [requiredText_blank hsubject]
    exact .inl ⟨rfl, rfl, fun _ _ _ _ _ hne => absurd hsubject hne⟩
  rw [requiredText_of_ne hsubject]
  cases clock with
  | none => exact .inl ⟨rfl, rfl, fun _ h => nomatch h⟩
  | some now =>
    simp only [readNow]
    unfold acquireEntry
    cases hentry : entries (strip conversationId) with
    | none => exact .inl ⟨rfl, rfl, fun _ _ _ h => nomatch h⟩
    | some stored =>
      dsimp only
      by_cases hown : stored.record.subjectId = strip subjectId
      · rw [if_neg (not_not.mpr hown)]
        by_cases hexpired : isExpired idleTtl stored.record now
        · rw [if_pos hexpired]
          exact .inr ⟨now, stored, rfl, rfl, hown, hid, hsubject, .inl ⟨hexpired, rfl, rfl⟩⟩
        · rw [if_neg hexpired]
          by_cases hfree : stored.inFlightToken = none
          · rw [if_neg (not_not.mpr hfree)]
            exact .inr ⟨now, stored, rfl, rfl, hown, hid, hsubject, .inr ⟨hexpired, hfree, rfl⟩⟩
          · rw [if_pos hfree]
            refine .inl ⟨rfl, rfl, ?_⟩
            rintro _ ⟨⟩ _ ⟨⟩ - - -
            exact hexpired
      · rw [if_pos hown]
        refine .inl ⟨rfl, rfl, ?_⟩
        rintro _ ⟨⟩ _ ⟨⟩ - - hsame
        exact absurd hsame hown

end Acquiring

section Leasing

variable {used : ConversationLease σ} {state : Option σ} {clock : Option Int} {now : Int}
  {stored : StoredConversation σ} {c : String}

lemma commit_of_held (h : Held lease entries) (state : Option σ) (now : Int) :
    commit entries lease state (some now) =
      (.ok { lease.record with lastSuccessAt := now, structuredQueryState := state },
        Function.update entries lease.record.conversationId (some ⟨{ lease.record with
          lastSuccessAt := now, structuredQueryState := state }, none⟩)) := by
  rw [commit, readNow]
  dsimp only
  rw [entryForLease, h]
  simp

lemma abort_of_held (h : Held lease entries) : abort entries lease =
    Function.update entries lease.record.conversationId (some ⟨lease.record, none⟩) := by
  rw [abort, h]
  simp

/-- The conversation of a lease whose token no turn has is not there or has another turn. -/
lemma entryForLease_of_stale (h : Stale lease entries) :
    entryForLease entries lease = .error .unavailable := by
  unfold entryForLease
  cases hentry : entries lease.record.conversationId with
  | none => rfl
  | some entry => exact if_pos (h entry hentry)

lemma commit_of_stale (h : Stale lease entries) (state : Option σ) (now : Int) :
    commit entries lease state (some now) = (.error .unavailable, entries) := by
  rw [commit, readNow]
  dsimp only
  rw [entryForLease_of_stale h]

/-- A commit with a stale token changes nothing. -/
lemma commit_entries_of_stale (h : Stale lease entries) (state : Option σ) (clock : Option Int) :
    (commit entries lease state clock).2 = entries := by
  cases clock with
  | none => rfl
  | some now => rw [commit_of_stale h]

lemma abort_of_stale (h : Stale lease entries) : abort entries lease = entries := by
  unfold abort
  cases hentry : entries lease.record.conversationId with
  | none => rfl
  | some entry => exact if_neg (h entry hentry)

/-- The entry was there before, or it is that of an ended turn of the same conversation. -/
def Ended (entries : Entries σ) (c : String) (stored : StoredConversation σ) : Prop :=
  entries c = some stored ∨ stored.inFlightToken = none ∧ ∃ old, entries c = some old ∧
    stored.record.conversationId = old.record.conversationId

lemma entryForLease_ok {entry : StoredConversation σ} (h : entryForLease entries used = .ok entry) :
    entries used.record.conversationId = some entry := by
  unfold entryForLease at h
  cases hentry : entries used.record.conversationId with
  | none =>
    rw [hentry] at h
    cases h
  | some found =>
    rw [hentry] at h
    dsimp only at h
    split at h
    · cases h
    · split at h
      · cases h
      · cases h
        rfl

lemma of_commit (h : (commit entries used state clock).2 c = some stored) :
    Ended entries c stored := by
  cases clock with
  | none => exact .inl h
  | some now =>
    rw [commit, readNow] at h
    dsimp only at h
    cases hentry : entryForLease entries used with
    | error e =>
      rw [hentry] at h
      exact .inl h
    | ok entry =>
      rw [hentry] at h
      dsimp only at h
      by_cases hsame : c = used.record.conversationId
      · rw [hsame, Function.update_self] at h
        cases h
        exact .inr ⟨rfl, entry, hsame ▸ entryForLease_ok hentry, rfl⟩
      · rw [Function.update_of_ne hsame] at h
        exact .inl h

lemma of_abort (h : abort entries used c = some stored) : Ended entries c stored := by
  unfold abort at h
  cases hentry : entries used.record.conversationId with
  | none =>
    rw [hentry] at h
    exact .inl h
  | some entry =>
    rw [hentry] at h
    dsimp only at h
    split at h
    · by_cases hsame : c = used.record.conversationId
      · rw [hsame, Function.update_self] at h
        cases h
        exact .inr ⟨rfl, entry, hsame ▸ hentry, rfl⟩
      · rw [Function.update_of_ne hsame] at h
        exact .inl h
    · exact .inl h

/-- A lease is stale where another one is held. -/
lemma stale_of_held (h : Held lease entries) (htoken : used.token ≠ lease.token)
    (hid : used.record.conversationId = lease.record.conversationId) : Stale used entries := by
  intro stored hstored
  rw [hid, h] at hstored
  cases hstored
  exact fun hsame => htoken (Option.some.inj hsame).symm

lemma commit_held (h : Held lease entries) (htoken : used.token ≠ lease.token) :
    Held lease (commit entries used state clock).2 := by
  by_cases hid : used.record.conversationId = lease.record.conversationId
  · rw [commit_entries_of_stale (stale_of_held h htoken hid)]
    exact h
  · cases clock with
    | none => exact h
    | some now =>
      rw [commit, readNow]
      dsimp only
      cases entryForLease entries used with
      | error e => exact h
      | ok entry => exact (Function.update_of_ne (Ne.symm hid) _ _).trans h

lemma abort_held (h : Held lease entries) (htoken : used.token ≠ lease.token) :
    Held lease (abort entries used) := by
  by_cases hid : used.record.conversationId = lease.record.conversationId
  · rw [abort_of_stale (stale_of_held h htoken hid)]
    exact h
  · unfold abort
    cases entries used.record.conversationId with
    | none => exact h
    | some entry =>
      dsimp only
      split
      · exact (Function.update_of_ne (Ne.symm hid) _ _).trans h
      · exact h

end Leasing

section Steps

/-- A lease that is stale stays so. -/
lemma Stale.step (h : Stale lease s.entries) (hdraws : op.Draws lease) :
    Stale lease (step idleTtl s op).entries := by
  have hkept : ∀ stored : StoredConversation σ,
      s.entries lease.record.conversationId = some stored ∨ stored.inFlightToken = none →
        stored.inFlightToken ≠ some lease.token := by
    rintro stored (hold | hnone)
    · exact h stored hold
    · rw [hnone]
      exact Option.some_ne_none _ |>.symm
  intro stored hstored
  cases op with
  | create subjectId state clock uuids =>
    apply hkept
    rcases create_cases idleTtl s.entries subjectId state clock uuids rfl with
      ⟨heq, -⟩ | ⟨now, -, -, hold, -⟩
    · change (create idleTtl s.entries subjectId state clock uuids).2 _ = _ at hstored
      rw [heq] at hstored
      exact .inl hstored
    · exact (hold _ stored hstored).imp of_purgeExpired And.left
  | acquire conversationId subjectId clock uuid =>
    change (acquire idleTtl s.entries conversationId subjectId clock uuid).2 _ = _ at hstored
    rcases acquire_cases idleTtl s.entries conversationId subjectId clock uuid with
      ⟨heq, -⟩ | ⟨now, entry, -, hentry, -, -, -, ⟨-, -, heq⟩ | ⟨-, -, heq⟩⟩
    · rw [heq] at hstored
      exact h stored hstored
    · rw [heq] at hstored
      by_cases hsame : lease.record.conversationId = strip conversationId
      · rw [hsame, Function.update_self] at hstored
        cases hstored
      · rw [Function.update_of_ne hsame] at hstored
        exact h stored hstored
    · rw [heq] at hstored
      dsimp only at hstored
      by_cases hsame : lease.record.conversationId = strip conversationId
      · rw [hsame, Function.update_self] at hstored
        cases hstored
        exact fun htoken => hdraws (Option.some.inj htoken)
      · rw [Function.update_of_ne hsame] at hstored
        exact h stored hstored
  | commit used state clock => exact hkept stored ((of_commit hstored).imp_right And.left)
  | abort used => exact hkept stored ((of_abort hstored).imp_right And.left)

/-- A lease that is held stays so when the operation has nothing of it and does not find its record
expired. -/
lemma Held.step (h : Held lease s.entries) (hapart : op.Apart lease)
    (hprompt : op.Prompt idleTtl lease) : Held lease (step idleTtl s op).entries := by
  cases op with
  | create subjectId state clock uuids =>
    rcases create_cases idleTtl s.entries subjectId state clock uuids rfl with
      ⟨heq, -⟩ | ⟨now, hsubject, rfl, -, hkept⟩
    · change (create idleTtl s.entries subjectId state clock uuids).2 _ = _
      rw [heq]
      exact h
    · exact hkept _ _ (purgeExpired_of_not h (hprompt hsubject now rfl))
  | acquire conversationId subjectId clock uuid =>
    change (acquire idleTtl s.entries conversationId subjectId clock uuid).2 _ = _
    rcases acquire_cases idleTtl s.entries conversationId subjectId clock uuid with
      ⟨heq, -⟩ | ⟨now, entry, rfl, hentry, hsubject, -, -, hcases⟩
    · rw [heq]
      exact h
    · have hother : lease.record.conversationId ≠ strip conversationId := by
        intro hsame
        rw [← hsame, h] at hentry
        cases hentry
        rcases hcases with ⟨hexpired, -⟩ | ⟨-, hfree, -⟩
        · exact hprompt hsame.symm hsubject.symm now rfl hexpired
        · cases hfree
      rcases hcases with ⟨-, -, heq⟩ | ⟨-, -, heq⟩ <;> rw [heq]
      · exact (Function.update_of_ne hother _ _).trans h
      · exact (Function.update_of_ne hother _ _).trans h
  | commit used state clock => exact commit_held h hapart
  | abort used => exact abort_held h hapart

/-- A lease whose record is found expired is lost. -/
lemma Held.late (h : Held lease s.entries) (hid : lease.record.conversationId ≠ "")
    (hsubject : lease.record.subjectId ≠ "") (hlate : ¬op.Prompt idleTtl lease) :
    Stale lease (Conversation.step idleTtl s op).entries := by
  cases op with
  | create subjectId state clock uuids =>
    simp only [Op.Prompt, not_forall, not_not] at hlate
    obtain ⟨hne, now, hclock, hexpired⟩ := hlate
    rcases create_cases idleTtl s.entries subjectId state clock uuids rfl with
      ⟨-, hblank | hnone⟩ | ⟨now', -, rfl, hold, -⟩
    · exact absurd hblank hne
    · rw [hnone] at hclock
      cases hclock
    · cases hclock
      intro stored hstored
      rcases hold _ stored hstored with hpurged | ⟨hnone, -⟩
      · have hentry := of_purgeExpired hpurged
        rw [h] at hentry
        cases hentry
        rw [purgeExpired, h, Option.filter_some, if_neg] at hpurged
        · cases hpurged
        · exact fun hkept => of_decide_eq_true hkept hexpired
      · rw [hnone]
        exact (Option.some_ne_none _).symm
  | acquire conversationId subjectId clock uuid =>
    simp only [Op.Prompt, not_forall, not_not] at hlate
    obtain ⟨hsame, howner, now, hclock, hexpired⟩ := hlate
    rw [Option.mem_def] at hclock
    change Stale lease (acquire idleTtl s.entries conversationId subjectId clock uuid).2
    rcases acquire_cases idleTtl s.entries conversationId subjectId clock uuid with
      ⟨-, -, hnot⟩ | ⟨now', entry, hclock', hentry, -, -, -, hcases⟩
    · have hentry := h
      rw [Held, ← hsame] at hentry
      exact absurd hexpired (hnot now hclock _ hentry (hsame ▸ hid) (howner ▸ hsubject) howner.symm)
    · rw [hclock] at hclock'
      cases hclock'
      rw [hsame, h] at hentry
      cases hentry
      rcases hcases with ⟨-, -, heq⟩ | ⟨hnot, -⟩
      · intro stored hstored
        rw [heq, hsame, Function.update_self] at hstored
        cases hstored
      · exact absurd hexpired hnot
  | commit used state clock => exact absurd trivial hlate
  | abort used => exact absurd trivial hlate

/-- Every conversation is stored under its identifier. -/
def Keyed (entries : Entries σ) : Prop :=
  ∀ c stored, entries c = some stored → stored.record.conversationId = c

lemma Ended.keyed {c : String} {stored : StoredConversation σ} (h : Ended entries c stored)
    (hkeyed : Keyed entries) : stored.record.conversationId = c := by
  rcases h with hold | ⟨-, old, hold, hsame⟩
  · exact hkeyed c stored hold
  · rw [hsame]
    exact hkeyed c old hold

lemma Keyed.step (h : Keyed s.entries) (op : Op σ) :
    Keyed (Conversation.step idleTtl s op).entries := by
  intro c stored hstored
  cases op with
  | create subjectId state clock uuids =>
    rcases create_cases idleTtl s.entries subjectId state clock uuids rfl with
      ⟨heq, -⟩ | ⟨now, -, -, hold, -⟩
    · change (create idleTtl s.entries subjectId state clock uuids).2 c = _ at hstored
      rw [heq] at hstored
      exact h c stored hstored
    · rcases hold c stored hstored with hpurged | ⟨-, hkey⟩
      · exact h c stored (of_purgeExpired hpurged)
      · exact hkey
  | acquire conversationId subjectId clock uuid =>
    change (acquire idleTtl s.entries conversationId subjectId clock uuid).2 c = _ at hstored
    rcases acquire_cases idleTtl s.entries conversationId subjectId clock uuid with
      ⟨heq, -⟩ | ⟨now, entry, -, hentry, -, -, -, ⟨-, -, heq⟩ | ⟨-, -, heq⟩⟩
    · rw [heq] at hstored
      exact h c stored hstored
    · rw [heq] at hstored
      by_cases hsame : c = strip conversationId
      · rw [hsame, Function.update_self] at hstored
        cases hstored
      · rw [Function.update_of_ne hsame] at hstored
        exact h c stored hstored
    · rw [heq] at hstored
      dsimp only at hstored
      by_cases hsame : c = strip conversationId
      · rw [hsame, Function.update_self] at hstored
        cases hstored
        rw [hsame]
        exact h _ entry hentry
      · rw [Function.update_of_ne hsame] at hstored
        exact h c stored hstored
  | commit used state clock => exact (of_commit hstored).keyed h
  | abort used => exact (of_abort hstored).keyed h

end Steps

section Runs

lemma run_keyed (h : Keyed s.entries) (ops : List (Op σ)) : Keyed (run idleTtl s ops).entries := by
  induction ops generalizing s with
  | nil => exact h
  | cons op ops ih => exact ih (h.step op)

lemma Stale.run (h : Stale lease s.entries) (hdraws : ∀ op ∈ ops, op.Draws lease) :
    Stale lease (run idleTtl s ops).entries := by
  induction ops generalizing s with
  | nil => exact h
  | cons op ops ih =>
    obtain ⟨hop, hops⟩ := List.forall_mem_cons.mp hdraws
    exact ih (h.step hop) hops

lemma Op.Apart.draws (h : op.Apart lease) : op.Draws lease := by
  cases op with
  | acquire => exact h
  | create | commit | abort => trivial

/-- A run keeps a lease held when it never finds its record expired. -/
theorem Held.run (h : Held lease s.entries) (hapart : ∀ op ∈ ops, op.Apart lease)
    (hprompt : ∀ op ∈ ops, op.Prompt idleTtl lease) : Held lease (run idleTtl s ops).entries := by
  induction ops generalizing s with
  | nil => exact h
  | cons op ops ih =>
    obtain ⟨hop, hops⟩ := List.forall_mem_cons.mp hapart
    obtain ⟨hop', hops'⟩ := List.forall_mem_cons.mp hprompt
    exact ih (h.step hop hop') hops hops'

/-- A run loses a lease when it finds its record expired once. -/
theorem Held.lost (h : Held lease s.entries) (hid : lease.record.conversationId ≠ "")
    (hsubject : lease.record.subjectId ≠ "") (hapart : ∀ op ∈ ops, op.Apart lease)
    (hlate : ¬∀ op ∈ ops, op.Prompt idleTtl lease) :
    Stale lease (Conversation.run idleTtl s ops).entries := by
  induction ops generalizing s with
  | nil => exact absurd (fun op hop => absurd hop List.not_mem_nil) hlate
  | cons op ops ih =>
    obtain ⟨hop, hops⟩ := List.forall_mem_cons.mp hapart
    by_cases hprompt : op.Prompt idleTtl lease
    · apply ih (h.step hop hprompt) hops
      exact fun hrest => hlate (List.forall_mem_cons.mpr ⟨hprompt, hrest⟩)
    · apply (h.late hid hsubject hprompt).run
      exact fun op' hop' => (hops op' hop').draws

/-- The leases that a step issues have the token that it draws. -/
lemma issued_step (idleTtl : Int) (s : Store σ) (op : Op σ) :
    ∃ new, (step idleTtl s op).issued = s.issued ++ new ∧
      (op.Legal s → (s.issued.map ConversationLease.token).Nodup →
        ((s.issued ++ new).map ConversationLease.token).Nodup) := by
  cases op with
  | create | commit | abort =>
    refine ⟨[], (List.append_nil _).symm, ?_⟩
    rw [List.append_nil]
    exact fun _ h => h
  | acquire conversationId subjectId clock uuid =>
    refine ⟨_, rfl, ?_⟩
    intro hlegal hnodup
    rcases acquire_cases idleTtl s.entries conversationId subjectId clock uuid with
      ⟨-, hnone, -⟩ | ⟨now, entry, -, -, -, -, -, ⟨-, hnone, -⟩ | ⟨-, -, heq⟩⟩
    · rw [hnone]
      simpa using hnodup
    · rw [hnone]
      simpa using hnodup
    · rw [heq, List.map_append, List.nodup_append]
      refine ⟨hnodup, List.nodup_singleton _, ?_⟩
      intro a ha b hb hsame
      rw [List.mem_singleton.mp hb] at hsame
      rw [hsame] at ha
      exact hlegal ha

lemma legal_append {ops' : List (Op σ)} : Legal idleTtl s (ops ++ ops') ↔
    Legal idleTtl s ops ∧ Legal idleTtl (run idleTtl s ops) ops' := by
  induction ops generalizing s with
  | nil => exact iff_of_eq (true_and _).symm
  | cons op ops ih =>
    change _ ∧ Legal _ _ (ops ++ ops') ↔ _
    rw [ih, ← and_assoc]
    rfl

lemma tokens_run (hlegal : Legal idleTtl s ops)
    (h : (s.issued.map ConversationLease.token).Nodup) :
    ((run idleTtl s ops).issued.map ConversationLease.token).Nodup := by
  induction ops generalizing s with
  | nil => exact h
  | cons op ops ih =>
    obtain ⟨new, hissued, hnodup⟩ := issued_step idleTtl s op
    apply ih hlegal.2
    rw [hissued]
    exact hnodup hlegal.1 h

/-- A legal operation that does not use the lease has nothing of it. -/
lemma apart_of_legal (hlegal : Legal idleTtl s ops) (hissued : lease ∈ s.issued)
    (hnodup : (s.issued.map ConversationLease.token).Nodup)
    (hheld : ∀ op ∈ ops, ¬op.Uses lease) : ∀ op ∈ ops, op.Apart lease := by
  induction ops generalizing s with
  | nil => exact fun op hop => absurd hop List.not_mem_nil
  | cons op ops ih =>
    obtain ⟨hop, hops⟩ := List.forall_mem_cons.mp hheld
    obtain ⟨new, hnew, hnodup'⟩ := issued_step idleTtl s op
    have hinj := List.inj_on_of_nodup_map hnodup
    refine List.forall_mem_cons.mpr ⟨?_, ?_⟩
    · cases op with
      | create => trivial
      | acquire conversationId subjectId clock uuid =>
        intro hsame
        exact hlegal.1 (hsame ▸ List.mem_map_of_mem hissued)
      | commit used state clock => exact fun hsame => hop (hinj hlegal.1 hissued hsame)
      | abort used => exact fun hsame => hop (hinj hlegal.1 hissued hsame)
    · apply ih hlegal.2 _ _ hops
      · rw [hnew]
        exact List.mem_append_left _ hissued
      · rw [hnew]
        exact hnodup' hlegal.1 hnodup

/-- A lease that has just been issued: it is held, and its subject and conversation have texts. -/
lemma held_of_acquire {conversationId subjectId : String} {clock : Option Int} {uuid : String}
    (hkeyed : Keyed s.entries)
    (h : (acquire idleTtl s.entries conversationId subjectId clock uuid).1 = .ok lease) :
    Held lease (step idleTtl s (.acquire conversationId subjectId clock uuid)).entries ∧
      lease ∈ (step idleTtl s (.acquire conversationId subjectId clock uuid)).issued ∧
      lease.record.conversationId ≠ "" ∧ lease.record.subjectId ≠ "" := by
  change Held lease (acquire idleTtl s.entries conversationId subjectId clock uuid).2 ∧
    lease ∈ s.issued ++ (acquire idleTtl s.entries conversationId subjectId clock uuid).1.toOption.toList
      ∧ _
  rcases acquire_cases idleTtl s.entries conversationId subjectId clock uuid with
    ⟨-, hnone, -⟩ | ⟨now, entry, -, hentry, howner, hid, hsubject, ⟨-, hnone, -⟩ | ⟨-, -, heq⟩⟩
  · rw [h] at hnone
    cases hnone
  · rw [h] at hnone
    cases hnone
  · rw [heq] at h ⊢
    cases h
    have hkey := hkeyed _ entry hentry
    refine ⟨?_, List.mem_append_right _ List.mem_cons_self, hkey ▸ hid, howner ▸ hsubject⟩
    rw [Held, hkey]
    exact Function.update_self _ _ _

end Runs

/-- What a lease promises behind the operations `ops` of a run in which it is not used: they make no
difference to its commit and its abort beyond those of its subject on its conversation, one commit
succeeds, a stale commit or abort changes nothing, and an abort leaves the record of the lease. -/
structure Honoured (idleTtl : Int) (s : Store σ) (lease : ConversationLease σ) (ops : List (Op σ)) :
    Prop where
  commit_own : ∀ state clock, (commit (run idleTtl s ops).entries lease state clock).1 =
    (commit (run idleTtl s (ops.filter (Op.own lease))).entries lease state clock).1
  abort_own : abort (run idleTtl s ops).entries lease lease.record.conversationId =
    abort (run idleTtl s (ops.filter (Op.own lease))).entries lease lease.record.conversationId
  committed : ∀ state now, (commit (run idleTtl s ops).entries lease state (some now)).1 =
    .ok { lease.record with lastSuccessAt := now, structuredQueryState := state }
  once : ∀ state now later, (∀ op ∈ later, op.Draws lease) → ∀ state' now',
    (commit (run idleTtl (run idleTtl s ops) (.commit lease state (some now) :: later)).entries
      lease state' (some now')).1 = .error .unavailable
  stale : ∀ (used : ConversationLease σ) entries, Stale used entries →
    (∀ state clock, (commit entries used state clock).2 = entries) ∧ abort entries used = entries
  aborted : abort (run idleTtl s ops).entries lease lease.record.conversationId =
    some ⟨lease.record, none⟩

section Leases

lemma honoured_of_held {ops : List (Op σ)} (h : Held lease (run idleTtl s ops).entries)
    (hown : Held lease (run idleTtl s (ops.filter (Op.own lease))).entries) :
    Honoured idleTtl s lease ops where
  commit_own := by
    intro state clock
    cases clock with
    | none => rfl
    | some now => rw [commit_of_held h, commit_of_held hown]
  abort_own := by rw [abort_of_held h, abort_of_held hown, Function.update_self, Function.update_self]
  committed := by
    intro state now
    rw [commit_of_held h]
  once := by
    intro state now later hdraws state' now'
    have hstale : Stale lease (step idleTtl (run idleTtl s ops)
        (.commit lease state (some now))).entries := by
      intro stored hstored
      change (commit (run idleTtl s ops).entries lease state (some now)).2 _ = _ at hstored
      rw [commit_of_held h] at hstored
      dsimp only at hstored
      rw [Function.update_self] at hstored
      cases hstored
      exact (Option.some_ne_none _).symm
    have hlater : Stale lease (run idleTtl (run idleTtl s ops)
      (.commit lease state (some now) :: later)).entries := hstale.run hdraws
    rw [commit_of_stale hlater]
  stale := fun used entries hstale =>
    ⟨commit_entries_of_stale hstale, abort_of_stale hstale⟩
  aborted := by rw [abort_of_held h, Function.update_self]

/-- A lease is honoured exactly when, while it is held, no conversation is created and its subject
does not acquire its conversation at a time at which its record has expired. -/
theorem honoured_iff_prompt (idleTtl : Int) (before after : List (Op σ))
    (conversationId subjectId : String) (clock : Option Int) (uuid : String)
    (lease : ConversationLease σ)
    (hlegal : Legal idleTtl {} (before ++ .acquire conversationId subjectId clock uuid :: after))
    (hlease : (acquire idleTtl (run idleTtl {} before).entries conversationId subjectId clock
      uuid).1 = .ok lease)
    (hheld : ∀ op ∈ after, ¬op.Uses lease) :
    Honoured idleTtl (step idleTtl (run idleTtl {} before)
      (.acquire conversationId subjectId clock uuid)) lease after ↔
        ∀ op ∈ after, op.Prompt idleTtl lease := by
  obtain ⟨hbefore, hacquire, hafter⟩ := legal_append.mp hlegal
  have hempty : Keyed ({} : Store σ).entries := by
    rintro c stored ⟨⟩
  obtain ⟨hstart, hissued, hid, hsubject⟩ := held_of_acquire (run_keyed hempty before) hlease
  have hnodup : ((step idleTtl (run idleTtl {} before)
      (.acquire conversationId subjectId clock uuid)).issued.map ConversationLease.token).Nodup := by
    obtain ⟨new, hnew, htokens⟩ := issued_step idleTtl (run idleTtl {} before)
      (.acquire conversationId subjectId clock uuid)
    rw [hnew]
    exact htokens hacquire (tokens_run hbefore List.nodup_nil)
  have hapart := apart_of_legal hafter hissued hnodup hheld
  constructor
  · intro hhonoured
    by_contra hlate
    have hlost := hstart.lost hid hsubject hapart hlate
    have hcommit := hhonoured.committed none 0
    rw [commit_of_stale hlost] at hcommit
    cases hcommit
  · intro hprompt
    apply honoured_of_held (hstart.run hapart hprompt)
    apply hstart.run
    · exact fun op hop => hapart op (List.mem_of_mem_filter hop)
    · exact fun op hop => hprompt op (List.mem_of_mem_filter hop)

end Leases

/-- A conversation of one subject, created and acquired at time 0. -/
def opening : List (Op Unit) := [.create "ana" none (some 0) ["c"]]

def anaLease : ConversationLease Unit := ⟨⟨"c", "ana", 0, none⟩, "t"⟩

theorem honoured_iff_prompt_opening : Honoured 1800 (step 1800 (run 1800 {} opening)
    (.acquire "c" "ana" (some 0) "t")) anaLease [.create "ben" none (some 900) ["d"]] := by
  have hiff := honoured_iff_prompt 1800 opening [.create "ben" none (some 900) ["d"]] "c" "ana"
    (some 0) "t" anaLease ⟨trivial, List.not_mem_nil, trivial, trivial⟩ rfl
    (List.forall_mem_singleton.mpr id)
  refine hiff.mpr (List.forall_mem_singleton.mpr ?_)
  rintro - now ⟨⟩
  decide

/-- Another subject creates a conversation half an hour later: the commit of the lease fails, and
without that it succeeds. -/
theorem deleted_under_lease :
    let s := step 1800 (run 1800 {} opening) (.acquire "c" "ana" (some 0) "t")
    let after : List (Op Unit) := [.create "ben" none (some 1800) ["d"]]
    Legal 1800 {} (opening ++ .acquire "c" "ana" (some 0) "t" :: after) ∧
      (acquire 1800 (run 1800 {} opening).entries "c" "ana" (some 0) "t").1 = .ok anaLease ∧
      (∀ op ∈ after, ¬op.Uses anaLease) ∧
      (commit (run 1800 s after).entries anaLease none (some 1801)).1 = .error .unavailable ∧
      (commit (run 1800 s (after.filter (Op.own anaLease))).entries anaLease none (some 1801)).1 =
        .ok { anaLease.record with lastSuccessAt := 1801 } ∧
      ¬Honoured 1800 s anaLease after := by
  intro s after
  have hfails : (commit (run 1800 s after).entries anaLease none (some 1801)).1 =
      .error .unavailable := by decide
  refine ⟨⟨trivial, List.not_mem_nil, trivial, trivial⟩, rfl, List.forall_mem_singleton.mpr id,
    hfails, by decide, ?_⟩
  intro hhonoured
  have hcommit := hhonoured.committed none 1801
  rw [hfails] at hcommit
  cases hcommit

end ChatBI.Conversation
