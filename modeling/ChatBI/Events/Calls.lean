import ChatBI.Events.Reducer

/-!
# What a call can change

Every call of a channel, whether it returns or raises: it leaves the channel as it is, or changes
some fields and appends the events that say so. What an append can change does not depend on the
payload.
-/

namespace ChatBI.Events

open ChatBI.Lib ChatBI.Store

/-- What an append leaves: a later number and, at most, one more event in the ring. -/
structure Appended (c : Channel) (payload : Payload) (c' : Channel) : Prop where
  fields : c' = { c with sequence := c'.sequence, ring := c'.ring, ringBytes := c'.ringBytes }
  sequence : c.sequence ≤ c'.sequence
  ring : ∀ e ∈ c'.ring, e ∈ c.ring ∨
    c'.sequence = c.sequence + 1 ∧ e.1 = c.envelope c'.sequence payload ∧
      ∃ text, e.1.text = .ok text ∧ Utf8.size text ≤ c.maxBytes
  outcome : c' = c ∨ c' = { c with sequence := c.sequence + 1 } ∨
    ∃ size, (c.envelope (c.sequence + 1) payload).Writable ∧
      c' = c.push (c.envelope (c.sequence + 1) payload) size

/-- What a call leaves, by the change that it makes. -/
inductive Called (c : Channel) : Channel.Call → Channel → Prop where
  | unchanged {a : Channel.Call} : Called c a c
  | unexplained {reason : Option Text} (hterminal : c.terminal = false) :
      Called c (.setStatus .stopping reason) { c with status := .stopping }
  | status {status : ExecutionStatus} {reason r : Option Text} {c' : Channel}
      (hterminal : c.terminal = false) (hstatus : isTerminal status = false)
      (horder : Channel.order c.status ≤ Channel.order status)
      (h : Appended { c with status := status, stopReason := r.elim c.stopReason some }
        (.progress { status := some status, stopReason := r }) c') :
      Called c (.setStatus status reason) c'
  | stage {stage : String} {value : ExecutionStage} {c' : Channel}
      (hterminal : c.terminal = false) (hvalue : ExecutionStage.ofValue? stage = some value)
      (h : Appended { c with stage := some value }
        { c with stage := some value }.progressPayload c') :
      Called c (.setStage stage) c'
  | tasks {completed total : Int} {c' : Channel} (hterminal : c.terminal = false)
      (hpos : 1 ≤ total) (hcompleted : 0 ≤ completed) (hle : completed ≤ total)
      (h : Appended (c.withTasks completed.toNat total.toNat)
        (c.withTasks completed.toNat total.toNat).progressPayload c') :
      Called c (.setTaskProgress completed total) c'
  | text {field : String} {index : Option Int} {offset : Int} {text : List CodePoint} {δ : Delta}
      {chunks : List (List Char)} (hterminal : c.terminal = false)
      (hcheck : Delta.check field index offset text = .ok δ)
      (hchunks : c.deltaChunks δ = .ok chunks) :
      Called c (.textDelta field index offset text)
        ({ c with draft := c.draft.write δ }.appendChunks δ.key δ.offset chunks).2
  | reset {reason : String} {c' : Channel} (hterminal : c.terminal = false)
      (h : Appended { c with draftGeneration := c.draftGeneration + 1, draft := {} }
        (.draftReset reason) c') :
      Called c (.reset reason) c'
  | finish {status : ExecutionStatus} {publicError : Option PublicError} {c' : Channel}
      (hterminal : c.terminal = false) (hstatus : isTerminal status = true)
      (h : Appended { c with status := status, draft := {}, terminal := true }
        (.terminal status (Channel.safeError publicError)) c') :
      Called c (.finish status publicError) c'

/-- Calls with stages in order, one total and counts that do not go back. -/
def Channel.InOrder (c : Channel) : Channel.Call → Prop
  | .setStage stage => ∀ s ∈ ExecutionStage.ofValue? stage, stageRegresses c.stage (some s) = false
  | .setTaskProgress completed total =>
    (∀ t ∈ c.totalTasks, total = t) ∧ c.completedTasks ≤ completed
  | _ => True

/-- Task totals that the client can hold. -/
def Channel.Call.SafeTotal : Channel.Call → Prop
  | .setTaskProgress _ total => total ≤ maxSafeInteger
  | _ => True

instance (c : Channel) : DecidablePred c.InOrder
  | .setStage stage => inferInstanceAs (Decidable
      (∀ s ∈ ExecutionStage.ofValue? stage, stageRegresses c.stage (some s) = false))
  | .setTaskProgress completed total => inferInstanceAs (Decidable
      ((∀ t ∈ c.totalTasks, total = t) ∧ c.completedTasks ≤ completed))
  | .setStatus .. | .textDelta .. | .reset _ | .finish .. => isTrue trivial

instance : DecidablePred Channel.Call.SafeTotal
  | .setTaskProgress _ total => inferInstanceAs (Decidable (total ≤ maxSafeInteger))
  | .setStatus .. | .setStage _ | .textDelta .. | .reset _ | .finish .. => isTrue trivial

section Appending

variable {c : Channel} {payload : Payload}

lemma trim_suffix (maxEvents maxBytes bytes : Nat) (ring : List (ExecutionEvent × Nat)) :
    (Channel.trim maxEvents maxBytes ring bytes).1 <:+ ring := by
  induction ring generalizing bytes with
  | nil => exact List.suffix_rfl
  | cons e ring ih =>
    rw [Channel.trim]
    split
    · exact (ih _).trans (List.suffix_cons e ring)
    · exact List.suffix_rfl

theorem appended (c : Channel) (payload : Payload) : Appended c payload (c.append payload).2 := by
  unfold Channel.append
  cases htext : (c.envelope (c.sequence + 1) payload).text with
  | error e =>
    refine ⟨rfl, Nat.le_succ _, ?_, .inr (.inl rfl)⟩
    intro e he
    exact .inl he
  | ok text =>
    simp only []
    by_cases hsize : c.maxBytes < Utf8.size text
    · rw [if_pos hsize]
      refine ⟨rfl, Nat.le_refl _, ?_, .inl rfl⟩
      intro e he
      exact .inl he
    · rw [if_neg hsize]
      refine ⟨rfl, Nat.le_succ _, ?_, .inr (.inr ⟨_, (text_ok.mp htext).1, rfl⟩)⟩
      intro e he
      have hall := (trim_suffix _ _ _ _).subset he
      rcases List.mem_append.mp hall with hold | hnew
      · exact .inl hold
      · cases List.mem_singleton.mp hnew
        exact .inr ⟨rfl, rfl, text, htext, Nat.le_of_not_lt hsize⟩

/-- The change that a call makes. -/
theorem called (c : Channel) (a : Channel.Call) : Called c a (c.call a).2 := by
  cases a with
  | setStatus status reason =>
    simp only [Channel.call, Channel.setStatus]
    by_cases hstatus : isTerminal status = true
    · rw [if_pos hstatus]
      exact .unchanged
    rw [if_neg hstatus]
    by_cases hterminal : c.terminal = true
    · rw [if_pos hterminal]
      exact .unchanged
    rw [if_neg hterminal]
    by_cases horder : Channel.order status < Channel.order c.status
    · rw [if_pos horder]
      exact .unchanged
    rw [if_neg horder]
    rw [Bool.not_eq_true] at hstatus hterminal
    have horder : Channel.order c.status ≤ Channel.order status := by omega
    by_cases hstopping : status = .stopping
    · rw [if_pos hstopping]
      subst hstopping
      cases reason with
      | none => exact .unexplained hterminal
      | some reason => exact .status (r := some reason) hterminal hstatus horder (appended _ _)
    · rw [if_neg hstopping]
      exact .status (r := none) hterminal hstatus horder (appended _ _)
  | setStage stage =>
    simp only [Channel.call, Channel.setStage]
    cases hvalue : ExecutionStage.ofValue? stage with
    | none => exact .unchanged
    | some value =>
      simp only []
      by_cases hterminal : c.terminal = true
      · rw [if_pos hterminal]
        exact .unchanged
      rw [if_neg hterminal]
      rw [Bool.not_eq_true] at hterminal
      exact .stage hterminal hvalue (appended _ _)
  | setTaskProgress completed total =>
    simp only [Channel.call, Channel.setTaskProgress]
    by_cases hinvalid : total < 1 ∨ completed < 0 ∨ total < completed
    · rw [if_pos hinvalid]
      exact .unchanged
    rw [if_neg hinvalid]
    by_cases hterminal : c.terminal = true
    · rw [if_pos hterminal]
      exact .unchanged
    rw [if_neg hterminal]
    rw [Bool.not_eq_true] at hterminal
    exact .tasks hterminal (by omega) (by omega) (by omega) (appended _ _)
  | textDelta field index offset text =>
    simp only [Channel.call, Channel.textDelta]
    cases hcheck : Delta.check field index offset text with
    | error e => exact .unchanged
    | ok δ =>
      simp only []
      by_cases hterminal : c.terminal = true
      · rw [if_pos hterminal]
        exact .unchanged
      rw [if_neg hterminal]
      rw [Bool.not_eq_true] at hterminal
      cases hchunks : c.deltaChunks δ with
      | error e => exact .unchanged
      | ok chunks => exact .text hterminal hcheck hchunks
  | reset reason =>
    simp only [Channel.call, Channel.reset]
    by_cases hreason : reason ≠ "model_retry"
    · rw [if_pos hreason]
      exact .unchanged
    rw [if_neg hreason]
    by_cases hterminal : c.terminal = true
    · rw [if_pos hterminal]
      exact .unchanged
    rw [if_neg hterminal]
    rw [Bool.not_eq_true] at hterminal
    exact .reset hterminal (appended _ _)
  | finish status publicError =>
    simp only [Channel.call, Channel.finish]
    by_cases hstatus : isTerminal status = true
    swap
    · rw [if_pos hstatus]
      exact .unchanged
    rw [if_neg (not_not_intro hstatus)]
    by_cases hterminal : c.terminal = true
    · rw [if_pos hterminal]
      exact .unchanged
    rw [if_neg hterminal]
    rw [Bool.not_eq_true] at hterminal
    exact .finish hterminal hstatus (appended _ _)

end Appending

end ChatBI.Events
