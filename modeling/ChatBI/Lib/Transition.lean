import Mathlib.Tactic.Lemma

/-!
# Labelled transition systems

A system is a set of initial states and a labelled step relation. Runs are finite
sequences of steps. An invariant is proved once for the initial states and once for a
step; a relation between the two ends of a run is proved once for a step when it is
reflexive and transitive.
-/

namespace ChatBI.Lib

structure System (σ ε : Type) where
  init : σ → Prop
  step : σ → ε → σ → Prop

namespace System

variable {σ ε : Type} {M : System σ ε}

/-- `M.Run s es t`: the steps labelled `es`, in this order, lead from `s` to `t`. -/
inductive Run (M : System σ ε) : σ → List ε → σ → Prop
  | nil (s : σ) : Run M s [] s
  | snoc {s t u : σ} {es : List ε} {e : ε} : Run M s es t → M.step t e u → Run M s (es ++ [e]) u

def Reachable (M : System σ ε) (s : σ) : Prop := ∃ s₀ es, M.init s₀ ∧ M.Run s₀ es s

/-- The system that only takes the steps whose source state and label satisfy `ok`. -/
def restrict (M : System σ ε) (ok : σ → ε → Prop) : System σ ε :=
  ⟨M.init, fun s e t => ok s e ∧ M.step s e t⟩

lemma Run.append {s t u : σ} {es fs : List ε} (h : M.Run s es t) (h' : M.Run t fs u) :
    M.Run s (es ++ fs) u := by
  induction h' with
  | nil => simpa using h
  | snoc _ hstep ih =>
    rw [← List.append_assoc]
    exact ih.snoc hstep

lemma Run.single {s t : σ} {e : ε} (h : M.step s e t) : M.Run s [e] t := (Run.nil s).snoc h

lemma Reachable.of_init {s : σ} (h : M.init s) : M.Reachable s := ⟨s, [], h, .nil s⟩

lemma Reachable.run {s t : σ} {es : List ε} (h : M.Reachable s) (hr : M.Run s es t) :
    M.Reachable t := by
  obtain ⟨s₀, fs, h₀, hs⟩ := h
  exact ⟨s₀, fs ++ es, h₀, hs.append hr⟩

lemma Reachable.step {s t : σ} {e : ε} (h : M.Reachable s) (hs : M.step s e t) : M.Reachable t :=
  h.run (.single hs)

/-- An invariant of the steps holds at the end of a run that starts in it. -/
theorem Run.invariant {I : σ → Prop} (hstep : ∀ s e t, I s → M.step s e t → I t)
    {s t : σ} {es : List ε} (h : M.Run s es t) (hs : I s) : I t := by
  induction h with
  | nil => exact hs
  | snoc _ hu ih => exact hstep _ _ _ ih hu

theorem Reachable.invariant {I : σ → Prop} (hinit : ∀ s, M.init s → I s)
    (hstep : ∀ s e t, I s → M.step s e t → I t) {s : σ} (h : M.Reachable s) : I s := by
  obtain ⟨s₀, es, h₀, hr⟩ := h
  exact hr.invariant hstep (hinit s₀ h₀)

/-- A reflexive and transitive relation that every step from an invariant state respects
relates the two ends of every run. -/
theorem Run.relation {I : σ → Prop} {R : σ → σ → Prop} (hrefl : ∀ s, R s s)
    (htrans : ∀ {s t u}, R s t → R t u → R s u) (hI : ∀ s e t, I s → M.step s e t → I t)
    (hstep : ∀ s e t, I s → M.step s e t → R s t)
    {s t : σ} {es : List ε} (h : M.Run s es t) (hs : I s) : R s t := by
  induction h with
  | nil => exact hrefl _
  | snoc hr hu ih => exact htrans ih (hstep _ _ _ (hr.invariant hI hs) hu)

lemma Run.of_restrict {ok : σ → ε → Prop} {s t : σ} {es : List ε}
    (h : (M.restrict ok).Run s es t) : M.Run s es t := by
  induction h with
  | nil => exact .nil _
  | snoc _ hu ih => exact ih.snoc hu.2

lemma Reachable.of_restrict {ok : σ → ε → Prop} {s : σ} (h : (M.restrict ok).Reachable s) :
    M.Reachable s := by
  obtain ⟨s₀, es, h₀, hr⟩ := h
  exact ⟨s₀, es, h₀, hr.of_restrict⟩

/-- The state after a list of labels, when `next` takes each of them and `ok` admits it. -/
def exec (next : σ → ε → Option σ) (ok : σ → ε → Bool) : σ → List ε → Option σ
  | s, [] => some s
  | s, e :: es => if ok s e then (next s e).bind (fun t => exec next ok t es) else none

/-- An executed list of labels is a run. -/
theorem exec_run {next : σ → ε → Option σ} {ok : σ → ε → Bool}
    (hstep : ∀ s e t, ok s e = true → next s e = some t → M.step s e t) {s t : σ} {es : List ε}
    (h : exec next ok s es = some t) : M.Run s es t := by
  induction es generalizing s with
  | nil =>
    cases h
    exact .nil _
  | cons e es ih =>
    rw [exec] at h
    by_cases hok : ok s e = true
    · rw [if_pos hok] at h
      obtain ⟨u, hnext, hrest⟩ := Option.bind_eq_some_iff.mp h
      exact (Run.single (hstep s e u hok hnext)).append (ih hrest)
    · rw [if_neg hok] at h
      cases h

end System

end ChatBI.Lib
