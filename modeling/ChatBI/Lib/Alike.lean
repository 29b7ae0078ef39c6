import ChatBI.Lib.Check
import Mathlib.Data.List.Perm.Basic

/-!
# Computations with related outcomes

Two computations in the error monad are alike when both raise, or both return and their results
are related. Which error they raise does not matter. They run together when their results are
related if both return.
-/

namespace ChatBI.Lib

variable {ε α α' β β' : Type} {R : α → α' → Prop} {S : β → β' → Prop}

inductive Alike (R : α → α' → Prop) : Except ε α → Except ε α' → Prop
  | error (e e' : ε) : Alike R (.error e) (.error e')
  | ok {a : α} {a' : α'} (h : R a a') : Alike R (.ok a) (.ok a')

namespace Alike

lemma refl (x : Except ε α) : Alike Eq x x := by
  cases x with
  | error e => exact .error e e
  | ok a => exact .ok rfl

lemma intro {x : Except ε α} {x' : Except ε α'}
    (h : ∀ a, x = .ok a → ∃ a', x' = .ok a' ∧ R a a')
    (h' : (∃ a', x' = .ok a') → ∃ a, x = .ok a) : Alike R x x' := by
  cases x with
  | ok a =>
    obtain ⟨a', rfl, hr⟩ := h a rfl
    exact .ok hr
  | error e =>
    cases x' with
    | error e' => exact .error e e'
    | ok a' =>
      obtain ⟨a, ha⟩ := h' ⟨a', rfl⟩
      cases ha

lemma of_ok_iff {x x' : Except ε α} (h : ∀ a, x = .ok a ↔ x' = .ok a) : Alike Eq x x' := by
  apply intro
  · intro a ha
    exact ⟨a, (h a).mp ha, rfl⟩
  · rintro ⟨a, ha⟩
    exact ⟨a, (h a).mpr ha⟩

lemma imp {R' : α → α' → Prop} {x : Except ε α} {x' : Except ε α'} (h : Alike R x x')
    (himp : ∀ a a', R a a' → R' a a') : Alike R' x x' := by
  cases h with
  | error e e' => exact .error e e'
  | ok h => exact .ok (himp _ _ h)

lemma bind {x : Except ε α} {x' : Except ε α'} {f : α → Except ε β} {f' : α' → Except ε β'}
    (h : Alike R x x') (hf : ∀ a a', R a a' → Alike S (f a) (f' a')) :
    Alike S (x >>= f) (x' >>= f') := by
  cases h with
  | error e e' => exact .error e e'
  | ok h => exact hf _ _ h

lemma map {x : Except ε α} {x' : Except ε α'} {f : α → β} {f' : α' → β'} (h : Alike R x x')
    (hf : ∀ a a', R a a' → S (f a) (f' a')) : Alike S (f <$> x) (f' <$> x') := by
  cases h with
  | error e e' => exact .error e e'
  | ok h => exact .ok (hf _ _ h)

lemma require {c c' : Prop} [Decidable c] [Decidable c'] {e e' : ε} (h : c ↔ c') :
    Alike Eq (require c e) (require c' e') := by
  by_cases hc : c
  · rw [ChatBI.Lib.require, ChatBI.Lib.require, if_pos hc, if_pos (h.mp hc)]
    exact .ok rfl
  · rw [ChatBI.Lib.require, ChatBI.Lib.require, if_neg hc, if_neg fun hc' => hc (h.mpr hc')]
    exact .error e e'

lemma forM {f f' : α → Except ε PUnit} {xs : List α} (h : ∀ a ∈ xs, Alike Eq (f a) (f' a)) :
    Alike Eq (xs.forM f) (xs.forM f') := by
  induction xs with
  | nil => exact .ok rfl
  | cons a xs ih =>
    change Alike Eq (f a >>= fun _ => xs.forM f) (f' a >>= fun _ => xs.forM f')
    apply (h a List.mem_cons_self).bind
    intro _ _ _
    exact ih fun a' ha' => h a' (List.mem_cons_of_mem a ha')

/-- The results over a list in another order. -/
lemma mapM_perm (f : α → Except ε β) {xs ys : List α} (h : xs.Perm ys) :
    Alike List.Perm (xs.mapM f) (ys.mapM f) := by
  induction h with
  | nil => exact .ok (.refl [])
  | cons a _ ih =>
    rw [List.mapM_cons, List.mapM_cons]
    apply (refl (f a)).bind
    rintro b _ rfl
    apply ih.bind
    intro bs bs' hbs
    exact .ok (hbs.cons b)
  | swap a a' xs =>
    rw [List.mapM_cons, List.mapM_cons, List.mapM_cons, List.mapM_cons]
    cases f a with
    | error e =>
      cases f a' with
      | error e' => exact .error e' e
      | ok b' => exact .error e e
    | ok b =>
      cases f a' with
      | error e' => exact .error e' e'
      | ok b' =>
        cases xs.mapM f with
        | error e => exact .error e e
        | ok bs => exact .ok (.swap b b' bs)
  | trans _ _ ih ih' =>
    generalize List.mapM f _ = x at ih ih'
    generalize List.mapM f _ = y at ih ih'
    generalize List.mapM f _ = z at ih'
    cases ih with
    | error e e' =>
      cases ih' with
      | error _ e'' => exact .error e e''
    | ok h =>
      cases ih' with
      | ok h' => exact .ok (h.trans h')

lemma toOption_eq {x x' : Except ε α} (h : Alike Eq x x') : x.toOption = x'.toOption := by
  cases h with
  | error e e' => rfl
  | ok h => rw [h]

end Alike

/-- The results are related when both computations return. -/
def Together {ε' : Type} (R : α → α' → Prop) (x : Except ε α) (x' : Except ε' α') : Prop :=
  ∀ a a', x = .ok a → x' = .ok a' → R a a'

namespace Together

variable {ε' : Type} {x : Except ε α} {x' : Except ε' α'}

lemma ok {a : α} {a' : α'} (h : R a a') : Together R (.ok a : Except ε α) (.ok a' : Except ε' α') := by
  rintro _ _ ⟨rfl⟩ ⟨rfl⟩
  exact h

lemma error {e : ε} : Together R (.error e : Except ε α) x' := by
  intro _ _ h
  cases h

lemma bind {f : α → Except ε β} {f' : α' → Except ε' β'} (h : Together R x x')
    (hf : ∀ a a', R a a' → Together S (f a) (f' a')) : Together S (x >>= f) (x' >>= f') := by
  intro b b' hb hb'
  obtain ⟨a, ha, hb⟩ := except_bind_ok.mp hb
  obtain ⟨a', ha', hb'⟩ := except_bind_ok.mp hb'
  exact hf a a' (h a a' ha ha') b b' hb hb'

lemma map {f : α → β} {f' : α' → β'} (h : Together R x x')
    (hf : ∀ a a', R a a' → S (f a) (f' a')) : Together S (f <$> x) (f' <$> x') := by
  intro b b' hb hb'
  obtain ⟨a, ha, rfl⟩ := except_map_ok.mp hb
  obtain ⟨a', ha', rfl⟩ := except_map_ok.mp hb'
  exact hf a a' (h a a' ha ha')

/-- Nothing is known of what a computation returns. -/
lemma trivial (x : Except ε α) (x' : Except ε' α') : Together (fun _ _ => True) x x' :=
  fun _ _ _ _ => True.intro

lemma foldlM {γ γ' : Type} {f : α → γ → Except ε α} {f' : α' → γ' → Except ε' α'} {g : γ → γ'}
    (hf : ∀ a a' c, R a a' → Together R (f a c) (f' a' (g c))) (cs : List γ) {a : α} {a' : α'}
    (h : R a a') : Together R (cs.foldlM f a) ((cs.map g).foldlM f' a') := by
  induction cs generalizing a a' with
  | nil => exact ok h
  | cons c cs ih =>
    rw [List.map_cons, List.foldlM_cons, List.foldlM_cons]
    exact (hf a a' c h).bind fun _ _ hnext => ih hnext

lemma mapM {γ : Type} {f : γ → Except ε β} {f' : γ → Except ε' β'} (cs : List γ)
    (hf : ∀ c ∈ cs, Together S (f c) (f' c)) :
    Together (List.Forall₂ S) (cs.mapM f) (cs.mapM f') := by
  induction cs with
  | nil => exact ok .nil
  | cons c cs ih =>
    rw [List.mapM_cons, List.mapM_cons]
    obtain ⟨hc, hcs⟩ := List.forall_mem_cons.mp hf
    exact hc.bind fun _ _ h => (ih hcs).bind fun _ _ hs => ok (.cons h hs)

end Together

/-- A fold over the results of a computation. -/
lemma foldlM_map_eq (f : α → Except ε β) (g : α' → β → α') (xs : List α) (a : α') :
    xs.foldlM (fun a x => g a <$> f x) a = (fun bs => bs.foldl g a) <$> xs.mapM f := by
  induction xs generalizing a with
  | nil => rfl
  | cons x xs ih =>
    rw [List.foldlM_cons, List.mapM_cons]
    cases f x with
    | error e => rfl
    | ok b =>
      change xs.foldlM (fun a x => g a <$> f x) (g a b) = _
      rw [ih]
      cases xs.mapM f with
      | error e => rfl
      | ok bs => rfl

end ChatBI.Lib
