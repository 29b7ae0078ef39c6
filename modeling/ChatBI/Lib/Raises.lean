import ChatBI.Lib.Check
import Mathlib.Data.List.Forall2

/-!
# What a computation raises

The errors of a computation in the error monad, and how the operations of the monad compose them.
-/

namespace ChatBI.Lib

variable {ε α β : Type} {P : ε → Prop}

/-- Every error of the computation satisfies the predicate. -/
def Raises (P : ε → Prop) (x : Except ε α) : Prop := ∀ e, x = .error e → P e

namespace Raises

lemma ok (a : α) : Raises P (.ok a) := by
  intro e h
  cases h

lemma error {e : ε} (h : P e) : Raises P (.error e : Except ε α) := by
  intro e' he
  cases he
  exact h

lemma bind {x : Except ε α} {f : α → Except ε β} (h : Raises P x)
    (hf : ∀ a, x = .ok a → Raises P (f a)) : Raises P (x >>= f) := by
  cases x with
  | error e => exact .error (h e rfl)
  | ok a => exact hf a rfl

lemma map {x : Except ε α} {f : α → β} (h : Raises P x) : Raises P (f <$> x) := by
  cases x with
  | error e => exact .error (h e rfl)
  | ok a => exact .ok (f a)

lemma require {c : Prop} [Decidable c] {e : ε} (h : ¬c → P e) : Raises P (require c e) := by
  by_cases hc : c
  · rw [ChatBI.Lib.require, if_pos hc]
    exact .ok ()
  · rw [ChatBI.Lib.require, if_neg hc]
    exact .error (h hc)

lemma foldlM {f : β → α → Except ε β} (hf : ∀ b a, Raises P (f b a)) (xs : List α) (b : β) :
    Raises P (xs.foldlM f b) := by
  induction xs generalizing b with
  | nil => exact .ok b
  | cons a xs ih =>
    rw [List.foldlM_cons]
    exact (hf b a).bind fun b' _ => ih b'

lemma mapM {f : α → Except ε β} {xs : List α} (hf : ∀ a ∈ xs, Raises P (f a)) :
    Raises P (xs.mapM f) := by
  induction xs with
  | nil => exact .ok []
  | cons a xs ih =>
    rw [List.mapM_cons]
    apply (hf a List.mem_cons_self).bind
    intro b _
    apply (ih fun a' ha' => hf a' (List.mem_cons_of_mem a ha')).bind
    intro bs _
    exact .ok (b :: bs)

lemma forM {f : α → Except ε PUnit} {xs : List α} (hf : ∀ a ∈ xs, Raises P (f a)) :
    Raises P (xs.forM f) := by
  induction xs with
  | nil => exact .ok ()
  | cons a xs ih =>
    change Raises P (f a >>= fun _ => xs.forM f)
    apply (hf a List.mem_cons_self).bind
    intro _ _
    exact ih fun a' ha' => hf a' (List.mem_cons_of_mem a ha')

end Raises

/-- The results of a computation over a list, one for each element. -/
lemma mapM_ok {f : α → Except ε β} {xs : List α} {ys : List β} (h : xs.mapM f = .ok ys) :
    List.Forall₂ (fun x y => f x = .ok y) xs ys := by
  induction xs generalizing ys with
  | nil =>
    rw [List.mapM_nil, except_pure_ok] at h
    rw [← h]
    exact .nil
  | cons x xs ih =>
    rw [List.mapM_cons] at h
    obtain ⟨y, hy, h⟩ := except_bind_ok.mp h
    obtain ⟨ys', hys, h⟩ := except_bind_ok.mp h
    rw [← except_pure_ok.mp h]
    exact .cons hy (ih hys)

lemma mapM_of_forall₂ {f : α → Except ε β} {xs : List α} {ys : List β}
    (h : List.Forall₂ (fun x y => f x = .ok y) xs ys) : xs.mapM f = .ok ys := by
  induction h with
  | nil => rfl
  | cons hx _ ih =>
    rw [List.mapM_cons, hx, ih]
    rfl

/-- What is written element by element is read back when each element is. -/
lemma mapM_map_ok_iff {f : α → Except ε β} {write : β → α} {ys : List β} :
    (ys.map write).mapM f = .ok ys ↔ ∀ y ∈ ys, f (write y) = .ok y := by
  induction ys with
  | nil => exact ⟨fun _ y hy => absurd hy List.not_mem_nil, fun _ => rfl⟩
  | cons y ys ih =>
    rw [List.forall_mem_cons, ← ih, List.map_cons, List.mapM_cons, except_bind_ok]
    simp only [except_bind_ok, except_pure_ok]
    constructor
    · rintro ⟨_, hy, _, hys, heq⟩
      obtain ⟨rfl, rfl⟩ := List.cons.inj heq
      exact ⟨hy, hys⟩
    · rintro ⟨hy, hys⟩
      exact ⟨y, hy, ys, hys, rfl⟩

/-- Numbered elements are read back when each is. -/
lemma mapM_zipIdx_iff {γ : Type} {f : α → Nat → Except ε β} {write : γ → α} {result : γ → β}
    {P : γ → Prop} (h : ∀ y i, f (write y) i = .ok (result y) ↔ P y) (ys : List γ) (n : Nat) :
    ((ys.map write).zipIdx n).mapM (fun p => f p.1 (p.2 + 1)) = .ok (ys.map result) ↔
      ∀ y ∈ ys, P y := by
  induction ys generalizing n with
  | nil => exact ⟨fun _ y hy => absurd hy List.not_mem_nil, fun _ => rfl⟩
  | cons y ys ih =>
    rw [List.forall_mem_cons, ← ih (n + 1), ← h y (n + 1), List.map_cons, List.zipIdx_cons,
      List.mapM_cons, List.map_cons, except_bind_ok]
    simp only [except_bind_ok, except_pure_ok]
    constructor
    · rintro ⟨_, hy, _, hys, heq⟩
      obtain ⟨rfl, rfl⟩ := List.cons.inj heq
      exact ⟨hy, hys⟩
    · rintro ⟨hy, hys⟩
      exact ⟨_, hy, _, hys, rfl⟩

/-- Computations that agree on the elements of a list. -/
lemma mapM_congr {f g : α → Except ε β} {xs : List α} (h : ∀ x ∈ xs, f x = g x) :
    xs.mapM f = xs.mapM g := by
  induction xs with
  | nil => rfl
  | cons x xs ih =>
    rw [List.mapM_cons, List.mapM_cons, h x List.mem_cons_self,
      ih fun y hy => h y (List.mem_cons_of_mem x hy)]

/-- A computation over a list returns when it does so for each element. -/
lemma exists_mapM_ok_iff {f : α → Except ε β} {xs : List α} :
    (∃ ys, xs.mapM f = .ok ys) ↔ ∀ x ∈ xs, ∃ y, f x = .ok y := by
  induction xs with
  | nil => exact ⟨fun _ x hx => absurd hx List.not_mem_nil, fun _ => ⟨[], rfl⟩⟩
  | cons x xs ih =>
    rw [List.forall_mem_cons, ← ih]
    simp only [List.mapM_cons, except_bind_ok, except_pure_ok]
    constructor
    · rintro ⟨_, y, hy, ys, hys, -⟩
      exact ⟨⟨y, hy⟩, ⟨ys, hys⟩⟩
    · rintro ⟨⟨y, hy⟩, ⟨ys, hys⟩⟩
      exact ⟨_, y, hy, ys, hys, rfl⟩

lemma forM_congr {f g : α → Except ε PUnit} {xs : List α} (h : ∀ x ∈ xs, f x = g x) :
    xs.forM f = xs.forM g := by
  induction xs with
  | nil => rfl
  | cons x xs ih =>
    change (f x >>= fun _ => xs.forM f) = g x >>= fun _ => xs.forM g
    rw [h x List.mem_cons_self, ih fun y hy => h y (List.mem_cons_of_mem x hy)]

/-- A check in front of the rest. -/
lemma checked_bind_ok {x : Except ε Unit} {f : Unit → Except ε α} {a : α} :
    (x >>= f) = .ok a ↔ x = .ok () ∧ f () = .ok a := by
  rw [except_bind_ok]
  exact ⟨fun ⟨_, hx, hf⟩ => ⟨hx, hf⟩, fun ⟨hx, hf⟩ => ⟨_, hx, hf⟩⟩

lemma exists_checked {x : Except ε Unit} {p : Unit → Prop} :
    (∃ u, x = .ok u ∧ p u) ↔ x = .ok () ∧ p () :=
  ⟨fun ⟨_, hx, hp⟩ => ⟨hx, hp⟩, fun ⟨hx, hp⟩ => ⟨_, hx, hp⟩⟩

lemma forM_ok_iff {f : α → Except ε Unit} {xs : List α} :
    xs.forM f = .ok () ↔ ∀ x ∈ xs, f x = .ok () := by
  induction xs with
  | nil => exact ⟨fun _ x hx => absurd hx List.not_mem_nil, fun _ => rfl⟩
  | cons x xs ih =>
    change (f x >>= fun _ => xs.forM f) = .ok () ↔ _
    rw [List.forall_mem_cons, ← ih, except_bind_ok]
    constructor
    · rintro ⟨⟨⟩, hx, hxs⟩
      exact ⟨hx, hxs⟩
    · rintro ⟨hx, hxs⟩
      exact ⟨⟨⟩, hx, hxs⟩

/-! ### All elements -/

lemma allM_cons {f : α → Except ε Bool} {x : α} {xs : List α} : (x :: xs).allM f =
    f x >>= fun b => if b then xs.allM f else .ok false := by
  rw [List.allM]
  cases f x with
  | error e => rfl
  | ok b => cases b <;> rfl

lemma allM_true_iff {f : α → Except ε Bool} {xs : List α} :
    xs.allM f = .ok true ↔ ∀ x ∈ xs, f x = .ok true := by
  induction xs with
  | nil => exact ⟨fun _ x hx => absurd hx List.not_mem_nil, fun _ => rfl⟩
  | cons x xs ih =>
    rw [List.forall_mem_cons, ← ih, allM_cons, except_bind_ok]
    constructor
    · rintro ⟨b, hb, h⟩
      cases b with
      | false => cases h
      | true => exact ⟨hb, h⟩
    · rintro ⟨hx, hxs⟩
      exact ⟨true, hx, hxs⟩

/-- The question for all elements is answered when it is for every one behind those that say yes. -/
lemma exists_allM_iff {f : α → Except ε Bool} {xs : List α} : (∃ b, xs.allM f = .ok b) ↔
    ∀ front x back, xs = front ++ x :: back → (∀ y ∈ front, f y = .ok true) →
      ∃ b, f x = .ok b := by
  induction xs with
  | nil =>
    refine iff_of_true ⟨true, rfl⟩ ?_
    intro front x back h
    exact absurd h.symm (List.append_ne_nil_of_right_ne_nil front (List.cons_ne_nil x back))
  | cons x xs ih =>
    rw [allM_cons]
    constructor
    · rintro ⟨b, hb⟩ front y back h hfront
      obtain ⟨bx, hx, hrest⟩ := except_bind_ok.mp hb
      cases front with
      | nil =>
        obtain ⟨rfl, -⟩ := List.cons.inj h
        exact ⟨bx, hx⟩
      | cons z front =>
        obtain ⟨rfl, hxs⟩ := List.cons.inj h
        obtain ⟨hz, hfront⟩ := List.forall_mem_cons.mp hfront
        rw [hz] at hx
        cases hx
        exact ih.mp ⟨b, hrest⟩ front y back hxs hfront
    · intro h
      obtain ⟨bx, hx⟩ := h [] x xs rfl fun y hy => absurd hy List.not_mem_nil
      rw [hx]
      cases bx with
      | false => exact ⟨false, rfl⟩
      | true =>
        apply ih.mpr
        intro front y back hxs hfront
        apply h (x :: front) y back (by rw [hxs]; rfl)
        exact List.forall_mem_cons.mpr ⟨hx, hfront⟩

lemma exists_of_forall₂ {R : α → β → Prop} {xs : List α} {ys : List β} (h : List.Forall₂ R xs ys)
    {y : β} (hy : y ∈ ys) : ∃ x ∈ xs, R x y := by
  induction h with
  | nil => cases hy
  | cons hr _ ih =>
    rcases List.mem_cons.mp hy with rfl | hin
    · exact ⟨_, List.mem_cons_self, hr⟩
    · obtain ⟨x, hx, hr'⟩ := ih hin
      exact ⟨x, List.mem_cons_of_mem _ hx, hr'⟩

/-- What every result of a computation over a list has. -/
lemma forall_of_mapM {P : β → Prop} {f : α → Except ε β} {xs : List α} {ys : List β}
    (h : xs.mapM f = .ok ys) (hf : ∀ x ∈ xs, ∀ y, f x = .ok y → P y) : ∀ y ∈ ys, P y := by
  intro y hy
  obtain ⟨x, hx, hxy⟩ := exists_of_forall₂ (mapM_ok h) hy
  exact hf x hx y hxy

end ChatBI.Lib
