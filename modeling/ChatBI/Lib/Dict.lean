import Mathlib.Algebra.Ring.Nat
import Mathlib.Data.List.Nodup

/-!
# Insertion ordered dictionaries

A dictionary is the list of its entries in the order in which their keys were first set. A key
that is set again keeps its place.
-/

namespace ChatBI.Lib

abbrev Dict (κ β : Type) := List (κ × β)

namespace Dict

variable {κ β : Type} [DecidableEq κ]

def get? : Dict κ β → κ → Option β
  | [], _ => none
  | (k, v) :: d, k' => if k = k' then some v else get? d k'

def set : Dict κ β → κ → β → Dict κ β
  | [], k, v => [(k, v)]
  | (k', v') :: d, k, v => if k' = k then (k, v) :: d else (k', v') :: set d k v

variable {d : Dict κ β} {k k' : κ} {v w : β}

@[simp] lemma get?_nil : get? ([] : Dict κ β) k = none := rfl

lemma get?_cons : get? ((k', w) :: d) k = if k' = k then some w else get? d k := rfl

lemma set_nil : set [] k v = [(k, v)] := rfl

lemma set_cons : set ((k', w) :: d) k v = if k' = k then (k, v) :: d else (k', w) :: set d k v := rfl

@[simp] lemma get?_set_self : get? (set d k v) k = some v := by
  induction d with
  | nil => simp [set_nil, get?_cons]
  | cons e d ih =>
    obtain ⟨k', v'⟩ := e
    by_cases h : k' = k
    · simp [set_cons, get?_cons, h]
    · simp [set_cons, get?_cons, h, ih]

lemma get?_set_of_ne (h : k ≠ k') : get? (set d k v) k' = get? d k' := by
  induction d with
  | nil => simp [set_nil, get?_cons, h]
  | cons e d ih =>
    obtain ⟨k'', v'⟩ := e
    by_cases hk : k'' = k
    · subst hk
      simp [set_cons, get?_cons, h]
    · by_cases hk' : k'' = k'
      · subst hk'
        simp [set_cons, get?_cons, hk]
      · simp [set_cons, get?_cons, hk, hk', ih]

/-- Setting a key twice is setting it once. -/
lemma set_set : set (set d k v) k w = set d k w := by
  induction d with
  | nil => simp [set_nil, set_cons]
  | cons e d ih =>
    obtain ⟨k', v'⟩ := e
    by_cases h : k' = k
    · simp [set_cons, h]
    · simp [set_cons, h, ih]

/-- A key that is present can be set before or after another one. -/
lemma set_comm (h : k ≠ k') (hk : get? d k ≠ none) :
    set (set d k' w) k v = set (set d k v) k' w := by
  induction d with
  | nil => exact absurd rfl hk
  | cons e d ih =>
    obtain ⟨k'', v'⟩ := e
    by_cases h₁ : k'' = k
    · subst h₁
      simp [set_cons, h]
    · have hrest : get? d k ≠ none := by simpa [get?_cons, h₁] using hk
      by_cases h₂ : k'' = k'
      · subst h₂
        simp [set_cons, h₁]
      · simp [set_cons, h₁, h₂, ih hrest]

lemma set_of_get?_none (h : get? d k = none) : set d k v = d ++ [(k, v)] := by
  induction d with
  | nil => rfl
  | cons e d ih =>
    obtain ⟨k', v'⟩ := e
    by_cases hk : k' = k
    · simp [get?_cons, hk] at h
    · have hrest : get? d k = none := by simpa [get?_cons, hk] using h
      simp [set_cons, hk, ih hrest]

lemma set_ne_nil : set d k v ≠ [] := by
  cases d with
  | nil => exact List.cons_ne_nil _ _
  | cons e d =>
    obtain ⟨k', v'⟩ := e
    rw [set_cons]
    split <;> exact List.cons_ne_nil _ _

lemma mem_set {e : κ × β} (h : e ∈ set d k v) : e ∈ d ∨ e = (k, v) := by
  induction d with
  | nil => exact .inr (List.mem_singleton.mp h)
  | cons e' d ih =>
    obtain ⟨k', v'⟩ := e'
    rw [set_cons] at h
    split at h
    · rcases List.mem_cons.mp h with h | h
      · exact .inr h
      · exact .inl (List.mem_cons_of_mem _ h)
    · rcases List.mem_cons.mp h with h | h
      · exact .inl (h ▸ List.mem_cons_self)
      · rcases ih h with h | h
        · exact .inl (List.mem_cons_of_mem _ h)
        · exact .inr h

lemma mem_map_fst_iff : k ∈ d.map Prod.fst ↔ get? d k ≠ none := by
  induction d with
  | nil => simp
  | cons e d ih =>
    obtain ⟨k', v'⟩ := e
    by_cases h : k' = k
    · simp [get?_cons, h]
    · simp [get?_cons, h, Ne.symm h, ← ih]

lemma mem_of_get? (h : get? d k = some v) : (k, v) ∈ d := by
  induction d with
  | nil => cases h
  | cons e d ih =>
    obtain ⟨k', v'⟩ := e
    rw [get?_cons] at h
    split at h
    · next hk =>
      cases h
      rw [hk]
      exact List.mem_cons_self
    · exact List.mem_cons_of_mem _ (ih h)

lemma get?_of_mem (hnodup : (d.map Prod.fst).Nodup) (h : (k, v) ∈ d) : get? d k = some v := by
  induction d with
  | nil => cases h
  | cons e d ih =>
    obtain ⟨k', v'⟩ := e
    obtain ⟨hnew, hnodup⟩ := List.nodup_cons.mp hnodup
    rw [get?_cons]
    rcases List.mem_cons.mp h with heq | hin
    · obtain ⟨rfl, rfl⟩ := Prod.mk.inj heq
      exact if_pos rfl
    · rw [if_neg, ih hnodup hin]
      rintro rfl
      exact hnew (List.mem_map.mpr ⟨_, hin, rfl⟩)

lemma keys_set : (set d k v).map Prod.fst =
    if get? d k = none then d.map Prod.fst ++ [k] else d.map Prod.fst := by
  induction d with
  | nil => rfl
  | cons e d ih =>
    obtain ⟨k', v'⟩ := e
    by_cases h : k' = k
    · simp [set_cons, get?_cons, h]
    · rw [set_cons, if_neg h, List.map_cons, ih]
      simp only [get?_cons, if_neg h]
      split <;> rfl

lemma nodup_set (h : (d.map Prod.fst).Nodup) : ((set d k v).map Prod.fst).Nodup := by
  rw [keys_set]
  split
  · next hk =>
    refine List.nodup_append.mpr ⟨h, List.nodup_singleton k, ?_⟩
    intro a ha b hb hab
    have hb := List.mem_singleton.mp hb
    subst hb
    exact mem_map_fst_iff.mp (hab ▸ ha) hk
  · exact h

/-- Setting a key exchanges its part of a sum. -/
lemma sum_set (f : β → Nat) :
    ((set d k v).map fun e => f e.2).sum + ((get? d k).map f).getD 0 =
      (d.map fun e => f e.2).sum + f v := by
  induction d with
  | nil => simp [set_nil]
  | cons e d ih =>
    obtain ⟨k', v'⟩ := e
    by_cases h : k' = k
    · simp only [set_cons, get?_cons, h, if_true, List.map_cons, List.sum_cons, Option.map_some,
        Option.getD_some]
      omega
    · simp only [set_cons, get?_cons, if_neg h, List.map_cons, List.sum_cons]
      omega

end Dict

end ChatBI.Lib
