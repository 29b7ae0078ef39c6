import ChatBI.Lib.Dict
import Mathlib.Data.List.Dedup
import Mathlib.Data.List.Perm.Basic

/-!
# Adding up by key

A dictionary of sums: each entry is added to the value of its key. The sums do not depend on the
order of the entries.
-/

namespace ChatBI.Lib

/-- Elements with one value between them have the same value. -/
lemma eq_of_dedup_length {α β : Type} [DecidableEq β] {f : α → β} {xs : List α}
    (h : (xs.map f).dedup.length = 1) {a b : α} (ha : a ∈ xs) (hb : b ∈ xs) : f a = f b := by
  obtain ⟨y, hy⟩ := List.length_eq_one_iff.mp h
  have hall : ∀ x ∈ xs, f x = y := by
    intro x hx
    have hmem : f x ∈ (xs.map f).dedup := List.mem_dedup.mpr (List.mem_map_of_mem hx)
    rw [hy] at hmem
    exact List.mem_singleton.mp hmem
  rw [hall a ha, hall b hb]

namespace Dict

variable {κ β : Type} [DecidableEq κ]

/-- Adds a value to that of its key. -/
def tally (add : β → β → β) (d : Dict κ β) (e : κ × β) : Dict κ β :=
  set d e.1 (((get? d e.1).map (add · e.2)).getD e.2)

/-- Adds a value to a sum that may be empty. -/
def addTo (add : β → β → β) (sum : Option β) (v : β) : Option β :=
  some ((sum.map (add · v)).getD v)

variable {add : β → β → β} {d d' : Dict κ β} {k : κ}

lemma nodup_tally {e : κ × β} (h : (d.map Prod.fst).Nodup) :
    ((tally add d e).map Prod.fst).Nodup := nodup_set h

lemma nodup_foldl_tally {es : List (κ × β)} (h : (d.map Prod.fst).Nodup) :
    ((es.foldl (tally add) d).map Prod.fst).Nodup := by
  induction es generalizing d with
  | nil => exact h
  | cons e es ih => exact ih (nodup_tally h)

/-- The sum of a key is that of its entries. -/
lemma get?_foldl_tally (es : List (κ × β)) :
    get? (es.foldl (tally add) d) k =
      ((es.filter fun e => e.1 = k).map Prod.snd).foldl (addTo add) (get? d k) := by
  induction es generalizing d with
  | nil => rfl
  | cons e es ih =>
    rw [List.foldl_cons, ih]
    by_cases hk : e.1 = k
    · rw [List.filter_cons_of_pos (by simpa using hk), List.map_cons, List.foldl_cons]
      subst hk
      rw [tally, get?_set_self, addTo]
    · rw [List.filter_cons_of_neg (by simpa using hk), tally, get?_set_of_ne hk]

lemma get?_eq_some_iff (h : (d.map Prod.fst).Nodup) {v : β} : get? d k = some v ↔ (k, v) ∈ d := by
  induction d with
  | nil => simp
  | cons e d ih =>
    obtain ⟨k', v'⟩ := e
    rw [List.map_cons, List.nodup_cons] at h
    by_cases hk : k' = k
    · subst hk
      have hnot : (k', v) ∉ d := fun hin => h.1 (List.mem_map.mpr ⟨(k', v), hin, rfl⟩)
      simp [get?, hnot, eq_comm]
    · simp [get?, hk, Ne.symm hk, ih h.2]

/-- Two dictionaries with the same values have the same entries. -/
lemma perm_of_get?_eq (h : (d.map Prod.fst).Nodup) (h' : (d'.map Prod.fst).Nodup)
    (heq : ∀ k, get? d k = get? d' k) : d.Perm d' := by
  apply (List.perm_ext_iff_of_nodup h.of_map h'.of_map).mpr
  rintro ⟨k, v⟩
  rw [← get?_eq_some_iff h, ← get?_eq_some_iff h', heq k]

lemma get?_eq_of_perm (h : (d.map Prod.fst).Nodup) (hperm : d.Perm d') (k : κ) :
    get? d k = get? d' k := by
  have h' : (d'.map Prod.fst).Nodup := (hperm.map Prod.fst).nodup_iff.mp h
  ext v
  rw [get?_eq_some_iff h, get?_eq_some_iff h', hperm.mem_iff]

section Commutative

variable [hadd : RightCommutative add] [hcomm : Std.Commutative add]

instance : RightCommutative (addTo add) where
  right_comm sum v w := by
    cases sum with
    | none =>
      have h : add v w = add w v := hcomm.comm v w
      simp [addTo, h]
    | some s =>
      have h : add (add s v) w = add (add s w) v := hadd.right_comm s v w
      simp [addTo, h]

/-- The sums of entries in another order. -/
lemma foldl_tally_perm {es es' : List (κ × β)} (h : (d.map Prod.fst).Nodup) (hes : es.Perm es') :
    (es.foldl (tally add) d).Perm (es'.foldl (tally add) d) := by
  apply perm_of_get?_eq (nodup_foldl_tally h) (nodup_foldl_tally h)
  intro k
  rw [get?_foldl_tally, get?_foldl_tally]
  exact ((hes.filter _).map Prod.snd).foldl_eq _

end Commutative

end Dict

end ChatBI.Lib
