import Mathlib.Logic.Function.Basic
import Mathlib.Tactic.Lemma

/-!
# Lists addressed by the last position of a key

A list together with an index from keys to positions. Putting an item overwrites the position
that the index has for its key, or appends the item when the index has none.
-/

namespace ChatBI.Lib

structure Slots (κ α : Type) where
  items : List α
  positions : κ → Option Nat

namespace Slots

variable {κ α : Type} [DecidableEq κ] (key : α → κ)

def append (s : Slots κ α) (a : α) : Slots κ α where
  items := s.items ++ [a]
  positions := Function.update s.positions (key a) (some s.items.length)

/-- The index of a list: the position of a key is the last one that has it. -/
def ofList (items : List α) : Slots κ α :=
  items.foldl (append key) ⟨[], fun _ => none⟩

def put (s : Slots κ α) (a : α) : Slots κ α :=
  match s.positions (key a) with
  | none => append key s a
  | some i => { s with items := s.items.set i a }

/-- The items that have a key, in their order. -/
def on (items : List α) (k : κ) : List α := items.filter (fun a => key a = k)

/-- The index points at the last occurrence of every key. It depends on the keys only, so
overwriting an item by one of the same key keeps it. -/
def Indexed (s : Slots κ α) : Prop :=
  ∀ k, match s.positions k with
    | none => k ∉ s.items.map key
    | some i => ∃ before after, s.items.map key = before ++ k :: after ∧ before.length = i ∧
        k ∉ after

variable {key} {s : Slots κ α} {a : α} {items : List α} {k : κ}

theorem on_append (xs ys : List α) : on key (xs ++ ys) k = on key xs k ++ on key ys k :=
  List.filter_append xs ys

theorem on_cons_of_eq (h : key a = k) : on key (a :: items) k = a :: on key items k := by
  simp [on, h]

theorem on_cons_of_ne (h : key a ≠ k) : on key (a :: items) k = on key items k := by
  simp [on, h]

theorem on_eq_nil_iff : on key items k = [] ↔ k ∉ items.map key := by
  simp [on]

theorem Indexed.append (h : s.Indexed key) : (append key s a).Indexed key := by
  intro k
  by_cases hk : k = key a
  · subst hk
    simp only [Slots.append, Function.update_self]
    exact ⟨s.items.map key, [], by simp, by simp, by simp⟩
  · have hs := h k
    simp only [Slots.append, Function.update_of_ne hk]
    cases hp : s.positions k with
    | none =>
      simp only [hp] at hs ⊢
      simpa [hk] using hs
    | some i =>
      simp only [hp] at hs ⊢
      obtain ⟨before, after, hitems, hlen, hafter⟩ := hs
      exact ⟨before, after ++ [key a], by simp [hitems], hlen, by simp [hafter, hk]⟩

theorem indexed_foldl_append (h : s.Indexed key) :
    (items.foldl (append key) s).Indexed key ∧
      (items.foldl (append key) s).items = s.items ++ items := by
  induction items generalizing s with
  | nil => exact ⟨h, by simp⟩
  | cons a rest ih =>
    have hs := ih (s := s.append key a) h.append
    refine ⟨hs.1, ?_⟩
    rw [List.foldl_cons, hs.2]
    simp [Slots.append]

theorem indexed_ofList : (ofList key items).Indexed key :=
  (indexed_foldl_append (s := ⟨[], fun _ => none⟩) (by intro k; simp)).1

theorem items_ofList : (ofList key items).items = items := by
  rw [ofList, (indexed_foldl_append (s := ⟨[], fun _ => none⟩) (by intro k; simp)).2]
  rfl

/-- Putting an item replaces the last item of its key and leaves the other keys alone. -/
theorem Indexed.put (h : s.Indexed key) (a : α) :
    (put key s a).Indexed key ∧
      on key (put key s a).items (key a) = (on key s.items (key a)).dropLast ++ [a] ∧
      ∀ k, k ≠ key a → on key (put key s a).items k = on key s.items k := by
  have ha := h (key a)
  cases hp : s.positions (key a) with
  | none =>
    have hput : Slots.put key s a = Slots.append key s a := by simp only [Slots.put, hp]
    have hnone : on key s.items (key a) = [] := on_eq_nil_iff.mpr (by simpa only [hp] using ha)
    have hitems : (Slots.append key s a).items = s.items ++ [a] := rfl
    rw [hput, hitems]
    refine ⟨h.append, ?_, ?_⟩
    · rw [on_append, hnone, on_cons_of_eq rfl]
      rfl
    · intro k hk
      rw [on_append, on_cons_of_ne (Ne.symm hk)]
      simp [on]
  | some i =>
    simp only [hp] at ha
    obtain ⟨ks, ls, hkeys, hlen, hafter⟩ := ha
    obtain ⟨before, tail, hitems, hbefore, htail⟩ := List.map_eq_append_iff.mp hkeys
    obtain ⟨b, after, rfl, hb, rfl⟩ := List.map_eq_cons_iff.mp htail
    have hput : (Slots.put key s a).items = before ++ a :: after := by
      simp [Slots.put, hp, hitems, ← hlen, ← hbefore]
    have hpos : (Slots.put key s a).positions = s.positions := by simp only [Slots.put, hp]
    have hsame : (Slots.put key s a).items.map key = s.items.map key := by
      rw [hput, hitems]
      simp [hb]
    have hnil : on key after (key a) = [] := on_eq_nil_iff.mpr hafter
    refine ⟨?_, ?_, ?_⟩
    · intro k
      rw [hpos, hsame]
      exact h k
    · rw [hput, hitems, on_append, on_append, on_cons_of_eq rfl, on_cons_of_eq hb, hnil]
      simp
    · intro k hk
      rw [hput, hitems, on_append, on_append, on_cons_of_ne (Ne.symm hk),
        on_cons_of_ne (hb ▸ Ne.symm hk)]

/-- What the items of a key are after putting a list of items one after another: the last item
that was put follows everything but the last of what was there. -/
theorem Indexed.on_foldl_put (h : s.Indexed key) (k : κ) :
    on key (items.foldl (Slots.put key) s).items k =
      (on key items k).getLast?.elim (on key s.items k)
        (fun a => (on key s.items k).dropLast ++ [a]) := by
  induction items generalizing s with
  | nil => rfl
  | cons a rest ih =>
    obtain ⟨hput, hself, hother⟩ := h.put a
    rw [List.foldl_cons, ih hput]
    by_cases hk : k = key a
    · subst hk
      rw [hself, on_cons_of_eq rfl, List.getLast?_cons]
      cases hr : (on key rest (key a)).getLast? with
      | none => rfl
      | some b => simp
    · rw [hother k hk, on_cons_of_ne (Ne.symm hk)]

end Slots

end ChatBI.Lib
