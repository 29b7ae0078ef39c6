import Mathlib.Logic.Function.Basic
import Mathlib.Tactic.Lemma

/-!
# Owned resources of a shared store

Agents work on one store. Each of them changes what it owns and what does not exist yet, takes only
what did not exist, and may hand over all it has; what the others own stays as it is.
-/

namespace ChatBI.Lib

namespace Ownership

variable {ι κ β : Type} {owns owns' : ι → κ → Prop} {store store' : κ → Option β} {i j : ι} {r : κ}

/-- Every owned resource exists and has one owner. -/
structure Exclusive (owns : ι → κ → Prop) (store : κ → Option β) : Prop where
  present : ∀ i r, owns i r → store r ≠ none
  unique : ∀ i j r, owns i r → owns j r → i = j

/-- A step of one agent on its own resources and on those that do not exist. -/
structure Acts (owns owns' : ι → κ → Prop) (store store' : κ → Option β) (i : ι) : Prop where
  frame : ∀ r, store' r ≠ store r → owns i r ∨ store r = none
  gains : ∀ r, owns' i r → owns i r ∨ store r = none
  kept : ∀ r, owns' i r → store' r ≠ none
  others : ∀ j, j ≠ i → ∀ r, owns' j r → owns j r

/-- An agent leaves what the others own as it is. -/
lemma Acts.store_eq (h : Acts owns owns' store store' i) (hexclusive : Exclusive owns store)
    (hj : j ≠ i) (hr : owns j r) : store' r = store r := by
  by_contra hne
  rcases h.frame r hne with hown | hnone
  · exact hj (hexclusive.unique j i r hr hown)
  · exact hexclusive.present j r hr hnone

theorem Acts.exclusive (h : Acts owns owns' store store' i) (hexclusive : Exclusive owns store) :
    Exclusive owns' store' := by
  have hgain : ∀ j r, j ≠ i → owns' j r → ¬owns' i r := by
    intro j r hj hr hi
    rcases h.gains r hi with hown | hnone
    · exact hj (hexclusive.unique j i r (h.others j hj r hr) hown)
    · exact hexclusive.present j r (h.others j hj r hr) hnone
  refine ⟨?_, ?_⟩
  · intro j r hr
    by_cases hj : j = i
    · subst hj
      exact h.kept r hr
    · rw [h.store_eq hexclusive hj (h.others j hj r hr)]
      exact hexclusive.present j r (h.others j hj r hr)
  · intro j k r hr hk
    by_cases hj : j = i
    · subst hj
      by_contra hne
      exact hgain k r (Ne.symm hne) hk hr
    · by_cases hki : k = i
      · subst hki
        exact absurd hk (hgain j r hj hr)
      · exact hexclusive.unique j k r (h.others j hj r hr) (h.others k hki r hk)

/-- One agent hands all it has to another one. -/
structure HandsOver (owns owns' : ι → κ → Prop) (i j : ι) : Prop where
  giver : ∀ r, ¬owns' i r
  taker : ∀ r, owns' j r → owns j r ∨ owns i r
  others : ∀ k, k ≠ i → k ≠ j → ∀ r, owns' k r → owns k r

theorem HandsOver.exclusive (h : HandsOver owns owns' i j) (hexclusive : Exclusive owns store) :
    Exclusive owns' store := by
  -- what an agent has now, it had before or it had from the giver
  have hbefore : ∀ k r, owns' k r → owns k r ∨ (k = j ∧ owns i r) := by
    intro k r hr
    by_cases hk : k = j
    · subst hk
      exact (h.taker r hr).imp_right fun hi => ⟨rfl, hi⟩
    · by_cases hki : k = i
      · subst hki
        exact absurd hr (h.giver r)
      · exact .inl (h.others k hki hk r hr)
  have hnot : ∀ k r, owns' k r → k ≠ i := by
    rintro k r hr rfl
    exact h.giver r hr
  refine ⟨?_, ?_⟩
  · intro k r hr
    rcases hbefore k r hr with hown | ⟨-, hown⟩
    · exact hexclusive.present k r hown
    · exact hexclusive.present i r hown
  · intro k l r hk hl
    rcases hbefore k r hk with hown | ⟨rfl, hown⟩ <;> rcases hbefore l r hl with hown' | ⟨rfl, hown'⟩
    · exact hexclusive.unique k l r hown hown'
    · exact absurd (hexclusive.unique k i r hown hown') (hnot k r hk)
    · exact absurd (hexclusive.unique l i r hown' hown) (hnot l r hl)
    · rfl

end Ownership

end ChatBI.Lib
