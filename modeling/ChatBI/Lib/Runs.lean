import Mathlib.Data.List.DropRight
import Mathlib.Data.List.SplitBy
import Mathlib.Tactic.Lemma

/-!
# Occurrences that cut no run

A relation joins neighbours of a list to runs. A part may occur in a list with its ends inside
longer runs; it is there whole when its runs are consecutive runs of the list.
-/

namespace ChatBI.Lib

variable {α : Type} {r : α → α → Bool} {part text before after : List α}

/-- The last element of the first list and the first one of the second belong to one run. -/
def Joined (r : α → α → Bool) (before after : List α) : Prop :=
  ∃ a ∈ before.getLast?, ∃ b ∈ after.head?, r a b = true

/-- The part occurs, and at neither end a run goes on. -/
def OccursWhole (r : α → α → Bool) (part text : List α) : Prop :=
  ∃ before after, text = before ++ (part ++ after) ∧ ¬Joined r before part ∧ ¬Joined r part after

lemma splitBy_append_of_not_joined (h : ¬Joined r before after) :
    (before ++ after).splitBy r = before.splitBy r ++ after.splitBy r := by
  apply List.splitBy_append
  intro a ha b hb
  by_contra hjoined
  exact h ⟨a, ha, b, hb, by simpa using hjoined⟩

/-- Between the runs of a list nothing is joined. -/
lemma not_joined_flatten {runs runs' : List (List α)} (h : text.splitBy r = runs ++ runs') :
    ¬Joined r runs.flatten runs'.flatten := by
  rintro ⟨a, ha, b, hb, hab⟩
  have hne : ∀ run ∈ runs ++ runs', run ≠ [] := by
    intro run hrun
    rw [← h] at hrun
    exact List.ne_nil_of_mem_splitBy hrun
  have hchain := List.isChain_getLast_head_splitBy r text
  rw [h, List.isChain_append] at hchain
  rcases List.eq_nil_or_concat runs with rfl | ⟨init, last, rfl⟩
  · cases ha
  · cases runs' with
    | nil => cases hb
    | cons first rest =>
      have hlast : last ≠ [] := hne last (by simp)
      have hfirst : first ≠ [] := hne first (by simp)
      obtain ⟨_, _, hfree⟩ := hchain.2.2 last (by simp) first (by simp)
      rw [List.concat_eq_append, List.flatten_append, List.flatten_singleton,
        List.getLast?_append_of_ne_nil _ hlast, List.getLast?_eq_some_getLast hlast] at ha
      rw [List.flatten_cons, List.head?_append_of_ne_nil _ hfirst, List.head?_eq_some_head hfirst]
        at hb
      cases ha
      cases hb
      rw [hab] at hfree
      cases hfree

/-- The rest of the runs are the runs of the rest. -/
lemma splitBy_flatten_right {runs runs' : List (List α)} (h : text.splitBy r = runs ++ runs') :
    runs'.flatten.splitBy r = runs' := by
  obtain ⟨-, hne, hruns, hchain⟩ := List.splitBy_eq_iff.mp h
  apply List.splitBy_flatten
  · intro hnil
    exact hne (List.mem_append_right _ hnil)
  · intro run hrun
    exact hruns run (List.mem_append_right _ hrun)
  · exact (List.isChain_append.mp hchain).2.1

/-- A part is there whole exactly when its runs are consecutive runs. -/
theorem occursWhole_iff : OccursWhole r part text ↔ part.splitBy r <:+: text.splitBy r := by
  constructor
  · rintro ⟨before, after, rfl, hbefore, hafter⟩
    by_cases hpart : part = []
    · rw [hpart]
      exact List.nil_infix
    · have hjoined : ¬Joined r before (part ++ after) := by
        rintro ⟨a, ha, b, hb, hab⟩
        rw [List.head?_append_of_ne_nil _ hpart] at hb
        exact hbefore ⟨a, ha, b, hb, hab⟩
      rw [splitBy_append_of_not_joined hjoined, splitBy_append_of_not_joined hafter]
      exact ⟨before.splitBy r, after.splitBy r, List.append_assoc _ _ _⟩
  · rintro ⟨runs, runs', h⟩
    rw [List.append_assoc] at h
    have hrest := splitBy_flatten_right h.symm
    have htext : text = runs.flatten ++ (part ++ runs'.flatten) := by
      have hflatten := congrArg List.flatten h
      rw [List.flatten_append, List.flatten_append, List.flatten_splitBy, List.flatten_splitBy]
        at hflatten
      exact hflatten.symm
    have hbefore := not_joined_flatten h.symm
    have hafter := not_joined_flatten hrest
    rw [List.flatten_append, List.flatten_splitBy] at hbefore
    rw [List.flatten_splitBy] at hafter
    by_cases hpart : part = []
    · refine ⟨[], text, by rw [hpart]; rfl, ?_, ?_⟩
      · rintro ⟨a, ha, -⟩
        cases ha
      · rintro ⟨a, ha, -⟩
        rw [hpart] at ha
        cases ha
    · refine ⟨runs.flatten, runs'.flatten, htext, ?_, hafter⟩
      rintro ⟨a, ha, b, hb, hab⟩
      apply hbefore
      refine ⟨a, ha, b, ?_, hab⟩
      rw [List.head?_append_of_ne_nil _ hpart]
      exact hb

section LastRun

variable {p : α → Bool}

lemma rtakeWhile_append_of_pos (h : ∀ a ∈ part, p a = true) :
    (before ++ part).rtakeWhile p = before.rtakeWhile p ++ part := by
  unfold List.rtakeWhile
  rw [List.reverse_append, List.takeWhile_append_of_pos, List.reverse_append, List.reverse_reverse]
  exact fun a ha => h a (List.mem_reverse.mp ha)

lemma rdropWhile_append_of_pos (h : ∀ a ∈ part, p a = true) :
    (before ++ part).rdropWhile p = before.rdropWhile p := by
  unfold List.rdropWhile
  rw [List.reverse_append, List.dropWhile_append_of_pos]
  exact fun a ha => h a (List.mem_reverse.mp ha)

/-- The last run of a text ends with a part of its elements as the text does. -/
lemma suffix_rtakeWhile_iff (h : ∀ a ∈ part, p a = true) :
    part <:+ text.rtakeWhile p ↔ part <:+ text := by
  constructor
  · exact fun hsuffix => hsuffix.trans (List.rtakeWhile_suffix p text)
  · rintro ⟨before, rfl⟩
    rw [rtakeWhile_append_of_pos h]
    exact List.suffix_append _ part

/-- A part is the last run of a text when the run does not begin before it. -/
lemma rtakeWhile_eq_iff (h : ∀ a ∈ part, p a = true) : text.rtakeWhile p = part ↔
    ∃ before, text = before ++ part ∧ ∀ a ∈ before.getLast?, p a = false := by
  constructor
  · rintro rfl
    refine ⟨text.rdropWhile p, List.rdropWhile_append_rtakeWhile.symm, ?_⟩
    intro a ha
    have hne : text.rdropWhile p ≠ [] := List.ne_nil_of_mem (List.mem_of_mem_getLast? ha)
    rw [List.getLast?_eq_some_getLast hne, Option.mem_some_iff] at ha
    rw [← ha]
    exact Bool.eq_false_iff.mpr (List.rdropWhile_last_not p text hne)
  · rintro ⟨before, rfl, hlast⟩
    have hnone : before.rtakeWhile p = [] := by
      rw [List.rtakeWhile_eq_nil_iff]
      intro hne
      rw [hlast _ (List.getLast?_eq_some_getLast hne)]
      exact Bool.false_ne_true
    rw [rtakeWhile_append_of_pos h, hnone, List.nil_append]

end LastRun

end ChatBI.Lib
