import Mathlib.Data.List.Sort
import Mathlib.Order.Basic

/-!
# Keyset pagination

A page holds the first rows behind a key, and one row more is looked for to tell whether another
page follows. The cursor of the next page is that of the last row. Rows with distinct keys are
all delivered, once and in order.
-/

namespace ChatBI.Lib

/-- The first `n` elements of a sorted list are in order, and no other one is before them. -/
theorem take_insertionSort {α : Type} (r : α → α → Prop) [DecidableRel r] [Std.Total r] [IsTrans α r]
    (xs : List α) (n : Nat) :
    (∀ x ∈ (xs.insertionSort r).take n, x ∈ xs) ∧
    ((xs.insertionSort r).take n).length = min n xs.length ∧
    ((xs.insertionSort r).take n).Pairwise r ∧
    ∀ x ∈ xs, x ∉ (xs.insertionSort r).take n → ∀ y ∈ (xs.insertionSort r).take n, r y x := by
  have hperm := List.perm_insertionSort r xs
  have hsorted := List.pairwise_insertionSort r xs
  refine ⟨?_, ?_, hsorted.sublist (List.take_sublist n _), ?_⟩
  · intro x hx
    exact hperm.subset (List.mem_of_mem_take hx)
  · rw [List.length_take, List.length_insertionSort]
  · intro x hx hout y hy
    have hall := hperm.symm.subset hx
    rw [← List.take_append_drop n (xs.insertionSort r)] at hall hsorted
    rcases List.mem_append.mp hall with hin | hrest
    · exact absurd hin hout
    · exact (List.pairwise_append.mp hsorted).2.2 y hy x hrest

namespace Keyset

variable {α κ : Type} [LinearOrder κ] {key : α → κ}

/-- The rows in the order of their keys. -/
def ordered (key : α → κ) (rows : List α) : List α :=
  rows.mergeSort fun a b => decide (key a ≤ key b)

/-- The row is behind the key. -/
def isBehind (key : α → κ) (k : κ) (row : α) : Bool := decide (k < key row)

/-- The keys ascend strictly. -/
abbrev Ascending (key : α → κ) (rows : List α) : Prop := rows.Pairwise fun a b => key a < key b

lemma ordered_perm (rows : List α) : (ordered key rows).Perm rows := List.mergeSort_perm _ _

lemma ascending_ordered {rows : List α} (h : rows.Pairwise fun a b => key a ≠ key b) :
    Ascending key (ordered key rows) := by
  have hsorted : (ordered key rows).Pairwise fun a b => key a ≤ key b := by
    have htrans : ∀ a b c : α, decide (key a ≤ key b) = true → decide (key b ≤ key c) = true →
        decide (key a ≤ key c) = true := by
      intro a b c hab hbc
      exact decide_eq_true ((of_decide_eq_true hab).trans (of_decide_eq_true hbc))
    have htotal : ∀ a b : α, (decide (key a ≤ key b) || decide (key b ≤ key a)) = true := by
      intro a b
      rw [Bool.or_eq_true, decide_eq_true_eq, decide_eq_true_eq]
      exact le_total _ _
    exact (List.pairwise_mergeSort htrans htotal rows).imp fun hab => of_decide_eq_true hab
  have hdistinct : (ordered key rows).Pairwise fun a b => key a ≠ key b :=
    (ordered_perm rows).symm.pairwise h fun hne => hne.symm
  exact (hsorted.and hdistinct).imp fun hab => lt_of_le_of_ne hab.1 hab.2

/-- A condition selects from the ordered rows. -/
lemma ordered_filter {rows : List α} (h : rows.Pairwise fun a b => key a ≠ key b) (p : α → Bool) :
    ordered key (rows.filter p) = (ordered key rows).filter p := by
  have hperm : (ordered key (rows.filter p)).Perm ((ordered key rows).filter p) :=
    (ordered_perm _).trans ((ordered_perm rows).symm.filter p)
  have hleft : Ascending key (ordered key (rows.filter p)) := ascending_ordered (h.filter p)
  have hright : Ascending key ((ordered key rows).filter p) := (ascending_ordered h).filter p
  exact hperm.eq_of_pairwise (fun a b _ _ hab hba => absurd hab (lt_asymm hba)) hleft hright

/-- The rows behind one of them. -/
lemma filter_after {before after : List α} {x : α}
    (h : Ascending key (before ++ x :: after)) :
    (before ++ x :: after).filter (isBehind key (key x)) = after := by
  obtain ⟨-, hafter, hbefore⟩ := List.pairwise_append.mp h
  have hfront : before.filter (isBehind key (key x)) = [] := by
    apply List.filter_eq_nil_iff.mpr
    intro y hy hlt
    exact lt_asymm (hbefore y hy x List.mem_cons_self) (of_decide_eq_true hlt)
  have hback : after.filter (isBehind key (key x)) = after := by
    apply List.filter_eq_self.mpr
    intro y hy
    exact decide_eq_true ((List.pairwise_cons.mp hafter).1 y hy)
  rw [List.filter_append, hfront, List.nil_append, List.filter_cons, if_neg, hback]
  intro hlt
  exact lt_irrefl _ (of_decide_eq_true hlt)

variable {β γ ε : Type}

/-- The page of the rows that are left: its items, and the cursor of the next page. -/
def page (limit : ℕ) (item : α → β) (cursor : α → γ) (rows : List α) : List β × Option γ :=
  ((rows.take limit).map item,
    if limit < rows.length then (rows.take limit).getLast?.map cursor else none)

/-- The items of all pages from a cursor to the end. -/
inductive Followed (fetch : Option γ → Except ε (List β × Option γ)) : Option γ → List β → Prop
  | last {start : Option γ} {items : List β} (h : fetch start = .ok (items, none)) :
      Followed fetch start items
  | next {start : Option γ} {items rest : List β} {cursor : γ}
      (h : fetch start = .ok (items, some cursor)) (hrest : Followed fetch (some cursor) rest) :
      Followed fetch start (items ++ rest)

variable {fetch : Option γ → Except ε (List β × Option γ)} {item : α → β} {cursor : α → γ}
  {rows : List α} {limit : ℕ}

/-- What is followed is determined by the pages. -/
lemma Followed.unique {start : Option γ} {items items' : List β} (h : Followed fetch start items)
    (h' : Followed fetch start items') : items = items' := by
  induction h generalizing items' with
  | last hpage =>
    cases h' with
    | last hpage' =>
      rw [hpage] at hpage'
      cases hpage'
      rfl
    | next hpage' _ =>
      rw [hpage] at hpage'
      cases hpage'
  | next hpage _ ih =>
    cases h' with
    | last hpage' =>
      rw [hpage] at hpage'
      cases hpage'
    | next hpage' hrest' =>
      rw [hpage] at hpage'
      cases hpage'
      rw [ih hrest']

/-- Pages of the rows behind the last one deliver all rows, in their order. -/
theorem followed (hrows : Ascending key rows) (hlimit : 1 ≤ limit)
    (hfirst : fetch none = .ok (page limit item cursor rows))
    (hnext : ∀ x ∈ rows, fetch (some (cursor x)) =
      .ok (page limit item cursor (rows.filter (isBehind key (key x))))) :
    Followed fetch none (rows.map item) := by
  have hfrom : ∀ (n : ℕ) (before after : List α) (start : Option γ), after.length ≤ n →
      rows = before ++ after → fetch start = .ok (page limit item cursor after) →
      Followed fetch start (after.map item) := by
    intro n
    -- the rows that are left get fewer by a page
    induction n with
    | zero =>
      intro before after start hlength _ hpage
      obtain rfl := List.length_eq_zero_iff.mp (Nat.le_zero.mp hlength)
      rw [page, List.take_nil, List.length_nil, if_neg (Nat.not_lt_zero limit)] at hpage
      exact .last hpage
    | succ n ih =>
      intro before after start hlength hsplit hpage
      unfold page at hpage
      by_cases hmore : limit < after.length
      · have hne : after.take limit ≠ [] := by
          intro hnil
          have hzero := congrArg List.length hnil
          rw [List.length_take, List.length_nil] at hzero
          omega
        obtain ⟨front, x, htake⟩ : ∃ front x, after.take limit = front ++ [x] :=
          ⟨_, _, (List.dropLast_append_getLast hne).symm⟩
        have hafter : after = front ++ x :: after.drop limit := by
          conv_lhs => rw [← List.take_append_drop limit after, htake]
          rw [List.append_assoc, List.singleton_append]
        have hsplit' : rows = (before ++ front) ++ x :: after.drop limit := by
          rw [hsplit, List.append_assoc, ← hafter]
        have hleft : rows.filter (isBehind key (key x)) = after.drop limit := by
          rw [hsplit'] at hrows ⊢
          exact filter_after hrows
        have hx : x ∈ rows := by
          rw [hsplit']
          exact List.mem_append_right _ List.mem_cons_self
        have hpage' := hnext x hx
        rw [hleft] at hpage'
        rw [if_pos hmore, htake, List.getLast?_concat, Option.map_some, ← htake] at hpage
        have hdrop : (after.drop limit).length ≤ n := by
          rw [List.length_drop]
          omega
        have hrest := ih (before ++ front ++ [x]) (after.drop limit) (some (cursor x)) hdrop
          (by rw [hsplit', List.append_assoc (before ++ front), List.singleton_append]) hpage'
        have hall := Followed.next hpage hrest
        rw [← List.map_append, List.take_append_drop] at hall
        exact hall
      · rw [if_neg hmore, List.take_of_length_le (not_lt.mp hmore)] at hpage
        exact .last hpage
  exact hfrom rows.length [] rows none le_rfl rfl hfirst

end Keyset

end ChatBI.Lib
