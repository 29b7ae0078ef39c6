import Mathlib.Data.List.Basic
import Mathlib.Tactic.Lemma

/-!
# Left joins over keyed tables

Rows of nullable values, the truth values of SQL, keys of tables and chains of left joins. A left
join whose condition fixes the values of a key keeps the rows of its left side, each once.
-/

namespace ChatBI.Lib

namespace Relational

/-- A row: the value of each column, `none` for null. -/
abbrev Row (κ ν : Type) := κ → Option ν

section Truth

/-- `AND` of truth values, `none` for unknown. -/
def and3 : Option Bool → Option Bool → Option Bool
  | some false, _ => some false
  | _, some false => some false
  | some true, some true => some true
  | _, _ => none

/-- `=` of values: unknown when one of them is null. -/
def eq3 {ν : Type} [DecidableEq ν] : Option ν → Option ν → Option Bool
  | some v, some w => some (decide (v = w))
  | _, _ => none

@[simp] lemma and3_eq_true {p q : Option Bool} : and3 p q = some true ↔ p = some true ∧ q = some true := by
  rcases p with _ | _ | _ <;> rcases q with _ | _ | _ <;> simp [and3]

@[simp] lemma eq3_eq_true {ν : Type} [DecidableEq ν] {v w : Option ν} :
    eq3 v w = some true ↔ v ≠ none ∧ v = w := by
  cases v with
  | none => cases w <;> simp [eq3]
  | some v => cases w <;> simp [eq3]

end Truth

section Keys

variable {κ ν : Type}

/-- No two rows agree on all the columns without a null: a primary key or a unique constraint. -/
def IsKey (columns : List κ) (rows : List (Row κ ν)) : Prop :=
  rows.Pairwise fun r r' => ¬∀ c ∈ columns, r c ≠ none ∧ r c = r' c

/-- A condition that fixes the values in the columns of a key holds of at most one row. -/
lemma IsKey.length_filter_le {columns : List κ} {rows : List (Row κ ν)} (h : IsKey columns rows)
    {p : Row κ ν → Bool}
    (hp : ∀ c ∈ columns, ∃ value, ∀ r ∈ rows, p r = true → r c ≠ none ∧ r c = value) :
    (rows.filter p).length ≤ 1 := by
  induction rows with
  | nil => simp
  | cons r rows ih =>
    obtain ⟨hr, hrows⟩ := List.pairwise_cons.mp h
    have htail := ih hrows fun c hc =>
      (hp c hc).imp fun value hvalue r' hr' => hvalue r' (List.mem_cons_of_mem _ hr')
    by_cases hpr : p r = true
    · have hnil : rows.filter p = [] := by
        rw [List.filter_eq_nil_iff]
        intro r' hr' hpr'
        apply hr r' hr'
        intro c hc
        obtain ⟨value, hvalue⟩ := hp c hc
        have hleft := hvalue r List.mem_cons_self hpr
        have hright := hvalue r' (List.mem_cons_of_mem _ hr') hpr'
        exact ⟨hleft.1, hleft.2.trans hright.2.symm⟩
      rw [List.filter_cons_of_pos hpr, hnil]
      simp
    · rw [List.filter_cons_of_neg hpr]
      exact htail

end Keys

section Joins

variable {α β γ : Type}

/-- A left join: every row of the left side with its matches, or once without a match. -/
def leftJoin (on : α → β → Bool) (left : List α) (right : List β) : List (α × Option β) :=
  left.flatMap fun a =>
    if right.filter (on a) = [] then [(a, none)] else (right.filter (on a)).map fun b => (a, some b)

/-- No row of the left side is lost or repeated when each has at most one match. -/
lemma leftJoin_map_fst {on : α → β → Bool} {left : List α} {right : List β}
    (h : ∀ a ∈ left, (right.filter (on a)).length ≤ 1) :
    (leftJoin on left right).map Prod.fst = left := by
  induction left with
  | nil => rfl
  | cons a left ih =>
    have htail := ih fun a' ha' => h a' (List.mem_cons_of_mem _ ha')
    have hhead := h a List.mem_cons_self
    rw [leftJoin, List.flatMap_cons, List.map_append, ← leftJoin, htail]
    cases hmatch : right.filter (on a) with
    | nil => simp
    | cons b bs =>
      rw [hmatch, List.length_cons] at hhead
      have hbs : bs = [] := List.length_eq_zero_iff.mp (by omega)
      simp [hbs]

/-- The rows of a chain of left joins: each condition sees what has been joined before it. -/
def leftJoins (extend : α → Option β → α) :
    List (List β × (α → β → Bool)) → List α → List α
  | [], envs => envs
  | (rows, on) :: steps, envs =>
    leftJoins extend steps ((leftJoin on envs rows).map fun p => extend p.1 p.2)

/-- A chain of left joins with at most one match each keeps what extending does not change. -/
theorem leftJoins_map {extend : α → Option β → α} {base : α → γ}
    (hbase : ∀ a b, base (extend a b) = base a) {steps : List (List β × (α → β → Bool))}
    (h : ∀ step ∈ steps, ∀ a, (step.1.filter (step.2 a)).length ≤ 1) (envs : List α) :
    (leftJoins extend steps envs).map base = envs.map base := by
  induction steps generalizing envs with
  | nil => rfl
  | cons step steps ih =>
    have hstep : (leftJoin step.2 envs step.1).map Prod.fst = envs :=
      leftJoin_map_fst fun a _ => h step List.mem_cons_self a
    rw [leftJoins, ih fun s hs => h s (List.mem_cons_of_mem _ hs), List.map_map]
    calc (leftJoin step.2 envs step.1).map (base ∘ fun p => extend p.1 p.2)
        = (leftJoin step.2 envs step.1).map (base ∘ Prod.fst) :=
          List.map_congr_left fun p _ => hbase p.1 p.2
      _ = envs.map base := by rw [← List.map_map, hstep]

end Joins

end Relational

end ChatBI.Lib
