import ChatBI.Lib.Raises
import Mathlib.Logic.Relation
import Mathlib.Order.Bounds.Basic
import Mathlib.Order.MinMax

/-!
# Walks of a graph

A graph gives the successors of every node. The depth of a node is the length of the longest walk
from it; the nodes of a cycle have none.
-/

namespace ChatBI.Lib

variable {α : Type}

/-- A walk of some number of edges from a node. -/
inductive Walk (next : α → List α) : α → Nat → Prop where
  | here (a : α) : Walk next a 0
  | step {a b : α} {n : Nat} (h : b ∈ next a) (hw : Walk next b n) : Walk next a (n + 1)

/-- The length of the longest walk from a node. -/
def IsDepth (next : α → List α) (a : α) (n : Nat) : Prop := IsGreatest {m | Walk next a m} n

/-- One edge or more lead from a node to another. -/
def Leads (next : α → List α) : α → α → Prop := Relation.TransGen fun a b => b ∈ next a

def Acyclic (next : α → List α) : Prop := ∀ a, ¬Leads next a a

section Walks

variable {next : α → List α} {a b : α} {n m : Nat}

lemma Leads.walk (h : Leads next a b) (hw : Walk next b n) : ∃ m, n < m ∧ Walk next a m := by
  induction h using Relation.TransGen.head_induction_on with
  | single hab => exact ⟨n + 1, Nat.lt_succ_self n, .step hab hw⟩
  | head hac _ ih =>
    obtain ⟨m, hm, hwalk⟩ := ih
    exact ⟨m + 1, Nat.lt_succ_of_lt hm, .step hac hwalk⟩

/-- A node with a longest walk is on no cycle. -/
lemma IsDepth.not_leads (h : IsDepth next a n) : ¬Leads next a a := by
  intro hcycle
  obtain ⟨m, hm, hwalk⟩ := hcycle.walk h.1
  exact Nat.not_lt.mpr (h.2 hwalk) hm

lemma IsDepth.unique (h : IsDepth next a n) (h' : IsDepth next a m) : n = m :=
  IsGreatest.unique h h'

/-- The longest walk from a node goes on from one of its successors. -/
lemma isDepth_foldl {depths : List Nat} (h : List.Forall₂ (IsDepth next) (next a) depths) :
    IsDepth next a (depths.foldl (fun value d => max value (d + 1)) 0) := by
  have hfold : ∀ (l : List Nat) (start k : Nat),
      k ≤ l.foldl (fun value d => max value (d + 1)) start ↔ k ≤ start ∨ ∃ d ∈ l, k ≤ d + 1 := by
    intro l
    induction l with
    | nil => simp
    | cons d l ih =>
      intro start k
      rw [List.foldl_cons, ih, le_max_iff, or_assoc]
      simp
  constructor
  · -- a longest walk: none, or the one of the successor with the greatest depth
    set value := depths.foldl (fun value d => max value (d + 1)) 0 with hvalue
    rcases (hfold depths 0 value).mp (Nat.le_refl _) with hzero | ⟨d, hd, hle⟩
    · rw [Nat.le_zero.mp hzero]
      exact .here a
    · have hge : d + 1 ≤ value := (hfold depths 0 (d + 1)).mpr (.inr ⟨d, hd, Nat.le_refl _⟩)
      obtain ⟨b, hb, hdepth⟩ := exists_of_forall₂ h hd
      have heq : value = d + 1 := Nat.le_antisymm hle hge
      rw [heq]
      exact Walk.step hb hdepth.1
  · intro m hm
    apply (hfold depths 0 m).mpr
    cases hm with
    | here => exact .inl (Nat.le_refl _)
    | @step _ b n hb hwalk =>
      obtain ⟨d, hd, hdepth⟩ := exists_of_forall₂ h.flip hb
      exact .inr ⟨d, hd, Nat.succ_le_succ (hdepth.2 hwalk)⟩

end Walks

end ChatBI.Lib
