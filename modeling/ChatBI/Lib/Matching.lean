import Mathlib.Data.Fin.SuccPred
import Mathlib.Data.Fintype.Card
import Mathlib.Data.List.Forall2
import Mathlib.Logic.Equiv.Fin.Basic

/-!
# Matching by augmentation

Left nodes are assigned to right nodes one after another. A left node that finds all of its right
nodes taken asks the holder of one of them to find another one, and no right node is asked twice in
one search. The search fails only when the left nodes that it has asked have fewer right nodes than
they are.
-/

namespace ChatBI.Lib.Matching

variable {α β : Type}

/-- The right nodes that the search has asked, and who holds each right node. -/
structure Search (α β : Type) where
  visited : Finset β
  holder : β → Option α

section Searching

variable [DecidableEq β]

/-- The left node takes the right node. -/
def Search.take (s : Search α β) (b : β) (a : α) : Search α β :=
  { s with holder := Function.update s.holder b (some a) }

/-- One right node after another is tried for the left node. -/
def tryEach (assign : α → Search α β → Option (Bool × Search α β)) (a : α) :
    List β → Search α β → Option (Bool × Search α β)
  | [], s => some (false, s)
  | b :: bs, s =>
    if b ∈ s.visited then tryEach assign a bs s
    else
      let s := { s with visited := insert b s.visited }
      match s.holder b with
      | none => some (true, s.take b a)
      | some previous =>
        match assign previous s with
        | none => none
        | some (true, s) => some (true, s.take b a)
        | some (false, s) => tryEach assign a bs s

section Assign

variable (candidates : α → List β)

/-- The search for a left node, down to a depth, `none` when it would go deeper. -/
def assign : ℕ → α → Search α β → Option (Bool × Search α β)
  | 0, _, _ => none
  | depth + 1, a, s => tryEach (assign depth) a (candidates a) s

/-- The searches for all left nodes, up to the first that fails. -/
def assignAll (depth : ℕ) : List α → (β → Option α) → Option Bool
  | [], _ => some true
  | a :: as, holder =>
    match assign candidates depth a ⟨∅, holder⟩ with
    | none => none
    | some (true, s) => assignAll depth as s.holder
    | some (false, _) => some false

end Assign

end Searching

/-! ### What a search does -/

/-- Right nodes off the visited ones have different holders. -/
def DistinctOff (visited : Finset β) (holder : β → Option α) : Prop :=
  ∀ ⦃b b' a⦄, b ∉ visited → b' ∉ visited → holder b = some a → holder b' = some a → b = b'

/-- The left node holds a right node off the visited ones. -/
def HeldOff (visited : Finset β) (holder : β → Option α) (a : α) : Prop :=
  ∃ b, b ∉ visited ∧ holder b = some a

/-- Every right node is held by a left node that has it as a candidate. -/
def Admissible (candidates : α → List β) (holder : β → Option α) : Prop :=
  ∀ ⦃b a⦄, holder b = some a → b ∈ candidates a

/-- A search that succeeds: the left node is held in addition, and nothing that was visited before
has changed. -/
structure Augmented (candidates : α → List β) (visited : Finset β) (a : α)
    (holder holder' : β → Option α) : Prop where
  kept : ∀ b ∈ visited, holder' b = holder b
  held : ∀ a', HeldOff visited holder' a' ↔ a' = a ∨ HeldOff visited holder a'
  distinct : DistinctOff visited holder'
  admissible : Admissible candidates holder'

/-- A search that fails: it has changed nothing, and whoever holds a right node that it has visited
has no other right nodes either. -/
structure Stuck (candidates : α → List β) (tried : List β) (s s' : Search α β) : Prop where
  same : s'.holder = s.holder
  grows : s.visited ⊆ s'.visited
  tried : ∀ b ∈ tried, b ∈ s'.visited
  closed : ∀ b ∈ s'.visited, b ∈ s.visited ∨
    ∃ a, s.holder b = some a ∧ ∀ b' ∈ candidates a, b' ∈ s'.visited

/-- What the search for a left node promises. -/
inductive Outcome (candidates : α → List β) (a : α) (tried : List β) (s : Search α β) :
    Option (Bool × Search α β) → Prop
  | augmented {s' : Search α β} (h : Augmented candidates s.visited a s.holder s'.holder) :
      Outcome candidates a tried s (some (true, s'))
  | stuck {s' : Search α β} (h : Stuck candidates tried s s') :
      Outcome candidates a tried s (some (false, s'))

section Steps

variable {candidates : α → List β} {a : α} {b : β} {visited visited' : Finset β}
  {holder holder' : β → Option α}

lemma DistinctOff.mono (h : DistinctOff visited holder) (hsub : visited ⊆ visited') :
    DistinctOff visited' holder :=
  fun _ _ _ hb hb' => h (fun hmem => hb (hsub hmem)) (fun hmem => hb' (hsub hmem))

lemma HeldOff.mono (h : HeldOff visited' holder a) (hsub : visited ⊆ visited') :
    HeldOff visited holder a := by
  obtain ⟨b, hb, hheld⟩ := h
  exact ⟨b, fun hmem => hb (hsub hmem), hheld⟩

/-- What holds a visited right node does not hold another one. -/
lemma DistinctOff.not_heldOff (h : DistinctOff visited holder) (hb : b ∉ visited)
    (hsub : visited ⊆ visited') (hmem : b ∈ visited') (hheld : holder b = some a) :
    ¬HeldOff visited' holder a := by
  rintro ⟨b', hb', hheld'⟩
  have heq : b = b' := h hb (fun hmem' => hb' (hsub hmem')) hheld hheld'
  rw [heq] at hmem
  exact hb' hmem

variable [DecidableEq β]

/-- A success behind more visited nodes is a success behind fewer. -/
lemma Augmented.weaken (h : Augmented candidates visited' a holder holder')
    (hsub : visited ⊆ visited') (hdistinct : DistinctOff visited holder)
    (ha : ¬HeldOff visited holder a) : Augmented candidates visited a holder holder' := by
  have hheld : ∀ a', HeldOff visited holder' a' ↔ a' = a ∨ HeldOff visited holder a' := by
    intro a'
    constructor
    · rintro ⟨b, hb, hheld⟩
      by_cases hmem : b ∈ visited'
      · rw [h.kept b hmem] at hheld
        exact .inr ⟨b, hb, hheld⟩
      · rcases (h.held a').mp ⟨b, hmem, hheld⟩ with heq | hold
        · exact .inl heq
        · exact .inr (hold.mono hsub)
    · rintro (heq | ⟨b, hb, hheld⟩)
      · exact ((h.held a').mpr (.inl heq)).mono hsub
      · by_cases hmem : b ∈ visited'
        · exact ⟨b, hb, (h.kept b hmem).trans hheld⟩
        · exact ((h.held a').mpr (.inr ⟨b, hmem, hheld⟩)).mono hsub
  have hcross : ∀ {b b' a'}, b ∈ visited' → b ∉ visited → b' ∉ visited' → holder' b = some a' →
      holder' b' ≠ some a' := by
    intro b b' a' hb hoff hb' hheldB hheldB'
    rw [h.kept b hb] at hheldB
    rcases (h.held a').mp ⟨b', hb', hheldB'⟩ with heq | hold
    · rw [heq] at hheldB
      exact ha ⟨b, hoff, hheldB⟩
    · exact hdistinct.not_heldOff hoff hsub hb hheldB hold
  refine ⟨fun b hb => h.kept b (hsub hb), hheld, ?_, h.admissible⟩
  intro b b' a' hb hb' hheldB hheldB'
  by_cases hmem : b ∈ visited'
  · by_cases hmem' : b' ∈ visited'
    · rw [h.kept b hmem] at hheldB
      rw [h.kept b' hmem'] at hheldB'
      exact hdistinct hb hb' hheldB hheldB'
    · exact absurd hheldB' (hcross hmem hb hmem' hheldB)
  · by_cases hmem' : b' ∈ visited'
    · exact absurd hheldB (hcross hmem' hb' hmem hheldB')
    · exact h.distinct hmem hmem' hheldB hheldB'

/-- The left node takes a right node that nobody holds, or whose holder has just found another one. -/
lemma Augmented.of_take (hb : b ∉ visited) (hcandidate : b ∈ candidates a)
    (hadmissible : Admissible candidates holder') (ha : ¬HeldOff (insert b visited) holder' a)
    (hdistinct : DistinctOff (insert b visited) holder')
    (hkept : ∀ b' ∈ visited, holder' b' = holder b')
    (hheld : ∀ a', HeldOff (insert b visited) holder' a' ↔ HeldOff visited holder a') :
    Augmented candidates visited a holder (Function.update holder' b (some a)) := by
  have hother : ∀ {b'}, b' ≠ b → Function.update holder' b (some a) b' = holder' b' :=
    fun hne => Function.update_of_ne hne _ _
  have hself : Function.update holder' b (some a) b = some a := Function.update_self _ _ _
  have hoff : ∀ {b'}, b' ≠ b → b' ∉ visited → b' ∉ insert b visited := by
    intro b' hne hb'
    rw [Finset.mem_insert, not_or]
    exact ⟨hne, hb'⟩
  constructor
  case kept =>
    intro b' hb'
    have hne : b' ≠ b := by
      rintro rfl
      exact hb hb'
    rw [hother hne, hkept b' hb']
  case held =>
    intro a'
    rw [← hheld a']
    constructor
    · rintro ⟨b', hb', hheld'⟩
      by_cases hne : b' = b
      · rw [hne, hself] at hheld'
        exact .inl (Option.some.inj hheld').symm
      · rw [hother hne] at hheld'
        exact .inr ⟨b', hoff hne hb', hheld'⟩
    · rintro (rfl | ⟨b', hb', hheld'⟩)
      · exact ⟨b, hb, hself⟩
      · have hne : b' ≠ b := by
          rintro rfl
          exact hb' (Finset.mem_insert_self _ _)
        exact ⟨b', fun hmem => hb' (Finset.mem_insert_of_mem hmem), (hother hne).trans hheld'⟩
  case distinct =>
    intro c d a' hc hd hheldC hheldD
    by_cases hcb : c = b
    · by_cases hdb : d = b
      · rw [hcb, hdb]
      · rw [hcb, hself] at hheldC
        rw [hother hdb, ← hheldC] at hheldD
        exact absurd ⟨d, hoff hdb hd, hheldD⟩ ha
    · by_cases hdb : d = b
      · rw [hdb, hself] at hheldD
        rw [hother hcb, ← hheldD] at hheldC
        exact absurd ⟨c, hoff hcb hc, hheldC⟩ ha
      · rw [hother hcb] at hheldC
        rw [hother hdb] at hheldD
        exact hdistinct (hoff hcb hc) (hoff hdb hd) hheldC hheldD
  case admissible =>
    intro b' a' hheld'
    by_cases hne : b' = b
    · rw [hne, hself] at hheld'
      rw [hne, ← Option.some.inj hheld']
      exact hcandidate
    · rw [hother hne] at hheld'
      exact hadmissible hheld'

/-- The holders off the visited ones, with those of one more right node. -/
lemma heldOff_insert (hb : b ∉ visited) (a' : α) :
    HeldOff visited holder a' ↔ holder b = some a' ∨ HeldOff (insert b visited) holder a' := by
  constructor
  · rintro ⟨b', hb', hheld⟩
    by_cases hne : b' = b
    · rw [hne] at hheld
      exact .inl hheld
    · refine .inr ⟨b', ?_, hheld⟩
      rw [Finset.mem_insert, not_or]
      exact ⟨hne, hb'⟩
  · rintro (hheld | hheld)
    · exact ⟨b, hb, hheld⟩
    · exact hheld.mono (Finset.subset_insert b visited)

end Steps

/-! ### Every search ends -/

section Outcomes

variable {candidates : α → List β} {a : α} {b : β} {bs : List β} {s s' : Search α β}

/-- A state in which a left node may be searched for. -/
structure Ready (candidates : α → List β) (a : α) (s : Search α β) : Prop where
  distinct : DistinctOff s.visited s.holder
  free : ¬HeldOff s.visited s.holder a
  admissible : Admissible candidates s.holder

lemma Stuck.nil (s : Search α β) : Stuck candidates [] s s :=
  ⟨rfl, Finset.Subset.refl _, fun _ h => absurd h List.not_mem_nil, fun _ h => .inl h⟩

/-- A right node that was visited before is passed over. -/
lemma Outcome.skip {r : Option (Bool × Search α β)} (hb : b ∈ s.visited)
    (h : Outcome candidates a bs s r) : Outcome candidates a (b :: bs) s r := by
  cases h with
  | augmented h => exact .augmented h
  | stuck h =>
    apply Outcome.stuck
    refine ⟨h.same, h.grows, ?_, h.closed⟩
    intro b' hb'
    rcases List.mem_cons.mp hb' with rfl | hb'
    · exact h.grows hb
    · exact h.tried b' hb'

lemma Ready.behind (h : Ready candidates a s) (hsame : s'.holder = s.holder)
    (hgrows : s.visited ⊆ s'.visited) : Ready candidates a s' := by
  obtain ⟨hdistinct, hfree, hadmissible⟩ := h
  constructor
  · rw [hsame]
    exact hdistinct.mono hgrows
  · rw [hsame]
    exact fun hheld => hfree (hheld.mono hgrows)
  · rw [hsame]
    exact hadmissible

variable [DecidableEq β]

/-- The right nodes that have not been visited. -/
def remaining [Fintype β] (s : Search α β) : ℕ := (Finset.univ \ s.visited).card

/-- The holder of a right node may be searched for behind it. -/
lemma Ready.holder (h : Ready candidates a s) (hb : b ∉ s.visited) {previous : α}
    (hheld : s.holder b = some previous) :
    Ready candidates previous { s with visited := insert b s.visited } :=
  ⟨h.distinct.mono (Finset.subset_insert b _), h.distinct.not_heldOff hb (Finset.subset_insert b _)
    (Finset.mem_insert_self b _) hheld, h.admissible⟩

/-- The rest of the right nodes is tried when the holder of one finds no other one. -/
lemma Outcome.after_stuck {r : Option (Bool × Search α β)} {previous : α} (hready : Ready candidates a s)
    (hheld : s.holder b = some previous)
    (hstuck : Stuck candidates (candidates previous) { s with visited := insert b s.visited } s')
    (h : Outcome candidates a bs s' r) : Outcome candidates a (b :: bs) s r := by
  have hsame : s'.holder = s.holder := hstuck.same
  have hgrows : s.visited ⊆ s'.visited := (Finset.subset_insert b _).trans hstuck.grows
  cases h with
  | augmented h =>
    rw [hsame] at h
    exact .augmented (h.weaken hgrows hready.distinct hready.free)
  | @stuck last h =>
    apply Outcome.stuck
    refine ⟨h.same.trans hsame, hgrows.trans h.grows, ?_, ?_⟩
    · intro b' hb'
      rcases List.mem_cons.mp hb' with rfl | hb'
      · exact h.grows (hstuck.grows (Finset.mem_insert_self _ _))
      · exact h.tried b' hb'
    · intro b' hb'
      rcases h.closed b' hb' with hvisited | ⟨holder, hholder, hclosed⟩
      · rcases hstuck.closed b' hvisited with hbefore | ⟨holder, hholder, hclosed⟩
        · rcases Finset.mem_insert.mp hbefore with rfl | hbefore
          · exact .inr ⟨previous, hheld, fun c hc => h.grows (hstuck.tried c hc)⟩
          · exact .inl hbefore
        · exact .inr ⟨holder, hholder, fun c hc => h.grows (hclosed c hc)⟩
      · rw [hsame] at hholder
        exact .inr ⟨holder, hholder, hclosed⟩

/-- The left node takes a right node from nobody. -/
lemma Ready.take_free (h : Ready candidates a s) (hb : b ∉ s.visited) (hcandidate : b ∈ candidates a)
    (hnone : s.holder b = none) :
    Augmented candidates s.visited a s.holder (Function.update s.holder b (some a)) := by
  apply Augmented.of_take hb hcandidate h.admissible
  · exact fun hheld => h.free (hheld.mono (Finset.subset_insert b _))
  · exact h.distinct.mono (Finset.subset_insert b _)
  · exact fun _ _ => rfl
  · intro a'
    rw [heldOff_insert hb a', hnone]
    exact ⟨.inr, fun hor => hor.resolve_left nofun⟩

/-- The left node takes a right node from its holder, who has found another one. -/
lemma Ready.take_over (h : Ready candidates a s) (hb : b ∉ s.visited) (hcandidate : b ∈ candidates a)
    {previous : α} (hheld : s.holder b = some previous)
    (haugmented : Augmented candidates (insert b s.visited) previous s.holder s'.holder) :
    Augmented candidates s.visited a s.holder (Function.update s'.holder b (some a)) := by
  have hne : a ≠ previous := by
    rintro rfl
    exact h.free ⟨b, hb, hheld⟩
  have hoff : ∀ a', HeldOff (insert b s.visited) s'.holder a' ↔ HeldOff s.visited s.holder a' := by
    intro a'
    rw [haugmented.held a', heldOff_insert hb a', hheld, Option.some_inj, eq_comm]
  apply Augmented.of_take hb hcandidate haugmented.admissible
  · rw [hoff a]
    exact h.free
  · exact haugmented.distinct
  · exact fun b' hb' => haugmented.kept b' (Finset.mem_insert_of_mem hb')
  · exact hoff

lemma remaining_le [Fintype β] (h : s.visited ⊆ s'.visited) : remaining s' ≤ remaining s :=
  Finset.card_le_card (Finset.sdiff_subset_sdiff (Finset.Subset.refl _) h)

lemma remaining_insert_lt [Fintype β] (hb : b ∉ s.visited) :
    remaining { s with visited := insert b s.visited } < remaining s := by
  apply Finset.card_lt_card
  apply Finset.ssubset_iff_of_subset (Finset.sdiff_subset_sdiff (Finset.Subset.refl _)
    (Finset.subset_insert b _)) |>.mpr
  refine ⟨b, ?_, ?_⟩
  · rw [Finset.mem_sdiff]
    exact ⟨Finset.mem_univ b, hb⟩
  · rw [Finset.mem_sdiff, not_and, not_not]
    exact fun _ => Finset.mem_insert_self b _

lemma outcome_tryEach [Fintype β] {inner : α → Search α β → Option (Bool × Search α β)} {depth : ℕ}
    (hinner : ∀ p s, Ready candidates p s → remaining s < depth →
      Outcome candidates p (candidates p) s (inner p s))
    (hbs : ∀ b ∈ bs, b ∈ candidates a) (hready : Ready candidates a s) (hdepth : remaining s ≤ depth) :
    Outcome candidates a bs s (tryEach inner a bs s) := by
  induction bs generalizing s with
  | nil => exact .stuck (Stuck.nil s)
  | cons b bs ih =>
    have hrest : ∀ b' ∈ bs, b' ∈ candidates a := fun b' hb' => hbs b' (List.mem_cons_of_mem b hb')
    unfold tryEach
    by_cases hb : b ∈ s.visited
    · rw [if_pos hb]
      exact (ih hrest hready hdepth).skip hb
    · rw [if_neg hb]
      have hcandidate : b ∈ candidates a := hbs b List.mem_cons_self
      dsimp only
      cases hheld : s.holder b with
      | none => exact .augmented (hready.take_free hb hcandidate hheld)
      | some previous =>
        have houtcome := hinner previous { s with visited := insert b s.visited }
          (hready.holder hb hheld) (lt_of_lt_of_le (remaining_insert_lt hb) hdepth)
        dsimp only
        generalize inner previous { s with visited := insert b s.visited } = r at houtcome
        cases houtcome with
        | augmented h => exact .augmented (hready.take_over hb hcandidate hheld h)
        | @stuck s' h =>
          have hgrows : s.visited ⊆ s'.visited := (Finset.subset_insert b _).trans h.grows
          apply Outcome.after_stuck hready hheld h
          exact ih hrest (hready.behind h.same hgrows) ((remaining_le hgrows).trans hdepth)

/-- A search ends within the depth of the right nodes that are left. -/
lemma outcome_assign [Fintype β] {depth : ℕ} (hready : Ready candidates a s)
    (hdepth : remaining s < depth) :
    Outcome candidates a (candidates a) s (assign candidates depth a s) := by
  induction depth generalizing a s with
  | zero => exact absurd hdepth (Nat.not_lt_zero _)
  | succ depth ih =>
    apply outcome_tryEach _ (fun _ hb => hb) hready (Nat.le_of_lt_succ hdepth)
    intro p s' hready' hdepth'
    exact ih hready' hdepth'

end Outcomes

/-! ### All left nodes -/

/-- Every left node has a candidate of its own. -/
def Matchable (candidates : α → List β) : Prop :=
  ∃ f : α → β, Function.Injective f ∧ ∀ a, f a ∈ candidates a

section All

variable {candidates : α → List β} {a : α} {holder : β → Option α} {s' : Search α β}

/-- The left nodes that a failing search has asked are more than the right nodes that they have. -/
lemma Stuck.not_matchable (hready : Ready candidates a ⟨∅, holder⟩)
    (h : Stuck candidates (candidates a) ⟨∅, holder⟩ s') : ¬Matchable candidates := by
  classical
  rintro ⟨f, hinjective, hf⟩
  have hasked : ∀ b, ∃ a', b ∈ s'.visited →
      holder b = some a' ∧ ∀ b' ∈ candidates a', b' ∈ s'.visited := by
    intro b
    by_cases hb : b ∈ s'.visited
    · rcases h.closed b hb with hempty | ⟨a', hheld, hclosed⟩
      · exact absurd hempty (Finset.notMem_empty b)
      · exact ⟨a', fun _ => ⟨hheld, hclosed⟩⟩
    · exact ⟨a, fun hmem => absurd hmem hb⟩
  choose asked hasked using hasked
  have hnew : a ∉ s'.visited.image asked := by
    intro hmem
    obtain ⟨b, hb, heq⟩ := Finset.mem_image.mp hmem
    apply hready.free
    rw [← heq]
    exact ⟨b, Finset.notMem_empty b, (hasked b hb).1⟩
  have hcard : (s'.visited.image asked).card = s'.visited.card := by
    apply Finset.card_image_of_injOn
    intro b hb b' hb' heq
    apply hready.distinct (Finset.notMem_empty b) (Finset.notMem_empty b') (hasked b hb).1
    rw [heq]
    exact (hasked b' hb').1
  have hmaps : ∀ a' ∈ insert a (s'.visited.image asked), f a' ∈ s'.visited := by
    intro a' ha'
    rcases Finset.mem_insert.mp ha' with rfl | ha'
    · exact h.tried _ (hf _)
    · obtain ⟨b, hb, rfl⟩ := Finset.mem_image.mp ha'
      exact (hasked b hb).2 _ (hf _)
  have hle := Finset.card_le_card_of_injOn f hmaps hinjective.injOn
  rw [Finset.card_insert_of_notMem hnew, hcard] at hle
  exact absurd hle (Nat.not_succ_le_self _)

/-- The left nodes hold distinct candidates. -/
lemma matchable_of_held (hadmissible : Admissible candidates holder)
    (hheld : ∀ a, HeldOff ∅ holder a) : Matchable candidates := by
  choose f hoff hf using hheld
  refine ⟨f, ?_, fun a => hadmissible (hf a)⟩
  intro a a' heq
  have hsame := hf a'
  rw [← heq, hf a] at hsame
  exact Option.some.inj hsame

variable [DecidableEq β] [Fintype β]

lemma assignAll_spec {depth : ℕ} (hdepth : Fintype.card β < depth) {as : List α}
    (hnodup : as.Nodup) (hdistinct : DistinctOff ∅ holder) (hadmissible : Admissible candidates holder)
    (hfree : ∀ a ∈ as, ¬HeldOff ∅ holder a) (hall : ∀ a, a ∈ as ∨ HeldOff ∅ holder a) :
    ∃ answer, assignAll candidates depth as holder = some answer ∧
      (answer = true ↔ Matchable candidates) := by
  induction as generalizing holder with
  | nil =>
    refine ⟨true, rfl, iff_of_true rfl ?_⟩
    apply matchable_of_held hadmissible
    exact fun a => (hall a).resolve_left List.not_mem_nil
  | cons a as ih =>
    obtain ⟨hnew, hnodup⟩ := List.nodup_cons.mp hnodup
    have hready : Ready candidates a ⟨∅, holder⟩ :=
      ⟨hdistinct, hfree a List.mem_cons_self, hadmissible⟩
    have houtcome : Outcome candidates a (candidates a) ⟨∅, holder⟩
        (assign candidates depth a ⟨∅, holder⟩) := by
      apply outcome_assign hready
      apply lt_of_le_of_lt _ hdepth
      exact Finset.card_le_univ _
    unfold assignAll
    generalize assign candidates depth a ⟨∅, holder⟩ = r at houtcome
    cases houtcome with
    | stuck h =>
      exact ⟨false, rfl, iff_of_false Bool.false_ne_true (h.not_matchable hready)⟩
    | @augmented s' h =>
      apply ih hnodup h.distinct h.admissible
      · intro a' ha' hheld
        rcases (h.held a').mp hheld with rfl | hbefore
        · exact hnew ha'
        · exact hfree a' (List.mem_cons_of_mem a ha') hbefore
      · intro a'
        rcases hall a' with hmem | hbefore
        · rcases List.mem_cons.mp hmem with rfl | hmem
          · exact .inr ((h.held _).mpr (.inl rfl))
          · exact .inl hmem
        · exact .inr ((h.held a').mpr (.inr hbefore))

/-- At a depth above the number of the right nodes the searches end, and they succeed exactly when
every left node has a candidate of its own. -/
theorem assignAll_eq {depth : ℕ} (hdepth : Fintype.card β < depth) {as : List α} (hnodup : as.Nodup)
    (hall : ∀ a, a ∈ as) :
    ∃ answer, assignAll candidates depth as (fun _ => none) = some answer ∧
      (answer = true ↔ Matchable candidates) := by
  apply assignAll_spec hdepth hnodup
  · intro b b' a _ _ hheld
    cases hheld
  · intro b a hheld
    cases hheld
  · rintro a _ ⟨b, _, hheld⟩
    cases hheld
  · exact fun a => .inl (hall a)

end All

/-! ### Pairing two lists -/

/-- A bijection between the places of two lists whose elements are related. -/
def Pairing {γ δ : Type} (R : γ → δ → Prop) (xs : List γ) (ys : List δ) : Prop :=
  ∃ σ : Fin xs.length ≃ Fin ys.length, ∀ i, R (xs.get i) (ys.get (σ i))

section Pairing

variable {γ δ : Type} {R : γ → δ → Prop} {xs xs' : List γ} {ys ys' : List δ}

/-- The places of a permuted list. -/
lemma exists_places_of_perm (h : xs.Perm xs') :
    ∃ σ : Fin xs.length ≃ Fin xs'.length, ∀ i, xs'.get (σ i) = xs.get i := by
  induction h with
  | nil => exact ⟨Equiv.refl _, fun _ => rfl⟩
  | @cons x xs xs' _ ih =>
    obtain ⟨σ, hσ⟩ := ih
    refine ⟨(finSuccEquiv _).trans (σ.optionCongr.trans (finSuccEquiv _).symm), ?_⟩
    intro i
    refine Fin.cases ?_ ?_ i
    · rfl
    · exact hσ
  | swap x y xs =>
    refine ⟨Equiv.swap 0 1, ?_⟩
    intro i
    refine Fin.cases ?_ (fun j => Fin.cases ?_ (fun k => ?_) j) i
    · rw [Equiv.swap_apply_left]
      rfl
    · change List.get _ (Equiv.swap 0 1 1) = _
      rw [Equiv.swap_apply_right]
      rfl
    · have hzero : k.succ.succ ≠ 0 := Fin.succ_ne_zero _
      have hone : k.succ.succ ≠ 1 := fun h => Fin.succ_ne_zero k (Fin.succ_injective _ h)
      rw [Equiv.swap_apply_of_ne_of_ne hzero hone]
      rfl
  | trans _ _ ih ih' =>
    obtain ⟨σ, hσ⟩ := ih
    obtain ⟨τ, hτ⟩ := ih'
    exact ⟨σ.trans τ, fun i => (hτ (σ i)).trans (hσ i)⟩

lemma Pairing.perm (h : Pairing R xs ys) (hxs : xs.Perm xs') (hys : ys.Perm ys') : Pairing R xs' ys' := by
  obtain ⟨σ, hσ⟩ := h
  obtain ⟨ρ, hρ⟩ := exists_places_of_perm hxs.symm
  obtain ⟨τ, hτ⟩ := exists_places_of_perm hys
  refine ⟨ρ.trans (σ.trans τ), ?_⟩
  intro i
  have hpair := hσ (ρ i)
  rw [hρ i, ← hτ (σ (ρ i))] at hpair
  exact hpair

lemma Pairing.of_forall₂ (h : List.Forall₂ R xs ys) : Pairing R xs ys := by
  refine ⟨finCongr h.length_eq, ?_⟩
  intro i
  exact h.get i.isLt (h.length_eq ▸ i.isLt)

end Pairing

end ChatBI.Lib.Matching
