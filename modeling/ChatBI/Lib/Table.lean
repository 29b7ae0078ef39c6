import Mathlib.Data.List.Find
import Mathlib.Data.List.Nodup
import Mathlib.Data.List.Perm.Basic
import Mathlib.Tactic.Lemma

/-!
# Keyed tables

A relational table is the list of its rows in insertion order. Its primary key is a
function of the row and no two rows share a key. Statements select, update, insert and
delete rows by a predicate; a table is never built without its key constraint.
-/

namespace ChatBI.Lib

/-- Rows in insertion order with a unique primary key. -/
structure Table {ρ κ : Type} (key : ρ → κ) where
  rows : List ρ
  nodup : (rows.map key).Nodup

namespace Table

variable {ρ κ : Type} {key : ρ → κ}

instance : Membership ρ (Table key) := ⟨fun t r => r ∈ t.rows⟩

instance [DecidableEq ρ] (r : ρ) (t : Table key) : Decidable (r ∈ t) :=
  inferInstanceAs (Decidable (r ∈ t.rows))

instance (t : Table key) (p : ρ → Prop) [DecidablePred p] : Decidable (∀ r ∈ t, p r) :=
  inferInstanceAs (Decidable (∀ r ∈ t.rows, p r))

instance (t : Table key) (p : ρ → Prop) [DecidablePred p] : Decidable (∃ r ∈ t, p r) :=
  inferInstanceAs (Decidable (∃ r ∈ t.rows, p r))

lemma mem_rows {t : Table key} {r : ρ} : r ∈ t.rows ↔ r ∈ t := Iff.rfl

@[ext]
lemma ext_rows {t t' : Table key} (h : t.rows = t'.rows) : t = t' := by
  cases t; cases t'; cases h; rfl

instance [DecidableEq ρ] : DecidableEq (Table key) := fun t t' =>
  decidable_of_iff (t.rows = t'.rows) ⟨ext_rows, congrArg rows⟩

def empty : Table key := ⟨[], List.nodup_nil⟩

/-- `SELECT ... LIMIT 1`: the first row in insertion order that satisfies the condition. -/
def first (t : Table key) (p : ρ → Bool) : Option ρ := t.rows.find? p

/-- `SELECT ...`: the rows that satisfy the condition, in insertion order. -/
def select (t : Table key) (p : ρ → Bool) : List ρ := t.rows.filter p

/-- The row with the given primary key. -/
def find? [DecidableEq κ] (t : Table key) (k : κ) : Option ρ := t.first (fun r => key r = k)

/-- Every row rewritten by a function that keeps the primary key. -/
def map (t : Table key) (f : ρ → ρ) (hf : ∀ r, key (f r) = key r) : Table key :=
  ⟨t.rows.map f, by
    have h : key ∘ f = key := funext hf
    rw [List.map_map, h]
    exact t.nodup⟩

/-- `UPDATE ... SET f WHERE p`; the assignment keeps the primary key. -/
def update (t : Table key) (p : ρ → Bool) (f : ρ → ρ) (hf : ∀ r, key (f r) = key r) : Table key :=
  t.map (fun r => if p r then f r else r) (fun r => by by_cases hp : p r <;> simp [hp, hf])

/-- The table with the row of the key of `r` replaced by `r`. -/
def set [DecidableEq κ] (t : Table key) (r : ρ) : Table key :=
  t.map (fun s => if key s = key r then r else s)
    (fun s => by by_cases hs : key s = key r <;> simp [hs])

/-- `INSERT`: rejected when the primary key is taken. -/
def insert? [DecidableEq κ] (t : Table key) (r : ρ) : Option (Table key) :=
  if h : key r ∈ t.rows.map key then none
  else some ⟨t.rows ++ [r], by
    rw [List.map_append, List.map_singleton, List.nodup_append]
    refine ⟨t.nodup, List.nodup_singleton _, ?_⟩
    intro a ha b hb hab
    rw [List.mem_singleton] at hb
    exact h (hb ▸ hab ▸ ha)⟩

/-- `DELETE ... WHERE p`. -/
def delete (t : Table key) (p : ρ → Bool) : Table key :=
  ⟨t.rows.filter (fun r => !p r), (t.nodup.sublist (List.filter_sublist.map key))⟩

@[simp] lemma not_mem_empty (r : ρ) : r ∉ (empty : Table key) := List.not_mem_nil

/-- Two rows of one table with one key are the same row. -/
lemma eq_of_key {t : Table key} {r s : ρ} (hr : r ∈ t) (hs : s ∈ t) (h : key r = key s) : r = s :=
  List.inj_on_of_nodup_map t.nodup hr hs h

@[simp] lemma mem_select {t : Table key} {p : ρ → Bool} {r : ρ} :
    r ∈ t.select p ↔ r ∈ t ∧ p r = true := List.mem_filter

lemma first_some {t : Table key} {p : ρ → Bool} {r : ρ} (h : t.first p = some r) :
    r ∈ t ∧ p r = true := ⟨List.mem_of_find?_eq_some h, List.find?_some h⟩

lemma first_none {t : Table key} {p : ρ → Bool} : t.first p = none ↔ ∀ r ∈ t, p r = false := by
  unfold first
  simp only [List.find?_eq_none, Bool.not_eq_true]
  rfl

/-- A condition that singles out one key is met by the row of that key. -/
lemma first_eq_some_iff {t : Table key} {p : ρ → Bool}
    (hp : ∀ r ∈ t, ∀ s ∈ t, p r = true → p s = true → key r = key s) {r : ρ} :
    t.first p = some r ↔ r ∈ t ∧ p r = true := by
  refine ⟨first_some, ?_⟩
  rintro ⟨hr, hpr⟩
  cases h : t.first p with
  | none => rw [first_none.mp h r hr] at hpr; cases hpr
  | some s =>
    obtain ⟨hs, hps⟩ := first_some h
    rw [eq_of_key hr hs (hp r hr s hs hpr hps)]

lemma find?_eq_some_iff [DecidableEq κ] {t : Table key} {k : κ} {r : ρ} :
    t.find? k = some r ↔ r ∈ t ∧ key r = k := by
  unfold find?
  rw [first_eq_some_iff]
  · simp
  · intro r _ s _ hr hs
    simp only [decide_eq_true_eq] at hr hs
    rw [hr, hs]

lemma find?_eq_none_iff [DecidableEq κ] {t : Table key} {k : κ} :
    t.find? k = none ↔ ∀ r ∈ t, key r ≠ k := by
  unfold find?
  rw [first_none]
  simp

/-! ### What a statement leaves in the table -/

@[simp] lemma rows_map (t : Table key) (f : ρ → ρ) (hf : ∀ r, key (f r) = key r) :
    (t.map f hf).rows = t.rows.map f := rfl

@[simp] lemma mem_map {t : Table key} {f : ρ → ρ} {hf : ∀ r, key (f r) = key r} {s : ρ} :
    s ∈ t.map f hf ↔ ∃ r ∈ t, f r = s := List.mem_map

lemma mem_map_of_mem {t : Table key} {f : ρ → ρ} {hf : ∀ r, key (f r) = key r} {r : ρ}
    (hr : r ∈ t) : f r ∈ t.map f hf := mem_map.mpr ⟨r, hr, rfl⟩

lemma map_congr {t : Table key} {f g : ρ → ρ} {hf : ∀ r, key (f r) = key r}
    {hg : ∀ r, key (g r) = key r} (h : ∀ r ∈ t, f r = g r) : t.map f hf = t.map g hg :=
  ext_rows (List.map_congr_left h)

lemma map_eq_self {t : Table key} {f : ρ → ρ} {hf : ∀ r, key (f r) = key r}
    (h : ∀ r ∈ t, f r = r) : t.map f hf = t := by
  apply ext_rows
  rw [rows_map, List.map_congr_left h, List.map_id']

@[simp] lemma map_id (t : Table key) : t.map id (fun _ => rfl) = t := map_eq_self (fun _ _ => rfl)

lemma update_eq_self {t : Table key} {p : ρ → Bool} {f : ρ → ρ} {hf : ∀ r, key (f r) = key r}
    (h : ∀ r ∈ t, p r = false) : t.update p f hf = t :=
  map_eq_self (fun r hr => by simp [h r hr])

lemma mem_update {t : Table key} {p : ρ → Bool} {f : ρ → ρ} {hf : ∀ r, key (f r) = key r} {s : ρ} :
    s ∈ t.update p f hf ↔ ∃ r ∈ t, (if p r then f r else r) = s := mem_map

/-- An update whose condition singles out one row sets that row. -/
lemma update_eq_set [DecidableEq κ] {t : Table key} {p : ρ → Bool} {f : ρ → ρ}
    {hf : ∀ r, key (f r) = key r} {s : ρ} (hs : s ∈ t) (hp : ∀ r ∈ t, p r = true ↔ r = s) :
    t.update p f hf = t.set (f s) := by
  refine map_congr (fun r hr => ?_)
  by_cases h : r = s
  · subst h
    simp [(hp r hr).mpr rfl, hf]
  · have hk : key r ≠ key s := fun hk => h (eq_of_key hr hs hk)
    simp [hf, hk, mt (hp r hr).mp h]

/-- An update of the row with a given key. -/
lemma update_key_eq_set [DecidableEq κ] {t : Table key} {f : ρ → ρ}
    {hf : ∀ r, key (f r) = key r} {s : ρ} (hs : s ∈ t) {k : κ} (hk : key s = k) :
    t.update (fun r => key r = k) f hf = t.set (f s) := by
  refine update_eq_set hs (fun r hr => ?_)
  subst hk
  rw [decide_eq_true_iff]
  exact ⟨eq_of_key hr hs, congrArg key⟩

lemma mem_set [DecidableEq κ] {t : Table key} {r s x : ρ} (hs : s ∈ t) (hk : key r = key s) :
    x ∈ t.set r ↔ x = r ∨ x ∈ t ∧ key x ≠ key r := by
  unfold set
  rw [mem_map]
  constructor
  · rintro ⟨y, hy, rfl⟩
    by_cases h : key y = key r
    · exact .inl (if_pos h)
    · rw [if_neg h]
      exact .inr ⟨hy, h⟩
  · rintro (rfl | ⟨hx, h⟩)
    · exact ⟨s, hs, if_pos hk.symm⟩
    · exact ⟨x, hx, if_neg h⟩

/-- The rows around the row that is set stay in place. -/
lemma set_split [DecidableEq κ] {t : Table key} {r s : ρ} (hs : s ∈ t) (hk : key r = key s) :
    ∃ l₁ l₂, t.rows = l₁ ++ s :: l₂ ∧ (t.set r).rows = l₁ ++ r :: l₂ := by
  obtain ⟨l₁, l₂, hrows⟩ := List.append_of_mem (mem_rows.mpr hs)
  have hnodup := t.nodup
  rw [hrows, List.map_append, List.map_cons, List.nodup_middle, List.nodup_cons,
    List.mem_append, not_or] at hnodup
  obtain ⟨⟨h₁, h₂⟩, -⟩ := hnodup
  have hother : ∀ l : List ρ, key s ∉ l.map key →
      l.map (fun x => if key x = key r then r else x) = l := by
    intro l hl
    rw [List.map_congr_left (g := id), List.map_id]
    intro x hx
    refine if_neg (fun hx' => hl ?_)
    rw [← hk, ← hx']
    exact List.mem_map_of_mem hx
  refine ⟨l₁, l₂, hrows, ?_⟩
  unfold set
  rw [rows_map, hrows, List.map_append, List.map_cons, if_pos hk.symm, hother l₁ h₁, hother l₂ h₂]

/-- A rewriting that keeps the condition of a selection rewrites the selected rows in place. -/
lemma select_map (t : Table key) {q : ρ → Bool} {f : ρ → ρ} {hf : ∀ r, key (f r) = key r}
    (hq : ∀ r ∈ t, q (f r) = q r) : (t.map f hf).select q = (t.select q).map f := by
  unfold select
  rw [rows_map, List.filter_map]
  congr 1
  exact List.filter_congr hq

lemma first_of_rows_map {t t' : Table key} {p : ρ → Bool} {f : ρ → ρ}
    (rows : t'.rows = t.rows.map f) (hp : ∀ r ∈ t, p (f r) = p r) :
    t'.first p = (t.first p).map f := by
  unfold first
  rw [rows, List.find?_map]
  exact congrArg (Option.map f) (List.find?_congr hp)

/-- Setting a row changes the size of a selection by that row alone. -/
lemma length_select_set [DecidableEq κ] {t : Table key} {r s : ρ} (hs : s ∈ t) (hk : key r = key s)
    (q : ρ → Bool) :
    ((t.set r).select q).length + (if q s then 1 else 0) =
      (t.select q).length + (if q r then 1 else 0) := by
  obtain ⟨l₁, l₂, h, h'⟩ := set_split hs hk
  unfold select
  rw [h, h', ← List.countP_eq_length_filter, ← List.countP_eq_length_filter]
  simp only [List.countP_append, List.countP_cons]
  omega

/-- Setting a row that agrees with the old one on a selection and on a column keeps the
column of the selection. -/
lemma map_select_set [DecidableEq κ] {β : Type} {t : Table key} {r s : ρ} (hs : s ∈ t)
    (hk : key r = key s) {q : ρ → Bool} (hq : q r = q s) {g : ρ → β} (hg : g r = g s) :
    ((t.set r).select q).map g = (t.select q).map g := by
  obtain ⟨l₁, l₂, h, h'⟩ := set_split hs hk
  unfold select
  rw [h, h', List.filter_append, List.filter_append, List.filter_cons, List.filter_cons, hq]
  cases q s <;> simp [hg]

/-- Selections of the same rows have the same size. -/
lemma length_select_congr {t t' : Table key} {q : ρ → Bool}
    (h : ∀ r, q r = true → (r ∈ t ↔ r ∈ t')) :
    (t.select q).length = (t'.select q).length := by
  have hnodup : ∀ t : Table key, (t.select q).Nodup :=
    fun t => t.nodup.of_map.filter _
  apply List.Perm.length_eq
  rw [List.perm_ext_iff_of_nodup (hnodup t) (hnodup t')]
  intro r
  rw [mem_select, mem_select]
  exact and_congr_left (h r)

lemma insert?_some [DecidableEq κ] {t t' : Table key} {r : ρ} (h : t.insert? r = some t') :
    t'.rows = t.rows ++ [r] ∧ ∀ s ∈ t, key s ≠ key r := by
  unfold insert? at h
  split at h
  · cases h
  · rename_i hk
    cases h
    exact ⟨rfl, fun s hs he => hk (List.mem_map.mpr ⟨s, hs, he⟩)⟩

lemma mem_of_rows_append {t t' : Table key} {r s : ρ} (h : t'.rows = t.rows ++ [r]) :
    s ∈ t' ↔ s ∈ t ∨ s = r := by
  rw [← mem_rows, h, List.mem_append, List.mem_singleton, mem_rows]

lemma select_of_rows_append {t t' : Table key} {r : ρ} (h : t'.rows = t.rows ++ [r]) (p : ρ → Bool) :
    t'.select p = t.select p ++ if p r then [r] else [] := by
  unfold select
  rw [h, List.filter_append]
  cases hp : p r <;> simp [hp]

@[simp] lemma rows_delete (t : Table key) (p : ρ → Bool) :
    (t.delete p).rows = t.rows.filter (fun r => !p r) := rfl

@[simp] lemma mem_delete {t : Table key} {p : ρ → Bool} {r : ρ} :
    r ∈ t.delete p ↔ r ∈ t ∧ p r = false := by
  rw [← mem_rows, rows_delete, List.mem_filter, mem_rows]
  simp

/-- Deleting rows outside a selection leaves the selection as it was. -/
lemma select_delete {t : Table key} {p q : ρ → Bool} (h : ∀ r ∈ t, q r = true → p r = false) :
    (t.delete p).select q = t.select q := by
  unfold select
  rw [rows_delete, List.filter_filter]
  apply List.filter_congr
  intro r hr
  cases hq : q r with
  | false => simp
  | true => simp [h r hr hq]

lemma first_delete {t : Table key} {p q : ρ → Bool} (h : ∀ r ∈ t, q r = true → p r = false) :
    (t.delete p).first q = t.first q := by
  unfold first
  rw [rows_delete, List.find?_filter]
  refine List.find?_congr (fun r hr => ?_)
  cases hq : q r with
  | false => simp
  | true => simp [h r hr hq]

/-! ### Unique columns -/

/-- `UNIQUE (g)`: no two rows agree on the columns `g`. -/
def UniqueOn {β : Type} (t : Table key) (g : ρ → β) : Prop :=
  ∀ r ∈ t, ∀ s ∈ t, g r = g s → r = s

variable {β : Type} {g : ρ → β} {t t' : Table key}

instance [DecidableEq ρ] [DecidableEq β] (t : Table key) (g : ρ → β) : Decidable (t.UniqueOn g) :=
  inferInstanceAs (Decidable (∀ r ∈ t, ∀ s ∈ t, g r = g s → r = s))

lemma uniqueOn_empty : (empty : Table key).UniqueOn g :=
  fun r hr => absurd hr (not_mem_empty r)

lemma UniqueOn.map (h : t.UniqueOn g) {f : ρ → ρ} {hf : ∀ r, key (f r) = key r}
    (hg : ∀ r ∈ t, g (f r) = g r) : (t.map f hf).UniqueOn g := by
  intro r' hr' s' hs' he
  obtain ⟨r, hr, rfl⟩ := mem_map.mp hr'
  obtain ⟨s, hs, rfl⟩ := mem_map.mp hs'
  rw [hg r hr, hg s hs] at he
  rw [h r hr s hs he]

lemma UniqueOn.set [DecidableEq κ] (h : t.UniqueOn g) {r s : ρ} (hs : s ∈ t)
    (hk : key r = key s) (hg : g r = g s) : (t.set r).UniqueOn g := by
  refine h.map (fun x hx => ?_)
  split_ifs with hx'
  · rw [hg, eq_of_key hx hs (hx'.trans hk)]
  · rfl

/-- The row that is set agrees on the columns with no other row. -/
lemma UniqueOn.set_fresh [DecidableEq κ] (h : t.UniqueOn g) {r : ρ}
    (fresh : ∀ s ∈ t, key s ≠ key r → g s ≠ g r) : (t.set r).UniqueOn g := by
  have hold : ∀ x ∈ t.set r, x = r ∨ x ∈ t ∧ key x ≠ key r := by
    intro x hx
    obtain ⟨y, hy, rfl⟩ := mem_map.mp hx
    by_cases hk : key y = key r
    · exact .inl (if_pos hk)
    · rw [if_neg hk]
      exact .inr ⟨hy, hk⟩
  intro a ha b hb hab
  rcases hold a ha with rfl | ⟨ha', hka⟩ <;> rcases hold b hb with rfl | ⟨hb', hkb⟩
  · rfl
  · exact absurd hab.symm (fresh b hb' hkb)
  · exact absurd hab (fresh a ha' hka)
  · exact h a ha' b hb' hab

lemma UniqueOn.append (h : t.UniqueOn g) {r : ρ} (rows : t'.rows = t.rows ++ [r])
    (fresh : ∀ s ∈ t, g s ≠ g r) : t'.UniqueOn g := by
  intro a ha b hb hab
  rcases (mem_of_rows_append rows).mp ha with ha | rfl <;>
    rcases (mem_of_rows_append rows).mp hb with hb | rfl
  · exact h a ha b hb hab
  · exact absurd hab (fresh a ha)
  · exact absurd hab.symm (fresh b hb)
  · rfl

lemma UniqueOn.delete (h : t.UniqueOn g) (p : ρ → Bool) : (t.delete p).UniqueOn g :=
  fun r hr s hs => h r (mem_delete.mp hr).1 s (mem_delete.mp hs).1

end Table

end ChatBI.Lib
