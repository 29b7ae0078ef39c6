import ChatBI.Lib.Table

/-!
# Resources held by the rows of a table

A resource pool records which keys are taken. `Exclusive` says that the keys held by the rows
of a table are taken and that no two rows hold the same key; `Registered` says that a
dictionary maps every held key to its holder; `Counted` says that a counter is the number of
its holders. All are kept when one row acquires a free key or gives its key back.
-/

namespace ChatBI.Lib

namespace Table

variable {ρ ι κ : Type} {key : ρ → ι} {t : Table key} {f : ρ → Option κ}

/-- The keys held by the rows are in the list and are held once. -/
structure Exclusive (t : Table key) (f : ρ → Option κ) (taken : List κ) : Prop where
  mem : ∀ r ∈ t, ∀ k, f r = some k → k ∈ taken
  one : ∀ r ∈ t, ∀ s ∈ t, ∀ k, f r = some k → f s = some k → r = s

/-- The dictionary maps the keys held by the rows to these rows. -/
def Registered (t : Table key) (f : ρ → Option κ) (dict : κ → Option ι) : Prop :=
  ∀ r ∈ t, ∀ k, f r = some k → dict k = some (key r)

variable {taken : List κ} {dict : κ → Option ι} {r u : ρ}

namespace Exclusive

lemma empty : (Table.empty : Table key).Exclusive f taken :=
  ⟨fun r hr => absurd hr (not_mem_empty r), fun r hr => absurd hr (not_mem_empty r)⟩

/-- A new row holds nothing yet. -/
lemma append {t' : Table key} (x : t.Exclusive f taken) (rows : t'.rows = t.rows ++ [r])
    (hf : f r = none) : t'.Exclusive f taken := by
  have hold : ∀ a ∈ t', ∀ k, f a = some k → a ∈ t := by
    intro a ha k hak
    rcases (mem_of_rows_append rows).mp ha with ha | rfl
    · exact ha
    · rw [hf] at hak
      cases hak
  exact ⟨fun a ha k hak => x.mem a (hold a ha k hak) k hak,
    fun a ha b hb k hak hbk => x.one a (hold a ha k hak) b (hold b hb k hbk) k hak hbk⟩

lemma mono (x : t.Exclusive f taken) {taken' : List κ} (h : ∀ k ∈ taken, k ∈ taken') :
    t.Exclusive f taken' :=
  ⟨fun r hr k hk => h k (x.mem r hr k hk), x.one⟩

variable [DecidableEq ι]

/-- A row that holds nothing new takes the place of the old one. -/
lemma set (x : t.Exclusive f taken) (hr : r ∈ t) (hk : key u = key r)
    (hf : ∀ k, f u = some k → f r = some k) : (t.set u).Exclusive f taken := by
  refine ⟨?_, ?_⟩
  · intro a ha k hak
    rcases (mem_set hr hk).mp ha with rfl | ⟨ha, -⟩
    · exact x.mem r hr k (hf k hak)
    · exact x.mem a ha k hak
  · intro a ha b hb k hak hbk
    rcases (mem_set hr hk).mp ha with rfl | ⟨hat, hna⟩ <;>
      rcases (mem_set hr hk).mp hb with rfl | ⟨hbt, hnb⟩
    · rfl
    · have hrb := x.one r hr b hbt k (hf k hak) hbk
      rw [← hrb] at hnb
      exact absurd hk.symm hnb
    · have hra := x.one r hr a hat k (hf k hbk) hak
      rw [← hra] at hna
      exact absurd hk.symm hna
    · exact x.one a hat b hbt k hak hbk

/-- A row acquires a free key. -/
lemma acquire (x : t.Exclusive f taken) (hr : r ∈ t) (hk : key u = key r) {k : κ}
    (free : k ∉ taken) (hf : f u = some k) : (t.set u).Exclusive f (k :: taken) := by
  have hother : ∀ s ∈ t, f s ≠ some k := fun s hs hsk => free (x.mem s hs k hsk)
  refine ⟨?_, ?_⟩
  · intro a ha j haj
    rcases (mem_set hr hk).mp ha with rfl | ⟨ha, -⟩
    · rw [hf, Option.some.injEq] at haj
      rw [← haj]
      exact List.mem_cons_self
    · exact List.mem_cons_of_mem k (x.mem a ha j haj)
  · intro a ha b hb j haj hbj
    rcases (mem_set hr hk).mp ha with rfl | ⟨hat, -⟩ <;>
      rcases (mem_set hr hk).mp hb with rfl | ⟨hbt, -⟩
    · rfl
    · rw [← haj, hf] at hbj
      exact absurd hbj (hother b hbt)
    · rw [← hbj, hf] at haj
      exact absurd haj (hother a hat)
    · exact x.one a hat b hbt j haj hbj

/-- A row gives its key back. -/
lemma release [BEq κ] [LawfulBEq κ] (x : t.Exclusive f taken) (hr : r ∈ t) (hk : key u = key r)
    {k : κ} (hf : f r = some k) (hf' : f u = none) : (t.set u).Exclusive f (taken.erase k) := by
  have hnone : ∀ j, f u = some j → f r = some j := by
    intro j hj
    rw [hf'] at hj
    cases hj
  refine ⟨?_, (x.set hr hk hnone).one⟩
  intro a ha j haj
  rcases (mem_set hr hk).mp ha with rfl | ⟨ha, hna⟩
  · rw [hf'] at haj
    cases haj
  · have hne : j ≠ k := by
      rintro rfl
      rw [x.one a ha r hr j haj hf] at hna
      exact hna hk.symm
    exact (List.mem_erase_of_ne hne).mpr (x.mem a ha j haj)

end Exclusive

namespace Registered

lemma empty : (Table.empty : Table key).Registered f dict :=
  fun r hr => absurd hr (not_mem_empty r)

/-- Two rows with one key are the same row. -/
lemma one (x : t.Registered f dict) {s : ρ} (hr : r ∈ t) (hs : s ∈ t) {k : κ}
    (hrk : f r = some k) (hsk : f s = some k) : r = s := by
  have hkeys := (x r hr k hrk).symm.trans (x s hs k hsk)
  exact eq_of_key hr hs (Option.some.injEq _ _ ▸ hkeys)

lemma append {t' : Table key} (x : t.Registered f dict) (rows : t'.rows = t.rows ++ [r])
    (hf : f r = none) : t'.Registered f dict := by
  intro a ha k hak
  rcases (mem_of_rows_append rows).mp ha with ha | rfl
  · exact x a ha k hak
  · rw [hf] at hak
    cases hak

variable [DecidableEq ι]

lemma set (x : t.Registered f dict) (hr : r ∈ t) (hk : key u = key r)
    (hf : ∀ k, f u = some k → f r = some k) : (t.set u).Registered f dict := by
  intro a ha k hak
  rcases (mem_set hr hk).mp ha with rfl | ⟨ha, -⟩
  · rw [hk]
    exact x r hr k (hf k hak)
  · exact x a ha k hak

variable [DecidableEq κ]

/-- A row enters a key that no other row holds. -/
lemma acquire (x : t.Registered f dict) (hr : r ∈ t) (hk : key u = key r) {k : κ}
    (free : ∀ s ∈ t, f s = some k → s = r) (hf : f u = some k) :
    (t.set u).Registered f (Function.update dict k (some (key r))) := by
  intro a ha j haj
  rcases (mem_set hr hk).mp ha with rfl | ⟨ha, hna⟩
  · rw [hf, Option.some.injEq] at haj
    rw [← haj, Function.update_self, hk]
  · have hne : j ≠ k := by
      rintro rfl
      rw [free a ha haj] at hna
      exact hna hk.symm
    rw [Function.update_of_ne hne]
    exact x a ha j haj

/-- A row deletes its key. -/
lemma release (x : t.Registered f dict) (hr : r ∈ t) (hk : key u = key r) {k : κ}
    (hf : f r = some k) (hf' : f u = none) :
    (t.set u).Registered f (Function.update dict k none) := by
  intro a ha j haj
  rcases (mem_set hr hk).mp ha with rfl | ⟨ha, hna⟩
  · rw [hf'] at haj
    cases haj
  · have hne : j ≠ k := by
      rintro rfl
      rw [x.one ha hr haj hf] at hna
      exact hna hk.symm
    rw [Function.update_of_ne hne]
    exact x a ha j haj

end Registered

/-- The list is that of the keys held by the rows, each once. -/
structure Occupied (t : Table key) (f : ρ → Option κ) (taken : List κ) : Prop where
  exclusive : t.Exclusive f taken
  nodup : taken.Nodup
  covered : ∀ k ∈ taken, ∃ r ∈ t, f r = some k

namespace Occupied

lemma empty : (Table.empty : Table key).Occupied f [] :=
  ⟨.empty, List.nodup_nil, fun _ h => absurd h List.not_mem_nil⟩

lemma mem_iff (x : t.Occupied f taken) {k : κ} : k ∈ taken ↔ ∃ r ∈ t, f r = some k :=
  ⟨x.covered k, fun ⟨r, hr, hk⟩ => x.exclusive.mem r hr k hk⟩

lemma append {t' : Table key} (x : t.Occupied f taken) (rows : t'.rows = t.rows ++ [r])
    (hf : f r = none) : t'.Occupied f taken := by
  refine ⟨x.exclusive.append rows hf, x.nodup, fun k hk => ?_⟩
  obtain ⟨s, hs, hsk⟩ := x.covered k hk
  exact ⟨s, (mem_of_rows_append rows).mpr (.inl hs), hsk⟩

variable [DecidableEq ι]

/-- A row of which every key but `k` is held by its successor keeps the others covered. -/
lemma covered_set (x : t.Occupied f taken) (hr : r ∈ t) (hk : key u = key r) {j : κ}
    (hj : j ∈ taken) (hf : f r = some j → f u = some j) : ∃ s ∈ t.set u, f s = some j := by
  obtain ⟨s, hs, hsj⟩ := x.covered j hj
  by_cases hsame : key s = key u
  · rw [eq_of_key hs hr (hsame.trans hk)] at hsj
    exact ⟨u, (mem_set hr hk).mpr (.inl rfl), hf hsj⟩
  · exact ⟨s, (mem_set hr hk).mpr (.inr ⟨hs, hsame⟩), hsj⟩

lemma set (x : t.Occupied f taken) (hr : r ∈ t) (hk : key u = key r) (hf : f u = f r) :
    (t.set u).Occupied f taken := by
  refine ⟨x.exclusive.set hr hk fun k hu => hf ▸ hu, x.nodup, fun j hj => ?_⟩
  exact x.covered_set hr hk hj fun hrj => hf.trans hrj

lemma acquire (x : t.Occupied f taken) (hr : r ∈ t) (hk : key u = key r) {k : κ} (free : k ∉ taken)
    (hf : f r = none) (hf' : f u = some k) : (t.set u).Occupied f (k :: taken) := by
  refine ⟨x.exclusive.acquire hr hk free hf', List.nodup_cons.mpr ⟨free, x.nodup⟩, ?_⟩
  intro j hj
  rcases List.mem_cons.mp hj with rfl | hj
  · exact ⟨u, (mem_set hr hk).mpr (.inl rfl), hf'⟩
  · apply x.covered_set hr hk hj
    intro hrj
    rw [hf] at hrj
    cases hrj

lemma release [BEq κ] [LawfulBEq κ] (x : t.Occupied f taken) (hr : r ∈ t) (hk : key u = key r)
    {k : κ} (hf : f r = some k) (hf' : f u = none) : (t.set u).Occupied f (taken.erase k) := by
  refine ⟨x.exclusive.release hr hk hf hf', x.nodup.erase k, ?_⟩
  intro j hj
  obtain ⟨hne, hin⟩ := x.nodup.mem_erase_iff.mp hj
  apply x.covered_set hr hk hin
  intro hrj
  rw [hf] at hrj
  exact absurd (Option.some.inj hrj).symm hne

end Occupied

/-- The counter is the number of the rows that satisfy the condition. -/
def Counted (t : Table key) (q : ρ → Bool) (n : ℕ) : Prop := n = (t.select q).length

namespace Counted

variable {q q' : ρ → Bool} {n : ℕ}

lemma empty : (Table.empty : Table key).Counted q 0 := rfl

lemma append {t' : Table key} (x : t.Counted q n) (rows : t'.rows = t.rows ++ [r])
    (hq : q r = false) : t'.Counted q n := by
  rw [Counted, select_of_rows_append rows, hq, if_neg Bool.false_ne_true, List.append_nil]
  exact x

/-- A new row that satisfies the condition is counted. -/
lemma append_one {t' : Table key} (x : t.Counted q n) (rows : t'.rows = t.rows ++ [r])
    (hq : q r = true) : t'.Counted q (n + 1) := by
  rw [Counted, select_of_rows_append rows, hq, if_pos rfl, List.length_append, ← x]
  rfl

/-- A condition that implies the counted one holds of no more rows. -/
lemma le (x : t.Counted q n) (h : ∀ r ∈ t, q' r = true → q r = true) :
    (t.select q').length ≤ n := by
  rw [x]
  unfold select
  rw [← List.countP_eq_length_filter, ← List.countP_eq_length_filter]
  exact List.countP_mono_left h

variable [DecidableEq ι]

lemma set (x : t.Counted q n) (hr : r ∈ t) (hk : key u = key r) (hq : q u = q r) :
    (t.set u).Counted q n := by
  have hlength := length_select_set hr hk q
  rw [hq] at hlength
  rw [Counted, x]
  omega

/-- A row that did not satisfy the condition satisfies it. -/
lemma acquire (x : t.Counted q n) (hr : r ∈ t) (hk : key u = key r) (hq : q r = false)
    (hq' : q u = true) : (t.set u).Counted q (n + 1) := by
  have hlength := length_select_set hr hk q
  rw [hq, hq'] at hlength
  simp only [if_true, Bool.false_eq_true, if_false] at hlength
  rw [Counted, x]
  omega

lemma release (x : t.Counted q n) (hr : r ∈ t) (hk : key u = key r) (hq : q r = true)
    (hq' : q u = false) : (t.set u).Counted q (n - 1) := by
  have hlength := length_select_set hr hk q
  rw [hq, hq'] at hlength
  simp only [if_true, Bool.false_eq_true, if_false] at hlength
  rw [Counted, x]
  omega

end Counted

end Table

end ChatBI.Lib
