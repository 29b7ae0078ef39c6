import ChatBI.SqlGuard.Rows

/-!
# Certified joins keep the rows of their base

A query whose joins pass the guard has, on every database that satisfies the keys of the graph, each
row of its base table exactly once.
-/

namespace ChatBI.SqlGuard

open ChatBI.Lib ChatBI.Lib.Relational ChatBI.Semantic ChatBI.Relationships

section Folding

lemma lowered_folded (i : Identifier) : lowered i.folded = lowered i.text := by
  unfold Identifier.folded
  split
  · rfl
  · exact lowered_lowered i.text

/-- What is relied on of Python. -/
structure Outside.Documented (outside : Outside) : Prop where
  casefold_lowered : ∀ s, outside.casefold (lowered s) = outside.casefold s
  mem_iterate : ∀ l x, x ∈ outside.iterate l → x ∈ l

/-- A name that is not changed by folding it. -/
structure IsFolded (outside : Outside) (name : String) : Prop where
  casefold : outside.casefold name = name
  lowered : lowered name = name

variable {outside : Outside} {i j : Identifier} {s t : String}

lemma Outside.Documented.casefold_congr (h : outside.Documented) (hlowered : lowered s = lowered t) :
    outside.casefold s = outside.casefold t := by
  rw [← h.casefold_lowered s, hlowered, h.casefold_lowered]

lemma Outside.Documented.casefold_text (h : outside.Documented) (hfolded : i.folded = j.folded) :
    outside.casefold i.text = outside.casefold j.text := by
  apply h.casefold_congr
  rw [← lowered_folded, hfolded, lowered_folded]

lemma folded_of_isFolded (h : lowered i.text = i.text) : i.folded = i.text := by
  unfold Identifier.folded
  split
  · rfl
  · exact h

lemma lowered_dot (s t : String) : lowered s!"{s}.{t}" = s!"{lowered s}.{lowered t}" := by
  have hdot : lowered "." = "." := by decide
  change lowered (s ++ "." ++ t) = _
  rw [lowered_append, lowered_append, hdot]
  rfl

end Folding

section Context

/-- The names that a context certifies are written in lower case. -/
structure FoldedNames (outside : Outside) (context : QueryContext) : Prop where
  tables : ∀ t ∈ context.allowedTables, IsFolded outside t
  columns : ∀ t, ∀ c ∈ allowedOf context t, IsFolded outside c
  constraints : ∀ c ∈ context.joinConstraints, IsFolded outside c.sourceTable ∧
    IsFolded outside c.targetTable ∧ (∀ n ∈ c.sourceColumns, IsFolded outside n) ∧
    ∀ n ∈ c.targetColumns, IsFolded outside n

/-- A table that passed the check of its scope: its qualified name is that of the stored table. -/
lemma validatePhysicalTable_ok {outside : Outside} {context : QueryContext} {t : TableNode}
    {qualified : String} (hfolded : FoldedNames outside context)
    (ht : validatePhysicalTable context t = .ok ()) (hq : qualifiedTableRef t = .ok qualified) :
    ∃ schema name, t.db = some schema ∧ t.name = some name ∧
      qualified = s!"{schema.folded}.{name.folded}" ∧ qualified = s!"{schema.text}.{name.text}" ∧
      IsFolded outside qualified := by
  simp only [validatePhysicalTable, checked_bind_ok, require_ok] at ht
  obtain ⟨⟨-, hschema⟩, hallowed⟩ := ht
  unfold qualifiedTableRef at hq
  split at hq
  · rename_i schema name hcatalog hdb hname
    cases hq
    rw [hdb, Option.map_some, Option.some.injEq] at hschema
    rw [hname] at hallowed
    have hin : s!"{schema.text}.{name.text}" ∈ context.allowedTables := by
      rw [hschema]
      exact hallowed
    have hname' := hfolded.tables _ hin
    have hlowered : lowered schema.text = schema.text := by
      rw [hschema]
      decide
    have heq := hname'.lowered
    rw [lowered_dot, hlowered] at heq
    have htext : lowered name.text = name.text := by
      have hlist := congrArg String.toList heq
      change (schema.text ++ "." ++ lowered name.text).toList =
        (schema.text ++ "." ++ name.text).toList at hlist
      simp only [String.toList_append, List.append_cancel_left_eq] at hlist
      exact String.toList_injective hlist
    refine ⟨schema, name, hdb, hname, ?_, rfl, hname'⟩
    rw [folded_of_isFolded hlowered, folded_of_isFolded htext]
  · cases hq

end Context

section Bindings

variable {ε ν : Type} {outside : Outside} {context : QueryContext} {select : Select ε}
  {bindings : Bindings} {t : TableNode} {q : String}

/-- The names under which a table is bound. -/
def namesOf (t : TableNode) (q : String) : List String :=
  t.name.toList.map Identifier.text ++ [q] ++ t.alias_.toList.map Identifier.text

lemma bindingsOf_ok {bs : Bindings} : bindingsOf outside t = .ok bs ↔
    ∃ q, qualifiedTableRef t = .ok q ∧
      bs = (namesOf t q).map fun name => (outside.casefold name, q) := by
  rw [bindingsOf]
  simp only [except_bind_ok, except_pure_ok]
  exact exists_congr fun q => and_congr_right fun _ => eq_comm

lemma mem_bindings (hbind : tableBindings outside select = .ok bindings) (ht : t ∈ select.tables)
    (hq : qualifiedTableRef t = .ok q) {name : String} (hname : name ∈ namesOf t q) :
    (outside.casefold name, q) ∈ bindings := by
  obtain ⟨bs, hbs, h⟩ := except_bind_ok.mp hbind
  rw [except_pure_ok] at h
  subst h
  obtain ⟨b, hb, hof⟩ := exists_of_forall₂ (mapM_ok hbs).flip ht
  obtain ⟨q', hq', rfl⟩ := bindingsOf_ok.mp hof
  rw [hq] at hq'
  cases hq'
  exact List.mem_flatten.mpr ⟨_, hb, List.mem_map_of_mem hname⟩

lemma table_of_binding (hbind : tableBindings outside select = .ok bindings)
    (hq : q ∈ bindings.all) : ∃ t ∈ select.tables, qualifiedTableRef t = .ok q := by
  obtain ⟨bs, hbs, h⟩ := except_bind_ok.mp hbind
  rw [except_pure_ok] at h
  subst h
  obtain ⟨b, hb, rfl⟩ := List.mem_map.mp (List.mem_dedup.mp hq)
  obtain ⟨bt, hbt, hb⟩ := List.mem_flatten.mp hb
  obtain ⟨t, ht, hof⟩ := exists_of_forall₂ (mapM_ok hbs) hbt
  obtain ⟨q', hq', rfl⟩ := bindingsOf_ok.mp hof
  obtain ⟨name, -, rfl⟩ := List.mem_map.mp hb
  exact ⟨t, ht, hq'⟩

lemma validatePhysicalTable_of_mem (hvalid : validateTables context select = .ok ())
    (ht : t ∈ select.tables) (hq : qualifiedTableRef t = .ok q) :
    validatePhysicalTable context t = .ok () := by
  simp only [validateTables, checked_bind_ok, forM_ok_iff] at hvalid
  apply hvalid.2 t
  rw [List.mem_filter]
  refine ⟨ht, ?_⟩
  unfold qualifiedTableRef at hq
  split at hq
  · rename_i hname
    simp [hname]
  · cases hq

lemma isFolded_of_bound (hfolded : FoldedNames outside context)
    (hvalid : validateTables context select = .ok ())
    (hbind : tableBindings outside select = .ok bindings) (hq : q ∈ bindings.all) :
    IsFolded outside q := by
  obtain ⟨t, ht, href⟩ := table_of_binding hbind hq
  obtain ⟨_, _, -, -, -, -, h⟩ := validatePhysicalTable_ok hfolded
    (validatePhysicalTable_of_mem hvalid ht href) href
  exact h

end Bindings

section Columns

variable {ν : Type} {outside : Outside} {context : QueryContext} {bindings : Bindings}
  {db : Database ν} {scope : Scope ν} {c : ColumnNode} {q n : String}

/-- A table in scope that is bound under its qualified name. -/
structure InScope (outside : Outside) (context : QueryContext) (bindings : Bindings)
    (db : Database ν) (item : Item ν) (q : String) : Prop where
  qualified : qualifiedTableRef item.node = .ok q
  bound : ∀ name ∈ namesOf item.node q, (outside.casefold name, q) ∈ bindings
  valid : validatePhysicalTable context item.node = .ok ()
  plain : item.node.aliasColumns = []
  columns : ∀ column ∈ allowedOf context q, column ∈ item.stored.columns

lemma InScope.mem_all {item : Item ν} (h : InScope outside context bindings db item q) :
    q ∈ bindings.all := by
  have hname : q ∈ namesOf item.node q := by simp [namesOf]
  exact List.mem_dedup.mpr (List.mem_map.mpr ⟨_, h.bound q hname, rfl⟩)

/-- The columns of a table without column aliases keep their names. -/
lemma InScope.mem_visible {item : Item ν} (h : InScope outside context bindings db item q)
    {v : String × String} :
    v ∈ item.visible ↔ v.1 = v.2 ∧ v.2 ∈ item.stored.columns := by
  rw [Item.visible, h.plain]
  simp only [List.getElem?_nil, Option.map_none, Option.getD_none, List.mem_map]
  constructor
  · rintro ⟨p, hp, rfl⟩
    exact ⟨rfl, List.fst_mem_of_mem_zipIdx hp⟩
  · rintro ⟨heq, hin⟩
    obtain ⟨i, hi, hget⟩ := List.getElem_of_mem hin
    refine ⟨(v.2, i), List.mem_zipIdx_iff_getElem?.mpr ?_, ?_⟩
    · rw [List.getElem?_eq_getElem hi, hget]
    · exact Prod.ext heq.symm rfl

/-- A column that the guard takes for a column of a table in scope is that column. -/
lemma columnIdentity_sound (hdoc : outside.Documented) (hfolded : FoldedNames outside context)
    (hall : ∀ q ∈ bindings.all, IsFolded outside q)
    (hscope : ∀ p ∈ scope.places, ∃ q, InScope outside context bindings db p.2 q)
    (hid : columnIdentity outside context bindings c = .ok (q, n))
    (hq : ∃ p ∈ scope.places, InScope outside context bindings db p.2 q)
    {place : Option Nat} {name : String} (hresolve : scope.resolve db c = some (place, name)) :
    name = n ∧ ∃ item, (place, item) ∈ scope.places ∧
      InScope outside context bindings db item q := by
  obtain ⟨table, htable, hid⟩ := except_bind_ok.mp hid
  obtain ⟨hallowed, hid⟩ := checked_bind_ok.mp hid
  rw [except_pure_ok, Prod.mk.injEq] at hid
  have hname := hfolded.columns table _ (require_ok.mp hallowed)
  obtain ⟨hq', hn⟩ := hid
  rw [hname.casefold] at hn
  subst hn
  have hcolumn : c.name.folded = c.name.text := folded_of_isFolded hname.lowered
  -- the unique candidate
  have hcandidates : scope.candidates db c = [(place, name)] := by
    unfold Scope.resolve at hresolve
    split at hresolve
    · rename_i p hp
      rw [hp, Option.some.inj hresolve]
    · cases hresolve
  have hmem : (place, name) ∈ scope.candidates db c := hcandidates ▸ List.mem_singleton.mpr rfl
  simp only [Scope.candidates, List.mem_flatMap, List.mem_filter, List.mem_map, decide_eq_true_eq,
    Prod.mk.injEq] at hmem
  obtain ⟨⟨place', item⟩, ⟨hplace, hanswers⟩, v, ⟨hv, hvname⟩, rfl, rfl⟩ := hmem
  obtain ⟨r, hr⟩ := hscope _ hplace
  obtain ⟨hsame, -⟩ := hr.mem_visible.mp hv
  have hstored : v.2 = c.name.text := by rw [← hsame, hvname, hcolumn]
  refine ⟨hstored, ?_⟩
  have hfixed : table ∈ bindings.all → q = table := fun hin => by
    rw [← hq', (hall table hin).casefold]
  unfold physicalTable at htable
  split at htable
  · rename_i schema tname hschema htname
    -- by its schema and table
    have hmatch : table ∈ bindings.all ∧
        outside.casefold table = outside.casefold s!"{schema.text}.{tname.text}" := by
      unfold matchTableName at htable
      split at htable
      · rename_i found hfound
        cases htable
        exact ⟨hdoc.mem_iterate _ _ (List.mem_of_find?_eq_some hfound),
          by simpa using List.find?_some hfound⟩
      · cases htable
    obtain ⟨schema', name', hdb', hname', -, htext, hr'⟩ :=
      validatePhysicalTable_ok hfolded hr.valid hr.qualified
    simp only [Item.Answers, hschema, htname] at hanswers
    obtain ⟨-, -, hschema', htname'⟩ := hanswers
    rw [hdb', Option.map_some, Option.some.injEq] at hschema'
    rw [hname', Option.map_some, Option.some.injEq] at htname'
    have hsame : outside.casefold s!"{schema.text}.{tname.text}" = outside.casefold r := by
      rw [htext]
      apply hdoc.casefold_congr
      rw [lowered_dot, lowered_dot, ← lowered_folded schema, ← lowered_folded tname, ← hschema',
        ← htname', lowered_folded, lowered_folded]
    have heq : r = table := by
      rw [← hr'.casefold, ← hsame, ← hmatch.2, (hall table hmatch.1).casefold]
    rw [hfixed hmatch.1, ← heq]
    exact ⟨item, hplace, hr⟩
  · rename_i tname hschema htname
    -- by its table or alias
    split at htable
    · rename_i found hfound
      cases htable
      have hget : ∀ t, t ∈ bindings.get (outside.casefold tname.text) ↔ t = table := by
        rw [hfound]
        exact fun t => List.mem_singleton
      have hin : table ∈ bindings.all := by
        have hself := (hget table).mpr rfl
        simp only [Bindings.get, List.mem_dedup, List.mem_map, List.mem_filter] at hself
        obtain ⟨b, ⟨hb, -⟩, rfl⟩ := hself
        exact List.mem_dedup.mpr (List.mem_map_of_mem hb)
      simp only [Item.Answers, hschema, htname] at hanswers
      obtain ⟨j, hj, hjfolded⟩ := Option.map_eq_some_iff.mp hanswers.2
      have hnames : j.text ∈ namesOf item.node r := by
        rw [namesOf]
        cases halias : item.node.alias_ with
        | none =>
          rw [halias, Option.none_or] at hj
          simp [hj]
        | some a =>
          rw [halias, Option.some_or, Option.some.injEq] at hj
          simp [hj]
      have hbound := hr.bound j.text hnames
      rw [hdoc.casefold_text hjfolded] at hbound
      have heq : r = table := by
        rw [← hget]
        simp only [Bindings.get, List.mem_dedup, List.mem_map, List.mem_filter]
        exact ⟨_, ⟨hbound, by simp⟩, rfl⟩
      rw [hfixed hin, ← heq]
      exact ⟨item, hplace, hr⟩
    · cases htable
  · rename_i htname
    -- by its name alone
    split at htable
    · rename_i found hfound
      cases htable
      have hin : table ∈ bindings.all :=
        List.mem_of_mem_filter (hfound ▸ List.mem_singleton.mpr rfl)
      obtain ⟨p, hp, hscoped⟩ := hq
      rw [hfixed hin] at hscoped ⊢
      have hvisible : (c.name.text, c.name.text) ∈ p.2.visible :=
        hscoped.mem_visible.mpr ⟨rfl, hscoped.columns _ (require_ok.mp hallowed)⟩
      have hother : (p.1, c.name.text) ∈ scope.candidates db c := by
        simp only [Scope.candidates, List.mem_flatMap, List.mem_filter, List.mem_map,
          decide_eq_true_eq, Prod.mk.injEq]
        refine ⟨p, ⟨hp, ?_⟩, _, ⟨hvisible, hcolumn.symm⟩, rfl, rfl⟩
        refine ⟨hanswers.1, ?_⟩
        rw [htname]
        cases c.db <;> trivial
      rw [hcandidates, List.mem_singleton, Prod.mk.injEq] at hother
      rw [← hother.1]
      exact ⟨p.2, hp, hscoped⟩
    · cases htable

end Columns

section Conditions

variable {ε ν : Type} [DecidableEq ν] {outside : Outside} {context : QueryContext}
  {bindings : Bindings} {db : Database ν} {scope : Scope ν} {meaning : Meaning ε ν} {env : Env ν}
  {condition k : Condition ε}

/-- A sorted pair is the pair in one of its two orders. -/
lemma sortedPair_eq {a b a' b' : Identity} (h : sortedPair a b = sortedPair a' b') :
    (a = a' ∧ b = b') ∨ (a = b' ∧ b = a') := by
  have hcases : ∀ a b : Identity, sortedPair a b = (a, b) ∨ sortedPair a b = (b, a) := by
    intro a b
    unfold sortedPair
    split
    · exact .inl rfl
    · exact .inr rfl
  rcases hcases a b with hab | hab <;> rcases hcases a' b' with hab' | hab' <;>
    rw [hab, hab', Prod.mk.injEq] at h
  · exact .inl h
  · exact .inr h
  · exact .inr ⟨h.2, h.1⟩
  · exact .inl ⟨h.2, h.1⟩

lemma truth_of_mem_conjuncts (h : condition.truth meaning db scope env = some true)
    (hk : k ∈ multiConjuncts condition) : k.truth meaning db scope env = some true := by
  induction condition with
  | and left right ihl ihr =>
    rw [Condition.truth, and3_eq_true] at h
    rcases List.mem_append.mp hk with hk | hk
    · exact ihl h.1 hk
    · exact ihr h.2 hk
  | paren inner ih => exact ih h hk
  | eq left right =>
    rw [List.mem_singleton.mp hk]
    exact h
  | other e =>
    rw [List.mem_singleton.mp hk]
    exact h

omit [DecidableEq ν] in
lemma resolves_of_mem_conjuncts (h : condition.Resolves db scope)
    (hk : k ∈ multiConjuncts condition) : k.Resolves db scope := by
  induction condition with
  | and left right ihl ihr =>
    rcases List.mem_append.mp hk with hk | hk
    · exact ihl h.1 hk
    · exact ihr h.2 hk
  | paren inner ih => exact ih h hk
  | eq left right =>
    rw [List.mem_singleton.mp hk]
    exact h
  | other e =>
    rw [List.mem_singleton.mp hk]
    trivial

lemma joinPair_ok {p : Identity × Identity} (h : joinPair outside context bindings k = .ok p) :
    ∃ l r a b, k = .eq (.column l) (.column r) ∧ columnIdentity outside context bindings l = .ok a ∧
      columnIdentity outside context bindings r = .ok b ∧ p = sortedPair a b := by
  unfold joinPair at h
  split at h
  · rename_i l r
    obtain ⟨a, ha, h⟩ := except_bind_ok.mp h
    obtain ⟨b, hb, h⟩ := except_bind_ok.mp h
    rw [except_pure_ok] at h
    exact ⟨l, r, a, b, rfl, ha, hb, h.symm⟩
  · cases h
  · cases h

/-- A pair of a condition is one of its equations between two columns. -/
lemma mem_joinPairs {pairs : Finset (Identity × Identity)}
    (h : joinPairs outside context bindings condition = .ok pairs) {p : Identity × Identity}
    (hp : p ∈ pairs) : ∃ l r a b, .eq (.column l) (.column r) ∈ multiConjuncts condition ∧
      columnIdentity outside context bindings l = .ok a ∧
      columnIdentity outside context bindings r = .ok b ∧ p = sortedPair a b := by
  obtain ⟨listed, hlisted, h⟩ := except_bind_ok.mp h
  rw [except_pure_ok] at h
  subst h
  obtain ⟨k, hk, hpair⟩ := exists_of_forall₂ (mapM_ok hlisted) (List.mem_toFinset.mp hp)
  obtain ⟨l, r, a, b, rfl, ha, hb, heq⟩ := joinPair_ok hpair
  exact ⟨l, r, a, b, hk, ha, hb, heq⟩

end Conditions

section Steps

variable {ε ν : Type} [DecidableEq ν] {outside : Outside} {context : QueryContext}
  {bindings : Bindings} {db : Database ν} {scope : Scope ν} {meaning : Meaning ε ν}
  {anchor target : String} {item : Item ν}

/-- The tables in scope while a table is joined: the base is the anchor, the new one is the target,
and the others are neither. -/
structure Joining (outside : Outside) (context : QueryContext) (bindings : Bindings)
    (db : Database ν) (scope : Scope ν) (anchor : String) (item : Item ν) (target : String) :
    Prop where
  base : InScope outside context bindings db scope.base anchor
  new : InScope outside context bindings db item target
  distinct : anchor ≠ target
  joined : ∀ i ∈ scope.joined, ∃ q, InScope outside context bindings db i q ∧ q ≠ anchor ∧ q ≠ target

omit [DecidableEq ν] in
lemma InScope.unique {i : Item ν} {q q' : String} (h : InScope outside context bindings db i q)
    (h' : InScope outside context bindings db i q') : q = q' := by
  have hq := h.qualified
  rw [h'.qualified, Except.ok.injEq] at hq
  exact hq.symm

omit [DecidableEq ν] in
lemma places_extend {p : Option Nat × Item ν} (hp : p ∈ (scope.extend item).places) :
    p = (none, scope.base) ∨ p = (some 0, item) ∨ p.2 ∈ scope.joined := by
  simp only [Scope.places, Scope.extend, List.mem_cons, List.zipIdx_cons, List.map_cons,
    List.mem_map] at hp
  rcases hp with rfl | rfl | ⟨i, hi, rfl⟩
  · exact .inl rfl
  · exact .inr (.inl rfl)
  · exact .inr (.inr (List.fst_mem_of_mem_zipIdx hi))

omit [DecidableEq ν] in
/-- The place of a column of the anchor or of the target. -/
lemma Joining.place (h : Joining outside context bindings db scope anchor item target)
    {p : Option Nat × Item ν} (hp : p ∈ (scope.extend item).places) :
    (InScope outside context bindings db p.2 anchor → p.1 = none) ∧
      (InScope outside context bindings db p.2 target → p.1 = some 0) := by
  rcases places_extend hp with rfl | rfl | hjoined
  · exact ⟨fun _ => rfl, fun ht => absurd (h.base.unique ht) h.distinct⟩
  · exact ⟨fun ha => absurd (ha.unique h.new) h.distinct, fun _ => rfl⟩
  · obtain ⟨q, hq, hanchor, htarget⟩ := h.joined _ hjoined
    exact ⟨fun ha => absurd (hq.unique ha) hanchor, fun ht => absurd (hq.unique ht) htarget⟩

/-- A pair of the anchor and the target fixes the value of the target's column. -/
lemma Joining.fixed (h : Joining outside context bindings db scope anchor item target)
    (hdoc : outside.Documented) (hfolded : FoldedNames outside context)
    (hall : ∀ q ∈ bindings.all, IsFolded outside q) {condition : Condition ε}
    (hres : condition.Resolves db (scope.extend item)) {pairs : Finset (Identity × Identity)}
    (hpairs : joinPairs outside context bindings condition = .ok pairs) {s t : String}
    (hin : sortedPair (anchor, s) (target, t) ∈ pairs) (env : Env ν) (row : Row String ν)
    (htruth : condition.truth meaning db (scope.extend item) (env.extend (some row)) = some true) :
    row t ≠ none ∧ row t = env.base s := by
  have hscope : ∀ p ∈ (scope.extend item).places,
      ∃ q, InScope outside context bindings db p.2 q := by
    intro p hp
    rcases places_extend hp with rfl | rfl | hjoined
    · exact ⟨_, h.base⟩
    · exact ⟨_, h.new⟩
    · obtain ⟨q, hq, -⟩ := h.joined _ hjoined
      exact ⟨q, hq⟩
  have hanchor : ∃ p ∈ (scope.extend item).places,
      InScope outside context bindings db p.2 anchor :=
    ⟨(none, scope.base), List.mem_cons_self, h.base⟩
  have htarget : ∃ p ∈ (scope.extend item).places,
      InScope outside context bindings db p.2 target :=
    ⟨(some 0, item), by simp [Scope.places, Scope.extend], h.new⟩
  -- the values of the two columns
  have hsource : ∀ {c : ColumnNode}, columnIdentity outside context bindings c = .ok (anchor, s) →
      (Operand.column (ε := ε) c).Resolves db (scope.extend item) →
      (Operand.column c).value meaning db (scope.extend item) (env.extend (some row)) =
        env.base s := by
    intro c hc hresolves
    obtain ⟨⟨place, name⟩, hplace⟩ := Option.isSome_iff_exists.mp hresolves
    obtain ⟨rfl, i, hi, hscoped⟩ := columnIdentity_sound hdoc hfolded hall hscope hc hanchor hplace
    obtain rfl := (h.place hi).1 hscoped
    rw [Operand.value, hplace]
    rfl
  have hkey : ∀ {c : ColumnNode}, columnIdentity outside context bindings c = .ok (target, t) →
      (Operand.column (ε := ε) c).Resolves db (scope.extend item) →
      (Operand.column c).value meaning db (scope.extend item) (env.extend (some row)) = row t := by
    intro c hc hresolves
    obtain ⟨⟨place, name⟩, hplace⟩ := Option.isSome_iff_exists.mp hresolves
    obtain ⟨rfl, i, hi, hscoped⟩ := columnIdentity_sound hdoc hfolded hall hscope hc htarget hplace
    obtain rfl := (h.place hi).2 hscoped
    rw [Operand.value, hplace]
    rfl
  obtain ⟨l, r, a, b, hk, ha, hb, hsorted⟩ := mem_joinPairs hpairs hin
  have hequal := truth_of_mem_conjuncts htruth hk
  have hresolves := resolves_of_mem_conjuncts hres hk
  rw [Condition.truth, eq3_eq_true] at hequal
  rcases sortedPair_eq hsorted with ⟨rfl, rfl⟩ | ⟨rfl, rfl⟩
  · rw [hsource ha hresolves.1, hkey hb hresolves.2] at hequal
    exact ⟨hequal.2 ▸ hequal.1, hequal.2.symm⟩
  · rw [hkey ha hresolves.1, hsource hb hresolves.2] at hequal
    exact hequal

end Steps

section Loop

variable {ε ν : Type} [DecidableEq ν] {outside : Outside} {context : QueryContext}
  {bindings : Bindings} {db : Database ν} {meaning : Meaning ε ν} {select : Select ε}
  {graph : RelationshipGraph} {anchor : String}

/-- A database whose tables have the certified columns and satisfy the keys of the graph. -/
structure Database.Satisfies (db : Database ν) (context : QueryContext) (graph : RelationshipGraph) :
    Prop where
  columns : ∀ schema name stored, db.table schema name = some stored →
    ∀ c ∈ allowedOf context s!"{schema}.{name}", c ∈ stored.columns
  keys : ∀ schema name stored, db.table schema name = some stored →
    ∀ k ∈ graph.primaryKeys ++ graph.uniqueConstraints,
      qualified k.schemaName k.tableName = s!"{schema}.{name}" → IsKey k.columnNames stored.rows

/-- Constraints of the graph from the anchor to distinct tables. -/
structure Directed (graph : RelationshipGraph) (anchor : String) (constraints : List JoinConstraint) :
    Prop where
  certified : ∀ c ∈ constraints, Certified graph anchor c
  distinct : (constraints.map JoinConstraint.targetTable).Nodup
  away : ∀ c ∈ constraints, c.targetTable ≠ anchor

/-- What is known of a SELECT before its joins are looked at. -/
structure Scanned (outside : Outside) (context : QueryContext) (bindings : Bindings)
    (select : Select ε) : Prop where
  documented : outside.Documented
  folded : FoldedNames outside context
  tables : validateTables context select = .ok ()
  bindings : tableBindings outside select = .ok bindings
  plain : ∀ t ∈ select.tables, t.aliasColumns = []

omit [DecidableEq ν] in
/-- A table of a SELECT that is found in the database. -/
lemma Scanned.inScope (h : Scanned outside context bindings select) (hdb : db.Satisfies context graph)
    {t : TableNode} (ht : t ∈ select.tables) {q : String} (hq : qualifiedTableRef t = .ok q)
    {item : Item ν} (hitem : db.item t = some item) :
    InScope outside context bindings db item q ∧
      ∃ schema name, db.table schema name = some item.stored ∧ q = s!"{schema}.{name}" := by
  have hvalid := validatePhysicalTable_of_mem h.tables ht hq
  obtain ⟨schema, name, hschema, hname, hfolded, -, -⟩ :=
    validatePhysicalTable_ok h.folded hvalid hq
  simp only [Database.item, hschema, hname] at hitem
  split at hitem
  · rename_i stored hstored
    split at hitem
    · cases hitem
      refine ⟨⟨hq, fun n hn => mem_bindings h.bindings ht hq hn, hvalid, h.plain t ht, ?_⟩,
        _, _, hstored, hfolded⟩
      rw [hfolded]
      exact hdb.columns _ _ _ hstored
    · cases hitem
  · cases hitem

lemma multiConjuncts_ne_nil (condition : Condition ε) : multiConjuncts condition ≠ [] := by
  induction condition with
  | and left right ihl _ => exact List.append_ne_nil_of_left_ne_nil ihl _
  | paren inner ih => exact ih
  | eq left right => exact List.cons_ne_nil _ _
  | other e => exact List.cons_ne_nil _ _

lemma joinPairs_ne_empty {condition : Condition ε} {pairs : Finset (Identity × Identity)}
    (h : joinPairs outside context bindings condition = .ok pairs) : pairs ≠ ∅ := by
  obtain ⟨listed, hlisted, h⟩ := except_bind_ok.mp h
  rw [except_pure_ok] at h
  subst h
  have hlength := (mapM_ok hlisted).length_eq
  intro hempty
  rw [List.toFinset_eq_empty_iff] at hempty
  rw [hempty] at hlength
  exact multiConjuncts_ne_nil condition (List.length_eq_zero_iff.mp hlength)

/-- Every target column is paired with a source column. -/
lemma mem_constraintPairs {c : JoinConstraint} (hne : constraintPairs outside c ≠ ∅) {t : String}
    (ht : t ∈ c.targetColumns) : ∃ s ∈ c.sourceColumns,
      sortedPair (outside.casefold c.sourceTable, outside.casefold s)
        (outside.casefold c.targetTable, outside.casefold t) ∈ constraintPairs outside c := by
  unfold constraintPairs at hne ⊢
  split at hne
  · exact absurd rfl hne
  · rename_i hshape
    rw [if_neg hshape]
    simp only [not_or, not_not] at hshape
    obtain ⟨i, hi, rfl⟩ := List.getElem_of_mem ht
    have hi' : i < c.sourceColumns.length := by omega
    refine ⟨c.sourceColumns[i], List.getElem_mem hi', ?_⟩
    rw [List.mem_toFinset, List.mem_map]
    refine ⟨(c.sourceColumns[i], c.targetColumns[i]), ?_, rfl⟩
    rw [List.mem_iff_getElem]
    exact ⟨i, by rw [List.length_zip]; omega, List.getElem_zip⟩

/-- A join that passes uses a constraint to its table. -/
lemma matchJoin_ok {messages : JoinMessages} {used : List Nat} {join : Join ε} {index : Nat}
    (h : matchJoin outside messages context bindings used join = .ok index) :
    ∃ t q condition pairs c, join.joined = .table t ∧ qualifiedTableRef t = .ok q ∧
      join.on = some condition ∧ joinPairs outside context bindings condition = .ok pairs ∧
      (forwardConstraints outside context)[index]? = some c ∧ index ∉ used ∧
      outside.casefold c.targetTable = outside.casefold q ∧ pairs = constraintPairs outside c := by
  obtain ⟨-, h⟩ := checked_bind_ok.mp h
  split at h
  · cases h
  · rename_i t ht
    obtain ⟨q, hq, h⟩ := except_bind_ok.mp h
    split at h
    · cases h
    · rename_i condition hon
      obtain ⟨pairs, hpairs, h⟩ := except_bind_ok.mp h
      split at h
      · rename_i p hp
        cases h
        have hmem : p ∈ (forwardConstraints outside context).zipIdx.filter fun p =>
            p.2 ∉ used ∧ outside.casefold p.1.targetTable = outside.casefold q ∧
              pairs = constraintPairs outside p.1 := hp ▸ List.mem_singleton.mpr rfl
        rw [List.mem_filter, decide_eq_true_eq] at hmem
        exact ⟨t, q, condition, pairs, p.1, ht, hq, hon, hpairs,
          List.mem_zipIdx_iff_getElem?.mp hmem.1, hmem.2⟩
      · cases h

/-- The tables in scope are the anchor and the targets of the constraints that were used. -/
structure Tracked (outside : Outside) (context : QueryContext) (bindings : Bindings)
    (db : Database ν) (anchor : String) (used : List Nat) (scope : Scope ν) : Prop where
  base : InScope outside context bindings db scope.base anchor
  joined : ∀ i ∈ scope.joined, ∃ k ∈ used, ∃ c,
    (forwardConstraints outside context)[k]? = some c ∧
      InScope outside context bindings db i c.targetTable

variable {used : List Nat} {scope : Scope ν} {messages : JoinMessages}

/-- A join that passes has at most one match for each row. -/
lemma matchJoin_unique (h : Scanned outside context bindings select)
    (hdb : db.Satisfies context graph) (hdirected : Directed graph anchor context.joinConstraints)
    (htracked : Tracked outside context bindings db anchor used scope) {join : Join ε}
    (htables : ∀ t ∈ join.joined.tables, t ∈ select.tables) {index : Nat}
    (hmatch : matchJoin outside messages context bindings used join = .ok index)
    {item : Item ν} {step : Step ν} (hstep : joinStep meaning db scope join = some (item, step)) :
    (∀ env, (step.1.filter (step.2 env)).length ≤ 1) ∧
      Tracked outside context bindings db anchor (index :: used) (scope.extend item) := by
  obtain ⟨t, q, condition, pairs, c, htable, hq, hon, hpairs, hindex, hnew, htarget, rfl⟩ :=
    matchJoin_ok hmatch
  have ht : t ∈ select.tables := htables t (by rw [htable]; exact List.mem_singleton.mpr rfl)
  have hc : c ∈ context.joinConstraints :=
    List.mem_of_mem_filter (List.mem_of_getElem? hindex)
  have hall : ∀ q ∈ bindings.all, IsFolded outside q :=
    fun q hq => isFolded_of_bound h.folded h.tables h.bindings hq
  obtain ⟨hsourceFolded, htargetFolded, hsources, htargets⟩ := h.folded.constraints c hc
  have hcertified := hdirected.certified c hc
  have hdistinct : ((forwardConstraints outside context).map JoinConstraint.targetTable).Nodup :=
    hdirected.distinct.sublist (List.filter_sublist.map _)
  unfold joinStep at hstep
  simp only [htable, hon] at hstep
  split at hstep
  · rename_i item' hitem
    split at hstep
    · rename_i hleft
      cases hstep
      obtain ⟨hscope, schema, name, hstored, hname⟩ := h.inScope hdb ht hq hitem
      have hqc : q = c.targetTable := by
        rw [← (hall q hscope.mem_all).casefold, ← htarget, htargetFolded.casefold]
      subst hqc
      have hjoining : Joining outside context bindings db scope anchor item c.targetTable := by
        refine ⟨htracked.base, hscope, (hdirected.away c hc).symm, ?_⟩
        intro i hi
        obtain ⟨k, hk, c', hc', hi'⟩ := htracked.joined i hi
        have hc'mem : c' ∈ context.joinConstraints :=
          List.mem_of_mem_filter (List.mem_of_getElem? hc')
        refine ⟨c'.targetTable, hi', hdirected.away c' hc'mem, ?_⟩
        intro hsame
        have hk' : k < (forwardConstraints outside context).length :=
          (List.getElem?_eq_some_iff.mp hc').1
        have heq : ((forwardConstraints outside context).map JoinConstraint.targetTable)[k]? =
            ((forwardConstraints outside context).map JoinConstraint.targetTable)[index]? := by
          rw [List.getElem?_map, List.getElem?_map, hc', hindex, Option.map_some, Option.map_some,
            hsame]
        have hkindex := (List.getElem?_inj (by simpa using hk') hdistinct).mp heq
        exact hnew (hkindex ▸ hk)
      refine ⟨?_, htracked.base, ?_⟩
      · intro env
        have hkey : IsKey c.targetColumns item.stored.rows := by
          rcases hcertified.key with ⟨k, hk, hkey, -⟩ | ⟨k, hk, hkey, -⟩
          · obtain ⟨hktable, hkcolumns⟩ := Prod.mk.inj hkey
            rw [← hkcolumns]
            exact hdb.keys _ _ _ hstored k (List.mem_append_left _ hk) (hktable.trans hname)
          · obtain ⟨hktable, hkcolumns⟩ := Prod.mk.inj hkey
            rw [← hkcolumns]
            exact hdb.keys _ _ _ hstored k (List.mem_append_right _ hk) (hktable.trans hname)
        apply hkey.length_filter_le
        intro column hcolumn
        obtain ⟨s, hs, hin⟩ := mem_constraintPairs (joinPairs_ne_empty hpairs) hcolumn
        rw [hsourceFolded.casefold, htargetFolded.casefold, (hsources s hs).casefold,
          (htargets column hcolumn).casefold, hcertified.anchored] at hin
        refine ⟨env.base s, fun row _ hrow => ?_⟩
        exact hjoining.fixed h.documented h.folded hall hleft.2.2 hpairs hin env row
          (of_decide_eq_true hrow)
      · intro i hi
        rcases List.mem_cons.mp hi with rfl | hi
        · exact ⟨index, List.mem_cons_self, c, hindex, hscope⟩
        · obtain ⟨k, hk, rest⟩ := htracked.joined i hi
          exact ⟨k, List.mem_cons_of_mem _ hk, rest⟩
    · cases hstep
  · cases hstep

/-- Joins that pass have at most one match for each row. -/
lemma matchJoins_unique (h : Scanned outside context bindings select)
    (hdb : db.Satisfies context graph) (hdirected : Directed graph anchor context.joinConstraints)
    (htracked : Tracked outside context bindings db anchor used scope) {joins : List (Join ε)}
    (htables : ∀ join ∈ joins, ∀ t ∈ join.joined.tables, t ∈ select.tables)
    (hmatch : matchJoins outside messages context bindings used joins = .ok ())
    {steps : List (Step ν)} (hsteps : joinSteps meaning db scope joins = some steps) :
    ∀ step ∈ steps, ∀ env, (step.1.filter (step.2 env)).length ≤ 1 := by
  induction joins generalizing used scope steps with
  | nil =>
    cases hsteps
    intro step hstep
    cases hstep
  | cons join joins ih =>
    obtain ⟨index, hindex, hmatch⟩ := except_bind_ok.mp hmatch
    rw [joinSteps] at hsteps
    obtain ⟨⟨item, first⟩, hfirst, hsteps⟩ := Option.bind_eq_some_iff.mp hsteps
    obtain ⟨rest, hrest, hsteps⟩ := Option.bind_eq_some_iff.mp hsteps
    cases hsteps
    obtain ⟨hjoin, hothers⟩ := List.forall_mem_cons.mp htables
    obtain ⟨hunique, htracked⟩ := matchJoin_unique h hdb hdirected htracked hjoin hindex hfirst
    intro step hstep
    rcases List.mem_cons.mp hstep with rfl | hstep
    · exact hunique
    · exact ih htracked hothers hmatch hrest step hstep

lemma columnIdentity_bound {c : ColumnNode} {q n : String}
    (hbound : ∀ t, bindings.get t ⊆ bindings.all) (hiterate : ∀ l x, x ∈ outside.iterate l → x ∈ l)
    (h : columnIdentity outside context bindings c = .ok (q, n)) :
    ∃ t ∈ bindings.all, outside.casefold t = q := by
  obtain ⟨t, ht, h⟩ := except_bind_ok.mp h
  obtain ⟨-, h⟩ := checked_bind_ok.mp h
  rw [except_pure_ok, Prod.mk.injEq] at h
  refine ⟨t, ?_, h.1⟩
  unfold physicalTable at ht
  split at ht
  · unfold matchTableName at ht
    split at ht
    · rename_i found hfound
      cases ht
      exact hiterate _ _ (List.mem_of_find?_eq_some hfound)
    · cases ht
  · split at ht
    · rename_i found hfound
      cases ht
      exact hbound _ (hfound ▸ List.mem_singleton.mpr rfl)
    · cases ht
  · split at ht
    · rename_i found hfound
      cases ht
      exact List.mem_of_mem_filter (hfound ▸ List.mem_singleton.mpr rfl)
    · cases ht

lemma get_subset_all (t : String) : bindings.get t ⊆ bindings.all := by
  intro q hq
  obtain ⟨b, hb, rfl⟩ := List.mem_map.mp (List.mem_dedup.mp hq)
  exact List.mem_dedup.mpr (List.mem_map_of_mem (List.mem_of_mem_filter hb))

/-- A join that passes refers to the table where its constraint starts. -/
lemma source_bound (hdoc : outside.Documented) {c : JoinConstraint} {condition : Condition ε}
    (h : joinPairs outside context bindings condition = .ok (constraintPairs outside c)) :
    ∃ t ∈ bindings.all, outside.casefold t = outside.casefold c.sourceTable := by
  obtain ⟨p, hp⟩ := Finset.nonempty_iff_ne_empty.mpr (joinPairs_ne_empty h)
  obtain ⟨l, r, a, b, -, ha, hb, hsorted⟩ := mem_joinPairs h hp
  unfold constraintPairs at hp
  split at hp
  · exact absurd hp (Finset.notMem_empty p)
  · obtain ⟨columns, -, rfl⟩ := List.mem_map.mp (List.mem_toFinset.mp hp)
    rcases sortedPair_eq hsorted with ⟨rfl, rfl⟩ | ⟨rfl, rfl⟩
    · exact columnIdentity_bound get_subset_all hdoc.mem_iterate ha
    · exact columnIdentity_bound get_subset_all hdoc.mem_iterate hb

/-- The base of a query with joins that passes is the anchor. -/
lemma anchor_of_validateRelations (hdoc : outside.Documented) (hfolded : FoldedNames outside context)
    (hdirected : Directed graph anchor context.joinConstraints) {dataSources : List String}
    (hvalid : validateRelations outside context dataSources select = .ok ())
    (hjoins : select.joins ≠ []) {t : TableNode} (hfrom : select.from_ = some (.table t)) :
    qualifiedTableRef t = .ok anchor ∧ ∃ bindings messages,
      tableBindings outside select = .ok bindings ∧
        matchJoins outside messages context bindings [] select.joins = .ok () := by
  obtain ⟨htables, hvalid⟩ := checked_bind_ok.mp hvalid
  have hbaseTable : ∀ {message base}, baseTable message select = .ok base → base = t := by
    intro message base hbase
    rw [baseTable, hfrom] at hbase
    exact (Except.ok.inj hbase).symm
  have ht : t ∈ select.tables := by simp [Select.tables, hfrom, Joined.tables]
  have hfoldedRef : ∀ {q}, qualifiedTableRef t = .ok q → IsFolded outside q := by
    intro q hq
    obtain ⟨_, _, -, -, -, -, h⟩ :=
      validatePhysicalTable_ok hfolded (validatePhysicalTable_of_mem htables ht hq) hq
    exact h
  have hsource : ∀ c ∈ forwardConstraints outside context, c.sourceTable = anchor :=
    fun c hc => (hdirected.certified c (List.mem_of_mem_filter hc)).anchored
  split at hvalid
  · obtain ⟨metricTable, -, hvalid⟩ := except_bind_ok.mp hvalid
    obtain ⟨bindings, hbindings, hvalid⟩ := except_bind_ok.mp hvalid
    obtain ⟨hfromValid, hjoinsValid⟩ := checked_bind_ok.mp hvalid
    simp only [validateMultiMetricFrom, except_bind_ok, exists_checked, require_ok] at hfromValid
    obtain ⟨base, hbase, q, hq, hmetric, -⟩ := hfromValid
    simp only [validateMultiMetricJoins, except_bind_ok, exists_checked, require_ok] at hjoinsValid
    obtain ⟨refs, hrefs, -, hmatch, htargets⟩ := hjoinsValid
    rw [hbaseTable hbase] at hq
    refine ⟨?_, bindings, _, hbindings, hmatch⟩
    obtain ⟨join, joins, hcons⟩ := List.exists_cons_of_ne_nil hjoins
    rw [hcons] at hmatch
    obtain ⟨index, hindex, -⟩ := except_bind_ok.mp hmatch
    obtain ⟨_, _, condition, pairs, c, -, -, -, hpairs, hc, -, -, rfl⟩ := matchJoin_ok hindex
    obtain ⟨b, hb, hbsource⟩ := source_bound hdoc hpairs
    have hcmem : c ∈ forwardConstraints outside context := List.mem_of_getElem? hc
    have hanchor : b = anchor := by
      rw [← (isFolded_of_bound hfolded htables hbindings hb).casefold, hbsource,
        (hfolded.constraints c (List.mem_of_mem_filter hcmem)).1.casefold, hsource c hcmem]
    obtain ⟨t', ht', href⟩ := table_of_binding hbindings hb
    obtain ⟨b', hb', hrefs'⟩ := exists_of_forall₂ (mapM_ok hrefs).flip ht'
    rw [href] at hrefs'
    cases hrefs'
    rcases htargets b hb' with hmetric' | ⟨c', hc', htarget⟩
    · have heq : q = b := by
        rw [← (hfoldedRef hq).casefold, hmetric, ← hmetric',
          (isFolded_of_bound hfolded htables hbindings hb).casefold]
      rw [hq, heq, hanchor]
    · have hmem := List.mem_of_mem_filter hc'
      rw [(isFolded_of_bound hfolded htables hbindings hb).casefold,
        (hfolded.constraints c' hmem).2.1.casefold, hanchor] at htarget
      exact absurd htarget.symm (hdirected.away c' hmem)
  · simp only [validateJoinConstraints, except_bind_ok, exists_checked, require_ok] at hvalid
    obtain ⟨-, base, hbase, q, hq, hmem, bindings, hbindings, refs, -, -, hmatch⟩ := hvalid
    rw [hbaseTable hbase] at hq
    refine ⟨?_, bindings, _, hbindings, hmatch⟩
    obtain ⟨c, hc, hcq⟩ := List.mem_map.mp hmem
    rw [(hfolded.constraints c (List.mem_of_mem_filter hc)).1.casefold, hsource c hc,
      (hfoldedRef hq).casefold] at hcq
    rw [hq, hcq]

end Loop

section Sales

def asciiOutside : Outside := ⟨lowered, id⟩

lemma documented_ascii : asciiOutside.Documented := ⟨lowered_lowered, fun _ _ h => h⟩

def identifier (text : String) (h : text ≠ "" := by decide) : Identifier := ⟨text, false, h⟩

/-- A table of the schema with an alias. -/
def aliased (name : String) (as : Identifier) (h : name ≠ "" := by decide) : TableNode where
  catalog := none
  db := some (identifier "mart_sales")
  name := some (identifier name h)
  alias_ := some as
  aliasColumns := []

def column (table : Identifier) (name : String) (h : name ≠ "" := by decide) : Operand Unit :=
  .column ⟨none, none, some table, identifier name h⟩

def salesContext : QueryContext where
  allowedTables := ["mart_sales.fact_order", "mart_sales.dim_product"]
  allowedColumns := [("mart_sales.fact_order", ["product_key"]),
    ("mart_sales.dim_product", ["product_key"])]
  joinConstraints := [⟨"mart_sales.fact_order", ["product_key"], "mart_sales.dim_product",
    ["product_key"], "primary_key:dim_product_pkey", "forward"⟩]
  semanticFacts := none

/-- The orders with their products, the condition written the other way round. -/
def salesSelect : Select Unit where
  from_ := some (.table (aliased "fact_order" (identifier "O")))
  joins := [⟨"LEFT", "", .table (aliased "dim_product" (identifier "p")),
    some (.paren (.eq (column (identifier "p") "product_key") (column (identifier "o") "product_key")))⟩]
  nested := []

/-- No expression of another kind occurs. -/
def noMeaning : Meaning Unit Nat := ⟨fun _ _ => none, fun _ _ => none⟩

/-- A row of a product key and a category key. -/
def keyRow (product category : Nat) : Row String Nat := fun c =>
  if c = "product_key" then some product else if c = "category_key" then some category else none

/-- Three order lines, two of one product, and two products of one category. -/
def salesDatabase : Database Nat where
  name := "chatbi"
  table schema name :=
    if schema = "mart_sales" ∧ name = "fact_order" then
      some ⟨["product_key"], [keyRow 1 0, keyRow 1 0, keyRow 3 0]⟩
    else if schema = "mart_sales" ∧ name = "dim_product" then
      some ⟨["category_key", "product_key"], [keyRow 1 1, keyRow 2 1]⟩
    else none

lemma allowedOf_sales {table column : String} (h : column ∈ allowedOf salesContext table) :
    column = "product_key" ∧ (table = "mart_sales.fact_order" ∨ table = "mart_sales.dim_product") := by
  by_cases hfact : "mart_sales.fact_order" = table
  · subst hfact
    exact ⟨List.mem_singleton.mp h, .inl rfl⟩
  · by_cases hproduct : "mart_sales.dim_product" = table
    · subst hproduct
      exact ⟨List.mem_singleton.mp h, .inr rfl⟩
    · have hnone : allowedOf salesContext table = [] := by
        rw [allowedOf, salesContext, Dict.get?, if_neg hfact, Dict.get?, if_neg hproduct]
        rfl
      rw [hnone] at h
      cases h

lemma foldedNames_sales : FoldedNames asciiOutside salesContext := by
  have hkey : IsFolded asciiOutside "product_key" := ⟨rfl, rfl⟩
  have hfact : IsFolded asciiOutside "mart_sales.fact_order" := ⟨rfl, rfl⟩
  have hproduct : IsFolded asciiOutside "mart_sales.dim_product" := ⟨rfl, rfl⟩
  refine ⟨?_, ?_, ?_⟩
  · intro t ht
    simp only [salesContext, List.mem_cons, List.not_mem_nil, or_false] at ht
    rcases ht with rfl | rfl
    · exact hfact
    · exact hproduct
  · intro t c hc
    rw [(allowedOf_sales hc).1]
    exact hkey
  · intro c hc
    rw [List.mem_singleton.mp hc]
    refine ⟨hfact, hproduct, fun n hn => ?_, fun n hn => ?_⟩ <;>
      rw [List.mem_singleton.mp hn] <;> exact hkey

lemma satisfies_sales : salesDatabase.Satisfies salesContext salesGraph := by
  refine ⟨?_, ?_⟩
  · intro schema name stored hstored c hc
    obtain ⟨rfl, -⟩ := allowedOf_sales hc
    simp only [salesDatabase] at hstored
    split at hstored
    · cases hstored
      simp
    · split at hstored
      · cases hstored
        simp
      · cases hstored
  · intro schema name stored hstored k hk hqualified
    rw [List.mem_singleton.mp hk] at hqualified ⊢
    simp only [salesDatabase] at hstored
    split at hstored
    · rename_i hnames
      rw [hnames.1, hnames.2] at hqualified
      exact absurd hqualified (by decide)
    · split at hstored
      · cases hstored
        simp [IsKey, keyRow]
      · cases hstored

end Sales

end ChatBI.SqlGuard
