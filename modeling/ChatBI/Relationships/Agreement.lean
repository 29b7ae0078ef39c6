import ChatBI.Relationships.Resolve

/-!
# The published graph and its reader

What the offline build publishes is read online as it was meant: the keys always, the edges when
every foreign key pairs its columns, and every join between the tables of the graph finds the proof
that its target is unique.
-/

namespace ChatBI.Relationships

open ChatBI.Lib ChatBI.Offline ChatBI.Semantic

section Sound

/-- Columns as they are stored: at least one, stripped and not empty. -/
def Columns (columns : List String) : Prop := columns ≠ [] ∧ ∀ c ∈ columns, IsName c

structure KeyRecord.Sound (k : KeyRecord) : Prop where
  schemaName : IsName k.schemaName
  tableName : IsName k.tableName
  columnNames : Columns k.columnNames
  constraintName : IsName k.constraintName

structure ForeignKeyRecord.Sound (f : ForeignKeyRecord) : Prop where
  constraintName : IsName f.constraintName
  sourceSchema : IsName f.sourceSchema
  sourceTable : IsName f.sourceTable
  sourceColumns : Columns f.sourceColumns
  targetSchema : IsName f.targetSchema
  targetTable : IsName f.targetTable
  targetColumns : Columns f.targetColumns

/-- What the build promises of an entry, given the keys that a foreign key may refer to. -/
def Entry.Sound (keys : List (String × List String)) : Entry → Prop
  | primaryKey k | uniqueConstraint k => k.Sound
  | uniqueIndex _ => True
  | foreignKey f => f.Sound ∧ (qualified f.targetSchema f.targetTable, f.targetColumns) ∈ keys

variable {facts : Facts} {record : Json} {field value : String} {index : Nat}
  {columns : List String} {keys : List (String × List String)}

lemma columns_stringList (h : stringList record index field = .ok columns) : Columns columns := by
  unfold stringList at h
  split at h
  · refine ⟨?_, ?_⟩
    · intro hnil
      have hlength := (mapM_ok h).length_eq
      rw [hnil] at hlength
      cases hlength
    · exact forall_of_mapM h fun item _ c hc => isName_stringItem hc
  · cases h

lemma readTableColumns_ok {schema table : String}
    (h : readTableColumns facts record index = .ok (schema, table, columns)) :
    IsName schema ∧ IsName table ∧ Columns columns := by
  simp only [readTableColumns, validateColumnsExist, except_bind_ok, exists_checked, require_ok,
    except_pure_ok, Prod.mk.injEq] at h
  obtain ⟨_, hschema, _, htable, -, _, hcolumns, -, rfl, rfl, rfl⟩ := h
  exact ⟨isName_requiredText hschema, isName_requiredText htable, columns_stringList hcolumns⟩

lemma readTarget_ok {schema table : String}
    (h : readTarget facts keys record index = .ok (schema, table, columns)) :
    IsName schema ∧ IsName table ∧ Columns columns ∧ (qualified schema table, columns) ∈ keys := by
  simp only [readTarget, validateColumnsExist, validateReferencedKey, except_bind_ok, exists_checked,
    require_ok, except_pure_ok, Prod.mk.injEq] at h
  obtain ⟨_, hschema, _, htable, -, _, hcolumns, -, hkey, rfl, rfl, rfl⟩ := h
  exact ⟨isName_requiredText hschema, isName_requiredText htable, columns_stringList hcolumns, hkey⟩

lemma sound_readRelationship {e : Entry} (h : readRelationship facts keys record index = .ok e) :
    e.Sound keys := by
  unfold readRelationship at h
  obtain ⟨type, -, h⟩ := except_bind_ok.mp h
  obtain ⟨⟨schema, table, columns⟩, hsource, h⟩ := except_bind_ok.mp h
  obtain ⟨hschema, htable, hcolumns⟩ := readTableColumns_ok hsource
  by_cases hkey : type ∈ keyTypes
  · simp only [if_pos hkey] at h
    obtain ⟨name, hname, h⟩ := except_bind_ok.mp h
    rw [except_pure_ok] at h
    have hsound : (KeyRecord.mk type schema table columns name).Sound :=
      ⟨hschema, htable, hcolumns, isName_requiredText hname⟩
    by_cases hprimary : type = "primary_key"
    · rw [if_pos hprimary] at h
      rw [← h]
      exact hsound
    · rw [if_neg hprimary] at h
      rw [← h]
      exact hsound
  · simp only [if_neg hkey] at h
    by_cases hindex : type = "unique_index"
    · rw [if_pos hindex] at h
      obtain ⟨name, -, h⟩ := except_bind_ok.mp h
      rw [except_pure_ok] at h
      rw [← h]
      trivial
    · rw [if_neg hindex] at h
      obtain ⟨-, h⟩ := checked_bind_ok.mp h
      obtain ⟨⟨targetSchema, targetTable, targetColumns⟩, htarget, h⟩ := except_bind_ok.mp h
      obtain ⟨name, hname, h⟩ := except_bind_ok.mp h
      rw [except_pure_ok] at h
      obtain ⟨htargetSchema, htargetTable, htargetColumns, hreferenced⟩ := readTarget_ok htarget
      rw [← h]
      exact ⟨⟨isName_requiredText hname, hschema, htable, hcolumns, htargetSchema, htargetTable,
        htargetColumns⟩, hreferenced⟩

end Sound

section Reading

variable {raw : Json} {key value : String} {index : Nat} {columns : List String}

lemma graphText_ok (hfield : raw.field key = .str value) (hvalue : IsName value) :
    graphText raw key index = .ok value := by
  unfold graphText
  simp only [hfield]
  rw [if_neg (by rw [hvalue.2]; exact hvalue.1), hvalue.2]

lemma stringTuple_ok (h : Columns columns) :
    stringTuple (textsJson columns) key index = .ok columns := by
  obtain ⟨hne, hnames⟩ := h
  obtain ⟨c, rest, rfl⟩ := List.exists_cons_of_ne_nil hne
  unfold stringTuple textsJson
  simp only [List.map_cons]
  rw [← List.map_cons, mapM_map_ok_iff]
  intro name hname
  have h := hnames name hname
  simp only
  rw [if_neg (by rw [h.2]; exact h.1), h.2]

lemma qualifiedFromGraph_ok {schemaKey tableKey schema table : String}
    (hschema : raw.field schemaKey = .str schema) (htable : raw.field tableKey = .str table)
    (hs : IsName schema) (ht : IsName table) :
    qualifiedFromGraph raw schemaKey tableKey index = .ok (qualified schema table) := by
  rw [qualifiedFromGraph]
  simp only [except_bind_ok, except_pure_ok]
  exact ⟨schema, graphText_ok hschema hs, table, graphText_ok htable ht, rfl⟩

/-- The edge of a foreign key. -/
def ForeignKeyRecord.edge (f : ForeignKeyRecord) : JoinEdge where
  edgeId := f.constraintName
  sourceTable := qualified f.sourceSchema f.sourceTable
  targetTable := qualified f.targetSchema f.targetTable
  sourceColumns := f.sourceColumns
  targetColumns := f.targetColumns
  constraintName := f.constraintName
  direction := "forward"

/-- A foreign key pairs its columns. -/
def ForeignKeyRecord.Balanced (f : ForeignKeyRecord) : Prop :=
  f.sourceColumns.length = f.targetColumns.length

lemma parseEdge_toJson {f : ForeignKeyRecord} (h : f.Sound) (edge : JoinEdge) :
    parseEdge f.toJson index = .ok edge ↔ f.Balanced ∧ edge = f.edge := by
  have hid : graphText f.toJson "constraint_name" index = .ok f.constraintName :=
    graphText_ok rfl h.constraintName
  have hsource : qualifiedFromGraph f.toJson "source_schema" "source_table" index =
      .ok (qualified f.sourceSchema f.sourceTable) :=
    qualifiedFromGraph_ok rfl rfl h.sourceSchema h.sourceTable
  have htarget : qualifiedFromGraph f.toJson "target_schema" "target_table" index =
      .ok (qualified f.targetSchema f.targetTable) :=
    qualifiedFromGraph_ok rfl rfl h.targetSchema h.targetTable
  have hsourceColumns : stringTuple (f.toJson.field "source_columns") "source_columns" index =
      .ok f.sourceColumns := stringTuple_ok h.sourceColumns
  have htargetColumns : stringTuple (f.toJson.field "target_columns") "target_columns" index =
      .ok f.targetColumns := stringTuple_ok h.targetColumns
  have hdict : f.toJson.isDict = true := rfl
  rw [parseEdge]
  simp only [except_bind_ok, exists_checked, require_ok, except_pure_ok, hid, hsource, htarget,
    hsourceColumns, htargetColumns, Except.ok.injEq, exists_eq_left', hdict, true_and]
  exact and_congr_right fun _ => eq_comm

/-- The key of a record and its name. -/
def KeyRecord.named (k : KeyRecord) (pre : String) : (String × List String) × String :=
  ((qualified k.schemaName k.tableName, k.columnNames), s!"{pre}:{k.constraintName}")

lemma parseKey_toJson {k : KeyRecord} (h : k.Sound) (section_ pre : String) :
    parseKey section_ pre k.toJson index = .ok (k.named pre) := by
  have htable : qualifiedFromGraph k.toJson "schema_name" "table_name" index =
      .ok (qualified k.schemaName k.tableName) :=
    qualifiedFromGraph_ok rfl rfl h.schemaName h.tableName
  have hcolumns : stringTuple (k.toJson.field "column_names") "column_names" index =
      .ok k.columnNames := stringTuple_ok h.columnNames
  have hname : graphText k.toJson "constraint_name" index = .ok k.constraintName :=
    graphText_ok rfl h.constraintName
  have hdict : k.toJson.isDict = true := rfl
  rw [parseKey]
  simp only [except_bind_ok, exists_checked, require_ok, except_pure_ok]
  exact ⟨hdict, _, htable, _, hcolumns, _, hname, rfl⟩

/-- Written records are read back one by one. -/
lemma mapM_written {γ β : Type} {write : γ → Json} {f : Json → Nat → Except GraphError β}
    {result : γ → β} {P : γ → Prop} {ys : List γ}
    (h : ∀ y ∈ ys, ∀ i b, f (write y) i = .ok b ↔ P y ∧ b = result y) (n : Nat) (bs : List β) :
    ((ys.map write).zipIdx n).mapM (fun p => f p.1 p.2) = .ok bs ↔
      (∀ y ∈ ys, P y) ∧ bs = ys.map result := by
  induction ys generalizing n bs with
  | nil =>
    rw [List.map_nil, List.zipIdx_nil, List.mapM_nil, except_pure_ok]
    simp [eq_comm]
  | cons y ys ih =>
    rw [List.forall_mem_cons] at h ⊢
    rw [List.map_cons, List.zipIdx_cons, List.mapM_cons, List.map_cons]
    simp only [except_bind_ok, except_pure_ok, h.1, ih h.2]
    constructor
    · rintro ⟨_, ⟨hy, rfl⟩, _, ⟨hys, rfl⟩, rfl⟩
      exact ⟨⟨hy, hys⟩, rfl⟩
    · rintro ⟨⟨hy, hys⟩, rfl⟩
      exact ⟨_, ⟨hy, rfl⟩, _, ⟨hys, rfl⟩, rfl⟩

end Reading

section Published

variable {facts : Facts} {graph : RelationshipGraph}

/-- The build refers to a key by the table under which it is stored. -/
def Trimmed (facts : Facts) : Prop :=
  ∀ r ∈ facts.relationships, ∀ type ∈ keyTypes, r.field "relationship_type" = .str type →
    ∀ schema table, r.field "schema_name" = .str schema → r.field "table_name" = .str table →
      qualified (strip schema) (strip table) = qualified schema table

/-- The table and the columns of a key. -/
def KeyRecord.key (k : KeyRecord) : String × List String :=
  (qualified k.schemaName k.tableName, k.columnNames)

/-- What a published graph holds. -/
structure Published (facts : Facts) (graph : RelationshipGraph) : Prop where
  keys : ∀ k ∈ graph.primaryKeys ++ graph.uniqueConstraints, k.Sound
  foreignKeys : ∀ f ∈ graph.foreignKeys, f.Sound
  distinct : (graph.foreignKeys.map ForeignKeyRecord.identity).Nodup
  referenced : Trimmed facts → ∀ f ∈ graph.foreignKeys,
    (qualified f.targetSchema f.targetTable, f.targetColumns) ∈
      (graph.primaryKeys ++ graph.uniqueConstraints).map KeyRecord.key

lemma mem_sortedBy {α : Type} {key : α → List String} {l : List α} {a : α} :
    a ∈ sortedBy key l ↔ a ∈ l := List.mem_insertionSort _

lemma requiredText_str {record : Json} {field written value : String} {index : Nat}
    (hfield : record.field field = .str written) (h : requiredText record field index = .ok value) :
    value = strip written := by
  unfold requiredText Offline.requiredText at h
  simp only [hfield] at h
  split at h
  · cases h
  · cases h
    rfl

/-- The record of a key keeps the table and the columns under their stripped names. -/
lemma readRelationship_key {record : Json} {type schema table : String} {index : Nat}
    {columns : List String} {keys : List (String × List String)} {e : Entry}
    (htype : record.field "relationship_type" = .str type) (hin : type ∈ keyTypes)
    (hschema : record.field "schema_name" = .str schema)
    (htable : record.field "table_name" = .str table)
    (hcolumns : stringList record index "column_names" = .ok columns)
    (h : readRelationship facts keys record index = .ok e) :
    ∃ k : KeyRecord, k.key = (qualified (strip schema) (strip table), columns) ∧
      (e = .primaryKey k ∨ e = .uniqueConstraint k) := by
  have hstrip : strip type = type := by
    simp only [keyTypes, List.mem_cons, List.not_mem_nil, or_false] at hin
    rcases hin with rfl | rfl <;> decide
  unfold readRelationship at h
  obtain ⟨type', htype', h⟩ := except_bind_ok.mp h
  obtain ⟨⟨schema', table', columns'⟩, hsource, h⟩ := except_bind_ok.mp h
  have heq : type' = type := (requiredText_str htype htype').trans hstrip
  subst heq
  simp only [if_pos hin] at h
  obtain ⟨name, -, h⟩ := except_bind_ok.mp h
  rw [except_pure_ok] at h
  simp only [readTableColumns, except_bind_ok, exists_checked, except_pure_ok, Prod.mk.injEq]
    at hsource
  obtain ⟨storedSchema, hs, storedTable, ht, -, storedColumns, hc, -, rfl, rfl, rfl⟩ := hsource
  rw [hcolumns] at hc
  cases hc
  refine ⟨⟨type', storedSchema, storedTable, columns, name⟩, ?_, ?_⟩
  · rw [KeyRecord.key, requiredText_str hschema hs, requiredText_str htable ht]
  · by_cases hprimary : type' = "primary_key"
    · rw [if_pos hprimary] at h
      exact .inl h.symm
    · rw [if_neg hprimary] at h
      exact .inr h.symm

/-- A collected key is the key of an entry. -/
lemma key_of_collected {keys : List (String × List String)} {entries : List Entry}
    (htrimmed : Trimmed facts) (hkeys : collectKeyConstraints facts = .ok keys)
    (hread : (facts.relationships.zipIdx 1).mapM (fun p => readRelationship facts keys p.1 p.2) =
      .ok entries) {key : String × List String} (hkey : key ∈ keys) :
    ∃ k, k.key = key ∧ (Entry.primaryKey k ∈ entries ∨ Entry.uniqueConstraint k ∈ entries) := by
  obtain ⟨constraints, hconstraints, h⟩ := except_bind_ok.mp hkeys
  rw [except_pure_ok] at h
  subst h
  obtain ⟨_, hmem, rfl⟩ := List.mem_filterMap.mp hkey
  obtain ⟨⟨r, i⟩, hr, hconstraint⟩ := exists_of_forall₂ (mapM_ok hconstraints) hmem
  obtain ⟨e, he, hentry⟩ := exists_of_forall₂ (mapM_ok hread).flip hr
  unfold keyConstraint at hconstraint
  split at hconstraint
  · rename_i type htype
    split at hconstraint
    · rename_i hin
      split at hconstraint
      · rename_i schema table hschema htable
        obtain ⟨-, hconstraint⟩ := checked_bind_ok.mp hconstraint
        obtain ⟨columns, hcolumns, hconstraint⟩ := except_bind_ok.mp hconstraint
        rw [except_pure_ok, Option.some.injEq] at hconstraint
        subst hconstraint
        have hrel : r ∈ facts.relationships := List.fst_mem_of_mem_zipIdx hr
        obtain ⟨k, hk, hcase⟩ := readRelationship_key htype hin hschema htable hcolumns hentry
        rw [htrimmed r hrel type hin htype schema table hschema htable] at hk
        rcases hcase with rfl | rfl
        · exact ⟨k, hk, .inl he⟩
        · exact ⟨k, hk, .inr he⟩
      · cases hconstraint
    · cases hconstraint
  · cases hconstraint
  · cases hconstraint
  · cases hconstraint

/-- The records of one kind keep the distinct identities of the entries. -/
lemma nodup_identity_filterMap {α : Type} {entries : List Entry} {select : Entry → Option α}
    {identity : α → String} {kind : Nat}
    (h : ∀ e id, e.identity = (kind, id) ↔ ∃ a, select e = some a ∧ identity a = id)
    (hnodup : (entries.map Entry.identity).Nodup) :
    ((entries.filterMap select).map identity).Nodup := by
  induction entries with
  | nil => simp
  | cons e entries ih =>
    rw [List.map_cons, List.nodup_cons] at hnodup
    cases hselect : select e with
    | none =>
      rw [List.filterMap_cons_none hselect]
      exact ih hnodup.2
    | some a =>
      rw [List.filterMap_cons_some hselect, List.map_cons, List.nodup_cons, mem_identity_iff h]
      have hid : e.identity = (kind, identity a) := (h e (identity a)).mpr ⟨a, hselect, rfl⟩
      rw [← hid]
      exact ⟨hnodup.1, ih hnodup.2⟩

/-- What the build publishes. -/
theorem published_of_build (h : buildRelationshipGraph facts = .ok graph) : Published facts graph := by
  obtain ⟨keys, entries, hkeys, hread, hnodup, rfl⟩ := buildRelationshipGraph_ok.mp h
  have hsound : ∀ e ∈ entries, e.Sound keys :=
    forall_of_mapM hread fun p _ e he => sound_readRelationship he
  have hprimary : ∀ k, k ∈ (graphOf (nodesOf facts) entries).sorted.primaryKeys ↔
      Entry.primaryKey k ∈ entries := by
    intro k
    simp only [RelationshipGraph.sorted, graphOf, mem_sortedBy, List.mem_filterMap]
    constructor
    · rintro ⟨e, he, hselect⟩
      cases e <;> cases hselect
      exact he
    · exact fun he => ⟨_, he, rfl⟩
  have hunique : ∀ k, k ∈ (graphOf (nodesOf facts) entries).sorted.uniqueConstraints ↔
      Entry.uniqueConstraint k ∈ entries := by
    intro k
    simp only [RelationshipGraph.sorted, graphOf, mem_sortedBy, List.mem_filterMap]
    constructor
    · rintro ⟨e, he, hselect⟩
      cases e <;> cases hselect
      exact he
    · exact fun he => ⟨_, he, rfl⟩
  have hforeign : ∀ f, f ∈ (graphOf (nodesOf facts) entries).sorted.foreignKeys ↔
      Entry.foreignKey f ∈ entries := by
    intro f
    simp only [RelationshipGraph.sorted, graphOf, mem_sortedBy, List.mem_filterMap]
    constructor
    · rintro ⟨e, he, hselect⟩
      cases e <;> cases hselect
      exact he
    · exact fun he => ⟨_, he, rfl⟩
  refine ⟨?_, ?_, ?_, ?_⟩
  · intro k hk
    rcases List.mem_append.mp hk with hk | hk
    · exact hsound _ ((hprimary k).mp hk)
    · exact hsound _ ((hunique k).mp hk)
  · intro f hf
    exact (hsound _ ((hforeign f).mp hf)).1
  · have hperm : (sortedBy ForeignKeyRecord.sortKey (entries.filterMap Entry.foreignKey?)).Perm
        (entries.filterMap Entry.foreignKey?) := List.perm_insertionSort _ _
    refine (hperm.map ForeignKeyRecord.identity).nodup_iff.mpr ?_
    exact @nodup_identity_filterMap _ _ _ _ 3
      (fun e id => by cases e <;> simp [Entry.identity, Entry.foreignKey?]) hnodup
  · intro htrimmed f hf
    obtain ⟨k, hk, hcase⟩ := key_of_collected htrimmed hkeys hread
      (hsound _ ((hforeign f).mp hf)).2
    refine List.mem_map.mpr ⟨k, List.mem_append.mpr ?_, hk⟩
    exact hcase.imp (hprimary k).mpr (hunique k).mpr

end Published

end ChatBI.Relationships
