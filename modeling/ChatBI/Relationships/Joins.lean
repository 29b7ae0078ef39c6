import ChatBI.Relationships.Agreement

/-!
# The joins of a published graph

Over a published graph that pairs the columns of its foreign keys, the joins from an anchor are
resolved exactly when every target has one direct edge, and then each of them has its proof.
-/

namespace ChatBI.Relationships

open ChatBI.Lib ChatBI.Offline ChatBI.Semantic

section Pairing

variable {α β γ : Type} {R : α → β → Prop} {S : β → γ → Prop} {T : α → γ → Prop}

lemma exists_forall₂ {xs : List α} (h : ∀ x ∈ xs, ∃ y, R x y) : ∃ ys, List.Forall₂ R xs ys := by
  induction xs with
  | nil => exact ⟨[], .nil⟩
  | cons x xs ih =>
    obtain ⟨hx, hxs⟩ := List.forall_mem_cons.mp h
    obtain ⟨y, hy⟩ := hx
    obtain ⟨ys, hys⟩ := ih hxs
    exact ⟨y :: ys, .cons hy hys⟩

lemma forall₂_trans (h : ∀ x y z, R x y → S y z → T x z) {xs : List α} {ys : List β} {zs : List γ}
    (hxy : List.Forall₂ R xs ys) (hyz : List.Forall₂ S ys zs) : List.Forall₂ T xs zs := by
  induction hxy generalizing zs with
  | nil =>
    cases hyz
    exact .nil
  | cons hx _ ih =>
    cases hyz with
    | cons hy hyz => exact .cons (h _ _ _ hx hy) (ih hyz)

end Pairing

section Keys

variable {κ β : Type} [DecidableEq κ]

/-- The entries that were set are kept under their keys. -/
lemma get?_foldl_set (l : List (κ × β)) (d : Dict κ β) (key : κ) :
    Dict.get? (l.foldl (fun keys k => Dict.set keys k.1 k.2) d) key ≠ none ↔
      key ∈ l.map Prod.fst ∨ Dict.get? d key ≠ none := by
  induction l generalizing d with
  | nil => simp
  | cons e l ih =>
    rw [List.foldl_cons, ih, List.map_cons, List.mem_cons]
    by_cases h : e.1 = key
    · subst h
      simp
    · rw [Dict.get?_set_of_ne h]
      simp only [Ne.symm h, false_or]

lemma mem_foldl_set {l : List (κ × β)} {d : Dict κ β} {e : κ × β}
    (h : e ∈ l.foldl (fun keys k => Dict.set keys k.1 k.2) d) : e ∈ d ∨ e ∈ l := by
  induction l generalizing d with
  | nil => exact .inl h
  | cons e' l ih =>
    rcases ih h with hset | hl
    · rcases Dict.mem_set hset with hd | rfl
      · exact .inl hd
      · exact .inr List.mem_cons_self
    · exact .inr (List.mem_cons_of_mem _ hl)

end Keys

section Reading

variable {facts : Facts} {graph : RelationshipGraph}

/-- The edges of a graph. -/
def RelationshipGraph.edges (graph : RelationshipGraph) : List JoinEdge :=
  sortEdges (graph.foreignKeys.map ForeignKeyRecord.edge)

/-- The keys of a graph with their names. -/
def RelationshipGraph.namedKeys (graph : RelationshipGraph) : List ((String × List String) × String) :=
  graph.primaryKeys.map (·.named "primary_key") ++
    graph.uniqueConstraints.map (·.named "unique_constraint")

def RelationshipGraph.uniqueKeys (graph : RelationshipGraph) : Dict (String × List String) String :=
  graph.namedKeys.foldl (fun keys k => Dict.set keys k.1 k.2) []

/-- The edges are read exactly when every foreign key pairs its columns. -/
theorem parseEdges_toJson (h : Published facts graph) {edges : List JoinEdge} :
    parseEdges graph.toJson = .ok edges ↔
      (∀ f ∈ graph.foreignKeys, f.Balanced) ∧ edges = graph.edges := by
  have hfield : graph.toJson.field "foreign_keys" =
      .arr (graph.foreignKeys.map ForeignKeyRecord.toJson) := rfl
  have hread : ∀ es, ((graph.foreignKeys.map ForeignKeyRecord.toJson).zipIdx 1).mapM
      (fun p => parseEdge p.1 p.2) = .ok es ↔
        (∀ f ∈ graph.foreignKeys, f.Balanced) ∧ es = graph.foreignKeys.map ForeignKeyRecord.edge :=
    mapM_written (fun f hf _ e => parseEdge_toJson (h.foreignKeys f hf) e) 1
  unfold parseEdges
  rw [hfield]
  simp only
  constructor
  · intro hok
    cases hes : ((graph.foreignKeys.map ForeignKeyRecord.toJson).zipIdx 1).mapM
        (fun p => parseEdge p.1 p.2) with
    | error e =>
      rw [hes] at hok
      cases hok
    | ok es =>
      rw [hes] at hok
      cases hok
      obtain ⟨hbalanced, rfl⟩ := (hread es).mp hes
      exact ⟨hbalanced, rfl⟩
  · rintro ⟨hbalanced, rfl⟩
    rw [(hread _).mpr ⟨hbalanced, rfl⟩]
    rfl

lemma parseKeys_written {ks : List KeyRecord} {json : Json} (section_ pre : String)
    (hfield : json.field section_ = .arr (ks.map KeyRecord.toJson)) (h : ∀ k ∈ ks, k.Sound) :
    parseKeys json section_ pre = .ok (ks.map (·.named pre)) := by
  unfold parseKeys
  rw [hfield]
  refine (@mapM_written _ _ _ _ _ (fun _ => True) _ (fun k hk i b => ?_) 1 _).mpr
    ⟨fun _ _ => trivial, rfl⟩
  rw [parseKey_toJson (h k hk), Except.ok.injEq, true_and, eq_comm]

/-- The keys are always read. -/
theorem graphUniqueKeys_toJson (h : Published facts graph) :
    graphUniqueKeys graph.toJson = .ok graph.uniqueKeys := by
  have hprimary := @parseKeys_written graph.primaryKeys graph.toJson "primary_keys" "primary_key" rfl
    fun k hk => h.keys k (List.mem_append_left _ hk)
  have hunique := @parseKeys_written graph.uniqueConstraints graph.toJson "unique_constraints"
    "unique_constraint" rfl fun k hk => h.keys k (List.mem_append_right _ hk)
  simp only [graphUniqueKeys, except_bind_ok, except_pure_ok]
  exact ⟨_, hprimary, _, hunique, rfl⟩

/-- The columns of a key of the graph have a proof of their uniqueness. -/
lemma exists_uniqueKey {key : String × List String}
    (h : key ∈ (graph.primaryKeys ++ graph.uniqueConstraints).map KeyRecord.key) :
    ∃ basis, Dict.get? graph.uniqueKeys key = some basis := by
  apply Option.ne_none_iff_exists'.mp
  rw [RelationshipGraph.uniqueKeys, get?_foldl_set]
  left
  rw [RelationshipGraph.namedKeys, List.map_append, List.map_map, List.map_map]
  rw [List.map_append] at h
  exact h

/-- A proof of uniqueness is the name of a key. -/
lemma key_of_uniqueKey {key : String × List String} {basis : String}
    (h : Dict.get? graph.uniqueKeys key = some basis) :
    (∃ k ∈ graph.primaryKeys, k.key = key ∧ basis = s!"primary_key:{k.constraintName}") ∨
      ∃ k ∈ graph.uniqueConstraints, k.key = key ∧ basis = s!"unique_constraint:{k.constraintName}" := by
  rcases mem_foldl_set (Dict.mem_of_get? h) with hnil | hnamed
  · cases hnil
  · rcases List.mem_append.mp hnamed with hmem | hmem
    · obtain ⟨k, hk, heq⟩ := List.mem_map.mp hmem
      obtain ⟨hkey, hbasis⟩ := Prod.mk.inj heq
      exact .inl ⟨k, hk, hkey, hbasis.symm⟩
    · obtain ⟨k, hk, heq⟩ := List.mem_map.mp hmem
      obtain ⟨hkey, hbasis⟩ := Prod.mk.inj heq
      exact .inr ⟨k, hk, hkey, hbasis.symm⟩

end Reading

section Resolving

variable {anchor target : String} {edges es : List JoinEdge} {timeEdge timeTarget : Option String}
  {targets : List String} {e : JoinEdge}

lemma of_mem_directEdges (h : e ∈ directEdges anchor edges timeEdge timeTarget target) :
    e ∈ edges ∧ e.sourceTable = anchor ∧ e.targetTable = target := by
  have hdirect : ∀ e, e ∈ edges.filter (fun e => e.sourceTable = anchor ∧ e.targetTable = target) →
      e ∈ edges ∧ e.sourceTable = anchor ∧ e.targetTable = target := by
    intro e he
    rw [List.mem_filter, decide_eq_true_eq] at he
    exact he
  unfold directEdges at h
  simp only at h
  split at h
  · exact hdirect e (List.mem_of_mem_filter h)
  · exact hdirect e h

/-- The path of one edge. -/
def JoinEdge.path (anchor : String) (e : JoinEdge) : JoinPath := ⟨[anchor, e.targetTable], [e]⟩

/-- The targets are resolved when each of them but the anchor has one direct edge. -/
lemma resolveTargets_ok {paths : List JoinPath} :
    resolveTargets anchor edges timeEdge timeTarget targets = .ok (paths, []) ↔
      ∃ es, List.Forall₂ (fun t e => directEdges anchor edges timeEdge timeTarget t = [e])
        (targets.filter (· ≠ anchor)) es ∧ paths = es.map (JoinEdge.path anchor) := by
  induction targets generalizing paths with
  | nil =>
    rw [resolveTargets, Except.ok.injEq, Prod.mk.injEq, List.filter_nil]
    constructor
    · rintro ⟨rfl, -⟩
      exact ⟨[], .nil, rfl⟩
    · rintro ⟨es, hes, rfl⟩
      cases hes
      exact ⟨rfl, rfl⟩
  | cons t targets ih =>
    rw [resolveTargets]
    by_cases hanchor : t = anchor
    · rw [if_pos hanchor, ih, List.filter_cons_of_neg (by simpa using hanchor)]
    · rw [if_neg hanchor, List.filter_cons_of_pos (by simpa using hanchor)]
      split
      · rename_i hnone
        simp only [except_bind_ok, except_pure_ok, Prod.mk.injEq, reduceCtorEq, and_false,
          exists_const, false_iff]
        rintro ⟨es, hes, -⟩
        cases hes with
        | cons h _ =>
          rw [hnone] at h
          cases h
      · rename_i e hone
        simp only [except_bind_ok, except_pure_ok, Prod.mk.injEq, Prod.exists]
        have htarget := (of_mem_directEdges (hone ▸ List.mem_singleton.mpr rfl)).2.2
        constructor
        · rintro ⟨rest, unreachable, hrest, rfl, rfl⟩
          obtain ⟨es, hes, rfl⟩ := ih.mp hrest
          refine ⟨e :: es, .cons hone hes, ?_⟩
          rw [List.map_cons, JoinEdge.path, htarget]
        · rintro ⟨_, hes, rfl⟩
          cases hes with
          | cons h hes =>
            rw [hone, List.cons.injEq] at h
            obtain ⟨rfl, -⟩ := h
            refine ⟨_, [], ih.mpr ⟨_, hes, rfl⟩, ?_, rfl⟩
            rw [List.map_cons, JoinEdge.path, htarget]
      · rename_i hnil hmany
        simp only [reduceCtorEq, false_iff]
        rintro ⟨es, hes, -⟩
        cases hes with
        | cons h _ => exact hmany _ h

/-- Edges with distinct names are kept. -/
lemma dedupeEdges_of_nodup (h : (es.map JoinEdge.edgeId).Nodup) : dedupeEdges es = es := by
  have hfold : ∀ result : List JoinEdge, ((result ++ es).map JoinEdge.edgeId).Nodup →
      es.foldl (fun result e =>
        if (e.edgeId, e.direction) ∈ result.map fun e => (e.edgeId, e.direction) then result
        else result ++ [e]) result = result ++ es := by
    clear h
    induction es with
    | nil => simp
    | cons e es ih =>
      intro result hnodup
      have hnew : (e.edgeId, e.direction) ∉ result.map fun e => (e.edgeId, e.direction) := by
        intro hin
        obtain ⟨e', he', heq⟩ := List.mem_map.mp hin
        rw [List.map_append, List.nodup_append] at hnodup
        exact hnodup.2.2 _ (List.mem_map_of_mem he') _ List.mem_cons_self (Prod.mk.inj heq).1
      rw [List.foldl_cons, if_neg hnew]
      have hrest := ih (result ++ [e]) (by simpa using hnodup)
      simpa using hrest
  exact hfold [] h

lemma resolveJoinPaths_ok {resolution : JoinResolution} :
    resolveJoinPaths anchor edges timeEdge timeTarget targets = .ok resolution ↔
      ∃ es, List.Forall₂ (fun t e => directEdges anchor edges timeEdge timeTarget t = [e])
        (targets.filter (· ≠ anchor)) es ∧
        resolution = ⟨anchor, es.map (JoinEdge.path anchor), dedupeEdges es⟩ := by
  have hflat : ∀ es : List JoinEdge, (es.map (JoinEdge.path anchor)).flatMap JoinPath.edges = es := by
    intro es
    induction es with
    | nil => rfl
    | cons e es ih => rw [List.map_cons, List.flatMap_cons, ih, JoinEdge.path, List.singleton_append]
  rw [resolveJoinPaths]
  simp only [except_bind_ok, Prod.exists, exists_checked, require_ok, except_pure_ok]
  constructor
  · rintro ⟨paths, unreachable, hpaths, rfl, rfl⟩
    obtain ⟨es, hes, rfl⟩ := resolveTargets_ok.mp hpaths
    exact ⟨es, hes, by rw [hflat]⟩
  · rintro ⟨es, hes, rfl⟩
    exact ⟨_, [], resolveTargets_ok.mpr ⟨es, hes, rfl⟩, rfl, by rw [hflat]⟩

lemma checkPath_path (hsource : e.sourceTable = anchor) (hforward : e.direction = "forward") :
    checkPath anchor (e.path anchor).edges = .ok () := by
  rw [JoinEdge.path, checkPath, if_neg (by simp [hsource, hforward]), checkPath]

end Resolving

section Published

variable {facts : Facts} {graph : RelationshipGraph} {anchor : String}
  {timeEdge timeTarget : Option String} {targets : List String} {e e' : JoinEdge}

lemma foreignKey_of_edge (he : e ∈ graph.edges) : ∃ f ∈ graph.foreignKeys, f.edge = e := by
  rw [RelationshipGraph.edges, sortEdges, List.mem_insertionSort] at he
  exact List.mem_map.mp he

/-- Edges of one table are told apart by their names. -/
lemma edge_of_edgeId (h : Published facts graph) (he : e ∈ graph.edges) (he' : e' ∈ graph.edges)
    (hsource : e.sourceTable = e'.sourceTable) (hid : e.edgeId = e'.edgeId) : e = e' := by
  obtain ⟨f, hf, rfl⟩ := foreignKey_of_edge he
  obtain ⟨g, hg, rfl⟩ := foreignKey_of_edge he'
  have hidentity : f.identity = g.identity := by
    change s!"{f.edge.sourceTable}:{f.edge.edgeId}" = s!"{g.edge.sourceTable}:{g.edge.edgeId}"
    rw [hsource, hid]
  rw [List.inj_on_of_nodup_map h.distinct hf hg hidentity]

/-- Direct edges to distinct targets are told apart by their names. -/
lemma nodup_edgeId (h : Published facts graph) (htargets : targets.Nodup) {es : List JoinEdge}
    (hes : List.Forall₂ (fun t e => directEdges anchor graph.edges timeEdge timeTarget t = [e])
      targets es) : (es.map JoinEdge.edgeId).Nodup := by
  induction hes with
  | nil => simp
  | @cons t e targets es ht hes ih =>
    obtain ⟨hnew, hnodup⟩ := List.nodup_cons.mp htargets
    rw [List.map_cons, List.nodup_cons]
    refine ⟨?_, ih hnodup⟩
    intro hin
    obtain ⟨e', he', hid⟩ := List.mem_map.mp hin
    obtain ⟨t', ht', hdirect⟩ := exists_of_forall₂ hes he'
    have hmem := of_mem_directEdges (ht ▸ List.mem_singleton.mpr rfl)
    have hmem' := of_mem_directEdges (hdirect ▸ List.mem_singleton.mpr rfl)
    have hsame := edge_of_edgeId h hmem'.1 hmem.1 (hmem'.2.1.trans hmem.2.1.symm) hid
    rw [hsame, hmem.2.2] at hmem'
    exact hnew (hmem'.2.2 ▸ ht')

/-- The edge of a published foreign key has the proof of a key. -/
lemma constraintOf_edge (h : Published facts graph) (htrimmed : Trimmed facts)
    (he : e ∈ graph.edges) : ∃ c, constraintOf graph.uniqueKeys e = .ok c := by
  obtain ⟨f, hf, rfl⟩ := foreignKey_of_edge he
  obtain ⟨basis, hbasis⟩ := exists_uniqueKey (h.referenced htrimmed f hf)
  have hkey : Dict.get? graph.uniqueKeys (f.edge.targetTable, f.edge.targetColumns) = some basis :=
    hbasis
  unfold constraintOf
  rw [hkey]
  exact ⟨_, rfl⟩

/-- What the constraint of an edge says. -/
lemma constraintOf_ok {c : JoinConstraint} (h : constraintOf graph.uniqueKeys e = .ok c) :
    Dict.get? graph.uniqueKeys (e.targetTable, e.targetColumns) = some c.uniquenessBasis ∧
      c = ⟨e.sourceTable, e.sourceColumns, e.targetTable, e.targetColumns, c.uniquenessBasis,
        "forward"⟩ := by
  unfold constraintOf at h
  split at h
  · cases h
  · rename_i basis hbasis
    cases h
    exact ⟨hbasis, rfl⟩

/-- The joins from an anchor are the constraints of the direct edges. -/
lemma joinConstraints_ok (h : Published facts graph) (htargets : targets.Nodup)
    {cs : List JoinConstraint} :
    joinConstraints anchor graph.edges timeEdge timeTarget graph.toJson targets = .ok cs ↔
      ∃ es, List.Forall₂ (fun t e => directEdges anchor graph.edges timeEdge timeTarget t = [e])
        (targets.filter (· ≠ anchor)) es ∧ es.mapM (constraintOf graph.uniqueKeys) = .ok cs := by
  rw [joinConstraints]
  simp only [except_bind_ok, resolveJoinPaths_ok]
  constructor
  · rintro ⟨_, ⟨es, hes, rfl⟩, hcs⟩
    refine ⟨es, hes, ?_⟩
    rw [validatedJoinConstraints, dedupeEdges_of_nodup (nodup_edgeId h (htargets.filter _) hes)] at hcs
    split at hcs
    · rename_i hnil
      simp only at hnil
      rw [hnil]
      exact hcs
    · simp only [except_bind_ok, graphUniqueKeys_toJson h, Except.ok.injEq, exists_eq_left'] at hcs
      obtain ⟨-, -, hcs⟩ := hcs
      exact hcs
  · rintro ⟨es, hes, hcs⟩
    refine ⟨_, ⟨es, hes, rfl⟩, ?_⟩
    rw [validatedJoinConstraints, dedupeEdges_of_nodup (nodup_edgeId h (htargets.filter _) hes)]
    split
    · rename_i hnil
      simp only at hnil
      rw [hnil] at hcs
      exact hcs
    · simp only [except_bind_ok, graphUniqueKeys_toJson h, Except.ok.injEq, exists_eq_left']
      refine ⟨(), forM_ok_iff.mpr ?_, hcs⟩
      intro path hpath
      obtain ⟨e, he, rfl⟩ := List.mem_map.mp hpath
      obtain ⟨t, -, hdirect⟩ := exists_of_forall₂ hes he
      obtain ⟨hedge, hsource, -⟩ := of_mem_directEdges (hdirect ▸ List.mem_singleton.mpr rfl)
      obtain ⟨f, -, rfl⟩ := foreignKey_of_edge hedge
      exact checkPath_path hsource rfl

lemma nodup_targetTables (candidateTables : List String) (metricTable : Option String)
    (timeField : Option TimeField) : (targetTables candidateTables metricTable timeField).Nodup := by
  rw [targetTables, (List.perm_insertionSort _ _).nodup_iff]
  exact List.nodup_dedup _

/-- What certifies a constraint: a foreign key of the graph from the anchor, and a key of the graph
over its target columns. -/
structure Certified (graph : RelationshipGraph) (anchor : String) (c : JoinConstraint) : Prop where
  foreignKey : ∃ f ∈ graph.foreignKeys, f.edge.sourceTable = c.sourceTable ∧
    f.edge.sourceColumns = c.sourceColumns ∧ f.edge.targetTable = c.targetTable ∧
    f.edge.targetColumns = c.targetColumns
  anchored : c.sourceTable = anchor
  forward : c.direction = "forward"
  key : (∃ k ∈ graph.primaryKeys, k.key = (c.targetTable, c.targetColumns) ∧
      c.uniquenessBasis = s!"primary_key:{k.constraintName}") ∨
    ∃ k ∈ graph.uniqueConstraints, k.key = (c.targetTable, c.targetColumns) ∧
      c.uniquenessBasis = s!"unique_constraint:{k.constraintName}"

lemma certified_of_constraintOf {c : JoinConstraint}
    (he : e ∈ directEdges anchor graph.edges timeEdge timeTarget target)
    (hc : constraintOf graph.uniqueKeys e = .ok c) :
    Certified graph anchor c ∧ c.targetTable = target := by
  obtain ⟨hedge, hsource, htarget⟩ := of_mem_directEdges he
  obtain ⟨f, hf, rfl⟩ := foreignKey_of_edge hedge
  obtain ⟨hbasis, heq⟩ := constraintOf_ok hc
  rw [heq]
  exact ⟨⟨⟨f, hf, rfl, rfl, rfl, rfl⟩, hsource, rfl, key_of_uniqueKey hbasis⟩, htarget⟩

variable {candidateTables : List String} {metricTable : Option String} {timeField : Option TimeField}

/-- The joins over a published graph are the constraints of its direct edges. -/
lemma resolveJoin_ok (h : Published facts graph) {cs : List JoinConstraint} :
    resolveJoin anchor candidateTables metricTable timeField graph.toJson = .ok cs ↔
      (∀ f ∈ graph.foreignKeys, f.Balanced) ∧
        ∃ timeEdge, timeField.mapM (validateTimeEdge · graph.edges) = .ok timeEdge ∧
          ∃ es, List.Forall₂ (fun t e => directEdges anchor graph.edges timeEdge
              (timeField.map TimeField.targetTable) t = [e])
            ((targetTables candidateTables metricTable timeField).filter (· ≠ anchor)) es ∧
            es.mapM (constraintOf graph.uniqueKeys) = .ok cs := by
  have hnodup := nodup_targetTables candidateTables metricTable timeField
  rw [resolveJoin]
  simp only [except_bind_ok, parseEdges_toJson h]
  constructor
  · rintro ⟨_, ⟨hbalanced, rfl⟩, timeEdge, htime, hcs⟩
    exact ⟨hbalanced, timeEdge, htime, (joinConstraints_ok h hnodup).mp hcs⟩
  · rintro ⟨hbalanced, timeEdge, htime, hcs⟩
    exact ⟨_, ⟨hbalanced, rfl⟩, timeEdge, htime, (joinConstraints_ok h hnodup).mpr hcs⟩

/-- What is resolved is one certified constraint for each target. -/
lemma certified_resolveJoin (h : Published facts graph) {cs : List JoinConstraint}
    (hcs : resolveJoin anchor candidateTables metricTable timeField graph.toJson = .ok cs) :
    (∀ c ∈ cs, Certified graph anchor c) ∧
      cs.map JoinConstraint.targetTable =
        (targetTables candidateTables metricTable timeField).filter (· ≠ anchor) := by
  obtain ⟨-, timeEdge, -, es, hes, hcs⟩ := (resolveJoin_ok h).mp hcs
  have hcertified : List.Forall₂ (fun t c => Certified graph anchor c ∧
      JoinConstraint.targetTable c = t)
      ((targetTables candidateTables metricTable timeField).filter (· ≠ anchor)) cs := by
    refine forall₂_trans (fun t e c hdirect hc => ?_) hes (mapM_ok hcs)
    exact certified_of_constraintOf (hdirect ▸ List.mem_singleton.mpr rfl) hc
  refine ⟨fun c hc => ?_, ?_⟩
  · obtain ⟨t, -, h⟩ := exists_of_forall₂ hcertified hc
    exact h.1
  · refine List.forall₂_eq_eq_eq ▸ ?_
    rw [List.forall₂_map_left_iff]
    exact hcertified.flip.imp fun c t h => h.2

lemma trimmed_sales : Trimmed salesFacts := by
  intro r hr type _ _ schema table hschema htable
  simp only [salesFacts, List.mem_cons, List.not_mem_nil, or_false] at hr
  rcases hr with rfl | rfl <;> cases hschema <;> cases htable <;> rfl

end Published

end ChatBI.Relationships
