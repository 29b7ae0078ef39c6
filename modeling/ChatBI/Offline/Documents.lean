import ChatBI.Lib.Dict
import ChatBI.Offline.Sources
import Mathlib.Algebra.Order.Field.Rat

/-!
# Retrieval documents

`build_documents` writes the facts as documents of three collections, the build validates them, the
vector store keeps them with their metadata, and the online retrieval reads them back.
-/

namespace ChatBI.Offline

open ChatBI.Lib

structure RetrievalDocument where
  documentId : String
  collection : String
  pageContent : String
  metadata : List (String × Json)

def tableCollection : String := "TABLE"
def columnCollection : String := "COLUMN"
def metricCollection : String := "METRIC"

def collections : List String := [tableCollection, columnCollection, metricCollection]

section Building

/-- A line that is left out when its text is empty. -/
def optionalLine (label text : String) : List String := if text = "" then [] else [label ++ text]

/-- A line of texts that is left out when there is none. -/
def listLine (label separator : String) (texts : List String) : List String :=
  if texts = [] then [] else [label ++ separator.intercalate texts]

def optionalJson : Option Bool → Json
  | none => .null
  | some b => .bool b

/-- The names of a list in the metadata. -/
def namesJson (names : List String) : Json := .arr (names.map .str)

/-- A document of `_build_table_documents`. -/
def tableDocument (t : TableRecord) : RetrievalDocument where
  documentId := s!"table:{t.key}"
  collection := tableCollection
  pageContent := "\n".intercalate ([s!"表名：{t.key}"] ++ optionalLine "表类型：" t.tableType ++
    optionalLine "业务含义：" t.description)
  metadata := [("doc_type", .str "TABLE"), ("schema_name", .str t.schemaName),
    ("table_name", .str t.tableName), ("table_type", .str t.tableType)]

/-- A document of `_build_column_documents`. -/
def columnDocument (c : ColumnRecord) : RetrievalDocument where
  documentId := s!"column:{c.tableKey}.{c.columnName}"
  collection := columnCollection
  pageContent := "\n".intercalate
    ([s!"字段名：{c.columnName}（所属表：{c.tableKey}）", s!"数据类型：{c.dataType}"] ++
      listLine "键属性：" "/" ((if c.isPrimaryKey = some true then ["主键"] else []) ++
        if c.isForeignKey = some true then ["外键"] else []) ++
      optionalLine "字段含义：" c.description ++ listLine "字段值示例：" "、" c.valueExamples)
  metadata := [("doc_type", .str "COLUMN"), ("schema_name", .str c.schemaName),
    ("table_name", .str c.tableName), ("column_name", .str c.columnName),
    ("data_type", .str c.dataType), ("nullable", optionalJson c.nullable),
    ("is_primary_key", optionalJson c.isPrimaryKey), ("is_foreign_key", optionalJson c.isForeignKey)]

/-- A document of `_build_metric_documents`. -/
def metricDocument (m : MetricRecord) : RetrievalDocument where
  documentId := s!"metric:{m.name}"
  collection := metricCollection
  pageContent := "\n".intercalate ([s!"指标名：{m.name}"] ++ listLine "别名：" "、" m.aliases ++
    optionalLine "指标层级：" m.level ++ optionalLine "指标定义：" m.definition)
  metadata := [("doc_type", .str "METRIC"), ("metric_name", .str m.name),
    ("aliases", namesJson m.aliases), ("level", .str m.level), ("definition", .str m.definition),
    ("formula", .str m.formula), ("data_source", .str m.dataSource),
    ("time_field", .str m.timeField), ("filters", namesJson m.filters),
    ("depends_on", namesJson m.dependsOn), ("notes", .str m.notes)]

def buildDocuments (facts : Facts) : List RetrievalDocument :=
  facts.tables.map tableDocument ++ facts.columns.map columnDocument ++
    facts.metrics.map metricDocument

/-- A step of `_validate_documents`: the identities in front of the document and its own. -/
def validateDocument (ids : List String) (d : RetrievalDocument) : Except String (List String) := do
  require (d.collection ∈ collections) s!"文档 {d.documentId} 属于未知集合 {d.collection}"
  require (d.documentId ≠ "" ∧ strip d.pageContent ≠ "") "检索文档身份和 page_content 不能为空"
  require (d.documentId ∉ ids) s!"检索文档存在重复 document_id：{d.documentId}"
  return ids ++ [d.documentId]

/-- `_validate_documents`. -/
def validateDocuments (documents : List RetrievalDocument) : Except String Unit := do
  require (documents ≠ []) "检索文档集合不能为空"
  let _ ← documents.foldlM validateDocument []
  return ()

/-- `_group_documents`. -/
def groupDocuments (documents : List RetrievalDocument) (collection : String) :
    List RetrievalDocument :=
  documents.filter fun d => d.collection = collection

end Building

section Reading

/-- `to_payload`, with the metadata repeated at the top as `upsert_documents` stores it. -/
def RetrievalDocument.stored (d : RetrievalDocument) : Json :=
  .obj (d.metadata.foldl (fun payload m => Dict.set payload m.1 m.2)
    [("document_id", .str d.documentId), ("collection", .str d.collection),
      ("page_content", .str d.pageContent), ("metadata", .obj d.metadata)])

structure SearchHit where
  documentId : String
  score : Rat
  payload : Json

/-- A point of `search`. -/
def searchHit (collectionName : String) (score : Rat) (payload : Json) : Except String SearchHit := do
  require payload.isDict s!"集合 {collectionName} 返回了无效 payload"
  match payload.field "document_id" with
  | .str documentId =>
    require (documentId ≠ "") s!"集合 {collectionName} 返回了缺少 document_id 的点"
    return ⟨documentId, score, payload⟩
  | _ => .error s!"集合 {collectionName} 返回了缺少 document_id 的点"

structure TableHit where
  documentId : String
  schemaName : String
  tableName : String
  tableRole : String
  score : Rat
  rank : Nat
  metadata : Json
  pageContent : String

structure ColumnHit where
  documentId : String
  schemaName : String
  tableName : String
  columnName : String
  dataType : String
  score : Rat
  rank : Nat
  metadata : Json
  pageContent : String

structure MetricHit where
  documentId : String
  metricName : String
  score : Rat
  rank : Nat
  metadata : Json
  pageContent : String

/-- `_metadata`. -/
def SearchHit.metadata (hit : SearchHit) (expectedDocType : String) : Except String Json := do
  let metadata := hit.payload.field "metadata"
  require metadata.isDict s!"{expectedDocType} {hit.documentId} 缺少 metadata"
  match metadata.field "doc_type" with
  | .str docType => require (docType = expectedDocType) s!"{hit.documentId} 的 doc_type 不正确"
  | _ => .error s!"{hit.documentId} 的 doc_type 不正确"
  return metadata

/-- `_required_metadata_text`. -/
def requiredMetadataText (metadata : Json) (key documentId : String) : Except String String :=
  match metadata.field key with
  | .str value =>
    if strip value = "" then .error s!"{documentId} 缺少有效 {key}" else .ok (strip value)
  | _ => .error s!"{documentId} 缺少有效 {key}"

/-- The text of a payload, the empty one when it is missing: `hit.payload.get("page_content", "")`. -/
def SearchHit.pageContent (hit : SearchHit) (docType : String) : Except String String :=
  match hit.payload.get? "page_content" with
  | none => .ok ""
  | some (.str text) => .ok text
  | some _ => .error s!"{docType} {hit.documentId} 的 page_content 无效"

/-- `_to_table_hit`. -/
def toTableHit (hit : SearchHit) (rank : Nat) : Except String TableHit := do
  let metadata ← hit.metadata "TABLE"
  let schemaName ← requiredMetadataText metadata "schema_name" hit.documentId
  let tableName ← requiredMetadataText metadata "table_name" hit.documentId
  let pageContent ← hit.pageContent "TABLE"
  return ⟨hit.documentId, schemaName, tableName, (metadata.field "table_type").text, hit.score, rank,
    metadata, pageContent⟩

/-- `_to_column_hit`. -/
def toColumnHit (hit : SearchHit) (rank : Nat) : Except String ColumnHit := do
  let metadata ← hit.metadata "COLUMN"
  let schemaName ← requiredMetadataText metadata "schema_name" hit.documentId
  let tableName ← requiredMetadataText metadata "table_name" hit.documentId
  let columnName ← requiredMetadataText metadata "column_name" hit.documentId
  let dataType ← requiredMetadataText metadata "data_type" hit.documentId
  let pageContent ← hit.pageContent "COLUMN"
  return ⟨hit.documentId, schemaName, tableName, columnName, dataType, hit.score, rank, metadata,
    pageContent⟩

/-- `_to_metric_hit`. -/
def toMetricHit (hit : SearchHit) (rank : Nat) : Except String MetricHit := do
  let metadata ← hit.metadata "METRIC"
  let metricName ← requiredMetadataText metadata "metric_name" hit.documentId
  let pageContent ← hit.pageContent "METRIC"
  require (strip pageContent ≠ "") s!"METRIC {hit.documentId} 的 page_content 无效"
  return ⟨hit.documentId, metricName, hit.score, rank, metadata, pageContent⟩

end Reading

section Accepted

/-- The documents in front of a document and its own keep their identities apart. -/
lemma foldlM_validateDocument {documents : List RetrievalDocument} {ids : List String}
    (hcollection : ∀ d ∈ documents, d.collection ∈ collections)
    (hcontent : ∀ d ∈ documents, d.documentId ≠ "" ∧ strip d.pageContent ≠ "")
    (hnodup : (ids ++ documents.map RetrievalDocument.documentId).Nodup) :
    documents.foldlM validateDocument ids =
      .ok (ids ++ documents.map RetrievalDocument.documentId) := by
  induction documents generalizing ids with
  | nil =>
    rw [List.map_nil, List.append_nil]
    rfl
  | cons d documents ih =>
    rw [List.forall_mem_cons] at hcollection hcontent
    rw [List.map_cons] at hnodup ⊢
    have hnew : d.documentId ∉ ids := by
      intro hmem
      exact (List.nodup_append.mp hnodup).2.2 _ hmem _ List.mem_cons_self rfl
    have hstep : validateDocument ids d = .ok (ids ++ [d.documentId]) := by
      rw [validateDocument, require_ok.mpr hcollection.1, require_ok.mpr hcontent.1,
        require_ok.mpr hnew]
      rfl
    have happend : ids ++ d.documentId :: documents.map RetrievalDocument.documentId =
        ids ++ [d.documentId] ++ documents.map RetrievalDocument.documentId := by simp
    rw [happend] at hnodup ⊢
    rw [List.foldlM_cons, hstep]
    exact ih hcollection.2 hcontent.2 hnodup

lemma documentId_injective {pre k k' : String} (h : pre ++ k = pre ++ k') : k = k' := by
  have hlist := congrArg String.toList h
  rw [String.toList_append, String.toList_append, List.append_cancel_left_eq] at hlist
  exact String.toList_inj.mp hlist

lemma tableDocument_id (t : TableRecord) : (tableDocument t).documentId = "table:" ++ t.key := rfl

lemma columnDocument_id (c : ColumnRecord) : (columnDocument c).documentId = "column:" ++ c.key := by
  simp [columnDocument, ColumnRecord.tableKey, ColumnRecord.key, String.append_assoc, ToString.toString]

lemma metricDocument_id (m : MetricRecord) : (metricDocument m).documentId = "metric:" ++ m.name :=
  rfl

/-- Records with distinct keys are written under distinct identities. -/
lemma Keyed.nodup_ids {α : Type} {key : α → String} {P : α → Prop} {records : List α}
    (h : Keyed key P records) {document : α → RetrievalDocument} {pre : String}
    (hid : ∀ r, (document r).documentId = pre ++ key r) :
    (records.map fun r => (document r).documentId).Nodup := by
  have hmap : records.map (fun r => (document r).documentId) = (records.map key).map (pre ++ ·) := by
    rw [List.map_map]
    exact List.map_congr_left fun r _ => hid r
  rw [hmap]
  exact h.nodup.map fun _ _ => documentId_injective

lemma collections_apart {a b k k' : String} (hne : a.toList.head? ≠ b.toList.head?)
    (ha : a.toList ≠ []) (hb : b.toList ≠ []) : a ++ k ≠ b ++ k' := by
  intro h
  have hlist := congrArg (fun s => s.toList.head?) h
  simp only [String.toList_append, List.head?_append_of_ne_nil _ ha,
    List.head?_append_of_ne_nil _ hb] at hlist
  exact hne hlist

lemma nodup_buildDocuments {facts : Facts} (h : facts.Loaded) :
    ((buildDocuments facts).map RetrievalDocument.documentId).Nodup := by
  have htables := h.tables.nodup_ids tableDocument_id
  have hcolumns := h.columns.nodup_ids columnDocument_id
  have hmetrics := h.metrics.nodup_ids metricDocument_id
  simp only [buildDocuments, List.map_append, List.map_map]
  refine List.nodup_append.mpr ⟨List.nodup_append.mpr ⟨htables, hcolumns, ?_⟩, hmetrics, ?_⟩
  · intro id ht id' hc
    obtain ⟨t, -, rfl⟩ := List.mem_map.mp ht
    obtain ⟨c, -, rfl⟩ := List.mem_map.mp hc
    simp only [Function.comp_apply, tableDocument_id, columnDocument_id]
    exact collections_apart (by decide) (by decide) (by decide)
  · intro id hleft id' hm
    obtain ⟨m, -, rfl⟩ := List.mem_map.mp hm
    rcases List.mem_append.mp hleft with ht | hc
    · obtain ⟨t, -, rfl⟩ := List.mem_map.mp ht
      simp only [Function.comp_apply, tableDocument_id, metricDocument_id]
      exact collections_apart (by decide) (by decide) (by decide)
    · obtain ⟨c, -, rfl⟩ := List.mem_map.mp hc
      simp only [Function.comp_apply, columnDocument_id, metricDocument_id]
      exact collections_apart (by decide) (by decide) (by decide)

/-- The first line of a document is its title: a document has an identity and is not blank. -/
lemma document_content (d : RetrievalDocument) {pre key title : String} {lines : List String}
    (hid : d.documentId = pre ++ key) (c : Char) (hpre : pre.toList ≠ [])
    (hcontent : d.pageContent = "\n".intercalate (title :: lines))
    (hc : c ∈ title.toList) (hspace : isSpace c = false) :
    d.documentId ≠ "" ∧ strip d.pageContent ≠ "" := by
  refine ⟨?_, ?_⟩
  · intro h
    rw [hid] at h
    have hlist := congrArg String.toList h
    rw [String.toList_append, String.toList_empty, List.append_eq_nil_iff] at hlist
    exact hpre hlist.1
  · rw [hcontent]
    exact strip_ne_empty (mem_intercalate_cons hc) hspace

lemma content_buildDocuments (facts : Facts) : ∀ d ∈ buildDocuments facts,
    d.collection ∈ collections ∧ d.documentId ≠ "" ∧ strip d.pageContent ≠ "" := by
  intro d hd
  rcases List.mem_append.mp hd with hleft | hm
  · rcases List.mem_append.mp hleft with ht | hc
    · obtain ⟨t, -, rfl⟩ := List.mem_map.mp ht
      refine ⟨?_, document_content _ (tableDocument_id t) '表' (by decide) rfl ?_ (by decide)⟩
      · simp [tableDocument, collections]
      · simp [ToString.toString]
    · obtain ⟨c, -, rfl⟩ := List.mem_map.mp hc
      refine ⟨?_, document_content _ (columnDocument_id c) '字' (by decide) rfl ?_ (by decide)⟩
      · simp [columnDocument, collections]
      · simp [ToString.toString]
  · obtain ⟨m, -, rfl⟩ := List.mem_map.mp hm
    refine ⟨?_, document_content _ (metricDocument_id m) '指' (by decide) rfl ?_ (by decide)⟩
    · simp [metricDocument, collections]
    · simp [ToString.toString]

/-- The build accepts the documents of every set of facts that the loader accepts. -/
lemma validateDocuments_buildDocuments {facts : Facts} (h : facts.Loaded) :
    validateDocuments (buildDocuments facts) = .ok () := by
  have hne : buildDocuments facts ≠ [] := by
    obtain ⟨htables, -⟩ := h.nonempty
    simp [buildDocuments, htables]
  have hfold := @foldlM_validateDocument _ []
    (fun d hd => (content_buildDocuments facts d hd).1)
    (fun d hd => (content_buildDocuments facts d hd).2)
    (by rw [List.nil_append]; exact nodup_buildDocuments h)
  rw [validateDocuments, require_ok.mpr hne, hfold]
  rfl

/-- No collection of the documents of loaded facts is empty. -/
lemma groupDocuments_ne_nil {facts : Facts} (h : facts.Loaded) {collection : String}
    (hin : collection ∈ collections) : groupDocuments (buildDocuments facts) collection ≠ [] := by
  have hgroup : ∀ {α : Type} (document : α → RetrievalDocument) {records : List α},
      records ≠ [] → (∀ r ∈ records, document r ∈ buildDocuments facts) →
      (∀ r, (document r).collection = collection) →
      groupDocuments (buildDocuments facts) collection ≠ [] := by
    intro α document records hne hmem hcollection
    obtain ⟨r, hr⟩ := List.exists_mem_of_ne_nil records hne
    apply List.ne_nil_of_mem (a := document r)
    rw [groupDocuments, List.mem_filter]
    exact ⟨hmem r hr, decide_eq_true (hcollection r)⟩
  obtain ⟨htables, hcolumns, hmetrics⟩ := h.nonempty
  simp only [collections, List.mem_cons, List.not_mem_nil, or_false] at hin
  rcases hin with rfl | rfl | rfl
  · refine hgroup tableDocument htables (fun t ht => ?_) fun _ => rfl
    exact List.mem_append_left _ (List.mem_append_left _ (List.mem_map_of_mem ht))
  · refine hgroup columnDocument hcolumns (fun c hc => ?_) fun _ => rfl
    exact List.mem_append_left _ (List.mem_append_right _ (List.mem_map_of_mem hc))
  · refine hgroup metricDocument hmetrics (fun m hm => ?_) fun _ => rfl
    exact List.mem_append_right _ (List.mem_map_of_mem hm)

end Accepted

section ReadBack

variable {d : RetrievalDocument} {collectionName : String} {score : Rat} {rank : Nat}

lemma get?_obj (fields : List (String × Json)) (k : String) :
    (Json.obj fields).get? k = Dict.get? fields k := by
  induction fields with
  | nil => rfl
  | cons e fields ih =>
    obtain ⟨k', v⟩ := e
    by_cases h : k' = k
    · simp [Json.get?, Dict.get?, h]
    · rw [Json.get?] at ih ⊢
      rw [List.find?_cons_of_neg (by simpa using h), ih, Dict.get?, if_neg h]

/-- The metadata at the top of the payload hides nothing else. -/
lemma stored_get? {k : String} (hk : k ∉ d.metadata.map Prod.fst) :
    d.stored.get? k = (Json.obj [("document_id", .str d.documentId), ("collection", .str d.collection),
      ("page_content", .str d.pageContent), ("metadata", .obj d.metadata)]).get? k := by
  have hfold : ∀ (entries start : List (String × Json)), k ∉ entries.map Prod.fst →
      Dict.get? (entries.foldl (fun payload m => Dict.set payload m.1 m.2) start) k =
        Dict.get? start k := by
    intro entries
    induction entries with
    | nil => exact fun _ _ => rfl
    | cons e entries ih =>
      intro start hnot
      rw [List.map_cons, List.mem_cons, not_or] at hnot
      rw [List.foldl_cons, ih _ hnot.2, Dict.get?_set_of_ne fun h => hnot.1 h.symm]
  rw [RetrievalDocument.stored, get?_obj, get?_obj, hfold _ _ hk]

/-- The names under which the store keeps a document. -/
def payloadKeys : List String := ["document_id", "page_content", "metadata"]

lemma searchHit_stored (hid : d.documentId ≠ "")
    (hkeys : ∀ k ∈ payloadKeys, k ∉ d.metadata.map Prod.fst) :
    searchHit collectionName score d.stored = .ok ⟨d.documentId, score, d.stored⟩ := by
  have hdict : d.stored.isDict = true := rfl
  have hfield : d.stored.field "document_id" = .str d.documentId :=
    Json.field_of_get? (by rw [stored_get? (hkeys _ (by decide))]; rfl)
  unfold searchHit
  rw [require_ok.mpr hdict]
  simp only [hfield]
  rw [require_ok.mpr hid]
  rfl

/-- What the online retrieval reads in a stored document. -/
lemma metadata_stored {docType : String} (hkeys : ∀ k ∈ payloadKeys, k ∉ d.metadata.map Prod.fst)
    (hdoc : (Json.obj d.metadata).field "doc_type" = .str docType) :
    (SearchHit.mk d.documentId score d.stored).metadata docType = .ok (.obj d.metadata) ∧
      (SearchHit.mk d.documentId score d.stored).pageContent docType = .ok d.pageContent := by
  have hmetadata : d.stored.field "metadata" = .obj d.metadata :=
    Json.field_of_get? (by rw [stored_get? (hkeys _ (by decide))]; rfl)
  have hcontent : d.stored.get? "page_content" = some (.str d.pageContent) := by
    rw [stored_get? (hkeys _ (by decide))]
    rfl
  refine ⟨?_, ?_⟩
  · have hdict : (Json.obj d.metadata).isDict = true := rfl
    unfold SearchHit.metadata
    simp only [hmetadata]
    rw [require_ok.mpr hdict]
    simp only [hdoc, require_ok.mpr]
    rfl
  · unfold SearchHit.pageContent
    simp only [hcontent]

lemma requiredMetadataText_ok {metadata : Json} {key documentId value : String}
    (hfield : metadata.field key = .str value) (hvalue : IsName value) :
    requiredMetadataText metadata key documentId = .ok value := by
  unfold requiredMetadataText
  simp only [hfield]
  rw [if_neg (by rw [hvalue.2]; exact hvalue.1), hvalue.2]

lemma toTableHit_stored {t : TableRecord} (h : t.Loaded) :
    toTableHit ⟨(tableDocument t).documentId, score, (tableDocument t).stored⟩ rank =
      .ok ⟨"table:" ++ t.key, t.schemaName, t.tableName, t.tableType, score, rank,
        .obj (tableDocument t).metadata, (tableDocument t).pageContent⟩ := by
  have hkeys : ∀ k ∈ payloadKeys, k ∉ (tableDocument t).metadata.map Prod.fst := by
    simp [payloadKeys, tableDocument]
  obtain ⟨hmetadata, hpage⟩ := @metadata_stored _ score "TABLE" hkeys rfl
  rw [toTableHit]
  simp only [except_bind_ok, except_pure_ok]
  exact ⟨_, hmetadata, _, requiredMetadataText_ok rfl h.1, _, requiredMetadataText_ok rfl h.2, _,
    hpage, rfl⟩

lemma toColumnHit_stored {c : ColumnRecord} (h : c.Loaded) :
    toColumnHit ⟨(columnDocument c).documentId, score, (columnDocument c).stored⟩ rank =
      .ok ⟨"column:" ++ c.key, c.schemaName, c.tableName, c.columnName, c.dataType, score, rank,
        .obj (columnDocument c).metadata, (columnDocument c).pageContent⟩ := by
  have hkeys : ∀ k ∈ payloadKeys, k ∉ (columnDocument c).metadata.map Prod.fst := by
    simp [payloadKeys, columnDocument]
  obtain ⟨hmetadata, hpage⟩ := @metadata_stored _ score "COLUMN" hkeys rfl
  obtain ⟨hschema, htable, hcolumn, hdataType⟩ := h
  rw [toColumnHit]
  simp only [except_bind_ok, except_pure_ok]
  exact ⟨_, hmetadata, _, requiredMetadataText_ok rfl hschema, _,
    requiredMetadataText_ok rfl htable, _, requiredMetadataText_ok rfl hcolumn, _,
    requiredMetadataText_ok rfl hdataType, _, hpage, by rw [columnDocument_id]⟩

lemma toMetricHit_stored {m : MetricRecord} (h : IsName m.name)
    (hcontent : strip (metricDocument m).pageContent ≠ "") :
    toMetricHit ⟨(metricDocument m).documentId, score, (metricDocument m).stored⟩ rank =
      .ok ⟨"metric:" ++ m.name, m.name, score, rank, .obj (metricDocument m).metadata,
        (metricDocument m).pageContent⟩ := by
  have hkeys : ∀ k ∈ payloadKeys, k ∉ (metricDocument m).metadata.map Prod.fst := by
    simp [payloadKeys, metricDocument]
  obtain ⟨hmetadata, hpage⟩ := @metadata_stored _ score "METRIC" hkeys rfl
  rw [toMetricHit]
  simp only [except_bind_ok, except_pure_ok]
  exact ⟨_, hmetadata, _, requiredMetadataText_ok rfl h, _, hpage, (), require_ok.mpr hcontent, rfl⟩

lemma searchHit_document {facts : Facts} (hmem : d ∈ buildDocuments facts) :
    searchHit collectionName score d.stored = .ok ⟨d.documentId, score, d.stored⟩ := by
  have hkeys : ∀ k ∈ payloadKeys, k ∉ d.metadata.map Prod.fst := by
    rcases List.mem_append.mp hmem with hleft | hm
    · rcases List.mem_append.mp hleft with ht | hc
      · obtain ⟨t, -, rfl⟩ := List.mem_map.mp ht
        simp [payloadKeys, tableDocument]
      · obtain ⟨c, -, rfl⟩ := List.mem_map.mp hc
        simp [payloadKeys, columnDocument]
    · obtain ⟨m, -, rfl⟩ := List.mem_map.mp hm
      simp [payloadKeys, metricDocument]
  exact searchHit_stored (content_buildDocuments facts d hmem).2.1 hkeys

end ReadBack

/-- The documents of loaded facts pass the validation of the build, no collection of them is empty,
and the online retrieval reads every stored document as the record it was made from. -/
theorem documents_read_back {files : SourceFiles} {facts : Facts} (h : loadFacts files = .ok facts)
    (collectionName : String) (score : Rat) (rank : Nat) :
    validateDocuments (buildDocuments facts) = .ok () ∧
    (∀ collection ∈ collections, groupDocuments (buildDocuments facts) collection ≠ []) ∧
    (∀ t ∈ facts.tables,
      (searchHit collectionName score (tableDocument t).stored >>= (toTableHit · rank)) =
        .ok ⟨"table:" ++ t.key, t.schemaName, t.tableName, t.tableType, score, rank,
          .obj (tableDocument t).metadata, (tableDocument t).pageContent⟩) ∧
    (∀ c ∈ facts.columns,
      (searchHit collectionName score (columnDocument c).stored >>= (toColumnHit · rank)) =
        .ok ⟨"column:" ++ c.key, c.schemaName, c.tableName, c.columnName, c.dataType, score, rank,
          .obj (columnDocument c).metadata, (columnDocument c).pageContent⟩) ∧
    ∀ m ∈ facts.metrics,
      (searchHit collectionName score (metricDocument m).stored >>= (toMetricHit · rank)) =
        .ok ⟨"metric:" ++ m.name, m.name, score, rank, .obj (metricDocument m).metadata,
          (metricDocument m).pageContent⟩ := by
  have hloaded := loaded_of_loadFacts h
  refine ⟨validateDocuments_buildDocuments hloaded,
    fun _ hin => groupDocuments_ne_nil hloaded hin, ?_, ?_, ?_⟩
  · intro t ht
    have hmem : tableDocument t ∈ buildDocuments facts :=
      List.mem_append_left _ (List.mem_append_left _ (List.mem_map_of_mem ht))
    rw [except_bind_ok]
    exact ⟨_, searchHit_document hmem, toTableHit_stored (hloaded.tables.all t ht)⟩
  · intro c hc
    have hmem : columnDocument c ∈ buildDocuments facts :=
      List.mem_append_left _ (List.mem_append_right _ (List.mem_map_of_mem hc))
    rw [except_bind_ok]
    exact ⟨_, searchHit_document hmem, toColumnHit_stored (hloaded.columns.all c hc)⟩
  · intro m hm
    have hmem : metricDocument m ∈ buildDocuments facts :=
      List.mem_append_right _ (List.mem_map_of_mem hm)
    rw [except_bind_ok]
    exact ⟨_, searchHit_document hmem,
      toMetricHit_stored (hloaded.metrics.all m hm) (content_buildDocuments facts _ hmem).2.2⟩

/-- Two tables with their columns, and two metrics, one of them over the other. -/
def orderFiles : SourceFiles where
  tables := .arr [
    .obj [("schema_name", .str "mart_sales"), ("table_name", .str " fact_order ")],
    .obj [("schema_name", .str "mart_sales"), ("table_name", .str "dim_date"),
      ("table_type", .str "VIEW"), ("description", .str "dates")]]
  columns := .arr [
    .obj [("schema_name", .str "mart_sales"), ("table_name", .str "fact_order"),
      ("column_name", .str "amount"), ("data_type", .str "numeric")],
    .obj [("schema_name", .str "mart_sales"), ("table_name", .str "fact_order"),
      ("column_name", .str "date_key"), ("data_type", .str "integer"),
      ("is_foreign_key", .bool true)],
    .obj [("schema_name", .str "mart_sales"), ("table_name", .str "dim_date"),
      ("column_name", .str "day"), ("data_type", .str "date"), ("nullable", .bool false),
      ("value_examples", .arr [.str "2025-01-01"])]]
  relationships := .arr [.obj []]
  metrics := .arr [
    .obj [("name", .str "销售额"), ("data_source", .str "fact_order"),
      ("aliases", .arr [.str "sales"])],
    .obj [("name", .str "毛利"), ("depends_on", .arr [.str "销售额"]),
      ("time_field", .str "dim_date.day")]]

def orderFacts : Facts where
  tables := [⟨"mart_sales", "fact_order", "BASE TABLE", ""⟩,
    ⟨"mart_sales", "dim_date", "VIEW", "dates"⟩]
  columns := [
    ⟨"mart_sales", "fact_order", "amount", "numeric", "", none, some false, some false, []⟩,
    ⟨"mart_sales", "fact_order", "date_key", "integer", "", none, some false, some true, []⟩,
    ⟨"mart_sales", "dim_date", "day", "date", "", some false, some false, some false,
      ["2025-01-01"]⟩]
  relationships := [.obj []]
  metrics := [⟨"销售额", ["sales"], "", "", "", "fact_order", [], [], "", ""⟩,
    ⟨"毛利", [], "", "", "", "", ["销售额"], [], "", "dim_date.day"⟩]

lemma loadFacts_order : loadFacts orderFiles = .ok orderFacts := rfl

/-- The second table, the third column and the second metric are read back. -/
theorem documents_read_back_order :
    let table : TableRecord := ⟨"mart_sales", "dim_date", "VIEW", "dates"⟩
    let column : ColumnRecord := ⟨"mart_sales", "dim_date", "day", "date", "", some false,
      some false, some false, ["2025-01-01"]⟩
    let metric : MetricRecord := ⟨"毛利", [], "", "", "", "", ["销售额"], [], "", "dim_date.day"⟩
    validateDocuments (buildDocuments orderFacts) = .ok () ∧
    (∀ collection ∈ collections, groupDocuments (buildDocuments orderFacts) collection ≠ []) ∧
    (searchHit "chatbi__b1" 1 (tableDocument table).stored >>= (toTableHit · 2)) =
      .ok ⟨"table:mart_sales.dim_date", "mart_sales", "dim_date", "VIEW", 1, 2,
        .obj (tableDocument table).metadata, (tableDocument table).pageContent⟩ ∧
    (searchHit "chatbi__b1" 1 (columnDocument column).stored >>= (toColumnHit · 2)) =
      .ok ⟨"column:mart_sales.dim_date.day", "mart_sales", "dim_date", "day", "date", 1, 2,
        .obj (columnDocument column).metadata, (columnDocument column).pageContent⟩ ∧
    (searchHit "chatbi__b1" 1 (metricDocument metric).stored >>= (toMetricHit · 2)) =
      .ok ⟨"metric:毛利", "毛利", 1, 2, .obj (metricDocument metric).metadata,
        (metricDocument metric).pageContent⟩ := by
  intro table column metric
  obtain ⟨hvalid, hgroups, htables, hcolumns, hmetrics⟩ :=
    documents_read_back loadFacts_order "chatbi__b1" 1 2
  exact ⟨hvalid, hgroups, htables table (by decide), hcolumns column (by decide),
    hmetrics metric (by decide)⟩

end ChatBI.Offline
