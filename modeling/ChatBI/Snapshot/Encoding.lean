import ChatBI.Lib.JsonText
import ChatBI.Report.Number
import ChatBI.Snapshot.Whitelist
import ChatBI.Snapshot.QueryState

/-!
# Encoding a snapshot

`encode_snapshot` validates the result of a turn and what it is from, and returns what the text of
the snapshot is read as. The reader accepts every snapshot of a query, and that of an analysis when
its question is not blank.
-/

namespace ChatBI.Snapshot

open ChatBI.Lib ChatBI.Store ChatBI.Semantic

/-- A value whose objects are dictionaries. -/
abbrev JsonValue := {v : Json // v.UniqueKeys}

def maxSnapshotBytes : ℕ := 5 * 1024 * 1024

/-- The encoding raises a `HistoryError`, or `json.loads` raises. -/
inductive EncodeError where
  | history (e : HistoryError)
  | notJson
  deriving DecidableEq

def unavailable (message : String) : EncodeError :=
  .history { code := .historySnapshotUnavailable, message }

/-- What the caller hands over beside the result. -/
structure Origin where
  queryState : Option JsonValue := none
  originalQuestion : Option String := none
  sourceQuestion : Option String := none

section

variable (isDecimal : String → Bool) (digit : Char → Option Nat)
  (fromisoformat : String → Option Semantic.DateTime) (format : FloatFormat)

/-- The fields of a query beside its result. -/
def querySource (origin : Origin) : Except EncodeError (List (String × Json)) :=
  match origin.queryState, origin.sourceQuestion with
  | some state, some question => do
    require (strip question ≠ "") (unavailable "完整恢复状态或来源问题不可用")
    let _ ← (decodeQueryState digit fromisoformat state).mapError .history
    return [("query_state", state), ("source_question", .str (strip question))]
  | _, _ => .error (unavailable "完整恢复状态或来源问题不可用")

/-- The fields of an analysis beside its result. -/
def analysisSource (origin : Origin) : Except EncodeError (List (String × Json)) :=
  match origin.originalQuestion with
  | some question => do
    require (question ≠ "") (unavailable "原分析问题不可用")
    return [("original_question", .str question)]
  | none => .error (unavailable "原分析问题不可用")

def sourceFields (kind : String) (origin : Origin) : Except EncodeError (List (String × Json)) :=
  if kind = "query" then querySource digit fromisoformat origin
  else if kind = "analysis" then analysisSource origin
  else .error (unavailable "快照类型不可用")

def envelope (kind : String) (result : JsonValue) (source : List (String × Json)) : Json :=
  .obj (("version", .int 1) :: ("kind", .str kind) :: ("result", result.1) :: source)

def encodeSnapshot (kind : String) (result : JsonValue) (origin : Origin) :
    Except EncodeError Json := do
  (validatePublicResult isDecimal kind result).mapError .history
  let source ← sourceFields digit fromisoformat kind origin
  let envelope := envelope kind result source
  require envelope.writable (unavailable "快照无法安全编码")
  let encoded := envelope.dumps format
  require (Utf8.size encoded ≤ maxSnapshotBytes)
    (.history {
      code := .historySnapshotTooLarge
      message := "结果快照超过5 MiB，未保存本次成功状态" })
  match Json.loads format Report.validJsonNumber encoded with
  | some snapshot => .ok snapshot
  | none => .error .notJson

end

section Reading

variable {isDecimal : String → Bool} {digit : Char → Option Nat}
  {fromisoformat : String → Option Semantic.DateTime} {format : FloatFormat} {kind : String}
  {result : JsonValue} {origin : Origin} {source : List (String × Json)} {encoded : Json}

/-- What the snapshot of a query, and that of an analysis, are from. -/
lemma sourceFields_ok (h : sourceFields digit fromisoformat kind origin = .ok source) :
    (kind = "query" ∧ ∃ state question semantic, strip question ≠ "" ∧
      decodeQueryState digit fromisoformat state.1 = .ok semantic ∧ state ∈ origin.queryState ∧
      source = [("query_state", state.1), ("source_question", .str (strip question))]) ∨
    (kind = "analysis" ∧ ∃ question ∈ origin.originalQuestion,
      source = [("original_question", .str question)]) := by
  unfold sourceFields at h
  split at h
  · next hkind =>
    left
    unfold querySource at h
    split at h
    · next state question hstate _ =>
      rw [checked_bind_ok, require_ok, except_bind_ok] at h
      obtain ⟨hquestion, semantic, hdecode, hsource⟩ := h
      rw [mapError_ok] at hdecode
      cases hsource
      exact ⟨hkind, state, question, semantic, hquestion, hdecode, hstate, rfl⟩
    · cases h
  · split at h
    · next hkind =>
      right
      unfold analysisSource at h
      split at h
      · next question hquestion =>
        simp only [checked_bind_ok, except_pure_ok, require_ok] at h
        exact ⟨hkind, question, hquestion, h.2.symm⟩
      · cases h
    · cases h

lemma uniqueKeys_envelope (h : sourceFields digit fromisoformat kind origin = .ok source) :
    (envelope kind result source).UniqueKeys := by
  have hresult := result.2
  rcases sourceFields_ok h with ⟨-, state, question, -, -, -, -, rfl⟩ | ⟨-, question, -, rfl⟩
  · have hstate := state.2
    simp [envelope, hresult, hstate]
  · simp [envelope, hresult]

/-- The reader gets the envelope: what is written is read back. -/
lemma encodeSnapshot_ok
    (h : encodeSnapshot isDecimal digit fromisoformat format kind result origin = .ok encoded) :
    validatePublicResult isDecimal kind result = .ok () ∧
      ∃ source, sourceFields digit fromisoformat kind origin = .ok source ∧
        encoded = envelope kind result source := by
  unfold encodeSnapshot at h
  rw [checked_bind_ok, mapError_ok, except_bind_ok] at h
  obtain ⟨hvalid, source, hsource, h⟩ := h
  rw [checked_bind_ok, require_ok, checked_bind_ok] at h
  obtain ⟨hwritable, -, h⟩ := h
  refine ⟨hvalid, source, hsource, ?_⟩
  rw [Json.loads_dumps Report.validJsonNumber_iff (uniqueKeys_envelope hsource) hwritable] at h
  exact (Except.ok.inj h).symm

/-- A snapshot that is written and fits is its envelope. -/
lemma encodeSnapshot_of_valid (hvalid : validatePublicResult isDecimal kind result = .ok ())
    (hsource : sourceFields digit fromisoformat kind origin = .ok source)
    (hwritable : (envelope kind result source).writable = true)
    (hsize : Utf8.size ((envelope kind result source).dumps format) ≤ maxSnapshotBytes) :
    encodeSnapshot isDecimal digit fromisoformat format kind result origin =
      .ok (envelope kind result source) := by
  unfold encodeSnapshot
  rw [checked_bind_ok, mapError_ok, except_bind_ok]
  refine ⟨hvalid, source, hsource, ?_⟩
  rw [checked_bind_ok, require_ok, checked_bind_ok, require_ok]
  refine ⟨hwritable, hsize, ?_⟩
  rw [Json.loads_dumps Report.validJsonNumber_iff (uniqueKeys_envelope hsource) hwritable]

lemma isDict_of_decoded {state : Json} {semantic : ValidatedSemanticQuery}
    (h : decodeQueryState digit fromisoformat state = .ok semantic) : state.isDict = true := by
  unfold decodeQueryState at h
  split at h
  · next hrestored =>
    cases hdict : state.isDict with
    | true => rfl
    | false => simp [restored?, checkState, hasKeys, hdict] at hrestored
  · cases h

lemma isDict_of_valid {v : Json} (h : validatePublicResult isDecimal kind v = .ok ()) :
    v.isDict = true := by
  unfold validatePublicResult at h
  split at h
  · simp only [validateQueryResult, checked_bind_ok, require_ok] at h
    exact (hasExactFields_iff.mp h.1).1
  · simp only [checked_bind_ok, require_ok, Bool.and_eq_true, and_assoc] at h
    exact (hasExactFields_iff.mp h.1).1

lemma isNonemptyString_str {question : String} :
    isNonemptyString (.str question) = true ↔ strip question ≠ "" := by
  unfold isNonemptyString
  rw [Bool.and_eq_true, decide_eq_true_iff]
  exact ⟨And.right, fun h => ⟨rfl, h⟩⟩

lemma field_kind : (envelope kind result source).field "kind" = .str kind := rfl

lemma field_result : (envelope kind result source).field "result" = result := rfl

/-- The reader accepts a valid result when it accepts what the result is from. -/
lemma publicSnapshot_envelope (hvalid : validatePublicResult isDecimal kind result = .ok ())
    (hkind : kind ∈ ["query", "analysis"])
    (hfields : hasEnvelopeFields kind (envelope kind result source) = true) :
    publicSnapshot isDecimal (envelope kind result source) = .ok result ↔
      validateSource kind (envelope kind result source) = .ok () := by
  have hhead : ((envelope kind result source).isDict &&
      ((envelope kind result source).field "version").isInt &&
      number ((envelope kind result source).field "version") = 1) = true := rfl
  have hone : isOneOf ["query", "analysis"] (.str kind) = true := decide_eq_true hkind
  have hresult := isDict_of_valid hvalid
  have hname : (Json.str kind).text = kind := rfl
  unfold publicSnapshot
  simp only [checked_bind_ok, require_ok, except_pure_ok, field_kind, field_result, hhead, hone,
    hresult, hname, hfields, hvalid, Bool.and_true, true_and, and_true]

/-- The reader accepts a valid query. -/
lemma publicSnapshot_query {state : Json} {question : String}
    (hvalid : validatePublicResult isDecimal "query" result = .ok ()) (hstate : state.isDict = true)
    (hquestion : strip question ≠ "") :
    publicSnapshot isDecimal
      (envelope "query" result [("query_state", state), ("source_question", .str question)]) =
        .ok result := by
  rw [publicSnapshot_envelope hvalid (by decide)]
  · unfold validateSource
    rw [if_pos rfl, checked_bind_ok, require_ok]
    exact ⟨hstate, require_ok.mpr (isNonemptyString_str.mpr hquestion)⟩
  · simp [hasEnvelopeFields, hasExactFields, envelope, Json.members, Json.isDict]

/-- The reader accepts a valid analysis whose question is not blank. -/
lemma publicSnapshot_analysis (question : String)
    (hvalid : validatePublicResult isDecimal "analysis" result = .ok ()) :
    publicSnapshot isDecimal (envelope "analysis" result [("original_question", .str question)]) =
      .ok result ↔ strip question ≠ "" := by
  rw [publicSnapshot_envelope hvalid (by decide)]
  · unfold validateSource
    rw [if_neg (by decide), require_ok]
    exact isNonemptyString_str
  · simp [hasEnvelopeFields, hasExactFields, envelope, Json.members, Json.isDict]

/-- The reader returns the result, and the state of a query can be restored. -/
def ReadsBack (isDecimal : String → Bool) (digit : Char → Option Nat)
    (fromisoformat : String → Option Semantic.DateTime) (kind : String) (result : Json) (encoded : Json) :
    Prop :=
  publicSnapshot isDecimal encoded = .ok result ∧
    (kind = "query" → ∃ semantic,
      decodeQueryState digit fromisoformat (encoded.field "query_state") = .ok semantic)

end Reading

/-- A snapshot that is accepted is read back exactly when it is that of a query, or the question of
the analysis is not blank. -/
theorem encoded_reads_back (isDecimal : String → Bool) (digit : Char → Option Nat)
    (fromisoformat : String → Option Semantic.DateTime) (format : FloatFormat) (kind : String)
    (result : JsonValue) (origin : Origin) (encoded : Json)
    (h : encodeSnapshot isDecimal digit fromisoformat format kind result origin = .ok encoded) :
    ReadsBack isDecimal digit fromisoformat kind result encoded ↔
      (kind = "query" ∨ ∃ question ∈ origin.originalQuestion, strip question ≠ "") := by
  obtain ⟨hvalid, source, hsource, rfl⟩ := encodeSnapshot_ok h
  obtain ⟨rfl, state, question, semantic, hquestion, hdecode, -, rfl⟩ |
    ⟨rfl, question, hquestion, rfl⟩ := sourceFields_ok hsource
  · have hread := publicSnapshot_query hvalid (isDict_of_decoded hdecode)
      (by rwa [strip_strip] : strip (strip question) ≠ "")
    constructor
    · intro _
      exact .inl rfl
    · intro _
      exact ⟨hread, fun _ => ⟨semantic, hdecode⟩⟩
  · have hread := publicSnapshot_analysis question hvalid
    constructor
    · rintro ⟨hpublic, -⟩
      exact .inr ⟨question, hquestion, hread.mp hpublic⟩
    · rintro (hkind | ⟨question', hquestion', hblank⟩)
      · exact absurd hkind (by decide)
      · have heq : question' = question := Option.mem_unique hquestion' hquestion
        exact ⟨hread.mpr (heq ▸ hblank), fun hkind => absurd hkind (by decide)⟩

/-- Doubles written as the number of their bits. -/
def bitsFormat : FloatFormat where
  repr bits := Nat.toDigits 10 bits.toNat ++ ['.', '0']
  read chars := UInt64.ofNat (digitsValue (before '.' chars))
  number bits _ := by
    refine ⟨[], (Nat.toDigits 10 bits.toNat).map .scalar, [.scalar '.', .scalar '0'], [], ?_,
      .inl rfl, JsonDoc.integerPart_nat _, .inr ⟨[.scalar '0'], rfl, by decide, by decide⟩, .inl rfl⟩
    rw [List.map_append, List.nil_append, List.append_nil]
    rfl
  fractional bits _ := ⟨'.', by simp, .inl rfl⟩
  read_repr bits _ := by
    have hdigits : ∀ c ∈ Nat.toDigits 10 bits.toNat, c ≠ '.' :=
      fun c hc => (allDigits_toDigits _).ne not_digit_dot c hc
    rw [before_append hdigits, digitsValue_toDigits, UInt64.ofNat_toNat]

/-- The result of the stored analysis. -/
def storedResult : JsonValue :=
  ⟨storedAnalysis.field "result", by
    simp [storedAnalysis, storedAttribution, storedMetadata, storedColumn, Json.field, Json.get?]⟩

lemma encodeSnapshot_stored (question : String) (hquestion : question ≠ "")
    (hsize : Utf8.size ((envelope "analysis" storedResult
      [("original_question", .str question)]).dumps bitsFormat) ≤ maxSnapshotBytes) :
    encodeSnapshot (fun _ => true) (fun _ => none) (fun _ => none) bitsFormat "analysis" storedResult
      { originalQuestion := some question } =
        .ok (envelope "analysis" storedResult [("original_question", .str question)]) := by
  refine encodeSnapshot_of_valid rfl ?_ rfl hsize
  unfold sourceFields
  rw [if_neg (by decide), if_pos rfl, analysisSource, checked_bind_ok, require_ok]
  exact ⟨hquestion, rfl⟩

theorem encoded_reads_back_stored :
    ReadsBack (fun _ => true) (fun _ => none) (fun _ => none) "analysis" storedResult
      (envelope "analysis" storedResult [("original_question", .str "q")]) :=
  (encoded_reads_back (fun _ => true) (fun _ => none) (fun _ => none) bitsFormat "analysis"
    storedResult { originalQuestion := some "q" } _
    (encodeSnapshot_stored "q" (by decide) (by decide +kernel))).mpr
      (.inr ⟨"q", rfl, by decide +kernel⟩)

/-- A blank question is written and not read. -/
theorem blank_question_unreadable :
    ∃ encoded, encodeSnapshot (fun _ => true) (fun _ => none) (fun _ => none) bitsFormat "analysis"
        storedResult { originalQuestion := some "   " } = .ok encoded ∧
      publicSnapshot (fun _ => true) encoded = .error (invalidSnapshot "分析来源问题非法") :=
  ⟨envelope "analysis" storedResult [("original_question", .str "   ")],
    encodeSnapshot_stored "   " (by decide) (by decide +kernel), rfl⟩

end ChatBI.Snapshot
