import ChatBI.Events.Publishing
import ChatBI.Lib.Text
import ChatBI.Report.Language

/-!
# Reading a report from the model

The two ways in which the summarizer reads the answer of its model: whole, or chunk by chunk with
the draft published on the way. Both end in the same check of the report.
-/

namespace ChatBI.Report

open ChatBI.Lib
open ChatBI.Events (Channel)

def maxReportJsonBytes : Nat := 5 * 1024 * 1024

/-- What is raised while a report is read: an `AnalysisReportError` with its code and message, or a
`ValueError` of the observer. -/
inductive Raised where
  | report (code message : String)
  | value (message : String)
  deriving DecidableEq

/-- The members of the object that a report is. -/
abbrev ReportPayload := List (String × JsonDoc)

def badEncoding : Raised := .report "RESPONSE_NOT_TEXT" "Summary LLM 文本编码无效"

def tooLarge : Raised := .report "RESPONSE_TOO_LARGE" "Summary LLM 报告超过大小上限"

def notJson : Raised := .report "RESPONSE_NOT_JSON" "Summary LLM 返回的不是合法 JSON"

def notObject : Raised := .report "REPORT_NOT_OBJECT" "Summary LLM 报告不是对象"

def callFailed : Raised := .report "PROVIDER_CALL_FAILED" "Summary LLM 调用失败"

/-- `str.isspace` of one character. -/
def isSpacePoint : CodePoint → Bool
  | .scalar c => isSpace c
  | .surrogate _ => false

/-- `content.strip()`. -/
def stripPoints (content : List CodePoint) : List CodePoint :=
  ((content.dropWhile isSpacePoint).reverse.dropWhile isSpacePoint).reverse

section Parsing

-- The texts that `json.loads` refuses although they are JSON: too deeply nested, or with an
-- integer of too many digits.
variable (refused : List CodePoint → Bool)

/-- `_parse_report_json`. -/
def parseReportJson (content : List CodePoint) : Except Raised ReportPayload :=
  if refused content then .error notJson
  else match JsonParser.parse validJsonNumber content with
    | none => .error notJson
    | some payload =>
      if payload.unique then
        match payload with
        | .obj members => .ok members
        | _ => .error notObject
      else .error notJson

end Parsing

section Candidates

/-- The list fields of a report, those of the draft first. -/
def candidateLists : List String := listFields ++ ["evidence_task_ids", "incomplete_tasks"]

/-- `_REPORT_FIELDS`. -/
def reportFields : List String := textFields ++ candidateLists

/-- A field of a checked report. -/
inductive CandidateValue where
  | text (s : String)
  | list (values : List String)
  deriving DecidableEq

def candidateText (payload : ReportPayload) (field : String) : Except Raised (String × CandidateValue) :=
  match payload.lookup field with
  | some (.str value) =>
    if strip value = "" then .error (.report "REPORT_TEXT_INVALID" s!"报告字段 {field} 无效")
    else .ok (field, .text (strip value))
  | _ => .error (.report "REPORT_TEXT_INVALID" s!"报告字段 {field} 无效")

/-- The item of a list field, when it is a text that is not blank. -/
def candidateItem : JsonDoc → Option String
  | .str item => if strip item = "" then none else some (strip item)
  | _ => none

def candidateList (payload : ReportPayload) (field : String) : Except Raised (String × CandidateValue) :=
  match payload.lookup field with
  | some (.arr items) =>
    match items.mapM candidateItem with
    | some values =>
      if values.Nodup then .ok (field, .list values)
      else .error (.report "REPORT_LIST_DUPLICATE" s!"报告字段 {field} 不能重复")
    | none => .error (.report "REPORT_LIST_INVALID" s!"报告字段 {field} 无效")
  | _ => .error (.report "REPORT_LIST_INVALID" s!"报告字段 {field} 无效")

/-- `_report_candidate`. -/
def reportCandidate (payload : ReportPayload) : Except Raised (List (String × CandidateValue)) :=
  if (∀ m ∈ payload, m.1 ∈ reportFields) ∧ ∀ field ∈ reportFields, field ∈ payload.map Prod.fst then do
    let texts ← textFields.mapM (candidateText payload)
    let lists ← candidateLists.mapM (candidateList payload)
    return texts ++ lists
  else .error (.report "REPORT_FIELDS_INVALID" "Summary 报告字段不符合 Contract")

end Candidates

section Reading

variable (refused : List CodePoint → Bool)

/-- What the provider streams in an attempt: texts, and then an error or the end. -/
structure Attempt where
  chunks : List (List CodePoint)
  failed : Bool
  deriving DecidableEq

/-- The deltas of a chunk, published one after another. -/
def publishDeltas : Channel → List ReportTextDelta → Events.Outcome Unit
  | c, [] => (.ok (), c)
  | c, delta :: deltas =>
    match c.textDelta delta.key.1 (delta.key.2.map Int.ofNat) delta.offset
        (delta.text.map .scalar) with
    | (.error e, c') => (.error e, c')
    | (.ok _, c') => publishDeltas c' deltas

/-- The loop over the chunks of an attempt: the decoder and the text that were read, and the
channel behind it. -/
def readChunks : Decoder → List Char → Nat → Channel → List (List CodePoint) →
    Except Raised (Decoder × List Char) × Channel
  | decoder, raw, _, c, [] => (.ok (decoder, raw), c)
  | decoder, raw, rawBytes, c, content :: chunks =>
    match scalars? content with
    | none => (.error badEncoding, c)
    | some chars =>
      if maxReportJsonBytes < rawBytes + Utf8.size chars then (.error tooLarge, c)
      else match decoder.feed content with
        | .error _ => (.error notJson, c)
        | .ok (decoder', deltas) =>
          match publishDeltas c deltas with
          | (.error e, c') => (.error (.value e), c')
          | (.ok _, c') =>
            readChunks decoder' (raw ++ chars) (rawBytes + Utf8.size chars) c' chunks

/-- The end of an attempt that the provider completes. -/
def finishReport (decoder : Decoder) (raw : List Char) : Except Raised ReportPayload :=
  match decoder.finish with
  | .error _ => .error notJson
  | .ok _ => parseReportJson refused (stripPoints (raw.map .scalar))

/-- The attempts that are left of `_stream_json`. -/
def streamAttempts : Channel → List Attempt → Except Raised ReportPayload × Channel
  | c, [] => (.error (.value "Summary LLM 流式调用次数配置无效"), c)
  | c, attempt :: attempts =>
    match readChunks (Decoder.new Events.maxDraftBytes) [] 0 c attempt.chunks with
    | (.error e, c') => (.error e, c')
    | (.ok (decoder, raw), c') =>
      if attempt.failed then
        if attempts = [] then (.error callFailed, c')
        else match c'.reset "model_retry" with
          | (.error e, c'') => (.error (.value e), c'')
          | (.ok _, c'') => streamAttempts c'' attempts
      else (finishReport refused decoder raw, c')

/-- `_stream_json` with a channel as observer. -/
def streamJson (c : Channel) (first second : Attempt) : Except Raised ReportPayload × Channel :=
  streamAttempts refused c [first, second]

end Reading

end ChatBI.Report
