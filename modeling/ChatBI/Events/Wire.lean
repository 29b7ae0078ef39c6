import ChatBI.Events.Reducer
import ChatBI.Events.Sse
import ChatBI.Lib.JsonText
import ChatBI.Lib.Raises

/-!
# Events on the wire

`readExecutionEvents` of the browser: the frames of a response, each with the checks that
`decodeExecutionEvent` makes on its JSON. What a number of the JSON is as a double is a parameter.
-/

namespace ChatBI.Events

open ChatBI.Lib ChatBI.Store

/-- What the client asks of a number: the safe integer from zero on that it is, if it is one, and
its text. -/
structure JsNumbers where
  safe : List CodePoint → Option Nat
  text : List CodePoint → String

/-- The numbers that the server writes are exact as far as they are safe. -/
def JsNumbers.Exact (js : JsNumbers) : Prop :=
  ∀ n, js.safe ((Nat.toDigits 10 n).map .scalar) = if safeCount n then some n else none

namespace Wire

section Decoding

variable (js : JsNumbers)

def isNull : Option JsonDoc → Bool
  | some .null => true
  | _ => false

mutual

/-- `String(value)`. -/
def string : JsonDoc → String
  | .null => "null"
  | .bool b => if b then "true" else "false"
  | .number lexeme => js.text lexeme
  | .str s => s
  | .arr items => ",".intercalate (strings items)
  | .obj _ => "[object Object]"

/-- The texts of the items of an array; that of null is empty. -/
def strings : List JsonDoc → List String
  | [] => []
  | v :: items => (if isNull (some v) then "" else string v) :: strings items

end

/-- `record`. A value that is not there is `none`. -/
def record : Option JsonDoc → Except String (Dict String JsonDoc)
  | some (.obj members) => .ok (Dict.ofPairs members)
  | _ => .error "执行事件格式无效"

/-- `value === text`. -/
def isText (text : String) : Option JsonDoc → Bool
  | some (.str s) => s = text
  | _ => false

/-- `allowed.includes(value)`. -/
def isOneOf (allowed : List String) : Option JsonDoc → Bool
  | some (.str s) => s ∈ allowed
  | _ => false

/-- `allowed.includes(String(value))`. -/
def reads (allowed : List String) (v : Option JsonDoc) : Bool :=
  v.elim "undefined" (string js) ∈ allowed

def number? : Option JsonDoc → Option Nat
  | some (.number lexeme) => js.safe lexeme
  | _ => none

/-- `safeCount`. -/
def isCount (v : Option JsonDoc) : Bool := (number? js v).isSome

/-- Null or a count above zero. -/
def isTotal (v : Option JsonDoc) : Bool := isNull v || (number? js v).any (0 < ·)

/-- `Number(completed) > Number(total)` for counts. -/
def exceeds (completed total : Option JsonDoc) : Bool :=
  (number? js completed).any fun n => (number? js total).any fun m => m < n

def running : List String := ["accepted", "running", "stopping"]

/-- `terminal`. -/
def terminal : List String := ["succeeded", "failed", "cancelled", "timed_out", "unconfirmed"]

def statuses : List String := running ++ terminal

def stages : List String :=
  ["query_understanding", "retrieval", "sql_generation", "sql_validation", "query_execution",
    "analysis_understanding", "analysis_plan_validation", "analysis_query_tasks",
    "analysis_attribution", "analysis_report_generation", "result_saving"]

def validStatus : Option JsonDoc → Bool := isOneOf statuses

def validStage (v : Option JsonDoc) : Bool := isNull v || isOneOf stages v

def onlyKeys (members : Dict String JsonDoc) (allowed : List String) : Bool :=
  members.all fun m => m.1 ∈ allowed

/-- The bytes of a line of a draft. -/
def lineBytes : JsonDoc → Except String Nat
  | .str s => .ok (Utf8.size s.toList)
  | _ => .error "报告草稿列表无效"

/-- The bytes of a field of a draft. -/
def fieldBytes : String × JsonDoc → Except String Nat
  | (field, item) =>
    if field ∈ textDraftFields then
      match item with
      | .str s => .ok (Utf8.size s.toList)
      | _ => .error "报告草稿文字无效"
    else
      match item with
      | .arr lines => List.sum <$> lines.mapM lineBytes
      | _ => .error "报告草稿列表无效"

/-- `reportDraft`. -/
def reportDraft : Option JsonDoc → Except String Unit
  | some .null => .ok ()
  | v => do
    let draft ← record v
    require (onlyKeys draft draftFields) "报告草稿字段无效"
    let bytes ← draft.mapM fieldBytes
    require (bytes.sum ≤ 5 * 1024 * 1024) "报告草稿超过网页接收上限"

def decodeSnapshot (generation : Option JsonDoc) (payload : Dict String JsonDoc) :
    Except String Unit := do
  let status := Dict.get? payload "status"
  let completed := Dict.get? payload "completed_tasks"
  let total := Dict.get? payload "total_tasks"
  let reason := Dict.get? payload "stop_reason"
  require (onlyKeys payload ["status", "stage", "completed_tasks", "total_tasks", "stop_reason",
      "draft_generation", "draft"] && validStatus status &&
      validStage (Dict.get? payload "stage") && isCount js completed && isTotal js total &&
      (isNull reason || reads js stopReasons reason) &&
      (!isText "stopping" status || reads js stopReasons reason) &&
      (!isOneOf terminal status || isNull (Dict.get? payload "draft")) &&
      number? js (Dict.get? payload "draft_generation") = number? js generation &&
      !exceeds js completed total)
    "执行快照字段无效"
  reportDraft (Dict.get? payload "draft")

def decodeProgress (payload : Dict String JsonDoc) : Except String Unit := do
  let status := Dict.get? payload "status"
  let reason := Dict.get? payload "stop_reason"
  let stage := Dict.get? payload "stage"
  let completed := Dict.get? payload "completed_tasks"
  let total := Dict.get? payload "total_tasks"
  require (onlyKeys payload ["status", "stop_reason", "stage", "completed_tasks", "total_tasks"] &&
    (status.isNone || reads js running status)) "执行状态无效"
  require (reason.isNone || reads js stopReasons reason) "执行停止原因无效"
  require (!isText "stopping" status || reads js stopReasons reason) "执行停止原因无效"
  require (stage.isNone || validStage stage) "执行阶段无效"
  require (completed.isNone || isCount js completed) "分析任务计数无效"
  require (total.isNone || isTotal js total) "分析任务总数无效"
  require (!exceeds js completed total) "分析任务计数越界"

def decodeTerminal (payload : Dict String JsonDoc) : Except String Unit := do
  require (onlyKeys payload ["status", "public_error"] &&
    isOneOf terminal (Dict.get? payload "status")) "执行终态无效"
  match Dict.get? payload "public_error" with
  | none => .ok ()
  | some e => do
    let members ← record (some e)
    require (onlyKeys members ["error_code", "error_message"] &&
      members.all fun m => m.2 matches .str _) "公开错误字段无效"

/-- A text that is not empty and short enough for one event. -/
def isDeltaText : Option JsonDoc → Bool
  | some (.str s) => s ≠ "" && Utf8.size s.toList ≤ 16 * 1024
  | _ => false

def decodeTextDelta (payload : Dict String JsonDoc) : Except String Unit :=
  let field := Dict.get? payload "field"
  let index := Dict.get? payload "index"
  require (onlyKeys payload ["field", "index", "offset", "text"] && reads js draftFields field &&
    isCount js (Dict.get? payload "offset") && isDeltaText (Dict.get? payload "text") &&
    (!reads js textDraftFields field || isNull index) &&
    (!reads js listDraftFields field || isCount js index)) "报告文字增量无效"

def decodeDraftReset (payload : Dict String JsonDoc) : Except String Unit :=
  require (onlyKeys payload ["reason"] && isText "model_retry" (Dict.get? payload "reason"))
    "报告草稿重置无效"

/-- The checks on the payload of an event with history, turn and generation, by its type. -/
def decodePayload (type : String) (generation : Option JsonDoc) (payload : Dict String JsonDoc) :
    Except String Unit :=
  if type = "snapshot" then decodeSnapshot js generation payload
  else if type = "progress" then decodeProgress js payload
  else if type = "terminal" then decodeTerminal payload
  else if type = "text_delta" then decodeTextDelta js payload
  else if type = "draft_reset" then decodeDraftReset payload
  else .error "未知执行事件类型"

/-- `decodeExecutionEvent` on the members of an event, with the type of its frame. -/
def decodeExecutionEvent (expected : ExecutionIdentity) (frameType : List Char)
    (event : Dict String JsonDoc) : Except String Unit := do
  let type := match Dict.get? event "type" with
    | some (.str type) => type
    | _ => ""
  require (number? js (Dict.get? event "version") = some 1 &&
    isText expected.executionId (Dict.get? event "execution_id") &&
    isCount js (Dict.get? event "sequence") && type ≠ "" &&
    (frameType = [] || frameType = type.toList)) "执行事件身份或版本无效"
  if type = "auth_lost" then do
    require (onlyKeys event ["version", "execution_id", "sequence", "type", "payload"])
      "执行事件字段无效"
    let payload ← record (Dict.get? event "payload")
    require payload.isEmpty "执行事件包含未授权内容"
  else do
    require (isText expected.historyId (Dict.get? event "history_id") &&
      isText expected.turnId (Dict.get? event "turn_id") &&
      isCount js (Dict.get? event "draft_generation")) "执行事件关联身份无效"
    require (onlyKeys event ["version", "execution_id", "history_id", "turn_id", "sequence",
      "draft_generation", "type", "payload"]) "执行事件字段无效"
    let payload ← record (Dict.get? event "payload")
    decodePayload js type (Dict.get? event "draft_generation") payload

end Decoding

section Reading

variable (js : JsNumbers) (parseJson : List Char → Option JsonDoc) (maxEventBytes : Nat)
  (expected : ExecutionIdentity)

/-- The events of the frames of a chunk, up to the first that is refused, with its error. -/
def readFrames : List SseFrame → List JsonDoc × Option String
  | [] => ([], none)
  | frame :: frames =>
    match record (some frame.data) >>= decodeExecutionEvent js expected frame.type with
    | .error e => ([], some e)
    | .ok _ => (frame.data :: (readFrames frames).1, (readFrames frames).2)

/-- The loop of `readExecutionEvents` over the chunks that the reader gives. -/
def readChunks : SseParser → List (List Nat) → List JsonDoc × Option String
  | p, [] =>
    if p.decoder.utf8.bytesNeeded = 0 then ([], none)
    else ([], some "The encoded data was not valid")
  | p, chunk :: chunks =>
    match p.feed maxEventBytes parseJson chunk with
    | .error e => ([], some e)
    | .ok (p, frames) =>
      match readFrames js expected frames with
      | (events, some e) => (events, some e)
      | (events, none) =>
        (events ++ (readChunks p chunks).1, (readChunks p chunks).2)

/-- What `readExecutionEvents` yields, and the error that it throws in the end if it does. -/
def readExecutionEvents (chunks : List (List Nat)) : List JsonDoc × Option String :=
  readChunks js parseJson (6 * 1024 * 1024) expected {} chunks

end Reading

section Members

variable {js : JsNumbers} {members rest : Dict String JsonDoc} {key k : String}

lemma record_obj (h : (members.map Prod.fst).Nodup) :
    record (some (.obj members)) = .ok members := by
  rw [record, Dict.ofPairs_of_nodup h]

lemma get?_append :
    Dict.get? (members ++ rest) k = (Dict.get? members k).or (Dict.get? rest k) := by
  induction members with
  | nil => rfl
  | cons m members ih =>
    rw [List.cons_append, Dict.get?, Dict.get?]
    split
    · rfl
    · exact ih

lemma get?_optionalField (v : Option JsonDoc) :
    Dict.get? (optionalField key v) k = if key = k then v else none := by
  cases v with
  | none =>
    split <;> rfl
  | some v => rfl

lemma keys_optionalField (key : String) (v : Option JsonDoc) :
    ((optionalField key v).map Prod.fst).Sublist [key] := by
  cases v with
  | none => exact List.nil_sublist _
  | some v => exact List.Sublist.refl _

lemma onlyKeys_iff {allowed : List String} :
    onlyKeys members allowed = true ↔ ∀ k ∈ members.map Prod.fst, k ∈ allowed := by
  simp [onlyKeys]

lemma onlyKeys_of_sublist {allowed : List String} (h : (members.map Prod.fst).Sublist allowed) :
    onlyKeys members allowed = true :=
  onlyKeys_iff.mpr fun _ hk => h.subset hk

lemma number?_nat (hjs : js.Exact) (n : Nat) :
    number? js (some (JsonDoc.nat n)) = if safeCount n then some n else none := by
  rw [JsonDoc.nat, number?]
  exact hjs n

lemma isCount_nat (hjs : js.Exact) (n : Nat) : isCount js (some (JsonDoc.nat n)) = safeCount n := by
  rw [isCount, number?_nat hjs]
  cases safeCount n <;> rfl

lemma isTotal_nat (hjs : js.Exact) (total : Option Nat) :
    isTotal js (some (JsonDoc.ofOption JsonDoc.nat total)) = validTotal total := by
  cases total with
  | none => simp [isTotal, JsonDoc.ofOption, isNull, validTotal]
  | some n =>
    rw [isTotal, JsonDoc.ofOption, number?_nat hjs, validTotal]
    cases safeCount n <;> simp [isNull, JsonDoc.nat]

lemma reads_text (allowed : List String) (s : String) :
    reads js allowed (some (.str s)) = decide (s ∈ allowed) := by
  rw [reads, Option.elim_some, string]

/-- A reason that may be null is not read as the text of null. -/
lemma reads_reason (reason : Option Text) :
    reads js stopReasons (some (JsonDoc.ofOption textJson reason)) =
      reason.any (·.written ∈ stopReasons) := by
  cases reason with
  | none =>
    rw [JsonDoc.ofOption, reads, Option.elim_some, string]
    decide
  | some reason => simp [JsonDoc.ofOption, textJson, reads_text]

lemma isText_status (status : ExecutionStatus) :
    isText "stopping" (some (.str (statusValue status))) = decide (status = .stopping) := by
  cases status <;> decide

lemma isOneOf_terminal (status : ExecutionStatus) :
    isOneOf terminal (some (.str (statusValue status))) = isTerminal status := by
  cases status <;> decide

lemma validStatus_value (status : ExecutionStatus) :
    validStatus (some (.str (statusValue status))) = true := by
  cases status <;> decide

lemma reads_running (status : ExecutionStatus) :
    reads js running (some (.str (statusValue status))) = !isTerminal status := by
  rw [reads_text]
  cases status <;> decide

lemma validStage_json (stage : Option ExecutionStage) :
    validStage (some (stageJson stage)) = true := by
  cases stage with
  | none => rfl
  | some stage => cases stage <;> decide

lemma exceeds_nat (hjs : js.Exact) {n m : Nat} (hn : safeCount n = true) (hm : safeCount m = true) :
    exceeds js (some (JsonDoc.nat n)) (some (JsonDoc.nat m)) = decide (m < n) := by
  simp [exceeds, number?_nat hjs, hn, hm]

lemma isNull_text (text : Option Text) :
    isNull (some (JsonDoc.ofOption textJson text)) = text.isNone := by
  cases text <;> rfl

lemma isNull_draft (draft : Option ReportDraft) :
    isNull (some (JsonDoc.ofOption draftJson draft)) = draft.isNone := by
  cases draft <;> rfl

lemma all_eq_none_or_any {α : Type} (p : α → Bool) (a : Option α) :
    a.all p = (a.isNone || a.any p) := by
  cases a <;> simp

/-- The counts of a snapshot, on the wire and as they are. -/
lemma validCounts_eq (hjs : js.Exact) (s : Snapshot) : validCounts s =
    (safeCount s.completedTasks && validTotal s.totalTasks &&
      !exceeds js (some (JsonDoc.nat s.completedTasks))
        (some (JsonDoc.ofOption JsonDoc.nat s.totalTasks))) := by
  unfold validCounts
  cases hsafe : safeCount s.completedTasks with
  | false => rfl
  | true =>
    cases s.totalTasks with
    | none => simp [validTotal, exceeds, number?, JsonDoc.ofOption]
    | some total =>
      simp only [validTotal, JsonDoc.ofOption, Bool.true_and]
      cases htotal : safeCount total with
      | false => rfl
      | true =>
        rw [exceeds_nat hjs hsafe htotal, ← decide_not]
        simp only [Nat.not_lt]

lemma safe_generation {generation n : Nat} (h : safeCount generation = true) :
    (((if safeCount n then some n else none) = some generation) ↔ some generation = some n) := by
  constructor
  · intro heq
    split at heq
    · exact heq.symm
    · cases heq
  · intro heq
    cases heq
    rw [if_pos h]

/-- A field that may be left out, and is checked when it is there. -/
lemma isNone_or_map {α : Type} {f : α → JsonDoc} {check : Option JsonDoc → Bool} {p : α → Bool}
    (h : ∀ a, check (some (f a)) = p a) (a : Option α) :
    ((a.map f).isNone || check (a.map f)) = a.all p := by
  cases a with
  | none => rfl
  | some a => simpa using h a

lemma reads_given (reason : Option Text) :
    reads js stopReasons (reason.map textJson) = reason.any (·.written ∈ stopReasons) := by
  cases reason with
  | none =>
    rw [Option.map_none, reads, Option.elim_none]
    decide
  | some reason => simp [textJson, reads_text]

lemma isText_given (status : Option ExecutionStatus) :
    isText "stopping" (status.map fun s => .str (statusValue s)) =
      decide (status = some .stopping) := by
  cases status with
  | none => rfl
  | some status => simp [isText_status]

/-- The counts of a progress event are compared when both are there. -/
lemma exceeds_given (hjs : js.Exact) {completed : Option Nat} {total : Option (Option Nat)}
    (hcompleted : completed.all safeCount = true) (htotal : total.all validTotal = true) :
    (!exceeds js (completed.map JsonDoc.nat) (total.map (JsonDoc.ofOption JsonDoc.nat))) =
      completed.all fun completed => total.all fun total => total.all (completed ≤ ·) := by
  cases completed with
  | none => rfl
  | some n =>
    cases total with
    | none => simp [exceeds, number?]
    | some total =>
      cases total with
      | none => simp [exceeds, number?, JsonDoc.ofOption]
      | some m =>
        have hm : safeCount m = true := by
          simp only [validTotal, Option.all_some, Bool.and_eq_true] at htotal
          exact htotal.1
        rw [Option.map_some, Option.map_some, JsonDoc.ofOption, exceeds_nat hjs hcompleted hm,
          ← decide_not]
        simp only [Nat.not_lt, Option.all_some]

end Members

section Payloads

variable {js : JsNumbers}

lemma lines_bytes (ts : List (List Char)) :
    List.sum <$> (ts.map fun t => JsonDoc.str (String.ofList t)).mapM lineBytes =
      .ok (ts.map Utf8.size).sum := by
  have hlines : (ts.map fun t => JsonDoc.str (String.ofList t)).mapM lineBytes =
      .ok (ts.map Utf8.size) := by
    induction ts with
    | nil => rfl
    | cons t ts ih =>
      rw [List.map_cons, List.mapM_cons, ih, lineBytes, String.toList_ofList]
      rfl
  rw [hlines]
  rfl

/-- The bytes of a field are counted when its value has the field's kind. -/
lemma fieldBytes_iff {field : String} {value : DraftValue} {n : Nat}
    (hfield : field ∈ draftFields) : fieldBytes (field, value.toJson) = .ok n ↔
      validDraftField field value = true ∧ n = valueBytes value := by
  cases value with
  | text t =>
    by_cases htext : field ∈ textDraftFields
    · simp [fieldBytes, DraftValue.toJson, validDraftField, valueBytes, htext, eq_comm]
    · simp [fieldBytes, DraftValue.toJson, validDraftField, htext]
  | lines ts =>
    by_cases htext : field ∈ textDraftFields
    · have hlist : ∀ f ∈ textDraftFields, f ∉ listDraftFields := by decide
      simp [fieldBytes, DraftValue.toJson, validDraftField, htext, hlist field htext]
    · have hlist : field ∈ listDraftFields := by
        simpa [draftFields, htext] using hfield
      simp only [fieldBytes, DraftValue.toJson, validDraftField, valueBytes, if_neg htext, hlist,
        lines_bytes, decide_true, true_and, Except.ok.injEq]
      exact eq_comm

lemma valid_draftField {field : String} {value : DraftValue}
    (h : validDraftField field value = true) : field ∈ draftFields := by
  cases value with
  | text t => exact List.mem_append_left _ (of_decide_eq_true h)
  | lines ts => exact List.mem_append_right _ (of_decide_eq_true h)

lemma fieldBytes_mapM {draft : ReportDraft} {sizes : List Nat}
    (hfields : ∀ e ∈ draft, e.1 ∈ draftFields) :
    (draft.map fun e => (e.1, e.2.toJson)).mapM fieldBytes = .ok sizes ↔
      (∀ e ∈ draft, validDraftField e.1 e.2 = true) ∧
        sizes = draft.map fun e => valueBytes e.2 := by
  induction draft generalizing sizes with
  | nil =>
    simp only [List.map_nil, List.mapM_nil, except_pure_ok]
    constructor
    · rintro rfl
      exact ⟨by simp, rfl⟩
    · rintro ⟨-, rfl⟩
      rfl
  | cons e draft ih =>
    obtain ⟨he, hdraft⟩ := List.forall_mem_cons.mp hfields
    simp only [List.map_cons, List.mapM_cons, except_bind_ok, except_pure_ok, fieldBytes_iff he,
      ih hdraft, List.forall_mem_cons]
    constructor
    · rintro ⟨n, ⟨hvalid, rfl⟩, sizes, ⟨hrest, rfl⟩, rfl⟩
      exact ⟨⟨hvalid, hrest⟩, rfl⟩
    · rintro ⟨⟨hvalid, hrest⟩, rfl⟩
      exact ⟨_, ⟨hvalid, rfl⟩, _, ⟨hrest, rfl⟩, rfl⟩

lemma reportDraft_iff {draft : Option ReportDraft} (hkeys : ∀ d ∈ draft, (d.map Prod.fst).Nodup) :
    reportDraft (some (JsonDoc.ofOption draftJson draft)) = .ok () ↔
      (ChatBI.Events.reportDraft draft).isSome = true := by
  cases draft with
  | none => exact iff_of_true rfl rfl
  | some draft =>
    have hnames : (draft.map fun e => (e.1, e.2.toJson)).map Prod.fst = draft.map Prod.fst := by
      rw [List.map_map]
      rfl
    have hmembers : ((draft.map fun e => (e.1, e.2.toJson)).map Prod.fst).Nodup := by
      rw [hnames]
      exact hkeys draft rfl
    have hrecord := record_obj hmembers
    have honly : onlyKeys (draft.map fun e => (e.1, e.2.toJson)) draftFields = true ↔
        ∀ e ∈ draft, e.1 ∈ draftFields := by
      rw [onlyKeys_iff, hnames]
      simp
    simp only [reportDraft, JsonDoc.ofOption, draftJson, hrecord, except_bind_ok, exists_checked,
      require_ok, Except.ok.injEq, exists_eq_left', honly, ChatBI.Events.reportDraft]
    constructor
    · rintro ⟨hfields, sizes, hsizes, hle⟩
      obtain ⟨hvalid, rfl⟩ := (fieldBytes_mapM hfields).mp hsizes
      rw [if_pos ⟨by simpa using hvalid, hle⟩]
      rfl
    · intro h
      split at h
      · next hvalid =>
        obtain ⟨hall, hle⟩ := hvalid
        have hkinds : ∀ e ∈ draft, validDraftField e.1 e.2 = true := by simpa using hall
        have hfields : ∀ e ∈ draft, e.1 ∈ draftFields :=
          fun e he => valid_draftField (hkinds e he)
        exact ⟨hfields, _, (fieldBytes_mapM hfields).mpr ⟨hkinds, rfl⟩, hle⟩
      · cases h

lemma decodeSnapshot_iff (hjs : js.Exact) {generation : Nat}
    (hgeneration : safeCount generation = true) {s : Snapshot}
    (hkeys : ∀ d ∈ s.draft, (d.map Prod.fst).Nodup) :
    (record (some s.toJson) >>= decodeSnapshot js (some (JsonDoc.nat generation))) = .ok () ↔
      ChatBI.Events.decodeSnapshot (some generation) s = true := by
  have hnames : ["status", "stage", "completed_tasks", "total_tasks", "stop_reason",
      "draft_generation", "draft"].Nodup := by decide
  have hrecord := @record_obj [("status", .str (statusValue s.status)),
    ("stage", stageJson s.stage), ("completed_tasks", JsonDoc.nat s.completedTasks),
    ("total_tasks", JsonDoc.ofOption JsonDoc.nat s.totalTasks),
    ("stop_reason", JsonDoc.ofOption textJson s.stopReason),
    ("draft_generation", JsonDoc.nat s.draftGeneration),
    ("draft", JsonDoc.ofOption draftJson s.draft)] hnames
  rw [Snapshot.toJson, hrecord, except_bind_ok]
  simp only [Except.ok.injEq, exists_eq_left', decodeSnapshot, except_bind_ok, exists_checked,
    require_ok]
  simp only [Dict.get?, String.reduceEq, ↓reduceIte, validStatus_value, validStage_json,
    isCount_nat hjs, isTotal_nat hjs, reads_reason, isText_status, isOneOf_terminal,
    number?_nat hjs, hgeneration, reportDraft_iff hkeys]
  have honly := onlyKeys_of_sublist (List.Sublist.refl (List.map Prod.fst [
    ("status", JsonDoc.str (statusValue s.status)), ("stage", stageJson s.stage),
    ("completed_tasks", JsonDoc.nat s.completedTasks),
    ("total_tasks", JsonDoc.ofOption JsonDoc.nat s.totalTasks),
    ("stop_reason", JsonDoc.ofOption textJson s.stopReason),
    ("draft_generation", JsonDoc.nat s.draftGeneration),
    ("draft", JsonDoc.ofOption draftJson s.draft)]))
  simp only [List.map_cons, List.map_nil] at honly
  simp only [honly, isNull_text, isNull_draft, ChatBI.Events.decodeSnapshot, validCounts_eq hjs,
    safe_generation hgeneration, ne_eq, decide_not, Bool.and_eq_true, Bool.true_and, Bool.and_true]
  rw [all_eq_none_or_any]
  tauto

lemma decodeProgress_iff (hjs : js.Exact) (p : Progress) :
    (record (some p.toJson) >>= decodeProgress js) = .ok () ↔
      ChatBI.Events.decodeProgress p = true := by
  have hkeys : (List.map Prod.fst
      (optionalField "status" (p.status.map fun s => .str (statusValue s)) ++
      optionalField "stop_reason" (p.stopReason.map textJson) ++
      optionalField "stage" (p.stage.map stageJson) ++
      optionalField "completed_tasks" (p.completedTasks.map JsonDoc.nat) ++
      optionalField "total_tasks" (p.totalTasks.map (JsonDoc.ofOption JsonDoc.nat)))).Sublist
      ["status", "stop_reason", "stage", "completed_tasks", "total_tasks"] := by
    simp only [List.map_append]
    exact (((((keys_optionalField _ _).append (keys_optionalField _ _)).append
      (keys_optionalField _ _)).append (keys_optionalField _ _)).append (keys_optionalField _ _))
  have hrecord := record_obj (hkeys.nodup (by decide))
  rw [Progress.toJson, hrecord, except_bind_ok]
  simp only [Except.ok.injEq, exists_eq_left', decodeProgress, except_bind_ok, exists_checked,
    require_ok, onlyKeys_of_sublist hkeys, get?_append, get?_optionalField, String.reduceEq,
    ↓reduceIte, Option.or_none, Option.none_or, isNone_or_map reads_running,
    isNone_or_map validStage_json, isNone_or_map (isCount_nat hjs), isNone_or_map (isTotal_nat hjs),
    reads_given, isText_given]
  simp only [ChatBI.Events.decodeProgress, Bool.and_eq_true, ne_eq, decide_not, Option.isNone_map,
    all_eq_none_or_any (fun reason : Text => decide (reason.written ∈ stopReasons))]
  have hstage : p.stage.all (fun _ => true) = true := by
    cases p.stage <;> rfl
  constructor
  · rintro ⟨⟨-, hstatus⟩, hreason, hstopping, -, hcompleted, htotal, hexceeds⟩
    rw [exceeds_given hjs hcompleted htotal] at hexceeds
    exact ⟨⟨⟨⟨⟨hstatus, hreason⟩, hstopping⟩, hcompleted⟩, htotal⟩, hexceeds⟩
  · rintro ⟨⟨⟨⟨⟨hstatus, hreason⟩, hstopping⟩, hcompleted⟩, htotal⟩, hexceeds⟩
    refine ⟨⟨trivial, hstatus⟩, hreason, hstopping, hstage, hcompleted, htotal, ?_⟩
    rw [exceeds_given hjs hcompleted htotal]
    exact hexceeds

lemma decodeTerminal_iff (status : ExecutionStatus) (publicError : Option PublicError) :
    (record (some (Payload.terminal status publicError).toJson) >>= decodeTerminal) = .ok () ↔
      isTerminal status = true := by
  have hkeys : (List.map Prod.fst ([("status", JsonDoc.str (statusValue status))] ++
      optionalField "public_error" (publicError.map PublicError.toJson))).Sublist
      ["status", "public_error"] := by
    simp only [List.map_append]
    exact (List.Sublist.refl _).append (keys_optionalField _ _)
  have hrecord := record_obj (hkeys.nodup (by decide))
  rw [Payload.toJson, hrecord, except_bind_ok]
  simp only [Except.ok.injEq, exists_eq_left', decodeTerminal, except_bind_ok, exists_checked,
    require_ok, onlyKeys_of_sublist hkeys, get?_append, get?_optionalField, String.reduceEq,
    ↓reduceIte, Dict.get?, Option.none_or, Option.some_or, isOneOf_terminal, Bool.true_and]
  cases publicError with
  | none => simp
  | some e =>
    have herror : (List.map Prod.fst (optionalField "error_code" (e.errorCode.map textJson) ++
        optionalField "error_message" (e.errorMessage.map textJson))).Sublist
        ["error_code", "error_message"] := by
      simp only [List.map_append]
      exact (keys_optionalField _ _).append (keys_optionalField _ _)
    have hmembers := record_obj (herror.nodup (by decide))
    simp only [Option.map_some, PublicError.toJson, hmembers, except_bind_ok, Except.ok.injEq,
      exists_eq_left', require_ok, onlyKeys_of_sublist herror, Bool.true_and]
    rw [and_iff_left]
    rw [List.all_append, Bool.and_eq_true]
    constructor
    · cases e.errorCode <;> rfl
    · cases e.errorMessage <;> rfl

lemma decodeTextDelta_iff (hjs : js.Exact) (field : String) (index : Option Nat) (offset : Nat)
    (text : List Char) :
    (record (some (Payload.textDelta field index offset text).toJson) >>= decodeTextDelta js) =
      .ok () ↔ ChatBI.Events.decodeTextDelta field index offset text = true := by
  have hnames : ["field", "index", "offset", "text"].Nodup := by decide
  have hrecord := @record_obj [("field", .str field), ("index", JsonDoc.ofOption JsonDoc.nat index),
    ("offset", JsonDoc.nat offset), ("text", .str (String.ofList text))] hnames
  have honly := onlyKeys_of_sublist (List.Sublist.refl (List.map Prod.fst [
    ("field", JsonDoc.str field), ("index", JsonDoc.ofOption JsonDoc.nat index),
    ("offset", JsonDoc.nat offset), ("text", .str (String.ofList text))]))
  have hindex : isNull (some (JsonDoc.ofOption JsonDoc.nat index)) = index.isNone := by
    cases index <;> rfl
  have hcount : isCount js (some (JsonDoc.ofOption JsonDoc.nat index)) = index.any safeCount := by
    cases index with
    | none => rfl
    | some i => exact isCount_nat hjs i
  rw [Payload.toJson, hrecord, except_bind_ok]
  simp only [List.map_cons, List.map_nil] at honly
  simp only [Except.ok.injEq, exists_eq_left', decodeTextDelta, require_ok, honly, Dict.get?,
    String.reduceEq, ↓reduceIte, reads_text, isCount_nat hjs, isDeltaText, hindex, hcount]
  have hempty : String.ofList text = "" ↔ text = [] := by
    rw [← String.toList_inj, String.toList_ofList]
    rfl
  simp only [ChatBI.Events.decodeTextDelta, String.toList_ofList, ne_eq, hempty, decide_not,
    Bool.true_and, Bool.and_assoc]

lemma decodeDraftReset_iff (reason : String) :
    (record (some (Payload.draftReset reason).toJson) >>= decodeDraftReset) = .ok () ↔
      reason = "model_retry" := by
  have hrecord := @record_obj [("reason", .str reason)] (List.nodup_singleton _)
  have honly := onlyKeys_of_sublist (List.Sublist.refl (List.map Prod.fst [
    ("reason", JsonDoc.str reason)]))
  rw [Payload.toJson, hrecord, except_bind_ok]
  simp only [List.map_cons, List.map_nil] at honly
  simp only [Except.ok.injEq, exists_eq_left', decodeDraftReset, require_ok, honly, Dict.get?,
    ↓reduceIte, isText, Bool.true_and, decide_eq_true_iff]

end Payloads

section Events

variable {js : JsNumbers}

/-- The draft of a snapshot names each field once. -/
def Named (m : ExecutionEvent) : Prop :=
  ∀ s, m.payload = .snapshot s → ∀ d ∈ s.draft, (d.map Prod.fst).Nodup

/-- The members of an event's JSON. -/
def eventMembers (m : ExecutionEvent) : Dict String JsonDoc :=
  [("version", JsonDoc.nat 1), ("execution_id", .str m.executionId)] ++
    optionalField "history_id" (m.historyId.map .str) ++
    optionalField "turn_id" (m.turnId.map .str) ++ [("sequence", JsonDoc.nat m.sequence)] ++
    optionalField "draft_generation" (m.draftGeneration.map JsonDoc.nat) ++
    [("type", .str m.payload.type), ("payload", m.payload.toJson)]

lemma keys_eventMembers (m : ExecutionEvent) : ((eventMembers m).map Prod.fst).Sublist
    ["version", "execution_id", "history_id", "turn_id", "sequence", "draft_generation", "type",
      "payload"] := by
  simp only [eventMembers, List.map_append]
  exact ((((((List.Sublist.refl _).append (keys_optionalField _ _)).append
    (keys_optionalField _ _)).append (List.Sublist.refl _)).append
      (keys_optionalField _ _)).append (List.Sublist.refl _))

lemma record_event (m : ExecutionEvent) : record (some m.toJson) = .ok (eventMembers m) :=
  record_obj ((keys_eventMembers m).nodup (by decide))

lemma isText_id (expected : String) (id : Option String) :
    isText expected (id.map .str) = decide (id = some expected) := by
  cases id <;> simp [isText]

lemma isCount_given (hjs : js.Exact) (n : Option Nat) :
    isCount js (n.map JsonDoc.nat) = n.any safeCount := by
  cases n with
  | none => rfl
  | some n => exact isCount_nat hjs n

/-- An event without history, turn and generation. -/
lemma onlyKeys_lost (m : ExecutionEvent) :
    onlyKeys (eventMembers m) ["version", "execution_id", "sequence", "type", "payload"] = true ↔
      m.historyId = none ∧ m.turnId = none ∧ m.draftGeneration = none := by
  unfold eventMembers onlyKeys
  cases m.historyId <;> cases m.turnId <;> cases m.draftGeneration <;>
    simp [optionalField]

lemma get?_eventMembers (m : ExecutionEvent) :
    Dict.get? (eventMembers m) "version" = some (JsonDoc.nat 1) ∧
      Dict.get? (eventMembers m) "execution_id" = some (.str m.executionId) ∧
      Dict.get? (eventMembers m) "history_id" = m.historyId.map .str ∧
      Dict.get? (eventMembers m) "turn_id" = m.turnId.map .str ∧
      Dict.get? (eventMembers m) "sequence" = some (JsonDoc.nat m.sequence) ∧
      Dict.get? (eventMembers m) "draft_generation" = m.draftGeneration.map JsonDoc.nat ∧
      Dict.get? (eventMembers m) "type" = some (.str m.payload.type) ∧
      Dict.get? (eventMembers m) "payload" = some m.payload.toJson := by
  refine ⟨rfl, rfl, ?_, ?_, ?_, ?_, ?_, ?_⟩
  all_goals simp only [eventMembers, get?_append, get?_optionalField, Dict.get?, String.reduceEq,
    ↓reduceIte, Option.or_none, Option.none_or]

lemma version_one (hjs : js.Exact) : number? js (some (JsonDoc.nat 1)) = some 1 := by
  rw [number?_nat hjs, if_pos (by decide)]

lemma type_ne (payload : Payload) : payload.type ≠ "" := by
  have htypes : ∀ t ∈ ["snapshot", "progress", "text_delta", "draft_reset", "terminal",
      "auth_lost"], t ≠ "" := by decide
  exact htypes _ (type_mem payload)

lemma isText_same (expected text : String) :
    isText expected (some (.str text)) = decide (text = expected) := rfl

lemma decode_lost (hjs : js.Exact) (expected : ExecutionIdentity) {m : ExecutionEvent}
    (h : m.payload = .authLost) :
    (record (some m.toJson) >>= decodeExecutionEvent js expected m.payload.type.toList) = .ok () ↔
      ChatBI.Events.decodeExecutionEvent expected m = true := by
  obtain ⟨hversion, hid, -, -, hsequence, -, hkind, hpayload⟩ := get?_eventMembers m
  have hrecord : record (some Payload.authLost.toJson) = .ok [] := rfl
  have htype : m.payload.type = "auth_lost" := by
    rw [h]
    rfl
  rw [record_event, except_bind_ok]
  simp only [Except.ok.injEq, exists_eq_left', decodeExecutionEvent, hversion, hid, hsequence,
    hkind, hpayload, except_bind_ok, exists_checked, require_ok, version_one hjs, isText_same,
    isCount_nat hjs, type_ne, ne_eq, not_false_eq_true, decide_true, Bool.true_and, Bool.or_true]
  rw [if_pos htype]
  simp only [h, hrecord, except_bind_ok, exists_checked, require_ok, onlyKeys_lost, Except.ok.injEq,
    exists_eq_left', List.isEmpty_nil, ChatBI.Events.decodeExecutionEvent, Bool.and_eq_true,
    decide_eq_true_iff, Option.isNone_iff_eq_none, and_assoc]
  simp only [and_true, true_and]

lemma decode_carried (hjs : js.Exact) (expected : ExecutionIdentity) {m : ExecutionEvent}
    (h : m.payload ≠ .authLost) :
    (record (some m.toJson) >>= decodeExecutionEvent js expected m.payload.type.toList) = .ok () ↔
      (m.executionId = expected.executionId ∧ safeCount m.sequence = true) ∧
        (m.historyId = some expected.historyId ∧ m.turnId = some expected.turnId ∧
          m.draftGeneration.any safeCount = true) ∧
        (record (some m.payload.toJson) >>= decodePayload js m.payload.type
          (m.draftGeneration.map JsonDoc.nat)) = .ok () := by
  obtain ⟨hversion, hid, hhistory, hturn, hsequence, hgeneration, hkind, hpayload⟩ :=
    get?_eventMembers m
  have htype : m.payload.type ≠ "auth_lost" := by
    cases hm : m.payload <;> simp_all [Payload.type]
  rw [record_event, except_bind_ok]
  simp only [Except.ok.injEq, exists_eq_left', decodeExecutionEvent, hversion, hid, hhistory, hturn,
    hsequence, hgeneration, hkind, hpayload, except_bind_ok, exists_checked, require_ok,
    version_one hjs, isText_same, isCount_nat hjs, type_ne, ne_eq, not_false_eq_true, decide_true,
    Bool.true_and, Bool.or_true]
  rw [if_neg htype]
  simp only [except_bind_ok, exists_checked, require_ok, isText_id, isCount_given hjs,
    onlyKeys_of_sublist (keys_eventMembers m), true_and, Bool.and_eq_true, decide_eq_true_iff,
    and_assoc]

section Types

variable {generation : Option JsonDoc}

lemma decodePayload_snapshot :
    decodePayload js "snapshot" generation = decodeSnapshot js generation := by
  funext payload
  rw [decodePayload, if_pos rfl]

lemma decodePayload_progress : decodePayload js "progress" generation = decodeProgress js := by
  funext payload
  rw [decodePayload, if_neg (by decide), if_pos rfl]

lemma decodePayload_terminal : decodePayload js "terminal" generation = decodeTerminal := by
  funext payload
  rw [decodePayload, if_neg (by decide), if_neg (by decide), if_pos rfl]

lemma decodePayload_textDelta : decodePayload js "text_delta" generation = decodeTextDelta js := by
  funext payload
  rw [decodePayload, if_neg (by decide), if_neg (by decide), if_neg (by decide), if_pos rfl]

lemma decodePayload_draftReset : decodePayload js "draft_reset" generation = decodeDraftReset := by
  funext payload
  rw [decodePayload, if_neg (by decide), if_neg (by decide), if_neg (by decide),
    if_neg (by decide), if_pos rfl]

end Types

/-- The checks of the client on the JSON of an event are those on its values. -/
theorem decodeExecutionEvent_iff (hjs : js.Exact) (expected : ExecutionIdentity)
    {m : ExecutionEvent} (hnamed : Named m) :
    (record (some m.toJson) >>= decodeExecutionEvent js expected m.payload.type.toList) = .ok () ↔
      ChatBI.Events.decodeExecutionEvent expected m = true := by
  by_cases hlost : m.payload = .authLost
  · exact decode_lost hjs expected hlost
  rw [decode_carried hjs expected hlost]
  by_cases hgeneration : m.draftGeneration.any safeCount = true
  · obtain ⟨generation, hm, hsafe⟩ := (Option.any_eq_true _ _).mp hgeneration
    rw [hm, Option.map_some]
    cases hpayload : m.payload with
    | authLost => exact absurd hpayload hlost
    | snapshot s =>
      have hdecode := decodeSnapshot_iff hjs hsafe (hnamed s hpayload)
      simp only [Payload.type, Payload.toJson, decodePayload_snapshot, hdecode,
        ChatBI.Events.decodeExecutionEvent, hpayload, hm, Bool.and_eq_true, decide_eq_true_iff,
        and_assoc]
    | progress p =>
      simp only [Payload.type, Payload.toJson, decodePayload_progress, decodeProgress_iff hjs,
        ChatBI.Events.decodeExecutionEvent, hpayload, hm, Bool.and_eq_true, decide_eq_true_iff,
        and_assoc]
    | textDelta field index offset text =>
      simp only [Payload.type, decodePayload_textDelta, decodeTextDelta_iff hjs,
        ChatBI.Events.decodeExecutionEvent, hpayload, hm, Bool.and_eq_true, decide_eq_true_iff,
        and_assoc]
    | draftReset reason =>
      simp only [Payload.type, decodePayload_draftReset, decodeDraftReset_iff,
        ChatBI.Events.decodeExecutionEvent, hpayload, hm, Bool.and_eq_true, decide_eq_true_iff,
        and_assoc]
    | terminal status publicError =>
      simp only [Payload.type, decodePayload_terminal, decodeTerminal_iff,
        ChatBI.Events.decodeExecutionEvent, hpayload, hm, Bool.and_eq_true, decide_eq_true_iff,
        and_assoc]
  · refine iff_of_false (fun h => hgeneration h.2.1.2.2) ?_
    intro h
    apply hgeneration
    unfold ChatBI.Events.decodeExecutionEvent at h
    split at h
    · next hpayload => exact absurd hpayload hlost
    · simp only [Bool.and_eq_true] at h
      exact h.2.1.2

end Events

end Wire

end ChatBI.Events
