import ChatBI.Events.Event
import ChatBI.Lib.Check

/-!
# The event channel of an execution

`ExecutionEventChannel`: a bounded ring of the last events, the current state for snapshots, and
the report draft as it grows. An operation gives what it returns or raises together with the
channel after it, since some state is written before an error is raised. Every operation holds
the channel's lock, so it is one step.
-/

namespace ChatBI.Events

open ChatBI.Lib ChatBI.Store

def textDraftFields : List String := ["title", "executive_summary", "trend_judgment"]

def listDraftFields : List String := ["key_findings", "root_causes", "action_suggestions"]

def draftFields : List String := textDraftFields ++ listDraftFields

def maxDraftBytes : Nat := 5 * 1024 * 1024

def maxDeltaBytes : Nat := 16 * 1024

/-- The report draft that a channel collects. -/
structure Draft where
  parts : Dict DraftKey (List Char) := []
  lengths : Dict DraftKey Nat := []
  listLengths : Dict String Nat := []
  fields : List String := []
  bytes : Nat := 0
  snapshotBytes : Nat := 2
  deriving DecidableEq

structure Channel where
  execution : Execution
  maxEvents : Nat
  maxBytes : Nat
  maxSubscribers : Nat
  sequence : Nat := 0
  status : ExecutionStatus
  stage : Option ExecutionStage := none
  completedTasks : Nat := 0
  totalTasks : Option Nat := none
  stopReason : Option Text
  draftGeneration : Nat := 0
  draft : Draft := {}
  ring : List (ExecutionEvent × Nat) := []
  ringBytes : Nat := 0
  subscribers : Nat := 0
  terminal : Bool
  deriving DecidableEq

/-- What an operation returns or raises, and the channel after it. -/
abbrev Outcome (α : Type) := Except String α × Channel

/-- A text delta whose arguments have been checked. -/
structure Delta where
  key : DraftKey
  offset : Nat
  text : List Char
  deriving DecidableEq

/-- The argument checks of `text_delta`. -/
def Delta.check (field : String) (index : Option Int) (offset : Int) (text : List CodePoint) :
    Except String Delta := do
  require (field ∈ draftFields) "报告草稿字段不在公开白名单中"
  require (0 ≤ offset) "报告草稿偏移无效"
  if field ∈ textDraftFields then
    require (index = none) "报告文字字段不能包含列表索引"
  else
    require (∃ i ∈ index, 0 ≤ i) "报告列表草稿索引无效"
  require (text ≠ []) "报告草稿增量必须是非空文本"
  match scalars? text with
  | none => .error "报告草稿包含无效 Unicode"
  | some chars => .ok ⟨(field, index.map Int.toNat), offset.toNat, chars⟩

/-- `_split_utf8` behind the characters that the current part holds. -/
def splitUtf8From (maxBytes : Nat) : List Char → List Char → Except String (List (List Char))
  | current, [] => .ok (if current = [] then [] else [current])
  | current, c :: text =>
    if maxBytes < c.utf8Size then .error "报告草稿字符超过单事件上限"
    else if current ≠ [] ∧ maxBytes < Utf8.size current + c.utf8Size then
      (current :: ·) <$> splitUtf8From maxBytes [c] text
    else splitUtf8From maxBytes (current ++ [c]) text

def splitUtf8 (text : List Char) (maxBytes : Nat) : Except String (List (List Char)) :=
  splitUtf8From maxBytes [] text

/-- The bytes of a character inside a JSON string. -/
def contentBytes (c : Char) : Nat :=
  if c ∈ ['"', '\\', '\x08', '\t', '\n', '\x0c', '\r'] then 2
  else if c.toNat < 0x20 then 6
  else c.utf8Size

/-- How many bytes a text adds to the JSON of the draft. -/
def draftSnapshotIncrement (field : String) (index : Option Nat) (fieldExists hasAnyField : Bool)
    (existingListLength : Nat) (text : List Char) : Nat :=
  let content := (text.map contentBytes).sum
  if fieldExists then
    if index = some existingListLength then
      content + (if existingListLength = 0 then 0 else 1) + 2
    else content
  else
    content + (Utf8.size field.toList + 2) + 1 + (if index = none then 2 else 4) +
      (if hasAnyField then 1 else 0)

namespace Draft

def listLength (d : Draft) (field : String) : Nat := (Dict.get? d.listLengths field).getD 0

def increment (d : Draft) (δ : Delta) : Nat :=
  draftSnapshotIncrement δ.key.1 δ.key.2 (decide (δ.key.1 ∈ d.fields)) (decide (d.fields ≠ []))
    (d.listLength δ.key.1) δ.text

/-- The checks of `text_delta` against the draft. -/
def check (d : Draft) (δ : Delta) : Except String Unit := do
  require (∀ i ∈ δ.key.2, i ≤ d.listLength δ.key.1) "报告草稿列表索引不连续"
  require ((Dict.get? d.lengths δ.key).getD 0 = δ.offset) "报告草稿偏移与当前文本不一致"
  require (d.bytes + Utf8.size δ.text ≤ maxDraftBytes) "报告草稿超过公开上限"
  require (d.snapshotBytes + d.increment δ ≤ maxDraftBytes) "报告草稿快照超过公开上限"

/-- The parts with a text added to the one of a key. -/
def writePart (parts : Dict DraftKey (List Char)) (key : DraftKey) (text : List Char) :
    Dict DraftKey (List Char) :=
  Dict.set parts key ((Dict.get? parts key).getD [] ++ text)

def write (d : Draft) (δ : Delta) : Draft where
  parts := writePart d.parts δ.key δ.text
  lengths := Dict.set d.lengths δ.key (δ.offset + δ.text.length)
  fields := if δ.key.1 ∈ d.fields then d.fields else d.fields ++ [δ.key.1]
  listLengths :=
    if δ.key.2 = some (d.listLength δ.key.1) then
      Dict.set d.listLengths δ.key.1 (d.listLength δ.key.1 + 1)
    else d.listLengths
  bytes := d.bytes + Utf8.size δ.text
  snapshotBytes := d.snapshotBytes + d.increment δ

/-- One turn of the loop of `_current_draft_locked`. -/
def addPart (draft : ReportDraft) : DraftKey × List Char → Except String ReportDraft
  | ((field, none), value) => .ok (Dict.set draft field (.text value))
  | ((field, some index), value) =>
    match (Dict.get? draft field).getD (.lines []) with
    | .text _ => .error "'str' object has no attribute 'append'"
    | .lines values =>
      if values.length = index then .ok (Dict.set draft field (.lines (values ++ [value])))
      else .error "报告草稿列表状态不连续"

def ofParts (parts : Dict DraftKey (List Char)) : Except String (Option ReportDraft) :=
  if parts = [] then .ok none else some <$> parts.foldlM addPart []

end Draft

namespace Channel

/-- `ExecutionEventChannel(execution, max_events=…, max_bytes=…, max_subscribers=…)`. -/
def new (execution : Execution) (maxEvents : Nat := 64) (maxBytes : Nat := 1024 * 1024)
    (maxSubscribers : Nat := 8) : Except String Channel := do
  require (1 ≤ min maxEvents (min maxBytes maxSubscribers)) "执行事件缓冲与订阅上限必须为正整数"
  return {
    execution, maxEvents, maxBytes, maxSubscribers
    status := execution.status
    stopReason := execution.stopReason.map Text.ofString
    terminal := isTerminal execution.status }

variable (c : Channel)

/-- The state of the channel with a draft. -/
def state (draft : Option ReportDraft) : Snapshot where
  status := c.status
  stage := c.stage
  completedTasks := c.completedTasks
  totalTasks := c.totalTasks
  stopReason := c.stopReason
  draftGeneration := c.draftGeneration
  draft := draft

/-- The payload of the snapshot whose draft has the given parts. -/
def snapshotOf (parts : Dict DraftKey (List Char)) : Except String Snapshot :=
  c.state <$> Draft.ofParts parts

def envelope (sequence : Nat) (payload : Payload) : ExecutionEvent where
  executionId := c.execution.id
  historyId := some c.execution.historyId
  turnId := some c.execution.turnId
  sequence := sequence
  draftGeneration := some c.draftGeneration
  payload := payload

/-- `_snapshot_locked`. -/
def snapshot : Except String ExecutionEvent :=
  (fun s => c.envelope c.sequence (.snapshot s)) <$> c.snapshotOf c.draft.parts

/-- The oldest events leave a ring that is over one of its limits. -/
def trim (maxEvents maxBytes : Nat) :
    List (ExecutionEvent × Nat) → Nat → List (ExecutionEvent × Nat) × Nat
  | [], bytes => ([], bytes)
  | e :: ring, bytes =>
    if maxEvents < (e :: ring).length ∨ maxBytes < bytes then
      trim maxEvents maxBytes ring (bytes - e.2)
    else (e :: ring, bytes)

/-- The channel after an event of the given size. -/
def push (event : ExecutionEvent) (size : Nat) : Channel :=
  { c with
    sequence := c.sequence + 1
    ring := (trim c.maxEvents c.maxBytes (c.ring ++ [(event, size)]) (c.ringBytes + size)).1
    ringBytes := (trim c.maxEvents c.maxBytes (c.ring ++ [(event, size)]) (c.ringBytes + size)).2 }

/-- `_append_locked`. -/
def append (payload : Payload) : Outcome Unit :=
  match (c.envelope (c.sequence + 1) payload).text with
  | .error e => (.error e, { c with sequence := c.sequence + 1 })
  | .ok text =>
    if c.maxBytes < Utf8.size text then (.error "执行事件超过共享缓冲上限", c)
    else (.ok (), c.push (c.envelope (c.sequence + 1) payload) (Utf8.size text))

/-- `order[status]` of an execution that has not ended. -/
def order : ExecutionStatus → Nat
  | .accepted => 0
  | .running => 1
  | _ => 2

def setStatus (status : ExecutionStatus) (stopReason : Option Text) : Outcome Unit :=
  if isTerminal status then (.error "执行中状态无效", c)
  else if c.terminal then (.ok (), c)
  else if order status < order c.status then (.error "执行状态不能回退", c)
  else if status = .stopping then
    match stopReason with
    | none => (.error "停止状态必须包含原因", { c with status := status })
    | some reason =>
      { c with status := status, stopReason := some reason }.append
        (.progress { status := some status, stopReason := some reason })
  else { c with status := status }.append (.progress { status := some status })

def progressPayload : Payload :=
  .progress {
    stage := some c.stage
    completedTasks := some c.completedTasks
    totalTasks := some c.totalTasks }

def setStage (stage : String) : Outcome Unit :=
  match ExecutionStage.ofValue? stage with
  | none => (.error "执行阶段不在公开 Contract 中", c)
  | some value =>
    if c.terminal then (.ok (), c)
    else { c with stage := some value }.append { c with stage := some value }.progressPayload

/-- The channel with other task counts. -/
def withTasks (completed total : Nat) : Channel :=
  { c with completedTasks := completed, totalTasks := some total }

def setTaskProgress (completed total : Int) : Outcome Unit :=
  if total < 1 ∨ completed < 0 ∨ total < completed then (.error "分析任务计数无效", c)
  else if c.terminal then (.ok (), c)
  else (c.withTasks completed.toNat total.toNat).append
    (c.withTasks completed.toNat total.toNat).progressPayload

/-- `_delta_events_fit` from the given ordinal and offset on. -/
def deltaEventsFit (key : DraftKey) : Nat → Nat → List (List Char) → Except String Bool
  | _, _, [] => .ok true
  | ordinal, offset, chunk :: chunks =>
    match (c.envelope (c.sequence + ordinal) (.textDelta key.1 key.2 offset chunk)).text with
    | .error e => .error e
    | .ok text =>
      if c.maxBytes < Utf8.size text then .ok false
      else deltaEventsFit key (ordinal + 1) (offset + chunk.length) chunks

/-- The loop that halves the size of the chunks until their events fit. The size starts as the
number of turns that are left, so the turns do not run out before it is one. -/
def fitChunks (δ : Delta) : Nat → Nat → Except String (List (List Char))
  | 0, _ => .error "报告草稿事件超过共享缓冲上限"
  | turns + 1, limit => do
    let chunks ← splitUtf8 δ.text limit
    if ← c.deltaEventsFit δ.key 1 δ.offset chunks then return chunks
    else if limit = 1 then .error "报告草稿事件超过共享缓冲上限"
    else fitChunks δ turns (max 1 (limit / 2))

/-- The chunks of a delta that passes the checks against the channel. -/
def deltaChunks (δ : Delta) : Except String (List (List Char)) := do
  c.draft.check δ
  c.fitChunks δ (min maxDeltaBytes c.maxBytes) (min maxDeltaBytes c.maxBytes)

def appendChunks : Channel → DraftKey → Nat → List (List Char) → Outcome Unit
  | c, _, _, [] => (.ok (), c)
  | c, key, offset, chunk :: chunks =>
    match c.append (.textDelta key.1 key.2 offset chunk) with
    | (.error e, c') => (.error e, c')
    | (.ok _, c') => appendChunks c' key (offset + chunk.length) chunks

def textDelta (field : String) (index : Option Int) (offset : Int) (text : List CodePoint) :
    Outcome Unit :=
  match Delta.check field index offset text with
  | .error e => (.error e, c)
  | .ok δ =>
    if c.terminal then (.ok (), c)
    else match c.deltaChunks δ with
      | .error e => (.error e, c)
      | .ok chunks => { c with draft := c.draft.write δ }.appendChunks δ.key δ.offset chunks

def reset (reason : String) : Outcome Unit :=
  if reason ≠ "model_retry" then (.error "报告草稿重置原因无效", c)
  else if c.terminal then (.ok (), c)
  else { c with draftGeneration := c.draftGeneration + 1, draft := {} }.append (.draftReset reason)

/-- The error fields that are shown, if there are any. -/
def safeError (publicError : Option PublicError) : Option PublicError :=
  publicError.filter fun e => e.errorCode.isSome || e.errorMessage.isSome

def finish (status : ExecutionStatus) (publicError : Option PublicError) : Outcome Unit :=
  if ¬isTerminal status then (.error "执行终态无效", c)
  else if c.terminal then (.ok (), c)
  else { c with status := status, draft := {}, terminal := true }.append
    (.terminal status (safeError publicError))

/-- `subscribe`: the snapshot that a new subscription starts from. -/
def subscribe : Outcome ExecutionEvent :=
  if c.maxSubscribers ≤ c.subscribers then (.error "ExecutionSubscriberLimit", c)
  else (c.snapshot, { c with subscribers := c.subscribers + 1 })

def unsubscribe : Outcome Unit :=
  if c.subscribers = 0 then (.error "执行观察连接重复释放", c)
  else (.ok (), { c with subscribers := c.subscribers - 1 })

/-- `_read_after` when it does not wait any more: the events and the next cursor. -/
def readAfter (sequence : Nat) : Except String (List ExecutionEvent × Nat) :=
  match c.ring with
  | [] => .ok ([], sequence)
  | (oldest, _) :: _ =>
    if sequence + 1 < oldest.sequence then
      (fun snapshot => ([snapshot], snapshot.sequence)) <$> c.snapshot
    else
      let events := (c.ring.map Prod.fst).filter (fun e => sequence < e.sequence)
      .ok (events, (events.getLast?.map ExecutionEvent.sequence).getD sequence)

/-- The calls of the worker and of the stop control. -/
inductive Call where
  | setStatus (status : ExecutionStatus) (stopReason : Option Text)
  | setStage (stage : String)
  | setTaskProgress (completed total : Int)
  | textDelta (field : String) (index : Option Int) (offset : Int) (text : List CodePoint)
  | reset (reason : String)
  | finish (status : ExecutionStatus) (publicError : Option PublicError)
  deriving DecidableEq

def call : Call → Outcome Unit
  | .setStatus status stopReason => c.setStatus status stopReason
  | .setStage stage => c.setStage stage
  | .setTaskProgress completed total => c.setTaskProgress completed total
  | .textDelta field index offset text => c.textDelta field index offset text
  | .reset reason => c.reset reason
  | .finish status publicError => c.finish status publicError

end Channel

end ChatBI.Events
