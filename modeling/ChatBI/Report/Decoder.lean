import ChatBI.Lib.Check
import ChatBI.Lib.CodePoint
import Mathlib.Logic.Function.Basic

/-!
# The incremental decoder of report JSON

The automaton of `IncrementalReportJSONDecoder`, one character at a time. It follows the JSON
structure with a stack of open containers and emits the text of the six draft fields of the root
object as it reads it. Errors are the messages of the `ValueError`s.
-/

namespace ChatBI.Report

open ChatBI.Lib

def textFields : List String := ["title", "executive_summary", "trend_judgment"]

def listFields : List String := ["key_findings", "root_causes", "action_suggestions"]

inductive ObjectState where
  | keyOrEnd
  | keyRequired
  | colon
  | value
  | commaOrEnd
  deriving DecidableEq

inductive ArrayState where
  | valueOrEnd
  | valueRequired
  | commaOrEnd
  deriving DecidableEq

/-- `_Frame` of an object. -/
structure ObjectFrame where
  state : ObjectState := .keyOrEnd
  root : Bool := false
  keys : List String := []
  currentKey : Option String := none
  deriving DecidableEq

/-- `_Frame` of an array. -/
structure ArrayFrame where
  state : ArrayState := .valueOrEnd
  draftField : Option String := none
  itemCount : Nat := 0
  deriving DecidableEq

inductive Frame where
  | object (f : ObjectFrame)
  | array (f : ArrayFrame)
  deriving DecidableEq

inductive Role where
  | key
  | value
  deriving DecidableEq

inductive ExpectLow where
  | slash
  | u
  deriving DecidableEq

/-- `_String`: a string that is being read. -/
structure Token where
  role : Role
  field : Option String := none
  index : Option Nat := none
  keyParts : List Char := []
  escaped : Bool := false
  unicodeDigits : Option (List Nat) := none
  pendingHighSurrogate : Option Nat := none
  expectLow : Option ExpectLow := none
  deriving DecidableEq

def Token.key (token : Token) : String := String.ofList token.keyParts

/-- A draft position: a field and, in a list field, the index of the item. -/
abbrev DraftKey := String × Option Nat

/-- How much draft text has been emitted. -/
structure Drafts where
  maxDraftBytes : Nat
  draftLengths : DraftKey → Nat := fun _ => 0
  draftBytes : Nat := 0

/-- One more character at a position. -/
def Drafts.add (drafts : Drafts) (key : DraftKey) (c : Char) : Drafts :=
  { drafts with
    draftLengths := Function.update drafts.draftLengths key (drafts.draftLengths key + 1)
    draftBytes := drafts.draftBytes + c.utf8Size }

/-- One emitted character with its offset in the text of its position. -/
structure Piece where
  key : DraftKey
  offset : Nat
  char : Char
  deriving DecidableEq

structure Decoder where
  stack : List Frame := []
  rootStarted : Bool := false
  rootComplete : Bool := false
  string : Option Token := none
  primitive : Option (List CodePoint) := none
  drafts : Drafts
  finished : Bool := false

def surrogatePair (high low : Nat) : Char :=
  Char.ofNat (0x10000 + (high - 0xD800) * 1024 + (low - 0xDC00))

def escapes : Char → Option Char
  | '"' => some '"'
  | '\\' => some '\\'
  | '/' => some '/'
  | 'b' => some '\x08'
  | 'f' => some '\x0c'
  | 'n' => some '\n'
  | 'r' => some '\r'
  | 't' => some '\t'
  | _ => none

/-- `char in " \t\r\n"`. -/
def isJsonSpace (c : CodePoint) : Bool :=
  c = .scalar ' ' || c = .scalar '\t' || c = .scalar '\r' || c = .scalar '\n'

/-- `char in ",]} \t\r\n"`. -/
def endsPrimitive (c : CodePoint) : Bool :=
  c = .scalar ',' || c = .scalar ']' || c = .scalar '}' || isJsonSpace c

/-- `char in "-0123456789tfn"`. -/
def startsPrimitive (c : CodePoint) : Bool :=
  c = .scalar '-' || c.isDigit || c = .scalar 't' || c = .scalar 'f' || c = .scalar 'n'

section Numbers

/-- The position after the digits that start a text, `none` when there are none. -/
def skipDigits (l : List CodePoint) : Option (List CodePoint) :=
  if (l.takeWhile CodePoint.isDigit).isEmpty then none else some (l.dropWhile CodePoint.isDigit)

def skipMinus : List CodePoint → List CodePoint
  | .scalar '-' :: l => l
  | l => l

/-- A leading zero stands alone. A digit of another script after it is refused below. -/
def skipInteger : List CodePoint → Option (List CodePoint)
  | .scalar '0' :: l => if l.head?.any CodePoint.isDigit then none else some l
  | c :: l => if c.isDigit then some (l.dropWhile CodePoint.isDigit) else none
  | [] => none

def skipFraction : List CodePoint → Option (List CodePoint)
  | .scalar '.' :: l => skipDigits l
  | l => some l

def skipExponent : List CodePoint → Option (List CodePoint)
  | .scalar 'e' :: .scalar '+' :: l => skipDigits l
  | .scalar 'e' :: .scalar '-' :: l => skipDigits l
  | .scalar 'e' :: l => skipDigits l
  | .scalar 'E' :: .scalar '+' :: l => skipDigits l
  | .scalar 'E' :: .scalar '-' :: l => skipDigits l
  | .scalar 'E' :: l => skipDigits l
  | l => some l

def validJsonNumber (value : List CodePoint) : Bool :=
  ((skipInteger (skipMinus value)).bind fun l => (skipFraction l).bind skipExponent) = some []

end Numbers

def literals : List (List CodePoint) :=
  [CodePoint.ofString "true", CodePoint.ofString "false", CodePoint.ofString "null"]

namespace Decoder

variable (d : Decoder)

/-- `IncrementalReportJSONDecoder(max_draft_bytes=n)` of a positive bound. -/
def new (n : Nat) : Decoder := { drafts := { maxDraftBytes := n } }

/-- The value of the innermost container is complete. -/
def completeValue : Except String Decoder :=
  match d.stack with
  | [] => .error "list index out of range"
  | .object f :: rest =>
    if f.state = .value then
      .ok { d with stack := .object { f with state := .commaOrEnd, currentKey := none } :: rest }
    else .error "JSON 对象 value 状态无效"
  | .array f :: rest =>
    if f.state = .commaOrEnd then .error "JSON 数组 value 状态无效"
    else .ok { d with
      stack := .array { f with state := .commaOrEnd, itemCount := f.itemCount + 1 } :: rest }

def closeContainer : Except String Decoder :=
  match d.stack with
  | [] => .error "list index out of range"
  | [_] => .ok { d with stack := [], rootComplete := true }
  | _ :: rest => { d with stack := rest }.completeValue

def finishPrimitive (token : List CodePoint) : Except String Decoder :=
  if token ∈ literals ∨ validJsonNumber token then { d with primitive := none }.completeValue
  else .error "JSON primitive 格式无效"

/-- The draft position of a string that starts now. -/
def stringKey : Frame → Option DraftKey
  | .object f =>
    if f.root then (f.currentKey.filter (· ∈ textFields)).map (·, none) else none
  | .array f => f.draftField.map (·, some f.itemCount)

/-- The draft field of an array that starts now. -/
def arrayField : Frame → Option String
  | .object f => if f.root then f.currentKey.filter (· ∈ listFields) else none
  | .array _ => none

/-- A string that starts as a value. -/
def valueToken (parent : Frame) : Token where
  role := .value
  field := (stringKey parent).map Prod.fst
  index := (stringKey parent).bind Prod.snd

def startValue (parent : Frame) (c : CodePoint) : Except String Decoder :=
  if c = .scalar '"' then
    .ok { d with string := some (valueToken parent) }
  else if c = .scalar '{' then .ok { d with stack := .object {} :: d.stack }
  else if c = .scalar '[' then
    .ok { d with stack := .array { draftField := arrayField parent } :: d.stack }
  else if startsPrimitive c then .ok { d with primitive := some [c] }
  else .error "JSON value 格式无效"

def consumeObjectChar (f : ObjectFrame) (rest : List Frame) (c : CodePoint) :
    Except String Decoder :=
  match f.state with
  | .keyOrEnd =>
    if c = .scalar '}' then d.closeContainer
    else if c = .scalar '"' then .ok { d with string := some { role := .key } }
    else .error "JSON 对象 key 格式无效"
  | .keyRequired =>
    if c = .scalar '"' then .ok { d with string := some { role := .key } }
    else .error "JSON 对象 key 格式无效"
  | .colon =>
    if c = .scalar ':' then .ok { d with stack := .object { f with state := .value } :: rest }
    else .error "JSON 对象缺少冒号"
  | .value => d.startValue (.object f) c
  | .commaOrEnd =>
    if c = .scalar ',' then
      .ok { d with stack := .object { f with state := .keyRequired } :: rest }
    else if c = .scalar '}' then d.closeContainer
    else .error "JSON 对象分隔符无效"

def consumeArrayChar (f : ArrayFrame) (rest : List Frame) (c : CodePoint) :
    Except String Decoder :=
  match f.state with
  | .valueOrEnd =>
    if c = .scalar ']' then d.closeContainer else d.startValue (.array f) c
  | .valueRequired => d.startValue (.array f) c
  | .commaOrEnd =>
    if c = .scalar ',' then
      .ok { d with stack := .array { f with state := .valueRequired } :: rest }
    else if c = .scalar ']' then d.closeContainer
    else .error "JSON 数组分隔符无效"

def consumeJsonChar (c : CodePoint) : Except String Decoder :=
  if isJsonSpace c then .ok d
  else match d.stack with
    | [] =>
      if d.rootComplete then .error "JSON 根对象后包含额外内容"
      else if d.rootStarted ∨ c ≠ .scalar '{' then .error "Summary 报告必须是 JSON 对象"
      else .ok { d with rootStarted := true, stack := [.object { root := true }] }
    | .object f :: rest => d.consumeObjectChar f rest c
    | .array f :: rest => d.consumeArrayChar f rest c

/-- A decoded character of a string: part of a key, of a draft text, or of neither. -/
def emitStringChar (token : Token) (c : Char) : Except String (Decoder × List Piece) :=
  match token.role, token.field with
  | .key, _ =>
    .ok ({ d with string := some { token with keyParts := token.keyParts ++ [c] } }, [])
  | .value, none => .ok ({ d with string := some token }, [])
  | .value, some field =>
    if d.drafts.maxDraftBytes < d.drafts.draftBytes + c.utf8Size then
      .error "报告草稿超过公开上限"
    else
      .ok ({ d with string := some token, drafts := d.drafts.add (field, token.index) c },
        [⟨(field, token.index), d.drafts.draftLengths (field, token.index), c⟩])

def closeString (token : Token) : Except String Decoder :=
  if token.pendingHighSurrogate ≠ none ∨ token.unicodeDigits ≠ none then
    .error "JSON Unicode 转义不完整"
  else match token.role with
    | .value => { d with string := none }.completeValue
    | .key =>
      match d.stack with
      | .object f :: rest =>
        if token.key ∈ f.keys then .error "JSON 对象包含重复 key"
        else .ok { d with
          string := none
          stack := .object { f with
            keys := token.key :: f.keys
            currentKey := some token.key
            state := .colon } :: rest }
      | _ => .error "list index out of range"

/-- Four digits of a `\u` escape have been read. -/
def finishUnicode (token : Token) (value : Nat) : Except String (Decoder × List Piece) :=
  match token.pendingHighSurrogate with
  | some high =>
    if 0xDC00 ≤ value ∧ value ≤ 0xDFFF then
      d.emitStringChar { token with pendingHighSurrogate := none } (surrogatePair high value)
    else .error "JSON Unicode 代理对无效"
  | none =>
    if 0xD800 ≤ value ∧ value ≤ 0xDBFF then
      .ok ({ d with string := some { token with
        pendingHighSurrogate := some value, expectLow := some .slash } }, [])
    else if 0xDC00 ≤ value ∧ value ≤ 0xDFFF then .error "JSON 孤立低代理项无效"
    else d.emitStringChar token (Char.ofNat value)

def consumeStringChar (token : Token) (c : CodePoint) : Except String (Decoder × List Piece) :=
  match token.expectLow with
  | some .slash =>
    if c = .scalar '\\' then
      .ok ({ d with string := some { token with expectLow := some .u } }, [])
    else .error "JSON Unicode 代理对不完整"
  | some .u =>
    if c = .scalar 'u' then
      .ok ({ d with string := some { token with
        expectLow := none, unicodeDigits := some [] } }, [])
    else .error "JSON Unicode 代理对不完整"
  | none =>
    match token.unicodeDigits with
    | some digits =>
      match c.hexDigit? with
      | none => .error "JSON Unicode 转义无效"
      | some digit =>
        if digits.length = 3 then
          d.finishUnicode { token with unicodeDigits := none } (hexValue (digits ++ [digit]))
        else
          .ok ({ d with string := some { token with
            unicodeDigits := some (digits ++ [digit]) } }, [])
    | none =>
      if token.escaped then
        if c = .scalar 'u' then
          .ok ({ d with string := some { token with
            escaped := false, unicodeDigits := some [] } }, [])
        else match c with
          | .scalar e =>
            match escapes e with
            | some decoded => d.emitStringChar { token with escaped := false } decoded
            | none => .error "JSON 字符串转义无效"
          | .surrogate _ => .error "JSON 字符串转义无效"
      else match c with
        | .scalar '"' => (·, []) <$> d.closeString token
        | .scalar '\\' => .ok ({ d with string := some { token with escaped := true } }, [])
        | .scalar e =>
          if e.toNat < 0x20 then .error "JSON 字符串包含无效字符" else d.emitStringChar token e
        | .surrogate _ => .error "JSON 字符串包含无效字符"

/-- One turn of the loop of `feed`. A character that ends a primitive is read again after it. -/
def consumeChar (c : CodePoint) : Except String (Decoder × List Piece) :=
  match d.string with
  | some token => d.consumeStringChar token c
  | none =>
    match d.primitive with
    | some token =>
      if endsPrimitive c then do
        let ended ← d.finishPrimitive token
        (·, []) <$> ended.consumeJsonChar c
      else .ok ({ d with primitive := some (token ++ [c]) }, [])
    | none => (·, []) <$> d.consumeJsonChar c

def finish : Except String Decoder := do
  require (d.finished = false) "报告 JSON 解码器重复结束"
  let d := { d with finished := true }
  let ended ← match d.primitive with
    | some token => d.finishPrimitive token
    | none => .ok d
  require (ended.string = none ∧ ended.stack = [] ∧ ended.rootComplete)
    "Summary LLM 返回的 JSON 不完整"
  return ended

/-- The characters of a text one after another. -/
def run : Decoder → List CodePoint → Except String (Decoder × List Piece)
  | d, [] => .ok (d, [])
  | d, c :: text =>
    match d.consumeChar c with
    | .error e => .error e
    | .ok (d', pieces) =>
      match run d' text with
      | .error e => .error e
      | .ok (d'', more) => .ok (d'', pieces ++ more)

end Decoder

/-- `ReportTextDelta`. -/
structure ReportTextDelta where
  key : DraftKey
  offset : Nat
  text : List Char
  deriving DecidableEq

/-- A character goes to the last delta of the chunk when it continues it, else into a new one. -/
def record (deltas : List ReportTextDelta) (p : Piece) : List ReportTextDelta :=
  match deltas.getLast? with
  | none => [⟨p.key, p.offset, [p.char]⟩]
  | some last =>
    if last.key = p.key ∧ last.offset + last.text.length = p.offset then
      deltas.dropLast ++ [{ last with text := last.text ++ [p.char] }]
    else deltas ++ [⟨p.key, p.offset, [p.char]⟩]

/-- The deltas of one chunk. -/
def Decoder.feed (d : Decoder) (text : List CodePoint) :
    Except String (Decoder × List ReportTextDelta) := do
  require (d.finished = false) "报告 JSON 解码器已结束"
  let (d', pieces) ← d.run text
  return (d', pieces.foldl record [])

end ChatBI.Report
