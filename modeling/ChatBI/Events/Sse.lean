import ChatBI.Events.Stream
import ChatBI.Lib.Decimal
import ChatBI.Lib.JsonParser

/-!
# Server-sent events

What `encode_sse` writes and the browser's `SSEParser`. The frames that the stream sends arrive as they are,
however the network cuts their bytes.
-/

namespace ChatBI.Events

open ChatBI.Lib ChatBI.Lib.JsonGrammar

/-- A frame that the parser has found: its type and its data. -/
structure SseFrame where
  type : List Char
  data : JsonDoc

/-- The state of `SSEParser` behind its decoder. -/
structure SseLines where
  line : List Char := []
  data : List (List Char) := []
  eventType : List Char := []
  eventBytes : Nat := 0
  pendingCR : Bool := false

structure SseParser where
  decoder : TextDecoder := {}
  lines : SseLines := {}

section Parsing

variable (maxEventBytes : Nat) (parseJson : List Char → Option JsonDoc)

/-- The value of a field without the space in front of it. -/
def fieldValue (line : List Char) : List Char :=
  match (line.dropWhile (· ≠ ':')).tail with
  | ' ' :: value => value
  | value => value

/-- `finishLine`. An empty line ends an event. -/
def finishLine (s : SseLines) : Except String (SseLines × List SseFrame) :=
  if s.line = [] then
    let reset := { s with data := [], eventType := [], eventBytes := 0 }
    if s.data = [] then .ok (reset, [])
    else
      match parseJson (['\n'].intercalate s.data) with
      | some v => .ok (reset, [⟨if s.eventType = [] then "message".toList else s.eventType, v⟩])
      | none => .error "执行事件 JSON 无效"
  else if s.line.head? = some ':' then .ok ({ s with line := [] }, [])
  else
    let field := s.line.takeWhile (· ≠ ':')
    if field = "data".toList then
      .ok ({ s with line := [], data := s.data ++ [fieldValue s.line] }, [])
    else if field = "event".toList then
      .ok ({ s with line := [], eventType := fieldValue s.line }, [])
    else .ok ({ s with line := [] }, [])

/-- A character that does not follow a carriage return. -/
def feedPlain (s : SseLines) (c : Char) : Except String (SseLines × List SseFrame) :=
  if c = '\r' then .ok ({ s with pendingCR := true }, [])
  else if c = '\n' then finishLine parseJson s
  else if maxEventBytes < s.eventBytes + c.utf8Size then .error "执行事件超过网页接收上限"
  else .ok ({ s with line := s.line ++ [c], eventBytes := s.eventBytes + c.utf8Size }, [])

/-- A turn of the loop of `feed`. -/
def feedChar (s : SseLines) (c : Char) : Except String (SseLines × List SseFrame) :=
  if s.pendingCR then do
    let (s, frames) ← finishLine parseJson { s with pendingCR := false }
    if c = '\n' then return (s, frames)
    else
      let (s, more) ← feedPlain maxEventBytes parseJson s c
      return (s, frames ++ more)
  else feedPlain maxEventBytes parseJson s c

def feedText : SseLines → List Char → Except String (SseLines × List SseFrame)
  | s, [] => .ok (s, [])
  | s, c :: text => do
    let (s, frames) ← feedChar maxEventBytes parseJson s c
    let (s, more) ← feedText s text
    return (s, frames ++ more)

/-- `feed`. -/
def SseParser.feed (p : SseParser) (chunk : List Nat) : Except String (SseParser × List SseFrame) :=
  match p.decoder.decode chunk with
  | none => .error "The encoded data was not valid"
  | some (decoder, text) => do
    let (lines, frames) ← feedText maxEventBytes parseJson p.lines text
    return (⟨decoder, lines⟩, frames)

/-- The frames of chunks that arrive one after another. -/
def SseParser.feedAll : SseParser → List (List Nat) → Except String (SseParser × List SseFrame)
  | p, [] => .ok (p, [])
  | p, chunk :: chunks => do
    let (p, frames) ← p.feed maxEventBytes parseJson chunk
    let (p, more) ← feedAll p chunks
    return (p, frames ++ more)

end Parsing

section Lines

variable {maxEventBytes : Nat} {parseJson : List Char → Option JsonDoc} {s t u : SseLines}
  {text rest : List Char} {frames more : List SseFrame}

lemma feedText_cons {c : Char} (h : feedChar maxEventBytes parseJson s c = .ok (t, frames))
    (hrest : feedText maxEventBytes parseJson t rest = .ok (u, more)) :
    feedText maxEventBytes parseJson s (c :: rest) = .ok (u, frames ++ more) := by
  rw [feedText]
  simp only [except_bind_ok, Prod.exists, except_pure_ok]
  exact ⟨t, frames, h, u, more, hrest, rfl⟩

lemma feedText_append (h : feedText maxEventBytes parseJson s text = .ok (t, frames))
    (hrest : feedText maxEventBytes parseJson t rest = .ok (u, more)) :
    feedText maxEventBytes parseJson s (text ++ rest) = .ok (u, frames ++ more) := by
  induction text generalizing s frames with
  | nil =>
    cases h
    exact hrest
  | cons c text ih =>
    obtain ⟨⟨v, first⟩, hfirst, h⟩ := except_bind_ok.mp h
    obtain ⟨⟨w, others⟩, hothers, h⟩ := except_bind_ok.mp h
    rw [except_pure_ok, Prod.mk.injEq] at h
    obtain ⟨rfl, rfl⟩ := h
    rw [List.append_assoc]
    exact feedText_cons hfirst (ih hothers)

/-- The characters of a line. -/
lemma feedText_line (hcr : s.pendingCR = false) (hplain : ∀ c ∈ text, c ≠ '\r' ∧ c ≠ '\n')
    (hfits : s.eventBytes + Utf8.size text ≤ maxEventBytes) :
    feedText maxEventBytes parseJson s text =
      .ok ({ s with line := s.line ++ text, eventBytes := s.eventBytes + Utf8.size text }, []) := by
  induction text generalizing s with
  | nil => simp [feedText]
  | cons c text ih =>
    obtain ⟨hc, htext⟩ := List.forall_mem_cons.mp hplain
    rw [Utf8.size_cons] at hfits
    have hfirst : feedChar maxEventBytes parseJson s c =
        .ok ({ s with line := s.line ++ [c], eventBytes := s.eventBytes + c.utf8Size }, []) := by
      rw [feedChar, if_neg (by simp [hcr]), feedPlain, if_neg hc.1, if_neg hc.2,
        if_neg (by omega)]
    have hrest := @ih { s with line := s.line ++ [c], eventBytes := s.eventBytes + c.utf8Size } hcr
      htext (by simp only; omega)
    rw [feedText_cons hfirst hrest, Utf8.size_cons]
    simp only [List.append_assoc, List.singleton_append, Nat.add_assoc, List.nil_append]

/-- The end of a line. -/
lemma feedText_newline (hcr : s.pendingCR = false) (h : finishLine parseJson s = .ok (t, frames)) :
    feedText maxEventBytes parseJson s ['\n'] = .ok (t, frames) := by
  have hchar : feedChar maxEventBytes parseJson s '\n' = .ok (t, frames) := by
    rw [feedChar, if_neg (by simp [hcr]), feedPlain, if_neg (by decide), if_pos rfl, h]
  have hnil : feedText maxEventBytes parseJson t [] = .ok (t, []) := rfl
  rw [feedText_cons hchar hnil, List.append_nil]

/-- The name of a field is in front of its colon, and the value behind the space. -/
lemma finishLine_field {field value : List Char} (hne : field ≠ []) (hcolon : ':' ∉ field)
    (hline : s.line = field ++ ':' :: ' ' :: value) :
    finishLine parseJson s = .ok (
      if field = "data".toList then { s with line := [], data := s.data ++ [value] }
      else if field = "event".toList then { s with line := [], eventType := value }
      else { s with line := [] }, []) := by
  have hfield : ∀ c ∈ field, (decide (c ≠ ':')) = true := by
    intro c hc
    exact decide_eq_true fun h => hcolon (h ▸ hc)
  have htake : s.line.takeWhile (· ≠ ':') = field := by
    rw [hline, List.takeWhile_append_of_pos hfield, List.takeWhile_cons_of_neg (by decide),
      List.append_nil]
  have hdrop : fieldValue s.line = value := by
    rw [fieldValue, hline, List.dropWhile_append_of_pos hfield,
      List.dropWhile_cons_of_neg (by decide)]
    rfl
  obtain ⟨c, field, rfl⟩ := List.exists_cons_of_ne_nil hne
  have hhead : s.line.head? ≠ some ':' := by
    rw [hline, List.cons_append, List.head?_cons]
    intro h
    exact hcolon (Option.some.inj h ▸ List.mem_cons_self)
  rw [finishLine, if_neg (by simp [hline]), if_neg hhead, htake, hdrop]
  simp only []
  split
  · rfl
  split <;> rfl

/-- A comment is left out. -/
lemma finishLine_comment (hline : s.line = ':' :: text) :
    finishLine parseJson s = .ok ({ s with line := [] }, []) := by
  rw [finishLine, if_neg (by simp [hline]), if_pos (by simp [hline])]

/-- A whole line that starts an empty one. -/
lemma feedText_finished (hline : s.line = []) (hcr : s.pendingCR = false)
    (hplain : ∀ c ∈ text, c ≠ '\r' ∧ c ≠ '\n')
    (hfits : s.eventBytes + Utf8.size text ≤ maxEventBytes)
    (hfinish : finishLine parseJson
      { s with line := text, eventBytes := s.eventBytes + Utf8.size text } = .ok (t, frames)) :
    feedText maxEventBytes parseJson s (text ++ ['\n']) = .ok (t, frames) := by
  have htext := @feedText_line maxEventBytes parseJson s text hcr hplain hfits
  rw [hline, List.nil_append] at htext
  have hend := @feedText_newline maxEventBytes parseJson
    { s with line := text, eventBytes := s.eventBytes + Utf8.size text } t frames hcr hfinish
  rw [feedText_append htext hend, List.nil_append]

end Lines

section Frames

variable {maxEventBytes : Nat} {parseJson : List Char → Option JsonDoc} {e : ExecutionEvent}

/-- The texts of an event's three lines. -/
def idLine (e : ExecutionEvent) : List Char := "id: ".toList ++ Nat.toDigits 10 e.sequence

def eventLine (e : ExecutionEvent) : List Char := "event: ".toList ++ e.payload.type.toList

def dataLine (e : ExecutionEvent) : List Char := "data: ".toList ++ JsonDoc.dumps e.toJson

/-- The bytes that the parser counts for an event. -/
def eventBytes (e : ExecutionEvent) : Nat :=
  Utf8.size (idLine e) + Utf8.size (eventLine e) + Utf8.size (dataLine e)

/-- The text of a frame. -/
def frameText : Frame → List Char
  | .event e => idLine e ++ ['\n'] ++ (eventLine e ++ ['\n']) ++ (dataLine e ++ ['\n']) ++ ['\n']
  | .heartbeat => ": heartbeat".toList ++ ['\n'] ++ ['\n']

/-- The parser has room for a frame. -/
def Frame.Fits (maxEventBytes : Nat) : Frame → Prop
  | .event e => eventBytes e ≤ maxEventBytes
  | .heartbeat => 11 ≤ maxEventBytes

/-- What the parser finds in a frame. -/
def Frame.found : Frame → List SseFrame
  | .event e => [⟨e.payload.type.toList, e.toJson⟩]
  | .heartbeat => []

lemma encode_event {bytes : List Nat} (h : e.encodeSse = .ok bytes) :
    bytes = Utf8.encode (frameText (.event e)) := by
  rw [ExecutionEvent.encodeSse, except_bind_ok] at h
  obtain ⟨data, hdata, h⟩ := h
  have htext : data = JsonDoc.dumps e.toJson := (text_ok.mp hdata).2
  rw [except_pure_ok] at h
  rw [← h, htext]
  congr 1

lemma encode_frame {frame : Frame} {bytes : List Nat} (h : frame.encode = .ok bytes) :
    bytes = Utf8.encode (frameText frame) := by
  cases frame with
  | event e => exact encode_event h
  | heartbeat =>
    rw [Frame.encode, Except.ok.injEq] at h
    rw [← h]
    congr 1

lemma plain_of_printable {text : List Char} (h : JsonDoc.Printable text) :
    ∀ c ∈ text, c ≠ '\r' ∧ c ≠ '\n' := by
  intro c hc
  have hle := h c hc
  constructor
  · rintro rfl
    exact absurd hle (by decide)
  · rintro rfl
    exact absurd hle (by decide)

lemma plain_append {text rest : List Char} (htext : ∀ c ∈ text, c ≠ '\r' ∧ c ≠ '\n')
    (hrest : ∀ c ∈ rest, c ≠ '\r' ∧ c ≠ '\n') : ∀ c ∈ text ++ rest, c ≠ '\r' ∧ c ≠ '\n' := by
  intro c hc
  rcases List.mem_append.mp hc with h | h
  · exact htext c h
  · exact hrest c h

lemma plain_of_all {text : List Char} (h : (text.all fun c => c ≠ '\r' ∧ c ≠ '\n') = true) :
    ∀ c ∈ text, c ≠ '\r' ∧ c ≠ '\n' := by
  simpa only [List.all_eq_true, decide_eq_true_eq] using h

lemma plain_idLine (e : ExecutionEvent) : ∀ c ∈ idLine e, c ≠ '\r' ∧ c ≠ '\n' := by
  apply plain_append (plain_of_all rfl)
  intro c hc
  have hdigit := allDigits_toDigits e.sequence c hc
  constructor
  · rintro rfl
    exact absurd hdigit (by decide)
  · rintro rfl
    exact absurd hdigit (by decide)

lemma type_mem (payload : Payload) : payload.type ∈
    ["snapshot", "progress", "text_delta", "draft_reset", "terminal", "auth_lost"] := by
  cases payload <;> simp [Payload.type]

lemma plain_eventLine (e : ExecutionEvent) : ∀ c ∈ eventLine e, c ≠ '\r' ∧ c ≠ '\n' := by
  apply plain_append (plain_of_all rfl)
  cases e.payload <;> rw [Payload.type] <;> exact plain_of_all rfl

lemma plain_dataLine (h : e.toJson.WellFormed) : ∀ c ∈ dataLine e, c ≠ '\r' ∧ c ≠ '\n' :=
  plain_append (plain_of_all rfl) (plain_of_printable (JsonDoc.printable_dumps _ h))

/-- The parser finds an event in the text of its frame, and is as it was behind it. -/
lemma feedText_event (hjson : e.toJson.WellFormed)
    (hparse : parseJson (JsonDoc.dumps e.toJson) = some e.toJson)
    (hfits : eventBytes e ≤ maxEventBytes) :
    feedText maxEventBytes parseJson {} (frameText (.event e)) =
      .ok ({}, [⟨e.payload.type.toList, e.toJson⟩]) := by
  unfold eventBytes at hfits
  have hid : feedText maxEventBytes parseJson {} (idLine e ++ ['\n']) =
      .ok ({ eventBytes := Utf8.size (idLine e) }, []) := by
    apply feedText_finished rfl rfl (plain_idLine e) (by simp only; omega)
    rw [@finishLine_field _ _ "id".toList (Nat.toDigits 10 e.sequence) (by decide) (by decide) rfl,
      if_neg (by decide), if_neg (by decide)]
    simp only [Nat.zero_add]
  have hevent : feedText maxEventBytes parseJson { eventBytes := Utf8.size (idLine e) }
      (eventLine e ++ ['\n']) =
      .ok ({ eventType := e.payload.type.toList
             eventBytes := Utf8.size (idLine e) + Utf8.size (eventLine e) }, []) := by
    apply feedText_finished rfl rfl (plain_eventLine e) (by simp only; omega)
    rw [@finishLine_field _ _ "event".toList e.payload.type.toList (by decide) (by decide) rfl,
      if_neg (by decide), if_pos rfl]
  have hdata : feedText maxEventBytes parseJson
      { eventType := e.payload.type.toList
        eventBytes := Utf8.size (idLine e) + Utf8.size (eventLine e) } (dataLine e ++ ['\n']) =
      .ok ({ data := [JsonDoc.dumps e.toJson], eventType := e.payload.type.toList
             eventBytes := eventBytes e }, []) := by
    apply feedText_finished rfl rfl (plain_dataLine hjson) (by simp only; omega)
    rw [@finishLine_field _ _ "data".toList (JsonDoc.dumps e.toJson) (by decide) (by decide) rfl,
      if_pos rfl]
    rfl
  have htypes : ∀ t ∈ ["snapshot", "progress", "text_delta", "draft_reset", "terminal",
      "auth_lost"], t.toList ≠ [] := by decide
  have htype := htypes _ (type_mem e.payload)
  have hend : feedText maxEventBytes parseJson
      { data := [JsonDoc.dumps e.toJson], eventType := e.payload.type.toList
        eventBytes := eventBytes e } ['\n'] =
      .ok ({}, [⟨e.payload.type.toList, e.toJson⟩]) := by
    apply feedText_newline rfl
    rw [finishLine, if_pos rfl]
    have hjoin : ['\n'].intercalate [JsonDoc.dumps e.toJson] = JsonDoc.dumps e.toJson := by
      simp [List.intercalate]
    simp only [hjoin, hparse, if_neg htype, List.cons_ne_nil, if_false]
  exact feedText_append (feedText_append (feedText_append hid hevent) hdata) hend

lemma feedText_heartbeat (h : 11 ≤ maxEventBytes) :
    feedText maxEventBytes parseJson {} (frameText .heartbeat) = .ok ({}, []) := by
  have hcomment : feedText maxEventBytes parseJson {} (": heartbeat".toList ++ ['\n']) =
      .ok ({ eventBytes := 11 }, []) := by
    have hsize : Utf8.size ": heartbeat".toList = 11 := by decide
    apply feedText_finished rfl rfl (plain_of_all rfl) (by rw [hsize]; exact h)
    rw [@finishLine_comment _ _ " heartbeat".toList rfl, hsize]
  have hend : feedText maxEventBytes parseJson { eventBytes := 11 } ['\n'] = .ok ({}, []) := by
    apply feedText_newline rfl
    rw [finishLine, if_pos rfl]
    rfl
  exact feedText_append hcomment hend

end Frames

section Json

open JsonDoc

lemma wellFormed_option {α : Type} {f : α → JsonDoc} (hf : ∀ a, (f a).WellFormed) :
    ∀ a, (ofOption f a).WellFormed
  | none => .null
  | some a => hf a

lemma wellFormed_none : ∀ m ∈ ([] : List (String × JsonDoc)), m.2.WellFormed :=
  fun _ hm => absurd hm List.not_mem_nil

lemma wellFormed_members {ms : List (String × JsonDoc)} {key : String} {v : JsonDoc}
    (hv : v.WellFormed) (h : ∀ m ∈ ms, m.2.WellFormed) : ∀ m ∈ (key, v) :: ms, m.2.WellFormed :=
  List.forall_mem_cons.mpr ⟨hv, h⟩

lemma wellFormed_append {ms ms' : List (String × JsonDoc)} (h : ∀ m ∈ ms, m.2.WellFormed)
    (h' : ∀ m ∈ ms', m.2.WellFormed) : ∀ m ∈ ms ++ ms', m.2.WellFormed := by
  intro m hm
  rcases List.mem_append.mp hm with hm | hm
  · exact h m hm
  · exact h' m hm

lemma wellFormed_optionalField {key : String} {α : Type} {f : α → JsonDoc}
    (hf : ∀ a, (f a).WellFormed) (a : Option α) :
    ∀ m ∈ optionalField key (a.map f), m.2.WellFormed := by
  cases a with
  | none => exact wellFormed_none
  | some a => exact wellFormed_members (hf a) wellFormed_none

lemma wellFormed_draftJson (draft : ReportDraft) : (draftJson draft).WellFormed := by
  refine .obj fun m hm => ?_
  obtain ⟨⟨field, value⟩, -, rfl⟩ := List.mem_map.mp hm
  cases value with
  | text t => exact .str
  | lines ts =>
    refine .arr fun v hv => ?_
    obtain ⟨t, -, rfl⟩ := List.mem_map.mp hv
    exact .str

lemma wellFormed_payload : ∀ payload : Payload, payload.toJson.WellFormed
  | .snapshot s => .obj <| wellFormed_members .str <|
      wellFormed_members (wellFormed_option (fun _ => .str) _) <|
      wellFormed_members (wellFormed_nat _) <|
      wellFormed_members (wellFormed_option wellFormed_nat _) <|
      wellFormed_members (wellFormed_option (fun _ => .str) _) <|
      wellFormed_members (wellFormed_nat _) <|
      wellFormed_members (wellFormed_option wellFormed_draftJson _) wellFormed_none
  | .progress p => by
    have hstage : ∀ stage, (stageJson stage).WellFormed := wellFormed_option fun _ => .str
    have htotal : ∀ total, (ofOption nat total).WellFormed := wellFormed_option wellFormed_nat
    refine .obj (wellFormed_append (wellFormed_append (wellFormed_append (wellFormed_append
      ?_ ?_) ?_) ?_) ?_)
    · exact wellFormed_optionalField (fun _ => .str) p.status
    · exact wellFormed_optionalField (fun _ => .str) p.stopReason
    · exact wellFormed_optionalField hstage p.stage
    · exact wellFormed_optionalField wellFormed_nat p.completedTasks
    · exact wellFormed_optionalField htotal p.totalTasks
  | .textDelta _ _ _ _ => .obj <| wellFormed_members .str <|
      wellFormed_members (wellFormed_option wellFormed_nat _) <|
      wellFormed_members (wellFormed_nat _) <| wellFormed_members .str wellFormed_none
  | .draftReset _ => .obj (wellFormed_members .str wellFormed_none)
  | .terminal _ publicError => by
    have herror : ∀ e : PublicError, e.toJson.WellFormed := fun e => .obj (wellFormed_append
      (wellFormed_optionalField (fun _ => .str) e.errorCode)
      (wellFormed_optionalField (fun _ => .str) e.errorMessage))
    exact .obj (wellFormed_members .str (wellFormed_optionalField herror publicError))
  | .authLost => .obj wellFormed_none

lemma wellFormed_toJson (e : ExecutionEvent) : e.toJson.WellFormed := by
  refine .obj (wellFormed_append (wellFormed_append (wellFormed_append (wellFormed_append
    (wellFormed_append ?_ ?_) ?_) ?_) ?_) ?_)
  · exact wellFormed_members (wellFormed_nat 1) (wellFormed_members .str wellFormed_none)
  · exact wellFormed_optionalField (fun _ => .str) e.historyId
  · exact wellFormed_optionalField (fun _ => .str) e.turnId
  · exact wellFormed_members (wellFormed_nat e.sequence) wellFormed_none
  · exact wellFormed_optionalField wellFormed_nat e.draftGeneration
  · exact wellFormed_members .str (wellFormed_members (wellFormed_payload e.payload)
      wellFormed_none)

end Json

section Chunks

variable {maxEventBytes : Nat} {parseJson : List Char → Option JsonDoc} {p : SseParser}
  {s t : SseLines} {text rest : List Char} {found : List SseFrame}

lemma feedText_of_append
    (h : feedText maxEventBytes parseJson s (text ++ rest) = .ok (t, found)) :
    ∃ u first more, feedText maxEventBytes parseJson s text = .ok (u, first) ∧
      feedText maxEventBytes parseJson u rest = .ok (t, more) ∧ found = first ++ more := by
  induction text generalizing s found with
  | nil => exact ⟨s, [], found, rfl, h, rfl⟩
  | cons c text ih =>
    rw [List.cons_append, feedText] at h
    simp only [except_bind_ok, Prod.exists, except_pure_ok, Prod.mk.injEq] at h
    obtain ⟨u, frames, hchar, v, others, hothers, rfl, rfl⟩ := h
    obtain ⟨w, first, more, hfirst, hmore, rfl⟩ := ih hothers
    exact ⟨w, frames ++ first, more, feedText_cons hchar hfirst, hmore,
      (List.append_assoc _ _ _).symm⟩

/-- How the bytes are cut does not matter to what is found in them. -/
lemma feedAll_ok {chunks : List (List Nat)} {decoder : TextDecoder} {texts : List (List Char)}
    (hdecode : p.decoder.decodeAll chunks = some (decoder, texts))
    (h : feedText maxEventBytes parseJson p.lines texts.flatten = .ok (t, found)) :
    p.feedAll maxEventBytes parseJson chunks = .ok (⟨decoder, t⟩, found) := by
  induction chunks generalizing p texts found with
  | nil =>
    cases hdecode
    cases h
    rfl
  | cons chunk chunks ih =>
    rw [TextDecoder.decodeAll] at hdecode
    split at hdecode
    · cases hdecode
    · next d text hchunk =>
      obtain ⟨⟨d', others⟩, hothers, he⟩ := Option.map_eq_some_iff.mp hdecode
      cases he
      obtain ⟨u, first, more, hfirst, hmore, rfl⟩ := feedText_of_append h
      have hfeed : p.feed maxEventBytes parseJson chunk = .ok (⟨d, u⟩, first) := by
        rw [SseParser.feed, hchunk]
        simp only [except_bind_ok, Prod.exists, except_pure_ok]
        exact ⟨u, first, hfirst, rfl⟩
      rw [SseParser.feedAll]
      simp only [except_bind_ok, Prod.exists, except_pure_ok]
      exact ⟨_, first, hfeed, _, more, @ih ⟨d, u⟩ more others hothers hmore, rfl⟩

/-- The parser finds what the frames hold, one after another. -/
lemma feedText_frames (hparse : ∀ v : JsonDoc, v.WellFormed → parseJson v.dumps = some v)
    {frames : List Frame} (hfits : ∀ frame ∈ frames, frame.Fits maxEventBytes) :
    feedText maxEventBytes parseJson {} (frames.flatMap frameText) =
      .ok ({}, frames.flatMap Frame.found) := by
  induction frames with
  | nil => rfl
  | cons frame frames ih =>
    obtain ⟨hframe, hframes⟩ := List.forall_mem_cons.mp hfits
    have hfirst : feedText maxEventBytes parseJson {} (frameText frame) =
        .ok ({}, frame.found) := by
      cases frame with
      | event e =>
        exact feedText_event (wellFormed_toJson e) (hparse _ (wellFormed_toJson e)) hframe
      | heartbeat => exact feedText_heartbeat hframe
    exact feedText_append hfirst (ih hframes)

lemma flatten_encoded {frames : List Frame} {parts : List (List Nat)}
    (h : frames.mapM Frame.encode = .ok parts) :
    parts.flatten = Utf8.encode (frames.flatMap frameText) := by
  induction frames generalizing parts with
  | nil =>
    cases h
    rfl
  | cons frame frames ih =>
    rw [List.mapM_cons] at h
    simp only [except_bind_ok, except_pure_ok] at h
    obtain ⟨bytes, hbytes, others, hothers, rfl⟩ := h
    rw [List.flatten_cons, encode_frame hbytes, ih hothers, List.flatMap_cons, Utf8.encode_append]

lemma head_frameText (frame : Frame) : ∃ c text, frameText frame = c :: text ∧ c ≠ '\uFEFF' := by
  cases frame with
  | event e => exact ⟨'i', _, rfl, by decide⟩
  | heartbeat => exact ⟨':', _, rfl, by decide⟩

/-- The parser's view of a stream: however the network cuts the bytes of the frames, the parser
finds each event with its type, and no event is left over. -/
theorem sse_round_trip (hparse : ∀ v : JsonDoc, v.WellFormed → parseJson v.dumps = some v)
    {frames : List Frame} {parts chunks : List (List Nat)}
    (hparts : frames.mapM Frame.encode = .ok parts)
    (hfits : ∀ frame ∈ frames, frame.Fits maxEventBytes)
    (hchunks : chunks.flatten = parts.flatten) :
    ∃ decoder : TextDecoder, decoder.Finished ∧
      SseParser.feedAll maxEventBytes parseJson {} chunks =
        .ok (⟨decoder, {}⟩, frames.flatMap Frame.found) := by
  have hbom : (frames.flatMap frameText).head? ≠ some '\uFEFF' := by
    cases frames with
    | nil => exact fun h => nomatch h
    | cons frame frames =>
      obtain ⟨c, text, htext, hc⟩ := head_frameText frame
      rw [List.flatMap_cons, htext, List.cons_append, List.head?_cons]
      exact fun h => hc (Option.some.inj h)
  obtain ⟨decoder, texts, hall, htexts, hfinished⟩ :=
    TextDecoder.decodeAll_encode hbom (hchunks.trans (flatten_encoded hparts))
  refine ⟨decoder, hfinished, feedAll_ok hall ?_⟩
  rw [htexts]
  exact feedText_frames hparse hfits

end Chunks

end ChatBI.Events
