import ChatBI.Lib.Base64
import ChatBI.Lib.DateTime
import ChatBI.Report.Language
import ChatBI.Store.Rows

/-!
# The cursors of the lists

The cursor of a page of `_list`: the time and the id of its last row and the digest of its filter,
as base64 of a JSON text. A cursor is read back under its own filter, and under no other one.
-/

namespace ChatBI.Store.Listing

open ChatBI.Lib FixedDigits JsonDoc

/-- What a list is filtered by, besides its owner. -/
structure Filter where
  table : SourceKind
  kind : Option HistoryKind
  q : String
  deriving DecidableEq

def tableName : SourceKind → String
  | .history => "history_records"
  | .saved => "saved_results"

def kindName : HistoryKind → String
  | .query => "query"
  | .analysis => "analysis"

def Filter.document (f : Filter) : JsonDoc :=
  .obj [("kind", ofOption (fun kind => .str (kindName kind)) f.kind), ("q", .str f.q),
    ("table", .str (tableName f.table))]

/-- `operation_hash`, over the digest of bytes. -/
def operationHash (sha256 : List ℕ → Fin (2 ^ 256)) (v : JsonDoc) : List Char :=
  digits 16 64 (sha256 (Utf8.encode (dumps v)))

/-- `str` of a UUID. -/
def uuidText (id : Uuid) : List Char :=
  let hex := digits 16 32 id
  hex.take 8 ++ '-' :: ((hex.drop 8).take 4 ++ '-' :: ((hex.drop 12).take 4 ++
    '-' :: ((hex.drop 16).take 4 ++ '-' :: hex.drop 20)))

/-- `UUID` of a text without the prefix of a URN. -/
def uuid? (text : List Char) : Option Uuid :=
  let hex := text.filter fun c => c ≠ '-' && c ≠ '\x7b' && c ≠ '\x7d'
  if hex.length = 32 then (read 16 32 0 hex).map Prod.fst else none

/-- The members of an object of strings, with the default separators of `json.dumps`. -/
def spaced : List (String × List Char) → List Char
  | [] => []
  | [(k, v)] => dumpString k.toList ++ ':' :: ' ' :: dumpString v
  | (k, v) :: members =>
    dumpString k.toList ++ ':' :: ' ' :: (dumpString v ++ ',' :: ' ' :: spaced members)

/-- The JSON text of a cursor. Its strings are plain ASCII. -/
def cursorText (updatedAt id filter : List Char) : List Char :=
  '\x7b' :: spaced [("updated_at", updatedAt), ("id", id), ("filter", filter)] ++ ['\x7d']

def encodeCursor (updatedAt id filter : List Char) : List Char :=
  Base64.encode (Utf8.encode (cursorText updatedAt id filter))

/-- The value of a key; the last member of a name counts. -/
def member? (members : List (String × JsonDoc)) (key : String) : Option JsonDoc :=
  (members.reverse.find? fun m => m.1 = key).map Prod.snd

/-- A member that is a string. -/
def text? (members : List (String × JsonDoc)) (key : String) : Option (List Char) :=
  match member? members key with
  | some (.str s) => some s.toList
  | _ => none

def cursorKeys : List String := ["updated_at", "id", "filter"]

/-- The UTF-8 text of bytes. -/
def utf8? (bytes : List ℕ) : Option (List Char) :=
  (Utf8.Decoder.run {} bytes).bind fun r => if r.1.bytesNeeded = 0 then some r.2 else none

/-- The boundary that a cursor stands for, under the digest of a filter. -/
def decodeCursor (filter cursor : List Char) : Option (ℤ × Uuid) :=
  if 1000 < cursor.length then none
  else do
    let bytes ← Base64.decode cursor
    let text ← utf8? bytes
    let value ← JsonParser.parse Report.validJsonNumber (text.map .scalar)
    match value with
    | .obj members =>
      if (∀ m ∈ members, m.1 ∈ cursorKeys) ∧ (∀ k ∈ cursorKeys, k ∈ members.map Prod.fst) ∧
          text? members "filter" = some filter then do
        let updatedAt ← text? members "updated_at"
        let (time, offset) ← DateTime.fromisoformat updatedAt
        let offset ← offset
        let id ← text? members "id"
        let id ← uuid? id
        return (DateTime.instant ⟨time, offset⟩, id)
      else none
    | _ => none

/-! ### Plain texts -/

/-- A printable ASCII text that JSON strings hold as it is. -/
def Plain (text : List Char) : Prop :=
  ∀ c ∈ text, 0x20 ≤ c.toNat ∧ c.toNat < 0x80 ∧ c ≠ '"' ∧ c ≠ '\\'

lemma Plain.append {s t : List Char} (hs : Plain s) (ht : Plain t) : Plain (s ++ t) := by
  intro _ hc
  exact (List.mem_append.mp hc).elim (hs _) (ht _)

lemma Plain.cons {c : Char} {t : List Char}
    (hc : 0x20 ≤ c.toNat ∧ c.toNat < 0x80 ∧ c ≠ '"' ∧ c ≠ '\\') (ht : Plain t) : Plain (c :: t) := by
  intro d hd
  rcases List.mem_cons.mp hd with rfl | hd
  · exact hc
  · exact ht d hd

lemma plain_nil : Plain [] := fun _ hc => absurd hc List.not_mem_nil

lemma plain_hexDigit {n : ℕ} (h : n < 16) : 0x20 ≤ (hexDigit n).toNat ∧
    (hexDigit n).toNat < 0x80 ∧ hexDigit n ≠ '"' ∧ hexDigit n ≠ '\\' := by
  revert n
  decide

lemma plain_digits {base width n : ℕ} (hbase : base ≤ 16) (h : n < base ^ width) :
    Plain (digits base width n) := by
  induction width generalizing n with
  | zero => exact plain_nil
  | succ width ih =>
    have hpos : 0 < base ^ width := by
      apply Nat.pos_of_ne_zero
      intro hzero
      rw [pow_succ, hzero, Nat.zero_mul] at h
      exact absurd h (Nat.not_lt_zero n)
    have hdigit : n / base ^ width < base := by
      rw [Nat.div_lt_iff_lt_mul hpos, Nat.mul_comm, ← pow_succ]
      exact h
    exact .cons (plain_hexDigit (Nat.lt_of_lt_of_le hdigit hbase)) (ih (Nat.mod_lt _ hpos))

lemma plain_two {n : ℕ} (h : n < 100) : Plain (digits 10 2 n) := plain_digits (by decide) h

lemma dumpString_of_plain {text : List Char} (h : Plain text) :
    dumpString text = '"' :: text ++ ['"'] := by
  have hescape : text.flatMap escapeChar = text := by
    induction text with
    | nil => rfl
    | cons c text ih =>
      obtain ⟨hlow, -, hquote, hslash⟩ := h c List.mem_cons_self
      have hc : escapeChar c = [c] := by
        have hne : ∀ d : Char, d.toNat < 0x20 → c ≠ d := by
          rintro d hd rfl
          omega
        rw [escapeChar, if_neg hquote, if_neg hslash, if_neg (hne _ (by decide)),
          if_neg (hne _ (by decide)), if_neg (hne _ (by decide)), if_neg (hne _ (by decide)),
          if_neg (hne _ (by decide)), if_neg (not_lt.mpr hlow)]
      rw [List.flatMap_cons, hc, ih fun d hd => h d (List.mem_cons_of_mem c hd)]
      rfl
  rw [dumpString, hescape]

/-! ### The texts of a cursor -/

lemma plain_isoformat (d : DateTime) : Plain d.isoformat := by
  have hyear := d.date.hyear
  have hmonth := d.date.hmonth
  have hday := d.date.hday.2.trans Date.daysInMonth_le
  have hmicros := d.hmicros
  have hoffset := d.offset.2
  have hdate : Plain (DateTime.isoDate d.date) := by
    refine (plain_digits (by decide) (show d.date.year < 10 ^ 4 by omega)).append ?_
    refine .cons (by decide) ((plain_two (by omega)).append ?_)
    exact .cons (by decide) (plain_two (by omega))
  have hfraction : Plain (DateTime.isoFraction d.micros) := by
    unfold DateTime.isoFraction
    split
    · exact plain_nil
    · exact .cons (by decide) (plain_digits (by decide) (Nat.mod_lt _ (by decide)))
  have hclock : Plain (DateTime.isoClock d.micros) := by
    refine (plain_two (by omega)).append (.cons (by decide) ?_)
    refine (plain_two (by omega)).append (.cons (by decide) ?_)
    exact (plain_two (by omega)).append hfraction
  have hzone : Plain (DateTime.isoOffset d.offset) := by
    unfold DateTime.isoOffset
    refine .cons (by split <;> decide) ((plain_two (by omega)).append (.cons (by decide) ?_))
    refine (plain_two (by omega)).append ?_
    split
    · exact plain_nil
    · exact .cons (by decide) (plain_two (by omega))
  exact hdate.append (.cons (by decide) (hclock.append hzone))

lemma length_isoformat (d : DateTime) : d.isoformat.length ≤ 35 := by
  have hfraction : (DateTime.isoFraction d.micros).length ≤ 7 := by
    unfold DateTime.isoFraction
    split
    · exact Nat.zero_le _
    · rw [List.length_cons, length_digits]
  have hzone : (DateTime.isoOffset d.offset).length ≤ 9 := by
    unfold DateTime.isoOffset
    simp only [List.length_cons, List.length_append, length_digits]
    split
    · simp
    · simp [length_digits]
  unfold DateTime.isoformat DateTime.isoDate DateTime.isoClock
  simp only [List.length_append, List.length_cons, length_digits]
  omega

lemma hexDigit_kept {n : ℕ} (h : n < 16) :
    (hexDigit n ≠ '-' && hexDigit n ≠ '\x7b' && hexDigit n ≠ '\x7d') = true := by
  revert n
  decide

lemma filter_digits {width n : ℕ} (h : n < 16 ^ width) :
    ((digits 16 width n).filter fun c => c ≠ '-' && c ≠ '\x7b' && c ≠ '\x7d') =
      digits 16 width n := by
  induction width generalizing n with
  | zero => rfl
  | succ width ih =>
    have hdigit : n / 16 ^ width < 16 := by
      rw [Nat.div_lt_iff_lt_mul (by positivity), Nat.mul_comm, ← pow_succ]
      exact h
    rw [digits, List.filter_cons, if_pos (hexDigit_kept hdigit), ih (Nat.mod_lt _ (by positivity))]

lemma slices (hex : List Char) : hex.take 8 ++ ((hex.drop 8).take 4 ++ ((hex.drop 12).take 4 ++
    ((hex.drop 16).take 4 ++ hex.drop 20))) = hex := by
  have h₁ : hex.drop 12 = (hex.drop 8).drop 4 := by rw [List.drop_drop]
  have h₂ : hex.drop 16 = (hex.drop 12).drop 4 := by rw [List.drop_drop]
  have h₃ : hex.drop 20 = (hex.drop 16).drop 4 := by rw [List.drop_drop]
  rw [h₃, List.take_append_drop, h₂, List.take_append_drop, h₁, List.take_append_drop,
    List.take_append_drop]

/-- The text of a UUID is read back as the UUID. -/
lemma uuid?_uuidText {id : Uuid} (h : id < 2 ^ 128) : uuid? (uuidText id) = some id := by
  have hbound : id < 16 ^ 32 := h
  have hfilter : ((uuidText id).filter fun c => c ≠ '-' && c ≠ '\x7b' && c ≠ '\x7d') =
      digits 16 32 id := by
    have hhyphen : ∀ text : List Char,
        (('-' :: text).filter fun c => c ≠ '-' && c ≠ '\x7b' && c ≠ '\x7d') =
          text.filter fun c => c ≠ '-' && c ≠ '\x7b' && c ≠ '\x7d' := fun _ => rfl
    unfold uuidText
    simp only [List.filter_append, hhyphen]
    rw [← List.filter_append, ← List.filter_append, ← List.filter_append, ← List.filter_append,
      slices]
    exact filter_digits hbound
  have hread : read 16 32 0 (digits 16 32 id) = some (id, []) := by
    have hdigits := read_digits (show 16 ≤ 16 by decide) hbound 0 []
    rw [List.append_nil, Nat.mul_zero, Nat.zero_add] at hdigits
    exact hdigits
  unfold uuid?
  rw [hfilter, if_pos (length_digits 16 32 id), hread]
  rfl

lemma length_uuidText (id : Uuid) : (uuidText id).length = 36 := by
  unfold uuidText
  simp only [List.length_append, List.length_cons, List.length_take, List.length_drop,
    length_digits]
  omega

lemma plain_uuidText {id : Uuid} (h : id < 2 ^ 128) : Plain (uuidText id) := by
  have hplain : Plain (digits 16 32 id) := plain_digits (by decide) h
  have htake : ∀ n m, Plain (((digits 16 32 id).drop n).take m) := fun _ _ _ hc =>
    hplain _ (List.mem_of_mem_drop (List.mem_of_mem_take hc))
  have hlast : Plain ((digits 16 32 id).drop 20) := fun _ hc => hplain _ (List.mem_of_mem_drop hc)
  have hfirst : Plain ((digits 16 32 id).take 8) := fun _ hc => hplain _ (List.mem_of_mem_take hc)
  refine hfirst.append (.cons (by decide) ((htake 8 4).append (.cons (by decide) ?_)))
  exact (htake 12 4).append (.cons (by decide) ((htake 16 4).append (.cons (by decide) hlast)))

lemma plain_operationHash (sha256 : List ℕ → Fin (2 ^ 256)) (v : JsonDoc) :
    Plain (operationHash sha256 v) :=
  plain_digits (by decide) (sha256 (Utf8.encode (dumps v))).isLt

lemma length_operationHash (sha256 : List ℕ → Fin (2 ^ 256)) (v : JsonDoc) :
    (operationHash sha256 v).length = 64 := length_digits _ _ _

/-! ### Reading a cursor -/

section Json

open JsonGrammar

lemma members_space {l : List CodePoint} {members : List (String × JsonDoc)} {rest : List CodePoint}
    (h : Members l members rest) : Members (.scalar ' ' :: l) members rest := by
  cases h with
  | last hl hk hc hs hv hr => exact .last (.cons (.inl rfl) hl) hk hc hs hv hr
  | cons hl hk hc hs hv hr hrest => exact .cons (.cons (.inl rfl) hl) hk hc hs hv hr hrest

/-- The members with the default separators stand for the object. -/
lemma members_spaced : ∀ members : List (String × List Char), members ≠ [] → ∀ rest,
    Members ((spaced members).map .scalar ++ .scalar '\x7d' :: rest)
      (members.map fun m => (m.1, .str (String.ofList m.2))) rest
  | [(k, v)], _, rest => by
    have hv := Value.string (stringBody_dumpString v (.scalar '\x7d' :: rest))
    have hk := stringBody_dumpString k.toList
      (.scalar ':' :: .scalar ' ' :: ((dumpString v).map .scalar ++ .scalar '\x7d' :: rest))
    have hspace : Ws (.scalar ' ' :: ((dumpString v).map .scalar ++ .scalar '\x7d' :: rest))
        (.scalar '"' :: ((v.flatMap escapeChar).map .scalar ++ .scalar '"' ::
          .scalar '\x7d' :: rest)) := by
      rw [map_dumpString]
      exact .cons (.inl rfl) .nil
    have hlast := Members.last .nil hk .nil hspace hv .nil
    rw [String.ofList_toList] at hlast
    simpa [spaced, dumpString] using hlast
  | (k, v) :: n :: members, _, rest => by
    have hrest := members_spaced (n :: members) (List.cons_ne_nil n members) rest
    set more := (spaced (n :: members)).map .scalar ++ .scalar '\x7d' :: rest with hmore
    have hv := Value.string (stringBody_dumpString v (.scalar ',' :: .scalar ' ' :: more))
    have hk := stringBody_dumpString k.toList
      (.scalar ':' :: .scalar ' ' :: ((dumpString v).map .scalar ++
        .scalar ',' :: .scalar ' ' :: more))
    have hspace : Ws (.scalar ' ' :: ((dumpString v).map .scalar ++
        .scalar ',' :: .scalar ' ' :: more))
        (.scalar '"' :: ((v.flatMap escapeChar).map .scalar ++ .scalar '"' ::
          .scalar ',' :: .scalar ' ' :: more)) := by
      rw [map_dumpString]
      exact .cons (.inl rfl) .nil
    have hcons := Members.cons .nil hk .nil hspace hv .nil (members_space hrest)
    rw [String.ofList_toList] at hcons
    simpa [spaced, dumpString, hmore] using hcons

/-- The text of a cursor stands for its three members. -/
lemma parse_cursorText (updatedAt id filter : List Char) :
    JsonParser.parse Report.validJsonNumber ((cursorText updatedAt id filter).map .scalar) =
      some (.obj [("updated_at", .str (String.ofList updatedAt)), ("id", .str (String.ofList id)),
        ("filter", .str (String.ofList filter))]) := by
  rw [JsonParser.parse_eq_some_iff Report.validJsonNumber_iff]
  have hmembers := members_spaced
    [("updated_at", updatedAt), ("id", id), ("filter", filter)] (List.cons_ne_nil _ _) []
  refine ⟨_, [], .nil, ?_, .nil⟩
  have hobject := Value.object hmembers
  simpa only [cursorText, List.map_append, List.map_cons, List.map_nil, List.cons_append]
    using hobject

end Json

/-- The UTF-8 bytes of a text are read back. -/
lemma utf8?_encode (text : List Char) : utf8? (Utf8.encode text) = some text := by
  unfold utf8?
  rw [Utf8.run_encode, Option.bind_some, if_pos rfl]

lemma encode_lt (text : List Char) : ∀ b ∈ Utf8.encode text, b < 256 := by
  intro b hb
  obtain ⟨c, -, hc⟩ := List.mem_flatMap.mp hb
  have hvalid : c.toNat < 0x110000 := by
    rcases c.valid with h | h
    · exact Nat.lt_trans h (by decide)
    · exact h.2
  unfold Utf8.encodeChar at hc
  split_ifs at hc <;> simp only [List.mem_cons, List.not_mem_nil, or_false] at hc <;> omega

/-- The UTF-8 bytes of ASCII text are its characters. -/
lemma length_encode_of_ascii {text : List Char} (h : ∀ c ∈ text, c.toNat < 0x80) :
    (Utf8.encode text).length = text.length := by
  induction text with
  | nil => rfl
  | cons c text ih =>
    have hc := h c List.mem_cons_self
    have hrest := ih fun d hd => h d (List.mem_cons_of_mem c hd)
    change (Utf8.encodeChar c ++ Utf8.encode text).length = _
    rw [List.length_append, hrest, Utf8.encodeChar, if_pos hc]
    exact Nat.add_comm 1 _

section Cursor

variable {updatedAt id filter : List Char}

lemma ascii_cursorText (hupdated : Plain updatedAt) (hid : Plain id) (hfilter : Plain filter) :
    ∀ c ∈ cursorText updatedAt id filter, c.toNat < 0x80 := by
  have hquoted : ∀ {text : List Char}, Plain text → ∀ c ∈ dumpString text, c.toNat < 0x80 := by
    intro text htext
    rw [dumpString_of_plain htext]
    simp only [List.forall_mem_append, List.forall_mem_cons]
    exact ⟨⟨by decide, fun c hc => (htext c hc).2.1⟩, by decide, fun c hc => absurd hc List.not_mem_nil⟩
  unfold cursorText spaced
  simp only [spaced, List.forall_mem_append, List.forall_mem_cons]
  have hall : ∀ k ∈ cursorKeys, (dumpString k.toList).all (·.toNat < 0x80) = true := by decide
  have hkeys : ∀ k ∈ cursorKeys, ∀ c ∈ dumpString k.toList, c.toNat < 0x80 :=
    fun k hk c hc => of_decide_eq_true (List.all_eq_true.mp (hall k hk) c hc)
  have hcolon : ':'.toNat < 0x80 := by decide
  have hcomma : ','.toNat < 0x80 := by decide
  have hspace : ' '.toNat < 0x80 := by decide
  exact ⟨⟨by decide, hkeys _ (by decide), hcolon, hspace, hquoted hupdated, hcomma, hspace,
    hkeys _ (by decide), hcolon, hspace, hquoted hid, hcomma, hspace, hkeys _ (by decide), hcolon,
    hspace, hquoted hfilter⟩, by decide, fun _ hc => absurd hc List.not_mem_nil⟩

lemma length_cursorText (hupdated : Plain updatedAt) (hid : Plain id) (hfilter : Plain filter) :
    (cursorText updatedAt id filter).length = updatedAt.length + id.length + filter.length + 42 := by
  have hfirst : (dumpString "updated_at".toList).length = 12 := by decide
  have hsecond : (dumpString "id".toList).length = 4 := by decide
  have hthird : (dumpString "filter".toList).length = 8 := by decide
  unfold cursorText
  simp only [spaced, dumpString_of_plain hupdated, dumpString_of_plain hid,
    dumpString_of_plain hfilter, List.length_append, List.length_cons, List.length_nil]
  omega

/-- A cursor is read back under its own filter alone. -/
theorem decodeCursor_encodeCursor (d : DateTime) {id : Uuid} (hid : id < 2 ^ 128)
    {hash hash' : List Char} (hplain : Plain hash) (hlength : hash.length = 64) :
    decodeCursor hash' (encodeCursor d.isoformat (uuidText id) hash) =
      if hash = hash' then some (d.instant, id) else none := by
  have hupdated := plain_isoformat d
  have huuid := plain_uuidText hid
  have hshort : ¬1000 < (encodeCursor d.isoformat (uuidText id) hash).length := by
    have hiso := length_isoformat d
    unfold encodeCursor
    rw [Base64.length_encode, length_encode_of_ascii (ascii_cursorText hupdated huuid hplain),
      length_cursorText hupdated huuid hplain, length_uuidText, hlength]
    omega
  have hbytes : Base64.decode (encodeCursor d.isoformat (uuidText id) hash) =
      some (Utf8.encode (cursorText d.isoformat (uuidText id) hash)) :=
    Base64.decode_encode (encode_lt _)
  set members : List (String × JsonDoc) := [("updated_at", .str (String.ofList d.isoformat)),
    ("id", .str (String.ofList (uuidText id))), ("filter", .str (String.ofList hash))] with hmembers
  have htime : text? members "updated_at" = some d.isoformat :=
    congrArg some (String.toList_ofList (l := d.isoformat))
  have hidText : text? members "id" = some (uuidText id) :=
    congrArg some (String.toList_ofList (l := uuidText id))
  have hfilter : text? members "filter" = some hash :=
    congrArg some (String.toList_ofList (l := hash))
  have hkeys : (∀ m ∈ members, m.1 ∈ cursorKeys) ∧ ∀ k ∈ cursorKeys, k ∈ members.map Prod.fst := by
    constructor
    · simp [hmembers, cursorKeys]
    · simp [hmembers, cursorKeys]
  unfold decodeCursor
  rw [if_neg hshort, hbytes]
  simp only [Option.bind_eq_bind, Option.bind_some, utf8?_encode, parse_cursorText]
  rw [← hmembers]
  by_cases hsame : hash = hash'
  · rw [if_pos ⟨hkeys.1, hkeys.2, hsame ▸ hfilter⟩, if_pos hsame, htime, hidText]
    simp only [Option.bind_some, DateTime.fromisoformat_isoformat, uuid?_uuidText hid,
      Option.pure_def]
  · rw [if_neg fun h => hsame (Option.some.inj (hfilter.symm.trans h.2.2)), if_neg hsame]

end Cursor

/-- Documents of the same text are the same. -/
lemma dumps_injective {v w : JsonDoc} (hv : v.WellFormed) (hw : w.WellFormed)
    (h : dumps v = dumps w) : v = w := by
  have hparse := fun {u : JsonDoc} (hu : u.WellFormed) =>
    (JsonParser.parse_eq_some_iff Report.validJsonNumber_iff).mpr (document_dumps hu)
  have hboth := hparse hv
  rw [h, hparse hw] at hboth
  exact (Option.some.inj hboth).symm

lemma wellFormed_document (f : Filter) : f.document.WellFormed := by
  refine .obj fun m hm => ?_
  simp only [List.mem_cons, List.not_mem_nil, or_false] at hm
  rcases hm with rfl | rfl | rfl
  · cases f.kind with
    | none => exact .null
    | some kind => exact .str
  · exact .str
  · exact .str

/-- Two filters of the same text are the same. -/
lemma document_injective {f g : Filter} (h : dumps f.document = dumps g.document) : f = g := by
  have hdoc := dumps_injective (wellFormed_document f) (wellFormed_document g) h
  obtain ⟨table, kind, q⟩ := f
  obtain ⟨table', kind', q'⟩ := g
  simp only [Filter.document, JsonDoc.obj.injEq, List.cons.injEq, Prod.mk.injEq, true_and, and_true,
    JsonDoc.str.injEq] at hdoc
  obtain ⟨hkind, rfl, htable⟩ := hdoc
  have htables : table = table' := by
    cases table <;> cases table' <;> first | rfl | exact absurd htable (by decide)
  have hkinds : kind = kind' := by
    cases kind with
    | none =>
      cases kind' with
      | none => rfl
      | some kind' => cases hkind
    | some kind =>
      cases kind' with
      | none => cases hkind
      | some kind' =>
        have hname : kindName kind = kindName kind' := JsonDoc.str.inj hkind
        cases kind <;> cases kind' <;> first | rfl | exact absurd hname (by decide)
  rw [htables, hkinds]

/-- The digests of two filters differ, unless their bytes collide. -/
lemma operationHash_injective {sha256 : List ℕ → Fin (2 ^ 256)} {f g : Filter}
    (hcollision : sha256 (Utf8.encode (dumps f.document)) = sha256 (Utf8.encode (dumps g.document)) →
      dumps f.document = dumps g.document)
    (h : operationHash sha256 f.document = operationHash sha256 g.document) : f = g := by
  have hdigest := digits_injective (by decide) (Fin.isLt _) (Fin.isLt _) h
  exact document_injective (hcollision (Fin.ext hdigest))

end ChatBI.Store.Listing
