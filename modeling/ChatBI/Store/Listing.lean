import ChatBI.Lib.Keyset
import ChatBI.Store.Cursor
import ChatBI.Store.History
import Mathlib.Data.Prod.Lex

/-!
# The lists of histories, saved results and turns

`_list` and `turns`, page by page. Following the cursors delivers all rows of a filter, once and in
their order.
-/

namespace ChatBI.Store.Listing

open ChatBI.Lib ChatBI.Lib.Keyset

/-- What is outside of the store: the digest, the time zone of the connection and `ILIKE` on texts
that the driver sends. -/
structure Session where
  sha256 : List ℕ → Fin (2 ^ 256)
  zone : Timestamp → Offset
  iLike : String → String → Bool

/-- The texts of two filters have no common digest. -/
def Session.Distinguishes (session : Session) (f g : Filter) : Prop :=
  session.sha256 (Utf8.encode (JsonDoc.dumps f.document)) =
    session.sha256 (Utf8.encode (JsonDoc.dumps g.document)) →
    JsonDoc.dumps f.document = JsonDoc.dumps g.document

/-- The microsecond by which a column and a boundary are compared. The first day of year 1 is that
of the timestamp 0. -/
def instant (t : Timestamp) : ℤ := (t : ℤ) + 86400000000

lemma instant_lt_iff {s t : ℕ} : instant s < instant t ↔ s < t := by
  unfold instant
  omega

lemma instant_inj {s t : ℕ} : instant s = instant t ↔ s = t := by
  unfold instant
  omega

/-- The aware `datetime` of a column, none outside of the calendar. -/
def Session.datetime (session : Session) (t : Timestamp) : Option DateTime :=
  let micros := (t : ℤ) + (session.zone t).val * 1000000
  if h : 0 ≤ micros ∧ micros.toNat < Date.maxOrdinal * 86400000000 then
    some ⟨DateTime.ofMicros micros.toNat h.2, session.zone t⟩
  else none

/-- The columns of a table, and its header. -/
structure Columns (ρ η : Type) where
  table : SourceKind
  id : ρ → Uuid
  ownerUserId : ρ → Owner
  kind : ρ → HistoryKind
  title : ρ → String
  updatedAt : ρ → Timestamp
  live : ρ → Bool
  header : ρ → η

def historyRecords : Columns HistoryRow HistoryHeader where
  table := .history
  id := HistoryRow.id
  ownerUserId := HistoryRow.ownerUserId
  kind := HistoryRow.kind
  title := HistoryRow.title
  updatedAt := HistoryRow.updatedAt
  live := fun row => row.deletedAt = none
  header := header

def savedResults : Columns SavedResultRow SavedResultHeader where
  table := .saved
  id := SavedResultRow.id
  ownerUserId := SavedResultRow.ownerUserId
  kind := SavedResultRow.kind
  title := SavedResultRow.title
  updatedAt := SavedResultRow.updatedAt
  live := fun _ => true
  header := savedHeader

/-- `str.replace` of one character. -/
def replaceChar (c : Char) (new : List Char) (text : List Char) : List Char :=
  text.flatMap fun d => if d = c then new else [d]

/-- The pattern of a literal search. -/
def searchPattern (q : String) : String :=
  String.ofList ('%' :: replaceChar '_' ['\\', '_'] (replaceChar '%' ['\\', '%']
    (replaceChar '\\' ['\\', '\\'] q.toList)) ++ ['%'])

/-- No text value of the database holds a NUL, so the driver refuses it as a parameter. -/
def hasNul (text : String) : Bool := text.toList.any fun c => c.toNat = 0

def invalidCursor : HistoryError :=
  { code := .invalidRequest, message := "分页游标非法，请重新加载列表" }

section List

variable {ρ η : Type} (session : Session) (columns : Columns ρ η)

/-- The clauses of a filter. -/
def selects (owner : Owner) (f : Filter) (row : ρ) : Bool :=
  columns.ownerUserId row = owner && columns.live row &&
    f.kind.all (fun kind => columns.kind row = kind) &&
    (f.q = "" || session.iLike (columns.title row) (searchPattern f.q))

/-- `(updated_at, id)`, in descending order. -/
def listKey (row : ρ) : (ℤ ×ₗ Uuid)ᵒᵈ :=
  .toDual (toLex (instant (columns.updatedAt row), columns.id row))

/-- The cursor that a page gets, behind its last row. -/
def nextCursor (hash : List Char) (last : ρ) : Option (List Char) :=
  (session.datetime (columns.updatedAt last)).map fun time =>
    encodeCursor time.isoformat (uuidText (columns.id last)) hash

/-- The rows of `ORDER BY updated_at DESC, id DESC LIMIT :limit`. -/
def selectPage (rows : List ρ) (owner : Owner) (f : Filter) (boundary : Option (ℤ × Uuid))
    (limit : ℕ) : List ρ :=
  (ordered (listKey columns) (rows.filter fun row => selects session columns owner f row &&
    boundary.all fun b => isBehind (listKey columns) (.toDual (toLex b)) row)).take limit

/-- The boundary of a cursor, under the digest of the filter. -/
def boundaryOf (hash : List Char) : Option (List Char) → Except Raised (Option (ℤ × Uuid))
  | none => .ok none
  | some cursor =>
    match decodeCursor hash cursor with
    | none => .error (.history invalidCursor)
    | some boundary => .ok (some boundary)

/-- `_list`. The search text is sent with the query only, after the cursor has been read. -/
def list (rows : List ρ) (owner : Owner) (kind : Option HistoryKind) (limit : ℕ)
    (cursor : Option (List Char)) (q : String) : Except Raised (List η × Option (List Char)) := do
  let f : Filter := { table := columns.table, kind, q }
  let hash := operationHash session.sha256 f.document
  let boundary ← boundaryOf hash cursor
  if hasNul q then throw (.history storageUnavailable)
  let selected := selectPage session columns rows owner f boundary (limit + 1)
  let items := selected.take limit
  if limit < selected.length then
    match items.getLast? with
    | none => .error .unexpected
    | some last =>
      match nextCursor session columns hash last with
      | none => .error (.history storageUnavailable)
      | some cursor => .ok (items.map columns.header, some cursor)
  else .ok (items.map columns.header, none)

end List

/-- A time that a `datetime` holds in every zone. -/
def InCalendar (t : ℕ) : Prop :=
  86400000000 ≤ t ∧ t + 86400000000 < Date.maxOrdinal * 86400000000

/-- The rows of a table, with the types and the key of its columns. -/
structure Stored {ρ η : Type} (columns : Columns ρ η) where
  rows : List ρ
  key : (rows.map columns.id).Nodup
  uuid : ∀ row ∈ rows, columns.id row < 2 ^ 128
  time : ∀ row ∈ rows, InCalendar (columns.updatedAt row)

/-- The time of a column is the same in every zone. -/
lemma Session.datetime_eq (session : Session) {t : ℕ} (h : InCalendar t) :
    ∃ d, session.datetime t = some d ∧ d.instant = instant t := by
  obtain ⟨hlow, hhigh⟩ := h
  have hoffset := (session.zone t).2
  have hrange : 0 ≤ (t : ℤ) + (session.zone t).val * 1000000 ∧
      ((t : ℤ) + (session.zone t).val * 1000000).toNat < Date.maxOrdinal * 86400000000 := by
    omega
  refine ⟨_, dif_pos hrange, ?_⟩
  have hordinal := Date.toordinal_ofNumber ⟨Nat.le_add_left 1 _, DateTime.ofMicros_le hrange.2⟩
  unfold DateTime.instant DateTime.ofMicros instant
  dsimp only
  rw [hordinal]
  omega

section Complete

variable {ρ η : Type} (session : Session) {columns : Columns ρ η} (stored : Stored columns)

lemma pairwise_listKey : stored.rows.Pairwise fun a b => listKey columns a ≠ listKey columns b := by
  have hkey : stored.rows.Pairwise fun a b => columns.id a ≠ columns.id b :=
    List.pairwise_map.mp stored.key
  apply hkey.imp
  intro a b hne hsame
  exact hne (congrArg (fun k => (ofLex (OrderDual.ofDual k)).2) hsame)

/-- The cursor of a row is read back as the key of the row. -/
lemma nextCursor_eq (f : Filter) {row : ρ} (hrow : row ∈ stored.rows) :
    ∃ cursor, nextCursor session columns (operationHash session.sha256 f.document) row =
        some cursor ∧ ∀ hash, decodeCursor hash cursor =
          if operationHash session.sha256 f.document = hash then
            some (instant (columns.updatedAt row), columns.id row) else none := by
  obtain ⟨d, hd, hinstant⟩ := session.datetime_eq (stored.time row hrow)
  refine ⟨_, by rw [nextCursor, hd]; rfl, fun hash => ?_⟩
  rw [decodeCursor_encodeCursor d (stored.uuid row hrow) (plain_operationHash _ _)
    (length_operationHash _ _), hinstant]

/-- A page of a readable boundary holds the first of the rows behind it. -/
lemma list_eq_page (owner : Owner) (kind : Option HistoryKind) {q : String}
    (hq : hasNul q = false) {limit : ℕ} (hlimit : 1 ≤ limit) (cursor : Option (List Char))
    (boundary : Option (ℤ × Uuid))
    (hcursor : match cursor with
      | none => boundary = none
      | some cursor => ∃ b, boundary = some b ∧ decodeCursor (operationHash session.sha256
          (Filter.document { table := columns.table, kind, q })) cursor = some b) :
    list session columns stored.rows owner kind limit cursor q =
      .ok (page limit columns.header
        (fun row => (nextCursor session columns (operationHash session.sha256
          (Filter.document { table := columns.table, kind, q })) row).getD [])
        (ordered (listKey columns) (stored.rows.filter fun row =>
          selects session columns owner { table := columns.table, kind, q } row &&
            boundary.all fun b => isBehind (listKey columns) (.toDual (toLex b)) row))) := by
  set f : Filter := { table := columns.table, kind, q } with hf
  set hash := operationHash session.sha256 f.document with hhash
  set left := ordered (listKey columns) (stored.rows.filter fun row =>
    selects session columns owner f row &&
      boundary.all fun b => isBehind (listKey columns) (.toDual (toLex b)) row) with hleft
  have hread : list session columns stored.rows owner kind limit cursor q =
      (if limit < (left.take (limit + 1)).length then
        match ((left.take (limit + 1)).take limit).getLast? with
        | none => .error .unexpected
        | some last =>
          match nextCursor session columns hash last with
          | none => .error (.history storageUnavailable)
          | some cursor => .ok (((left.take (limit + 1)).take limit).map columns.header, some cursor)
      else .ok (((left.take (limit + 1)).take limit).map columns.header, none)) := by
    cases cursor with
    | none =>
      subst hcursor
      unfold list boundaryOf
      rw [hq]
      rfl
    | some cursor =>
      obtain ⟨b, rfl, hdecode⟩ := hcursor
      unfold list boundaryOf
      dsimp only
      rw [hdecode, hq]
      rfl
  have hitems : (left.take (limit + 1)).take limit = left.take limit := by
    rw [List.take_take, min_eq_left (Nat.le_succ limit)]
  rw [hread, hitems, List.length_take, page]
  by_cases hmore : limit < left.length
  · rw [if_pos (by omega), if_pos hmore]
    have hne : left.take limit ≠ [] := by
      intro hnil
      have hzero := congrArg List.length hnil
      rw [List.length_take, List.length_nil] at hzero
      omega
    have hlast : (left.take limit).getLast hne ∈ stored.rows := by
      have hin := List.mem_of_mem_take (List.getLast_mem hne)
      exact (List.mem_filter.mp ((ordered_perm _).mem_iff.mp hin)).1
    obtain ⟨next, hnext, -⟩ := nextCursor_eq session stored f hlast
    rw [List.getLast?_eq_some_getLast hne]
    dsimp only
    rw [hnext, Option.map_some, hnext]
    rfl
  · rw [if_neg (by omega), if_neg hmore]

/-- The pages of a filter deliver its rows, once and in their order. -/
theorem list_complete (owner : Owner) (kind : Option HistoryKind) {q : String}
    (hq : hasNul q = false) {limit : ℕ} (hlimit : 1 ≤ limit) :
    ∃ rows : List ρ, Followed (fun cursor => list session columns stored.rows owner kind limit
        cursor q) none (rows.map columns.header) ∧
      rows.Pairwise (fun a b => toLex (columns.updatedAt b, columns.id b) <
        toLex (columns.updatedAt a, columns.id a)) ∧
      ∀ row, row ∈ rows ↔ row ∈ stored.rows ∧
        selects session columns owner { table := columns.table, kind, q } row = true := by
  set f : Filter := { table := columns.table, kind, q } with hf
  have hdistinct := (pairwise_listKey stored).filter (selects session columns owner f)
  have hascending := ascending_ordered hdistinct
  set fetch := fun cursor => list session columns stored.rows owner kind limit cursor q
  set rows := ordered (listKey columns) (stored.rows.filter (selects session columns owner f))
    with hrows
  set cursorOf := fun row => (nextCursor session columns
    (operationHash session.sha256 f.document) row).getD []
  have hmem : ∀ row, row ∈ rows ↔
      row ∈ stored.rows ∧ selects session columns owner f row = true := by
    intro row
    rw [(ordered_perm _).mem_iff, List.mem_filter]
  have hfirst : fetch none = .ok (page limit columns.header cursorOf rows) := by
    have hpage := list_eq_page session stored owner kind hq hlimit none none rfl
    simpa only [Option.all_none, Bool.and_true] using hpage
  refine ⟨rows, followed hascending hlimit hfirst fun x hx => ?_, ?_, hmem⟩
  · obtain ⟨cursor, hcursor, hdecode⟩ := nextCursor_eq session stored f ((hmem x).mp hx).1
    have hback := hdecode (operationHash session.sha256 f.document)
    rw [if_pos rfl] at hback
    have hpage := list_eq_page session stored owner kind hq hlimit (some cursor) _ ⟨_, rfl, hback⟩
    have hx' : cursorOf x = cursor := congrArg (Option.getD · []) hcursor
    have hswap : ∀ row ∈ stored.rows, (selects session columns owner f row &&
        Option.all (fun b => isBehind (listKey columns) (.toDual (toLex b)) row)
          (some (instant (columns.updatedAt x), columns.id x))) =
        (isBehind (listKey columns) (listKey columns x) row &&
          selects session columns owner f row) := by
      intro row _
      have hkey : listKey columns x =
          .toDual (toLex (instant (columns.updatedAt x), columns.id x)) := rfl
      rw [Option.all_some, hkey, Bool.and_comm]
    rw [List.filter_congr hswap, ← List.filter_filter, ordered_filter hdistinct] at hpage
    rw [hx']
    exact hpage
  apply hascending.imp
  intro a b hab
  have hlt : toLex (instant (columns.updatedAt b), columns.id b) <
      toLex (instant (columns.updatedAt a), columns.id a) := hab
  rw [Prod.Lex.toLex_lt_toLex] at hlt ⊢
  rw [instant_lt_iff, instant_inj] at hlt
  exact hlt

/-- The cursor of a page is that of one of the rows. -/
lemma list_cursor {owner : Owner} {kind : Option HistoryKind} {limit : ℕ}
    {start : Option (List Char)} {q : String} {items : List η} {cursor : List Char}
    (h : list session columns stored.rows owner kind limit start q = .ok (items, some cursor)) :
    ∃ last ∈ stored.rows, nextCursor session columns (operationHash session.sha256
      (Filter.document { table := columns.table, kind, q })) last = some cursor := by
  unfold list at h
  obtain ⟨boundary, -, hpage⟩ := except_bind_ok.mp h
  dsimp only at hpage
  split at hpage
  · cases hpage
  split at hpage
  · split at hpage
    · cases hpage
    next last hgetLast =>
    split at hpage
    · cases hpage
    next cursor hnext =>
    cases hpage
    have hin := List.mem_of_mem_take (List.mem_of_mem_take (List.mem_of_getLast? hgetLast))
    exact ⟨last, (List.mem_filter.mp ((ordered_perm _).mem_iff.mp hin)).1, hnext⟩
  · cases hpage

/-- A cursor that was issued under a filter is rejected under another one. -/
theorem list_rejects {η' ρ' : Type} (columns' : Columns ρ' η') (rows' : List ρ')
    {owner owner' : Owner} {kind kind' : Option HistoryKind} {limit limit' : ℕ}
    {start : Option (List Char)} {q q' : String} {items : List η} {cursor : List Char}
    (h : list session columns stored.rows owner kind limit start q = .ok (items, some cursor))
    (hother : ({ table := columns.table, kind, q } : Filter) ≠ ⟨columns'.table, kind', q'⟩)
    (hcollision : session.Distinguishes ⟨columns.table, kind, q⟩ ⟨columns'.table, kind', q'⟩) :
    list session columns' rows' owner' kind' limit' (some cursor) q' =
      .error (.history invalidCursor) := by
  obtain ⟨last, hlast, hissued⟩ := list_cursor session stored h
  obtain ⟨cursor', hcursor, hdecode⟩ := nextCursor_eq session stored
    { table := columns.table, kind, q } hlast
  rw [hissued] at hcursor
  cases hcursor
  have hforeign := hdecode (operationHash session.sha256
    (Filter.document ⟨columns'.table, kind', q'⟩))
  rw [if_neg fun hsame => hother (operationHash_injective hcollision hsame)] at hforeign
  unfold list boundaryOf
  dsimp only
  rw [hforeign]
  rfl

end Complete

/-! ### Turns -/

/-- The `LEFT JOIN` of the turns with their executions. -/
def joined (db : Db) : List (TurnRow × Option Uuid) :=
  db.turns.rows.flatMap fun t =>
    match db.executions.select fun e => e.historyId = t.historyId && e.turnId = t.id with
    | [] => [(t, none)]
    | executions => executions.map fun e => (t, some e.id)

/-- `_turn` of a row without its snapshot. -/
def turnSummary (row : TurnRow × Option Uuid) : HistoryTurn :=
  { turn row.1 row.2 with snapshot := none }

/-- The rows of the query of `turns`, before the limit. -/
def turnsBehind (db : Db) (historyId : Uuid) (cursor : ℕ) : List (TurnRow × Option Uuid) :=
  ordered (fun row : TurnRow × Option Uuid => row.1.ordinal)
    ((joined db).filter fun row => row.1.historyId = historyId &&
      isBehind (fun row : TurnRow × Option Uuid => row.1.ordinal) cursor row)

/-- `turns`. -/
def turns (owner : Owner) (historyId : Uuid) (limit cursor : ℕ) :
    Tx (List HistoryTurn × Option ℕ) := do
  let _ ← owned owner historyId
  let rows ← Tx.read fun db => (turnsBehind db historyId cursor).take (limit + 1)
  let items := (rows.take limit).map turnSummary
  if limit < rows.length then
    match rows[limit - 1]? with
    | none => Tx.lift (.error .unexpected)
    | some row => return (items, some row.1.ordinal)
  else return (items, none)

/-- The constraints of the tables of turns and executions. -/
structure Constraints (db : Db) : Prop where
  turn_ordinal : db.turns.UniqueOn fun t => (t.historyId, t.ordinal)
  ordinal_pos : ∀ t ∈ db.turns, 0 < t.ordinal
  execution_turn : db.executions.UniqueOn fun e => (e.historyId, e.turnId)

/-- The execution of a turn, where it has one. -/
def executionOf (db : Db) (t : TurnRow) : Option Uuid :=
  (db.executions.first fun e => e.historyId = t.historyId && e.turnId = t.id).map ExecutionRow.id

section Turns

variable {db : Db}

/-- A turn is joined with one execution at most. -/
lemma Constraints.joined_eq (C : Constraints db) :
    joined db = db.turns.rows.map fun t => (t, executionOf db t) := by
  unfold joined
  rw [← List.flatMap_singleton' (db.turns.rows.map fun t => (t, executionOf db t)),
    List.flatMap_map]
  apply List.flatMap_congr
  intro t _
  have hnodup : (db.executions.select fun e =>
      e.historyId = t.historyId && e.turnId = t.id).Nodup := db.executions.nodup.of_map.filter _
  have hhead : executionOf db t = (db.executions.select fun e =>
      e.historyId = t.historyId && e.turnId = t.id).head?.map ExecutionRow.id := by
    rw [executionOf, Table.first, Table.select, List.head?_filter]
  have hone : ∀ e ∈ db.executions.select (fun e => e.historyId = t.historyId && e.turnId = t.id),
      ∀ e' ∈ db.executions.select (fun e => e.historyId = t.historyId && e.turnId = t.id),
        e = e' := by
    intro e he e' he'
    simp only [Table.mem_select, Bool.and_eq_true, decide_eq_true_eq] at he he'
    exact C.execution_turn e he.1 e' he'.1 (Prod.ext (he.2.1.trans he'.2.1.symm)
      (he.2.2.trans he'.2.2.symm))
  rw [hhead]
  cases hselect : db.executions.select fun e => e.historyId = t.historyId && e.turnId = t.id with
  | nil => rfl
  | cons e rest =>
    cases rest with
    | nil => rfl
    | cons e' rest =>
      rw [hselect] at hnodup hone
      have hsame := hone e List.mem_cons_self e' (List.mem_cons_of_mem _ List.mem_cons_self)
      exact absurd (hsame ▸ List.mem_cons_self) (List.nodup_cons.mp hnodup).1

/-- A page of the turns of an owned history. -/
lemma turns_eq_page {h : HistoryRow} (hh : h ∈ db.histories) (hlive : h.deletedAt = none)
    {limit : ℕ} (hlimit : 1 ≤ limit) (cursor : ℕ) :
    turns h.ownerUserId h.id limit cursor db = .ok
      (page limit turnSummary (fun row => row.1.ordinal) (turnsBehind db h.id cursor), db) := by
  have howned : owned h.ownerUserId h.id db = .ok (h, db) := by
    have hfirst : db.histories.first (fun x =>
        x.id = h.id && x.ownerUserId = h.ownerUserId && x.deletedAt = none) = some h := by
      rw [Table.first_eq_some_iff]
      · exact ⟨hh, by simp [hlive]⟩
      · intro r _ s _ hr hs
        simp only [Bool.and_eq_true, decide_eq_true_eq] at hr hs
        exact hr.1.1.trans hs.1.1.symm
    simp only [owned, Tx.bind_ok, Tx.read_ok, Tx.orRaise_ok]
    exact ⟨_, _, rfl, h, hfirst, rfl⟩
  set left := turnsBehind db h.id cursor with hleft
  have hitems : (left.take (limit + 1)).take limit = left.take limit := by
    rw [List.take_take, min_eq_left (Nat.le_succ limit)]
  unfold turns
  rw [Tx.bind_ok]
  refine ⟨h, db, howned, ?_⟩
  rw [Tx.read_bind_ok]
  rw [← hleft, hitems, List.length_take, page]
  by_cases hmore : limit < left.length
  · have hlast : (left.take (limit + 1))[limit - 1]? = (left.take limit).getLast? := by
      rw [List.getLast?_eq_getElem?, List.length_take, min_eq_left hmore.le,
        List.getElem?_take_of_lt (by omega), List.getElem?_take_of_lt (by omega)]
    have hne : left.take limit ≠ [] := by
      intro hnil
      have hzero := congrArg List.length hnil
      rw [List.length_take, List.length_nil] at hzero
      omega
    rw [if_pos (by omega), if_pos hmore, hlast, List.getLast?_eq_some_getLast hne]
    rfl
  · rw [if_neg (by omega), if_neg hmore]
    rfl

/-- The pages of an owned history deliver its turns, once and by ordinal. -/
theorem turns_complete (C : Constraints db) {h : HistoryRow} (hh : h ∈ db.histories)
    (hlive : h.deletedAt = none) {limit : ℕ} (hlimit : 1 ≤ limit) :
    ∃ rows : List TurnRow, Followed (fun cursor =>
        (turns h.ownerUserId h.id limit (cursor.getD 0) db).map Prod.fst) none
        (rows.map fun t => turnSummary (t, executionOf db t)) ∧
      rows.Pairwise (fun s t => s.ordinal < t.ordinal) ∧
      ∀ t, t ∈ rows ↔ t ∈ db.turns ∧ t.historyId = h.id := by
  set ordinalOf := fun row : TurnRow × Option Uuid => row.1.ordinal with hordinal
  set owned := (joined db).filter fun row => row.1.historyId = h.id with howned
  have hmem : ∀ row, row ∈ owned ↔ row.1 ∈ db.turns ∧ row.1.historyId = h.id ∧
      row.2 = executionOf db row.1 := by
    intro row
    rw [howned, List.mem_filter, C.joined_eq, List.mem_map, decide_eq_true_eq]
    constructor
    · rintro ⟨⟨t, ht, rfl⟩, hid⟩
      exact ⟨ht, hid, rfl⟩
    · rintro ⟨ht, hid, hexec⟩
      exact ⟨⟨row.1, ht, Prod.ext rfl hexec.symm⟩, hid⟩
  have hdistinct : owned.Pairwise fun a b => ordinalOf a ≠ ordinalOf b := by
    have hnodup : owned.Nodup := by
      rw [howned, C.joined_eq]
      apply List.Nodup.filter
      exact db.turns.nodup.of_map.map fun _ _ hab => congrArg Prod.fst hab
    apply hnodup.imp_of_mem
    intro a b ha hb hne hsame
    obtain ⟨ha, haid, haexec⟩ := (hmem a).mp ha
    obtain ⟨hb, hbid, hbexec⟩ := (hmem b).mp hb
    have hrow := C.turn_ordinal a.1 ha b.1 hb (Prod.ext (haid.trans hbid.symm) hsame)
    exact hne (Prod.ext hrow (by rw [haexec, hbexec, hrow]))
  have hbehind : ∀ cursor, turnsBehind db h.id cursor =
      (ordered ordinalOf owned).filter (isBehind ordinalOf cursor) := by
    intro cursor
    rw [← ordered_filter hdistinct, howned, List.filter_filter]
    unfold turnsBehind
    congr 1
    apply List.filter_congr
    intro row _
    exact Bool.and_comm _ _
  have hascending := ascending_ordered hdistinct
  have hin : ∀ row, row ∈ ordered ordinalOf owned ↔ row ∈ owned :=
    fun row => (ordered_perm _).mem_iff
  have hall : (ordered ordinalOf owned).filter (isBehind ordinalOf 0) = ordered ordinalOf owned := by
    apply List.filter_eq_self.mpr
    intro row hrow
    exact decide_eq_true (C.ordinal_pos row.1 ((hmem row).mp ((hin row).mp hrow)).1)
  have hfetch : ∀ cursor, (turns h.ownerUserId h.id limit cursor db).map Prod.fst =
      .ok (page limit turnSummary ordinalOf
        ((ordered ordinalOf owned).filter (isBehind ordinalOf cursor))) := by
    intro cursor
    rw [turns_eq_page hh hlive hlimit, hbehind]
    rfl
  have hfollowed : Followed (fun cursor =>
      (turns h.ownerUserId h.id limit (cursor.getD 0) db).map Prod.fst) none
      ((ordered ordinalOf owned).map turnSummary) := by
    apply followed hascending hlimit
    · have hpage := hfetch 0
      rw [hall] at hpage
      exact hpage
    · exact fun x _ => hfetch (ordinalOf x)
  refine ⟨(ordered ordinalOf owned).map Prod.fst, ?_, List.pairwise_map.mpr hascending, ?_⟩
  · rw [List.map_map]
    have hitems : (ordered ordinalOf owned).map turnSummary = (ordered ordinalOf owned).map
        ((fun t => turnSummary (t, executionOf db t)) ∘ Prod.fst) := by
      apply List.map_congr_left
      intro row hrow
      have hexec := ((hmem row).mp ((hin row).mp hrow)).2.2
      exact congrArg turnSummary (Prod.ext rfl hexec)
    rw [← hitems]
    exact hfollowed
  · intro t
    rw [List.mem_map]
    constructor
    · rintro ⟨row, hrow, rfl⟩
      obtain ⟨ht, hid, -⟩ := (hmem row).mp ((hin row).mp hrow)
      exact ⟨ht, hid⟩
    · rintro ⟨ht, hid⟩
      exact ⟨(t, executionOf db t), (hin _).mpr ((hmem _).mpr ⟨ht, hid, rfl⟩), rfl⟩

end Turns

/-- A search text with a NUL, which the route lets through: the first page fails on an empty
table. -/
theorem nul_search_unlisted :
    let session : Session := ⟨fun bytes => Fin.ofNat _ bytes.length, fun _ => ⟨0, by decide⟩,
      fun _ _ => false⟩
    list session historyRecords [] 1 none 1 none "a\x00" =
        .error (.history storageUnavailable) ∧
      ¬ ∃ listed : List HistoryHeader, Followed (fun cursor =>
        list session historyRecords [] 1 none 1 cursor "a\x00") none listed := by
  intro session
  have hfails : list session historyRecords [] 1 none 1 none "a\x00" =
      .error (.history storageUnavailable) := rfl
  refine ⟨hfails, ?_⟩
  rintro ⟨listed, hfollowed⟩
  cases hfollowed with
  | last h => cases hfails.symm.trans h
  | next h _ => cases hfails.symm.trans h

/-- Histories, saved results and turns are listed completely by their cursors, under every search
text without a NUL, and a cursor is good for its own filter only. -/
theorem pagination_complete {ρ η : Type} (session : Session) {columns : Columns ρ η}
    (stored : Stored columns) {db : Db} (C : Constraints db) {limit : ℕ} (hlimit : 1 ≤ limit) :
    (∀ owner kind q, hasNul q = false → ∃ rows : List ρ,
      Followed (fun cursor => list session columns stored.rows owner kind limit cursor q) none
        (rows.map columns.header) ∧
      rows.Pairwise (fun a b => toLex (columns.updatedAt b, columns.id b) <
        toLex (columns.updatedAt a, columns.id a)) ∧
      ∀ row, row ∈ rows ↔ row ∈ stored.rows ∧
        selects session columns owner { table := columns.table, kind, q } row = true) ∧
    (∀ h ∈ db.histories, h.deletedAt = none → ∃ rows : List TurnRow,
      Followed (fun cursor => (turns h.ownerUserId h.id limit (cursor.getD 0) db).map Prod.fst) none
        (rows.map fun t => turnSummary (t, executionOf db t)) ∧
      rows.Pairwise (fun s t => s.ordinal < t.ordinal) ∧
      ∀ t, t ∈ rows ↔ t ∈ db.turns ∧ t.historyId = h.id) ∧
    ∀ {ρ' η' : Type} (columns' : Columns ρ' η') (rows' : List ρ') owner owner' kind kind' limit'
      start q q' items cursor,
      list session columns stored.rows owner kind limit start q = .ok (items, some cursor) →
      (⟨columns.table, kind, q⟩ : Filter) ≠ ⟨columns'.table, kind', q'⟩ →
      session.Distinguishes ⟨columns.table, kind, q⟩ ⟨columns'.table, kind', q'⟩ →
      list session columns' rows' owner' kind' limit' (some cursor) q' =
        .error (.history invalidCursor) := by
  refine ⟨?_, ?_, ?_⟩
  · exact fun owner kind q hq => list_complete session stored owner kind hq hlimit
  · exact fun h hh hlive => turns_complete C hh hlive hlimit
  · intro ρ' η' columns' rows' owner owner' kind kind' limit' start q q' items cursor
    exact list_rejects session stored columns' rows'

/-- Two histories of one time, listed one by one by their owner. -/
theorem pagination_complete_pair :
    let session : Session := ⟨fun bytes => Fin.ofNat _ bytes.length, fun _ => ⟨0, by decide⟩,
      fun _ _ => true⟩
    let history : Uuid → HistoryRow := fun id => {
      id, ownerUserId := 1, kind := .query, title := "a", firstQuestion := "a",
      creationOperationId := id, creationOperationHash := 0, createdAt := 86400000000,
      updatedAt := 86400000000 }
    let rows := [history 5, history 7]
    (∃ listed : List HistoryRow,
      Followed (fun cursor => list session historyRecords rows 1 none 1 cursor "") none
        (listed.map header) ∧
      listed.Pairwise (fun a b => toLex (b.updatedAt, b.id) < toLex (a.updatedAt, a.id)) ∧
      ∀ row, row ∈ listed ↔ row ∈ rows) ∧
    ∃ items cursor, list session historyRecords rows 1 none 1 none "" = .ok (items, some cursor) ∧
      list session historyRecords rows 1 (some .query) 1 (some cursor) "" =
        .error (.history invalidCursor) := by
  intro session history rows
  have hselects : ∀ row ∈ rows, selects session historyRecords 1
      { table := historyRecords.table, kind := none, q := "" } row = true := by
    intro row hrow
    simp only [rows, List.mem_cons, List.not_mem_nil, or_false] at hrow
    obtain rfl | rfl := hrow <;> rfl
  let stored : Stored historyRecords := {
    rows
    key := by decide
    uuid := by
      intro row hrow
      simp only [rows, List.mem_cons, List.not_mem_nil, or_false] at hrow
      obtain rfl | rfl := hrow <;> decide
    time := by
      intro row hrow
      simp only [rows, List.mem_cons, List.not_mem_nil, or_false] at hrow
      obtain rfl | rfl := hrow <;> exact ⟨by decide, by decide⟩ }
  have C : Constraints {} := ⟨by rintro t ⟨⟩, by rintro t ⟨⟩, by rintro e ⟨⟩⟩
  obtain ⟨hcomplete, -, hrejects⟩ :=
    pagination_complete session stored C (le_refl 1)
  refine ⟨?_, ?_⟩
  · obtain ⟨listed, hfollowed, hdescending, hmem⟩ := hcomplete 1 none "" rfl
    refine ⟨listed, hfollowed, hdescending, fun row => ?_⟩
    rw [hmem]
    exact and_iff_left_of_imp (hselects row)
  · have hpage := list_eq_page session stored 1 none (q := "") rfl (le_refl 1) none none rfl
    have hall : stored.rows.filter (fun row => selects session historyRecords 1
        { table := historyRecords.table, kind := none, q := "" } row &&
          Option.all (fun b => isBehind (listKey historyRecords) (.toDual (toLex b)) row) none) =
        rows := by
      apply List.filter_eq_self.mpr
      intro row hrow
      rw [Option.all_none, Bool.and_true]
      exact hselects row hrow
    rw [hall, page] at hpage
    have hlength : (ordered (listKey historyRecords) rows).length = 2 := (ordered_perm rows).length_eq
    have hne : (ordered (listKey historyRecords) rows).take 1 ≠ [] := by
      intro hnil
      have hzero := congrArg List.length hnil
      rw [List.length_take, hlength] at hzero
      cases hzero
    rw [if_pos (by omega), List.getLast?_eq_some_getLast hne] at hpage
    refine ⟨_, _, hpage, hrejects historyRecords rows _ _ _ _ _ _ _ _ _ _ hpage (by decide) ?_⟩
    exact fun hsame => absurd hsame (by decide)

end ChatBI.Store.Listing
