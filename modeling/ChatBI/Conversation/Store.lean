import ChatBI.Lib.Check
import ChatBI.Lib.Text
import Mathlib.Logic.Function.Basic

/-!
# The conversation store

`InMemoryConversationStore`: conversations that expire after an idle time, and leases of their
turns. The clock is read once by an operation, `none` being a reading without a time zone, and
`uuid4` gives the texts that an operation draws. The store also keeps the leases that it issued.
-/

namespace ChatBI.Conversation

open ChatBI.Lib

/-- The last successful snapshot of a conversation. -/
structure ConversationRecord (σ : Type) where
  conversationId : String
  subjectId : String
  lastSuccessAt : Int
  structuredQueryState : Option σ
  deriving DecidableEq

structure ConversationLease (σ : Type) where
  record : ConversationRecord σ
  token : String
  deriving DecidableEq

structure StoredConversation (σ : Type) where
  record : ConversationRecord σ
  inFlightToken : Option String := none
  deriving DecidableEq

inductive StoreError where
  | value (message : String)
  | runtime (message : String)
  | unavailable
  | conflict
  | drawing
  deriving DecidableEq

/-- The conversations by their identifiers. -/
abbrev Entries (σ : Type) := String → Option (StoredConversation σ)

variable {σ : Type}

section Operations

variable (idleTtl : Int)

/-- `_is_expired`. -/
def isExpired (record : ConversationRecord σ) (now : Int) : Prop :=
  idleTtl ≤ now - record.lastSuccessAt

instance (record : ConversationRecord σ) (now : Int) : Decidable (isExpired idleTtl record now) :=
  inferInstanceAs (Decidable (_ ≤ _))

/-- `_now`. -/
def readNow (clock : Option Int) : Except StoreError Int :=
  match clock with
  | some now => .ok now
  | none => .error (.runtime "会话时钟必须返回带时区的 datetime")

/-- `_required_text`. -/
def requiredText (value name : String) : Except StoreError String := do
  require (strip value ≠ "") (.value s!"{name} 必须是非空字符串")
  return strip value

/-- `_purge_expired`. -/
def purgeExpired (entries : Entries σ) (now : Int) : Entries σ := fun conversationId =>
  (entries conversationId).filter fun stored => ¬isExpired idleTtl stored.record now

/-- `create`, with the texts that the loop draws until one is no conversation. -/
def create (entries : Entries σ) (subjectId : String) (structuredQueryState : Option σ)
    (clock : Option Int) (uuids : List String) :
    Except StoreError (ConversationRecord σ) × Entries σ :=
  match requiredText subjectId "subject_id" with
  | .error e => (.error e, entries)
  | .ok normalizedSubject =>
    match readNow clock with
    | .error e => (.error e, entries)
    | .ok now =>
      let entries := purgeExpired idleTtl entries now
      match uuids.find? fun conversationId => (entries conversationId).isNone with
      | none => (.error .drawing, entries)
      | some conversationId =>
        let record := ⟨conversationId, normalizedSubject, now, structuredQueryState⟩
        (.ok record, Function.update entries conversationId (some ⟨record, none⟩))

/-- The part of `acquire` under the lock. -/
def acquireEntry (entries : Entries σ) (normalizedId normalizedSubject : String) (now : Int)
    (token : String) : Except StoreError (ConversationLease σ) × Entries σ :=
  match entries normalizedId with
  | none => (.error .unavailable, entries)
  | some entry =>
    if entry.record.subjectId ≠ normalizedSubject then (.error .unavailable, entries)
    else if isExpired idleTtl entry.record now then
      (.error .unavailable, Function.update entries normalizedId none)
    else if entry.inFlightToken ≠ none then (.error .conflict, entries)
    else (.ok ⟨entry.record, token⟩,
      Function.update entries normalizedId (some { entry with inFlightToken := some token }))

def acquire (entries : Entries σ) (conversationId subjectId : String) (clock : Option Int)
    (token : String) : Except StoreError (ConversationLease σ) × Entries σ :=
  if strip conversationId = "" then (.error .unavailable, entries)
  else match requiredText subjectId "subject_id" with
    | .error e => (.error e, entries)
    | .ok normalizedSubject =>
      match readNow clock with
      | .error e => (.error e, entries)
      | .ok now => acquireEntry idleTtl entries (strip conversationId) normalizedSubject now token

end Operations

/-- `_entry_for_lease`. -/
def entryForLease (entries : Entries σ) (lease : ConversationLease σ) :
    Except StoreError (StoredConversation σ) :=
  match entries lease.record.conversationId with
  | none => .error .unavailable
  | some entry =>
    if entry.inFlightToken ≠ some lease.token then .error .unavailable
    else if entry.record.subjectId ≠ lease.record.subjectId then .error .unavailable
    else .ok entry

def commit (entries : Entries σ) (lease : ConversationLease σ) (structuredQueryState : Option σ)
    (clock : Option Int) : Except StoreError (ConversationRecord σ) × Entries σ :=
  match readNow clock with
  | .error e => (.error e, entries)
  | .ok now =>
    match entryForLease entries lease with
    | .error e => (.error e, entries)
    | .ok entry =>
      let record := { entry.record with lastSuccessAt := now, structuredQueryState }
      (.ok record, Function.update entries lease.record.conversationId (some ⟨record, none⟩))

def abort (entries : Entries σ) (lease : ConversationLease σ) : Entries σ :=
  match entries lease.record.conversationId with
  | none => entries
  | some entry =>
    if entry.inFlightToken = some lease.token then
      Function.update entries lease.record.conversationId (some { entry with inFlightToken := none })
    else entries

inductive Op (σ : Type) where
  | create (subjectId : String) (structuredQueryState : Option σ) (clock : Option Int)
      (uuids : List String)
  | acquire (conversationId subjectId : String) (clock : Option Int) (uuid : String)
  | commit (lease : ConversationLease σ) (structuredQueryState : Option σ) (clock : Option Int)
  | abort (lease : ConversationLease σ)

structure Store (σ : Type) where
  entries : Entries σ := fun _ => none
  issued : List (ConversationLease σ) := []

/-- What an operation makes of the store. -/
def step (idleTtl : Int) (s : Store σ) : Op σ → Store σ
  | .create subjectId state clock uuids =>
    { s with entries := (create idleTtl s.entries subjectId state clock uuids).2 }
  | .acquire conversationId subjectId clock uuid =>
    let acquired := acquire idleTtl s.entries conversationId subjectId clock uuid
    ⟨acquired.2, s.issued ++ acquired.1.toOption.toList⟩
  | .commit lease state clock => { s with entries := (commit s.entries lease state clock).2 }
  | .abort lease => { s with entries := abort s.entries lease }

def run (idleTtl : Int) (s : Store σ) (ops : List (Op σ)) : Store σ := ops.foldl (step idleTtl) s

/-- An operation uses a lease that was issued, or draws a token that no lease has. -/
def Op.Legal (s : Store σ) : Op σ → Prop
  | .create .. => True
  | .acquire _ _ _ uuid => uuid ∉ s.issued.map ConversationLease.token
  | .commit lease .. | .abort lease => lease ∈ s.issued

def Legal (idleTtl : Int) : Store σ → List (Op σ) → Prop
  | _, [] => True
  | s, op :: ops => op.Legal s ∧ Legal idleTtl (step idleTtl s op) ops

end ChatBI.Conversation
