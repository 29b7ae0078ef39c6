import ChatBI.Analysis.Application
import ChatBI.Lib.Raises
import ChatBI.Lib.Text

/-!
# The authorized query entry

`AuthorizedQueryService`: the policy store is asked, its decision is audited, and the downstream
service is called. The components outside answer every call with a value or an exception of their
own choice, and may look at all that was called before.
-/

namespace ChatBI.Auth.QueryEntry

open ChatBI.Lib ChatBI.Analysis

/-- An exception with the name of its type. `base` is a `BaseException` that is no `Exception`,
such as `KeyboardInterrupt`. -/
inductive Raised where
  | policyUnavailable (typeName : String)
  | exception (typeName : String)
  | base (typeName : String)
  deriving DecidableEq

def Raised.typeName : Raised → String
  | .policyUnavailable typeName | .exception typeName | .base typeName => typeName

/-- What `except Exception` catches. -/
def Raised.isException : Raised → Bool
  | .base _ => false
  | _ => true

/-- What the test of an object as a text gives, `none` where it is no string. An object of a class
of its own may raise there. -/
abbrev Text := Except Raised (Option String)

/-- `AuthorizationDecision`. Nothing checks its fields: `allowed` is the truth value of the object
there, `reasonCode n` the reading of its field number `n`, and each of them may raise. -/
structure AuthorizationDecision where
  allowed : Except Raised Bool
  reasonCode : ℕ → Except Raised Text
  policyVersion : Except Raised Text

/-- What the policy store returns: what `isinstance` takes for an `AuthorizationDecision`, another
object with the name of its type, or an object on which `isinstance` raises. -/
inductive Returned where
  | decision (decision : AuthorizationDecision)
  | other (typeName : Except Raised String)
  | untested (raised : Raised)

structure AuthContext where
  subjectId : String
  identityProvider : String
  userId : Option ℕ
  username : Option String
  permissions : List String
  mustChangePassword : Bool
  subject_nonblank : strip subjectId ≠ ""
  provider_nonblank : strip identityProvider ≠ ""

inductive AuditDecision where
  | allow
  | deny
  deriving DecidableEq

structure AuthorizationAuditEvent where
  requestId : String
  subjectId : String
  identityProvider : String
  resource : String
  action : String
  decision : AuditDecision
  reasonCode : String
  policyVersion : String
  timestamp : ℕ
  nonblank : ∀ text ∈ [requestId, subjectId, identityProvider, resource, action, reasonCode,
    policyVersion], strip text ≠ ""

/-- The arguments of `emit_query_outcome`. -/
structure QueryOutcomeRecord where
  requestId : String
  actorUserId : Option ℕ
  outcome : String
  reason : String
  deriving DecidableEq

/-- A request, of which the entry reads the id alone; it is `none` where it is no string. -/
structure QueryRequest (β : Type) where
  requestId : Option String
  body : β

/-- `QueryResult`, `other` where it is no `QueryFailure`. -/
inductive QueryResult (σ : Type) where
  | other (result : σ)
  | failure (failure : QueryFailure)

/-- A call to a component outside, with its answer. -/
inductive Call (β σ : Type) where
  | authorize (authContext : AuthContext) (resource action mode : String)
    (answer : Except Raised Returned)
  | emit (event : AuthorizationAuditEvent) (answer : Except Raised Unit)
  | execute (request : QueryRequest β) (answer : Except Raised (QueryResult σ))
  | emitQueryOutcome (outcome : QueryOutcomeRecord) (answer : Except Raised Unit)

abbrev Calls (β σ : Type) := List (Call β σ)

structure AuditSink (β σ : Type) where
  emit : Calls β σ → AuthorizationAuditEvent → Except Raised Unit
  emitQueryOutcome : Option (Calls β σ → QueryOutcomeRecord → Except Raised Unit)

/-- `_UnavailableAuditSink`. -/
def unavailableAuditSink {β σ : Type} : AuditSink β σ where
  emit := fun _ _ => .error (.exception "AuditSinkUnavailable")
  emitQueryOutcome := none

def authorizedResource : String := "mart_sales"

def queryAction : String := "query"

def readOnlyMode : String := "read_only"

def unknownAuditProvider : String := "unknown"

def unknownAuditSubject : String := "anonymous"

def unknownPolicyVersion : String := "unavailable"

/-- `AuthorizedQueryService`, with `uuid4` and the clock. -/
structure AuthorizedQueryService (β σ : Type) where
  execute : Calls β σ → QueryRequest β → Except Raised (QueryResult σ)
  policyStore : Calls β σ → AuthContext → String → String → String → Except Raised Returned
  auditSink : AuditSink β σ := unavailableAuditSink
  resource : String := authorizedResource
  action : String := queryAction
  mode : String := readOnlyMode
  uuid4 : Calls β σ → String
  now : Calls β σ → ℕ

/-- What runs behind the calls so far; they stay where it raises. -/
abbrev Entry (β σ : Type) := ExceptT Raised (StateM (Calls β σ))

namespace Entry

variable {β σ α : Type}

/-- A call, and its answer. -/
def call (answer : Calls β σ → Except Raised α) (record : Except Raised α → Call β σ) :
    Entry β σ α :=
  fun calls => (answer calls, calls ++ [record (answer calls)])

/-- `try … except Exception`. -/
def catchException (body : Entry β σ α) (handler : Raised → Entry β σ α) : Entry β σ α :=
  fun calls =>
    match body calls with
    | (.ok a, after) => (.ok a, after)
    | (.error raised, after) =>
      if raised.isException then handler raised after else (.error raised, after)

end Entry

/-- The object of a text, where it is a string. -/
def stringOf : Text → Option String
  | .ok text => text
  | .error _ => none

/-- The check of a text of an audit event. -/
def auditText : Text → Except Raised { text : String // strip text ≠ "" }
  | .ok (some text) =>
    if h : strip text ≠ "" then .ok ⟨text, h⟩ else .error (.exception "ValueError")
  | .ok none => .error (.exception "ValueError")
  | .error raised => .error raised

section Service

variable {β σ : Type} (service : AuthorizedQueryService β σ)

/-- `_request_id`. -/
def requestIdOf (requestId : Option String) : Entry β σ String := fun calls =>
  match requestId with
  | some text =>
    if strip text = "" then (.ok (service.uuid4 calls), calls) else (.ok (strip text), calls)
  | none => (.ok (service.uuid4 calls), calls)

def authorizationMessage : QueryErrorCode → String
  | .authenticationRequired => "需要有效的身份认证"
  | .authorizationDenied => "当前用户没有该数据资源的访问权限"
  | _ => "身份认证服务暂时不可用"

/-- `authorization_failure`. -/
def authorizationFailure (requestId : String) (errorCode : QueryErrorCode)
    (internalReason : Option String) : QueryFailure where
  requestId := requestId
  errorCode := errorCode
  errorMessage := authorizationMessage errorCode
  failureStage := some "authorization"
  internalReason := internalReason

/-- The provider of an audit event. -/
def auditProvider (authContext : Option AuthContext) (identityProvider : Option String) : String :=
  match authContext, identityProvider with
  | some context, _ => context.identityProvider
  | none, some provider => if provider = "" then unknownAuditProvider else provider
  | none, none => unknownAuditProvider

/-- The construction of the event in `_emit_audit`. -/
def auditEvent (requestId : String) (authContext : Option AuthContext)
    (identityProvider : Option String) (decision : AuditDecision)
    (reasonCode policyVersion : Text) (timestamp : ℕ) :
    Except Raised AuthorizationAuditEvent := do
  let requestId ← auditText (.ok (some requestId))
  let subjectId ← auditText
    (.ok (some ((authContext.map AuthContext.subjectId).getD unknownAuditSubject)))
  let provider ← auditText (.ok (some (auditProvider authContext identityProvider)))
  let resource ← auditText (.ok (some service.resource))
  let action ← auditText (.ok (some service.action))
  let reasonCode ← auditText reasonCode
  let policyVersion ← auditText policyVersion
  return ⟨requestId, subjectId, provider, resource, action, decision, reasonCode, policyVersion,
    timestamp, by simp [requestId.2, subjectId.2, provider.2, resource.2, action.2, reasonCode.2,
      policyVersion.2]⟩

/-- `_emit_audit`: whether the audit failed. -/
def emitAudit (requestId : String) (authContext : Option AuthContext) (decision : AuditDecision)
    (reasonCode policyVersion : Text) (identityProvider : Option String := none) :
    Entry β σ Bool :=
  Entry.catchException
    (do
      let calls ← get
      let event ← liftExcept (auditEvent service requestId authContext identityProvider decision
        reasonCode policyVersion (service.now calls))
      Entry.call (service.auditSink.emit · event) (.emit event)
      return false)
    fun _ => return true

/-- `_audited_failure`. -/
def auditedFailure (result : QueryFailure) (requestId : String) (authContext : Option AuthContext)
    (reasonCode policyVersion : Text) (identityProvider : Option String := none) :
    Entry β σ QueryFailure := do
  if ← emitAudit service requestId authContext .deny reasonCode policyVersion identityProvider then
    return authorizationFailure requestId .authenticationUnavailable (some "AUDIT_SINK_UNAVAILABLE")
  else return result

/-- `authorization_failure` with `_authorization_failure`. -/
def refuse (requestId : String) (authContext : Option AuthContext) (errorCode : QueryErrorCode)
    (internalReason : Option String) (reasonCode policyVersion : Text) (writeAudit : Bool) :
    Entry β σ QueryFailure :=
  let result := authorizationFailure requestId errorCode internalReason
  if writeAudit then auditedFailure service result requestId authContext reasonCode policyVersion
  else return result

/-- A refusal without a decision. -/
def refuseFor (requestId : String) (authContext : Option AuthContext) (errorCode : QueryErrorCode)
    (reason : String) (writeAudit : Bool) : Entry β σ QueryFailure :=
  refuse service requestId authContext errorCode (some reason) (.ok (some reason))
    (.ok (some unknownPolicyVersion)) writeAudit

/-- The refusal by a decision, whose reason is read twice. -/
def refuseDenied (requestId : String) (authContext : Option AuthContext)
    (decision : AuthorizationDecision) (writeAudit : Bool) : Entry β σ QueryFailure := do
  let internalReason ← liftExcept (decision.reasonCode 0)
  let reasonCode ← liftExcept (decision.reasonCode 1)
  let policyVersion ← liftExcept decision.policyVersion
  refuse service requestId authContext .authorizationDenied (stringOf internalReason) reasonCode
    policyVersion writeAudit

/-- The audit of a decision that allows. -/
def auditAllowed (requestId : String) (authContext : Option AuthContext)
    (decision : AuthorizationDecision) : Entry β σ (Option QueryFailure) := do
  let reasonCode ← liftExcept (decision.reasonCode 0)
  let policyVersion ← liftExcept decision.policyVersion
  if ← emitAudit service requestId authContext .allow reasonCode policyVersion then
    return some (authorizationFailure requestId .authenticationUnavailable
      (some "AUDIT_SINK_UNAVAILABLE"))
  else return none

/-- The call of the policy store, and the reason where it raises. -/
def askPolicyStore (authContext : AuthContext) : Entry β σ (Except String Returned) :=
  Entry.catchException
    (do
      let returned ← Entry.call
        (service.policyStore · authContext service.resource service.action service.mode)
        (.authorize authContext service.resource service.action service.mode)
      return .ok returned)
    fun
    | .policyUnavailable _ => return .error "POLICY_STORE_UNAVAILABLE"
    | _ => return .error "POLICY_STORE_FAILURE"

/-- `authorize`: the failure, or `none` where the query may run. -/
def authorize (request : QueryRequest β) (authContext : Option AuthContext)
    (writeAudit : Bool := true) : Entry β σ (Option QueryFailure) := do
  let requestId ← requestIdOf service request.requestId
  match authContext with
  | none =>
    some <$> refuseFor service requestId none .authenticationRequired "AUTH_CONTEXT_MISSING"
      writeAudit
  | some context =>
    match ← askPolicyStore service context with
    | .error reason =>
      some <$> refuseFor service requestId authContext .authenticationUnavailable reason writeAudit
    -- The decision is tested and read outside of every `try`.
    | .ok (.untested raised) => throw raised
    | .ok (.other typeName) =>
      let _ ← liftExcept typeName
      some <$> refuseFor service requestId authContext .authenticationUnavailable
        "INVALID_POLICY_DECISION" writeAudit
    | .ok (.decision decision) =>
      if ← liftExcept decision.allowed then
        if writeAudit then auditAllowed service requestId authContext decision else return none
      else some <$> refuseDenied service requestId authContext decision writeAudit

/-- `_emit_query_outcome`. -/
def emitQueryOutcome (requestId : String) (authContext : Option AuthContext)
    (outcome reason : String) : Entry β σ Unit :=
  match service.auditSink.emitQueryOutcome with
  | none => return ()
  | some emitter =>
    let record : QueryOutcomeRecord :=
      { requestId, actorUserId := authContext.bind AuthContext.userId, outcome, reason }
    Entry.catchException (Entry.call (emitter · record) (.emitQueryOutcome record))
      fun _ => return ()

/-- `execute_authorized`. -/
def executeAuthorized (request : QueryRequest β) (authContext : Option AuthContext) :
    Entry β σ (QueryResult σ) := do
  let result ← Entry.catchException (Entry.call (service.execute · request) (.execute request))
    fun raised => do
      let requestId ← requestIdOf service request.requestId
      emitQueryOutcome service requestId authContext "failure" raised.typeName
      throw raised
  let requestId ← requestIdOf service request.requestId
  match result with
  | .failure failed =>
    emitQueryOutcome service requestId authContext "failure" failed.errorCode.value
  | .other _ => emitQueryOutcome service requestId authContext "success" "QUERY_SUCCEEDED"
  return result

/-- `query`. -/
def query (request : QueryRequest β) (authContext : Option AuthContext) :
    Entry β σ (QueryResult σ) := do
  match ← authorize service request authContext with
  | some failed => return .failure failed
  | none => executeAuthorized service request authContext

end Service

/-! ### What a computation does with an answer -/

namespace Entry

variable {β σ α γ : Type} {x : Entry β σ α} {f : α → Entry β σ γ} {calls after : Calls β σ}

lemma bind_of_ok {a : α} (h : x calls = (.ok a, after)) : (x >>= f) calls = f a after := by
  change ExceptT.bindCont f (x calls).1 (x calls).2 = _
  rw [h]
  rfl

lemma bind_of_error {raised : Raised} (h : x calls = (.error raised, after)) :
    (x >>= f) calls = (.error raised, after) := by
  change ExceptT.bindCont f (x calls).1 (x calls).2 = _
  rw [h]
  rfl

lemma map_of_ok {g : α → γ} {a : α} (h : x calls = (.ok a, after)) :
    (g <$> x) calls = (.ok (g a), after) := bind_of_ok h

lemma map_of_error {g : α → γ} {raised : Raised} (h : x calls = (.error raised, after)) :
    (g <$> x) calls = (.error raised, after) := bind_of_error h

lemma call_of {answer : Calls β σ → Except Raised α} {record : Except Raised α → Call β σ}
    {a : Except Raised α} (h : answer calls = a) :
    call answer record calls = (a, calls ++ [record a]) := by
  subst h
  rfl

lemma lift_ok (a : α) (calls : Calls β σ) :
    (liftExcept (.ok a : Except Raised α) : Entry β σ α) calls = (.ok a, calls) := rfl

variable {handler : Raised → Entry β σ α}

lemma catchException_of_ok {a : α} (h : x calls = (.ok a, after)) :
    catchException x handler calls = (.ok a, after) := by
  unfold catchException
  rw [h]

lemma catchException_of_exception {raised : Raised} (h : x calls = (.error raised, after))
    (hraised : raised.isException = true) :
    catchException x handler calls = handler raised after := by
  unfold catchException
  rw [h]
  exact if_pos hraised

lemma catchException_of_base {raised : Raised} (h : x calls = (.error raised, after))
    (hraised : raised.isException = false) :
    catchException x handler calls = (.error raised, after) := by
  unfold catchException
  rw [h]
  apply if_neg
  rw [hraised]
  exact Bool.false_ne_true

end Entry

section Spec

variable {β σ : Type} (service : AuthorizedQueryService β σ)

/-- How an audit ends, and what it calls. -/
inductive Audited (decision : AuditDecision) (reasonCode policyVersion : Text) :
    Except Raised Bool → Calls β σ → Prop
  | invalid : Audited decision reasonCode policyVersion (.ok true) []
  | interrupted (raised : Raised) (hraised : raised.isException = false)
      (htext : reasonCode = .error raised ∨ policyVersion = .error raised) :
      Audited decision reasonCode policyVersion (.error raised) []
  | written (event : AuthorizationAuditEvent) (hdecision : event.decision = decision)
      (hreason : reasonCode = .ok (some event.reasonCode))
      (hversion : policyVersion = .ok (some event.policyVersion)) :
      Audited decision reasonCode policyVersion (.ok false) [.emit event (.ok ())]
  | refused (event : AuthorizationAuditEvent) (raised : Raised) :
      Audited decision reasonCode policyVersion (.ok true) [.emit event (.error raised)]
  | escaped (event : AuthorizationAuditEvent) (raised : Raised)
      (hraised : raised.isException = false) :
      Audited decision reasonCode policyVersion (.error raised) [.emit event (.error raised)]

lemma auditText_raises (text : Text) :
    Raises (fun raised => raised.isException = true ∨ text = .error raised) (auditText text) := by
  unfold auditText
  split
  · split
    · exact .ok _
    · exact .error (.inl rfl)
  · exact .error (.inl rfl)
  · exact .error (.inr rfl)

lemma text_of_auditText {text : Text} {checked : { text : String // strip text ≠ "" }}
    (h : auditText text = .ok checked) : text = .ok (some checked.1) := by
  unfold auditText at h
  split at h
  · split at h
    · cases h
      rfl
    · cases h
  · cases h
  · cases h

section Event

variable (requestId : String) (authContext : Option AuthContext) (identityProvider : Option String)
  (decision : AuditDecision) (reasonCode policyVersion : Text) (timestamp : ℕ)

/-- A text of the entry's own raises nothing but `ValueError`. -/
lemma auditText_own (text : String) : Raises (fun raised => raised.isException = true ∨
    reasonCode = .error raised ∨ policyVersion = .error raised) (auditText (.ok (some text))) := by
  intro raised h
  rcases auditText_raises _ raised h with hraised | htext
  · exact .inl hraised
  · cases htext

lemma auditEvent_raises : Raises (fun raised => raised.isException = true ∨
    reasonCode = .error raised ∨ policyVersion = .error raised)
    (auditEvent service requestId authContext identityProvider decision reasonCode policyVersion
      timestamp) := by
  unfold auditEvent
  have hown := auditText_own reasonCode policyVersion
  apply (hown _).bind
  intro _ _
  apply (hown _).bind
  intro _ _
  apply (hown _).bind
  intro _ _
  apply (hown _).bind
  intro _ _
  apply (hown _).bind
  intro _ _
  apply Raises.bind fun raised h => (auditText_raises reasonCode raised h).imp_right .inl
  intro _ _
  apply Raises.bind fun raised h => (auditText_raises policyVersion raised h).imp_right .inr
  intro _ _
  exact .ok _

/-- An event that is built says what it was built from. -/
lemma auditEvent_ok {event : AuthorizationAuditEvent}
    (h : auditEvent service requestId authContext identityProvider decision reasonCode policyVersion
      timestamp = .ok event) :
    event.decision = decision ∧ reasonCode = .ok (some event.reasonCode) ∧
      policyVersion = .ok (some event.policyVersion) := by
  simp only [auditEvent, except_bind_ok, except_pure_ok] at h
  obtain ⟨_, -, _, -, _, -, _, -, _, -, reason, hreason, version, hversion, rfl⟩ := h
  exact ⟨rfl, text_of_auditText hreason, text_of_auditText hversion⟩

end Event

lemma emitAudit_spec (requestId : String) (authContext : Option AuthContext)
    (decision : AuditDecision) (reasonCode policyVersion : Text)
    (identityProvider : Option String) (calls : Calls β σ) :
    ∃ result new, emitAudit service requestId authContext decision reasonCode policyVersion
        identityProvider calls = (result, calls ++ new) ∧
      Audited decision reasonCode policyVersion result new := by
  unfold emitAudit
  cases hevent : auditEvent service requestId authContext identityProvider decision reasonCode
    policyVersion (service.now calls) with
  | error raised =>
    have hbody : (do
          let calls ← get
          let event ← liftExcept (auditEvent service requestId authContext identityProvider
            decision reasonCode policyVersion (service.now calls))
          Entry.call (service.auditSink.emit · event) (.emit event)
          return false : Entry β σ Bool) calls = (.error raised, calls) := by
      refine (Entry.bind_of_ok (a := calls) rfl).trans (Entry.bind_of_error ?_)
      rw [hevent]
      rfl
    cases hraised : raised.isException with
    | true =>
      refine ⟨.ok true, [], ?_, .invalid⟩
      rw [List.append_nil]
      exact Entry.catchException_of_exception hbody hraised
    | false =>
      refine ⟨.error raised, [], ?_, .interrupted raised hraised ?_⟩
      · rw [List.append_nil]
        exact Entry.catchException_of_base hbody hraised
      · refine (auditEvent_raises service _ _ _ _ _ _ _ raised hevent).resolve_left ?_
        rw [hraised]
        exact Bool.false_ne_true
  | ok event =>
    obtain ⟨hdecision, hreason, hversion⟩ := auditEvent_ok service _ _ _ _ _ _ _ hevent
    have hbody : ∀ {answer : Except Raised Unit},
        service.auditSink.emit calls event = answer →
          (do
            let calls ← get
            let event ← liftExcept (auditEvent service requestId authContext identityProvider
              decision reasonCode policyVersion (service.now calls))
            Entry.call (service.auditSink.emit · event) (.emit event)
            return false : Entry β σ Bool) calls =
            (answer.map fun _ => false, calls ++ [.emit event answer]) := by
      intro answer hanswer
      refine (Entry.bind_of_ok (a := calls) rfl).trans ?_
      refine (Entry.bind_of_ok (a := event) (by rw [hevent]; rfl)).trans ?_
      have hcall : Entry.call (service.auditSink.emit · event) (.emit event) calls =
          (answer, calls ++ [.emit event answer]) := Entry.call_of hanswer
      cases answer with
      | ok => exact Entry.bind_of_ok hcall
      | error raised => exact Entry.bind_of_error hcall
    cases hanswer : service.auditSink.emit calls event with
    | ok =>
      exact ⟨_, _, Entry.catchException_of_ok (hbody hanswer),
        .written event hdecision hreason hversion⟩
    | error raised =>
      cases hraised : raised.isException with
      | true =>
        exact ⟨_, _, Entry.catchException_of_exception (hbody hanswer) hraised, .refused event raised⟩
      | false =>
        exact ⟨_, _, Entry.catchException_of_base (hbody hanswer) hraised,
          .escaped event raised hraised⟩

/-- A call of the downstream service. -/
def Call.executes : Call β σ → Bool
  | .execute _ _ => true
  | _ => false

/-- No call of the list is one of the downstream service. -/
def Withheld (calls : Calls β σ) : Prop := ∀ call ∈ calls, call.executes = false

/-- The call is of the policy store or of the audit sink and raises, or it returns a decision with
a text that raises when it is tested. -/
def Call.Raises (raised : Raised) : Call β σ → Prop
  | .authorize _ _ _ _ (.error e) | .emit _ (.error e) => e = raised
  | .authorize _ _ _ _ (.ok (.decision given)) =>
    (∃ n, given.reasonCode n = .ok (.error raised)) ∨ given.policyVersion = .ok (.error raised)
  | _ => False

/-- A `BaseException` that is no `Exception`, which no handler of the entry catches. -/
def Interrupted (raised : Raised) (calls : Calls β σ) : Prop :=
  raised.isException = false ∧ ∃ call ∈ calls, call.Raises raised

/-- The object cannot be tested for an `AuthorizationDecision`, or read. -/
def Returned.Unreadable (raised : Raised) : Returned → Prop
  | .decision given => given.allowed = .error raised ∨
    (∃ n, given.reasonCode n = .error raised) ∨ given.policyVersion = .error raised
  | .other typeName => typeName = .error raised
  | .untested e => e = raised

/-- The calls have returned an object that is unreadable. -/
def Unreadable (raised : Raised) (calls : Calls β σ) : Prop :=
  ∃ context resource action mode returned, returned.Unreadable raised ∧
    .authorize context resource action mode (.ok returned) ∈ calls

def Escapes (raised : Raised) (calls : Calls β σ) : Prop :=
  Interrupted raised calls ∨ Unreadable raised calls

lemma Interrupted.append {raised : Raised} {calls : Calls β σ} (h : Interrupted raised calls)
    (before : Calls β σ) : Interrupted raised (before ++ calls) := by
  obtain ⟨hraised, call, hcall, hraises⟩ := h
  exact ⟨hraised, call, List.mem_append_right before hcall, hraises⟩

lemma Escapes.append {raised : Raised} {calls : Calls β σ} (h : Escapes raised calls)
    (before : Calls β σ) : Escapes raised (before ++ calls) := by
  rcases h with hinterrupted | ⟨context, resource, action, mode, returned, hraised, hin⟩
  · exact .inl (hinterrupted.append before)
  · exact .inr ⟨context, resource, action, mode, returned, hraised, List.mem_append_right before hin⟩

/-- An exception of the last call. -/
lemma escapes_of_call {raised : Raised} {call : Call β σ} (hraised : raised.isException = false)
    (h : call.Raises raised) : Escapes raised [call] :=
  .inl ⟨hraised, call, List.mem_singleton_self call, h⟩

/-- How a part of the entry that lets nothing through ends. -/
inductive Refused : Except Raised QueryFailure → Calls β σ → Prop
  | failed (failed : QueryFailure) {new : Calls β σ} (hnew : Withheld new) :
      Refused (.ok failed) new
  | escaped (raised : Raised) {new : Calls β σ} (hraised : Escapes raised new)
      (hnew : Withheld new) : Refused (.error raised) new

lemma Audited.withheld {decision : AuditDecision} {reasonCode policyVersion : Text}
    {result : Except Raised Bool} {new : Calls β σ}
    (h : Audited decision reasonCode policyVersion result new) : Withheld new := by
  intro call hcall
  cases h with
  | invalid | interrupted => exact absurd hcall List.not_mem_nil
  | written | refused | escaped =>
    rw [List.mem_singleton.mp hcall]
    rfl

/-- What the tests of the two texts interrupt is told by a call. -/
def Told (reasonCode policyVersion : Text) (calls : Calls β σ) : Prop :=
  ∀ raised : Raised, raised.isException = false →
    reasonCode = .error raised ∨ policyVersion = .error raised → Interrupted raised calls

lemma told_of_strings (reason version : Option String) (calls : Calls β σ) :
    Told (.ok reason) (.ok version) calls := by
  rintro raised - (h | h)
  · cases h
  · cases h

/-- What an audit behind the calls lets through. -/
lemma Audited.escapes {decision : AuditDecision} {reasonCode policyVersion : Text}
    {raised : Raised} {before new : Calls β σ} (htold : Told reasonCode policyVersion before)
    (h : Audited decision reasonCode policyVersion (.error raised) new) :
    Escapes raised (before ++ new) := by
  cases h with
  | interrupted _ hraised htext =>
    rw [List.append_nil]
    exact .inl (htold raised hraised htext)
  | escaped event _ hraised =>
    have hcall : Call.Raises raised (.emit event (.error raised) : Call β σ) := rfl
    exact (escapes_of_call hraised hcall).append before

lemma Withheld.append {before new : Calls β σ} (hbefore : Withheld before) (hnew : Withheld new) :
    Withheld (before ++ new) := by
  intro call hcall
  exact (List.mem_append.mp hcall).elim (hbefore call) (hnew call)

section Refusal

variable {calls before : Calls β σ}

lemma auditedFailure_spec (result : QueryFailure) (requestId : String)
    (authContext : Option AuthContext) {reasonCode policyVersion : Text}
    (identityProvider : Option String) (hbefore : Withheld before)
    (htold : Told reasonCode policyVersion before) :
    ∃ ended new, auditedFailure service result requestId authContext reasonCode policyVersion
        identityProvider (calls ++ before) = (ended, calls ++ new) ∧ Refused ended new := by
  obtain ⟨audited, new, hrun, hspec⟩ := emitAudit_spec service requestId authContext .deny
    reasonCode policyVersion identityProvider (calls ++ before)
  have hnew := hbefore.append hspec.withheld
  rw [List.append_assoc] at hrun
  unfold auditedFailure
  cases audited with
  | ok failed =>
    rw [Entry.bind_of_ok hrun]
    cases failed <;> exact ⟨_, _, rfl, .failed _ hnew⟩
  | error raised =>
    exact ⟨_, _, Entry.bind_of_error hrun, .escaped raised (hspec.escapes htold) hnew⟩

lemma refuse_spec (requestId : String) (authContext : Option AuthContext)
    (errorCode : QueryErrorCode) (internalReason : Option String) {reasonCode policyVersion : Text}
    (writeAudit : Bool) (hbefore : Withheld before) (htold : Told reasonCode policyVersion before) :
    ∃ ended new, refuse service requestId authContext errorCode internalReason reasonCode
        policyVersion writeAudit (calls ++ before) = (ended, calls ++ new) ∧ Refused ended new := by
  cases writeAudit with
  | true => exact auditedFailure_spec service _ requestId authContext _ hbefore htold
  | false => exact ⟨_, _, rfl, .failed _ hbefore⟩

lemma refuseFor_spec (requestId : String) (authContext : Option AuthContext)
    (errorCode : QueryErrorCode) (reason : String) (writeAudit : Bool) (hbefore : Withheld before) :
    ∃ ended new, refuseFor service requestId authContext errorCode reason writeAudit
        (calls ++ before) = (ended, calls ++ new) ∧ Refused ended new :=
  refuse_spec service requestId authContext errorCode _ writeAudit hbefore
    (told_of_strings (some reason) (some unknownPolicyVersion) before)

variable {context : AuthContext} {resource action mode : String} {decision : AuthorizationDecision}

/-- The call that has returned the decision. -/
lemma withheld_authorize (returned : Returned) :
    Withheld [(.authorize context resource action mode (.ok returned) : Call β σ)] := by
  intro call hcall
  rw [List.mem_singleton.mp hcall]
  rfl

lemma refused_of_unreadable {returned : Returned} {raised : Raised} (h : returned.Unreadable raised) :
    Refused (.error raised)
      [(.authorize context resource action mode (.ok returned) : Call β σ)] := by
  refine .escaped raised ?_ (withheld_authorize returned)
  exact .inr ⟨context, resource, action, mode, returned, h, List.mem_singleton_self _⟩

/-- The texts of a decision are tested behind the call that has returned it. -/
lemma told_of_decision {n : ℕ} {reasonCode policyVersion : Text}
    (hreason : decision.reasonCode n = .ok reasonCode)
    (hversion : decision.policyVersion = .ok policyVersion) :
    Told reasonCode policyVersion
      [(.authorize context resource action mode (.ok (.decision decision)) : Call β σ)] := by
  rintro raised hraised htext
  refine ⟨hraised, _, List.mem_singleton_self _, ?_⟩
  rcases htext with rfl | rfl
  · exact .inl ⟨n, hreason⟩
  · exact .inr hversion

lemma refuseDenied_spec (requestId : String) (authContext : Option AuthContext)
    (writeAudit : Bool) :
    ∃ ended new, refuseDenied service requestId authContext decision writeAudit
        (calls ++ [.authorize context resource action mode (.ok (.decision decision))]) =
          (ended, calls ++ new) ∧ Refused ended new := by
  have hbefore : Withheld
      [(.authorize context resource action mode (.ok (.decision decision)) : Call β σ)] :=
    withheld_authorize (.decision decision)
  unfold refuseDenied
  cases hinternal : decision.reasonCode 0 with
  | error raised =>
    exact ⟨_, _, Entry.bind_of_error rfl, refused_of_unreadable (.inr (.inl ⟨0, hinternal⟩))⟩
  | ok internalReason =>
    rw [Entry.bind_of_ok (Entry.lift_ok internalReason _)]
    cases hreason : decision.reasonCode 1 with
    | error raised =>
      exact ⟨_, _, Entry.bind_of_error rfl, refused_of_unreadable (.inr (.inl ⟨1, hreason⟩))⟩
    | ok reasonCode =>
      rw [Entry.bind_of_ok (Entry.lift_ok reasonCode _)]
      cases hversion : decision.policyVersion with
      | error raised =>
        exact ⟨_, _, Entry.bind_of_error rfl, refused_of_unreadable (.inr (.inr hversion))⟩
      | ok policyVersion =>
        rw [Entry.bind_of_ok (Entry.lift_ok policyVersion _)]
        exact refuse_spec service requestId authContext _ _ writeAudit hbefore
          (told_of_decision hreason hversion)

end Refusal

/-- How the authorization of a call ends: only an audited decision that allows lets it through. -/
inductive Authorized (authContext : Option AuthContext) :
    Except Raised (Option QueryFailure) → Calls β σ → Prop
  | refused {ended : Except Raised QueryFailure} {new : Calls β σ} (h : Refused ended new) :
      Authorized authContext (ended.map some) new
  | granted (context : AuthContext) (decision : AuthorizationDecision)
      (event : AuthorizationAuditEvent) (hcontext : authContext = some context)
      (hallowed : decision.allowed = .ok true) (hdecision : event.decision = .allow)
      (hreason : decision.reasonCode 0 = .ok (.ok (some event.reasonCode)))
      (hversion : decision.policyVersion = .ok (.ok (some event.policyVersion))) :
      Authorized authContext (.ok none)
        [.authorize context service.resource service.action service.mode (.ok (.decision decision)),
          .emit event (.ok ())]

lemma auditAllowed_spec (requestId : String) (context : AuthContext)
    (decision : AuthorizationDecision) (hallowed : decision.allowed = .ok true) (calls : Calls β σ) :
    ∃ result new, auditAllowed service requestId (some context) decision
        (calls ++ [.authorize context service.resource service.action service.mode
          (.ok (.decision decision))]) = (result, calls ++ new) ∧
      Authorized service (some context) result new := by
  have hbefore : Withheld [(.authorize context service.resource service.action service.mode
      (.ok (.decision decision)) : Call β σ)] := withheld_authorize (.decision decision)
  unfold auditAllowed
  cases hreason : decision.reasonCode 0 with
  | error raised =>
    have hunreadable : Returned.Unreadable raised (.decision decision) := .inr (.inl ⟨0, hreason⟩)
    exact ⟨_, _, Entry.bind_of_error rfl, .refused (refused_of_unreadable hunreadable)⟩
  | ok reasonCode =>
    rw [Entry.bind_of_ok (Entry.lift_ok reasonCode _)]
    cases hversion : decision.policyVersion with
    | error raised =>
      have hunreadable : Returned.Unreadable raised (.decision decision) := .inr (.inr hversion)
      exact ⟨_, _, Entry.bind_of_error rfl, .refused (refused_of_unreadable hunreadable)⟩
    | ok policyVersion =>
      rw [Entry.bind_of_ok (Entry.lift_ok policyVersion _)]
      obtain ⟨audited, emitted, haudited, haudit⟩ := emitAudit_spec service requestId
        (some context) .allow reasonCode policyVersion none
        (calls ++ [.authorize context service.resource service.action service.mode
          (.ok (.decision decision))])
      rw [List.append_assoc] at haudited
      have hnew := hbefore.append haudit.withheld
      cases audited with
      | error raised =>
        have hrefused : Refused (.error raised) _ :=
          .escaped raised (haudit.escapes (told_of_decision hreason hversion)) hnew
        exact ⟨_, _, Entry.bind_of_error haudited, .refused hrefused⟩
      | ok failed =>
        rw [Entry.bind_of_ok haudited]
        cases haudit with
        | invalid => exact ⟨_, _, rfl, .refused (.failed _ hnew)⟩
        | refused event raised => exact ⟨_, _, rfl, .refused (.failed _ hnew)⟩
        | written event hdecision hreason' hversion' =>
          rw [hreason'] at hreason
          rw [hversion'] at hversion
          exact ⟨_, _, rfl, .granted context decision event rfl hallowed hdecision hreason hversion⟩

lemma requestIdOf_eq (requestId : Option String) (calls : Calls β σ) :
    ∃ text, requestIdOf service requestId calls = (.ok text, calls) := by
  unfold requestIdOf
  cases requestId with
  | none => exact ⟨_, rfl⟩
  | some text =>
    dsimp only
    split <;> exact ⟨_, rfl⟩

/-- How the one call of the policy store ends. -/
inductive Asked (context : AuthContext) :
    Except Raised (Except String Returned) → Calls β σ → Prop
  | answered (returned : Returned) : Asked context (.ok (.ok returned))
      [.authorize context service.resource service.action service.mode (.ok returned)]
  | failed (reason : String) (raised : Raised) : Asked context (.ok (.error reason))
      [.authorize context service.resource service.action service.mode (.error raised)]
  | escaped (raised : Raised) (hraised : raised.isException = false) :
      Asked context (.error raised)
      [.authorize context service.resource service.action service.mode (.error raised)]

lemma askPolicyStore_spec (context : AuthContext) (calls : Calls β σ) :
    ∃ result new, askPolicyStore service context calls = (result, calls ++ new) ∧
      Asked service context result new := by
  unfold askPolicyStore
  cases hanswer : service.policyStore calls context service.resource service.action
      service.mode with
  | ok returned =>
    have hcall : Entry.call
        (service.policyStore · context service.resource service.action service.mode)
        (.authorize context service.resource service.action service.mode) calls = _ :=
      Entry.call_of hanswer
    exact ⟨_, _, Entry.catchException_of_ok (Entry.bind_of_ok hcall), .answered returned⟩
  | error raised =>
    have hcall : Entry.call
        (service.policyStore · context service.resource service.action service.mode)
        (.authorize context service.resource service.action service.mode) calls = _ :=
      Entry.call_of hanswer
    have hbody := fun f : Returned → Entry β σ (Except String Returned) =>
      Entry.bind_of_error (f := f) hcall
    cases raised with
    | policyUnavailable typeName =>
      exact ⟨_, _, Entry.catchException_of_exception (hbody _) rfl, .failed _ _⟩
    | exception typeName =>
      exact ⟨_, _, Entry.catchException_of_exception (hbody _) rfl, .failed _ _⟩
    | base typeName => exact ⟨_, _, Entry.catchException_of_base (hbody _) rfl, .escaped _ rfl⟩

lemma Asked.withheld {context : AuthContext} {result : Except Raised (Except String Returned)}
    {new : Calls β σ} (h : Asked service context result new) : Withheld new := by
  intro call hcall
  cases h with
  | answered | failed | escaped =>
    rw [List.mem_singleton.mp hcall]
    rfl

/-- A refusal ends the authorization. -/
lemma authorized_of_refused {authContext : Option AuthContext} {refusal : Entry β σ QueryFailure}
    {calls start : Calls β σ}
    (h : ∃ ended new, refusal start = (ended, calls ++ new) ∧ Refused ended new) :
    ∃ result new, (some <$> refusal) start = (result, calls ++ new) ∧
      Authorized service authContext result new := by
  obtain ⟨ended, new, hrun, hrefused⟩ := h
  refine ⟨ended.map some, new, ?_, .refused hrefused⟩
  cases ended with
  | ok failed => exact Entry.map_of_ok hrun
  | error raised => exact Entry.map_of_error hrun

theorem authorize_spec (request : QueryRequest β) (authContext : Option AuthContext)
    (calls : Calls β σ) :
    ∃ result new, authorize service request authContext true calls = (result, calls ++ new) ∧
      Authorized service authContext result new := by
  obtain ⟨requestId, hid⟩ := requestIdOf_eq service request.requestId calls
  unfold authorize
  rw [Entry.bind_of_ok hid]
  cases authContext with
  | none =>
    have hnone : Withheld ([] : Calls β σ) := fun call hcall => absurd hcall List.not_mem_nil
    have hrefused := @refuseFor_spec β σ service calls [] requestId none
      .authenticationRequired "AUTH_CONTEXT_MISSING" true hnone
    rw [List.append_nil] at hrefused
    exact authorized_of_refused service hrefused
  | some context =>
    obtain ⟨asked, new, hasked, hspec⟩ := askPolicyStore_spec service context calls
    have hnew := hspec.withheld
    dsimp only
    cases hspec with
    | escaped raised hraised =>
      have hcall : Call.Raises raised (.authorize context service.resource service.action
        service.mode (.error raised) : Call β σ) := rfl
      have hrefused : Refused (.error raised) _ := .escaped raised (escapes_of_call hraised hcall) hnew
      exact ⟨_, _, Entry.bind_of_error hasked, .refused hrefused⟩
    | failed reason raised =>
      rw [Entry.bind_of_ok hasked]
      exact authorized_of_refused service (refuseFor_spec service _ _ _ reason true hnew)
    | answered returned =>
      rw [Entry.bind_of_ok hasked]
      cases returned with
      | untested raised =>
        have hunreadable : (Returned.untested raised).Unreadable raised := rfl
        exact ⟨_, _, rfl, .refused (refused_of_unreadable hunreadable)⟩
      | other typeName =>
        dsimp only
        cases typeName with
        | error raised =>
          have hunreadable : (Returned.other (.error raised)).Unreadable raised := rfl
          exact ⟨_, _, Entry.bind_of_error rfl, .refused (refused_of_unreadable hunreadable)⟩
        | ok typeName =>
          rw [Entry.bind_of_ok (Entry.lift_ok typeName _)]
          exact authorized_of_refused service (refuseFor_spec service _ _ _ _ true hnew)
      | decision decision =>
        dsimp only
        cases hallowed : decision.allowed with
        | error raised =>
          have hunreadable : (Returned.decision decision).Unreadable raised := .inl hallowed
          exact ⟨_, _, Entry.bind_of_error rfl, .refused (refused_of_unreadable hunreadable)⟩
        | ok allowed =>
          rw [Entry.bind_of_ok (Entry.lift_ok allowed _)]
          cases allowed with
          | false => exact authorized_of_refused service (refuseDenied_spec service _ _ true)
          | true => exact auditAllowed_spec service requestId context decision hallowed calls

lemma emitQueryOutcome_spec (requestId : String) (authContext : Option AuthContext)
    (outcome reason : String) (calls : Calls β σ) :
    ∃ result new, emitQueryOutcome service requestId authContext outcome reason calls =
      (result, calls ++ new) ∧ Withheld new := by
  unfold emitQueryOutcome
  cases service.auditSink.emitQueryOutcome with
  | none =>
    refine ⟨.ok (), [], ?_, fun call hcall => absurd hcall List.not_mem_nil⟩
    rw [List.append_nil]
    rfl
  | some emitter =>
    set record : QueryOutcomeRecord :=
      { requestId, actorUserId := authContext.bind AuthContext.userId, outcome, reason }
    have hcall : Entry.call (emitter · record) (.emitQueryOutcome record) calls =
        (emitter calls record, calls ++ [.emitQueryOutcome record (emitter calls record)]) := rfl
    have hnew : Withheld [(.emitQueryOutcome record (emitter calls record) : Call β σ)] := by
      intro call hin
      rw [List.mem_singleton.mp hin]
      rfl
    cases hanswer : emitter calls record with
    | ok =>
      rw [hanswer] at hcall hnew
      exact ⟨_, _, Entry.catchException_of_ok hcall, hnew⟩
    | error raised =>
      rw [hanswer] at hcall hnew
      cases hraised : raised.isException with
      | true => exact ⟨_, _, Entry.catchException_of_exception hcall hraised, hnew⟩
      | false => exact ⟨_, _, Entry.catchException_of_base hcall hraised, hnew⟩

/-- The downstream service is called first, and once. -/
theorem executeAuthorized_spec (request : QueryRequest β) (authContext : Option AuthContext)
    (calls : Calls β σ) :
    ∃ result answer new, executeAuthorized service request authContext calls =
      (result, calls ++ .execute request answer :: new) ∧ Withheld new := by
  have hcall : Entry.call (service.execute · request) (.execute request) calls =
      (service.execute calls request,
        calls ++ [.execute request (service.execute calls request)]) := rfl
  have hfinish : ∀ {α : Type} (outcome reason : String) (answer : Except Raised (QueryResult σ))
      (last : Entry β σ α), (∀ c, ∃ a, last c = (a, c)) →
      ∃ a new, (do
        let requestId ← requestIdOf service request.requestId
        emitQueryOutcome service requestId authContext outcome reason
        last) (calls ++ [Call.execute request answer]) = (a, calls ++ .execute request answer :: new) ∧
        Withheld new ∧ ((∃ raised, a = .error raised) ∨ ∃ c, a = (last c).1) := by
    intro α outcome reason answer last hlast
    obtain ⟨requestId, hid⟩ := requestIdOf_eq service request.requestId
      (calls ++ [Call.execute request answer])
    obtain ⟨emitted, new, hemitted, hnew⟩ := emitQueryOutcome_spec service requestId authContext
      outcome reason (calls ++ [Call.execute request answer])
    obtain ⟨a, ha⟩ := hlast (calls ++ [Call.execute request answer] ++ new)
    rw [Entry.bind_of_ok hid]
    cases emitted with
    | ok =>
      rw [Entry.bind_of_ok hemitted, ha, List.append_assoc]
      exact ⟨_, _, rfl, hnew, .inr ⟨_, (congrArg Prod.fst ha).symm⟩⟩
    | error raised =>
      rw [Entry.bind_of_error hemitted, List.append_assoc]
      exact ⟨_, _, rfl, hnew, .inl ⟨raised, rfl⟩⟩
  unfold executeAuthorized
  cases hanswer : service.execute calls request with
  | ok result =>
    rw [hanswer] at hcall
    rw [Entry.bind_of_ok (Entry.catchException_of_ok hcall)]
    cases result with
    | other result =>
      obtain ⟨a, new, hrun, hnew, -⟩ := hfinish "success" "QUERY_SUCCEEDED" (.ok (.other result))
        (pure (QueryResult.other result)) fun c => ⟨_, rfl⟩
      exact ⟨_, _, _, hrun, hnew⟩
    | failure failed =>
      obtain ⟨a, new, hrun, hnew, -⟩ := hfinish "failure" failed.errorCode.value (.ok (.failure failed))
        (pure (QueryResult.failure failed)) fun c => ⟨_, rfl⟩
      exact ⟨_, _, _, hrun, hnew⟩
  | error raised =>
    rw [hanswer] at hcall
    cases hraised : raised.isException with
    | true =>
      have hthrow : ∀ c : Calls β σ, (throw raised : Entry β σ (QueryResult σ)) c =
          (.error raised, c) := fun _ => rfl
      obtain ⟨a, new, hrun, hnew, hend⟩ := hfinish "failure" raised.typeName (.error raised)
        (throw raised : Entry β σ (QueryResult σ)) fun c => ⟨_, hthrow c⟩
      have hraises : ∃ raised, a = .error raised :=
        hend.elim id fun ⟨c, ha⟩ => ⟨raised, ha.trans (congrArg Prod.fst (hthrow c))⟩
      obtain ⟨thrown, rfl⟩ := hraises
      exact ⟨_, _, _, Entry.bind_of_error
        ((Entry.catchException_of_exception hcall hraised).trans hrun), hnew⟩
    | false =>
      exact ⟨_, _, [], Entry.bind_of_error (Entry.catchException_of_base hcall hraised),
        fun call hin => absurd hin List.not_mem_nil⟩

/-- What the entry has called when it ends: the downstream service at most once, directly behind the
audit of the decision that allows it. -/
structure FailsClosed (request : QueryRequest β) (authContext : Option AuthContext)
    (result : Except Raised (QueryResult σ)) (new : Calls β σ) : Prop where
  guarded : ¬Withheld new → ∃ context decision event answer rest, authContext = some context ∧
    new = .authorize context service.resource service.action service.mode
      (.ok (.decision decision)) :: .emit event (.ok ()) :: .execute request answer :: rest ∧
    Withheld rest ∧ decision.allowed = .ok true ∧ event.decision = .allow ∧
    decision.reasonCode 0 = .ok (.ok (some event.reasonCode)) ∧
    decision.policyVersion = .ok (.ok (some event.policyVersion))
  closed : Withheld new → (∀ raised, ¬Unreadable raised new) →
    (∃ failed, result = .ok (.failure failed)) ∨
      ∃ raised, result = .error raised ∧ Interrupted raised new

/-- An account that is signed in. -/
def analyst : AuthContext where
  subjectId := "analyst"
  identityProvider := "local"
  userId := some 3
  username := some "analyst"
  permissions := ["query.execute"]
  mustChangePassword := false
  subject_nonblank := by decide
  provider_nonblank := by decide

/-- A service whose policy store answers one thing, with an audit sink that accepts every event. -/
def answering (answer : Except Raised Returned) : AuthorizedQueryService Unit Unit where
  execute := fun _ _ => .ok (.other ())
  policyStore := fun _ _ _ _ _ => answer
  auditSink := { emit := fun _ _ => .ok (), emitQueryOutcome := none }
  uuid4 := fun _ => "0f8e"
  now := fun _ => 0

/-- A decision with the texts of an allowing one. -/
def decided (allowed : Except Raised Bool) : AuthorizationDecision where
  allowed := allowed
  reasonCode := fun _ => .ok (.ok (some "AUTHORIZED"))
  policyVersion := .ok (.ok (some "v1"))

/-- An allowing decision lets the query through. -/
example : (query (answering (.ok (.decision (decided (.ok true))))) ⟨some "r1", ()⟩ (some analyst)
    []).1 = .ok (.other ()) := rfl

end Spec

end ChatBI.Auth.QueryEntry
