import ChatBI.Lib.Transition
import Mathlib.Data.Finset.Card
import Mathlib.Data.Finset.Erase
import Mathlib.Data.Finset.Insert
import Mathlib.Logic.Function.Basic

/-!
# The slots of the export runtime

Calls of `startup` and `generate` run in threads of their own, and an artifact is finished by its
receiver. A step is the code of one call up to the next operation that can raise or that takes a
lock; its outcome says whether that operation returns.
-/

namespace ChatBI.Export.Runtime

open ChatBI.Lib

/-- The exception of the exports, with its code, message and status. -/
structure ExportFailure where
  code : String
  message : String
  status : Nat
  deriving DecidableEq

/-- Exceptions by the classes that the handlers tell apart. -/
inductive Raised where
  | exportFailure (failure : ExportFailure)
  | runtimeError (message : String)
  | osError
  | blockingIOError
  | fileNotFoundError
  | valueError
  | typeError
  | importError
  | keyError
  | subprocessError
  | other
  deriving DecidableEq

namespace Raised

def isOSError : Raised → Bool
  | osError | blockingIOError | fileNotFoundError => true
  | _ => false

/-- `except (OSError, ValueError, TypeError, ImportError, KeyError)` around
`verify_runtime_manifest`. -/
def isResourceError : Raised → Bool
  | osError | blockingIOError | fileNotFoundError => true
  | valueError | typeError | importError | keyError => true
  | _ => false

def formatUnavailable : Raised :=
  exportFailure ⟨"EXPORT_FORMAT_UNAVAILABLE", "所选导出格式暂不可用", 422⟩

def accountInvalid : Raised :=
  exportFailure ⟨"EXPORT_UNAVAILABLE", "文件导出运行账户配置无效", 503⟩

def environmentUnavailable : Raised :=
  exportFailure ⟨"EXPORT_UNAVAILABLE", "文件导出运行环境不可用", 503⟩

def busy : Raised := exportFailure ⟨"EXPORT_BUSY", "已有文件正在生成或下载，请稍后重试", 429⟩

def rendererUnavailable : Raised :=
  exportFailure ⟨"EXPORT_UNAVAILABLE", "离线 Chromium 渲染资源不可用", 503⟩

def selectionInvalid : Raised := exportFailure ⟨"EXPORT_SELECTION_INVALID", "图表选择无效", 422⟩

def storageUnavailable : Raised :=
  exportFailure ⟨"EXPORT_STORAGE_UNAVAILABLE", "导出临时文件清理失败", 503⟩

def singleProcess : Raised := runtimeError "成果导出仅支持单 API 进程"

/-- What `acquire` raises when `startup` does. -/
def inAcquire : Raised → Raised
  | exportFailure failure => exportFailure failure
  | runtimeError _ | osError | blockingIOError | fileNotFoundError => environmentUnavailable
  | e => e

/-- What a call raises when the removal of its work directory does. -/
def inRemoval (e : Raised) : Raised := if e.isOSError then storageUnavailable else e

end Raised

/-- Where the body of `startup` stands, in front of: the directory and the file of the lock;
`flock`; `close` behind a lock that was not taken or was given back; `resolve`; the set of the
process; `flock` with `LOCK_UN` on the way out; the sweep of the directory; the manifest. -/
inductive StartupPoint where
  | opening
  | locking
  | closing (e : Raised)
  | resolving
  | registering
  | unlocking (e : Raised)
  | sweeping
  | verifying
  deriving DecidableEq

/-- Where a call stands. `_generate` is `preparing` up to the `mkdir` of the work directory and
`working` behind it; behind `delivered` it is the artifact that is followed. -/
inductive Phase where
  | idle
  | entering
  | starting (p : StartupPoint)
  | claiming
  | verifying
  | checking
  | selecting
  | naming
  | preparing
  | working
  | removing (e : Raised)
  | delivered
  | finishing
  | unremoved (e : Raised)
  | finished
  | returned
  | raised (e : Raised)
  deriving DecidableEq

/-- The arguments of `generate`: its document does not matter here. -/
structure Generation (α : Type) where
  owner : α
  format : String
  selected : Bool

inductive Request (α : Type) where
  | startup
  | generate (x : Generation α)

def Request.owner? {α : Type} : Request α → Option α
  | startup => none
  | generate x => some x.owner

/-- The runtime: `rootLocked` says whether one of its descriptors has the lock of the root, and
`processRoot` whether the set of the process has its root. `workdirs` are the calls whose work
directory is on the disk. -/
structure State (κ α : Type) where
  ownerActive : Finset α
  startupLock : Option κ
  initialized : Bool
  rootLocked : Bool
  processRoot : Bool
  renderConfig : Bool
  workdirs : Finset κ
  phase : κ → Phase

section Operations

variable {κ α : Type} [DecidableEq κ] [DecidableEq α] (request : κ → Request α) (superuser : Bool)

def State.turn (s : State κ α) (k : κ) (phase : Phase) : State κ α :=
  { s with phase := Function.update s.phase k phase }

/-- The end of the block of the startup lock by an exception. -/
def State.quit (s : State κ α) (k : κ) (e : Raised) : State κ α :=
  { s with startupLock := none }.turn k (match request k with
    | .startup => .raised e
    | .generate _ => .raised e.inAcquire)

/-- Behind `startup`: the caller goes on with the claim of its slot. -/
def afterStartup (k : κ) : Phase :=
  match request k with
  | .startup => .returned
  | .generate _ => .claiming

def State.started (s : State κ α) (k : κ) (renderConfig : Bool) : State κ α :=
  { s with initialized := true, startupLock := none, renderConfig := renderConfig }.turn k
    (afterStartup request k)

/-- A step of the body of `startup`. -/
def State.startup (s : State κ α) (k : κ) : StartupPoint → Option Raised → Option (State κ α)
  | .opening, none => some (s.turn k (.starting .locking))
  | .opening, some e => some (s.quit request k e)
  -- The lock is free for a new descriptor only.
  | .locking, none =>
    if s.rootLocked then none
    else some ({ s with rootLocked := true }.turn k (.starting .resolving))
  | .locking, some e => some (s.turn k (.starting (.closing
      (if e = .blockingIOError then .singleProcess else e))))
  | .closing e, none => some (s.quit request k e)
  | .closing _, some e => some (s.quit request k e)
  | .resolving, none => some (s.turn k (.starting .registering))
  | .resolving, some e => some (s.quit request k e)
  | .registering, none =>
    if s.processRoot then some (s.turn k (.starting (.unlocking .singleProcess)))
    else some ({ s with processRoot := true }.turn k (.starting .sweeping))
  -- Another runtime of the process has the root.
  | .registering, some _ => some (s.turn k (.starting (.unlocking .singleProcess)))
  | .unlocking e, none => some ({ s with rootLocked := false }.turn k (.starting (.closing e)))
  | .unlocking _, some e => some (s.quit request k e)
  | .sweeping, none => some (s.turn k (.starting .verifying))
  | .sweeping, some e => some ({ s with processRoot := false }.turn k (.starting (.unlocking e)))
  | .verifying, none => some (s.started request k true)
  | .verifying, some e =>
    if e.isResourceError then some (s.started request k false) else some (s.quit request k e)

/-- `release`, and the phase behind it. -/
def State.release (s : State κ α) (k : κ) (x : Generation α) (phase : Phase) : State κ α :=
  { s with ownerActive := s.ownerActive.erase x.owner }.turn k phase

/-- `_remove_workdir`, with `release` behind it. A `FileNotFoundError` is passed over: there is no
directory, or an entry of it has vanished under `rmtree`, which leaves the rest. -/
def State.remove (s : State κ α) (k : κ) (x : Generation α) (phase : Phase) :
    Option Raised → Option (State κ α)
  | none =>
    if k ∈ s.workdirs then
      some ({ s with workdirs := s.workdirs.erase k }.release k x phase)
    else none
  | some .fileNotFoundError => some (s.release k x phase)
  | some e => some (s.turn k (.unremoved e.inRemoval))

/-- A step of `generate` behind `startup`, or of `finish`. -/
def State.generate (s : State κ α) (k : κ) (x : Generation α) :
    Phase → Option Raised → Option (State κ α)
  | .claiming, none =>
    if x.owner ∈ s.ownerActive ∨ 2 ≤ s.ownerActive.card then some (s.turn k (.raised .busy))
    else some ({ s with ownerActive := insert x.owner s.ownerActive }.turn k
      (if x.format ∈ ["png", "pdf"] then .verifying else .selecting))
  | .verifying, none => some ({ s with renderConfig := true }.turn k .checking)
  | .verifying, some e =>
    if e.isResourceError then some ({ s with renderConfig := false }.turn k .checking)
    else some (s.turn k (.raised e))
  | .checking, none =>
    if s.renderConfig then some (s.turn k .selecting)
    else some (s.release k x (.raised .rendererUnavailable))
  | .selecting, none =>
    if x.format = "png" ∧ ¬x.selected then some (s.release k x (.raised .selectionInvalid))
    else some (s.turn k .naming)
  -- `uuid.uuid4` and the clock, in front of the `try`.
  | .naming, none => some (s.turn k .preparing)
  | .naming, some e => some (s.turn k (.raised e))
  -- `_generate` does not touch the slots.
  | .preparing, none => some ({ s with workdirs := insert k s.workdirs }.turn k .working)
  | .preparing, some e => some (s.turn k (.removing e))
  | .working, none => some (s.turn k .delivered)
  | .working, some e => some (s.turn k (.removing e))
  | .removing e, outcome => s.remove k x (.raised e) outcome
  | .delivered, none => some (s.turn k .finishing)
  | .finishing, outcome => s.remove k x .finished outcome
  -- `finish` again.
  | .unremoved _, none => some (s.turn k .finishing)
  | _, _ => none

/-- The first statements of a call. -/
def State.begin (s : State κ α) (k : κ) : State κ α :=
  match request k with
  | .startup => s.turn k .entering
  | .generate x =>
    if x.format ∉ ["xlsx", "png", "pdf"] then s.turn k (.raised .formatUnavailable)
    else if superuser then s.turn k (.raised .accountInvalid)
    else s.turn k .entering

/-- The startup lock is taken by one call at a time. Behind it the flag is read. -/
def State.enter (s : State κ α) (k : κ) : Option (State κ α) :=
  if s.startupLock ≠ none then none
  else if s.initialized then some (s.turn k (afterStartup request k))
  else some ({ s with startupLock := some k }.turn k (.starting .opening))

def next (s : State κ α) (event : κ × Option Raised) : Option (State κ α) :=
  match s.phase event.1, event.2 with
  | .idle, none => some (s.begin request superuser event.1)
  | .entering, none => s.enter request event.1
  | .starting p, outcome => s.startup request event.1 p outcome
  | phase, outcome =>
    match request event.1 with
    | .startup => none
    | .generate x => s.generate event.1 x phase outcome

def start : State κ α := ⟨∅, none, false, false, false, false, ∅, fun _ => .idle⟩

/-- All calls of all owners. -/
def system : System (State κ α) (κ × Option Raised) where
  init s := s = start
  step s event t := next request superuser s event = some t

end Operations

/-! ### What is promised -/

namespace Phase

/-- From the claim of the slot to the return or the raise of `generate`. -/
def InProgress : Phase → Bool
  | verifying | checking | selecting | naming | preparing | working | removing _ => true
  | _ => false

def Unfinished : Phase → Bool
  | delivered | finishing => true
  | _ => false

def Unremoved : Phase → Bool
  | unremoved _ => true
  | _ => false

def Holds (phase : Phase) : Bool := phase.InProgress || phase.Unfinished || phase.Unremoved

def InStartup : Phase → Bool
  | starting _ => true
  | _ => false

/-- The call, or the finishing of its artifact, has come to its end. -/
def Ended : Phase → Bool
  | finished | raised _ => true
  | _ => false

/-- The phases in which there may be a work directory. -/
def MayHaveWorkdir : Phase → Bool
  | working | removing _ | delivered | finishing | unremoved _ => true
  | _ => false

end Phase

/-- A call in progress, an unfinished artifact, or a work directory that was not removed. -/
def State.Holds {κ α : Type} (s : State κ α) (k : κ) : Prop :=
  (s.phase k).Holds = true ∨ (s.phase k).Ended = true ∧ k ∈ s.workdirs

/-- The operation of a step is not one of those whose exception no handler takes: the manifest with
an exception of another class, the resolution of the root with its lock taken, the unlocking on
the way out of `startup`, and the name of the work directory. Nor does it pass over an entry that
has vanished while there is a work directory. -/
def handled (workdir : Bool) : Phase → Option Raised → Bool
  | .starting .verifying, some e | .verifying, some e => e.isResourceError
  | .starting .resolving, some _ | .starting (.unlocking _), some _ | .naming, some _ => false
  | .removing _, outcome | .finishing, outcome =>
    outcome != some .fileNotFoundError || !workdir
  | _, _ => true

section Promises

variable {κ α : Type} [DecidableEq κ] [DecidableEq α] (request : κ → Request α) (superuser : Bool)

/-- The slots and the root are accounted for. -/
structure Accounted (s : State κ α) : Prop where
  atMostTwo : s.ownerActive.card ≤ 2
  slots : ∀ owner, owner ∈ s.ownerActive ↔
    ∃ k, (request k).owner? = some owner ∧ s.Holds k
  givenBack : ∀ k e owner, (request k).owner? = some owner → s.phase k = .raised e →
    owner ∈ s.ownerActive → ∃ k', k' ≠ k ∧ (request k').owner? = some owner ∧ s.Holds k'
  rootFree : s.startupLock = none → s.initialized = false →
    s.rootLocked = false ∧ s.processRoot = false
  restarts : s.startupLock = none → ∀ k, request k = .startup → s.phase k = .idle →
    ∃ es t, (system request superuser).Run s es t ∧ (∀ e ∈ es, e = (k, none)) ∧
      t.phase k = .returned

end Promises

/-! ### The slots -/

section Slots

variable {κ α : Type} {request : κ → Request α} {s t : State κ α} {k : κ} {x : Generation α}
  {phase : Phase}

/-- The owners with a slot are those of the calls that hold one, of which every owner has one. -/
structure SlotsSound (request : κ → Request α) (s : State κ α) : Prop where
  atMostTwo : s.ownerActive.card ≤ 2
  slots : ∀ owner, owner ∈ s.ownerActive ↔
    ∃ k, (request k).owner? = some owner ∧ (s.phase k).Holds = true
  single : ∀ k k' owner, (request k).owner? = some owner → (request k').owner? = some owner →
    (s.phase k).Holds = true → (s.phase k').Holds = true → k = k'

lemma slotsSound_start : SlotsSound request (start : State κ α) := by
  refine ⟨Nat.zero_le 2, ?_, ?_⟩
  · intro owner
    apply iff_of_false (Finset.notMem_empty owner)
    rintro ⟨k, -, hholds⟩
    cases hholds
  · intro k k' owner _ _ hholds
    cases hholds

variable [DecidableEq κ]

/-- A step that leaves the slots, and whether its call holds one. -/
lemma SlotsSound.keep (h : SlotsSound request s) (hactive : t.ownerActive = s.ownerActive)
    (hphase : t.phase = Function.update s.phase k phase)
    (hholds : phase.Holds = (s.phase k).Holds) : SlotsSound request t := by
  have hsame : ∀ j, (t.phase j).Holds = (s.phase j).Holds := by
    intro j
    rw [hphase]
    by_cases hj : j = k
    · rw [hj, Function.update_self, hholds]
    · rw [Function.update_of_ne hj]
  refine ⟨?_, ?_, ?_⟩
  · rw [hactive]
    exact h.atMostTwo
  · intro owner
    simp only [hactive, hsame]
    exact h.slots owner
  · intro j j' owner
    simp only [hsame]
    exact h.single j j' owner

/-- Which calls hold a slot behind a step of one of them. -/
lemma exists_holds_update (owner : α) :
    (∃ j, (request j).owner? = some owner ∧ (Function.update s.phase k phase j).Holds = true) ↔
      (request k).owner? = some owner ∧ phase.Holds = true ∨
        ∃ j, j ≠ k ∧ (request j).owner? = some owner ∧ (s.phase j).Holds = true := by
  constructor
  · rintro ⟨j, howner, hholds⟩
    by_cases hj : j = k
    · subst hj
      rw [Function.update_self] at hholds
      exact .inl ⟨howner, hholds⟩
    · rw [Function.update_of_ne hj] at hholds
      exact .inr ⟨j, hj, howner, hholds⟩
  · rintro (⟨howner, hholds⟩ | ⟨j, hj, howner, hholds⟩)
    · refine ⟨k, howner, ?_⟩
      rw [Function.update_self]
      exact hholds
    · refine ⟨j, howner, ?_⟩
      rw [Function.update_of_ne hj]
      exact hholds

variable [DecidableEq α]

lemma SlotsSound.claim (h : SlotsSound request s) (hrequest : request k = .generate x)
    (hk : (s.phase k).Holds = false) (hphase : phase.Holds = true)
    (hfree : ¬(x.owner ∈ s.ownerActive ∨ 2 ≤ s.ownerActive.card)) :
    SlotsSound request ({ s with ownerActive := insert x.owner s.ownerActive }.turn k phase) := by
  obtain ⟨hnew, hroom⟩ := not_or.mp hfree
  have howner : (request k).owner? = some x.owner := by
    rw [hrequest]
    rfl
  have hnone : ∀ j, (request j).owner? = some x.owner → (s.phase j).Holds = true → False :=
    fun j hj hholds => hnew ((h.slots x.owner).mpr ⟨j, hj, hholds⟩)
  refine ⟨?_, ?_, ?_⟩
  · have hcard := Finset.card_insert_of_notMem hnew
    change (insert x.owner s.ownerActive).card ≤ 2
    omega
  · intro owner
    change owner ∈ insert x.owner s.ownerActive ↔ ∃ j, (request j).owner? = some owner ∧
      (Function.update s.phase k phase j).Holds = true
    rw [exists_holds_update, Finset.mem_insert, h.slots owner, howner]
    apply or_congr
    · exact ⟨fun heq => ⟨heq ▸ rfl, hphase⟩, fun heq => (Option.some.inj heq.1).symm⟩
    · constructor
      · rintro ⟨j, hj, hholds⟩
        refine ⟨j, ?_, hj, hholds⟩
        rintro rfl
        rw [hk] at hholds
        cases hholds
      · rintro ⟨j, -, hj, hholds⟩
        exact ⟨j, hj, hholds⟩
  · intro j j' owner hj hj' hholds hholds'
    change (Function.update s.phase k phase j).Holds = true at hholds
    change (Function.update s.phase k phase j').Holds = true at hholds'
    by_cases hjk : j = k
    · by_cases hjk' : j' = k
      · exact hjk.trans hjk'.symm
      · rw [Function.update_of_ne hjk'] at hholds'
        rw [hjk, howner] at hj
        exact (hnone j' (hj ▸ hj') hholds').elim
    · rw [Function.update_of_ne hjk] at hholds
      by_cases hjk' : j' = k
      · rw [hjk', howner] at hj'
        exact (hnone j (hj' ▸ hj) hholds).elim
      · rw [Function.update_of_ne hjk'] at hholds'
        exact h.single j j' owner hj hj' hholds hholds'

lemma SlotsSound.release (h : SlotsSound request s) (hrequest : request k = .generate x)
    (hk : (s.phase k).Holds = true) (hphase : phase.Holds = false) :
    SlotsSound request (s.release k x phase) := by
  have howner : (request k).owner? = some x.owner := by
    rw [hrequest]
    rfl
  have hother : ∀ j, j ≠ k → (request j).owner? = some x.owner → (s.phase j).Holds = false := by
    intro j hj hjowner
    by_contra hholds
    exact hj (h.single j k x.owner hjowner howner (Bool.eq_true_of_not_eq_false hholds) hk)
  refine ⟨?_, ?_, ?_⟩
  · exact (Finset.card_erase_le).trans h.atMostTwo
  · intro owner
    change owner ∈ s.ownerActive.erase x.owner ↔ ∃ j, (request j).owner? = some owner ∧
      (Function.update s.phase k phase j).Holds = true
    rw [exists_holds_update, Finset.mem_erase, h.slots owner, hphase]
    constructor
    · rintro ⟨hne, j, hj, hholds⟩
      refine .inr ⟨j, ?_, hj, hholds⟩
      rintro rfl
      rw [howner] at hj
      exact hne (Option.some.inj hj).symm
    · rintro (⟨-, hfalse⟩ | ⟨j, hjk, hj, hholds⟩)
      · cases hfalse
      · refine ⟨?_, j, hj, hholds⟩
        rintro rfl
        rw [hother j hjk hj] at hholds
        cases hholds
  · intro j j' owner hj hj' hholds hholds'
    change (Function.update s.phase k phase j).Holds = true at hholds
    change (Function.update s.phase k phase j').Holds = true at hholds'
    have hne : ∀ i, (Function.update s.phase k phase i).Holds = true →
        (s.phase i).Holds = true := by
      intro i hi
      by_cases hik : i = k
      · rw [hik, Function.update_self, hphase] at hi
        cases hi
      · rwa [Function.update_of_ne hik] at hi
    exact h.single j j' owner hj hj' (hne j hholds) (hne j' hholds')

end Slots

/-! ### The root -/

section Root

variable {κ α : Type} {s t : State κ α} {k : κ} {p : StartupPoint} {phase : Phase}

/-- The points behind `flock` and in front of the unlocking. -/
def StartupPoint.Locked : StartupPoint → Bool
  | opening | locking | closing _ => false
  | resolving | registering | unlocking _ | sweeping | verifying => true

def StartupPoint.Registered : StartupPoint → Bool
  | sweeping | verifying => true
  | _ => false

/-- One call at a time is in the body of `startup`, and what it has taken of the root is told by
its point; without such a call the root is taken exactly when the runtime is initialized. -/
structure Guarded (s : State κ α) : Prop where
  lock : ∀ k, (s.phase k).InStartup = true ↔ s.startupLock = some k
  fresh : ∀ k, s.startupLock = some k → s.initialized = false
  held : ∀ k p, s.phase k = .starting p → s.rootLocked = p.Locked ∧ s.processRoot = p.Registered
  free : s.startupLock = none → s.rootLocked = s.initialized ∧ s.processRoot = s.initialized

lemma guarded_start : Guarded (start : State κ α) := by
  refine ⟨?_, ?_, ?_, fun _ => ⟨rfl, rfl⟩⟩
  · intro k
    apply iff_of_false
    · exact Bool.false_ne_true
    · exact fun hk => Option.some_ne_none k hk.symm
  · intro k hk
    cases hk
  · intro k p hp
    cases hp

lemma Guarded.ne_of_other (h : Guarded s) (hk : s.startupLock = some k) {j : κ} (hj : j ≠ k) :
    (s.phase j).InStartup = false := by
  by_contra hstartup
  have hlock := (h.lock j).mp (Bool.eq_true_of_not_eq_false hstartup)
  exact hj (Option.some.inj (hlock.symm.trans hk))

variable [DecidableEq κ]

/-- A step of a call outside of the body of `startup`. -/
lemma Guarded.keep (h : Guarded s) (hlock : t.startupLock = s.startupLock)
    (hinitialized : t.initialized = s.initialized) (hroot : t.rootLocked = s.rootLocked)
    (hprocess : t.processRoot = s.processRoot)
    (hphase : t.phase = Function.update s.phase k phase) (hk : (s.phase k).InStartup = false)
    (hout : phase.InStartup = false) : Guarded t := by
  refine ⟨?_, ?_, ?_, ?_⟩
  · intro j
    rw [hlock, ← h.lock j, hphase]
    by_cases hj : j = k
    · rw [hj, Function.update_self, hk, hout]
    · rw [Function.update_of_ne hj]
  · intro j hj
    rw [hinitialized]
    exact h.fresh j (hlock ▸ hj)
  · intro j p hp
    rw [hphase] at hp
    rw [hroot, hprocess]
    by_cases hj : j = k
    · rw [hj, Function.update_self] at hp
      rw [hp] at hout
      cases hout
    · rw [Function.update_of_ne hj] at hp
      exact h.held j p hp
  · intro hnone
    rw [hroot, hprocess, hinitialized]
    exact h.free (hlock ▸ hnone)

/-- A step inside of the body, or into it. -/
lemma Guarded.move (hlock : t.startupLock = some k)
    (hinitialized : t.initialized = false)
    (hroot : t.rootLocked = p.Locked ∧ t.processRoot = p.Registered)
    (hphase : t.phase = Function.update s.phase k (.starting p))
    (hothers : ∀ j, j ≠ k → (s.phase j).InStartup = false) : Guarded t := by
  refine ⟨?_, fun _ _ => hinitialized, ?_, ?_⟩
  · intro j
    rw [hlock, hphase]
    by_cases hj : j = k
    · rw [hj, Function.update_self]
      exact iff_of_true rfl rfl
    · rw [Function.update_of_ne hj, hothers j hj]
      exact iff_of_false Bool.false_ne_true fun heq => hj (Option.some.inj heq).symm
  · intro j q hq
    rw [hphase] at hq
    by_cases hj : j = k
    · rw [hj, Function.update_self] at hq
      cases hq
      exact hroot
    · rw [Function.update_of_ne hj] at hq
      have hout := hothers j hj
      rw [hq] at hout
      cases hout
  · intro hnone
    rw [hlock] at hnone
    cases hnone

/-- The end of the body. -/
lemma Guarded.leave (hlock : t.startupLock = none)
    (hroot : t.rootLocked = t.initialized ∧ t.processRoot = t.initialized)
    (hphase : t.phase = Function.update s.phase k phase) (hout : phase.InStartup = false)
    (hothers : ∀ j, j ≠ k → (s.phase j).InStartup = false) : Guarded t := by
  have houtside : ∀ j, (t.phase j).InStartup = false := by
    intro j
    rw [hphase]
    by_cases hj : j = k
    · rw [hj, Function.update_self, hout]
    · rw [Function.update_of_ne hj, hothers j hj]
  refine ⟨?_, ?_, ?_, fun _ => hroot⟩
  · intro j
    rw [houtside j, hlock]
    exact iff_of_false Bool.false_ne_true fun hj => Option.some_ne_none j hj.symm
  · intro j hj
    rw [hlock] at hj
    cases hj
  · intro j q hq
    have hj := houtside j
    rw [hq] at hj
    cases hj

end Root

/-! ### The steps -/

section Inversion

variable {κ α : Type} [DecidableEq κ] {request : κ → Request α} {s t : State κ α} {k : κ}
  {x : Generation α} {p : StartupPoint} {phase : Phase} {outcome : Option Raised}

/-- What a step of the body of `startup` does: it moves to another point with what that point has
of the root, it ends the initialization, or it raises, with the root given back exactly when the
exception is handled. -/
inductive StartupStep (request : κ → Request α) (s : State κ α) (k : κ) (p : StartupPoint)
    (workdir : Bool) (outcome : Option Raised) : State κ α → Prop
  | move (p' : StartupPoint) (root process : Bool)
      (hroot : s.rootLocked = p.Locked → s.processRoot = p.Registered →
        root = p'.Locked ∧ process = p'.Registered)
      (hhandled : handled workdir (.starting p) outcome = true) :
      StartupStep request s k p workdir outcome
        ({ s with rootLocked := root, processRoot := process }.turn k (.starting p'))
  | done (config : Bool) (hp : p = .verifying)
      (hhandled : handled workdir (.starting p) outcome = true) :
      StartupStep request s k p workdir outcome (s.started request k config)
  | quit (e : Raised) (hlocked : p.Locked = !handled workdir (.starting p) outcome)
      (hregistered : p.Locked = false → p.Registered = false) :
      StartupStep request s k p workdir outcome (s.quit request k e)

lemma startup_cases (workdir : Bool) (h : s.startup request k p outcome = some t) :
    StartupStep request s k p workdir outcome t := by
  cases p with
  | opening =>
    cases outcome with
    | none =>
      cases h
      exact .move .locking s.rootLocked s.processRoot (fun hr hp => ⟨hr, hp⟩) rfl
    | some e =>
      cases h
      exact .quit e rfl fun _ => rfl
  | locking =>
    cases outcome with
    | none =>
      rw [State.startup] at h
      split at h
      · cases h
      · cases h
        exact .move .resolving true s.processRoot (fun _ hp => ⟨rfl, hp⟩) rfl
    | some e =>
      cases h
      exact .move _ s.rootLocked s.processRoot (fun hr hp => ⟨hr, hp⟩) rfl
  | closing e =>
    cases outcome with
    | none =>
      cases h
      exact .quit e rfl fun _ => rfl
    | some e' =>
      cases h
      exact .quit e' rfl fun _ => rfl
  | resolving =>
    cases outcome with
    | none =>
      cases h
      exact .move .registering s.rootLocked s.processRoot (fun hr hp => ⟨hr, hp⟩) rfl
    | some e =>
      cases h
      exact .quit e rfl Bool.noConfusion
  | registering =>
    cases outcome with
    | none =>
      rw [State.startup] at h
      split at h
      · cases h
        exact .move _ s.rootLocked s.processRoot (fun hr hp => ⟨hr, hp⟩) rfl
      · cases h
        exact .move .sweeping s.rootLocked true (fun hr _ => ⟨hr, rfl⟩) rfl
    | some e =>
      cases h
      exact .move _ s.rootLocked s.processRoot (fun hr hp => ⟨hr, hp⟩) rfl
  | unlocking e =>
    cases outcome with
    | none =>
      cases h
      exact .move (.closing e) false s.processRoot (fun _ hp => ⟨rfl, hp⟩) rfl
    | some e' =>
      cases h
      exact .quit e' rfl Bool.noConfusion
  | sweeping =>
    cases outcome with
    | none =>
      cases h
      exact .move .verifying s.rootLocked s.processRoot (fun hr hp => ⟨hr, hp⟩) rfl
    | some e =>
      cases h
      exact .move (.unlocking e) s.rootLocked false (fun hr _ => ⟨hr, rfl⟩) rfl
  | verifying =>
    cases outcome with
    | none =>
      cases h
      exact .done true rfl rfl
    | some e =>
      rw [State.startup] at h
      split at h
      · next hresource =>
        cases h
        exact .done false rfl hresource
      · next hresource =>
        cases h
        refine .quit e ?_ Bool.noConfusion
        rw [handled, Bool.eq_false_iff.mpr hresource]
        rfl

variable [DecidableEq α]

/-- What a step of `generate` or of `finish` does with the slot and with the work directory: nothing,
the creation of the directory, a claim, a release without a directory, or, when the exception is
not handled, a raise that keeps the slot or a release that leaves the directory. -/
inductive GenerateStep (s : State κ α) (k : κ) (x : Generation α) (phase : Phase)
    (outcome : Option Raised) : State κ α → Prop
  | keep (phase' : Phase) (config : Bool) (hholds : phase'.Holds = phase.Holds)
      (hworkdir : phase.MayHaveWorkdir = true → phase'.MayHaveWorkdir = true)
      (hout : phase'.InStartup = false)
      (hhandled : handled (k ∈ s.workdirs) phase outcome = true) :
      GenerateStep s k x phase outcome ({ s with renderConfig := config }.turn k phase')
  | create (phase' : Phase) (hholds : phase'.Holds = phase.Holds)
      (hworkdir : phase'.MayHaveWorkdir = true) (hout : phase'.InStartup = false)
      (hhandled : handled (k ∈ s.workdirs) phase outcome = true) :
      GenerateStep s k x phase outcome ({ s with workdirs := insert k s.workdirs }.turn k phase')
  | claim (phase' : Phase) (hfree : ¬(x.owner ∈ s.ownerActive ∨ 2 ≤ s.ownerActive.card))
      (hbefore : phase.Holds = false) (hholds : phase'.Holds = true)
      (hworkdir : phase.MayHaveWorkdir = false) (hout : phase'.InStartup = false)
      (hhandled : handled (k ∈ s.workdirs) phase outcome = true) :
      GenerateStep s k x phase outcome
        ({ s with ownerActive := insert x.owner s.ownerActive }.turn k phase')
  | release (phase' : Phase) (workdirs : Finset κ) (hbefore : phase.Holds = true)
      (hholds : phase'.Holds = false) (hout : phase'.InStartup = false)
      (hremoved : phase.MayHaveWorkdir = true → k ∉ workdirs) (hsub : workdirs ⊆ s.workdirs)
      (hhandled : handled (k ∈ s.workdirs) phase outcome = true) :
      GenerateStep s k x phase outcome ({ s with workdirs := workdirs }.release k x phase')
  | leak (e : Raised) (hbefore : phase.Holds = true)
      (hunhandled : handled (k ∈ s.workdirs) phase outcome = false) :
      GenerateStep s k x phase outcome (s.turn k (.raised e))
  | leave (phase' : Phase) (hbefore : phase.Holds = true) (hended : phase'.Ended = true)
      (hleft : k ∈ s.workdirs)
      (hunhandled : handled (k ∈ s.workdirs) phase outcome = false) :
      GenerateStep s k x phase outcome (s.release k x phase')

/-- The removal of the work directory, by the two phases that are in front of it. -/
lemma remove_cases {phase' : Phase} (hholds : phase.Holds = true) (hended : phase'.Ended = true)
    (hgiven : phase'.Holds = false) (hout : phase'.InStartup = false)
    (hhandled : handled (k ∈ s.workdirs) phase outcome =
      (outcome != some .fileNotFoundError || !decide (k ∈ s.workdirs)))
    (h : s.remove k x phase' outcome = some t) : GenerateStep s k x phase outcome t := by
  unfold State.remove at h
  split at h
  · split at h
    · cases h
      refine .release _ _ hholds hgiven hout (fun _ => ?_) (Finset.erase_subset k s.workdirs) ?_
      · exact Finset.notMem_erase k s.workdirs
      · rw [hhandled]
        rfl
    · cases h
  · cases h
    by_cases hleft : k ∈ s.workdirs
    · refine .leave _ hholds hended hleft ?_
      rw [hhandled, decide_eq_true hleft]
      rfl
    · refine .release _ s.workdirs hholds hgiven hout (fun _ => hleft) (Finset.Subset.refl _) ?_
      rw [hhandled, decide_eq_false hleft]
      rfl
  · next e he =>
    cases h
    refine .keep _ s.renderConfig hholds.symm (fun _ => rfl) rfl ?_
    have hne : some e ≠ some Raised.fileNotFoundError := fun heq => he (Option.some.inj heq)
    rw [hhandled, bne_iff_ne.mpr hne, Bool.true_or]

lemma generate_cases (h : s.generate k x phase outcome = some t) :
    GenerateStep s k x phase outcome t := by
  unfold State.generate at h
  split at h
  · split at h
    · cases h
      exact .keep _ s.renderConfig rfl Bool.noConfusion rfl rfl
    · next hfree =>
      cases h
      split
      · exact .claim _ hfree rfl rfl rfl rfl rfl
      · exact .claim _ hfree rfl rfl rfl rfl rfl
  · cases h
    exact .keep _ true rfl Bool.noConfusion rfl rfl
  · split at h
    · next hresource =>
      cases h
      exact .keep _ false rfl Bool.noConfusion rfl hresource
    · next hresource =>
      cases h
      exact .leak _ rfl (Bool.eq_false_iff.mpr hresource)
  · split at h
    · cases h
      exact .keep _ s.renderConfig rfl Bool.noConfusion rfl rfl
    · cases h
      exact .release _ s.workdirs rfl rfl rfl Bool.noConfusion (Finset.Subset.refl _) rfl
  · split at h
    · cases h
      exact .release _ s.workdirs rfl rfl rfl Bool.noConfusion (Finset.Subset.refl _) rfl
    · cases h
      exact .keep _ s.renderConfig rfl Bool.noConfusion rfl rfl
  · cases h
    exact .keep _ s.renderConfig rfl Bool.noConfusion rfl rfl
  · cases h
    exact .leak _ rfl rfl
  · cases h
    exact .create _ rfl rfl rfl rfl
  · cases h
    exact .keep _ s.renderConfig rfl (fun _ => rfl) rfl rfl
  · cases h
    exact .keep _ s.renderConfig rfl (fun _ => rfl) rfl rfl
  · cases h
    exact .keep _ s.renderConfig rfl (fun _ => rfl) rfl rfl
  · exact remove_cases rfl rfl rfl rfl rfl h
  · cases h
    exact .keep _ s.renderConfig rfl (fun _ => rfl) rfl rfl
  · exact remove_cases rfl rfl rfl rfl rfl h
  · cases h
    exact .keep _ s.renderConfig rfl (fun _ => rfl) rfl rfl
  · cases h

end Inversion

/-! ### Every run -/

section Steps

variable {κ α : Type} {request : κ → Request α} {superuser : Bool} {s t : State κ α} {k : κ}
  {x : Generation α} {p : StartupPoint} {outcome : Option Raised}

/-- A call has a work directory only between its creation and its removal. -/
def Tidy (s : State κ α) : Prop := ∀ k ∈ s.workdirs, (s.phase k).MayHaveWorkdir = true

lemma Phase.ended_of_mayHaveWorkdir {phase : Phase} (h : phase.MayHaveWorkdir = true) :
    phase.Ended = false := by
  cases phase <;> first | rfl | cases h

lemma Tidy.holds_iff (h : Tidy s) (k : κ) : s.Holds k ↔ (s.phase k).Holds = true := by
  refine ⟨?_, .inl⟩
  rintro (hholds | ⟨hended, hk⟩)
  · exact hholds
  · rw [Phase.ended_of_mayHaveWorkdir (h k hk)] at hended
    cases hended

/-- What every reachable state has while all exceptions are handled. -/
structure Sound (request : κ → Request α) (s : State κ α) : Prop where
  slots : SlotsSound request s
  guarded : Guarded s
  tidy : Tidy s

lemma afterStartup_outside (request : κ → Request α) (k : κ) :
    (afterStartup request k).InStartup = false ∧ (afterStartup request k).Holds = false := by
  unfold afterStartup
  split
  · exact ⟨rfl, rfl⟩
  · exact ⟨rfl, rfl⟩

variable [DecidableEq κ]

lemma Tidy.update (h : Tidy s) {phase : Phase}
    (hothers : ∀ j ∈ t.workdirs, j ≠ k → j ∈ s.workdirs)
    (hphase : t.phase = Function.update s.phase k phase)
    (hk : k ∈ t.workdirs → phase.MayHaveWorkdir = true) : Tidy t := by
  intro j hj
  rw [hphase]
  by_cases hjk : j = k
  · subst hjk
    rw [Function.update_self]
    exact hk hj
  · rw [Function.update_of_ne hjk]
    exact h j (hothers j hj hjk)

/-- A step of a call that has no work directory. -/
lemma Tidy.keep (h : Tidy s) {phase : Phase} (hworkdirs : t.workdirs = s.workdirs)
    (hphase : t.phase = Function.update s.phase k phase)
    (hk : (s.phase k).MayHaveWorkdir = false) : Tidy t := by
  refine h.update (fun j hj _ => hworkdirs ▸ hj) hphase ?_
  intro hmem
  have hmay := h k (hworkdirs ▸ hmem)
  rw [hk] at hmay
  cases hmay

/-- The end of `startup` by an exception. -/
lemma quit_phase (request : κ → Request α) (s : State κ α) (k : κ) (e : Raised) :
    ∃ e', s.quit request k e = { s with startupLock := none }.turn k (.raised e') := by
  unfold State.quit
  cases request k with
  | startup => exact ⟨e, rfl⟩
  | generate x => exact ⟨e.inAcquire, rfl⟩

lemma begin_turn (request : κ → Request α) (superuser : Bool) (s : State κ α) (k : κ) :
    ∃ phase : Phase, s.begin request superuser k = s.turn k phase ∧ phase.Holds = false ∧
      phase.InStartup = false := by
  unfold State.begin
  cases request k with
  | startup => exact ⟨.entering, rfl, rfl, rfl⟩
  | generate x =>
    dsimp only
    split
    · exact ⟨_, rfl, rfl, rfl⟩
    · split
      · exact ⟨_, rfl, rfl, rfl⟩
      · exact ⟨_, rfl, rfl, rfl⟩

lemma enter_cases (h : s.enter request k = some t) : s.startupLock = none ∧
    (s.initialized = true ∧ t = s.turn k (afterStartup request k) ∨
      s.initialized = false ∧
        t = { s with startupLock := some k }.turn k (.starting .opening)) := by
  unfold State.enter at h
  split at h
  · cases h
  · next hlock =>
    refine ⟨not_not.mp hlock, ?_⟩
    split at h
    · next hinitialized =>
      cases h
      exact .inl ⟨hinitialized, rfl⟩
    · next hinitialized =>
      cases h
      exact .inr ⟨Bool.eq_false_iff.mpr hinitialized, rfl⟩

lemma Sound.turn (h : Sound request s) {phase : Phase} (hholds : phase.Holds = (s.phase k).Holds)
    (hworkdir : (s.phase k).MayHaveWorkdir = false) (hk : (s.phase k).InStartup = false)
    (hout : phase.InStartup = false) : Sound request (s.turn k phase) :=
  ⟨h.slots.keep rfl rfl hholds, h.guarded.keep rfl rfl rfl rfl rfl hk hout,
    h.tidy.keep rfl rfl hworkdir⟩

lemma Sound.enter (h : Sound request s) (hk : s.phase k = .entering)
    (hstep : s.enter request k = some t) : Sound request t := by
  have hstart := afterStartup_outside request k
  obtain ⟨hlock, ⟨-, rfl⟩ | ⟨hinitialized, rfl⟩⟩ := enter_cases hstep
  · apply h.turn
    · rw [hk, hstart.2]
      rfl
    · rw [hk]
      rfl
    · rw [hk]
      rfl
    · exact hstart.1
  · refine ⟨h.slots.keep rfl rfl ?_, ?_, h.tidy.keep rfl rfl ?_⟩
    · rw [hk]
      rfl
    · have hroot := h.guarded.free hlock
      rw [hinitialized] at hroot
      have hopening : s.rootLocked = StartupPoint.opening.Locked ∧
          s.processRoot = StartupPoint.opening.Registered := hroot
      have hothers : ∀ j, j ≠ k → (s.phase j).InStartup = false := by
        intro j _
        by_contra hstartup
        have hj := (h.guarded.lock j).mp (Bool.eq_true_of_not_eq_false hstartup)
        rw [hlock] at hj
        cases hj
      exact Guarded.move rfl hinitialized hopening rfl hothers
    · rw [hk]
      rfl

lemma Sound.startup (h : Sound request s) (hk : s.phase k = .starting p) {workdir : Bool}
    (hhandled : handled workdir (.starting p) outcome = true)
    (hstep : s.startup request k p outcome = some t) : Sound request t := by
  have hlock : s.startupLock = some k := (h.guarded.lock k).mp (by rw [hk]; rfl)
  have hfresh := h.guarded.fresh k hlock
  obtain ⟨hrooted, hregistered⟩ := h.guarded.held k p hk
  have hothers : ∀ j, j ≠ k → (s.phase j).InStartup = false :=
    fun j hj => h.guarded.ne_of_other hlock hj
  have hstart := afterStartup_outside request k
  have hholds : (s.phase k).Holds = false := by
    rw [hk]
    rfl
  have hworkdir : (s.phase k).MayHaveWorkdir = false := by
    rw [hk]
    rfl
  cases startup_cases workdir hstep with
  | move p' root process hroot _ =>
    refine ⟨h.slots.keep rfl rfl ?_, ?_, h.tidy.keep rfl rfl hworkdir⟩
    · rw [hholds]
      rfl
    · exact Guarded.move hlock hfresh (hroot hrooted hregistered) rfl hothers
  | done config hp _ =>
    refine ⟨h.slots.keep rfl rfl ?_, ?_, h.tidy.keep rfl rfl hworkdir⟩
    · rw [hholds, hstart.2]
    · apply Guarded.leave rfl _ rfl hstart.1 hothers
      rw [hp] at hrooted hregistered
      exact ⟨hrooted, hregistered⟩
  | quit e hlocked hgiven =>
    rw [hhandled] at hlocked
    obtain ⟨e', he'⟩ := quit_phase request s k e
    rw [he']
    refine ⟨h.slots.keep rfl rfl ?_, ?_, h.tidy.keep rfl rfl hworkdir⟩
    · rw [hholds]
      rfl
    · apply Guarded.leave rfl _ rfl rfl hothers
      change s.rootLocked = s.initialized ∧ s.processRoot = s.initialized
      rw [hrooted, hregistered, hfresh, hlocked, hgiven hlocked]
      exact ⟨rfl, rfl⟩

variable [DecidableEq α]

lemma Sound.generate (h : Sound request s) (hrequest : request k = .generate x)
    (hk : (s.phase k).InStartup = false)
    (hhandled : handled (k ∈ s.workdirs) (s.phase k) outcome = true)
    (hstep : s.generate k x (s.phase k) outcome = some t) : Sound request t := by
  cases generate_cases hstep with
  | keep phase config hholds hworkdir hout _ =>
    exact ⟨h.slots.keep rfl rfl hholds, h.guarded.keep rfl rfl rfl rfl rfl hk hout,
      h.tidy.update (fun _ hj _ => hj) rfl fun hmem => hworkdir (h.tidy k hmem)⟩
  | create phase hholds hworkdir hout _ =>
    refine ⟨h.slots.keep rfl rfl hholds, h.guarded.keep rfl rfl rfl rfl rfl hk hout,
      h.tidy.update ?_ rfl fun _ => hworkdir⟩
    intro j hj hjk
    exact Finset.mem_of_mem_insert_of_ne hj hjk
  | claim phase hfree hbefore hholds hworkdir hout _ =>
    exact ⟨h.slots.claim hrequest hbefore hholds hfree,
      h.guarded.keep rfl rfl rfl rfl rfl hk hout, h.tidy.keep rfl rfl hworkdir⟩
  | release phase workdirs hbefore hholds hout hremoved hsub _ =>
    have hslots : SlotsSound request { s with workdirs := workdirs } :=
      ⟨h.slots.atMostTwo, h.slots.slots, h.slots.single⟩
    refine ⟨hslots.release hrequest hbefore hholds, h.guarded.keep rfl rfl rfl rfl rfl hk hout,
      h.tidy.update (fun _ hj _ => hsub hj) rfl ?_⟩
    intro hmem
    exact absurd hmem (hremoved (h.tidy k (hsub hmem)))
  | leak e _ hunhandled =>
    rw [hhandled] at hunhandled
    cases hunhandled
  | leave phase _ _ _ hunhandled =>
    rw [hhandled] at hunhandled
    cases hunhandled

/-- The cases of a step. -/
inductive NextStep (request : κ → Request α) (superuser : Bool) (s : State κ α) (k : κ)
    (outcome : Option Raised) (t : State κ α) : Prop
  | begin (hk : s.phase k = .idle) (hnone : outcome = none) (ht : s.begin request superuser k = t)
  | enter (hk : s.phase k = .entering) (hnone : outcome = none) (ht : s.enter request k = some t)
  | startup (p : StartupPoint) (hk : s.phase k = .starting p)
      (ht : s.startup request k p outcome = some t)
  | generate (x : Generation α) (hrequest : request k = .generate x)
      (hk : (s.phase k).InStartup = false) (ht : s.generate k x (s.phase k) outcome = some t)

lemma next_cases (h : next request superuser s (k, outcome) = some t) :
    NextStep request superuser s k outcome t := by
  unfold next at h
  dsimp only at h
  split at h
  · next hk => exact .begin hk rfl (Option.some.inj h)
  · next hk => exact .enter hk rfl h
  · next p hk => exact .startup p hk h
  · rename_i hstartup _ _
    cases hrequest : request k with
    | startup =>
      rw [hrequest] at h
      cases h
    | generate x =>
      rw [hrequest] at h
      refine .generate x hrequest ?_ h
      cases hk : s.phase k with
      | starting p => exact (hstartup p hk).elim
      | _ => rfl

lemma Sound.step (h : Sound request s)
    (hhandled : handled (k ∈ s.workdirs) (s.phase k) outcome = true)
    (hstep : next request superuser s (k, outcome) = some t) : Sound request t := by
  cases next_cases hstep with
  | begin hk _ ht =>
    obtain ⟨phase, hphase, hholds, hout⟩ := begin_turn request superuser s k
    rw [← ht, hphase]
    apply h.turn
    · rw [hk, hholds]
      rfl
    · rw [hk]
      rfl
    · rw [hk]
      rfl
    · exact hout
  | enter hk _ ht => exact h.enter hk ht
  | startup p hk ht =>
    rw [hk] at hhandled
    exact h.startup hk hhandled ht
  | generate x hrequest hk ht => exact h.generate hrequest hk hhandled ht

/-- The steps whose exceptions are handled. -/
def Handled (s : State κ α) (event : κ × Option Raised) : Prop :=
  handled (event.1 ∈ s.workdirs) (s.phase event.1) event.2 = true

omit [DecidableEq κ] [DecidableEq α] in
lemma sound_start : Sound request (start : State κ α) :=
  ⟨slotsSound_start, guarded_start, fun k hk => absurd hk (Finset.notMem_empty k)⟩

lemma sound_reachable (h : ((system request superuser).restrict Handled).Reachable s) :
    Sound request s := by
  apply h.invariant
  · rintro s rfl
    exact sound_start
  · rintro s ⟨k, outcome⟩ t hs ⟨hhandled, hstep⟩
    exact hs.step hhandled hstep

/-! ### Starting again -/

/-- The call returns when none of its operations raises. -/
def Returns (request : κ → Request α) (superuser : Bool) (k : κ) (s : State κ α) : Prop :=
  ∃ es t, (system request superuser).Run s es t ∧ (∀ e ∈ es, e = (k, none)) ∧
    t.phase k = .returned

lemma Returns.of_next (hstep : next request superuser s (k, none) = some t)
    (h : Returns request superuser k t) : Returns request superuser k s := by
  obtain ⟨es, u, hrun, hown, hreturned⟩ := h
  refine ⟨[(k, none)] ++ es, u, (System.Run.single hstep).append hrun, ?_, hreturned⟩
  intro e he
  rcases List.mem_cons.mp he with rfl | he
  · rfl
  · exact hown e he

lemma next_starting (hk : s.phase k = .starting p) :
    next request superuser s (k, outcome) = s.startup request k p outcome := by
  unfold next
  dsimp only
  rw [hk]

omit [DecidableEq α] in
lemma turn_phase (s : State κ α) (k : κ) (phase : Phase) : (s.turn k phase).phase k = phase :=
  Function.update_self ..

/-- The body of `startup` on a root that is free. -/
lemma body_returns (hrequest : request k = .startup) (hk : s.phase k = .starting .opening)
    (hroot : s.rootLocked = false) (hprocess : s.processRoot = false) :
    Returns request superuser k s := by
  apply Returns.of_next (next_starting hk)
  apply Returns.of_next
  · rw [next_starting (turn_phase ..), State.startup]
    exact if_neg (Bool.eq_false_iff.mp hroot)
  apply Returns.of_next (next_starting (turn_phase ..))
  apply Returns.of_next
  · rw [next_starting (turn_phase ..), State.startup]
    exact if_neg (Bool.eq_false_iff.mp hprocess)
  apply Returns.of_next (next_starting (turn_phase ..))
  apply Returns.of_next (next_starting (turn_phase ..))
  refine ⟨[], _, .nil _, fun e he => absurd he List.not_mem_nil, ?_⟩
  rw [State.started, turn_phase, afterStartup, hrequest]

/-- A later startup succeeds. -/
lemma Sound.returns (h : Sound request s) (hlock : s.startupLock = none)
    (hrequest : request k = .startup) (hk : s.phase k = .idle) :
    Returns request superuser k s := by
  have hfree := h.guarded.free hlock
  have hbegin : next request superuser s (k, none) = some (s.turn k .entering) := by
    unfold next
    dsimp only
    rw [hk]
    dsimp only
    rw [State.begin, hrequest]
  have henter : next request superuser (s.turn k .entering) (k, none) =
      (s.turn k .entering).enter request k := by
    unfold next
    dsimp only
    rw [turn_phase]
  apply Returns.of_next hbegin
  cases hinitialized : s.initialized with
  | true =>
    apply Returns.of_next
    · rw [henter, State.enter]
      exact (if_neg (not_not_intro hlock)).trans (if_pos hinitialized)
    refine ⟨[], _, .nil _, fun e he => absurd he List.not_mem_nil, ?_⟩
    rw [turn_phase, afterStartup, hrequest]
  | false =>
    rw [hinitialized] at hfree
    apply Returns.of_next
    · rw [henter, State.enter]
      exact (if_neg (not_not_intro hlock)).trans (if_neg (Bool.eq_false_iff.mp hinitialized))
    exact body_returns hrequest (turn_phase ..) hfree.1 hfree.2

/-! ### The promises -/

lemma Sound.accounted (h : Sound request s) : Accounted request superuser s := by
  refine ⟨h.slots.atMostTwo, ?_, ?_, ?_, ?_⟩
  · simp only [h.tidy.holds_iff]
    exact h.slots.slots
  · intro k e owner _ hraised hactive
    obtain ⟨k', howner, hholds⟩ := (h.slots.slots owner).mp hactive
    refine ⟨k', ?_, howner, .inl hholds⟩
    rintro rfl
    rw [hraised] at hholds
    cases hholds
  · intro hlock hinitialized
    have hfree := h.guarded.free hlock
    rwa [hinitialized] at hfree
  · intro hlock k hrequest hk
    exact h.returns hlock hrequest hk

/-- An exception that no handler takes breaks the account. -/
lemma Sound.unaccounted (h : Sound request s)
    (hunhandled : handled (k ∈ s.workdirs) (s.phase k) outcome = false)
    (hstep : next request superuser s (k, outcome) = some t) :
    ¬Accounted request superuser t := by
  intro haccounted
  cases next_cases hstep with
  | begin hk hnone _ =>
    rw [hk, hnone] at hunhandled
    cases hunhandled
  | enter hk hnone _ =>
    rw [hk, hnone] at hunhandled
    cases hunhandled
  | startup p hk ht =>
    have hlock : s.startupLock = some k := (h.guarded.lock k).mp (by rw [hk]; rfl)
    rw [hk] at hunhandled
    cases startup_cases (k ∈ s.workdirs) ht with
    | move p' root process _ hhandled =>
      rw [hhandled] at hunhandled
      cases hunhandled
    | done config _ hhandled =>
      rw [hhandled] at hunhandled
      cases hunhandled
    | quit e hlocked _ =>
      obtain ⟨e', he'⟩ := quit_phase request s k e
      rw [he'] at haccounted
      have hfree := (haccounted.rootFree rfl (h.guarded.fresh k hlock)).1
      have hheld : s.rootLocked = true := by
        rw [(h.guarded.held k p hk).1, hlocked, hunhandled]
        rfl
      exact Bool.false_ne_true (hfree.symm.trans hheld)
  | generate x hrequest hk ht =>
    have howner : (request k).owner? = some x.owner := by
      rw [hrequest]
      rfl
    cases generate_cases ht with
    | keep phase config _ _ _ hhandled =>
      rw [hhandled] at hunhandled
      cases hunhandled
    | create phase _ _ _ hhandled =>
      rw [hhandled] at hunhandled
      cases hunhandled
    | claim phase _ _ _ _ _ hhandled =>
      rw [hhandled] at hunhandled
      cases hunhandled
    | release phase workdirs _ _ _ _ _ hhandled =>
      rw [hhandled] at hunhandled
      cases hunhandled
    | leak e hbefore _ =>
      have hactive : x.owner ∈ s.ownerActive := (h.slots.slots x.owner).mpr ⟨k, howner, hbefore⟩
      obtain ⟨j, hj, hjowner, hholds⟩ := haccounted.givenBack k e x.owner howner
        (turn_phase s k (.raised e)) hactive
      have hheld : (s.phase j).Holds = true := by
        have hsame : (s.turn k (.raised e)).phase j = s.phase j := Function.update_of_ne hj ..
        rw [State.Holds, hsame] at hholds
        exact (h.tidy.holds_iff j).mp hholds
      exact hj (h.slots.single j k x.owner hjowner howner hheld hbefore)
    | leave phase _ hended hleft _ =>
      have hholds : (s.release k x phase).Holds k := by
        refine .inr ⟨?_, hleft⟩
        rw [State.release, turn_phase]
        exact hended
      exact Finset.notMem_erase x.owner s.ownerActive
        ((haccounted.slots x.owner).mpr ⟨k, howner, hholds⟩)

end Steps

/-- Two exports, and calls of `startup`. -/
def exports : ℕ → Request ℕ
  | 0 => .generate ⟨7, "png", true⟩
  | 1 => .generate ⟨8, "xlsx", false⟩
  | _ => .startup

/-- A call of `startup` or the beginning of `generate`, up to the manifest. -/
def untilManifest (k : ℕ) : List (ℕ × Option Raised) := List.replicate 7 (k, none)

end ChatBI.Export.Runtime
