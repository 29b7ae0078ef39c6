import ChatBI.Analysis.Application
import ChatBI.Analysis.Validation

/-!
# The execution of a plan

`TaskExecutor.execute`: the passes over the pending tasks, the queries of the tasks that are ready
and the tasks that are skipped. What is outside may raise at every call; where an exception leaves
the execution, the state in which it does so is kept.
-/

namespace ChatBI.Analysis.Executor

open ChatBI.Lib

/-- An exception of a component outside: `ExecutionStopped`, `TaskSemanticAdapterError` or
another one. -/
inductive Thrown where
  | stopped
  | semantic
  | other
  deriving DecidableEq

/-- What the query service returns. -/
inductive Reply where
  | success (columns : List String) (rows : List (List Value)) (rowCount : Nat) (truncated : Bool)
  | failure (failure : QueryFailure)
  | invalid
  deriving DecidableEq

def Reply.outcome : Reply → QueryOutcome
  | .success columns rows rowCount truncated => .success columns rows rowCount truncated
  | .failure failed => .failure failed.errorCode.value failed.errorMessage failed.internalReason
  | .invalid => .invalid

/-- The control of the execution, the adapter and the query service, over a state of their own. -/
structure Outside (W : Type) where
  checkpoint : W → Option Thrown × W
  toQueryRequest : AnalysisTask → W → Option Thrown × W
  query : AnalysisTask → W → Except Thrown Reply × W

inductive Event where
  | queried (taskId : String)
  | recorded (result : TaskResult)
  deriving DecidableEq

def Event.query? : Event → Option String
  | .queried taskId => some taskId
  | .recorded _ => none

/-- The variables of the execution, and what happened so far. -/
structure Run (W : Type) where
  world : W
  results : Dict String TaskResult := []
  nextPending : List AnalysisTask := []
  progressed : Bool := false
  events : List Event := []

inductive Raised where
  | thrown (thrown : Thrown)
  | key (taskId : String)
  | stuck
  | endless
  deriving DecidableEq

variable {W : Type}

section Model

variable (outside : Outside W)

def checkpoint (s : Run W) : Except (Thrown × Run W) (Run W) :=
  match outside.checkpoint s.world with
  | (none, world) => .ok { s with world }
  | (some thrown, world) => .error (thrown, { s with world })

def adapt (task : AnalysisTask) (s : Run W) : Except (Thrown × Run W) (Run W) :=
  match outside.toQueryRequest task s.world with
  | (none, world) => .ok { s with world }
  | (some thrown, world) => .error (thrown, { s with world })

def ask (task : AnalysisTask) (s : Run W) : Except (Thrown × Run W) (Reply × Run W) :=
  let events := s.events ++ [.queried task.taskId]
  match outside.query task s.world with
  | (.ok reply, world) => .ok (reply, { s with world, events })
  | (.error thrown, world) => .error (thrown, { s with world, events })

/-- The first `try` of `_execute_task`. -/
def adaptTask (task : AnalysisTask) (s : Run W) : Except (Thrown × Run W) (Run W) := do
  let s ← checkpoint outside s
  let s ← adapt outside task s
  checkpoint outside s

/-- The second `try` of `_execute_task`. -/
def queryTask (task : AnalysisTask) (s : Run W) : Except (Thrown × Run W) (Reply × Run W) := do
  let s ← checkpoint outside s
  let asked ← ask outside task s
  let s ← checkpoint outside asked.2
  return (asked.1, s)

/-- `_execute_task`. -/
def executeOne (task : AnalysisTask) (s : Run W) : Except (Thrown × Run W) (TaskResult × Run W) :=
  match adaptTask outside task s with
  | .error (.stopped, s) => .error (.stopped, s)
  | .error (.semantic, s) => .ok (executeTask task.taskId .semanticInvalid, s)
  | .error (.other, s) => .ok (executeTask task.taskId .adapterError, s)
  | .ok s =>
    match queryTask outside task s with
    | .error (.stopped, s) => .error (.stopped, s)
    | .error (_, s) => .ok (executeTask task.taskId .executionError, s)
    | .ok (reply, s) => .ok (executeTask task.taskId reply.outcome, s)

def skipped (taskId : String) : TaskResult where
  taskId := taskId
  status := .skipped
  error := some ⟨"DEPENDENCY_FAILED", "依赖 Task 未成功完成", none⟩

/-- `results[task_id]`. -/
def resultOf (s : Run W) (taskId : String) : Except (Raised × Run W) TaskResult :=
  match Dict.get? s.results taskId with
  | some result => .ok result
  | none => .error (.key taskId, s)

/-- `results[task.task_id] = result`. -/
def Run.record (s : Run W) (taskId : String) (result : TaskResult) : Run W :=
  { s with
    results := Dict.set s.results taskId result
    events := s.events ++ [.recorded result] }

/-- An exception that is not caught. -/
def escape (raised : Thrown × Run W) : Raised × Run W := (.thrown raised.1, raised.2)

/-- A task whose dependencies have their results. -/
def attendReady (task : AnalysisTask) (s : Run W) : Except (Raised × Run W) (Run W) := do
  let dependencyResults ← task.dependsOn.mapM (resultOf s)
  if ∃ result ∈ dependencyResults, result.status ≠ .completed then
    return s.record task.taskId (skipped task.taskId)
  else
    let executed ← (executeOne outside task s).mapError escape
    return executed.2.record task.taskId executed.1

/-- One turn of the loop over the pending tasks. -/
def attend (s : Run W) (task : AnalysisTask) : Except (Raised × Run W) (Run W) := do
  let s ← (checkpoint outside s).mapError escape
  if ∃ dependency ∈ task.dependsOn, Dict.get? s.results dependency = none then
    return { s with nextPending := s.nextPending ++ [task] }
  else attendReady outside task { s with progressed := true }

/-- The loop of `execute`, with a number of passes that it may take. -/
def executePending : Nat → List AnalysisTask → Run W → Except (Raised × Run W) (Run W)
  | _, [], s => .ok s
  | 0, _ :: _, s => .error (.endless, s)
  | turns + 1, task :: pending, s => do
    let start := { s with nextPending := [], progressed := false }
    let s ← (task :: pending).foldlM (attend outside) start
    if s.progressed then executePending turns s.nextPending s else .error (.stuck, s)

def execute (turns : Nat) (plan : AnalysisPlan) (world : W) :
    Except (Raised × Run W) (List TaskResult × Run W) := do
  let s ← (checkpoint outside { world }).mapError escape
  let s ← executePending outside turns plan.tasks s
  let results ← plan.tasks.mapM fun task => resultOf s task.taskId
  return (results, s)

end Model

section Calls

variable {outside : Outside W} {task : AnalysisTask} {s s' : Run W}

/-- An exception that the components outside let through the execution: one of a checkpoint, or
`ExecutionStopped` of a task. -/
def Outside.Throws (outside : Outside W) (thrown : Thrown) : Prop :=
  (∃ world, (outside.checkpoint world).1 = some thrown) ∨ thrown = .stopped ∧ ∃ task world,
    (outside.toQueryRequest task world).1 = some .stopped ∨
      (outside.query task world).1 = .error .stopped

/-- A task is queried once or not at all. -/
def Asks (task : AnalysisTask) (s s' : Run W) : Prop :=
  ∃ world asked, s' = { s with world, events := s.events ++ asked } ∧
    (asked = [] ∨ asked = [.queried task.taskId])

lemma checkpoint_spec (outside : Outside W) (s : Run W) :
    (∃ world, checkpoint outside s = .ok { s with world }) ∨
      ∃ thrown world, checkpoint outside s = .error (thrown, { s with world }) ∧
        outside.Throws thrown := by
  unfold checkpoint
  have hthrows : ∀ thrown, (outside.checkpoint s.world).1 = some thrown → outside.Throws thrown :=
    fun thrown h => .inl ⟨s.world, h⟩
  generalize outside.checkpoint s.world = called at hthrows ⊢
  obtain ⟨thrown | thrown, world⟩ := called
  · exact .inl ⟨world, rfl⟩
  · exact .inr ⟨thrown, world, rfl, hthrows thrown rfl⟩

lemma adapt_spec (outside : Outside W) (task : AnalysisTask) (s : Run W) :
    (∃ world, adapt outside task s = .ok { s with world }) ∨
      ∃ thrown world, adapt outside task s = .error (thrown, { s with world }) ∧
        (thrown = .stopped → outside.Throws thrown) := by
  unfold adapt
  have hthrows : (outside.toQueryRequest task s.world).1 = some .stopped →
      outside.Throws .stopped := fun h => .inr ⟨rfl, task, s.world, .inl h⟩
  generalize outside.toQueryRequest task s.world = called at hthrows ⊢
  obtain ⟨thrown | thrown, world⟩ := called
  · exact .inl ⟨world, rfl⟩
  · refine .inr ⟨thrown, world, rfl, ?_⟩
    rintro rfl
    exact hthrows rfl

lemma ask_spec (outside : Outside W) (task : AnalysisTask) (s : Run W) :
    (∃ reply world, ask outside task s =
      .ok (reply, { s with world, events := s.events ++ [.queried task.taskId] })) ∨
      ∃ thrown world, ask outside task s =
        .error (thrown, { s with world, events := s.events ++ [.queried task.taskId] }) ∧
        (thrown = .stopped → outside.Throws thrown) := by
  unfold ask
  have hthrows : (outside.query task s.world).1 = .error .stopped → outside.Throws .stopped :=
    fun h => .inr ⟨rfl, task, s.world, .inr h⟩
  generalize outside.query task s.world = called at hthrows ⊢
  obtain ⟨thrown | reply, world⟩ := called
  · refine .inr ⟨thrown, world, rfl, ?_⟩
    rintro rfl
    exact hthrows rfl
  · exact .inl ⟨reply, world, rfl⟩

lemma adaptTask_spec (outside : Outside W) (task : AnalysisTask) (s : Run W) :
    (∃ world, adaptTask outside task s = .ok { s with world }) ∨
      ∃ thrown world, adaptTask outside task s = .error (thrown, { s with world }) ∧
        (thrown = .stopped → outside.Throws thrown) := by
  unfold adaptTask
  rcases checkpoint_spec outside s with ⟨world, h⟩ | ⟨thrown, world, h, hthrows⟩
  · rw [h]
    change (∃ _, (adapt outside task _ >>= _) = _) ∨ ∃ _ _, (adapt outside task _ >>= _) = _ ∧ _
    rcases adapt_spec outside task { s with world } with ⟨world', h⟩ | ⟨thrown, world', h, hthrows⟩
    · rw [h]
      change (∃ _, checkpoint outside _ = _) ∨ ∃ _ _, checkpoint outside _ = _ ∧ _
      rcases checkpoint_spec outside { s with world := world' } with
        ⟨world'', h⟩ | ⟨thrown, world'', h, hthrows⟩
      · exact .inl ⟨world'', h⟩
      · exact .inr ⟨thrown, world'', h, fun _ => hthrows⟩
    · rw [h]
      exact .inr ⟨thrown, world', rfl, hthrows⟩
  · rw [h]
    exact .inr ⟨thrown, world, rfl, fun _ => hthrows⟩

lemma queryTask_spec (outside : Outside W) (task : AnalysisTask) (s : Run W) :
    (∃ reply s', queryTask outside task s = .ok (reply, s') ∧ Asks task s s') ∨
      ∃ thrown s', queryTask outside task s = .error (thrown, s') ∧ Asks task s s' ∧
        (thrown = .stopped → outside.Throws thrown) := by
  unfold queryTask
  rcases checkpoint_spec outside s with ⟨world, h⟩ | ⟨thrown, world, h, hthrows⟩
  · rw [h]
    change (∃ _ _, (ask outside task _ >>= _) = _ ∧ _) ∨
      ∃ _ _, (ask outside task _ >>= _) = _ ∧ _
    rcases ask_spec outside task { s with world } with
      ⟨reply, world', h⟩ | ⟨thrown, world', h, hthrows⟩
    · rw [h]
      set asked : Run W := { s with world := world', events := s.events ++ [.queried task.taskId] }
        with hasked
      change (∃ _ _, (checkpoint outside asked >>= _) = _ ∧ _) ∨
        ∃ _ _, (checkpoint outside asked >>= _) = _ ∧ _
      rcases checkpoint_spec outside asked with ⟨world'', h⟩ | ⟨thrown, world'', h, hthrows⟩
      · rw [h]
        exact .inl ⟨reply, _, rfl, world'', _, rfl, .inr rfl⟩
      · rw [h]
        exact .inr ⟨thrown, _, rfl, ⟨world'', _, rfl, .inr rfl⟩, fun _ => hthrows⟩
    · rw [h]
      exact .inr ⟨thrown, _, rfl, ⟨world', _, rfl, .inr rfl⟩, hthrows⟩
  · rw [h]
    refine .inr ⟨thrown, _, rfl, ⟨world, [], ?_, .inl rfl⟩, fun _ => hthrows⟩
    rw [List.append_nil]

lemma executeTask_status (taskId : String) (outcome : QueryOutcome) :
    (executeTask taskId outcome).status ≠ .skipped := by
  cases outcome <;> exact TaskStatus.noConfusion

/-- A task that is executed has a result of its own, or the execution is stopped. -/
lemma executeOne_spec (outside : Outside W) (task : AnalysisTask) (s : Run W) :
    (∃ outcome s', executeOne outside task s = .ok (executeTask task.taskId outcome, s') ∧
      Asks task s s') ∨
      ∃ s', executeOne outside task s = .error (.stopped, s') ∧ Asks task s s' ∧
        outside.Throws .stopped := by
  unfold executeOne
  rcases adaptTask_spec outside task s with ⟨world, h⟩ | ⟨thrown, world, h, hthrows⟩
  · rw [h]
    dsimp only
    have hasks : ∀ s', Asks task { s with world } s' → Asks task s s' := by
      rintro s' ⟨world', asked, rfl, hasked⟩
      exact ⟨world', asked, rfl, hasked⟩
    rcases queryTask_spec outside task { s with world } with
      ⟨reply, s', h, hs'⟩ | ⟨thrown, s', h, hs', hthrows⟩
    · rw [h]
      exact .inl ⟨_, s', rfl, hasks s' hs'⟩
    · rw [h]
      cases thrown with
      | stopped => exact .inr ⟨s', rfl, hasks s' hs', hthrows rfl⟩
      | semantic => exact .inl ⟨_, s', rfl, hasks s' hs'⟩
      | other => exact .inl ⟨_, s', rfl, hasks s' hs'⟩
  · rw [h]
    have hasks : Asks task s { s with world } := by
      refine ⟨world, [], ?_, .inl rfl⟩
      rw [List.append_nil]
    cases thrown with
    | stopped => exact .inr ⟨_, rfl, hasks, hthrows rfl⟩
    | semantic => exact .inl ⟨_, _, rfl, hasks⟩
    | other => exact .inl ⟨_, _, rfl, hasks⟩

end Calls

section Traces

variable {next : String → List String} {events : List Event} {taskId : String}

/-- The tasks that are queried, in their order. -/
def queries (events : List Event) : List String := events.filterMap Event.query?

/-- No task is queried twice, and none before its dependencies are completed. -/
structure Traced (next : String → List String) (events : List Event) : Prop where
  once : (queries events).Nodup
  ordered : ∀ before taskId after, events = before ++ .queried taskId :: after →
    ∀ d ∈ next taskId, ∃ result, .recorded result ∈ before ∧ result.taskId = d ∧
      result.status = .completed

lemma queries_append (events events' : List Event) :
    queries (events ++ events') = queries events ++ queries events' := List.filterMap_append

lemma traced_nil : Traced next [] := by
  constructor
  · exact List.nodup_nil
  · intro before taskId after h
    simp at h

/-- A place in an extended list is a place in the list, or its end. -/
lemma split_concat {α : Type} {l before after : List α} {a b : α}
    (h : l ++ [a] = before ++ b :: after) :
    (∃ after', l = before ++ b :: after') ∨ l = before ∧ a = b := by
  rcases List.eq_nil_or_concat after with rfl | ⟨after', c, rfl⟩
  · have := List.append_inj' h rfl
    exact .inr ⟨this.1, List.singleton_inj.mp this.2⟩
  · rw [List.concat_eq_append, ← List.cons_append, ← List.append_assoc] at h
    exact .inl ⟨after', (List.append_inj' h rfl).1⟩

lemma Traced.record (h : Traced next events) (result : TaskResult) :
    Traced next (events ++ [.recorded result]) := by
  constructor
  · rw [queries_append]
    change (queries events ++ []).Nodup
    rw [List.append_nil]
    exact h.once
  · intro before taskId after hsplit
    rcases split_concat hsplit with ⟨after', hold⟩ | ⟨-, hsame⟩
    · exact h.ordered before taskId after' hold
    · cases hsame

lemma Traced.query (h : Traced next events) (hnew : taskId ∉ queries events)
    (hdeps : ∀ d ∈ next taskId, ∃ result, .recorded result ∈ events ∧ result.taskId = d ∧
      result.status = .completed) : Traced next (events ++ [.queried taskId]) := by
  constructor
  · rw [queries_append, List.nodup_append]
    refine ⟨h.once, List.nodup_singleton _, ?_⟩
    intro x hx y hy hsame
    rw [List.mem_singleton.mp hy] at hsame
    exact hnew (hsame ▸ hx)
  · intro before taskId' after hsplit
    rcases split_concat hsplit with ⟨after', hold⟩ | ⟨hbefore, hsame⟩
    · exact h.ordered before taskId' after' hold
    · cases hsame
      rw [← hbefore]
      exact hdeps

end Traces

section Invariants

variable {outside : Outside W} {tasks rest : List AnalysisTask} {task : AnalysisTask}
  {next : String → List String} {s s' : Run W} {result : TaskResult}

/-- A dependency whose result is not a completed one. -/
def Blocks (s : Run W) (d : String) : Prop :=
  ∃ result, Dict.get? s.results d = some result ∧ result.status ≠ .completed

/-- The results that an execution has so far. -/
structure Sound (next : String → List String) (s : Run W) : Prop where
  traced : Traced next s.events
  asked : ∀ taskId ∈ queries s.events, Dict.get? s.results taskId ≠ none
  kept : ∀ taskId result, Dict.get? s.results taskId = some result →
    result.taskId = taskId ∧ .recorded result ∈ s.events
  behind : ∀ taskId, Dict.get? s.results taskId ≠ none → ∀ d ∈ next taskId,
    Dict.get? s.results d ≠ none
  skipped : ∀ taskId result, Dict.get? s.results taskId = some result →
    (result.status = .skipped ↔ ∃ d ∈ next taskId, Blocks s d)

/-- The tasks that a pass has still to attend to, and those that it has put off. -/
structure Pending (tasks : List AnalysisTask) (s : Run W) (rest : List AnalysisTask) : Prop where
  nodup : ((s.nextPending ++ rest).map AnalysisTask.taskId).Nodup
  mem : ∀ task ∈ s.nextPending ++ rest, task ∈ tasks
  open_iff : ∀ task ∈ tasks, Dict.get? s.results task.taskId = none ↔ task ∈ s.nextPending ++ rest

lemma Sound.of_results (h : Sound next s) (hresults : s'.results = s.results)
    (hevents : s'.events = s.events) : Sound next s' := by
  have hblocks : ∀ d, Blocks s' d ↔ Blocks s d := by
    intro d
    rw [Blocks, Blocks, hresults]
  constructor
  · rw [hevents]
    exact h.traced
  · rw [hevents, hresults]
    exact h.asked
  · rw [hevents, hresults]
    exact h.kept
  · rw [hresults]
    exact h.behind
  · rw [hresults]
    simp only [hblocks]
    exact h.skipped

/-- The result of a task whose dependencies have theirs. -/
lemma Sound.record {s₁ : Run W} {asked : List Event} (h : Sound next s)
    (hresults : s₁.results = s.results) (hevents : s₁.events = s.events ++ asked)
    (hnew : Dict.get? s.results task.taskId = none) (hid : result.taskId = task.taskId)
    (hdeps : ∀ d ∈ next task.taskId, Dict.get? s.results d ≠ none)
    (hskipped : result.status = .skipped ↔ ∃ d ∈ next task.taskId, Blocks s d)
    (hasked : ∀ taskId ∈ queries asked, taskId = task.taskId)
    (htraced : Traced next s₁.events) : Sound next (s₁.record task.taskId result) := by
  set s' := s₁.record task.taskId result with hs'
  have hself : Dict.get? s'.results task.taskId = some result := Dict.get?_set_self
  have hother : ∀ d, d ≠ task.taskId → Dict.get? s'.results d = Dict.get? s.results d := by
    intro d hne
    rw [← hresults]
    exact Dict.get?_set_of_ne hne.symm
  have hold : ∀ d, Dict.get? s.results d ≠ none → Dict.get? s'.results d = Dict.get? s.results d := by
    intro d hd
    apply hother
    rintro rfl
    exact hd hnew
  have hblocks : ∀ d, Dict.get? s.results d ≠ none → (Blocks s' d ↔ Blocks s d) := by
    intro d hd
    rw [Blocks, Blocks, hold d hd]
  have hevents' : s'.events = s.events ++ asked ++ [.recorded result] := by
    rw [← hevents]
    rfl
  have hmem : ∀ e ∈ s.events, e ∈ s'.events := by
    intro e he
    rw [hevents']
    exact List.mem_append_left _ (List.mem_append_left _ he)
  constructor
  · exact htraced.record result
  · intro taskId htaskId
    rw [hevents', queries_append, queries_append] at htaskId
    rcases List.mem_append.mp htaskId with hin | hnone
    · rcases List.mem_append.mp hin with hin | hin
      · have hknown := h.asked taskId hin
        rw [hold taskId hknown]
        exact hknown
      · rw [hasked taskId hin, hself]
        exact Option.some_ne_none _
    · cases hnone
  · intro taskId result' hresult
    by_cases hsame : taskId = task.taskId
    · subst hsame
      rw [hself] at hresult
      cases hresult
      rw [hevents']
      exact ⟨hid, List.mem_append_right _ List.mem_cons_self⟩
    · rw [hother taskId hsame] at hresult
      exact ⟨(h.kept taskId result' hresult).1, hmem _ (h.kept taskId result' hresult).2⟩
  · intro taskId hknown d hd
    have hdknown : Dict.get? s.results d ≠ none := by
      by_cases hsame : taskId = task.taskId
      · exact hdeps d (hsame ▸ hd)
      · rw [hother taskId hsame] at hknown
        exact h.behind taskId hknown d hd
    rw [hold d hdknown]
    exact hdknown
  · intro taskId result' hresult
    by_cases hsame : taskId = task.taskId
    · subst hsame
      rw [hself] at hresult
      cases hresult
      rw [hskipped]
      exact exists_congr fun d => and_congr_right fun hd => (hblocks d (hdeps d hd)).symm
    · rw [hother taskId hsame] at hresult
      rw [h.skipped taskId result' hresult]
      have hknown : Dict.get? s.results taskId ≠ none := by
        rw [hresult]
        exact Option.some_ne_none _
      exact exists_congr fun d =>
        and_congr_right fun hd => (hblocks d (h.behind taskId hknown d hd)).symm

/-- The task at hand is put off. -/
lemma Pending.wait (h : Pending tasks s (task :: rest)) (hresults : s'.results = s.results)
    (hnext : s'.nextPending = s.nextPending ++ [task]) : Pending tasks s' rest := by
  have hsame : s'.nextPending ++ rest = s.nextPending ++ task :: rest := by
    rw [hnext, List.append_assoc]
    rfl
  constructor
  · rw [hsame]
    exact h.nodup
  · rw [hsame]
    exact h.mem
  · rw [hsame, hresults]
    exact h.open_iff

/-- The task at hand has its result. -/
lemma Pending.record (h : Pending tasks s (task :: rest))
    (hids : (tasks.map AnalysisTask.taskId).Nodup)
    (hresults : s'.results = Dict.set s.results task.taskId result)
    (hnext : s'.nextPending = s.nextPending) : Pending tasks s' rest := by
  have hperm : (s.nextPending ++ task :: rest).Perm (task :: (s.nextPending ++ rest)) :=
    List.perm_middle
  have hnodup := (hperm.map AnalysisTask.taskId).nodup_iff.mp h.nodup
  rw [List.map_cons, List.nodup_cons] at hnodup
  have hinj := List.inj_on_of_nodup_map hids
  have htask : task ∈ tasks := h.mem task (hperm.mem_iff.mpr List.mem_cons_self)
  constructor
  · rw [hnext]
    exact hnodup.2
  · rw [hnext]
    exact fun t ht => h.mem t (hperm.mem_iff.mpr (List.mem_cons_of_mem _ ht))
  · intro t ht
    rw [hnext, hresults]
    by_cases hsame : t = task
    · subst hsame
      rw [Dict.get?_set_self]
      constructor
      · exact fun hnone => absurd hnone (Option.some_ne_none _)
      · exact fun hin => absurd (List.mem_map_of_mem hin) hnodup.1
    · have hne : task.taskId ≠ t.taskId := fun hid => hsame (hinj ht htask hid.symm)
      rw [Dict.get?_set_of_ne hne, h.open_iff t ht, hperm.mem_iff, List.mem_cons]
      exact or_iff_right hsame

/-- A task at hand is put off when a dependency has no result; otherwise it gets one. -/
inductive Attended (task : AnalysisTask) (s s' : Run W) : Prop where
  | waits (hdep : ∃ d ∈ task.dependsOn, Dict.get? s.results d = none)
      (hresults : s'.results = s.results) (hnext : s'.nextPending = s.nextPending ++ [task])
      (hprogressed : s'.progressed = s.progressed)
  | settles (hresults : ∃ result, s'.results = Dict.set s.results task.taskId result)
      (hnext : s'.nextPending = s.nextPending) (hprogressed : s'.progressed = true)

/-- An exception of the components outside, with the trace that it leaves. -/
def Halted (outside : Outside W) (next : String → List String) (raised : Raised × Run W) : Prop :=
  ∃ thrown, raised.1 = .thrown thrown ∧ outside.Throws thrown ∧ Traced next raised.2.events

lemma get?_of_resultOf {d : String} (h : resultOf s d = .ok result) :
    Dict.get? s.results d = some result := by
  unfold resultOf at h
  cases hget : Dict.get? s.results d with
  | none =>
    rw [hget] at h
    cases h
  | some found =>
    rw [hget] at h
    cases h
    rfl

lemma mapM_resultOf {ids : List String} (h : ∀ d ∈ ids, Dict.get? s.results d ≠ none) :
    ∃ results, ids.mapM (resultOf s) = .ok results ∧
      ∀ result, result ∈ results ↔ ∃ d ∈ ids, Dict.get? s.results d = some result := by
  have hall : ∀ d ∈ ids, ∃ result, resultOf s d = .ok result := by
    intro d hd
    obtain ⟨result, hresult⟩ := Option.ne_none_iff_exists'.mp (h d hd)
    exact ⟨result, by rw [resultOf, hresult]⟩
  obtain ⟨results, hresults⟩ := exists_mapM_ok_iff.mpr hall
  refine ⟨results, hresults, fun result => ?_⟩
  have hforall := (mapM_ok hresults).imp fun _ _ hresult => get?_of_resultOf hresult
  constructor
  · exact fun hin => exists_of_forall₂ hforall hin
  · rintro ⟨d, hd, hsome⟩
    obtain ⟨result', hin, hsame⟩ := exists_of_forall₂ hforall.flip hd
    rw [hsome] at hsame
    cases hsame
    exact hin

/-- A task whose dependencies have results is skipped or executed. -/
lemma attendReady_spec (hsound : Sound next s) (hnew : Dict.get? s.results task.taskId = none)
    (hnext : next task.taskId = task.dependsOn)
    (hdeps : ∀ d ∈ task.dependsOn, Dict.get? s.results d ≠ none) :
    (∃ s', attendReady outside task s = .ok s' ∧ Sound next s' ∧
      s'.nextPending = s.nextPending ∧ s'.progressed = s.progressed ∧
      ∃ result, s'.results = Dict.set s.results task.taskId result) ∨
    ∃ raised, attendReady outside task s = .error raised ∧ Halted outside next raised := by
  obtain ⟨results, hmap, hresults⟩ := mapM_resultOf hdeps
  have hblocks : (∃ result ∈ results, result.status ≠ .completed) ↔
      ∃ d ∈ next task.taskId, Blocks s d := by
    rw [hnext]
    constructor
    · rintro ⟨result, hin, hstatus⟩
      obtain ⟨d, hd, hget⟩ := (hresults result).mp hin
      exact ⟨d, hd, result, hget, hstatus⟩
    · rintro ⟨d, hd, result, hget, hstatus⟩
      exact ⟨result, (hresults result).mpr ⟨d, hd, hget⟩, hstatus⟩
  unfold attendReady
  rw [hmap]
  rw [← hnext] at hdeps
  change (∃ s', ite _ _ _ = _ ∧ _) ∨ ∃ raised, ite _ _ _ = _ ∧ _
  by_cases hblocked : ∃ result ∈ results, result.status ≠ .completed
  · rw [if_pos hblocked]
    refine .inl ⟨_, rfl, ?_, rfl, rfl, _, rfl⟩
    apply hsound.record rfl (List.append_nil _).symm hnew rfl hdeps
    · exact ⟨fun _ => hblocks.mp hblocked, fun _ => rfl⟩
    · exact fun _ h => absurd h List.not_mem_nil
    · exact hsound.traced
  · rw [if_neg hblocked]
    have hcompleted : ∀ d ∈ next task.taskId, ∃ result, .recorded result ∈ s.events ∧
        result.taskId = d ∧ result.status = .completed := by
      intro d hd
      obtain ⟨result, hget⟩ := Option.ne_none_iff_exists'.mp (hdeps d hd)
      obtain ⟨hid, hrecorded⟩ := hsound.kept d result hget
      refine ⟨result, hrecorded, hid, ?_⟩
      by_contra hstatus
      exact hblocked (hblocks.mpr ⟨d, hd, result, hget, hstatus⟩)
    have hunasked : task.taskId ∉ queries s.events := fun hin => hsound.asked _ hin hnew
    have htrace : ∀ asked, asked = [] ∨ asked = [Event.queried task.taskId] →
        Traced next (s.events ++ asked) ∧ ∀ taskId ∈ queries asked, taskId = task.taskId := by
      rintro asked (rfl | rfl)
      · rw [List.append_nil]
        exact ⟨hsound.traced, fun _ h => absurd h List.not_mem_nil⟩
      · exact ⟨hsound.traced.query hunasked hcompleted, fun _ h => List.mem_singleton.mp h⟩
    rcases executeOne_spec outside task s with
      ⟨outcome, _, hok, world, asked, rfl, hasked⟩ | ⟨_, herror, ⟨world, asked, rfl, hasked⟩, hthrows⟩
    · rw [hok]
      set executed : Run W := { s with world, events := s.events ++ asked } with hexecuted
      refine .inl ⟨executed.record task.taskId (executeTask task.taskId outcome), rfl, ?_, rfl, rfl,
        _, rfl⟩
      have hresults' : executed.results = s.results := rfl
      apply hsound.record hresults' rfl hnew (executeTask_taskId task.taskId outcome) hdeps
      · exact ⟨fun h => absurd h (executeTask_status task.taskId outcome),
          fun h => absurd (hblocks.mpr h) hblocked⟩
      · exact (htrace asked hasked).2
      · exact (htrace asked hasked).1
    · rw [herror]
      exact .inr ⟨_, rfl, .stopped, rfl, hthrows, (htrace asked hasked).1⟩

/-- One turn of the loop over the pending tasks. -/
theorem attend_spec (hsound : Sound next s) (hpending : Pending tasks s (task :: rest))
    (hids : (tasks.map AnalysisTask.taskId).Nodup)
    (hnext : ∀ task ∈ tasks, next task.taskId = task.dependsOn) :
    (∃ s', attend outside s task = .ok s' ∧ Sound next s' ∧ Pending tasks s' rest ∧
      Attended task s s') ∨
    ∃ raised, attend outside s task = .error raised ∧ Halted outside next raised := by
  have hin : task ∈ s.nextPending ++ task :: rest := List.mem_append_right _ List.mem_cons_self
  have htask := hpending.mem task hin
  unfold attend
  rcases checkpoint_spec outside s with ⟨world, h⟩ | ⟨thrown, world, h, hthrows⟩
  · rw [h]
    change (∃ s', ite _ _ _ = _ ∧ _) ∨ ∃ raised, ite _ _ _ = _ ∧ _
    dsimp only
    by_cases hwait : ∃ dependency ∈ task.dependsOn, Dict.get? s.results dependency = none
    · rw [if_pos hwait]
      refine .inl ⟨_, rfl, hsound.of_results rfl rfl, ?_, .waits hwait rfl rfl rfl⟩
      exact hpending.wait rfl rfl
    · rw [if_neg hwait]
      have hdeps : ∀ d ∈ task.dependsOn, Dict.get? s.results d ≠ none :=
        fun d hd hnone => hwait ⟨d, hd, hnone⟩
      have hstart : Sound next { s with world, progressed := true } := hsound.of_results rfl rfl
      have hnew := (hpending.open_iff task htask).mpr hin
      rcases attendReady_spec hstart hnew (hnext task htask) hdeps with
        ⟨s', hok, hsound', hwaiting, hprogressed, result, hresult⟩ | hraised
      · refine .inl ⟨s', hok, hsound', ?_, .settles ⟨result, hresult⟩ hwaiting hprogressed⟩
        exact hpending.record hids hresult hwaiting
      · exact .inr hraised
  · rw [h]
    exact .inr ⟨_, rfl, thrown, rfl, hthrows, hsound.traced⟩

/-- What a pass over pending tasks does: it settles some, or all of them wait for another task. -/
inductive Passed (pending : List AnalysisTask) (s s' : Run W) : Prop where
  | moved (hprogressed : s'.progressed = true)
      (hfewer : s.progressed = true ∨
        s'.nextPending.length < s.nextPending.length + pending.length)
  | idle (hprogressed : s'.progressed = false) (hbefore : s.progressed = false)
      (hwaits : ∀ task ∈ pending, ∃ d ∈ task.dependsOn, Dict.get? s.results d = none)

lemma pass_spec (hsound : Sound next s) (hpending : Pending tasks s rest)
    (hids : (tasks.map AnalysisTask.taskId).Nodup)
    (hnext : ∀ task ∈ tasks, next task.taskId = task.dependsOn) :
    (∃ s', rest.foldlM (attend outside) s = .ok s' ∧ Sound next s' ∧ Pending tasks s' [] ∧
      s'.nextPending.length ≤ s.nextPending.length + rest.length ∧ Passed rest s s') ∨
    ∃ raised, rest.foldlM (attend outside) s = .error raised ∧ Halted outside next raised := by
  induction rest generalizing s with
  | nil =>
    refine .inl ⟨s, rfl, hsound, hpending, Nat.le_refl _, ?_⟩
    cases hprogressed : s.progressed with
    | true => exact .moved hprogressed (.inl hprogressed)
    | false => exact .idle hprogressed hprogressed fun task htask => absurd htask List.not_mem_nil
  | cons task rest ih =>
    rw [List.foldlM_cons]
    rcases attend_spec hsound hpending hids hnext with
      ⟨s₁, hok, hsound₁, hpending₁, hattended⟩ | ⟨raised, herror, hhalted⟩
    · rw [hok]
      rcases ih hsound₁ hpending₁ with ⟨s', hfold, hsound', hpending', hle, hpassed⟩ | hraised
      · refine .inl ⟨s', hfold, hsound', hpending', ?_⟩
        rw [List.length_cons]
        cases hattended with
        | waits hdep hresults hwaiting hprogressed =>
          rw [hwaiting, List.length_append, List.length_singleton] at hle
          refine ⟨by omega, ?_⟩
          cases hpassed with
          | moved hmoved hfewer =>
            refine .moved hmoved ?_
            rw [hprogressed, hwaiting, List.length_append, List.length_singleton] at hfewer
            rw [List.length_cons]
            exact hfewer.imp_right fun h => by omega
          | idle hidle hbefore hwaits =>
            rw [hprogressed] at hbefore
            rw [hresults] at hwaits
            exact .idle hidle hbefore (List.forall_mem_cons.mpr ⟨hdep, hwaits⟩)
        | settles hresults hwaiting hprogressed =>
          rw [hwaiting] at hle
          refine ⟨by omega, ?_⟩
          cases hpassed with
          | moved hmoved _ =>
            refine .moved hmoved (.inr ?_)
            rw [List.length_cons]
            omega
          | idle _ hbefore _ =>
            rw [hprogressed] at hbefore
            cases hbefore
      · exact .inr hraised
    · rw [herror]
      exact .inr ⟨raised, rfl, hhalted⟩

end Invariants

section Passes

variable {outside : Outside W} {tasks pending : List AnalysisTask} {next : String → List String}
  {s : Run W} {turns : Nat}

/-- A graph of tasks in which every walk from a task is bounded. -/
structure Bounded (next : String → List String) (tasks : List AnalysisTask) : Prop where
  ids : (tasks.map AnalysisTask.taskId).Nodup
  gives : ∀ task ∈ tasks, next task.taskId = task.dependsOn
  closed : ∀ task ∈ tasks, ∀ d ∈ task.dependsOn, ∃ task' ∈ tasks, task'.taskId = d
  bounded : ∀ task ∈ tasks, ∃ b, ∀ n, Walk next task.taskId n → n ≤ b

/-- Tasks that all wait for one of them can be walked without end. -/
lemma Bounded.exists_ready (h : Bounded next tasks) (hpending : pending ⊆ tasks)
    (hne : pending ≠ []) : ∃ task ∈ pending, ∀ d ∈ task.dependsOn,
      d ∉ pending.map AnalysisTask.taskId := by
  by_contra hnone
  have hwaits : ∀ task ∈ pending, ∃ task' ∈ pending, task'.taskId ∈ next task.taskId := by
    intro task htask
    by_contra hready
    apply hnone
    refine ⟨task, htask, fun d hd hin => hready ?_⟩
    obtain ⟨task', htask', rfl⟩ := List.mem_map.mp hin
    refine ⟨task', htask', ?_⟩
    rw [h.gives task (hpending htask)]
    exact hd
  -- by induction on the length: every pending task has a walk of it
  have hwalks : ∀ n, ∀ task ∈ pending, Walk next task.taskId n := by
    intro n
    induction n with
    | zero => exact fun task _ => .here task.taskId
    | succ n ih =>
      intro task htask
      obtain ⟨task', htask', hdep⟩ := hwaits task htask
      exact .step hdep (ih task' htask')
  obtain ⟨task, htask⟩ := List.exists_mem_of_ne_nil pending hne
  obtain ⟨b, hb⟩ := h.bounded task (hpending htask)
  exact Nat.not_succ_le_self b (hb (b + 1) (hwalks (b + 1) task htask))

/-- With as many passes as there are tasks, every task gets its result unless a component outside
stops the execution. -/
theorem executePending_spec (h : Bounded next tasks) (hturns : pending.length ≤ turns)
    (hsound : Sound next s) (hpending : Pending tasks { s with nextPending := [] } pending) :
    (∃ s', executePending outside turns pending s = .ok s' ∧ Sound next s' ∧
      ∀ task ∈ tasks, Dict.get? s'.results task.taskId ≠ none) ∨
    ∃ raised, executePending outside turns pending s = .error raised ∧
      Halted outside next raised := by
  induction turns generalizing pending s with
  | zero =>
    obtain rfl := List.length_eq_zero_iff.mp (Nat.le_zero.mp hturns)
    refine .inl ⟨s, rfl, hsound, fun task htask hnone => ?_⟩
    exact absurd ((hpending.open_iff task htask).mp hnone) List.not_mem_nil
  | succ turns ih =>
    cases pending with
    | nil =>
      refine .inl ⟨s, rfl, hsound, fun task htask hnone => ?_⟩
      exact absurd ((hpending.open_iff task htask).mp hnone) List.not_mem_nil
    | cons task pending =>
      rw [executePending]
      set start : Run W := { s with nextPending := [], progressed := false } with hstart
      have hstarted : Pending tasks start (task :: pending) :=
        ⟨hpending.nodup, hpending.mem, hpending.open_iff⟩
      have hsounded : Sound next start := hsound.of_results rfl rfl
      rcases pass_spec hsounded hstarted h.ids h.gives with
        ⟨s', hfold, hsound', hpending', -, hpassed⟩ | ⟨raised, herror, hhalted⟩
      · rw [hfold]
        change (∃ s', ite _ _ _ = _ ∧ _) ∨ ∃ raised, ite _ _ _ = _ ∧ _
        cases hpassed with
        | moved hmoved hfewer =>
          rw [if_pos hmoved]
          have hshorter : s'.nextPending.length < 0 + (task :: pending).length :=
            hfewer.resolve_left Bool.false_ne_true
          apply ih (by omega) hsound'
          have hsame : s'.nextPending ++ [] = [] ++ s'.nextPending := List.append_nil _
          obtain ⟨hnodup, hmem, hopen⟩ := hpending'
          rw [hsame] at hnodup hmem hopen
          exact ⟨hnodup, hmem, hopen⟩
        | idle _ _ hwaits =>
          exfalso
          -- the task that waits for no pending one waits for a task that has a result
          obtain ⟨ready, hready, hfree⟩ := h.exists_ready hpending.mem (List.cons_ne_nil _ _)
          obtain ⟨d, hd, hnone⟩ := hwaits ready hready
          obtain ⟨task', htask', rfl⟩ := h.closed ready (hpending.mem ready hready) d hd
          have hin := (hpending.open_iff task' htask').mp hnone
          exact hfree _ hd (List.mem_map_of_mem hin)
      · rw [herror]
        exact .inr ⟨raised, rfl, hhalted⟩

end Passes

section Plans

variable {outside : Outside W} {plan : AnalysisPlan} {texts : Texts}

/-- The dependencies of a task of a plan. -/
def dependencies (tasks : List AnalysisTask) (taskId : String) : List String :=
  (Dict.get? (tasks.map fun task => (task.taskId, task.dependsOn)) taskId).getD []

/-- A plan that one of the two validations returned. -/
def Accepted (texts : Texts) (plan : AnalysisPlan) : Prop :=
  (∃ catalog candidate maxDepth maxTasks,
    Validation.validateAnalysisPlan texts catalog candidate maxDepth maxTasks = .ok plan) ∨
  ∃ candidate catalog question request,
    buildComparisonPlan texts candidate catalog question = .ok (request, plan)

lemma validated_edges {catalog : AnalysisSemanticCatalog}
    {candidates : List Validation.AnalysisTaskCandidate} {tasks : List AnalysisTask}
    (h : candidates.mapM (Validation.validatedTask texts catalog) = .ok tasks) :
    (tasks.map fun task => (task.taskId, task.dependsOn)) =
      candidates.map fun task => (task.taskId, task.dependsOn) := by
  have hforall := mapM_ok h
  clear h
  induction hforall with
  | nil => rfl
  | cons htask _ ih =>
    unfold Validation.validatedTask at htask
    simp only [except_bind_ok, except_pure_ok] at htask
    obtain ⟨metrics, -, dimensions, -, rfl⟩ := htask
    rw [List.map_cons, List.map_cons, ih]

lemma get?_edges (candidates : List Validation.AnalysisTaskCandidate) (taskId : String) :
    (Dict.get? (candidates.map fun task => (task.taskId, task.dependsOn)) taskId).getD [] =
      Validation.dependencies candidates taskId := by
  unfold Validation.dependencies
  congr 1
  induction candidates with
  | nil => rfl
  | cons task candidates ih =>
    rw [List.map_cons, Dict.get?, List.find?_cons, ih]
    by_cases h : task.taskId = taskId <;> simp [h]

lemma dependencies_of_mem {tasks : List AnalysisTask}
    (hids : (tasks.map AnalysisTask.taskId).Nodup) {task : AnalysisTask} (h : task ∈ tasks) :
    dependencies tasks task.taskId = task.dependsOn := by
  have hkeys : ((tasks.map fun task => (task.taskId, task.dependsOn)).map Prod.fst).Nodup := by
    rw [List.map_map]
    exact hids
  have hin : (task.taskId, task.dependsOn) ∈
      tasks.map fun task => (task.taskId, task.dependsOn) := List.mem_map_of_mem h
  rw [dependencies, Dict.get?_of_mem hkeys hin]
  rfl

/-- The graph of an accepted plan has no walk without end. -/
theorem Accepted.bounded (h : Accepted texts plan) : Bounded (dependencies plan.tasks) plan.tasks := by
  rcases h with ⟨catalog, candidate, maxDepth, maxTasks, h⟩ | ⟨candidate, catalog, question, request, h⟩
  · have hformed := (Validation.validate_ok_iff.mp ⟨plan, h⟩).2
    unfold Validation.validateAnalysisPlan at h
    simp only [except_bind_ok, except_pure_ok] at h
    obtain ⟨-, -, -, -, -, -, -, -, -, -, tasks, htasks, rfl⟩ := h
    have hedges := validated_edges htasks
    have hkeys : tasks.map AnalysisTask.taskId =
        candidate.tasks.map Validation.AnalysisTaskCandidate.taskId := by
      have hfst := congrArg (List.map Prod.fst) hedges
      rwa [List.map_map, List.map_map] at hfst
    have hsame : dependencies tasks = Validation.dependencies candidate.tasks := by
      funext taskId
      rw [dependencies, hedges, get?_edges]
    have hids : (tasks.map AnalysisTask.taskId).Nodup := hkeys ▸ hformed.ids
    have horigin : ∀ task ∈ tasks, ∃ candidate' ∈ candidate.tasks,
        candidate'.taskId = task.taskId ∧ candidate'.dependsOn = task.dependsOn := by
      intro task htask
      have hin : (task.taskId, task.dependsOn) ∈
          candidate.tasks.map fun task => (task.taskId, task.dependsOn) :=
        hedges ▸ List.mem_map_of_mem htask
      obtain ⟨candidate', hcandidate, hpair⟩ := List.mem_map.mp hin
      exact ⟨candidate', hcandidate, Prod.mk.inj hpair⟩
    constructor
    · exact hids
    · exact fun task htask => dependencies_of_mem hids htask
    · intro task htask d hd
      obtain ⟨candidate', hcandidate, -, hdeps⟩ := horigin task htask
      have hknown := hformed.known candidate' hcandidate d (hdeps ▸ hd)
      rw [← hkeys] at hknown
      exact List.mem_map.mp hknown
    · intro task htask
      obtain ⟨candidate', hcandidate, hid, -⟩ := horigin task htask
      refine ⟨maxDepth.toNat, fun n hwalk => ?_⟩
      rw [hsame, ← hid] at hwalk
      have hle := hformed.bounded candidate' hcandidate n hwalk
      omega
  · obtain rfl := buildComparisonPlan_ok h
    have hnone : ∀ task ∈ (comparisonPlan request).tasks, task.dependsOn = [] := by
      intro task htask
      simp only [comparisonPlan, List.mem_cons, List.not_mem_nil, or_false] at htask
      rcases htask with rfl | rfl | rfl | rfl <;> rfl
    constructor
    · exact comparisonPlan_nodup request
    · exact fun task htask => dependencies_of_mem (comparisonPlan_nodup request) htask
    · intro task htask d hd
      rw [hnone task htask] at hd
      cases hd
    · intro task htask
      refine ⟨0, fun n hwalk => ?_⟩
      cases hwalk with
      | here => exact Nat.le_refl 0
      | step hb _ =>
        rw [dependencies_of_mem (comparisonPlan_nodup request) htask, hnone task htask] at hb
        cases hb

/-- What the execution of a plan ends with: the results of all tasks in the order of the plan, or
an exception of a component outside. -/
inductive Executed (outside : Outside W) (plan : AnalysisPlan) :
    Except (Raised × Run W) (List TaskResult × Run W) → Prop where
  | returned {results : List TaskResult} {s : Run W}
      (htraced : Traced (dependencies plan.tasks) s.events)
      (hids : results.map TaskResult.taskId = plan.tasks.map AnalysisTask.taskId)
      (hskipped : ∀ result ∈ results, result.status = .skipped ↔
        ∃ other ∈ results, Leads (dependencies plan.tasks) result.taskId other.taskId ∧
          other.status ≠ .completed) : Executed outside plan (.ok (results, s))
  | raised {raised : Raised × Run W} (h : Halted outside (dependencies plan.tasks) raised) :
      Executed outside plan (.error raised)

/-- What a task leads to is a task. -/
lemma Bounded.task_of_leads {tasks : List AnalysisTask} {x y : String}
    (h : Bounded (dependencies tasks) tasks) (hleads : Leads (dependencies tasks) x y) :
    ∃ task ∈ tasks, task.taskId = y := by
  have hlast : ∃ z, y ∈ dependencies tasks z := by
    cases hleads with
    | single hy => exact ⟨_, hy⟩
    | tail _ hy => exact ⟨_, hy⟩
  obtain ⟨z, hz⟩ := hlast
  cases hget : Dict.get? (tasks.map fun task => (task.taskId, task.dependsOn)) z with
  | none =>
    rw [dependencies, hget] at hz
    cases hz
  | some deps =>
    obtain ⟨task, htask, hpair⟩ := List.mem_map.mp (Dict.mem_of_get? hget)
    rw [dependencies, hget] at hz
    obtain ⟨-, rfl⟩ := Prod.mk.inj hpair
    exact h.closed task htask y hz

/-- A task of a finished execution is skipped when one leads to it that is not completed. -/
lemma skipped_iff_leads {next : String → List String} {s : Run W}
    (hsound : Sound next s) {taskId : String} {result : TaskResult}
    (hget : Dict.get? s.results taskId = some result) :
    result.status = .skipped ↔ ∃ d, Leads next taskId d ∧ Blocks s d := by
  constructor
  · intro hskipped
    obtain ⟨d, hd, hblocks⟩ := (hsound.skipped taskId result hget).mp hskipped
    exact ⟨d, .single hd, hblocks⟩
  · rintro ⟨d, hleads, hblocks⟩
    induction hleads using Relation.TransGen.head_induction_on generalizing result with
    | single hd => exact (hsound.skipped _ result hget).mpr ⟨d, hd, hblocks⟩
    | @head a c hac _ ih =>
      have hknown : Dict.get? s.results a ≠ none := by
        rw [hget]
        exact Option.some_ne_none _
      obtain ⟨between, hbetween⟩ := Option.ne_none_iff_exists'.mp (hsound.behind a hknown c hac)
      refine (hsound.skipped a result hget).mpr ⟨c, hac, between, hbetween, ?_⟩
      rw [ih hbetween]
      exact TaskStatus.noConfusion

/-- An accepted plan is executed to its end: with as many passes as it has tasks, the execution
returns the results of all tasks unless a component outside stops it. -/
theorem execute_accepted (plan : AnalysisPlan) (haccepted : Accepted texts plan)
    (outside : Outside W) (world : W) (turns : Nat) (hturns : plan.tasks.length ≤ turns) :
    Executed outside plan (execute outside turns plan world) := by
  have hbounded := haccepted.bounded
  unfold execute
  rcases checkpoint_spec outside { world : Run W } with ⟨world', h⟩ | ⟨thrown, world', h, hthrows⟩
  · rw [h]
    set start : Run W := { world := world' } with hstart
    change Executed outside plan (executePending outside turns plan.tasks start >>= _)
    have hsound : Sound (dependencies plan.tasks) start := by
      constructor
      · exact traced_nil
      · exact fun _ hin => absurd hin List.not_mem_nil
      · exact fun _ _ hget => nomatch hget
      · exact fun _ hknown => absurd rfl hknown
      · exact fun _ _ hget => nomatch hget
    have hpending : Pending plan.tasks { start with nextPending := [] } plan.tasks :=
      ⟨hbounded.ids, fun _ h => h, fun _ htask => iff_of_true rfl htask⟩
    rcases executePending_spec hbounded hturns hsound hpending with
      ⟨s, hok, hsound', hall⟩ | ⟨raised, herror, hhalted⟩
    · rw [hok]
      have hresults : ∀ task ∈ plan.tasks, ∃ result, resultOf s task.taskId = .ok result := by
        intro task htask
        obtain ⟨result, hresult⟩ := Option.ne_none_iff_exists'.mp (hall task htask)
        exact ⟨result, by rw [resultOf, hresult]⟩
      obtain ⟨results, hmap⟩ := exists_mapM_ok_iff.mpr hresults
      change Executed outside plan (plan.tasks.mapM (fun task => resultOf s task.taskId) >>= _)
      rw [hmap]
      have hforall := (mapM_ok hmap).imp fun _ _ hresult => get?_of_resultOf hresult
      have hkept : ∀ task result, Dict.get? s.results task = some result → result.taskId = task :=
        fun task result hget => (hsound'.kept task result hget).1
      apply Executed.returned hsound'.traced
      · have hids := hforall.imp fun task result hget => hkept task.taskId result hget
        have hmapped := List.forall₂_map_right_iff.mpr (List.forall₂_map_left_iff.mpr hids.flip)
        exact List.forall₂_eq_eq_eq ▸ hmapped
      · intro result hresult
        obtain ⟨task, -, hget⟩ := exists_of_forall₂ hforall hresult
        rw [skipped_iff_leads hsound' hget, hkept _ _ hget]
        constructor
        · rintro ⟨d, hleads, other, hother, hstatus⟩
          obtain ⟨task', htask', rfl⟩ := hbounded.task_of_leads hleads
          obtain ⟨other', hin, hget'⟩ := exists_of_forall₂ hforall.flip htask'
          rw [hother] at hget'
          cases hget'
          refine ⟨other, hin, ?_, hstatus⟩
          rw [hkept _ _ hother]
          exact hleads
        · rintro ⟨other, hin, hleads, hstatus⟩
          obtain ⟨task', -, hget'⟩ := exists_of_forall₂ hforall hin
          refine ⟨other.taskId, hleads, other, ?_, hstatus⟩
          rw [hkept _ _ hget']
          exact hget'
    · rw [herror]
      exact .raised hhalted
  · rw [h]
    exact .raised ⟨thrown, rfl, hthrows, traced_nil⟩

end Plans

/-- A query service that answers nothing but failures. -/
def failing : Outside Unit where
  checkpoint := fun world => (none, world)
  toQueryRequest := fun _ world => (none, world)
  query := fun task world => (.ok (.failure (failure task.taskId .databaseError "DOWN")), world)

def drilled : AnalysisPlan :=
  ⟨Validation.drilledPlan.tasks.map fun task =>
    ⟨task.taskId, task.taskType, "", [], [], none, [], task.dependsOn, ""⟩⟩

example : (execute failing 2 drilled ()).toOption.map (fun executed =>
    executed.1.map TaskResult.status) = some [.skipped, .failed] := by
  decide

theorem execute_accepted_failing : Executed failing drilled (execute failing 2 drilled ()) := by
  have haccepted : Accepted plainTexts drilled :=
    .inl ⟨⟨[], []⟩, Validation.drilledPlan, 2, 12, rfl⟩
  exact execute_accepted drilled haccepted failing () 2 (Nat.le_refl 2)

end ChatBI.Analysis.Executor
