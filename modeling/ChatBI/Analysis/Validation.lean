import ChatBI.Analysis.Planning
import ChatBI.Lib.Walks
import Mathlib.Data.List.Perm.Subperm

/-!
# Validating a plan

`validate_analysis_plan`: the limits of a plan, its task identifiers, the graph of its
dependencies and its business terms.
-/

namespace ChatBI.Analysis.Validation

open ChatBI.Lib

structure AnalysisTaskCandidate where
  taskId : String
  taskType : AnalysisTaskType
  description : String
  metrics : List String
  dimensions : List String
  timeRange : Option AnalysisTimeRange
  filters : List AnalysisFilter
  dependsOn : List String
  expectedOutput : String
  deriving DecidableEq

structure AnalysisPlanCandidate where
  tasks : List AnalysisTaskCandidate
  deriving DecidableEq

/-- What the validation raises: an error of the plan, a `ValueError` or a `KeyError`. `endless`
stands for a recursion that has no turns left. -/
inductive Raised where
  | plan (error : AnalysisPlanError)
  | value (message : String)
  | key (taskId : String)
  | endless
  deriving DecidableEq

abbrev Index := Dict String AnalysisTaskCandidate

/-- The memo of the depths and the tasks on the way to the current one. -/
structure Search where
  depths : Dict String Nat := []
  visiting : List String := []
  deriving DecidableEq

def duplicateId (taskId : String) : Raised :=
  .plan (cannotAnswer s!"Task ID 重复：{taskId}" "TASK_ID_DUPLICATE")

def cycle : Raised := .plan (cannotAnswer "分析计划存在循环依赖" "DEPENDENCY_CYCLE")

/-- `by_id`. -/
def indexTasks (tasks : List AnalysisTaskCandidate) : Except Raised Index :=
  tasks.foldlM (fun byId task => do
    require (Dict.get? byId task.taskId = none) (duplicateId task.taskId)
    return Dict.set byId task.taskId task) []

/-- The checks of the dependencies of a task. -/
def checkDependencies (byId : Index) (task : AnalysisTaskCandidate) : Except Raised Unit := do
  let taskId := task.taskId
  require task.dependsOn.Nodup
    (.plan (cannotAnswer s!"Task {taskId} 的依赖重复" "DEPENDENCY_DUPLICATE"))
  task.dependsOn.forM fun dependency => do
    require (Dict.get? byId dependency ≠ none)
      (.plan (cannotAnswer s!"Task {taskId} 依赖不存在：{dependency}" "DEPENDENCY_NOT_FOUND"))
    require (dependency ≠ taskId)
      (.plan (cannotAnswer s!"Task {taskId} 不能依赖自身" "DEPENDENCY_SELF_REFERENCE"))

/-- `depth`, with a number of turns that the recursion may take. -/
def depth (byId : Index) : Nat → Search → String → Except Raised (Nat × Search)
  | 0, _, _ => .error .endless
  | turns + 1, search, taskId =>
    match Dict.get? search.depths taskId with
    | some value => .ok (value, search)
    | none =>
      if taskId ∈ search.visiting then .error cycle
      else match Dict.get? byId taskId with
        | none => .error (.key taskId)
        | some task => do
          let ended ← task.dependsOn.foldlM (fun state dependency => do
              let found ← depth byId turns state.2 dependency
              return (max state.1 (found.1 + 1), found.2))
            (0, { search with visiting := taskId :: search.visiting })
          return (ended.1, {
            depths := Dict.set ended.2.depths taskId ended.1
            visiting := ended.2.visiting.erase taskId })

/-- One turn of the loop over the depths of the tasks. -/
def checkDepth (byId : Index) (maxDepth : Int) (search : Search) (taskId : String) :
    Except Raised Search := do
  let found ← depth byId (byId.length + 1) search taskId
  require (found.1 ≤ maxDepth) (.plan (cannotAnswer
    s!"Task {taskId} 超过最大下钻深度 {maxDepth}" "DEPTH_LIMIT_EXCEEDED"))
  return found.2

def checkDepths (byId : Index) (maxDepth : Int) : Except Raised Search :=
  (byId.map Prod.fst).foldlM (checkDepth byId maxDepth) {}

section Terms

variable (texts : Texts) (catalog : AnalysisSemanticCatalog)

/-- `_resolve_metric`. -/
def resolveMetric (value taskId : String) : Except Raised String :=
  match (Dict.get? catalog.metricMatches (lookupKey texts value)).getD [] with
  | [name] => .ok name
  | _ => .error (.plan (clarification s!"Task {taskId} 的指标无法唯一确定：{value}" "METRIC_NOT_UNIQUE"))

/-- `_resolve_dimension`. -/
def resolveDimension (value taskId : String) : Except Raised String :=
  match (Dict.get? catalog.dimensionMatches (lookupKey texts value)).getD [] with
  | [name] => .ok name
  | _ => .error (.plan (cannotAnswer s!"Task {taskId} 的维度未登记：{value}" "DIMENSION_NOT_FOUND"))

def validatedTask (task : AnalysisTaskCandidate) : Except Raised AnalysisTask := do
  let metrics ← task.metrics.mapM (resolveMetric texts catalog · task.taskId)
  let dimensions ← task.dimensions.mapM (resolveDimension texts catalog · task.taskId)
  return {
    taskId := task.taskId
    taskType := task.taskType
    description := task.description
    metrics
    dimensions
    timeRange := task.timeRange
    filters := task.filters
    dependsOn := task.dependsOn
    expectedOutput := task.expectedOutput }

def validateAnalysisPlan (candidate : AnalysisPlanCandidate) (maxDepth maxTasks : Int) :
    Except Raised AnalysisPlan := do
  require (0 ≤ maxDepth ∧ 0 < maxTasks) (.value "分析计划限制必须为正数")
  require (candidate.tasks.length ≤ maxTasks) (.plan (cannotAnswer
    s!"分析计划的 Task 数量超过上限 {maxTasks}" "TASK_LIMIT_EXCEEDED"))
  let byId ← indexTasks candidate.tasks
  candidate.tasks.forM (checkDependencies byId)
  let _ ← checkDepths byId maxDepth
  let tasks ← candidate.tasks.mapM (validatedTask texts catalog)
  return ⟨tasks⟩

end Terms

/-- The dependencies of a task identifier. -/
def dependencies (tasks : List AnalysisTaskCandidate) (taskId : String) : List String :=
  ((tasks.find? fun task => task.taskId = taskId).map AnalysisTaskCandidate.dependsOn).getD []

/-- A metric or dimension whose lookup key has one name. -/
def Unique (texts : Texts) (names : Dict String (List String)) (value : String) : Prop :=
  ∃ name, Dict.get? names (lookupKey texts value) = some [name]

section Indexing

variable {tasks : List AnalysisTaskCandidate} {byId : Index} {taskId : String}

lemma get?_entries (tasks : List AnalysisTaskCandidate) (taskId : String) :
    Dict.get? (tasks.map fun task => (task.taskId, task)) taskId =
      tasks.find? fun task => task.taskId = taskId := by
  induction tasks with
  | nil => rfl
  | cons task tasks ih =>
    rw [List.map_cons, Dict.get?, List.find?_cons, ih]
    by_cases h : task.taskId = taskId <;> simp [h]

lemma indexFrom_ok_iff (acc : Index) : tasks.foldlM (fun byId task => do
      require (Dict.get? byId task.taskId = none) (duplicateId task.taskId)
      return Dict.set byId task.taskId task) acc = .ok byId ↔
    (∀ task ∈ tasks, task.taskId ∉ acc.map Prod.fst) ∧
      (tasks.map AnalysisTaskCandidate.taskId).Nodup ∧
      byId = acc ++ tasks.map fun task => (task.taskId, task) := by
  induction tasks generalizing acc with
  | nil =>
    rw [List.foldlM_nil, except_pure_ok]
    simp [eq_comm]
  | cons task tasks ih =>
    rw [List.foldlM_cons]
    simp only [except_bind_ok, except_pure_ok]
    have hnone : Dict.get? acc task.taskId = none ↔ task.taskId ∉ acc.map Prod.fst := by
      rw [Dict.mem_map_fst_iff, not_not]
    constructor
    · rintro ⟨_, ⟨⟨⟩, hrequire, rfl⟩, hrest⟩
      have hnew := require_ok.mp hrequire
      obtain ⟨hfresh, hnodup, rfl⟩ := (ih _).mp hrest
      rw [Dict.set_of_get?_none hnew] at hfresh ⊢
      refine ⟨?_, ?_, by simp⟩
      · intro task' htask'
        rcases List.mem_cons.mp htask' with rfl | htask'
        · exact hnone.mp hnew
        · have hnot := hfresh task' htask'
          rw [List.map_append, List.mem_append, not_or] at hnot
          exact hnot.1
      · rw [List.map_cons, List.nodup_cons]
        refine ⟨?_, hnodup⟩
        intro hin
        obtain ⟨task', htask', hsame⟩ := List.mem_map.mp hin
        apply hfresh task' htask'
        rw [List.map_append, hsame]
        exact List.mem_append_right _ List.mem_cons_self
    · rintro ⟨hfresh, hnodup, rfl⟩
      rw [List.map_cons, List.nodup_cons] at hnodup
      have hnew := hnone.mpr (hfresh task List.mem_cons_self)
      refine ⟨_, ⟨(), require_ok.mpr hnew, rfl⟩, (ih _).mpr ⟨?_, hnodup.2, ?_⟩⟩
      · intro task' htask'
        rw [Dict.set_of_get?_none hnew, List.map_append, List.mem_append, not_or]
        refine ⟨hfresh task' (List.mem_cons_of_mem _ htask'), fun hin => hnodup.1 ?_⟩
        have hsame : task'.taskId = task.taskId := List.mem_singleton.mp hin
        exact hsame ▸ List.mem_map_of_mem htask'
      · rw [Dict.set_of_get?_none hnew]
        simp

/-- Tasks with their own identifiers are indexed in their order. -/
lemma indexTasks_ok_iff : indexTasks tasks = .ok byId ↔
    (tasks.map AnalysisTaskCandidate.taskId).Nodup ∧
      byId = tasks.map fun task => (task.taskId, task) := by
  unfold indexTasks
  rw [indexFrom_ok_iff]
  simp

end Indexing

section Depths

variable {byId : Index} {next : String → List String} {search search' : Search} {taskId : String}
  {turns value : Nat} {e : Raised}

/-- The dependencies that an index gives. -/
def Gives (byId : Index) (next : String → List String) : Prop :=
  ∀ taskId task, Dict.get? byId taskId = some task → next taskId = task.dependsOn

/-- The memo holds the lengths of longest walks. -/
def Search.Sound (next : String → List String) (search : Search) : Prop :=
  ∀ taskId value, Dict.get? search.depths taskId = some value → IsDepth next taskId value

/-- A later search has the same tasks on the way, and a memo with more entries. -/
structure Search.Grown (next : String → List String) (search search' : Search) : Prop where
  visiting : search'.visiting = search.visiting
  sound : search'.Sound next
  kept : ∀ taskId value, Dict.get? search.depths taskId = some value →
    Dict.get? search'.depths taskId = some value

/-- A search on its way to a task. -/
structure Search.Heading (byId : Index) (next : String → List String) (search : Search)
    (taskId : String) : Prop where
  sound : search.Sound next
  behind : ∀ x ∈ search.visiting, Leads next x taskId
  nodup : search.visiting.Nodup
  known : ∀ x ∈ search.visiting, x ∈ byId.map Prod.fst

/-- What the search of a task returns or raises: the length of the longest walk, or that there is
a cycle. -/
inductive Found (next : String → List String) (search : Search) (taskId : String) :
    Except Raised (Nat × Search) → Prop where
  | depth {d : Nat} {s : Search} (h : IsDepth next taskId d) (hgrown : search.Grown next s)
      (hmemo : Dict.get? s.depths taskId = some d) : Found next search taskId (.ok (d, s))
  | cycle {x : String} (h : Leads next x x) : Found next search taskId (.error cycle)

lemma Search.Grown.refl (h : search.Sound next) : search.Grown next search :=
  ⟨rfl, h, fun _ _ h => h⟩

lemma Search.Grown.trans {search'' : Search} (h : search.Grown next search')
    (h' : search'.Grown next search'') : search.Grown next search'' :=
  ⟨h'.visiting.trans h.visiting, h'.sound, fun _ _ hin => h'.kept _ _ (h.kept _ _ hin)⟩

/-- Searching the dependencies of a task one after another. -/
lemma depth_foldlM {step : Search → String → Except Raised (Nat × Search)} {deps : List String}
    (start : Nat) (hsound : search.Sound next)
    (hstep : ∀ dep ∈ deps, ∀ s, search.Grown next s → Found next s dep (step s dep)) :
    (∃ depths s, deps.foldlM (fun state dependency => do
        let found ← step state.2 dependency
        return (max state.1 (found.1 + 1), found.2)) (start, search) =
          .ok (depths.foldl (fun value d => max value (d + 1)) start, s) ∧
        List.Forall₂ (IsDepth next) deps depths ∧ search.Grown next s) ∨
      deps.foldlM (fun state dependency => do
        let found ← step state.2 dependency
        return (max state.1 (found.1 + 1), found.2)) (start, search) = .error cycle ∧
        ∃ x, Leads next x x := by
  induction deps generalizing search start with
  | nil => exact .inl ⟨[], search, rfl, .nil, .refl hsound⟩
  | cons dep deps ih =>
    rw [List.foldlM_cons]
    have hfound := hstep dep List.mem_cons_self search (.refl hsound)
    dsimp only
    generalize step search dep = result at hfound ⊢
    cases hfound with
    | cycle h => exact .inr ⟨rfl, _, h⟩
    | @depth d s hd hgrown _ =>
      have hrest := ih (max start (d + 1)) hgrown.sound fun dep' hdep' s' hs' =>
        hstep dep' (List.mem_cons_of_mem _ hdep') s' (hgrown.trans hs')
      rcases hrest with ⟨depths, s', hfold, hdepths, hgrown'⟩ | ⟨hfold, hcycle⟩
      · exact .inl ⟨d :: depths, s', hfold, .cons hd hdepths, hgrown.trans hgrown'⟩
      · exact .inr ⟨hfold, hcycle⟩

/-- The recursion finds the depth of a task or a cycle, with as many turns as there are tasks that
are not yet on its way. -/
theorem depth_spec (hgives : Gives byId next)
    (hclosed : ∀ x ∈ byId.map Prod.fst, ∀ y ∈ next x, y ∈ byId.map Prod.fst)
    (hknown : taskId ∈ byId.map Prod.fst) (hheading : search.Heading byId next taskId)
    (hturns : byId.length < turns + search.visiting.length) :
    Found next search taskId (depth byId turns search taskId) := by
  induction turns generalizing search taskId with
  | zero =>
    have hle := (List.Nodup.subperm hheading.nodup fun x hx => hheading.known x hx).length_le
    rw [List.length_map] at hle
    omega
  | succ turns ih =>
    rw [depth]
    cases hmemo : Dict.get? search.depths taskId with
    | some value => exact .depth (hheading.sound _ _ hmemo) (.refl hheading.sound) hmemo
    | none =>
      dsimp only
      by_cases hvisiting : taskId ∈ search.visiting
      · rw [if_pos hvisiting]
        exact .cycle (hheading.behind taskId hvisiting)
      rw [if_neg hvisiting]
      obtain ⟨task, htask⟩ := Option.ne_none_iff_exists'.mp (Dict.mem_map_fst_iff.mp hknown)
      rw [htask]
      dsimp only
      have hnext := hgives taskId task htask
      set started : Search := { search with visiting := taskId :: search.visiting } with hstarted
      have hsound : started.Sound next := hheading.sound
      have hstep : ∀ dep ∈ task.dependsOn, ∀ s, started.Grown next s →
          Found next s dep (depth byId turns s dep) := by
        intro dep hdep s hs
        rw [← hnext] at hdep
        have hvisited : s.visiting = taskId :: search.visiting := hs.visiting
        apply ih (hclosed taskId hknown dep hdep)
        · constructor
          · exact hs.sound
          · intro x hx
            rw [hvisited] at hx
            rcases List.mem_cons.mp hx with rfl | hx
            · exact .single hdep
            · exact (hheading.behind x hx).tail hdep
          · rw [hvisited]
            exact List.nodup_cons.mpr ⟨hvisiting, hheading.nodup⟩
          · rw [hvisited]
            exact List.forall_mem_cons.mpr ⟨hknown, hheading.known⟩
        · rw [hvisited, List.length_cons]
          omega
      rcases depth_foldlM 0 hsound hstep with ⟨depths, s, hfold, hdepths, hgrown⟩ | ⟨hfold, x, hx⟩
      · rw [hfold]
        rw [← hnext] at hdepths
        have hdepth := isDepth_foldl hdepths
        refine .depth hdepth ⟨?_, ?_, ?_⟩ Dict.get?_set_self
        · have hvisited : s.visiting = taskId :: search.visiting := hgrown.visiting
          change s.visiting.erase taskId = _
          rw [hvisited, List.erase_cons_head]
        · intro x v hv
          by_cases hsame : taskId = x
          · subst hsame
            rw [Dict.get?_set_self] at hv
            cases hv
            exact hdepth
          · rw [Dict.get?_set_of_ne hsame] at hv
            exact hgrown.sound x v hv
        · intro x v hv
          have hne : taskId ≠ x := by
            rintro rfl
            rw [hmemo] at hv
            cases hv
          rw [Dict.get?_set_of_ne hne]
          exact hgrown.kept x v hv
      · rw [hfold]
        exact .cycle hx

lemma heading_of_idle (h : search.Sound next) (hidle : search.visiting = []) :
    search.Heading byId next taskId := by
  constructor
  · exact h
  all_goals rw [hidle]
  · exact fun x hx => absurd hx List.not_mem_nil
  · exact List.nodup_nil
  · exact fun x hx => absurd hx List.not_mem_nil

/-- What the depths of a graph may refuse: a cycle, or a task that is too deep. -/
def Refuses (byId : Index) (next : String → List String) (maxDepth : Int) : Prop :=
  (∃ x, Leads next x x) ∨ ∃ x ∈ byId.map Prod.fst, ∃ d : Nat, IsDepth next x d ∧ maxDepth < d

/-- What the loop over the depths returns or raises from a search that is on the way to nothing. -/
lemma checkFrom_spec (maxDepth : Int) (hgives : Gives byId next)
    (hclosed : ∀ x ∈ byId.map Prod.fst, ∀ y ∈ next x, y ∈ byId.map Prod.fst) {ids : List String}
    (hids : ids ⊆ byId.map Prod.fst) (hsound : search.Sound next) (hidle : search.visiting = []) :
    (∃ s, ids.foldlM (checkDepth byId maxDepth) search = .ok s ∧ search.Grown next s ∧
      ∀ x ∈ ids, ∃ d : Nat, Dict.get? s.depths x = some d ∧ IsDepth next x d ∧ d ≤ maxDepth) ∨
    (∃ error, ids.foldlM (checkDepth byId maxDepth) search = .error (.plan error)) ∧
      Refuses byId next maxDepth := by
  induction ids generalizing search with
  | nil => exact .inl ⟨search, rfl, .refl hsound, fun x hx => absurd hx List.not_mem_nil⟩
  | cons taskId ids ih =>
    have hknown := hids List.mem_cons_self
    have hfound := depth_spec hgives hclosed hknown (heading_of_idle hsound hidle)
      (show byId.length < byId.length + 1 + search.visiting.length by omega)
    have hturn : checkDepth byId maxDepth search taskId =
        depth byId (byId.length + 1) search taskId >>= fun found =>
          require ((found.1 : Int) ≤ maxDepth) (.plan (cannotAnswer
            s!"Task {taskId} 超过最大下钻深度 {maxDepth}" "DEPTH_LIMIT_EXCEEDED")) >>= fun _ =>
              pure found.2 := rfl
    rw [List.foldlM_cons, hturn]
    generalize depth byId (byId.length + 1) search taskId = result at hfound ⊢
    cases hfound with
    | cycle h => exact .inr ⟨⟨_, rfl⟩, .inl ⟨_, h⟩⟩
    | @depth d s hd hgrown hmemo =>
      change (∃ s', (require ((d : Int) ≤ maxDepth) _ >>= fun _ => _) >>= _ = .ok s' ∧ _) ∨
        (∃ error, (require ((d : Int) ≤ maxDepth) _ >>= fun _ => _) >>= _ = _) ∧ _
      by_cases hlimit : (d : Int) ≤ maxDepth
      · rw [require_ok.mpr hlimit]
        rcases ih (fun x hx => hids (List.mem_cons_of_mem _ hx)) hgrown.sound
          (hgrown.visiting.trans hidle) with ⟨s', hfold, hgrown', hall⟩ | hrefused
        · refine .inl ⟨s', hfold, hgrown.trans hgrown', ?_⟩
          intro x hx
          rcases List.mem_cons.mp hx with rfl | hx
          · exact ⟨d, hgrown'.kept _ _ hmemo, hd, hlimit⟩
          · exact hall x hx
        · exact .inr hrefused
      · refine .inr ⟨⟨cannotAnswer s!"Task {taskId} 超过最大下钻深度 {maxDepth}"
          "DEPTH_LIMIT_EXCEEDED", ?_⟩, .inr ⟨taskId, hknown, d, hd, not_le.mp hlimit⟩⟩
        rw [require, if_neg hlimit]
        rfl

/-- The loop over the depths of a graph: all are computed, or the graph is refused. -/
theorem checkDepths_spec (hgives : Gives byId next)
    (hclosed : ∀ x ∈ byId.map Prod.fst, ∀ y ∈ next x, y ∈ byId.map Prod.fst) (maxDepth : Int) :
    (∃ s, checkDepths byId maxDepth = .ok s ∧ ∀ x ∈ byId.map Prod.fst, ∃ d : Nat,
      Dict.get? s.depths x = some d ∧ IsDepth next x d ∧ d ≤ maxDepth) ∨
    (∃ error, checkDepths byId maxDepth = .error (.plan error)) ∧ Refuses byId next maxDepth := by
  have hempty : Search.Sound next {} := by
    rintro taskId value ⟨⟩
  rcases checkFrom_spec maxDepth hgives hclosed (List.Subset.refl _) hempty rfl with
    ⟨s, hfold, -, hall⟩ | hrefused
  · exact .inl ⟨s, hfold, hall⟩
  · exact .inr hrefused

end Depths

section Plans

variable {texts : Texts} {catalog : AnalysisSemanticCatalog} {candidate : AnalysisPlanCandidate}
  {tasks : List AnalysisTaskCandidate} {byId : Index} {maxDepth maxTasks : Int}

/-- A plan that can be carried out: within the limits, with tasks of their own identifiers, a graph
of dependencies without cycles or long chains, and terms that have one name each. -/
structure WellFormed (texts : Texts) (catalog : AnalysisSemanticCatalog)
    (tasks : List AnalysisTaskCandidate) (maxDepth maxTasks : Int) : Prop where
  count : tasks.length ≤ maxTasks
  ids : (tasks.map AnalysisTaskCandidate.taskId).Nodup
  known : ∀ task ∈ tasks, ∀ d ∈ task.dependsOn, d ∈ tasks.map AnalysisTaskCandidate.taskId
  distinct : ∀ task ∈ tasks, task.dependsOn.Nodup
  proper : ∀ task ∈ tasks, task.taskId ∉ task.dependsOn
  acyclic : Acyclic (dependencies tasks)
  bounded : ∀ task ∈ tasks, ∀ n, Walk (dependencies tasks) task.taskId n → (n : Int) ≤ maxDepth
  metrics : ∀ task ∈ tasks, ∀ metric ∈ task.metrics, Unique texts catalog.metricMatches metric
  dimensions : ∀ task ∈ tasks, ∀ dimension ∈ task.dimensions,
    Unique texts catalog.dimensionMatches dimension

lemma keys_entries (tasks : List AnalysisTaskCandidate) :
    (tasks.map fun task => (task.taskId, task)).map Prod.fst =
      tasks.map AnalysisTaskCandidate.taskId := by
  rw [List.map_map]
  rfl

lemma gives_entries (tasks : List AnalysisTaskCandidate) :
    Gives (tasks.map fun task => (task.taskId, task)) (dependencies tasks) := by
  intro taskId task htask
  rw [get?_entries] at htask
  rw [dependencies, htask]
  rfl

lemma dependencies_of_mem (hids : (tasks.map AnalysisTaskCandidate.taskId).Nodup)
    {task : AnalysisTaskCandidate} (h : task ∈ tasks) :
    dependencies tasks task.taskId = task.dependsOn := by
  have hfind : (tasks.find? fun t => t.taskId = task.taskId) = some task := by
    induction tasks with
    | nil => cases h
    | cons t tasks ih =>
      obtain ⟨hnot, hnodup⟩ := List.nodup_cons.mp hids
      rcases List.mem_cons.mp h with rfl | hin
      · exact List.find?_cons_of_pos (decide_eq_true rfl)
      · rw [List.find?_cons_of_neg]
        · exact ih hnodup hin
        · intro hsame
          exact hnot (List.mem_map.mpr ⟨task, hin, (of_decide_eq_true hsame).symm⟩)
  rw [dependencies, hfind]
  rfl

/-- A node with an edge is a task, when the identifiers of tasks are distinct. -/
lemma mem_of_dependency {x y : String} (h : y ∈ dependencies tasks x) :
    ∃ task ∈ tasks, task.taskId = x ∧ y ∈ task.dependsOn := by
  unfold dependencies at h
  cases hfind : tasks.find? fun task => task.taskId = x with
  | none =>
    rw [hfind] at h
    cases h
  | some task =>
    rw [hfind] at h
    have hsame := List.find?_some hfind
    exact ⟨task, List.mem_of_find?_eq_some hfind, of_decide_eq_true hsame, h⟩

lemma checkDependencies_ok_iff {task : AnalysisTaskCandidate} :
    checkDependencies byId task = .ok () ↔ task.dependsOn.Nodup ∧
      (∀ d ∈ task.dependsOn, d ∈ byId.map Prod.fst) ∧ task.taskId ∉ task.dependsOn := by
  unfold checkDependencies
  simp only [except_bind_ok]
  constructor
  · rintro ⟨⟨⟩, hnodup, hall⟩
    have hdeps := forM_ok_iff.mp hall
    refine ⟨require_ok.mp hnodup, ?_, ?_⟩
    · intro d hd
      obtain ⟨⟨⟩, hknown, -⟩ := except_bind_ok.mp (hdeps d hd)
      exact Dict.mem_map_fst_iff.mpr (require_ok.mp hknown)
    · intro hself
      obtain ⟨⟨⟩, -, hproper⟩ := except_bind_ok.mp (hdeps _ hself)
      exact require_ok.mp hproper rfl
  · rintro ⟨hnodup, hknown, hproper⟩
    refine ⟨(), require_ok.mpr hnodup, forM_ok_iff.mpr fun d hd => ?_⟩
    refine except_bind_ok.mpr ⟨(), require_ok.mpr (Dict.mem_map_fst_iff.mp (hknown d hd)), ?_⟩
    exact require_ok.mpr fun hself => hproper (hself ▸ hd)

lemma resolveMetric_ok_iff {value taskId : String} :
    (∃ name, resolveMetric texts catalog value taskId = .ok name) ↔
      Unique texts catalog.metricMatches value := by
  unfold resolveMetric Unique
  cases hget : Dict.get? catalog.metricMatches (lookupKey texts value) with
  | none => simp
  | some names => match names with
    | [] => simp
    | [name] => simp
    | _ :: _ :: _ => simp

lemma resolveDimension_ok_iff {value taskId : String} :
    (∃ name, resolveDimension texts catalog value taskId = .ok name) ↔
      Unique texts catalog.dimensionMatches value := by
  unfold resolveDimension Unique
  cases hget : Dict.get? catalog.dimensionMatches (lookupKey texts value) with
  | none => simp
  | some names => match names with
    | [] => simp
    | [name] => simp
    | _ :: _ :: _ => simp

lemma validatedTask_ok_iff {task : AnalysisTaskCandidate} :
    (∃ validated, validatedTask texts catalog task = .ok validated) ↔
      (∀ metric ∈ task.metrics, Unique texts catalog.metricMatches metric) ∧
        ∀ dimension ∈ task.dimensions, Unique texts catalog.dimensionMatches dimension := by
  unfold validatedTask
  simp only [except_bind_ok, except_pure_ok]
  constructor
  · rintro ⟨_, metrics, hmetrics, dimensions, hdimensions, -⟩
    have hm := exists_mapM_ok_iff.mp ⟨metrics, hmetrics⟩
    have hd := exists_mapM_ok_iff.mp ⟨dimensions, hdimensions⟩
    exact ⟨fun metric hin => resolveMetric_ok_iff.mp (hm metric hin),
      fun dimension hin => resolveDimension_ok_iff.mp (hd dimension hin)⟩
  · rintro ⟨hm, hd⟩
    have hnamed : ∃ names, task.metrics.mapM (resolveMetric texts catalog · task.taskId) =
        .ok names :=
      exists_mapM_ok_iff.mpr fun metric hin => resolveMetric_ok_iff.mpr (hm metric hin)
    have hsided : ∃ names, task.dimensions.mapM (resolveDimension texts catalog · task.taskId) =
        .ok names :=
      exists_mapM_ok_iff.mpr fun dimension hin => resolveDimension_ok_iff.mpr (hd dimension hin)
    obtain ⟨metrics, hmetrics⟩ := hnamed
    obtain ⟨dimensions, hdimensions⟩ := hsided
    exact ⟨_, metrics, hmetrics, dimensions, hdimensions, rfl⟩

/-- The graph of tasks that pass the checks of their dependencies is closed. -/
lemma closed_of_known
    (hknown : ∀ task ∈ tasks, ∀ d ∈ task.dependsOn, d ∈ tasks.map AnalysisTaskCandidate.taskId) :
    ∀ x ∈ (tasks.map fun task => (task.taskId, task)).map Prod.fst, ∀ y ∈ dependencies tasks x,
      y ∈ (tasks.map fun task => (task.taskId, task)).map Prod.fst := by
  rw [keys_entries]
  intro x _ y hy
  obtain ⟨task, htask, -, hdep⟩ := mem_of_dependency hy
  exact hknown task htask y hdep

/-- A cycle goes through a task. -/
lemma task_of_leads {x y : String} (h : Leads (dependencies tasks) x y) :
    x ∈ tasks.map AnalysisTaskCandidate.taskId := by
  have hfirst : ∃ z, z ∈ dependencies tasks x := by
    induction h using Relation.TransGen.head_induction_on with
    | single h => exact ⟨_, h⟩
    | head h _ _ => exact ⟨_, h⟩
  obtain ⟨z, hz⟩ := hfirst
  obtain ⟨task, htask, rfl, -⟩ := mem_of_dependency hz
  exact List.mem_map_of_mem htask

/-- The depths of a closed graph are computed when it has no cycle and no long chain. -/
lemma checkDepths_ok_iff
    (hknown : ∀ task ∈ tasks, ∀ d ∈ task.dependsOn, d ∈ tasks.map AnalysisTaskCandidate.taskId) :
    (∃ search, checkDepths (tasks.map fun task => (task.taskId, task)) maxDepth = .ok search) ↔
      Acyclic (dependencies tasks) ∧ ∀ task ∈ tasks, ∀ n,
        Walk (dependencies tasks) task.taskId n → (n : Int) ≤ maxDepth := by
  have hspec := checkDepths_spec (gives_entries tasks) (closed_of_known hknown) maxDepth
  rw [keys_entries] at hspec
  constructor
  · rintro ⟨search, hsearch⟩
    rcases hspec with ⟨s, -, hall⟩ | ⟨⟨error, herror⟩, -⟩
    · constructor
      · intro x hx
        obtain ⟨d, -, hd, -⟩ := hall x (task_of_leads hx)
        exact hd.not_leads hx
      · intro task htask n hn
        obtain ⟨d, -, hd, hle⟩ := hall _ (List.mem_map_of_mem htask)
        exact (Int.ofNat_le.mpr (hd.2 hn)).trans hle
    · rw [herror] at hsearch
      cases hsearch
  · rintro ⟨hacyclic, hbounded⟩
    rcases hspec with ⟨s, hs, -⟩ | ⟨-, hrefused⟩
    · exact ⟨s, hs⟩
    · exfalso
      unfold Refuses at hrefused
      rw [keys_entries] at hrefused
      rcases hrefused with ⟨x, hx⟩ | ⟨x, hx, d, hd, hlt⟩
      · exact hacyclic x hx
      · obtain ⟨task, htask, rfl⟩ := List.mem_map.mp hx
        exact absurd (hbounded task htask d hd.1) (not_le.mpr hlt)

lemma validate_ok_iff :
    (∃ plan, validateAnalysisPlan texts catalog candidate maxDepth maxTasks = .ok plan) ↔
      (0 ≤ maxDepth ∧ 0 < maxTasks) ∧
        WellFormed texts catalog candidate.tasks maxDepth maxTasks := by
  unfold validateAnalysisPlan
  simp only [except_bind_ok, except_pure_ok]
  constructor
  · rintro ⟨_, ⟨⟩, hlimits, ⟨⟩, hcount, byId, hindex, ⟨⟩, hdeps, search, hsearch, tasks, htasks, -⟩
    obtain ⟨hids, rfl⟩ := indexTasks_ok_iff.mp hindex
    have hchecks := fun task htask => checkDependencies_ok_iff.mp (forM_ok_iff.mp hdeps task htask)
    have hknown : ∀ task ∈ candidate.tasks, ∀ d ∈ task.dependsOn,
        d ∈ candidate.tasks.map AnalysisTaskCandidate.taskId := by
      intro task htask d hd
      have hin := (hchecks task htask).2.1 d hd
      rwa [keys_entries] at hin
    obtain ⟨hacyclic, hbounded⟩ := (checkDepths_ok_iff hknown).mp ⟨search, hsearch⟩
    have hterms := fun task htask =>
      validatedTask_ok_iff.mp (exists_mapM_ok_iff.mp ⟨tasks, htasks⟩ task htask)
    exact ⟨require_ok.mp hlimits, {
      count := require_ok.mp hcount
      ids := hids
      known := hknown
      distinct := fun task htask => (hchecks task htask).1
      proper := fun task htask => (hchecks task htask).2.2
      acyclic := hacyclic
      bounded := hbounded
      metrics := fun task htask => (hterms task htask).1
      dimensions := fun task htask => (hterms task htask).2 }⟩
  · rintro ⟨hlimits, h⟩
    obtain ⟨search, hsearch⟩ := (checkDepths_ok_iff h.known).mpr ⟨h.acyclic, h.bounded⟩
    obtain ⟨tasks, htasks⟩ := exists_mapM_ok_iff.mpr fun task htask =>
      validatedTask_ok_iff.mpr ⟨h.metrics task htask, h.dimensions task htask⟩
    refine ⟨_, (), require_ok.mpr hlimits, (), require_ok.mpr h.count, _,
      indexTasks_ok_iff.mpr ⟨h.ids, rfl⟩, (), forM_ok_iff.mpr fun task htask => ?_, search, hsearch,
      tasks, htasks, rfl⟩
    apply checkDependencies_ok_iff.mpr
    rw [keys_entries]
    exact ⟨h.distinct task htask, h.known task htask, h.proper task htask⟩

/-- What passes the checks of the dependencies is a closed graph. -/
lemma known_of_checked (hindex : indexTasks tasks = .ok byId)
    (hdeps : tasks.forM (checkDependencies byId) = .ok ()) :
    ∀ task ∈ tasks, ∀ d ∈ task.dependsOn, d ∈ tasks.map AnalysisTaskCandidate.taskId := by
  intro task htask d hd
  have hknown := (checkDependencies_ok_iff.mp (forM_ok_iff.mp hdeps task htask)).2.1 d hd
  rwa [(indexTasks_ok_iff.mp hindex).2, keys_entries] at hknown

/-- An error of the plan or of the limits. -/
def Raised.Refusal : Raised → Prop
  | .plan _ | .value _ => True
  | .key _ | .endless => False

lemma raises_indexTasks : Raises Raised.Refusal (indexTasks tasks) := by
  unfold indexTasks
  apply Raises.foldlM
  intro byId task
  apply Raises.bind
  · exact Raises.require fun _ => trivial
  · exact fun _ _ => Raises.ok _

lemma raises_checkDependencies {task : AnalysisTaskCandidate} :
    Raises Raised.Refusal (checkDependencies byId task) := by
  unfold checkDependencies
  apply Raises.bind
  · exact Raises.require fun _ => trivial
  · intro _ _
    apply Raises.forM
    intro d _
    apply Raises.bind
    · exact Raises.require fun _ => trivial
    · exact fun _ _ => Raises.require fun _ => trivial

lemma raises_checkDepths (hindex : indexTasks tasks = .ok byId)
    (hdeps : tasks.forM (checkDependencies byId) = .ok ()) :
    Raises Raised.Refusal (checkDepths byId maxDepth) := by
  have hknown := known_of_checked hindex hdeps
  rw [(indexTasks_ok_iff.mp hindex).2]
  rcases checkDepths_spec (gives_entries tasks) (closed_of_known hknown) maxDepth with
    ⟨s, hs, -⟩ | ⟨⟨error, herror⟩, -⟩
  · rw [hs]
    exact Raises.ok s
  · rw [herror]
    exact Raises.error trivial

lemma raises_resolveMetric {value taskId : String} :
    Raises Raised.Refusal (resolveMetric texts catalog value taskId) := by
  unfold resolveMetric
  split
  · exact Raises.ok _
  · exact Raises.error trivial

lemma raises_resolveDimension {value taskId : String} :
    Raises Raised.Refusal (resolveDimension texts catalog value taskId) := by
  unfold resolveDimension
  split
  · exact Raises.ok _
  · exact Raises.error trivial

lemma raises_validatedTask {task : AnalysisTaskCandidate} :
    Raises Raised.Refusal (validatedTask texts catalog task) := by
  unfold validatedTask
  apply Raises.bind
  · exact Raises.mapM fun _ _ => raises_resolveMetric
  · intro metrics _
    apply Raises.bind
    · exact Raises.mapM fun _ _ => raises_resolveDimension
    · exact fun _ _ => Raises.ok _

/-- The validation ends: it raises nothing but its own refusals. -/
lemma raises_validate : Raises Raised.Refusal
    (validateAnalysisPlan texts catalog candidate maxDepth maxTasks) := by
  unfold validateAnalysisPlan
  apply Raises.bind
  · exact Raises.require fun _ => trivial
  intro _ _
  apply Raises.bind
  · exact Raises.require fun _ => trivial
  intro _ _
  apply Raises.bind raises_indexTasks
  intro byId hindex
  apply Raises.bind
  · exact Raises.forM fun _ _ => raises_checkDependencies
  intro _ hdeps
  apply Raises.bind (raises_checkDepths hindex hdeps)
  intro _ _
  apply Raises.bind
  · exact Raises.mapM fun _ _ => raises_validatedTask
  · exact fun _ _ => Raises.ok _

/-- The depth of a task of a closed graph, searched on its own. -/
lemma depth_of_task
    (hknown : ∀ task ∈ tasks, ∀ d ∈ task.dependsOn, d ∈ tasks.map AnalysisTaskCandidate.taskId)
    {task : AnalysisTaskCandidate} (htask : task ∈ tasks) :
    Found (dependencies tasks) {} task.taskId
      (depth (tasks.map fun task => (task.taskId, task)) (tasks.length + 1) {} task.taskId) := by
  have hempty : Search.Sound (dependencies tasks) {} := by
    rintro taskId value ⟨⟩
  apply depth_spec (gives_entries tasks) (closed_of_known hknown)
  · rw [keys_entries]
    exact List.mem_map_of_mem htask
  · exact heading_of_idle hempty rfl
  · rw [List.length_map]
    exact Nat.lt_succ_self _

/-- A plan is validated exactly when it is well formed, every search of a depth ends with the
length of the longest chain or at a cycle, and the memo of the depths holds these lengths. -/
theorem validate_exact (texts : Texts) (catalog : AnalysisSemanticCatalog)
    (candidate : AnalysisPlanCandidate) (maxDepth maxTasks : Int) :
    ((∃ plan, validateAnalysisPlan texts catalog candidate maxDepth maxTasks = .ok plan) ↔
      (0 ≤ maxDepth ∧ 0 < maxTasks) ∧
        WellFormed texts catalog candidate.tasks maxDepth maxTasks) ∧
    (∀ e, validateAnalysisPlan texts catalog candidate maxDepth maxTasks = .error e →
      e.Refusal) ∧
    ∀ byId, indexTasks candidate.tasks = .ok byId →
      candidate.tasks.forM (checkDependencies byId) = .ok () →
      (∀ task ∈ candidate.tasks,
        (∃ d search, depth byId (byId.length + 1) {} task.taskId = .ok (d, search) ∧
          IsDepth (dependencies candidate.tasks) task.taskId d) ∨
        depth byId (byId.length + 1) {} task.taskId = .error cycle ∧
          ∃ x, Leads (dependencies candidate.tasks) x x) ∧
      ∀ search, checkDepths byId maxDepth = .ok search → ∀ task ∈ candidate.tasks,
        ∃ d, Dict.get? search.depths task.taskId = some d ∧
          IsDepth (dependencies candidate.tasks) task.taskId d := by
  refine ⟨validate_ok_iff, raises_validate, ?_⟩
  intro byId hindex hdeps
  have hknown := known_of_checked hindex hdeps
  obtain rfl := (indexTasks_ok_iff.mp hindex).2
  constructor
  · intro task htask
    rw [List.length_map]
    have hfound := depth_of_task hknown htask
    generalize depth _ _ _ _ = result at hfound ⊢
    cases hfound with
    | @depth d s hd => exact .inl ⟨d, s, rfl, hd⟩
    | @cycle x hx => exact .inr ⟨rfl, x, hx⟩
  · intro search hsearch task htask
    rcases checkDepths_spec (gives_entries candidate.tasks) (closed_of_known hknown) maxDepth with
      ⟨s, hs, hall⟩ | ⟨⟨error, herror⟩, -⟩
    · rw [hs] at hsearch
      cases hsearch
      rw [keys_entries] at hall
      obtain ⟨d, hmemo, hd, -⟩ := hall _ (List.mem_map_of_mem htask)
      exact ⟨d, hmemo, hd⟩
    · rw [herror] at hsearch
      cases hsearch

end Plans

def bareTask (taskId : String) (dependsOn : List String) : AnalysisTaskCandidate where
  taskId := taskId
  taskType := .comparison
  description := ""
  metrics := []
  dimensions := []
  timeRange := none
  filters := []
  dependsOn := dependsOn
  expectedOutput := ""

def drilledPlan : AnalysisPlanCandidate :=
  ⟨[bareTask "detail" ["overall"], bareTask "overall" []]⟩

theorem validate_exact_drilled :
    WellFormed plainTexts ⟨[], []⟩ drilledPlan.tasks 2 12 ∧
      IsDepth (dependencies drilledPlan.tasks) "detail" 1 := by
  obtain ⟨hiff, -, hdepths⟩ := validate_exact plainTexts ⟨[], []⟩ drilledPlan 2 12
  have hplan := (hiff.mp ⟨_, rfl⟩).2
  refine ⟨hplan, ?_⟩
  obtain ⟨hfound, -⟩ := hdepths _ rfl rfl
  obtain ⟨d, search, hdepth, hd⟩ | ⟨-, x, hx⟩ := hfound _ List.mem_cons_self
  · cases hdepth
    exact hd
  · exact absurd hx (hplan.acyclic x)

end ChatBI.Analysis.Validation
