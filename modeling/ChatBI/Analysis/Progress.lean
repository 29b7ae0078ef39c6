import ChatBI.Analysis.Application
import ChatBI.Lib.Transition

/-!
# Progress over attempts

The results of a run follow its plan: they belong to the first tasks, in their order, and all but
the last are complete. Attribution is reached only when every task has a complete result.
-/

namespace ChatBI.Analysis

open ChatBI.Lib

/-- The results belong to the first tasks, and all but the last are complete. -/
structure Follows (tasks : List AnalysisTask) (results : List TaskResult) : Prop where
  ids : results.map TaskResult.taskId <+: tasks.map AnalysisTask.taskId
  init : ∀ result ∈ results.dropLast, result.done = true

/-- The complete results. -/
def complete (results : List TaskResult) : List TaskResult := results.filter TaskResult.done

/-- The tasks have different ids. -/
def AnalysisPlan.Distinct (plan : AnalysisPlan) : Prop :=
  (plan.tasks.map AnalysisTask.taskId).Nodup

section Results

variable {tasks before after : List AnalysisTask} {results : List TaskResult}

/-- The results are complete, or all but the last are. -/
lemma Follows.split (h : Follows tasks results) :
    complete results = results ∨ ∃ last, last.done = false ∧ results = complete results ++ [last] := by
  unfold complete
  rcases List.eq_nil_or_concat results with rfl | ⟨init, last, hlast⟩
  · exact .inl rfl
  · have hinit := h.init
    rw [List.concat_eq_append] at hlast
    rw [hlast, List.dropLast_concat] at hinit
    have hfilter : init.filter TaskResult.done = init := List.filter_eq_self.mpr hinit
    cases hdone : last.done with
    | true =>
      left
      rw [hlast, List.filter_append, hfilter, List.filter_cons_of_pos hdone, List.filter_nil]
    | false =>
      right
      refine ⟨last, hdone, ?_⟩
      rw [hlast, List.filter_append, hfilter, List.filter_cons_of_neg (by simp [hdone]),
        List.filter_nil, List.append_nil]

lemma previousResult_mem (hnodup : (results.map TaskResult.taskId).Nodup) {result : TaskResult}
    (h : result ∈ results) : previousResult results result.taskId = some result := by
  unfold previousResult
  cases hfind : results.reverse.find? (·.taskId = result.taskId) with
  | none =>
    have hne := List.find?_eq_none.mp hfind result (List.mem_reverse.mpr h)
    exact absurd (decide_eq_true rfl) hne
  | some found =>
    have hmem : found ∈ results := List.mem_reverse.mp (List.mem_of_find?_eq_some hfind)
    have hid : found.taskId = result.taskId := by
      have hp := List.find?_some hfind
      exact of_decide_eq_true hp
    rw [List.inj_on_of_nodup_map hnodup hmem h hid]

lemma previousResult_not_mem {taskId : String} (h : taskId ∉ results.map TaskResult.taskId) :
    previousResult results taskId = none := by
  unfold previousResult
  rw [List.find?_eq_none]
  intro found hfound hid
  apply h
  rw [← of_decide_eq_true hid]
  exact List.mem_map_of_mem (List.mem_reverse.mp hfound)

/-- The results that are found for the tasks that they belong to. -/
lemma filterMap_results {f : String → Option TaskResult}
    (hids : before.map AnalysisTask.taskId = results.map TaskResult.taskId)
    (hf : ∀ result ∈ results, f result.taskId = some result) :
    before.filterMap (fun task => f task.taskId) = results := by
  induction before generalizing results with
  | nil =>
    cases results with
    | nil => rfl
    | cons => cases hids
  | cons task before ih =>
    cases results with
    | nil => cases hids
    | cons result results =>
      rw [List.map_cons, List.map_cons, List.cons.injEq] at hids
      have hhead : f task.taskId = some result := by
        rw [hids.1]
        exact hf result List.mem_cons_self
      simp only [List.filterMap_cons, hhead]
      rw [ih hids.2 (fun r hr => hf r (List.mem_cons_of_mem _ hr))]

end Results

/-- The tasks of a plan in front of the next one to query, which is absent when all are complete. -/
structure Stands (plan : AnalysisPlan) (results : List TaskResult) (before : List AnalysisTask)
    (rest : List AnalysisTask) : Prop where
  tasks : plan.tasks = before ++ rest
  ids : before.map AnalysisTask.taskId = (complete results).map TaskResult.taskId
  last : complete results = results ∨ ∃ task after last, rest = task :: after ∧
    results = complete results ++ [last] ∧ last.done = false ∧ last.taskId = task.taskId

lemma Follows.stands {plan : AnalysisPlan} {results : List TaskResult}
    (h : Follows plan.tasks results) : ∃ before rest, Stands plan results before rest := by
  have hlength : (complete results).map TaskResult.taskId <+: plan.tasks.map AnalysisTask.taskId := by
    rcases h.split with heq | ⟨last, -, heq⟩
    · rw [heq]
      exact h.ids
    · refine List.IsPrefix.trans ?_ h.ids
      conv_rhs => rw [heq]
      rw [List.map_append]
      exact List.prefix_append _ _
  obtain ⟨ids, hids⟩ := hlength
  obtain ⟨before, rest, htasks, hbefore, hrest⟩ := List.map_eq_append_iff.mp hids.symm
  refine ⟨before, rest, htasks, hbefore, ?_⟩
  rcases h.split with heq | ⟨last, hdone, heq⟩
  · exact .inl heq
  · right
    have hprefix := h.ids
    rw [heq, List.map_append, ← hids, List.prefix_append_right_inj] at hprefix
    obtain ⟨tail, htail⟩ := hprefix
    rw [← hrest] at htail
    cases rest with
    | nil => cases htail
    | cons task after =>
      exact ⟨task, after, last, rfl, heq, hdone, (List.cons.inj htail).1⟩

namespace Stands

variable {plan : AnalysisPlan} {results : List TaskResult} {before rest : List AnalysisTask}

lemma nodup_results (h : Stands plan results before rest) (hplan : plan.Distinct) :
    (results.map TaskResult.taskId).Nodup := by
  have hnodup : ((before ++ rest).map AnalysisTask.taskId).Nodup := by
    rw [← h.tasks]
    exact hplan
  rw [List.map_append, h.ids] at hnodup
  rcases h.last with heq | ⟨task, after, last, hrest, heq, -, hid⟩
  · rw [heq] at hnodup
    exact hnodup.of_append_left
  · rw [hrest, List.map_cons] at hnodup
    rw [heq, List.map_append, List.map_singleton, hid]
    exact hnodup.sublist (List.Sublist.append_left (List.singleton_sublist.mpr List.mem_cons_self) _)

/-- The first task that is not in front has no complete result. -/
lemma not_done {task : AnalysisTask} {after : List AnalysisTask}
    (h : Stands plan results before (task :: after)) (hplan : plan.Distinct) :
    (previousResult results task.taskId).any TaskResult.done = false := by
  have hnodup : ((before ++ task :: after).map AnalysisTask.taskId).Nodup := by
    rw [← h.tasks]
    exact hplan
  rw [List.map_append, List.map_cons, h.ids, List.nodup_middle, List.nodup_cons, List.mem_append,
    not_or] at hnodup
  rcases h.last with heq | ⟨task', after', last, hrest, heq, hdone, hid⟩
  · rw [heq] at hnodup
    rw [previousResult_not_mem hnodup.1.1]
    rfl
  · obtain ⟨rfl, rfl⟩ := List.cons.inj hrest
    have hmem : last ∈ results := by
      rw [heq]
      exact List.mem_append_right _ (List.mem_singleton_self last)
    rw [← hid, previousResult_mem (h.nodup_results hplan) hmem]
    exact hdone

/-- The tasks in front have complete results. -/
lemma done_before (h : Stands plan results before rest) (hplan : plan.Distinct) {task : AnalysisTask}
    (htask : task ∈ before) : (previousResult results task.taskId).any TaskResult.done = true := by
  have hid : task.taskId ∈ (complete results).map TaskResult.taskId := by
    rw [← h.ids]
    exact List.mem_map_of_mem htask
  obtain ⟨result, hresult, hid⟩ := List.mem_map.mp hid
  obtain ⟨hmem, hdone⟩ := List.mem_filter.mp hresult
  rw [← hid, previousResult_mem (h.nodup_results hplan) hmem]
  exact hdone

theorem pendingTask_eq (h : Stands plan results before rest) (hplan : plan.Distinct) :
    pendingTask plan results = rest.head? := by
  unfold pendingTask
  have hbefore : before.find? (fun task =>
      !(previousResult results task.taskId).any TaskResult.done) = none := by
    rw [List.find?_eq_none]
    intro task htask
    rw [h.done_before hplan htask]
    exact Bool.false_ne_true
  rw [h.tasks, List.find?_append, hbefore, Option.none_or]
  cases rest with
  | nil => rfl
  | cons task after =>
    rw [List.head?_cons, List.find?_cons_of_pos]
    rw [h.not_done hplan]
    rfl

/-- The results are read back in the order of the plan. -/
lemma readBack (h : Stands plan results before []) (hplan : plan.Distinct) :
    plan.tasks.filterMap (fun task => previousResult results task.taskId) = results ∧
      complete results = results := by
  have hall : complete results = results := by
    rcases h.last with heq | ⟨_, _, _, hrest, -⟩
    · exact heq
    · cases hrest
  have hids := h.ids
  rw [hall] at hids
  refine ⟨?_, hall⟩
  rw [h.tasks, List.append_nil]
  exact filterMap_results hids (fun result hresult =>
    previousResult_mem (h.nodup_results hplan) hresult)

/-- The results with the one of the next task. -/
lemma recorded {task : AnalysisTask} {after : List AnalysisTask}
    (h : Stands plan results before (task :: after)) (hplan : plan.Distinct) {result : TaskResult}
    (hid : result.taskId = task.taskId) :
    plan.tasks.filterMap (fun task =>
      if task.taskId = result.taskId then some result else previousResult results task.taskId) =
        complete results ++ [result] := by
  have hnodup : ((before ++ task :: after).map AnalysisTask.taskId).Nodup := by
    rw [← h.tasks]
    exact hplan
  rw [List.map_append, List.map_cons, List.nodup_middle, List.nodup_cons, List.mem_append,
    not_or] at hnodup
  obtain ⟨⟨hbefore, hafter⟩, hrest⟩ := hnodup
  have hfront : before.filterMap (fun task =>
      if task.taskId = result.taskId then some result else previousResult results task.taskId) =
        complete results := by
    apply filterMap_results (f := fun taskId =>
      if taskId = result.taskId then some result else previousResult results taskId) h.ids
    intro r hr
    have hne : r.taskId ≠ result.taskId := by
      intro heq
      apply hbefore
      rw [h.ids, ← hid, ← heq]
      exact List.mem_map_of_mem hr
    rw [if_neg hne]
    exact previousResult_mem (h.nodup_results hplan) (List.mem_filter.mp hr).1
  have hback : after.filterMap (fun task =>
      if task.taskId = result.taskId then some result else previousResult results task.taskId) =
        [] := by
    rw [List.filterMap_eq_nil_iff]
    intro other hother
    have hmem : other.taskId ∈ after.map AnalysisTask.taskId := List.mem_map_of_mem hother
    have hne : other.taskId ≠ result.taskId := by
      intro heq
      apply hafter
      rw [← hid, ← heq]
      exact hmem
    rw [if_neg hne]
    apply previousResult_not_mem
    rcases h.last with heq | ⟨task', after', last, htail, heq, -, hlast⟩
    · rw [← heq, ← h.ids]
      intro hfirst
      exact List.disjoint_of_nodup_append hrest hfirst hmem
    · obtain ⟨rfl, rfl⟩ := List.cons.inj htail
      rw [heq, List.map_append, List.map_singleton, List.mem_append, ← h.ids, List.mem_singleton,
        hlast]
      rintro (hfirst | heq)
      · exact List.disjoint_of_nodup_append hrest hfirst hmem
      · apply hafter
        rw [← heq]
        exact hmem
  rw [h.tasks, List.filterMap_append, hfront, List.filterMap_cons, if_pos hid.symm, hback]

end Stands

/-! ### A visit of the node `execute` -/

/-- What a visit of the node does, when the results of the checkpoint follow the plan. -/
inductive Executes {Report : Type} (a : Attempt Report) (c : Checkpoint Report) (plan : AnalysisPlan) :
    List Event → Except Interrupt (Checkpoint Report) → Prop
  | unbound : Executes a c plan []
      (.ok (c.fail (failure a.requestId .contextError "ANALYSIS_EXECUTION_FAILURE")))
  | settled {before : List AnalysisTask} (stands : Stands plan c.taskResults before []) :
      Executes a c plan [] (.ok c)
  | interrupted {before rest : List AnalysisTask} {events : List Event} {interrupt : Interrupt}
      (stands : Stands plan c.taskResults before rest)
      (queries : events = [] ∨ ∃ task after, rest = task :: after ∧
        events.Sublist [.query task.taskId, .query task.taskId]) :
      Executes a c plan events (.error interrupt)
  | recorded {before after : List AnalysisTask} {task : AnalysisTask} {events : List Event}
      {result : TaskResult} {failure : Option QueryFailure}
      (stands : Stands plan c.taskResults before (task :: after))
      (queries : events.Sublist [.query task.taskId, .query task.taskId])
      (id : result.taskId = task.taskId) (failed : failure.isSome = !result.done) :
      Executes a c plan events (.ok { c with
        taskResults := complete c.taskResults ++ [result], failure := failure })

lemma queryTask_spec (visit : Visit) (taskId : String) :
    (queryTask visit taskId).1.Sublist [.query taskId, .query taskId] ∧
      ∀ result, (queryTask visit taskId).2 = .ok result → result.taskId = taskId := by
  have hone : [Event.query taskId].Sublist [.query taskId, .query taskId] :=
    List.singleton_sublist.mpr List.mem_cons_self
  unfold queryTask
  cases visit.first with
  | error interrupt => exact ⟨hone, fun _ h => nomatch h⟩
  | ok outcome =>
    by_cases hretry : (executeTask taskId outcome).status = .failed ∧
        (executeTask taskId outcome).retryable
    · simp only [if_pos hretry]
      refine ⟨List.Sublist.refl _, ?_⟩
      intro result h
      cases hsecond : visit.second with
      | error interrupt =>
        rw [hsecond] at h
        cases h
      | ok outcome' =>
        rw [hsecond] at h
        cases h
        exact executeTask_taskId taskId outcome'
    · simp only [if_neg hretry]
      refine ⟨hone, ?_⟩
      intro result h
      cases h
      exact executeTask_taskId taskId outcome

section Executing

variable {Report : Type} {a : Attempt Report} {c : Checkpoint Report} {plan : AnalysisPlan}

/-- The failure that the result of a task turns into. -/
def resultFailure (a : Attempt Report) (result : TaskResult) : Option QueryFailure :=
  if result.done then none
  else some (failure a.requestId .cannotAnswer
    (if result.truncated then "ANALYSIS_TASK_TRUNCATED" else "ANALYSIS_TASK_FAILED"))

lemma isSome_resultFailure (result : TaskResult) :
    (resultFailure a result).isSome = !result.done := by
  unfold resultFailure
  cases result.done <;> rfl

lemma recordResult_eq {before after : List AnalysisTask} {task : AnalysisTask}
    (h : Stands plan c.taskResults before (task :: after)) (hplan : plan.Distinct)
    {result : TaskResult} (hid : result.taskId = task.taskId) :
    recordResult a c plan result = { c with
      taskResults := complete c.taskResults ++ [result], failure := resultFailure a result } := by
  unfold recordResult resultFailure
  rw [h.recorded hplan hid]
  cases result.done <;> rfl

theorem executeTasks_spec (visit : Visit) (hplan : c.plan = some plan) (hdistinct : plan.Distinct)
    (hfollows : Follows plan.tasks c.taskResults) :
    Executes a c plan (executeTasks a c visit).1 (executeTasks a c visit).2 := by
  obtain ⟨before, rest, hstands⟩ := hfollows.stands
  unfold executeTasks
  by_cases hbound : visit.bound = true
  · rw [if_neg (not_not_intro hbound)]
    simp only [hplan, hstands.pendingTask_eq hdistinct]
    cases rest with
    | nil =>
      simp only [List.head?_nil, (hstands.readBack hdistinct).1]
      cases visit.before with
      | none =>
        have hsame : ({ c with plan := some plan } : Checkpoint Report) = c := by rw [← hplan]
        change Executes a c plan [] (.ok { c with plan := some plan })
        rw [hsame]
        exact .settled hstands
      | some interrupt => exact .interrupted hstands (.inl rfl)
    | cons task after =>
      simp only [List.head?_cons]
      unfold executePending
      cases visit.before with
      | some interrupt => exact .interrupted hstands (.inl rfl)
      | none =>
        obtain ⟨hqueries, hid⟩ := queryTask_spec visit task.taskId
        cases hqueried : (queryTask visit task.taskId).2 with
        | error interrupt =>
          simp only [hqueried]
          exact .interrupted hstands (.inr ⟨task, after, rfl, hqueries⟩)
        | ok result =>
          simp only [hqueried]
          cases visit.after with
          | some interrupt => exact .interrupted hstands (.inr ⟨task, after, rfl, hqueries⟩)
          | none =>
            change Executes a c plan _ (.ok (recordResult a c plan result))
            rw [recordResult_eq hstands hdistinct (hid result hqueried)]
            exact .recorded hstands hqueries (hid result hqueried) (isSome_resultFailure result)
  · rw [if_pos hbound]
    exact .unbound

end Executing

end ChatBI.Analysis
