import ChatBI.Analysis.Progress

/-!
# Attempts on one analysis run

What holds in front of every node, what a run of the graph keeps, and what follows for every
sequence of attempts.
-/

namespace ChatBI.Analysis

open ChatBI.Lib

def Event.query? : Event → Option String
  | .query taskId => some taskId
  | .attribution _ _ => none

/-- The tasks that are queried, in order. -/
def queried (events : List Event) : List String := events.filterMap Event.query?

/-- Every task twice, in order. -/
def twice (tasks : List AnalysisTask) : List String :=
  tasks.flatMap fun task => [task.taskId, task.taskId]

/-- Every task of the plan has a complete result, in the order of the plan. -/
structure Settled (plan : AnalysisPlan) (results : List TaskResult) : Prop where
  ids : results.map TaskResult.taskId = plan.tasks.map AnalysisTask.taskId
  done : ∀ result ∈ results, result.done = true

section Checkpoints

variable {Report : Type}

/-- What holds of every checkpoint. -/
structure Checkpoint.Sound (c : Checkpoint Report) : Prop where
  planned : c.plan.isSome = c.analysisRequest.isSome
  unplanned : c.plan = none → c.taskResults = []
  built : ∀ plan, c.plan = some plan → ∃ request, plan = comparisonPlan request
  follows : ∀ plan, c.plan = some plan → Follows plan.tasks c.taskResults

lemma Checkpoint.Sound.congr {c c' : Checkpoint Report} (h : c.Sound) (plan : c'.plan = c.plan)
    (request : c'.analysisRequest = c.analysisRequest) (results : c'.taskResults = c.taskResults) :
    c'.Sound where
  planned := by rw [plan, request]; exact h.planned
  unplanned := by rw [plan, results]; exact h.unplanned
  built := by rw [plan]; exact h.built
  follows := by rw [plan, results]; exact h.follows

lemma Checkpoint.Sound.distinct {c : Checkpoint Report} (h : c.Sound) (plan : AnalysisPlan)
    (hplan : c.plan = some plan) : plan.Distinct := by
  obtain ⟨request, rfl⟩ := h.built plan hplan
  exact comparisonPlan_nodup request

lemma Checkpoint.Sound.plan_isSome {c : Checkpoint Report} (h : c.Sound) :
    c.planned = c.plan.isSome := by
  unfold Checkpoint.planned
  rw [← h.planned, Bool.and_self]

/-- The nodes behind the validation. -/
def Node.executing : Node → Bool
  | .extract | .validate => false
  | .execute | .attribution | .summarize => true

/-- The nodes behind the queries. -/
def Node.settled : Node → Bool
  | .extract | .validate | .execute => false
  | .attribution | .summarize => true

/-- What holds in front of a node. -/
structure Enters (c : Checkpoint Report) (node : Node) : Prop extends Checkpoint.Sound c where
  unfailed : node.executing = true → c.failure = none
  existing : node.executing = true → c.plan.isSome = true
  settled : node.settled = true → ∀ plan, c.plan = some plan → Settled plan c.taskResults

lemma Enters.extract {c : Checkpoint Report} (hsound : c.Sound) : Enters c .extract :=
  ⟨hsound, (fun h => nomatch h), (fun h => nomatch h), (fun h => nomatch h)⟩

lemma Enters.validate {c : Checkpoint Report} (hsound : c.Sound) : Enters c .validate :=
  ⟨hsound, (fun h => nomatch h), (fun h => nomatch h), (fun h => nomatch h)⟩

/-- A checkpoint with at least the plan and the complete results of another one. -/
structure Advances (c c' : Checkpoint Report) : Prop where
  plan : ∀ plan, c.plan = some plan → c'.plan = some plan
  complete : complete c.taskResults <+: complete c'.taskResults

lemma Advances.of_eq {c c' : Checkpoint Report} (plan : c'.plan = c.plan)
    (results : c'.taskResults = c.taskResults) : Advances c c' := by
  refine ⟨?_, ?_⟩
  · intro p hp
    rw [plan, hp]
  · exact results ▸ List.prefix_rfl

lemma Advances.refl (c : Checkpoint Report) : Advances c c := .of_eq rfl rfl

lemma Advances.trans {c c' c'' : Checkpoint Report} (h : Advances c c') (h' : Advances c' c'') :
    Advances c c'' :=
  ⟨fun p hp => h'.plan p (h.plan p hp), h.complete.trans h'.complete⟩

end Checkpoints

/-! ### The nodes without queries -/

section Nodes

variable {Report : Type} {texts : Texts} {a : Attempt Report} {c c' : Checkpoint Report}

/-- A node that may fail keeps the plan and the results. -/
structure Keeps (c c' : Checkpoint Report) : Prop where
  plan : c'.plan = c.plan
  request : c'.analysisRequest = c.analysisRequest
  results : c'.taskResults = c.taskResults

lemma Keeps.refl (c : Checkpoint Report) : Keeps c c := ⟨rfl, rfl, rfl⟩

lemma Keeps.fail (c : Checkpoint Report) (failure : QueryFailure) : Keeps c (c.fail failure) :=
  ⟨rfl, rfl, rfl⟩

lemma extractRequest_keeps (h : extractRequest texts a c = .ok c') : Keeps c c' := by
  unfold extractRequest at h
  split at h
  · cases h
    exact ⟨rfl, rfl, rfl⟩
  · split at h
    · cases h
    · cases h
      exact .fail c _
    · split at h
      · cases h
        exact .fail c _
      · cases hdecompose : a.decompose with
        | error interrupt =>
          rw [hdecompose] at h
          cases h
        | ok decomposition =>
          rw [hdecompose] at h
          cases h
          cases decomposition <;> exact ⟨rfl, rfl, rfl⟩

lemma attributeResults_keeps (h : (attributeResults texts a c).2 = .ok c') : Keeps c c' := by
  unfold attributeResults at h
  split at h
  · cases h
  · cases h
    exact .fail c _
  · split at h
    · cases h
      exact ⟨rfl, rfl, rfl⟩
    · cases h
      exact .fail c _

lemma summarizeResults_keeps (h : summarizeResults a c = .ok c') : Keeps c c' := by
  unfold summarizeResults at h
  cases hsummary : a.summarize with
  | error interrupt =>
    rw [hsummary] at h
    cases h
  | ok summary =>
    rw [hsummary] at h
    cases h
    cases summary <;> exact ⟨rfl, rfl, rfl⟩

lemma uninterrupted_ok {α : Type} {interrupt : Option Interrupt} {x : Except Interrupt α} {y : α}
    (h : uninterrupted interrupt x = .ok y) : interrupt = none ∧ x = .ok y := by
  cases interrupt with
  | none => exact ⟨rfl, h⟩
  | some interrupt => cases h

/-- A plan that has just been made has no results yet. -/
lemma planRequest_spec (hsound : c.Sound) (hplan : c.plan = none)
    (h : planRequest texts a c = .ok c') :
    c'.Sound ∧ Advances c c' ∧ (c'.failure.isSome ∨ c'.plan.isSome) := by
  have hfails : ∀ failure, (c.fail failure).Sound ∧ Advances c (c.fail failure) ∧
      ((c.fail failure).failure.isSome ∨ (c.fail failure).plan.isSome) :=
    fun failure => ⟨hsound.congr rfl rfl rfl, .of_eq rfl rfl, .inl rfl⟩
  unfold planRequest at h
  split at h
  · split at h
    · rename_i request plan hbuild
      obtain ⟨-, h⟩ := uninterrupted_ok h
      cases h
      have hempty := hsound.unplanned hplan
      refine ⟨⟨rfl, (fun h => nomatch h), ?_, ?_⟩, ⟨?_, ?_⟩, .inr rfl⟩
      · intro p hp
        rw [← Option.some.inj hp, buildComparisonPlan_ok hbuild]
        exact ⟨request, rfl⟩
      · intro p _
        simp only [hempty]
        exact ⟨List.nil_prefix, fun r hr => absurd hr List.not_mem_nil⟩
      · intro p hp
        rw [hplan] at hp
        cases hp
      · exact List.prefix_rfl
    · cases h
      exact hfails _
  · cases h
    exact hfails _

lemma validateRequest_spec (hsound : c.Sound) (h : validateRequest texts a c = .ok c') :
    c'.Sound ∧ Advances c c' ∧ (c'.failure.isSome ∨ c'.plan.isSome) := by
  unfold validateRequest at h
  split at h
  · rename_i hfailed
    cases h
    exact ⟨hsound, .refl c, .inl hfailed⟩
  · split at h
    · rename_i hplanned
      cases h
      rw [hsound.plan_isSome] at hplanned
      exact ⟨hsound.congr rfl rfl rfl, .of_eq rfl rfl, .inr hplanned⟩
    · rename_i hplanned
      obtain ⟨-, h⟩ := uninterrupted_ok h
      rw [hsound.plan_isSome, Option.not_isSome_iff_eq_none] at hplanned
      exact planRequest_spec hsound hplanned h

end Nodes

/-! ### A run of the graph -/

section Runs

variable {Report : Type} {texts : Texts} {a : Attempt Report} {c c' : Checkpoint Report}

/-- What a run of the graph from a checkpoint has done and left behind. -/
structure Ran.Follows (c : Checkpoint Report) (ran : Ran Report) : Prop where
  sound : ran.checkpoint.Sound
  advances : Advances c ran.checkpoint
  queries : ∀ plan, ran.checkpoint.plan = some plan →
    (queried ran.events).Sublist (twice (plan.tasks.drop (complete c.taskResults).length))
  quiet : ran.checkpoint.plan = none → queried ran.events = []
  attributions : ∀ request results, .attribution request results ∈ ran.events →
    ∃ plan, ran.checkpoint.plan = some plan ∧ Settled plan results

lemma twice_cons (task : AnalysisTask) (tasks : List AnalysisTask) :
    twice (task :: tasks) = [task.taskId, task.taskId] ++ twice tasks := rfl

lemma twice_sublist {tasks tasks' : List AnalysisTask} (h : tasks.Sublist tasks') :
    (twice tasks).Sublist (twice tasks') := by
  induction h with
  | slnil => exact List.Sublist.refl _
  | cons task _ ih =>
    rw [twice_cons]
    exact ih.trans (List.sublist_append_right _ _)
  | cons_cons task _ ih =>
    rw [twice_cons, twice_cons]
    exact ih.append_left _

/-- A run that ends with this superstep, without queries. -/
lemma Ran.Follows.last (hsound : c'.Sound) (hadvances : Advances c c') {events : List Event}
    (hquiet : queried events = []) {interrupt : Option Interrupt}
    (hattributions : ∀ request results, .attribution request results ∈ events →
      ∃ plan, c'.plan = some plan ∧ Settled plan results) :
    Ran.Follows c ⟨events, c', interrupt⟩ where
  sound := hsound
  advances := hadvances
  queries := by
    intro plan _
    rw [hquiet]
    exact List.nil_sublist _
  quiet := fun _ => hquiet
  attributions := hattributions

/-- A superstep without queries in front of a run. -/
lemma Ran.Follows.cons {ran : Ran Report} (h : Ran.Follows c' ran) (hadvances : Advances c c')
    {events : List Event} (hquiet : queried events = [])
    (hattributions : ∀ request results, .attribution request results ∈ events →
      ∃ plan, c'.plan = some plan ∧ Settled plan results) :
    Ran.Follows c ⟨events ++ ran.events, ran.checkpoint, ran.interrupt⟩ := by
  have hqueried : queried (events ++ ran.events) = queried ran.events := by
    unfold queried at hquiet ⊢
    rw [List.filterMap_append, hquiet, List.nil_append]
  refine ⟨h.sound, hadvances.trans h.advances, ?_, ?_, ?_⟩
  · intro plan hplan
    rw [hqueried]
    refine (h.queries plan hplan).trans (twice_sublist ?_)
    exact List.drop_sublist_drop_left _ hadvances.complete.length_le
  · intro hplan
    rw [hqueried]
    exact h.quiet hplan
  · intro request results hmem
    rcases List.mem_append.mp hmem with hmem | hmem
    · obtain ⟨plan, hplan, hsettled⟩ := hattributions request results hmem
      exact ⟨plan, h.advances.plan plan hplan, hsettled⟩
    · exact h.attributions request results hmem

lemma not_attribution_of_sublist {taskId : String} {events : List Event}
    (h : events.Sublist [.query taskId, .query taskId]) (request : AnalysisRequest)
    (results : List TaskResult) : Event.attribution request results ∉ events := by
  intro hmem
  have hmem' := h.subset hmem
  simp at hmem'

lemma queried_sublist {taskId : String} {events : List Event}
    (h : events.Sublist [.query taskId, .query taskId]) :
    (queried events).Sublist [taskId, taskId] := h.filterMap Event.query?

/-- The tasks of a plan behind the complete results. -/
lemma Stands.drop {plan : AnalysisPlan} {results : List TaskResult}
    {before rest : List AnalysisTask} (h : Stands plan results before rest) :
    plan.tasks.drop (complete results).length = rest := by
  have hlength : before.length = (complete results).length := by
    have := congrArg List.length h.ids
    rwa [List.length_map, List.length_map] at this
  rw [h.tasks, ← hlength, List.drop_left]

/-- A superstep that has recorded the result of the next task. -/
lemma sound_recorded {plan : AnalysisPlan} {before after : List AnalysisTask} {task : AnalysisTask}
    {result : TaskResult} (failure : Option QueryFailure) (hsound : c.Sound)
    (hplan : c.plan = some plan) (hstands : Stands plan c.taskResults before (task :: after))
    (hid : result.taskId = task.taskId) :
    ({ c with taskResults := complete c.taskResults ++ [result], failure := failure } :
      Checkpoint Report).Sound where
  planned := hsound.planned
  unplanned := by
    intro hnone
    rw [hplan] at hnone
    cases hnone
  built := hsound.built
  follows := by
    intro p hp
    rw [hplan] at hp
    cases hp
    refine ⟨?_, ?_⟩
    · rw [List.map_append, ← hstands.ids, hstands.tasks, List.map_append,
        List.prefix_append_right_inj, List.map_cons, List.map_cons, hid]
      exact ⟨after.map AnalysisTask.taskId, rfl⟩
    · intro r hr
      rw [List.dropLast_concat] at hr
      exact (List.mem_filter.mp hr).2

lemma complete_append {results : List TaskResult} {result : TaskResult} :
    complete (complete results ++ [result]) =
      complete results ++ if result.done then [result] else [] := by
  unfold complete
  rw [List.filter_append, List.filter_filter, List.filter_cons]
  simp

/-- The node behind `execute`, entered with complete results. -/
lemma enters_after_execute {plan : AnalysisPlan} (hsound : c.Sound) (hplan : c.plan = some plan)
    (hfailure : c.failure = none) (hall : complete c.taskResults = c.taskResults) {next : Node}
    (hroute : route c .execute = some next) : Enters c next := by
  have hexisting : c.plan.isSome = true := by
    rw [hplan]
    rfl
  simp only [route, hfailure, Option.isSome_none, Bool.false_eq_true, if_false] at hroute
  refine ⟨hsound, fun _ => hfailure, fun _ => hexisting, ?_⟩
  split at hroute
  · rename_i hlength
    intro _ p hp
    rw [hp, Option.any_some] at hlength
    refine ⟨?_, ?_⟩
    · apply (hsound.follows p hp).ids.eq_of_length
      rw [List.length_map, List.length_map]
      exact of_decide_eq_true hlength
    · intro r hr
      rw [← hall] at hr
      exact (List.mem_filter.mp hr).2
  · cases hroute
    intro hsettled
    cases hsettled

/-- What follows a superstep, given what follows every node that it leads to. -/
lemma runGraph_succ {fuel visit : Nat} {node : Node} {events : List Event}
    (hrun : runNode texts a visit c node = (events, .ok c')) :
    runGraph texts a (fuel + 1) visit node c =
      match route c' node with
      | none => ⟨events, c', none⟩
      | some next => ⟨events ++ (runGraph texts a fuel (visit + 1) next c').events,
          (runGraph texts a fuel (visit + 1) next c').checkpoint,
          (runGraph texts a fuel (visit + 1) next c').interrupt⟩ := by
  cases hroute : route c' node with
  | none => simp only [runGraph, hrun, hroute]
  | some next => simp only [runGraph, hrun, hroute]

lemma runGraph_interrupted {fuel visit : Nat} {node : Node} {events : List Event}
    {interrupt : Interrupt} (hrun : runNode texts a visit c node = (events, .error interrupt)) :
    runGraph texts a (fuel + 1) visit node c = ⟨events, c, some interrupt⟩ := by
  rw [runGraph, hrun]

lemma complete_recorded {results : List TaskResult} {result : TaskResult} (h : result.done = true) :
    complete (complete results ++ [result]) = complete results ++ [result] := by
  rw [complete_append, h, if_pos rfl]

lemma Enters.plan_eq {node : Node} (h : Enters c node) (hnode : node.executing = true) :
    ∃ plan, c.plan = some plan ∧ plan.Distinct ∧ Follows plan.tasks c.taskResults := by
  obtain ⟨plan, hplan⟩ := Option.isSome_iff_exists.mp (h.existing hnode)
  exact ⟨plan, hplan, h.distinct plan hplan, h.follows plan hplan⟩

/-- A node behind one that keeps the plan and the results, entered without a failure. -/
lemma Enters.keeps {node next : Node} (h : Enters c node) (hkeeps : Keeps c c')
    (hnode : node.settled = true) (hexecuting : node.executing = true)
    (hfailed : ¬c'.failure.isSome) : Enters c' next := by
  refine ⟨h.toSound.congr hkeeps.plan hkeeps.request hkeeps.results, ?_, ?_, ?_⟩
  · intro _
    exact Option.not_isSome_iff_eq_none.mp hfailed
  · intro _
    rw [hkeeps.plan]
    exact h.existing hexecuting
  · intro _ plan hplan
    rw [hkeeps.plan] at hplan
    rw [hkeeps.results]
    exact h.settled hnode plan hplan

/-- What holds in front of a node behind a superstep. -/
theorem enters_next {visit : Nat} {node next : Node} (henters : Enters c node)
    (hrun : (runNode texts a visit c node).2 = .ok c') (hroute : route c' node = some next) :
    Enters c' next := by
  have hsound := henters.toSound
  cases node with
  | extract =>
    have hkeeps := extractRequest_keeps hrun
    cases hroute
    exact .validate (hsound.congr hkeeps.plan hkeeps.request hkeeps.results)
  | validate =>
    obtain ⟨hsound', -, hplan⟩ := validateRequest_spec hsound hrun
    simp only [route] at hroute
    split at hroute
    · cases hroute
    · rename_i hfailed
      cases hroute
      have hnone := Option.not_isSome_iff_eq_none.mp hfailed
      exact ⟨hsound', fun _ => hnone, fun _ => hplan.resolve_left hfailed, (fun h => nomatch h)⟩
  | execute =>
    obtain ⟨plan, hplan, hdistinct, hfollows⟩ := henters.plan_eq rfl
    have hexecutes := executeTasks_spec (a := a) (a.visits visit) hplan hdistinct hfollows
    change (executeTasks a c (a.visits visit)).2 = _ at hrun
    rw [hrun] at hexecutes
    generalize (executeTasks a c (a.visits visit)).1 = events at hexecutes
    cases hexecutes with
    | unbound => cases hroute
    | settled stands =>
      have hall : complete c.taskResults = c.taskResults := by
        rcases stands.last with heq | ⟨_, _, _, hrest, -⟩
        · exact heq
        · cases hrest
      exact enters_after_execute hsound hplan (henters.unfailed rfl) hall hroute
    | @recorded before after task events result failure stands queries id failed =>
      have hsound' := sound_recorded failure hsound hplan stands id
      cases hdone : result.done with
      | false =>
        rw [hdone] at failed
        exact absurd (hroute.symm.trans (if_pos failed)) (Option.some_ne_none next)
      | true =>
        rw [hdone, Bool.not_true, Option.isSome_eq_false_iff, Option.isNone_iff_eq_none] at failed
        exact enters_after_execute hsound' hplan failed (complete_recorded hdone) hroute
  | attribution =>
    simp only [route] at hroute
    split at hroute
    · cases hroute
    · rename_i hfailed
      exact henters.keeps (attributeResults_keeps hrun) rfl rfl hfailed
  | summarize => cases hroute

/-- A quiet end of a run. -/
lemma Ran.Follows.stops (hsound : c'.Sound) (hadvances : Advances c c')
    (interrupt : Option Interrupt) : Ran.Follows c ⟨[], c', interrupt⟩ :=
  .last hsound hadvances rfl (fun _ _ h => absurd h List.not_mem_nil)

/-- A run behind a superstep, given the runs from the nodes that it leads to. -/
lemma Ran.Follows.goes {fuel visit : Nat} {node : Node} {events : List Event}
    (hrun : runNode texts a visit c node = (events, .ok c')) (hsound : c'.Sound)
    (hadvances : Advances c c') (hquiet : queried events = [])
    (hattributions : ∀ request results, .attribution request results ∈ events →
      ∃ plan, c'.plan = some plan ∧ Settled plan results)
    (ih : ∀ next, route c' node = some next →
      (runGraph texts a fuel (visit + 1) next c').Follows c') :
    (runGraph texts a (fuel + 1) visit node c).Follows c := by
  rw [runGraph_succ hrun]
  cases hroute : route c' node with
  | none => exact .last hsound hadvances hquiet hattributions
  | some next => exact (ih next hroute).cons hadvances hquiet hattributions

/-- The queries of a superstep that has recorded a result, in front of those that follow. -/
lemma queries_recorded {plan : AnalysisPlan} {before after : List AnalysisTask}
    {task : AnalysisTask} {events : List Event} (rest : List Event) {length : Nat}
    (hstands : Stands plan c.taskResults before (task :: after))
    (hevents : events.Sublist [.query task.taskId, .query task.taskId])
    (hlength : length = (complete c.taskResults).length + 1)
    (hrest : (queried rest).Sublist (twice (plan.tasks.drop length))) :
    (queried (events ++ rest)).Sublist
      (twice (plan.tasks.drop (complete c.taskResults).length)) := by
  have hafter : plan.tasks.drop length = after := by
    rw [hlength, ← List.drop_drop, hstands.drop, List.drop_one, List.tail_cons]
  rw [hafter] at hrest
  have hqueried : queried (events ++ rest) = queried events ++ queried rest :=
    List.filterMap_append
  rw [hqueried, hstands.drop, twice_cons]
  exact (queried_sublist hevents).append hrest

/-- A superstep at `execute` and what follows it. -/
lemma follows_execute {plan : AnalysisPlan} (hsound : c.Sound) (hplan : c.plan = some plan)
    {fuel visit : Nat} {events : List Event} {outcome : Except Interrupt (Checkpoint Report)}
    (h : Executes a c plan events outcome)
    (hrun : runNode texts a visit c .execute = (events, outcome))
    (ih : ∀ c' next, outcome = .ok c' → route c' .execute = some next →
      (runGraph texts a fuel (visit + 1) next c').Follows c') :
    (runGraph texts a (fuel + 1) visit .execute c).Follows c := by
  cases h with
  | unbound =>
    refine .goes hrun (hsound.congr rfl rfl rfl) (.of_eq rfl rfl) rfl ?_ (fun next => ih _ next rfl)
    intro request results hmem
    exact absurd hmem List.not_mem_nil
  | settled stands =>
    refine .goes hrun hsound (.refl c) rfl ?_ (fun next => ih _ next rfl)
    intro request results hmem
    exact absurd hmem List.not_mem_nil
  | interrupted stands queries =>
    rw [runGraph_interrupted hrun]
    rcases queries with rfl | ⟨task, after, rfl, hevents⟩
    · exact .stops hsound (.refl c) _
    · refine ⟨hsound, .refl c, ?_, ?_, ?_⟩
      · intro p hp
        have hsame : p = plan := Option.some.inj (hp.symm.trans hplan)
        subst hsame
        have hqueries := queries_recorded [] stands hevents rfl (List.nil_sublist _)
        rwa [List.append_nil] at hqueries
      · intro hnone
        exact absurd (hplan.symm.trans hnone) (Option.some_ne_none plan)
      · intro request results hmem
        exact absurd hmem (not_attribution_of_sublist hevents request results)
  | @recorded before after task events result failure stands queries id failed =>
    have hsound' := sound_recorded failure hsound hplan stands id
    have hadvances : Advances c { c with
        taskResults := complete c.taskResults ++ [result], failure := failure } := by
      refine ⟨fun _ hp => hp, ?_⟩
      rw [complete_append]
      exact List.prefix_append _ _
    have hquiet : ∀ request results, Event.attribution request results ∉ events :=
      not_attribution_of_sublist queries
    rw [runGraph_succ hrun]
    cases hroute : route { c with
        taskResults := complete c.taskResults ++ [result], failure := failure } .execute with
    | none =>
      refine ⟨hsound', hadvances, ?_, ?_, ?_⟩
      · intro p hp
        have hsame : p = plan := Option.some.inj (hp.symm.trans hplan)
        subst hsame
        have hqueries := queries_recorded [] stands queries rfl (List.nil_sublist _)
        rwa [List.append_nil] at hqueries
      · intro hnone
        exact absurd (hplan.symm.trans hnone) (Option.some_ne_none plan)
      · intro request results hmem
        exact absurd hmem (hquiet request results)
    | some next =>
      have hfollows := ih _ next rfl hroute
      -- a node follows only when the result is complete
      have hdone : result.done = true := by
        cases hdone : result.done with
        | true => rfl
        | false =>
          rw [hdone] at failed
          exact absurd (hroute.symm.trans (if_pos failed)) (Option.some_ne_none next)
      refine ⟨hfollows.sound, hadvances.trans hfollows.advances, ?_, ?_, ?_⟩
      · intro p hp
        have hsame : p = plan :=
          Option.some.inj (hp.symm.trans (hfollows.advances.plan plan hplan))
        subst hsame
        refine queries_recorded _ stands queries ?_ (hfollows.queries p hp)
        rw [complete_recorded hdone, List.length_append, List.length_singleton]
      · intro hnone
        have hp := hfollows.advances.plan plan hplan
        exact absurd (hp.symm.trans hnone) (Option.some_ne_none plan)
      · intro request results hmem
        rcases List.mem_append.mp hmem with hmem | hmem
        · exact absurd hmem (hquiet request results)
        · exact hfollows.attributions request results hmem

/-- A superstep of a node without queries, and what follows it. -/
lemma follows_quiet {fuel visit : Nat} {node : Node} (henters : Enters c node)
    (hadvances : ∀ c', (runNode texts a visit c node).2 = .ok c' → c'.Sound ∧ Advances c c')
    (hquiet : queried (runNode texts a visit c node).1 = [])
    (hattributions : ∀ request results,
      .attribution request results ∈ (runNode texts a visit c node).1 →
        ∃ plan, c.plan = some plan ∧ Settled plan results)
    (ih : ∀ next c', Enters c' next → (runGraph texts a fuel (visit + 1) next c').Follows c') :
    (runGraph texts a (fuel + 1) visit node c).Follows c := by
  cases houtcome : (runNode texts a visit c node).2 with
  | error interrupt =>
    have hrun : runNode texts a visit c node = ((runNode texts a visit c node).1, .error interrupt) :=
      Prod.ext rfl houtcome
    rw [runGraph_interrupted hrun]
    exact .last henters.toSound (.refl c) hquiet hattributions
  | ok c' =>
    have hrun : runNode texts a visit c node = ((runNode texts a visit c node).1, .ok c') :=
      Prod.ext rfl houtcome
    obtain ⟨hsound', hsame⟩ := hadvances c' houtcome
    refine .goes hrun hsound' hsame hquiet ?_
      (fun next hroute => ih next c' (enters_next henters houtcome hroute))
    intro request results hmem
    obtain ⟨plan, hplan, hsettled⟩ := hattributions request results hmem
    exact ⟨plan, hsame.plan plan hplan, hsettled⟩

lemma Keeps.advances (h : Keeps c c') (hsound : c.Sound) : c'.Sound ∧ Advances c c' :=
  ⟨hsound.congr h.plan h.request h.results, .of_eq h.plan h.results⟩

/-- What `attribution` gives the calculation. -/
lemma attributions_settled (henters : Enters c .attribution) {request : AnalysisRequest}
    {results : List TaskResult}
    (h : .attribution request results ∈ (attributeResults texts a c).1) :
    ∃ plan, c.plan = some plan ∧ Settled plan results := by
  obtain ⟨plan, hplan⟩ := Option.isSome_iff_exists.mp (henters.existing rfl)
  unfold attributeResults at h
  split at h
  · cases h
  · cases h
  · cases List.mem_singleton.mp h
    exact ⟨plan, hplan, henters.settled rfl plan hplan⟩

lemma queried_attributeResults : queried (attributeResults texts a c).1 = [] := by
  unfold attributeResults
  split <;> rfl

/-- A run of the graph from a node. -/
theorem runGraph_follows (fuel : Nat) : ∀ visit node (c : Checkpoint Report), Enters c node →
    (runGraph texts a fuel visit node c).Follows c := by
  induction fuel with
  | zero =>
    intro visit node c henters
    exact .stops henters.toSound (.refl c) _
  | succ fuel ih =>
    intro visit node c henters
    have hsound := henters.toSound
    have hnone : ∀ request results, Event.attribution request results ∈ ([] : List Event) →
        ∃ plan, c.plan = some plan ∧ Settled plan results :=
      fun _ _ hmem => absurd hmem List.not_mem_nil
    cases node with
    | extract =>
      exact follows_quiet henters (fun c' h => (extractRequest_keeps h).advances hsound) rfl hnone
        (ih (visit + 1))
    | validate =>
      refine follows_quiet henters ?_ rfl hnone (ih (visit + 1))
      intro c' h
      obtain ⟨hsound', hadvances, -⟩ := validateRequest_spec hsound h
      exact ⟨hsound', hadvances⟩
    | execute =>
      obtain ⟨plan, hplan, hdistinct, hfollows⟩ := henters.plan_eq rfl
      have hexecutes := executeTasks_spec (a := a) (a.visits visit) hplan hdistinct hfollows
      refine follows_execute hsound hplan hexecutes rfl ?_
      intro c' next houtcome hroute
      have hrun : (runNode texts a visit c .execute).2 = .ok c' := houtcome
      exact ih (visit + 1) next c' (enters_next henters hrun hroute)
    | attribution =>
      exact follows_quiet henters (fun c' h => (attributeResults_keeps h).advances hsound)
        queried_attributeResults (fun _ _ => attributions_settled henters) (ih (visit + 1))
    | summarize =>
      exact follows_quiet henters (fun c' h => (summarizeResults_keeps h).advances hsound) rfl hnone
        (ih (visit + 1))

/-! ### Attempts -/

variable (texts a) in
/-- An attempt keeps what a checkpoint has. -/
theorem analyze_follows {r : AnalysisRun Report} (hsound : r.checkpoint.Sound) :
    Ran.Follows r.checkpoint
      ⟨(analyze texts a r).events, (analyze texts a r).run.checkpoint, none⟩ := by
  have hidle : Ran.Follows r.checkpoint ⟨[], r.checkpoint, none⟩ := .stops hsound (.refl _) _
  unfold analyze
  split
  · exact hidle
  · exact hidle
  · exact hidle
  · split
    · exact hidle
    · have hsound' : ({ r.checkpoint with question := a.question } : Checkpoint Report).Sound :=
        hsound.congr rfl rfl rfl
      have hinvoke := @runGraph_follows _ texts a recursionLimit 0 .extract _
        (.extract hsound')
      exact ⟨hinvoke.sound, ⟨hinvoke.advances.plan, hinvoke.advances.complete⟩, hinvoke.queries,
        hinvoke.quiet, hinvoke.attributions⟩

end Runs

/-- The attempts on a run that nothing has been recorded for. -/
def attempts (Report : Type) (texts : Texts) : System (AnalysisRun Report) (Attempt Report) where
  init r := r = ⟨.active, .empty⟩
  step r a r' := r' = (analyze texts a r).run

section Reachable

variable {Report : Type} {texts : Texts} {r r' : AnalysisRun Report} {as : List (Attempt Report)}

lemma Checkpoint.Sound.empty : (Checkpoint.empty : Checkpoint Report).Sound where
  planned := rfl
  unplanned := fun _ => rfl
  built := fun _ h => nomatch h
  follows := fun _ h => nomatch h

lemma sound_of_reachable (h : (attempts Report texts).Reachable r) : r.checkpoint.Sound := by
  refine System.Reachable.invariant (I := fun r => r.checkpoint.Sound) ?_ ?_ h
  · rintro r rfl
    exact .empty
  · rintro r a _ hsound rfl
    exact (analyze_follows texts a hsound).sound

/-- What later attempts keep. -/
lemma advances_of_run (hsound : r.checkpoint.Sound) (h : (attempts Report texts).Run r as r') :
    r'.checkpoint.Sound ∧ Advances r.checkpoint r'.checkpoint := by
  induction h with
  | nil => exact ⟨hsound, .refl _⟩
  | @snoc _ _ _ a _ hstep ih =>
    rw [hstep]
    have hfollows := analyze_follows texts a ih.1
    exact ⟨hfollows.sound, ih.2.trans hfollows.advances⟩

/-- A task with a complete result is not among the tasks that an attempt queries. -/
lemma not_queried {a : Attempt Report} (hsound : r.checkpoint.Sound) {result : TaskResult}
    (hmem : result ∈ r.checkpoint.taskResults) (hdone : result.done = true) :
    Event.query result.taskId ∉ (analyze texts a r).events := by
  intro hevent
  have hfollows := analyze_follows texts a hsound
  have hqueried : result.taskId ∈ queried (analyze texts a r).events :=
    List.mem_filterMap.mpr ⟨_, hevent, rfl⟩
  cases hplan : r.checkpoint.plan with
  | none =>
    rw [hsound.unplanned hplan] at hmem
    cases hmem
  | some plan =>
    have hqueries := hfollows.queries plan (hfollows.advances.plan plan hplan)
    obtain ⟨before, rest, hstands⟩ := (hsound.follows plan hplan).stands
    rw [hstands.drop] at hqueries
    have hrest : result.taskId ∈ rest.map AnalysisTask.taskId := by
      obtain ⟨task, htask, hid⟩ := List.mem_flatMap.mp (hqueries.subset hqueried)
      have heq : result.taskId = task.taskId := by simpa using hid
      rw [heq]
      exact List.mem_map_of_mem htask
    have hbefore : result.taskId ∈ before.map AnalysisTask.taskId := by
      rw [hstands.ids]
      exact List.mem_map_of_mem (List.mem_filter.mpr ⟨hmem, hdone⟩)
    have hdistinct := hsound.distinct plan hplan
    unfold AnalysisPlan.Distinct at hdistinct
    rw [hstands.tasks, List.map_append] at hdistinct
    exact List.disjoint_of_nodup_append hdistinct hbefore hrest

/-- Attribution is computed from the complete results of all tasks in the order of the plan, a task
with a complete result is never queried again, and an attempt queries the tasks in the order of the
plan, each at most twice. -/
theorem attempts_progress (texts : Texts) {r : AnalysisRun Report}
    (h : (attempts Report texts).Reachable r) :
    (∀ a request results, .attribution request results ∈ (analyze texts a r).events →
      ∃ plan, (analyze texts a r).run.checkpoint.plan = some plan ∧ Settled plan results) ∧
    (∀ result ∈ r.checkpoint.taskResults, result.done = true →
      ∀ as r', (attempts Report texts).Run r as r' → result ∈ r'.checkpoint.taskResults ∧
        ∀ a, Event.query result.taskId ∉ (analyze texts a r').events) ∧
    ∀ a, (queried (analyze texts a r).events = [] ∨
      ∃ plan, (analyze texts a r).run.checkpoint.plan = some plan ∧ plan.Distinct ∧
        (queried (analyze texts a r).events).Sublist (twice plan.tasks)) := by
  have hsound := sound_of_reachable h
  refine ⟨?_, ?_, ?_⟩
  · intro a request results hmem
    exact (analyze_follows texts a hsound).attributions request results hmem
  · intro result hmem hdone as r' hrun
    obtain ⟨hsound', hadvances⟩ := advances_of_run hsound hrun
    have hkept : result ∈ complete r'.checkpoint.taskResults :=
      hadvances.complete.subset (List.mem_filter.mpr ⟨hmem, hdone⟩)
    have hmem' := (List.mem_filter.mp hkept).1
    exact ⟨hmem', fun a => not_queried hsound' hmem' hdone⟩
  · intro a
    have hfollows := analyze_follows texts a hsound
    cases hplan : (analyze texts a r).run.checkpoint.plan with
    | none => exact .inl (hfollows.quiet hplan)
    | some plan =>
      refine .inr ⟨plan, rfl, hfollows.sound.distinct plan hplan, ?_⟩
      exact (hfollows.queries plan hplan).trans (twice_sublist (List.drop_sublist _ _))

end Reachable

def soldContext : AnalysisDecompositionContext :=
  ⟨[⟨netSalesMetric, []⟩, ⟨quantityMetric, []⟩], ["产品"]⟩

def soldCandidate : AnalysisRequestCandidate :=
  ⟨netSalesMetric, some ⟨"2025年", .year⟩, some ⟨"2024年", .year⟩⟩

/-- The result of a query in which both periods sold the same. -/
def soldOutcome (visit : Nat) : QueryOutcome :=
  if visit ≤ 3 then .success ["净销售额"] [[.number 10]] 1 false
  else .success ["产品", "净销售额", "销量"] [[.text "a", .number 10, .number 2]] 1 false

/-- An attempt in which nothing fails. -/
def soldAttempt : Attempt String where
  requestId := "r"
  question := "2025年与2024年人民币净销售额"
  claim := .claimed
  context := .ok (some soldContext)
  decompose := .ok (.candidate soldCandidate)
  validateBefore := none
  validateAfter := none
  visits visit := ⟨true, none, .ok (soldOutcome visit), .ok .executionError, none⟩
  attributing := none
  summarize := .ok (.report "report")
  finish := none
  markCompleted := none

/-- An attempt whose second task fails. -/
def failingAttempt : Attempt String :=
  { soldAttempt with
    visits := fun visit => ⟨true, none,
      .ok (if visit = 3 then .executionError else soldOutcome visit), .ok .executionError, none⟩ }

/-- The first task has a complete result and is left alone. -/
theorem attempts_progress_failing :
    ((analyze plainTexts failingAttempt ⟨.active, .empty⟩).run.checkpoint.taskResults.map
        fun result => (result.taskId, result.done)) =
      [("comparison-overall", true), ("current-overall", false)] ∧
    ∀ a, Event.query "comparison-overall" ∉ (analyze plainTexts a
      (analyze plainTexts failingAttempt ⟨.active, .empty⟩).run).events := by
  have hresults : ((analyze plainTexts failingAttempt
      ⟨.active, .empty⟩).run.checkpoint.taskResults.map fun result =>
        (result.taskId, result.done)) =
      [("comparison-overall", true), ("current-overall", false)] := by decide +kernel
  refine ⟨hresults, ?_⟩
  have hmem : ("comparison-overall", true) ∈ ((analyze plainTexts failingAttempt
      ⟨.active, .empty⟩).run.checkpoint.taskResults.map fun result =>
        (result.taskId, result.done)) := by
    rw [hresults]
    exact List.mem_cons_self
  obtain ⟨result, hresult, heq⟩ := List.mem_map.mp hmem
  obtain ⟨hid, hdone⟩ := Prod.mk.inj heq
  have hreachable : (attempts String plainTexts).Reachable
      (analyze plainTexts failingAttempt ⟨.active, .empty⟩).run :=
    (System.Reachable.of_init rfl).step rfl
  have hprogress := (attempts_progress plainTexts hreachable).2.1 result hresult hdone [] _ (.nil _)
  rw [← hid]
  exact hprogress.2

end ChatBI.Analysis
