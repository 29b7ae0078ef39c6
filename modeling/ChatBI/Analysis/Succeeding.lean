import ChatBI.Analysis.Attempts

/-!
# Attempts in which nothing fails

An attempt whose components all answer runs through the graph: the plan has four tasks, so that the
supersteps suffice.
-/

namespace ChatBI.Analysis

open ChatBI.Lib

/-- A visit of `execute` in which the query succeeds. -/
structure Visit.Succeeds (visit : Visit) : Prop where
  bound : visit.bound = true
  before : visit.before = none
  first : ∃ columns rows rowCount, visit.first = .ok (.success columns rows rowCount false)
  after : visit.after = none

section Attempts

variable {Report : Type} {texts : Texts} {a : Attempt Report}

/-- The extraction and the validation of an attempt succeed. -/
structure Attempt.Plans (texts : Texts) (a : Attempt Report) : Prop where
  planned : ∃ context catalog candidate built, a.context = .ok (some context) ∧
    fromRecords texts context = .ok catalog ∧ a.decompose = .ok (.candidate candidate) ∧
    buildComparisonPlan texts candidate catalog a.question = .ok built
  before : a.validateBefore = none
  after : a.validateAfter = none

/-- The attribution of what a run gives it succeeds. -/
def Attributes (texts : Texts) (events : List Event) : Prop :=
  ∀ request results, .attribution request results ∈ events → ∃ attribution,
    calculateProductAttribution texts.casefold texts.decimal request results = .ok attribution

/-- The components behind the validation succeed. -/
structure Attempt.Executes (a : Attempt Report) : Prop where
  visits : ∀ visit, (a.visits visit).Succeeds
  attributing : a.attributing = none
  summarize : ∃ report, a.summarize = .ok (.report report)
  finish : a.finish = none
  markCompleted : a.markCompleted = none

/-- An attempt on an open run in which nothing fails. A request that has been retained with its
plan is not extracted again. -/
structure Attempt.Faultless (texts : Texts) (a : Attempt Report) (r : AnalysisRun Report) :
    Prop extends a.Executes where
  claim : a.claim = .claimed
  active : r.status = .active
  plans : r.checkpoint.planned = true ∨ a.Plans texts
  attributes : Attributes texts (analyze texts a r).events

/-- A run of the graph that leaves a complete output. -/
structure Ran.Succeeds (ran : Ran Report) : Prop where
  interrupt : ran.interrupt = none
  failure : ran.checkpoint.failure = none
  plan : ran.checkpoint.plan.isSome = true
  attribution : ran.checkpoint.attribution.isSome = true
  report : ran.checkpoint.report.isSome = true

end Attempts

section Nodes

variable {Report : Type} {texts : Texts} {a : Attempt Report} {c c' : Checkpoint Report}

lemma Attributes.of_append {events events' : List Event} (h : Attributes texts (events ++ events')) :
    Attributes texts events' :=
  fun request results hmem => h request results (List.mem_append_right _ hmem)

/-- A superstep in front of a run that succeeds. -/
lemma succeeds_succ {fuel visit : Nat} {node next : Node} {events : List Event}
    (hrun : runNode texts a visit c node = (events, .ok c')) (hroute : route c' node = some next)
    (hattributes : Attributes texts (runGraph texts a (fuel + 1) visit node c).events)
    (h : Attributes texts (runGraph texts a fuel (visit + 1) next c').events →
      (runGraph texts a fuel (visit + 1) next c').Succeeds) :
    (runGraph texts a (fuel + 1) visit node c).Succeeds := by
  rw [runGraph_succ hrun, hroute] at hattributes ⊢
  have hrest := h hattributes.of_append
  exact ⟨hrest.interrupt, hrest.failure, hrest.plan, hrest.attribution, hrest.report⟩

lemma succeeds_summarize (ha : a.Executes) (henters : Enters c .summarize)
    (hattribution : c.attribution.isSome = true) (fuel visit : Nat) :
    (runGraph texts a (fuel + 1) visit .summarize c).Succeeds := by
  obtain ⟨report, hreport⟩ := ha.summarize
  have hrun : runNode texts a visit c .summarize = ([], .ok { c with report := some report }) := by
    simp only [runNode, summarizeResults, hreport]
    rfl
  rw [runGraph_succ hrun]
  exact ⟨rfl, henters.unfailed rfl, henters.existing rfl, hattribution, rfl⟩

lemma succeeds_attribution (ha : a.Executes) (henters : Enters c .attribution) (fuel visit : Nat)
    (h : Attributes texts (runGraph texts a (fuel + 2) visit .attribution c).events) :
    (runGraph texts a (fuel + 2) visit .attribution c).Succeeds := by
  have hexisting := henters.existing rfl
  rw [henters.toSound.planned] at hexisting
  obtain ⟨request, hrequest⟩ := Option.isSome_iff_exists.mp hexisting
  have hevent : Event.attribution request c.taskResults ∈
      (runGraph texts a (fuel + 2) visit .attribution c).events := by
    have hmem : Event.attribution request c.taskResults ∈
        (runNode texts a visit c .attribution).1 := by
      simp only [runNode, attributeResults, ha.attributing, hrequest]
      exact List.mem_cons_self
    unfold runGraph
    split
    · rename_i heq
      rw [heq] at hmem
      exact hmem
    · rename_i heq
      rw [heq] at hmem
      split
      · exact hmem
      · exact List.mem_append_left _ hmem
  obtain ⟨attribution, hattribution⟩ := h request c.taskResults hevent
  have hrun : runNode texts a visit c .attribution =
      ([.attribution request c.taskResults],
        .ok { c with attribution := some attribution }) := by
    simp only [runNode, attributeResults, ha.attributing, hrequest, hattribution]
  have hroute : route { c with attribution := some attribution } .attribution =
      some .summarize := by
    simp only [route, henters.unfailed rfl, Option.isSome_none, Bool.false_eq_true, if_false]
  refine succeeds_succ hrun hroute h ?_
  intro _
  exact succeeds_summarize ha (enters_next henters (congrArg Prod.snd hrun) hroute) rfl fuel _

/-- A superstep at `execute` whose query succeeds. -/
lemma executeTasks_succeeds {visit : Visit} (hvisit : visit.Succeeds) {plan : AnalysisPlan}
    {before after : List AnalysisTask} {task : AnalysisTask} (hplan : c.plan = some plan)
    (hdistinct : plan.Distinct) (hstands : Stands plan c.taskResults before (task :: after)) :
    ∃ events result, result.taskId = task.taskId ∧ result.done = true ∧
      executeTasks a c visit = (events, .ok { c with
        taskResults := complete c.taskResults ++ [result], failure := none }) := by
  obtain ⟨columns, rows, rowCount, hfirst⟩ := hvisit.first
  let result := executeTask task.taskId (.success columns rows rowCount false)
  have hquery : queryTask visit task.taskId = ([.query task.taskId], .ok result) := by
    unfold queryTask
    rw [hfirst]
    rfl
  refine ⟨[.query task.taskId], result, rfl, rfl, ?_⟩
  unfold executeTasks
  rw [if_neg (not_not_intro hvisit.bound)]
  simp only [hplan, hstands.pendingTask_eq hdistinct, List.head?_cons]
  unfold executePending
  rw [hvisit.before, hquery, hvisit.after]
  change (_, Except.ok (recordResult a c plan result)) = _
  rw [recordResult_eq hstands hdistinct rfl, ← hplan]
  rfl

/-- A superstep at `execute` behind the last query. -/
lemma executeTasks_settled {visit : Visit} (hvisit : visit.Succeeds) {plan : AnalysisPlan}
    {before : List AnalysisTask} (hplan : c.plan = some plan) (hdistinct : plan.Distinct)
    (hstands : Stands plan c.taskResults before []) : executeTasks a c visit = ([], .ok c) := by
  unfold executeTasks
  rw [if_neg (not_not_intro hvisit.bound)]
  simp only [hplan, hstands.pendingTask_eq hdistinct, List.head?_nil,
    (hstands.readBack hdistinct).1, hvisit.before]
  rw [← hplan]
  rfl

lemma Stands.length {plan : AnalysisPlan} {results : List TaskResult}
    {before rest : List AnalysisTask} (h : Stands plan results before rest) :
    plan.tasks.length = (complete results).length + rest.length := by
  rw [h.tasks, List.length_append]
  have hids := congrArg List.length h.ids
  rw [List.length_map, List.length_map] at hids
  omega

/-- The tasks that are left are queried one after the other. -/
lemma succeeds_execute (ha : a.Executes) (fuel : Nat) : ∀ (rest before : List AnalysisTask)
    (plan : AnalysisPlan) (c : Checkpoint Report) (visit : Nat), Enters c .execute →
    c.plan = some plan → Stands plan c.taskResults before rest →
    Attributes texts (runGraph texts a (fuel + rest.length + 3) visit .execute c).events →
    (runGraph texts a (fuel + rest.length + 3) visit .execute c).Succeeds := by
  intro rest
  induction rest with
  | nil =>
    intro before plan c visit henters hplan hstands h
    have hdistinct := henters.toSound.distinct plan hplan
    have hrun : runNode texts a visit c .execute = ([], .ok c) :=
      executeTasks_settled (ha.visits visit) hplan hdistinct hstands
    have hlength := hstands.length
    rw [(hstands.readBack hdistinct).2, List.length_nil, Nat.add_zero] at hlength
    have hroute : route c .execute = some .attribution := by
      simp only [route, henters.unfailed rfl, hplan, hlength, Option.isSome_none, Option.any_some,
        Bool.false_eq_true, if_false, decide_true, if_true]
    refine succeeds_succ hrun hroute h ?_
    exact succeeds_attribution ha (enters_next henters (congrArg Prod.snd hrun) hroute) fuel _
  | cons task after ih =>
    intro before plan c visit henters hplan hstands h
    have hdistinct := henters.toSound.distinct plan hplan
    obtain ⟨events, result, hid, hdone, hexecutes⟩ :=
      executeTasks_succeeds (a := a) (ha.visits visit) hplan hdistinct hstands
    have hrun : runNode texts a visit c .execute = (events, .ok { c with
        taskResults := complete c.taskResults ++ [result], failure := none }) := hexecutes
    have hsound' := sound_recorded none henters.toSound hplan hstands hid
    obtain ⟨before', rest', hstands'⟩ := (hsound'.follows plan hplan).stands
    have hlength := hstands.length
    have hcomplete : complete (complete c.taskResults ++ [result]) =
        complete c.taskResults ++ [result] := complete_recorded hdone
    have hrest : rest' = after := by
      rw [← hstands'.drop]
      change plan.tasks.drop (complete (complete c.taskResults ++ [result])).length = after
      rw [hcomplete, List.length_append, List.length_singleton, ← List.drop_drop, hstands.drop,
        List.drop_one, List.tail_cons]
    subst hrest
    cases rest' with
    | nil =>
      have hroute : route { c with
          taskResults := complete c.taskResults ++ [result], failure := none } .execute =
          some .attribution := by
        simp only [route, hplan, hlength, Option.isSome_none, Option.any_some, Bool.false_eq_true,
          if_false, List.length_append, List.length_cons, List.length_nil, Nat.zero_add, decide_true,
          if_true]
      refine succeeds_succ hrun hroute h ?_
      exact succeeds_attribution ha (enters_next henters (congrArg Prod.snd hrun) hroute)
        (fuel + 1) _
    | cons next rest =>
      have hroute : route { c with
          taskResults := complete c.taskResults ++ [result], failure := none } .execute =
          some .execute := by
        have hne : ¬(complete c.taskResults).length + 1 = plan.tasks.length := by
          rw [hlength, List.length_cons, List.length_cons]
          omega
        simp only [route, hplan, Option.isSome_none, Option.any_some, Bool.false_eq_true, if_false,
          List.length_append, List.length_singleton, hne, decide_false]
      refine succeeds_succ hrun hroute h ?_
      exact ih before' plan _ (visit + 1) (enters_next henters (congrArg Prod.snd hrun) hroute)
        hplan hstands'

/-- A plan has four tasks, so that the supersteps suffice. -/
lemma succeeds_planned (ha : a.Executes) (henters : Enters c .execute) (visit : Nat)
    (h : Attributes texts (runGraph texts a 23 visit .execute c).events) :
    (runGraph texts a 23 visit .execute c).Succeeds := by
  obtain ⟨plan, hplan, hdistinct, hfollows⟩ := henters.plan_eq rfl
  obtain ⟨before, rest, hstands⟩ := hfollows.stands
  obtain ⟨request, hbuilt⟩ := henters.toSound.built plan hplan
  have hlength := hstands.length
  have hfour : plan.tasks.length = 4 := by
    rw [hbuilt]
    rfl
  have hfuel : 23 = (20 - rest.length) + rest.length + 3 := by omega
  rw [hfuel] at h ⊢
  exact succeeds_execute ha _ rest before plan c visit henters hplan hstands h

end Nodes

section Results

variable {Report : Type} {texts : Texts} {a : Attempt Report} {r : AnalysisRun Report}

/-- The supersteps from the validation on. -/
lemma succeeds_validate {c c' : Checkpoint Report} (ha : a.Executes) (hsound : c.Sound)
    (hrun : runNode texts a 1 c .validate = ([], .ok c')) (hfailure : c'.failure = none)
    (h : Attributes texts (runGraph texts a 24 1 .validate c).events) :
    (runGraph texts a 24 1 .validate c).Succeeds := by
  have hroute : route c' .validate = some .execute := by
    simp only [route, hfailure, Option.isSome_none, Bool.false_eq_true, if_false]
  refine succeeds_succ hrun hroute h ?_
  exact succeeds_planned ha (enters_next (.validate hsound) (congrArg Prod.snd hrun) hroute) 2

/-- The validation of a request that has just been extracted. -/
lemma validateRequest_plans {c : Checkpoint Report} {candidate : AnalysisRequestCandidate}
    {catalog : AnalysisSemanticCatalog} {request : AnalysisRequest} {plan : AnalysisPlan}
    (hfailure : c.failure = none) (hplanned : c.planned = false)
    (hcandidate : c.candidate = some candidate) (hcatalog : c.catalog = some catalog)
    (hbuilt : buildComparisonPlan texts candidate catalog c.question = .ok (request, plan))
    (hbefore : a.validateBefore = none) (hafter : a.validateAfter = none) :
    validateRequest texts a c =
      .ok { c with analysisRequest := some request, plan := some plan } := by
  simp only [validateRequest, hfailure, hplanned, Option.isSome_none, Bool.false_eq_true, if_false,
    hbefore, uninterrupted, planRequest, hcandidate, hcatalog, hbuilt, hafter]

/-- The whole graph, from a checkpoint without a failure in front of the planning. -/
lemma succeeds_extract {c : Checkpoint Report} (ha : a.Executes) (hsound : c.Sound)
    (hquestion : c.question = a.question) (hplans : c.planned = true ∨ a.Plans texts)
    (hfailure : c.failure = none ∨ c.planned = true)
    (h : Attributes texts (runGraph texts a 25 0 .extract c).events) :
    (runGraph texts a 25 0 .extract c).Succeeds := by
  cases hplanned : c.planned with
  | true =>
    have hrun : runNode texts a 0 c .extract = ([], .ok { c with failure := none }) := by
      simp only [runNode, extractRequest, hplanned, if_true]
    have hplanned' : ({ c with failure := none } : Checkpoint Report).planned = true := hplanned
    have hvalidates : runNode texts a 1 { c with failure := none } .validate =
        ([], .ok { c with failure := none }) := by
      simp only [runNode, validateRequest, hplanned', Option.isSome_none, Bool.false_eq_true,
        if_false, if_true]
    refine succeeds_succ hrun rfl h ?_
    exact succeeds_validate ha (hsound.congr rfl rfl rfl) hvalidates rfl
  | false =>
    have hnone : c.failure = none := by
      rcases hfailure with hnone | hyes
      · exact hnone
      · exact absurd (hplanned.symm.trans hyes) Bool.noConfusion
    have hplans' : a.Plans texts := by
      rcases hplans with hyes | hplans
      · exact absurd (hplanned.symm.trans hyes) Bool.noConfusion
      · exact hplans
    obtain ⟨context, catalog, candidate, ⟨request, plan⟩, hcontext, hcatalog, hcandidate, hbuilt⟩ :=
      hplans'.planned
    have hrun : runNode texts a 0 c .extract =
        ([], .ok { c with catalog := some catalog, candidate := some candidate }) := by
      simp only [runNode, extractRequest, hplanned, Bool.false_eq_true, if_false, hcontext, hcatalog,
        hcandidate]
      rfl
    have hplanned' : ({ c with catalog := some catalog, candidate := some candidate } :
        Checkpoint Report).planned = false := hplanned
    have hvalidates : runNode texts a 1
        { c with catalog := some catalog, candidate := some candidate } .validate =
        ([], .ok { c with
          catalog := some catalog
          candidate := some candidate
          analysisRequest := some request
          plan := some plan }) := by
      refine congrArg (Prod.mk []) (validateRequest_plans hnone hplanned' rfl rfl ?_ hplans'.before
        hplans'.after)
      rw [← hbuilt, ← hquestion]
    refine succeeds_succ hrun rfl h ?_
    exact succeeds_validate ha (hsound.congr rfl rfl rfl) hvalidates hnone

/-- An attempt in which nothing fails succeeds unless a failure stays in front of the planning. -/
theorem faultless_succeeds (hsound : r.checkpoint.Sound) (ha : a.Faultless texts r)
    (hfailure : r.checkpoint.failure = none ∨ r.checkpoint.planned = true) :
    ∃ success, (analyze texts a r).result = .ok (.success success) := by
  have hanalyze : analyze texts a r =
      ⟨(finish a (invoke texts a r)).1, (invoke texts a r).events,
        ⟨(finish a (invoke texts a r)).2, (invoke texts a r).checkpoint⟩⟩ := by
    unfold analyze
    rw [ha.claim, ha.active]
  have hattributes := ha.attributes
  rw [hanalyze] at hattributes ⊢
  have hsucceeds : (invoke texts a r).Succeeds :=
    succeeds_extract ha.toExecutes (hsound.congr rfl rfl rfl) rfl ha.plans hfailure hattributes
  obtain ⟨plan, hplan⟩ := Option.isSome_iff_exists.mp hsucceeds.plan
  obtain ⟨attribution, hattribution⟩ := Option.isSome_iff_exists.mp hsucceeds.attribution
  obtain ⟨report, hreport⟩ := Option.isSome_iff_exists.mp hsucceeds.report
  refine ⟨⟨a.requestId, report, (invoke texts a r).checkpoint.taskResults, attribution,
    some plan⟩, ?_⟩
  simp only [finish, hsucceeds.interrupt, ha.finish, Option.none_or, hsucceeds.failure,
    finishSuccess, hplan, hattribution, hreport, ha.markCompleted]

end Results

end ChatBI.Analysis
