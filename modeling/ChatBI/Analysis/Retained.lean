import ChatBI.Analysis.Succeeding

/-!
# What an attempt takes from the checkpoint

An attempt should take the request, the plan and the complete results from the checkpoint and
nothing else. It also takes the failure of an earlier attempt, unless the request and the plan are
there: then the extraction clears it.
-/

namespace ChatBI.Analysis

open ChatBI.Lib

section Retained

variable {Report : Type} {texts : Texts} {a : Attempt Report} {c d c' d' : Checkpoint Report}

/-- The checkpoint with the retained progress alone. -/
def Checkpoint.progress (c : Checkpoint Report) : Checkpoint Report :=
  { Checkpoint.empty with
    analysisRequest := c.analysisRequest
    plan := c.plan
    taskResults := complete c.taskResults }

/-- The run with the retained progress alone. A completed run is answered from what it recorded. -/
def AnalysisRun.progress (r : AnalysisRun Report) : AnalysisRun Report :=
  match r.status with
  | .completed => r
  | .active => ⟨.active, r.checkpoint.progress⟩

/-- Two checkpoints with the same progress. -/
structure Agree (c d : Checkpoint Report) : Prop where
  question : d.question = c.question
  request : d.analysisRequest = c.analysisRequest
  plan : d.plan = c.plan
  complete : complete d.taskResults = complete c.taskResults

/-- Two checkpoints that a node and its successors do not tell apart. -/
structure Alike (node : Node) (c d : Checkpoint Report) : Prop extends Agree c d where
  failure : node ≠ .extract ∨ c.planned = false → d.failure = c.failure
  unplanned : node = .validate → c.failure.isSome = true → c.planned = false
  candidate : node = .validate → c.failure = none → c.planned = false →
    d.catalog = c.catalog ∧ d.candidate = c.candidate
  results : node.settled = true → d.taskResults = c.taskResults
  attribution : node = .summarize → d.attribution = c.attribution

/-- Two checkpoints at the end of the graph that give one result. -/
structure Ends (c d : Checkpoint Report) : Prop where
  failure : d.failure = c.failure
  retryable : ∀ failure, c.failure = some failure →
    retryableFailure failure d.taskResults = retryableFailure failure c.taskResults
  success : c.failure = none → d.plan = c.plan ∧ d.taskResults = c.taskResults ∧
    d.attribution = c.attribution ∧ d.report = c.report

lemma Agree.planned (h : Agree c d) : d.planned = c.planned := by
  unfold Checkpoint.planned
  rw [h.request, h.plan]

lemma Agree.fail (h : Agree c d) (failure : QueryFailure) :
    Agree (c.fail failure) (d.fail failure) := ⟨h.question, h.request, h.plan, h.complete⟩

lemma Ends.fail {failure : QueryFailure} (h : retryableFailure failure d.taskResults =
    retryableFailure failure c.taskResults) : Ends (c.fail failure) (d.fail failure) := by
  refine ⟨rfl, ?_, ?_⟩
  · intro failure' hfailure
    cases hfailure
    exact h
  · intro hnone
    cases hnone

/-- Without a plan there are no results on either side. -/
lemma Agree.no_results (h : Agree c d) (hc : c.Sound) (hd : d.Sound) (hplan : c.planned = false) :
    c.taskResults = [] ∧ d.taskResults = [] := by
  rw [hc.plan_isSome, Option.isSome_eq_false_iff, Option.isNone_iff_eq_none] at hplan
  refine ⟨hc.unplanned hplan, hd.unplanned ?_⟩
  rw [h.plan]
  exact hplan

/-- Two runs of the graph that end in the same way. -/
structure SameEnd (ran ran' : Ran Report) : Prop where
  interrupt : ran'.interrupt = ran.interrupt
  ends : ran.interrupt = none → Ends ran.checkpoint ran'.checkpoint

lemma SameEnd.interrupted {events events' : List Event} (interrupt : Interrupt) :
    SameEnd (⟨events, c, some interrupt⟩ : Ran Report) ⟨events', d, some interrupt⟩ := by
  refine ⟨rfl, ?_⟩
  intro h
  cases h

lemma SameEnd.ended {events events' : List Event} (h : Ends c d) :
    SameEnd (⟨events, c, none⟩ : Ran Report) ⟨events', d, none⟩ := ⟨rfl, fun _ => h⟩

end Retained

/-- What a superstep makes of two checkpoints that it does not tell apart. -/
inductive StepsAlike {Report : Type} (node : Node) :
    Except Interrupt (Checkpoint Report) → Except Interrupt (Checkpoint Report) → Prop
  | interrupted (interrupt : Interrupt) : StepsAlike node (.error interrupt) (.error interrupt)
  | ends {c d : Checkpoint Report} (left : route c node = none) (right : route d node = none)
      (ends : Ends c d) : StepsAlike node (.ok c) (.ok d)
  | goes {c d : Checkpoint Report} {next : Node} (left : route c node = some next)
      (right : route d node = some next) (alike : Alike next c d) : StepsAlike node (.ok c) (.ok d)

section Nodes

variable {Report : Type} {texts : Texts} {a : Attempt Report} {c d : Checkpoint Report}

/-- A node that fails on both sides. -/
lemma StepsAlike.fail {node : Node} (hnode : node = .validate ∨ node = .execute ∨ node = .attribution)
    {failure : QueryFailure} (h : retryableFailure failure d.taskResults =
      retryableFailure failure c.taskResults) :
    StepsAlike node (.ok (c.fail failure)) (.ok (d.fail failure)) := by
  have hroute : ∀ x : Checkpoint Report, route (x.fail failure) node = none := by
    intro x
    rcases hnode with rfl | rfl | rfl <;> rfl
  exact .ends (hroute c) (hroute d) (.fail h)

/-! ### One lemma for each node -/

lemma extract_alike (h : Alike .extract c d) :
    StepsAlike .extract (extractRequest texts a c) (extractRequest texts a d) := by
  -- a checkpoint that the extraction has not planned goes on with one failure on both sides
  have hfails : ∀ failure, c.planned = false →
      StepsAlike .extract (.ok (c.fail failure)) (.ok (d.fail failure)) := by
    intro failure hplanned
    refine .goes rfl rfl ⟨h.toAgree.fail failure, fun _ => rfl, fun _ _ => hplanned, ?_,
      (fun h => nomatch h), (fun h => nomatch h)⟩
    intro _ hnone
    cases hnone
  unfold extractRequest
  rw [h.planned]
  cases hplanned : c.planned with
  | true =>
    simp only [if_true]
    refine .goes rfl rfl ⟨⟨h.question, h.request, h.plan, h.complete⟩, fun _ => rfl, ?_, ?_,
      (fun h => nomatch h), (fun h => nomatch h)⟩
    · intro _ hsome
      cases hsome
    · intro _ _ hnot
      exact absurd (hplanned.symm.trans hnot) Bool.noConfusion
  | false =>
    simp only [Bool.false_eq_true, if_false]
    cases a.context with
    | error interrupt => exact .interrupted interrupt
    | ok context =>
      cases context with
      | none => exact hfails _ hplanned
      | some context =>
        cases hrecords : fromRecords texts context with
        | error error =>
          simp only [hrecords]
          exact hfails _ hplanned
        | ok catalog =>
          simp only [hrecords]
          cases a.decompose with
          | error interrupt => exact .interrupted interrupt
          | ok decomposition =>
            cases decomposition with
            | extractionError reason => exact hfails _ hplanned
            | decomposerFailure => exact hfails _ hplanned
            | candidate candidate =>
              exact .goes rfl rfl ⟨⟨h.question, h.request, h.plan, h.complete⟩,
                fun _ => h.failure (.inr hplanned), fun _ _ => hplanned, fun _ _ _ => ⟨rfl, rfl⟩,
                (fun h => nomatch h), (fun h => nomatch h)⟩

lemma validate_alike (hc : Enters c .validate) (hd : Enters d .validate) (h : Alike .validate c d) :
    StepsAlike .validate (validateRequest texts a c) (validateRequest texts a d) := by
  have hfailure := h.failure (.inl Node.noConfusion)
  unfold validateRequest
  rw [hfailure, h.planned]
  cases hfailed : c.failure with
  | some failure =>
    -- the failure stays, and there are no results without a plan
    have hplanned := h.unplanned rfl (by rw [hfailed]; rfl)
    obtain ⟨hempty, hempty'⟩ := h.no_results hc.toSound hd.toSound hplanned
    have hroute : ∀ {x : Checkpoint Report}, x.failure = some failure → route x .validate = none := by
      intro x hx
      simp only [route, hx, Option.isSome_some, if_true]
    refine .ends (hroute hfailed) (hroute (hfailure.trans hfailed)) ⟨hfailure, ?_, ?_⟩
    · intro _ _
      rw [hempty, hempty']
    · intro hnone
      rw [hfailed] at hnone
      cases hnone
  | none =>
    simp only [Option.isSome_none, Bool.false_eq_true, if_false]
    cases hplanned : c.planned with
    | true =>
      simp only [if_true]
      exact .goes rfl rfl ⟨⟨h.question, h.request, h.plan, h.complete⟩, fun _ => rfl,
        (fun h => absurd h (by decide)), (fun h => absurd h (by decide)),
        (fun h => absurd h (by decide)), (fun h => absurd h (by decide))⟩
    | false =>
      obtain ⟨hempty, hempty'⟩ := h.no_results hc.toSound hd.toSound hplanned
      obtain ⟨hcatalog, hcandidate⟩ := h.candidate rfl hfailed hplanned
      have hfail : ∀ failure : QueryFailure,
          StepsAlike .validate (.ok (c.fail failure)) (.ok (d.fail failure)) := by
        intro failure
        refine .fail (.inl rfl) ?_
        rw [hempty, hempty']
      simp only [Bool.false_eq_true, if_false]
      cases a.validateBefore with
      | some interrupt => exact .interrupted interrupt
      | none =>
        change StepsAlike .validate (planRequest texts a c) (planRequest texts a d)
        unfold planRequest
        rw [hcatalog, hcandidate, h.question]
        split
        · rename_i candidate catalog _ _
          split
          · cases a.validateAfter with
            | some interrupt => exact .interrupted interrupt
            | none =>
              have hroute : ∀ {x : Checkpoint Report}, x.failure = none →
                  route x .validate = some .execute := by
                intro x hx
                simp only [route, hx, Option.isSome_none, Bool.false_eq_true, if_false]
              refine .goes (hroute hfailed) (hroute (hfailure.trans hfailed))
                ⟨⟨rfl, rfl, rfl, h.complete⟩, fun _ => hfailure,
                  (fun h => absurd h (by decide)), (fun h => absurd h (by decide)),
                  (fun h => absurd h (by decide)), (fun h => absurd h (by decide))⟩
          · exact hfail _
        · exact hfail _

/-- Checkpoints with the same results that `execute` has left without a failure. -/
lemma alike_after_execute (h : Agree c d) (hfailure : d.failure = c.failure)
    (hresults : d.taskResults = c.taskResults) : StepsAlike .execute (.ok c) (.ok d) := by
  have hroute : route d .execute = route c .execute := by
    simp only [route, hfailure, h.plan, hresults]
  cases hc : route c .execute with
  | none =>
    have hfailed : c.failure ≠ none := by
      intro hnone
      simp only [route, hnone, Option.isSome_none, Bool.false_eq_true, if_false] at hc
      split at hc <;> cases hc
    refine .ends hc (hroute.trans hc) ⟨hfailure, ?_, fun hnone => absurd hnone hfailed⟩
    intro failure _
    rw [hresults]
  | some next =>
    have hnext : next = .attribution ∨ next = .execute := by
      simp only [route] at hc
      split at hc
      · cases hc
      · split at hc <;> cases hc
        · exact .inl rfl
        · exact .inr rfl
    refine .goes hc (hroute.trans hc) ⟨h, fun _ => hfailure, ?_, ?_, fun _ => hresults, ?_⟩
    · rintro rfl
      rcases hnext with hnext | hnext <;> cases hnext
    · rintro rfl
      rcases hnext with hnext | hnext <;> cases hnext
    · rintro rfl
      rcases hnext with hnext | hnext <;> cases hnext

lemma execute_alike (hc : Enters c .execute) (hd : Enters d .execute) (h : Alike .execute c d)
    (visit : Visit) : StepsAlike .execute (executeTasks a c visit).2 (executeTasks a d visit).2 := by
  obtain ⟨plan, hplan, hdistinct, hfollows⟩ := hc.plan_eq rfl
  have hplan' : d.plan = some plan := h.plan.trans hplan
  have hfollows' := hd.follows plan hplan'
  have hfailure := h.failure (.inl Node.noConfusion)
  obtain ⟨before, rest, hstands⟩ := hfollows.stands
  obtain ⟨before', rest', hstands'⟩ := hfollows'.stands
  have hrest : rest' = rest := by
    rw [← hstands.drop, ← hstands'.drop, h.complete]
  subst hrest
  unfold executeTasks
  by_cases hbound : visit.bound = true
  · rw [if_neg (not_not_intro hbound), if_neg (not_not_intro hbound)]
    simp only [hplan, hplan', hstands.pendingTask_eq hdistinct, hstands'.pendingTask_eq hdistinct]
    cases rest' with
    | nil =>
      obtain ⟨hback, hall⟩ := hstands.readBack hdistinct
      obtain ⟨hback', hall'⟩ := hstands'.readBack hdistinct
      have hresults : d.taskResults = c.taskResults := by
        rw [← hall, ← hall', h.complete]
      simp only [List.head?_nil, hback, hback']
      cases visit.before with
      | some interrupt => exact .interrupted interrupt
      | none =>
        refine alike_after_execute ⟨h.question, h.request, rfl, h.complete⟩ hfailure hresults
    | cons task after =>
      simp only [List.head?_cons]
      unfold executePending
      cases visit.before with
      | some interrupt => exact .interrupted interrupt
      | none =>
        obtain ⟨-, hid⟩ := queryTask_spec visit task.taskId
        cases hqueried : (queryTask visit task.taskId).2 with
        | error interrupt =>
          simp only [hqueried]
          exact .interrupted interrupt
        | ok result =>
          simp only [hqueried]
          cases visit.after with
          | some interrupt => exact .interrupted interrupt
          | none =>
            change StepsAlike .execute (.ok (recordResult a c plan result))
              (.ok (recordResult a d plan result))
            rw [recordResult_eq hstands hdistinct (hid result hqueried),
              recordResult_eq hstands' hdistinct (hid result hqueried), h.complete]
            exact alike_after_execute ⟨h.question, h.request, h.plan, rfl⟩ rfl rfl
  · rw [if_pos hbound, if_pos hbound]
    refine .fail (.inr (.inl rfl)) ?_
    -- the code of this failure is retryable, whatever the results are
    simp [retryableFailure, failure, retryableCodes]

lemma attribute_alike (hc : Enters c .attribution) (h : Alike .attribution c d) :
    StepsAlike .attribution (attributeResults texts a c).2 (attributeResults texts a d).2 := by
  have hresults := h.results rfl
  have hfailure := h.failure (.inl Node.noConfusion)
  have hfail : ∀ failure : QueryFailure,
      StepsAlike .attribution (.ok (c.fail failure)) (.ok (d.fail failure)) := by
    intro failure
    refine .fail (.inr (.inr rfl)) ?_
    rw [hresults]
  unfold attributeResults
  rw [h.request, hresults]
  cases a.attributing with
  | some interrupt => exact .interrupted interrupt
  | none =>
    cases c.analysisRequest with
    | none => exact hfail _
    | some request =>
      simp only
      cases hcalculated : calculateProductAttribution texts.casefold texts.decimal request
          c.taskResults with
      | error error => exact hfail _
      | ok attribution =>
        have hroute : ∀ {x : Checkpoint Report}, x.failure = none →
            route x .attribution = some .summarize := by
          intro x hx
          simp only [route, hx, Option.isSome_none, Bool.false_eq_true, if_false]
        have hnone := hc.unfailed rfl
        exact .goes (hroute hnone) (hroute (hfailure.trans hnone))
          ⟨⟨h.question, rfl, h.plan, rfl⟩, fun _ => hfailure,
            (fun h => absurd h (by decide)), (fun h => absurd h (by decide)), fun _ => rfl, fun _ => rfl⟩

lemma summarize_alike (h : Alike .summarize c d) :
    StepsAlike .summarize (summarizeResults a c) (summarizeResults a d) := by
  have hresults := h.results rfl
  have hfailure := h.failure (.inl Node.noConfusion)
  have hfail : ∀ failure : QueryFailure,
      StepsAlike .summarize (.ok (c.fail failure)) (.ok (d.fail failure)) := by
    intro failure
    refine .ends rfl rfl (.fail ?_)
    rw [hresults]
  unfold summarizeResults
  cases a.summarize with
  | error interrupt => exact .interrupted interrupt
  | ok summary =>
    cases summary with
    | reportError code reason => exact hfail _
    | summaryFailure => exact hfail _
    | report report =>
      refine .ends rfl rfl ⟨hfailure, ?_, ?_⟩
      · intro failure _
        change retryableFailure failure d.taskResults = retryableFailure failure c.taskResults
        rw [hresults]
      · intro _
        exact ⟨h.plan, hresults, h.attribution rfl, rfl⟩

variable (texts a) in
/-- No node tells apart two checkpoints that are alike in front of it. -/
theorem runNode_alike (visit : Nat) {node : Node} (hc : Enters c node) (hd : Enters d node)
    (h : Alike node c d) :
    StepsAlike node (runNode texts a visit c node).2 (runNode texts a visit d node).2 := by
  cases node with
  | extract => exact extract_alike h
  | validate => exact validate_alike hc hd h
  | execute => exact execute_alike hc hd h (a.visits visit)
  | attribution => exact attribute_alike hc h
  | summarize => exact summarize_alike h

variable (texts a) in
/-- Runs of the graph from checkpoints that are alike end in the same way. -/
theorem runGraph_alike (fuel : Nat) : ∀ visit node (c d : Checkpoint Report), Enters c node →
    Enters d node → Alike node c d →
    SameEnd (runGraph texts a fuel visit node c) (runGraph texts a fuel visit node d) := by
  induction fuel with
  | zero =>
    intro visit node c d _ _ _
    exact .interrupted .crashed
  | succ fuel ih =>
    intro visit node c d hc hd h
    have hsteps := runNode_alike texts a visit hc hd h
    generalize hleft : (runNode texts a visit c node).2 = left at hsteps
    generalize hright : (runNode texts a visit d node).2 = right at hsteps
    have hc' : runNode texts a visit c node = ((runNode texts a visit c node).1, left) :=
      Prod.ext rfl hleft
    have hd' : runNode texts a visit d node = ((runNode texts a visit d node).1, right) :=
      Prod.ext rfl hright
    cases hsteps with
    | interrupted interrupt =>
      rw [runGraph_interrupted hc', runGraph_interrupted hd']
      exact .interrupted interrupt
    | ends hroute hroute' hends =>
      rw [runGraph_succ hc', runGraph_succ hd', hroute, hroute']
      exact .ended hends
    | @goes c' d' next hroute hroute' halike =>
      rw [runGraph_succ hc', runGraph_succ hd', hroute, hroute']
      have hsame := ih (visit + 1) next c' d' (enters_next hc hleft hroute)
        (enters_next hd hright hroute') halike
      exact ⟨hsame.interrupt, hsame.ends⟩

/-- Runs that end in the same way give one result. -/
lemma finish_same {ran ran' : Ran Report} (h : SameEnd ran ran') : finish a ran' = finish a ran := by
  unfold finish
  rw [h.interrupt]
  cases hinterrupt : ran.interrupt with
  | some interrupt => cases interrupt <;> rfl
  | none =>
    have hends := h.ends hinterrupt
    cases a.finish with
    | some interrupt => cases interrupt <;> rfl
    | none =>
      simp only [Option.none_or, hends.failure]
      cases hfailure : ran.checkpoint.failure with
      | some failure =>
        simp only [finishFailure, hends.retryable failure hfailure]
      | none =>
        obtain ⟨hplan, hresults, hattribution, hreport⟩ := hends.success hfailure
        simp only [finishSuccess, hplan, hresults, hattribution, hreport]

end Nodes

section Results

variable {Report : Type} {texts : Texts} {r : AnalysisRun Report}

lemma complete_idem (results : List TaskResult) : complete (complete results) = complete results := by
  unfold complete
  rw [List.filter_filter]
  simp

lemma Checkpoint.Sound.progress {c : Checkpoint Report} (h : c.Sound) : c.progress.Sound where
  planned := h.planned
  unplanned := by
    intro hplan
    change complete c.taskResults = []
    rw [h.unplanned hplan]
    rfl
  built := h.built
  follows := by
    intro plan hplan
    obtain ⟨before, rest, hstands⟩ := (h.follows plan hplan).stands
    refine ⟨?_, ?_⟩
    · change (complete c.taskResults).map TaskResult.taskId <+: _
      rw [← hstands.ids, hstands.tasks, List.map_append]
      exact List.prefix_append _ _
    · intro result hresult
      have hmem : result ∈ complete c.taskResults := List.dropLast_subset _ hresult
      exact (List.mem_filter.mp hmem).2

/-- Without a stale failure the checkpoint is not told apart from its progress. -/
lemma alike_progress {c : Checkpoint Report} (h : c.failure = none ∨ c.planned = true)
    (question : String) :
    Alike .extract { c with question := question } { c.progress with question := question } := by
  refine ⟨⟨rfl, rfl, rfl, complete_idem _⟩, ?_, (fun h => nomatch h), (fun h => nomatch h),
    (fun h => nomatch h), (fun h => nomatch h)⟩
  rintro (hnot | hplanned)
  · exact absurd rfl hnot
  · have hnone : c.failure = none := by
      rcases h with hnone | hplanned'
      · exact hnone
      · exact absurd (hplanned'.symm.trans hplanned) Bool.noConfusion
    exact hnone.symm

lemma result_of_progress (hsound : r.checkpoint.Sound)
    (h : r.checkpoint.failure = none ∨ r.checkpoint.planned = true) (a : Attempt Report) :
    (analyze texts a r).result = (analyze texts a r.progress).result := by
  unfold AnalysisRun.progress
  cases hstatus : r.status with
  | completed => rfl
  | active =>
    unfold analyze
    cases a.claim with
    | interrupted | conflict | unavailable => rfl
    | claimed =>
      simp only [hstatus]
      have hleft : ({ r.checkpoint with question := a.question } : Checkpoint Report).Sound :=
        hsound.congr rfl rfl rfl
      have hright :
          ({ r.checkpoint.progress with question := a.question } : Checkpoint Report).Sound :=
        hsound.progress.congr rfl rfl rfl
      have hsame := runGraph_alike texts a recursionLimit 0 .extract _ _ (.extract hleft)
        (.extract hright) (alike_progress h a.question)
      exact congrArg Prod.fst (finish_same (a := a) hsame).symm

/-- An attempt that is stopped in front of the planning. -/
def stoppedAttempt : Attempt Report where
  requestId := ""
  question := ""
  claim := .claimed
  context := .ok (some ⟨[], []⟩)
  decompose := .ok (.candidate ⟨"", none, none⟩)
  validateBefore := some .stopped
  validateAfter := none
  visits _ := ⟨true, none, .error .stopped, .error .stopped, none⟩
  attributing := none
  summarize := .error .stopped
  finish := none
  markCompleted := none

/-- A failure that stays in front of the planning is the result of the next attempt. -/
lemma stale_result (texts : Texts) (hstatus : r.status = .active) {failure : QueryFailure}
    (hfailure : r.checkpoint.failure = some failure) (hplanned : r.checkpoint.planned = false) :
    (analyze texts stoppedAttempt r).result = .ok (.failure failure) ∧
      (analyze texts stoppedAttempt r.progress).result = .error .stopped := by
  -- the extraction gives both checkpoints a candidate
  have hextract : ∀ c : Checkpoint Report, c.planned = false →
      runNode texts stoppedAttempt 0 c .extract = ([], .ok { c with
        catalog := some ⟨[], []⟩, candidate := some ⟨"", none, none⟩ }) := by
    intro c hc
    simp only [runNode, extractRequest, hc, Bool.false_eq_true, if_false]
    rfl
  have hvalidate : ∀ c : Checkpoint Report, c.failure = some failure →
      runNode texts stoppedAttempt 1 c .validate = ([], .ok c) := by
    intro c hc
    simp only [runNode, validateRequest, hc, Option.isSome_some, if_true]
  have hvalidate' : ∀ c : Checkpoint Report, c.failure = none → c.planned = false →
      runNode texts stoppedAttempt 1 c .validate = ([], .error .stopped) := by
    intro c hc hplanned
    simp only [runNode, validateRequest, hc, hplanned, Option.isSome_none, Bool.false_eq_true,
      if_false]
    rfl
  refine ⟨?_, ?_⟩
  · let c : Checkpoint Report := { r.checkpoint with question := "" }
    let c' : Checkpoint Report :=
      { c with catalog := some ⟨[], []⟩, candidate := some ⟨"", none, none⟩ }
    have hlast : runGraph texts stoppedAttempt (23 + 1) 1 .validate c' = ⟨[], c', none⟩ := by
      have hroute : route c' .validate = none := if_pos (by rw [hfailure]; rfl)
      rw [runGraph_succ (hvalidate c' hfailure), hroute]
    have hinvoke : invoke texts stoppedAttempt r = ⟨[], c', none⟩ := by
      change runGraph texts stoppedAttempt (24 + 1) 0 .extract c = _
      rw [runGraph_succ (hextract c hplanned)]
      change (⟨[] ++ (runGraph texts stoppedAttempt (23 + 1) 1 .validate c').events, _, _⟩ :
        Ran Report) = _
      rw [hlast]
      rfl
    have hfinish : (finish stoppedAttempt (⟨[], c', none⟩ : Ran Report)).1 =
        .ok (.failure failure) := by
      unfold finish finishFailure
      simp only [c', c, hfailure, Option.none_or]
      change (if _ then _ else _ : _ × _).1 = _
      split <;> rfl
    unfold analyze
    simp only [stoppedAttempt, hstatus]
    change (finish stoppedAttempt (invoke texts stoppedAttempt r)).1 = _
    rw [hinvoke, hfinish]
  · let c : Checkpoint Report := { r.checkpoint.progress with question := "" }
    let c' : Checkpoint Report :=
      { c with catalog := some ⟨[], []⟩, candidate := some ⟨"", none, none⟩ }
    have hlast : runGraph texts stoppedAttempt (23 + 1) 1 .validate c' =
        ⟨[], c', some .stopped⟩ := runGraph_interrupted (hvalidate' c' rfl hplanned)
    have hinvoke : invoke texts stoppedAttempt (⟨.active, r.checkpoint.progress⟩ : AnalysisRun Report) =
        ⟨[], c', some .stopped⟩ := by
      change runGraph texts stoppedAttempt (24 + 1) 0 .extract c = _
      rw [runGraph_succ (hextract c hplanned)]
      change (⟨[] ++ (runGraph texts stoppedAttempt (23 + 1) 1 .validate c').events, _, _⟩ :
        Ran Report) = _
      rw [hlast]
      rfl
    have hprogress : r.progress = ⟨.active, r.checkpoint.progress⟩ := by
      unfold AnalysisRun.progress
      rw [hstatus]
    rw [hprogress]
    unfold analyze
    simp only [stoppedAttempt]
    change (finish stoppedAttempt (invoke texts stoppedAttempt ⟨.active, r.checkpoint.progress⟩)).1 = _
    rw [hinvoke]
    rfl

/-- The result of every attempt depends on the retained progress alone, and an attempt in which
nothing fails succeeds, exactly when no failure stays in front of the planning. -/
theorem result_of_progress_iff (texts : Texts) (h : (attempts Report texts).Reachable r) :
    (∀ a, (analyze texts a r).result = (analyze texts a r.progress).result ∧
      (a.Faultless texts r → ∃ success, (analyze texts a r).result = .ok (.success success))) ↔
      r.status = .completed ∨ r.checkpoint.failure = none ∨ r.checkpoint.planned = true := by
  have hsound := sound_of_reachable h
  constructor
  · intro hresult
    cases hstatus : r.status with
    | completed => exact .inl rfl
    | active =>
      right
      cases hfailure : r.checkpoint.failure with
      | none => exact .inl rfl
      | some failure =>
        right
        by_contra hplanned
        rw [Bool.not_eq_true] at hplanned
        obtain ⟨hstale, hfresh⟩ := stale_result texts hstatus hfailure hplanned
        have hsame := (hresult stoppedAttempt).1
        rw [hstale, hfresh] at hsame
        cases hsame
  · rintro (hstatus | hprogress) a
    · have hself : r.progress = r := by
        unfold AnalysisRun.progress
        rw [hstatus]
      rw [hself]
      refine ⟨rfl, ?_⟩
      intro ha
      exact absurd (hstatus.symm.trans ha.active) AnalysisRunStatus.noConfusion
    · exact ⟨result_of_progress hsound hprogress a, fun ha => faultless_succeeds hsound ha hprogress⟩

end Results

/-- The run behind an attempt whose second task has failed. The next attempt starts from the plan
and the first result. -/
theorem result_of_progress_failing :
    (analyze plainTexts soldAttempt (analyze plainTexts failingAttempt ⟨.active, .empty⟩).run).result =
      (analyze plainTexts soldAttempt
        (analyze plainTexts failingAttempt ⟨.active, .empty⟩).run.progress).result :=
  (((result_of_progress_iff plainTexts ((System.Reachable.of_init rfl).step rfl)).mpr
    (.inr (.inr (by decide +kernel)))) soldAttempt).1

/-- An attempt whose extraction fails. -/
def unextractedAttempt : Attempt String :=
  { soldAttempt with decompose := .ok .decomposerFailure }

def Analyzed.succeeds {Report : Type} (analyzed : Analyzed Report) : Bool :=
  match analyzed.result with
  | .ok (.success _) => true
  | .ok (.failure _) | .error _ => false

lemma Analyzed.succeeds_iff {Report : Type} (analyzed : Analyzed Report) :
    analyzed.succeeds = true ↔ ∃ success, analyzed.result = .ok (.success success) := by
  unfold Analyzed.succeeds
  split
  · rename_i success heq
    simp [heq]
  · rename_i heq
    simp [heq]
  · rename_i heq
    simp [heq]

lemma soldAttempt_executes : soldAttempt.Executes where
  visits visit := by
    refine ⟨rfl, rfl, ?_, rfl⟩
    change ∃ columns rows rowCount,
      (Except.ok (soldOutcome visit) : Except Interrupt QueryOutcome) = _
    unfold soldOutcome
    split
    · exact ⟨_, _, _, rfl⟩
    · exact ⟨_, _, _, rfl⟩
  attributing := rfl
  summarize := ⟨_, rfl⟩
  finish := rfl
  markCompleted := rfl

lemma soldAttempt_plans : soldAttempt.Plans plainTexts := by
  have hcatalog : (fromRecords plainTexts soldContext).isOk = true := by decide +kernel
  cases hrecords : fromRecords plainTexts soldContext with
  | error error =>
    rw [hrecords] at hcatalog
    cases hcatalog
  | ok catalog =>
    have hplan : ((fromRecords plainTexts soldContext).bind fun catalog =>
        buildComparisonPlan plainTexts soldCandidate catalog soldAttempt.question).isOk = true := by
      decide +kernel
    rw [hrecords] at hplan
    cases hbuilt : buildComparisonPlan plainTexts soldCandidate catalog soldAttempt.question with
    | error error =>
      change (buildComparisonPlan plainTexts soldCandidate catalog soldAttempt.question).isOk =
        true at hplan
      rw [hbuilt] at hplan
      cases hplan
    | ok built =>
      exact ⟨⟨soldContext, catalog, soldCandidate, built, rfl, hrecords, rfl, hbuilt⟩, rfl, rfl⟩

/-- After an extraction that has failed nothing fails in the next attempt, but the old failure is
its result. From the retained progress the attempt succeeds. -/
theorem stale_failure_returned :
    (attempts String plainTexts).Reachable
        (analyze plainTexts unextractedAttempt ⟨.active, .empty⟩).run ∧
      soldAttempt.Faultless plainTexts
        (analyze plainTexts unextractedAttempt ⟨.active, .empty⟩).run ∧
      (¬∃ success, (analyze plainTexts soldAttempt
        (analyze plainTexts unextractedAttempt ⟨.active, .empty⟩).run).result =
          .ok (.success success)) ∧
      ∃ success, (analyze plainTexts soldAttempt
        (analyze plainTexts unextractedAttempt ⟨.active, .empty⟩).run.progress).result =
          .ok (.success success) := by
  have hevents : (analyze plainTexts soldAttempt
      (analyze plainTexts unextractedAttempt ⟨.active, .empty⟩).run).events = [] := by
    decide +kernel
  refine ⟨(System.Reachable.of_init rfl).step rfl,
    ⟨soldAttempt_executes, rfl, by decide +kernel, .inr soldAttempt_plans, ?_⟩, ?_, ?_⟩
  · intro request results hmem
    rw [hevents] at hmem
    cases hmem
  · rw [← Analyzed.succeeds_iff]
    decide +kernel
  · rw [← Analyzed.succeeds_iff]
    decide +kernel

end ChatBI.Analysis
