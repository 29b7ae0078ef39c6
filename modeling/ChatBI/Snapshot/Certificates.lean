import ChatBI.Semantic.Checked
import ChatBI.Snapshot.QueryState

/-!
# Reading certificates back

The state that the certification of a query makes is decoded to the certified query, and the decoded
query is certified again with the same certificate, exactly when the names of the metrics fit.
-/

namespace ChatBI.Snapshot

open ChatBI.Lib ChatBI.Store ChatBI.Semantic

/-- A time that starts before it ends. -/
structure IsInterval (time : ValidatedTime) : Prop where
  text : strip time.text ≠ ""
  order : ∃ start stop, instant? time.start = some start ∧ instant? time.stop = some stop ∧ start < stop

/-- The query as it is decoded. -/
def decoded (q : ValidatedSemanticQuery) : ValidatedSemanticQuery :=
  { q with originalQuestion := "历史结构化查询" }

structure Restorable (digit : Char → Option Nat) (q : ValidatedSemanticQuery) : Prop where
  readable : q.Readable digit
  slots : checkSlots q.timeless = .ok ()
  count : q.metrics.length ≤ maxRequestMetrics
  time : ∀ t ∈ q.time, IsInterval t

section Decoding

variable {digit : Char → Option Nat} {format : IsoFormat} {q : ValidatedSemanticQuery}
  {conditions : RestorationConditions} {time : ValidatedTime}

lemma exists_guard {p : Prop} [Decidable p] {f : Unit → Prop} :
    (∃ u, (guard p : Option Unit) = some u ∧ f u) ↔ p ∧ f () := by
  by_cases h : p
  · rw [guard, if_pos h]
    exact ⟨fun ⟨_, _, hf⟩ => ⟨h, hf⟩, fun ⟨_, hf⟩ => ⟨(), rfl, hf⟩⟩
  · rw [guard, if_neg h]
    constructor
    · rintro ⟨_, hu, -⟩
      cases hu
    · intro hp
      exact absurd hp.1 h

lemma get?_granularity (g : TimeGranularity) :
    Dict.get? timeGranularities (granularityValue g) = some g := by
  cases g <;> rfl

/-- An absolute time is read back exactly when it starts before it ends. -/
lemma absoluteTime?_iff :
    absoluteTime? format.fromisoformat (time.json format) = some time ↔ IsInterval time := by
  have hkeys : hasKeys (time.json format) ["text", "granularity", "start", "end"] = true := by
    simp [hasKeys, ValidatedTime.json, Json.members, Json.isDict]
  have htext : (time.json format).field "text" = .str time.text := rfl
  have hname : (time.json format).field "granularity" = .str (granularityValue time.granularity) := rfl
  have hstart : timestamp? format.fromisoformat ((time.json format).field "start") =
      format.fromisoformat (format.isoformat time.start) := rfl
  have hstop : timestamp? format.fromisoformat ((time.json format).field "end") =
      format.fromisoformat (format.isoformat time.stop) := rfl
  have hgranularity := get?_granularity time.granularity
  obtain ⟨text, granularity, start, stop⟩ := time
  simp only [absoluteTime?, Option.bind_eq_bind, Option.bind_eq_some_iff, exists_guard, hkeys, htext,
    hname, hstart, hstop, Json.text, hgranularity, Option.pure_def, Option.some.injEq,
    ValidatedTime.mk.injEq, true_and]
  constructor
  · rintro ⟨⟨-, hblank⟩, _, hstart, _, hstop, a, ha, b, hb, hlt, -, _, -, -, rfl, rfl⟩
    exact ⟨hblank, a, b, ha, hb, hlt⟩
  · rintro ⟨hblank, a, b, ha, hb, hlt⟩
    have haware : ∀ {d : Semantic.DateTime} {n : Int}, instant? d = some n →
        format.fromisoformat (format.isoformat d) = some d := by
      intro d n hd
      refine format.reads d ?_
      intro hnone
      rw [instant?, hnone] at hd
      cases hd
    exact ⟨⟨rfl, hblank⟩, _, haware ha, _, haware hb, a, ha, b, hb, hlt, rfl, _, rfl, rfl, rfl, rfl⟩

lemma toOption_iff {ε α : Type} {x : Except ε α} {a : α} : x.toOption = some a ↔ x = .ok a := by
  cases x <;> simp [Except.toOption]

/-- What is left to check of the state of a certificate. -/
lemma restored?_certificate {certificate : Certificate} (hversion : certificate.stateVersion = 1)
    (hquery : certificate.semanticQuery = q.payload)
    (hconditions : q.restorationConditions = some conditions) :
    restored? digit format.fromisoformat (certificate.json format) = (do
      let candidate ← (candidateFromPayload digit (q.timelessJson conditions) true).toOption
      let semantic ← (validateCandidate noRelativeTime candidate "历史结构化查询").toOption
      if (optionalJson (ValidatedTime.json format) q.time).isNull then return semantic
      else return { semantic with
        time := some (← absoluteTime? format.fromisoformat
          (optionalJson (ValidatedTime.json format) q.time)) }) := by
  have hstate : checkState (certificate.json format) = some () := by
    unfold checkState
    simp [hasKeys, provenanceFields, Certificate.json, Provenance.json, Json.field_cons,
      Json.members, Json.isDict, Json.isList, hversion, guard]
  have hfields : (certificate.json format).field "semantic_query" =
      certificate.semanticQuery.json format := rfl
  unfold restored?
  rw [hstate, hfields, hquery, ValidatedSemanticQuery.payload, SemanticPayload.json, hconditions]
  rfl

lemma validateCandidate_iff {candidate : SemanticQueryCandidate} {semantic : ValidatedSemanticQuery}
    (htime : candidate.time = none) :
    validateCandidate noRelativeTime candidate "历史结构化查询" = .ok semantic ↔
      checkSlots candidate = .ok () ∧ candidate.metrics.length ≤ maxRequestMetrics ∧ {
        queryType := candidate.queryType
        subjects := candidate.subjects
        metrics := candidate.metrics
        dimensions := candidate.dimensions
        time := none
        filters := candidate.filters.map ValidatedFilter.ofCandidate
        originalQuestion := "历史结构化查询"
        restorationConditions := candidate.restorationConditions } = semantic := by
  have hquestion : strip "历史结构化查询" = "历史结构化查询" := by decide +kernel
  unfold validateCandidate
  rw [checked_bind_ok, require_ok, checked_bind_ok, checked_bind_ok, require_ok, htime, hquestion]
  exact ⟨fun h => ⟨h.2.1, h.2.2.1, Except.ok.inj h.2.2.2⟩,
    fun h => ⟨by decide, h.1, h.2.1, congrArg Except.ok h.2.2⟩⟩

lemma ofCandidate_toCandidate (filters : List ValidatedFilter) :
    (filters.map ValidatedFilter.toCandidate).map ValidatedFilter.ofCandidate = filters := by
  rw [List.map_map]
  exact List.map_id filters

lemma toCandidate_ofCandidate (filters : List FilterCandidate) :
    (filters.map ValidatedFilter.ofCandidate).map ValidatedFilter.toCandidate = filters := by
  rw [List.map_map]
  exact List.map_id filters

/-- The candidate of a query that is decoded is that of the query. -/
lemma eq_timeless {candidate : SemanticQueryCandidate} {time : Option ValidatedTime}
    (hnone : candidate.time = none)
    (h : {
      queryType := candidate.queryType
      subjects := candidate.subjects
      metrics := candidate.metrics
      dimensions := candidate.dimensions
      time
      filters := candidate.filters.map ValidatedFilter.ofCandidate
      originalQuestion := "历史结构化查询"
      restorationConditions := candidate.restorationConditions } = decoded q) :
    candidate = q.timeless ∧ time = q.time := by
  obtain ⟨queryType, subjects, metrics, dimensions, time', filters, restorationConditions⟩ :=
    candidate
  obtain rfl : time' = none := hnone
  simp only [decoded, ValidatedSemanticQuery.mk.injEq] at h
  obtain ⟨rfl, rfl, rfl, rfl, rfl, hfilters, -, rfl⟩ := h
  refine ⟨?_, rfl⟩
  rw [ValidatedSemanticQuery.timeless, ← hfilters, toCandidate_ofCandidate]

lemma timeless_of_read {candidate : SemanticQueryCandidate}
    (h : candidateFromPayload digit (q.timelessJson conditions) true = .ok candidate) :
    candidate.time = none := by
  rw [candidateFromPayload_timeless] at h
  simp only [except_bind_ok, except_pure_ok] at h
  obtain ⟨_, -, _, -, _, -, _, -, _, -, _, -, rfl⟩ := h
  rfl

lemma null_isNull : Json.null.isNull = true := rfl

lemma time_not_null (t : ValidatedTime) : ¬(t.json format).isNull = true := Bool.false_ne_true

/-- The state of a certificate is decoded to its query exactly when the query passes. -/
theorem decodeQueryState_iff {certificate : Certificate} (hversion : certificate.stateVersion = 1)
    (hquery : certificate.semanticQuery = q.payload)
    (hconditions : q.restorationConditions = some conditions) :
    decodeQueryState digit format.fromisoformat (certificate.json format) = .ok (decoded q) ↔
      Restorable digit q := by
  have hrestored : decodeQueryState digit format.fromisoformat (certificate.json format) =
      .ok (decoded q) ↔ restored? digit format.fromisoformat (certificate.json format) =
        some (decoded q) := by
    unfold decodeQueryState
    cases restored? digit format.fromisoformat (certificate.json format) <;> simp
  rw [hrestored, restored?_certificate hversion hquery hconditions]
  simp only [Option.bind_eq_bind, Option.bind_eq_some_iff, toOption_iff]
  constructor
  · rintro ⟨candidate, hcandidate, semantic, hsemantic, hfinal⟩
    rw [validateCandidate_iff (timeless_of_read hcandidate)] at hsemantic
    obtain ⟨hslots, hcount, rfl⟩ := hsemantic
    have hnone := timeless_of_read hcandidate
    cases htime : q.time with
    | none =>
      rw [htime, optionalJson, if_pos null_isNull] at hfinal
      obtain ⟨rfl, -⟩ := eq_timeless hnone (Option.some.inj hfinal)
      exact ⟨(candidateFromPayload_iff hconditions).mp hcandidate, hslots, hcount,
        fun t ht => by rw [htime] at ht; cases ht⟩
    | some time =>
      rw [htime, optionalJson, if_neg (time_not_null time)] at hfinal
      obtain ⟨time', htime', hfinal⟩ := Option.bind_eq_some_iff.mp hfinal
      obtain ⟨rfl, heq⟩ := eq_timeless hnone (Option.some.inj hfinal)
      obtain rfl := Option.some.inj (heq.trans htime)
      refine ⟨(candidateFromPayload_iff hconditions).mp hcandidate, hslots, hcount, ?_⟩
      intro t ht
      obtain rfl := Option.some.inj (htime.symm.trans ht)
      exact absoluteTime?_iff.mp htime'
  · rintro ⟨hreadable, hslots, hcount, htime⟩
    refine ⟨_, (candidateFromPayload_iff hconditions).mpr hreadable, _,
      (validateCandidate_iff rfl).mpr ⟨hslots, hcount, rfl⟩, ?_⟩
    have hfilters := ofCandidate_toCandidate q.filters
    cases heq : q.time with
    | none =>
      rw [optionalJson, if_pos null_isNull]
      simp only [Option.pure_def, decoded, ValidatedSemanticQuery.timeless, hfilters, heq]
    | some time =>
      rw [optionalJson, if_neg (time_not_null time), absoluteTime?_iff.mpr (htime time heq)]
      simp only [Option.pure_def, Option.bind_some, decoded, ValidatedSemanticQuery.timeless,
        hfilters, heq]

/-- What is decoded has the time of the query and the question of a decoded one. -/
lemma decoded_time {certificate : Certificate} {d : ValidatedSemanticQuery}
    (hversion : certificate.stateVersion = 1) (hquery : certificate.semanticQuery = q.payload)
    (hconditions : q.restorationConditions = some conditions) (htime : ∀ t ∈ q.time, IsInterval t)
    (h : decodeQueryState digit format.fromisoformat (certificate.json format) = .ok d) :
    d.time = q.time ∧ d.originalQuestion = "历史结构化查询" := by
  unfold decodeQueryState at h
  split at h
  · next semantic hrestored =>
    obtain rfl := Except.ok.inj h
    rw [restored?_certificate hversion hquery hconditions] at hrestored
    simp only [Option.bind_eq_bind, Option.bind_eq_some_iff, toOption_iff] at hrestored
    obtain ⟨candidate, hcandidate, validated, hvalidated, hfinal⟩ := hrestored
    rw [validateCandidate_iff (timeless_of_read hcandidate)] at hvalidated
    obtain ⟨-, -, rfl⟩ := hvalidated
    cases heq : q.time with
    | none =>
      rw [heq, optionalJson, if_pos null_isNull] at hfinal
      rw [← Option.some.inj hfinal]
      exact ⟨rfl, rfl⟩
    | some time =>
      rw [heq, optionalJson, if_neg (time_not_null time), absoluteTime?_iff.mpr (htime time heq)]
        at hfinal
      rw [← Option.some.inj hfinal]
      exact ⟨rfl, rfl⟩
  · cases h

end Decoding

/-- Times of the same instants. -/
structure SameTime (a b : ValidatedTime) : Prop where
  text : a.text = b.text
  granularity : a.granularity = b.granularity
  start : instant? a.start = instant? b.start
  stop : instant? a.stop = instant? b.stop

/-- Queries that differ in their questions at most. -/
structure SameQuery (a b : ValidatedSemanticQuery) : Prop where
  fields : a = { b with time := a.time, originalQuestion := a.originalQuestion }
  time : Option.Rel SameTime a.time b.time

/-- The certificate is decoded to the certified query, which has the same certificate. -/
def RoundTrips (outside : Surroundings) (format : IsoFormat) (digit : Char → Option Nat)
    (context : QueryContext) (certified : ValidatedSemanticQuery) (certificate : Certificate) : Prop :=
  ∃ query, decodeQueryState digit format.fromisoformat (certificate.json format) = .ok query ∧
    SameQuery query certified ∧
    ∃ certified', prepareRestorationState outside query context = .ok (certified', certificate)

section RoundTrip

variable {outside : Surroundings} {digit : Char → Option Nat} {context : QueryContext}
  {facts : SemanticFacts} {conditions : RestorationConditions}
  {semantic certified : ValidatedSemanticQuery} {certificate : Certificate}

/-- A certified query passes exactly when the names of its metrics fit. -/
lemma restorable_certified_iff
    (h : Certified outside context facts conditions semantic certified certificate)
    (hconditions : semantic.restorationConditions = some conditions)
    (hchecked : semantic.Checked digit) (htime : ∀ t ∈ semantic.time, IsInterval t) :
    Restorable digit certified ↔ NamesFit facts.metrics semantic conditions := by
  have hread := conditions_named_iff (hchecked.conditions conditions hconditions) h.orders
    h.aggregates
  have hstrip := h.metrics
  rw [h.query] at hstrip ⊢
  have hmetrics : (∀ s ∈ semantic.metrics.map (metricNameOf facts.metrics), IsText s) ↔
      ∀ label ∈ semantic.metrics, metricNameOf facts.metrics label ≠ "" := by
    constructor
    · intro hall label hlabel
      exact (hall _ (List.mem_map_of_mem hlabel)).2
    · intro hall name hname
      refine ⟨hstrip name hname, ?_⟩
      obtain ⟨label, hlabel, rfl⟩ := List.mem_map.mp hname
      exact hall label hlabel
  constructor
  · intro hrestorable
    obtain ⟨c, hc, hpass⟩ := hrestorable.readable.conditions
    obtain rfl := Option.some.inj hc
    obtain ⟨hlabels, horders, haggregates⟩ := hread.mp hpass
    have hnonempty := hmetrics.mp hrestorable.readable.metrics
    refine ⟨?_, fun label hlabel => (hlabels label hlabel).2, horders, haggregates⟩
    intro label hlabel
    rcases List.mem_append.mp hlabel with hlabel | hlabel
    · exact hnonempty label hlabel
    · exact (hlabels label hlabel).1
  · intro hfit
    refine ⟨⟨hchecked.subjects, hmetrics.mpr ?_, hchecked.dimensions, hchecked.filters,
      conditions.named facts.metrics, rfl, hread.mpr ⟨?_, hfit.orders, hfit.aggregates⟩⟩, ?_, ?_,
      htime⟩
    · intro label hlabel
      exact hfit.nonempty label (List.mem_append_left _ hlabel)
    · intro label hlabel
      exact ⟨hfit.nonempty label (List.mem_append_right _ hlabel), hfit.bounded label hlabel⟩
    · have hslots := hchecked.slots
      rw [checkSlots_iff] at hslots ⊢
      simpa [ValidatedSemanticQuery.timeless] using hslots
    · rw [List.length_map]
      exact hchecked.count

/-- The certificate of a checked query round trips exactly when the names of the metrics fit. -/
theorem certificate_round_trips (outside : Surroundings) (format : IsoFormat)
    (digit : Char → Option Nat) (semantic : ValidatedSemanticQuery) (context : QueryContext)
    (certified : ValidatedSemanticQuery) (certificate : Certificate)
    (hchecked : semantic.Checked digit) (htime : ∀ t ∈ semantic.time, IsInterval t)
    (hlabels : ∀ facts ∈ context.semanticFacts, LabelsIdentify facts.metrics)
    (h : prepareRestorationState outside semantic context = .ok (certified, certificate)) :
    RoundTrips outside format digit context certified certificate ↔
      ∀ facts ∈ context.semanticFacts, ∀ conditions ∈ semantic.restorationConditions,
        NamesFit facts.metrics semantic conditions := by
  cases hfacts : context.semanticFacts with
  | none =>
    unfold prepareRestorationState at h
    rw [hfacts] at h
    cases hconditions : semantic.restorationConditions <;> rw [hconditions] at h <;> cases h
  | some facts =>
    cases hconditions : semantic.restorationConditions with
    | none =>
      unfold prepareRestorationState at h
      rw [hconditions] at h
      cases h
    | some conditions =>
      have hcertified := prepare_certified hfacts hconditions (hlabels facts hfacts) h
      have hnamed : certified.restorationConditions = some (conditions.named facts.metrics) :=
        congrArg ValidatedSemanticQuery.restorationConditions hcertified.query
      have htimes : ∀ t ∈ certified.time, IsInterval t := by
        rw [hcertified.query]
        exact htime
      have hdecode := @decodeQueryState_iff digit format certified _ certificate hcertified.version
        hcertified.payload hnamed
      have hfits := restorable_certified_iff hcertified hconditions hchecked htime
      have hall : (∀ f ∈ some facts, ∀ c ∈ some conditions, NamesFit f.metrics semantic c) ↔
          NamesFit facts.metrics semantic conditions := by simp
      rw [hall, ← hfits, ← hdecode]
      constructor
      · rintro ⟨query, hquery, hsame, -⟩
        obtain ⟨htime', hquestion⟩ := decoded_time hcertified.version hcertified.payload hnamed htimes
          hquery
        rw [hquery, hsame.fields, htime', hquestion]
        rfl
      · intro hquery
        refine ⟨decoded certified, hquery, ⟨rfl, ?_⟩, _, hcertified.again _⟩
        have hrefl : ∀ time : Option ValidatedTime, Option.Rel SameTime time time := by
          intro time
          cases time with
          | none => exact .none
          | some t => exact .some ⟨rfl, rfl, rfl, rfl⟩
        exact hrefl certified.time

end RoundTrip

/-! ### The number of order lines by two labels -/

/-- Points in time written as the numbers of their wall time and of their distance from UTC. -/
def numberFormat : IsoFormat where
  isoformat d := String.ofList (intChars d.wall ++ '/' :: (d.utcoffset.map intChars).getD [])
  fromisoformat text :=
    some ⟨Json.readInt (before '/' text.toList), some (Json.readInt (behind '/' text.toList))⟩
  reads d h := by
    obtain ⟨wall, utcoffset⟩ := d
    cases utcoffset with
    | none => exact absurd rfl h
    | some offset =>
      have hslash : ∀ c ∈ intChars wall, c ≠ '/' := by
        intro c hc
        rcases Json.mem_intChars hc with rfl | hdigit
        · decide
        · rintro rfl
          cases hdigit
      simp only [String.toList_ofList, Option.map_some, Option.getD_some]
      rw [before_append hslash, behind_append hslash, Json.readInt_intChars, Json.readInt_intChars]

/-- The number of order lines, which also goes by another label. -/
def orderLines : MetricMetadata := { lineCount with aliases := ["行数"] }

/-- A query for the number of order lines in an order. -/
def orderedQuery (orderBy : List BusinessOrder) : ValidatedSemanticQuery :=
  { lineCountQuery with restorationConditions := some ⟨orderBy, none, [], none⟩ }

def byLabel (label : String) : BusinessOrder := ⟨"metric", label, "desc", "last"⟩

def orderLinesCertificate (orderBy : List BusinessOrder) : Certificate where
  semanticQuery := (orderedQuery orderBy).payload
  provenance := {
    metrics := [⟨"订单行数", "COUNT(*)", "mart_sales.fct_sales_order_line", "completion_date_key", [],
      [], []⟩]
    bindings := []
    columns := []
    joins := [] }

lemma prepare_orderLines {orderBy orderBy' : List BusinessOrder}
    (h : canonicalConditions [orderLines] ⟨orderBy, none, [], none⟩ = .ok ⟨orderBy', none, [], none⟩)
    (horders : checkOrders [] ["订单行数"] ⟨orderBy', none, [], none⟩ = .ok ()) :
    prepareRestorationState plainSurroundings (orderedQuery orderBy)
        (lineCountContext ["mart_sales.fct_sales_order_line"] [orderLines]) =
      .ok (orderedQuery orderBy', orderLinesCertificate orderBy') := by
  have hdefinitions : dependencyDefinitions plainSurroundings [orderLines] orderLines ["订单行数"] =
      .ok [] := dependencyDefinitions_of_independent _ _ rfl _
  have hselect : selectMetric plainSurroundings [orderLines] "订单行数" = .ok (orderLines,
      ⟨"订单行数", "COUNT(*)", "mart_sales.fct_sales_order_line", "completion_date_key", [], [], []⟩) := by
    unfold selectMetric certifiedRecord
    change (dependencyDefinitions plainSurroundings [orderLines] orderLines ["订单行数"] >>= _) >>= _ = _
    rw [hdefinitions]
    rfl
  have hselection : selectFacts plainSurroundings [orderLines] (orderedQuery orderBy)
      ⟨orderBy, none, [], none⟩ = .ok { lineCountSelection with semantic := orderedQuery orderBy' } :=
    except_bind_ok.mpr ⟨[(orderLines, _)], except_bind_ok.mpr ⟨_, hselect, rfl⟩,
      except_bind_ok.mpr ⟨_, h, except_bind_ok.mpr ⟨[], rfl, except_bind_ok.mpr ⟨[], rfl,
        except_bind_ok.mpr ⟨(), horders, rfl⟩⟩⟩⟩⟩
  refine except_bind_ok.mpr ⟨_, hselection, ?_⟩
  unfold closeSelection
  rw [checked_bind_ok, checked_bind_ok, require_ok, checked_bind_ok, require_ok, except_pure_ok]
  have htables : ({ lineCountSelection with semantic := orderedQuery orderBy' } : Selection).usedTables =
      ["mart_sales.fct_sales_order_line"] := rfl
  refine ⟨rfl, ?_, ?_, ?_⟩
  · rw [htables]
    exact fun table h => h
  · rw [htables]
    exact fun c h => absurd h List.not_mem_nil
  · rw [htables]
    simp [QueryContext.joinsAmong, lineCountContext, lineCountSelection, orderLinesCertificate, sorted]

lemma labelsIdentify_orderLines : LabelsIdentify [orderLines] := by
  unfold LabelsIdentify
  decide +kernel

lemma checked_orderedQuery (labels : List String) (hcount : labels.length ≤ maxConditionItems) :
    (orderedQuery (labels.map byLabel)).Checked (fun _ => none) := by
  constructor
  · rfl
  · have hone : ["订单行数"].length ≤ maxRequestMetrics := by decide
    exact hone
  · exact fun s h => absurd h List.not_mem_nil
  · exact fun s h => absurd h List.not_mem_nil
  · exact fun f h => absurd h List.not_mem_nil
  · intro c hc
    obtain rfl := Option.some.inj hc
    refine ⟨fun n h => (nomatch h), by rwa [List.length_map], ?_, Nat.zero_le _,
      fun item h => absurd h List.not_mem_nil, fun s h => (nomatch h)⟩
    intro item hitem
    obtain ⟨label, -, rfl⟩ := List.mem_map.mp hitem
    exact ⟨List.mem_cons_self, fun h => absurd rfl h, List.mem_cons_of_mem _ List.mem_cons_self,
      List.mem_cons_of_mem _ List.mem_cons_self⟩

theorem certificate_round_trips_ordered :
    RoundTrips plainSurroundings numberFormat (fun _ => none)
      (lineCountContext ["mart_sales.fct_sales_order_line"] [orderLines])
      (orderedQuery [byLabel "订单行数"]) (orderLinesCertificate [byLabel "订单行数"]) := by
  refine (certificate_round_trips plainSurroundings numberFormat (fun _ => none)
    (orderedQuery (["行数"].map byLabel)) _ _ _ (checked_orderedQuery _ (by decide))
    (fun t h => nomatch h) ?_ (prepare_orderLines rfl rfl)).mpr ?_
  · intro facts hfacts
    obtain rfl := Option.some.inj hfacts
    exact labelsIdentify_orderLines
  · intro facts hfacts conditions hconditions
    obtain rfl := Option.some.inj hfacts
    obtain rfl := Option.some.inj hconditions
    exact ⟨by decide +kernel, by decide +kernel, by decide +kernel, by decide +kernel⟩

/-- Orders on one metric by two labels are certified, and the certificate cannot be decoded. -/
theorem two_labels_undecodable :
    (orderedQuery (["订单行数", "行数"].map byLabel)).Checked (fun _ => none) ∧
      LabelsIdentify [orderLines] ∧
      prepareRestorationState plainSurroundings (orderedQuery (["订单行数", "行数"].map byLabel))
          (lineCountContext ["mart_sales.fct_sales_order_line"] [orderLines]) =
        .ok (orderedQuery [byLabel "订单行数", byLabel "订单行数"],
          orderLinesCertificate [byLabel "订单行数", byLabel "订单行数"]) ∧
      decodeQueryState (fun _ => none) numberFormat.fromisoformat
          ((orderLinesCertificate [byLabel "订单行数", byLabel "订单行数"]).json numberFormat) =
        .error historyIncompatible :=
  ⟨checked_orderedQuery _ (by decide), labelsIdentify_orderLines, prepare_orderLines rfl rfl,
    by decide +kernel⟩

end ChatBI.Snapshot
