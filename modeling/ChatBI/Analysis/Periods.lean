import ChatBI.Analysis.Grounding
import ChatBI.Semantic.Spelling

/-!
# The windows of the compared periods

`build_comparison_plan` tells the two periods apart by their lookup keys. The windows that are
queried for them are those of `_resolve_dates`.
-/

namespace ChatBI.Analysis

open ChatBI.Lib ChatBI.Semantic

section

variable (today : Date)

/-- The window that a period is queried with. -/
def periodWindow (period : AnalysisTimeRange) : Except DateError Window :=
  validateDates ⟨period.text, period.granularity⟩ today

/-- The periods have windows, and not the same one. -/
def DifferentWindows (request : AnalysisRequest) : Prop :=
  ∃ w w', periodWindow today request.currentPeriod = .ok w ∧
    periodWindow today request.comparisonPeriod = .ok w' ∧ w ≠ w'

/-- The text of a period spells units of its granularity that the calendar has. -/
structure SpellsPeriod (period : AnalysisTimeRange) (span : Span) : Prop where
  spells : Spells today (compact (strip period.text)).toList span
  unit : span.unit = period.granularity
  inCalendar : span.InCalendar

/-- The texts of two periods spell different units. -/
def SpellDifferentUnits (current comparison : AnalysisTimeRange) : Prop :=
  ∃ span span', SpellsPeriod today current span ∧ SpellsPeriod today comparison span' ∧ span ≠ span'

end

variable {today : Date} {request : AnalysisRequest} {period : AnalysisTimeRange} {w : Window}

lemma compact_noSpace (s : String) : ∀ c ∈ (compact s).toList, isSpace c = false := by
  intro c hc
  rw [compact, String.toList_ofList, List.mem_filter] at hc
  simpa using hc.2

/-- A period has the windows of the units that its text spells. -/
lemma periodWindow_ok_iff : periodWindow today period = .ok w ↔
    ∃ span, SpellsPeriod today period span ∧ span.Is w := by
  have hvalidated : periodWindow today period = .ok w ↔ w.1 = period.granularity ∧
      (timeForm (compact (strip period.text))).resolve today = .ok w := by
    unfold periodWindow validateDates resolveDates
    simp only [except_bind_ok, except_pure_ok]
    constructor
    · rintro ⟨⟨granularity, start, stop⟩, hresolved, _, hunit, rfl⟩
      have hsame : granularity = period.granularity := require_ok.mp hunit
      rw [← hsame]
      exact ⟨rfl, hresolved⟩
    · rintro ⟨hunit, hresolved⟩
      exact ⟨w, hresolved, (), require_ok.mpr hunit, by rw [← hunit]⟩
  rw [hvalidated, TimeForm.resolve_ok_iff]
  simp only [span_timeForm_iff (compact_noSpace _)]
  constructor
  · rintro ⟨hunit, span, hspells, his⟩
    exact ⟨span, ⟨hspells, his.unit.trans hunit, Span.exists_is_iff.mp ⟨w, his⟩⟩, his⟩
  · rintro ⟨span, ⟨hspells, hunit, -⟩, his⟩
    exact ⟨his.unit.symm.trans hunit, span, hspells, his⟩

/-- Windows of one granularity are the same exactly when their units are. -/
lemma windows_eq_iff {span span' : Span} {w' : Window} (h : span.Is w) (h' : span'.Is w') :
    w = w' ↔ span = span' := by
  constructor
  · intro heq
    exact (h.eq_iff h' (congrArg Prod.fst heq)).mp heq
  · intro heq
    have hunit : w.1 = w'.1 := by rw [← h.unit, ← h'.unit, heq]
    exact (h.eq_iff h' hunit).mpr heq

lemma differentWindows_iff : DifferentWindows today request ↔
    SpellDifferentUnits today request.currentPeriod request.comparisonPeriod := by
  unfold DifferentWindows SpellDifferentUnits
  simp only [periodWindow_ok_iff]
  constructor
  · rintro ⟨w, w', ⟨span, hspan, hw⟩, ⟨span', hspan', hw'⟩, hne⟩
    exact ⟨span, span', hspan, hspan', fun heq => hne ((windows_eq_iff hw hw').mpr heq)⟩
  · rintro ⟨span, span', hspan, hspan', hne⟩
    obtain ⟨w, hw⟩ := Span.exists_is_iff.mpr hspan.inCalendar
    obtain ⟨w', hw'⟩ := Span.exists_is_iff.mpr hspan'.inCalendar
    exact ⟨w, w', ⟨span, hspan, hw⟩, ⟨span', hspan', hw'⟩,
      fun heq => hne ((windows_eq_iff hw hw').mp heq)⟩

/-- The planner returns only plans with two different windows exactly when the periods that pass its
checks spell different units of the calendar. -/
theorem plan_windows_iff (today : Date) (texts : Texts) (candidate : AnalysisRequestCandidate)
    (catalog : AnalysisSemanticCatalog) (question : String) :
    (∀ request plan, buildComparisonPlan texts candidate catalog question = .ok (request, plan) →
      DifferentWindows today request) ↔
    ∀ request, Admitted texts candidate catalog question request →
      SpellDifferentUnits today request.currentPeriod request.comparisonPeriod := by
  simp only [buildComparisonPlan_ok_iff, differentWindows_iff]
  constructor
  · intro h request hadmitted
    exact h request (comparisonPlan request) ⟨hadmitted, rfl⟩
  · rintro h request plan ⟨hadmitted, -⟩
    exact h request hadmitted

/-- The fifteenth of March 2025. -/
def someDay : Date := ⟨2025, 3, 15, by decide, by decide, by decide⟩

/-- A month with its year, spelled with both marks. -/
lemma spellsPeriod_month {text : String} (ys ms : List Char) {y m : Nat} (hy : Numeral [4] ys y)
    (hm : Numeral [1, 2] ms m) (hyear : 1 ≤ y ∧ y ≤ 9998) (hmonth : 1 ≤ m ∧ m ≤ 12)
    (htext : (compact (strip text)).toList = ys ++ '年' :: (ms ++ ['月'])) :
    SpellsPeriod today ⟨text, .month⟩ ⟨.month, y * 12 + m - 1, y * 12 + m - 1 + 1⟩ where
  spells := by
    rw [htext]
    exact .month (.marked hy hm (by simp)) hmonth
  unit := rfl
  inCalendar := by
    constructor
    all_goals
      change 12 ≤ (_ : Int) ∧ _ ≤ maxMonth
      dsimp only
      unfold maxMonth
      omega

/-- January and the December before it. -/
theorem plan_windows_iff_december :
    let january : AnalysisTimeRange := ⟨"2025年1月", .month⟩
    let december : AnalysisTimeRange := ⟨"2024年12月", .month⟩
    ∃ request plan, buildComparisonPlan plainTexts ⟨netSalesMetric, some january, some december⟩
      salesCatalog "2025年1月和2024年12月的人民币净销售额" = .ok (request, plan) ∧
        DifferentWindows someDay request := by
  intro january december
  have hbuilt : buildComparisonPlan plainTexts ⟨netSalesMetric, some january, some december⟩
      salesCatalog "2025年1月和2024年12月的人民币净销售额" =
        .ok (⟨netSalesMetric, january, december⟩,
          comparisonPlan ⟨netSalesMetric, january, december⟩) := by decide +kernel
  refine ⟨_, _, hbuilt, (plan_windows_iff someDay _ _ _ _).mpr ?_ _ _ hbuilt⟩
  intro request hadmitted
  rw [← Option.some.inj hadmitted.currentPeriod, ← Option.some.inj hadmitted.comparisonPeriod]
  have hcurrent : SpellsPeriod someDay january ⟨.month, 2025 * 12 + 1 - 1, 2025 * 12 + 1 - 1 + 1⟩ :=
    spellsPeriod_month ['2', '0', '2', '5'] ['1'] ⟨by simp, List.all_eq_true.mp rfl, rfl⟩
      ⟨by simp, List.all_eq_true.mp rfl, rfl⟩ (by decide) (by decide) (by decide +kernel)
  have hcomparison :
      SpellsPeriod someDay december ⟨.month, 2024 * 12 + 12 - 1, 2024 * 12 + 12 - 1 + 1⟩ :=
    spellsPeriod_month ['2', '0', '2', '4'] ['1', '2'] ⟨by simp, List.all_eq_true.mp rfl, rfl⟩
      ⟨by simp, List.all_eq_true.mp rfl, rfl⟩ (by decide) (by decide) (by decide +kernel)
  exact ⟨_, _, hcurrent, hcomparison, by decide⟩

/-- January is compared with itself. -/
theorem january_with_itself :
    let january : AnalysisTimeRange := ⟨"2025年1月", .month⟩
    let dashed : AnalysisTimeRange := ⟨"2025-01", .month⟩
    buildComparisonPlan plainTexts ⟨netSalesMetric, some january, some dashed⟩ salesCatalog
        "2025年1月和2025-01的人民币净销售额" = .ok (⟨netSalesMetric, january, dashed⟩,
          comparisonPlan ⟨netSalesMetric, january, dashed⟩) ∧
      ¬DifferentWindows someDay ⟨netSalesMetric, january, dashed⟩ := by
  intro january dashed
  refine ⟨by decide +kernel, ?_⟩
  rintro ⟨w, w', hjanuary, hdashed, hne⟩
  have hsame : periodWindow someDay january = periodWindow someDay dashed := by decide +kernel
  rw [hsame, hdashed, Except.ok.injEq] at hjanuary
  exact hne hjanuary.symm

end ChatBI.Analysis
