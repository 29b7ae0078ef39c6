import ChatBI.Analysis.Decimals
import ChatBI.Lib.Raises
import ChatBI.Snapshot.Codec

/-!
# Attributions can be stored

The payload of every attribution passes the check of the history codec, and its decimal texts are
read back as the numbers of the attribution.
-/

namespace ChatBI.Analysis.Decimals

open ChatBI.Lib ChatBI.Snapshot

/-- The digits of other scripts: none is an ASCII character. -/
def OtherScripts (digit : Char → Option ℕ) : Prop := ∀ c, c.toNat < 128 → digit c = none

/-- The characters of decimal texts without an exponent. -/
def Plain (cs : List Char) : Prop := ∀ c ∈ cs, 45 ≤ c.toNat ∧ c.toNat ≤ 57

section Texts

variable {digit : Char → Option ℕ} {cs : List Char}

lemma Plain.append {ds : List Char} (hcs : Plain cs) (hds : Plain ds) : Plain (cs ++ ds) := by
  intro c hc
  rcases List.mem_append.mp hc with hc | hc
  · exact hcs c hc
  · exact hds c hc

lemma plain_of_allDigits (h : AllDigits cs) : Plain cs := by
  intro c hc
  have hdigit := h c hc
  simp only [Char.isDigit, Bool.and_eq_true, decide_eq_true_eq, UInt32.le_iff_toNat_le] at hdigit
  have hlow : 48 ≤ c.toNat := hdigit.1
  have hhigh : c.toNat ≤ 57 := hdigit.2
  omega

/-- Plain characters are read as they are. -/
lemma decimalChars_plain (hdigit : OtherScripts digit) (h : Plain cs) :
    Semantic.decimalChars digit (String.ofList cs) = cs := by
  have hspace : ∀ c ∈ cs, isSpace c = false := by
    intro c hc
    obtain ⟨hlow, hhigh⟩ := h c hc
    simp only [isSpace, Bool.or_eq_false_iff, Bool.and_eq_false_iff, decide_eq_false_iff_not]
    omega
  have hunderscore : cs.filter (· ≠ '_') = cs := by
    apply List.filter_eq_self.mpr
    rintro c hc
    rw [decide_eq_true_eq]
    rintro rfl
    exact absurd (h _ hc).2 (by decide)
  unfold Semantic.decimalChars
  rw [String.toList_ofList, stripChars_of_forall hspace, hunderscore]
  conv_rhs => rw [← List.map_id cs]
  apply List.map_congr_left
  intro c hc
  obtain ⟨hlow, hhigh⟩ := h c hc
  have hlower : ¬(c.val ≥ 'A'.val ∧ c.val ≤ 'Z'.val) := by
    rintro ⟨hupper, -⟩
    have hle : 65 ≤ c.toNat := UInt32.le_iff_toNat_le.mp hupper
    omega
  rw [hdigit c (by omega)]
  exact dif_neg hlower

/-- Digits with an optional fraction. -/
def written (whole : List Char) : Option (List Char) → List Char
  | none => whole
  | some fraction => whole ++ '.' :: fraction

/-- The digits of a text: those of the coefficient, up to zeros that its exponent adds. -/
structure Written (d : DecimalNumber) (whole : List Char) (fraction : Option (List Char)) : Prop where
  text : d.plainDigits = written whole fraction
  nonempty : whole ≠ []
  digits : AllDigits (whole ++ fraction.getD [])
  value : digitsValue (whole ++ fraction.getD []) = d.coefficient * 10 ^ d.exponent.toNat
  length : (fraction.getD []).length = (-d.exponent).toNat

lemma exists_written (d : DecimalNumber) : ∃ whole fraction, Written d whole fraction := by
  have hdigits : AllDigits (Nat.toDigits 10 d.coefficient) := allDigits_toDigits _
  have hne : Nat.toDigits 10 d.coefficient ≠ [] := Nat.toDigits_ne_nil
  by_cases hexponent : 0 ≤ d.exponent
  · refine ⟨_, none, ⟨if_pos hexponent, ?_, ?_, ?_, ?_⟩⟩
    · exact List.append_ne_nil_of_left_ne_nil hne _
    · rw [Option.getD_none, List.append_nil]
      exact hdigits.append (allDigits_zeros _)
    · rw [Option.getD_none, List.append_nil, digitsValue_append_zeros, digitsValue_toDigits]
    · rw [Option.getD_none, List.length_nil]
      omega
  · have hscale : d.exponent.toNat = 0 := by omega
    set places := (-d.exponent).toNat with hplaces
    by_cases hlong : places < (Nat.toDigits 10 d.coefficient).length
    · set point := (Nat.toDigits 10 d.coefficient).length - places with hpoint
      refine ⟨(Nat.toDigits 10 d.coefficient).take point,
        some ((Nat.toDigits 10 d.coefficient).drop point), ⟨?_, ?_, ?_, ?_, ?_⟩⟩
      · rw [DecimalNumber.plainDigits]
        exact (if_neg hexponent).trans (if_pos hlong)
      · intro hnil
        have hzero := congrArg List.length hnil
        rw [List.length_take, List.length_nil] at hzero
        omega
      · rw [Option.getD_some, List.take_append_drop]
        exact hdigits
      · rw [Option.getD_some, List.take_append_drop, digitsValue_toDigits, hscale, pow_zero, mul_one]
      · rw [Option.getD_some, List.length_drop]
        omega
    · refine ⟨['0'], some (List.replicate (places - (Nat.toDigits 10 d.coefficient).length) '0' ++
        Nat.toDigits 10 d.coefficient), ⟨?_, List.cons_ne_nil _ _, ?_, ?_, ?_⟩⟩
      · rw [DecimalNumber.plainDigits]
        exact (if_neg hexponent).trans (if_neg hlong)
      · exact (allDigits_zeros 1).append ((allDigits_zeros _).append hdigits)
      · rw [Option.getD_some, ← List.append_assoc]
        change digitsValue (List.replicate (_ + 1) '0' ++ _) = _
        rw [digitsValue_zeros_append, digitsValue_toDigits, hscale, pow_zero, mul_one]
      · rw [Option.getD_some, List.length_append, List.length_replicate]
        omega

section Read

variable {d : DecimalNumber} {whole : List Char} {fraction : Option (List Char)}

lemma Written.plain (W : Written d whole fraction) : Plain d.plainDigits := by
  rw [W.text]
  cases fraction with
  | none =>
    have hdigits := W.digits
    rw [Option.getD_none, List.append_nil] at hdigits
    exact plain_of_allDigits hdigits
  | some fraction =>
    have hdigits := W.digits
    have hwhole : AllDigits whole := fun c hc => hdigits c (List.mem_append_left _ hc)
    have hfraction : AllDigits fraction := fun c hc => hdigits c (List.mem_append_right _ hc)
    apply (plain_of_allDigits hwhole).append
    rintro c (_ | ⟨_, hc⟩)
    · decide
    · exact plain_of_allDigits hfraction c hc

/-- The point is found again. -/
lemma Written.split (W : Written d whole fraction) :
    before '.' d.plainDigits = whole ∧ behind '.' d.plainDigits = fraction.getD [] := by
  have hwhole : AllDigits whole := fun c hc => W.digits c (List.mem_append_left _ hc)
  have hdot := hwhole.ne not_digit_dot
  rw [W.text]
  cases fraction with
  | none => exact ⟨before_of_forall hdot, behind_of_forall hdot⟩
  | some fraction => exact ⟨before_append hdot _, behind_append hdot _⟩

lemma Written.head (W : Written d whole fraction) :
    ∃ c rest, d.plainDigits = c :: rest ∧ c.isDigit = true := by
  obtain ⟨c, rest, hrest⟩ := List.exists_cons_of_ne_nil W.nonempty
  have hc : c.isDigit = true := by
    apply W.digits c
    rw [hrest]
    exact List.mem_cons_self
  rw [W.text]
  cases fraction with
  | none => exact ⟨c, rest, hrest, hc⟩
  | some fraction =>
    refine ⟨c, rest ++ '.' :: fraction, ?_, hc⟩
    rw [written, hrest, List.cons_append]

lemma signed_plainText (W : Written d whole fraction) :
    Semantic.signed d.plainText = (d.negative, d.plainDigits) := by
  obtain ⟨c, rest, hhead, hc⟩ := W.head
  unfold DecimalNumber.plainText
  cases hnegative : d.negative with
  | true => rfl
  | false =>
    rw [if_neg Bool.false_ne_true, List.nil_append, hhead]
    unfold Semantic.signed
    split
    · next hsame =>
      cases hsame
      cases hc
    · next hsame =>
      cases hsame
      cases hc
    · rfl

lemma isSpecial_plainDigits (W : Written d whole fraction) :
    Semantic.isSpecial d.plainDigits = false := by
  obtain ⟨c, rest, hhead, hc⟩ := W.head
  have hne : ∀ e : Char, e.isDigit = false → c ≠ e := by
    rintro e he rfl
    rw [hc] at he
    cases he
  have hi := hne 'i' rfl
  have hn := hne 'n' rfl
  have hs := hne 's' rfl
  rw [hhead]
  simp [Semantic.isSpecial, hi, hn.symm, hs.symm]

/-- The number that a plain text stands for. -/
def rewritten (d : DecimalNumber) : DecimalNumber :=
  ⟨d.negative, d.coefficient * 10 ^ d.exponent.toNat, 0 - (-d.exponent).toNat⟩

lemma value_rewritten (d : DecimalNumber) : (rewritten d).value = d.value := by
  have hten : (10 : ℚ) ≠ 0 := by norm_num
  have hexponent : ((d.exponent.toNat : ℤ) + (0 - ((-d.exponent).toNat : ℤ))) = d.exponent := by omega
  unfold rewritten DecimalNumber.value DecimalNumber.magnitude
  push_cast
  rw [mul_assoc, ← zpow_natCast, ← zpow_add₀ hten, hexponent]

lemma representable_rewritten (h : Semantic.representable d) :
    Semantic.representable (rewritten d) := by
  obtain ⟨hadjusted, hexponent⟩ := h
  unfold Semantic.representable DecimalNumber.adjusted rewritten at *
  dsimp only
  by_cases hzero : d.coefficient = 0
  · rw [hzero, Nat.log_zero_right] at hadjusted
    rw [hzero, zero_mul, Nat.log_zero_right]
    omega
  · have hlog : Nat.log 10 (d.coefficient * 10 ^ d.exponent.toNat) =
        Nat.log 10 d.coefficient + d.exponent.toNat := by
      induction d.exponent.toNat with
      | zero => rw [pow_zero, mul_one, add_zero]
      | succ k ih =>
        rw [pow_succ, ← mul_assoc, Nat.log_mul_base (by decide) (by positivity), ih, add_assoc]
    rw [hlog]
    omega

/-- A plain text is read back as a number of the same value. -/
theorem decimalOf_plainText (hdigit : OtherScripts digit) (h : Semantic.representable d) :
    Semantic.decimalOf digit (String.ofList d.plainText) = some (some (rewritten d)) := by
  obtain ⟨whole, fraction, W⟩ := exists_written d
  have hplain : Plain d.plainText := by
    unfold DecimalNumber.plainText
    apply Plain.append _ W.plain
    intro c hc
    split at hc
    · rw [List.mem_singleton.mp hc]
      decide
    · exact absurd hc List.not_mem_nil
  have hmantissa : ∀ c ∈ d.plainDigits, c ≠ 'e' := by
    rintro c hc rfl
    exact absurd (W.plain _ hc).2 (by decide)
  have hnoExponent : d.plainDigits.dropWhile (· ≠ 'e') = [] := by
    rw [List.dropWhile_eq_nil_iff]
    intro c hc
    exact decide_eq_true (hmantissa c hc)
  have hdigits : (whole ++ fraction.getD []).all Char.isDigit = true := List.all_eq_true.mpr W.digits
  unfold Semantic.decimalOf
  rw [decimalChars_plain hdigit hplain, signed_plainText W]
  dsimp only
  rw [isSpecial_plainDigits W, if_neg Bool.false_ne_true, before_of_forall hmantissa, W.split.1,
    W.split.2, if_pos ⟨List.append_ne_nil_of_left_ne_nil W.nonempty _, hdigits⟩, hnoExponent,
    W.value, W.length]
  exact if_pos (representable_rewritten h)

end Read

/-- `Decimal(text)` is a finite number. -/
def isDecimal (digit : Char → Option ℕ) (text : String) : Bool :=
  match Semantic.decimalOf digit text with
  | some (some _) => true
  | _ => false

/-- The value is a decimal text of the number. -/
def Tells (digit : Char → Option ℕ) (v : Json) (x : Number) : Prop :=
  ∃ s n, v = .str s ∧ Semantic.decimalOf digit s = some (some n) ∧ n.value = x.value

lemma tells_decimalText (hdigit : OtherScripts digit) (x : Number) :
    Tells digit (.str (decimalText x)) x := by
  obtain ⟨d, h⟩ := x
  unfold decimalText
  dsimp only
  split
  · next hzero =>
    have hrepresentable : Semantic.representable { d with exponent := 0 } := by
      unfold Semantic.representable DecimalNumber.adjusted
      rw [hzero.1, Nat.log_zero_right]
      exact ⟨by norm_num, by norm_num⟩
    refine ⟨_, _, rfl, decimalOf_plainText hdigit hrepresentable, ?_⟩
    rw [value_rewritten]
    unfold Number.value DecimalNumber.value DecimalNumber.magnitude
    rw [hzero.1, Nat.cast_zero, zero_mul, zero_mul]
  · exact ⟨_, _, rfl, decimalOf_plainText hdigit h, value_rewritten d⟩

lemma Tells.isDecimalText {v : Json} {x : Number} (h : Tells digit v x) :
    isDecimalText (isDecimal digit) v = true := by
  obtain ⟨s, n, rfl, hread, -⟩ := h
  have hne : s ≠ "" := by
    rintro rfl
    have hempty : Semantic.decimalOf digit "" = none := rfl
    rw [hempty] at hread
    cases hread
  simp [Snapshot.isDecimalText, Json.isString, Json.text, isDecimal, hread, hne]

end Texts

/-- The decimal texts of a payload are those of the numbers of an attribution. -/
structure ReadBack (digit : Char → Option ℕ) (payload : Json) (a : BusinessAnalysisAttribution) :
    Prop where
  comparisonValue : Tells digit (payload.field "comparison_value") a.comparisonValue
  currentValue : Tells digit (payload.field "current_value") a.currentValue
  totalChange : Tells digit (payload.field "total_change") a.totalChange
  products : List.Forall₂ (fun (v : Json) (p : ProductContribution) =>
    Tells digit (v.field "change") p.change ∧
      List.Forall₂ (fun (w : Json) (f : FactorContribution) => Tells digit (w.field "amount") f.amount)
        (v.field "factors").items p.factors) (payload.field "products").items a.topProducts

section Payload

variable {digit : Char → Option ℕ} {a : BusinessAnalysisAttribution}

lemma readBack_toPayload (hdigit : OtherScripts digit) : ReadBack digit a.toPayload a := by
  refine ⟨tells_decimalText hdigit _, tells_decimalText hdigit _, tells_decimalText hdigit _, ?_⟩
  apply List.forall₂_map_left_iff.mpr
  apply List.forall₂_same.mpr
  intro p _
  refine ⟨tells_decimalText hdigit _, ?_⟩
  apply List.forall₂_map_left_iff.mpr
  apply List.forall₂_same.mpr
  exact fun f _ => tells_decimalText hdigit _

lemma isOneOf_str {names : List String} {s : String} (h : s ∈ names) :
    isOneOf names (.str s) = true := by
  unfold isOneOf
  rw [Bool.and_eq_true, decide_eq_true_eq]
  exact ⟨rfl, h⟩

lemma isNonemptyString_str {s : String} (h : strip s ≠ "") : isNonemptyString (.str s) = true := by
  unfold isNonemptyString
  rw [Bool.and_eq_true, decide_eq_true_eq]
  exact ⟨rfl, h⟩

lemma metricEffect_mem (x : Number) : isOneOf metricEffects (.str (metricEffect x)) = true := by
  unfold metricEffect
  split
  · rfl
  · split
    · rfl
    · rfl

lemma validateFactor_payload (hdigit : OtherScripts digit) (f : FactorContribution) :
    validateFactor (isDecimal digit) (factorPayload f) = .ok () := by
  have hexact : hasExactFields (factorPayload f) ["name", "amount", "effect_on_metric"] [] = true :=
    rfl
  have hamount : isDecimalText (isDecimal digit) ((factorPayload f).field "amount") = true :=
    (tells_decimalText hdigit f.amount).isDecimalText
  have heffect : isOneOf metricEffects ((factorPayload f).field "effect_on_metric") = true :=
    metricEffect_mem f.amount
  have hname : ((factorPayload f).field "name").isString = true := rfl
  rw [validateFactor, require_ok, hexact, hamount, heffect, hname]
  rfl

lemma validateProduct_payload (hdigit : OtherScripts digit) (p : ProductContribution) :
    validateProduct (isDecimal digit) (productPayload p) = .ok () := by
  have hchange : isDecimalText (isDecimal digit) ((productPayload p).field "change") = true :=
    (tells_decimalText hdigit p.change).isDecimalText
  have heffect : isOneOf metricEffects ((productPayload p).field "effect_on_metric") = true :=
    metricEffect_mem p.change
  have hclass : isOneOf ["continuing", "new_product", "exited_product", "new", "discontinued"]
      ((productPayload p).field "classification") = true := by
    change isOneOf _ (.str p.classification.text) = true
    cases p.classification <;> rfl
  have hname : ((productPayload p).field "product_name").isString = true := rfl
  have hlist : ((productPayload p).field "factors").isList = true := rfl
  simp only [validateProduct, checked_bind_ok, require_ok, forM_ok_iff]
  refine ⟨rfl, ?_, ?_⟩
  · rw [hname, hchange, heffect, hclass, hlist]
    rfl
  · intro v hv
    obtain ⟨f, -, rfl⟩ := List.mem_map.mp hv
    exact validateFactor_payload hdigit f

lemma direction_mem : isOneOf ["increase", "decrease", "unchanged"] (.str a.direction) = true := by
  unfold BusinessAnalysisAttribution.direction
  split
  · rfl
  · split
    · rfl
    · rfl

lemma validateAttribution_payload (hdigit : OtherScripts digit)
    (hmetric : a.metricName ∈ [grossProfitMetric, netSalesMetric])
    (hcomparison : strip a.comparisonPeriod ≠ "") (hcurrent : strip a.currentPeriod ≠ "")
    (htop : a.topProducts.length ≤ a.products.length) :
    validateAttribution (isDecimal digit) a.toPayload = .ok () := by
  obtain ⟨hcomparisonValue, hcurrentValue, htotal, -⟩ := readBack_toPayload (a := a) hdigit
  have hmetricText : isOneOf ["人民币毛利", "人民币净销售额"] (a.toPayload.field "metric_name") = true :=
    isOneOf_str hmetric
  have hcomparisonText : isNonemptyString (a.toPayload.field "comparison_period") = true :=
    isNonemptyString_str hcomparison
  have hcurrentText : isNonemptyString (a.toPayload.field "current_period") = true :=
    isNonemptyString_str hcurrent
  have hdirection : isOneOf ["increase", "decrease", "unchanged"] (a.toPayload.field "direction") =
      true := direction_mem
  have homitted : (a.toPayload.field "omitted_product_count").isInt = true := rfl
  have hcount : 0 ≤ number (a.toPayload.field "omitted_product_count") := by
    change (0 : ℤ) ≤ a.products.length - a.topProducts.length
    omega
  have hpassed : isTrue (a.toPayload.field "reconciliation_passed") = true := rfl
  have hlist : (a.toPayload.field "products").isList = true := rfl
  simp only [validateAttribution, checked_bind_ok, require_ok, forM_ok_iff]
  refine ⟨rfl, ?_, ?_⟩
  · simp only [Bool.and_eq_true, List.all_cons, List.all_nil, decide_eq_true_eq]
    exact ⟨⟨⟨⟨⟨⟨⟨⟨hmetricText, hcomparisonText⟩, hcurrentText⟩, hcomparisonValue.isDecimalText,
      hcurrentValue.isDecimalText, htotal.isDecimalText, trivial⟩, hdirection⟩, homitted⟩, hcount⟩,
      hpassed⟩, hlist⟩
  · intro v hv
    obtain ⟨p, -, rfl⟩ := List.mem_map.mp hv
    exact validateProduct_payload hdigit p

lemma length_leading {key : ProductContribution → Except Raised Number}
    {products top : List ProductContribution} (h : leading key products = .ok top) :
    top.length ≤ products.length := by
  obtain ⟨keyed, hkeyed, htop⟩ := except_bind_ok.mp h
  have hlength := (mapM_ok hkeyed).length_eq
  rw [← except_pure_ok.mp htop, List.length_take, List.length_map, List.length_insertionSort, hlength]
  exact min_le_right _ _

lemma length_topProducts {products top : List ProductContribution} {total : Number}
    (h : topProducts products total = .ok top) : top.length ≤ products.length := by
  unfold topProducts at h
  split at h
  · exact (length_leading h).trans (List.length_filter_le _ _)
  · split at h
    · exact (length_leading h).trans (List.length_filter_le _ _)
    · cases h
      exact Nat.zero_le _

end Payload

/-- The payload of every attribution that is returned passes the check of the history codec, and its
decimal texts are read back as its numbers. -/
theorem attribution_storable (casefold : String → String) {digit : Char → Option ℕ}
    (hdigit : OtherScripts digit) {request : AnalysisRequest} {taskResults : List TaskResult}
    {a : BusinessAnalysisAttribution}
    (h : calculateProductAttribution casefold digit request taskResults = .ok a)
    (hcomparison : strip request.comparisonPeriod.text ≠ "")
    (hcurrent : strip request.currentPeriod.text ≠ "") :
    validateAttribution (isDecimal digit) a.toPayload = .ok () ∧ ReadBack digit a.toPayload a := by
  simp only [calculateProductAttribution, except_bind_ok, except_pure_ok] at h
  obtain ⟨_, hmetric, _, -, _, -, _, -, _, -, _, -, _, -, _, -, _, -, _, -, _, -, _, -, _, -, products,
    -, total, -, _, -, _, -, top, htop, rfl⟩ := h
  refine ⟨?_, readBack_toPayload hdigit⟩
  exact validateAttribution_payload hdigit (require_ok.mp hmetric) hcomparison hcurrent
    (length_topProducts htop)

/-- A product whose price is no decimal of 28 digits, and a new one. -/
def storedTasks : List TaskResult := [
  { taskId := "comparison-overall", status := .completed, columns := ["x"], rows := [[.other "100"]] },
  { taskId := "current-overall", status := .completed, columns := ["x"], rows := [[.other "145.5"]] },
  { taskId := "comparison-products", status := .completed, columns := ["产品", "销售额", "销量"]
    rows := [[.text "a", .other "100", .other "3"]] },
  { taskId := "current-products", status := .completed, columns := ["产品", "销售额", "销量"]
    rows := [[.text "a", .other "130.50", .other "7"], [.text "b", .other "1.5E+1", .other "2"]] }]

theorem attribution_storable_stored :
    let request : AnalysisRequest := ⟨netSalesMetric, ⟨"2024", .year⟩, ⟨"2023", .year⟩⟩
    ∃ a, calculateProductAttribution id Semantic.asciiOnly request storedTasks = .ok a ∧
      validateAttribution (isDecimal Semantic.asciiOnly) a.toPayload = .ok () ∧
      ReadBack Semantic.asciiOnly a.toPayload a := by
  intro request
  have hsome : (calculateProductAttribution id Semantic.asciiOnly request storedTasks).isOk = true := by
    decide +kernel
  cases h : calculateProductAttribution id Semantic.asciiOnly request storedTasks with
  | error e =>
    rw [h] at hsome
    cases hsome
  | ok a => exact ⟨a, rfl, attribution_storable id (fun _ _ => rfl) h (by decide) (by decide)⟩

end ChatBI.Analysis.Decimals
