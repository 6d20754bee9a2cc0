/-
**The resampling fallback.**

The fallback resamples two aligned lists: codes and values, two variables, or the codes of the rows
and of the columns of a table.  A resample need not look like the samples.  It may miss a group, a
row or a column altogether, and one of its variables may be constant.  Its statistic is defined all
the same: only groups with members have a mean, only rows and columns that occur have an expected
frequency, and a constant variable counts as uncorrelated.  To show this, the statistics are
computed in an arithmetic in which a division by zero is undefined; they give what exact arithmetic
gives.

No statistic is negative.  So a statistic of zero is the least extreme there is, and every resample
is at least as extreme.

Main definitions:

* `StudyAnalysis.Fallback` — two lists and a statistic of aligned lists;
* `StudyAnalysis.Fallback.MapsTo` — the same lists with other elements, and the statistic to match;
* `StudyAnalysis.Samples.Unrelated` — samples without any difference or dependence.

Main results:

* `StudyAnalysis.runBootstrap_eq_ok_iff` — the fallback in closed form;
* `StudyAnalysis.PartialReal.codedBetween_map_value`,
  `StudyAnalysis.PartialReal.correlation_map_value`,
  `StudyAnalysis.PartialReal.codedChiSquare_value` — **the statistics never divide by zero**;
* `StudyAnalysis.Exact.independentCodes_expandTable_iff` — independent tables of counts;
* `StudyAnalysis.Exact.statistic_nonneg`, `StudyAnalysis.Exact.observed_eq_zero_iff` — **they are
  not negative, and zero without any difference or dependence only**;
* `StudyAnalysis.Exact.runBootstrap_counts_extreme` — **the p-value is a share of defined
  resamples**.
-/

import StudyAnalysis.Proofs.Number.Partial
import StudyAnalysis.Proofs.Selection.CodedSamples
import StudyAnalysis.Proofs.Selection.Rescaling
import StudyAnalysis.Proofs.Statistics.Collinearity

set_option autoImplicit false
set_option relaxedAutoImplicit false

namespace StudyAnalysis

open Numeric Fallible Exact

/-! ### What is resampled -/

/-- Two lists that are resampled independently of each other, and a statistic of aligned lists. -/
structure Fallback (α : Type) where
  {First : Type}
  {Second : Type}
  first : List First
  second : List Second
  statistic : List First → List Second → α

namespace Fallback

variable {α α' σ : Type}

/-- The statistic of the lists themselves. -/
def observed (r : Fallback α) : α :=
  r.statistic r.first r.second

/-- The statistics of the resamples. -/
def drawn (source : DrawSource σ) (start : σ) (resamples : ℕ) (r : Fallback α) : List α :=
  resampled source start r.first r.second resamples r.statistic

/-- Other elements in the same places, whose statistic is the image of the statistic. -/
inductive MapsTo (h : α → α') : Fallback α → Fallback α' → Prop
  | intro {β β' γ γ' : Type} {x : List β} {y : List γ} {x' : List β'} {y' : List γ'}
      {statistic : List β → List γ → α} {statistic' : List β' → List γ' → α'} (f : β → β')
      (g : γ → γ') (hx : x' = x.map f) (hy : y' = y.map g)
      (hstatistic : ∀ x y, x.length = y.length →
        statistic' (x.map f) (y.map g) = h (statistic x y)) :
      MapsTo h ⟨x, y, statistic⟩ ⟨x', y', statistic'⟩

variable {h : α → α'} {r : Fallback α} {r' : Fallback α'}

theorem MapsTo.observed_eq (hmaps : MapsTo h r r') (haligned : r.first.length = r.second.length) :
    r'.observed = h r.observed := by
  cases hmaps with
  | intro f g hx hy hstatistic =>
      subst hx hy
      exact hstatistic _ _ haligned

/-- **The same draws have the images of the statistics.** -/
theorem MapsTo.drawn_eq (hmaps : MapsTo h r r') (source : DrawSource σ) (start : σ)
    (resamples : ℕ) : r'.drawn source start resamples =
      (r.drawn source start resamples).map h := by
  cases hmaps with
  | intro f g hx hy hstatistic =>
      subst hx hy
      exact resampled_map source hstatistic start _ _ resamples

theorem MapsTo.length_eq (hmaps : MapsTo h r r') :
    r'.first.length = r.first.length ∧ r'.second.length = r.second.length := by
  cases hmaps with
  | intro f g hx hy hstatistic =>
      subst hx hy
      exact ⟨List.length_map _, List.length_map _⟩

end Fallback

namespace Samples

variable {α β : Type}

/-- Samples with other numbers in the same places. -/
def map (f : α → β) : Samples α → Samples β
  | groups labels samples => groups labels (samples.map (List.map f))
  | paired labels samples => paired labels (samples.map (List.map f))
  | bivariate x y => bivariate (x.map f) (y.map f)
  | contingency rows cols table => contingency rows cols (table.map (List.map f))

/-- What the fallback resamples of some samples. -/
def fallback [Numeric α] : Samples α → Fallback α
  | groups _ samples | paired _ samples =>
    ⟨(codedValues samples).map (·.1), (codedValues samples).map (·.2), codedBetween⟩
  | bivariate x y => ⟨x, y, correlationStrength⟩
  | contingency _ _ table =>
    ⟨(expandTable table).map (·.1), (expandTable table).map (·.2), codedChiSquare⟩

/-- There are at least two groups; of other samples the fallback only asks for observations. -/
def EnoughGroups : Samples α → Prop
  | groups _ samples | paired _ samples => 2 ≤ samples.length
  | _ => True

theorem enoughGroups_map {f : α → β} {s : Samples α} : (s.map f).EnoughGroups ↔ s.EnoughGroups := by
  cases s with
  | groups labels samples | paired labels samples =>
      show 2 ≤ (samples.map (List.map f)).length ↔ 2 ≤ samples.length
      rw [List.length_map]
  | bivariate x y | contingency rows cols table => exact Iff.rfl

end Samples

/-- **The fallback in closed form.** -/
theorem runBootstrap_eq_ok_iff {α σ : Type} [Numeric α] {source : DrawSource σ} {start : σ}
    {resamples : ℕ} {s : Samples α} {out : TestOutput α} :
    runBootstrap source start resamples s = .ok out ↔
      (s.EnoughGroups ∧ s.fallback.first.length = s.fallback.second.length ∧
        2 ≤ s.fallback.first.length ∧ resamples ≠ 0) ∧
      out = bootstrapOutput s.fallback.observed (s.fallback.drawn source start resamples)
        resamples := by
  cases s with
  | groups labels samples | paired labels samples =>
      constructor
      · intro h
        obtain ⟨_, hgroups, h⟩ := bind_eq_ok_iff.1 h
        obtain ⟨hlists, hout⟩ := bootstrapIndependence_eq_ok_iff.1 h
        exact ⟨⟨(require_eq_ok_iff samples 2).1 hgroups, hlists⟩, hout⟩
      · rintro ⟨⟨hgroups, hlists⟩, hout⟩
        exact bind_eq_ok_iff.2 ⟨(), (require_eq_ok_iff samples 2).2 hgroups,
          bootstrapIndependence_eq_ok_iff.2 ⟨hlists, hout⟩⟩
  | bivariate x y | contingency rows cols table =>
      show _ ↔ (True ∧ _) ∧ _
      rw [true_and]
      exact bootstrapIndependence_eq_ok_iff

/-! ### Codes that occur -/

namespace Exact

section Codes

/-- Aligned lists of codes are those of some points. -/
theorem exists_points {rows cols : List ℕ} (h : rows.length = cols.length) :
    ∃ points : List (ℕ × ℕ), points.map (·.1) = rows ∧ points.map (·.2) = cols :=
  ⟨rows.zip cols, List.map_fst_zip h.le, List.map_snd_zip h.ge⟩

variable {points : List (ℕ × ℕ)} {r c : ℕ}

/-- How often a row and a column would occur together if they did so independently. -/
noncomputable def expectedCount (points : List (ℕ × ℕ)) (r c : ℕ) : ℝ :=
  points.countP (·.1 == r) * points.countP (·.2 == c) / points.length

theorem length_pos_of_occurring (hr : r ∈ occurring (points.map (·.1))) :
    (0 : ℝ) < points.length := by
  refine cast_length_pos ?_
  rintro rfl
  cases mem_occurring_iff.1 hr

/-- A row and a column that occur have an expected frequency. -/
theorem expectedCount_pos (hr : r ∈ occurring (points.map (·.1)))
    (hc : c ∈ occurring (points.map (·.2))) : 0 < expectedCount points r c :=
  div_pos (mul_pos (Nat.cast_pos.2 (countP_code_pos_iff.2 hr))
    (Nat.cast_pos.2 (countP_code_pos_iff.2 hc))) (length_pos_of_occurring hr)

end Codes

end Exact

/-! ### Statistics that never divide by zero -/

namespace PartialReal

section Groups

/-- **Only groups with members have a mean.**  The sum of squares between groups is defined. -/
theorem codedBetween_map_value (codes : List ℕ) (values : List ℝ) :
    codedBetween codes (values.map value) = value (codedBetween codes values) := by
  have hterm : ∀ (grand : ℝ) (g : List ℝ),
      count (g.map value) * square (mean (g.map value) - value grand) =
        value (count g * square (mean g - grand)) := by
    intro grand g
    rw [count_eq, count, List.length_map, mean_map_value]
    rfl
  rw [codedBetween, codedBetween, codedGroups_map, filter_isEmpty_map, List.map_map, mean_map_value,
    ← sum_map_value, List.map_map]
  exact congrArg sum (List.map_congr_left fun g _ => hterm (mean values) g)

end Groups

section Correlation

theorem crossProducts_map_value (mx my : ℝ) (points : List (ℝ × ℝ)) :
    crossProducts (value mx) (value my) (points.map (Prod.map value value)) =
      value (crossProducts mx my points) := by
  rw [crossProducts, List.foldl_map]
  exact foldl_value (fun _ _ _ => rfl) _

/-- **A variable that does not vary is not divided by.**  The correlation is defined where there is
one. -/
theorem correlation_map_value (x y : List ℝ) :
    correlation (x.map value) (y.map value) = (correlation x y).map value := by
  have hx : ∀ points : List (ℝ × ℝ), (points.map (Prod.map value value)).map (fun p => (p.1, p.1)) =
      (points.map fun p => (p.1, p.1)).map (Prod.map value value) := by
    intro points
    rw [List.map_map, List.map_map]
    rfl
  have hy : ∀ points : List (ℝ × ℝ), (points.map (Prod.map value value)).map (fun p => (p.2, p.2)) =
      (points.map fun p => (p.2, p.2)).map (Prod.map value value) := by
    intro points
    rw [List.map_map, List.map_map]
    rfl
  rw [correlation, correlation, List.zip_map, hx, hy, mean_map_value, mean_map_value,
    crossProducts_map_value, crossProducts_map_value, crossProducts_map_value]
  generalize crossProducts (mean x) (mean y) (x.zip y) = sxy
  generalize crossProducts (mean x) (mean x) _ = sxx
  generalize crossProducts (mean y) (mean y) _ = syy
  simp only [numeral_eq, value_le_iff]
  split
  · rfl
  · rename_i hvaries
    rw [not_or, Exact.numeral_zero, not_le, not_le] at hvaries
    have hproduct : 0 < sxx * syy := mul_pos hvaries.1 hvaries.2
    have hroot : sqrt (sxx * syy) ≠ 0 := (Real.sqrt_pos.2 hproduct).ne'
    rw [value_mul, sqrt_value hproduct.le, value_div hroot]
    exact congrArg Except.ok (clamp_value _ _)

theorem correlationStrength_map_value (x y : List ℝ) :
    correlationStrength (x.map value) (y.map value) = value (correlationStrength x y) := by
  rw [correlationStrength, correlation_map_value, correlationStrength]
  cases correlation x y <;> rfl

end Correlation

section Tables

/-- **Only rows and columns that occur have an expected frequency.**  The statistic of codes in
aligned lists is defined. -/
theorem codedChiSquare_value {rows cols : List ℕ} (h : rows.length = cols.length) :
    (codedChiSquare rows cols : PartialReal) = value (codedChiSquare rows cols) := by
  obtain ⟨points, rfl, rfl⟩ := exists_points h
  rw [codedChiSquare, codedChiSquare, zip_map_fst_map_snd]
  -- what is added belongs to rows and columns that occur
  refine foldl_value ?_ _
  intro r hr total
  refine foldl_value ?_ total
  intro c hc total
  have hlength : (count (points.map (·.1)) : ℝ) = points.length := by
    rw [Exact.count_eq, List.length_map]
  have hexpected : (ofNat (points.countP (·.1 == r)) * ofNat (points.countP (·.2 == c)) /
      points.length : ℝ) ≠ 0 := (expectedCount_pos hr hc).ne'
  simp only [ofNat_eq, count_eq, hlength]
  rw [value_mul, value_div (length_pos_of_occurring hr).ne', value_sub, square_value,
    value_div hexpected]
  rfl

end Tables

/-- **The fallback never divides by zero**: in an arithmetic where that is undefined, it resamples
the same statistics. -/
theorem fallback_map_value (s : Samples ℝ) : s.fallback.MapsTo value (s.map value).fallback := by
  cases s with
  | groups labels samples | paired labels samples =>
      have hcodes : (codedValues (samples.map (List.map value))).map (·.1) =
          ((codedValues samples).map (·.1)).map id := by
        rw [codedValues_map, List.map_map, List.map_map]
        rfl
      have hvalues : (codedValues (samples.map (List.map value))).map (·.2) =
          ((codedValues samples).map (·.2)).map value := by
        rw [codedValues_map, List.map_map, List.map_map]
        rfl
      refine .intro id value hcodes hvalues fun codes values _ => ?_
      rw [List.map_id, codedBetween_map_value]
  | bivariate x y =>
      exact .intro value value rfl rfl fun x y _ => correlationStrength_map_value x y
  | contingency rows cols table =>
      have htable : expandTable (table.map (List.map value)) = expandTable table := by
        simp only [expandTable, List.zipIdx_map, List.flatMap_map, Prod.map_fst, Prod.map_snd]
        rfl
      refine .intro id id ?_ ?_ fun rows cols h => ?_
      · rw [htable, List.map_id]
      · rw [htable, List.map_id]
      · rw [List.map_id, List.map_id, codedChiSquare_value h]

/-- Defined statistics have a defined p-value, as there are never too few resamples to divide by. -/
theorem bootstrapOutput_map_value (observed : ℝ) (values : List ℝ) (resamples : ℕ) :
    bootstrapOutput (value observed) (values.map value) resamples =
      ⟨value observed, value (bootstrapOutput observed values resamples).pValue, none⟩ := by
  have hcount : (values.map value).countP (fun v => decide (value observed ≤ v)) =
      values.countP fun v => decide (observed ≤ v) := by
    rw [List.countP_map]
    refine List.countP_congr fun v _ => ?_
    rw [Function.comp_apply, decide_eq_true_iff, decide_eq_true_iff, value_le_iff]
  have hdivisor : (ofNat (resamples + 1) : ℝ) ≠ 0 := Nat.cast_ne_zero.2 (Nat.succ_ne_zero resamples)
  rw [bootstrapOutput, TestOutput.clamped, hcount, ofNat_eq, ofNat_eq, value_div hdivisor]
  exact congrArg (TestOutput.mk _ · none) (clamp_value _ _)

end PartialReal

/-! ### The least extreme statistic -/

/-- Codes of rows and columns that occur together as often as independent ones. -/
def IndependentCodes (points : List (ℕ × ℕ)) : Prop :=
  ∀ r c, points.count (r, c) * points.length =
    points.countP (·.1 == r) * points.countP (·.2 == c)

/-- Samples without any difference or dependence: groups of one mean, variables that do not vary or
not together, or a table that is exactly independent. -/
def Samples.Unrelated : Samples ℝ → Prop
  | .groups _ samples | .paired _ samples =>
    ∀ g ∈ samples, ∀ g' ∈ samples, g ≠ [] → g' ≠ [] → mean g = mean g'
  | .bivariate x y => ¬ Varies x ∨ ¬ Varies y ∨ productSum x y = 0
  | .contingency _ _ table => IndependentCodes (expandTable table)

namespace Exact

section Groups

theorem codedBetween_nonneg (codes : List ℕ) (values : List ℝ) : 0 ≤ codedBetween codes values := by
  rw [codedBetween, sum_eq]
  exact List.sum_nonneg (List.forall_mem_map.2 fun g _ =>
    mul_nonneg (Nat.cast_nonneg _) (mul_self_nonneg _))

theorem betweenTerm_eq_zero_iff {centre : ℝ} {g : List ℝ} :
    betweenTerm centre g = 0 ↔ (g ≠ [] → mean g = centre) := by
  by_cases hne : g = []
  · simp [hne, betweenTerm_nil]
  · rw [betweenTerm, count_eq, mul_eq_zero, or_iff_right (cast_length_pos hne).ne', square_eq,
      mul_self_eq_zero, sub_eq_zero, forall_prop_of_true hne]

/-- **Nothing lies between groups of one mean**, and only between those. -/
theorem sumsOfSquares_fst_eq_zero_iff {groups : List (List ℝ)} : (sumsOfSquares groups).1 = 0 ↔
    ∀ g ∈ groups, ∀ g' ∈ groups, g ≠ [] → g' ≠ [] → mean g = mean g' := by
  have hterm : ∀ centre, ((groups.map (betweenTerm centre)).sum = 0 ↔
      ∀ g ∈ groups, g ≠ [] → mean g = centre) := fun centre =>
    (sum_map_eq_zero_iff fun g _ => mul_nonneg (Nat.cast_nonneg _) (mul_self_nonneg _)).trans
      (forall₂_congr fun _ _ => betweenTerm_eq_zero_iff)
  rw [sumsOfSquares_fst, hterm]
  constructor
  · intro h g hg g' hg' hne hne'
    rw [h g hg hne, h g' hg' hne']
  · intro h g hg hne
    -- the squares about the common mean are those within groups, and the grand mean has the least
    have hzero := (hterm (mean g)).2 fun g' hg' hne' => h g' hg' g hg hne' hne
    have hleast : squaresAbout (mean groups.flatten) groups.flatten ≤
        squaresAbout (mean g) groups.flatten := by
      rw [squaresAbout_eq_add (mean g)]
      exact le_add_of_nonneg_right (mul_nonneg (Nat.cast_nonneg _) (mul_self_nonneg _))
    rw [← sumsOfSquares_add, squaresAbout_flatten, ← sumsOfSquares_snd, hzero, zero_add,
      add_le_iff_nonpos_left, sumsOfSquares_fst] at hleast
    refine (hterm _).1 (le_antisymm hleast ?_) g hg hne
    exact sumsOfSquares_fst groups ▸ sumsOfSquares_fst_nonneg groups

end Groups

section Correlation

theorem correlationStrength_nonneg (x y : List ℝ) : 0 ≤ correlationStrength x y := by
  rw [correlationStrength]
  cases correlation x y with
  | error err => exact numeral_zero.ge
  | ok r => exact abs_nonneg r

/-- **Only variables that vary, and vary together, have a strength.** -/
theorem correlationStrength_eq_zero_iff {x y : List ℝ} (h : x.length = y.length) :
    correlationStrength x y = 0 ↔ ¬ Varies x ∨ ¬ Varies y ∨ productSum x y = 0 := by
  by_cases hvaries : Varies x ∧ Varies y
  · obtain ⟨hx, hy⟩ := hvaries
    have hroot := (sqrt_squares_pos hx hy).ne'
    rw [correlationStrength, correlation_of_varies h hx hy]
    show |productMoment x y| = 0 ↔ _
    rw [abs_eq_zero, productMoment, div_eq_zero_iff, or_iff_left hroot,
      or_iff_right (not_not.2 hx), or_iff_right (not_not.2 hy)]
  · have hconstant : ¬ Varies x ∨ ¬ Varies y := not_and_or.1 hvaries
    obtain ⟨err, herror⟩ := (correlation_eq_error_iff h).2 hconstant
    rw [correlationStrength, herror, ← or_assoc, iff_true_right (.inl hconstant)]
    exact numeral_zero

end Correlation

section Tables

section Sums

variable {ι κ : Type} {f : ι → κ → ℝ} {rows : List ι} {cols : List κ}
  (h : ∀ row ∈ rows, ∀ col ∈ cols, 0 ≤ f row col)

include h

theorem tableSum_nonneg : 0 ≤ tableSum f rows cols :=
  List.sum_nonneg (List.forall_mem_map.2 fun row hrow =>
    List.sum_nonneg (List.forall_mem_map.2 (h row hrow)))

theorem tableSum_eq_zero_iff :
    tableSum f rows cols = 0 ↔ ∀ row ∈ rows, ∀ col ∈ cols, f row col = 0 :=
  (sum_map_eq_zero_iff fun row hrow => List.sum_nonneg (List.forall_mem_map.2 (h row hrow))).trans
    (forall₂_congr fun row hrow => sum_map_eq_zero_iff (h row hrow))

end Sums

variable (points : List (ℕ × ℕ))

theorem codedChiSquare_eq_expectedCount :
    codedChiSquare (points.map (·.1)) (points.map (·.2)) =
      tableSum (fun r c =>
        square (points.count (r, c) - expectedCount points r c) / expectedCount points r c)
        (occurring (points.map (·.1))) (occurring (points.map (·.2))) :=
  codedChiSquare_eq points

theorem chiSquareTerm_nonneg : ∀ r ∈ occurring (points.map (·.1)),
    ∀ c ∈ occurring (points.map (·.2)),
      0 ≤ square (points.count (r, c) - expectedCount points r c) / expectedCount points r c :=
  fun _ hr _ hc => div_nonneg (mul_self_nonneg _) (expectedCount_pos hr hc).le

theorem codedChiSquare_nonneg {rows cols : List ℕ} (h : rows.length = cols.length) :
    0 ≤ (codedChiSquare rows cols : ℝ) := by
  obtain ⟨points, rfl, rfl⟩ := exists_points h
  rw [codedChiSquare_eq_expectedCount]
  exact tableSum_nonneg (chiSquareTerm_nonneg points)

/-- A cell contributes nothing if it holds what is expected. -/
theorem chiSquareTerm_eq_zero_iff {r c : ℕ} (hr : r ∈ occurring (points.map (·.1)))
    (hc : c ∈ occurring (points.map (·.2))) :
    square (points.count (r, c) - expectedCount points r c) / expectedCount points r c = 0 ↔
      points.count (r, c) * points.length =
        points.countP (·.1 == r) * points.countP (·.2 == c) := by
  rw [div_eq_zero_iff, or_iff_left (expectedCount_pos hr hc).ne', square_eq, mul_self_eq_zero,
    sub_eq_zero, expectedCount, eq_div_iff (length_pos_of_occurring hr).ne']
  norm_cast

/-- **Only exactly independent codes have a statistic of zero.** -/
theorem codedChiSquare_eq_zero_iff :
    (codedChiSquare (points.map (·.1)) (points.map (·.2)) : ℝ) = 0 ↔ IndependentCodes points := by
  have hterms : (codedChiSquare (points.map (·.1)) (points.map (·.2)) : ℝ) = 0 ↔
      ∀ r ∈ occurring (points.map (·.1)), ∀ c ∈ occurring (points.map (·.2)),
        points.count (r, c) * points.length =
          points.countP (·.1 == r) * points.countP (·.2 == c) := by
    rw [codedChiSquare_eq_expectedCount, tableSum_eq_zero_iff (chiSquareTerm_nonneg points)]
    exact forall₂_congr fun r hr => forall₂_congr fun c hc => chiSquareTerm_eq_zero_iff points hr hc
  rw [hterms]
  refine ⟨fun h r c => ?_, fun h r _ c _ => h r c⟩
  -- a row or a column that does not occur is counted nowhere
  by_cases hr : r ∈ occurring (points.map (·.1))
  · by_cases hc : c ∈ occurring (points.map (·.2))
    · exact h r hr c hc
    · have hnone : points.count (r, c) = 0 := List.count_eq_zero.2 fun hmem =>
        hc (mem_occurring_iff.2 (List.mem_map_of_mem hmem))
      rw [← countP_code_pos_iff, not_lt, Nat.le_zero] at hc
      rw [hnone, hc, zero_mul, mul_zero]
  · have hnone : points.count (r, c) = 0 := List.count_eq_zero.2 fun hmem =>
      hr (mem_occurring_iff.2 (List.mem_map_of_mem hmem))
    rw [← countP_code_pos_iff, not_lt, Nat.le_zero] at hr
    rw [hnone, hr, zero_mul, zero_mul]

/-- On a table of counts, independence is that of the cells. -/
theorem independentCodes_expandTable_iff {f : ℕ → ℕ → ℕ} {m k : ℕ} :
    IndependentCodes (expandTable (countTable ℝ f (List.range m) (List.range k))) ↔
      ∀ r < m, ∀ c < k, f r c * tableTotal f (List.range m) (List.range k) =
        rowTotal f (List.range k) r * columnTotal f (List.range m) c := by
  rw [IndependentCodes, length_expandTable_countTable]
  constructor
  · intro h r hr c hc
    have hcell := h r c
    rwa [count_expandTable hr hc, countP_fst_expandTable hr, countP_snd_expandTable hc] at hcell
  · intro h r c
    by_cases hcell : r < m ∧ c < k
    · obtain ⟨hr, hc⟩ := hcell
      rw [count_expandTable hr hc, countP_fst_expandTable hr, countP_snd_expandTable hc,
        h r hr c hc]
    · -- beyond the table nothing is counted
      have hnone : (expandTable (countTable ℝ f (List.range m) (List.range k))).count (r, c) = 0 :=
        List.count_eq_zero.2 fun hmem => hcell (lt_of_mem_expandTable hmem)
      rw [hnone, zero_mul, eq_comm, mul_eq_zero, List.countP_eq_zero, List.countP_eq_zero]
      rw [not_and_or] at hcell
      refine hcell.imp (fun hr p hp heq => hr ?_) fun hc p hp heq => hc ?_
      · exact beq_iff_eq.1 heq ▸ (lt_of_mem_expandTable hp).1
      · exact beq_iff_eq.1 heq ▸ (lt_of_mem_expandTable hp).2

end Tables

/-! ### The p-value of the fallback -/

section Fallback

open PartialReal (value)

variable {σ : Type} (source : DrawSource σ) (start : σ) {resamples : ℕ} {s : Samples ℝ}
  {out : TestOutput ℝ}

/-- **No statistic that the fallback resamples is negative.** -/
theorem statistic_nonneg (s : Samples ℝ) :
    ∀ x y, x.length = y.length → 0 ≤ s.fallback.statistic x y := by
  cases s with
  | groups labels samples | paired labels samples => exact fun x y _ => codedBetween_nonneg x y
  | bivariate x y => exact fun x y _ => correlationStrength_nonneg x y
  | contingency rows cols table => exact fun x y h => codedChiSquare_nonneg h

/-- **The observed statistic is zero without any difference or dependence only.** -/
theorem observed_eq_zero_iff (h : s.fallback.first.length = s.fallback.second.length) :
    s.fallback.observed = 0 ↔ s.Unrelated := by
  cases s with
  | groups labels samples | paired labels samples =>
      have hgroups : (sumsOfSquares samples).1 = 0 ↔ _ := sumsOfSquares_fst_eq_zero_iff
      rw [← codedBetween_codedValues] at hgroups
      exact hgroups
  | bivariate x y => exact correlationStrength_eq_zero_iff h
  | contingency rows cols table => exact codedChiSquare_eq_zero_iff _

theorem drawn_nonneg (resamples : ℕ) (s : Samples ℝ) :
    ∀ v ∈ s.fallback.drawn source start resamples, 0 ≤ v :=
  forall_mem_resampled source (statistic_nonneg s) start _ _ resamples

/-- **Every resample is at least as extreme as a statistic of zero.** -/
theorem bootstrapOutput_zero_pValue {values : List ℝ} (hvalues : ∀ v ∈ values, 0 ≤ v)
    (hlength : values.length = resamples) :
    (bootstrapOutput 0 values resamples).pValue = 1 := by
  have hall : values.countP (fun v => decide (0 ≤ v)) = resamples :=
    (List.countP_eq_length.2 fun v hv => decide_eq_true (hvalues v hv)).trans hlength
  rw [bootstrapOutput_pValue hlength, hall, add_comm, div_self (Nat.cast_add_one_ne_zero resamples)]

variable {source start}

/-- The fallback gives the same answer in an arithmetic where a division by zero is undefined. -/
theorem runBootstrap_map_value (h : runBootstrap source start resamples s = .ok out) :
    runBootstrap source start resamples (s.map value) =
      .ok ⟨value out.statistic, value out.pValue, none⟩ := by
  obtain ⟨⟨hgroups, haligned, hlength, hresamples⟩, rfl⟩ := runBootstrap_eq_ok_iff.1 h
  have hmaps := PartialReal.fallback_map_value s
  obtain ⟨hfirst, hsecond⟩ := hmaps.length_eq
  refine runBootstrap_eq_ok_iff.2 ⟨⟨Samples.enoughGroups_map.2 hgroups, ?_, ?_, hresamples⟩, ?_⟩
  · rw [hfirst, hsecond, haligned]
  · rw [hfirst]
    exact hlength
  · rw [hmaps.observed_eq haligned, hmaps.drawn_eq, PartialReal.bootstrapOutput_map_value]
    rfl

/-- **The p-value of the fallback is a share of defined resamples.**  For all samples on which it can
be run, and for all draws, no resample divides by zero and no statistic is negative.  The p-value
counts the resamples that are at least as extreme as the samples, which count as one of them; it is
one if the statistic is zero, which it is exactly for samples without any difference or dependence.
-/
theorem runBootstrap_counts_extreme (h : runBootstrap source start resamples s = .ok out) :
    let values := s.fallback.drawn source start resamples
    (out.statistic = s.fallback.observed ∧ 0 ≤ out.statistic) ∧
    (values.length = resamples ∧ ∀ v ∈ values, 0 ≤ v) ∧
    (runBootstrap source start resamples (s.map value) =
        .ok ⟨value out.statistic, value out.pValue, none⟩ ∧
      (s.map value).fallback.drawn source start resamples = values.map value) ∧
    (∃ m ≤ resamples, m = values.countP (fun v => decide (out.statistic ≤ v)) ∧
      out.pValue = (1 + m) / (resamples + 1)) ∧
    (out.statistic = 0 ↔ s.Unrelated) ∧
    (out.statistic = 0 → out.pValue = 1) := by
  intro values
  have hvalue := runBootstrap_map_value h
  obtain ⟨⟨-, haligned, hlength, -⟩, rfl⟩ := runBootstrap_eq_ok_iff.1 h
  have hsecond : 0 < s.fallback.second.length := haligned ▸ Nat.zero_lt_of_lt hlength
  have hdrawn : values.length = resamples :=
    length_resampled source (Nat.zero_lt_of_lt hlength) hsecond start resamples
  have hnonneg := drawn_nonneg source start resamples s
  have hobserved : 0 ≤ s.fallback.observed := statistic_nonneg s _ _ haligned
  refine ⟨⟨rfl, hobserved⟩, ⟨hdrawn, hnonneg⟩,
    ⟨hvalue, (PartialReal.fallback_map_value s).drawn_eq source start resamples⟩,
    ⟨_, hdrawn ▸ List.countP_le_length, rfl, bootstrapOutput_pValue hdrawn⟩,
    observed_eq_zero_iff haligned, fun hzero => ?_⟩
  have hzero : s.fallback.observed = 0 := hzero
  rw [hzero]
  exact bootstrapOutput_zero_pValue hnonneg hdrawn

/-- Two groups of one value each, resampled twice.  The first resample has the first value of the
first group only: it misses a group and does not vary.  The second one repeats the samples. -/
theorem runBootstrap_of_missed_group :
    let source := DrawSource.ofSequence fun i n h =>
      if i < 6 then ⟨0, h⟩ else ⟨n - 1, Nat.sub_lt h one_pos⟩
    let s : Samples ℝ := .groups ["a", "b"] [[1], [3]]
    s.fallback.drawn source 0 2 = [0, 2] ∧
      runBootstrap source 0 2 s = .ok ⟨2, 2 / 3, none⟩ ∧
      runBootstrap source 0 2 (s.map value) = .ok ⟨value 2, value (2 / 3), none⟩ := by
  intro source s
  have hdrawn : s.fallback.drawn source 0 2 =
      [codedBetween [0, 0] [1, 1], codedBetween [0, 1] [1, 3]] := rfl
  have hmissed : (codedBetween [0, 0] [1, 1] : ℝ) = 0 := by
    refine (codedBetween_codedValues [[1, 1]]).trans ?_
    norm_num [sumsOfSquares_fst, betweenTerm, mean_eq, square_eq]
  have hrepeated : (codedBetween [0, 1] [1, 3] : ℝ) = 2 := by
    refine (codedBetween_codedValues [[1], [3]]).trans ?_
    norm_num [sumsOfSquares_fst, betweenTerm, mean_eq, square_eq]
  rw [hmissed, hrepeated] at hdrawn
  have hobserved : s.fallback.observed = 2 := hrepeated
  obtain ⟨out, hout⟩ : ∃ out, runBootstrap source 0 2 s = .ok out :=
    ⟨_, runBootstrap_eq_ok_iff.2 ⟨⟨le_refl 2, rfl, le_refl 2, two_ne_zero⟩, rfl⟩⟩
  obtain ⟨⟨hstatistic, -⟩, -, ⟨hpartial, -⟩, ⟨m, -, hm, hp⟩, -, -⟩ :=
    runBootstrap_counts_extreme hout
  rw [hobserved] at hstatistic
  have hcount : m = 1 := by
    rw [hm, hdrawn, hstatistic]
    norm_num [List.countP_cons]
  have hpValue : out.pValue = 2 / 3 := by
    rw [hp, hcount]
    norm_num
  have hall : out = ⟨out.statistic, out.pValue, out.df⟩ := rfl
  rw [hstatistic, hpValue, df_of_runBootstrap hout] at hall
  rw [hstatistic, hpValue] at hpartial
  exact ⟨hdrawn, hout.trans (congrArg Except.ok hall), hpartial⟩

end Fallback

end Exact

end StudyAnalysis
