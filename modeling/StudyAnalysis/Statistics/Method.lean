/-
**The tests that the library can run.**

Main definitions:

* `StudyAnalysis.TestMethod` — the thirteen tests of the catalog and the resampling fallback;
* `StudyAnalysis.TestMethod.catalog` — the tests of the catalog, in the order that breaks ties;
* `StudyAnalysis.TestMethod.name`, `StudyAnalysis.TestMethod.identifier` — how a test is called in
  reports and in documents.
-/

set_option autoImplicit false
set_option relaxedAutoImplicit false

namespace StudyAnalysis

/-- A statistical test. -/
inductive TestMethod
  /-- Student's t-test of two independent groups. -/
  | studentsT
  /-- The t-test of two independent groups whose variances may differ. -/
  | welchT
  /-- The rank-sum test of two independent groups. -/
  | mannWhitneyU
  /-- The t-test of paired differences. -/
  | pairedT
  /-- The signed-rank test of paired differences. -/
  | wilcoxonSignedRank
  /-- The analysis of variance of independent groups. -/
  | oneWayAnova
  /-- The rank analysis of variance of independent groups. -/
  | kruskalWallis
  /-- The rank analysis of variance of related groups. -/
  | friedman
  /-- The product-moment correlation. -/
  | pearson
  /-- The correlation of ranks. -/
  | spearman
  /-- The correlation of orders. -/
  | kendallTau
  /-- The chi-square test of a contingency table. -/
  | chiSquare
  /-- The exact test of a contingency table of two rows and two columns. -/
  | fisherExact
  /-- The resampling test, which relies on nothing. -/
  | bootstrap
  deriving DecidableEq

namespace TestMethod

/-- The tests that are regular candidates, in the order that breaks ties. -/
def catalog : List TestMethod := [
  studentsT, welchT, mannWhitneyU, pairedT, wilcoxonSignedRank, oneWayAnova, kruskalWallis,
  friedman, pearson, spearman, kendallTau, chiSquare, fisherExact]

/-- The catalog holds every test but the resampling fallback. -/
theorem mem_catalog_iff (m : TestMethod) : m ∈ catalog ↔ m ≠ bootstrap := by
  cases m <;> decide

/-- The name of a test in reports. -/
def name : TestMethod → String
  | studentsT => "Student's t-test"
  | welchT => "Welch's t-test"
  | mannWhitneyU => "Mann-Whitney U test"
  | pairedT => "Paired t-test"
  | wilcoxonSignedRank => "Wilcoxon signed-rank test"
  | oneWayAnova => "One-way ANOVA"
  | kruskalWallis => "Kruskal-Wallis H test"
  | friedman => "Friedman test"
  | pearson => "Pearson correlation"
  | spearman => "Spearman rank correlation"
  | kendallTau => "Kendall's tau"
  | chiSquare => "Chi-square test of independence"
  | fisherExact => "Fisher's exact test"
  | bootstrap => "Bootstrap test"

/-- The word for a test in documents. -/
def identifier : TestMethod → String
  | studentsT => "students_t"
  | welchT => "welch_t"
  | mannWhitneyU => "mann_whitney_u"
  | pairedT => "paired_t"
  | wilcoxonSignedRank => "wilcoxon_signed_rank"
  | oneWayAnova => "one_way_anova"
  | kruskalWallis => "kruskal_wallis"
  | friedman => "friedman"
  | pearson => "pearson"
  | spearman => "spearman"
  | kendallTau => "kendall_tau"
  | chiSquare => "chi_square"
  | fisherExact => "fisher_exact"
  | bootstrap => "bootstrap"

/-- The test that a word stands for. -/
def ofIdentifier? (word : String) : Option TestMethod :=
  (catalog ++ [bootstrap]).find? fun m => m.identifier == word

/-- A test is found by its own word. -/
theorem ofIdentifier?_identifier (m : TestMethod) : ofIdentifier? m.identifier = some m := by
  cases m <;> decide

end TestMethod

end StudyAnalysis
