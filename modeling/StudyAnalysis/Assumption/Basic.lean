/-
**Assumptions that tests rely on, and sets of them.**

Main definitions:

* `StudyAnalysis.Assumption` — the sixteen propositions;
* `StudyAnalysis.Assumption.all` — their order in every report;
* `StudyAnalysis.AssumptionSet` — sets of propositions, with the usual operations;
* `StudyAnalysis.AssumptionSet.parse` — the set of a list of names.

Main results:

* `StudyAnalysis.AssumptionSet.mem_union`, `StudyAnalysis.AssumptionSet.mem_inter`,
  `StudyAnalysis.AssumptionSet.mem_sdiff` — membership in the sets that the operations yield.
-/

import StudyAnalysis.Text.Blank
import StudyAnalysis.Text.LetterCase

set_option autoImplicit false
set_option relaxedAutoImplicit false

namespace StudyAnalysis

/-- A proposition about a comparison that makes tests valid. -/
inductive Assumption
  | independentObservations
  | normalDistribution
  | normalDifferences
  | symmetricDifferences
  | equalVariances
  | largeSampleSize
  | valuesAreFrequencies
  | pairedObservations
  | noOutliers
  | noOutliersInDifferences
  | linearRelationship
  | bivariateNormal
  | relatedSamples
  | monotonicRelationship
  | allContinuousOrOrdinal
  | dvContinuousOrOrdinal
  deriving DecidableEq

namespace Assumption

/-- All propositions, in the order in which they are reported. -/
def all : List Assumption := [
  independentObservations, normalDistribution, normalDifferences, symmetricDifferences,
  equalVariances, largeSampleSize, valuesAreFrequencies, pairedObservations, noOutliers,
  noOutliersInDifferences, linearRelationship, bivariateNormal, relatedSamples,
  monotonicRelationship, allContinuousOrOrdinal, dvContinuousOrOrdinal]

theorem mem_all (a : Assumption) : a ∈ all := by
  cases a <;> decide

theorem nodup_all : all.Nodup := by
  decide

/-- The name of a proposition in documents. -/
def name : Assumption → String
  | independentObservations => "independent_observations"
  | normalDistribution => "normal_distribution"
  | normalDifferences => "normal_differences"
  | symmetricDifferences => "symmetric_differences"
  | equalVariances => "equal_variances"
  | largeSampleSize => "large_sample_size"
  | valuesAreFrequencies => "values_are_frequencies"
  | pairedObservations => "paired_observations"
  | noOutliers => "no_outliers"
  | noOutliersInDifferences => "no_outliers_in_differences"
  | linearRelationship => "linear_relationship"
  | bivariateNormal => "bivariate_normal"
  | relatedSamples => "related_samples"
  | monotonicRelationship => "monotonic_relationship"
  | allContinuousOrOrdinal => "all_continuous_or_ordinal"
  | dvContinuousOrOrdinal => "dv_continuous_or_ordinal"

/-- The sentence that explains a proposition to the reader of a report. -/
def explanation : Assumption → String
  | independentObservations => "Assumes independent observations."
  | normalDistribution => "Assumes samples are normally distributed."
  | normalDifferences => "Assumes difference between paired values is normally distributed."
  | symmetricDifferences =>
    "Assumes difference between paired values is symmetrically distributed."
  | equalVariances => "Assumes samples have similar variances."
  | largeSampleSize => "Assumes a large enough sample size."
  | valuesAreFrequencies => "Assumes values are frequencies (and not, e.g., percentages)."
  | pairedObservations => "Assumes observations are paired (e.g. within subjects)."
  | noOutliers => "Assumes there are no outliers in the data."
  | noOutliersInDifferences =>
    "Assumes there are no outliers in the difference between paired values."
  | linearRelationship => "Assumes there is a linear relationship between the variables."
  | bivariateNormal => "Assumes the two variables have a bivariate normal distribution."
  | relatedSamples =>
    "Assumes the samples come from related sources (e.g. within subjects)."
  | monotonicRelationship => "Assumes there is a monotonic relationship between the variables."
  | allContinuousOrOrdinal => "Assumes all variables are continuous or ordinal."
  | dvContinuousOrOrdinal => "Assumes the dependent variable is continuous or ordinal."

/-- A name in capitals, with underscores for spaces and hyphens and without the blanks around it. -/
def canonical (word : String) : List Char :=
  (Text.toCapitals (Text.trimmed word.toList)).map fun c => if c = ' ' ∨ c = '-' then '_' else c

/-- The proposition that a name stands for, in any case and with spaces or hyphens for
underscores. -/
def ofName? (word : String) : Option Assumption :=
  all.find? fun a => Text.toCapitals a.name.toList == canonical word

end Assumption

/-! ### Sets of propositions -/

/-- A set of propositions, given by its members. -/
structure AssumptionSet where
  has : Assumption → Bool

namespace AssumptionSet

instance : Membership Assumption AssumptionSet := ⟨fun s a => s.has a = true⟩

instance (a : Assumption) (s : AssumptionSet) : Decidable (a ∈ s) :=
  inferInstanceAs (Decidable (s.has a = true))

@[simp] theorem has_eq_true {s : AssumptionSet} {a : Assumption} : s.has a = true ↔ a ∈ s :=
  Iff.rfl

@[ext] theorem ext {s t : AssumptionSet} (h : ∀ a, a ∈ s ↔ a ∈ t) : s = t := by
  cases s; cases t
  congr
  funext a
  exact Bool.eq_iff_iff.2 (h a)

/-- The set without members. -/
def empty : AssumptionSet := ⟨fun _ => false⟩

instance : EmptyCollection AssumptionSet := ⟨empty⟩

/-- The set of all propositions. -/
def univ : AssumptionSet := ⟨fun _ => true⟩

instance : Singleton Assumption AssumptionSet := ⟨fun a => ⟨fun b => b == a⟩⟩

/-- The set of the members of a list. -/
def ofList (as : List Assumption) : AssumptionSet := ⟨fun a => as.contains a⟩

instance : Union AssumptionSet := ⟨fun s t => ⟨fun a => s.has a || t.has a⟩⟩

instance : Inter AssumptionSet := ⟨fun s t => ⟨fun a => s.has a && t.has a⟩⟩

instance : SDiff AssumptionSet := ⟨fun s t => ⟨fun a => s.has a && !t.has a⟩⟩

@[simp] theorem not_mem_empty (a : Assumption) : ¬a ∈ (∅ : AssumptionSet) :=
  Bool.false_ne_true

@[simp] theorem mem_univ (a : Assumption) : a ∈ univ := rfl

@[simp] theorem mem_singleton (a b : Assumption) : b ∈ ({a} : AssumptionSet) ↔ b = a :=
  beq_iff_eq

@[simp] theorem mem_ofList (as : List Assumption) (a : Assumption) : a ∈ ofList as ↔ a ∈ as :=
  List.contains_iff_mem

@[simp] theorem mem_union (s t : AssumptionSet) (a : Assumption) :
    a ∈ s ∪ t ↔ a ∈ s ∨ a ∈ t :=
  Bool.or_eq_true _ _ ▸ Iff.rfl

@[simp] theorem mem_inter (s t : AssumptionSet) (a : Assumption) :
    a ∈ s ∩ t ↔ a ∈ s ∧ a ∈ t :=
  Bool.and_eq_true _ _ ▸ Iff.rfl

@[simp] theorem mem_sdiff (s t : AssumptionSet) (a : Assumption) :
    a ∈ s \ t ↔ a ∈ s ∧ ¬a ∈ t := by
  show (s.has a && !t.has a) = true ↔ s.has a = true ∧ ¬t.has a = true
  rw [Bool.and_eq_true, Bool.not_eq_true', Bool.not_eq_true]

instance : HasSubset AssumptionSet := ⟨fun s t => ∀ a, a ∈ s → a ∈ t⟩

/-- The members of a set, in the order in which they are reported. -/
def members (s : AssumptionSet) : List Assumption :=
  Assumption.all.filter s.has

@[simp] theorem mem_members (s : AssumptionSet) (a : Assumption) : a ∈ s.members ↔ a ∈ s := by
  simp [members, Assumption.mem_all]

instance (s t : AssumptionSet) : Decidable (s ⊆ t) :=
  decidable_of_iff (∀ a ∈ s.members, a ∈ t)
    ⟨fun h a ha => h a ((mem_members s a).2 ha), fun h a ha => h a ((mem_members s a).1 ha)⟩

/-- Whether the set has no members. -/
def isEmpty (s : AssumptionSet) : Bool :=
  s.members.isEmpty

/-- The number of members. -/
def size (s : AssumptionSet) : Nat :=
  s.members.length

/-- The number whose binary digits tell the members, the first proposition by the last digit. -/
def bits (s : AssumptionSet) : Nat :=
  Assumption.all.foldr (fun a n => 2 * n + (if a ∈ s then 1 else 0)) 0

/-- The names of the members. -/
def names (s : AssumptionSet) : List String :=
  s.members.map Assumption.name

/-- The explanations of the members. -/
def explanations (s : AssumptionSet) : List String :=
  s.members.map Assumption.explanation

/-- The names of the members in one line. -/
def toText (s : AssumptionSet) : String :=
  if s.isEmpty then "(none)" else ", ".intercalate s.names

/-- The set of a list of names, or the first name that is not one of a proposition. -/
def parse (words : List String) : Except String AssumptionSet :=
  words.foldlM
    (fun s word => match Assumption.ofName? word with
      | some a => .ok (s ∪ {a})
      | none => .error word)
    ∅

end AssumptionSet

end StudyAnalysis
