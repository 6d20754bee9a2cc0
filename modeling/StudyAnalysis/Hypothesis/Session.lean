/-
**Sessions.**

A session collects the results of several hypotheses and corrects them once, when it is finished,
for the number of comparisons made.

Main definitions:

* `StudyAnalysis.Session` — settings and results so far;
* `StudyAnalysis.Session.hypothesize` — the results of one more hypothesis;
* `StudyAnalysis.Session.finish` — the corrected results.
-/

import StudyAnalysis.Hypothesis.Evaluation

set_option autoImplicit false
set_option relaxedAutoImplicit false

namespace StudyAnalysis

/-- A session. -/
structure Session (α : Type) where
  settings : Settings α
  /-- The results so far, none of which is adjusted. -/
  results : List (TestResult α)

namespace Session

variable {α : Type} [Numeric α]

/-- A session without results; the settings have to be valid. -/
def start (settings : Settings α) : Except (AnalysisError α) (Session α) := do
  settings.validate
  return ⟨settings, []⟩

/-- What a hypothesis evaluates to on its own. -/
def outcome [Tails α] [NumberText α] (s : Session α) (d : Dataset α) (e : Expression α)
    (design : Design α) (declared : Declared) : Except (AnalysisError α) (List (TestResult α)) := do
  let value ← evaluate d ⟨s.settings, some design, declared⟩ e
  match value.results? with
  | some results => return results
  | none => throw (.malformedRelation e.toText .notHypothesis)

/-- The new results of a hypothesis, and the session that also holds them.  A hypothesis that fails
leaves the session as it was. -/
def hypothesize [Tails α] [NumberText α] (s : Session α) (d : Dataset α) (e : Expression α)
    (design : Design α) (declared : Declared) :
    Except (AnalysisError α) (List (TestResult α)) × Session α :=
  match s.outcome d e design declared with
  | .ok results => (.ok results, { s with results := s.results ++ results })
  | .error fault => (.error fault, s)

/-- The results of the session; if there are several, each p-value is divided by their number. -/
def finish (s : Session α) : Except (AnalysisError α) (List (TestResult α)) :=
  if 1 < s.results.length then s.results.mapM fun r => do
    let (answer, adjusted) := r.adjust (Numeric.count s.results)
    answer
    return adjusted
  else .ok s.results

end Session

end StudyAnalysis
