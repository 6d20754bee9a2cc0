/-
**Computing the properties of comparisons.**

The variables of a hypothesis get their roles from the design.  Every explaining variable is
compared with every explained one; two variables without roles are compared in their order.  The
scales of the two variables decide the layout of the comparison.

Main definitions:

* `StudyAnalysis.AnnotatedVariable` — a bound variable with its role;
* `StudyAnalysis.Layout` — how two variables are compared;
* `StudyAnalysis.alignPaired` — related groups, aligned by participant;
* `StudyAnalysis.pairProperties` — the properties of one comparison;
* `StudyAnalysis.combine` — the properties of all comparisons of some variables.
-/

import StudyAnalysis.Hypothesis.Binding
import StudyAnalysis.Selection.PairProperties
import StudyAnalysis.Statistics.Frequencies
import StudyAnalysis.Statistics.Normality
import StudyAnalysis.Study.Design

set_option autoImplicit false
set_option relaxedAutoImplicit false

namespace StudyAnalysis

/-- A bound variable with its role and its properties. -/
structure AnnotatedVariable (α : Type) where
  binding : Binding α
  var : Variable
  role : Role
  properties : VariableProperties α

variable {α : Type} [Numeric α] [Tails α]

/-- The numbers by which the cells of a binding are ordered. -/
def orderKeys (b : Binding α) (v : Variable) : List α :=
  b.values.filterMap v.orderKey

/-- The properties of one variable. -/
def variableProperties (b : Binding α) (v : Variable) : VariableProperties α :=
  if v.scale.isContinuous then
    let xs := orderKeys b v
    ⟨xs.length, (normalTest xs).toOption, some (variance xs), none⟩
  else ⟨b.entries.length, none, none, some v.labels.length⟩

/-- A binding with the role of its variable in a study; a literal has no role. -/
def annotate (d : Design α) (kind : StudyKind) (b : Binding α) :
    Except (AnalysisError α) (AnnotatedVariable α) :=
  match b.var with
  | some v => .ok ⟨b, v, d.roleOf kind v.name, variableProperties b v⟩
  | none => .error .literalUnsupported

/-! ### Layouts -/

/-- How two variables are compared. -/
inductive Layout (α : Type)
  | groups (factor outcome : AnnotatedVariable α)
  | correlation
  | contingency

/-- The layout of a comparison.  An ordinal variable that explains a number is a factor in an
experiment, and is correlated with it otherwise. -/
def layoutOf (kind : StudyKind) (e r : AnnotatedVariable α) : Layout α :=
  match e.var.scale, r.var.scale with
  | .nominal, .nominal | .ordinal, .nominal => .contingency
  | .nominal, _ => .groups e r
  | .interval, .nominal | .ratio, .nominal => .groups r e
  | .ordinal, .interval | .ordinal, .ratio =>
    match kind with
    | .experiment => .groups e r
    | .observational => .correlation
  | _, _ => .correlation

/-- The properties that do not depend on the layout. -/
def baseProperties (e r : AnnotatedVariable α) : PairProperties α where
  explanatory := e.var.name
  response := r.var.name
  shape := .correlation
  samples := .bivariate [] []
  paired := none
  dvScale := r.var.scale
  allRankable := e.var.scale.isRankable && r.var.scale.isRankable
  sampleSizes := ∅
  normality := ∅
  equalVariance := none
  outliers := none
  differenceNormality := none
  differenceSymmetry := none
  differenceOutliers := none
  minExpectedCount := none
  variableProperties := .ofList [(e.var.name, e.properties), (r.var.name, r.properties)]

/-! ### Groups -/

/-- The outcome of some rows by row. -/
abbrev RowValues (α : Type) := List (Nat × α)

omit [Tails α] in
/-- The outcome at the rows of a factor that have the given label. -/
def groupRows (d : Dataset α) (factor outcome : AnnotatedVariable α) (label : String) :
    Except (AnalysisError α) (RowValues α) := do
  let series ← d.select outcome.var.name [⟨factor.var.name, .eq, .text label⟩]
  let bound := series.filter fun (row, _) => factor.binding.rows.contains row
  return bound.filterMap fun (row, cell) => (outcome.var.orderKey cell).map (row, ·)

omit [Tails α] in
/-- The groups of a factor that have observations, with their labels, in the order of the labels. -/
def groupsOf (d : Dataset α) (factor outcome : AnnotatedVariable α) :
    Except (AnalysisError α) (List (String × RowValues α)) := do
  let groups ← factor.var.labels.mapM fun label =>
    return (label, ← groupRows d factor outcome label)
  return groups.filter fun (_, cells) => !cells.isEmpty

omit [Numeric α] [Tails α] in
/-- The values of a group with the text that identifies the participant of each. -/
def identified [NumberText α] (d : Dataset α) (group : RowValues α) : List (String × α) :=
  group.filterMap fun (row, x) => (d.keyValue row).map fun id => (id.toText, x)

/-- The participants of the first group who occur in all groups, each once, in the order of their
first rows. -/
def participants (groups : List (List (String × α))) : List String :=
  ((groups.headD []).map (·.1)).eraseDups.filter fun id =>
    groups.all fun g => (NameMap.find id g).isSome

omit [Tails α] in
/-- Related groups with one participant at the same place of all of them.  By the key of the dataset
every participant counts with the first row in each group; without a key the groups must be equally
large and are taken as they are. -/
def alignPaired [NumberText α] (d : Dataset α) (factor : String)
    (groups : List (RowValues α)) : Except (AnalysisError α) (List (List α)) :=
  match d.key with
  | none =>
    let sizes := groups.map List.length
    if sizes.all (· == sizes.headD 0) then .ok (groups.map fun g => g.map (·.2))
    else .error (.invalidDesign (.unequalGroups factor sizes))
  | some _ =>
    let byId := groups.map (identified d)
    let ids := participants byId
    .ok (byId.map fun g => ids.filterMap (NameMap.find · g))

omit [Tails α] in
/-- The samples of some groups; related groups are aligned. -/
def groupSamples [NumberText α] (d : Dataset α) (factor : String) (paired : Bool)
    (groups : List (RowValues α)) : Except (AnalysisError α) (List (List α)) :=
  if paired then alignPaired d factor groups
  else .ok (groups.map fun cells => cells.map (·.2))

/-- The properties of labelled samples of an outcome. -/
def sampledProperties (outcome : Variable) (paired : Bool) (labels : List String)
    (samples : List (List α)) (base : PairProperties α) : PairProperties α :=
  let continuous := outcome.scale.isContinuous
  let check (sample : List α) := if continuous then (normalTest sample).toOption else none
  let spread := continuous && 2 ≤ samples.length
  let differences := match samples with
    | [a, b] => if paired then (differences a b).toOption else none
    | _ => none
  { base with
    shape := .groupComparison labels.length paired
    samples := if paired then .paired labels samples else .groups labels samples
    sampleSizes := .ofList (labels.zip (samples.map List.length))
    normality := .ofList (labels.zip (samples.map check))
    equalVariance := if spread then (levene samples).toOption else none
    outliers := if spread then some ((samples.map tukeyOutliers).foldl (· + ·) 0) else none
    differenceNormality := differences.bind check
    differenceSymmetry := differences.bind fun diffs => (skewTest diffs).toOption
    differenceOutliers := differences.map tukeyOutliers }

/-- The properties of a comparison of groups. -/
def groupProperties [NumberText α] (d : Dataset α) (factor outcome : AnnotatedVariable α)
    (paired : Bool) (base : PairProperties α) : Except (AnalysisError α) (PairProperties α) := do
  let groups ← groupsOf d factor outcome
  let samples ← groupSamples d factor.var.name paired (groups.map (·.2))
  return sampledProperties outcome.var paired (groups.map (·.1)) samples base

/-! ### Correlations -/

/-- The numbers of two variables at the rows where both are bound. -/
def alignedKeys (e r : AnnotatedVariable α) : List (α × α) :=
  e.binding.entries.filterMap fun (row, cell) => do
    let x ← e.var.orderKey cell
    let y ← r.var.orderKey (← r.binding.cellAt row)
    return (x, y)

/-- The properties of a correlation. -/
def correlationProperties (e r : AnnotatedVariable α) (base : PairProperties α) :
    PairProperties α :=
  let points := alignedKeys e r
  let x := points.map (·.1)
  let y := points.map (·.2)
  let check (v : Variable) (sample : List α) :=
    if v.scale.isContinuous then (normalTest sample).toOption else none
  { base with
    shape := .correlation
    samples := .bivariate x y
    sampleSizes := .ofList [(e.var.name, x.length), (r.var.name, y.length)]
    normality := .ofList [(e.var.name, check e.var x), (r.var.name, check r.var y)]
    outliers :=
      if e.var.scale.isContinuous && r.var.scale.isContinuous then
        some (tukeyOutliers x + tukeyOutliers y)
      else none }

/-! ### Contingency tables -/

/-- The ranks of the labels of two variables at the rows where both are bound. -/
def alignedRanks (e r : AnnotatedVariable α) : List (Nat × Nat) :=
  e.binding.entries.filterMap fun (row, cell) => do
    let i ← e.var.rankOf (← cell.text?)
    let j ← r.var.rankOf (← (← r.binding.cellAt row).text?)
    return (i, j)

/-- The labels of a variable whose ranks occur in a list, with their ranks. -/
def occurringLabels (v : Variable) (ranks : List Nat) : List (String × Nat) :=
  (v.labels.zipIdx 1).filter fun (_, rank) => ranks.contains rank

/-- The least of some numbers. -/
def least? : List α → Option α
  | [] => none
  | x :: xs => some (xs.foldl (fun best y => if Numeric.totalLe best y then best else y) x)

/-- The properties of a cross-tabulation; labels without observations have no row or column. -/
def contingencyProperties (e r : AnnotatedVariable α) (base : PairProperties α) :
    PairProperties α :=
  let observed := alignedRanks e r
  let rows := occurringLabels e.var (observed.map (·.1))
  let cols := occurringLabels r.var (observed.map (·.2))
  let table := rows.map fun (_, i) => cols.map fun (_, j) =>
    (Numeric.ofNat (observed.count (i, j)) : α)
  { base with
    shape := .contingency rows.length cols.length
    samples := .contingency (rows.map (·.1)) (cols.map (·.1)) table
    sampleSizes := .ofList [(e.var.name, observed.length), (r.var.name, observed.length)]
    minExpectedCount := least? (expectedCounts table).flatten }

/-! ### All comparisons -/

/-- The properties of a comparison of two variables.  Without roles it is not known whether the
comparison is within subjects. -/
def pairProperties [NumberText α] (d : Dataset α) (design : Design α) (kind : StudyKind)
    (hasRoles : Bool) (e r : AnnotatedVariable α) :
    Except (AnalysisError α) (PairProperties α) :=
  let within (v : AnnotatedVariable α) : Option Bool :=
    if hasRoles then some (design.isWithinSubjects v.var.name) else none
  let base := baseProperties e r
  match layoutOf kind e r with
  | .groups factor outcome =>
    let paired := within factor
    groupProperties d factor outcome (paired.getD false)
      { base with paired, dvScale := outcome.var.scale }
  | .correlation => .ok (correlationProperties e r { base with paired := within e })
  | .contingency => .ok (contingencyProperties e r { base with paired := within e })

/-- The variables of a hypothesis with their roles, and the properties of their comparisons. -/
structure Combination (α : Type) where
  kind : StudyKind
  vars : List (AnnotatedVariable α)
  pairs : List (PairProperties α)

/-- Every explaining variable with every explained one. -/
def rolePairs (vars : List (AnnotatedVariable α)) :
    List (AnnotatedVariable α × AnnotatedVariable α) :=
  let responses := vars.filter (·.role.isResponse)
  (vars.filter (·.role.isExplanatory)).flatMap fun e => responses.map (e, ·)

/-- The comparisons of some variables; two variables without roles are compared in their order. -/
def comparisons (vars : List (AnnotatedVariable α)) :
    Except (AnalysisError α) (Bool × List (AnnotatedVariable α × AnnotatedVariable α)) :=
  match rolePairs vars, vars with
  | [], [first, second] => .ok (false, [(first, second)])
  | [], _ => .error (.invalidDesign (.noPair (vars.map (·.var.name))))
  | pairs, _ => .ok (true, pairs)

/-- The properties of all comparisons of some bound variables under a design. -/
def combine [NumberText α] (d : Dataset α) (bindings : List (Binding α)) (design : Design α) :
    Except (AnalysisError α) (Combination α) := do
  let kind ← design.resolve
  let vars ← bindings.mapM (annotate design kind)
  let (hasRoles, compared) ← comparisons vars
  let pairs ← compared.mapM fun (e, r) => pairProperties d design kind hasRoles e r
  return ⟨kind, vars, pairs⟩

end StudyAnalysis
