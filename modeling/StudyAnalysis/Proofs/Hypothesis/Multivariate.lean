/-
**A hypothesis about many variables is that of its pairs.**

A hypothesis over plain variables compares every explaining variable with every explained one.  This
module says that each of these comparisons is made as if its two variables were the only ones: the
hypothesis has the results of its pairs, in the order of the variables, and variables without a role
change nothing.

Main definitions:

* `StudyAnalysis.Column.bound`, `StudyAnalysis.Column.annotated` — a whole column as an operand, and
  with its role;
* `StudyAnalysis.columnPairs` — the columns that are compared with each other;
* `StudyAnalysis.compareColumns` — the result of one comparison, from its two columns.

Main results:

* `StudyAnalysis.evaluate_columns` — what a hypothesis over plain variables computes;
* `StudyAnalysis.evaluate_columns_eq_ok_iff`, `StudyAnalysis.evaluate_pair_eq_ok_iff` — its results,
  for many variables and for two;
* `StudyAnalysis.evaluate_columns_filter` — variables without a role change nothing;
* `StudyAnalysis.evaluate_multivariate` — **the results for many variables are those of the pairs**.
-/

import Mathlib.Data.List.ProdSigma
import StudyAnalysis.Proofs.Hypothesis.RowRestriction

set_option autoImplicit false
set_option relaxedAutoImplicit false

namespace StudyAnalysis

open Fallible

variable {α : Type}

/-! ### Roles and pairs -/

/-- What explains is not explained. -/
theorem Role.isResponse_eq_false {role : Role} (h : role.isExplanatory = true) :
    role.isResponse = false := by
  cases role <;> first | rfl | cases h

/-- Pairs of images are images of pairs. -/
theorem product_map {β γ : Type} (f : β → γ) (xs ys : List β) :
    xs.map f ×ˢ ys.map f = (xs ×ˢ ys).map (Prod.map f f) := by
  simp [SProd.sprod, List.product, List.flatMap_map, List.map_flatMap, Function.comp_def]

/-- With something that explains and something that is explained, there are pairs. -/
theorem comparisons_eq_ok {vars : List (AnnotatedVariable α)} (h : rolePairs vars ≠ []) :
    comparisons vars = .ok (true, rolePairs vars) := by
  rw [comparisons.eq_def]
  split
  · contradiction
  · contradiction
  · rfl

/-- The columns that explain with those that are explained. -/
def columnPairs (design : Design α) (study : StudyKind) (cols : List (Column α)) :
    List (Column α × Column α) :=
  cols.filter (fun c => (design.roleOf study c.var.name).isExplanatory) ×ˢ
    cols.filter (fun c => (design.roleOf study c.var.name).isResponse)

section Pairs

variable {design : Design α} {study : StudyKind} {cols : List (Column α)} {e r : Column α}

theorem mem_columnPairs :
    (e, r) ∈ columnPairs design study cols ↔
      (e ∈ cols ∧ (design.roleOf study e.var.name).isExplanatory = true) ∧
        r ∈ cols ∧ (design.roleOf study r.var.name).isResponse = true := by
  rw [columnPairs, List.mem_product, List.mem_filter, List.mem_filter]

/-- The names of the columns that are compared are the pairs of the names. -/
theorem map_names_columnPairs :
    (columnPairs design study cols).map (Prod.map (·.var.name) (·.var.name)) =
      (cols.map (·.var.name)).filter (fun name => (design.roleOf study name).isExplanatory) ×ˢ
        (cols.map (·.var.name)).filter (fun name => (design.roleOf study name).isResponse) := by
  rw [List.filter_map, List.filter_map, product_map]
  rfl

/-- One column that explains and one that is explained are the only pair of themselves. -/
theorem columnPairs_pair (he : (design.roleOf study e.var.name).isExplanatory = true)
    (hr : (design.roleOf study r.var.name).isResponse = true) :
    columnPairs design study [e, r] = [(e, r)] := by
  have hr' : (design.roleOf study r.var.name).isExplanatory = false := by
    by_contra htrue
    rw [Bool.not_eq_false] at htrue
    rw [Role.isResponse_eq_false htrue] at hr
    cases hr
  simp [columnPairs, he, hr, hr', Role.isResponse_eq_false he, SProd.sprod, List.product]

/-- Columns without a role are compared with nothing. -/
theorem columnPairs_filter :
    columnPairs design study (cols.filter fun c => design.roleOf study c.var.name ≠ .null) =
      columnPairs design study cols := by
  have hrole (c : Column α) :
      ((design.roleOf study c.var.name).isExplanatory &&
          decide (design.roleOf study c.var.name ≠ .null)) =
        (design.roleOf study c.var.name).isExplanatory ∧
      ((design.roleOf study c.var.name).isResponse &&
          decide (design.roleOf study c.var.name ≠ .null)) =
        (design.roleOf study c.var.name).isResponse := by
    cases design.roleOf study c.var.name <;> decide
  rw [columnPairs, columnPairs, List.filter_filter, List.filter_filter]
  simp only [fun c => (hrole c).1, fun c => (hrole c).2]

/-- Some of the columns that are compared with each other are two. -/
theorem two_le_length_of_columnPairs (hpairs : columnPairs design study cols ≠ []) :
    2 ≤ cols.length := by
  match cols with
  | [] => exact absurd rfl hpairs
  | _ :: _ :: _ => simp
  | [c] =>
      -- one variable either explains or is explained
      refine absurd ?_ hpairs
      rw [columnPairs]
      cases hrole : (design.roleOf study c.var.name).isExplanatory with
      | false => simp [hrole]
      | true => simp [hrole, Role.isResponse_eq_false hrole]

end Pairs

/-! ### Columns as operands -/

section Columns

variable [Numeric α] [Tails α]

/-- All cells of a column of a dataset. -/
def Column.bound (d : Dataset α) (c : Column α) : Binding α :=
  ⟨c.entriesAt (List.range d.rowCount), some c.var⟩

/-- A whole column with its role. -/
def Column.annotated (d : Dataset α) (design : Design α) (study : StudyKind) (c : Column α) :
    AnnotatedVariable α :=
  ⟨c.bound d, c.var, design.roleOf study c.var.name, variableProperties (c.bound d) c.var⟩

variable [NumberText α]

/-- The properties of one comparison, from its two columns. -/
def columnProperties (d : Dataset α) (design : Design α) (study : StudyKind)
    (p : Column α × Column α) : Except (AnalysisError α) (PairProperties α) :=
  pairProperties d design study true (p.1.annotated d design study) (p.2.annotated d design study)

/-- The result of one comparison, from its two columns. -/
def compareColumns (d : Dataset α) (settings : Settings α) (declared : Declared)
    (design : Design α) (study : StudyKind) (p : Column α × Column α) :
    Except (AnalysisError α) (TestResult α) :=
  columnProperties d design study p >>= testComparison settings declared []

variable {d : Dataset α} {design : Design α} {study : StudyKind} {cols : List (Column α)}

omit [NumberText α] in
theorem rolePairs_map_annotated :
    rolePairs (cols.map (·.annotated d design study)) =
      (columnPairs design study cols).map
        (Prod.map (·.annotated d design study) (·.annotated d design study)) := by
  show (cols.map (·.annotated d design study)).filter (·.role.isExplanatory) ×ˢ
    (cols.map (·.annotated d design study)).filter (·.role.isResponse) = _
  rw [List.filter_map, List.filter_map, product_map]
  rfl

/-- The comparisons of whole columns are prepared pair by pair. -/
theorem combine_bound (hstudy : design.resolve = .ok study)
    (hpairs : columnPairs design study cols ≠ []) :
    combine d (cols.map (·.bound d)) design =
      ((columnPairs design study cols).mapM (columnProperties d design study)).map
        (Combination.mk study (cols.map (·.annotated d design study))) := by
  have hannotated : (cols.map (·.bound d)).mapM (annotate design study) =
      .ok (cols.map (·.annotated d design study)) := by
    rw [List.mapM_map]
    exact mapM_of_eq_ok _ fun c _ => rfl
  have hne : rolePairs (cols.map (·.annotated d design study)) ≠ [] := by
    rwa [rolePairs_map_annotated, Ne, List.map_eq_nil_iff]
  have hproperties : ((rolePairs (cols.map (·.annotated d design study))).mapM fun p =>
      pairProperties d design study true p.1 p.2) =
        (columnPairs design study cols).mapM (columnProperties d design study) := by
    rw [rolePairs_map_annotated, List.mapM_map]
    rfl
  rw [combine, hstudy, ok_bind, hannotated, ok_bind, comparisons_eq_ok hne, ok_bind]
  show ((rolePairs (cols.map (·.annotated d design study))).mapM fun p =>
      pairProperties d design study true p.1 p.2) >>= (fun pairs => .ok _) = _
  rw [hproperties]
  cases (columnPairs design study cols).mapM (columnProperties d design study) <;> rfl

/-- Whole columns are tested pair by pair, without any row left out. -/
theorem testBindings_bound (hd : d.WellFormed)
    (hcols : ∀ c ∈ cols, d.columns.get? c.var.name = some c) (hstudy : design.resolve = .ok study)
    (hpairs : columnPairs design study cols ≠ []) (settings : Settings α) (declared : Declared) :
    testBindings d settings declared design (cols.map (·.bound d)) [] =
      (columnPairs design study cols).mapM (columnProperties d design study) >>= fun pairs =>
        pairs.mapM (testComparison settings declared []) := by
  have hrows : ∀ b ∈ cols.map (·.bound d), b.rows = List.range d.rowCount := by
    intro b hb
    obtain ⟨c, hc, rfl⟩ := List.mem_map.1 hb
    exact Binding.TakenAt.rows_eq hd .range ⟨c, hcols c hc, rfl⟩
  have hne : cols.map (·.bound d) ≠ [] := by
    intro hnil
    rw [List.map_eq_nil_iff] at hnil
    subst hnil
    exact hpairs rfl
  have hself : (cols.map (·.bound d)).map (·.restrict (List.range d.rowCount)) =
      cols.map (·.bound d) :=
    (List.map_congr_left fun b hb => Binding.restrict_eq_self (hrows b hb)).trans (List.map_id _)
  have hpredictions : checkPredictions (cols.map (·.bound d)) [] = .ok () := rfl
  rw [testBindings, Binding.commonRows_eq hne hrows, hself, hpredictions, ok_bind,
    combine_bound hstudy hpairs]
  cases (columnPairs design study cols).mapM (columnProperties d design study) <;> rfl

end Columns

/-! ### Hypotheses over plain variables -/

section Hypotheses

variable [Numeric α] [Tails α] [NumberText α] {d : Dataset α} {ctx : Context α}
  {design : Design α} {study : StudyKind} {cols : List (Column α)} {kind : HypothesisKind}

/-- **A hypothesis over plain variables** prepares all pairs of an explaining and an explained
variable and tests them in their order. -/
theorem evaluate_columns (hd : d.WellFormed) (hdesign : ctx.design = some design)
    (hvalid : design.validate = .ok ()) (hstudy : design.resolve = .ok study)
    (hcols : ∀ c ∈ cols, d.columns.get? c.var.name = some c)
    (hpairs : columnPairs design study cols ≠ []) :
    evaluate d ctx (.hypothesis kind ((cols.map (·.var.name)).map .column) []) =
      ((columnPairs design study cols).mapM (columnProperties d design study) >>= fun pairs =>
        pairs.mapM (testComparison (ctx.settings.forDesign design) ctx.declared [])).map
          .tested := by
  have htaken : ∀ b ∈ cols.map (·.bound d), b.TakenAt d (List.range d.rowCount) := by
    intro b hb
    obtain ⟨c, hc, rfl⟩ := List.mem_map.1 hb
    exact ⟨c, hcols c hc, rfl⟩
  have hplain : Expression.plain (cols.map (·.bound d)) = (cols.map (·.var.name)).map .column := by
    rw [Expression.plain, List.filterMap_map, List.map_map]
    exact congrFun List.filterMap_eq_map cols
  have hlength : 2 ≤ ((cols.map (·.var.name)).map (Expression.column (α := α))).length := by
    rw [List.length_map, List.length_map]
    exact two_le_length_of_columnPairs hpairs
  have hbindings : ((cols.map (·.var.name)).map .column).mapM (evaluateBinding d ctx) =
      .ok (cols.map (·.bound d)) := by
    rw [← hplain]
    exact mapM_plain htaken
  rw [evaluate_hypothesis_eq hdesign hvalid hlength hbindings fun b hb =>
    (htaken b hb).isLiteral_eq_false, testBindings_bound hd hcols hstudy hpairs]

/-- A hypothesis over plain variables succeeds exactly if each of its pairs does, and has their
results. -/
theorem evaluate_columns_eq_ok_iff (hd : d.WellFormed) (hdesign : ctx.design = some design)
    (hvalid : design.validate = .ok ()) (hstudy : design.resolve = .ok study)
    (hcols : ∀ c ∈ cols, d.columns.get? c.var.name = some c)
    (hpairs : columnPairs design study cols ≠ []) {x : Evaluated α} :
    evaluate d ctx (.hypothesis kind ((cols.map (·.var.name)).map .column) []) = .ok x ↔
      ∃ results, (columnPairs design study cols).mapM
          (compareColumns d (ctx.settings.forDesign design) ctx.declared design study) =
            .ok results ∧ .tested results = x := by
  rw [evaluate_columns hd hdesign hvalid hstudy hcols hpairs, map_eq_ok_iff]
  simp only [mapM_bind_mapM_eq_ok_iff]
  rfl

/-- A hypothesis over an explaining and an explained variable has the result of this pair. -/
theorem evaluate_pair_eq_ok_iff (hd : d.WellFormed) (hdesign : ctx.design = some design)
    (hvalid : design.validate = .ok ()) (hstudy : design.resolve = .ok study)
    {p : Column α × Column α}
    (hcols : ∀ c ∈ cols, d.columns.get? c.var.name = some c)
    (hp : p ∈ columnPairs design study cols) {x : Evaluated α} :
    evaluate d ctx (.hypothesis kind [.column p.1.var.name, .column p.2.var.name] []) = .ok x ↔
      ∃ result, compareColumns d (ctx.settings.forDesign design) ctx.declared design study p =
          .ok result ∧ .tested [result] = x := by
  obtain ⟨e, r⟩ := p
  obtain ⟨⟨he, hexplains⟩, hr, hexplained⟩ := mem_columnPairs.1 hp
  have hpair := columnPairs_pair hexplains hexplained
  have hne : columnPairs design study [e, r] ≠ [] := by
    rw [hpair]
    exact List.cons_ne_nil _ _
  have hcols' : ∀ c ∈ [e, r], d.columns.get? c.var.name = some c := by
    simpa using ⟨hcols e he, hcols r hr⟩
  show evaluate d ctx (.hypothesis kind (([e, r].map (·.var.name)).map .column) []) = _ ↔ _
  rw [evaluate_columns_eq_ok_iff hd hdesign hvalid hstudy hcols' hne, hpair]
  simp only [mapM_eq_ok_iff, List.forall₂_cons_left_iff, List.forall₂_nil_left_iff]
  constructor
  · rintro ⟨_, ⟨result, _, hresult, rfl, rfl⟩, rfl⟩
    exact ⟨result, hresult, rfl⟩
  · rintro ⟨result, hresult, rfl⟩
    exact ⟨_, ⟨result, [], hresult, rfl, rfl⟩, rfl⟩

/-- Variables without a role change nothing. -/
theorem evaluate_columns_filter (hd : d.WellFormed) (hdesign : ctx.design = some design)
    (hvalid : design.validate = .ok ()) (hstudy : design.resolve = .ok study)
    (hcols : ∀ c ∈ cols, d.columns.get? c.var.name = some c)
    (hpairs : columnPairs design study cols ≠ []) :
    evaluate d ctx (.hypothesis kind
        (((cols.filter fun c => design.roleOf study c.var.name ≠ .null).map (·.var.name)).map
          .column) []) =
      evaluate d ctx (.hypothesis kind ((cols.map (·.var.name)).map .column) []) := by
  have hpairs' := hpairs
  rw [← columnPairs_filter] at hpairs'
  rw [evaluate_columns hd hdesign hvalid hstudy (fun c hc => hcols c (List.mem_of_mem_filter hc))
    hpairs', evaluate_columns hd hdesign hvalid hstudy hcols hpairs, columnPairs_filter]

omit [Numeric α] [Tails α] [NumberText α] in
/-- The columns of some names. -/
theorem exists_columns (hd : d.WellFormed) {names : List String}
    (hnames : ∀ name ∈ names, d.contains name = true) :
    ∃ cols : List (Column α), (∀ c ∈ cols, d.columns.get? c.var.name = some c) ∧
      names = cols.map (·.var.name) := by
  induction names with
  | nil => exact ⟨[], by simp, rfl⟩
  | cons name rest ih =>
      obtain ⟨hname, hrest⟩ := List.forall_mem_cons.1 hnames
      obtain ⟨cols, hcols, rfl⟩ := ih hrest
      obtain ⟨c, hc⟩ := Option.isSome_iff_exists.1 hname
      obtain rfl := hd.name_eq hc
      exact ⟨c :: cols, List.forall_mem_cons.2 ⟨hc, hcols⟩, rfl⟩

/-- **The results for many variables are those of the pairs.**  A hypothesis over plain variables,
of which some explain and some are explained, succeeds exactly if the one over each pair of them
does; its results are those of the pairs, for one explaining variable after the other; and variables
without a role change nothing.  The kind of the hypothesis does not matter. -/
theorem evaluate_multivariate (hd : d.Built) (hdesign : ctx.design = some design)
    (hvalid : design.validate = .ok ()) (hstudy : design.resolve = .ok study) {names : List String}
    (hnames : ∀ name ∈ names, d.contains name = true)
    (hexplains : ∃ e ∈ names, (design.roleOf study e).isExplanatory = true)
    (hexplained : ∃ r ∈ names, (design.roleOf study r).isResponse = true)
    (kind kind' : HypothesisKind) :
    let explanatory := names.filter fun name => (design.roleOf study name).isExplanatory
    let responses := names.filter fun name => (design.roleOf study name).isResponse
    let all := evaluate d ctx (.hypothesis kind (names.map .column) [])
    let pair e r := evaluate d ctx (.hypothesis kind' [.column e, .column r] [])
    ((∃ x, all = .ok x) ↔ ∀ e ∈ explanatory, ∀ r ∈ responses, ∃ x, pair e r = .ok x) ∧
    (∀ x, all = .ok x → ∃ results, x = .tested results ∧
      List.Forall₂ (fun p result => pair p.1 p.2 = .ok (.tested [result]))
        (explanatory ×ˢ responses) results) ∧
    evaluate d ctx (.hypothesis kind
      ((names.filter fun name => design.roleOf study name ≠ .null).map .column) []) = all := by
  intro explanatory responses all pair
  obtain ⟨cols, hcols, rfl⟩ := exists_columns hd.wellFormed hnames
  have hproduct : (columnPairs design study cols).map (Prod.map (·.var.name) (·.var.name)) =
      explanatory ×ˢ responses := map_names_columnPairs
  have hpairs : columnPairs design study cols ≠ [] := by
    obtain ⟨e, he, hrole⟩ := hexplains
    obtain ⟨r, hr, hrole'⟩ := hexplained
    have hmem : (e, r) ∈ explanatory ×ˢ responses :=
      List.mem_product.2 ⟨List.mem_filter.2 ⟨he, hrole⟩, List.mem_filter.2 ⟨hr, hrole'⟩⟩
    intro hnil
    rw [← hproduct, hnil] at hmem
    cases hmem
  have hall (x : Evaluated α) : all = .ok x ↔
      ∃ results, (columnPairs design study cols).mapM
          (compareColumns d (ctx.settings.forDesign design) ctx.declared design study) =
            .ok results ∧ .tested results = x :=
    evaluate_columns_eq_ok_iff hd.wellFormed hdesign hvalid hstudy hcols hpairs
  have hpair : ∀ p ∈ columnPairs design study cols, ∀ x, pair p.1.var.name p.2.var.name = .ok x ↔
      ∃ result, compareColumns d (ctx.settings.forDesign design) ctx.declared design study p =
          .ok result ∧ .tested [result] = x := fun p hp x =>
    evaluate_pair_eq_ok_iff hd.wellFormed hdesign hvalid hstudy hcols hp
  refine ⟨?_, fun x hx => ?_, ?_⟩
  · calc (∃ x, all = .ok x)
        ↔ ∃ results, (columnPairs design study cols).mapM
            (compareColumns d (ctx.settings.forDesign design) ctx.declared design study) =
              .ok results := by
          simp only [hall]
          exact ⟨fun ⟨_, results, h, _⟩ => ⟨results, h⟩, fun ⟨results, h⟩ => ⟨_, results, h, rfl⟩⟩
      _ ↔ ∀ p ∈ columnPairs design study cols, ∃ x, pair p.1.var.name p.2.var.name = .ok x := by
          rw [exists_mapM_eq_ok_iff]
          refine forall₂_congr fun p hp => ?_
          simp only [hpair p hp]
          exact ⟨fun ⟨result, h⟩ => ⟨_, result, h, rfl⟩, fun ⟨_, result, h, _⟩ => ⟨result, h⟩⟩
      _ ↔ ∀ p ∈ explanatory ×ˢ responses, ∃ x, pair p.1 p.2 = .ok x := by
          rw [← hproduct, List.forall_mem_map]
          rfl
      _ ↔ ∀ e ∈ explanatory, ∀ r ∈ responses, ∃ x, pair e r = .ok x := by
          simp only [Prod.forall, List.mem_product, and_imp]
          exact ⟨fun h e he r hr => h e r he hr, fun h e r he hr => h e he r hr⟩
  · obtain ⟨results, hresults, rfl⟩ := (hall x).1 hx
    refine ⟨results, rfl, ?_⟩
    rw [← hproduct, List.forall₂_map_left_iff]
    refine List.Forall₂.imp ?_
      ((List.forall₂_and_left _ _).2 ⟨fun p hp => hp, mapM_eq_ok_iff.1 hresults⟩)
    rintro p result ⟨hp, hresult⟩
    exact (hpair p hp _).2 ⟨result, hresult, rfl⟩
  · rw [List.filter_map]
    exact evaluate_columns_filter hd.wellFormed hdesign hvalid hstudy hcols hpairs

end Hypotheses

/-- Relating the ratings after a treatment, those before it and again those after it is relating the
ratings before it twice to those after it. -/
theorem evaluate_repeated_ratings :
    let ctx : Context Float := ⟨.standard, some (.observational ["before"] ["after"]), ⟨∅, ∅⟩⟩
    let all := evaluate ratings ctx
      (.hypothesis .relate [.column "after", .column "before", .column "after"] [])
    let pair := evaluate ratings ctx (.hypothesis .relate [.column "before", .column "after"] [])
    ratings.Built ∧ (∃ x, all = .ok x) ∧
      ∀ x, all = .ok x → ∃ result, pair = .ok (.tested [result]) ∧
        x = .tested [result, result] := by
  intro ctx all pair
  let design : Design Float := .observational ["before"] ["after"]
  have hvalid : design.validate = .ok () := rfl
  have hnames : ∀ name ∈ ["after", "before", "after"], ratings.contains name = true := by decide
  have hexplains : ∃ e ∈ ["after", "before", "after"],
      (design.roleOf .observational e).isExplanatory = true := by decide
  have hexplained : ∃ r ∈ ["after", "before", "after"],
      (design.roleOf .observational r).isResponse = true := by decide
  have hdesign : ctx.design = some design := rfl
  obtain ⟨-, hresults, -⟩ := evaluate_multivariate built_ratings hdesign hvalid rfl hnames
    hexplains hexplained .relate .relate
  have hsuccess : all.isOk = true := by decide +kernel
  refine ⟨built_ratings, isOk_iff.1 hsuccess, fun x hx => ?_⟩
  obtain ⟨results, rfl, hpairs⟩ := hresults x hx
  change List.Forall₂ _ [("before", "after"), ("before", "after")] results at hpairs
  cases hpairs with
  | cons h htail =>
      cases htail with
      | cons h' hnil =>
          cases hnil
          cases h.symm.trans h'
          exact ⟨_, h, rfl⟩

end StudyAnalysis
