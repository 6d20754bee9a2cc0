/-
**Filtering inside of a hypothesis is filtering the data.**

A hypothesis is tested at the rows that all its operands have.  The same results come from leaving
all other rows out of the dataset and testing the plain variables: filters only say which rows take
part, and nothing else of the dataset is looked at.

Main definitions:

* `StudyAnalysis.Expression.plain` — the variables of some bindings as operands.

Main results:

* `StudyAnalysis.Binding.mem_commonRows` — which rows a hypothesis is tested at;
* `StudyAnalysis.bindOperands_eq_ok_iff` — when the operands of a hypothesis can be bound;
* `StudyAnalysis.evaluate_hypothesis_eq_ok_iff` — when a hypothesis can be tested;
* `StudyAnalysis.testBindings_keepRows` — the tests of some bindings do not look at other rows;
* `StudyAnalysis.evaluate_hypothesis_keepRows` — **filtering inside of a hypothesis is filtering the
  data**.
-/

import StudyAnalysis.Proofs.Hypothesis.Renumbering

set_option autoImplicit false
set_option relaxedAutoImplicit false

namespace StudyAnalysis

open Fallible

variable {α : Type} {d : Dataset α} {rows : List Nat}

/-! ### The rows of a hypothesis -/

namespace Binding

variable {b : Binding α} {bindings : List (Binding α)} {source : Expression α}

theorem mem_commonRows {row : Nat} :
    row ∈ commonRows bindings ↔ bindings ≠ [] ∧ ∀ b ∈ bindings, row ∈ b.rows := by
  cases bindings with
  | nil => simp [commonRows]
  | cons b rest => simp [commonRows, List.mem_filter]

theorem commonRows_subset (hb : b ∈ bindings) : commonRows bindings ⊆ b.rows :=
  fun _ hrow => (mem_commonRows.1 hrow).2 b hb

theorem commonRows_eq (hne : bindings ≠ []) (hrows : ∀ b ∈ bindings, b.rows = rows) :
    commonRows bindings = rows := by
  cases bindings with
  | nil => exact absurd rfl hne
  | cons b rest =>
      rw [commonRows, hrows b List.mem_cons_self, List.filter_eq_self]
      intro row hrow
      rw [List.all_eq_true]
      intro other hother
      rw [hrows other (List.mem_cons_of_mem b hother), List.contains_iff_mem]
      exact hrow

theorem ascendingRows_commonRows (h : ∀ b ∈ bindings, ∃ source, b.DrawnFrom d source) :
    d.AscendingRows (commonRows bindings) := by
  cases bindings with
  | nil => exact ⟨List.Pairwise.nil, fun row hrow => by cases hrow⟩
  | cons b rest =>
      obtain ⟨source, hb⟩ := h b List.mem_cons_self
      refine ⟨hb.pairwise_rows.filter _, fun row hrow => hb.row_lt ?_⟩
      exact commonRows_subset List.mem_cons_self hrow

theorem restrict_eq_self (h : b.rows = rows) : b.restrict rows = b := by
  subst h
  obtain ⟨entries, var⟩ := b
  rw [restrict]
  congr 1
  rw [List.filter_eq_self]
  intro e he
  rw [List.contains_iff_mem]
  exact List.mem_map_of_mem he

/-- A variable that is restricted to some of its rows has the cells of its column there. -/
theorem DrawnFrom.takenAt_restrict (hd : d.WellFormed) (h : b.DrawnFrom d source)
    (hliteral : b.isLiteral = false) (hrows : d.AscendingRows rows) (hsubset : rows ⊆ b.rows) :
    (b.restrict rows).TakenAt d rows := by
  obtain ⟨v, hv⟩ : ∃ v, b.var = some v := by
    rwa [isLiteral, Option.isNone_eq_false_iff, Option.isSome_iff_exists] at hliteral
  obtain ⟨name, c, -, hc, rfl, hcells⟩ := h.of_var_eq_some hv
  have hentries : b.entries.filter (fun e => rows.contains e.1) = c.entriesAt rows := by
    rw [Column.eq_entriesAt hcells, Column.filter_entriesAt fun row => rows.contains row]
    exact congrArg _ (filter_contains_eq h.pairwise_rows hrows.pairwise hsubset)
  refine ⟨c, by rwa [hd.name_eq hc], ?_⟩
  rw [restrict, hentries, hv]

theorem takenAt_commonRows (hd : d.WellFormed)
    (hdrawn : ∀ b ∈ bindings, ∃ source, b.DrawnFrom d source)
    (hliteral : ∀ b ∈ bindings, b.isLiteral = false) :
    ∀ b ∈ bindings.map (·.restrict (commonRows bindings)),
      b.TakenAt d (commonRows bindings) := by
  intro b hb
  obtain ⟨b', hb', rfl⟩ := List.mem_map.1 hb
  obtain ⟨source, hsource⟩ := hdrawn b' hb'
  exact hsource.takenAt_restrict hd (hliteral b' hb') (ascendingRows_commonRows hdrawn)
    (commonRows_subset hb')

/-- The bindings of a hypothesis at its rows, with the new numbers that these rows have if all
others are left out. -/
def renumberCommon (bindings : List (Binding α)) : List (Binding α) :=
  (bindings.map (·.restrict (commonRows bindings))).map (·.renumber (commonRows bindings))

/-- They are taken from what is left of the dataset, at all its rows. -/
theorem takenAt_renumberCommon (hd : d.WellFormed)
    (hdrawn : ∀ b ∈ bindings, ∃ source, b.DrawnFrom d source)
    (hliteral : ∀ b ∈ bindings, b.isLiteral = false) :
    ∀ b ∈ renumberCommon bindings, b.TakenAt (d.keepRows (commonRows bindings))
      (List.range (d.keepRows (commonRows bindings)).rowCount) := by
  intro b hb
  obtain ⟨b', hb', rfl⟩ := List.mem_map.1 hb
  have hkept := ascendingRows_commonRows hdrawn
  have htaken := (takenAt_commonRows hd hdrawn hliteral b' hb').renumber hd hkept
  rwa [map_idxOf_eq_range hkept.nodup] at htaken

end Binding

variable [Numeric α] [Tails α]

/-! ### The tests of some bindings -/

section Tests

variable {bindings : List (Binding α)}

omit [Numeric α] [Tails α] in
theorem checkPredictions_renumber (predictions : List Prediction) :
    checkPredictions (bindings.map (·.renumber rows)) predictions =
      checkPredictions bindings predictions := by
  have hvars : (bindings.map (·.renumber rows)).filterMap (·.var) = bindings.filterMap (·.var) :=
    List.filterMap_map
  rw [checkPredictions, checkPredictions, hvars]

/-- **The tests of some bindings do not look at other rows**: without them, the same is tested. -/
theorem testBindings_keepRows [NumberText α] (hd : d.WellFormed) (hne : bindings ≠ [])
    (hdrawn : ∀ b ∈ bindings, ∃ source, b.DrawnFrom d source)
    (hliteral : ∀ b ∈ bindings, b.isLiteral = false) (settings : Settings α)
    (declared : Declared) (design : Design α) (predictions : List Prediction) :
    testBindings (d.keepRows (Binding.commonRows bindings)) settings declared design
        (Binding.renumberCommon bindings) predictions =
      testBindings d settings declared design bindings predictions := by
  have hkept := Binding.ascendingRows_commonRows hdrawn
  have hd' := hd.keepRows hkept
  -- after numbering anew all bindings have all rows, so nothing is left to restrict
  have hrows : ∀ b ∈ Binding.renumberCommon bindings,
      b.rows = List.range (d.keepRows (Binding.commonRows bindings)).rowCount := fun b hb =>
    (Binding.takenAt_renumberCommon hd hdrawn hliteral b hb).rows_eq hd' .range
  have hcommon : Binding.commonRows (Binding.renumberCommon bindings) =
      List.range (d.keepRows (Binding.commonRows bindings)).rowCount := by
    refine Binding.commonRows_eq ?_ hrows
    rwa [Binding.renumberCommon, Ne, List.map_eq_nil_iff, List.map_eq_nil_iff]
  have hself : (Binding.renumberCommon bindings).map (·.restrict
        (List.range (d.keepRows (Binding.commonRows bindings)).rowCount)) =
      Binding.renumberCommon bindings :=
    (List.map_congr_left fun b hb => Binding.restrict_eq_self (hrows b hb)).trans (List.map_id _)
  rw [testBindings, testBindings, hcommon, hself, Binding.renumberCommon,
    checkPredictions_renumber,
    combine_renumber hd hkept (Binding.takenAt_commonRows hd hdrawn hliteral)]
  cases checkPredictions _ predictions with
  | error err => rfl
  | ok _ =>
      cases combine d _ design with
      | error err => rfl
      | ok combined => rfl

end Tests

/-! ### Plain variables -/

/-- The variables of some bindings as operands; a literal has none. -/
def Expression.plain (bindings : List (Binding α)) : List (Expression α) :=
  bindings.filterMap fun b => b.name?.map Expression.column

section Operands

variable [NumberText α] {ctx : Context α} {bindings : List (Binding α)}

/-- The operands of a hypothesis can be bound exactly if each of them has a binding and none is a
literal. -/
theorem bindOperands_eq_ok_iff {text : String} {operands : List (Expression α)} :
    bindOperands d ctx text operands = .ok bindings ↔
      operands.mapM (evaluateBinding d ctx) = .ok bindings ∧
        ∀ b ∈ bindings, b.isLiteral = false := by
  induction operands generalizing bindings with
  | nil =>
      rw [bindOperands]
      constructor
      · rintro h
        obtain rfl := Except.ok.inj h
        exact ⟨rfl, fun b hb => by cases hb⟩
      · rintro ⟨h, -⟩
        exact h
  | cons operand rest ih =>
      rw [bindOperands, List.mapM_cons]
      constructor
      · intro h
        obtain ⟨x, hx, h⟩ := bind_eq_ok_iff.1 h
        obtain ⟨b, hb, h⟩ := bind_eq_ok_iff.1 h
        cases hliteral : b.isLiteral with
        | true =>
            rw [if_pos hliteral] at h
            cases h
        | false =>
            rw [hliteral] at h
            obtain ⟨bs, hbs, h⟩ := bind_eq_ok_iff.1 h
            obtain rfl := Except.ok.inj h
            obtain ⟨hmapM, hall⟩ := ih.1 hbs
            rw [evaluateBinding, hx, ok_bind, hb, ok_bind, hmapM]
            exact ⟨rfl, List.forall_mem_cons.2 ⟨hliteral, hall⟩⟩
      · rintro ⟨h, hall⟩
        obtain ⟨b, hb, h⟩ := bind_eq_ok_iff.1 h
        obtain ⟨bs, hbs, h⟩ := bind_eq_ok_iff.1 h
        obtain rfl := Except.ok.inj h
        obtain ⟨hliteral, hall⟩ := List.forall_mem_cons.1 hall
        obtain ⟨x, hx, hb⟩ := bind_eq_ok_iff.1 hb
        rw [hx, ok_bind, hb, ok_bind, hliteral, ih.2 ⟨hbs, hall⟩]
        rfl

theorem evaluateBinding_column {name : String} :
    evaluateBinding d ctx (.column name) = Binding.ofColumn d name := by
  rw [evaluateBinding, evaluate]
  cases Binding.ofColumn d name <;> rfl

/-- Plain variables are bound to all cells of their columns. -/
theorem mapM_plain (h : ∀ b ∈ bindings, b.TakenAt d (List.range d.rowCount)) :
    (Expression.plain bindings).mapM (evaluateBinding d ctx) = .ok bindings := by
  induction bindings with
  | nil => rfl
  | cons b rest ih =>
      obtain ⟨hb, hrest⟩ := List.forall_mem_cons.1 h
      obtain ⟨c, hc, rfl⟩ := hb
      show (Expression.column c.var.name :: Expression.plain rest).mapM _ = _
      rw [List.mapM_cons, evaluateBinding_column, Binding.ofColumn_eq_ok hc, ok_bind, ih hrest]
      rfl

end Operands

/-! ### Hypotheses -/

section Hypotheses

variable [NumberText α] {ctx : Context α} {design : Design α} {kind : HypothesisKind}
  {operands : List (Expression α)} {predictions : List Prediction} {bindings : List (Binding α)}

/-- A hypothesis whose operands can be bound is the tests of their bindings. -/
theorem evaluate_hypothesis_eq (hdesign : ctx.design = some design)
    (hvalid : design.validate = .ok ()) (hlength : 2 ≤ operands.length)
    (hbindings : operands.mapM (evaluateBinding d ctx) = .ok bindings)
    (hliteral : ∀ b ∈ bindings, b.isLiteral = false) :
    evaluate d ctx (.hypothesis kind operands predictions) =
      (testBindings d (ctx.settings.forDesign design) ctx.declared design bindings
        predictions).map .tested := by
  rw [evaluate, hdesign]
  dsimp only
  rw [hvalid, ok_bind, if_neg (Nat.not_lt.2 hlength),
    bindOperands_eq_ok_iff.2 ⟨hbindings, hliteral⟩]
  rfl

/-- A hypothesis can be tested exactly if there is a valid design, there are two operands, all of
them can be bound to variables, and their bindings can be tested. -/
theorem evaluate_hypothesis_eq_ok_iff {x : Evaluated α} :
    evaluate d ctx (.hypothesis kind operands predictions) = .ok x ↔
      ∃ design bindings results, ctx.design = some design ∧ design.validate = .ok () ∧
        2 ≤ operands.length ∧ operands.mapM (evaluateBinding d ctx) = .ok bindings ∧
        (∀ b ∈ bindings, b.isLiteral = false) ∧
        testBindings d (ctx.settings.forDesign design) ctx.declared design bindings predictions =
          .ok results ∧
        .tested results = x := by
  constructor
  · intro h
    rw [evaluate] at h
    cases hdesign : ctx.design with
    | none =>
        rw [hdesign] at h
        cases h
    | some design =>
        rw [hdesign] at h
        obtain ⟨⟨⟩, hvalid, h⟩ := bind_eq_ok_iff.1 h
        split at h
        · cases h
        · rename_i hlength
          obtain ⟨bindings, hbindings, h⟩ := bind_eq_ok_iff.1 h
          obtain ⟨results, hresults, h⟩ := bind_eq_ok_iff.1 h
          obtain ⟨hbindings, hliteral⟩ := bindOperands_eq_ok_iff.1 hbindings
          exact ⟨design, bindings, results, rfl, hvalid, Nat.not_lt.1 hlength, hbindings, hliteral,
            hresults, Except.ok.inj h⟩
  · rintro ⟨design, bindings, results, hdesign, hvalid, hlength, hbindings, hliteral, hresults, rfl⟩
    rw [evaluate_hypothesis_eq hdesign hvalid hlength hbindings hliteral, hresults]
    rfl

theorem evaluate_hypothesis_eq_error (hdesign : ctx.design = some design)
    (hvalid : design.validate = .ok ()) (hlength : operands.length < 2) :
    evaluate d ctx (.hypothesis kind operands predictions) =
      .error (.malformedRelation (Expression.hypothesis kind operands predictions).toText
        .tooFewVariables) := by
  rw [evaluate, hdesign]
  dsimp only
  rw [hvalid, ok_bind, if_pos hlength]
  rfl

omit [Numeric α] [Tails α] [NumberText α] in
theorem plain_renumberCommon :
    Expression.plain (Binding.renumberCommon bindings) = Expression.plain bindings := by
  rw [Expression.plain, Binding.renumberCommon, List.filterMap_map, List.filterMap_map]
  rfl

/-- **Filtering inside of a hypothesis is filtering the data.**  A hypothesis about filtered
variables has the same results, or fails in the same way, as the one about the plain variables in
the dataset that keeps only the rows that all operands have.  With fewer than two operands both
fail, each with its own text. -/
theorem evaluate_hypothesis_keepRows (hd : d.Built) (hdesign : ctx.design = some design)
    (hvalid : design.validate = .ok ())
    (hbindings : operands.mapM (evaluateBinding d ctx) = .ok bindings)
    (hliteral : ∀ b ∈ bindings, b.isLiteral = false) (kind : HypothesisKind)
    (predictions : List Prediction) :
    let filtered := Expression.hypothesis kind operands predictions
    let plain := Expression.hypothesis kind (Expression.plain bindings) predictions
    let d' := d.keepRows (Binding.commonRows bindings)
    (2 ≤ operands.length → evaluate d' ctx plain = evaluate d ctx filtered) ∧
      (operands.length < 2 →
        evaluate d ctx filtered = .error (.malformedRelation filtered.toText .tooFewVariables) ∧
        evaluate d' ctx plain = .error (.malformedRelation plain.toText .tooFewVariables)) := by
  intro filtered plain d'
  have hdrawn : ∀ b ∈ bindings, ∃ source, b.DrawnFrom d source := by
    intro b hb
    obtain ⟨e, -, he⟩ := exists_of_mem_mapM hbindings hb
    exact ⟨e.source, drawnFrom_of_evaluate (evaluateBinding_eq_ok_iff.1 he)⟩
  have htaken := Binding.takenAt_renumberCommon hd.wellFormed hdrawn hliteral
  have hplain : (Expression.plain bindings).mapM (evaluateBinding d' ctx) =
      .ok (Binding.renumberCommon bindings) := by
    rw [← plain_renumberCommon]
    exact mapM_plain htaken
  have hoperands : operands.length = bindings.length := (mapM_eq_ok_iff.1 hbindings).length_eq
  have hlength : (Expression.plain bindings).length = operands.length := by
    rw [(mapM_eq_ok_iff.1 hplain).length_eq, hoperands, Binding.renumberCommon, List.length_map,
      List.length_map]
  refine ⟨fun htwo => ?_, fun hfew => ⟨?_, ?_⟩⟩
  · have hne : bindings ≠ [] := by
      rintro rfl
      rw [hoperands] at htwo
      cases htwo
    rw [evaluate_hypothesis_eq hdesign hvalid (hlength ▸ htwo) hplain fun b hb =>
        (htaken b hb).isLiteral_eq_false,
      evaluate_hypothesis_eq hdesign hvalid htwo hbindings hliteral,
      testBindings_keepRows hd.wellFormed hne hdrawn hliteral]
  · exact evaluate_hypothesis_eq_error hdesign hvalid hfew
  · exact evaluate_hypothesis_eq_error hdesign hvalid (hlength ▸ hfew)

end Hypotheses

/-- Relating the low ratings before a treatment to those after it is relating all ratings in the
table of the first and the last participant. -/
theorem evaluate_filtered_ratings :
    let ctx : Context Float := ⟨.standard, some (.observational ["before"] ["after"]), ⟨∅, ∅⟩⟩
    let low : Expression Float := .filter .ne (.column "before") (.literal (.text "high"))
    let bindings : List (Binding Float) :=
      [⟨[(0, .text "low"), (2, .text "low")], some ratedBefore.var⟩,
        ⟨[(0, .text "high"), (1, .text "high"), (2, .text "low")], some ratedAfter.var⟩]
    ratings.Built ∧ [low, .column "after"].mapM (evaluateBinding ratings ctx) = .ok bindings ∧
      (∀ b ∈ bindings, b.isLiteral = false) ∧ Binding.commonRows bindings = [0, 2] ∧
      evaluate (ratings.keepRows [0, 2]) ctx
          (.hypothesis .relate [.column "before", .column "after"] []) =
        evaluate ratings ctx (.hypothesis .relate [low, .column "after"] []) := by
  intro ctx low bindings
  have hbindings : [low, .column "after"].mapM (evaluateBinding ratings ctx) = .ok bindings := rfl
  have hliteral : ∀ b ∈ bindings, b.isLiteral = false := by simp [bindings, Binding.isLiteral]
  have hvalid : (Design.observational ["before"] ["after"] : Design Float).validate = .ok () := rfl
  have hsame := evaluate_hypothesis_keepRows built_ratings rfl hvalid hbindings hliteral .relate []
  exact ⟨built_ratings, hbindings, hliteral, rfl, hsame.1 (Nat.le_refl 2)⟩

end StudyAnalysis
