/-
**Groups are the fibres of their factor.**

The samples of independent groups are not read from the bound outcome.  For each declared label of
the factor they are selected again from the whole dataset, and then cut down to the rows at which
the factor is bound.  That this comes out right rests on two facts: the operands of a hypothesis are
restricted to the rows that all of them have, and the cells of a dataset are checked, so that no row
is lost.  Then the sample of a label is the outcome along the fibre of the label, the rows at which
the factor has it.

Main definitions:

* `StudyAnalysis.Dataset.labelAt` — the label of a row in a column;
* `StudyAnalysis.Dataset.fibre` — those of some rows that have a label;
* `StudyAnalysis.Dataset.labelsAt` — the declared labels of a variable that some rows have.

Main results:

* `StudyAnalysis.NameMap.get?_ofList_map` — a map of the values of a function;
* `StudyAnalysis.taken_of_mem_vars` — every variable of a hypothesis is read at its own rows;
* `StudyAnalysis.groupProperties_eq_ok` — the properties of independent groups;
* `StudyAnalysis.groups_are_fibres` — **the samples of independent groups are the fibres of the
  factor**.
-/

import StudyAnalysis.Proofs.Hypothesis.Observations

set_option autoImplicit false
set_option relaxedAutoImplicit false

namespace StudyAnalysis

open Fallible

variable {α : Type}

/-! ### Maps of the values of a function -/

namespace NameMap

variable {β : Type} (f : String → β) (names : List String) (name : String)

theorem get?_foldl_insert_map (m : NameMap β) :
    ((names.map fun n => (n, f n)).foldl (fun m e => m.insert e.1 e.2) m).get? name =
      if name ∈ names then some (f name) else m.get? name := by
  induction names generalizing m with
  | nil => rfl
  | cons n names ih =>
      rw [List.map_cons, List.foldl_cons, ih, get?_insert]
      by_cases hmem : name ∈ names
      · rw [if_pos hmem, if_pos (List.mem_cons_of_mem n hmem)]
      · by_cases hname : n = name
        · rw [if_neg hmem, if_pos hname, hname, if_pos List.mem_cons_self]
        · have hcons : name ∉ n :: names := fun h =>
            (List.mem_cons.1 h).elim (fun h => hname h.symm) hmem
          rw [if_neg hmem, if_neg hname, if_neg hcons]

/-- **A map of the values that a function has at some names** gives these values, however often a
name occurs. -/
theorem get?_ofList_map :
    (ofList (names.map fun n => (n, f n))).get? name =
      if name ∈ names then some (f name) else none :=
  get?_foldl_insert_map f names name ∅

end NameMap

/-! ### Labels at rows -/

namespace Dataset

/-- The label of a row in a column of a dataset. -/
def labelAt (d : Dataset α) (name : String) (row : Nat) : Option String :=
  (d.columns.get? name).bind fun c => c.cells[row]?.bind Cell.text?

/-- The fibre of a label: those of some rows that have it in a column. -/
def fibre (d : Dataset α) (name : String) (rows : List Nat) (label : String) : List Nat :=
  rows.filter fun row => d.labelAt name row == some label

/-- The declared labels of a variable that occur at some rows, in their order. -/
def labelsAt (d : Dataset α) (v : Variable) (rows : List Nat) : List String :=
  v.labels.filter fun label => rows.any fun row => d.labelAt v.name row == some label

end Dataset

section Labels

variable [Numeric α] {d : Dataset α} {rows : List Nat} {a : AnnotatedVariable α} {c : Column α}

omit [Numeric α] in
theorem AnnotatedVariable.TakenFrom.labelAt_eq (hc : a.TakenFrom d rows c) (row : Nat) :
    d.labelAt a.var.name row = c.cells[row]?.bind Cell.text? := by
  rw [Dataset.labelAt, hc.get?_name]
  rfl

/-- The rows of a label are its fibre. -/
theorem AnnotatedVariable.TakenFrom.rowsWith_eq (hc : a.TakenFrom d rows c) (label : String) :
    c.rowsWith rows label = d.fibre a.var.name rows label := by
  rw [Column.rowsWith, Dataset.fibre]
  refine List.filter_congr fun row _ => ?_
  rw [hc.labelAt_eq]
  cases c.cells[row]? with
  | none => rfl
  | some cell => exact cell.agrees_text label

/-- The labels that have rows are the labels that rows have. -/
theorem AnnotatedVariable.TakenFrom.occurring_eq (hc : a.TakenFrom d rows c) :
    c.occurring rows = d.labelsAt a.var rows := by
  rw [Column.occurring, Dataset.labelsAt, hc.var_eq]
  refine List.filter_congr fun label _ => ?_
  rw [hc.rowsWith_eq, Dataset.fibre, Bool.eq_iff_iff, Bool.not_eq_true',
    List.isEmpty_eq_false_iff_exists_mem, List.any_eq_true]
  simp only [List.mem_filter]

end Labels

/-! ### The rows of a variable -/

namespace Binding

variable {d : Dataset α} {b : Binding α} {bindings : List (Binding α)}

theorem rows_restrict (b : Binding α) (keep : List Nat) :
    (b.restrict keep).rows = b.rows.filter fun row => keep.contains row := by
  rw [rows, rows, restrict, List.filter_map]
  rfl

/-- Restricted to the rows that all bindings have, each has exactly these rows. -/
theorem rows_restrict_commonRows (h : ∀ b ∈ bindings, ∃ source, b.DrawnFrom d source)
    (hb : b ∈ bindings) : (b.restrict (commonRows bindings)).rows = commonRows bindings := by
  obtain ⟨source, hdrawn⟩ := h b hb
  rw [rows_restrict]
  exact filter_contains_eq hdrawn.pairwise_rows (ascendingRows_commonRows h).pairwise
    (commonRows_subset hb)

end Binding

/-- The variable of a column is found under its name. -/
theorem AnnotatedVariable.TakenAt.findVariable_eq [Numeric α] {d : Dataset α} {rows : List Nat}
    {a : AnnotatedVariable α} (ha : a.TakenAt d rows) : d.findVariable a.var.name = .ok a.var := by
  obtain ⟨c, hc⟩ := ha.exists_takenFrom
  rw [Dataset.findVariable, Dataset.column_eq_ok_iff.2 hc.get?_name, ← hc.var_eq]
  rfl

section Rows

variable [Numeric α] [Tails α] {d : Dataset α} {design : Design α} {kind : StudyKind}

theorem eq_of_annotate {b : Binding α} {a : AnnotatedVariable α}
    (h : annotate design kind b = .ok a) : a.binding = b ∧ b.var = some a.var := by
  rw [annotate.eq_def] at h
  split at h
  · obtain rfl := Except.ok.inj h
    exact ⟨rfl, by assumption⟩
  · cases h

variable [NumberText α] {ctx : Context α} {operands : List (Expression α)}
  {bindings : List (Binding α)} {keep : List Nat}

/-- What the operands of a hypothesis evaluate to is drawn from the dataset. -/
theorem drawnFrom_of_mapM (h : operands.mapM (evaluateBinding d ctx) = .ok bindings) :
    ∀ b ∈ bindings, ∃ source, b.DrawnFrom d source := by
  intro b hb
  obtain ⟨e, -, he⟩ := exists_of_mem_mapM h hb
  exact ⟨e.source, drawnFrom_of_evaluate (evaluateBinding_eq_ok_iff.1 he)⟩

/-- **Every variable of a hypothesis is read at its own rows**, whatever rows its operands are
restricted to. -/
theorem taken_of_mem_vars {vars : List (AnnotatedVariable α)} (hd : d.WellFormed)
    (hbindings : operands.mapM (evaluateBinding d ctx) = .ok bindings)
    (hvars : (bindings.map (·.restrict keep)).mapM (annotate design kind) = .ok vars) :
    ∀ a ∈ vars, ∃ b ∈ bindings, a.binding = b.restrict keep ∧
      d.AscendingRows a.binding.rows ∧ a.TakenAt d a.binding.rows := by
  intro a ha
  obtain ⟨_, hmem, hannotate⟩ := exists_of_mem_mapM hvars ha
  obtain ⟨b, hb, rfl⟩ := List.mem_map.1 hmem
  obtain ⟨hbinding, hvar⟩ := eq_of_annotate hannotate
  obtain ⟨source, hdrawn⟩ := drawnFrom_of_mapM hbindings b hb
  have hrestricted : (b.restrict keep).DrawnFrom d source :=
    hdrawn.of_sublist List.filter_sublist rfl
  have hrows : d.AscendingRows (b.restrict keep).rows :=
    ⟨hrestricted.pairwise_rows, fun row hrow => hrestricted.row_lt hrow⟩
  have hliteral : (b.restrict keep).isLiteral = false := by
    rw [Binding.isLiteral, hvar]
    rfl
  have htaken := hrestricted.takenAt_restrict hd hliteral hrows (List.Subset.refl _)
  rw [Binding.restrict_eq_self rfl] at htaken
  refine ⟨b, hb, hbinding, hbinding ▸ hrows, ?_⟩
  rw [hbinding]
  exact takenAt_of_annotate hannotate htaken

/-- Every comparison of a hypothesis is one of two of its variables. -/
theorem exists_compared_of_combine {c : Combination α} {p : PairProperties α}
    (h : combine d bindings design = .ok c) (hp : p ∈ c.pairs) :
    ∃ hasRoles, ∃ e ∈ c.vars, ∃ r ∈ c.vars,
      pairProperties d design c.kind hasRoles e r = .ok p := by
  obtain ⟨hasRoles, compared, -, -, hcompared, hpairs⟩ := combine_eq_ok_iff.1 h
  obtain ⟨⟨e, r⟩, hmem, hpair⟩ := exists_of_mem_mapM hpairs hp
  obtain ⟨he, hr⟩ := mem_of_comparisons hcompared _ hmem
  exact ⟨hasRoles, e, he, r, hr, hpair⟩

end Rows

/-! ### Independent groups -/

section Groups

variable [Numeric α] [Tails α] [NumberText α] {d : Dataset α} {rows : List Nat} {k : Nat}
  {e r factor outcome : AnnotatedVariable α} {f o : Column α} {kind : StudyKind}
  {p base : PairProperties α} {design : Design α}

/-- **The properties of independent groups** are those of the readings of the outcome at the rows of
the labels that occur. -/
theorem groupProperties_eq_ok (hd : d.WellFormed) (hrows : d.AscendingRows rows)
    (hf : factor.TakenFrom d rows f) (ho : outcome.TakenFrom d rows o)
    (hread : ∀ row ∈ rows, (o.keyAt row).isSome = true) :
    groupProperties d factor outcome false base =
      .ok (sampledProperties outcome.var false (f.occurring rows) (samplesOf f o rows) base) := by
  have hlabels : ((f.occurring rows).map fun label =>
      (label, o.readings (f.rowsWith rows label))).map (·.1) = f.occurring rows := by
    rw [List.map_map]
    exact List.map_id _
  rw [groupProperties, groupsOf_eq_ok hd hrows hf ho hread, ok_bind, hlabels, groupSamples,
    samplesOf, List.map_map]
  simp only [List.map_map]
  rfl

/-- The shape of a comparison of groups says whether they are related. -/
theorem shape_groupProperties {paired : Bool}
    (h : groupProperties d factor outcome paired base = .ok p) :
    ∃ k, p.shape = .groupComparison k paired := by
  obtain ⟨_, -, h⟩ := bind_eq_ok_iff.1 h
  obtain ⟨_, -, h⟩ := bind_eq_ok_iff.1 h
  obtain rfl := Except.ok.inj h
  exact ⟨_, rfl⟩

/-- Only a comparison of independent groups has the shape of one. -/
theorem exists_groups_of_shape {hasRoles : Bool}
    (h : pairProperties d design kind hasRoles e r = .ok p)
    (hshape : p.shape = .groupComparison k false) :
    ∃ factor outcome base, layoutOf kind e r = .groups factor outcome ∧
      base.names = [e.var.name, r.var.name] ∧
      groupProperties d factor outcome false base = .ok p := by
  rw [pairProperties] at h
  cases hlayout : layoutOf kind e r with
  | correlation | contingency =>
      rw [hlayout] at h
      obtain rfl := Except.ok.inj h
      cases hshape
  | groups factor outcome =>
      rw [hlayout] at h
      dsimp only at h
      obtain ⟨k', hk'⟩ := shape_groupProperties h
      obtain ⟨-, hpaired⟩ := Shape.groupComparison.inj (hshape.symm.trans hk')
      rw [← hpaired] at h
      exact ⟨factor, outcome, _, rfl, by rfl, h⟩

/-- What the properties of independent groups say about them: the labels that occur, the outcome
along the fibre of each, and the sizes of the fibres. -/
theorem fibres_of_groupProperties (hd : d.WellFormed) (hchecked : d.Checked)
    (hrows : d.AscendingRows rows) (hfactor : factor.TakenAt d rows)
    (houtcome : outcome.TakenAt d rows) (hscale : outcome.var.scale.isRankable = true)
    (h : groupProperties d factor outcome false base = .ok p) :
    let labels := d.labelsAt factor.var rows
    let fibre := d.fibre factor.var.name rows
    p.names = base.names ∧ p.shape = .groupComparison labels.length false ∧
      ∃ samples, p.samples = .groups labels samples ∧
        samples.map (List.map some) =
          labels.map (fun label => (fibre label).map (d.keyAt outcome.var.name)) ∧
        ∀ label, p.sampleSizes.get? label =
          if label ∈ labels then some (fibre label).length else none := by
  intro labels fibre
  obtain ⟨f, hf⟩ := hfactor.exists_takenFrom
  obtain ⟨o, ho⟩ := houtcome.exists_takenFrom
  have hread := ho.isSome_keyAt hd hchecked hrows hscale
  have hsome := map_some_samplesOf hread (f := f)
  have hlabels : f.occurring rows = labels := hf.occurring_eq
  have hfibre : f.rowsWith rows = fibre := funext hf.rowsWith_eq
  rw [List.map_map, hlabels, hfibre, ← ho.keyAt_eq] at hsome
  rw [groupProperties_eq_ok hd hrows hf ho hread, hlabels] at h
  obtain rfl := Except.ok.inj h
  refine ⟨rfl, rfl, samplesOf f o rows, rfl, hsome, fun label => ?_⟩
  -- a sample is as long as the fibre that it is read along
  have hlengths : (samplesOf f o rows).map List.length = labels.map fun l => (fibre l).length := by
    have hmapped := congrArg (List.map List.length) hsome
    simpa only [List.map_map, Function.comp_def, List.length_map] using hmapped
  have hsizes : labels.zip ((samplesOf f o rows).map List.length) =
      labels.map fun l => (l, (fibre l).length) := by
    rw [hlengths, List.zip_eq_zipWith, List.zipWith_map_right, List.zipWith_self]
  change (NameMap.ofList (labels.zip _)).get? label = _
  rw [hsizes]
  exact NameMap.get?_ofList_map _ labels label

/-- **The samples of independent groups are the fibres of the factor.**  In a comparison of groups
that are not related, the labels are those declared labels of the factor that occur at the rows that
all operands have.  The sample of a label is the outcome at the rows at which the factor has it, in
ascending order, and its recorded size is the number of these rows. -/
theorem groups_are_fibres {ctx : Context α} {operands : List (Expression α)}
    {bindings : List (Binding α)} {c : Combination α} (hd : d.Built)
    (hbindings : operands.mapM (evaluateBinding d ctx) = .ok bindings)
    (hc : combine d (bindings.map (·.restrict (Binding.commonRows bindings))) design = .ok c)
    (hp : p ∈ c.pairs) (hshape : p.shape = .groupComparison k false) :
    let rows := Binding.commonRows bindings
    rows.Pairwise (· < ·) ∧ (∀ row, row ∈ rows ↔ ∀ b ∈ bindings, row ∈ b.rows) ∧
      ∃ e ∈ c.vars, ∃ r ∈ c.vars, ∃ factor outcome : AnnotatedVariable α,
        p.names = [e.var.name, r.var.name] ∧ layoutOf c.kind e r = .groups factor outcome ∧
        d.findVariable factor.var.name = .ok factor.var ∧
        d.findVariable outcome.var.name = .ok outcome.var ∧
        let labels := d.labelsAt factor.var rows
        let fibre := d.fibre factor.var.name rows
        k = labels.length ∧
        ∃ samples, p.samples = .groups labels samples ∧
          samples.map (List.map some) =
            labels.map (fun label => (fibre label).map (d.keyAt outcome.var.name)) ∧
          ∀ label, p.sampleSizes.get? label =
            if label ∈ labels then some (fibre label).length else none := by
  intro rows
  have hdrawn := drawnFrom_of_mapM hbindings
  have hrows : d.AscendingRows rows := Binding.ascendingRows_commonRows hdrawn
  obtain ⟨hasRoles, e, he, r, hr, hpair⟩ := exists_compared_of_combine hc hp
  obtain ⟨_, _, -, hvars, -, -⟩ := combine_eq_ok_iff.1 hc
  have hne : bindings ≠ [] := by
    obtain ⟨b, hb, -⟩ := taken_of_mem_vars hd.wellFormed hbindings hvars e he
    exact List.ne_nil_of_mem hb
  have htaken : ∀ a ∈ c.vars, a.TakenAt d rows := by
    intro a ha
    obtain ⟨b, hb, hbinding, -, htaken⟩ := taken_of_mem_vars hd.wellFormed hbindings hvars a ha
    rwa [hbinding, Binding.rows_restrict_commonRows hdrawn hb] at htaken
  obtain ⟨factor, outcome, base, hlayout, hbase, hproperties⟩ :=
    exists_groups_of_shape hpair hshape
  obtain ⟨hfactor, houtcome⟩ : factor.TakenAt d rows ∧ outcome.TakenAt d rows := by
    rcases eq_or_eq_of_layoutOf hlayout with ⟨rfl, rfl⟩ | ⟨rfl, rfl⟩
    · exact ⟨htaken _ he, htaken _ hr⟩
    · exact ⟨htaken _ hr, htaken _ he⟩
  obtain ⟨hnames, hshape', hsamples⟩ := fibres_of_groupProperties hd.wellFormed hd.checked hrows
    hfactor houtcome (scales_of_groups hlayout).2 hproperties
  obtain ⟨hk, -⟩ := Shape.groupComparison.inj (hshape.symm.trans hshape')
  refine ⟨hrows.pairwise, fun row => ?_, e, he, r, hr, factor, outcome, hnames.trans hbase, hlayout,
    hfactor.findVariable_eq, houtcome.findVariable_eq, hk, hsamples⟩
  rw [Binding.mem_commonRows]
  exact and_iff_right hne

end Groups

/-- The columns of six scores under three conditions. -/
def conditionColumns : List (Column Float) := [
  ⟨⟨"cond", .nominal, some ["control", "placebo", "drug"]⟩,
    [.text "drug", .text "control", .text "drug", .text "placebo", .text "control", .text "drug"]⟩,
  ⟨⟨"score", .ratio, none⟩, [.real 5, .real 1, .real 7, .real 9, .real 2, .real 4]⟩]

/-- One filter leaves out the placebo, the other one a score of the drug; two conditions are
left. -/
theorem groups_are_fibres_of_conditions :
    let ctx : Context Float := ⟨.standard, some (.experiment ["cond"] ["score"]), ⟨∅, ∅⟩⟩
    let operands : List (Expression Float) :=
      [.filter .ne (.column "cond") (.literal (.text "placebo")),
        .filter .ne (.column "score") (.literal (.real 7))]
    ∃ d bindings c p, Dataset.ofColumns conditionColumns = .ok d ∧
      operands.mapM (evaluateBinding d ctx) = .ok bindings ∧
      Binding.commonRows bindings = [0, 1, 4, 5] ∧
      combine d (bindings.map (·.restrict (Binding.commonRows bindings)))
        (.experiment ["cond"] ["score"]) = .ok c ∧
      c.pairs = [p] ∧ p.shape = .groupComparison 2 false ∧
      p.samples = .groups ["control", "drug"] [[1, 2], [5, 4]] ∧
      (["control", "drug"].map fun label => d.fibre "cond" [0, 1, 4, 5] label) = [[1, 4], [0, 5]] ∧
      p.sampleSizes.get? "drug" = some 2 ∧ p.sampleSizes.get? "placebo" = none := by
  intro ctx operands
  obtain ⟨d, bindings, c, p, hd, hbindings, hrows, hc, hpairs, hshape, hsamples, hnames, hscore,
      hfibres⟩ :
      ∃ d bindings c p, Dataset.ofColumns conditionColumns = .ok d ∧
        operands.mapM (evaluateBinding d ctx) = .ok bindings ∧
        Binding.commonRows bindings = [0, 1, 4, 5] ∧
        combine d (bindings.map (·.restrict (Binding.commonRows bindings)))
          (.experiment ["cond"] ["score"]) = .ok c ∧
        c.pairs = [p] ∧ p.shape = .groupComparison 2 false ∧
        p.samples = .groups ["control", "drug"] [[1, 2], [5, 4]] ∧ p.names = ["cond", "score"] ∧
        d.findVariable "score" = .ok ⟨"score", .ratio, none⟩ ∧
        (["control", "drug"].map fun label => d.fibre "cond" [0, 1, 4, 5] label) =
          [[1, 4], [0, 5]] :=
    ⟨_, _, _, _, rfl, rfl, rfl, rfl, rfl, rfl, rfl, rfl, rfl, rfl⟩
  have hp : p ∈ c.pairs := by
    rw [hpairs]
    exact List.mem_singleton_self p
  obtain ⟨-, -, e, -, r, -, factor, outcome, hnames', hlayout, hfactor, -, -, samples, hgroups, -,
    hsizes⟩ := groups_are_fibres (.ofColumns hd) hbindings hc hp hshape
  rw [hrows] at hgroups hsizes
  obtain ⟨hlabels, -⟩ := Samples.groups.inj (hsamples.symm.trans hgroups)
  obtain ⟨he, hr⟩ : "cond" = e.var.name ∧ "score" = r.var.name := by
    simpa using hnames.symm.trans hnames'
  -- the score is not a factor
  have hname : factor.var.name = "cond" := by
    rcases eq_or_eq_of_layoutOf hlayout with ⟨rfl, -⟩ | ⟨rfl, -⟩
    · exact he.symm
    · rw [← hr] at hfactor
      have hscale := (scales_of_groups hlayout).1
      rw [← Except.ok.inj (hscore.symm.trans hfactor)] at hscale
      cases hscale
  rw [← hlabels, hname] at hsizes
  refine ⟨d, bindings, c, p, hd, hbindings, hrows, hc, hpairs, hshape, hsamples, hfibres, ?_, ?_⟩
  · rw [hsizes, if_pos (by decide)]
    exact congrArg (fun l : List (List Nat) => some (l.getD 1 []).length) hfibres
  · rw [hsizes, if_neg (by decide)]

end StudyAnalysis
