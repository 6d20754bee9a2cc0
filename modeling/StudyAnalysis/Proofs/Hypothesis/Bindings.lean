/-
**What the operands of a hypothesis are bound to.**

An operand selects cells of one column, or repeats one literal; filters take cells away and do
nothing else.  The whole of this is one invariant: the entries of a binding are a sublist of the
entries that its leftmost operand starts from.  Rows in ascending order, cells that are those of the
column, and the correctness of the binary search by which other modules read a binding all follow
from it.

Main definitions:

* `StudyAnalysis.Expression.source` — the column or literal that a selection starts from;
* `StudyAnalysis.Expression.literals` — the literals that occur in an expression;
* `StudyAnalysis.Binding.DrawnFrom` — **the invariant**: a binding is a sublist of all cells of its
  column, or of a literal at all rows.

Main results:

* `StudyAnalysis.Binding.search_eq_some_iff` — binary search finds exactly the entries of a list
  with ascending rows;
* `StudyAnalysis.evaluate_filter_eq_data` — a filter narrows the binding on its left;
* `StudyAnalysis.drawnFrom_of_evaluate` — evaluation keeps the invariant;
* `StudyAnalysis.evaluate_data_invariant` — what this means for rows, cells and reading.
-/

import StudyAnalysis.Hypothesis.Evaluation
import StudyAnalysis.Proofs.Data.Cells
import StudyAnalysis.Proofs.Data.WellFormed

set_option autoImplicit false
set_option relaxedAutoImplicit false

namespace StudyAnalysis

open Fallible

variable {α : Type}

namespace Binding

/-! ### Binary search -/

section Search

variable {entries : Series α} {m : Nat}

theorem lt_of_mem_take (h : entries.Pairwise fun e e' => e.1 < e'.1) (hm : m < entries.length)
    {e : Nat × Cell α} (he : e ∈ entries.take m) : e.1 < entries[m].1 := by
  rw [← List.take_append_drop m entries, List.pairwise_append] at h
  refine h.2.2 e he entries[m] ?_
  rw [List.drop_eq_getElem_cons hm]
  exact List.mem_cons_self

theorem le_of_mem_drop (h : entries.Pairwise fun e e' => e.1 < e'.1) (hm : m < entries.length)
    {e : Nat × Cell α} (he : e ∈ entries.drop m) : entries[m].1 ≤ e.1 := by
  have hdrop := h.sublist (List.drop_sublist m entries)
  rw [List.drop_eq_getElem_cons hm] at he hdrop
  rcases List.mem_cons.1 he with rfl | he
  · exact Nat.le_refl _
  · exact Nat.le_of_lt ((List.pairwise_cons.1 hdrop).1 e he)

/-- **Binary search finds exactly the entries** of a list with ascending rows. -/
theorem search_eq_some_iff {row : Nat} {cell : Cell α}
    (h : entries.Pairwise fun e e' => e.1 < e'.1) :
    search row entries = some cell ↔ (row, cell) ∈ entries := by
  -- the induction follows the search, which goes on in one half of the list
  induction entries using search.induct row with
  | case1 entries hshort =>
      rw [search, dif_pos hshort]
      match entries, hshort with
      | [], _ => simp
      | [e], _ =>
          simp only [List.head?_cons, Option.map_eq_some_iff, Option.filter_eq_some_iff,
            Option.some.injEq, beq_iff_eq, List.mem_singleton]
          constructor
          · rintro ⟨_, ⟨rfl, rfl⟩, rfl⟩
            rfl
          · rintro rfl
            exact ⟨_, ⟨rfl, rfl⟩, rfl⟩
  | case2 entries hlong hlength hlt ih =>
      rw [search, dif_neg hlong]
      dsimp only
      rw [if_pos hlt, ih (h.sublist (List.take_sublist _ _))]
      refine ⟨List.mem_of_mem_take, fun hmem => ?_⟩
      rw [← List.take_append_drop (entries.length / 2) entries, List.mem_append] at hmem
      rcases hmem with htake | hdrop
      · exact htake
      · -- the second half begins with the middle row, which is greater
        exact absurd hlt (Nat.not_lt.2 (le_of_mem_drop h hlength hdrop))
  | case3 entries hlong hlength hge ih =>
      rw [search, dif_neg hlong]
      dsimp only
      rw [if_neg hge, ih (h.sublist (List.drop_sublist _ _))]
      refine ⟨List.mem_of_mem_drop, fun hmem => ?_⟩
      rw [← List.take_append_drop (entries.length / 2) entries, List.mem_append] at hmem
      rcases hmem with htake | hdrop
      · -- all of the first half is smaller than the middle row
        exact absurd (lt_of_mem_take h hlength htake) hge
      · exact hdrop

end Search

/-- A binding with ascending rows is read right. -/
theorem cellAt_eq_some_iff {b : Binding α} (h : b.rows.Pairwise (· < ·)) {row : Nat}
    {cell : Cell α} : b.cellAt row = some cell ↔ (row, cell) ∈ b.entries :=
  search_eq_some_iff (List.pairwise_map.1 h)

end Binding

/-! ### Where a selection starts from -/

namespace Expression

/-- The column or literal that a selection starts from. -/
def source : Expression α → Expression α
  | filter _ left _ => left.source
  | e => e

mutual

/-- The literals that occur in an expression. -/
def literals : Expression α → List (Cell α)
  | column _ => []
  | literal value => [value]
  | filter _ left right => left.literals ++ right.literals
  | hypothesis _ operands _ => literalsOf operands
  | mean operand => operand.literals
  | median operand => operand.literals

/-- The literals that occur in several expressions. -/
def literalsOf : List (Expression α) → List (Cell α)
  | [] => []
  | e :: es => e.literals ++ literalsOf es

end

theorem mem_literals_of_source {value : Cell α} :
    ∀ {e : Expression α}, e.source = .literal value → value ∈ e.literals
  | column _, h => by cases h
  | literal _, h => by
      cases h
      exact List.mem_singleton_self value
  | filter _ _ _, h => List.mem_append_left _ (mem_literals_of_source h)
  | hypothesis _ _ _, h => by cases h
  | mean _, h => by cases h
  | median _, h => by cases h

end Expression

/-! ### The invariant -/

namespace Binding

theorem exists_entry {b : Binding α} {i row : Nat} (h : b.rows[i]? = some row) :
    ∃ cell, b.values[i]? = some cell ∧ (row, cell) ∈ b.entries := by
  rw [rows, List.getElem?_map, Option.map_eq_some_iff] at h
  obtain ⟨entry, hentry, rfl⟩ := h
  refine ⟨entry.2, ?_, List.mem_of_getElem? hentry⟩
  rw [values, List.getElem?_map, hentry]
  rfl

/-- **The invariant.**  A binding has some cells of its column, or a literal at some rows, in the
order in which the dataset has them. -/
inductive DrawnFrom (d : Dataset α) : Expression α → Binding α → Prop
  | column {name : String} {c : Column α} {entries : Series α} (hc : d.columns.get? name = some c)
      (h : entries.Sublist (c.entriesAt (List.range d.rowCount))) :
      DrawnFrom d (.column name) ⟨entries, some c.var⟩
  | literal {value : Cell α} {entries : Series α} (h : entries.Sublist (ofLiteral d value).entries) :
      DrawnFrom d (.literal value) ⟨entries, none⟩

namespace DrawnFrom

variable {d : Dataset α} {source : Expression α} {b : Binding α}

/-- **Narrowing keeps the invariant.** -/
theorem of_sublist (h : DrawnFrom d source b) {b' : Binding α}
    (hentries : b'.entries.Sublist b.entries) (hvar : b'.var = b.var) : DrawnFrom d source b' := by
  obtain ⟨entries', var'⟩ := b'
  cases h with
  | column hc h =>
      obtain rfl : var' = _ := hvar
      exact .column hc (hentries.trans h)
  | literal h =>
      obtain rfl : var' = _ := hvar
      exact .literal (hentries.trans h)

/-- The rows of a binding are rows of the dataset, in ascending order. -/
theorem rows_sublist (h : DrawnFrom d source b) : b.rows.Sublist (List.range d.rowCount) := by
  cases h with
  | column _ h => exact (h.map _).trans Column.map_fst_entriesAt_sublist
  | literal h =>
      have hrows := h.map (·.1)
      rwa [ofLiteral, List.map_map, Function.comp_def, List.map_id'] at hrows

theorem pairwise_rows (h : DrawnFrom d source b) : b.rows.Pairwise (· < ·) :=
  List.pairwise_lt_range.sublist h.rows_sublist

theorem row_lt (h : DrawnFrom d source b) {row : Nat} (hrow : row ∈ b.rows) : row < d.rowCount :=
  List.mem_range.1 (h.rows_sublist.subset hrow)

/-- The cells of a variable are those of its column. -/
theorem of_var_eq_some (h : DrawnFrom d source b) {v : Variable} (hv : b.var = some v) :
    ∃ name c, source = .column name ∧ d.columns.get? name = some c ∧ c.var = v ∧
      ∀ e ∈ b.entries, c.cells[e.1]? = some e.2 := by
  cases h with
  | @column name c entries hc h =>
      refine ⟨name, c, rfl, hc, Option.some.inj hv, fun e he => ?_⟩
      exact (Column.mem_entriesAt.1 (h.subset he)).2
  | literal _ => cases hv

/-- Without a variable, all cells are one literal. -/
theorem of_var_eq_none (h : DrawnFrom d source b) (hv : b.var = none) :
    ∃ value, source = .literal value ∧ ∀ e ∈ b.entries, e.2 = value := by
  cases h with
  | column _ _ => cases hv
  | @literal value entries h =>
      refine ⟨value, rfl, fun e he => ?_⟩
      obtain ⟨row, -, rfl⟩ := List.mem_map.1 (h.subset he)
      rfl

end DrawnFrom

/-! ### Binding a column and narrowing -/

section Narrowing

variable {d : Dataset α} {b b' : Binding α}

/-- What a test retains is a part of the binding. -/
theorem sublist_of_retain {ε : Type} {keep : Nat → Cell α → Except ε Bool}
    (h : b.retain keep = .ok b') : b'.entries.Sublist b.entries ∧ b'.var = b.var := by
  obtain ⟨entries, hentries, h⟩ := bind_eq_ok_iff.1 h
  obtain rfl := Except.ok.inj h
  obtain ⟨-, rfl⟩ := filterM_eq_ok_iff.1 hentries
  exact ⟨List.filter_sublist, rfl⟩

variable [Numeric α]

/-- A column is bound to all its cells. -/
theorem ofColumn_eq_ok {name : String} {c : Column α}
    (hc : d.columns.get? name = some c) :
    ofColumn d name = .ok ⟨c.entriesAt (List.range d.rowCount), some c.var⟩ := by
  rw [ofColumn, Dataset.select_nil hc, ok_bind, Dataset.findVariable,
    Dataset.column_eq_ok_iff.2 hc]
  rfl

theorem exists_of_ofColumn {name : String}
    (h : ofColumn d name = .ok b) :
    ∃ c, d.columns.get? name = some c ∧
      b = ⟨c.entriesAt (List.range d.rowCount), some c.var⟩ := by
  cases hc : d.columns.get? name with
  | none =>
      rw [ofColumn, Dataset.select, Dataset.column, hc] at h
      cases h
  | some c =>
      rw [ofColumn_eq_ok hc] at h
      exact ⟨c, rfl, (Except.ok.inj h).symm⟩

theorem sublist_of_filterEqual {keepEqual : Bool} {right : Binding α} {literal : Option (Cell α)}
    (h : filterEqual keepEqual b right literal = .ok b') :
    b'.entries.Sublist b.entries ∧ b'.var = b.var := by
  rw [filterEqual] at h
  dsimp only at h
  split at h
  · split at h
    · obtain ⟨_, -, h⟩ := bind_eq_ok_iff.1 h
      exact sublist_of_retain h
    · exact sublist_of_retain h
  · exact sublist_of_retain h

theorem sublist_of_filterOrdered {text : String} {comparison : Comparison} {comparand : Cell α}
    (h : filterOrdered text comparison b comparand = .ok b') :
    b'.entries.Sublist b.entries ∧ b'.var = b.var := by
  rw [filterOrdered] at h
  split at h
  · cases h
  · obtain ⟨_, -, h⟩ := bind_eq_ok_iff.1 h
    exact sublist_of_retain h

end Narrowing

end Binding

/-! ### Evaluation -/

section Evaluation

theorem Evaluated.binding_eq_ok_iff [NumberText α] {operand : Expression α} {x : Evaluated α}
    {b : Binding α} : x.binding operand = .ok b ↔ x = .data b := by
  cases x <;> simp [Evaluated.binding]

variable [Numeric α] [Tails α] [NumberText α] {d : Dataset α} {ctx : Context α}

theorem evaluateBinding_eq_ok_iff {e : Expression α} {b : Binding α} :
    evaluateBinding d ctx e = .ok b ↔ evaluate d ctx e = .ok (.data b) := by
  simp only [evaluateBinding, bind_eq_ok_iff, Evaluated.binding_eq_ok_iff, exists_eq_right]

/-- **A filter narrows the binding on its left.** -/
theorem exists_of_evaluate_filter {comparison : Comparison} {left right : Expression α}
    {b : Binding α} (h : evaluate d ctx (.filter comparison left right) = .ok (.data b)) :
    ∃ l, evaluate d ctx left = .ok (.data l) ∧ b.entries.Sublist l.entries ∧ b.var = l.var := by
  rw [evaluate] at h
  split at h
  · dsimp only at h
    split at h
    · obtain ⟨x, hx, h⟩ := bind_eq_ok_iff.1 h
      obtain ⟨l, hl, h⟩ := bind_eq_ok_iff.1 h
      obtain ⟨b', hb', h⟩ := bind_eq_ok_iff.1 h
      cases h
      obtain rfl := Evaluated.binding_eq_ok_iff.1 hl
      exact ⟨l, hx, Binding.sublist_of_filterOrdered hb'⟩
    · cases h
  · obtain ⟨x, hx, h⟩ := bind_eq_ok_iff.1 h
    obtain ⟨l, hl, h⟩ := bind_eq_ok_iff.1 h
    obtain ⟨y, -, h⟩ := bind_eq_ok_iff.1 h
    obtain ⟨r, -, h⟩ := bind_eq_ok_iff.1 h
    obtain ⟨b', hb', h⟩ := bind_eq_ok_iff.1 h
    cases h
    obtain rfl := Evaluated.binding_eq_ok_iff.1 hl
    exact ⟨l, hx, Binding.sublist_of_filterEqual hb'⟩

/-- **Evaluation keeps the invariant.** -/
theorem drawnFrom_of_evaluate :
    ∀ {e : Expression α} {b : Binding α}, evaluate d ctx e = .ok (.data b) →
      b.DrawnFrom d e.source
  | .column name, b, h => by
      rw [evaluate] at h
      obtain ⟨b', hb', h⟩ := bind_eq_ok_iff.1 h
      cases h
      obtain ⟨c, hc, rfl⟩ := Binding.exists_of_ofColumn hb'
      exact .column hc (List.Sublist.refl _)
  | .literal value, b, h => by
      rw [evaluate] at h
      cases h
      exact .literal (List.Sublist.refl _)
  | .filter comparison left right, b, h => by
      obtain ⟨l, hl, hentries, hvar⟩ := exists_of_evaluate_filter h
      exact (drawnFrom_of_evaluate hl).of_sublist hentries hvar
  | .hypothesis kind operands predictions, b, h => by
      -- a hypothesis has results, never a binding
      rw [evaluate] at h
      cases hdesign : ctx.design with
      | none =>
          simp only [hdesign] at h
          cases h
      | some design =>
          simp only [hdesign] at h
          obtain ⟨⟨⟩, -, h⟩ := bind_eq_ok_iff.1 h
          split at h
          · cases h
          · obtain ⟨_, -, h⟩ := bind_eq_ok_iff.1 h
            obtain ⟨_, -, h⟩ := bind_eq_ok_iff.1 h
            cases h
  | .mean operand, b, h => by
      rw [evaluate] at h
      obtain ⟨_, -, h⟩ := bind_eq_ok_iff.1 h
      obtain ⟨_, -, h⟩ := bind_eq_ok_iff.1 h
      obtain ⟨_, -, h⟩ := bind_eq_ok_iff.1 h
      cases h
  | .median operand, b, h => by
      rw [evaluate] at h
      cases h

/-! ### What can be relied on -/

/-- What can be relied on of the binding that an expression evaluates to. -/
structure Binding.Faithful (d : Dataset α) (e : Expression α) (b : Binding α) : Prop where
  /-- The rows ascend strictly. -/
  pairwise_rows : b.rows.Pairwise (· < ·)
  /-- They are rows of the dataset. -/
  row_lt : ∀ row ∈ b.rows, row < d.rowCount
  /-- There is a cell for every row and no other. -/
  length_values : b.values.length = b.rows.length
  /-- The variable is that of a column, and each cell is the one of the column at its row. -/
  of_var_eq_some : ∀ v, b.var = some v → ∃ c, d.columns.get? v.name = some c ∧ c.var = v ∧
    ∀ (i row : Nat), b.rows[i]? = some row → b.values[i]? = c.cells[row]?
  /-- Without a variable, all cells are one literal of the expression. -/
  of_var_eq_none : b.var = none → ∃ value ∈ e.literals, ∀ cell ∈ b.values, cell = value
  /-- Binary search finds a cell exactly at the rows of the binding. -/
  isSome_cellAt : ∀ row, (b.cellAt row).isSome ↔ row ∈ b.rows
  /-- The cell that it finds is the one that stands beside the row. -/
  cellAt_eq : ∀ (i row : Nat), b.rows[i]? = some row → b.cellAt row = b.values[i]?

omit [Numeric α] [Tails α] [NumberText α] in
theorem Binding.DrawnFrom.faithful {e : Expression α} {b : Binding α} (hd : d.WellFormed)
    (h : b.DrawnFrom d e.source) : b.Faithful d e where
  pairwise_rows := h.pairwise_rows
  row_lt row hrow := h.row_lt hrow
  length_values := by rw [values, rows, List.length_map, List.length_map]
  of_var_eq_some v hv := by
    obtain ⟨name, c, -, hc, rfl, hcells⟩ := h.of_var_eq_some hv
    refine ⟨c, by rwa [hd.name_eq hc], rfl, fun i row hrow => ?_⟩
    obtain ⟨cell, hcell, hentry⟩ := exists_entry hrow
    rw [hcell, hcells (row, cell) hentry]
  of_var_eq_none hv := by
    obtain ⟨value, hsource, hcells⟩ := h.of_var_eq_none hv
    refine ⟨value, Expression.mem_literals_of_source hsource, fun cell hcell => ?_⟩
    obtain ⟨entry, hentry, rfl⟩ := List.mem_map.1 hcell
    exact hcells entry hentry
  isSome_cellAt row := by
    rw [Option.isSome_iff_exists, rows, List.mem_map]
    constructor
    · rintro ⟨cell, hcell⟩
      exact ⟨(row, cell), (cellAt_eq_some_iff h.pairwise_rows).1 hcell, rfl⟩
    · rintro ⟨entry, hentry, rfl⟩
      exact ⟨entry.2, (cellAt_eq_some_iff h.pairwise_rows).2 hentry⟩
  cellAt_eq i row hrow := by
    obtain ⟨cell, hcell, hentry⟩ := exists_entry hrow
    rw [hcell, (cellAt_eq_some_iff h.pairwise_rows).2 hentry]

/-- **What an expression evaluates to can be relied on**, and a filter keeps some rows of the
binding on its left, with their variable. -/
theorem evaluate_data_invariant {e : Expression α} {b : Binding α} (hd : d.Built)
    (h : evaluate d ctx e = .ok (.data b)) :
    b.Faithful d e ∧
      ∀ comparison left right, e = .filter comparison left right →
        ∃ l, evaluate d ctx left = .ok (.data l) ∧ b.rows.Sublist l.rows ∧ b.var = l.var := by
  refine ⟨(drawnFrom_of_evaluate h).faithful hd.wellFormed, ?_⟩
  rintro comparison left right rfl
  obtain ⟨l, hl, hentries, hvar⟩ := exists_of_evaluate_filter h
  exact ⟨l, hl, hentries.map _, hvar⟩

end Evaluation

/-! ### Two ratings of three participants -/

/-- The ratings before a treatment. -/
def ratedBefore : Column Float :=
  ⟨⟨"before", .nominal, some ["low", "high"]⟩, [.text "low", .text "high", .text "low"]⟩

/-- The ratings after it. -/
def ratedAfter : Column Float :=
  ⟨⟨"after", .nominal, some ["low", "high"]⟩, [.text "high", .text "high", .text "low"]⟩

/-- The table of both. -/
def ratings : Dataset Float :=
  ⟨⟨[("after", ratedAfter), ("before", ratedBefore)]⟩, 3, none⟩

theorem built_ratings : ratings.Built :=
  @Dataset.Built.ofColumns _ _ _ [ratedBefore, ratedAfter] ratings rfl

/-- Of the low ratings before the treatment, only the last one is the same after it. -/
theorem faithful_of_nested_filters :
    let ctx : Context Float := ⟨.standard, none, ⟨∅, ∅⟩⟩
    let low : Expression Float := .filter .ne (.column "before") (.literal (.text "high"))
    let same : Expression Float := .filter .eq low (.column "after")
    let b : Binding Float := ⟨[(2, .text "low")], some ratedBefore.var⟩
    ratings.Built ∧ evaluate ratings ctx same = .ok (.data b) ∧ b.Faithful ratings same ∧
      ∃ l, evaluate ratings ctx low = .ok (.data l) ∧ b.rows.Sublist l.rows ∧ b.var = l.var := by
  intro ctx low same b
  have h : evaluate ratings ctx same = .ok (.data b) := rfl
  have hinvariant := evaluate_data_invariant built_ratings h
  exact ⟨built_ratings, h, hinvariant.1, hinvariant.2 .eq low (.column "after") rfl⟩

end StudyAnalysis
