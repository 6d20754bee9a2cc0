/-
**The six comparisons with one literal agree with each other.**

Filters for equality look up the literal at each row and compare cells; ordered filters compare
ranks or numbers.  Whichever way a filter goes, there is one side of the literal on which a cell
stands, and the filter keeps the cell exactly if the relation holds on that side.  So the rows before,
at and after the literal are a partition of all rows, and the other three filters keep unions and
complements of these.

Ranks are compared as computed numbers.  They compare as positions of labels do as long as the
numbers count the labels, which doubles do for all labels that a memory can hold.

Main definitions:

* `StudyAnalysis.Coherent` — six selections of rows fit together;
* `StudyAnalysis.Binding.onSides` — the cells on whose sides a relation holds;
* `StudyAnalysis.Variable.Comparand` — a literal with which a variable compares in every way;
* `StudyAnalysis.Variable.side` — the side of a literal on which a cell stands.

Main results:

* `StudyAnalysis.Binding.coherent_onSides` — selections by sides are coherent;
* `StudyAnalysis.Variable.comparand_iff` — the literals with which a variable compares;
* `StudyAnalysis.Variable.compare_eq_side` — every comparison looks at the side only;
* `StudyAnalysis.evaluate_filter_literal` — which cells a filter keeps;
* `StudyAnalysis.evaluate_comparisons_coherent` — **the six filters by one literal are coherent**.
-/

import Mathlib
import StudyAnalysis.Proofs.Data.Representation
import StudyAnalysis.Proofs.Hypothesis.Bindings
import StudyAnalysis.Proofs.Number.Counts

set_option autoImplicit false
set_option relaxedAutoImplicit false

namespace StudyAnalysis

open Fallible

variable {α : Type}

/-! ### Coherence -/

/-- Six selections of rows fit together: three of them are a partition of the rows of an operand, and
the others are unions and the complement of these. -/
structure Coherent (l : Binding α) (kept : Comparison → Binding α) : Prop where
  /-- Cells are taken away and nothing else is done. -/
  narrows : ∀ comparison,
    (kept comparison).entries.Sublist l.entries ∧ (kept comparison).var = l.var
  nodup : l.rows.Nodup
  partition : ((kept .lt).rows ++ (kept .eq).rows ++ (kept .gt).rows).Perm l.rows
  mem_le : ∀ row, row ∈ (kept .le).rows ↔ row ∈ (kept .lt).rows ∨ row ∈ (kept .eq).rows
  mem_ge : ∀ row, row ∈ (kept .ge).rows ↔ row ∈ (kept .gt).rows ∨ row ∈ (kept .eq).rows
  mem_ne : ∀ row, row ∈ (kept .ne).rows ↔ row ∈ l.rows ∧ row ∉ (kept .eq).rows

/-- The elements of a list are those on each of three sides. -/
theorem perm_sides {β : Type} (side : β → Ordering) (xs : List β) :
    (xs.filter (fun x => Comparison.lt.holds (side x)) ++
      xs.filter (fun x => Comparison.eq.holds (side x)) ++
      xs.filter (fun x => Comparison.gt.holds (side x))).Perm xs := by
  have hrest := List.filter_append_perm (fun x => Comparison.eq.holds (side x))
    (xs.filter fun x => !Comparison.lt.holds (side x))
  have heq : ∀ o, (Comparison.eq.holds o && !Comparison.lt.holds o) = Comparison.eq.holds o := by
    decide
  have hgt : ∀ o, ((!Comparison.eq.holds o) && !Comparison.lt.holds o) =
      Comparison.gt.holds o := by decide
  simp only [List.filter_filter, heq, hgt] at hrest
  rw [List.append_assoc]
  exact (hrest.append_left _).trans (List.filter_append_perm _ xs)

namespace Binding

/-- The cells of a binding on whose sides a relation holds. -/
def onSides (l : Binding α) (side : Cell α → Ordering) (comparison : Comparison) : Binding α :=
  { l with entries := l.entries.filter fun e => comparison.holds (side e.2) }

variable {l : Binding α} {side : Cell α → Ordering} {row : Nat}

theorem mem_rows_onSides {comparison : Comparison} :
    row ∈ (l.onSides side comparison).rows ↔
      ∃ cell, (row, cell) ∈ l.entries ∧ comparison.holds (side cell) = true := by
  simp only [rows, onSides, List.mem_map, List.mem_filter, Prod.exists, exists_and_right,
    exists_eq_right]

/-- A row of distinct rows is on one side. -/
theorem exists_side (hrows : l.rows.Nodup) (hrow : row ∈ l.rows) :
    ∃ o, ∀ comparison, row ∈ (l.onSides side comparison).rows ↔ comparison.holds o = true := by
  obtain ⟨⟨_, cell⟩, hcell, rfl⟩ := List.mem_map.1 hrow
  refine ⟨side cell, fun comparison => mem_rows_onSides.trans ⟨?_, fun h => ⟨cell, hcell, h⟩⟩⟩
  rintro ⟨cell', hcell', h⟩
  obtain ⟨⟩ := List.inj_on_of_nodup_map hrows hcell hcell' rfl
  exact h

/-- **Selections by sides are coherent.** -/
theorem coherent_onSides (hrows : l.rows.Nodup) (side : Cell α → Ordering) :
    Coherent l (l.onSides side) where
  narrows _ := ⟨List.filter_sublist, rfl⟩
  nodup := hrows
  partition := by
    have h := (perm_sides (fun e => side e.2) l.entries).map (·.1)
    rwa [List.map_append, List.map_append] at h
  mem_le row := by
    have hholds : ∀ o, Comparison.le.holds o = true ↔
        Comparison.lt.holds o = true ∨ Comparison.eq.holds o = true := by decide
    simp only [mem_rows_onSides, hholds, and_or_left, exists_or]
  mem_ge row := by
    have hholds : ∀ o, Comparison.ge.holds o = true ↔
        Comparison.gt.holds o = true ∨ Comparison.eq.holds o = true := by decide
    simp only [mem_rows_onSides, hholds, and_or_left, exists_or]
  mem_ne row := by
    have hholds : ∀ o, Comparison.ne.holds o = true ↔ ¬ Comparison.eq.holds o = true := by decide
    by_cases hrow : row ∈ l.rows
    · obtain ⟨o, ho⟩ := exists_side hrows hrow
      rw [ho, ho, hholds, and_iff_right hrow]
    · refine iff_of_false (fun h => hrow ?_) fun h => hrow h.1
      exact (List.filter_sublist.map _).subset h

end Binding

variable [Numeric α]

/-! ### Sides of a literal -/

namespace Cell

variable {cell comparand : Cell α} {x y : α}

theorem agrees_of_number? (hx : cell.number? = some x) (hy : comparand.number? = some y) :
    cell.agrees comparand = (x == y) := by
  cases cell with
  | text _ => cases hx
  | int _ | real _ =>
      rw [agrees, hx, hy]
      exact nofun

end Cell

namespace Variable

variable {v : Variable} {cell comparand : Cell α}

/-! #### Labels and numbers as thresholds -/

/-- The rank of a label is one more than its position. -/
theorem rankOf_eq_some {label : String} (h : label ∈ v.labels) :
    v.rankOf label = some (v.labels.idxOf label + 1) := by
  obtain ⟨i, hi⟩ := Option.isSome_iff_exists.1 (List.isSome_idxOf?.2 h)
  rw [rankOf, List.idxOf_eq_getD_idxOf?, hi]
  rfl

theorem comparandKey_label (hv : v.scale = .ordinal) {label : String} (h : label ∈ v.labels)
    (comparison : Comparison) :
    v.comparandKey comparison (.text label : Cell α) =
      .ok (Numeric.ofNat (v.labels.idxOf label + 1)) := by
  rw [comparandKey.eq_def, hv]
  dsimp only
  rw [rankOf_eq_some h]

theorem orderKey_label (hv : v.scale = .ordinal) {label : String} (h : label ∈ v.labels) :
    v.orderKey (.text label : Cell α) = some (Numeric.ofNat (v.labels.idxOf label + 1)) := by
  rw [orderKey, hv]
  change (v.rankOf label).map Numeric.ofNat = _
  rw [rankOf_eq_some h]
  rfl

theorem comparandKey_number (hv : v.scale.isContinuous = true) {x : α}
    (hx : comparand.number? = some x) (comparison : Comparison) :
    v.comparandKey comparison comparand = .ok x := by
  rw [comparandKey.eq_def]
  cases hscale : v.scale with
  | nominal | ordinal =>
      rw [hscale] at hv
      cases hv
  | interval | ratio => rw [hx]

theorem orderKey_number (hv : v.scale.isContinuous = true) :
    v.orderKey cell = cell.number? := by
  rw [orderKey]
  cases hscale : v.scale with
  | nominal | ordinal =>
      rw [hscale] at hv
      cases hv
  | interval | ratio => rfl

theorem checkComparand_eq_ok_iff (hv : v.scale.isContinuous = true) :
    v.checkComparand comparand = .ok () ↔ comparand.number?.isSome = true := by
  rw [checkComparand.eq_def]
  cases hscale : v.scale with
  | nominal | ordinal =>
      rw [hscale] at hv
      cases hv
  | interval | ratio =>
      dsimp only
      split
      · exact iff_of_true rfl ‹_›
      · exact iff_of_false nofun ‹_›

/-! #### Literals that compare -/

/-- A literal with which a variable compares in every way: it is accepted by filters for equality
and by ordered ones, and it is not an undefined number. -/
structure Comparand (v : Variable) (comparand : Cell α) : Prop where
  equality : v.checkComparand comparand = .ok ()
  ordered : ∃ threshold, v.comparandKey .lt comparand = .ok threshold
  defined : ∀ x, comparand.number? = some x → (x == x) = true

/-- An ordinal variable compares with its labels, and a continuous one with the numbers that are
defined. -/
theorem comparand_iff : v.Comparand comparand ↔
    (v.scale = .ordinal ∧ ∃ label ∈ v.labels, comparand = .text label) ∨
      v.scale.isContinuous = true ∧ ∃ x, comparand.number? = some x ∧ (x == x) = true := by
  constructor
  · rintro ⟨hequality, ⟨threshold, hordered⟩, hdefined⟩
    cases hv : v.scale with
    | nominal =>
        rw [comparandKey.eq_def, hv] at hordered
        cases hordered
    | ordinal =>
        rw [checkComparand.eq_def, hv] at hequality
        cases comparand with
        | int _ | real _ => cases hequality
        | text label =>
            dsimp only at hequality
            split at hequality
            · exact .inl ⟨rfl, label, (v.isSome_rankOf label).1 ‹_›, rfl⟩
            · cases hequality
    | interval | ratio =>
        have hnumber := (checkComparand_eq_ok_iff (by rw [hv]; rfl)).1 hequality
        obtain ⟨x, hx⟩ := Option.isSome_iff_exists.1 hnumber
        exact .inr ⟨rfl, x, hx, hdefined x hx⟩
  · rintro (⟨hv, label, hlabel, rfl⟩ | ⟨hv, x, hx, hdefined⟩)
    · refine ⟨?_, ⟨_, comparandKey_label hv hlabel .lt⟩, nofun⟩
      rw [checkComparand.eq_def, hv]
      exact if_pos ((v.isSome_rankOf label).2 hlabel)
    · refine ⟨(checkComparand_eq_ok_iff hv).2 (by rw [hx]; rfl), ⟨x, comparandKey_number hv hx .lt⟩,
        fun y hy => ?_⟩
      obtain rfl := Option.some.inj (hx.symm.trans hy)
      exact hdefined

theorem Comparand.exists_key (h : v.Comparand comparand) (comparison : Comparison) :
    ∃ threshold, v.comparandKey comparison comparand = .ok threshold := by
  rcases comparand_iff.1 h with ⟨hv, label, hlabel, rfl⟩ | ⟨hv, x, hx, -⟩
  · exact ⟨_, comparandKey_label hv hlabel comparison⟩
  · exact ⟨x, comparandKey_number hv hx comparison⟩

/-- The side of a literal on which a cell stands: labels stand as they are declared, and numbers as
they compare. -/
def side (v : Variable) (cell comparand : Cell α) : Ordering :=
  match cell, comparand with
  | .text label, .text bound => Ord.compare (v.labels.idxOf label) (v.labels.idxOf bound)
  | _, _ =>
    match cell.number?, comparand.number? with
    | some x, some y => (Numeric.order? x y).getD .eq
    | _, _ => .eq

theorem side_number {x y : α} {o : Ordering} (hx : cell.number? = some x)
    (hy : comparand.number? = some y) (ho : Numeric.order? x y = some o) :
    v.side cell comparand = o := by
  cases cell with
  | text _ => cases hx
  | int _ | real _ =>
      rw [side, hx, hy]
      · dsimp only
        rw [ho]
        rfl
      · exact nofun

/-- A comparison that is decided by a side: it is the relation on that side if it looks at an order,
and equality of the cells if it does not. -/
theorem compare_of_order {o : Ordering} {threshold : α}
    (hequal : cell.agrees comparand = (o == .eq))
    (hkey : ∀ comparison, v.comparandKey comparison comparand = .ok threshold)
    (horder : (v.orderKey cell).bind (Numeric.order? · threshold) = some o)
    (comparison : Comparison) :
    v.compare cell comparison comparand = .ok (comparison.holds o) := by
  rw [compare]
  cases comparison with
  | eq | ne =>
      rw [if_neg (by decide), hequal]
      cases o <;> rfl
  | lt | le | gt | ge =>
      rw [if_pos (by decide), hkey, ok_bind, horder]
      rfl

/-- **Every comparison looks at the side only**: a cell that the data may hold is kept exactly if the
relation holds on the side of the literal on which the cell stands. -/
theorem compare_eq_side [OrderFaithful α] (hcomparand : v.Comparand comparand)
    (hcounts : v.scale = .ordinal → Numeric.CountsUpTo α v.labels.length)
    (hcell : v.checkCell cell = .ok ()) (comparison : Comparison) :
    v.compare cell comparison comparand = .ok (comparison.holds (v.side cell comparand)) := by
  rcases comparand_iff.1 hcomparand with ⟨hv, bound, hbound, rfl⟩ | ⟨hv, y, hy, hdefined⟩
  · obtain ⟨label, hlabel, rfl⟩ := exists_label_of_checkCell (by rw [hv]; rfl) hcell
    refine compare_of_order ?_ (comparandKey_label hv hbound) ?_ comparison
    · -- labels are equal exactly if they stand at one position
      rw [side, Cell.agrees, Bool.eq_iff_iff, beq_iff_eq, beq_iff_eq, Nat.compare_eq_eq,
        List.idxOf_inj hlabel]
    · rw [orderKey_label hv hlabel, Option.bind_some,
        hcounts hv _ _ (List.idxOf_lt_length_iff.2 hlabel) (List.idxOf_lt_length_iff.2 hbound),
        side, Nat.compare_eq_ite_lt, Nat.compare_eq_ite_lt]
      simp only [Nat.succ_eq_add_one, Nat.add_lt_add_iff_right]
  · obtain ⟨x, hx, hfinite⟩ := exists_number_of_checkCell hv hcell
    obtain ⟨o, ho⟩ := Option.isSome_iff_exists.1 (OrderFaithful.isSome_order? hfinite hdefined)
    rw [side_number hx hy ho]
    refine compare_of_order ?_ (comparandKey_number hv hy) ?_ comparison
    · rw [Cell.agrees_of_number? hx hy, Bool.eq_iff_iff, OrderFaithful.beq_iff, ho]
      simp
    · rw [orderKey_number hv, hx, Option.bind_some, ho]

end Variable

/-! ### Filters by a literal -/

namespace Binding

variable {d : Dataset α} {b : Binding α}

omit [Numeric α] in
theorem retain_eq_ok {ε : Type} {test : Nat → Cell α → Except ε Bool} (keep : Cell α → Bool)
    (h : ∀ e ∈ b.entries, test e.1 e.2 = .ok (keep e.2)) :
    b.retain test = .ok { b with entries := b.entries.filter fun e => keep e.2 } := by
  rw [retain, filterM_of_eq_ok (fun e : Nat × Cell α => keep e.2) fun e he => h e he]
  rfl

omit [Numeric α] in
/-- A literal has a cell at every row of the dataset. -/
theorem cellAt_ofLiteral (value : Cell α) {row : Nat} (hrow : row < d.rowCount) :
    (ofLiteral d value).cellAt row = some value := by
  have hrows : (ofLiteral d value).rows = List.range d.rowCount := by
    rw [ofLiteral, rows, List.map_map, Function.comp_def, List.map_id']
  refine (cellAt_eq_some_iff ?_).2 (List.mem_map.2 ⟨row, List.mem_range.2 hrow, rfl⟩)
  rw [hrows]
  exact List.pairwise_lt_range

variable {v : Variable} {comparand : Cell α} (keep : Cell α → Bool)

theorem filterOrdered_eq_ok {text : String} {comparison : Comparison} (hv : b.var = some v)
    (hkey : ∃ threshold, v.comparandKey comparison comparand = .ok threshold)
    (h : ∀ e ∈ b.entries, v.compare e.2 comparison comparand = .ok (keep e.2)) :
    filterOrdered text comparison b comparand =
      .ok { b with entries := b.entries.filter fun e => keep e.2 } := by
  obtain ⟨threshold, hkey⟩ := hkey
  obtain ⟨entries, _⟩ := b
  obtain rfl := hv
  rw [filterOrdered]
  dsimp only
  rw [hkey, ok_bind, retain_eq_ok keep h]

theorem filterEqual_eq_ok {keepEqual : Bool} (hv : b.var = some v)
    (hcheck : v.checkComparand comparand = .ok ()) (hrows : ∀ e ∈ b.entries, e.1 < d.rowCount)
    (h : ∀ e ∈ b.entries, (e.2.agrees comparand == keepEqual) = keep e.2) :
    filterEqual keepEqual b (ofLiteral d comparand) (some comparand) =
      .ok { b with entries := b.entries.filter fun e => keep e.2 } := by
  obtain ⟨entries, _⟩ := b
  obtain rfl := hv
  rw [filterEqual]
  dsimp only
  rw [hcheck, ok_bind]
  refine retain_eq_ok keep fun e he => ?_
  rw [cellAt_ofLiteral comparand (hrows e he), Option.any_some, h e he, pure_eq_ok]

end Binding

section Filters

variable [Tails α] [NumberText α] {d : Dataset α} {ctx : Context α} {left : Expression α}
  {l : Binding α} {v : Variable} {comparand : Cell α}

/-- The cells of a selection may be in the column of its variable. -/
theorem checkCell_of_evaluate (hd : d.Built) (hl : evaluate d ctx left = .ok (.data l))
    (hv : l.var = some v) : ∀ e ∈ l.entries, v.checkCell e.2 = .ok () := by
  obtain ⟨name, c, -, hc, rfl, hcells⟩ := (drawnFrom_of_evaluate hl).of_var_eq_some hv
  intro e he
  exact hd.checked name c hc e.2 (List.mem_of_getElem? (hcells e he))

/-- **A filter by a literal** keeps the cells that stand on a side on which its relation holds. -/
theorem evaluate_filter_literal [OrderFaithful α] (hd : d.Built)
    (hl : evaluate d ctx left = .ok (.data l)) (hv : l.var = some v)
    (hcomparand : v.Comparand comparand)
    (hcounts : v.scale = .ordinal → Numeric.CountsUpTo α v.labels.length)
    (comparison : Comparison) :
    evaluate d ctx (.filter comparison left (.literal comparand)) =
      .ok (.data (l.onSides (fun cell => v.side cell comparand) comparison)) := by
  let keep : Cell α → Bool := fun cell => comparison.holds (v.side cell comparand)
  have hside : ∀ e ∈ l.entries, v.compare e.2 comparison comparand = .ok (keep e.2) := fun e he =>
    Variable.compare_eq_side hcomparand hcounts (checkCell_of_evaluate hd hl hv e he) comparison
  rw [evaluate, hl]
  split
  · rw [Expression.literal?]
    dsimp only
    rw [ok_bind, Evaluated.binding, ok_bind,
      Binding.filterOrdered_eq_ok keep hv (hcomparand.exists_key comparison) hside]
    rfl
  · rw [ok_bind, Evaluated.binding, ok_bind, evaluate, ok_bind, Evaluated.binding, ok_bind,
      Expression.literal?, Binding.filterEqual_eq_ok keep hv hcomparand.equality ?_ ?_]
    · rfl
    · exact fun e he => (drawnFrom_of_evaluate hl).row_lt (List.mem_map_of_mem he)
    · intro e he
      have h := hside e he
      rw [Variable.compare, if_neg ‹_›] at h
      exact Except.ok.inj h

end Filters

/-- **The six filters by one literal are coherent.**  Whatever selection of an ordinal or continuous
variable is filtered, all six filters by a literal with which it compares succeed.  The rows before,
at and after the literal are a partition of the rows of the selection, and the other filters keep
unions and the complement of these.  For an ordinal variable the rows before a label are those of the
labels that are declared earlier.

Ranks are doubles, which tell fewer than `2 ^ 53` labels apart; more of them do not fit into any
memory. -/
theorem evaluate_comparisons_coherent {d : Dataset Float} {ctx : Context Float}
    {left : Expression Float} {l : Binding Float} {v : Variable} {comparand : Cell Float}
    (hd : d.Built) (hl : evaluate d ctx left = .ok (.data l)) (hv : l.var = some v)
    (hcomparand : v.Comparand comparand)
    (hlabels : v.scale = .ordinal → v.labels.length < 2 ^ 53) :
    ∃ kept : Comparison → Binding Float,
      (∀ comparison, evaluate d ctx (.filter comparison left (.literal comparand)) =
        .ok (.data (kept comparison))) ∧
      Coherent l kept ∧
      (v.scale = .ordinal → ∃ bound ∈ v.labels, comparand = .text bound ∧
        ∀ row, row ∈ (kept .lt).rows ↔ ∃ label, (row, .text label) ∈ l.entries ∧
          v.labels.idxOf label < v.labels.idxOf bound) := by
  have hrows : l.rows.Nodup :=
    (drawnFrom_of_evaluate hl).pairwise_rows.imp fun h => Nat.ne_of_lt h
  refine ⟨l.onSides fun cell => v.side cell comparand, fun comparison => ?_,
    Binding.coherent_onSides hrows _, fun hordinal => ?_⟩
  · exact evaluate_filter_literal hd hl hv hcomparand
      (fun hordinal => Double.countsUpTo (hlabels hordinal)) comparison
  · rcases Variable.comparand_iff.1 hcomparand with ⟨-, bound, hbound, rfl⟩ | ⟨hcontinuous, -⟩
    · refine ⟨bound, hbound, rfl, fun row => Binding.mem_rows_onSides.trans ⟨?_, ?_⟩⟩
      · rintro ⟨cell, hcell, hside⟩
        obtain ⟨label, -, rfl⟩ := Variable.exists_label_of_checkCell (by rw [hordinal]; rfl)
          (checkCell_of_evaluate hd hl hv _ hcell)
        exact ⟨label, hcell, Nat.compare_eq_lt.1 (eq_of_beq hside)⟩
      · rintro ⟨label, hcell, hlt⟩
        exact ⟨_, hcell, beq_of_eq (Nat.compare_eq_lt.2 hlt)⟩
    · rw [hordinal] at hcontinuous
      cases hcontinuous

/-! ### Grades -/

/-- The grades of five participants; their order is not that of their letters. -/
def grades : Dataset Float :=
  ⟨⟨[("grade", ⟨⟨"grade", .ordinal, some ["low", "fair", "high"]⟩,
    [.text "high", .text "low", .text "fair", .text "low", .text "fair"]⟩)]⟩, 5, none⟩

/-- Of the grades that are not fair, those before the high one are the low ones, and none is after
it. -/
theorem evaluate_grades_coherent :
    let ctx : Context Float := ⟨.standard, none, ⟨∅, ∅⟩⟩
    let clear : Expression Float := .filter .ne (.column "grade") (.literal (.text "fair"))
    grades.Built ∧ ∃ l kept,
      evaluate grades ctx clear = .ok (.data l) ∧ l.rows = [0, 1, 3] ∧
      (∀ comparison, evaluate grades ctx (.filter comparison clear (.literal (.text "high"))) =
        .ok (.data (kept comparison))) ∧
      Coherent l kept ∧ ∀ row, row ∈ (kept .lt).rows ↔ row = 1 ∨ row = 3 := by
  intro ctx clear
  have hbuilt : grades.Built :=
    @Dataset.Built.ofColumns _ _ _ (grades.columns.entries.map (·.2)) grades rfl
  have hcomparand : (⟨"grade", .ordinal, some ["low", "fair", "high"]⟩ : Variable).Comparand
      (.text "high" : Cell Float) :=
    Variable.comparand_iff.2 (.inl ⟨rfl, "high", by decide, rfl⟩)
  have hl : evaluate grades ctx clear = .ok (.data
      ⟨[(0, .text "high"), (1, .text "low"), (3, .text "low")],
        some ⟨"grade", .ordinal, some ["low", "fair", "high"]⟩⟩) := rfl
  obtain ⟨kept, hkept, hcoherent, hordinal⟩ :=
    evaluate_comparisons_coherent hbuilt hl rfl hcomparand fun _ => by decide
  obtain ⟨bound, -, hbound, hlt⟩ := hordinal rfl
  obtain ⟨⟩ := hbound
  refine ⟨hbuilt, _, kept, hl, rfl, hkept, hcoherent, fun row => (hlt row).trans ?_⟩
  constructor
  · rintro ⟨label, hlabel, hbefore⟩
    simp only [List.mem_cons, List.not_mem_nil, or_false, Prod.mk.injEq, Cell.text.injEq] at hlabel
    rcases hlabel with ⟨-, rfl⟩ | ⟨rfl, -⟩ | ⟨rfl, -⟩
    · exact absurd hbefore (Nat.lt_irrefl _)
    · exact .inl rfl
    · exact .inr rfl
  · rintro (rfl | rfl) <;> exact ⟨"low", by simp, by decide⟩

end StudyAnalysis
