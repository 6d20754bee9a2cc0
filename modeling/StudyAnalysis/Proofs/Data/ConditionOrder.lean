/-
**The order of conditions.**

A selection looks at the conditions of a row one after the other and stops at the first one that the
row fails.  A condition whose literal compares with no cell of its column is invalid, and it is
reported when it is looked at, not before.  So the order of the conditions never decides which rows
are selected, but it may decide whether the selection fails: it does so exactly if there is an
invalid condition and every row fails a valid one, which may stand before it.

Main definitions:

* `StudyAnalysis.Condition.Invalid` — a condition compares nothing with its literal;
* `StudyAnalysis.Dataset.answer` — the answer of one condition at one row;
* `StudyAnalysis.Dataset.HidesInvalid` — every row fails a valid condition, but not all are valid.

Main results:

* `StudyAnalysis.Dataset.satisfies_eq_allM` — the conditions are answered in their order, until one
  is not satisfied;
* `StudyAnalysis.Dataset.select_eq_ok_iff`, `StudyAnalysis.Dataset.select_fails_iff` — when a
  selection succeeds and when it fails;
* `StudyAnalysis.Dataset.select_agrees_iff` — **when the order of the conditions does not matter**.
-/

import StudyAnalysis.Number.Double
import StudyAnalysis.Proofs.Data.Cells
import StudyAnalysis.Proofs.Data.WellFormed

set_option autoImplicit false
set_option relaxedAutoImplicit false

namespace StudyAnalysis

open Fallible

variable {α : Type}

/-! ### Invalid conditions -/

namespace Condition

/-- A condition compares nothing with its literal: it asks for the order of categories that have
none, or its literal has no place in the order of the variable. -/
inductive Invalid (v : Variable) (p : Condition α) : Prop
  | unordered (hordered : p.comparison.isOrdered = true) (hscale : v.scale = .nominal)
  | unknownLabel {label : String} (hordered : p.comparison.isOrdered = true)
    (hscale : v.scale = .ordinal) (hvalue : p.value = .text label) (hlabel : label ∉ v.labels)
  | fractionalRank {x : α} (hordered : p.comparison.isOrdered = true) (hscale : v.scale = .ordinal)
    (hvalue : p.value = .real x)
  | notNumber {s : String} (hordered : p.comparison.isOrdered = true)
    (hscale : v.scale.isContinuous = true) (hvalue : p.value = .text s)

variable [Numeric α] {v : Variable} {p : Condition α}

/-- A condition is invalid exactly if it needs an order key that its literal does not have. -/
theorem invalid_iff : p.Invalid v ↔
    p.comparison.isOrdered = true ∧ ∃ err, v.comparandKey p.comparison p.value = .error err := by
  constructor
  · rintro (⟨hordered, hscale⟩ | ⟨hordered, hscale, hvalue, hlabel⟩ | ⟨hordered, hscale, hvalue⟩ |
      ⟨hordered, hscale, hvalue⟩) <;> refine ⟨hordered, ?_⟩ <;> rw [Variable.comparandKey.eq_def]
    · rw [hscale]
      exact ⟨_, rfl⟩
    · rw [← Variable.isSome_rankOf, Option.not_isSome_iff_eq_none] at hlabel
      rw [hscale, hvalue]
      dsimp only
      rw [hlabel]
      exact ⟨_, rfl⟩
    · rw [hscale, hvalue]
      exact ⟨_, rfl⟩
    · rw [hvalue]
      cases hv : v.scale with
      | nominal | ordinal =>
          rw [hv] at hscale
          cases hscale
      | interval | ratio => exact ⟨_, rfl⟩
  · rintro ⟨hordered, err, h⟩
    rw [Variable.comparandKey.eq_def] at h
    cases hscale : v.scale with
    | nominal => exact .unordered hordered hscale
    | ordinal =>
        rw [hscale] at h
        cases hvalue : p.value with
        | int n =>
            rw [hvalue] at h
            cases h
        | real x => exact .fractionalRank hordered hscale hvalue
        | text label =>
            refine .unknownLabel hordered hscale hvalue fun hlabel => ?_
            obtain ⟨rank, hrank⟩ := Option.isSome_iff_exists.1 ((v.isSome_rankOf label).2 hlabel)
            rw [hvalue] at h
            dsimp only at h
            rw [hrank] at h
            cases h
    | interval | ratio =>
        rw [hscale] at h
        cases hvalue : p.value with
        | int n | real x =>
            rw [hvalue] at h
            cases h
        | text s => exact .notNumber hordered (by rw [hscale]; rfl) hvalue

/-- **An invalid condition fails at every cell**, and no other one does at any. -/
theorem exists_compare_eq_error_iff (cell : Cell α) :
    (∃ err, v.compare cell p.comparison p.value = .error err) ↔ p.Invalid v := by
  rw [invalid_iff, Variable.compare]
  by_cases hordered : p.comparison.isOrdered = true
  · rw [if_pos hordered]
    cases v.comparandKey p.comparison p.value <;> simp [hordered]
  · simp [hordered]

end Condition

/-! ### Answers -/

namespace Dataset

variable [Numeric α] {d : Dataset α} {name : String} {p : Condition α}
  {conditions conditions' : List (Condition α)} {row : Nat}

/-- The answer of a condition at a row. -/
def answer (d : Dataset α) (row : Nat) (p : Condition α) : Except (AnalysisError α) Bool := do
  let c ← d.column p.column
  match c.cells[row]? with
  | none => return false
  | some cell => c.var.compare cell p.comparison p.value

/-- A row satisfies a condition. -/
def Holds (d : Dataset α) (row : Nat) (p : Condition α) : Prop :=
  d.answer row p = .ok true

omit [Numeric α] in
/-- A condition compares nothing of its column with its literal. -/
def Invalid (d : Dataset α) (p : Condition α) : Prop :=
  ∃ c, d.columns.get? p.column = some c ∧ p.Invalid c.var

/-- **Conditions are answered one after the other**, until one is not satisfied. -/
theorem satisfies_eq_allM {filters : List (Column α × Condition α)}
    (h : List.Forall₂ (fun p f => d.columns.get? p.column = some f.1 ∧ f.2 = p) conditions filters)
    (row : Nat) : satisfies row filters = conditions.allM (d.answer row) := by
  induction h with
  | nil => rfl
  | @cons p f conditions filters hf _ ih =>
      obtain ⟨c, p⟩ := f
      obtain ⟨hc, rfl⟩ := hf
      rw [satisfies, List.allM, answer, column_eq_ok_iff.2 hc, ok_bind]
      dsimp only
      cases c.cells[row]? with
      | none => rfl
      | some cell =>
          dsimp only
          refine bind_congr fun holds => ?_
          cases holds with
          | false => rfl
          | true => exact ih

/-- In a row of the dataset exactly the invalid conditions have no answer. -/
theorem exists_answer_eq_error_iff (hd : d.WellFormed) (hp : d.contains p.column = true)
    (hrow : row < d.rowCount) : (∃ err, d.answer row p = .error err) ↔ d.Invalid p := by
  obtain ⟨c, hc⟩ := Option.isSome_iff_exists.1 hp
  have hlt : row < c.cells.length := Nat.lt_of_lt_of_le hrow (hd.rowCount_le hc)
  have hinvalid : d.Invalid p ↔ p.Invalid c.var := by
    refine ⟨?_, fun h => ⟨c, hc, h⟩⟩
    rintro ⟨c', hc', h⟩
    obtain rfl := Option.some.inj (hc.symm.trans hc')
    exact h
  rw [answer, column_eq_ok_iff.2 hc, ok_bind, List.getElem?_eq_getElem hlt, hinvalid,
    Condition.exists_compare_eq_error_iff]

theorem exists_allM_of_forall_valid (hd : d.WellFormed)
    (hknown : ∀ p ∈ conditions, d.contains p.column = true) (hrow : row < d.rowCount)
    (hvalid : ∀ p ∈ conditions, ¬ d.Invalid p) :
    ∃ b, conditions.allM (d.answer row) = .ok b := by
  cases h : conditions.allM (d.answer row) with
  | ok b => exact ⟨b, rfl⟩
  | error err =>
      obtain ⟨before, p, after, rfl, -, hp⟩ := exists_allM_eq_error_iff.1 ⟨err, h⟩
      have hmem : p ∈ before ++ p :: after := List.mem_append_right _ List.mem_cons_self
      exact absurd ((exists_answer_eq_error_iff hd (hknown p hmem) hrow).1 hp) (hvalid p hmem)

/-! ### Selections -/

omit [Numeric α] in
/-- The columns of all conditions are found exactly if they are there. -/
theorem exists_resolved_iff :
    (∃ filters, (conditions.mapM fun p => do return (← d.column p.column, p)) =
      (.ok filters : Except (AnalysisError α) _)) ↔
      ∀ p ∈ conditions, d.contains p.column = true := by
  rw [exists_mapM_eq_ok_iff]
  refine forall₂_congr fun p _ => ?_
  rw [contains, NameMap.contains, Option.isSome_iff_exists, column]
  cases d.columns.get? p.column <;> simp

omit [Numeric α] in
theorem forall₂_of_resolved {filters : List (Column α × Condition α)}
    (h : (conditions.mapM fun p => do return (← d.column p.column, p)) =
      (.ok filters : Except (AnalysisError α) _)) :
    List.Forall₂ (fun p f => d.columns.get? p.column = some f.1 ∧ f.2 = p) conditions filters := by
  refine (mapM_eq_ok_iff.1 h).imp fun p f hf => ?_
  obtain ⟨c, hc, hf⟩ := bind_eq_ok_iff.1 hf
  obtain rfl := Except.ok.inj hf
  exact ⟨column_eq_ok_iff.1 hc, rfl⟩

/-- The selected column and the columns of all conditions are there. -/
def Known (d : Dataset α) (name : String) (conditions : List (Condition α)) : Prop :=
  d.contains name = true ∧ ∀ p ∈ conditions, d.contains p.column = true

theorem known_of_select {s : Series α} (h : d.select name conditions = .ok s) :
    d.Known name conditions := by
  obtain ⟨c, hc, h⟩ := bind_eq_ok_iff.1 h
  obtain ⟨filters, hfilters, -⟩ := bind_eq_ok_iff.1 h
  exact ⟨Option.isSome_iff_exists.2 ⟨c, column_eq_ok_iff.1 hc⟩,
    exists_resolved_iff.1 ⟨filters, hfilters⟩⟩

/-- A selection among known columns answers the conditions row by row. -/
theorem select_eq_filterM {c : Column α} (hc : d.columns.get? name = some c)
    (hknown : ∀ p ∈ conditions, d.contains p.column = true) :
    d.select name conditions =
      (c.entriesAt (List.range d.rowCount)).filterM fun e => conditions.allM (d.answer e.1) := by
  obtain ⟨filters, hfilters⟩ := exists_resolved_iff.2 hknown
  have hanswers : (fun e : Cell α × Nat => satisfies e.2 filters) =
      fun e => conditions.allM (d.answer e.2) :=
    funext fun e => satisfies_eq_allM (forall₂_of_resolved hfilters) e.2
  rw [select, column_eq_ok_iff.2 hc, ok_bind, hfilters, ok_bind, hanswers,
    ← Column.map_zipIdx_take, filterM_map]
  rfl

/-- **When a selection among known columns succeeds**: every row has an answer to the conditions, by
which it is selected. -/
theorem select_eq_ok_iff (hd : d.WellFormed) {c : Column α} (hc : d.columns.get? name = some c)
    (hknown : ∀ p ∈ conditions, d.contains p.column = true) {s : Series α} :
    d.select name conditions = .ok s ↔
      (∀ row < d.rowCount, ∃ b, conditions.allM (d.answer row) = .ok b) ∧
      s = c.entriesAt ((List.range d.rowCount).filter
        (accepts fun row => conditions.allM (d.answer row))) := by
  rw [select_eq_filterM hc hknown, filterM_eq_ok_iff, ← Column.filter_entriesAt]
  refine and_congr ⟨fun h row hrow => ?_, fun h e he => ?_⟩ Iff.rfl
  · have hlt : row < c.cells.length := Nat.lt_of_lt_of_le hrow (hd.rowCount_le hc)
    exact ⟨_, h (row, c.cells[row]) (Column.mem_entriesAt.2
      ⟨List.mem_range.2 hrow, List.getElem?_eq_getElem hlt⟩)⟩
  · obtain ⟨b, hb⟩ := h e.1 (List.mem_range.1 (Column.mem_entriesAt.1 he).1)
    rw [accepts, hb]

/-- The conditions have no answer in a row exactly if an invalid one comes after conditions that the
row satisfies. -/
theorem exists_allM_answer_eq_error_iff (hd : d.WellFormed)
    (hknown : ∀ p ∈ conditions, d.contains p.column = true) (hrow : row < d.rowCount) :
    (∃ err, conditions.allM (d.answer row) = .error err) ↔
      ∃ before p after, conditions = before ++ p :: after ∧ (∀ q ∈ before, d.Holds row q) ∧
        d.Invalid p := by
  rw [exists_allM_eq_error_iff]
  refine exists_congr fun before => exists_congr fun p => exists_congr fun after =>
    and_congr_right fun heq => and_congr_right fun _ => ?_
  subst heq
  exact exists_answer_eq_error_iff hd
    (hknown p (List.mem_append_right _ List.mem_cons_self)) hrow

/-- **When a selection fails**: a column is unknown, or some row satisfies all conditions before an
invalid one. -/
theorem select_fails_iff (hd : d.WellFormed) :
    (∃ err, d.select name conditions = .error err) ↔
      ¬ d.Known name conditions ∨
        ∃ row < d.rowCount, ∃ before p after, conditions = before ++ p :: after ∧
          (∀ q ∈ before, d.Holds row q) ∧ d.Invalid p := by
  by_cases hknown : d.Known name conditions
  · obtain ⟨c, hc⟩ := Option.isSome_iff_exists.1 hknown.1
    rw [or_iff_right (not_not.2 hknown)]
    constructor
    · rintro ⟨err, h⟩
      by_contra hnone
      have hanswers : ∀ row < d.rowCount, ∃ b, conditions.allM (d.answer row) = .ok b := by
        intro row hrow
        cases hall : conditions.allM (d.answer row) with
        | ok b => exact ⟨b, rfl⟩
        | error err =>
            exact absurd ⟨row, hrow, (exists_allM_answer_eq_error_iff hd hknown.2 hrow).1
              ⟨err, hall⟩⟩ hnone
      have hok := (select_eq_ok_iff hd hc hknown.2).2 ⟨hanswers, rfl⟩
      rw [h] at hok
      cases hok
    · rintro ⟨row, hrow, hfails⟩
      obtain ⟨err, herr⟩ := (exists_allM_answer_eq_error_iff hd hknown.2 hrow).2 hfails
      cases h : d.select name conditions with
      | error err => exact ⟨err, rfl⟩
      | ok s =>
          obtain ⟨b, hb⟩ := ((select_eq_ok_iff hd hc hknown.2).1 h).1 row hrow
          rw [herr] at hb
          cases hb
  · refine iff_of_true ?_ (.inl hknown)
    cases h : d.select name conditions with
    | error err => exact ⟨err, rfl⟩
    | ok s => exact absurd (known_of_select h) hknown

/-! ### Orders of the conditions -/

omit [Numeric α] in
theorem Known.of_perm (h : d.Known name conditions) (hperm : conditions.Perm conditions') :
    d.Known name conditions' :=
  ⟨h.1, fun p hp => h.2 p (hperm.mem_iff.2 hp)⟩

/-- Two orders of the conditions that both succeed select the same rows. -/
theorem select_eq_of_perm (hd : d.WellFormed) (hperm : conditions.Perm conditions')
    {s s' : Series α} (h : d.select name conditions = .ok s)
    (h' : d.select name conditions' = .ok s') : s = s' := by
  have hknown := known_of_select h
  obtain ⟨c, hc⟩ := Option.isSome_iff_exists.1 hknown.1
  obtain ⟨hanswers, rfl⟩ := (select_eq_ok_iff hd hc hknown.2).1 h
  obtain ⟨hanswers', rfl⟩ := (select_eq_ok_iff hd hc (known_of_select h').2).1 h'
  congr 1
  refine List.filter_congr fun row hrow => ?_
  obtain ⟨b, hb⟩ := hanswers row (List.mem_range.1 hrow)
  obtain ⟨b', hb'⟩ := hanswers' row (List.mem_range.1 hrow)
  simp only [accepts, hb, hb']
  have hsame : conditions.allM (d.answer row) = .ok true ↔
      conditions'.allM (d.answer row) = .ok true := by
    simp only [allM_eq_true_iff, hperm.mem_iff]
  rw [hb, hb', Except.ok.injEq, Except.ok.injEq, ← Bool.eq_iff_iff] at hsame
  exact hsame

/-- An invalid condition is hidden by some order of the conditions: there is one, and every row fails
a valid condition, which may come first. -/
structure HidesInvalid (d : Dataset α) (name : String) (conditions : List (Condition α)) :
    Prop where
  known : d.Known name conditions
  invalid : ∃ p ∈ conditions, d.Invalid p
  rows : 0 < d.rowCount
  refused : ∀ row < d.rowCount, ∃ p ∈ conditions, ¬ d.Invalid p ∧ ¬ d.Holds row p

/-- With the invalid conditions first a hidden one is reported. -/
theorem HidesInvalid.exists_perm_fails (hd : d.WellFormed) (h : d.HidesInvalid name conditions) :
    ∃ conditions', conditions.Perm conditions' ∧
      ∃ err, d.select name conditions' = .error err := by
  obtain ⟨p, hp, hinvalid⟩ := h.invalid
  obtain ⟨before, after, rfl⟩ := List.append_of_mem hp
  exact ⟨p :: (before ++ after), List.perm_middle,
    (select_fails_iff hd).2 (.inr ⟨0, h.rows, [], p, before ++ after, rfl, nofun, hinvalid⟩)⟩

open Classical in
/-- With the valid conditions first a hidden one is never looked at. -/
theorem HidesInvalid.exists_perm_succeeds (hd : d.WellFormed)
    (h : d.HidesInvalid name conditions) :
    ∃ conditions', conditions.Perm conditions' ∧ ∃ s, d.select name conditions' = .ok s := by
  obtain ⟨c, hc⟩ := Option.isSome_iff_exists.1 h.known.1
  let valid := conditions.filter fun p => ¬ d.Invalid p
  let invalid := conditions.filter fun p => ¬ ¬ d.Invalid p
  have hperm : conditions.Perm (valid ++ invalid) := by
    simpa [valid, invalid] using
      (List.filter_append_perm (fun p => decide (¬ d.Invalid p)) conditions).symm
  have hrefused : ∀ row < d.rowCount, valid.allM (d.answer row) = .ok false := by
    intro row hrow
    obtain ⟨b, hb⟩ : ∃ b, valid.allM (d.answer row) = .ok b :=
      exists_allM_of_forall_valid hd (fun p hp => h.known.2 p (List.mem_of_mem_filter hp)) hrow
        (fun p hp => of_decide_eq_true (List.mem_filter.1 hp).2)
    cases b with
    | false => exact hb
    | true =>
        obtain ⟨p, hp, hvalid, hfails⟩ := h.refused row hrow
        exact absurd (allM_eq_true_iff.1 hb p (List.mem_filter.2 ⟨hp, decide_eq_true hvalid⟩)) hfails
  exact ⟨valid ++ invalid, hperm, _, (select_eq_ok_iff hd hc (h.known.of_perm hperm).2).2
    ⟨fun row hrow => ⟨false, allM_append_of_false (hrefused row hrow)⟩, rfl⟩⟩

/-- A row that satisfies all valid conditions has no answer to the conditions if one is invalid. -/
theorem exists_allM_answer_eq_error_of_row (hd : d.WellFormed)
    (hknown : ∀ p ∈ conditions, d.contains p.column = true) (hrow : row < d.rowCount)
    (hinvalid : ∃ p ∈ conditions, d.Invalid p)
    (hvalid : ∀ p ∈ conditions, ¬ d.Invalid p → d.Holds row p) :
    ∃ err, conditions.allM (d.answer row) = .error err := by
  cases h : conditions.allM (d.answer row) with
  | error err => exact ⟨err, rfl⟩
  | ok b =>
      have hanswered : ∀ p ∈ conditions, ∀ b, d.answer row p = .ok b → ¬ d.Invalid p := by
        intro p hp b hb hp'
        obtain ⟨err, herr⟩ := (exists_answer_eq_error_iff hd (hknown p hp) hrow).2 hp'
        rw [herr] at hb
        cases hb
      cases b with
      | true =>
          obtain ⟨p, hp, hp'⟩ := hinvalid
          exact absurd hp' (hanswered p hp true (allM_eq_true_iff.1 h p hp))
      | false =>
          obtain ⟨p, hp, hfalse⟩ := exists_mem_of_allM_eq_false h
          have htrue : d.answer row p = .ok true := hvalid p hp (hanswered p hp false hfalse)
          rw [hfalse] at htrue
          cases htrue

/-- If no invalid condition is hidden, then all orders of the conditions fail or none does. -/
theorem toOption_select_of_perm (hd : d.WellFormed) (h : ¬ d.HidesInvalid name conditions)
    (hperm : conditions.Perm conditions') :
    (d.select name conditions').toOption = (d.select name conditions).toOption := by
  by_cases hknown : d.Known name conditions
  · have hknown' := hknown.of_perm hperm
    obtain ⟨c, hc⟩ := Option.isSome_iff_exists.1 hknown.1
    by_cases hanswers : ∀ row < d.rowCount, ∀ p ∈ conditions, ¬ d.Invalid p
    · have hok := (select_eq_ok_iff hd hc hknown.2).2 ⟨fun row hrow =>
        exists_allM_of_forall_valid hd hknown.2 hrow (hanswers row hrow), rfl⟩
      have hok' := (select_eq_ok_iff hd hc hknown'.2).2 ⟨fun row hrow =>
        exists_allM_of_forall_valid hd hknown'.2 hrow fun p hp =>
          hanswers row hrow p (hperm.mem_iff.2 hp), rfl⟩
      rw [hok, hok', select_eq_of_perm hd hperm hok hok']
    · push Not at hanswers
      obtain ⟨row₀, hrow₀, hinvalid⟩ := hanswers
      -- some row satisfies all valid conditions, and there the invalid one is met in every order
      obtain ⟨row, hrow, hvalid⟩ : ∃ row < d.rowCount,
          ∀ p ∈ conditions, ¬ d.Invalid p → d.Holds row p := by
        by_contra hnone
        push Not at hnone
        exact h ⟨hknown, hinvalid, Nat.zero_lt_of_lt hrow₀, hnone⟩
      have hfails : ∀ {cs : List (Condition α)}, d.Known name cs → conditions.Perm cs →
          ∃ err, d.select name cs = .error err := by
        intro cs hcs hperm
        refine (select_fails_iff hd).2 (.inr ⟨row, hrow, ?_⟩)
        refine (exists_allM_answer_eq_error_iff hd hcs.2 hrow).1
          (exists_allM_answer_eq_error_of_row hd hcs.2 hrow ?_ ?_)
        · obtain ⟨p, hp, hp'⟩ := hinvalid
          exact ⟨p, hperm.mem_iff.1 hp, hp'⟩
        · exact fun p hp => hvalid p (hperm.mem_iff.2 hp)
      obtain ⟨err, herr⟩ := hfails hknown (.refl _)
      obtain ⟨err', herr'⟩ := hfails hknown' hperm
      rw [herr, herr']
      rfl
  · have hknown' : ¬ d.Known name conditions' := fun h' => hknown (h'.of_perm hperm.symm)
    obtain ⟨err, herr⟩ := (select_fails_iff hd).2 (.inl hknown)
    obtain ⟨err', herr'⟩ := (select_fails_iff hd).2 (.inl hknown')
    rw [herr, herr']
    rfl

/-- **When the order of the conditions does not matter.**  A selection fails exactly if a column is
unknown or some row satisfies all conditions before an invalid one.  Orders of the conditions that
succeed select the same rows with the same cells.  All orders have the same outcome, failures
counted as one, exactly if no invalid condition is hidden. -/
theorem select_agrees_iff [NumberText α] (hd : Built d) (name : String)
    (conditions : List (Condition α)) :
    ((∃ err, d.select name conditions = .error err) ↔
      ¬ d.Known name conditions ∨
        ∃ row < d.rowCount, ∃ before p after, conditions = before ++ p :: after ∧
          (∀ q ∈ before, d.Holds row q) ∧ d.Invalid p) ∧
    (∀ conditions', conditions.Perm conditions' → ∀ s s', d.select name conditions = .ok s →
      d.select name conditions' = .ok s' → s = s') ∧
    ((∀ conditions', conditions.Perm conditions' →
      (d.select name conditions').toOption = (d.select name conditions).toOption) ↔
        ¬ d.HidesInvalid name conditions) := by
  have hd' := hd.wellFormed
  refine ⟨select_fails_iff hd', fun conditions' hperm s s' => select_eq_of_perm hd' hperm,
    fun hagree hhides => ?_, fun h conditions' hperm => toOption_select_of_perm hd' h hperm⟩
  obtain ⟨failing, hfailing, err, herr⟩ := hhides.exists_perm_fails hd'
  obtain ⟨succeeding, hsucceeding, s, hs⟩ := hhides.exists_perm_succeeds hd'
  have hsame := (hagree failing hfailing).trans (hagree succeeding hsucceeding).symm
  rw [herr, hs] at hsame
  cases hsame

/-- One participant in the drug arm of a trial. -/
def drugArm : Column Float :=
  ⟨⟨"arm", .nominal, some ["drug", "placebo"]⟩, [.text "drug"]⟩

/-- A selection of participants in the placebo arm and before the drug arm, which has no sense. -/
def armConditions : List (Condition Float) :=
  [⟨"arm", .eq, .text "placebo"⟩, ⟨"arm", .lt, .text "drug"⟩]

/-- Whether the comparison of arms is reported depends on what stands before it: nobody in the trial
is in the placebo arm. -/
theorem select_armConditions_reverse :
    ∃ d, ofColumns [drugArm] = .ok d ∧ d.select "arm" armConditions = .ok [] ∧
      armConditions.Perm armConditions.reverse ∧
      d.select "arm" armConditions.reverse =
        .error (.unsupportedComparison "arm" .lt .nominal) :=
  ⟨_, rfl, rfl, (List.reverse_perm _).symm, rfl⟩

/-- The comparison of arms is hidden in the trial by the condition before it, and not without it. -/
theorem hidesInvalid_armConditions :
    ∃ d, ofColumns [drugArm] = .ok d ∧ d.HidesInvalid "arm" armConditions ∧
      ¬ d.HidesInvalid "arm" armConditions.tail := by
  have hmade : ofColumns [drugArm] =
      .ok ⟨.ofList [("arm", drugArm)], drugArm.cells.length, none⟩ := rfl
  refine ⟨_, hmade, ?_, ?_⟩
  · by_contra hvisible
    have hsame := (select_agrees_iff (.ofColumns hmade) "arm" armConditions).2.2.2 hvisible
      armConditions.reverse (List.reverse_perm _).symm
    cases hsame
  · refine (select_agrees_iff (.ofColumns hmade) "arm" armConditions.tail).2.2.1
      fun alone hperm => ?_
    have halone : armConditions.tail = alone := List.singleton_perm.1 hperm
    rw [halone]

end Dataset

end StudyAnalysis
