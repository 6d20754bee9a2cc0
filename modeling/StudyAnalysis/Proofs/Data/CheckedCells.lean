/-
**Every cell of a dataset fits its variable.**

The constructors of datasets look at every cell.  What they let pass can be read: a cell of a
categorical variable is one of its labels, and a cell of any variable with an order has a place in
this order.

Main definitions:

* `StudyAnalysis.Dataset.Checked` — every cell fits the variable of its column.

Main results:

* `StudyAnalysis.Variable.exists_label_of_checkCell`,
  `StudyAnalysis.Variable.isSome_orderKey_of_checkCell` — what a checked cell holds;
* `StudyAnalysis.Dataset.Built.checked` — **the constructors make datasets of checked cells**.
-/

import StudyAnalysis.Proofs.Data.WellFormed

set_option autoImplicit false
set_option relaxedAutoImplicit false

namespace StudyAnalysis

open Fallible

variable {α : Type} [Numeric α]

/-! ### Cells -/

namespace Variable

variable {v : Variable} {cell : Cell α}

/-- A cell of a categorical variable is one of its labels. -/
theorem exists_label_of_checkCell (hscale : v.scale.isCategorical = true)
    (h : v.checkCell cell = .ok ()) : ∃ label ∈ v.labels, cell = .text label := by
  rw [checkCell.eq_def] at h
  split at h
  case h_1 label hv | h_2 label hv =>
      split at h
      · exact ⟨label, (v.isSome_rankOf label).1 ‹_›, rfl⟩
      · cases h
  case h_3 | h_4 => cases h
  case h_5 hv | h_6 hv =>
      rw [hv] at hscale
      cases hscale

/-- A cell of a variable with an order has a place in it. -/
theorem isSome_orderKey_of_checkCell (hscale : v.scale.isRankable = true)
    (h : v.checkCell cell = .ok ()) : (v.orderKey cell).isSome = true := by
  cases hv : v.scale with
  | nominal =>
      rw [hv] at hscale
      cases hscale
  | ordinal =>
      obtain ⟨label, hlabel, rfl⟩ := exists_label_of_checkCell (by rw [hv]; rfl) h
      rw [orderKey, hv]
      show (Option.map _ (v.rankOf label)).isSome = true
      rw [Option.isSome_map]
      exact (v.isSome_rankOf label).2 hlabel
  | interval | ratio =>
      rw [checkCell.eq_def, hv] at h
      rw [orderKey, hv]
      cases hnumber : cell.number? with
      | some x => rfl
      | none =>
          simp only [hnumber] at h
          cases h

end Variable

/-! ### Datasets -/

namespace Dataset

/-- Every cell fits the variable of its column. -/
def Checked (d : Dataset α) : Prop :=
  ∀ (name : String) (c : Column α), d.columns.get? name = some c →
    ∀ cell ∈ c.cells, c.var.checkCell cell = .ok ()

variable {d : Dataset α}

theorem Checked.insert (hd : d.Checked) {c : Column α}
    (hc : ∀ cell ∈ c.cells, c.var.checkCell cell = .ok ()) :
    { d with columns := d.columns.insert c.var.name c }.Checked := by
  intro name c' h
  rw [NameMap.get?_insert] at h
  split at h
  · obtain rfl := Option.some.inj h
    exact hc
  · exact hd name c' h

theorem checked_ofColumns {columns : List (Column α)} (h : ofColumns columns = .ok d) :
    d.Checked := by
  intro name c hget
  exact (checkColumn_eq_ok_iff.1 (checkColumn_of_get? h hget).2).2.2

omit [Numeric α] in
/-- The column that identifies participants declares the texts that it holds. -/
theorem checkCell_keyColumn [Numeric α] {name : String} {ids : List String} :
    ∀ cell ∈ (keyColumn name ids : Column α).cells,
      (keyColumn name ids : Column α).var.checkCell cell = .ok () := by
  intro cell hcell
  obtain ⟨id, hid, rfl⟩ := List.mem_map.1 hcell
  have hrank : ((keyColumn name ids : Column α).var.rankOf id).isSome = true :=
    (Variable.isSome_rankOf _ id).2 (List.mem_eraseDups.2 hid)
  exact if_pos hrank

variable [NumberText α]

theorem checked_ofRecords {vars : List Variable} {records : List (Value α)} {key : Option String}
    (h : ofRecords vars records key = .ok d) : d.Checked := by
  obtain ⟨columns, d₀, -, -, hd₀, ⟨-, rfl⟩ | ⟨name, ids, -, -, -, rfl⟩⟩ := exists_of_ofRecords h
  all_goals have hchecked := checked_ofColumns hd₀
  · exact hchecked
  · exact hchecked.insert (c := keyColumn name ids) checkCell_keyColumn

/-- **The constructors make datasets of checked cells.** -/
theorem Built.checked (h : d.Built) : d.Checked := by
  induction h with
  | ofColumns h => exact checked_ofColumns h
  | ofRecords h => exact checked_ofRecords h
  | withKey _ h ih =>
      obtain ⟨-, rfl⟩ := withKey_eq_ok_iff.1 h
      exact ih

end Dataset

end StudyAnalysis
