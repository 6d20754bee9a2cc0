/-
**Datasets as the constructors make them.**

A dataset is made from checked columns or from records, and may get a key afterwards.  Whatever the
way, every column is found under the name of its variable and has a cell for every row; that is all
that reading a dataset relies on.  A column may have more cells than the dataset has rows: a dataset
of records without variables has no rows, but its key column has a cell for every record.

Main definitions:

* `StudyAnalysis.Dataset.Built` — a dataset comes from the constructors;
* `StudyAnalysis.Dataset.WellFormed` — names and lengths of its columns fit.

Main results:

* `StudyAnalysis.Dataset.checkColumn_eq_ok_iff`, `StudyAnalysis.Dataset.ofColumns_eq_ok_iff`,
  `StudyAnalysis.Dataset.exists_of_ofRecords`, `StudyAnalysis.Dataset.withKey_eq_ok_iff` — when a
  dataset is made, and from what;
* `StudyAnalysis.Dataset.Built.wellFormed` — **the constructors make well-formed datasets**.
-/

import StudyAnalysis.Data.Dataset
import StudyAnalysis.Proofs.Fallible

set_option autoImplicit false
set_option relaxedAutoImplicit false

namespace StudyAnalysis

open Fallible

/-! ### Maps that are made from lists -/

namespace NameMap

variable {β : Type}

theorem mem_of_get?_foldl_insert {entries : List (String × β)} {m : NameMap β} {name : String}
    {value : β}
    (h : (entries.foldl (fun m e => m.insert e.1 e.2) m).get? name = some value) :
    (name, value) ∈ entries ∨ m.get? name = some value := by
  induction entries generalizing m with
  | nil => exact .inr h
  | cons entry rest ih =>
      rcases ih h with hmem | hget
      · exact .inl (List.mem_cons_of_mem _ hmem)
      · rw [get?_insert] at hget
        split at hget
        · rename_i hname
          subst hname
          obtain rfl := Option.some.inj hget
          exact .inl List.mem_cons_self
        · exact .inr hget

/-- Whatever is read from the map of a list is an entry of the list. -/
theorem mem_of_get?_ofList {entries : List (String × β)} {name : String} {value : β}
    (h : (ofList entries).get? name = some value) : (name, value) ∈ entries := by
  rcases mem_of_get?_foldl_insert h with hmem | hget
  · exact hmem
  · cases hget

end NameMap

variable {α : Type}

/-! ### Making datasets -/

namespace Dataset

/-- Every column is found under the name of its variable and has a cell for every row. -/
structure WellFormed (d : Dataset α) : Prop where
  name_eq : ∀ {name : String} {c : Column α}, d.columns.get? name = some c → c.var.name = name
  rowCount_le : ∀ {name : String} {c : Column α}, d.columns.get? name = some c →
    d.rowCount ≤ c.cells.length

theorem WellFormed.insert {d : Dataset α} (hd : d.WellFormed) {c : Column α}
    (hc : d.rowCount ≤ c.cells.length) :
    { d with columns := d.columns.insert c.var.name c }.WellFormed where
  name_eq {name c'} h := by
    rw [NameMap.get?_insert] at h
    split at h
    · rename_i hname
      obtain rfl := Option.some.inj h
      exact hname
    · exact hd.name_eq h
  rowCount_le {name c'} h := by
    rw [NameMap.get?_insert] at h
    split at h
    · obtain rfl := Option.some.inj h
      exact hc
    · exact hd.rowCount_le h

theorem WellFormed.setKey {d : Dataset α} (hd : d.WellFormed) (key : Option String) :
    { d with key := key }.WellFormed :=
  ⟨hd.name_eq, hd.rowCount_le⟩

variable [Numeric α]

/-- A dataset is made by the constructors. -/
inductive Built [NumberText α] : Dataset α → Prop
  | ofColumns {columns : List (Column α)} {d : Dataset α} (h : ofColumns columns = .ok d) : Built d
  | ofRecords {vars : List Variable} {records : List (Value α)} {key : Option String}
      {d : Dataset α} (h : ofRecords vars records key = .ok d) : Built d
  | withKey {d d' : Dataset α} {name : String} (hd : Built d) (h : d.withKey name = .ok d') :
      Built d'

/-! ### When the constructors succeed -/

/-- A column passes its check exactly if it has the right length, labels if it is categorical, and
cells that pass theirs. -/
theorem checkColumn_eq_ok_iff {rowCount : Nat} {c : Column α} :
    checkColumn rowCount c = .ok () ↔
      (c.var.scale.isCategorical = true → c.var.labels ≠ []) ∧ c.cells.length = rowCount ∧
        ∀ cell ∈ c.cells, c.var.checkCell cell = .ok () := by
  rw [checkColumn]
  by_cases hlabels : (c.var.scale.isCategorical && c.var.labels.isEmpty) = true
  · rw [if_pos hlabels]
    rw [Bool.and_eq_true, List.isEmpty_iff] at hlabels
    constructor
    · intro h
      cases h
    · intro h
      exact absurd hlabels.2 (h.1 hlabels.1)
  rw [if_neg hlabels]
  have hdeclared : c.var.scale.isCategorical = true → c.var.labels ≠ [] := by
    simpa using hlabels
  by_cases hlength : c.cells.length = rowCount
  · rw [if_neg (not_not.2 hlength)]
    exact forM_eq_ok_iff.trans ⟨fun h => ⟨hdeclared, hlength, h⟩, fun h => h.2.2⟩
  · rw [if_pos hlength]
    constructor
    · intro h
      cases h
    · intro h
      exact absurd h.2.1 hlength

theorem ofColumns_eq_ok_iff {d : Dataset α} {columns : List (Column α)} :
    ofColumns columns = .ok d ↔
      (∀ c ∈ columns,
        checkColumn ((columns.head?.map fun c => c.cells.length).getD 0) c = .ok ()) ∧
      ⟨.ofList (columns.map fun c => (c.var.name, c)),
        (columns.head?.map fun c => c.cells.length).getD 0, none⟩ = d := by
  simp only [ofColumns, bind_eq_ok_iff, ← forM_eq_ok_iff, pure_eq_ok, Except.ok.injEq]
  exact ⟨fun ⟨_, hcheck, hd⟩ => ⟨hcheck, hd⟩, fun ⟨hcheck, hd⟩ => ⟨(), hcheck, hd⟩⟩

/-- Every column of a dataset of columns stands under its name and has passed its check. -/
theorem checkColumn_of_get? {d : Dataset α} {columns : List (Column α)}
    (h : ofColumns columns = .ok d) {name : String} {c : Column α}
    (hget : d.columns.get? name = some c) :
    c.var.name = name ∧ checkColumn d.rowCount c = .ok () := by
  obtain ⟨hcheck, rfl⟩ := ofColumns_eq_ok_iff.1 h
  obtain ⟨c', hc', heq⟩ := List.mem_map.1 (NameMap.mem_of_get?_ofList hget)
  obtain ⟨rfl, rfl⟩ := Prod.mk.inj heq
  exact ⟨rfl, hcheck c' hc'⟩

theorem length_cellsOfField [NumberText α] {records : List (Value α)} {name : String}
    {cells : List (Cell α)} (h : cellsOfField records name = .ok cells) :
    cells.length = records.length := by
  rw [← (mapM_eq_ok_iff.1 h).length_eq, List.length_zipIdx]

/-- A dataset of records is that of a column for each variable, all as long as the list of records,
with a key that is one of them or for which a column was added. -/
theorem exists_of_ofRecords [NumberText α] {vars : List Variable} {records : List (Value α)}
    {key : Option String} {d : Dataset α} (h : ofRecords vars records key = .ok d) :
    ∃ columns d₀, columns.map (·.var) = vars ∧
      (∀ c ∈ columns, c.cells.length = records.length) ∧ ofColumns columns = .ok d₀ ∧
      ((∀ {name}, key = some name → d₀.contains name = true) ∧ { d₀ with key := key } = d ∨
        ∃ name ids, key = some name ∧ d₀.contains name = false ∧ ids.length = records.length ∧
          { d₀ with columns := d₀.columns.insert name (keyColumn name ids), key := some name } =
            d) := by
  obtain ⟨columns, hcolumns, h⟩ := bind_eq_ok_iff.1 h
  obtain ⟨d₀, hd₀, h⟩ := bind_eq_ok_iff.1 h
  have hread : ∀ {v : Variable} {c : Column α},
      (do return ⟨v, ← cellsOfField records v.name⟩) = Except.ok c →
        c.var = v ∧ c.cells.length = records.length := by
    intro v c hc
    obtain ⟨cells, hcells, hc⟩ := bind_eq_ok_iff.1 hc
    obtain rfl := Except.ok.inj hc
    exact ⟨rfl, length_cellsOfField hcells⟩
  refine ⟨columns, d₀, ?_, ?_, hd₀, ?_⟩
  · rw [← List.forall₂_eq_eq_eq, List.forall₂_map_left_iff]
    exact (mapM_eq_ok_iff.1 hcolumns).flip.imp fun _ _ hc => (hread hc).1
  · intro c hc
    obtain ⟨v, -, hv⟩ := exists_of_mem_mapM hcolumns hc
    exact (hread hv).2
  · cases key with
    | none =>
        obtain ⟨-, rfl⟩ := ofColumns_eq_ok_iff.1 hd₀
        exact .inl ⟨nofun, Except.ok.inj h⟩
    | some name =>
        dsimp only at h
        split at h
        · refine .inl ⟨?_, Except.ok.inj h⟩
          rintro _ ⟨⟩
          assumption
        · obtain ⟨cells, hcells, h⟩ := bind_eq_ok_iff.1 h
          refine .inr ⟨name, cells.map Cell.toText, rfl, Bool.not_eq_true _ ▸ ‹_›, ?_,
            Except.ok.inj h⟩
          rw [List.length_map, length_cellsOfField hcells]

omit [Numeric α] in
theorem withKey_eq_ok_iff {d d' : Dataset α} {name : String} :
    d.withKey name = .ok d' ↔ d.contains name = true ∧ { d with key := some name } = d' := by
  rw [withKey]
  split <;> simp_all

/-! ### Well-formed datasets -/

/-- Checked columns make a well-formed dataset. -/
theorem wellFormed_ofColumns {columns : List (Column α)} {d : Dataset α}
    (h : ofColumns columns = .ok d) : d.WellFormed where
  name_eq hget := (checkColumn_of_get? h hget).1
  rowCount_le hget :=
    Nat.le_of_eq (checkColumn_eq_ok_iff.1 (checkColumn_of_get? h hget).2).2.1.symm

/-- The rows of a dataset that is made from columns of one length are not more than that. -/
theorem rowCount_le_of_ofColumns {columns : List (Column α)} {d : Dataset α} {n : Nat}
    (h : ofColumns columns = .ok d) (hn : ∀ c ∈ columns, c.cells.length = n) :
    d.rowCount ≤ n := by
  obtain ⟨-, rfl⟩ := ofColumns_eq_ok_iff.1 h
  cases columns with
  | nil => exact Nat.zero_le n
  | cons c rest => exact Nat.le_of_eq (hn c List.mem_cons_self)

/-- Records make a well-formed dataset: its rows are the records, or it has no rows. -/
theorem wellFormed_ofRecords [NumberText α] {vars : List Variable} {records : List (Value α)}
    {key : Option String} {d : Dataset α} (h : ofRecords vars records key = .ok d) :
    d.WellFormed := by
  obtain ⟨columns, d₀, -, hlength, hd₀, ⟨-, rfl⟩ | ⟨name, ids, -, -, hids, rfl⟩⟩ :=
    exists_of_ofRecords h
  · exact (wellFormed_ofColumns hd₀).setKey key
  · refine WellFormed.setKey ((wellFormed_ofColumns hd₀).insert (c := keyColumn name ids) ?_) _
    rw [keyColumn, List.length_map, hids]
    exact rowCount_le_of_ofColumns hd₀ hlength

/-- **The constructors make well-formed datasets.** -/
theorem Built.wellFormed [NumberText α] {d : Dataset α} (h : Built d) : d.WellFormed := by
  induction h with
  | ofColumns h => exact wellFormed_ofColumns h
  | ofRecords h => exact wellFormed_ofRecords h
  | withKey _ h ih =>
      obtain ⟨-, rfl⟩ := withKey_eq_ok_iff.1 h
      exact ih.setKey _

end Dataset

end StudyAnalysis
