/-
**What the representation of a dataset promises.**

A dataset is made from columns or from records, and its key may be renamed any number of times.  The
columns that are given are checked, so each of them has a cell for every row and cells that fit its
variable.  The key column that is added to records is not checked: its cells fit, but it counts for
nothing when rows are counted, and it declares no labels if there are no records.  These two are the
only ways in which a dataset can be irregular.

Main definitions:

* `StudyAnalysis.Column.Fits` — the cells of a column are labels or finite numbers;
* `StudyAnalysis.Dataset.Readable` — cells fit, and the key is a column;
* `StudyAnalysis.Dataset.Regular` — every column also has as many cells as there are rows, and
  labels if it is categorical;
* `StudyAnalysis.Dataset.Origin` — what a dataset is made from.

Main results:

* `StudyAnalysis.Dataset.regular_ofColumns` — checked columns make a regular dataset;
* `StudyAnalysis.Dataset.regular_insert_keyColumn_iff` — when an added key column keeps it regular;
* `StudyAnalysis.Dataset.regular_iff_of_origin` — **every dataset is readable, and it is regular
  unless a key column was added to no variables or to no records**.
-/

import StudyAnalysis.Number.Double
import StudyAnalysis.Proofs.Data.CheckedCells

set_option autoImplicit false
set_option relaxedAutoImplicit false

namespace StudyAnalysis

open Fallible

variable {α : Type}

/-! ### Names of a map -/

namespace NameMap

variable {β : Type}

@[simp] theorem contains_insert (m : NameMap β) (name other : String) (value : β) :
    (m.insert name value).contains other = (name == other || m.contains other) := by
  rw [contains, get?_insert]
  by_cases h : name = other <;> simp [h, contains]

theorem contains_foldl_insert {entries : List (String × β)} {m : NameMap β} {name : String} :
    (entries.foldl (fun m e => m.insert e.1 e.2) m).contains name = true ↔
      (∃ e ∈ entries, e.1 = name) ∨ m.contains name = true := by
  induction entries generalizing m with
  | nil => simp
  | cons entry rest ih =>
      rw [List.foldl_cons, ih, contains_insert, Bool.or_eq_true, beq_iff_eq,
        List.exists_mem_cons_iff, ← or_assoc, or_comm (b := entry.1 = name)]

/-- A map of a list has the names of its entries. -/
theorem contains_ofList {entries : List (String × β)} {name : String} :
    (ofList entries).contains name = true ↔ ∃ e ∈ entries, e.1 = name := by
  rw [ofList, contains_foldl_insert]
  exact or_iff_left Bool.false_ne_true

end NameMap

/-! ### Columns -/

/-- The cells of a column fit its variable: they are labels that it declares or finite numbers. -/
structure Column.Fits [Numeric α] (c : Column α) : Prop where
  label : c.var.scale.isCategorical = true → ∀ cell ∈ c.cells,
    ∃ label ∈ c.var.labels, cell = .text label
  finite : c.var.scale.isContinuous = true → ∀ cell ∈ c.cells,
    ∃ x, cell.number? = some x ∧ Numeric.isFinite x = true

/-- A cell that may be in the column of a continuous variable is a finite number. -/
theorem Variable.exists_number_of_checkCell [Numeric α] {v : Variable} {cell : Cell α}
    (hscale : v.scale.isContinuous = true) (h : v.checkCell cell = .ok ()) :
    ∃ x, cell.number? = some x ∧ Numeric.isFinite x = true := by
  rw [checkCell.eq_def] at h
  cases hv : v.scale with
  | nominal | ordinal =>
      rw [hv] at hscale
      cases hscale
  | interval | ratio =>
      rw [hv] at h
      dsimp only at h
      split at h
      · exact (Option.any_eq_true _ _).1 ‹_›
      · cases h

/-- Cells that pass their checks fit. -/
theorem Column.fits_of_checkCell [Numeric α] {c : Column α}
    (h : ∀ cell ∈ c.cells, c.var.checkCell cell = .ok ()) : c.Fits where
  label hscale cell hcell := Variable.exists_label_of_checkCell hscale (h cell hcell)
  finite hscale cell hcell := Variable.exists_number_of_checkCell hscale (h cell hcell)

namespace Dataset

variable [Numeric α] {d : Dataset α}

/-! ### Readable and regular datasets -/

/-- Cells fit their variables, and the key is a column. -/
structure Readable (d : Dataset α) : Prop where
  fits : ∀ {name : String} {c : Column α}, d.columns.get? name = some c → c.Fits
  contains_key : ∀ {name : String}, d.key = some name → d.contains name = true

/-- Cells fit their variables, the key is a column, and every column has as many cells as there are
rows, and labels if it is categorical. -/
structure Regular (d : Dataset α) : Prop extends Readable d where
  length_cells : ∀ {name : String} {c : Column α}, d.columns.get? name = some c →
    c.cells.length = d.rowCount
  labels_ne_nil : ∀ {name : String} {c : Column α}, d.columns.get? name = some c →
    c.var.scale.isCategorical = true → c.var.labels ≠ []

theorem Readable.exists_keyColumn (h : d.Readable) {name : String} (hkey : d.key = some name) :
    ∃ c, d.columns.get? name = some c :=
  Option.isSome_iff_exists.1 (h.contains_key hkey)

/-- The key of a regular dataset has a value in its rows and nowhere else. -/
theorem Regular.isSome_keyValue_iff (h : d.Regular) {name : String} (hkey : d.key = some name)
    (row : Nat) : (d.keyValue row).isSome = true ↔ row < d.rowCount := by
  obtain ⟨c, hc⟩ := h.exists_keyColumn hkey
  have hvalue : d.keyValue row = c.cells[row]? := by
    rw [keyValue, hkey]
    show (d.columns.get? name).bind _ = _
    rw [hc]
    rfl
  rw [hvalue, ← h.length_cells hc, Option.isSome_iff_ne_none, ne_eq, List.getElem?_eq_none_iff,
    Nat.not_le]

/-! ### Renaming the key -/

theorem Readable.setKey (h : d.Readable) {key : Option String}
    (hkey : ∀ {name : String}, key = some name → d.contains name = true) :
    { d with key := key }.Readable :=
  ⟨h.fits, hkey⟩

theorem Regular.setKey (h : d.Regular) {key : Option String}
    (hkey : ∀ {name : String}, key = some name → d.contains name = true) :
    { d with key := key }.Regular :=
  ⟨h.toReadable.setKey hkey, h.length_cells, h.labels_ne_nil⟩

/-- The dataset after its key was named several times. -/
def withKeys (d : Dataset α) (names : List String) : Except (AnalysisError α) (Dataset α) :=
  names.foldlM withKey d

/-- Naming columns as the key makes a dataset neither less nor more regular. -/
theorem readable_withKeys {d' : Dataset α} {names : List String} (hd : d.Readable)
    (h : d.withKeys names = .ok d') : d'.Readable ∧ (d'.Regular ↔ d.Regular) := by
  induction names generalizing d with
  | nil =>
      obtain rfl := Except.ok.inj h
      exact ⟨hd, Iff.rfl⟩
  | cons name names ih =>
      obtain ⟨d₁, hd₁, h⟩ := bind_eq_ok_iff.1 (List.foldlM_cons.symm.trans h)
      obtain ⟨hname, rfl⟩ := withKey_eq_ok_iff.1 hd₁
      have hkey : ∀ {name' : String}, some name = some name' → d.contains name' = true := by
        rintro _ ⟨⟩
        exact hname
      obtain ⟨hreadable, hregular⟩ := ih (hd.setKey hkey) h
      exact ⟨hreadable, hregular.trans
        ⟨fun hnamed => hnamed.setKey hd.contains_key, fun hd => hd.setKey hkey⟩⟩

/-! ### Checked columns -/

/-- **Checked columns make a regular dataset.** -/
theorem regular_ofColumns {columns : List (Column α)} (h : ofColumns columns = .ok d) :
    d.Regular where
  fits hget := Column.fits_of_checkCell (checked_ofColumns h _ _ hget)
  contains_key hkey := by
    obtain ⟨-, rfl⟩ := ofColumns_eq_ok_iff.1 h
    cases hkey
  length_cells hget := (checkColumn_eq_ok_iff.1 (checkColumn_of_get? h hget).2).2.1
  labels_ne_nil hget := (checkColumn_eq_ok_iff.1 (checkColumn_of_get? h hget).2).1

theorem contains_ofColumns_iff {columns : List (Column α)} (h : ofColumns columns = .ok d)
    {name : String} : d.contains name = true ↔ ∃ v ∈ columns.map (·.var), v.name = name := by
  obtain ⟨-, rfl⟩ := ofColumns_eq_ok_iff.1 h
  rw [contains, NameMap.contains_ofList]
  simp

/-! ### The added key column -/

theorem readable_insert_keyColumn (hd : d.Readable) {name : String} {ids : List String} :
    { d with columns := d.columns.insert name (keyColumn name ids), key := some name }.Readable where
  fits {other c} hget := by
    rw [NameMap.get?_insert] at hget
    split at hget
    · obtain rfl := Option.some.inj hget
      exact Column.fits_of_checkCell checkCell_keyColumn
    · exact hd.fits hget
  contains_key {other} hkey := by
    obtain rfl := Option.some.inj hkey
    rw [contains, NameMap.contains_insert, beq_self_eq_true, Bool.true_or]

/-- An added key column keeps a dataset regular exactly if it has a cell for every row and there is
one at all. -/
theorem regular_insert_keyColumn_iff (hd : d.Regular) {name : String} {ids : List String} :
    { d with columns := d.columns.insert name (keyColumn name ids), key := some name }.Regular ↔
      ids.length = d.rowCount ∧ ids ≠ [] := by
  have hlabels : (keyColumn name ids : Column α).var.labels = ids.eraseDups := rfl
  have hdeclared : ids.eraseDups = [] ↔ ids = [] := by
    simp only [List.eq_nil_iff_forall_not_mem, List.mem_eraseDups]
  constructor
  · intro h
    have hget : (d.columns.insert name (keyColumn name ids)).get? name =
        some (keyColumn name ids) := by
      rw [NameMap.get?_insert, if_pos rfl]
    refine ⟨(List.length_map _).symm.trans (h.length_cells hget), fun hnil => ?_⟩
    exact h.labels_ne_nil hget rfl (hlabels.trans (hdeclared.2 hnil))
  · rintro ⟨hlength, hne⟩
    refine ⟨readable_insert_keyColumn hd.toReadable, fun hget => ?_, fun hget hscale => ?_⟩
    all_goals
      rw [NameMap.get?_insert] at hget
      split at hget
    · obtain rfl := Option.some.inj hget
      exact (List.length_map _).trans hlength
    · exact hd.length_cells hget
    · obtain rfl := Option.some.inj hget
      exact fun hnil => hne (hdeclared.1 (hlabels.symm.trans hnil))
    · exact hd.labels_ne_nil hget hscale

/-! ### Origins -/

/-- What a dataset is made from. -/
inductive Origin (α : Type)
  | columns (columns : List (Column α))
  | records (vars : List Variable) (records : List (Value α)) (key : Option String)

namespace Origin

/-- The dataset that is made. -/
def dataset [NumberText α] : Origin α → Except (AnalysisError α) (Dataset α)
  | columns cs => ofColumns cs
  | records vars rs key => ofRecords vars rs key

/-- A key column is added to records, although there are no variables or no records. -/
def LooseKey : Origin α → Prop
  | columns _ => False
  | records vars rs key =>
    (vars = [] ∨ rs = []) ∧ ∃ name, key = some name ∧ ∀ v ∈ vars, v.name ≠ name

end Origin

variable [NumberText α]

/-- A dataset of records is readable, and it is regular unless its key column is loose. -/
theorem regular_iff_of_ofRecords {vars : List Variable} {records : List (Value α)}
    {key : Option String} (h : ofRecords vars records key = .ok d) :
    d.Readable ∧ (d.Regular ↔ ¬ (Origin.records vars records key).LooseKey) := by
  obtain ⟨columns, d₀, rfl, hlength, hd₀, ⟨hkey, rfl⟩ | ⟨name, ids, rfl, hnew, hids, rfl⟩⟩ :=
    exists_of_ofRecords h
  · have hregular := (regular_ofColumns hd₀).setKey hkey
    refine ⟨hregular.toReadable, iff_of_true hregular ?_⟩
    rintro ⟨-, name, hname, hother⟩
    obtain ⟨v, hv, hv'⟩ := (contains_ofColumns_iff hd₀).1 (hkey hname)
    exact hother v hv hv'
  · refine ⟨readable_insert_keyColumn (regular_ofColumns hd₀).toReadable, ?_⟩
    have hother : ∀ v ∈ columns.map (·.var), v.name ≠ name := by
      intro v hv hname
      rw [(contains_ofColumns_iff hd₀).2 ⟨v, hv, hname⟩] at hnew
      cases hnew
    have hloose : (Origin.records (columns.map (·.var)) records (some name)).LooseKey ↔
        columns = [] ∨ records = [] := by
      rw [Origin.LooseKey, List.map_eq_nil_iff]
      exact and_iff_left ⟨name, rfl, hother⟩
    rw [regular_insert_keyColumn_iff (regular_ofColumns hd₀), hloose, not_or,
      ← List.length_pos_iff_ne_nil, hids, List.length_pos_iff_ne_nil]
    obtain ⟨-, rfl⟩ := ofColumns_eq_ok_iff.1 hd₀
    cases columns with
    | nil =>
        -- without variables there are no rows, whatever the number of records
        refine iff_of_false (fun h => h.2 (List.eq_nil_of_length_eq_zero h.1)) fun h => h.1 rfl
    | cons c rest =>
        have hrows : records.length = c.cells.length := (hlength c List.mem_cons_self).symm
        exact ⟨fun h => ⟨List.cons_ne_nil _ _, h.2⟩, fun h => ⟨hrows, h.2⟩⟩

/-- **Every dataset is readable, and it is regular unless a key column was added to no variables or
to no records.**  This is so however its key was renamed.  If it is regular, its key has a value in
its rows and nowhere else. -/
theorem regular_iff_of_origin {origin : Origin α} {names : List String}
    (h : (origin.dataset >>= (·.withKeys names)) = .ok d) :
    d.Readable ∧ (d.Regular ↔ ¬ origin.LooseKey) ∧
      (d.Regular → ∀ name, d.key = some name →
        ∀ row, (d.keyValue row).isSome = true ↔ row < d.rowCount) := by
  obtain ⟨d₀, hd₀, h⟩ := bind_eq_ok_iff.1 h
  have hmade : d₀.Readable ∧ (d₀.Regular ↔ ¬ origin.LooseKey) := by
    cases origin with
    | columns cs =>
        have hregular := regular_ofColumns hd₀
        exact ⟨hregular.toReadable, iff_of_true hregular id⟩
    | records vars rs key => exact regular_iff_of_ofRecords hd₀
  obtain ⟨hreadable, hregular⟩ := readable_withKeys hmade.1 h
  exact ⟨hreadable, hregular.trans hmade.2, fun hd _ hkey => hd.isSome_keyValue_iff hkey⟩

/-- Scores of two participants in one group, whose identifiers are not declared as a variable. -/
def participantScores : Origin Float :=
  .records [⟨"group", .nominal, some ["a", "b"]⟩, ⟨"score", .ratio, none⟩]
    [.table [("id", .text "p1"), ("group", .text "a"), ("score", .int 3)],
      .table [("id", .text "p2"), ("group", .text "a"), ("score", .int 5)]]
    (some "id")

/-- The scores of two participants make a regular dataset: its key, which is renamed and then named
again, has a value in two rows. -/
theorem regular_participantScores :
    ∃ d, (participantScores.dataset >>= (·.withKeys ["score", "id"])) = .ok d ∧ d.Regular ∧
      d.key = some "id" ∧ ∀ row, (d.keyValue row).isSome = true ↔ row < 2 := by
  obtain ⟨d, hd⟩ := isOk_iff.1 (show
    (participantScores.dataset >>= (·.withKeys ["score", "id"])).isOk = true by decide +kernel)
  have hsize : (participantScores.dataset >>= (·.withKeys ["score", "id"])).toOption.map
      (fun d => (d.rowCount, d.key)) = some (2, some "id") := by decide +kernel
  simp only [hd, Except.toOption, Option.map_some, Option.some.injEq, Prod.mk.injEq] at hsize
  obtain ⟨hrows, hkey⟩ := hsize
  obtain ⟨-, hregular, hvalues⟩ := regular_iff_of_origin hd
  have hd' : d.Regular := by
    refine hregular.2 ?_
    rintro ⟨hnone | hnone, -⟩ <;> cases hnone
  exact ⟨d, hd, hd', hkey, hrows ▸ hvalues hd' "id" hkey⟩

/-- A key column that is added to records without variables has a cell where there is no row, and
one that is added to no records is a nominal column without labels, which would not pass the check of
a column. -/
theorem not_regular_of_looseKey :
    (∃ d : Dataset Float,
      (Origin.records [] [.table [("id", .text "p1")]] (some "id")).dataset = .ok d ∧
        d.rowCount = 0 ∧ d.keyValue 0 = some (.text "p1") ∧ ¬ d.Regular) ∧
    ∃ (d : Dataset Float) (c : Column Float),
      (Origin.records [⟨"score", .ratio, none⟩] [] (some "id")).dataset = .ok d ∧
        d.columns.get? "id" = some c ∧ c.var.scale = .nominal ∧ c.var.labels = [] ∧
        ofColumns [c] = .error (.invalidConfig (.noCategories "id" .nominal)) ∧ ¬ d.Regular := by
  constructor
  · refine ⟨_, rfl, rfl, rfl, fun h => ?_⟩
    exact absurd ((h.isSome_keyValue_iff rfl 0).1 rfl) (Nat.lt_irrefl 0)
  · refine ⟨_, _, rfl, rfl, rfl, rfl, rfl, fun h => ?_⟩
    exact @Regular.labels_ne_nil _ _ _ h "id" _ rfl rfl rfl

end Dataset

end StudyAnalysis
