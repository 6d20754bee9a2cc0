/-
**Finite maps from names, in the order of the names.**

Properties and effect sizes are reported in the order of their names, whatever the order in which
they were found.

Main definitions:

* `StudyAnalysis.NameMap` — a list of named values;
* `StudyAnalysis.NameMap.insert`, `StudyAnalysis.NameMap.get?` — writing and reading one name.

Main results:

* `StudyAnalysis.NameMap.get?_insert` — a name is read as it was last written.
-/

set_option autoImplicit false
set_option relaxedAutoImplicit false

namespace StudyAnalysis

/-- A finite map from names, as the list of its entries in ascending order of the names. -/
structure NameMap (β : Type) where
  entries : List (String × β)

namespace NameMap

variable {β : Type}

/-- The map without entries. -/
def empty : NameMap β := ⟨[]⟩

instance : EmptyCollection (NameMap β) := ⟨empty⟩

/-- The entries with a value written under a name: an entry of that name is replaced, and a new one
takes its place before the first greater name. -/
def insertInto (name : String) (value : β) : List (String × β) → List (String × β)
  | [] => [(name, value)]
  | entry :: rest =>
    if entry.1 = name then (name, value) :: rest
    else if name < entry.1 then (name, value) :: entry :: rest
    else entry :: insertInto name value rest

/-- The map with a value written under a name. -/
def insert (m : NameMap β) (name : String) (value : β) : NameMap β :=
  ⟨insertInto name value m.entries⟩

/-- The value that the first entry of a name has in a list of entries. -/
def find (name : String) : List (String × β) → Option β
  | [] => none
  | entry :: rest => if entry.1 = name then some entry.2 else find name rest

/-- The value under a name. -/
def get? (m : NameMap β) (name : String) : Option β :=
  find name m.entries

/-- Whether the map has a value under a name. -/
def contains (m : NameMap β) (name : String) : Bool :=
  (m.get? name).isSome

/-- The names of the map, in ascending order. -/
def names (m : NameMap β) : List String :=
  m.entries.map (·.1)

/-- The values of the map, in the order of their names. -/
def values (m : NameMap β) : List β :=
  m.entries.map (·.2)

/-- The map of a list of entries, of which the last of one name counts. -/
def ofList (entries : List (String × β)) : NameMap β :=
  entries.foldl (fun m e => m.insert e.1 e.2) ∅

/-- The map with a function applied to its values. -/
def map {γ : Type} (f : β → γ) (m : NameMap β) : NameMap γ :=
  ⟨m.entries.map fun e => (e.1, f e.2)⟩

@[simp] theorem get?_empty (name : String) : (∅ : NameMap β).get? name = none := rfl

theorem find_insertInto (entries : List (String × β)) (name other : String) (value : β) :
    find other (insertInto name value entries) =
      if name = other then some value else find other entries := by
  induction entries with
  | nil => simp [insertInto, find]
  | cons entry rest ih =>
    by_cases h : entry.1 = name
    · rw [insertInto, if_pos h, find, find]
      by_cases ho : name = other <;> simp [h, ho]
    · by_cases hlt : name < entry.1
      · rw [insertInto, if_neg h, if_pos hlt, find]
      · rw [insertInto, if_neg h, if_neg hlt, find, find, ih]
        by_cases he : entry.1 = other
        · have hn : name ≠ other := fun e => h (he.trans e.symm)
          simp [he, hn]
        · simp [he]

/-- A name is read as it was last written, and every other name as before. -/
theorem get?_insert (m : NameMap β) (name other : String) (value : β) :
    (m.insert name value).get? other = if name = other then some value else m.get? other :=
  find_insertInto m.entries name other value

/-- A function applied to all values is applied to the value under a name. -/
theorem get?_map {γ : Type} (f : β → γ) (m : NameMap β) (name : String) :
    (m.map f).get? name = (m.get? name).map f := by
  rw [get?, get?, map]
  induction m.entries with
  | nil => rfl
  | cons entry rest ih =>
    rw [List.map_cons, find, find, ih]
    by_cases h : entry.1 = name <;> simp [h]

end NameMap

end StudyAnalysis
