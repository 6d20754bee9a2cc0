/-
**Related groups are aligned by participant.**

Tests of related groups compare the values at one place of all samples, so the same participant has
to stand at that place.  By the key of a dataset, those participants are kept who have a row in every
group, each of them once and in the order of the first group; from each group a participant counts
with the first of the rows.  Without a key the groups are taken as they are, if they are equally
large.

Main definitions:

* `StudyAnalysis.Dataset.participantAt` — who a row belongs to;
* `StudyAnalysis.participantsOf` — the participants of a group, row by row;
* `StudyAnalysis.AlignedWith` — a sample of a group that goes with a list of participants.

Main results:

* `StudyAnalysis.mem_participants_iff` — who takes part in all groups;
* `StudyAnalysis.alignedWith_identified` — every participant who is kept counts with the first row;
* `StudyAnalysis.alignPaired_aligns` — **at every place of all samples stands one participant**.
-/

import Mathlib.Data.List.Induction
import StudyAnalysis.Hypothesis.Properties
import StudyAnalysis.Proofs.Fallible

set_option autoImplicit false
set_option relaxedAutoImplicit false

namespace StudyAnalysis

variable {α : Type}

/-! ### Participants -/

section Participants

/-- Without repetitions, the texts of a list stand in the order of their first places. -/
theorem pairwise_idxOf_eraseDups (ids : List String) :
    ids.eraseDups.Pairwise fun id id' => ids.idxOf id < ids.idxOf id' := by
  induction ids using List.reverseRecOn with
  | nil => exact .nil
  | append_singleton ids last ih =>
      -- the places of the earlier texts do not change when one more is appended
      have hearlier : ids.eraseDups.Pairwise fun id id' =>
          (ids ++ [last]).idxOf id < (ids ++ [last]).idxOf id' := by
        refine ih.imp_of_mem fun {id id'} hid hid' h => ?_
        rwa [List.idxOf_append_of_mem (List.mem_eraseDups.1 hid),
          List.idxOf_append_of_mem (List.mem_eraseDups.1 hid')]
      rw [List.eraseDups_append]
      by_cases hlast : last ∈ ids
      · have hnew : [last].removeAll ids = [] := by simp [List.removeAll, hlast]
        rwa [hnew, List.eraseDups_nil, List.append_nil]
      · have hnew : [last].removeAll ids = [last] := by simp [List.removeAll, hlast]
        rw [hnew, List.eraseDups_cons, List.filter_nil, List.eraseDups_nil, List.pairwise_append]
        refine ⟨hearlier, List.pairwise_singleton _ _, fun id hid id' hid' => ?_⟩
        obtain rfl := List.mem_singleton.1 hid'
        rw [List.idxOf_append_of_mem (List.mem_eraseDups.1 hid), List.idxOf_append_of_notMem hlast]
        exact Nat.lt_of_lt_of_le (List.idxOf_lt_length_iff.2 (List.mem_eraseDups.1 hid))
          (Nat.le_add_right _ _)

theorem nodup_eraseDups (ids : List String) : ids.eraseDups.Nodup := by
  refine (pairwise_idxOf_eraseDups ids).imp ?_
  rintro id _ h rfl
  exact Nat.lt_irrefl _ h

theorem nodup_participants (groups : List (List (String × α))) : (participants groups).Nodup :=
  (nodup_eraseDups _).filter _

/-- Every participant who is kept is found in each of the groups. -/
theorem isSome_find_of_mem_participants {groups : List (List (String × α))} {id : String}
    (hid : id ∈ participants groups) {g : List (String × α)} (hg : g ∈ groups) :
    (NameMap.find id g).isSome = true :=
  List.all_eq_true.1 (List.mem_filter.1 hid).2 g hg

/-- The name of an entry that is found is one of the names. -/
theorem mem_of_isSome_find {id : String} {entries : List (String × α)}
    (h : (NameMap.find id entries).isSome = true) : id ∈ entries.map (·.1) := by
  induction entries with
  | nil => cases h
  | cons entry rest ih =>
      rw [NameMap.find] at h
      split at h
      · exact List.mem_map.2 ⟨entry, List.mem_cons_self, ‹_›⟩
      · exact List.mem_cons_of_mem _ (ih h)

/-- **Who takes part in all groups** does not depend on which group comes first. -/
theorem mem_participants_iff {groups : List (List (String × α))} (hne : groups ≠ []) {id : String} :
    id ∈ participants groups ↔ ∀ g ∈ groups, (NameMap.find id g).isSome = true := by
  refine ⟨fun hid g hg => isSome_find_of_mem_participants hid hg, fun hall => ?_⟩
  obtain ⟨first, rest, rfl⟩ := List.exists_cons_of_ne_nil hne
  refine List.mem_filter.2 ⟨List.mem_eraseDups.2 ?_, List.all_eq_true.2 hall⟩
  exact mem_of_isSome_find (hall first List.mem_cons_self)

theorem participants_perm {groups groups' : List (List (String × α))} (h : groups.Perm groups') :
    (participants groups).Perm (participants groups') := by
  refine (List.perm_ext_iff_of_nodup (nodup_participants _) (nodup_participants _)).2 fun id => ?_
  by_cases hne : groups = []
  · obtain rfl : groups' = [] := by rwa [hne, List.nil_perm] at h
    rw [hne]
  · have hne' : groups' ≠ [] := fun hnil => hne (by rwa [hnil, List.perm_nil] at h)
    rw [mem_participants_iff hne, mem_participants_iff hne']
    simp only [h.mem_iff]

end Participants

/-! ### First rows -/

section Rows

variable [NumberText α] (d : Dataset α) {id : String} {g : RowValues α}

/-- The text that identifies the participant of a row. -/
def Dataset.participantAt (row : Nat) : Option String :=
  (d.keyValue row).map Cell.toText

/-- The participants of the cells of a group, in their order. -/
def participantsOf (g : RowValues α) : List String :=
  g.filterMap fun cell => d.participantAt cell.1

/-- The first cell of a participant in a group. -/
def firstCell? (id : String) (g : RowValues α) : Option (Nat × α) :=
  g.find? fun cell => d.participantAt cell.1 == some id

theorem identified_eq (g : RowValues α) :
    identified d g = g.filterMap fun cell => (d.participantAt cell.1).map (·, cell.2) := by
  refine List.filterMap_congr fun cell _ => ?_
  rw [Dataset.participantAt, Option.map_map]
  rfl

theorem map_fst_identified (g : RowValues α) :
    (identified d g).map (·.1) = participantsOf d g := by
  rw [identified_eq, List.map_filterMap, participantsOf]
  simp only [Option.map_map, Function.comp_def, Option.map_id']

/-- **The first of the rows of a participant counts.** -/
theorem find_identified (id : String) (g : RowValues α) :
    NameMap.find id (identified d g) = (firstCell? d id g).map (·.2) := by
  rw [identified_eq, firstCell?]
  induction g with
  | nil => rfl
  | cons cell rest ih =>
      cases hrow : d.participantAt cell.1 with
      | none =>
          rw [List.filterMap_cons_none (by rw [hrow]; rfl), ih,
            List.find?_cons_of_neg (by simp [hrow])]
      | some name =>
          rw [List.filterMap_cons_some (by rw [hrow]; rfl), NameMap.find]
          by_cases hname : name = id
          · rw [if_pos hname, List.find?_cons_of_pos (by simp [hrow, hname]), Option.map_some]
          · rw [if_neg hname, ih, List.find?_cons_of_neg (by simp [hrow, hname])]

/-- A participant has a first row in a group exactly if the participant has a row there. -/
theorem isSome_firstCell?_iff : (firstCell? d id g).isSome = true ↔ id ∈ participantsOf d g := by
  rw [firstCell?, List.find?_isSome, participantsOf, List.mem_filterMap]
  simp only [beq_iff_eq]

end Rows

/-! ### Aligned samples -/

section Alignment

variable [NumberText α] (d : Dataset α)

/-- A sample of a group goes with a list of participants: at the place of each of them stands the
value of the first cell that the participant has in the group. -/
structure AlignedWith (ids : List String) (g : RowValues α) (sample : List α) : Prop where
  length_eq : sample.length = ids.length
  exists_cell (i : Nat) (id : String) (hid : ids[i]? = some id) :
    ∃ cell, firstCell? d id g = some cell ∧ sample[i]? = some cell.2

variable {d}

/-- Participants who all have rows in a group give a sample of that group. -/
theorem alignedWith_identified {ids : List String} {g : RowValues α}
    (hids : ∀ id ∈ ids, id ∈ participantsOf d g) :
    AlignedWith d ids g (ids.filterMap (NameMap.find · (identified d g))) := by
  have hfirst : ∀ id ∈ ids, (firstCell? d id g).isSome = true :=
    fun id hid => (isSome_firstCell?_iff d).2 (hids id hid)
  -- nobody is missing, so the sample lists the values of the first cells, one for each participant
  have hsample : (ids.filterMap (NameMap.find · (identified d g))).map some =
      ids.map fun id => (firstCell? d id g).map (·.2) := by
    rw [List.map_filterMap_some_eq_filter_map_isSome, funext (find_identified d · g)]
    refine List.filter_eq_self.2 (List.forall_mem_map.2 fun id hid => ?_)
    rw [Option.isSome_map, hfirst id hid]
  refine ⟨by simpa using congrArg List.length hsample, fun i id hid => ?_⟩
  obtain ⟨cell, hcell⟩ := Option.isSome_iff_exists.1 (hfirst id (List.mem_of_getElem? hid))
  have hplace := congrArg (·[i]?) hsample
  rw [List.getElem?_map, List.getElem?_map, hid, Option.map_some, hcell, Option.map_some] at hplace
  exact ⟨cell, hcell, Option.map_injective (fun _ _ => Option.some.inj) hplace⟩

/-- Who takes part in all groups has a row in each of them. -/
theorem mem_participants_identified {groups : List (RowValues α)} (hne : groups ≠ []) {id : String} :
    id ∈ participants (groups.map (identified d)) ↔ ∀ g ∈ groups, id ∈ participantsOf d g := by
  rw [mem_participants_iff (List.map_eq_nil_iff.not.2 hne), List.forall_mem_map]
  simp only [find_identified, Option.isSome_map, isSome_firstCell?_iff]

/-- Those who are kept stand in the order of their first rows in the first group. -/
theorem pairwise_participants (first : RowValues α) (rest : List (RowValues α)) :
    (participants ((first :: rest).map (identified d))).Pairwise fun id id' =>
      (participantsOf d first).idxOf id < (participantsOf d first).idxOf id' := by
  rw [← map_fst_identified]
  exact (pairwise_idxOf_eraseDups _).filter _

variable (d) in
/-- The greatest number of participants that a group has, each of them counted once. -/
def mostParticipants (groups : List (RowValues α)) : Nat :=
  (groups.map fun g => (participantsOf d g).eraseDups.length).max?.getD 0

/-- Nobody is kept who is not counted in a group. -/
theorem length_participants_le (groups : List (RowValues α)) :
    (participants (groups.map (identified d))).length ≤ mostParticipants d groups := by
  cases groups with
  | nil => exact Nat.zero_le _
  | cons first rest =>
      have hfirst : (participantsOf d first).eraseDups.length ≤ mostParticipants d (first :: rest) :=
        List.le_max?_getD_of_mem List.mem_cons_self
      refine Nat.le_trans ?_ hfirst
      rw [← map_fst_identified]
      exact List.length_filter_le _ _

/-- Without a key, groups are aligned if they are equally large. -/
theorem alignPaired_eq_ok_iff (hkey : d.key = none) {factor : String}
    {groups : List (RowValues α)} {samples : List (List α)} :
    alignPaired d factor groups = .ok samples ↔
      (∃ n, ∀ g ∈ groups, g.length = n) ∧ samples = groups.map fun g => g.map (·.2) := by
  have hsizes : ((groups.map List.length).all (· == (groups.map List.length).headD 0)) = true ↔
      ∃ n, ∀ g ∈ groups, g.length = n := by
    rw [List.all_eq_true]
    constructor
    · intro hall
      exact ⟨_, fun g hg => eq_of_beq (hall _ (List.mem_map_of_mem hg))⟩
    · rintro ⟨n, hn⟩ size hsize
      obtain ⟨g, hg, rfl⟩ := List.mem_map.1 hsize
      obtain ⟨first, rest, rfl⟩ := List.exists_cons_of_ne_nil (List.ne_nil_of_mem hg)
      rw [beq_iff_eq, hn g hg]
      exact (hn first List.mem_cons_self).symm
  rw [alignPaired, hkey, ← hsizes]
  dsimp only
  split
  · rename_i hequal
    exact ⟨fun h => ⟨hequal, (Except.ok.inj h).symm⟩, fun h => congrArg Except.ok h.2.symm⟩
  · rename_i hunequal
    constructor
    · intro h
      cases h
    · exact fun h => absurd h.1 hunequal

/-- **Related groups are aligned.**  Without a key they have to be equally large and are taken as they
are.  With a key the alignment always succeeds: those participants are kept who have a row in every
group, each once and in the order of their first rows in the first group, and at the place of a
participant every sample has the value of the first cell of that participant.  There are never more
of them than participants in the group that has most. -/
theorem alignPaired_aligns (d : Dataset α) (factor : String) (groups : List (RowValues α)) :
    (d.key = none →
      ((∃ samples, alignPaired d factor groups = .ok samples) ↔
        ∃ n, ∀ g ∈ groups, g.length = n) ∧
      ∀ samples, alignPaired d factor groups = .ok samples →
        samples = groups.map fun g => g.map (·.2)) ∧
    ∀ name first rest, d.key = some name → groups = first :: rest →
      ∃ samples ids, alignPaired d factor groups = .ok samples ∧
        ids.Nodup ∧ (∀ id, id ∈ ids ↔ ∀ g ∈ groups, id ∈ participantsOf d g) ∧
        (ids.Pairwise fun id id' =>
          (participantsOf d first).idxOf id < (participantsOf d first).idxOf id') ∧
        List.Forall₂ (AlignedWith d ids) groups samples ∧
        ids.length ≤ mostParticipants d groups := by
  refine ⟨fun hkey => ?_, ?_⟩
  · simp only [alignPaired_eq_ok_iff hkey]
    exact ⟨⟨fun ⟨_, hsizes, _⟩ => hsizes, fun hsizes => ⟨_, hsizes, rfl⟩⟩, fun _ h => h.2⟩
  · rintro name first rest hkey rfl
    have hmem : ∀ id, id ∈ participants ((first :: rest).map (identified d)) ↔
        ∀ g ∈ first :: rest, id ∈ participantsOf d g :=
      fun id => mem_participants_identified (List.cons_ne_nil _ _)
    refine ⟨_, participants ((first :: rest).map (identified d)), by rw [alignPaired, hkey],
      nodup_participants _, hmem, pairwise_participants first rest, ?_, length_participants_le _⟩
    rw [List.map_map, List.forall₂_map_right_iff, List.forall₂_same]
    exact fun g hg => alignedWith_identified fun id hid => (hmem id).1 hid g hg

end Alignment

/-! ### Two trials with a repeated row and a missing participant -/

/-- The scores of three participants in two trials.  Bob has two rows in the first trial, and Cleo has
none in the second. -/
def repeatedTrials : Dataset Float where
  columns := .ofList [
    ("participant", ⟨⟨"participant", .nominal, some ["ann", "bob", "cleo"]⟩,
      [.text "bob", .text "ann", .text "bob", .text "cleo", .text "ann", .text "bob"]⟩),
    ("score", ⟨⟨"score", .ratio, none⟩, [.real 2, .real 1, .real 9, .real 4, .real 5, .real 3]⟩)]
  rowCount := 6
  key := some "participant"

/-- Bob and Ann are compared, Bob by the first of the two rows.  Without a key the trials could not be
compared, since they have different numbers of rows. -/
theorem alignPaired_repeatedTrials :
    let first : RowValues Float := [(0, 2), (1, 1), (2, 9), (3, 4)]
    let second : RowValues Float := [(4, 5), (5, 3)]
    (∃ ids : List String, alignPaired repeatedTrials "trial" [first, second] =
        .ok [[2, 1], [3, 5]] ∧ ids.Nodup ∧
      (∀ id, id ∈ ids ↔ ∀ g ∈ [first, second], id ∈ participantsOf repeatedTrials g) ∧
      (ids.Pairwise fun id id' => (participantsOf repeatedTrials first).idxOf id <
        (participantsOf repeatedTrials first).idxOf id') ∧
      List.Forall₂ (AlignedWith repeatedTrials ids) [first, second] [[2, 1], [3, 5]] ∧
      ids.length ≤ mostParticipants repeatedTrials [first, second]) ∧
    mostParticipants repeatedTrials [first, second] = 3 ∧
    ¬ ∃ samples, alignPaired { repeatedTrials with key := none } "trial" [first, second] =
      .ok samples := by
  intro first second
  have hrun : alignPaired repeatedTrials "trial" [first, second] = .ok [[2, 1], [3, 5]] := rfl
  obtain ⟨samples, ids, hsamples, hids⟩ :=
    (alignPaired_aligns repeatedTrials "trial" [first, second]).2 "participant" first [second] rfl
      rfl
  obtain rfl : [[2, 1], [3, 5]] = samples := Except.ok.inj (hrun.symm.trans hsamples)
  refine ⟨⟨ids, hsamples, hids⟩, by decide, fun hok => ?_⟩
  obtain ⟨n, hn⟩ := ((alignPaired_aligns { repeatedTrials with key := none } "trial"
    [first, second]).1 rfl).1.1 hok
  have hfirst : 4 = n := hn first List.mem_cons_self
  have hsecond : 2 = n := hn second (List.mem_cons_of_mem _ List.mem_cons_self)
  omega

end StudyAnalysis
