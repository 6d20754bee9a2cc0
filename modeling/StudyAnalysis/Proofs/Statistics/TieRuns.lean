/-
**Ranks by counting.**

The ranks of a sample are computed by sorting it twice: by the values, where runs of equal ones
share the mean of their positions, and back by the places.  What comes out depends on each value and
on how many values of the sample are below and how many are equal to it, and on nothing else.

For this the values need not be in a linear order themselves.  It suffices that each has a grade in
one by which it compares with the others; values of the same grade may be told apart when they are
sorted, as the two zeros of floating point are.

Main definitions:

* `StudyAnalysis.positionSum` — the sum of the first and the last position of the values that are
  equal to a value, by counting;
* `StudyAnalysis.Graded` — the values of a sample compare as their grades do;
* `StudyAnalysis.rankAmong` — **the rank of a value in a sample, by counting**.

Main results:

* `StudyAnalysis.run_induction` — induction along the runs of a sorted list;
* `StudyAnalysis.tieRuns_congr` — only which keys are equal decides how a list is cut;
* `StudyAnalysis.shareRanks_tieRuns` — the ranks of a sorted list;
* `StudyAnalysis.Graded.ranks_eq` — **the computed ranks are the counted ones**.
-/

import Mathlib
import StudyAnalysis.Proofs.Number.Order
import StudyAnalysis.Statistics.Ranks

set_option autoImplicit false
set_option relaxedAutoImplicit false

namespace StudyAnalysis

open Numeric

/-! ### Runs of a sorted list -/

section Runs

variable {β γ : Type} [LinearOrder γ] [BEq γ] [LawfulBEq γ] {key : β → γ} {b : β} {bs : List β}

omit [LinearOrder γ] in
theorem eq_of_mem_takeWhile {c : β} (hc : c ∈ bs.takeWhile (key · == key b)) : key c = key b :=
  eq_of_beq (List.mem_takeWhile_imp (p := fun c => key c == key b) hc)

/-- What comes after a run of a sorted list is greater. -/
theorem lt_of_mem_dropWhile (h : (b :: bs).Pairwise fun c c' => key c ≤ key c') {c : β}
    (hc : c ∈ bs.dropWhile (key · == key b)) : key b < key c := by
  obtain ⟨hb, hbs⟩ := List.pairwise_cons.1 h
  have hdrop := hbs.sublist (List.dropWhile_suffix (key · == key b)).sublist
  cases hrest : bs.dropWhile (key · == key b) with
  | nil =>
      rw [hrest] at hc
      cases hc
  | cons first rest =>
      have hmem : ∀ c ∈ first :: rest, c ∈ bs := fun c hc =>
        (List.dropWhile_suffix (key · == key b)).subset (hrest ▸ hc)
      have hfirst : ¬ (key first == key b) = true := by
        have hhead := List.head?_dropWhile_not (fun c => key c == key b) bs
        rw [hrest] at hhead
        simpa using hhead
      have hlt : key b < key first :=
        lt_of_le_of_ne (hb first (hmem first List.mem_cons_self)) fun heq =>
          hfirst (beq_iff_eq.2 heq.symm)
      rw [hrest] at hc hdrop
      rcases List.mem_cons.1 hc with rfl | hc
      · exact hlt
      · exact hlt.trans_le ((List.pairwise_cons.1 hdrop).1 c hc)

/-- **Induction along the runs of a sorted list**: a list that is not empty is a run of one key
before a list of greater keys. -/
theorem run_induction {motive : (bs : List β) → (bs.Pairwise fun c c' => key c ≤ key c') → Prop}
    (nil : motive [] .nil)
    (append : ∀ (x : γ) (run rest : List β) h h', (∀ c ∈ run, key c = x) →
      (∀ c ∈ rest, x < key c) → tieRuns key (run ++ rest) = run :: tieRuns key rest →
      motive rest h → motive (run ++ rest) h')
    (bs : List β) (h : bs.Pairwise fun c c' => key c ≤ key c') : motive bs h := by
  induction bs using tieRuns.induct key with
  | case1 => exact nil
  | case2 b bs ih =>
      have hsplit : b :: bs =
          (b :: bs.takeWhile (key · == key b)) ++ bs.dropWhile (key · == key b) := by
        rw [List.cons_append, List.takeWhile_append_dropWhile]
      have hrun : ∀ c ∈ b :: bs.takeWhile (key · == key b), key c = key b := by
        intro c hc
        rcases List.mem_cons.1 hc with rfl | hc
        · rfl
        · exact eq_of_mem_takeWhile hc
      have hsorted := (List.pairwise_cons.1 h).2.sublist
        (List.dropWhile_suffix (key · == key b)).sublist
      have happend := append (key b) _ _ hsorted (hsplit ▸ h) hrun
        (fun c hc => lt_of_mem_dropWhile h hc) (by rw [← hsplit, tieRuns_cons]) (ih hsorted)
      simpa only [← hsplit] using happend

end Runs

theorem takeWhile_dropWhile_congr {β : Type} {p q : β → Bool} {bs : List β}
    (h : ∀ b ∈ bs, p b = q b) : bs.takeWhile p = bs.takeWhile q ∧ bs.dropWhile p = bs.dropWhile q := by
  induction bs with
  | nil => exact ⟨rfl, rfl⟩
  | cons b bs ih =>
      obtain ⟨hb, hbs⟩ := List.forall_mem_cons.1 h
      obtain ⟨htake, hdrop⟩ := ih hbs
      rw [List.takeWhile_cons, List.takeWhile_cons, List.dropWhile_cons, List.dropWhile_cons, hb,
        htake, hdrop]
      exact ⟨rfl, rfl⟩

/-- **Only which keys are equal decides how a list is cut.** -/
theorem tieRuns_congr {β γ δ : Type} [BEq γ] [BEq δ] {key : β → γ} {key' : β → δ} {bs : List β}
    (h : ∀ b ∈ bs, ∀ c ∈ bs, (key b == key c) = (key' b == key' c)) :
    tieRuns key bs = tieRuns key' bs := by
  induction bs using tieRuns.induct key with
  | case1 => rw [tieRuns_nil, tieRuns_nil]
  | case2 b bs ih =>
      have hsame : ∀ c ∈ bs, (key c == key b) = (key' c == key' b) := fun c hc =>
        h c (List.mem_cons_of_mem b hc) b List.mem_cons_self
      obtain ⟨htake, hdrop⟩ := takeWhile_dropWhile_congr hsame
      have hmem : ∀ c ∈ bs.dropWhile (key · == key b), c ∈ b :: bs := fun c hc =>
        List.mem_cons_of_mem b ((List.dropWhile_suffix _).subset hc)
      rw [tieRuns_cons, tieRuns_cons, ih fun c hc c' hc' => h c (hmem c hc) c' (hmem c' hc'), htake,
        hdrop]

/-! ### Positions by counting -/

section Positions

variable {γ : Type} [LinearOrder γ] {p q : List γ} {x : γ}

theorem countP_eq_of_lt (hp : ∀ y ∈ p, y < x) : p.countP (fun y => decide (y = x)) = 0 :=
  List.countP_eq_zero.2 fun y hy => by simpa using (hp y hy).ne

theorem countP_eq_of_gt (hq : ∀ y ∈ q, x < y) : q.countP (fun y => decide (y = x)) = 0 :=
  List.countP_eq_zero.2 fun y hy => by simpa using (hq y hy).ne'

theorem countP_eq_of_eq (hp : ∀ y ∈ p, y = x) : p.countP (fun y => decide (y = x)) = p.length :=
  List.countP_eq_length.2 fun y hy => decide_eq_true (hp y hy)

/-- The sum of the first and the last position that the values equal to `x` have in ascending order:
twice as many as are below `x`, as many as are equal to it, and one. -/
def positionSum (pool : List γ) (x : γ) : ℕ :=
  2 * pool.countP (fun y => decide (y < x)) + pool.countP (fun y => decide (y = x)) + 1

theorem positionSum_eq_of_perm {pool pool' : List γ} (h : pool.Perm pool') :
    positionSum pool = positionSum pool' := by
  funext x
  rw [positionSum, positionSum, h.countP_eq, h.countP_eq]

/-- Values that are smaller move both positions up. -/
theorem positionSum_append_of_lt (hp : ∀ y ∈ p, y < x) :
    positionSum (p ++ q) x = 2 * p.length + positionSum q x := by
  have hless : p.countP (fun y => decide (y < x)) = p.length :=
    List.countP_eq_length.2 fun y hy => decide_eq_true (hp y hy)
  rw [positionSum, positionSum, List.countP_append, List.countP_append, hless, countP_eq_of_lt hp]
  omega

/-- Values that are greater do not count. -/
theorem positionSum_append_of_eq (hp : ∀ y ∈ p, y = x) (hq : ∀ y ∈ q, x < y) :
    positionSum (p ++ q) x = p.length + 1 := by
  have hless : (p ++ q).countP (fun y => decide (y < x)) = 0 := by
    refine List.countP_eq_zero.2 fun y hy => ?_
    rcases List.mem_append.1 hy with hy | hy
    · simpa using (hp y hy).ge
    · simpa using (hq y hy).le
  rw [positionSum, hless, List.countP_append, countP_eq_of_eq hp, countP_eq_of_gt hq, Nat.mul_zero,
    Nat.zero_add, Nat.add_zero]

variable [BEq γ] [LawfulBEq γ] {α β : Type} [Numeric α] {key : β → γ}

/-- **The shared ranks of a sorted list are the counted ones.** -/
theorem shareRanks_tieRuns (start : ℕ) (bs : List β)
    (h : bs.Pairwise fun c c' => key c ≤ key c') :
    shareRanks start (tieRuns key bs) =
      bs.map fun c => (c, (ofNat (2 * start + positionSum (bs.map key) (key c)) / 2 : α)) := by
  induction bs, h using run_induction generalizing start with
  | nil => rw [tieRuns_nil, shareRanks, List.map_nil]
  | append x run rest _ _ hrun hrest hruns ih =>
      have hequal : ∀ y ∈ run.map key, y = x := List.forall_mem_map.2 hrun
      have hgreater : ∀ y ∈ rest.map key, x < y := List.forall_mem_map.2 hrest
      rw [hruns, shareRanks, ih, List.map_append, List.map_append]
      congr 1
      · refine List.map_congr_left fun c hc => ?_
        rw [hrun c hc, positionSum_append_of_eq hequal hgreater, List.length_map]
        congr 3
        omega
      · refine List.map_congr_left fun c hc => ?_
        rw [positionSum_append_of_lt fun y hy => (hequal y hy).trans_lt (hrest c hc),
          List.length_map]
        congr 3
        omega

end Positions

/-! ### Ranks of a sample -/

section Samples

variable {α : Type} [Numeric α] {xs : List α}

theorem ascending_perm (xs : List α) : (ascending xs).Perm xs.zipIdx :=
  List.mergeSort_perm _ _

theorem fst_ascending_perm (xs : List α) : ((ascending xs).map (·.1)).Perm xs := by
  have h := (ascending_perm xs).map (·.1)
  rwa [List.zipIdx_map_fst] at h

omit [Numeric α] in
/-- Sorting by the places restores the order of a sample whose values were given something. -/
theorem mergeSort_place {f : α × ℕ → α} {ranked : List ((α × ℕ) × α)}
    (h : ranked.Perm (xs.zipIdx.map fun c => (c, f c))) :
    ranked.mergeSort (fun c c' => decide (c.1.2 ≤ c'.1.2)) = xs.zipIdx.map fun c => (c, f c) := by
  have hplaces : (xs.zipIdx.map (·.2)).Pairwise (· < ·) := by
    rw [List.zipIdx_map_snd]
    exact List.pairwise_lt_range'
  have hnodup : (xs.zipIdx.map (·.2)).Nodup := hplaces.imp fun h => h.ne
  have hperm := (List.mergeSort_perm ranked fun c c' => decide (c.1.2 ≤ c'.1.2)).trans h
  -- no two values have the same place
  have hantisymm : ∀ c c', c ∈ ranked.mergeSort (fun c c' => decide (c.1.2 ≤ c'.1.2)) →
      c' ∈ xs.zipIdx.map (fun c => (c, f c)) → c.1.2 ≤ c'.1.2 → c'.1.2 ≤ c.1.2 → c = c' := by
    intro c c' hc hc' hle hge
    obtain ⟨e, he, rfl⟩ := List.mem_map.1 (hperm.subset hc)
    obtain ⟨e', he', rfl⟩ := List.mem_map.1 hc'
    rw [List.inj_on_of_nodup_map hnodup he he' (le_antisymm hle hge)]
  refine hperm.eq_of_pairwise hantisymm ?_ ?_
  · refine (List.pairwise_mergeSort ?_ ?_ _).imp fun h => of_decide_eq_true h
    · intro c c' c'' h h'
      exact decide_eq_true ((of_decide_eq_true h).trans (of_decide_eq_true h'))
    · intro c c'
      rw [Bool.or_eq_true, decide_eq_true_iff, decide_eq_true_iff]
      exact le_total c.1.2 c'.1.2
  · exact List.pairwise_map.2 ((List.pairwise_map.1 hplaces).imp fun h => h.le)

/-- The rank of a value: one more than the number of smaller values, and half a place more for each
other value that is equal to it. -/
def rankAmong (pool : List α) (x : α) : α :=
  ofNat (2 * pool.countP (fun y => decide (y < x)) + pool.countP (· == x) + 1) / 2

theorem rankAmong_eq_of_perm {pool pool' : List α} (h : pool.Perm pool') :
    rankAmong pool = rankAmong pool' := by
  funext x
  rw [rankAmong, rankAmong, h.countP_eq, h.countP_eq]

/-- The values of a sample compare as their grades in a linear order do, and they are sorted so that
the grades ascend. -/
structure Graded {γ : Type} [LinearOrder γ] (grade : α → γ) (xs : List α) : Prop where
  lt_iff : ∀ x ∈ xs, ∀ y ∈ xs, x < y ↔ grade x < grade y
  beq_iff : ∀ x ∈ xs, ∀ y ∈ xs, (x == y) = true ↔ grade x = grade y
  le_of_totalLe : ∀ x ∈ xs, ∀ y ∈ xs, totalLe x y = true → grade x ≤ grade y

variable {γ : Type} [LinearOrder γ] {grade : α → γ}

theorem Graded.positionSum_eq (h : Graded grade xs) {x : α} (hx : x ∈ xs) :
    positionSum (xs.map grade) (grade x) =
      2 * xs.countP (fun y => decide (y < x)) + xs.countP (· == x) + 1 := by
  have hless : xs.countP (fun y => decide (grade y < grade x)) =
      xs.countP fun y => decide (y < x) :=
    List.countP_congr fun y hy => by
      rw [decide_eq_true_iff, decide_eq_true_iff, h.lt_iff y hy x hx]
  have hequal : xs.countP (fun y => decide (grade y = grade x)) = xs.countP (· == x) :=
    List.countP_congr fun y hy => by rw [decide_eq_true_iff, h.beq_iff y hy x hx]
  rw [positionSum, List.countP_map, List.countP_map]
  simp only [Function.comp_def]
  rw [hless, hequal]

/-- Values of one grade have one rank. -/
theorem Graded.rankAmong_eq (h : Graded grade xs) {x y : α} (hx : x ∈ xs) (hy : y ∈ xs)
    (hxy : (x == y) = true) : rankAmong xs x = rankAmong xs y := by
  rw [rankAmong, rankAmong, ← h.positionSum_eq hx, ← h.positionSum_eq hy,
    (h.beq_iff x hx y hy).1 hxy]

theorem Graded.of_perm {ys : List α} (h : Graded grade xs) (hperm : xs.Perm ys) :
    Graded grade ys where
  lt_iff x hx y hy := h.lt_iff x (hperm.mem_iff.2 hx) y (hperm.mem_iff.2 hy)
  beq_iff x hx y hy := h.beq_iff x (hperm.mem_iff.2 hx) y (hperm.mem_iff.2 hy)
  le_of_totalLe x hx y hy := h.le_of_totalLe x (hperm.mem_iff.2 hx) y (hperm.mem_iff.2 hy)

/-- The grades of a sorted sample ascend. -/
theorem Graded.pairwise_ascending [TotallyOrdered α] (h : Graded grade xs) :
    (ascending xs).Pairwise fun c c' => grade c.1 ≤ grade c'.1 := by
  have hmem : ∀ c ∈ ascending xs, c.1 ∈ xs := fun c hc =>
    (fst_ascending_perm xs).subset (List.mem_map_of_mem hc)
  refine (List.pairwise_mergeSort ?_ ?_ xs.zipIdx).imp_of_mem fun {c c'} hc hc' hle =>
    h.le_of_totalLe c.1 (hmem c hc) c'.1 (hmem c' hc') hle
  · exact fun c c' c'' => TotallyOrdered.totalLe_trans
  · intro c c'
    rw [Bool.or_eq_true]
    exact TotallyOrdered.totalLe_total c.1 c'.1

/-- **The computed ranks are the counted ones.** -/
theorem Graded.ranks_eq [TotallyOrdered α] (h : Graded grade xs) :
    ranks xs = xs.map (rankAmong xs) := by
  have hvalues := fst_ascending_perm xs
  have hmem : ∀ c ∈ ascending xs, c.1 ∈ xs := fun c hc =>
    hvalues.subset (List.mem_map_of_mem hc)
  have hruns : tieRuns (·.1) (ascending xs) = tieRuns (fun c => grade c.1) (ascending xs) :=
    tieRuns_congr fun b hb c hc => by
      rw [Bool.eq_iff_iff, h.beq_iff b.1 (hmem b hb) c.1 (hmem c hc), beq_iff_eq]
  have hshared : shareRanks 0 (tieRuns (·.1) (ascending xs)) =
      (ascending xs).map fun c => (c, rankAmong xs c.1) := by
    rw [hruns, shareRanks_tieRuns 0 _ h.pairwise_ascending]
    refine List.map_congr_left fun c hc => ?_
    have hgrades : (ascending xs).map (fun c => grade c.1) =
        ((ascending xs).map (·.1)).map grade := by
      rw [List.map_map]
      rfl
    rw [hgrades, positionSum_eq_of_perm (hvalues.map grade), h.positionSum_eq (hmem c hc),
      Nat.mul_zero, Nat.zero_add]
    rfl
  rw [ranks, hshared, mergeSort_place ((ascending_perm xs).map _), List.map_map]
  calc xs.zipIdx.map (fun c => rankAmong xs c.1) = (xs.zipIdx.map (·.1)).map (rankAmong xs) := by
        rw [List.map_map]
        rfl
    _ = xs.map (rankAmong xs) := by rw [List.zipIdx_map_fst]

end Samples

end StudyAnalysis
