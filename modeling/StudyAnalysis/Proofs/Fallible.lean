/-
**When computations that may fail succeed.**

The readers and checks of the library are `Except` computations over lists.  The lemmas of this
module turn the success of such a computation into plain facts about the elements of the list, so
that no later proof has to follow a computation step by step.

Main results:

* `StudyAnalysis.Fallible.bind_eq_ok_iff` — a sequence succeeds if both parts do;
* `StudyAnalysis.Fallible.map_eq_ok_iff`, `StudyAnalysis.Fallible.mapError_eq_ok_iff` — a result or
  a failure is changed;
* `StudyAnalysis.Fallible.mapM_eq_ok_iff`, `StudyAnalysis.Fallible.mapM_eq_map_mapM` — a list is
  mapped element by element;
* `StudyAnalysis.Fallible.mapM_bind_mapM_eq_ok_iff` — a list is mapped in two passes as in one;
* `StudyAnalysis.Fallible.forM_eq_ok_iff` — a list is checked element by element;
* `StudyAnalysis.Fallible.filterM_eq_ok_iff` — a list is filtered by a test that succeeds on all of
  it;
* `StudyAnalysis.Fallible.allM_eq_true_iff`, `StudyAnalysis.Fallible.exists_allM_eq_error_iff` — a
  test of all elements stops at the first that is refused;
* `StudyAnalysis.Fallible.RunsAlike.bind`, `StudyAnalysis.Fallible.RunsAlike.mapM` — computations
  that fail in the same way are put together.
-/

import Mathlib.Data.List.Forall2

set_option autoImplicit false
set_option relaxedAutoImplicit false

namespace StudyAnalysis.Fallible

variable {ε β γ : Type}

@[simp] theorem ok_bind (b : β) (f : β → Except ε γ) : (Except.ok b >>= f) = f b := rfl

@[simp] theorem error_bind (err : ε) (f : β → Except ε γ) :
    (Except.error err >>= f) = .error err := rfl

@[simp] theorem pure_eq_ok (b : β) : (pure b : Except ε β) = .ok b := rfl

theorem isOk_iff {x : Except ε β} : x.isOk = true ↔ ∃ b, x = .ok b := by
  cases x <;> simp [Except.isOk, Except.toBool]

/-- A sequence succeeds exactly if its first part does and the second part does with what the first
one yields. -/
theorem bind_eq_ok_iff {x : Except ε β} {f : β → Except ε γ} {c : γ} :
    x >>= f = .ok c ↔ ∃ b, x = .ok b ∧ f b = .ok c := by
  cases x <;> simp

/-- Changing a result succeeds exactly if there is one. -/
theorem map_eq_ok_iff {x : Except ε β} {f : β → γ} {c : γ} :
    x.map f = .ok c ↔ ∃ b, x = .ok b ∧ f b = c := by
  cases x <;> simp [Except.map]

theorem toOption_eq_some_iff {x : Except ε β} {b : β} : x.toOption = some b ↔ x = .ok b := by
  cases x <;> simp [Except.toOption]

/-- Two checks that pass in the same cases are equal apart from what their failures say. -/
theorem toOption_eq_of_ok_iff {x y : Except ε Unit} (h : x = .ok () ↔ y = .ok ()) :
    x.toOption = y.toOption := by
  cases x with
  | ok _ => rw [h.1 rfl]
  | error err =>
      cases y with
      | ok _ => cases h.2 rfl
      | error err' => rfl

/-- Sequences of parts that are equal apart from their failures are so, too. -/
theorem toOption_bind_congr {x y : Except ε β} {f g : β → Except ε γ}
    (hx : x.toOption = y.toOption) (hf : ∀ b, (f b).toOption = (g b).toOption) :
    (x >>= f).toOption = (y >>= g).toOption := by
  cases x with
  | error err =>
      cases y with
      | ok _ => cases hx
      | error err' => rfl
  | ok b =>
      cases y with
      | ok b' =>
          obtain rfl : b = b' := Option.some.inj hx
          exact hf b
      | error err => cases hx

/-- Changing what a failure says does not make it a success. -/
theorem mapError_eq_ok_iff {ε' : Type} {x : Except ε β} {f : ε → ε'} {b : β} :
    x.mapError f = .ok b ↔ x = .ok b := by
  cases x <;> simp [Except.mapError]

/-- Mapping a list succeeds exactly if it does for every element. -/
theorem mapM_eq_ok_iff {f : β → Except ε γ} {xs : List β} {ys : List γ} :
    xs.mapM f = .ok ys ↔ List.Forall₂ (fun x y => f x = .ok y) xs ys := by
  induction xs generalizing ys with
  | nil => simp [eq_comm]
  | cons x xs ih =>
      rw [List.mapM_cons, bind_eq_ok_iff]
      simp only [bind_eq_ok_iff, ih, List.forall₂_cons_left_iff, pure_eq_ok, Except.ok.injEq]
      constructor
      · rintro ⟨y, hy, ys', hys, rfl⟩
        exact ⟨y, ys', hy, hys, rfl⟩
      · rintro ⟨y, ys', hy, hys, rfl⟩
        exact ⟨y, hy, ys', hys, rfl⟩

/-- A function whose results are known maps like a plain function. -/
theorem mapM_of_eq_ok {f : β → Except ε γ} {xs : List β} (g : β → γ)
    (h : ∀ x ∈ xs, f x = .ok (g x)) : xs.mapM f = .ok (xs.map g) := by
  rw [mapM_eq_ok_iff, List.forall₂_map_right_iff, List.forall₂_same]
  exact h

/-- A list can be mapped exactly if every element can. -/
theorem exists_mapM_eq_ok_iff {f : β → Except ε γ} {xs : List β} :
    (∃ ys, xs.mapM f = .ok ys) ↔ ∀ x ∈ xs, ∃ y, f x = .ok y := by
  induction xs with
  | nil => simp
  | cons x xs ih =>
      rw [List.forall_mem_cons, ← ih]
      simp only [List.mapM_cons, bind_eq_ok_iff, pure_eq_ok, Except.ok.injEq]
      constructor
      · rintro ⟨_, y, hy, ys, hys, -⟩
        exact ⟨⟨y, hy⟩, ys, hys⟩
      · rintro ⟨⟨y, hy⟩, ys, hys⟩
        exact ⟨_, y, hy, ys, hys, rfl⟩

/-- Every element of a mapped list is the image of an element. -/
theorem exists_of_mem_mapM {f : β → Except ε γ} {xs : List β} {ys : List γ}
    (h : xs.mapM f = .ok ys) {y : γ} (hy : y ∈ ys) : ∃ x ∈ xs, f x = .ok y := by
  obtain hall := mapM_eq_ok_iff.1 h
  clear h
  induction hall with
  | nil => cases hy
  | @cons x y' xs ys hx _ ih =>
      rcases List.mem_cons.1 hy with rfl | hy
      · exact ⟨x, List.mem_cons_self, hx⟩
      · obtain ⟨x', hx', hfx'⟩ := ih hy
        exact ⟨x', List.mem_cons_of_mem x hx', hfx'⟩

/-- If a function succeeds where another one does, and with a related result, then so does mapping a
list of related elements. -/
theorem exists_mapM_of_forall₂ {β' γ' ε' : Type} {f : β → Except ε γ} {f' : β' → Except ε' γ'}
    {R : β → β' → Prop} {S : γ → γ' → Prop} {xs : List β} {xs' : List β'} {ys : List γ}
    (hf : ∀ x x' y, R x x' → f x = .ok y → ∃ y', f' x' = .ok y' ∧ S y y')
    (hxs : List.Forall₂ R xs xs') (h : xs.mapM f = .ok ys) :
    ∃ ys', xs'.mapM f' = .ok ys' ∧ List.Forall₂ S ys ys' := by
  induction hxs generalizing ys with
  | nil =>
      cases h
      exact ⟨[], rfl, .nil⟩
  | @cons x x' _ _ hx _ ih =>
      obtain ⟨y, ys, hy, hys, rfl⟩ := List.forall₂_cons_left_iff.1 (mapM_eq_ok_iff.1 h)
      obtain ⟨y', hy', hS⟩ := hf x x' y hx hy
      obtain ⟨ys', hys', hSs⟩ := ih (mapM_eq_ok_iff.2 hys)
      exact ⟨y' :: ys', mapM_eq_ok_iff.2 (.cons hy' (mapM_eq_ok_iff.1 hys')), .cons hS hSs⟩

/-- Mapping looks at a function only on the elements of the list. -/
theorem mapM_congr {f g : β → Except ε γ} {xs : List β} (hf : ∀ x ∈ xs, f x = g x) :
    xs.mapM f = xs.mapM g := by
  induction xs with
  | nil => rfl
  | cons x xs ih =>
      rw [List.mapM_cons, List.mapM_cons, hf x List.mem_cons_self,
        ih fun x' hx' => hf x' (List.mem_cons_of_mem x hx')]

/-- If a function changes each result by `h`, mapping with it changes the list of results by `h`; a
failure stays the same. -/
theorem mapM_eq_map_mapM {δ : Type} {f : β → Except ε γ} {f' : β → Except ε δ} {h : γ → δ}
    {xs : List β} (hf : ∀ x ∈ xs, f' x = (f x).map h) :
    xs.mapM f' = (xs.mapM f).map (List.map h) := by
  induction xs with
  | nil => rfl
  | cons x xs ih =>
      rw [List.mapM_cons, List.mapM_cons, hf x List.mem_cons_self,
        ih fun x' hx' => hf x' (List.mem_cons_of_mem x hx')]
      cases f x with
      | error err => rfl
      | ok y =>
          cases xs.mapM f with
          | error err => rfl
          | ok ys => rfl

/-- Mapping a list in two passes succeeds with the same list as mapping it in one; only which
failure comes first may differ. -/
theorem mapM_bind_mapM_eq_ok_iff {δ : Type} {f : β → Except ε γ} {g : γ → Except ε δ} {xs : List β}
    {zs : List δ} :
    (xs.mapM f >>= fun ys => ys.mapM g) = .ok zs ↔ xs.mapM (fun x => f x >>= g) = .ok zs := by
  simp only [bind_eq_ok_iff, mapM_eq_ok_iff]
  constructor
  · rintro ⟨ys, hys, hzs⟩
    induction hys generalizing zs with
    | nil =>
        cases hzs
        exact .nil
    | cons hy _ ih =>
        cases hzs with
        | cons hz hzs => exact .cons ⟨_, hy, hz⟩ (ih hzs)
  · intro h
    induction h with
    | nil => exact ⟨[], .nil, .nil⟩
    | cons hz _ ih =>
        obtain ⟨y, hy, hz⟩ := hz
        obtain ⟨ys, hys, hzs⟩ := ih
        exact ⟨y :: ys, .cons hy hys, .cons hz hzs⟩

/-- Checking a list succeeds exactly if it does for every element. -/
theorem forM_eq_ok_iff {f : β → Except ε Unit} {xs : List β} :
    xs.forM f = .ok () ↔ ∀ x ∈ xs, f x = .ok () := by
  induction xs with
  | nil => simp
  | cons x xs ih =>
      rw [List.forM_eq_forM] at ih ⊢
      rw [List.forM_cons]
      cases hx : f x with
      | ok _ => simp [hx, ih]
      | error err => simp [hx]

/-! ### Filtering -/

/-- Whether a test accepts an element; one that fails does not. -/
def accepts (f : β → Except ε Bool) (x : β) : Bool :=
  match f x with
  | .ok b => b
  | .error _ => false

theorem accepts_of_eq_ok {f : β → Except ε Bool} {x : β} {b : Bool} (h : f x = .ok b) :
    accepts f x = b := by
  rw [accepts, h]

theorem filterAuxM_eq_ok_iff {f : β → Except ε Bool} {xs acc ys : List β} :
    xs.filterAuxM f acc = .ok ys ↔
      (∀ x ∈ xs, f x = .ok (accepts f x)) ∧ ys = (xs.filter (accepts f)).reverse ++ acc := by
  induction xs generalizing acc with
  | nil => simp [List.filterAuxM, eq_comm]
  | cons x xs ih =>
      rw [List.filterAuxM]
      cases hx : f x with
      | ok b =>
          rw [ok_bind, ih]
          simp only [List.forall_mem_cons, accepts_of_eq_ok hx, hx, true_and]
          cases b <;> simp [accepts_of_eq_ok hx]
      | error err => simp [hx]

/-- Filtering a list succeeds exactly if the test does for every element. -/
theorem filterM_eq_ok_iff {f : β → Except ε Bool} {xs ys : List β} :
    xs.filterM f = .ok ys ↔
      (∀ x ∈ xs, f x = .ok (accepts f x)) ∧ ys = xs.filter (accepts f) := by
  rw [List.filterM, bind_eq_ok_iff]
  simp only [filterAuxM_eq_ok_iff, pure_eq_ok, Except.ok.injEq, List.append_nil]
  constructor
  · rintro ⟨_, ⟨htotal, rfl⟩, rfl⟩
    exact ⟨htotal, List.reverse_reverse _⟩
  · rintro ⟨htotal, rfl⟩
    exact ⟨_, ⟨htotal, rfl⟩, List.reverse_reverse _⟩

/-- A test whose answers are known filters like a predicate. -/
theorem filterM_of_eq_ok {f : β → Except ε Bool} {xs : List β} (keep : β → Bool)
    (h : ∀ x ∈ xs, f x = .ok (keep x)) : xs.filterM f = .ok (xs.filter keep) := by
  have haccepts : ∀ x ∈ xs, accepts f x = keep x := fun x hx => accepts_of_eq_ok (h x hx)
  refine filterM_eq_ok_iff.2 ⟨fun x hx => ?_, List.filter_congr fun x hx => (haccepts x hx).symm⟩
  rw [h x hx, haccepts x hx]

theorem filterAuxM_map {f : γ → Except ε Bool} (g : β → γ) (xs acc : List β) :
    (xs.map g).filterAuxM f (acc.map g) =
      (xs.filterAuxM (fun x => f (g x)) acc).map (List.map g) := by
  induction xs generalizing acc with
  | nil => rfl
  | cons x xs ih =>
      rw [List.map_cons, List.filterAuxM, List.filterAuxM]
      cases f (g x) with
      | error err => rfl
      | ok b =>
          rw [ok_bind, ok_bind]
          cases b with
          | false => exact ih acc
          | true => exact ih (x :: acc)

/-- Filtering images is taking the images of what is filtered. -/
theorem filterM_map {f : γ → Except ε Bool} (g : β → γ) (xs : List β) :
    (xs.map g).filterM f = (xs.filterM fun x => f (g x)).map (List.map g) := by
  rw [List.filterM, List.filterM, ← List.map_nil (f := g), filterAuxM_map]
  cases xs.filterAuxM (fun x => f (g x)) [] with
  | error err => rfl
  | ok ys => exact congrArg Except.ok List.map_reverse.symm

/-! ### Stopping early -/

section Stopping

variable {f : β → Except ε Bool} {xs ys : List β}

/-- All elements are accepted exactly if each of them is. -/
theorem allM_eq_true_iff : xs.allM f = .ok true ↔ ∀ x ∈ xs, f x = .ok true := by
  induction xs with
  | nil => exact iff_of_true rfl nofun
  | cons x xs ih =>
      rw [List.forall_mem_cons, ← ih, List.allM]
      rcases f x with err | _ | _ <;> simp

/-- What comes after accepted elements is looked at. -/
theorem allM_append_of_forall (h : ∀ x ∈ xs, f x = .ok true) : (xs ++ ys).allM f = ys.allM f := by
  induction xs with
  | nil => rfl
  | cons x xs ih =>
      obtain ⟨hx, hxs⟩ := List.forall_mem_cons.1 h
      rw [List.cons_append, List.allM, hx]
      exact ih hxs

/-- What comes after an element that is refused is not looked at. -/
theorem allM_append_of_false (h : xs.allM f = .ok false) : (xs ++ ys).allM f = .ok false := by
  induction xs with
  | nil => cases h
  | cons x xs ih =>
      rw [List.allM] at h
      rw [List.cons_append, List.allM]
      cases hx : f x with
      | error err =>
          rw [hx] at h
          cases h
      | ok b =>
          rw [hx] at h
          cases b with
          | false => rfl
          | true => exact ih h

/-- Only an element that is refused lets a test of all elements be refused. -/
theorem exists_mem_of_allM_eq_false (h : xs.allM f = .ok false) : ∃ x ∈ xs, f x = .ok false := by
  induction xs with
  | nil => cases h
  | cons x xs ih =>
      rw [List.allM] at h
      cases hx : f x with
      | error err =>
          rw [hx] at h
          cases h
      | ok b =>
          rw [hx] at h
          cases b with
          | false => exact ⟨x, List.mem_cons_self, hx⟩
          | true =>
              obtain ⟨y, hy, hfalse⟩ := ih h
              exact ⟨y, List.mem_cons_of_mem x hy, hfalse⟩

/-- A test of all elements fails exactly if it does for one that comes after accepted ones only. -/
theorem exists_allM_eq_error_iff : (∃ err, xs.allM f = .error err) ↔
    ∃ before x after, xs = before ++ x :: after ∧ (∀ y ∈ before, f y = .ok true) ∧
      ∃ err, f x = .error err := by
  constructor
  · rintro ⟨err, h⟩
    induction xs with
    | nil => cases h
    | cons x xs ih =>
        rw [List.allM] at h
        cases hx : f x with
        | error err' => exact ⟨[], x, xs, rfl, nofun, err', hx⟩
        | ok b =>
            rw [hx] at h
            cases b with
            | false => cases h
            | true =>
                obtain ⟨before, y, after, rfl, hbefore, hy⟩ := ih h
                exact ⟨x :: before, y, after, rfl, List.forall_mem_cons.2 ⟨hx, hbefore⟩, hy⟩
  · rintro ⟨before, x, after, rfl, hbefore, err, hx⟩
    refine ⟨err, ?_⟩
    rw [allM_append_of_forall hbefore, List.allM, hx]
    rfl

end Stopping

/-! ### Failing in the same way -/

/-- Two computations fail with the same error, or they succeed with related results. -/
inductive RunsAlike (R : β → γ → Prop) : Except ε β → Except ε γ → Prop
  | error (err : ε) : RunsAlike R (.error err) (.error err)
  | ok {b : β} {c : γ} (h : R b c) : RunsAlike R (.ok b) (.ok c)

namespace RunsAlike

variable {β' γ' : Type} {R : β → γ → Prop} {S : β' → γ' → Prop} {x : Except ε β} {y : Except ε γ}

theorem bind {f : β → Except ε β'} {g : γ → Except ε γ'} (h : RunsAlike R x y)
    (hf : ∀ b c, R b c → RunsAlike S (f b) (g c)) : RunsAlike S (x >>= f) (y >>= g) := by
  cases h with
  | error err => exact .error err
  | ok h => exact hf _ _ h

theorem mapM {f : β → Except ε β'} {g : γ → Except ε γ'} {bs : List β} {cs : List γ}
    (hf : ∀ b c, R b c → RunsAlike S (f b) (g c)) (h : List.Forall₂ R bs cs) :
    RunsAlike (List.Forall₂ S) (bs.mapM f) (cs.mapM g) := by
  induction h with
  | nil => exact .ok .nil
  | cons hbc _ ih =>
      rw [List.mapM_cons, List.mapM_cons]
      exact (hf _ _ hbc).bind fun _ _ hhead => ih.bind fun _ _ htail => .ok (.cons hhead htail)

/-- Both fail with an error or none does. -/
theorem eq_error_iff (h : RunsAlike R x y) (err : ε) : y = .error err ↔ x = .error err := by
  cases h with
  | error err' => rw [Except.error.injEq, Except.error.injEq]
  | ok h => exact ⟨nofun, nofun⟩

/-- What one of them yields has a counterpart. -/
theorem exists_of_eq_ok (h : RunsAlike R x y) {b : β} (hx : x = .ok b) :
    ∃ c, y = .ok c ∧ R b c := by
  subst hx
  cases h with
  | ok h => exact ⟨_, rfl, h⟩

end RunsAlike

end StudyAnalysis.Fallible
