/-
**The changes of a result.**

After its test a result can still be changed by four calls: two of them set the adjusted p-value,
one takes the p-value towards a prediction, and one adds an effect size.  Each call gives an answer
together with the result that there is afterwards.  Two rules are meant to hold
once only.  A second adjustment is refused with an error, while a second request for a one-sided
p-value is passed over in silence.  Both rules are instances of one: what a call would set is taken
only as long as nothing has been set before.

The rules meet in the p-value.  Division by the number of comparisons starts from the p-value that
there is at that moment, so it matters whether it was taken towards a prediction before.

Main definitions:

* `StudyAnalysis.TestResult.Change` — a call that changes a result;
* `StudyAnalysis.TestResult.call` — what it answers, and the result afterwards;
* `StudyAnalysis.TestResult.after` — the result that is there after some calls;
* `StudyAnalysis.TestResult.Keeps` — nothing changed that no call is about;
* `StudyAnalysis.TestResult.LifeCycle` — what all sequences of calls have in common.

Main results:

* `StudyAnalysis.TestResult.after_of_some`, `StudyAnalysis.TestResult.after_of_none` — **what is set
  once only** stays if it is set, and is not set by calls that are not about it;
* `StudyAnalysis.TestResult.get?_after` — the effect size that was added last counts;
* `StudyAnalysis.new_result_lifeCycle` — **the life cycle of a new result**.
-/

import Mathlib
import StudyAnalysis.Hypothesis.TestResult
import StudyAnalysis.Proofs.Number.Probabilities
import StudyAnalysis.Proofs.Selection.Monotonicity

set_option autoImplicit false
set_option relaxedAutoImplicit false

namespace StudyAnalysis

namespace TestResult

variable {α : Type}

/-! ### What a result keeps -/

section Kept

variable {r r' r'' : TestResult α} {value : α}

/-- Nothing is different but the p-value, the adjusted one, the sidedness and the effect sizes. -/
def Keeps (r r' : TestResult α) : Prop :=
  r' = { r with
    pValue := r'.pValue, adjusted := r'.adjusted, oneSided := r'.oneSided,
    effectSizes := r'.effectSizes }

theorem Keeps.trans (h : r.Keeps r') (h' : r'.Keeps r'') : r.Keeps r'' := by
  rw [Keeps] at h h' ⊢
  rw [h', h]

theorem Keeps.method_eq (h : r.Keeps r') : r'.method = r.method := by
  rw [Keeps] at h
  rw [h]

/-- The one-sided p-value of a result that has one. -/
def oneSidedPValue? (r : TestResult α) : Option α :=
  if r.oneSided then some r.pValue else none

theorem oneSidedPValue?_eq_some_iff :
    r.oneSidedPValue? = some value ↔ r.oneSided = true ∧ r.pValue = value := by
  rw [oneSidedPValue?]
  cases r.oneSided <;> simp

theorem oneSidedPValue?_eq_none_iff : r.oneSidedPValue? = none ↔ r.oneSided = false := by
  rw [oneSidedPValue?]
  cases r.oneSided <;> simp

end Kept

variable [Numeric α]

/-! ### Calls -/

/-- A call that changes a result. -/
inductive Change (α : Type)
  /-- Division of the p-value by the number of comparisons. -/
  | adjust (comparisons : α)
  /-- An adjusted p-value that was computed elsewhere. -/
  | setAdjusted (value : α)
  /-- A p-value towards a prediction that came true or did not. -/
  | makeOneSided (confirmed : Bool)
  | addEffectSize (name : String) (size : α)

namespace Change

/-- The adjusted p-value that a call would set with the given p-value. -/
def adjustment? (pValue : α) : Change α → Option α
  | adjust comparisons => some (pValue / comparisons)
  | setAdjusted value => some value
  | _ => none

/-- Whether a call is one that sets the adjusted p-value. -/
def adjusts : Change α → Bool
  | adjust _ | setAdjusted _ => true
  | _ => false

/-- The direction towards which a call would take the p-value. -/
def direction? : Change α → Option Bool
  | makeOneSided confirmed => some confirmed
  | _ => none

/-- The effect size that a call adds under a name. -/
def size? (name : String) : Change α → Option α
  | addEffectSize name' size => if name' = name then some size else none
  | _ => none

/-- The effect sizes that there are after a call. -/
def sizes (m : NameMap α) : Change α → NameMap α
  | addEffectSize name size => m.insert name size
  | _ => m

theorem adjustment?_eq_none_iff {c : Change α} {pValue : α} :
    c.adjustment? pValue = none ↔ c.adjusts = false := by
  cases c <;> simp [adjustment?, adjusts]

end Change

/-- What a call answers, and the result that is there afterwards. -/
def call (r : TestResult α) : Change α → Except (AnalysisError α) Unit × TestResult α
  | .adjust comparisons => r.adjust comparisons
  | .setAdjusted value => r.setAdjusted value
  | .makeOneSided confirmed => (.ok (), r.makeOneSided confirmed)
  | .addEffectSize name size => (.ok (), r.addEffectSize name size)

/-- The result that is there after a call. -/
def step (r : TestResult α) (c : Change α) : TestResult α :=
  (r.call c).2

/-- The result that is there after some calls. -/
def after (r : TestResult α) (cs : List (Change α)) : TestResult α :=
  cs.foldl step r

/-- A p-value taken towards a direction that was confirmed or not. -/
def towards (pValue : α) (confirmed : Bool) : α :=
  if confirmed then pValue / 2 else 1 - pValue / 2

/-! ### One call -/

section Steps

variable {r : TestResult α} {c : Change α} {value : α}

/-- **A second adjustment is refused and leaves the result as it was.** -/
theorem call_of_adjusted (h : r.adjusted = some value) (hc : c.adjusts = true) :
    r.call c = (.error (.alreadyAdjusted r.method), r) := by
  cases c with
  | adjust comparisons => simp [call, adjust, setAdjusted, h]
  | setAdjusted value' => simp [call, setAdjusted, h]
  | makeOneSided confirmed => cases hc
  | addEffectSize name size => cases hc

theorem call_of_unadjusted (h : r.adjusted = none) (hc : c.adjustment? r.pValue = some value) :
    r.call c = (.ok (), { r with adjusted := some value }) := by
  cases c with
  | adjust comparisons =>
      rw [← Option.some.inj hc]
      simp [call, adjust, setAdjusted, h]
  | setAdjusted value' =>
      rw [← Option.some.inj hc]
      simp [call, setAdjusted, h]
  | makeOneSided confirmed => cases hc
  | addEffectSize name size => cases hc

/-- Only adjustments can fail. -/
theorem call_of_not_adjusts (hc : c.adjusts = false) : r.call c = (.ok (), r.step c) := by
  cases c with
  | adjust comparisons => cases hc
  | setAdjusted value' => cases hc
  | makeOneSided confirmed => rfl
  | addEffectSize name size => rfl

/-- **What a call leaves behind**: an adjusted p-value is set if there is none, the p-value is taken
towards a direction if it is two-sided, and an effect size is written over an earlier one. -/
theorem step_eq : r.step c = { r with
    adjusted := r.adjusted.or (c.adjustment? r.pValue)
    pValue := if r.oneSided then r.pValue else (c.direction?.map (towards r.pValue)).getD r.pValue
    oneSided := r.oneSided || c.direction?.isSome
    effectSizes := c.sizes r.effectSizes } := by
  -- each rule looks at one field, and no call changes both of them
  obtain ⟨_, _, _, _, _, adjusted, _, oneSided, _, _, _, _⟩ := r
  cases c <;> cases adjusted <;> cases oneSided <;> rfl

theorem keeps_step : r.Keeps (r.step c) := by
  rw [step_eq]
  rfl

/-- The adjusted p-value is the one that there was or else the one that is asked for. -/
theorem adjusted_step : (r.step c).adjusted = r.adjusted.or (c.adjustment? r.pValue) := by
  rw [step_eq]

/-- The one-sided p-value is the one that there was or else the p-value towards the direction that
is asked for. -/
theorem oneSidedPValue?_step :
    (r.step c).oneSidedPValue? = r.oneSidedPValue?.or (c.direction?.map (towards r.pValue)) := by
  rw [step_eq, oneSidedPValue?, oneSidedPValue?]
  cases r.oneSided <;> cases c.direction? <;> rfl

/-- Without a direction the p-value stays. -/
theorem pValue_step (hc : c.direction? = none) : (r.step c).pValue = r.pValue := by
  rw [step_eq, hc]
  exact ite_self _

theorem get?_step {name : String} :
    (r.step c).effectSizes.get? name = (c.size? name).or (r.effectSizes.get? name) := by
  rw [step_eq]
  cases c with
  | addEffectSize name' size =>
      rw [Change.sizes, Change.size?, NameMap.get?_insert]
      split <;> rfl
  | adjust comparisons => rfl
  | setAdjusted value' => rfl
  | makeOneSided confirmed => rfl

theorem isProbability_towards [ProbabilityFaithful α] {pValue : α} (h : IsProbability pValue)
    (confirmed : Bool) : IsProbability (towards pValue confirmed) := by
  rw [towards]
  split
  · exact ProbabilityFaithful.half h
  · exact ProbabilityFaithful.complement (ProbabilityFaithful.half h)

theorem isProbability_step [ProbabilityFaithful α] (h : IsProbability r.pValue) :
    IsProbability (r.step c).pValue := by
  rw [step_eq]
  dsimp only
  split
  · exact h
  · cases c.direction? with
    | none => exact h
    | some confirmed => exact isProbability_towards h confirmed

end Steps

/-! ### Any number of calls -/

section Runs

variable {r : TestResult α} {c : Change α} {cs before later : List (Change α)}

@[simp] theorem after_nil : r.after [] = r := rfl

@[simp] theorem after_cons : r.after (c :: cs) = (r.step c).after cs := rfl

theorem after_append : r.after (before ++ later) = (r.after before).after later :=
  List.foldl_append

/-- Calls keep what they are not about. -/
theorem keeps_after : r.Keeps (r.after cs) := by
  induction cs generalizing r with
  | nil => rfl
  | cons c cs ih => exact keeps_step.trans ih

section Once

variable {β : Type} {observed : TestResult α → Option β}
  {wanted : TestResult α → Change α → Option β} {v : β}

/-- **What is set once only stays.** -/
theorem after_of_some (hstep : ∀ r c, observed (r.step c) = (observed r).or (wanted r c))
    (h : observed r = some v) : observed (r.after cs) = some v := by
  induction cs generalizing r with
  | nil => exact h
  | cons c cs ih => exact ih (by rw [hstep, h, Option.some_or])

/-- **What no call is about is not set.** -/
theorem after_of_none (hstep : ∀ r c, observed (r.step c) = (observed r).or (wanted r c))
    (h : ∀ c ∈ cs, ∀ r, wanted r c = none) : observed (r.after cs) = observed r := by
  induction cs generalizing r with
  | nil => rfl
  | cons c cs ih =>
      rw [after_cons, ih fun c' hc' => h c' (List.mem_cons_of_mem _ hc'), hstep,
        h c List.mem_cons_self, Option.or_none]

/-- What is set once only is set by the first call that is about it. -/
theorem after_of_first (hstep : ∀ r c, observed (r.step c) = (observed r).or (wanted r c))
    (hnew : observed r = none) (hbefore : ∀ b ∈ before, ∀ r, wanted r b = none)
    (hc : wanted (r.after before) c = some v) :
    observed (r.after (before ++ c :: later)) = some v := by
  rw [after_append, after_cons]
  refine after_of_some hstep ?_
  rw [hstep, after_of_none hstep hbefore, hnew, Option.none_or, hc]

end Once

/-- After an adjustment there is an adjusted p-value. -/
theorem exists_adjusted_after (h : ∃ c ∈ cs, c.adjusts = true) :
    ∃ value, (r.after cs).adjusted = some value := by
  obtain ⟨c, hmem, hc⟩ := h
  obtain ⟨before, later, rfl⟩ := List.append_of_mem hmem
  have hset : ((r.after before).step c).adjusted ≠ none := by
    rw [adjusted_step, Ne, Option.or_eq_none_iff, Change.adjustment?_eq_none_iff, hc]
    simp
  obtain ⟨value, hvalue⟩ := Option.ne_none_iff_exists'.1 hset
  rw [after_append, after_cons]
  exact ⟨value, after_of_some (fun _ _ => adjusted_step) hvalue⟩

theorem pValue_after (h : ∀ c ∈ cs, c.direction? = none) : (r.after cs).pValue = r.pValue := by
  induction cs generalizing r with
  | nil => rfl
  | cons c cs ih =>
      rw [after_cons, ih fun c' hc' => h c' (List.mem_cons_of_mem _ hc'),
        pValue_step (h c List.mem_cons_self)]

/-- **The effect size that was added last counts.** -/
theorem get?_after {name : String} : (r.after cs).effectSizes.get? name =
    (cs.reverse.findSome? (Change.size? name)).or (r.effectSizes.get? name) := by
  induction cs using List.reverseRecOn with
  | nil => rfl
  | append_singleton cs c ih =>
      rw [after_append, after_cons, after_nil, get?_step, ih, List.reverse_append,
        List.reverse_singleton, List.singleton_append, List.findSome?_cons]
      cases c.size? name <;> rfl

theorem isProbability_after [ProbabilityFaithful α] (h : IsProbability r.pValue) :
    IsProbability (r.after cs).pValue := by
  induction cs generalizing r with
  | nil => exact h
  | cons c cs ih => exact ih (isProbability_step h)

end Runs

/-! ### The life cycle of a result -/

/-- What all sequences of calls to a result have in common. -/
structure LifeCycle (r : TestResult α) : Prop where
  /-- Nothing changes that no call is about. -/
  kept (cs : List (Change α)) : r.Keeps (r.after cs)
  /-- Only adjustments can fail. -/
  answered (cs : List (Change α)) (c : Change α) (hc : c.adjusts = false) :
    (r.after cs).call c = (.ok (), (r.after cs).step c)
  unadjusted (cs : List (Change α)) (hcs : ∀ c ∈ cs, c.adjusts = false) :
    (r.after cs).adjusted = none
  /-- The first adjustment succeeds.  Its value, which comes from the p-value that there is then,
  stays whatever is called later. -/
  adjusted_first (before : List (Change α)) (c : Change α) (later : List (Change α)) (value : α)
    (hbefore : ∀ b ∈ before, b.adjusts = false)
    (hc : c.adjustment? (r.after before).pValue = some value) :
    (r.after before).call c = (.ok (), { r.after before with adjusted := some value }) ∧
      (r.after (before ++ c :: later)).adjusted = some value
  /-- Every later adjustment is refused and changes nothing at all. -/
  adjusted_again (before : List (Change α)) (c : Change α)
    (hbefore : ∃ b ∈ before, b.adjusts = true) (hc : c.adjusts = true) :
    (r.after before).call c = (.error (.alreadyAdjusted r.method), r.after before) ∧
      r.after (before ++ [c]) = r.after before
  twoSided (cs : List (Change α)) (hcs : ∀ c ∈ cs, c.direction? = none) :
    (r.after cs).oneSided = false ∧ (r.after cs).pValue = r.pValue
  /-- The first request for a one-sided p-value is the only one that counts. -/
  oneSided_first (before : List (Change α)) (confirmed : Bool) (later : List (Change α))
    (hbefore : ∀ b ∈ before, b.direction? = none) :
    (r.after (before ++ .makeOneSided confirmed :: later)).oneSided = true ∧
      (r.after (before ++ .makeOneSided confirmed :: later)).pValue =
        if confirmed then r.pValue / 2 else 1 - r.pValue / 2
  probability (cs : List (Change α)) (hr : IsProbability r.pValue) :
    IsProbability (r.after cs).pValue
  /-- The effect size that was added last under a name counts, and without one the original. -/
  sizes (cs : List (Change α)) (name : String) : (r.after cs).effectSizes.get? name =
    (cs.reverse.findSome? (Change.size? name)).or (r.effectSizes.get? name)

/-- **A result that was neither adjusted nor made one-sided yet has a life cycle.** -/
theorem lifeCycle_of_new [ProbabilityFaithful α] {r : TestResult α} (hadjusted : r.adjusted = none)
    (hsided : r.oneSided = false) : r.LifeCycle where
  kept cs := keeps_after
  answered cs c hc := call_of_not_adjusts hc
  unadjusted cs hcs := by
    rw [after_of_none (fun _ _ => adjusted_step) fun c hc r =>
      Change.adjustment?_eq_none_iff.2 (hcs c hc), hadjusted]
  adjusted_first before c later value hbefore hc := by
    have hnone : ∀ b ∈ before, ∀ r : TestResult α, b.adjustment? r.pValue = none := fun b hb r =>
      Change.adjustment?_eq_none_iff.2 (hbefore b hb)
    have hopen : (r.after before).adjusted = none := by
      rw [after_of_none (fun _ _ => adjusted_step) hnone, hadjusted]
    exact ⟨call_of_unadjusted hopen hc,
      after_of_first (fun _ _ => adjusted_step) hadjusted hnone hc⟩
  adjusted_again before c hbefore hc := by
    obtain ⟨value, hvalue⟩ := exists_adjusted_after (r := r) hbefore
    have hmethod : (r.after before).method = r.method := keeps_after.method_eq
    have hcall := call_of_adjusted hvalue hc
    rw [hmethod] at hcall
    refine ⟨hcall, ?_⟩
    rw [after_append, after_cons, after_nil, step, hcall]
  twoSided cs hcs := by
    have hnone := after_of_none (r := r) (fun _ _ => oneSidedPValue?_step) fun c hc r => by
      rw [hcs c hc, Option.map_none]
    rw [oneSidedPValue?_eq_none_iff.2 hsided, oneSidedPValue?_eq_none_iff] at hnone
    exact ⟨hnone, pValue_after hcs⟩
  oneSided_first before confirmed later hbefore := by
    have hfirst : (r.after (before ++ .makeOneSided confirmed :: later)).oneSidedPValue? =
        some (towards r.pValue confirmed) := by
      refine after_of_first (fun _ _ => oneSidedPValue?_step) (oneSidedPValue?_eq_none_iff.2 hsided)
        (fun b hb r => by rw [hbefore b hb, Option.map_none]) ?_
      rw [pValue_after hbefore]
      rfl
    exact oneSidedPValue?_eq_some_iff.1 hfirst
  probability cs hr := isProbability_after hr
  sizes cs name := get?_after

end TestResult

open TestResult

/-- **The life cycle of a new result.**  Whatever adjustments, requests for one-sided p-values and
effect sizes follow each other after a test: the first adjustment succeeds with the p-value that
there is at that moment and stays, and every later one is refused and changes nothing; the p-value
changes with the first request for a one-sided one and never again, and stays in the unit interval;
the effect size that was added last counts; and everything else stays. -/
theorem new_result_lifeCycle {α : Type} [Numeric α] [ProbabilityFaithful α] (s : Selection)
    (x : Execution α) (p : PairProperties α) (settings : Settings α) :
    (TestResult.ofExecution s x p settings).LifeCycle :=
  lifeCycle_of_new rfl rfl

/-- A result is made one-sided before it is adjusted, then both are tried again, and an effect size
is written twice. -/
theorem lifeCycle_borderlineGroups :
    let r : TestResult Float := .ofExecution ⟨.mannWhitneyU, ∅, ∅, [], false⟩
      ⟨⟨2, 4 / 100, none⟩, ∅⟩ borderlineGroups .standard
    let before : List (Change Float) := [.addEffectSize "r" 1, .makeOneSided false]
    let later : List (Change Float) := [.makeOneSided true, .addEffectSize "r" (1 / 2)]
    let r' := r.after (before ++ .adjust 3 :: later)
    IsProbability r.pValue ∧ IsProbability r'.pValue ∧ r'.pValue = 1 - (4 / 100) / 2 ∧
      r'.adjusted = some ((1 - (4 / 100) / 2) / 3) ∧ r'.effectSizes.get? "r" = some (1 / 2) ∧
      r'.call (.setAdjusted 0) = (.error (.alreadyAdjusted .mannWhitneyU), r') := by
  intro r before later r'
  have hcycle : r.LifeCycle := new_result_lifeCycle _ _ _ _
  have hr : IsProbability r.pValue := ⟨by decide +kernel, by decide +kernel⟩
  have hsided (later : List (Change Float)) :=
    hcycle.oneSided_first [.addEffectSize "r" 1] false later (by decide)
  have hpValue : (r.after before).pValue = 1 - (4 / 100) / 2 := (hsided []).2
  refine ⟨hr, hcycle.probability _ hr, (hsided (.adjust 3 :: later)).2, ?_, ?_, ?_⟩
  · refine (hcycle.adjusted_first before (.adjust 3) later _ (by decide) ?_).2
    rw [hpValue]
    rfl
  · rw [hcycle.sizes]
    rfl
  · exact (hcycle.adjusted_again (before ++ .adjust 3 :: later) (.setAdjusted 0)
      ⟨.adjust 3, by simp, rfl⟩ rfl).1

end StudyAnalysis
