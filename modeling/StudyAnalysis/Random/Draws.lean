/-
**Sources of random draws.**

Resampling needs draws from the first `n` counts and nothing else, so it is written over an
arbitrary source.

Main definitions:

* `StudyAnalysis.DrawSource` — a machine whose every step yields a draw;
* `StudyAnalysis.DrawSource.ofSequence` — the source that replays a given sequence of draws.
-/

set_option autoImplicit false
set_option relaxedAutoImplicit false

namespace StudyAnalysis

/-- A source of draws with states of type `σ`. -/
structure DrawSource (σ : Type) where
  /-- A draw from the counts below a positive bound, and the state after it. -/
  draw : σ → (n : Nat) → 0 < n → Fin n × σ

namespace DrawSource

/-- The source that replays a sequence of draws; its state is the number of draws made. -/
def ofSequence (sequence : Nat → (n : Nat) → 0 < n → Fin n) : DrawSource Nat where
  draw i n h := (sequence i n h, i + 1)

variable {σ : Type}

/-- The given number of draws of an element of a nonempty array, with replacement. -/
def sample {β : Type} (source : DrawSource σ) (xs : Array β) (h : 0 < xs.size) :
    Nat → σ → List β × σ
  | 0, state => ([], state)
  | k + 1, state =>
    let (i, state) := source.draw state xs.size h
    let (rest, state) := sample source xs h k state
    (xs[i] :: rest, state)

theorem length_sample {β : Type} (source : DrawSource σ) (xs : Array β) (h : 0 < xs.size)
    (k : Nat) (state : σ) : (source.sample xs h k state).1.length = k := by
  induction k generalizing state with
  | zero => rfl
  | succ k ih => simp [sample, ih]

/-- The given number of independent draws of an element from each of two nonempty arrays; the first
array is drawn from first. -/
def samplePairs {β γ : Type} (source : DrawSource σ) (xs : Array β) (ys : Array γ)
    (hx : 0 < xs.size) (hy : 0 < ys.size) : Nat → σ → List (β × γ) × σ
  | 0, state => ([], state)
  | k + 1, state =>
    let (i, state) := source.draw state xs.size hx
    let (j, state) := source.draw state ys.size hy
    let (rest, state) := samplePairs source xs ys hx hy k state
    ((xs[i], ys[j]) :: rest, state)

theorem length_samplePairs {β γ : Type} (source : DrawSource σ) (xs : Array β) (ys : Array γ)
    (hx : 0 < xs.size) (hy : 0 < ys.size) (k : Nat) (state : σ) :
    (source.samplePairs xs ys hx hy k state).1.length = k := by
  induction k generalizing state with
  | zero => rfl
  | succ k ih => simp [samplePairs, ih]

end DrawSource

end StudyAnalysis
