/-
**A stream cipher as a source of random numbers.**

The ChaCha stream cipher with twelve rounds turns a key and a block counter into sixteen words of 32
bits.  The key is expanded from a seed of 64 bits by a permuted congruential generator.  Draws take
two words at a time, and map them to the counts below a bound by a multiplication, with rejection of
the few values that would favour some counts.

Main definitions:

* `StudyAnalysis.ChaCha.block` — the sixteen words of one block;
* `StudyAnalysis.ChaCha.Stream` — a position in the stream of a key;
* `StudyAnalysis.ChaCha.source` — the stream as a source of draws.
-/

import StudyAnalysis.Number.Word
import StudyAnalysis.Random.Draws

set_option autoImplicit false
set_option relaxedAutoImplicit false

namespace StudyAnalysis.ChaCha

/-! ### The block function -/

/-- Four words that a round mixes with each other. -/
structure Quad where
  a : UInt32
  b : UInt32
  c : UInt32
  d : UInt32

/-- The word rotated to the left. -/
@[inline] def rotateLeft (x n : UInt32) : UInt32 :=
  (x <<< n) ||| (x >>> (32 - n))

/-- The mixing of four words by additions, exclusive ors and rotations. -/
def Quad.mix (q : Quad) : Quad :=
  let a := q.a + q.b
  let d := rotateLeft (q.d ^^^ a) 16
  let c := q.c + d
  let b := rotateLeft (q.b ^^^ c) 12
  let a := a + b
  let d := rotateLeft (d ^^^ a) 8
  let c := c + d
  let b := rotateLeft (b ^^^ c) 7
  ⟨a, b, c, d⟩

/-- The words of two quads added one by one. -/
def Quad.add (p q : Quad) : Quad :=
  ⟨p.a + q.a, p.b + q.b, p.c + q.c, p.d + q.d⟩

/-- Four rows of four words, held by columns. -/
structure Columns where
  c0 : Quad
  c1 : Quad
  c2 : Quad
  c3 : Quad

namespace Columns

/-- The mixing of every column. -/
def mix (m : Columns) : Columns :=
  ⟨m.c0.mix, m.c1.mix, m.c2.mix, m.c3.mix⟩

/-- The diagonals as columns: row `r` is rotated by `r` places to the left. -/
def toDiagonals (m : Columns) : Columns :=
  ⟨⟨m.c0.a, m.c1.b, m.c2.c, m.c3.d⟩, ⟨m.c1.a, m.c2.b, m.c3.c, m.c0.d⟩,
    ⟨m.c2.a, m.c3.b, m.c0.c, m.c1.d⟩, ⟨m.c3.a, m.c0.b, m.c1.c, m.c2.d⟩⟩

/-- The columns whose diagonals these are. -/
def ofDiagonals (m : Columns) : Columns :=
  ⟨⟨m.c0.a, m.c3.b, m.c2.c, m.c1.d⟩, ⟨m.c1.a, m.c0.b, m.c3.c, m.c2.d⟩,
    ⟨m.c2.a, m.c1.b, m.c0.c, m.c3.d⟩, ⟨m.c3.a, m.c2.b, m.c1.c, m.c0.d⟩⟩

theorem ofDiagonals_toDiagonals (m : Columns) : m.toDiagonals.ofDiagonals = m := rfl

/-- The mixing of every column and then of every diagonal. -/
def doubleRound (m : Columns) : Columns :=
  m.mix.toDiagonals.mix.ofDiagonals

/-- The given number of double rounds. -/
def rounds : Nat → Columns → Columns
  | 0, m => m
  | n + 1, m => rounds n m.doubleRound

/-- The words of two blocks added one by one. -/
def add (m n : Columns) : Columns :=
  ⟨m.c0.add n.c0, m.c1.add n.c1, m.c2.add n.c2, m.c3.add n.c3⟩

/-- The words row by row. -/
def words (m : Columns) : List UInt32 := [
  m.c0.a, m.c1.a, m.c2.a, m.c3.a, m.c0.b, m.c1.b, m.c2.b, m.c3.b,
  m.c0.c, m.c1.c, m.c2.c, m.c3.c, m.c0.d, m.c1.d, m.c2.d, m.c3.d]

end Columns

/-- A key of eight words, four in each half. -/
structure Key where
  low : Quad
  high : Quad

/-- The state before the rounds: constants, key, block counter and a zero nonce. -/
def initial (key : Key) (counter : UInt64) : Columns :=
  ⟨⟨0x61707865, key.low.a, key.high.a, counter.toUInt32⟩,
    ⟨0x3320646e, key.low.b, key.high.b, (counter >>> 32).toUInt32⟩,
    ⟨0x79622d32, key.low.c, key.high.c, 0⟩,
    ⟨0x6b206574, key.low.d, key.high.d, 0⟩⟩

/-- The sixteen words of a block, after twelve rounds. -/
def block (key : Key) (counter : UInt64) : List UInt32 :=
  let start := initial key counter
  ((start.rounds 6).add start).words

/-! ### The stream -/

/-- One step of the generator that expands a seed. -/
def expandState (s : UInt64) : UInt64 :=
  s * 6364136223846793005 + 11634580027462260723

/-- The word of a state: some of its high bits, rotated to the right by the five highest. -/
def expandWord (s : UInt64) : UInt32 :=
  let x := (((s >>> 18) ^^^ s) >>> 27).toUInt32
  let n := (s >>> 59).toUInt32
  (x >>> n) ||| (x <<< ((32 - n) % 32))

/-- The next four words, and the state after them. -/
def expandQuad (s : UInt64) : Quad × UInt64 :=
  let s1 := expandState s
  let s2 := expandState s1
  let s3 := expandState s2
  let s4 := expandState s3
  (⟨expandWord s1, expandWord s2, expandWord s3, expandWord s4⟩, s4)

/-- The key of a seed. -/
def Key.ofSeed (seed : UInt64) : Key :=
  let (low, s) := expandQuad seed
  ⟨low, (expandQuad s).1⟩

/-- A position in the stream of a key: the blocks that are still to be computed start at `counter`,
and `pending` holds what is left of the block before. -/
structure Stream where
  key : Key
  counter : UInt64
  pending : List UInt32

namespace Stream

/-- The start of the stream of a seed. -/
def ofSeed (seed : UInt64) : Stream :=
  ⟨Key.ofSeed seed, 0, []⟩

/-- The next 64 bits, low word first, and the position after them. -/
def next (s : Stream) : UInt64 × Stream :=
  match s.pending with
  | low :: high :: rest => (low.toUInt64 ||| (high.toUInt64 <<< 32), { s with pending := rest })
  | _ =>
    match block s.key s.counter with
    | low :: high :: rest =>
      (low.toUInt64 ||| (high.toUInt64 <<< 32), ⟨s.key, s.counter + 1, rest⟩)
    | _ => (0, s)

/-- The greatest low half of a product that a draw below `n` accepts. -/
def acceptance (n : Nat) : Nat :=
  n * Nat.pow 2 (63 - n.log2) - 1

/-- The count below `n` that 64 random bits stand for: the high half of their product with `n`. -/
def scale (v : UInt64) (n : Nat) (h : 0 < n) : Fin n :=
  ⟨v.toNat * n / Word.size, by
    have hv : v.toNat < Word.size := v.toNat_lt
    exact Nat.div_lt_of_lt_mul (Nat.mul_lt_mul_of_pos_right hv h)⟩

/-- A draw below `n` that tries again, at most `tries` times, while a value is rejected. -/
def drawBelow (n : Nat) (h : 0 < n) : Nat → Stream → Fin n × Stream
  | 0, s => let (v, s) := s.next; (scale v n h, s)
  | tries + 1, s =>
    let (v, s) := s.next
    if v.toNat * n % Word.size ≤ acceptance n then (scale v n h, s) else drawBelow n h tries s

end Stream

/-- The streams as a source of draws.  A value is accepted with a probability of at least one half,
so that the bound on the number of tries is never met. -/
def source : DrawSource Stream where
  draw s n h := s.drawBelow n h 1000

end StudyAnalysis.ChaCha
