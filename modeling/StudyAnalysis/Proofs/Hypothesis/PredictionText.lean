/-
**Predictions as texts.**

The text of a prediction is written by the same library that reads it, so what was written must be
read as the prediction that it was written for.  A name of a group may hold anything but blanks at
its ends, and only the reading of texts limits it: the first `>` of a text ends the name of the
greater group, so that name cannot hold one, while the name of the other group may.  A `<` ends a
name only in a text without any `>`.

Blanks around a text are dropped twice, around the whole text and around each name.  Around a mark
that is not blank the first drop does what the second one does at the outer ends, so that a text can
be read in its parts.

Main definitions:

* `StudyAnalysis.Prediction.IsLabel` — a text that can be the name of a group;
* `StudyAnalysis.Prediction.Readable` — a prediction that some text stands for.

Main results:

* `StudyAnalysis.Text.trimmed_append_cons` — dropping the blanks around two parts and a mark;
* `StudyAnalysis.Prediction.splitAt?_append_cons` — a text is split at the first mark;
* `StudyAnalysis.Prediction.readable_of_parse` — what is read can be written;
* `StudyAnalysis.Prediction.parse_toText` — **what is written is read back**;
* `StudyAnalysis.predictions_read_back` — **reading, writing and the two spellings of an order**.
-/

import Mathlib
import StudyAnalysis.Proofs.Fallible
import StudyAnalysis.Study.Description

set_option autoImplicit false
set_option relaxedAutoImplicit false

namespace StudyAnalysis

/-! ### Blanks around a text -/

namespace Text

variable {c mark : Char} {cs left right : List Char}

theorem dropWhile_append_cons (hmark : isBlank mark = false) :
    (left ++ mark :: right).dropWhile isBlank = left.dropWhile isBlank ++ mark :: right := by
  rw [List.dropWhile_append]
  split
  · rename_i hleft
    rw [List.isEmpty_iff.1 hleft, List.dropWhile_cons_of_neg (by simp [hmark]), List.nil_append]
  · rfl

theorem trimRight_append_cons (hmark : isBlank mark = false) :
    trimRight (left ++ mark :: right) = left ++ mark :: trimRight right := by
  simp only [trimRight, List.reverse_append, List.reverse_cons, List.append_assoc,
    List.singleton_append]
  rw [dropWhile_append_cons hmark]
  simp

/-- **Blanks around two parts with a mark between them** are those before the first part and those
after the second one. -/
theorem trimmed_append_cons (hmark : isBlank mark = false) :
    trimmed (left ++ mark :: right) = left.dropWhile isBlank ++ mark :: trimRight right := by
  rw [trimmed, dropWhile_append_cons hmark, trimRight_append_cons hmark]

theorem trimmed_dropWhile : trimmed (cs.dropWhile isBlank) = trimmed cs := by
  rw [trimmed, List.dropWhile_idempotent, trimmed]

theorem trimRight_trimRight : trimRight (trimRight cs) = trimRight cs :=
  List.rdropWhile_idempotent isBlank cs

theorem trimmed_trimRight : trimmed (trimRight cs) = trimmed cs := by
  by_cases h : ∀ c ∈ cs, isBlank c
  · have hright : trimRight cs = [] := List.rdropWhile_eq_nil_iff.2 h
    rw [trimmed, trimmed, hright, List.dropWhile_eq_nil_iff.2 h]
    rfl
  · push Not at h
    obtain ⟨mark, hmem, hmark⟩ := h
    obtain ⟨left, right, rfl⟩ := List.append_of_mem hmem
    rw [Ne, Bool.not_eq_true] at hmark
    rw [trimRight_append_cons hmark, trimmed_append_cons hmark, trimmed_append_cons hmark,
      trimRight_trimRight]

/-- Blanks are dropped at once. -/
theorem trimmed_trimmed : trimmed (trimmed cs) = trimmed cs := by
  rw [trimmed.eq_def cs, trimmed_trimRight, trimmed_dropWhile, trimmed]

theorem trimmed_cons_of_blank (hc : isBlank c = true) : trimmed (c :: cs) = trimmed cs := by
  rw [trimmed, List.dropWhile_cons_of_pos hc, trimmed]

theorem trimmed_append_of_blank (hc : isBlank c = true) : trimmed (cs ++ [c]) = trimmed cs := by
  have hright : trimRight (cs ++ [c]) = trimRight cs := List.rdropWhile_concat_pos isBlank cs c hc
  rw [← trimmed_trimRight, hright, trimmed_trimRight]

theorem mem_of_mem_trimmed (h : c ∈ trimmed cs) : c ∈ cs :=
  (List.dropWhile_suffix isBlank).subset ((List.rdropWhile_prefix isBlank _).subset h)

end Text

open Text

/-! ### Reading the parts of a text -/

namespace Prediction

variable {mark : Char} {cs left right greater lesser : List Char} {p : Prediction} {s : String}

theorem forall_bne_of_not_mem (h : mark ∉ cs) : ∀ c ∈ cs, (c != mark) = true :=
  fun _ hc => bne_iff_ne.2 fun hmark => h (hmark ▸ hc)

/-- **A text is split at the first mark.** -/
theorem splitAt?_append_cons (hleft : mark ∉ left) :
    splitAt? mark (left ++ mark :: right) = some (left, right) := by
  have hpass := forall_bne_of_not_mem hleft
  have hspan : (left ++ mark :: right).span (· != mark) = (left, mark :: right) := by
    rw [List.span_eq_takeWhile_dropWhile, List.takeWhile_append_of_pos hpass,
      List.dropWhile_append_of_pos hpass]
    simp
  rw [splitAt?, hspan]

theorem splitAt?_eq_none (h : mark ∉ cs) : splitAt? mark cs = none := by
  have hpass := forall_bne_of_not_mem h
  have hspan : cs.span (· != mark) = (cs, []) := by
    rw [List.span_eq_takeWhile_dropWhile, List.takeWhile_eq_self_iff.2 hpass,
      List.dropWhile_eq_nil_iff.2 hpass]
  rw [splitAt?, hspan]

/-- A text with a mark in it is not, in any case, a word without that mark. -/
theorem ofList_toSmall_ne {word : String} (hmem : mark ∈ cs) (hmark : mark.toLower = mark)
    (hword : mark ∉ word.toList) : String.ofList (toSmall cs) ≠ word := by
  rintro rfl
  rw [String.toList_ofList] at hword
  exact hword (List.mem_map.2 ⟨mark, hmem, hmark⟩)

/-- What is read from a text with one of the two marks. -/
theorem ofChars?_of_mem (hmem : mark ∈ cs) (hmark : mark = '>' ∨ mark = '<') :
    ofChars? cs =
      match splitAt? '>' cs with
      | some (left, right) => ofGroups? left right
      | none => (splitAt? '<' cs).bind fun (left, right) => ofGroups? right left := by
  have hword (word : String) (h : word ∈ ["positive", "+", "negative", "-"]) :
      String.ofList (toSmall cs) ≠ word := by
    refine ofList_toSmall_ne hmem ?_ ?_
    · rcases hmark with rfl | rfl <;> decide
    · revert word
      rcases hmark with rfl | rfl <;> decide
  rw [ofChars?, if_neg, if_neg]
  · cases splitAt? '>' cs with
    | some parts => rfl
    | none => cases splitAt? '<' cs <;> rfl
  · simp [hword]
  · simp [hword]

theorem ofChars?_append_greater (hleft : '>' ∉ left) :
    ofChars? (left ++ '>' :: right) = ofGroups? left right := by
  rw [ofChars?_of_mem (List.mem_append_right left List.mem_cons_self) (.inl rfl),
    splitAt?_append_cons hleft]

theorem ofChars?_append_less (hnone : '>' ∉ left ++ '<' :: right) (hleft : '<' ∉ left) :
    ofChars? (left ++ '<' :: right) = ofGroups? right left := by
  rw [ofChars?_of_mem (List.mem_append_right left List.mem_cons_self) (.inr rfl),
    splitAt?_eq_none hnone, splitAt?_append_cons hleft]
  rfl

/-- Only the names without the blanks around them matter. -/
theorem ofGroups?_congr {greater' lesser' : List Char}
    (hgreater : trimmed greater = trimmed greater') (hlesser : trimmed lesser = trimmed lesser') :
    ofGroups? greater lesser = ofGroups? greater' lesser' := by
  rw [ofGroups?, ofGroups?, hgreater, hlesser]

theorem ofGroups?_eq_some_iff : ofGroups? greater lesser = some p ↔
    trimmed greater ≠ [] ∧ trimmed lesser ≠ [] ∧
      groupOrder (String.ofList (trimmed greater)) (String.ofList (trimmed lesser)) = p := by
  simp only [ofGroups?, Bool.or_eq_true, List.isEmpty_iff]
  split
  · simp; tauto
  · simp; tauto

/-- A text is a direction or the order of two groups, and then the name of the greater one holds no
`>`. -/
theorem exists_of_ofChars? (h : ofChars? cs = some p) : p = positive ∨ p = negative ∨
    ∃ greater lesser, '>' ∉ greater ∧ ofGroups? greater lesser = some p := by
  -- a text with any `>` is split there, whatever other marks it has
  by_cases hgreater : '>' ∈ cs
  · obtain ⟨left, right, rfl, hleft⟩ := List.eq_append_cons_of_mem hgreater
    rw [ofChars?_append_greater hleft] at h
    exact .inr (.inr ⟨left, right, hleft, h⟩)
  · by_cases hless : '<' ∈ cs
    · obtain ⟨left, right, rfl, hleft⟩ := List.eq_append_cons_of_mem hless
      rw [ofChars?_append_less hgreater hleft] at h
      exact .inr (.inr ⟨right, left, fun hmem => hgreater (by simp [hmem]), h⟩)
    · rw [ofChars?, splitAt?_eq_none hgreater, splitAt?_eq_none hless] at h
      split at h
      · exact .inl (Option.some.inj h).symm
      · split at h
        · exact .inr (.inl (Option.some.inj h).symm)
        · cases h

/-! ### Writing and reading -/

section

variable {α : Type} {g l : String}

theorem parse_eq_ok_iff : parse (α := α) s = .ok p ↔ ofChars? (trimmed s.toList) = some p := by
  rw [parse]
  cases ofChars? (trimmed s.toList) <;> simp

theorem ofDocument_text_eq_ok_iff :
    Prediction.ofDocument (α := α) (.text s) = .ok p ↔ ofChars? (trimmed s.toList) = some p := by
  rw [Prediction.ofDocument, Value.toText, Fallible.ok_bind]
  dsimp only
  cases ofChars? (trimmed s.toList) with
  | none => exact iff_of_false (fun h => nomatch h) (fun h => nomatch h)
  | some q =>
      dsimp only
      rw [Fallible.pure_eq_ok, Except.ok.injEq, Option.some.injEq]

/-- A text that can be the name of a group: it has no blanks around it, and there is something left
without them. -/
def IsLabel (s : String) : Prop :=
  s ≠ "" ∧ trim s = s

/-- A prediction that some text stands for. -/
def Readable : Prediction → Prop
  | groupOrder greater lesser => IsLabel greater ∧ IsLabel lesser ∧ '>' ∉ greater.toList
  | positive | negative => True

theorem isLabel_ofList_trimmed (h : trimmed cs ≠ []) : IsLabel (String.ofList (trimmed cs)) := by
  refine ⟨fun hempty => h ?_, ?_⟩
  · rw [← String.toList_ofList (l := trimmed cs), hempty]
    rfl
  · rw [trim, String.toList_ofList, trimmed_trimmed]

/-- **What is read can be written.** -/
theorem readable_of_parse (h : parse (α := α) s = .ok p) : p.Readable := by
  rcases exists_of_ofChars? (parse_eq_ok_iff.1 h) with rfl | rfl | ⟨greater, lesser, hmark, hgroups⟩
  · trivial
  · trivial
  · obtain ⟨hgreater, hlesser, rfl⟩ := ofGroups?_eq_some_iff.1 hgroups
    refine ⟨isLabel_ofList_trimmed hgreater, isLabel_ofList_trimmed hlesser, ?_⟩
    rw [String.toList_ofList]
    exact fun hmem => hmark (mem_of_mem_trimmed hmem)

/-- Two names with a mark between them, without the blanks around the whole text. -/
theorem exists_trimmed_spelled (mark : Char) (hmark : isBlank mark = false)
    (left right : List Char) :
    ∃ left' right', trimmed (left ++ ' ' :: mark :: ' ' :: right) = left' ++ mark :: right' ∧
      trimmed left' = trimmed left ∧ trimmed right' = trimmed right ∧
      left' ⊆ left ++ [' '] ∧ right' ⊆ ' ' :: right := by
  refine ⟨(left ++ [' ']).dropWhile isBlank, trimRight (' ' :: right), ?_, ?_, ?_, ?_, ?_⟩
  · rw [← trimmed_append_cons hmark, List.append_assoc, List.singleton_append]
  · rw [trimmed_dropWhile, trimmed_append_of_blank (by decide)]
  · rw [trimmed_trimRight, trimmed_cons_of_blank (by decide)]
  · exact (List.dropWhile_suffix isBlank).subset
  · exact (List.rdropWhile_prefix isBlank _).subset

/-- The order of two groups with the greater one first. -/
theorem ofChars?_spelled_greater (hmark : '>' ∉ g.toList) :
    ofChars? (trimmed (g ++ " > " ++ l).toList) = ofGroups? g.toList l.toList := by
  have htext : (g ++ " > " ++ l).toList = g.toList ++ ' ' :: '>' :: ' ' :: l.toList := by simp
  obtain ⟨left, right, htrimmed, hleft, hright, hsub, -⟩ :=
    exists_trimmed_spelled '>' (by decide) g.toList l.toList
  have hsplit : '>' ∉ left := fun hmem => by simpa [hmark] using hsub hmem
  rw [htext, htrimmed, ofChars?_append_greater hsplit, ofGroups?_congr hleft hright]

/-- The order of two groups with the greater one last. -/
theorem ofChars?_spelled_less (hless : '<' ∉ l.toList) (hgreater : '>' ∉ l.toList ++ g.toList) :
    ofChars? (trimmed (l ++ " < " ++ g).toList) = ofGroups? g.toList l.toList := by
  have htext : (l ++ " < " ++ g).toList = l.toList ++ ' ' :: '<' :: ' ' :: g.toList := by simp
  obtain ⟨left, right, htrimmed, hleft, hright, hsubLeft, hsubRight⟩ :=
    exists_trimmed_spelled '<' (by decide) l.toList g.toList
  rw [List.mem_append, not_or] at hgreater
  have hsplit : '<' ∉ left := fun hmem => by simpa [hless] using hsubLeft hmem
  have hnone : '>' ∉ left ++ '<' :: right := by
    have hl : '>' ∉ left := fun hmem => by simpa [hgreater.1] using hsubLeft hmem
    have hr : '>' ∉ right := fun hmem => by simpa [hgreater.2] using hsubRight hmem
    simp [hl, hr]
  rw [htext, htrimmed, ofChars?_append_less hnone hsplit, ofGroups?_congr hright hleft]

theorem ofGroups?_of_trim_ne (hg : trim g ≠ "") (hl : trim l ≠ "") :
    ofGroups? g.toList l.toList = some (groupOrder (trim g) (trim l)) := by
  have hne {s : String} (h : trim s ≠ "") : trimmed s.toList ≠ [] := fun hnil => h (by
    rw [trim, hnil, String.ofList_nil])
  exact ofGroups?_eq_some_iff.2 ⟨hne hg, hne hl, rfl⟩

/-- **What is written is read back.** -/
theorem ofChars?_toText (h : p.Readable) : ofChars? (trimmed p.toText.toList) = some p := by
  cases p with
  | groupOrder greater lesser =>
      obtain ⟨⟨hgreater, hg⟩, ⟨hlesser, hl⟩, hmark⟩ := h
      rw [toText, ofChars?_spelled_greater hmark, ofGroups?_of_trim_ne, hg, hl]
      · rwa [hg]
      · rwa [hl]
  | positive => decide
  | negative => decide

theorem parse_toText (h : p.Readable) : parse (α := α) p.toText = .ok p :=
  parse_eq_ok_iff.2 (ofChars?_toText h)

/-- A list of predictions in a document is read back. -/
theorem toList_ofTexts {ps : List Prediction} (h : ∀ p ∈ ps, p.Readable) :
    (Value.ofTexts (α := α) (ps.map toText)).toList Prediction.ofDocument = .ok ps := by
  rw [Value.ofTexts, Value.toList, Fallible.mapM_eq_ok_iff, List.map_map,
    List.forall₂_map_left_iff, List.forall₂_same]
  exact fun p hp => ofDocument_text_eq_ok_iff.2 (ofChars?_toText (h p hp))

end

end Prediction

open Prediction

/-- **Predictions survive as texts.**  Whatever text a prediction was read from, the text that is
written for it is read as this prediction again, alone and in the lists of a document.  What can be
read are the two directions and the orders of two labels of which the greater one holds no `>`: a
label may hold any characters otherwise, such as a `<`, blanks that are not at its ends and, in the
lesser one, more `>`.  For two names with neither of the marks it does not matter which of them
stands first: `l < g` and `g > l` are the same prediction, about the names without the blanks around
them. -/
theorem predictions_read_back {α : Type} :
    (∀ (s : String) (p : Prediction), parse (α := α) s = .ok p →
      parse (α := α) p.toText = .ok p ∧ Prediction.ofDocument (α := α) (.text p.toText) = .ok p) ∧
    (∀ ps : List Prediction, (∀ p ∈ ps, ∃ s, parse (α := α) s = .ok p) →
      (Value.ofTexts (α := α) (ps.map toText)).toList Prediction.ofDocument = .ok ps) ∧
    (∀ p : Prediction, (∃ s, parse (α := α) s = .ok p) ↔ p.Readable) ∧
    ∀ l g : String, trim l ≠ "" → trim g ≠ "" →
      (∀ mark ∈ ['<', '>'], mark ∉ l.toList ∧ mark ∉ g.toList) →
      parse (α := α) (l ++ " < " ++ g) = .ok (groupOrder (trim g) (trim l)) ∧
        parse (α := α) (g ++ " > " ++ l) = .ok (groupOrder (trim g) (trim l)) := by
  refine ⟨fun s p h => ?_, fun ps h => ?_, fun p => ?_, fun l g hl hg hmarks => ?_⟩
  · have hp := readable_of_parse h
    exact ⟨parse_toText hp, ofDocument_text_eq_ok_iff.2 (ofChars?_toText hp)⟩
  · exact toList_ofTexts fun p hp => (h p hp).elim fun s hs => readable_of_parse hs
  · exact ⟨fun ⟨s, hs⟩ => readable_of_parse hs, fun hp => ⟨p.toText, parse_toText hp⟩⟩
  · obtain ⟨hless, -⟩ := hmarks '<' (by simp)
    obtain ⟨hl', hg'⟩ := hmarks '>' (by simp)
    have hgroups := ofGroups?_of_trim_ne hg hl
    constructor
    · rw [parse_eq_ok_iff, ofChars?_spelled_less hless (by simp [hl', hg']), hgroups]
    · rw [parse_eq_ok_iff, ofChars?_spelled_greater hg', hgroups]

/-- Names with blanks, with letters outside of ASCII and with marks in them. -/
theorem read_back_spelled_groups :
    let p := groupOrder "a<b é" "c > d < ü"
    parse (α := Float) "  a<b é> c > d < ü" = .ok p ∧
      parse (α := Float) "a<b é > c > d < ü" = .ok p ∧
      trim " junge Bäume" ≠ "" ∧ trim "alte Bäume  " ≠ "" ∧
      (∀ mark ∈ ['<', '>'], mark ∉ " junge Bäume".toList ∧ mark ∉ "alte Bäume  ".toList) ∧
      parse (α := Float) " junge Bäume < alte Bäume  " =
        .ok (groupOrder "alte Bäume" "junge Bäume") ∧
      parse (α := Float) "alte Bäume   >  junge Bäume" =
        .ok (groupOrder "alte Bäume" "junge Bäume") := by
  intro p
  obtain ⟨hback, -, -, hspelled⟩ := predictions_read_back (α := Float)
  have hread : parse (α := Float) "  a<b é> c > d < ü" = .ok p :=
    parse_eq_ok_iff.2 (by decide)
  have hl : trim " junge Bäume" ≠ "" := by decide
  have hg : trim "alte Bäume  " ≠ "" := by decide
  have hmarks : ∀ mark ∈ ['<', '>'],
      mark ∉ " junge Bäume".toList ∧ mark ∉ "alte Bäume  ".toList := by simp
  obtain ⟨hless, hgreater⟩ := hspelled _ _ hl hg hmarks
  exact ⟨hread, (hback _ p hread).1, hl, hg, hmarks, hless, hgreater⟩

end StudyAnalysis
