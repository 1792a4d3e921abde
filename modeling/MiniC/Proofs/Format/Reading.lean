import Mathlib.Data.List.Basic
import MiniC.Format

/-!
How a format is read.

The parts of a directive are read one behind the other, and each of them leaves
alone what stands behind it. So what is read of a directive that ends in a text does
not depend on what follows.
-/

namespace MiniC.Format

variable {char : Char} {text rest behind : List Char} {args given : List Value} {spec : Spec}

theorem readWidth_digits (plain : text.head? ≠ some '*') (spec : Spec) (args : List Value) :
    readWidth spec text args =
      ({ spec with width := (readField text).1 }, (readField text).2, args) := by
  unfold readWidth
  split
  · exact absurd rfl plain
  · rfl

theorem readPrecision_digits (plain : rest.head? ≠ some '*') (spec : Spec) (args : List Value) :
    readPrecision spec ('.' :: rest) args =
      ({ spec with precision := some (readField rest).1 }, (readField rest).2, args) := by
  unfold readPrecision
  split
  · next same =>
      cases same
      exact absurd rfl plain
  · next same =>
      cases same
      rfl
  · next other => exact absurd rfl (other rest)

theorem readPrecision_none (plain : text.head? ≠ some '.') (spec : Spec) (args : List Value) :
    readPrecision spec text args = (spec, text, args) := by
  unfold readPrecision
  split
  · exact absurd rfl plain
  · exact absurd rfl plain
  · rfl

private theorem takeWhile_append_of_left {test : Char → Bool} (left : text.dropWhile test ≠ [])
    (more : List Char) : (text ++ more).takeWhile test = text.takeWhile test := by
  induction text with
  | nil => exact absurd rfl left
  | cons char text ih =>
      rw [List.cons_append, List.takeWhile_cons, List.takeWhile_cons]
      split
      · next passes =>
          rw [List.dropWhile_cons_of_pos passes] at left
          rw [ih left]
      · rfl

private theorem dropWhile_append_of_left {test : Char → Bool} (left : text.dropWhile test ≠ [])
    (more : List Char) : (text ++ more).dropWhile test = text.dropWhile test ++ more := by
  rw [List.dropWhile_append, if_neg]
  rw [List.isEmpty_iff]
  exact left

private theorem ne_nil_of_length_le {first second : List Char} (le : first.length ≤ second.length)
    (left : first ≠ []) : second ≠ [] :=
  List.ne_nil_of_length_pos (Nat.lt_of_lt_of_le (List.length_pos_iff.mpr left) le)

theorem readFlags_append (left : (readFlags spec text).2 ≠ []) (more : List Char) :
    readFlags spec (text ++ more) =
      ((readFlags spec text).1, (readFlags spec text).2 ++ more) := by
  induction text generalizing spec with
  | nil => exact absurd rfl left
  | cons char text ih =>
      rw [readFlags] at left
      rw [List.cons_append, readFlags, readFlags]
      split at left
      · exact ih left
      · rfl

theorem readField_append (left : (readField text).2 ≠ []) (more : List Char) :
    readField (text ++ more) = ((readField text).1, (readField text).2 ++ more) := by
  rw [readField, takeWhile_append_of_left left, dropWhile_append_of_left left]
  rfl

theorem readWidth_append (left : (readWidth spec text args).2.1 ≠ []) (more : List Char) :
    readWidth spec (text ++ more) args =
      ((readWidth spec text args).1, (readWidth spec text args).2.1 ++ more,
        (readWidth spec text args).2.2) := by
  by_cases star : text.head? = some '*'
  · obtain ⟨rest, rfl⟩ := List.head?_eq_some_iff.mp star
    rfl
  · have nonempty := ne_nil_of_length_le (readWidth_length_le spec text args) left
    rw [readWidth_digits star] at left ⊢
    rw [← List.head?_append_of_ne_nil _ nonempty] at star
    rw [readWidth_digits star, readField_append left]

theorem readPrecision_append (left : (readPrecision spec text args).2.1 ≠ []) (more : List Char) :
    readPrecision spec (text ++ more) args =
      ((readPrecision spec text args).1, (readPrecision spec text args).2.1 ++ more,
        (readPrecision spec text args).2.2) := by
  by_cases point : text.head? = some '.'
  · obtain ⟨rest, rfl⟩ := List.head?_eq_some_iff.mp point
    by_cases star : rest.head? = some '*'
    · obtain ⟨rest, rfl⟩ := List.head?_eq_some_iff.mp star
      rfl
    · rw [readPrecision_digits star] at left ⊢
      have nonempty := ne_nil_of_length_le (readField_length_le rest) left
      rw [← List.head?_append_of_ne_nil _ nonempty] at star
      rw [List.cons_append, readPrecision_digits star, readField_append left]
  · have nonempty := ne_nil_of_length_le (readPrecision_length_le spec text args) left
    rw [readPrecision_none point]
    rw [← List.head?_append_of_ne_nil _ nonempty] at point
    rw [readPrecision_none point]

theorem readLength_append (left : (readLength spec text).2 ≠ []) (more : List Char) :
    readLength spec (text ++ more) =
      ((readLength spec text).1, (readLength spec text).2 ++ more) := by
  rw [readLength, takeWhile_append_of_left left, dropWhile_append_of_left left]
  rfl

/-- A directive that has an end is read alike whatever follows it. -/
theorem readSpec_append (left : (readSpec text args).2.1 ≠ []) (more : List Char) :
    readSpec (text ++ more) args =
      ((readSpec text args).1, (readSpec text args).2.1 ++ more, (readSpec text args).2.2) := by
  simp only [readSpec] at left ⊢
  have afterPrecision := ne_nil_of_length_le (readLength_length_le _ _) left
  have afterWidth := ne_nil_of_length_le (readPrecision_length_le _ _ _) afterPrecision
  have afterFlags := ne_nil_of_length_le (readWidth_length_le _ _ _) afterWidth
  rw [readFlags_append afterFlags, readWidth_append afterWidth, readPrecision_append afterPrecision,
    readLength_append left]

theorem formatChars_nil (args : List Value) : formatChars [] args = [] := by
  rw [formatChars]

theorem formatChars_plain (plain : char ≠ '%') (rest : List Char) (args : List Value) :
    formatChars (char :: rest) args = char :: formatChars rest args := by
  rw [formatChars, if_neg plain]

/-- A format that ends inside a directive. -/
theorem formatChars_unfinished (read : readSpec rest args = (spec, [], given)) :
    formatChars ('%' :: rest) args = ['%'] := by
  rw [formatChars, if_pos rfl]
  split
  · rfl
  · next same => cases same.symm.trans read

theorem formatChars_directive {conversion : Char}
    (read : readSpec rest args = (spec, conversion :: behind, given)) :
    formatChars ('%' :: rest) args =
      (applyConversion spec conversion given).1 ++
        formatChars behind (applyConversion spec conversion given).2 := by
  rw [formatChars, if_pos rfl]
  split
  · next same => cases same.symm.trans read
  · next same =>
      cases same.symm.trans read
      rfl

end MiniC.Format
