import MiniC.Proofs.Format.Fields
import MiniC.Proofs.Format.Stages

/-!
The length of formatted text.

The characters of a format outside its directives stand for themselves, and what a directive shows
has at most as many characters as the greatest width and two more, or as the text that it shows. So
no width and no precision, written out or taken from an argument, makes the output longer than the
number of directives and the length of the texts allow.
-/

namespace MiniC.Format

namespace Directive

def textLength (directive : Directive) : Nat :=
  match directive.conversion, directive.arg? with
  | 's', some (.str text) => text.length
  | _, _ => 0

def room (directive : Directive) : Nat := max (maxField + 2) directive.textLength

theorem le_room {size : Nat} (directive : Directive) (small : size ≤ maxField + 2) :
    size ≤ directive.room :=
  small.trans (le_max_left _ _)

end Directive

variable {char conversion : Char} {rest behind : List Char} {args given : List Value} {spec : Spec}

def textOf (arg? : Option Value) : List Char :=
  match arg? with
  | some (.str text) => text.toList
  | some other => (toString other.toI64.toInt).toList
  | none => []

private theorem formatText_eq (spec : Spec) (arg? : Option Value) :
    formatText spec arg? =
      padText spec (spec.precision.elim (textOf arg?) (textOf arg?).take) := by
  unfold formatText
  cases spec.precision <;> rfl

private theorem length_textOf_le (arg? : Option Value) :
    (textOf arg?).length ≤ (Directive.mk 's' arg?).room := by
  unfold textOf
  split
  · next text => exact le_max_right _ _
  · next other _ =>
      have digits := length_toString_le (natAbs_toInt_lt other.toI64)
      exact Directive.le_room _ (digits.trans (by decide))
  · exact Nat.zero_le _

private theorem length_formatText_le (bounded : spec.Bounded) (arg? : Option Value) :
    (formatText spec arg?).length ≤ (Directive.mk 's' arg?).room := by
  have width : spec.width ≤ (Directive.mk 's' arg?).room :=
    Directive.le_room _ (bounded.width.trans (Nat.le_add_right _ 2))
  have cut : (spec.precision.elim (textOf arg?) (textOf arg?).take).length ≤
      (textOf arg?).length := by
    cases spec.precision with
    | none => exact le_refl _
    | some precision => exact List.length_take_le' precision (textOf arg?)
  rw [formatText_eq, length_padText, max_le_iff]
  exact ⟨width, cut.trans (length_textOf_le arg?)⟩

private theorem length_convert_le {convert : Option Value → List Char} (bounded : spec.Bounded)
    (found : conversion? spec char = some convert) (noFloat : isFloatConversion char = false)
    (arg? : Option Value) : (convert arg?).length ≤ (Directive.mk char arg?).room := by
  unfold conversion? at found
  split at found
  case h_1 | h_2 =>
    cases found
    exact Directive.le_room _ (length_formatSigned_le bounded _)
  case h_3 | h_4 | h_5 | h_6 =>
    cases found
    exact Directive.le_room _ (length_formatUnsigned_le bounded (by decide) (by decide) _)
  case h_7 =>
    cases found
    apply Directive.le_room
    rw [length_padText, max_le_iff]
    exact ⟨bounded.width.trans (Nat.le_add_right _ 2), Nat.succ_pos _⟩
  case h_8 =>
    cases found
    exact length_formatText_le bounded arg?
  case h_15 => cases found
  all_goals exact absurd noFloat (by decide)

private theorem length_applyConversion_le (bounded : spec.Bounded)
    (noFloat : isFloatConversion char = false) (args : List Value) :
    (applyConversion spec char args).1.length ≤ (Directive.mk char args.head?).room := by
  unfold applyConversion
  split
  · next convert found => exact length_convert_le bounded found noFloat args.head?
  · apply Directive.le_room
    split
    · exact Nat.le_add_left 1 _
    · exact Nat.le_add_left 2 _

private theorem length_formatChars_le (text : List Char) (args : List Value)
    (noFloats : ∀ directive ∈ Stage.text.directives text args,
      isFloatConversion directive.conversion = false) :
    (formatChars text args).length ≤
      text.length + ((Stage.text.directives text args).map Directive.room).sum := by
  fun_induction formatChars text args with
  | case1 args => exact Nat.zero_le _
  | case2 args rest spec given read =>
      rw [List.length_singleton, List.length_cons]
      omega
  | case3 args rest spec conversion behind given read _ shown left applied ih =>
      have shorter := readSpec_length_le rest args
      have bounded := Spec.Bounded.readSpec rest args
      rw [read] at shorter bounded
      rw [directives_directive read, applied] at noFloats ⊢
      obtain ⟨first, later⟩ := List.forall_mem_cons.mp noFloats
      -- The directive fits its room, and the format behind it is shorter by at least one character.
      have most := length_applyConversion_le bounded first given
      rw [applied] at most
      have others := ih later
      simp only [List.length_append, List.length_cons, List.map_cons, List.sum_cons] at *
      omega
  | case4 args char rest plain ih =>
      rw [directives_plain plain] at noFloats ⊢
      have most := ih noFloats
      rw [List.length_cons, List.length_cons]
      omega

/-- Without floating-point conversions each directive adds to the format at most 4098 characters, or
the characters of the string that it shows when these are more. Width and precision, however they
are given, add nothing beyond. -/
theorem length_format_le (text : String) (args : List Value)
    (noFloats : ∀ directive ∈ directives text args,
      isFloatConversion directive.conversion = false) :
    (format text args).length ≤
      text.length + ((directives text args).map fun directive =>
        max 4098 directive.textLength).sum := by
  rw [format, String.length_ofList, ← String.length_toList]
  exact length_formatChars_le text.toList args noFloats

def Spec.widest : Spec := { Spec.plain with alternate := true, precision := some maxField }

/-- A mark in front of a precision that is cut fills the room of the directive. -/
theorem huge_precision_is_cut :
    (∀ directive ∈ directives "%#.*x" [.i64 9223372036854775807, .i32 1],
      isFloatConversion directive.conversion = false) ∧
    (format "%#.*x" [.i64 9223372036854775807, .i32 1]).length ≤ 5 + 4098 ∧
    (format "%#.*x" [.i64 9223372036854775807, .i32 1]).length = 4098 := by
  have noFloats : ∀ directive ∈ directives "%#.*x" [.i64 9223372036854775807, .i32 1],
      isFloatConversion directive.conversion = false := by
    decide
  have read : readSpec ['#', '.', '*', 'x'] [.i64 9223372036854775807, .i32 1] =
      (.widest, ['x'], [.i32 1]) := rfl
  have converted : applyConversion .widest 'x' [.i32 1] =
      (formatUnsigned .widest ⟨16, ['0', 'x'], false⟩ (.i32 1), []) := rfl
  have digits : withPrecision .widest ['1'] = List.replicate 4095 '0' ++ ['1'] := rfl
  -- The text is too long to be computed, so that its length is taken from the parts of the field.
  have field : formatUnsigned .widest ⟨16, ['0', 'x'], false⟩ (.i32 1) =
      padNumber .widest [] ['0', 'x'] (List.replicate 4095 '0' ++ ['1']) false := by
    rw [formatUnsigned, ← digits]
    rfl
  have shown : format "%#.*x" [.i64 9223372036854775807, .i32 1] = String.ofList
      (padNumber .widest [] ['0', 'x'] (List.replicate 4095 '0' ++ ['1']) false) := by
    refine congrArg String.ofList ((formatChars_directive read).trans ?_)
    rw [converted, field, formatChars_nil, List.append_nil]
  refine ⟨noFloats, length_format_le _ _ noFloats, ?_⟩
  rw [shown, String.length_ofList, length_padNumber, List.length_append, List.length_replicate]
  rfl

end MiniC.Format
