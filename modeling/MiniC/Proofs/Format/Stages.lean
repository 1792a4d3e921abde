import MiniC.Proofs.Format.Reading

/-!
Where a reader of a format stands.

The stages tell, character by character and without reading any number or flag, which
part of a directive comes next, where a directive ends and which characters take an
argument. What the parts of a directive are read from agrees with them.
-/

namespace MiniC.Format

inductive Stage where
  /-- Outside a directive. -/
  | text
  /-- Behind a percent sign, and flags. -/
  | flags
  /-- Behind digits of a width. -/
  | width
  /-- Behind a width that an argument gives. -/
  | widthTaken
  /-- Behind the point. -/
  | point
  /-- Behind digits of a precision. -/
  | precision
  /-- Behind a precision that an argument gives, and behind length modifiers. -/
  | modifiers
deriving DecidableEq

def isFlag (char : Char) : Bool :=
  char = '-' || char = '+' || char = ' ' || char = '0' || char = '#'

def isConversion (char : Char) : Bool := "diuoxXcsfFeEgG".toList.contains char

namespace Stage

def behindPrecision (char : Char) : Stage := if isModifier char then .modifiers else .text

def behindWidth (char : Char) : Stage := if char = '.' then .point else behindPrecision char

def next (stage : Stage) (char : Char) : Stage :=
  match stage with
  | .text => if char = '%' then .flags else .text
  | .flags =>
      if isFlag char then .flags
      else if char = '*' then .widthTaken
      else if isDigit char then .width
      else behindWidth char
  | .width => if isDigit char then .width else behindWidth char
  | .widthTaken => behindWidth char
  | .point =>
      if char = '*' then .modifiers else if isDigit char then .precision else behindPrecision char
  | .precision => if isDigit char then .precision else behindPrecision char
  | .modifiers => behindPrecision char

/-- Whether the next character takes an argument: a conversion does, where it ends a directive, and
a `*`, where it does not. -/
def takes (stage : Stage) (char : Char) : Bool :=
  if stage = .text then false
  else if stage.next char = .text then isConversion char
  else char = '*'

def walk? : Stage → List Char → Option Nat
  | stage, [] => if stage = .text then some 0 else none
  | stage, char :: rest =>
      ((stage.next char).walk? rest).map (· + (stage.takes char).toNat)

/-- The way to the end of a directive: the number of arguments that its `*` take, the character that
ends it, and what stands behind; none when the text ends inside the directive. -/
def ending? : Stage → List Char → Option (Nat × Char × List Char)
  | _, [] => none
  | stage, char :: rest =>
      if stage.next char = .text then some (0, char, rest)
      else ((stage.next char).ending? rest).map (Prod.map (· + (stage.takes char).toNat) id)

end Stage

/-- The number of arguments that a format takes; none when it ends inside a directive. -/
def taken? (format : String) : Option Nat := Stage.text.walk? format.toList

variable {char conversion : Char} {text rest behind : List Char} {args given : List Value}
  {spec : Spec}

open Stage

/-- A character that stays inside the directive and takes nothing. -/
theorem ending?_step {stage after : Stage} (next : stage.next char = after) (inside : after ≠ .text)
    (star : char ≠ '*') (rest : List Char) : stage.ending? (char :: rest) = after.ending? rest := by
  have takes : stage.takes char = false := by
    unfold Stage.takes
    rw [next, if_neg inside, decide_eq_false star, ite_self]
  rw [Stage.ending?, next, if_neg inside, takes]
  exact Option.map_id'

/-- Two stages inside a directive go the same way from a character on which they agree. -/
theorem ending?_congr {stage other : Stage} (inside : stage ≠ .text) (also : other ≠ .text)
    (agree : ∀ char, text.head? = some char → stage.next char = other.next char) :
    stage.ending? text = other.ending? text := by
  cases text with
  | nil => rfl
  | cons char rest =>
      have same := agree char rfl
      have takes : stage.takes char = other.takes char := by
        unfold Stage.takes
        rw [same, if_neg inside, if_neg also]
      rw [Stage.ending?, Stage.ending?, same, takes]

/-- A stage that characters do not leave and that takes none of them. -/
theorem ending?_dropWhile (stage : Stage) (test : Char → Bool) (inside : stage ≠ .text)
    (stays : ∀ char, test char = true → stage.next char = stage)
    (star : test '*' = false) (text : List Char) :
    stage.ending? text = stage.ending? (text.dropWhile test) := by
  induction text with
  | nil => rfl
  | cons char rest ih =>
      rw [List.dropWhile_cons]
      split
      · next passes =>
          have other : char ≠ '*' := by
            rintro rfl
            cases star.symm.trans passes
          rw [ending?_step (stays char passes) inside other, ih]
      · rfl

private theorem fails_of_head? {test : Char → Bool}
    (first : (text.dropWhile test).head? = some char) :
    test char = false := by
  have fails := List.head?_dropWhile_not test text
  rw [first] at fails
  exact fails

private theorem ne_of_head? {marker : Char} (other : text.head? ≠ some marker)
    (first : text.head? = some char) : char ≠ marker := by
  rintro rfl
  exact other first

private theorem ending?_flags_eq (text : List Char) :
    Stage.flags.ending? text = Stage.flags.ending? (text.dropWhile isFlag) :=
  ending?_dropWhile .flags isFlag nofun (fun _ flag => if_pos flag) (by decide) text

private theorem ending?_width_eq (text : List Char) :
    Stage.width.ending? text = Stage.widthTaken.ending? (text.dropWhile isDigit) := by
  rw [ending?_dropWhile .width isDigit nofun (fun _ digit => if_pos digit) (by decide) text]
  refine ending?_congr nofun nofun ?_
  intro char first
  rw [Stage.next, fails_of_head? first]
  rfl

private theorem ending?_precision_eq (text : List Char) :
    Stage.precision.ending? text = Stage.modifiers.ending? (text.dropWhile isDigit) := by
  rw [ending?_dropWhile .precision isDigit nofun (fun _ digit => if_pos digit) (by decide) text]
  refine ending?_congr nofun nofun ?_
  intro char first
  rw [Stage.next, fails_of_head? first]
  rfl

/-- Behind the precision: length modifiers, and the character that ends the directive. -/
theorem ending?_modifiers_eq (text : List Char) :
    Stage.modifiers.ending? text =
      match text.dropWhile isModifier with
      | [] => none
      | last :: behind => some (0, last, behind) := by
  rw [ending?_dropWhile .modifiers isModifier nofun (fun _ modifier => if_pos modifier) (by decide)
    text]
  split
  · next none => rw [none]; rfl
  · next last behind same =>
      have ends : Stage.modifiers.next last = .text := by
        have first : (text.dropWhile isModifier).head? = some last := by rw [same]; rfl
        rw [Stage.next, behindPrecision, fails_of_head? first]
        rfl
      rw [same, Stage.ending?, if_pos ends]

theorem walk?_plain (plain : char ≠ '%') (rest : List Char) :
    Stage.text.walk? (char :: rest) = Stage.text.walk? rest := by
  rw [Stage.walk?, Stage.next, if_neg plain]
  exact Option.map_id'

private theorem walk?_percent (rest : List Char) :
    Stage.text.walk? ('%' :: rest) = Stage.flags.walk? rest :=
  Option.map_id'

/-- Inside a directive the arguments up to its end are counted, and then those behind it. -/
theorem walk?_of_ending? (stage : Stage) (inside : stage ≠ .text) (text : List Char) :
    stage.walk? text =
      match stage.ending? text with
      | none => none
      | some (stars, last, behind) =>
          (Stage.text.walk? behind).map (· + ((isConversion last).toNat + stars)) := by
  induction text generalizing stage with
  | nil => rw [Stage.walk?, if_neg inside, Stage.ending?]
  | cons char rest ih =>
      rw [Stage.walk?, Stage.ending?]
      by_cases ends : stage.next char = .text
      · have takes : stage.takes char = isConversion char := by
          rw [Stage.takes, if_neg inside, if_pos ends]
        rw [if_pos ends, ends, takes]
        rfl
      · rw [if_neg ends, ih _ ends]
        cases (stage.next char).ending? rest with
        | none => rfl
        | some ending =>
            obtain ⟨stars, last, behind⟩ := ending
            simp only [Option.map_some, Option.map_map, Prod.map, id_eq, Function.comp_def,
              Nat.add_assoc]

theorem isSome_flag? (spec : Spec) (char : Char) : (spec.flag? char).isSome = isFlag char := by
  unfold Spec.flag? isFlag
  split <;> simp_all

private theorem readFlags_rest (spec : Spec) (text : List Char) :
    (readFlags spec text).2 = text.dropWhile isFlag := by
  induction text generalizing spec with
  | nil => rfl
  | cons char rest ih =>
      rw [List.dropWhile_cons, ← isSome_flag? spec char, readFlags]
      cases spec.flag? char with
      | none => rfl
      | some set => exact ih set

private theorem nextInt_rest (args : List Value) : (nextInt args).2 = args.drop 1 := by
  cases args <;> rfl

private theorem ending?_readWidth (spec : Spec) (args : List Value)
    (noFlag : ∀ char, text.head? = some char → isFlag char = false) :
    ∃ count, (readWidth spec text args).2.2 = args.drop count ∧
      Stage.flags.ending? text =
        (Stage.widthTaken.ending? (readWidth spec text args).2.1).map (Prod.map (· + count) id) := by
  by_cases star : text.head? = some '*'
  · obtain ⟨rest, rfl⟩ := List.head?_eq_some_iff.mp star
    exact ⟨1, nextInt_rest args, rfl⟩
  · rw [readWidth_digits star]
    refine ⟨0, rfl, ?_⟩
    have same : Stage.flags.ending? text = Stage.width.ending? text := by
      refine ending?_congr nofun nofun ?_
      intro char first
      have other := ne_of_head? star first
      rw [Stage.next, noFlag char first, if_neg Bool.false_ne_true, if_neg other]
      rfl
    rw [same, ending?_width_eq]
    exact Option.map_id'.symm

private theorem ending?_readPrecision (spec : Spec) (text : List Char) (args : List Value) :
    ∃ count, (readPrecision spec text args).2.2 = args.drop count ∧
      Stage.widthTaken.ending? text =
        (Stage.modifiers.ending? (readPrecision spec text args).2.1).map
          (Prod.map (· + count) id) := by
  by_cases point : text.head? = some '.'
  · obtain ⟨rest, rfl⟩ := List.head?_eq_some_iff.mp point
    have inside : Stage.widthTaken.ending? ('.' :: rest) = Stage.point.ending? rest :=
      ending?_step rfl (by decide) (by decide) rest
    rw [inside]
    by_cases star : rest.head? = some '*'
    · obtain ⟨rest, rfl⟩ := List.head?_eq_some_iff.mp star
      exact ⟨1, nextInt_rest args, rfl⟩
    · rw [readPrecision_digits star]
      refine ⟨0, rfl, ?_⟩
      have same : Stage.point.ending? rest = Stage.precision.ending? rest := by
        refine ending?_congr nofun nofun ?_
        intro char first
        have other := ne_of_head? star first
        rw [Stage.next, if_neg other]
        rfl
      rw [same, ending?_precision_eq]
      exact Option.map_id'.symm
  · rw [readPrecision_none point]
    refine ⟨0, rfl, ?_⟩
    have same : Stage.widthTaken.ending? text = Stage.modifiers.ending? text := by
      refine ending?_congr nofun nofun ?_
      intro char first
      have other := ne_of_head? point first
      rw [Stage.next, behindWidth, if_neg other]
      rfl
    rw [same]
    exact Option.map_id'.symm

/-- What is read of a directive takes the arguments that the stages say, and stops where they do. -/
theorem ending?_readSpec (text : List Char) (args : List Value) :
    ∃ stars, (readSpec text args).2.2 = args.drop stars ∧
      Stage.flags.ending? text =
        match (readSpec text args).2.1 with
        | [] => none
        | last :: behind => some (stars, last, behind) := by
  have noFlag (char : Char) (first : (readFlags .plain text).2.head? = some char) :
      isFlag char = false := by
    rw [readFlags_rest] at first
    exact fails_of_head? first
  -- The parts are walked one behind the other, and their counts add up.
  simp only [readSpec]
  obtain ⟨forWidth, widthLeft, width⟩ := ending?_readWidth (readFlags .plain text).1 args noFlag
  have flags := ending?_flags_eq text
  rw [← readFlags_rest .plain, width] at flags
  generalize readWidth _ _ _ = afterWidth at *
  obtain ⟨forPrecision, precisionLeft, precision⟩ :=
    ending?_readPrecision afterWidth.1 afterWidth.2.1 afterWidth.2.2
  generalize readPrecision _ _ _ = afterPrecision at *
  refine ⟨forPrecision + forWidth, ?_, ?_⟩
  · rw [precisionLeft, widthLeft, List.drop_drop, Nat.add_comm]
  · rw [flags, precision, ending?_modifiers_eq, readLength]
    dsimp only
    cases afterPrecision.2.1.dropWhile isModifier with
    | nil => rfl
    | cons last behind =>
        simp only [Option.map_some, Prod.map, Nat.zero_add, id_eq]

private theorem ending?_unfinished (read : readSpec rest args = (spec, [], given)) :
    Stage.flags.ending? rest = none := by
  obtain ⟨_, _, stages⟩ := ending?_readSpec rest args
  rw [read] at stages
  exact stages

private theorem ending?_directive
    (read : readSpec rest args = (spec, conversion :: behind, given)) :
    ∃ stars, given = args.drop stars ∧
      Stage.flags.ending? rest = some (stars, conversion, behind) := by
  obtain ⟨stars, left, stages⟩ := ending?_readSpec rest args
  rw [read] at left stages
  exact ⟨stars, left, stages⟩

theorem walk?_unfinished (read : readSpec rest args = (spec, [], given)) :
    Stage.text.walk? ('%' :: rest) = none := by
  rw [walk?_percent, walk?_of_ending? .flags nofun, ending?_unfinished read]

theorem walk?_directive (read : readSpec rest args = (spec, conversion :: behind, given)) :
    ∃ stars, given = args.drop stars ∧
      Stage.text.walk? ('%' :: rest) =
        (Stage.text.walk? behind).map (· + ((isConversion conversion).toNat + stars)) := by
  obtain ⟨stars, left, ending⟩ := ending?_directive read
  rw [walk?_percent, walk?_of_ending? .flags nofun, ending]
  exact ⟨stars, left, rfl⟩

private theorem isSome_conversion? (spec : Spec) (char : Char) :
    (conversion? spec char).isSome = isConversion char := by
  unfold conversion? isConversion
  split <;> simp_all

theorem applyConversion_rest (spec : Spec) (char : Char) (args : List Value) :
    (applyConversion spec char args).2 = args.drop (isConversion char).toNat := by
  rw [← isSome_conversion? spec, applyConversion]
  cases conversion? spec char with
  | none =>
      dsimp only
      split <;> rfl
  | some convert => exact List.drop_one.symm

/-! ### The directives of a format -/

def isFloatConversion (char : Char) : Bool := "fFeEgG".toList.contains char

/-- A directive by the character that ends it, and the argument that is next there, unless all have
been taken. -/
structure Directive where
  conversion : Char
  arg? : Option Value

/-- The directives from a stage on, each with the argument that is next at its end. -/
def Stage.directives : Stage → List Char → List Value → List Directive
  | _, [], _ => []
  | stage, char :: rest, args =>
      let behind := (stage.next char).directives rest (args.drop (stage.takes char).toNat)
      if stage ≠ .text ∧ stage.next char = .text then ⟨char, args.head?⟩ :: behind else behind

/-- The directives of a format that come to an end. -/
def directives (format : String) (args : List Value) : List Directive :=
  Stage.text.directives format.toList args

theorem directives_plain (plain : char ≠ '%') (rest : List Char) (args : List Value) :
    Stage.text.directives (char :: rest) args = Stage.text.directives rest args := by
  rw [Stage.directives, Stage.next, if_neg plain]
  rfl

private theorem directives_percent (rest : List Char) (args : List Value) :
    Stage.text.directives ('%' :: rest) args = Stage.flags.directives rest args := rfl

/-- Inside a directive its end comes first, and then the directives behind it. -/
theorem directives_of_ending? (stage : Stage) (inside : stage ≠ .text) (text : List Char)
    (args : List Value) :
    stage.directives text args =
      match stage.ending? text with
      | none => []
      | some (stars, last, behind) =>
          ⟨last, (args.drop stars).head?⟩ ::
            Stage.text.directives behind (args.drop (stars + (isConversion last).toNat)) := by
  induction text generalizing stage args with
  | nil => rfl
  | cons char rest ih =>
      rw [Stage.directives, Stage.ending?]
      by_cases ends : stage.next char = .text
      · have takes : stage.takes char = isConversion char := by
          rw [Stage.takes, if_neg inside, if_pos ends]
        rw [if_pos ⟨inside, ends⟩, if_pos ends, ends, takes]
        simp only [List.drop_zero, Nat.zero_add]
      · rw [if_neg fun both => ends both.2, if_neg ends, ih _ ends]
        cases (stage.next char).ending? rest with
        | none => rfl
        | some ending =>
            obtain ⟨stars, last, behind⟩ := ending
            simp only [Option.map_some, Prod.map, id_eq, List.drop_drop]
            rw [Nat.add_comm stars (stage.takes char).toNat, Nat.add_assoc]

theorem directives_directive (read : readSpec rest args = (spec, conversion :: behind, given)) :
    Stage.text.directives ('%' :: rest) args =
      ⟨conversion, given.head?⟩ ::
        Stage.text.directives behind (applyConversion spec conversion given).2 := by
  obtain ⟨stars, rfl, ending⟩ := ending?_directive read
  rw [directives_percent, directives_of_ending? .flags nofun, ending, applyConversion_rest,
    List.drop_drop]

end MiniC.Format
