import MiniC.Proofs.Format.Stages

/-!
Formats by parts.

A format that ends outside a directive is formatted alike whatever format follows it,
and what follows goes on with the arguments that it leaves. Arguments that are
missing read as empty texts or as zero.
-/

namespace MiniC.Format

variable {first : List Char} {count : Nat}

def StandsIn (value : Value) (char : Char) : Prop :=
  ∀ spec convert, conversion? spec char = some convert → convert (some value) = convert none

variable {zero : Value}

private theorem nextInt_filled (isZero : zero.toI64 = 0) (args : List Value) (missing : Nat) :
    ∃ left, nextInt (args ++ List.replicate missing zero) =
      ((nextInt args).1, (nextInt args).2 ++ List.replicate left zero) := by
  cases args with
  | cons arg rest => exact ⟨missing, rfl⟩
  | nil =>
      cases missing with
      | zero => exact ⟨0, rfl⟩
      | succ missing =>
          refine ⟨missing, ?_⟩
          simp only [List.nil_append, List.replicate_succ, nextInt, isZero]
          rfl

private theorem readWidth_filled (isZero : zero.toI64 = 0) (spec : Spec) (text : List Char)
    (args : List Value) (missing : Nat) :
    ∃ left, readWidth spec text (args ++ List.replicate missing zero) =
      ((readWidth spec text args).1, (readWidth spec text args).2.1,
        (readWidth spec text args).2.2 ++ List.replicate left zero) := by
  by_cases star : text.head? = some '*'
  · obtain ⟨rest, rfl⟩ := List.head?_eq_some_iff.mp star
    obtain ⟨left, same⟩ := nextInt_filled isZero args missing
    refine ⟨left, ?_⟩
    simp only [readWidth, same]
  · exact ⟨missing, by rw [readWidth_digits star, readWidth_digits star]⟩

private theorem readPrecision_filled (isZero : zero.toI64 = 0) (spec : Spec) (text : List Char)
    (args : List Value) (missing : Nat) :
    ∃ left, readPrecision spec text (args ++ List.replicate missing zero) =
      ((readPrecision spec text args).1, (readPrecision spec text args).2.1,
        (readPrecision spec text args).2.2 ++ List.replicate left zero) := by
  by_cases point : text.head? = some '.'
  · obtain ⟨rest, rfl⟩ := List.head?_eq_some_iff.mp point
    by_cases star : rest.head? = some '*'
    · obtain ⟨rest, rfl⟩ := List.head?_eq_some_iff.mp star
      obtain ⟨left, same⟩ := nextInt_filled isZero args missing
      refine ⟨left, ?_⟩
      simp only [readPrecision, same]
    · exact ⟨missing, by rw [readPrecision_digits star, readPrecision_digits star]⟩
  · exact ⟨missing, by rw [readPrecision_none point, readPrecision_none point]⟩

private theorem readSpec_filled (isZero : zero.toI64 = 0) (text : List Char) (args : List Value)
    (missing : Nat) :
    ∃ left, readSpec text (args ++ List.replicate missing zero) =
      ((readSpec text args).1, (readSpec text args).2.1,
        (readSpec text args).2.2 ++ List.replicate left zero) := by
  obtain ⟨afterWidth, width⟩ := readWidth_filled isZero (readFlags .plain text).1
    (readFlags .plain text).2 args missing
  obtain ⟨left, precision⟩ := readPrecision_filled isZero
    (readWidth (readFlags .plain text).1 (readFlags .plain text).2 args).1
    (readWidth (readFlags .plain text).1 (readFlags .plain text).2 args).2.1
    (readWidth (readFlags .plain text).1 (readFlags .plain text).2 args).2.2 afterWidth
  exact ⟨left, by simp only [readSpec, width, precision]⟩

private theorem applyConversion_filled {char : Char} {args : List Value}
    (standsIn : args.head? = none → StandsIn zero char) (spec : Spec) (missing : Nat) :
    ∃ left, applyConversion spec char (args ++ List.replicate missing zero) =
      ((applyConversion spec char args).1,
        (applyConversion spec char args).2 ++ List.replicate left zero) := by
  unfold applyConversion
  cases found : conversion? spec char with
  | none =>
      refine ⟨missing, ?_⟩
      dsimp only
      split <;> rfl
  | some convert =>
      cases args with
      | cons arg rest => exact ⟨missing, rfl⟩
      | nil =>
          cases missing with
          | zero => exact ⟨0, rfl⟩
          | succ missing =>
              exact ⟨missing, congrArg (·, List.replicate missing zero)
                (standsIn rfl spec convert found)⟩

private theorem formatChars_filled (isZero : zero.toI64 = 0) (text : List Char) (args : List Value)
    (missing : Nat)
    (standsIn : ∀ directive ∈ Stage.text.directives text args,
      directive.arg? = none → StandsIn zero directive.conversion) :
    formatChars text (args ++ List.replicate missing zero) = formatChars text args := by
  fun_induction formatChars text args generalizing missing with
  | case1 args => exact formatChars_nil _
  | case2 args rest spec given read =>
      obtain ⟨left, same⟩ := readSpec_filled isZero rest args missing
      rw [read] at same
      exact formatChars_unfinished same
  | case3 args rest spec conversion behind given read _ shown left applied ih =>
      obtain ⟨more, same⟩ := readSpec_filled isZero rest args missing
      rw [read] at same
      rw [directives_directive read, List.forall_mem_cons, applied] at standsIn
      obtain ⟨last, converted⟩ := applyConversion_filled standsIn.1 spec more
      rw [applied] at converted
      rw [formatChars_directive same, converted]
      exact congrArg (shown ++ ·) (ih last standsIn.2)
  | case4 args char rest plain ih =>
      rw [directives_plain plain] at standsIn
      rw [formatChars_plain plain, ih missing standsIn]

private theorem standsIn_empty (char : Char) : StandsIn (.str "") char := by
  intro spec convert found
  unfold conversion? at found
  split at found <;> cases found <;> rfl

/-- A value that is zero as an integer of every kind. -/
def ReadsZero (value : Value) : Prop :=
  ∀ kind : Kind, kind.isInteger = true → value.convert kind = .zero kind

private theorem signedValue_of_readsZero (reads : ReadsZero zero) (long : Bool) :
    signedValue long zero = 0 := by
  have narrow : zero.toI32 = 0 := Value.i32.inj (reads .i32 rfl)
  have wide : zero.toI64 = 0 := Value.i64.inj (reads .i64 rfl)
  unfold signedValue
  rw [narrow, wide]
  split
  · rfl
  · rfl
  · cases long <;> rfl

private theorem unsignedValue_of_readsZero (reads : ReadsZero zero) (long : Bool) :
    unsignedValue long zero = 0 := by
  have narrow : zero.toU32 = 0 := Value.u32.inj (reads .u32 rfl)
  have wide : zero.toU64 = 0 := Value.u64.inj (reads .u64 rfl)
  unfold unsignedValue
  rw [narrow, wide]
  split
  · rfl
  · rfl
  · cases long <;> rfl

private theorem formatSigned_of_readsZero (reads : ReadsZero zero) (spec : Spec) :
    formatSigned spec zero = formatSigned spec (.i32 0) := by
  have plain : signedValue spec.long (.i32 0) = 0 := by cases spec.long <;> rfl
  simp only [formatSigned, signedValue_of_readsZero reads, plain]

private theorem formatUnsigned_of_readsZero (reads : ReadsZero zero) (spec : Spec) (radix : Radix) :
    formatUnsigned spec radix zero = formatUnsigned spec radix (.i32 0) := by
  have plain : unsignedValue spec.long (.i32 0) = 0 := by cases spec.long <;> rfl
  simp only [formatUnsigned, unsignedValue_of_readsZero reads, plain]

theorem standsIn_zero {char : Char} (reads : ReadsZero zero) (noText : char ≠ 's')
    (float : isFloatConversion char = true → zero.toF64 = 0.0) : StandsIn zero char := by
  intro spec convert found
  unfold conversion? at found
  split at found
  case h_1 | h_2 =>
    cases found
    exact formatSigned_of_readsZero reads spec
  case h_3 | h_4 | h_5 | h_6 =>
    cases found
    exact formatUnsigned_of_readsZero reads spec _
  case h_7 =>
    cases found
    have code : zero.toU32 = 0 := Value.u32.inj (reads .u32 rfl)
    simp only [Option.getD_some, Option.getD_none, code]
    rfl
  case h_8 => exact absurd rfl noText
  case h_15 => cases found
  all_goals
    cases found
    simp only [Option.elim_some, Option.elim_none, float (by decide)]

/-! ### Composition -/

theorem formatChars_append {args : List Value} (whole : Stage.text.walk? first = some count)
    (second : List Char) :
    formatChars (first ++ second) args =
      formatChars first args ++ formatChars second (args.drop count) := by
  fun_induction formatChars first args generalizing count with
  | case1 args =>
      cases whole
      rfl
  | case2 args rest spec given read => cases (walk?_unfinished read).symm.trans whole
  | case3 args rest spec conversion behind given read _ shown left applied ih =>
      obtain ⟨stars, rfl, stages⟩ := walk?_directive read
      obtain ⟨inner, walked, rfl⟩ := Option.map_eq_some_iff.mp (stages.symm.trans whole)
      -- The directive has its end in the first part, so that it is read alike in the whole.
      have nonempty : (readSpec rest args).2.1 ≠ [] := by
        rw [read]
        exact List.cons_ne_nil conversion behind
      have longer := readSpec_append nonempty second
      rw [read] at longer
      have remaining : left = args.drop (stars + (isConversion conversion).toNat) := by
        rw [← List.drop_drop, ← applyConversion_rest spec, applied]
      have behindEq : formatChars (behind ++ second) left = formatChars behind left ++
          formatChars second (args.drop (inner + ((isConversion conversion).toNat + stars))) := by
        rw [ih walked, remaining, List.drop_drop, Nat.add_comm stars, Nat.add_comm inner]
      rw [List.cons_append, formatChars_directive longer, applied, List.append_assoc]
      exact congrArg (shown ++ ·) behindEq
  | case4 args char rest plain ih =>
      rw [walk?_plain plain] at whole
      rw [List.cons_append, formatChars_plain plain, ih whole, List.cons_append]

/-- A format for a text: each percent sign is doubled. -/
def escape (text : String) : String :=
  String.ofList (text.toList.flatMap fun char => if char = '%' then ['%', '%'] else [char])

private theorem formatChars_percent (rest : List Char) (args : List Value) :
    formatChars ('%' :: '%' :: rest) args = '%' :: formatChars rest args := by
  have read : readSpec ('%' :: rest) args = (.plain, '%' :: rest, args) := rfl
  rw [formatChars_directive read]
  rfl

private theorem formatChars_escape (text : List Char) (args : List Value) :
    formatChars (text.flatMap fun char => if char = '%' then ['%', '%'] else [char]) args =
      text := by
  induction text with
  | nil => exact formatChars_nil args
  | cons char text ih =>
      rw [List.flatMap_cons]
      split
      · next percent =>
          rw [percent]
          exact (formatChars_percent _ args).trans (congrArg _ ih)
      · next plain => exact (formatChars_plain plain _ args).trans (congrArg _ ih)

/-- Formats can be put together from parts that end outside a directive. Each part takes the
arguments that its conversions and its `*` ask for. Arguments that are missing read as empty texts,
and where no text is asked for, as any value that is zero as a number. A text with its percent signs
doubled is formatted to itself. -/
theorem format_by_parts (args : List Value) :
    (∀ first second count, taken? first = some count →
      format (first ++ second) args =
        format first args ++ format second (args.drop count)) ∧
    (∀ text missing, format text (args ++ List.replicate missing (.str "")) = format text args) ∧
    (∀ text zero missing, ReadsZero zero →
      (∀ directive ∈ directives text args, directive.arg? = none → directive.conversion ≠ 's' ∧
        (isFloatConversion directive.conversion = true → zero.toF64 = 0.0)) →
      format text (args ++ List.replicate missing zero) = format text args) ∧
    ∀ text, format (escape text) args = text := by
  refine ⟨?_, ?_, ?_, ?_⟩
  · intro first second count whole
    rw [format, String.toList_append, formatChars_append whole, String.ofList_append]
    rfl
  · intro text missing
    exact congrArg String.ofList
      (formatChars_filled rfl text.toList args missing fun _ _ _ => standsIn_empty _)
  · intro text zero missing reads numeric
    refine congrArg String.ofList (formatChars_filled (Value.i64.inj (reads .i64 rfl)) text.toList
      args missing fun directive listed absent => ?_)
    obtain ⟨noText, float⟩ := numeric directive listed absent
    exact standsIn_zero reads noText float
  · intro text
    rw [format, escape, String.toList_ofList, formatChars_escape, String.ofList_toList]

theorem readsZero_zero : ReadsZero (.i32 0) := by
  intro kind isInteger
  cases kind with
  | f32 | f64 => cases isInteger
  | _ => rfl

private theorem format_star : format "%*d|" [.i32 4, .i32 9, .str "x"] = "   9|" := by
  have text : "%*d|".toList = ['%', '*', 'd', '|'] := rfl
  have read : readSpec ['*', 'd', '|'] [.i32 4, .i32 9, .str "x"] =
      ({ Spec.plain with width := 4 }, ['d', '|'], [.i32 9, .str "x"]) := rfl
  rw [format, text, formatChars_directive read, formatChars_plain (by decide), formatChars_nil]
  rfl

private theorem format_missing : format "%s %*d" [.str "x"] = "x 0" := by
  have text : "%s %*d".toList = ['%', 's', ' ', '%', '*', 'd'] := rfl
  have word : readSpec ['s', ' ', '%', '*', 'd'] [.str "x"] =
      (.plain, ['s', ' ', '%', '*', 'd'], [.str "x"]) := rfl
  have shown : applyConversion .plain 's' [.str "x"] = (['x'], []) := rfl
  have number : readSpec ['*', 'd'] [] = (.plain, ['d'], []) := rfl
  rw [format, text, formatChars_directive word, shown, formatChars_plain (by decide),
    formatChars_directive number, formatChars_nil]
  rfl

/-- A width from an argument in the first part, and a missing width and number in the second. -/
theorem format_star_then_missing :
    taken? "%*d|" = some 2 ∧
    format ("%*d|" ++ "%s %*d") [.i32 4, .i32 9, .str "x"] =
      format "%*d|" [.i32 4, .i32 9, .str "x"] ++ format "%s %*d" [.str "x"] ∧
    format "%*d|%s %*d" [.i32 4, .i32 9, .str "x"] = "   9|x 0" ∧
    format "%s %*d" [.str "x", .i32 0, .i32 0] = format "%s %*d" [.str "x"] := by
  have taken : taken? "%*d|" = some 2 := by decide
  have listed : directives "%s %*d" [.str "x"] = [⟨'s', some (.str "x")⟩, ⟨'d', none⟩] := rfl
  have numeric : ∀ directive ∈ directives "%s %*d" [.str "x"], directive.arg? = none →
      directive.conversion ≠ 's' ∧
        (isFloatConversion directive.conversion = true → (Value.i32 0).toF64 = 0.0) := by
    rw [listed, List.forall_mem_cons, List.forall_mem_singleton]
    refine ⟨nofun, fun _ => ⟨by decide, fun float => ?_⟩⟩
    cases float
  have split : format ("%*d|" ++ "%s %*d") [.i32 4, .i32 9, .str "x"] =
      format "%*d|" [.i32 4, .i32 9, .str "x"] ++ format "%s %*d" [.str "x"] :=
    (format_by_parts [.i32 4, .i32 9, .str "x"]).1 _ _ 2 taken
  refine ⟨taken, split, ?_, (format_by_parts [.str "x"]).2.2.1 _ _ 2 readsZero_zero numeric⟩
  rw [format_star, format_missing] at split
  exact split

end MiniC.Format
