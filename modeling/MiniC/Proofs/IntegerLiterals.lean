import MiniC.Lowering.Expr
import MiniC.Proofs.LexerCoverage
import MiniC.Proofs.Value.Integers

/-!
Integer literals keep their value.

A numeral with a suffix is one token, or one fault when a word cannot hold its
number. The token is lowered to a literal of the first kind of its list that holds
the number, and the literal stands for this number.
-/

namespace MiniC

/-- Whether the number is one of the numbers of the kind. -/
def Kind.holds (kind : Kind) (number : Nat) : Bool := kind.wrap number = number

/-- The kinds that a literal may take, by its base and its suffix, in order of preference. -/
def candidateKinds : (based unsigned long : Bool) → List Kind
  | false, false, false => [.i32, .i64, .u64]
  | true, false, false => [.i32, .u32, .i64, .u64]
  | _, true, false => [.u32, .u64]
  | _, false, true => [.i64, .u64]
  | _, true, true => [.u64]

namespace Lexer

variable {based unsigned long : Bool} {number : Nat} {digits suffix : List Char}

private theorem scan_numeral (numeral : Numeral based number digits)
    (isSuffix : IsSuffix unsigned long suffix) :
    scan (.start (digits ++ suffix)) =
      (scan ⟨Text.byteSize (digits ++ suffix), []⟩).map
        (Scan.cons 0 (integerPiece 0 (digits ++ suffix) number unsigned long based
          ⟨Text.byteSize (digits ++ suffix), []⟩)) := by
  obtain ⟨first, more, same, -, read⟩ := readPiece_numeral numeral isSuffix
  have piece := read [] (fun _ next => nomatch next) 0
  rw [List.append_nil, Nat.zero_add] at piece
  have after : (integerPiece 0 (digits ++ suffix) number unsigned long based
      ⟨Text.byteSize (digits ++ suffix), []⟩).after =
        ⟨Text.byteSize (digits ++ suffix), []⟩ := by
    unfold integerPiece
    split <;> rfl
  change scan ⟨0, digits ++ suffix⟩ = _
  rw [same] at piece after ⊢
  rw [scan_of_piece piece, after]

theorem alone_numeral (numeral : Numeral based number digits)
    (isSuffix : IsSuffix unsigned long suffix) (small : number < Nat.pow 2 64) :
    Alone (digits ++ suffix) (.int ⟨UInt64.ofNat number, unsigned, long, based⟩) := by
  rw [Alone, lex, String.toList_ofList, scan_numeral numeral isSuffix, scan_nil, integerPiece,
    if_pos small]
  rfl

theorem lex_numeral_too_large (numeral : Numeral based number digits)
    (isSuffix : IsSuffix unsigned long suffix) (large : Nat.pow 2 64 ≤ number) :
    lex (String.ofList (digits ++ suffix)) =
      .faults [⟨.lexer, s!"Integer literal out of range: {String.ofList (digits ++ suffix)}",
        ⟨0, Text.byteSize (digits ++ suffix)⟩⟩] := by
  rw [lex, String.toList_ofList, scan_numeral numeral isSuffix, scan_nil, integerPiece,
    if_neg (Nat.not_lt.mpr large)]
  rfl

end Lexer

namespace Lowering

private theorem fitsKind_eq_holds {kind : Kind} (isInteger : kind.isInteger = true) {number : Nat}
    (small : number < 2 ^ 64) : fitsKind number kind = kind.holds number := by
  rw [Bool.eq_iff_iff, Kind.holds, decide_eq_true_iff]
  cases kind with
  | i32 | i64 =>
      simp only [Kind.wrap, Kind.isUnsigned, Kind.bits, Bool.false_eq_true, if_false, Int.bmod_def,
        fitsKind, Nat.pow_eq, decide_eq_true_iff]
      push_cast
      split_ifs <;> omega
  | u32 =>
      simp only [Kind.wrap, Kind.isUnsigned, Kind.bits, if_true, fitsKind, Nat.pow_eq,
        decide_eq_true_iff]
      omega
  | u64 =>
      simp only [Kind.wrap, Kind.isUnsigned, Kind.bits, if_true, fitsKind, true_iff]
      omega
  | f32 | f64 => cases isInteger

private theorem literalKinds_eq (literal : IntLiteral) :
    literalKinds literal = candidateKinds literal.based literal.unsigned literal.long := by
  obtain ⟨value, unsigned, long, based⟩ := literal
  cases unsigned <;> cases long <;> cases based <;> rfl

private theorem candidateKinds_isInteger (based unsigned long : Bool) :
    ∀ kind ∈ candidateKinds based unsigned long, kind.isInteger = true := by
  cases based <;> cases unsigned <;> cases long <;> decide

private theorem u64_mem_candidateKinds (based unsigned long : Bool) :
    Kind.u64 ∈ candidateKinds based unsigned long := by
  cases based <;> cases unsigned <;> cases long <;> decide

/-- The kind of a literal is the first of its list that holds the number. -/
theorem find?_candidateKinds (literal : IntLiteral) :
    (candidateKinds literal.based literal.unsigned literal.long).find?
      (·.holds literal.value.toNat) = some (literalKind literal) := by
  have same : ∀ kind ∈ literalKinds literal,
      fitsKind literal.value.toNat kind = kind.holds literal.value.toNat := by
    intro kind listed
    rw [literalKinds_eq] at listed
    exact fitsKind_eq_holds (candidateKinds_isInteger _ _ _ kind listed) literal.value.toNat_lt
  have last : Kind.u64 ∈ literalKinds literal := by
    rw [literalKinds_eq]
    exact u64_mem_candidateKinds _ _ _
  rw [← literalKinds_eq, ← List.find?_congr same, literalKind]
  cases found : (literalKinds literal).find? (fitsKind literal.value.toNat) with
  | some kind => rfl
  | none => exact absurd rfl (List.find?_eq_none.mp found .u64 last)

theorem literalKind_shows (literal : IntLiteral) :
    (literalKind literal).Shows ((Value.u64 literal.value).convert (literalKind literal))
      literal.value.toNat := by
  have found := find?_candidateKinds literal
  have isInteger := candidateKinds_isInteger _ _ _ _ (List.mem_of_find?_eq_some found)
  have holds := List.find?_some found
  have holds : (literalKind literal).wrap _ = _ := of_decide_eq_true holds
  have own : (Value.u64 literal.value).integer? = some (literal.value.toNat : Int) := rfl
  have shows := Value.shows_convert isInteger own
  rw [holds] at shows
  exact shows

end Lowering

/-- A numeral with a suffix. Below the bound of a word it is lexed as one integer token, and the
token is lowered to a literal that stands for the number, of the first kind that holds it. From the
bound on the lexer reports it. -/
theorem integer_literal {based unsigned long : Bool} {number : Nat} {digits suffix : List Char}
    (numeral : Numeral based number digits) (isSuffix : IsSuffix unsigned long suffix) :
    (number < 2 ^ 64 → ∃ literal kind value,
      Lexer.Alone (digits ++ suffix) (.int literal) ∧
      (∀ scope span tree, Lowering.lowerExpr scope (.int span literal) tree =
        .ok (.literal value (.num kind) span)) ∧
      kind.Shows value number ∧
      (candidateKinds based unsigned long).find? (·.holds number) = some kind) ∧
    (2 ^ 64 ≤ number →
      lex (String.ofList (digits ++ suffix)) =
        .faults [⟨.lexer, s!"Integer literal out of range: {String.ofList (digits ++ suffix)}",
          ⟨0, Text.byteSize (digits ++ suffix)⟩⟩]) := by
  refine ⟨?_, Lexer.lex_numeral_too_large numeral isSuffix⟩
  intro small
  let literal : IntLiteral := ⟨UInt64.ofNat number, unsigned, long, based⟩
  have value : literal.value.toNat = number := UInt64.toNat_ofNat_of_lt' small
  have shows := Lowering.literalKind_shows literal
  have found := Lowering.find?_candidateKinds literal
  rw [value] at shows found
  exact ⟨literal, _, _, Lexer.alone_numeral numeral isSuffix small, fun _ _ _ => rfl, shows, found⟩

/-- The least number that no signed kind holds, in base eight, and the least that is too large, in
base ten. -/
theorem octal_literal_beyond_signed :
    (∃ literal value,
      lex "01000000000000000000000l" =
        .tokens [⟨.int literal, ⟨0, 24⟩⟩, ⟨.eof, ⟨24, 24⟩⟩] ∧
      (∀ scope span tree, Lowering.lowerExpr scope (.int span literal) tree =
        .ok (.literal value (.num .u64) span)) ∧
      Kind.u64.Shows value (2 ^ 63 : Nat)) ∧
    lex "18446744073709551616" =
      .faults [⟨.lexer, "Integer literal out of range: 18446744073709551616", ⟨0, 20⟩⟩] := by
  have isSuffix : IsSuffix false true ['l'] := ⟨by simp, by simp, by simp⟩
  have noSuffix : IsSuffix false false [] := ⟨by simp, by simp, by simp⟩
  obtain ⟨literal, kind, value, alone, lowered, shows, found⟩ :=
    (integer_literal (.octal 0 (2 ^ 63)) isSuffix).1 (by decide)
  obtain rfl : Kind.u64 = kind := Option.some.inj found
  have spelled : Nat.toDigits 10 (2 ^ 64) ++ [] = "18446744073709551616".toList := by decide
  have reported := (integer_literal (.decimal (2 ^ 64)) noSuffix).2 (Nat.le_refl _)
  rw [spelled] at reported
  exact ⟨⟨literal, value, alone, lowered, shows⟩, reported⟩

end MiniC
