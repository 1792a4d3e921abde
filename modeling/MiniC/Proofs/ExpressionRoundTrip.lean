import MiniC.Syntax.Parser.Unit
import MiniC.Proofs.Syntax.Operators

/-!
The expression parser undoes the writing of expressions.

By induction over its form an expression is read at its own level, so at every
looser one, so between parentheses, and therefore at every tighter one.
-/

namespace MiniC

open MiniC.Expr

namespace Parser

structure Readable (typeNames : List String) (expr : Expr) : Prop where
  readsAt : ∀ level, level ≤ 13 → ReadsAt typeNames level (expr.tokensAt level) expr
  leadsPostfixes : LeadsPostfixes typeNames (expr.tokensAt 14) expr
  leadsOperands : ∀ index, index < 10 →
    LeadsOperands typeNames index (expr.tokensAt (index + 3)) expr
  leadsComma : LeadsComma typeNames (expr.tokensAt 0) expr

private theorem tokensAt_of_le {asked : Nat} {expr : Expr} (le : asked ≤ expr.level) :
    expr.tokensAt asked = expr.tokens := by
  rw [tokensAt, enclosed, if_neg (Nat.not_lt.mpr le)]

private theorem tokensAt_of_lt {asked : Nat} {expr : Expr} (lt : expr.level < asked) :
    expr.tokensAt asked = .punct .lparen :: (expr.tokens ++ [.punct .rparen]) := by
  rw [tokensAt, enclosed, if_pos lt]

section Readable

variable {typeNames : List String} {expr : Expr}

private theorem length_tokens_pos (expr : Expr) : 0 < expr.tokens.length := by
  have positive := length_tokensAt_pos 0 expr
  rw [tokensAt_of_le (Nat.zero_le _)] at positive
  exact positive

private theorem beginsPrimary_tokensAt (expr : Expr) (rest : List Token) :
    beginsPrimary (expr.tokensAt 14 ++ rest) = true := by
  have begins := begins_tokens expr
  by_cases looser : expr.level < 14
  · have noType := begins.noType (.punct .rparen :: rest) (Or.inl looser)
    rw [tokensAt_of_lt looser]
    simp only [List.cons_append, List.append_assoc, List.nil_append, beginsPrimary, noType,
      Bool.not_false]
  · rw [tokensAt_of_le (Nat.not_lt.mp looser)]
    exact begins.primary (Nat.not_lt.mp looser) rest

/-- Reading at the expression's own level, and in front of the loop that it may stand in, is
enough. -/
theorem Readable.of_own
    (own : ∀ level, level ≤ 13 → level ≤ expr.level → ReadsAt typeNames level expr.tokens expr)
    (chain : 14 ≤ expr.level → LeadsPostfixes typeNames expr.tokens expr)
    (operands : ∀ index, index < 10 → expr.level = index + 3 →
      LeadsOperands typeNames index expr.tokens expr)
    (commas : expr.level = 0 → LeadsComma typeNames expr.tokens expr) :
    Readable typeNames expr := by
  have leads : LeadsPostfixes typeNames (expr.tokensAt 14) expr := by
    by_cases tight : expr.level < 14
    · rw [tokensAt_of_lt tight]
      exact leadsPostfixes_parens (own 0 (by decide) (Nat.zero_le _))
    · rw [tokensAt_of_le (Nat.not_lt.mp tight)]
      exact chain (Nat.not_lt.mp tight)
  have reads : ∀ level, level ≤ 13 → ReadsAt typeNames level (expr.tokensAt level) expr := by
    intro level bound
    by_cases looser : expr.level < level
    · have tight := leads.readsUnary (beginsPrimary_tokensAt expr) (length_tokensAt_pos 14 expr)
      have read := tight.readsAt (length_tokensAt_pos 14 expr)
      have same : expr.tokensAt level = expr.tokensAt 14 := by
        rw [tokensAt_of_lt looser, tokensAt_of_lt (by omega)]
      rw [same]
      exact read.looser (length_tokensAt_pos 14 expr) (Nat.le_refl 13) level bound
    · rw [tokensAt_of_le (Nat.not_lt.mp looser)]
      exact own level bound (Nat.not_lt.mp looser)
  have same {asked : Nat} (other : expr.level ≠ asked) :
      expr.tokensAt asked = expr.tokensAt (asked + 1) := by
    by_cases looser : expr.level < asked
    · rw [tokensAt_of_lt looser, tokensAt_of_lt (by omega)]
    · rw [tokensAt_of_le (Nat.not_lt.mp looser), tokensAt_of_le (by omega)]
  refine ⟨reads, leads, ?_, ?_⟩
  · intro index inside
    by_cases level : expr.level = index + 3
    · rw [tokensAt_of_le (by omega)]
      exact operands index inside level
    · rw [same level]
      exact (reads (index + 4) (by omega)).leadsOperands inside (length_tokensAt_pos _ expr)
  · by_cases level : expr.level = 0
    · rw [tokensAt_of_le (by omega)]
      exact commas level
    · rw [same level]
      exact (reads 1 (by decide)).leadsComma (length_tokensAt_pos _ expr)

private theorem readable_of_leadsPostfixes (level : expr.level = 14)
    (leads : LeadsPostfixes typeNames expr.tokens expr) : Readable typeNames expr := by
  refine Readable.of_own ?_ (fun _ => leads) (by omega) (by omega)
  intro low bound _
  have begins := (begins_tokens expr).primary (by omega)
  have positive := length_tokens_pos expr
  exact ((leads.readsUnary begins positive).readsAt positive).looser positive (Nat.le_refl 13)
    low bound

private theorem readable_of_readsUnary (level : expr.level = 13)
    (reads : ReadsUnary typeNames expr.tokens expr) : Readable typeNames expr := by
  refine Readable.of_own ?_ (by omega) (by omega) (by omega)
  intro low bound _
  have positive := length_tokens_pos expr
  exact (reads.readsAt positive).looser positive (Nat.le_refl 13) low bound

private theorem readable_of_leadsOperands {index : Nat} (inside : index < 10)
    (level : expr.level = index + 3) (leads : LeadsOperands typeNames index expr.tokens expr) :
    Readable typeNames expr := by
  have positive := length_tokens_pos expr
  refine Readable.of_own ?_ (by omega) ?_ (by omega)
  · intro low _ le
    exact (leads.reads inside positive).looser positive (by omega) low (by omega)
  · intro other _ same
    obtain rfl : other = index := by omega
    exact leads

/-- Assignments and conditional expressions. -/
theorem readable_of_readsAt (level : Nat) (same : expr.level = level) (positive : 0 < level)
    (small : level < 3) (reads : ReadsAt typeNames level expr.tokens expr) :
    Readable typeNames expr := by
  refine Readable.of_own ?_ (by omega) (by omega) (by omega)
  intro low _ le
  exact reads.looser (length_tokens_pos expr) (by omega) low (by omega)

private theorem readable_of_leadsComma (level : expr.level = 0)
    (leads : LeadsComma typeNames expr.tokens expr) : Readable typeNames expr := by
  refine Readable.of_own ?_ (by omega) (by omega) (fun _ => leads)
  intro low _ le
  obtain rfl : low = 0 := by omega
  exact leads.reads (length_tokens_pos expr)

mutual

/-- An expression is read back from its tokens if the types it casts to are known. -/
theorem readable : ∀ expr : Expr,
    (∀ spec ∈ expr.castTypes, spec.isKnown typeNames = true) → Readable typeNames expr
  | .int _ _, _ | .float _ _ _, _ | .char _ _, _ | .bool _ true, _ | .bool _ false, _
  | .ident _ _, _ =>
      readable_of_leadsPostfixes rfl (leadsPostfixes_atom rfl (fun _ => rfl))
  | .str span text, _ => readable_of_leadsPostfixes rfl (leadsPostfixes_str span text)
  | .binary span op left right, known => by
      obtain ⟨knownLeft, knownRight⟩ := List.forall_mem_append.mp known
      obtain ⟨index, level⟩ : ∃ index, op.level = index + 3 :=
        ⟨op.level - 3, by have := op.le_level; omega⟩
      have inside : index < 10 := by
        have := op.level_le
        omega
      have leads := (readable left knownLeft).leadsOperands index inside
      have reads := (readable right knownRight).readsAt (index + 4) (by omega)
      refine readable_of_leadsOperands inside level ?_
      rw [tokens, level]
      exact leads.binary inside level reads span
  | .assign span op target value, known => by
      obtain ⟨knownTarget, knownValue⟩ := List.forall_mem_append.mp known
      exact readable_of_readsAt 1 rfl (by decide) (by decide)
        (readsAt_assign ((readable target knownTarget).readsAt 2 (by decide))
          ((readable value knownValue).readsAt 1 (by decide)) span op)
  | .unary span op operand, known =>
      readable_of_readsUnary rfl
        (((readable operand known).readsAt 13 (Nat.le_refl 13)).unary.unary span op)
  | .incDec span increment true operand, known =>
      readable_of_readsUnary rfl
        (((readable operand known).readsAt 13 (Nat.le_refl 13)).unary.incDec span increment)
  | .incDec span increment false operand, known =>
      readable_of_leadsPostfixes rfl
        ((readable operand known).leadsPostfixes.incDec span increment)
  | .call span name nameSpan args, known =>
      readable_of_leadsPostfixes rfl
        (leadsPostfixes_call span nameSpan name args fun arg listed =>
          (readableAll args known arg listed).readsAt 1 (by decide))
  | .subscript span base index, known => by
      obtain ⟨knownBase, knownIndex⟩ := List.forall_mem_append.mp known
      exact readable_of_leadsPostfixes rfl
        ((readable base knownBase).leadsPostfixes.subscript
          ((readable index knownIndex).readsAt 0 (by decide)) span)
  | .field span owner name, known =>
      readable_of_leadsPostfixes rfl ((readable owner known).leadsPostfixes.field span name)
  | .conditional span cond yes no, known => by
      obtain ⟨knownCond, knownParts⟩ := List.forall_mem_append.mp known
      obtain ⟨knownYes, knownNo⟩ := List.forall_mem_append.mp knownParts
      exact readable_of_readsAt 2 rfl (by decide) (by decide)
        (readsAt_conditional ((readable cond knownCond).readsAt 3 (by decide))
          ((readable yes knownYes).readsAt 0 (by decide))
          ((readable no knownNo).readsAt 2 (by decide)) span)
  | .cast span spec operand, known => by
      obtain ⟨knownType, knownOperand⟩ := List.forall_mem_cons.mp known
      exact readable_of_readsUnary rfl
        (((readable operand knownOperand).readsAt 13 (Nat.le_refl 13)).unary.cast knownType span)
  | .comma span left right, known => by
      obtain ⟨knownLeft, knownRight⟩ := List.forall_mem_append.mp known
      exact readable_of_leadsComma rfl
        ((readable left knownLeft).leadsComma.comma
          ((readable right knownRight).readsAt 1 (by decide)) span)
termination_by structural expr => expr

private theorem readableAll : ∀ exprs : List Expr,
    (∀ spec ∈ castTypesAll exprs, spec.isKnown typeNames = true) →
    ∀ expr ∈ exprs, Readable typeNames expr
  | [], _ => by
      intro expr listed
      cases listed
  | first :: rest, known => by
      obtain ⟨knownFirst, knownRest⟩ := List.forall_mem_append.mp known
      intro expr listed
      rcases List.mem_cons.mp listed with same | inRest
      · rw [same]
        exact readable first knownFirst
      · exact readableAll rest knownRest expr inRest
termination_by structural exprs => exprs

end

end Readable

/-- Before a semicolon the parser reads the tokens of an expression as that expression, spans
apart, and stops at the semicolon. -/
theorem parseExpr_tokens (expr : Expr) (typeNames : List String)
    (known : ∀ spec ∈ expr.castTypes, spec.isKnown typeNames = true)
    (fuel : Nat) (lexemes : List Lexeme) (semi : Lexeme) (more : List Lexeme) (before : Span)
    (spelled : lexemes.map Lexeme.token = expr.tokens) (stops : semi.token = .punct .semi)
    (enough : sufficientFuel lexemes ≤ fuel) :
    ∃ found last,
      parseExpr fuel ⟨lexemes ++ semi :: more, before, typeNames⟩ =
        .ok found ⟨semi :: more, last, typeNames⟩ ∧
      found.unplaced = expr.unplaced := by
  have reads := (readable expr known).readsAt 0 (Nat.zero_le 13)
  rw [tokensAt_of_le (Nat.zero_le _)] at reads
  have ends : Ends 0 semi.token := by
    rw [stops]
    exact ends_of_none rfl 0
  have bound : 20 * expr.tokens.length ≤ fuel + 0 := by
    rw [← spelled, List.length_map]
    unfold sufficientFuel at enough
    omega
  exact reads fuel lexemes semi more before spelled ends bound

/-- `x = (a, (T)-b[i++].f) * c ? d : e - (f - g)`, where `T` names a type: the comma and the second
difference need their parentheses, the cast does not. -/
def mixedExpr : Expr :=
  .assign ⟨0, 0⟩ none (.ident ⟨0, 0⟩ "x")
    (.conditional ⟨0, 0⟩
      (.binary ⟨0, 0⟩ .mul
        (.comma ⟨0, 0⟩ (.ident ⟨0, 0⟩ "a")
          (.cast ⟨0, 0⟩ (.named "T")
            (.unary ⟨0, 0⟩ .negate
              (.field ⟨0, 0⟩
                (.subscript ⟨0, 0⟩ (.ident ⟨0, 0⟩ "b")
                  (.incDec ⟨0, 0⟩ true false (.ident ⟨0, 0⟩ "i")))
                "f"))))
        (.ident ⟨0, 0⟩ "c"))
      (.ident ⟨0, 0⟩ "d")
      (.binary ⟨0, 0⟩ .sub (.ident ⟨0, 0⟩ "e")
        (.binary ⟨0, 0⟩ .sub (.ident ⟨0, 0⟩ "f") (.ident ⟨0, 0⟩ "g"))))

def mixedTokens : List Token :=
  [.ident "x", .punct .assign, .punct .lparen, .ident "a", .punct .comma, .punct .lparen,
    .ident "T", .punct .rparen, .punct .minus, .ident "b", .punct .lbracket, .ident "i",
    .punct .plusPlus, .punct .rbracket, .punct .dot, .ident "f", .punct .rparen, .punct .star,
    .ident "c", .punct .question, .ident "d", .punct .colon, .ident "e", .punct .minus,
    .punct .lparen, .ident "f", .punct .minus, .ident "g", .punct .rparen]

theorem parseExpr_mixedTokens :
    ∃ found last,
      parseExpr 1000
        ⟨mixedTokens.map (Lexeme.mk · ⟨0, 0⟩) ++ [⟨.punct .semi, ⟨0, 0⟩⟩], ⟨0, 0⟩, ["T"]⟩ =
        .ok found ⟨[⟨.punct .semi, ⟨0, 0⟩⟩], last, ["T"]⟩ ∧
      found.unplaced = mixedExpr := by
  have known : ∀ spec ∈ mixedExpr.castTypes, spec.isKnown ["T"] = true := by
    intro spec listed
    rw [List.mem_singleton.mp listed]
    rfl
  exact parseExpr_tokens mixedExpr ["T"] known 1000 (mixedTokens.map (Lexeme.mk · ⟨0, 0⟩))
    ⟨.punct .semi, ⟨0, 0⟩⟩ [] ⟨0, 0⟩ rfl rfl (by decide)

end Parser
end MiniC
