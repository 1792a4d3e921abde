import MiniC.Proofs.Syntax.Operands

/-!
How expressions with operators are read: in front of an operand, casts among
them, and between operands.
-/

namespace MiniC

open MiniC.Expr

namespace Parser

section Forms

variable {typeNames : List String} {tokens : List Token} {expr : Expr}

abbrev ReadsUnary (typeNames : List String) (tokens : List Token) (expr : Expr) : Prop :=
  Reads typeNames parseUnary 14 13 tokens expr

theorem ReadsAt.unary (reads : ReadsAt typeNames 13 tokens expr) :
    ReadsUnary typeNames tokens expr := by
  intro fuel lexemes next more before spelled ends enough
  have read := reads (fuel + 1) lexemes next more before spelled ends (by omega)
  change ∃ found last, parseBinary (fuel + 1) [] _ = _ ∧ _ at read
  rw [parseBinary] at read
  exact read

theorem ReadsUnary.readsAt (reads : ReadsUnary typeNames tokens expr)
    (nonempty : 0 < tokens.length) : ReadsAt typeNames 13 tokens expr := by
  intro fuel lexemes next more before spelled ends enough
  obtain ⟨less, rfl⟩ := fuel_pos enough (by decide) nonempty
  change ∃ found last, parseBinary (less + 1) [] _ = _ ∧ _
  rw [parseBinary]
  exact reads less lexemes next more before spelled ends (by omega)

private theorem unaryOf?_mark (op : UnaryOp) : unaryOf? (.punct op.mark) = some op := by
  cases op <;> rfl

private theorem unaryOf?_stepMark (increment : Bool) :
    unaryOf? (.punct (stepMark increment)) = none := by
  cases increment <;> rfl

private theorem incDecOf?_stepMark (increment : Bool) :
    incDecOf? (.punct (stepMark increment)) = some increment := by
  cases increment <;> rfl

/-- A mark, and behind it an operand. -/
theorem ReadsUnary.behind {operand whole : Expr} {mark : Token} (make : Span → Expr → Expr)
    (reads : ReadsUnary typeNames tokens operand)
    (marked : ∀ (fuel : Nat) (first : Lexeme) (rest : List Lexeme) (before : Span),
      first.token = mark →
      parseUnary (fuel + 1) ⟨first :: rest, before, typeNames⟩ =
        (do
          advance
          let found ← parseUnary fuel
          return make (first.span.merge found.span) found) ⟨first :: rest, before, typeNames⟩)
    (made : ∀ span found, found.unplaced = operand.unplaced →
      (make span found).unplaced = whole.unplaced) :
    ReadsUnary typeNames (mark :: tokens) whole := by
  intro fuel lexemes next more before spelled ends enough
  obtain ⟨first, lexemes, rfl, begun, restSpelled⟩ := List.map_eq_cons_iff.mp spelled
  obtain ⟨less, rfl⟩ := fuel_pos enough (by decide) (Nat.succ_pos _)
  rw [List.length_cons] at enough
  obtain ⟨found, last, read, same⟩ :=
    reads less lexemes next more first.span restSpelled ends (by omega)
  refine ⟨make (first.span.merge found.span) found, last, ?_, made _ found same⟩
  rw [List.cons_append, marked less first _ before begun]
  simp only [bind_apply, advance_append, read, pure_apply]

theorem ReadsUnary.unary {operand : Expr} (reads : ReadsUnary typeNames tokens operand)
    (span : Span) (op : UnaryOp) :
    ReadsUnary typeNames (.punct op.mark :: tokens) (.unary span op operand) := by
  refine reads.behind (.unary · op ·) ?_ ?_
  · intro fuel first rest before begun
    simp only [parseUnary, bind_apply, here_apply, token_apply, begun, unaryOf?_mark]
  · intro place found same
    simp only [unplaced, same]

theorem ReadsUnary.incDec {operand : Expr} (reads : ReadsUnary typeNames tokens operand)
    (span : Span) (increment : Bool) :
    ReadsUnary typeNames (.punct (stepMark increment) :: tokens)
      (.incDec span increment true operand) := by
  refine reads.behind (.incDec · increment true ·) ?_ ?_
  · intro fuel first rest before begun
    simp only [parseUnary, bind_apply, here_apply, token_apply, begun, unaryOf?_stepMark,
      incDecOf?_stepMark]
  · intro place found same
    simp only [unplaced, same]

private theorem tokenAt_apply (distance : Nat) (state : State) :
    tokenAt distance state = .ok (state.tokenAt distance) state :=
  rfl

private theorem atCast_of_not_lparen {first : Lexeme} (opens : isPunct .lparen first.token = false)
    (rest : List Lexeme) (before : Span) :
    atCast ⟨first :: rest, before, typeNames⟩ = .ok false ⟨first :: rest, before, typeNames⟩ := by
  simp only [atCast, bind_apply, token_apply, opens, Bool.not_false, if_true]
  rfl

private theorem atCast_of_not_type {first : Lexeme} (opens : first.token = .punct .lparen)
    {rest : List Lexeme} (noType : beginsType (rest.map Lexeme.token) = false) (before : Span) :
    atCast ⟨first :: rest, before, typeNames⟩ = .ok false ⟨first :: rest, before, typeNames⟩ := by
  simp only [atCast, bind_apply, token_apply, isPunct_iff.mpr opens, Bool.not_true,
    Bool.false_eq_true, if_false, tokenAt_apply]
  cases rest with
  | nil => rfl
  | cons second rest =>
      rw [List.map_cons] at noType
      rw [show State.tokenAt 1 ⟨first :: second :: rest, before, typeNames⟩ = second.token from rfl]
      generalize second.token = token at noType
      unfold beginsType at noType
      split at noType
      · cases noType
      · rename_i same
        cases same
        have third : isPunct .rparen
            (State.tokenAt 2 ⟨first :: second :: rest, before, typeNames⟩) = false := by
          cases rest with
          | nil => rfl
          | cons third rest => exact noType
        simp only [bind_apply, isTypeName, get_apply, pure_apply, tokenAt_apply, third,
          Bool.and_false]
      · rename_i noQualifier noIdent same
        cases same
        split
        · exact absurd rfl noQualifier
        · exact absurd rfl (noIdent _)
        · rw [pure_apply, noType]
      · rename_i same
        cases same

/-- Behind no operator and no cast there is a primary expression. -/
theorem parseUnary_of_beginsPrimary {lexemes : List Lexeme}
    (begins : beginsPrimary (lexemes.map Lexeme.token) = true) (fuel : Nat) (before : Span) :
    parseUnary (fuel + 1) ⟨lexemes, before, typeNames⟩ =
      parseChain fuel ⟨lexemes, before, typeNames⟩ := by
  cases lexemes with
  | nil => cases begins
  | cons first rest =>
      rw [List.map_cons] at begins
      unfold beginsPrimary at begins
      split at begins
      · rename_i same
        obtain ⟨opens, rfl⟩ := List.cons.inj same
        rw [Bool.not_eq_true'] at begins
        simp only [parseUnary, bind_apply, here_apply, token_apply, opens, unaryOf?, incDecOf?,
          atCast_of_not_type opens begins, Bool.false_eq_true, if_false, parseChain]
      · rename_i notOpen same
        obtain ⟨rfl, rfl⟩ := List.cons.inj same
        simp only [Bool.and_eq_true, Option.isNone_iff_eq_none] at begins
        have opens : isPunct .lparen first.token = false := by
          rw [← Bool.not_eq_true, isPunct_iff]
          exact notOpen
        simp only [parseUnary, bind_apply, here_apply, token_apply, begins,
          atCast_of_not_lparen opens, Bool.false_eq_true, if_false, parseChain]
      · cases begins

/-- What begins with no operator and no cast is read behind them. -/
theorem LeadsPostfixes.readsUnary (leads : LeadsPostfixes typeNames tokens expr)
    (begins : ∀ rest, beginsPrimary (tokens ++ rest) = true) (nonempty : 0 < tokens.length) :
    ReadsUnary typeNames tokens expr := by
  have reads : Reads typeNames parseChain 15 14 tokens expr :=
    leads.reads (Nat.le_refl 15) nonempty (fun _ ends => ends.isString_eq_false)
      (fun _ _ _ _ _ ends => parsePostfixes_of_ends ends)
  intro fuel lexemes next more before spelled ends enough
  obtain ⟨less, rfl⟩ := fuel_pos enough (by decide) nonempty
  obtain ⟨found, last, read, same⟩ :=
    reads less lexemes next more before spelled (ends.mono (by decide)) (by omega)
  refine ⟨found, last, ?_, same⟩
  rw [parseUnary_of_beginsPrimary, read]
  rw [List.map_append, spelled]
  exact begins _

theorem leadingWords_append {closing : Lexeme} (ends : isSpecifierWord closing.token = false)
    (rest : List Lexeme) (words : List TypeWord) (lexemes : List Lexeme)
    (spelled : lexemes.map Lexeme.token = words.map .typeWord) :
    leadingWords (lexemes ++ closing :: rest) = words := by
  induction words generalizing lexemes with
  | nil =>
      obtain rfl := List.map_eq_nil_iff.mp spelled
      rw [List.nil_append, leadingWords]
      split
      · rename_i found
        rw [found] at ends
        cases ends
      · rename_i found
        rw [found] at ends
        cases ends
      · rfl
  | cons word words ih =>
      obtain ⟨first, lexemes, rfl, named, restSpelled⟩ := List.map_eq_cons_iff.mp spelled
      simp only [List.cons_append, leadingWords, named, ih lexemes restSpelled]

private theorem skipWhile_words (typeNames : List String) {closing : Lexeme}
    (ends : isSpecifierWord closing.token = false)
    (rest : List Lexeme) (words : List TypeWord) (lexemes : List Lexeme) (before : Span)
    (spelled : lexemes.map Lexeme.token = words.map .typeWord) :
    ∃ last, skipWhile isSpecifierWord ⟨lexemes ++ closing :: rest, before, typeNames⟩ =
      .ok () ⟨closing :: rest, last, typeNames⟩ := by
  induction words generalizing lexemes before with
  | nil =>
      obtain rfl := List.map_eq_nil_iff.mp spelled
      exact ⟨before, skipWhile_of_not_test ends⟩
  | cons word words ih =>
      obtain ⟨first, lexemes, rfl, named, restSpelled⟩ := List.map_eq_cons_iff.mp spelled
      have passes : isSpecifierWord first.token = true := by
        rw [named]
        rfl
      obtain ⟨last, skipped⟩ := ih lexemes first.span restSpelled
      exact ⟨last, (skipWhile_of_test passes tail_ne_nil).trans skipped⟩

private theorem specifierOfWords?_words {spec : Specifier} (primitive : spec.words ≠ []) :
    specifierOfWords? spec.words = some spec ∧
      (spec.words.contains .signed && spec.words.contains .unsigned) = false := by
  cases spec
  case named | struct => exact absurd rfl primitive
  all_goals exact ⟨rfl, rfl⟩

private theorem parseSpecifier_words {spec : Specifier} (primitive : spec.words ≠ [])
    {closing : Lexeme}
    (closes : closing.token = .punct .rparen) {lexemes : List Lexeme}
    (spelled : lexemes.map Lexeme.token = spec.words.map .typeWord) (fuel : Nat)
    (rest : List Lexeme) (before : Span) :
    ∃ last, parseSpecifier (fuel + 1) ⟨lexemes ++ closing :: rest, before, typeNames⟩ =
      .ok spec ⟨closing :: rest, last, typeNames⟩ := by
  have ends : isSpecifierWord closing.token = false := by
    rw [closes]
    rfl
  obtain ⟨meant, unmixed⟩ := specifierOfWords?_words primitive
  have leading := leadingWords_append ends rest spec.words lexemes spelled
  obtain ⟨last, skipped⟩ :=
    skipWhile_words typeNames ends rest spec.words lexemes before spelled
  obtain ⟨word, words, split⟩ := List.exists_cons_of_ne_nil primitive
  rw [split, List.map_cons] at spelled
  obtain ⟨first, others, rfl, named, _⟩ := List.map_eq_cons_iff.mp spelled
  have unqualified : isKeyword .qualifier first.token = false := by
    rw [named]
    rfl
  refine ⟨last, ?_⟩
  rw [List.cons_append] at leading skipped ⊢
  simp only [parseSpecifier, skipQualifiers, bind_apply, skipWhile_of_not_test unqualified,
    here_apply, token_apply, named, parseWords, get_apply, leading, skipped, unmixed,
    Bool.false_eq_true, if_false, meant]
  rfl

/-- A known type in front of a parenthesis. -/
theorem parseSpecifier_tokens {spec : Specifier} (known : spec.isKnown typeNames = true)
    {closing : Lexeme} (closes : closing.token = .punct .rparen) {lexemes : List Lexeme}
    (spelled : lexemes.map Lexeme.token = spec.tokens) {fuel : Nat} (positive : 0 < fuel)
    (rest : List Lexeme) (before : Span) :
    ∃ last, parseSpecifier fuel ⟨lexemes ++ closing :: rest, before, typeNames⟩ =
      .ok spec ⟨closing :: rest, last, typeNames⟩ := by
  obtain ⟨less, rfl⟩ : ∃ less, fuel = less + 1 := ⟨fuel - 1, by omega⟩
  cases spec
  case named name =>
    obtain ⟨first, rfl, named⟩ := List.map_eq_singleton_iff.mp spelled
    have unqualified : isKeyword .qualifier first.token = false := by
      rw [named]
      rfl
    have ended : isKeyword .qualifier closing.token = false := by
      rw [closes]
      rfl
    have listed : typeNames.contains name = true := known
    refine ⟨first.span, ?_⟩
    simp only [List.cons_append, List.nil_append, parseSpecifier, skipQualifiers, bind_apply,
      skipWhile_of_not_test unqualified, here_apply, token_apply, named, isTypeName, get_apply,
      pure_apply, listed, if_true, advance_apply, skipWhile_of_not_test ended]
  case struct => cases known
  all_goals
    refine parseSpecifier_words ?_ closes spelled less rest before
    exact List.cons_ne_nil _ _

private theorem atCast_of_known {spec : Specifier} (known : spec.isKnown typeNames = true)
    {first closing : Lexeme} (opens : first.token = .punct .lparen)
    (closes : closing.token = .punct .rparen) {lexemes : List Lexeme}
    (spelled : lexemes.map Lexeme.token = spec.tokens) (rest : List Lexeme) (before : Span) :
    atCast ⟨first :: (lexemes ++ closing :: rest), before, typeNames⟩ =
      .ok true ⟨first :: (lexemes ++ closing :: rest), before, typeNames⟩ := by
  simp only [atCast, bind_apply, token_apply, isPunct_iff.mpr opens, Bool.not_true,
    Bool.false_eq_true, if_false, tokenAt_apply]
  cases spec
  case named name =>
    obtain ⟨word, rfl, named⟩ := List.map_eq_singleton_iff.mp spelled
    have listed : typeNames.contains name = true := known
    have second : State.tokenAt 1 ⟨first :: ([word] ++ closing :: rest), before, typeNames⟩ =
        .ident name := named
    have third : isPunct .rparen
        (State.tokenAt 2 ⟨first :: ([word] ++ closing :: rest), before, typeNames⟩) = true :=
      isPunct_iff.mpr closes
    simp only [second, bind_apply, isTypeName, get_apply, pure_apply, tokenAt_apply, third, listed,
      Bool.and_self]
  case struct => cases known
  all_goals
    obtain ⟨word, others, rfl, named, _⟩ := List.map_eq_cons_iff.mp spelled
    simp only [List.cons_append, State.tokenAt, List.getElem?_cons_succ, List.getElem?_cons_zero,
      named]
    rfl

theorem ReadsUnary.cast {operand : Expr} {spec : Specifier}
    (reads : ReadsUnary typeNames tokens operand) (known : spec.isKnown typeNames = true)
    (span : Span) :
    ReadsUnary typeNames (.punct .lparen :: (spec.tokens ++ .punct .rparen :: tokens))
      (.cast span spec operand) := by
  intro fuel lexemes next more before spelled ends enough
  obtain ⟨opening, lexemes, rfl, opens, behindSpelled⟩ := List.map_eq_cons_iff.mp spelled
  obtain ⟨words, lexemes, rfl, typeSpelled, restSpelled⟩ :=
    List.map_eq_append_iff.mp behindSpelled
  obtain ⟨closing, lexemes, rfl, closes, operandSpelled⟩ := List.map_eq_cons_iff.mp restSpelled
  obtain ⟨less, rfl⟩ := fuel_pos enough (by decide) (Nat.succ_pos _)
  simp only [List.length_cons, List.length_append] at enough
  obtain ⟨found, last, read, same⟩ :=
    reads less lexemes next more closing.span operandSpelled ends (by omega)
  obtain ⟨middle, specified⟩ :=
    parseSpecifier_tokens known closes typeSpelled (show 0 < less by omega)
      (lexemes ++ next :: more) opening.span
  have cast := atCast_of_known known opens closes typeSpelled (lexemes ++ next :: more) before
  refine ⟨.cast (opening.span.merge found.span) spec found, last, ?_, ?_⟩
  · simp only [List.cons_append, List.append_assoc, parseUnary, bind_apply, here_apply, token_apply,
      opens, unaryOf?, incDecOf?, cast, if_true, advance_append, specified,
      expectPunct_of_punct closes _ tail_ne_nil, read]
    rfl
  · simp only [unplaced, same]

/-! ### Operators between operands -/

theorem LeadsOperands.binary {index : Nat} (inside : index < 10) {left right : Expr}
    {leftTokens : List Token} {op : BinaryOp} (level : op.level = index + 3)
    (leads : LeadsOperands typeNames index leftTokens left)
    (reads : ReadsAt typeNames (index + 4) tokens right) (span : Span) :
    LeadsOperands typeNames index (leftTokens ++ .punct op.mark :: tokens)
      (.binary span op left right) := by
  refine leads.turn (by omega) ?_ ?_
  · exact ends_of_continues? (continues?_mark op) (by omega)
  · intro fuel mark lexemes next more before found marked spelled ends enough same
    obtain ⟨operand, last, read, alike⟩ :=
      reads fuel lexemes next more mark.span spelled ends (by omega)
    change parseBinary fuel (operatorLevels.drop (index + 1)) _ = _ at read
    have listed : operatorOf? (levelAt index) mark.token = some op := by
      rw [marked]
      exact lookup_levelAt_mark op index inside level
    refine ⟨.binary (found.span.merge operand.span) op found operand, last, ?_, ?_⟩
    · simp only [parseOperands, bind_apply, token_apply, listed, advance_append, read]
    · simp only [unplaced, same, alike]

theorem LeadsComma.comma {left right : Expr} {leftTokens : List Token}
    (leads : LeadsComma typeNames leftTokens left) (reads : ReadsAt typeNames 1 tokens right)
    (span : Span) :
    LeadsComma typeNames (leftTokens ++ .punct .comma :: tokens) (.comma span left right) := by
  refine leads.turn (by decide) (ends_of_continues? rfl Nat.zero_lt_one) ?_
  intro fuel comma lexemes next more before found separates spelled ends enough same
  obtain ⟨last, final, read, alike⟩ :=
    reads fuel lexemes next more comma.span spelled ends (by omega)
  change parseAssignment fuel _ = _ at read
  refine ⟨.comma (found.span.merge last.span) found last, final, ?_, ?_⟩
  · simp only [parseCommas, bind_apply, eat_of_punct separates tail_ne_nil, if_true, read]
  · simp only [unplaced, same, alike]

theorem readsAt_assign {target value : Expr} {targetTokens : List Token}
    (readsTarget : ReadsAt typeNames 2 targetTokens target)
    (readsValue : ReadsAt typeNames 1 tokens value) (span : Span) (op : Option BinaryOp) :
    ReadsAt typeNames 1 (targetTokens ++ assignToken op :: tokens)
      (.assign span op target value) := by
  intro fuel lexemes next more before spelled ends enough
  obtain ⟨front, lexemes, rfl, frontSpelled, restSpelled⟩ := List.map_eq_append_iff.mp spelled
  obtain ⟨mark, lexemes, rfl, marked, valueSpelled⟩ := List.map_eq_cons_iff.mp restSpelled
  simp only [List.length_append, List.length_cons] at enough
  obtain ⟨less, rfl⟩ : ∃ less, fuel = less + 1 := ⟨fuel - 1, by omega⟩
  obtain ⟨found, last, read, same⟩ :=
    readsTarget less front mark (lexemes ++ next :: more) before frontSpelled
      (marked ▸ ends_of_continues? (continues?_assignToken op) (by decide)) (by omega)
  obtain ⟨stored, final, readRest, alike⟩ :=
    readsValue less lexemes next more mark.span valueSpelled ends (by omega)
  change parseConditional less _ = _ at read
  change parseAssignment less _ = _ at readRest
  refine ⟨.assign (found.span.merge stored.span) op found stored, final, ?_, ?_⟩
  · change parseAssignment (less + 1) _ = _
    simp only [List.append_assoc, List.cons_append, parseAssignment, bind_apply, read, token_apply,
      marked, assignmentOf?_assignToken, advance_append, readRest]
    rfl
  · simp only [unplaced, same, alike]

theorem readsAt_conditional {cond yes no : Expr} {condTokens yesTokens : List Token}
    (readsCond : ReadsAt typeNames 3 condTokens cond) (readsYes : ReadsAt typeNames 0 yesTokens yes)
    (readsNo : ReadsAt typeNames 2 tokens no) (span : Span) :
    ReadsAt typeNames 2
      (condTokens ++ .punct .question :: (yesTokens ++ .punct .colon :: tokens))
      (.conditional span cond yes no) := by
  intro fuel lexemes next more before spelled ends enough
  obtain ⟨front, lexemes, rfl, frontSpelled, restSpelled⟩ := List.map_eq_append_iff.mp spelled
  obtain ⟨question, lexemes, rfl, asks, partsSpelled⟩ := List.map_eq_cons_iff.mp restSpelled
  obtain ⟨middle, lexemes, rfl, yesSpelled, lastSpelled⟩ := List.map_eq_append_iff.mp partsSpelled
  obtain ⟨colon, lexemes, rfl, divides, noSpelled⟩ := List.map_eq_cons_iff.mp lastSpelled
  simp only [List.length_append, List.length_cons] at enough
  obtain ⟨less, rfl⟩ : ∃ less, fuel = less + 1 := ⟨fuel - 1, by omega⟩
  obtain ⟨tested, _, readTest, sameTest⟩ :=
    readsCond less front question (middle ++ colon :: (lexemes ++ next :: more)) before
      frontSpelled (asks ▸ ends_of_continues? rfl (by decide)) (by omega)
  obtain ⟨first, _, readFirst, sameFirst⟩ :=
    readsYes less middle colon (lexemes ++ next :: more) question.span yesSpelled
      (divides ▸ ends_of_none rfl 0) (by omega)
  obtain ⟨second, last, readSecond, sameSecond⟩ :=
    readsNo less lexemes next more colon.span noSpelled ends (by omega)
  change parseBinary less operatorLevels _ = _ at readTest
  change parseExpr less _ = _ at readFirst
  change parseConditional less _ = _ at readSecond
  refine ⟨.conditional (tested.span.merge second.span) tested first second, last, ?_, ?_⟩
  · change parseConditional (less + 1) _ = _
    simp only [List.append_assoc, List.cons_append, parseConditional, bind_apply, readTest,
      eat_of_punct asks tail_ne_nil, if_true, readFirst,
      expectPunct_of_punct divides _ tail_ne_nil, readSecond]
    rfl
  · simp only [unplaced, sameTest, sameFirst, sameSecond]

end Forms

end Parser
end MiniC
