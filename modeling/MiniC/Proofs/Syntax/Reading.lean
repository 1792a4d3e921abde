import MiniC.Syntax.Parser.Expr
import MiniC.Proofs.Syntax.Printer

/-!
What the expression parser makes of a list of tokens.

A parser of some level reads tokens as an expression if it does so wherever they
stand before a token that does not go on with an expression of that level. The
levels with a loop (the comma, the binary operators, and what follows a primary
expression) are described in front of the loop: there the next token may go on.
-/

namespace MiniC.Parser

section Steps

variable {α β : Type} {current next : Lexeme} {lexemes rest : List Lexeme}
  {before : Span} {typeNames : List String} {test : Token → Bool}

theorem bind_apply (first : Parser α) (second : α → Parser β) (state : State) :
    (first >>= second) state =
      match first state with
      | .ok value after => second value after
      | .error stop after => .error stop after := by
  change EStateM.bind first second state = _
  unfold EStateM.bind
  cases first state <;> rfl

theorem pure_apply (value : α) (state : State) :
    (pure value : Parser α) state = .ok value state :=
  rfl

theorem get_apply (state : State) : (get : Parser State) state = .ok state state :=
  rfl

theorem token_state (state : State) : token state = .ok state.token state :=
  rfl

theorem token_apply :
    token ⟨current :: rest, before, typeNames⟩ =
      .ok current.token ⟨current :: rest, before, typeNames⟩ :=
  rfl

theorem here_apply :
    here ⟨current :: rest, before, typeNames⟩ =
      .ok current.span ⟨current :: rest, before, typeNames⟩ :=
  rfl

theorem previous_apply (state : State) : previous state = .ok state.previous state :=
  rfl

theorem tail_ne_nil : lexemes ++ next :: rest ≠ [] :=
  List.append_ne_nil_of_right_ne_nil _ (List.cons_ne_nil _ _)

/-- Past a token that is not the last one. -/
theorem advance_of_ne_nil (more : rest ≠ []) :
    advance ⟨current :: rest, before, typeNames⟩ = .ok () ⟨rest, current.span, typeNames⟩ := by
  cases rest with
  | nil => exact absurd rfl more
  | cons next rest => rfl

theorem advance_apply :
    advance ⟨current :: next :: rest, before, typeNames⟩ =
      .ok () ⟨next :: rest, current.span, typeNames⟩ :=
  rfl

theorem advance_append :
    advance ⟨current :: (lexemes ++ next :: rest), before, typeNames⟩ =
      .ok () ⟨lexemes ++ next :: rest, current.span, typeNames⟩ :=
  advance_of_ne_nil tail_ne_nil

private theorem eat_of_test (passes : test current.token = true) (more : rest ≠ []) :
    eat test ⟨current :: rest, before, typeNames⟩ =
      .ok true ⟨rest, current.span, typeNames⟩ := by
  simp only [eat, bind_apply, token_apply, passes, if_true, advance_of_ne_nil more]
  rfl

theorem eat_of_not_test (fails : test current.token = false) :
    eat test ⟨current :: rest, before, typeNames⟩ =
      .ok false ⟨current :: rest, before, typeNames⟩ := by
  simp only [eat, bind_apply, token_apply, fails]
  rfl

private theorem expect_of_test (passes : test current.token = true) (what : String)
    (more : rest ≠ []) :
    expect test what ⟨current :: rest, before, typeNames⟩ =
      .ok current.span ⟨rest, current.span, typeNames⟩ := by
  simp only [expect, bind_apply, token_apply, here_apply, passes, if_true, advance_of_ne_nil more]
  rfl

theorem expectIdent_of_ident {name : String} (named : current.token = .ident name) :
    expectIdent ⟨current :: next :: rest, before, typeNames⟩ =
      .ok (name, current.span) ⟨next :: rest, current.span, typeNames⟩ := by
  simp only [expectIdent, bind_apply, here_apply, token_apply, named, advance_apply]
  rfl

theorem skipWhile_of_not_test (fails : test current.token = false) :
    skipWhile test ⟨current :: rest, before, typeNames⟩ =
      .ok () ⟨current :: rest, before, typeNames⟩ := by
  have same : skipTokens test before (current :: rest) = (before, current :: rest) := by
    cases rest with
    | nil => rfl
    | cons next rest => simp only [skipTokens, fails, Bool.false_eq_true, if_false]
  change EStateM.Result.ok () (State.skipWhile test _) = _
  simp only [State.skipWhile, same]

theorem skipWhile_of_test (passes : test current.token = true) (more : rest ≠ []) :
    skipWhile test ⟨current :: rest, before, typeNames⟩ =
      skipWhile test ⟨rest, current.span, typeNames⟩ := by
  cases rest with
  | nil => exact absurd rfl more
  | cons next rest =>
      change EStateM.Result.ok () (State.skipWhile test _) =
        EStateM.Result.ok () (State.skipWhile test _)
      simp only [State.skipWhile, skipTokens, passes, if_true]

theorem isPunct_iff {mark : Punct} {token : Token} :
    isPunct mark token = true ↔ token = .punct mark := by
  cases token with
  | punct found => simp only [isPunct, decide_eq_true_eq, Token.punct.injEq]
  | _ => simp only [isPunct, Bool.false_eq_true, reduceCtorEq]

theorem eat_of_punct {mark : Punct} (found : current.token = .punct mark) (more : rest ≠ []) :
    eat (isPunct mark) ⟨current :: rest, before, typeNames⟩ =
      .ok true ⟨rest, current.span, typeNames⟩ :=
  eat_of_test (isPunct_iff.mpr found) more

theorem expectPunct_of_punct {mark : Punct} (found : current.token = .punct mark) (what : String)
    (more : rest ≠ []) :
    expectPunct mark what ⟨current :: rest, before, typeNames⟩ =
      .ok current.span ⟨rest, current.span, typeNames⟩ :=
  expect_of_test (isPunct_iff.mpr found) what more

end Steps

/-- The level at which a token goes on with the expression in front of it. -/
def continues? : Token → Option Nat
  | .punct .comma => some 0
  | .punct .assign | .opAssign _ => some 1
  | .punct .question => some 2
  | .punct .orOr => some 3
  | .punct .andAnd => some 4
  | .punct .pipe => some 5
  | .punct .caret => some 6
  | .punct .amp => some 7
  | .punct .eqEq | .punct .ne => some 8
  | .punct .lt | .punct .le | .punct .gt | .punct .ge => some 9
  | .punct .shl | .punct .shr => some 10
  | .punct .plus | .punct .minus => some 11
  | .punct .star | .punct .slash | .punct .percent => some 12
  | .punct .lbracket | .punct .dot | .punct .lparen | .punct .plusPlus | .punct .minusMinus
  | .string _ => some 14
  | _ => none

def Ends (level : Nat) (token : Token) : Prop :=
  ∀ other, continues? token = some other → other < level

theorem Ends.mono {low high : Nat} {token : Token} (ends : Ends low token) (le : low ≤ high) :
    Ends high token :=
  fun other found => Nat.lt_of_lt_of_le (ends other found) le

theorem ends_of_continues? {level other : Nat} {token : Token}
    (found : continues? token = some other) (less : other < level) : Ends level token := by
  intro another also
  rw [found] at also
  cases also
  exact less

theorem ends_of_none {token : Token} (nothing : continues? token = none) (level : Nat) :
    Ends level token := by
  intro other found
  rw [nothing] at found
  cases found

theorem Ends.not_continues {level : Nat} {token : Token} (ends : Ends level token) :
    continues? token ≠ some level :=
  fun found => Nat.lt_irrefl level (ends level found)

theorem continues?_mark (op : BinaryOp) : continues? (.punct op.mark) = some op.level := by
  cases op <;> rfl

theorem continues?_assignToken (op : Option BinaryOp) : continues? (assignToken op) = some 1 := by
  cases op <;> rfl

theorem assignmentOf?_assignToken (op : Option BinaryOp) :
    assignmentOf? (assignToken op) = some op := by
  cases op <;> rfl

/-- A mark that goes on with a level does not end it. -/
theorem Ends.isPunct_eq_false {level : Nat} {mark : Punct} {token : Token} (ends : Ends level token)
    (goesOn : continues? (.punct mark) = some level) : isPunct mark token = false := by
  rw [← Bool.not_eq_true, isPunct_iff]
  rintro rfl
  exact ends.not_continues goesOn

private theorem Ends.assignmentOf?_eq_none {token : Token} (ends : Ends 1 token) :
    assignmentOf? token = none := by
  unfold assignmentOf?
  split
  · exact absurd rfl ends.not_continues
  · exact absurd rfl ends.not_continues
  · rfl

theorem Ends.isString_eq_false {token : Token} (ends : Ends 14 token) : isString token = false := by
  unfold isString
  split
  · exact absurd rfl ends.not_continues
  · rfl

def levelAt (index : Nat) : List (Punct × BinaryOp) := operatorLevels.getD index []

private theorem drop_operatorLevels {index : Nat} (inside : index < 10) :
    operatorLevels.drop index = levelAt index :: operatorLevels.drop (index + 1) := by
  have bound : index < operatorLevels.length := inside
  rw [List.drop_eq_getElem_cons bound, levelAt, List.getD_eq_getElem?_getD,
    List.getElem?_eq_getElem bound, Option.getD_some]

theorem lookup_levelAt_mark (op : BinaryOp) :
    ∀ index, index < 10 → op.level = index + 3 → (levelAt index).lookup op.mark = some op := by
  cases op <;> decide

private theorem level_of_lookup (mark : Punct) : ∀ index, index < 10 →
    ((levelAt index).lookup mark).all (fun op => op.mark = mark ∧ op.level = index + 3) = true := by
  cases mark <;> decide

private theorem Ends.operatorOf?_eq_none {index : Nat} {token : Token}
    (ends : Ends (index + 3) token)
    (inside : index < 10) : operatorOf? (levelAt index) token = none := by
  cases token with
  | punct mark =>
      cases found : (levelAt index).lookup mark with
      | none => exact found
      | some op =>
          have listed := level_of_lookup mark index inside
          rw [found, Option.all_some, decide_eq_true_eq] at listed
          have goesOn := continues?_mark op
          rw [listed.1, listed.2] at goesOn
          exact absurd goesOn ends.not_continues
  | _ => rfl

/-! ### Reading -/

def parserAt : Nat → Nat → Parser Expr
  | 0, fuel => parseExpr fuel
  | 1, fuel => parseAssignment fuel
  | 2, fuel => parseConditional fuel
  | index + 3, fuel => parseBinary fuel (operatorLevels.drop index)

def parseChain (fuel : Nat) : Parser Expr := parsePrimary fuel >>= parsePostfixes fuel

section Reading

variable (typeNames : List String)

/-- Before every token that ends the level, the parser reads the tokens, and nothing else, as the
expression. Nested parsers that take no token are fewer than twenty; `spare` counts those already
passed. -/
def Reads (parser : Nat → Parser Expr) (spare level : Nat) (tokens : List Token) (expr : Expr) :
    Prop :=
  ∀ (fuel : Nat) (lexemes : List Lexeme) (next : Lexeme) (more : List Lexeme) (before : Span),
    lexemes.map Lexeme.token = tokens → Ends level next.token →
    20 * tokens.length ≤ fuel + spare →
    ∃ found last,
      parser fuel ⟨lexemes ++ next :: more, before, typeNames⟩ =
        .ok found ⟨next :: more, last, typeNames⟩ ∧
      found.unplaced = expr.unplaced

/-- The parser reads the tokens as the expression and is then in its loop, before any token that may
follow there. -/
def Leads (parser : Nat → Parser Expr) (loop : Nat → Expr → Parser Expr) (follows : Token → Prop)
    (spare : Nat) (tokens : List Token) (expr : Expr) : Prop :=
  ∀ (fuel : Nat) (lexemes : List Lexeme) (next : Lexeme) (more : List Lexeme) (before : Span),
    lexemes.map Lexeme.token = tokens → follows next.token →
    20 * tokens.length ≤ fuel + spare →
    ∃ found last left,
      parser fuel ⟨lexemes ++ next :: more, before, typeNames⟩ =
        loop left found ⟨next :: more, last, typeNames⟩ ∧
      found.unplaced = expr.unplaced ∧ fuel ≤ left + tokens.length

/-- Reading at a level, with the fuel that its parser is left with. -/
abbrev ReadsAt (level : Nat) (tokens : List Token) (expr : Expr) : Prop :=
  Reads typeNames (parserAt level) level level tokens expr

abbrev LeadsComma (tokens : List Token) (expr : Expr) : Prop :=
  Leads typeNames parseExpr parseCommas (Ends 1) 0 tokens expr

abbrev LeadsOperands (index : Nat) (tokens : List Token) (expr : Expr) : Prop :=
  Leads typeNames (parserAt (index + 3))
    (fun left => parseOperands left (levelAt index) (operatorLevels.drop (index + 1)))
    (Ends (index + 4)) (index + 3) tokens expr

abbrev LeadsPostfixes (tokens : List Token) (expr : Expr) : Prop :=
  Leads typeNames parseChain parsePostfixes (isString · = false) 15 tokens expr

end Reading

section Levels

variable {typeNames : List String} {tokens : List Token} {expr : Expr}

/-- A loop that stops at a token that ends its level makes reading of leading. -/
theorem Leads.reads {parser : Nat → Parser Expr} {loop : Nat → Expr → Parser Expr}
    {follows : Token → Prop} {spare level : Nat}
    (leads : Leads typeNames parser loop follows spare tokens expr) (small : spare ≤ 15)
    (nonempty : 0 < tokens.length) (wider : ∀ token, Ends level token → follows token)
    (stops : ∀ (left : Nat) (found : Expr) (next : Lexeme) (more : List Lexeme) (before : Span),
      Ends level next.token →
      loop (left + 1) found ⟨next :: more, before, typeNames⟩ =
        .ok found ⟨next :: more, before, typeNames⟩) :
    Reads typeNames parser spare level tokens expr := by
  intro fuel lexemes next more before spelled ends enough
  obtain ⟨found, last, left, led, same, bound⟩ :=
    leads fuel lexemes next more before spelled (wider _ ends) enough
  obtain ⟨rest, rfl⟩ : ∃ rest, left = rest + 1 := ⟨left - 1, by omega⟩
  exact ⟨found, last, led.trans (stops rest found next more last ends), same⟩

theorem fuel_pos {fuel spare : Nat} (enough : 20 * tokens.length ≤ fuel + spare)
    (small : spare ≤ 15) (nonempty : 0 < tokens.length) : ∃ less, fuel = less + 1 := by
  exact ⟨fuel - 1, by omega⟩

/-- One more turn of the loop, which begins at the mark. -/
theorem Leads.turn {parser : Nat → Parser Expr} {loop : Nat → Expr → Parser Expr}
    {follows : Token → Prop} {spare : Nat} {behind : List Token} {whole : Expr} {mark : Token}
    (leads : Leads typeNames parser loop follows spare tokens expr) (small : spare ≤ 15)
    (marked : follows mark)
    (turns : ∀ (fuel : Nat) (first : Lexeme) (lexemes : List Lexeme) (next : Lexeme)
      (more : List Lexeme) (before : Span) (found : Expr), first.token = mark →
      lexemes.map Lexeme.token = behind → follows next.token → 20 * behind.length ≤ fuel →
      found.unplaced = expr.unplaced →
      ∃ later last,
        loop (fuel + 1) found ⟨first :: (lexemes ++ next :: more), before, typeNames⟩ =
          loop fuel later ⟨next :: more, last, typeNames⟩ ∧
        later.unplaced = whole.unplaced) :
    Leads typeNames parser loop follows spare (tokens ++ mark :: behind) whole := by
  intro fuel lexemes next more before spelled ends enough
  obtain ⟨front, lexemes, rfl, frontSpelled, restSpelled⟩ := List.map_eq_append_iff.mp spelled
  obtain ⟨first, lexemes, rfl, begun, behindSpelled⟩ := List.map_eq_cons_iff.mp restSpelled
  simp only [List.length_append, List.length_cons] at enough ⊢
  obtain ⟨found, last, left, led, same, bound⟩ :=
    leads fuel front first (lexemes ++ next :: more) before frontSpelled (begun ▸ marked)
      (by omega)
  obtain ⟨less, rfl⟩ : ∃ less, left = less + 1 := ⟨left - 1, by omega⟩
  obtain ⟨later, final, turned, alike⟩ :=
    turns less first lexemes next more last found begun behindSpelled ends (by omega) same
  refine ⟨later, final, less, ?_, alike, by omega⟩
  rw [List.append_assoc, List.cons_append, led, turned]

theorem ReadsAt.leadsComma (reads : ReadsAt typeNames 1 tokens expr) (nonempty : 0 < tokens.length) :
    LeadsComma typeNames tokens expr := by
  intro fuel lexemes next more before spelled ends enough
  obtain ⟨less, rfl⟩ := fuel_pos enough (by omega) nonempty
  obtain ⟨found, last, read, same⟩ :=
    reads less lexemes next more before spelled ends (by omega)
  refine ⟨found, last, less, ?_, same, ?_⟩
  · change parseAssignment less _ = _ at read
    simp only [parseExpr, bind_apply, read]
  · omega

theorem LeadsComma.reads (leads : LeadsComma typeNames tokens expr) (nonempty : 0 < tokens.length) :
    ReadsAt typeNames 0 tokens expr := by
  refine Leads.reads leads (by omega) nonempty (fun _ ends => ends.mono (by omega)) ?_
  intro left found next more before ends
  rw [parseCommas, bind_apply, eat_of_not_test (ends.isPunct_eq_false rfl)]
  rfl

theorem ReadsAt.assignment (reads : ReadsAt typeNames 2 tokens expr) (nonempty : 0 < tokens.length) :
    ReadsAt typeNames 1 tokens expr := by
  intro fuel lexemes next more before spelled ends enough
  obtain ⟨less, rfl⟩ := fuel_pos enough (by omega) nonempty
  obtain ⟨found, last, read, same⟩ :=
    reads less lexemes next more before spelled (ends.mono (by omega)) (by omega)
  refine ⟨found, last, ?_, same⟩
  change parseConditional less _ = _ at read
  change parseAssignment (less + 1) _ = _
  simp only [parseAssignment, bind_apply, read, token_apply, ends.assignmentOf?_eq_none]
  rfl

theorem ReadsAt.conditional (reads : ReadsAt typeNames 3 tokens expr) (nonempty : 0 < tokens.length) :
    ReadsAt typeNames 2 tokens expr := by
  intro fuel lexemes next more before spelled ends enough
  obtain ⟨less, rfl⟩ := fuel_pos enough (by omega) nonempty
  obtain ⟨found, last, read, same⟩ :=
    reads less lexemes next more before spelled (ends.mono (by omega)) (by omega)
  refine ⟨found, last, ?_, same⟩
  change parseBinary less operatorLevels _ = _ at read
  change parseConditional (less + 1) _ = _
  have fails : isPunct .question next.token = false := ends.isPunct_eq_false rfl
  simp only [parseConditional, bind_apply, read, eat_of_not_test fails]
  rfl

theorem ReadsAt.leadsOperands {index : Nat} (reads : ReadsAt typeNames (index + 4) tokens expr)
    (inside : index < 10) (nonempty : 0 < tokens.length) :
    LeadsOperands typeNames index tokens expr := by
  intro fuel lexemes next more before spelled ends enough
  obtain ⟨less, rfl⟩ := fuel_pos enough (by omega) nonempty
  obtain ⟨found, last, read, same⟩ :=
    reads less lexemes next more before spelled ends (by omega)
  refine ⟨found, last, less, ?_, same, ?_⟩
  · change parseBinary less (operatorLevels.drop (index + 1)) _ = _ at read
    change parseBinary (less + 1) (operatorLevels.drop index) _ = _
    simp only [drop_operatorLevels inside, parseBinary, bind_apply, read]
  · omega

theorem LeadsOperands.reads {index : Nat} (leads : LeadsOperands typeNames index tokens expr)
    (inside : index < 10) (nonempty : 0 < tokens.length) :
    ReadsAt typeNames (index + 3) tokens expr := by
  refine Leads.reads leads (by omega) nonempty (fun _ ends => ends.mono (by omega)) ?_
  intro left found next more before ends
  simp only [parseOperands, bind_apply, token_apply, ends.operatorOf?_eq_none inside]
  rfl

/-- What is read at a level is read at every looser one. -/
theorem ReadsAt.looser {high : Nat} (reads : ReadsAt typeNames high tokens expr)
    (nonempty : 0 < tokens.length) (bound : high ≤ 13) :
    ∀ low, low ≤ high → ReadsAt typeNames low tokens expr := by
  induction high with
  | zero =>
      intro low le
      obtain rfl := Nat.le_zero.mp le
      exact reads
  | succ high ih =>
      have next : ReadsAt typeNames high tokens expr := by
        match high with
        | 0 => exact (reads.leadsComma nonempty).reads nonempty
        | 1 => exact reads.assignment nonempty
        | 2 => exact reads.conditional nonempty
        | index + 3 =>
            exact (reads.leadsOperands (by omega) nonempty).reads (by omega) nonempty
      intro low le
      rcases Nat.le_succ_iff.mp le with lower | rfl
      · exact ih next (by omega) low lower
      · exact reads

end Levels

end MiniC.Parser
