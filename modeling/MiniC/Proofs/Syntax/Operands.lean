import MiniC.Proofs.Syntax.Reading

/-!
How primary expressions are read, and what may follow them.

The tokens of an expression never begin like a type that is closed at once, so no
parenthesis around one is taken for a cast. A primary expression leads the parser
into the loop over subscripts, fields, calls and steps, and each of these is one
more turn of that loop.
-/

namespace MiniC

open MiniC.Expr

namespace Parser

def beginsType : List Token → Bool
  | .keyword .qualifier :: _ => true
  | .ident _ :: rest => rest.head?.any (isPunct .rparen)
  | first :: _ => first.startsType
  | [] => false

def beginsPrimary : List Token → Bool
  | .punct .lparen :: rest => !beginsType rest
  | first :: _ => (unaryOf? first).isNone && (incDecOf? first).isNone
  | [] => false

/-- Some token comes first, and it closes no parenthesis. -/
def unclosed : List Token → Bool
  | [] => false
  | first :: _ => !isPunct .rparen first

/-- How the tokens of an expression of a level begin, whatever follows them. -/
structure Begins (level : Nat) (tokens : List Token) : Prop where
  unclosed : ∀ rest, unclosed (tokens ++ rest) = true
  noType : ∀ rest, level < 14 ∨ Parser.unclosed rest = true → beginsType (tokens ++ rest) = false
  primary : 14 ≤ level → ∀ rest, beginsPrimary (tokens ++ rest) = true

/-- A form begins as the part that it begins with. -/
theorem Begins.behind {asked inner outer : Nat} {tokens behind : List Token} {mark : Token}
    (begins : Begins inner tokens) (stays : isPunct .rparen mark = false)
    (tight : outer < 14 ∨ asked = 14) :
    Begins outer (enclosed asked inner tokens ++ mark :: behind) := by
  have follows (rest : List Token) : Parser.unclosed (mark :: behind ++ rest) = true := by
    simp only [List.cons_append, Parser.unclosed, stays, Bool.not_false]
  unfold enclosed
  split
  · rename_i looser
    refine ⟨fun _ => rfl, fun _ _ => rfl, ?_⟩
    intro bound rest
    have inside : inner < 14 := by omega
    have noType := begins.noType (.punct .rparen :: (mark :: behind ++ rest)) (Or.inl inside)
    simp only [List.cons_append, List.append_assoc, List.nil_append, beginsPrimary,
      Bool.not_eq_true'] at noType ⊢
    exact noType
  · rename_i notLooser
    refine ⟨?_, ?_, ?_⟩
    · intro rest
      rw [List.append_assoc]
      exact begins.unclosed _
    · intro rest _
      rw [List.append_assoc]
      exact begins.noType _ (Or.inr (follows rest))
    · intro bound rest
      rw [List.append_assoc]
      exact begins.primary (by omega) _

/-- A form begins with a token of its own. -/
theorem begins_of_token {level : Nat} {first : Token} {tokens : List Token}
    (stays : isPunct .rparen first = false) (noType : ∀ rest, beginsType (first :: rest) = false)
    (primary : 14 ≤ level → ∀ rest, beginsPrimary (first :: rest) = true) :
    Begins level (first :: tokens) where
  unclosed := by
    intro rest
    simp only [List.cons_append, Parser.unclosed, stays, Bool.not_false]
  noType := fun _ _ => noType _
  primary := fun bound _ => primary bound _

theorem begins_tokens : ∀ expr : Expr, Begins expr.level expr.tokens
  | .int _ _ | .float _ _ _ | .char _ _ | .str _ _ | .bool _ true | .bool _ false =>
      begins_of_token rfl (fun _ => rfl) (fun _ _ => rfl)
  | .ident _ name =>
      { unclosed := fun _ => rfl
        noType := by
          intro rest follows
          rcases follows with loose | follows
          · exact absurd loose (Nat.lt_irrefl 14)
          · cases rest with
            | nil => rfl
            | cons first rest =>
                rw [Parser.unclosed, Bool.not_eq_true'] at follows
                exact follows
        primary := fun _ _ => rfl }
  | .call _ _ _ _ =>
      { unclosed := fun _ => rfl
        noType := fun _ _ => rfl
        primary := fun _ _ => rfl }
  | .unary _ op _ => by
      refine begins_of_token ?_ ?_ (fun bound => absurd bound (by decide : ¬ 14 ≤ 13))
      · cases op <;> rfl
      · cases op <;> exact fun _ => rfl
  | .incDec _ increment true _ => by
      refine begins_of_token ?_ ?_ (fun bound => absurd bound (by decide : ¬ 14 ≤ 13))
      · cases increment <;> rfl
      · cases increment <;> exact fun _ => rfl
  | .cast _ _ _ =>
      begins_of_token rfl (fun _ => rfl) (fun bound => absurd bound (by decide : ¬ 14 ≤ 13))
  | .binary _ op left _ => by
      refine (begins_tokens left).behind ?_ (Or.inl ?_)
      · cases op <;> rfl
      · exact Nat.lt_of_le_of_lt op.level_le (by decide)
  | .assign _ op target _ => by
      refine (begins_tokens target).behind ?_ (Or.inl (by decide : 1 < 14))
      cases op <;> rfl
  | .incDec _ increment false operand => by
      refine (begins_tokens operand).behind ?_ (Or.inr rfl)
      cases increment <;> rfl
  | .subscript _ base _ => (begins_tokens base).behind rfl (Or.inr rfl)
  | .field _ owner _ => (begins_tokens owner).behind rfl (Or.inr rfl)
  | .conditional _ cond _ _ => (begins_tokens cond).behind rfl (Or.inl (by decide : 2 < 14))
  | .comma _ left _ => (begins_tokens left).behind rfl (Or.inl (by decide : 0 < 14))
termination_by structural expr => expr

private theorem unclosed_tokensAt (asked : Nat) (expr : Expr) (rest : List Token) :
    unclosed (expr.tokensAt asked ++ rest) = true := by
  unfold tokensAt enclosed
  split
  · rfl
  · exact (begins_tokens expr).unclosed rest

theorem length_tokensAt_pos (asked : Nat) (expr : Expr) : 0 < (expr.tokensAt asked).length := by
  have begun := unclosed_tokensAt asked expr []
  rw [List.append_nil] at begun
  cases same : expr.tokensAt asked with
  | nil =>
      rw [same] at begun
      cases begun
  | cons first rest => exact Nat.succ_pos _

/-! ### Primary expressions -/

section Forms

variable {typeNames : List String} {tokens : List Token} {expr : Expr}

/-- What `parsePrimary` reads leads to the loop behind it. -/
theorem leadsPostfixes_of_primary
    (reads : ∀ (fuel : Nat) (lexemes : List Lexeme) (next : Lexeme) (more : List Lexeme)
      (before : Span), lexemes.map Lexeme.token = tokens → isString next.token = false →
      20 * tokens.length ≤ fuel + 15 →
      ∃ found last,
        parsePrimary fuel ⟨lexemes ++ next :: more, before, typeNames⟩ =
          .ok found ⟨next :: more, last, typeNames⟩ ∧
        found.unplaced = expr.unplaced) :
    LeadsPostfixes typeNames tokens expr := by
  intro fuel lexemes next more before spelled follows enough
  obtain ⟨found, last, read, same⟩ := reads fuel lexemes next more before spelled follows enough
  refine ⟨found, last, fuel, ?_, same, Nat.le_add_right _ _⟩
  rw [parseChain, bind_apply, read]

/-- A primary expression of one token. -/
theorem leadsPostfixes_of_token {token : Token} (value : Span → Expr)
    (reads : ∀ (fuel : Nat) (current next : Lexeme) (more : List Lexeme) (before : Span),
      current.token = token → isString next.token = false →
      parsePrimary (fuel + 1) ⟨current :: next :: more, before, typeNames⟩ =
        .ok (value current.span) ⟨next :: more, current.span, typeNames⟩)
    (same : ∀ span, (value span).unplaced = expr.unplaced) :
    LeadsPostfixes typeNames [token] expr := by
  refine leadsPostfixes_of_primary ?_
  intro fuel lexemes next more before spelled follows enough
  obtain ⟨current, rfl, named⟩ := List.map_eq_singleton_iff.mp spelled
  obtain ⟨less, rfl⟩ := fuel_pos enough (Nat.le_refl 15) Nat.zero_lt_one
  exact ⟨value current.span, current.span, reads less current next more before named follows,
    same current.span⟩

def atomOf? : Token → Option (Span → Expr)
  | .int literal => some (.int · literal)
  | .float value single => some (.float · value single)
  | .char code => some (.char · code)
  | .keyword .trueWord => some (.bool · true)
  | .keyword .falseWord => some (.bool · false)
  | .ident name => some (.ident · name)
  | _ => none

private theorem parsePrimary_of_atomOf? {fuel : Nat} {current next : Lexeme} {more : List Lexeme}
    {before : Span} {value : Span → Expr} (found : atomOf? current.token = some value) :
    parsePrimary (fuel + 1) ⟨current :: next :: more, before, typeNames⟩ =
      .ok (value current.span) ⟨next :: more, current.span, typeNames⟩ := by
  unfold atomOf? at found
  split at found
  case h_7 => cases found
  all_goals
    rename_i named
    cases found
    simp only [parsePrimary, bind_apply, here_apply, token_apply, named, advance_apply]
    rfl

theorem leadsPostfixes_atom {token : Token} {value : Span → Expr}
    (found : atomOf? token = some value) (same : ∀ span, (value span).unplaced = expr.unplaced) :
    LeadsPostfixes typeNames [token] expr := by
  refine leadsPostfixes_of_token value ?_ same
  intro fuel current next more before named _
  exact parsePrimary_of_atomOf? (named ▸ found)

theorem leadsPostfixes_str (span : Span) (text : String) :
    LeadsPostfixes typeNames [.string text] (.str span text) := by
  refine leadsPostfixes_of_token (fun place => .str (place.merge place) text) ?_ (fun _ => rfl)
  intro fuel current next more before named follows
  have joined : joinStrings (current :: next :: more) = text := by
    have nothing : joinStrings (next :: more) = "" := by
      unfold joinStrings
      split
      · rename_i found
        rw [found] at follows
        cases follows
      · rfl
    simp only [joinStrings.eq_2, named, nothing, String.append_empty]
  have passes : isString current.token = true := by
    rw [named]
    rfl
  simp only [parsePrimary, bind_apply, here_apply, token_apply, named, get_apply, joined,
    skipWhile_of_test passes (List.cons_ne_nil next more), skipWhile_of_not_test follows,
    previous_apply]
  rfl

theorem leadsPostfixes_parens (reads : ReadsAt typeNames 0 tokens expr) :
    LeadsPostfixes typeNames (.punct .lparen :: (tokens ++ [.punct .rparen])) expr := by
  refine leadsPostfixes_of_primary ?_
  intro fuel lexemes next more before spelled _ enough
  obtain ⟨opening, lexemes, rfl, opens, spelled⟩ := List.map_eq_cons_iff.mp spelled
  obtain ⟨inner, lexemes, rfl, innerSpelled, closed⟩ := List.map_eq_append_iff.mp spelled
  obtain ⟨closing, rfl, closes⟩ := List.map_eq_singleton_iff.mp closed
  obtain ⟨less, rfl⟩ := fuel_pos enough (Nat.le_refl 15) (Nat.succ_pos _)
  simp only [List.length_cons, List.length_append, List.length_nil] at enough
  obtain ⟨found, last, read, same⟩ :=
    reads less inner closing (next :: more) opening.span innerSpelled
      (closes ▸ ends_of_none rfl 0) (by omega)
  change parseExpr less _ = _ at read
  refine ⟨found.withSpan (opening.span.merge closing.span), closing.span, ?_,
    (unplaced_withSpan _ _).trans same⟩
  simp only [List.cons_append, List.append_assoc, List.nil_append, parsePrimary, bind_apply,
    here_apply, token_apply, opens, advance_append, read,
    expectPunct_of_punct closes _ (List.cons_ne_nil next more)]
  rfl

/-- The loop behind a primary expression stops at a token that ends it. -/
theorem parsePostfixes_of_ends {left : Nat} {found : Expr} {next : Lexeme} {more : List Lexeme}
    {before : Span} (ends : Ends 14 next.token) :
    parsePostfixes (left + 1) found ⟨next :: more, before, typeNames⟩ =
      .ok found ⟨next :: more, before, typeNames⟩ := by
  cases same : next.token with
  | punct mark =>
      rw [same] at ends
      cases mark
      case lbracket | dot | lparen | plusPlus | minusMinus => exact absurd rfl ends.not_continues
      all_goals
        simp only [parsePostfixes, bind_apply, token_apply, same]
        rfl
  | _ =>
      simp only [parsePostfixes, bind_apply, token_apply, same]
      rfl

theorem LeadsPostfixes.subscript {base index : Expr} {baseTokens : List Token}
    (leads : LeadsPostfixes typeNames baseTokens base) (reads : ReadsAt typeNames 0 tokens index)
    (span : Span) :
    LeadsPostfixes typeNames (baseTokens ++ .punct .lbracket :: (tokens ++ [.punct .rbracket]))
      (.subscript span base index) := by
  refine leads.turn (Nat.le_refl 15) rfl ?_
  intro fuel opening lexemes next more before found opens spelled _ enough same
  obtain ⟨inner, lexemes, rfl, innerSpelled, closed⟩ := List.map_eq_append_iff.mp spelled
  obtain ⟨closing, rfl, closes⟩ := List.map_eq_singleton_iff.mp closed
  rw [List.length_append] at enough
  obtain ⟨position, last, read, alike⟩ :=
    reads fuel inner closing (next :: more) opening.span innerSpelled
      (closes ▸ ends_of_none rfl 0) (by omega)
  change parseExpr fuel _ = _ at read
  refine ⟨.subscript (found.span.merge closing.span) found position, closing.span, ?_, ?_⟩
  · simp only [List.append_assoc, List.cons_append, List.nil_append, parsePostfixes, bind_apply,
      token_apply, opens, advance_append, read,
      expectPunct_of_punct closes _ (List.cons_ne_nil next more)]
  · simp only [unplaced, same, alike]

theorem LeadsPostfixes.field {owner : Expr} (leads : LeadsPostfixes typeNames tokens owner)
    (span : Span) (name : String) :
    LeadsPostfixes typeNames (tokens ++ [.punct .dot, .ident name]) (.field span owner name) := by
  refine leads.turn (Nat.le_refl 15) rfl ?_
  intro fuel dot lexemes next more before found dotted spelled _ _ same
  obtain ⟨member, rfl, named⟩ := List.map_eq_singleton_iff.mp spelled
  refine ⟨.field (found.span.merge member.span) found name, member.span, ?_, ?_⟩
  · simp only [List.cons_append, List.nil_append, parsePostfixes, bind_apply, token_apply, dotted,
      advance_apply, expectIdent_of_ident named]
  · simp only [unplaced, same]

theorem LeadsPostfixes.incDec {operand : Expr} (leads : LeadsPostfixes typeNames tokens operand)
    (span : Span) (increment : Bool) :
    LeadsPostfixes typeNames (tokens ++ [.punct (stepMark increment)])
      (.incDec span increment false operand) := by
  refine leads.turn (Nat.le_refl 15) rfl ?_
  intro fuel mark lexemes next more before found marked spelled _ _ same
  obtain rfl := List.map_eq_nil_iff.mp spelled
  refine ⟨.incDec (found.span.merge mark.span) increment false found, mark.span, ?_, ?_⟩
  · cases increment <;>
      simp only [List.nil_append, parsePostfixes, bind_apply, token_apply, marked, stepMark,
        incDecOf?, here_apply, advance_apply, if_true, Bool.false_eq_true, if_false]
  · simp only [unplaced, same]

/-- An argument is read up to the comma or the parenthesis behind it. -/
theorem ReadsAt.argument {arg : Expr} {args : List Expr} {first rest : List Lexeme}
    {closing : Lexeme} (reads : ReadsAt typeNames 1 (arg.tokensAt 1) arg)
    (firstSpelled : first.map Lexeme.token = arg.tokensAt 1)
    (restSpelled : rest.map Lexeme.token = moreArgTokens args)
    (closes : closing.token = .punct .rparen) (more : List Lexeme) (before : Span) {fuel : Nat}
    (enough : 20 * (arg.tokensAt 1).length ≤ fuel) :
    ∃ found last,
      parseAssignment fuel ⟨first ++ (rest ++ closing :: more), before, typeNames⟩ =
        .ok found ⟨rest ++ closing :: more, last, typeNames⟩ ∧
      found.unplaced = arg.unplaced := by
  obtain ⟨next, tail, split, ends⟩ :
      ∃ next tail, rest ++ closing :: more = next :: tail ∧ Ends 1 next.token := by
    cases args with
    | nil =>
        obtain rfl := List.map_eq_nil_iff.mp restSpelled
        exact ⟨closing, more, rfl, closes ▸ ends_of_none rfl 1⟩
    | cons other args =>
        obtain ⟨comma, others, rfl, separates, _⟩ := List.map_eq_cons_iff.mp restSpelled
        exact ⟨comma, _, rfl, separates ▸ ends_of_continues? rfl Nat.zero_lt_one⟩
  rw [split]
  exact reads fuel first next tail before firstSpelled ends (by omega)

private theorem parseMoreArgs_tokens {closing : Lexeme} (closes : closing.token = .punct .rparen)
    (more : List Lexeme) (args : List Expr)
    (reads : ∀ arg ∈ args, ReadsAt typeNames 1 (arg.tokensAt 1) arg) :
    ∀ (fuel : Nat) (lexemes : List Lexeme) (before : Span),
      lexemes.map Lexeme.token = moreArgTokens args →
      20 * (moreArgTokens args).length < fuel →
      ∃ found last,
        parseMoreArgs fuel ⟨lexemes ++ closing :: more, before, typeNames⟩ =
          .ok found ⟨closing :: more, last, typeNames⟩ ∧
        unplacedAll found = unplacedAll args := by
  induction args with
  | nil =>
      intro fuel lexemes before spelled enough
      obtain rfl := List.map_eq_nil_iff.mp spelled
      obtain ⟨less, rfl⟩ : ∃ less, fuel = less + 1 := ⟨fuel - 1, by omega⟩
      have ended : isPunct .comma closing.token = false := by
        rw [closes]
        rfl
      refine ⟨[], before, ?_, rfl⟩
      simp only [List.nil_append, parseMoreArgs, bind_apply, eat_of_not_test ended]
      rfl
  | cons arg args ih =>
      intro fuel lexemes before spelled enough
      rw [moreArgTokens_cons] at spelled enough
      obtain ⟨comma, lexemes, rfl, separates, behindSpelled⟩ := List.map_eq_cons_iff.mp spelled
      obtain ⟨first, rest, rfl, firstSpelled, restSpelled⟩ :=
        List.map_eq_append_iff.mp behindSpelled
      obtain ⟨less, rfl⟩ : ∃ less, fuel = less + 1 := ⟨fuel - 1, by omega⟩
      simp only [List.length_cons, List.length_append] at enough
      obtain ⟨next, last, read, same⟩ :=
        (reads arg List.mem_cons_self).argument firstSpelled restSpelled closes more comma.span
          (show 20 * (arg.tokensAt 1).length ≤ less by omega)
      obtain ⟨others, final, readMore, alike⟩ :=
        ih (fun other listed => reads other (List.mem_cons_of_mem _ listed)) less rest last
          restSpelled (by omega)
      refine ⟨next :: others, final, ?_, ?_⟩
      · simp only [List.cons_append, List.append_assoc, parseMoreArgs, bind_apply,
          eat_of_punct separates (List.append_ne_nil_of_right_ne_nil first tail_ne_nil), if_true,
          read, readMore]
        rfl
      · simp only [unplacedAll, same, alike]

private theorem parseArgs_tokens {closing : Lexeme} (closes : closing.token = .punct .rparen)
    (next : Lexeme) (more : List Lexeme) (args : List Expr)
    (reads : ∀ arg ∈ args, ReadsAt typeNames 1 (arg.tokensAt 1) arg) (fuel : Nat)
    (lexemes : List Lexeme) (before : Span) (spelled : lexemes.map Lexeme.token = argTokens args)
    (enough : 20 * (argTokens args).length + 1 < fuel) :
    ∃ found,
      parseArgs fuel ⟨lexemes ++ closing :: next :: more, before, typeNames⟩ =
        .ok found ⟨next :: more, closing.span, typeNames⟩ ∧
      unplacedAll found = unplacedAll args := by
  obtain ⟨less, rfl⟩ : ∃ less, fuel = less + 1 := ⟨fuel - 1, by omega⟩
  cases args with
  | nil =>
      obtain rfl := List.map_eq_nil_iff.mp spelled
      refine ⟨[], ?_, rfl⟩
      simp only [List.nil_append, parseArgs, bind_apply, token_apply, isPunct_iff.mpr closes,
        if_true, pure_apply, expectPunct_of_punct closes _ (List.cons_ne_nil next more)]
  | cons arg args =>
      rw [argTokens_cons] at spelled enough
      obtain ⟨first, rest, rfl, firstSpelled, restSpelled⟩ := List.map_eq_append_iff.mp spelled
      rw [List.length_append] at enough
      have opened : isPunct .rparen
          (State.token ⟨first ++ (rest ++ closing :: next :: more), before, typeNames⟩) = false := by
        have begun := unclosed_tokensAt 1 arg []
        rw [← firstSpelled] at begun
        cases first with
        | nil => cases begun
        | cons head tail =>
            rw [List.map_cons, List.cons_append, unclosed, Bool.not_eq_true'] at begun
            exact begun
      obtain ⟨head, last, read, same⟩ :=
        (reads arg List.mem_cons_self).argument firstSpelled restSpelled closes (next :: more) before
          (show 20 * (arg.tokensAt 1).length ≤ less by omega)
      obtain ⟨others, final, readMore, alike⟩ :=
        parseMoreArgs_tokens closes (next :: more) args
          (fun other listed => reads other (List.mem_cons_of_mem _ listed)) less rest last
          restSpelled (by omega)
      refine ⟨head :: others, ?_, ?_⟩
      · simp only [List.append_assoc, parseArgs, bind_apply, token_state, opened,
          Bool.false_eq_true, if_false, read, readMore, pure_apply,
          expectPunct_of_punct closes _ (List.cons_ne_nil next more)]
      · simp only [unplacedAll, same, alike]

theorem leadsPostfixes_call (span nameSpan : Span) (name : String) (args : List Expr)
    (reads : ∀ arg ∈ args, ReadsAt typeNames 1 (arg.tokensAt 1) arg) :
    LeadsPostfixes typeNames
      (.ident name :: .punct .lparen :: (argTokens args ++ [.punct .rparen]))
      (.call span name nameSpan args) := by
  intro fuel lexemes next more before spelled _ enough
  obtain ⟨first, lexemes, rfl, named, behindSpelled⟩ := List.map_eq_cons_iff.mp spelled
  obtain ⟨opening, lexemes, rfl, opens, restSpelled⟩ := List.map_eq_cons_iff.mp behindSpelled
  obtain ⟨inner, lexemes, rfl, innerSpelled, closed⟩ := List.map_eq_append_iff.mp restSpelled
  obtain ⟨closing, rfl, closes⟩ := List.map_eq_singleton_iff.mp closed
  obtain ⟨less, rfl⟩ := fuel_pos enough (Nat.le_refl 15) (Nat.succ_pos _)
  simp only [List.length_cons, List.length_append, List.length_nil] at enough ⊢
  obtain ⟨found, read, same⟩ :=
    parseArgs_tokens closes next more args reads less inner opening.span innerSpelled (by omega)
  refine ⟨.call (first.span.merge closing.span) name first.span found, closing.span, less, ?_, ?_,
    by omega⟩
  · have atom : atomOf? first.token = some (.ident · name) := by
      rw [named]
      rfl
    simp only [List.cons_append, List.append_assoc, List.nil_append, parseChain, bind_apply,
      parsePrimary_of_atomOf? atom, parsePostfixes, token_apply, opens, advance_append, read,
      previous_apply]
  · simp only [unplaced, same]

end Forms

end Parser
end MiniC
