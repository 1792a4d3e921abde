import MiniC.Syntax.Parser.Unit
import MiniC.Proofs.Syntax.Progress

/-!
The loops of the parser.

A loop is a round that says whether to go on, and the rest of the loop behind it. Some
loops change what they have read so far, others put what a round has read in front of
what the rest reads. A round that goes on has taken a token, and this is all that the
rule for loops asks for besides what the rounds read.
-/

namespace MiniC.Parser

/-- What a round of a loop says: the result, or with what to go on and what to make of the result
then. -/
inductive Turn (σ α : Type) where
  | stop (result : α)
  | goOn (next : σ) (finish : α → α)

def Turn.close {σ α : Type} (run : σ → Parser α) : Turn σ α → Parser α
  | .stop result => return result
  | .goOn next finish => finish <$> run next

/-- A loop of the parser with its round. -/
structure Loop (σ α : Type) where
  run : Nat → σ → Parser α
  round : Nat → σ → Parser (Turn σ α)
  spent : ∀ start, run 0 start = exhausted
  unfold : ∀ fuel start, run (fuel + 1) start = round fuel start >>= Turn.close (run fuel)

/-- A round from position `i` to `j` stops with a result that fits, or has taken a token and goes on
to one that fits if the rest does. -/
def Turn.Fits {σ α : Type} (Fits : Nat → σ → Nat → α → Prop) (i : Nat) (start : σ) (j : Nat) :
    Turn σ α → Prop
  | .stop result => Fits i start j result
  | .goOn next finish => i < j ∧ ∀ k result, Fits j next k result → Fits i start k (finish result)

section Loops

variable {σ α : Type} {lexemes : List Lexeme} {loop : Loop σ α} {rank i fuel : Nat} {start : σ}
  {Fits : Nat → σ → Nat → α → Prop}

theorem Loop.parses_succ
    (round : ∀ more, fuel ≤ more →
      Proceeds lexemes (32 * (lexemes.length - i) + rank ≤ fuel + 1) (loop.round fuel start)
        (loop.round more start) i (Turn.Fits Fits i start))
    (again : ∀ j next, Parses lexemes (loop.run · next) rank j fuel (Fits j next)) :
    Parses lexemes (loop.run · start) rank i (fuel + 1) (Fits i start) := by
  apply Parses.succ
  intro more le
  rw [loop.unfold, loop.unfold]
  apply (round more le).bind
  intro j turn _ _ fits
  cases turn with
  | stop result => exact .pure fits
  | goOn next finish =>
      obtain ⟨taken, fitting⟩ := fits
      have rest : Proceeds lexemes (32 * (lexemes.length - i) + rank ≤ fuel + 1)
          (loop.run fuel next) (loop.run more next) j (Fits j next) :=
        (again j next).call le (by omega)
      exact rest.map fun k result _ _ fit => fitting k result fit

def Takes (state after : State) : Prop :=
  ∃ taken, taken ≠ [] ∧ state.rest = taken ++ after.rest

theorem At.takes {j : Nat} {state after : State} (stands : At lexemes i state)
    (there : At lexemes j after) (before : i < j) : Takes state after := by
  refine ⟨(lexemes.drop i).take (j - i), ?_, ?_⟩
  · have inside := there.inside
    apply List.ne_nil_of_length_pos
    rw [List.length_take, List.length_drop]
    omega
  · have split := List.take_append_drop (j - i) (lexemes.drop i)
    rw [List.drop_drop, Nat.add_sub_of_le (Nat.le_of_lt before)] at split
    rw [stands.rest, there.rest, split]

/-- Wherever it stands, a round of the loop that goes on takes a token. -/
def Loop.Advances (lexemes : List Lexeme) (loop : Loop σ α) : Prop :=
  ∀ fuel start i state next finish after, At lexemes i state →
    loop.round fuel start state = .ok (.goOn next finish) after → Takes state after

theorem Loop.advances_of_round
    (round : ∀ fuel start i, ∃ enough, Proceeds lexemes enough (loop.round fuel start)
      (loop.round fuel start) i (Turn.Fits Fits i start)) : loop.Advances lexemes := by
  intro fuel start i state next finish after stands goesOn
  obtain ⟨enough, proceeds⟩ := round fuel start i
  have arrives := proceeds.arrives state stands
  rw [goesOn] at arrives
  cases arrives with
  | ok _ there fits => exact stands.takes there fits.1

end Loops

/-! ### The nine loops -/

private theorem fail_bind {α β : Type} (message : String) (span : Span) (next : α → Parser β) :
    fail message span >>= next = fail message span :=
  rfl

theorem ite_bind {α β : Type} (cond : Prop) [Decidable cond] (yes no : Parser α)
    (next : α → Parser β) :
    (if cond then yes else no) >>= next = if cond then yes >>= next else no >>= next := by
  split
  · rfl
  · rfl

def eatBrackets : Parser Bool := do
  let isArray ← eat (isPunct .lbracket)
  if isArray then skipBrackets
  return isArray

def separated {α : Type} (part : Parser α) : Parser (Turn Unit (List α)) := do
  let first ← part
  if ← eat (isPunct .comma) then return .goOn () (first :: ·)
  else return .stop [first]

theorem separated_close {α : Type} (part : Parser α) (run : Unit → Parser (List α)) :
    separated part >>= Turn.close run = (do
      let first ← part
      if ← eat (isPunct .comma) then return first :: (← run ())
      else return [first]) := by
  simp only [separated, ite_bind, bind_assoc, pure_bind, Turn.close, map_eq_pure_bind]

theorem separated_proceeds {α : Type} {lexemes : List Lexeme} {enough : Prop} {i : Nat}
    {part again : Parser α} {Fits : Nat → Unit → Nat → List α → Prop} (closed : Closed lexemes)
    (reads : Proceeds lexemes enough part again i fun j first =>
      Fits i () j [first] ∧ ∀ k rest, Fits (j + 1) () k rest → Fits i () k (first :: rest)) :
    Proceeds lexemes enough (separated part) (separated again) i (Turn.Fits Fits i ()) := by
  rw [separated, separated]
  apply reads.bind
  rintro j first le _ ⟨alone, before⟩
  apply Proceeds.eat_bind closed rfl
  · intro _ _
    exact .pure ⟨Nat.lt_succ_of_le le, before⟩
  · intro _
    exact .pure alone

namespace Loop

def memberNames (spec : Specifier) (start : Span) : Loop Unit (List Member) where
  run fuel _ := parseMemberNames spec start fuel
  round _ _ := separated do
    let (name, nameSpan) ← expectIdent
    let isArray ← eatBrackets
    return .mk spec name isArray (start.merge nameSpan)
  spent _ := by rw [parseMemberNames]
  unfold fuel _ := by
    rw [parseMemberNames, separated_close]
    simp only [eatBrackets, ite_bind, bind_assoc, pure_bind]

def members : Loop Unit (List Member) where
  run fuel _ := parseMembers fuel
  round fuel _ := do
    let next ← token
    if isPunct .rbrace next || isEof next then return .stop []
    let start ← here
    let spec ← parseSpecifier fuel
    let members ← parseMemberNames spec start fuel
    let _ ← expectPunct .semi "';' after struct member"
    return .goOn () (members ++ ·)
  spent _ := by rw [parseMembers]
  unfold fuel _ := by
    rw [parseMembers, bind_assoc]
    refine bind_congr fun next => ?_
    split <;> simp [Turn.close]

def commas : Loop Expr Expr where
  run := parseCommas
  round fuel left := do
    if ← eat (isPunct .comma) then
      let right ← parseAssignment fuel
      return .goOn (.comma (left.span.merge right.span) left right) id
    else return .stop left
  spent _ := by rw [parseCommas]
  unfold fuel left := by
    rw [parseCommas, bind_assoc]
    refine bind_congr fun taken => ?_
    cases taken <;> simp [Turn.close]

def operands (level : List (Punct × BinaryOp)) (tighter : List (List (Punct × BinaryOp))) :
    Loop Expr Expr where
  run fuel left := parseOperands fuel level tighter left
  round fuel left := do
    match operatorOf? level (← token) with
    | none => return .stop left
    | some op =>
        advance
        let right ← parseBinary fuel tighter
        return .goOn (.binary (left.span.merge right.span) op left right) id
  spent _ := by rw [parseOperands]
  unfold fuel left := by
    rw [parseOperands, bind_assoc]
    refine bind_congr fun found => ?_
    cases operatorOf? level found <;> simp [Turn.close]

def postfixes : Loop Expr Expr where
  run := parsePostfixes
  round fuel expr := do
    match ← token with
    | .punct .lbracket =>
        advance
        let index ← parseExpr fuel
        let finish ← expectPunct .rbracket "']'"
        return .goOn (.subscript (expr.span.merge finish) expr index) id
    | .punct .dot =>
        advance
        let (name, nameSpan) ← expectIdent
        return .goOn (.field (expr.span.merge nameSpan) expr name) id
    | .punct .lparen =>
        match expr with
        | .ident nameSpan name =>
            advance
            let args ← parseArgs fuel
            return .goOn (.call (nameSpan.merge (← previous)) name nameSpan args) id
        | _ => fail "Only named functions can be called" (← here)
    | next =>
        match incDecOf? next with
        | some increment =>
            let finish ← here
            advance
            return .goOn (.incDec (expr.span.merge finish) increment false expr) id
        | none => return .stop expr
  spent _ := by rw [parsePostfixes]
  unfold fuel expr := by
    unfold parsePostfixes
    rw [bind_assoc]
    refine bind_congr fun found => ?_
    split
    · simp [Turn.close]
    · simp [Turn.close]
    · cases expr <;> simp [Turn.close, fail_bind]
    · split
      all_goals simp_all [Turn.close]

def moreArgs : Loop Unit (List Expr) where
  run fuel _ := parseMoreArgs fuel
  round fuel _ := do
    if ← eat (isPunct .comma) then
      let next ← parseAssignment fuel
      return .goOn () (next :: ·)
    else return .stop []
  spent _ := by rw [parseMoreArgs]
  unfold fuel left := by
    rw [parseMoreArgs, bind_assoc]
    refine bind_congr fun taken => ?_
    cases taken <;> simp [Turn.close]

def declarators (isTypedef : Bool) : Loop Unit (List Declarator) where
  run fuel _ := parseDeclarators isTypedef fuel
  round fuel _ := separated (parseDeclarator fuel isTypedef)
  spent _ := by rw [parseDeclarators]
  unfold fuel _ := by rw [parseDeclarators, separated_close]

def statements : Loop Unit (List Stmt) where
  run fuel _ := parseStmts fuel
  round fuel _ := do
    let next ← token
    if isPunct .rbrace next || isEof next then return .stop []
    let first ← parseStmt fuel
    return .goOn () (first :: ·)
  spent _ := by rw [parseStmts]
  unfold fuel _ := by
    rw [parseStmts, bind_assoc]
    refine bind_congr fun next => ?_
    split <;> simp [Turn.close]

def params : Loop Unit (List Param) where
  run fuel _ := parseParams fuel
  round fuel _ := separated (parseParam fuel)
  spent _ := by rw [parseParams]
  unfold fuel _ := by rw [parseParams, separated_close]

end Loop

end MiniC.Parser
