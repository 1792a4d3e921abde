import MiniC.Proofs.Token.Messages
import MiniC.Proofs.Syntax.Extent.Unit

/-!
Tidy trees, and what a parser yields.

A tree is tidy when every name in it is on one line. Over tidy tokens a parser yields a tidy tree
or stops with a message on one line, and leaves tidy tokens behind in either case. There is one
rule for each elementary step.
-/

namespace MiniC

open Text (OneLine)

mutual

def Specifier.Tidy : Specifier → Prop
  | .named name => OneLine name
  | .struct tag? members _ => (∀ tag ∈ tag?, OneLine tag) ∧ Member.AllTidy members
  | _ => True
termination_by structural spec => spec

def Member.AllTidy : List Member → Prop
  | [] => True
  | .mk spec name _ _ :: rest => (spec.Tidy ∧ OneLine name) ∧ Member.AllTidy rest
termination_by structural members => members

end

mutual

def Expr.Tidy : Expr → Prop
  | .ident _ name => OneLine name
  | .binary _ _ left right | .assign _ _ left right | .subscript _ left right
  | .comma _ left right => left.Tidy ∧ right.Tidy
  | .unary _ _ operand | .incDec _ _ _ operand => operand.Tidy
  | .call _ name _ args => OneLine name ∧ Expr.AllTidy args
  | .field _ owner name => owner.Tidy ∧ OneLine name
  | .conditional _ cond yes no => cond.Tidy ∧ yes.Tidy ∧ no.Tidy
  | .cast _ spec operand => spec.Tidy ∧ operand.Tidy
  | _ => True
termination_by structural expr => expr

def Expr.AllTidy : List Expr → Prop
  | [] => True
  | first :: rest => first.Tidy ∧ Expr.AllTidy rest
termination_by structural exprs => exprs

end

structure Declarator.Tidy (declarator : Declarator) : Prop where
  name : OneLine declarator.name
  length : ∀ length ∈ declarator.length?, length.Tidy
  init : ∀ init ∈ declarator.init?, init.Tidy

structure Declaration.Tidy (declaration : Declaration) : Prop where
  spec : declaration.spec.Tidy
  declarators : ∀ declarator ∈ declaration.declarators, declarator.Tidy

def ForInit.Tidy : ForInit → Prop
  | .none => True
  | .decl _ declaration => declaration.Tidy
  | .expr _ value => value.Tidy

mutual

def Stmt.Tidy : Stmt → Prop
  | .block _ body => Stmt.AllTidy body
  | .expr _ value => value.Tidy
  | .decl _ declaration => declaration.Tidy
  | .branch _ cond yes no => cond.Tidy ∧ yes.Tidy ∧ Stmt.ElseTidy no
  | .whileLoop _ cond body | .doLoop _ body cond => cond.Tidy ∧ body.Tidy
  | .forLoop _ init cond step body =>
      init.Tidy ∧ (∀ value ∈ cond, value.Tidy) ∧ (∀ value ∈ step, value.Tidy) ∧ body.Tidy
  | .ret _ value? => ∀ value ∈ value?, value.Tidy
  | .brk _ | .cont _ | .empty _ => True
termination_by structural stmt => stmt

def Stmt.ElseTidy : Option Stmt → Prop
  | none => True
  | some stmt => stmt.Tidy
termination_by structural stmt? => stmt?

def Stmt.AllTidy : List Stmt → Prop
  | [] => True
  | first :: rest => first.Tidy ∧ Stmt.AllTidy rest
termination_by structural stmts => stmts

end

structure Param.Tidy (param : Param) : Prop where
  spec : param.spec.Tidy
  name : OneLine param.name

structure FunctionDef.Tidy (definition : FunctionDef) : Prop where
  returns : definition.returns.Tidy
  name : OneLine definition.name
  params : ∀ param ∈ definition.params, param.Tidy
  body : ∀ body ∈ definition.body?, Stmt.AllTidy body

def Item.Tidy : Item → Prop
  | .function definition => definition.Tidy
  | .declaration declared => declared.Tidy

theorem Expr.Tidy.withSpan {expr : Expr} (tidy : expr.Tidy) (span : Span) :
    (expr.withSpan span).Tidy := by
  cases expr <;> exact tidy

theorem Member.AllTidy.append : ∀ {first second : List Member}, Member.AllTidy first →
    Member.AllTidy second → Member.AllTidy (first ++ second)
  | [], _, _, behind => behind
  | .mk _ _ _ _ :: _, _, before, behind => ⟨before.1, Member.AllTidy.append before.2 behind⟩

theorem forall_mem_none {α : Type} {P : α → Prop} : ∀ value ∈ (none : Option α), P value := nofun

theorem forall_mem_some {α : Type} {P : α → Prop} {value : α} (holds : P value) :
    ∀ other ∈ some value, P other :=
  fun _ same => Option.mem_some.mp same ▸ holds

namespace Parser

def State.Tidy (state : State) : Prop := ∀ lexeme ∈ state.rest, lexeme.token.Tidy

theorem State.Tidy.tokenAt {state : State} (tidy : state.Tidy) (distance : Nat) :
    (state.tokenAt distance).Tidy := by
  unfold State.tokenAt
  split
  · rename_i found
    exact tidy _ (List.mem_of_getElem? found)
  · trivial

theorem State.Tidy.advance {state : State} (tidy : state.Tidy) : state.advance.Tidy := by
  unfold State.advance
  split
  · rename_i same
    rw [State.Tidy, same] at tidy
    exact (List.forall_mem_cons.mp tidy).2
  · exact tidy

private theorem skipTokens_subset (test : Token → Bool) (previous : Span) (lexemes : List Lexeme) :
    (skipTokens test previous lexemes).2 ⊆ lexemes := by
  fun_induction skipTokens test previous lexemes with
  | case1 _ current next more _ ih => exact List.subset_cons_of_subset current ih
  | case2 => exact List.Subset.refl _
  | case3 => exact List.Subset.refl _

theorem State.Tidy.skipWhile {state : State} (tidy : state.Tidy) (test : Token → Bool) :
    (state.skipWhile test).Tidy :=
  fun lexeme listed => tidy lexeme (skipTokens_subset test state.previous state.rest listed)

theorem State.Tidy.recover {state : State} (tidy : state.Tidy) : state.recover.Tidy :=
  (tidy.skipWhile _).advance

/-! ### What a parser yields -/

def Stop.Told : Stop → Prop
  | .fault diagnostic => OneLine diagnostic.message
  | .exhausted => True

/-- What a parser comes to: a value that fits or a fault that is told, and tidy tokens. -/
inductive Yield {α : Type} (Fits : α → Prop) : EStateM.Result Stop State α → Prop where
  | ok {value : α} {after : State} : after.Tidy → Fits value → Yield Fits (.ok value after)
  | error {stop : Stop} {after : State} : after.Tidy → stop.Told → Yield Fits (.error stop after)

def Yields {α : Type} (Fits : α → Prop) (parser : Parser α) : Prop :=
  ∀ state, state.Tidy → Yield Fits (parser state)

namespace Yields

variable {α β : Type} {Fits : α → Prop} {Then : β → Prop} {parser : Parser α}

theorem pure {value : α} (fits : Fits value) : Yields Fits (pure value) :=
  fun _ tidy => .ok tidy fits

theorem fail {message : String} (oneLine : OneLine message) (span : Span) :
    Yields Fits (fail message span) :=
  fun _ tidy => .error tidy oneLine

theorem exhausted : Yields Fits exhausted := fun _ tidy => .error tidy trivial

theorem bind {next : α → Parser β} (first : Yields Fits parser)
    (second : ∀ value, Fits value → Yields Then (next value)) : Yields Then (parser >>= next) := by
  intro state tidy
  have yields := first state tidy
  rw [bind_apply]
  cases result : parser state with
  | ok value after =>
      rw [result] at yields
      cases yields with
      | ok left fits => exact second value fits after left
  | error stop after =>
      rw [result] at yields
      cases yields with
      | error left told => exact .error left told

theorem map {f : α → β} (yields : Yields Fits parser)
    (fits : ∀ value, Fits value → Then (f value)) : Yields Then (f <$> parser) := by
  rw [map_eq_pure_bind]
  exact yields.bind fun value fit => .pure (fits value fit)

/-- A step that only looks. -/
theorem look {step : Parser α} {look : State → α}
    (looks : ∀ state, step state = .ok (look state) state)
    (fits : ∀ state, state.Tidy → Fits (look state)) : Yields Fits step := by
  intro state tidy
  rw [looks]
  exact .ok tidy (fits state tidy)

/-- A step that only moves on. -/
theorem move {step : Parser Unit} {move : State → State}
    (moves : ∀ state, step state = .ok () (move state))
    (keeps : ∀ state, state.Tidy → (move state).Tidy) : Yields (fun _ => True) step := by
  intro state tidy
  rw [moves]
  exact .ok (keeps state tidy) trivial

theorem get : Yields State.Tidy (get : Parser State) := look get_apply fun _ tidy => tidy

theorem token : Yields Token.Tidy token := look (fun _ => rfl) fun _ tidy => tidy.tokenAt 0

theorem tokenAt (distance : Nat) : Yields Token.Tidy (tokenAt distance) :=
  look (fun _ => rfl) fun _ tidy => tidy.tokenAt distance

theorem here : Yields (fun _ => True) here := look (fun _ => rfl) fun _ _ => trivial

theorem previous : Yields (fun _ => True) previous := look (fun _ => rfl) fun _ _ => trivial

theorem isTypeName (name : String) : Yields (fun _ => True) (isTypeName name) :=
  look (fun _ => rfl) fun _ _ => trivial

theorem advance : Yields (fun _ => True) advance := move (fun _ => rfl) fun _ tidy => tidy.advance

theorem skipWhile (test : Token → Bool) : Yields (fun _ => True) (skipWhile test) :=
  move (fun _ => rfl) fun _ tidy => tidy.skipWhile test

theorem addTypeName (name : String) : Yields (fun _ => True) (addTypeName name) :=
  move (fun _ => rfl) fun _ tidy => tidy

theorem eat (test : Token → Bool) : Yields (fun _ => True) (eat test) := by
  rw [Parser.eat]
  apply token.bind
  intro found _
  split
  · exact advance.bind fun _ _ => pure trivial
  · exact pure trivial

theorem expect (test : Token → Bool) {what : String} (oneLine : OneLine what) :
    Yields (fun _ => True) (expect test what) := by
  rw [Parser.expect]
  apply token.bind
  intro found _
  apply here.bind
  intro span _
  split
  · exact advance.bind fun _ _ => pure trivial
  · exact fail (.append (.between rfl oneLine rfl) found.oneLine_describe) span

theorem expectIdent : Yields (fun found => OneLine found.1) expectIdent := by
  rw [Parser.expectIdent]
  apply here.bind
  intro span _
  apply token.bind
  intro found tidy
  split
  · exact advance.bind fun _ _ => pure tidy
  · exact fail (.append (.literal rfl) (Token.oneLine_describe _)) span

theorem skipBrackets : Yields (fun _ => True) skipBrackets := by
  rw [Parser.skipBrackets]
  apply (skipWhile _).bind
  intro _ _
  exact (expect _ (.literal rfl)).bind fun _ _ => pure trivial

theorem eatBrackets : Yields (fun _ => True) eatBrackets := by
  rw [Parser.eatBrackets]
  apply (eat _).bind
  intro isArray _
  split
  · exact skipBrackets.bind fun _ _ => pure trivial
  · exact pure trivial

/-- What commas separate: all parts fit if the first does and the loop goes on in the same way. -/
theorem separated {All : List α → Prop} {run : Unit → Parser (List α)} (nil : All [])
    (cons : ∀ first rest, Fits first → All rest → All (first :: rest)) (part : Yields Fits parser)
    (others : Yields All (run ())) : Yields All (separated parser >>= Turn.close run) := by
  rw [separated_close]
  apply part.bind
  intro first fits
  apply (eat _).bind
  intro goesOn _
  split
  · exact others.bind fun rest all => pure (cons first rest fits all)
  · exact pure (cons first [] fits nil)

theorem atDeclaration : Yields (fun _ => True) atDeclaration := by
  rw [Parser.atDeclaration]
  apply token.bind
  intro found _
  split
  any_goals exact pure trivial
  apply (tokenAt 1).bind
  intro next _
  split <;> exact pure trivial

theorem atCast : Yields (fun _ => True) atCast := by
  rw [Parser.atCast]
  apply token.bind
  intro found _
  split
  · exact pure trivial
  · apply (tokenAt 1).bind
    intro next _
    split
    · exact pure trivial
    · apply (isTypeName _).bind
      intro known _
      exact (tokenAt 2).bind fun _ _ => pure trivial
    · exact pure trivial

end Yields
end Parser
end MiniC
