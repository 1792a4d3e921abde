import MiniC.Proofs.Syntax.Positions

/-!
The spans of a syntax tree.

The outline of a tree keeps the span of every node and forgets what the node is. It
mirrors the tokens if every span goes from the start of one to the end of one and
has some text, the spans of the parts of a node lie in the span of the node, and none
of them ends behind the start of the next.
-/

namespace MiniC

/-- A node of a syntax tree: its span and its parts in source order. -/
inductive Outline where
  | node (span : Span) (parts : List Outline)

namespace Outline

def span : Outline → Span
  | node span _ => span

def parts : Outline → List Outline
  | node _ parts => parts

end Outline

namespace Expr

mutual

/-- The name of a call counts as its first part. -/
def outline : Expr → Outline
  | int span _ => .node span []
  | float span _ _ => .node span []
  | char span _ => .node span []
  | str span _ => .node span []
  | bool span _ => .node span []
  | ident span _ => .node span []
  | binary span _ left right => .node span [left.outline, right.outline]
  | assign span _ target value => .node span [target.outline, value.outline]
  | unary span _ operand => .node span [operand.outline]
  | incDec span _ _ operand => .node span [operand.outline]
  | call span _ nameSpan args => .node span (.node nameSpan [] :: outlines args)
  | subscript span base index => .node span [base.outline, index.outline]
  | field span owner _ => .node span [owner.outline]
  | conditional span cond yes no => .node span [cond.outline, yes.outline, no.outline]
  | cast span _ operand => .node span [operand.outline]
  | comma span left right => .node span [left.outline, right.outline]

def outlines : List Expr → List Outline
  | [] => []
  | first :: rest => first.outline :: outlines rest

end

def outline? : Option Expr → List Outline
  | none => []
  | some expr => [expr.outline]

theorem outline_span (expr : Expr) : expr.outline.span = expr.span := by
  cases expr <;> rw [outline] <;> rfl

theorem outline_withSpan (span : Span) (expr : Expr) :
    (expr.withSpan span).outline = .node span expr.outline.parts := by
  cases expr <;> rw [withSpan, outline, outline] <;> rfl

end Expr

def Declarator.outline (declarator : Declarator) : Outline :=
  .node declarator.span (Expr.outline? declarator.length? ++ Expr.outline? declarator.init?)

def Declaration.outline (declaration : Declaration) : Outline :=
  .node declaration.span (declaration.declarators.map Declarator.outline)

def ForInit.outline? : ForInit → List Outline
  | none => []
  | decl span declaration => [.node span [declaration.outline]]
  | expr span value => [.node span [value.outline]]

namespace Stmt

mutual

def outline : Stmt → Outline
  | block span body => .node span (outlines body)
  | expr span value => .node span [value.outline]
  | decl span declaration => .node span [declaration.outline]
  | branch span cond yes no => .node span (cond.outline :: yes.outline :: outline? no)
  | whileLoop span cond body => .node span [cond.outline, body.outline]
  | doLoop span body cond => .node span [body.outline, cond.outline]
  | forLoop span init cond step body =>
      .node span (init.outline? ++ (Expr.outline? cond ++ (Expr.outline? step ++ [body.outline])))
  | ret span value => .node span (Expr.outline? value)
  | brk span => .node span []
  | cont span => .node span []
  | empty span => .node span []

def outlines : List Stmt → List Outline
  | [] => []
  | first :: rest => first.outline :: outlines rest

def outline? : Option Stmt → List Outline
  | none => []
  | some stmt => [stmt.outline]

end

theorem outline_span (stmt : Stmt) : stmt.outline.span = stmt.span := by
  cases stmt <;> rw [outline] <;> rfl

end Stmt

def Param.outline (param : Param) : Outline := .node param.span []

def FunctionDef.outline (definition : FunctionDef) : Outline :=
  .node definition.span
    (definition.params.map Param.outline ++ Stmt.outlines (definition.body?.getD []))

def Item.outline : Item → Outline
  | function definition => definition.outline
  | declaration written => written.outline

def Span.Within (inner outer : Span) : Prop :=
  outer.start ≤ inner.start ∧ inner.finish ≤ outer.finish

def Span.Before (left right : Span) : Prop := left.finish ≤ right.start

/-- Some text, from the start of a token to the end of a token. The end of the source is none. -/
structure Span.OnTokens (lexemes : List Lexeme) (span : Span) : Prop where
  filled : span.start < span.finish
  starts : ∃ lexeme ∈ lexemes, lexeme.token ≠ .eof ∧ lexeme.span.start = span.start
  ends : ∃ lexeme ∈ lexemes, lexeme.token ≠ .eof ∧ lexeme.span.finish = span.finish

/-- Every node stands on tokens, and its parts stand in it one behind the other. -/
inductive Outline.Mirrors (lexemes : List Lexeme) : Outline → Prop where
  | node {span : Span} {parts : List Outline} : span.OnTokens lexemes →
      (∀ part ∈ parts, part.span.Within span) →
      parts.Pairwise (fun left right => left.span.Before right.span) →
      (∀ part ∈ parts, part.Mirrors lexemes) → Outline.Mirrors lexemes (.node span parts)

namespace Parser

/-- The outline stretches over the tokens from `i` to `j`, the one at `j` left out. -/
structure Fills (lexemes : List Lexeme) (i j : Nat) (outline : Outline) : Prop where
  before : i < j
  inside : j < lexemes.length
  span : outline.span = between lexemes i j
  mirrors : outline.Mirrors lexemes

/-- The outlines stretch over disjoint runs of the tokens from `i` to `j`, in order. -/
inductive Row (lexemes : List Lexeme) : Nat → Nat → List Outline → Prop where
  | nil {i j : Nat} : i ≤ j → Row lexemes i j []
  | cons {i k l j : Nat} {part : Outline} {parts : List Outline} : i ≤ k →
      Fills lexemes k l part → Row lexemes l j parts → Row lexemes i j (part :: parts)

def InRow {α : Type} (lexemes : List Lexeme) (outlines : List α → List Outline) (i : Nat)
    (_ : Unit) (j : Nat) (parts : List α) : Prop :=
  Row lexemes i j (outlines parts)

section Rows

variable {lexemes : List Lexeme} {i j k l : Nat} {outline part : Outline}
  {parts others : List Outline}

theorem Row.le (row : Row lexemes i j parts) : i ≤ j := by
  induction row with
  | nil le => exact le
  | cons le fills _ ih =>
      have before := fills.before
      omega

theorem Row.wider (row : Row lexemes k l parts) (starts : i ≤ k) (ends : l ≤ j) :
    Row lexemes i j parts := by
  induction row generalizing i with
  | nil le => exact .nil (by omega)
  | cons le fills _ ih => exact .cons (Nat.le_trans starts le) fills (ih (Nat.le_refl _) ends)

theorem Fills.row (fills : Fills lexemes k l outline) (starts : i ≤ k) (ends : l ≤ j) :
    Row lexemes i j [outline] :=
  .cons starts fills (.nil ends)

/-- One part, alone or in front of others behind a token. -/
theorem Fills.inRow {α : Type} {outlineOf : α → Outline} {first : α}
    (fills : Fills lexemes i j (outlineOf first)) :
    InRow lexemes (List.map outlineOf) i () j [first] ∧
      ∀ k rest, InRow lexemes (List.map outlineOf) (j + 1) () k rest →
        InRow lexemes (List.map outlineOf) i () k (first :: rest) := by
  constructor
  · exact fills.row (Nat.le_refl i) (Nat.le_refl j)
  · intro k rest row
    exact .cons (Nat.le_refl i) fills (row.wider (Nat.le_succ j) (Nat.le_refl k))

theorem Row.append (first : Row lexemes i k parts) (second : Row lexemes k j others) :
    Row lexemes i j (parts ++ others) := by
  induction first with
  | nil le => exact second.wider le (Nat.le_refl _)
  | cons le fills _ ih => exact .cons le fills (ih second)

/-- Each part of a row stands somewhere in it. -/
theorem Row.exists_of_mem (row : Row lexemes i j parts) (listed : part ∈ parts) :
    ∃ k l, i ≤ k ∧ l ≤ j ∧ Fills lexemes k l part := by
  induction row with
  | nil => cases listed
  | cons le fills row ih =>
      rcases List.mem_cons.mp listed with rfl | behind
      · exact ⟨_, _, le, row.le, fills⟩
      · obtain ⟨k, l, starts, ends, there⟩ := ih behind
        have before := fills.before
        exact ⟨k, l, by omega, ends, there⟩

end Rows

section Closed

variable {lexemes : List Lexeme} {i j k l : Nat} {outline part : Outline}
  {parts others : List Outline} (closed : Closed lexemes)

include closed

private theorem Closed.before_of_le (left : i < j) (right : k < l) (inside : l < lexemes.length)
    (le : j ≤ k) : (between lexemes i j).Before (between lexemes k l) :=
  closed.ordered (j - 1) k (by omega) (by omega)

private theorem Closed.within_of_le (before : k < l) (inside : j < lexemes.length) (starts : i ≤ k)
    (ends : l ≤ j) : (between lexemes k l).Within (between lexemes i j) :=
  ⟨closed.start_le starts (by omega), closed.finish_le (by omega) (by omega)⟩

private theorem Closed.onTokens (before : i < j) (inside : j < lexemes.length) :
    (between lexemes i j).OnTokens lexemes := by
  have token (k : Nat) (early : k + 1 < lexemes.length) :
      ∃ lexeme ∈ lexemes, lexeme.token ≠ .eof ∧ lexeme.span = spanOf lexemes k := by
    have within : k < lexemes.length := by omega
    have solid := closed.ne_eof early
    rw [tokenOf_of_lt within] at solid
    exact ⟨lexemes[k], List.getElem_mem within, solid, (spanOf_of_lt within).symm⟩
  constructor
  · exact closed.between_filled before inside
  · obtain ⟨first, listed, solid, same⟩ := token i (by omega)
    exact ⟨first, listed, solid, by rw [same, between]⟩
  · obtain ⟨last, listed, solid, same⟩ := token (j - 1) (by omega)
    exact ⟨last, listed, solid, by rw [same, between]⟩

theorem Row.pairwise (row : Row lexemes i j parts) :
    parts.Pairwise fun left right => left.span.Before right.span := by
  induction row with
  | nil => exact .nil
  | cons _ fills behind ih =>
      apply List.Pairwise.cons _ ih
      intro other listed
      obtain ⟨k, l, le, _, there⟩ := behind.exists_of_mem listed
      -- The first part ends where the row of the others begins, so before each of them.
      rw [fills.span, there.span]
      exact closed.before_of_le fills.before there.before there.inside le

/-- A node over the tokens from `i` to `j` whose parts are a row there. -/
theorem Row.fills {span : Span} (row : Row lexemes i j parts) (before : i < j)
    (inside : j < lexemes.length) (same : span = between lexemes i j) :
    Fills lexemes i j (.node span parts) := by
  subst same
  refine ⟨before, inside, rfl, .node (closed.onTokens before inside) ?_ (row.pairwise closed) ?_⟩
  · intro part listed
    obtain ⟨k, l, starts, ends, there⟩ := row.exists_of_mem listed
    rw [there.span]
    exact closed.within_of_le there.before inside starts ends
  · intro part listed
    obtain ⟨k, l, -, -, there⟩ := row.exists_of_mem listed
    exact there.mirrors

/-- A node over one token. -/
theorem Closed.fills_token (more : i + 1 < lexemes.length) :
    Fills lexemes i (i + 1) (.node (spanOf lexemes i) []) := by
  have row : Row lexemes i (i + 1) [] := .nil (Nat.le_succ i)
  exact row.fills closed (Nat.lt_succ_self i) more rfl

/-- The parts of a node as those of a node that stretches further. -/
theorem Fills.wider (fills : Fills lexemes k l outline) (starts : i ≤ k) (ends : l ≤ j)
    (inside : j < lexemes.length) :
    Fills lexemes i j (.node (between lexemes i j) outline.parts) := by
  obtain ⟨before, _, span, mirrors⟩ := fills
  have further : i < j := by omega
  cases mirrors with
  | @node own parts _ within ordered mirror =>
      refine ⟨further, inside, rfl, .node (closed.onTokens further inside) ?_ ordered mirror⟩
      intro part listed
      obtain rfl : own = between lexemes k l := span
      have inOwn := within part listed
      have inWhole := closed.within_of_le before inside starts ends
      exact ⟨Nat.le_trans inWhole.1 inOwn.1, Nat.le_trans inOwn.2 inWhole.2⟩

/-! ### Spans that the parser puts together -/

variable {expr operand : Expr}

omit closed in
private theorem Fills.span_eq (fills : Fills lexemes i j expr.outline) :
    expr.span = between lexemes i j := by
  rw [← expr.outline_span, fills.span]

/-- From a token to the end of an expression behind it. -/
theorem Fills.merge_start (fills : Fills lexemes k j operand.outline) (before : i < k) :
    (spanOf lexemes i).merge operand.span = between lexemes i j := by
  have inside := fills.inside
  have further := fills.before
  rw [fills.span_eq]
  exact closed.merge_between (Nat.lt_succ_self i) further (by omega) (by omega) inside

/-- From the start of an expression to a token behind it. -/
theorem Fills.merge_finish (fills : Fills lexemes i k expr.outline) (behind : k ≤ j)
    (inside : j + 1 < lexemes.length) :
    expr.span.merge (spanOf lexemes j) = between lexemes i (j + 1) := by
  have before := fills.before
  rw [fills.span_eq]
  exact closed.merge_between before (Nat.lt_succ_self j) (by omega) (by omega) inside

theorem Fills.merge (left : Fills lexemes i j expr.outline) (le : j ≤ k)
    (right : Fills lexemes k l operand.outline) :
    expr.span.merge operand.span = between lexemes i l := by
  have first := left.before
  have second := right.before
  rw [left.span_eq, right.span_eq]
  exact closed.merge_between first second (by omega) (by omega) right.inside

/-- A node of two operands. -/
theorem Fills.pair (left : Fills lexemes i j expr.outline) (le : j ≤ k)
    (right : Fills lexemes k l operand.outline) :
    Fills lexemes i l
      (.node (expr.span.merge operand.span) [expr.outline, operand.outline]) := by
  have first := left.before
  have second := right.before
  have row : Row lexemes i l [expr.outline, operand.outline] :=
    .cons (Nat.le_refl i) left (right.row le (Nat.le_refl l))
  exact row.fills closed (by omega) right.inside (left.merge closed le right)

/-- A node of an operand behind a token. -/
theorem Fills.behind (fills : Fills lexemes k j operand.outline) (before : i < k) :
    Fills lexemes i j (.node ((spanOf lexemes i).merge operand.span) [operand.outline]) := by
  have further := fills.before
  have row : Row lexemes i j [operand.outline] := fills.row (Nat.le_of_lt before) (Nat.le_refl j)
  exact row.fills closed (by omega) fills.inside (fills.merge_start closed before)

/-- A node of an expression and what stands behind it up to a token. -/
theorem Fills.extended (fills : Fills lexemes i k expr.outline)
    (row : Row lexemes k (j + 1) parts) (le : k ≤ j) (inside : j + 1 < lexemes.length) :
    Fills lexemes i (j + 1)
      (.node (expr.span.merge (spanOf lexemes j)) (expr.outline :: parts)) := by
  have before := fills.before
  have whole : Row lexemes i (j + 1) (expr.outline :: parts) := .cons (Nat.le_refl i) fills row
  exact whole.fills closed (by omega) inside (fills.merge_finish closed le inside)

end Closed

end Parser

end MiniC
