import MiniC.Proofs.Syntax.Positions
import MiniC.Proofs.Syntax.Reading

/-!
How far a parser goes.

A parser that starts at some position arrives at the same or at a later one, with a value that fits
where it has arrived. It is exhausted only with too little fuel, and with enough of it any larger
amount makes no difference. There is one rule for each elementary step, in front of whatever comes
behind it.
-/

namespace MiniC.Parser

/-- What a parser that started at position `i` comes to; `enough` says that it had enough fuel. -/
inductive Arrives {α : Type} (lexemes : List Lexeme) (enough : Prop) (i : Nat)
    (Fits : Nat → α → Prop) : EStateM.Result Stop State α → Prop where
  | ok {j : Nat} {value : α} {state : State} : i ≤ j → At lexemes j state → Fits j value →
      Arrives lexemes enough i Fits (.ok value state)
  | fault {j : Nat} {diagnostic : Diagnostic} {state : State} : i ≤ j → At lexemes j state →
      Arrives lexemes enough i Fits (.error (.fault diagnostic) state)
  | exhausted {j : Nat} {state : State} : ¬ enough → i ≤ j → At lexemes j state →
      Arrives lexemes enough i Fits (.error .exhausted state)

/-- From position `i` on the parser goes forward; with enough fuel `again`, which has more of it,
does the same. -/
structure Proceeds {α : Type} (lexemes : List Lexeme) (enough : Prop) (parser again : Parser α)
    (i : Nat) (Fits : Nat → α → Prop) : Prop where
  arrives : ∀ state, At lexemes i state → Arrives lexemes enough i Fits (parser state)
  same : enough → ∀ state, At lexemes i state → again state = parser state

/-- The parser with this fuel and with any larger amount. It has enough if a call that takes no
token has at most this rank, and every token pays for a whole descent through the grammar. -/
def Parses {α : Type} (lexemes : List Lexeme) (parser : Nat → Parser α) (rank i fuel : Nat)
    (Fits : Nat → α → Prop) : Prop :=
  ∀ more, fuel ≤ more →
    Proceeds lexemes (32 * (lexemes.length - i) + rank ≤ fuel) (parser fuel) (parser more) i Fits

section Rules

variable {α β : Type} {lexemes : List Lexeme} {enough : Prop} {parser again : Parser α} {i : Nat}
  {Fits : Nat → α → Prop} {Then : Nat → β → Prop} {next next' : α → Parser β}

theorem Arrives.earlier {k : Nat} {result : EStateM.Result Stop State α}
    (arrives : Arrives lexemes enough k Fits result) (le : i ≤ k) :
    Arrives lexemes enough i Fits result := by
  cases arrives with
  | ok further there fits => exact .ok (Nat.le_trans le further) there fits
  | fault further there => exact .fault (Nat.le_trans le further) there
  | exhausted little further there => exact .exhausted little (Nat.le_trans le further) there

namespace Proceeds

theorem of_inside (proceeds : i < lexemes.length → Proceeds lexemes enough parser again i Fits) :
    Proceeds lexemes enough parser again i Fits :=
  ⟨fun state stands => (proceeds stands.inside).arrives state stands,
    fun given state stands => (proceeds stands.inside).same given state stands⟩

theorem pure {value : α} (fits : Fits i value) :
    Proceeds lexemes enough (pure value) (pure value) i Fits :=
  ⟨fun _ stands => .ok (Nat.le_refl i) stands fits, fun _ _ _ => rfl⟩

theorem fail (message : String) (span : Span) :
    Proceeds lexemes enough (fail message span) (Parser.fail message span) i Fits :=
  ⟨fun _ stands => .fault (Nat.le_refl i) stands, fun _ _ _ => rfl⟩

theorem bind (first : Proceeds lexemes enough parser again i Fits)
    (second : ∀ j value, i ≤ j → j < lexemes.length → Fits j value →
      Proceeds lexemes enough (next value) (next' value) j Then) :
    Proceeds lexemes enough (parser >>= next) (again >>= next') i Then := by
  constructor
  · intro state stands
    rw [bind_apply]
    have arrives := first.arrives state stands
    cases result : parser state with
    | ok value after =>
        rw [result] at arrives
        cases arrives with
        | ok le there fits =>
            exact ((second _ value le there.inside fits).arrives after there).earlier le
    | error stop after =>
        rw [result] at arrives
        cases arrives with
        | fault le there => exact .fault le there
        | exhausted little le there => exact .exhausted little le there
  · intro given state stands
    rw [bind_apply, bind_apply, first.same given state stands]
    have arrives := first.arrives state stands
    cases result : parser state with
    | ok value after =>
        rw [result] at arrives
        cases arrives with
        | ok le there fits => exact (second _ value le there.inside fits).same given after there
    | error stop after => rfl

theorem map {f : α → β} (proceeds : Proceeds lexemes enough parser again i Fits)
    (fits : ∀ j value, i ≤ j → j < lexemes.length → Fits j value → Then j (f value)) :
    Proceeds lexemes enough (f <$> parser) (f <$> again) i Then := by
  rw [map_eq_pure_bind, map_eq_pure_bind]
  exact proceeds.bind fun j value le inside fit => .pure (fits j value le inside fit)

theorem imp {Fits' : Nat → α → Prop} (proceeds : Proceeds lexemes enough parser again i Fits)
    (fits : ∀ j value, i ≤ j → j < lexemes.length → Fits j value → Fits' j value) :
    Proceeds lexemes enough parser again i Fits' := by
  have mapped : Proceeds lexemes enough (id <$> parser) (id <$> again) i Fits' := proceeds.map fits
  rwa [id_map, id_map] at mapped

theorem needs {other : Prop} (proceeds : Proceeds lexemes other parser again i Fits)
    (affords : i < lexemes.length → enough → other) :
    Proceeds lexemes enough parser again i Fits := by
  constructor
  · intro state stands
    have arrives := proceeds.arrives state stands
    cases result : parser state with
    | ok value after =>
        rw [result] at arrives
        cases arrives with
        | ok le there fits => exact .ok le there fits
    | error stop after =>
        rw [result] at arrives
        cases arrives with
        | fault le there => exact .fault le there
        | exhausted little le there =>
            exact .exhausted (fun given => little (affords stands.inside given)) le there
  · exact fun given state stands => proceeds.same (affords stands.inside given) state stands

/-! ### Elementary steps -/

/-- A step that only looks. -/
theorem look_bind {step : Parser α} {look : State → α} (Seen : α → Prop)
    (looks : ∀ state, step state = .ok (look state) state)
    (sees : ∀ state, At lexemes i state → Seen (look state))
    (behind : ∀ value, Seen value → Proceeds lexemes enough (next value) (next' value) i Then) :
    Proceeds lexemes enough (step >>= next) (step >>= next') i Then := by
  have first : Proceeds lexemes enough step step i fun j value => j = i ∧ Seen value := by
    constructor
    · intro state stands
      rw [looks]
      exact .ok (Nat.le_refl i) stands ⟨rfl, sees state stands⟩
    · exact fun _ _ _ => rfl
  apply first.bind
  rintro _ value - - ⟨rfl, seen⟩
  exact behind value seen

/-- A step to a later position. -/
theorem move_bind {step : Parser α} {value : α} {after : State → State} {j : Nat}
    (moves : ∀ state, At lexemes i state → step state = .ok value (after state))
    (le : i ≤ j) (lands : ∀ state, At lexemes i state → At lexemes j (after state))
    (behind : Proceeds lexemes enough (next value) (next' value) j Then) :
    Proceeds lexemes enough (step >>= next) (step >>= next') i Then := by
  have first : Proceeds lexemes enough step step i fun k found => k = j ∧ found = value := by
    constructor
    · intro state stands
      rw [moves state stands]
      exact .ok le (lands state stands) ⟨rfl, rfl⟩
    · exact fun _ _ _ => rfl
  apply first.bind
  rintro _ _ - - ⟨rfl, rfl⟩
  exact behind

section Looking

variable {next next' : Span → Parser β}

theorem here_bind
    (behind : Proceeds lexemes enough (next (spanOf lexemes i)) (next' (spanOf lexemes i)) i Then) :
    Proceeds lexemes enough (here >>= next) (here >>= next') i Then := by
  apply look_bind (· = spanOf lexemes i) (fun _ => rfl) (fun _ stands => stands.span)
  rintro _ rfl
  exact behind

theorem previous_bind (taken : 0 < i)
    (behind : Proceeds lexemes enough (next (spanOf lexemes (i - 1)))
      (next' (spanOf lexemes (i - 1))) i Then) :
    Proceeds lexemes enough (previous >>= next) (previous >>= next') i Then := by
  apply look_bind (· = spanOf lexemes (i - 1)) (fun _ => rfl) fun _ stands => stands.previous taken
  rintro _ rfl
  exact behind

end Looking

section Tokens

variable {next next' : Token → Parser β}

theorem tokenAt_bind (distance : Nat)
    (behind : Proceeds lexemes enough (next (tokenOf lexemes (i + distance)))
      (next' (tokenOf lexemes (i + distance))) i Then) :
    Proceeds lexemes enough (tokenAt distance >>= next) (tokenAt distance >>= next') i Then := by
  apply look_bind (· = tokenOf lexemes (i + distance)) (fun _ => rfl)
    fun _ stands => stands.tokenAt distance
  rintro _ rfl
  exact behind

theorem token_bind
    (behind : ∀ found, tokenOf lexemes i = found →
      Proceeds lexemes enough (next found) (next' found) i Then) :
    Proceeds lexemes enough (token >>= next) (token >>= next') i Then :=
  look_bind (tokenOf lexemes i = ·) (fun _ => rfl) (fun _ stands => stands.token.symm) behind

end Tokens

theorem get_bind {next next' : State → Parser β}
    (behind : ∀ state, At lexemes i state →
      Proceeds lexemes enough (next state) (next' state) i Then) :
    Proceeds lexemes enough (get >>= next) (get >>= next') i Then :=
  look_bind (At lexemes i) (fun _ => rfl) (fun _ stands => stands) behind

section Bools

variable {next next' : Bool → Parser β}

theorem isTypeName_bind (name : String)
    (behind : ∀ known, Proceeds lexemes enough (next known) (next' known) i Then) :
    Proceeds lexemes enough (isTypeName name >>= next) (isTypeName name >>= next') i Then :=
  look_bind (fun _ => True) (fun _ => rfl) (fun _ _ => trivial) fun known _ => behind known

end Bools

section Units

variable {next next' : Unit → Parser β}

theorem advance_bind (more : i + 1 < lexemes.length)
    (behind : Proceeds lexemes enough (next ()) (next' ()) (i + 1) Then) :
    Proceeds lexemes enough (advance >>= next) (advance >>= next') i Then :=
  move_bind (fun _ _ => rfl) (Nat.le_succ i) (fun _ stands => stands.advance more) behind

theorem addTypeName_bind (name : String)
    (behind : Proceeds lexemes enough (next ()) (next' ()) i Then) :
    Proceeds lexemes enough (addTypeName name >>= next) (addTypeName name >>= next') i Then :=
  move_bind (fun _ _ => rfl) (Nat.le_refl i) (fun _ stands => stands.addTypeName name) behind

theorem skipWhile_bind (test : Token → Bool)
    (behind : ∀ j, i ≤ j → j < lexemes.length →
      (test (tokenOf lexemes i) = true → i + 1 < lexemes.length → i < j) →
      Proceeds lexemes enough (next ()) (next' ()) j Then) :
    Proceeds lexemes enough (skipWhile test >>= next) (skipWhile test >>= next') i Then := by
  have first : Proceeds lexemes enough (skipWhile test) (skipWhile test) i fun j _ =>
      test (tokenOf lexemes i) = true → i + 1 < lexemes.length → i < j := by
    constructor
    · intro state stands
      obtain ⟨j, le, there, takes, -⟩ := stands.skipWhile test
      exact .ok le there takes
    · exact fun _ _ _ => rfl
  apply first.bind
  intro j _ le inside takes
  exact behind j le inside takes

end Units

section Taking

variable {test : Token → Bool}

theorem eat_bind {next next' : Bool → Parser β} (closed : Closed lexemes)
    (fails : test .eof = false)
    (taken : i + 1 < lexemes.length → test (tokenOf lexemes i) = true →
      Proceeds lexemes enough (next true) (next' true) (i + 1) Then)
    (kept : test (tokenOf lexemes i) = false →
      Proceeds lexemes enough (next false) (next' false) i Then) :
    Proceeds lexemes enough (eat test >>= next) (eat test >>= next') i Then := by
  rw [eat, bind_assoc, bind_assoc]
  apply token_bind
  rintro _ rfl
  cases passes : test (tokenOf lexemes i) with
  | true =>
      have more := closed.not_last_of_test fails passes
      simp only [if_true, bind_assoc]
      apply advance_bind more
      rw [pure_bind, pure_bind]
      exact taken more passes
  | false =>
      simp only [Bool.false_eq_true, if_false, pure_bind]
      exact kept passes

theorem expect_bind {next next' : Span → Parser β} (closed : Closed lexemes)
    (fails : test .eof = false) (what : String)
    (behind : i + 1 < lexemes.length → test (tokenOf lexemes i) = true →
      Proceeds lexemes enough (next (spanOf lexemes i)) (next' (spanOf lexemes i)) (i + 1) Then) :
    Proceeds lexemes enough (expect test what >>= next) (expect test what >>= next') i Then := by
  rw [expect, bind_assoc, bind_assoc]
  apply token_bind
  rintro _ rfl
  rw [bind_assoc, bind_assoc]
  apply here_bind
  split
  · rename_i passes
    have more := closed.not_last_of_test fails passes
    rw [bind_assoc, bind_assoc]
    apply advance_bind more
    rw [pure_bind, pure_bind]
    exact behind more passes
  · exact (fail _ _).bind fun _ _ _ _ => False.elim

theorem expectIdent_bind {next next' : String × Span → Parser β} (closed : Closed lexemes)
    (behind : ∀ name, i + 1 < lexemes.length → tokenOf lexemes i = .ident name →
      Proceeds lexemes enough (next (name, spanOf lexemes i)) (next' (name, spanOf lexemes i))
        (i + 1) Then) :
    Proceeds lexemes enough (expectIdent >>= next) (expectIdent >>= next') i Then := by
  rw [expectIdent, bind_assoc, bind_assoc]
  apply here_bind
  rw [bind_assoc, bind_assoc]
  apply token_bind
  intro found same
  split
  · rename_i name
    have more : i + 1 < lexemes.length := by
      apply closed.not_last
      rw [same]
      exact Token.noConfusion
    rw [bind_assoc, bind_assoc]
    apply advance_bind more
    rw [pure_bind, pure_bind]
    exact behind name more same
  · exact (fail _ _).bind fun _ _ _ _ => False.elim

end Taking

theorem skipBrackets (closed : Closed lexemes) :
    Proceeds lexemes enough skipBrackets skipBrackets i fun j _ => i < j := by
  rw [Parser.skipBrackets]
  apply skipWhile_bind
  intro j le _ _
  apply expect_bind closed rfl
  intro _ _
  exact pure (Nat.lt_succ_of_le le)

/-- Looking for the start of a declaration takes nothing. -/
theorem atDeclaration :
    Proceeds lexemes enough atDeclaration atDeclaration i fun j _ => i = j := by
  rw [Parser.atDeclaration]
  apply token_bind
  intro found _
  split
  · exact pure rfl
  · exact pure rfl
  · exact pure rfl
  · exact pure rfl
  · apply tokenAt_bind
    split
    · exact pure rfl
    · exact pure rfl
  · exact pure rfl

/-- A cast starts with a parenthesis. -/
theorem atCast :
    Proceeds lexemes enough atCast atCast i fun j cast =>
      i = j ∧ (cast = true → tokenOf lexemes i = .punct .lparen) := by
  rw [Parser.atCast]
  apply token_bind
  rintro _ rfl
  split
  · exact pure ⟨rfl, fun isCast => by cases isCast⟩
  · rename_i opens
    have opens : tokenOf lexemes i = .punct .lparen := by
      rwa [Bool.not_eq_true', Bool.not_eq_false, isPunct_iff] at opens
    apply tokenAt_bind
    split
    · exact pure ⟨rfl, fun _ => opens⟩
    · apply isTypeName_bind
      intro known
      apply tokenAt_bind
      exact pure ⟨rfl, fun _ => opens⟩
    · exact pure ⟨rfl, fun _ => opens⟩

end Proceeds

namespace Parses

variable {parser : Nat → Parser α} {rank fuel more : Nat}

theorem zero (spent : parser 0 = exhausted) : Parses lexemes parser rank i 0 Fits := by
  intro more _
  rw [spent]
  constructor
  · intro state stands
    have inside := stands.inside
    exact .exhausted (by omega) (Nat.le_refl i) stands
  · intro given state stands
    have inside := stands.inside
    omega

theorem succ
    (step : ∀ more, fuel ≤ more →
      Proceeds lexemes (32 * (lexemes.length - i) + rank ≤ fuel + 1) (parser (fuel + 1))
        (parser (more + 1)) i Fits) : Parses lexemes parser rank i (fuel + 1) Fits := by
  intro more le
  obtain ⟨less, rfl⟩ : ∃ less, more = less + 1 := ⟨more - 1, by omega⟩
  exact step less (by omega)

/-- A call of a parser inside another one. -/
theorem call (parses : Parses lexemes parser rank i fuel Fits) (le : fuel ≤ more)
    (affords : i < lexemes.length → enough → 32 * (lexemes.length - i) + rank ≤ fuel) :
    Proceeds lexemes enough (parser fuel) (parser more) i Fits :=
  (parses more le).needs affords

end Parses

end Rules

end MiniC.Parser
