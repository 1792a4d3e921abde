import MiniC.Proofs.Syntax.Extent.Unit

/-!
The loop over the items of a source.

A run of the loop is described without a bound on its rounds. Each round takes at
least one token: an empty item its semicolon, an item all that it stretches over, and
a fault what recovery skips, even where the parser has not moved before the fault.
-/

namespace MiniC.Parser

/-- Behind a fault the parser stands past the token that its round began with. -/
theorem At.recover {lexemes : List Lexeme} {i k : Nat} {state : State}
    (stands : At lexemes k state) (le : i ≤ k) (begun : i + 1 < lexemes.length) :
    ∃ j, i < j ∧ At lexemes j state.recover := by
  rw [State.recover]
  obtain ⟨j, further, there, -, -⟩ := stands.skipWhile fun found =>
    !isPunct .semi found && !isPunct .rbrace found && !isEof found
  by_cases more : j + 1 < lexemes.length
  · exact ⟨j + 1, by omega, there.advance more⟩
  -- At the end of the source nothing is taken behind what was skipped, but the round began earlier.
  · rw [there.advance_last (by omega)]
    exact ⟨j, by omega, there⟩

/-- The loop comes from a state to the end of the source. Each item is parsed with this amount of
fuel as with any larger one. -/
inductive Finishes (fuel : Nat) : State → Outcome → Prop where
  | done {state : State} : state.token = .eof → Finishes fuel state ⟨[], []⟩
  | skip {state : State} {outcome : Outcome} : state.token = .punct .semi →
      Takes state state.advance → Finishes fuel state.advance outcome →
      Finishes fuel state outcome
  | item {state next : State} {item : Item} {items : List Item} {faults : List Diagnostic} :
      state.token ≠ .eof → state.token ≠ .punct .semi →
      (∀ more, fuel ≤ more → parseItem more state = .ok item next) → Takes state next →
      Finishes fuel next ⟨items, faults⟩ → Finishes fuel state ⟨item :: items, faults⟩
  | fault {state next : State} {diagnostic : Diagnostic} {items : List Item}
      {faults : List Diagnostic} :
      state.token ≠ .eof → state.token ≠ .punct .semi →
      (∀ more, fuel ≤ more → parseItem more state = .error (.fault diagnostic) next) →
      Takes state next.recover → Finishes fuel next.recover ⟨items, faults⟩ →
      Finishes fuel state ⟨items, diagnostic :: faults⟩

namespace Finishes

variable {fuel other : Nat} {state : State} {outcome also : Outcome}

/-- There is one run from a state, whatever amounts of fuel are enough. -/
theorem unique (first : Finishes fuel state outcome) (second : Finishes other state also) :
    outcome = also := by
  induction first generalizing also with
  | done isEnd =>
      cases second with
      | done _ => rfl
      | skip isSemi _ _ => cases isEnd.symm.trans isSemi
      | item solid _ _ _ _ => exact absurd isEnd solid
      | fault solid _ _ _ _ => exact absurd isEnd solid
  | skip isSemi _ _ ih =>
      cases second with
      | done isEnd => cases isEnd.symm.trans isSemi
      | skip _ _ rest => exact ih rest
      | item _ unlike _ _ _ => exact absurd isSemi unlike
      | fault _ unlike _ _ _ => exact absurd isSemi unlike
  | item solid unlike parsed _ _ ih =>
      have here := parsed (max fuel other) (Nat.le_max_left fuel other)
      cases second with
      | done isEnd => exact absurd isEnd solid
      | skip isSemi _ _ => exact absurd isSemi unlike
      | item _ _ alsoParsed _ rest =>
          cases here.symm.trans (alsoParsed _ (Nat.le_max_right fuel other))
          cases ih rest
          rfl
      | fault _ _ alsoParsed _ _ =>
          cases here.symm.trans (alsoParsed _ (Nat.le_max_right fuel other))
  | fault solid unlike parsed _ _ ih =>
      have here := parsed (max fuel other) (Nat.le_max_left fuel other)
      cases second with
      | done isEnd => exact absurd isEnd solid
      | skip isSemi _ _ => exact absurd isSemi unlike
      | item _ _ alsoParsed _ _ =>
          cases here.symm.trans (alsoParsed _ (Nat.le_max_right fuel other))
      | fault _ _ alsoParsed _ rest =>
          cases here.symm.trans (alsoParsed _ (Nat.le_max_right fuel other))
          cases ih rest
          rfl

end Finishes

private theorem Takes.length_lt {state after : State} (takes : Takes state after) :
    after.rest.length < state.rest.length := by
  obtain ⟨taken, nonempty, split⟩ := takes
  have positive := List.length_pos_iff.mpr nonempty
  rw [split, List.length_append]
  omega

/-- Every fault costs a token. -/
theorem Finishes.length_faults_le {fuel : Nat} {state : State} {outcome : Outcome}
    (finishes : Finishes fuel state outcome) : outcome.faults.length ≤ state.rest.length := by
  induction finishes with
  | done _ => exact Nat.zero_le _
  | skip _ takes _ ih => exact Nat.le_trans ih (Nat.le_of_lt takes.length_lt)
  | item _ _ _ takes _ ih => exact Nat.le_trans ih (Nat.le_of_lt takes.length_lt)
  | fault _ _ _ takes _ ih =>
      have less := takes.length_lt
      simp only [List.length_cons] at ih ⊢
      omega

section Rounds

variable {lexemes : List Lexeme} {fuel i : Nat} {state : State} (closed : Closed lexemes)

theorem isEof_iff {token : Token} : isEof token = true ↔ token = .eof := by
  cases token <;> simp [isEof]

include closed

/-- What one item comes to, at a token that is not the last one. -/
theorem parseItem_cases (stands : At lexemes i state)
    (enough : 32 * (lexemes.length - i) + 1 ≤ fuel) :
    (∃ item next j, i < j ∧ At lexemes j next ∧ Fills lexemes i j item.outline ∧
      ∀ more, fuel ≤ more → parseItem more state = .ok item next) ∨
    ∃ diagnostic next j, i ≤ j ∧ At lexemes j next ∧
      ∀ more, fuel ≤ more → parseItem more state = .error (.fault diagnostic) next := by
  have parses := parseItem_parses closed fuel i
  have settled (more : Nat) (le : fuel ≤ more) : parseItem more state = parseItem fuel state :=
    (parses more le).same enough state stands
  have arrives := (parses fuel (Nat.le_refl fuel)).arrives state stands
  cases result : parseItem fuel state with
  | ok item next =>
      rw [result] at arrives
      cases arrives with
      | ok le there fills =>
          exact .inl ⟨item, next, _, fills.before, there, fills, fun more le =>
            (settled more le).trans result⟩
  | error stop next =>
      rw [result] at arrives
      cases arrives with
      | fault le there =>
          exact .inr ⟨_, next, _, le, there, fun more le => (settled more le).trans result⟩
      | exhausted little _ _ => exact absurd enough little

/-- With enough fuel and as many rounds as tokens are left, the loop comes to the end. -/
theorem parseItems_finishes (rounds : Nat) (stands : At lexemes i state)
    (enough : 32 * (lexemes.length - i) + 1 ≤ fuel) (many : lexemes.length - i ≤ rounds) :
    Finishes fuel state (parseItems fuel rounds state) := by
  induction rounds generalizing i state with
  | zero =>
      have inside := stands.inside
      omega
  | succ rounds ih =>
      rw [parseItems]
      split
      · rename_i isEnd
        exact .done (isEof_iff.mp isEnd)
      rename_i notEnd
      have solid : state.token ≠ .eof := fun isEnd => notEnd (isEof_iff.mpr isEnd)
      have begun : i + 1 < lexemes.length := closed.not_last (stands.token ▸ solid)
      split
      · rename_i isSemi
        have there := stands.advance begun
        exact .skip (isPunct_iff.mp isSemi) (stands.takes there (Nat.lt_succ_self i))
          (ih there (by omega) (by omega))
      · rename_i notSemi
        have unlike : state.token ≠ .punct .semi := fun isSemi =>
          notSemi (isPunct_iff.mpr isSemi)
        rcases parseItem_cases closed stands enough with
          ⟨item, next, j, before, there, -, parsed⟩ | ⟨diagnostic, next, k, le, there, parsed⟩
        · rw [parsed fuel (Nat.le_refl fuel)]
          exact .item solid unlike parsed (stands.takes there before)
            (ih there (by omega) (by omega))
        · rw [parsed fuel (Nat.le_refl fuel)]
          obtain ⟨j, before, recovered⟩ := there.recover le begun
          exact .fault solid unlike parsed (stands.takes recovered before)
            (ih recovered (by omega) (by omega))

/-- The items of a run stand one behind the other. -/
theorem Finishes.row {outcome : Outcome} (finishes : Finishes fuel state outcome)
    (stands : At lexemes i state) (enough : 32 * (lexemes.length - i) + 1 ≤ fuel) :
    Row lexemes i lexemes.length (outcome.items.map Item.outline) := by
  induction finishes generalizing i with
  | done _ => exact .nil (Nat.le_of_lt stands.inside)
  | @skip state outcome isSemi takes _ ih =>
      have begun : i + 1 < lexemes.length := by
        apply closed.not_last
        rw [← stands.token, isSemi]
        exact Token.noConfusion
      have row := ih (stands.advance begun) (by omega)
      exact row.wider (Nat.le_succ i) (Nat.le_refl _)
  | item _ _ parsed _ _ ih =>
      rcases parseItem_cases closed stands enough with
        ⟨item, next, j, before, there, fills, also⟩ | ⟨diagnostic, next, j, le, there, also⟩
      · cases (parsed fuel (Nat.le_refl fuel)).symm.trans (also fuel (Nat.le_refl fuel))
        exact .cons (Nat.le_refl i) fills (ih there (by omega))
      · cases (parsed fuel (Nat.le_refl fuel)).symm.trans (also fuel (Nat.le_refl fuel))
  | fault solid _ parsed _ _ ih =>
      have begun : i + 1 < lexemes.length := closed.not_last (stands.token ▸ solid)
      rcases parseItem_cases closed stands enough with
        ⟨item, next, j, before, there, fills, also⟩ | ⟨diagnostic, next, k, le, there, also⟩
      · cases (parsed fuel (Nat.le_refl fuel)).symm.trans (also fuel (Nat.le_refl fuel))
      · cases (parsed fuel (Nat.le_refl fuel)).symm.trans (also fuel (Nat.le_refl fuel))
        obtain ⟨j, before, recovered⟩ := there.recover le begun
        exact (ih recovered (by omega)).wider (Nat.le_of_lt before) (Nat.le_refl _)

end Rounds

end MiniC.Parser
