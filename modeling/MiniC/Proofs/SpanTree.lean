import MiniC.Proofs.Syntax.Items

/-!
The spans of a parsed source mirror its tree.
-/

namespace MiniC.Parser

/-- In the items of a source every node has some text as its span, from the start of a token to the
end of one. The spans of its parts lie in it, and none of them ends behind the start of the next;
neither do those of the items. -/
theorem spans_mirror_tree {source : String} {lexemes : List Lexeme} {items : List Item}
    (accepted : lex source = .tokens lexemes) (parsed : parse lexemes = .ok items) :
    (∀ item ∈ items, item.outline.Mirrors lexemes) ∧
      items.Pairwise fun left right => left.outline.span.Before right.outline.span := by
  have closed := closed_of_lex accepted
  have stands : At lexemes 0 (.initial lexemes) := .initial closed.nonempty
  have enough : 32 * (lexemes.length - 0) + 1 ≤ sufficientFuel lexemes := by
    rw [sufficientFuel]
    omega
  have finishes := parseItems_finishes closed (lexemes.length + 1) stands enough (by omega)
  have row := finishes.row closed stands enough
  simp only [parse] at parsed
  split at parsed
  · cases parsed
    constructor
    · intro item listed
      obtain ⟨i, j, -, -, fills⟩ := row.exists_of_mem (List.mem_map_of_mem listed)
      exact fills.mirrors
    · have ordered := row.pairwise closed
      rw [List.pairwise_map] at ordered
      exact ordered
  · cases parsed

def itemsOf? (source : String) : Option (List Item) :=
  match lex source with
  | .tokens lexemes => (parse lexemes).toOption
  | _ => none

private theorem exists_of_itemsOf? {source : String} {items : List Item}
    (found : itemsOf? source = some items) :
    ∃ lexemes, lex source = .tokens lexemes ∧ parse lexemes = .ok items := by
  rw [itemsOf?] at found
  split at found
  · rename_i lexemes accepted
    cases parsed : parse lexemes with
    | ok others =>
        rw [parsed] at found
        cases found
        exact ⟨lexemes, accepted, parsed⟩
    | error faults =>
        rw [parsed] at found
        cases found
  · cases found

theorem spans_of_parenthesised_sum : ∃ lexemes item,
    lex "int f(int a) { return (a + 1) * a; }" = .tokens lexemes ∧ parse lexemes = .ok [item] ∧
      item.outline.span = ⟨0, 36⟩ ∧ item.outline.Mirrors lexemes := by
  have spans : (itemsOf? "int f(int a) { return (a + 1) * a; }").map
      (·.map (·.outline.span)) = some [⟨0, 36⟩] := by
    decide +kernel
  obtain ⟨items, found, same⟩ := Option.map_eq_some_iff.mp spans
  obtain ⟨item, rfl, itemSpan⟩ := List.map_eq_singleton_iff.mp same
  obtain ⟨lexemes, accepted, parsed⟩ := exists_of_itemsOf? found
  have mirrors := (spans_mirror_tree accepted parsed).1 item List.mem_cons_self
  exact ⟨lexemes, item, accepted, parsed, itemSpan, mirrors⟩

end MiniC.Parser
