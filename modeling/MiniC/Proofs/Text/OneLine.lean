import MiniC.Proofs.Token.Scanning

/-!
Texts on one line.

A text is on one line when no line feed is in it. Printed numbers, quoted texts and the forms in
which tokens are shown all are, whatever they show, and joining texts does not change that.
-/

namespace MiniC

namespace Text

def OneLine (text : String) : Prop := '\n' ∉ text.toList

namespace OneLine

variable {first second : String} {chars : List Char}

/-- A text given by its characters. -/
theorem ofChars (plain : '\n' ∉ chars) : OneLine (String.ofList chars) := by
  rwa [OneLine, String.toList_ofList]

/-- A text that is written out, so that its characters can be looked through. -/
theorem literal (plain : chars.contains '\n' = false) : OneLine (String.ofList chars) := by
  refine ofChars fun inside => ?_
  rw [List.contains_iff_mem.mpr inside] at plain
  exact absurd plain (by decide)

theorem append (left : OneLine first) (right : OneLine second) : OneLine (first ++ second) := by
  rw [OneLine, String.toList_append, List.mem_append]
  exact fun inside => inside.elim left right

/-- A text between two that are written out. -/
theorem between {opening closing : List Char} (left : opening.contains '\n' = false)
    (oneLine : OneLine first) (right : closing.contains '\n' = false) :
    OneLine (String.ofList opening ++ first ++ String.ofList closing) :=
  ((literal left).append oneLine).append (literal right)

theorem of_append (whole : OneLine (first ++ second)) : OneLine first ∧ OneLine second := by
  rw [OneLine, String.toList_append, List.mem_append] at whole
  exact not_or.mp whole

theorem join {texts : List String} (each : ∀ text ∈ texts, OneLine text) :
    OneLine (String.join texts) := by
  rw [OneLine, String.toList_join, List.mem_flatMap]
  rintro ⟨text, listed, inside⟩
  exact each text listed inside

theorem intercalate {separator : String} {texts : List String} (between : OneLine separator)
    (each : ∀ text ∈ texts, OneLine text) : OneLine (separator.intercalate texts) := by
  induction texts with
  | nil => exact literal rfl
  | cons first rest ih =>
      obtain ⟨head, tail⟩ := List.forall_mem_cons.mp each
      cases rest with
      | nil => rwa [String.intercalate_singleton]
      | cons next more =>
          rw [String.intercalate_cons_cons]
          exact (head.append between).append (ih tail)

theorem digits {base : Nat} (large : 1 < base) (small : base ≤ 16) (number : Nat) :
    '\n' ∉ Nat.toDigits base number := by
  intro inside
  obtain ⟨digit, below, same⟩ := Lexer.exists_of_mem_toDigits large inside
  have visible : ∀ digit, digit < 16 → '\n' ≠ Nat.digitChar digit := by decide
  exact visible digit (Nat.lt_of_lt_of_le below small) same

theorem decimal (number : Nat) : '\n' ∉ Nat.toDigits 10 number :=
  digits (by decide) (by decide) number

theorem natural (number : Nat) : OneLine (toString number) := ofChars (decimal number)

theorem integer (number : Int) : OneLine (toString number) := by
  cases number with
  | ofNat size => exact natural size
  | negSucc size => exact append (literal rfl) (natural (size + 1))

theorem truth (value : Bool) : OneLine (toString value) := by
  cases value <;> exact literal rfl

theorem character {char : Char} (plain : char ≠ '\n') : OneLine (toString char) :=
  ofChars fun inside => plain (List.mem_singleton.mp inside).symm

theorem quoteChar (char : Char) : OneLine (Text.quoteChar char) := by
  rw [Text.quoteChar]
  iterate 6
    split
    · exact literal rfl
  split
  · exact character ‹¬char = '\n'›
  · exact (append (literal rfl) (ofChars (digits (by decide) (by decide) _))).append (literal rfl)

theorem quote (text : String) : OneLine (Text.quote text) := by
  refine (append (literal rfl) (join ?_)).append (literal rfl)
  intro shown listed
  obtain ⟨char, _, rfl⟩ := List.mem_map.mp listed
  exact quoteChar char

end OneLine
end Text

open Text

namespace Decimal

private theorem Digits.oneLine_positional (number : Digits) : OneLine number.positional := by
  have shown : '\n' ∉ number.text := OneLine.decimal number.digits
  have zeros (count : Nat) : '\n' ∉ List.replicate count '0' := fun inside =>
    absurd (List.eq_of_mem_replicate inside) (by decide)
  unfold positional
  dsimp only
  split
  · refine .append (.literal rfl) (.ofChars fun inside => ?_)
    exact (List.mem_append.mp inside).elim (zeros _) shown
  · split
    · refine .append (.ofChars fun inside => ?_) (.literal rfl)
      exact (List.mem_append.mp inside).elim shown (zeros _)
    · exact .append
        (.append (.ofChars fun inside => shown (List.mem_of_mem_take inside)) (.literal rfl))
        (.ofChars fun inside => shown (List.mem_of_mem_drop inside))

private theorem Digits.oneLine_scientific (number : Digits) : OneLine number.scientific := by
  have shown : '\n' ∉ number.text := OneLine.decimal number.digits
  have exponent : OneLine ("e" ++ toString number.leading) := .append (.literal rfl) (.integer _)
  unfold scientific
  dsimp only
  split
  · exact .append (.literal rfl) exponent
  · rename_i first same
    rw [same] at shown
    exact .append (.ofChars shown) exponent
  · rename_i first rest _ same
    rw [same] at shown
    have head : OneLine first.toString := .character (List.ne_of_not_mem_cons shown).symm
    have tail : OneLine (String.ofList rest) := .ofChars (List.not_mem_of_not_mem_cons shown)
    exact .append (.append (.append head (.literal rfl)) tail) exponent

theorem oneLine_shortestText (number : Float) : OneLine (shortestText number) := by
  have sign : OneLine (if signBit number then "-" else "") := by
    split <;> exact .literal rfl
  unfold shortestText
  dsimp only
  split
  · exact .literal rfl
  · exact .append sign (.literal rfl)
  · split
    · exact .append sign (.literal rfl)
    · split
      · exact .append sign (Digits.oneLine_positional _)
      · exact .append sign (Digits.oneLine_scientific _)

end Decimal

theorem BinaryOp.oneLine_symbol (op : BinaryOp) : OneLine op.symbol := by
  cases op <;> exact .literal rfl

theorem IntLiteral.oneLine_describe (literal : IntLiteral) : OneLine literal.describe := by
  have sizes : OneLine
      s!"IntLiteral \x7b value: {literal.value.toNat}, unsigned: {literal.unsigned}, " :=
    .append (.append (.between rfl (.natural _) rfl) (.truth _)) (.literal rfl)
  have kinds : OneLine s!"long: {literal.long}, radix_literal: {literal.based} \x7d" :=
    .append (.append (.between rfl (.truth _) rfl) (.truth _)) (.literal rfl)
  exact sizes.append kinds

/-- A token is shown on one line, whatever the source spells. -/
theorem Token.oneLine_describe (token : Token) : OneLine token.describe := by
  cases token with
  | int literal => exact .between rfl literal.oneLine_describe rfl
  | float value single =>
      have shown := Decimal.oneLine_shortestText value
      exact .append (.append (.between rfl shown rfl) (.truth single)) (.literal rfl)
  | char code => exact .between rfl (.natural _) rfl
  | string text => exact .between rfl (.quote text) rfl
  | ident name => exact .between rfl (.quote name) rfl
  | keyword word => cases word <;> exact .literal rfl
  | typeWord word => cases word <;> exact .literal rfl
  | punct mark => cases mark <;> exact .literal rfl
  | opAssign op => exact .between rfl (.quote _) rfl
  | eof => exact .literal rfl

end MiniC
