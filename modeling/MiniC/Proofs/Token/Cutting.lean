import MiniC.Proofs.Token.Movement
import MiniC.Proofs.Token.Scanning

/-!
Tokens without what stands around them.

A reader that stops before the end of a text does not depend on what follows there:
where the longest match ends, it ends as well when the text is cut off behind it.
So a token is read again from its own text alone.
-/

namespace MiniC

namespace Text

private theorem takeWhile_cut {test : Char → Bool} {text behind : List Char}
    (leaves : behind.length ≤ ((text ++ behind).dropWhile test).length) :
    (text ++ behind).takeWhile test = text.takeWhile test ∧
      (text ++ behind).dropWhile test = text.dropWhile test ++ behind := by
  induction text with
  | nil =>
      cases behind with
      | nil => exact ⟨rfl, rfl⟩
      | cons char behind =>
          cases passes : test char with
          | false =>
              have fails := Bool.eq_false_iff.mp passes
              exact ⟨List.takeWhile_cons_of_neg fails, List.dropWhile_cons_of_neg fails⟩
          | true =>
              rw [List.nil_append, List.dropWhile_cons_of_pos passes] at leaves
              have short := (List.dropWhile_sublist (l := behind) test).length_le
              exact absurd (Nat.le_trans leaves short) (Nat.not_succ_le_self _)
  | cons char text ih =>
      rw [List.cons_append] at leaves ⊢
      cases passes : test char with
      | false =>
          have fails := Bool.eq_false_iff.mp passes
          simp only [List.takeWhile_cons_of_neg fails, List.dropWhile_cons_of_neg fails,
            List.cons_append, and_self]
      | true =>
          rw [List.dropWhile_cons_of_pos passes] at leaves
          obtain ⟨taken, dropped⟩ := ih leaves
          simp only [List.takeWhile_cons_of_pos passes, List.dropWhile_cons_of_pos passes, taken,
            dropped, and_self]

namespace Cursor

variable {before : Nat} {behind : List Char} {here after : Cursor} {test : Char → Bool}

/-- The same place when more text stands in front, of the given size, and behind. -/
def amid (before : Nat) (behind : List Char) (here : Cursor) : Cursor :=
  ⟨before + here.offset, here.rest ++ behind⟩

/-- The cursor has not come into the text behind. -/
def Leaves (behind : List Char) (cursor : Cursor) : Prop := behind.length ≤ cursor.rest.length

theorem Leads.leaves (leads : here.Leads after) (leaves : after.Leaves behind) :
    here.Leaves behind :=
  Nat.le_trans leaves leads.length_le

theorem advance_amid (leaves : (here.amid before behind).advance.Leaves behind) :
    (here.amid before behind).advance = here.advance.amid before behind := by
  obtain ⟨offset, rest⟩ := here
  cases rest with
  | cons char rest => simp only [amid, advance, List.cons_append, Nat.add_assoc]
  | nil =>
      cases behind with
      | nil => rfl
      | cons char behind =>
          have short : (char :: behind).length ≤ behind.length := leaves
          exact absurd short (Nat.not_succ_le_self _)

theorem takeWhile_amid
    (leaves : ((here.amid before behind).takeWhile test).2.Leaves behind) :
    (here.amid before behind).takeWhile test =
      ((here.takeWhile test).1, (here.takeWhile test).2.amid before behind) := by
  change behind.length ≤ ((here.rest ++ behind).dropWhile test).length at leaves
  obtain ⟨taken, dropped⟩ := takeWhile_cut leaves
  simp only [amid, takeWhile, taken, dropped, Nat.add_assoc]

theorem advance_amid_of_ne (some : here.rest ≠ []) :
    (here.amid before behind).advance = here.advance.amid before behind := by
  obtain ⟨offset, rest⟩ := here
  cases rest with
  | nil => exact absurd rfl some
  | cons char rest => simp only [amid, advance, List.cons_append, Nat.add_assoc]

theorem nextIs_amid_of_ne (some : here.rest ≠ []) :
    (here.amid before behind).nextIs test = here.nextIs test := by
  obtain ⟨offset, rest⟩ := here
  cases rest with
  | nil => exact absurd rfl some
  | cons char rest => rfl

theorem ne_nil_of_nextIs (next : here.nextIs test = true) : here.rest ≠ [] := by
  intro none
  rw [nextIs, none] at next
  cases next

theorem ne_nil_of_takeWhile (taken : (here.takeWhile test).1 ≠ []) : here.rest ≠ [] := by
  intro none
  rw [takeWhile, none] at taken
  exact taken rfl

theorem Leads.ne_nil (leads : here.Leads after) (some : after.rest ≠ []) : here.rest ≠ [] := by
  intro none
  obtain ⟨text, passed⟩ := leads
  rw [passed.rest_eq] at none
  exact some (List.append_eq_nil_iff.mp none).2

theorem takeWhile_of_amid_nil (taken : ((here.amid before behind).takeWhile test).1 = []) :
    (here.takeWhile test).1 = [] := by
  obtain ⟨offset, rest⟩ := here
  cases rest with
  | nil => rfl
  | cons char rest =>
      cases passes : test char with
      | false => exact List.takeWhile_cons_of_neg (Bool.eq_false_iff.mp passes)
      | true =>
          have more : (char :: (rest ++ behind)).takeWhile test = [] := taken
          rw [List.takeWhile_cons_of_pos passes] at more
          cases more

/-- A cursor that the larger text moves on from, and that does not come into the text behind. -/
theorem ne_nil_of_nextIs_amid (next : (here.amid before behind).nextIs test = true)
    (leaves : (here.amid before behind).advance.Leaves behind) : here.rest ≠ [] := by
  intro none
  obtain ⟨offset, rest⟩ := here
  cases none
  cases behind with
  | nil => cases next
  | cons char behind =>
      have short : (char :: behind).length ≤ behind.length := leaves
      exact absurd short (Nat.not_succ_le_self _)

theorem nextIs_of_amid (next : (here.amid before behind).nextIs test = true)
    (leaves : (here.amid before behind).advance.Leaves behind) : here.nextIs test = true := by
  rw [← nextIs_amid_of_ne (ne_nil_of_nextIs_amid next leaves)]
  exact next

theorem nextIs_of_amid_false (fails : (here.amid before behind).nextIs test = false) :
    here.nextIs test = false := by
  obtain ⟨offset, rest⟩ := here
  cases rest with
  | nil => rfl
  | cons char rest => exact fails

theorem not_and_nextIs_of_amid {condition : Bool}
    (fails : ¬ (condition && (here.amid before behind).nextIs test) = true) :
    ¬ (condition && here.nextIs test) = true := by
  intro both
  obtain ⟨holds, next⟩ := Bool.and_eq_true_iff.mp both
  rw [holds, Bool.true_and, nextIs_amid_of_ne (ne_nil_of_nextIs next)] at fails
  exact fails next

end Cursor
end Text

namespace Lexer

open Text (Cursor)

variable {before : Nat} {behind : List Char} {here tail after : Cursor}

def Piece.amid (before : Nat) (behind : List Char) (piece : Piece) : Piece :=
  { piece with after := piece.after.amid before behind }

structure Piece.Gives (behind : List Char) (token : Token) (piece : Piece) : Prop where
  token_eq : piece.token? = some token
  faultless : piece.faults = []
  leaves : piece.after.Leaves behind

variable {token : Token}

private theorem not_gives_gap : ¬ (Piece.gap after).Gives behind token := by
  intro gives
  cases gives.token_eq

private theorem not_gives_failed {message : String} {start : Nat} :
    ¬ (Piece.failed message start after).Gives behind token := by
  intro gives
  cases gives.token_eq

/-- Only faults name the start and the spelling of an integer. -/
theorem finishInteger_amid {start : Nat} {spelling : List Char} {value? : Option Nat}
    {based : Bool}
    (gives : (finishInteger start spelling value? based (here.amid before behind)).Gives
      behind token) (otherStart : Nat) (otherSpelling : List Char) :
    finishInteger start spelling value? based (here.amid before behind) =
      (finishInteger otherStart otherSpelling value? based here).amid before behind := by
  have atEnd := gives.leaves
  rw [finishInteger_after] at atEnd
  have suffix := Cursor.takeWhile_amid ((Cursor.leads_takeWhile _ _).leaves atEnd)
  rw [suffix] at atEnd
  have word := Cursor.takeWhile_amid atEnd
  simp only [finishInteger, suffix, word] at gives ⊢
  split at gives
  · exact absurd gives not_gives_failed
  · rename_i whole
    simp only [whole, Bool.false_eq_true, if_false]
    cases value? with
    | some value => rfl
    | none => exact absurd gives not_gives_failed

private theorem readMantissa_amid {first : Char}
    (leaves : (readMantissa first (tail.amid before behind)).after.Leaves behind) :
    readMantissa first (tail.amid before behind) =
      { readMantissa first tail with
        after := (readMantissa first tail).after.amid before behind } := by
  simp only [readMantissa] at leaves ⊢
  split
  · rename_i point
    rw [if_pos point] at leaves
    rw [Cursor.takeWhile_amid leaves]
  · rename_i noPoint
    rw [if_neg noPoint] at leaves
    split at leaves
    · rename_i point
      have atPoint := (Cursor.leads_takeWhile _ _).leaves leaves
      have whole := Cursor.takeWhile_amid ((Cursor.leads_advance _).leaves atPoint)
      rw [whole] at point atPoint leaves ⊢
      have ahead := Cursor.advance_amid atPoint
      rw [ahead] at leaves ⊢
      simp only [point, Cursor.nextIs_of_amid point atPoint, if_true,
        Cursor.takeWhile_amid leaves]
    · rename_i point
      have whole := Cursor.takeWhile_amid leaves
      rw [whole] at point ⊢
      have fails := Bool.eq_false_iff.mpr point
      simp only [fails, Cursor.nextIs_of_amid_false fails, Bool.false_eq_true, if_false]

private theorem readEither_amid_of_ne {first second : Char → Bool} (some : here.rest ≠ []) :
    readEither first second (here.amid before behind) =
      ((readEither first second here).1, (readEither first second here).2.amid before behind) := by
  simp only [readEither, Cursor.nextIs_amid_of_ne some, Cursor.advance_amid_of_ne some]
  split
  · rfl
  · split <;> rfl

private theorem readEither_amid {first second : Char → Bool}
    (leaves : (readEither first second (here.amid before behind)).2.Leaves behind) :
    readEither first second (here.amid before behind) =
      ((readEither first second here).1, (readEither first second here).2.amid before behind) := by
  by_cases none : here.rest = []
  · unfold readEither at leaves ⊢
    split at leaves
    · rename_i next
      exact absurd none (Cursor.ne_nil_of_nextIs_amid next leaves)
    · rename_i noFirst
      rw [if_neg noFirst, Cursor.nextIs_of_amid_false (Bool.eq_false_iff.mpr noFirst)]
      split at leaves
      · rename_i next
        exact absurd none (Cursor.ne_nil_of_nextIs_amid next leaves)
      · rename_i noSecond
        rw [if_neg noSecond, Cursor.nextIs_of_amid_false (Bool.eq_false_iff.mpr noSecond)]
        rfl
  · exact readEither_amid_of_ne none

private theorem readSign_amid_of_ne (some : here.rest ≠ []) :
    readSign (here.amid before behind) =
      ((readSign here).1, (readSign here).2.amid before behind) :=
  readEither_amid_of_ne some

private theorem readSign_amid (leaves : (readSign (here.amid before behind)).2.Leaves behind) :
    readSign (here.amid before behind) =
      ((readSign here).1, (readSign here).2.amid before behind) :=
  readEither_amid leaves

private theorem readFloatSuffix_amid
    (leaves : (readFloatSuffix (here.amid before behind)).2.Leaves behind) :
    readFloatSuffix (here.amid before behind) =
      ((readFloatSuffix here).1, (readFloatSuffix here).2.amid before behind) :=
  readEither_amid leaves

private theorem readExponent?_amid {exponent : Int}
    (found : readExponent? (here.amid before behind) = some (exponent, after))
    (leaves : after.Leaves behind) :
    ∃ place, readExponent? here = some (exponent, place) ∧ after = place.amid before behind := by
  simp only [readExponent?] at found ⊢
  split at found
  · rename_i marked
    split at found
    · cases found
    · rename_i some
      cases found
      have atDigits := (Cursor.leads_takeWhile _ _).leaves leaves
      have atSign := (readSign_leads _).leaves atDigits
      have ahead := Cursor.advance_amid atSign
      rw [ahead] at some leaves atDigits ⊢
      have sign := readSign_amid atDigits
      rw [sign] at some leaves ⊢
      have digits := Cursor.takeWhile_amid leaves
      rw [digits] at some ⊢
      rw [if_pos (Cursor.nextIs_of_amid marked atSign), if_neg some]
      exact ⟨_, rfl, rfl⟩
  · cases found

private theorem readExponent?_of_amid_none
    (nothing : readExponent? (here.amid before behind) = none) : readExponent? here = none := by
  cases found : readExponent? here with
  | none => rfl
  | some pair =>
      simp only [readExponent?] at found nothing
      split at found
      · rename_i marked
        split at found
        · cases found
        · rename_i digits
          have atDigits := Cursor.ne_nil_of_takeWhile fun none => digits (List.isEmpty_iff.mpr none)
          have atSign := (readSign_leads here.advance).ne_nil atDigits
          have sign : readSign (here.advance.amid before behind) = _ := readSign_amid_of_ne atSign
          have atMark := Cursor.ne_nil_of_nextIs marked
          rw [Cursor.nextIs_amid_of_ne atMark, if_pos marked, Cursor.advance_amid_of_ne atMark,
            sign] at nothing
          split at nothing
          · rename_i none
            exact absurd (Cursor.takeWhile_of_amid_nil (List.isEmpty_iff.mp none)) fun empty =>
              digits (List.isEmpty_iff.mpr empty)
          · cases nothing
      · cases found

private theorem readDecimal_amid {start : Nat} {first : Char}
    (gives : (readDecimal start first (tail.amid before behind)).Gives behind token) (other : Nat) :
    readDecimal start first (tail.amid before behind) =
      (readDecimal other first tail).amid before behind := by
  have moves := readDecimal_moves ⟨start, []⟩ first (tail.amid before behind)
  have mantissa := readMantissa_amid (moves.leads.leaves gives.leaves)
  simp only [readDecimal, mantissa] at gives ⊢
  cases found : readExponent? ((readMantissa first tail).after.amid before behind) with
  | none =>
      simp only [found, readExponent?_of_amid_none found] at gives ⊢
      split at gives
      · rename_i float
        have suffix := readFloatSuffix_amid gives.leaves
        simp only [Option.getD_none, if_pos float, suffix]
        rfl
      · rename_i integer
        rw [if_neg integer, if_neg integer]
        exact finishInteger_amid gives other _
  | some pair =>
      obtain ⟨exponent, after⟩ := pair
      simp only [found, Option.isSome_some, Bool.or_true, if_true, Option.getD_some] at gives ⊢
      obtain ⟨place, same, rfl⟩ :=
        readExponent?_amid found ((readFloatSuffix_leads after).leaves gives.leaves)
      have suffix := readFloatSuffix_amid gives.leaves
      simp only [same, Option.isSome_some, Bool.or_true, if_true, Option.getD_some, suffix]
      rfl

private theorem readNumber_amid {start : Nat} {first : Char}
    (gives : (readNumber start first (tail.amid before behind)).Gives behind token) (other : Nat) :
    readNumber start first (tail.amid before behind) =
      (readNumber other first tail).amid before behind := by
  unfold readNumber at gives ⊢
  split at gives
  · rename_i hex
    obtain ⟨zero, marked⟩ := Bool.and_eq_true_iff.mp hex
    have moves := finishInteger_moves ⟨start, []⟩ _ _ _ _ |>.leads.leaves gives.leaves
    have atDigits := (Cursor.leads_takeWhile _ _).leaves moves
    have ahead := Cursor.advance_amid atDigits
    rw [ahead] at moves gives
    have digits := Cursor.takeWhile_amid moves
    simp only [digits] at gives
    have same := Bool.and_eq_true_iff.mpr ⟨zero, Cursor.nextIs_of_amid marked atDigits⟩
    rw [if_pos hex, if_pos same, ahead, digits]
    exact finishInteger_amid gives other _
  · rename_i decimal
    rw [if_neg decimal, if_neg (Cursor.not_and_nextIs_of_amid decimal)]
    exact readDecimal_amid gives other

/-! ### Literals and marks -/

private theorem readHexEscape_amid {start : Nat} {code : UInt32}
    (found : readHexEscape start (here.amid before behind) = .found code [] after)
    (leaves : after.Leaves behind) (other : Nat) :
    ∃ place, readHexEscape other here = .found code [] place ∧ after = place.amid before behind := by
  simp only [readHexEscape] at found ⊢
  split at found
  · rename_i number same
    cases found
    have digits := Cursor.takeWhile_amid leaves
    rw [digits] at same ⊢
    rw [same]
    exact ⟨_, rfl, rfl⟩
  · cases found

private theorem exists_cons_of_shorter (leaves : after.Leaves behind)
    (shorter : after.rest.length < (here.amid before behind).rest.length) :
    ∃ offset char rest, here = ⟨offset, char :: rest⟩ := by
  obtain ⟨offset, rest⟩ := here
  cases rest with
  | nil => exact absurd leaves (Nat.not_le_of_lt shorter)
  | cons char rest => exact ⟨offset, char, rest, rfl⟩

private theorem readEscape_amid {start : Nat} {code : UInt32}
    (found : readEscape start (here.amid before behind) = .found code [] after)
    (leaves : after.Leaves behind) (other : Nat) :
    ∃ place, readEscape other here = .found code [] place ∧ after = place.amid before behind := by
  obtain ⟨offset, char, rest, rfl⟩ := exists_cons_of_shorter leaves (readEscape_length_lt found)
  have ahead : Cursor.advance (Cursor.amid before behind ⟨offset, char :: rest⟩) = _ :=
    Cursor.advance_amid_of_ne (List.cons_ne_nil char rest)
  simp only [readEscape, Cursor.amid, List.cons_append] at found ⊢
  change Cursor.advance ⟨_, char :: (rest ++ behind)⟩ = _ at ahead
  rw [ahead] at found
  cases simple : simpleEscape? char with
  | some value =>
      simp only [simple] at found ⊢
      cases found
      exact ⟨_, rfl, rfl⟩
  | none =>
      simp only [simple] at found ⊢
      split at found
      · rename_i hex
        rw [if_pos hex]
        exact readHexEscape_amid found leaves other
      · split at found
        · cases found
        · cases found

private theorem readLiteralChar_amid {start : Nat} {code : UInt32}
    (found : readLiteralChar start (here.amid before behind) = .found code [] after)
    (leaves : after.Leaves behind) (other : Nat) :
    ∃ place, readLiteralChar other here = .found code [] place ∧
      after = place.amid before behind := by
  obtain ⟨offset, char, rest, rfl⟩ :=
    exists_cons_of_shorter leaves (readLiteralChar_length_lt found)
  have ahead : Cursor.advance (Cursor.amid before behind ⟨offset, char :: rest⟩) = _ :=
    Cursor.advance_amid_of_ne (List.cons_ne_nil char rest)
  simp only [readLiteralChar, Cursor.amid, List.cons_append] at found ⊢
  change Cursor.advance ⟨_, char :: (rest ++ behind)⟩ = _ at ahead
  rw [ahead] at found
  split at found
  · rename_i slash
    rw [if_pos slash]
    exact readEscape_amid found leaves other
  · rename_i noSlash
    rw [if_neg noSlash]
    cases found
    exact ⟨_, rfl, rfl⟩

private theorem readStringBody_amid {start : Nat} {text : List Char} {whole : Cursor}
    (found : readStringBody start whole = some (text, [], after))
    (same : whole = here.amid before behind) (leaves : after.Leaves behind) (other : Nat) :
    ∃ place, readStringBody other here = some (text, [], place) ∧
      after = place.amid before behind := by
  fun_induction readStringBody start whole generalizing here text after with
  | case1 whole quote =>
      cases found
      subst same
      refine ⟨here.advance, ?_, Cursor.advance_amid leaves⟩
      rw [readStringBody, if_pos (Cursor.nextIs_of_amid quote leaves)]
  | case2 whole _ newline => cases found
  | case3 => cases found
  | case4 => cases found
  | case5 whole noQuote noNewline code extra between read _ ih =>
      obtain ⟨⟨innerText, innerFaults, innerAfter⟩, inner, ends⟩ := Option.map_eq_some_iff.mp found
      simp only [Prod.mk.injEq] at ends
      obtain ⟨rfl, none, rfl⟩ := ends
      obtain ⟨rfl, rfl⟩ := List.append_eq_nil_iff.mp none
      subst same
      have moves := @readStringBody_moves ⟨start, []⟩ _ _ _ _ inner
      have further := moves.1.leaves leaves
      obtain ⟨middle, first, rfl⟩ := readLiteralChar_amid read further other
      obtain ⟨place, rest, rfl⟩ := ih inner rfl leaves
      have quote := Cursor.nextIs_of_amid_false (Bool.eq_false_iff.mpr noQuote)
      have newline := Cursor.nextIs_of_amid_false (Bool.eq_false_iff.mpr noNewline)
      exact ⟨place, readStringBody_of_found quote newline first rest, rfl⟩

private theorem readString_amid {start : Nat} {piece : Piece}
    (found : readString start (here.amid before behind) = .piece piece)
    (gives : piece.Gives behind token) (other : Nat) :
    ∃ part, readString other here = .piece part ∧ piece = part.amid before behind := by
  unfold readString at found ⊢
  split at found
  · cases found
  · rename_i text faults after body
    cases found
    obtain rfl : faults = [] := gives.faultless
    obtain ⟨place, same, rfl⟩ := readStringBody_amid body rfl gives.leaves other
    rw [same]
    exact ⟨_, rfl, rfl⟩

private theorem readChar_amid {start : Nat} {piece : Piece}
    (found : readChar start (here.amid before behind) = .piece piece)
    (gives : piece.Gives behind token) (other : Nat) :
    ∃ part, readChar other here = .piece part ∧ piece = part.amid before behind := by
  unfold readChar at found ⊢
  split at found
  · cases found
    exact absurd gives not_gives_failed
  · rename_i noQuote
    rw [if_neg (Bool.eq_false_iff.mp (Cursor.nextIs_of_amid_false (Bool.eq_false_iff.mpr noQuote)))]
    split at found
    · cases found
    · cases found
      exact absurd gives not_gives_failed
    · rename_i code faults after read
      split at found
      · rename_i quote
        cases found
        obtain rfl : faults = [] := gives.faultless
        have atQuote := (Cursor.leads_advance after).leaves gives.leaves
        obtain ⟨place, same, rfl⟩ := readLiteralChar_amid read atQuote other
        have ahead := Cursor.advance_amid gives.leaves
        simp only [same, Cursor.nextIs_of_amid quote gives.leaves, if_true, ahead]
        exact ⟨_, rfl, rfl⟩
      · cases found
        cases gives.token_eq

theorem find?_of_imp {α : Type} {items : List α} {wide narrow : α → Bool} {item : α}
    (found : items.find? wide = some item)
    (implies : ∀ other, narrow other = true → wide other = true)
    (passes : narrow item = true) : items.find? narrow = some item := by
  obtain ⟨_, before, behind, same, earlier⟩ := List.find?_eq_some_iff_append.mp found
  refine List.find?_eq_some_iff_append.mpr ⟨passes, before, behind, same, ?_⟩
  intro other listed
  have fails := earlier other listed
  cases narrows : narrow other with
  | false => rfl
  | true =>
      rw [implies other narrows] at fails
      cases fails

private theorem markAt?_of_begins {text : List Char} {mark : List Char × Token}
    (found : markAt? (text ++ behind) = some mark) (inside : mark.1 <+: text) :
    markAt? text = some mark := by
  refine find?_of_imp found ?_ (List.isPrefixOf_iff_prefix.mpr inside)
  intro other isPrefix
  exact List.isPrefixOf_iff_prefix.mpr
    ((List.isPrefixOf_iff_prefix.mp isPrefix).trans (List.prefix_append text behind))

theorem exists_cons_of_markAt? {first : Char} {rest text : List Char}
    (found : markAt? (first :: rest) = some (text, token)) :
    ∃ more beyond, text = first :: more ∧ rest = more ++ beyond := by
  have filled : (marks.all fun mark => !mark.1.isEmpty) = true := by decide
  have some := List.all_eq_true.mp filled _ (List.mem_of_find?_eq_some found)
  unfold markAt? at found
  have isPrefix := List.find?_some found
  obtain ⟨beyond, same⟩ := List.isPrefixOf_iff_prefix.mp isPrefix
  cases text with
  | nil => cases some
  | cons head more =>
      cases same
      exact ⟨more, beyond, rfl, rfl⟩

theorem exists_between {rest more beyond : List Char} (same : rest ++ behind = more ++ beyond)
    (leaves : behind.length ≤ beyond.length) :
    ∃ between, rest = more ++ between ∧ beyond = between ++ behind := by
  have lengths := congrArg List.length same
  rw [List.length_append, List.length_append] at lengths
  have within : more <+: rest :=
    List.prefix_of_prefix_length_le (same ▸ List.prefix_append more beyond)
      (List.prefix_append rest behind) (by omega)
  obtain ⟨between, rfl⟩ := within
  rw [List.append_assoc] at same
  exact ⟨between, rfl, (List.append_cancel_left same).symm⟩

private theorem readMark_amid {offset tailOffset : Nat} {first : Char} {rest : List Char}
    (gives : (readMark (Cursor.amid before behind ⟨offset, first :: rest⟩)
      (Cursor.amid before behind ⟨tailOffset, rest⟩) first).Gives behind token) :
    readMark (Cursor.amid before behind ⟨offset, first :: rest⟩)
        (Cursor.amid before behind ⟨tailOffset, rest⟩) first =
      (readMark ⟨offset, first :: rest⟩ ⟨tailOffset, rest⟩ first).amid before behind := by
  simp only [readMark, Cursor.amid, List.cons_append] at gives ⊢
  cases found : markAt? (first :: (rest ++ behind)) with
  | none =>
      simp only [found] at gives
      split at gives
      · exact absurd gives not_gives_failed
      · exact absurd gives not_gives_failed
  | some mark =>
      obtain ⟨text, token⟩ := mark
      simp only [found] at gives ⊢
      obtain ⟨more, beyond, rfl, same⟩ := exists_cons_of_markAt? found
      have leaves := gives.leaves
      rw [same] at leaves ⊢
      rw [List.length_cons, Nat.add_sub_cancel, skip_append] at leaves ⊢
      obtain ⟨between, rfl, rfl⟩ := exists_between same leaves
      have inside : first :: more <+: first :: (more ++ between) := ⟨between, rfl⟩
      rw [markAt?_of_begins found inside]
      simp only [List.length_cons, Nat.add_sub_cancel, skip_append]
      simp only [Piece.amid, Piece.found, Cursor.amid, Nat.add_assoc]

/-! ### Pieces -/

/-- A number that begins with a point has a digit of its own behind it. -/
theorem isDigit_of_point {start : Nat} (gives : (readNumber start '.' (tail.amid before behind)).Gives
    behind token) (digit : (tail.amid before behind).nextIs isDigit = true) :
    tail.nextIs isDigit = true := by
  have moves := readDecimal_moves ⟨start, []⟩ '.' (tail.amid before behind)
  have leaves : ((tail.amid before behind).takeWhile isDigit).2.Leaves behind :=
    moves.leads.leaves gives.leaves
  exact Cursor.nextIs_of_amid digit ((Cursor.advance_leads_takeWhile digit).leaves leaves)

/-- A piece that gives a token is read as well where the text behind it is cut off. -/
theorem readPiece_amid {offset : Nat} {first : Char} {rest : List Char} {piece : Piece}
    (found : readPiece (Cursor.amid before behind ⟨offset, first :: rest⟩) first = .piece piece)
    (gives : piece.Gives behind token) :
    ∃ part, readPiece ⟨offset, first :: rest⟩ first = .piece part ∧
      piece = part.amid before behind := by
  have ahead : Cursor.advance (Cursor.amid before behind ⟨offset, first :: rest⟩) =
      Cursor.amid before behind (Cursor.advance ⟨offset, first :: rest⟩) :=
    Cursor.advance_amid_of_ne (List.cons_ne_nil first rest)
  simp only [readPiece, ahead] at found ⊢
  split at found
  · cases found
    exact absurd gives not_gives_gap
  rename_i noSpace
  rw [if_neg noSpace]
  split at found
  · cases found
    exact absurd gives not_gives_gap
  rename_i noLine
  rw [if_neg (Cursor.not_and_nextIs_of_amid noLine)]
  split at found
  · cases found
    unfold readBlockComment at gives
    split at gives
    · exact absurd gives not_gives_gap
    · exact absurd gives not_gives_failed
  rename_i noBlock
  rw [if_neg (Cursor.not_and_nextIs_of_amid noBlock)]
  split at found
  · rename_i number
    cases found
    have same : (isDigit first ||
        decide (first = '.') && (Cursor.advance ⟨offset, first :: rest⟩).nextIs isDigit) = true := by
      rcases Bool.or_eq_true_iff.mp number with digit | both
      · rw [digit, Bool.true_or]
      · obtain ⟨point, digit⟩ := Bool.and_eq_true_iff.mp both
        cases of_decide_eq_true point
        rw [isDigit_of_point gives digit]
        rfl
    rw [if_pos same]
    exact ⟨_, rfl, readNumber_amid gives offset⟩
  rename_i noNumber
  have sameNumber : ¬ (isDigit first ||
      decide (first = '.') && (Cursor.advance ⟨offset, first :: rest⟩).nextIs isDigit) = true := by
    intro number
    rcases Bool.or_eq_true_iff.mp number with digit | both
    · exact noNumber (Bool.or_eq_true_iff.mpr (Or.inl digit))
    · exact Cursor.not_and_nextIs_of_amid
        (fun whole => noNumber (Bool.or_eq_true_iff.mpr (Or.inr whole))) both
  rw [if_neg sameNumber]
  split at found
  · rename_i letter
    cases found
    have word := Cursor.takeWhile_amid gives.leaves
    rw [if_pos letter, word]
    exact ⟨_, rfl, rfl⟩
  rename_i noLetter
  rw [if_neg noLetter]
  split at found
  · rename_i quote
    rw [if_pos quote]
    exact readString_amid found gives offset
  rename_i noString
  rw [if_neg noString]
  split at found
  · rename_i quote
    rw [if_pos quote]
    exact readChar_amid found gives offset
  · rename_i noChar
    rw [if_neg noChar]
    cases found
    exact ⟨_, rfl, readMark_amid gives⟩

end Lexer

end MiniC
