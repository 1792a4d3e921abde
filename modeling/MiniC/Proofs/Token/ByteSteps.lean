import MiniC.Proofs.Token.Bytewise
import MiniC.Proofs.Token.Scanning

/-!
Steps over bytes and steps over characters.

The bytes that begin or go on with a token are bytes of ASCII, and no byte of
another character is one. So where a character starts, the longest run of bytes is
the longest run of characters, and a step over bytes ends where the step over
characters does.
-/

namespace MiniC

namespace Text

theorem encode_narrow {char : Char} (narrow : char.toNat < 128) :
    String.utf8EncodeChar char = [UInt8.ofNat char.toNat] := by
  rw [String.utf8EncodeChar_eq_singleton (utf8Size_narrow narrow)]
  rfl

theorem encode_wide {char : Char} (wide : 128 ≤ char.toNat) {byte : UInt8}
    (listed : byte ∈ String.utf8EncodeChar char) : 128 ≤ byte.toNat := by
  have same : char.toNat = char.val.toNat := rfl
  unfold String.utf8EncodeChar at listed
  dsimp only at listed
  split at listed
  · omega
  split at listed
  · simp only [List.mem_cons, List.not_mem_nil, or_false] at listed
    rcases listed with rfl | rfl <;> rw [UInt8.toNat_ofNat'] <;> omega
  split at listed
  · simp only [List.mem_cons, List.not_mem_nil, or_false] at listed
    rcases listed with rfl | rfl | rfl <;> rw [UInt8.toNat_ofNat'] <;> omega
  · simp only [List.mem_cons, List.not_mem_nil, or_false] at listed
    rcases listed with rfl | rfl | rfl | rfl <;> rw [UInt8.toNat_ofNat'] <;> omega

theorem exists_encode_wide {char : Char} (wide : 128 ≤ char.toNat) :
    ∃ byte more, String.utf8EncodeChar char = byte :: more ∧ 128 ≤ byte.toNat := by
  cases encoded : String.utf8EncodeChar char with
  | nil =>
      have size := String.length_utf8EncodeChar char
      rw [encoded] at size
      exact absurd size (Nat.ne_of_lt char.utf8Size_pos)
  | cons byte more =>
      refine ⟨byte, more, rfl, encode_wide wide ?_⟩
      rw [encoded]
      exact List.mem_cons_self

theorem bytes_cons (char : Char) (text : List Char) :
    bytes (char :: text) = String.utf8EncodeChar char ++ bytes text :=
  List.flatMap_cons

end Text

namespace Lexer

open Text (Cursor)

theorem onByte_narrow (test : Char → Bool) {char : Char} (narrow : char.toNat < 128) :
    onByte test (UInt8.ofNat char.toNat) = test char := by
  have code : (UInt8.ofNat char.toNat).toNat = char.toNat := by
    rw [UInt8.toNat_ofNat']
    exact Nat.mod_eq_of_lt (by omega)
  rw [onByte, code, decide_eq_true narrow, Bool.true_and, Char.ofNat_toNat]

theorem onByte_wide (test : Char → Bool) {byte : UInt8} (wide : 128 ≤ byte.toNat) :
    onByte test byte = false := by
  rw [onByte, decide_eq_false (Nat.not_lt_of_le wide), Bool.false_and]

def Narrow (test : Char → Bool) : Prop := ∀ char, test char = true → char.toNat < 128

namespace Narrow

variable {first second : Char → Bool}

theorem or (left : Narrow first) (right : Narrow second) :
    Narrow fun char => first char || second char := by
  intro char passes
  exact (Bool.or_eq_true_iff.mp passes).elim (left char) (right char)

theorem eq {mark : Char} (narrow : mark.toNat < 128) : Narrow (· = mark) := by
  intro char same
  cases of_decide_eq_true same
  exact narrow

theorem le {least greatest : Char} (narrow : greatest.toNat < 128) :
    Narrow fun char => least ≤ char && char ≤ greatest := by
  intro char within
  have below := of_decide_eq_true (Bool.and_eq_true_iff.mp within).2
  rw [Char.le_def, UInt32.le_iff_toNat_le] at below
  exact Nat.lt_of_le_of_lt below narrow

theorem isSpace : Narrow isSpace :=
  .or (.or (.or (.or (.eq (by decide)) (.eq (by decide))) (.eq (by decide))) (.eq (by decide)))
    (.eq (by decide))

theorem isDigit : Narrow isDigit := .le (by decide)

theorem isLetter : Narrow isLetter :=
  .or (.or (.le (by decide)) (.le (by decide))) (.eq (by decide))

theorem isWordChar : Narrow isWordChar := .or .isLetter .isDigit

theorem isHexDigit : Narrow isHexDigit :=
  .or (.or .isDigit (.le (by decide))) (.le (by decide))

theorem isLongSuffix : Narrow isLongSuffix := .or (.eq (by decide)) (.eq (by decide))

theorem isIntegerSuffix : Narrow isIntegerSuffix :=
  .or (.or (.eq (by decide)) (.eq (by decide))) .isLongSuffix

end Narrow

section Runs

variable {test : Char → Bool} (narrow : Narrow test)
include narrow

private theorem takeWhile_bytes (text : List Char) :
    (Text.bytes text).takeWhile (onByte test) = Text.bytes (text.takeWhile test) := by
  induction text with
  | nil => rfl
  | cons char text ih =>
      rw [Text.bytes_cons]
      by_cases small : char.toNat < 128
      · rw [Text.encode_narrow small, List.singleton_append]
        cases passes : test char with
        | true =>
            rw [List.takeWhile_cons_of_pos ((onByte_narrow test small).trans passes),
              List.takeWhile_cons_of_pos passes, Text.bytes_cons, Text.encode_narrow small, ih]
            rfl
        | false =>
            have fails := (onByte_narrow test small).trans passes
            rw [List.takeWhile_cons_of_neg (Bool.eq_false_iff.mp fails),
              List.takeWhile_cons_of_neg (Bool.eq_false_iff.mp passes)]
            rfl
      · have fails : ¬ test char = true := fun passes => small (narrow char passes)
        obtain ⟨byte, more, encoded, wide⟩ := Text.exists_encode_wide (Nat.le_of_not_lt small)
        rw [List.takeWhile_cons_of_neg fails, encoded, List.cons_append,
          List.takeWhile_cons_of_neg (Bool.eq_false_iff.mp (onByte_wide test wide))]
        rfl

private theorem takeWhile_bytes_not (text : List Char) :
    (Text.bytes text).takeWhile (fun byte => !onByte test byte) =
      Text.bytes (text.takeWhile fun char => !test char) := by
  induction text with
  | nil => rfl
  | cons char text ih =>
      rw [Text.bytes_cons]
      by_cases small : char.toNat < 128
      · rw [Text.encode_narrow small, List.singleton_append]
        have same := onByte_narrow test small
        cases passes : test char with
        | true =>
            rw [List.takeWhile_cons_of_neg (by rw [same, passes]; decide),
              List.takeWhile_cons_of_neg (by rw [passes]; decide)]
            rfl
        | false =>
            rw [List.takeWhile_cons_of_pos (by rw [same, passes]; rfl),
              List.takeWhile_cons_of_pos (by rw [passes]; rfl), Text.bytes_cons,
              Text.encode_narrow small, ih]
            rfl
      · have fails : (!test char) = true := by
          rw [Bool.not_eq_true', Bool.eq_false_iff]
          exact fun passes => small (narrow char passes)
        have all : ∀ byte ∈ String.utf8EncodeChar char, (!onByte test byte) = true := by
          intro byte listed
          rw [onByte_wide test (Text.encode_wide (Nat.le_of_not_lt small) listed)]
          rfl
        rw [List.takeWhile_append_of_pos all,
          List.takeWhile_cons_of_pos (p := fun char => !test char) fails, Text.bytes_cons, ih]

private theorem head_bytes (text : List Char) :
    (Text.bytes text).head?.any (onByte test) = text.head?.any test := by
  cases text with
  | nil => rfl
  | cons char rest =>
      rw [Text.bytes_cons]
      by_cases small : char.toNat < 128
      · rw [Text.encode_narrow small]
        exact onByte_narrow test small
      · obtain ⟨byte, more, encoded, wide⟩ := Text.exists_encode_wide (Nat.le_of_not_lt small)
        rw [encoded]
        refine (onByte_wide test wide).trans (Eq.symm (Bool.eq_false_iff.mpr ?_))
        exact fun passes => small (narrow char passes)

end Runs

namespace Bytewise

variable {source : List Char} {here after : Cursor} {test : Char → Bool}
  (stands : (Cursor.start source).Leads here)
include stands

theorem drop_bytes : (Text.bytes source).drop here.offset = Text.bytes here.rest := by
  obtain ⟨before, whole, offset⟩ := stands.exists_before
  rw [whole, Text.bytes_append, offset, ← Text.length_bytes, List.drop_left]

theorem byte?_add (count : Nat) :
    byte? source (here.offset + count) = (Text.bytes here.rest)[count]? := by
  rw [byte?, ← List.getElem?_drop, drop_bytes stands]

theorem nextIs_eq (narrow : Narrow test) :
    nextIs source test here.offset = here.nextIs test := by
  have first := byte?_add stands 0
  rw [Nat.add_zero, ← List.head?_eq_getElem?] at first
  rw [nextIs, first, head_bytes narrow, Cursor.nextIs]
  cases here.rest with
  | nil => rfl
  | cons char rest => rfl

theorem run_eq (narrow : Narrow test) :
    run source test here.offset = (here.takeWhile test).2.offset := by
  rw [run, runOf, drop_bytes stands, takeWhile_bytes narrow, Text.length_bytes]
  rfl

theorem runOf_not_eq (narrow : Narrow test) :
    runOf source (fun byte => !onByte test byte) here.offset =
      (here.takeWhile fun char => !test char).2.offset := by
  rw [runOf, drop_bytes stands, takeWhile_bytes_not narrow, Text.length_bytes]
  rfl

theorem cut?_eq (leads : here.Leads after) :
    cut? source here.offset after.offset = some after.offset := by
  obtain ⟨text, passed⟩ := leads
  rw [cut?, Cursor.slice?_of_over stands passed, Option.map_some]

theorem length_eq : (Text.bytes source).length = here.offset + Text.byteSize here.rest := by
  obtain ⟨before, whole, offset⟩ := stands.exists_before
  rw [Text.length_bytes, offset, ← Text.byteSize_append, ← whole]

theorem lt_length {char : Char} {rest : List Char} (next : here.rest = char :: rest) :
    here.offset < (Text.bytes source).length := by
  have further := char.utf8Size_pos
  rw [length_eq stands, next, Text.byteSize]
  omega

theorem length_le (atEnd : here.rest = []) : (Text.bytes source).length ≤ here.offset := by
  rw [length_eq stands, atEnd]
  exact Nat.le_refl _

theorem dropBytes?_eq : Text.dropBytes? here.offset source = some here.rest := by
  obtain ⟨before, whole, offset⟩ := stands.exists_before
  rw [offset, whole]
  exact Text.dropBytes?_append before here.rest

/-! ### Comments and numbers -/

omit stands in
private theorem closing?_wide {wide : List UInt8} (all : ∀ byte ∈ wide, 128 ≤ byte.toNat)
    (place : Nat)
    (rest : List UInt8) : closing? place (wide ++ rest) = closing? (place + wide.length) rest := by
  induction wide generalizing place with
  | nil => rfl
  | cons byte wide ih =>
      obtain ⟨first, others⟩ := List.forall_mem_cons.mp all
      rw [List.cons_append, closing?, onByte_wide _ first, Bool.false_and,
        if_neg Bool.false_ne_true, ih others, List.length_cons]
      congr 1
      omega

omit stands in
private theorem closing?_bytes (place : Nat) (text : List Char) :
    closing? place (Text.bytes text) = (closeComment? place text).map Cursor.offset := by
  induction text generalizing place with
  | nil => rfl
  | cons char text ih =>
      rw [Text.bytes_cons, closeComment?]
      by_cases small : char.toNat < 128
      · have slash : (Text.bytes text).head?.any (onByte (· = '/')) = (text.head? == some '/') := by
          rw [head_bytes (.eq (by decide))]
          cases text with
          | nil => rfl
          | cons next rest => rfl
        rw [Text.encode_narrow small, List.singleton_append, closing?, onByte_narrow _ small, slash,
          Text.utf8Size_narrow small]
        split
        · rfl
        · exact ih (place + 1)
      · have wide := Nat.le_of_not_lt small
        have other : char ≠ '*' := by
          rintro rfl
          exact small (by decide)
        rw [closing?_wide fun _ => Text.encode_wide wide, String.length_utf8EncodeChar,
          decide_eq_false other, Bool.false_and, if_neg Bool.false_ne_true]
        exact ih _

theorem commentEnd_eq (start : Nat) :
    commentEnd source here.offset = (readBlockComment start here).after.offset := by
  rw [commentEnd, drop_bytes stands, closing?_bytes, readBlockComment]
  cases closeComment? here.offset here.rest with
  | some after => rfl
  | none => exact length_eq stands

omit stands in
theorem advance_offset (narrow : Narrow test) (next : here.nextIs test = true) :
    here.advance.offset = here.offset + 1 := by
  obtain ⟨offset, rest⟩ := here
  cases rest with
  | nil => cases next
  | cons char rest =>
      exact congrArg (offset + ·) (Text.utf8Size_narrow (narrow char next))

private theorem integerEnd?_eq {start : Cursor} (begins : (Cursor.start source).Leads start)
    (ahead : start.Leads here) (spelling : List Char) (value? : Option Nat) (based : Bool) :
    integerEnd? source start.offset here.offset =
      some (finishInteger start.offset spelling value? based here).after.offset := by
  have suffix := Cursor.leads_takeWhile isIntegerSuffix here
  have word := Cursor.leads_takeWhile isWordChar (here.takeWhile isIntegerSuffix).2
  rw [integerEnd?, run_eq stands .isIntegerSuffix, run_eq (stands.trans suffix) .isWordChar,
    cut?_eq begins (ahead.trans (suffix.trans word)), finishInteger_after]
  rfl

omit stands in
private theorem isEmpty_takeWhile (here : Cursor) (test : Char → Bool) :
    (here.takeWhile test).1.isEmpty = !here.nextIs test := by
  obtain ⟨offset, rest⟩ := here
  cases rest with
  | nil => rfl
  | cons char rest =>
      cases passes : test char with
      | true => simp only [Cursor.takeWhile, Cursor.nextIs, List.takeWhile_cons, passes]; rfl
      | false => simp only [Cursor.takeWhile, Cursor.nextIs, List.takeWhile_cons, passes]; rfl

private theorem eitherEnd_eq {first second : Char → Bool} (narrow : Narrow first)
    (narrowToo : Narrow second) :
    (if nextIs source first here.offset || nextIs source second here.offset
      then here.offset + 1 else here.offset) = (readEither first second here).2.offset := by
  rw [nextIs_eq stands narrow, nextIs_eq stands narrowToo, readEither]
  cases next : here.nextIs first with
  | true => exact (advance_offset narrow next).symm
  | false =>
      cases nextToo : here.nextIs second with
      | true => exact (advance_offset narrowToo nextToo).symm
      | false => rfl

private theorem signEnd_eq :
    (if nextIs source (· = '-') here.offset || nextIs source (· = '+') here.offset
      then here.offset + 1 else here.offset) = (readSign here).2.offset :=
  eitherEnd_eq stands (.eq (by decide)) (.eq (by decide))

private theorem floatEnd_eq :
    (if nextIs source (fun char => char = 'f' || char = 'F') here.offset ||
        nextIs source isLongSuffix here.offset
      then here.offset + 1 else here.offset) = (readFloatSuffix here).2.offset :=
  eitherEnd_eq stands (.or (.eq (by decide)) (.eq (by decide))) .isLongSuffix

private theorem exponentEnd?_eq :
    exponentEnd? source here.offset = (readExponent? here).map fun found => found.2.offset := by
  have marks : Narrow fun char => char = 'e' || char = 'E' :=
    .or (.eq (by decide)) (.eq (by decide))
  rw [exponentEnd?, readExponent?, nextIs_eq stands marks]
  cases marked : here.nextIs fun char => char = 'e' || char = 'E' with
  | false => rfl
  | true =>
      have behind := stands.trans (Cursor.leads_advance here)
      have sign := signEnd_eq behind
      have digits := behind.trans (readSign_leads here.advance)
      have size := advance_offset marks marked
      rw [size] at sign
      simp only [if_true, isEmpty_takeWhile, sign, nextIs_eq digits .isDigit,
        run_eq digits .isDigit]
      cases (readSign here.advance).2.nextIs isDigit with
      | true => rfl
      | false => rfl

private theorem decimalEnd?_eq {tail : Cursor} (ahead : here.Leads tail) (first : Char) :
    decimalEnd? source here.offset (readMantissa first tail).after.offset
        (readMantissa first tail).point =
      some (readDecimal here.offset first tail).after.offset := by
  have leads := ahead.trans (readMantissa_leads first tail)
  have mantissa := stands.trans leads
  simp only [decimalEnd?, readDecimal, exponentEnd?_eq mantissa]
  cases found : readExponent? (readMantissa first tail).after with
  | none =>
      simp only [Option.map_none, Option.getD_none, Option.isSome_none, Bool.or_false,
        cut?_eq stands leads, Option.bind_some]
      split
      · rw [floatEnd_eq mantissa]
        rfl
      · exact integerEnd?_eq mantissa stands leads _ _ _
  | some pair =>
      obtain ⟨exponent, after⟩ := pair
      have further := leads.trans (readExponent?_leads found)
      simp only [Option.map_some, Option.getD_some, Option.isSome_some, Bool.or_true,
        cut?_eq stands further, Option.bind_some, if_true]
      rw [floatEnd_eq (stands.trans further)]
      rfl

omit stands in
theorem takeWhile_advance {first : Char} {rest : List Char} (next : here.rest = first :: rest)
    (passes : test first = true) :
    (here.takeWhile test).2 = (here.advance.takeWhile test).2 := by
  obtain ⟨offset, _⟩ := here
  cases next
  simp only [Cursor.takeWhile, Cursor.advance, List.takeWhile_cons_of_pos passes,
    List.dropWhile_cons_of_pos passes, Text.byteSize, Nat.add_assoc]

omit stands in
private theorem takeWhile_of_fails {first : Char} {rest : List Char}
    (next : here.rest = first :: rest)
    (fails : test first = false) : (here.takeWhile test).2 = here := by
  obtain ⟨offset, _⟩ := here
  cases next
  simp only [Cursor.takeWhile, List.takeWhile_cons_of_neg (Bool.eq_false_iff.mp fails),
    List.dropWhile_cons_of_neg (Bool.eq_false_iff.mp fails)]
  rfl

private theorem pointEnd_eq :
    (if here.nextIs (· = '.') then run source isDigit (here.offset + 1) else here.offset) =
      (if here.nextIs (· = '.') then (here.advance.takeWhile isDigit).2 else here).offset := by
  split
  · rename_i point
    rw [← advance_offset (.eq (by decide)) point]
    exact run_eq (stands.trans (Cursor.leads_advance here)) .isDigit
  · rfl

private theorem mantissaEnd_eq {first : Char} {rest : List Char} (next : here.rest = first :: rest)
    (begins : isDigit first = true ∨ first = '.') :
    nextIs source (· = '.') (run source isDigit here.offset) =
        (readMantissa first here.advance).point ∧
      (if nextIs source (· = '.') (run source isDigit here.offset) then
          run source isDigit (run source isDigit here.offset + 1)
        else run source isDigit here.offset) = (readMantissa first here.advance).after.offset := by
  have whole := run_eq stands .isDigit
  rcases begins with digit | rfl
  · have noPoint : first ≠ '.' := by
      rintro rfl
      cases digit
    rw [takeWhile_advance next digit] at whole
    have atPoint := stands.trans ((Cursor.leads_advance here).trans
      (Cursor.leads_takeWhile isDigit here.advance))
    have after := pointEnd_eq atPoint
    simp only [whole, nextIs_eq atPoint (.eq (by decide : '.'.toNat < 128)), after, readMantissa,
      if_neg noPoint]
    split
    · rename_i point
      exact ⟨point, rfl⟩
    · rename_i point
      exact ⟨Bool.eq_false_iff.mpr point, rfl⟩
  · have point : here.nextIs (· = '.') = true := by
      rw [Cursor.nextIs, next]
      rfl
    rw [takeWhile_of_fails next rfl] at whole
    have after := pointEnd_eq stands
    rw [whole, nextIs_eq stands (.eq (by decide)), after, point]
    exact ⟨rfl, rfl⟩

theorem numberEnd?_eq {first : Char} {rest : List Char} (next : here.rest = first :: rest)
    (begins : isDigit first = true ∨ first = '.') :
    numberEnd? source here.offset =
      some (readNumber here.offset first here.advance).after.offset := by
  have ahead := Cursor.leads_advance here
  have behind := stands.trans ahead
  have small : first.toNat < 128 := by
    rcases begins with digit | rfl
    · exact Narrow.isDigit first digit
    · decide
  have size : here.advance.offset = here.offset + 1 := by
    rw [(Cursor.over_advance next).offset_eq, Text.byteSize, Text.utf8Size_narrow small]
    rfl
  have mark : Narrow fun char => char = 'x' || char = 'X' := .or (.eq (by decide)) (.eq (by decide))
  have zero : nextIs source (· = '0') here.offset = decide (first = '0') := by
    rw [nextIs_eq stands (.eq (by decide)), Cursor.nextIs, next]
  have marked := nextIs_eq behind mark
  rw [size] at marked
  rw [numberEnd?, zero, marked, readNumber]
  split
  · rename_i hex
    have sizeToo := advance_offset mark (Bool.and_eq_true_iff.mp hex).2
    rw [size] at sizeToo
    have further := ahead.trans (Cursor.leads_advance here.advance)
    have digits := Cursor.leads_takeWhile isHexDigit here.advance.advance
    have finish := run_eq (stands.trans further) .isHexDigit
    have cut := cut?_eq (stands.trans further) digits
    rw [sizeToo] at finish cut
    simp only [finish, cut, Option.bind_some]
    exact integerEnd?_eq (stands.trans (further.trans digits)) stands (further.trans digits) _ _ _
  · obtain ⟨point, mantissa⟩ := mantissaEnd_eq stands next begins
    dsimp only
    rw [mantissa, point]
    exact decimalEnd?_eq stands ahead first

end Bytewise
end Lexer
end MiniC
