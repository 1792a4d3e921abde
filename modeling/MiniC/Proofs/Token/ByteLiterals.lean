import MiniC.Proofs.Token.ByteSteps
import MiniC.Proofs.Token.Cutting
import MiniC.Proofs.Token.WideEscape

/-!
Literals, marks and whole steps over bytes.

Behind a backslash a byte is taken for a character. That is harmless for the bytes of
ASCII; any other byte leaves the place inside a character, and there every next step
breaks off.
-/

namespace MiniC.Lexer.Bytewise

open Text (Cursor)

variable {source : List Char} {here : Cursor} {place : Nat}

private theorem isPrefixOf_wide {mark : List Char} (nonempty : mark ≠ [])
    (narrow : ∀ char ∈ mark, char.toNat < 128) {byte : UInt8} (wide : 128 ≤ byte.toNat)
    (rest : List UInt8) : (Text.bytes mark).isPrefixOf (byte :: rest) = false := by
  cases mark with
  | nil => exact absurd rfl nonempty
  | cons char mark =>
      have small := narrow char List.mem_cons_self
      have differ : (UInt8.ofNat char.toNat == byte) = false := by
        rw [beq_eq_false_iff_ne]
        rintro rfl
        rw [UInt8.toNat_ofNat'] at wide
        omega
      rw [Text.bytes_cons, Text.encode_narrow small, List.singleton_append,
        List.isPrefixOf_cons_cons, differ, Bool.false_and]

private theorem beq_encode_narrow {first second : Char} (narrow : first.toNat < 128)
    (narrowToo : second.toNat < 128) :
    (UInt8.ofNat first.toNat == UInt8.ofNat second.toNat) = (first == second) := by
  rw [Bool.eq_iff_iff, beq_iff_eq, beq_iff_eq]
  constructor
  · intro same
    have codes := congrArg UInt8.toNat same
    rw [UInt8.toNat_ofNat', UInt8.toNat_ofNat', Nat.mod_eq_of_lt (by omega),
      Nat.mod_eq_of_lt (by omega)] at codes
    exact Char.toNat_inj.mp codes
  · intro same
    rw [same]

/-- A mark of ASCII begins the bytes of a text just when it begins the text. -/
theorem isPrefixOf_bytes {mark : List Char} (narrow : ∀ char ∈ mark, char.toNat < 128)
    (text : List Char) : (Text.bytes mark).isPrefixOf (Text.bytes text) = mark.isPrefixOf text := by
  induction mark generalizing text with
  | nil => rfl
  | cons first mark ih =>
      obtain ⟨small, others⟩ := List.forall_mem_cons.mp narrow
      cases text with
      | nil =>
          rw [Text.bytes_cons, Text.encode_narrow small]
          rfl
      | cons char text =>
          rw [List.isPrefixOf_cons_cons, Text.bytes_cons char]
          by_cases smallToo : char.toNat < 128
          · rw [Text.bytes_cons, Text.encode_narrow small, Text.encode_narrow smallToo,
              List.singleton_append, List.singleton_append, List.isPrefixOf_cons_cons,
              beq_encode_narrow small smallToo, ih others]
          · obtain ⟨byte, more, encoded, wide⟩ := Text.exists_encode_wide (Nat.le_of_not_lt smallToo)
            have differ : (first == char) = false := by
              rw [beq_eq_false_iff_ne]
              rintro rfl
              exact smallToo small
            rw [encoded, List.cons_append, isPrefixOf_wide (List.cons_ne_nil _ _) narrow wide,
              differ, Bool.false_and]

private theorem narrow_of_mark {mark : List Char × Token} (listed : mark ∈ marks) :
    mark.1 ≠ [] ∧ ∀ char ∈ mark.1, char.toNat < 128 := by
  have all : (marks.all fun mark => !mark.1.isEmpty && mark.1.all (·.toNat < 128)) = true := by
    decide
  have passes := List.all_eq_true.mp all mark listed
  obtain ⟨nonempty, narrow⟩ := Bool.and_eq_true_iff.mp passes
  refine ⟨?_, fun char inMark => of_decide_eq_true (List.all_eq_true.mp narrow char inMark)⟩
  intro empty
  rw [empty] at nonempty
  cases nonempty

private theorem markAt?_bytes (text : List Char) :
    (marks.find? fun mark => (Text.bytes mark.1).isPrefixOf (Text.bytes text)) = markAt? text :=
  List.find?_congr fun _ listed => isPrefixOf_bytes (narrow_of_mark listed).2 text

def Inside (source : List Char) (place : Nat) : Prop :=
  ∃ (here : Cursor) (char : Char) (rest : List Char) (count : Nat),
    (Cursor.start source).Leads here ∧ here.rest = char :: rest ∧
      place = here.offset + count ∧ 0 < count ∧ count < char.utf8Size

theorem Inside.dropBytes? (inside : Inside source place) : Text.dropBytes? place source = none := by
  obtain ⟨here, char, rest, count, stands, next, rfl, some, less⟩ := inside
  obtain ⟨before, whole, offset⟩ := stands.exists_before
  rw [whole, offset, next]
  clear whole offset
  induction before with
  | nil =>
      obtain ⟨count, rfl⟩ := Nat.exists_eq_succ_of_ne_zero (Nat.ne_of_gt some)
      rw [Text.byteSize, Nat.zero_add, List.nil_append, Text.dropBytes?,
        if_neg (Nat.not_le_of_lt less)]
  | cons first before ih =>
      rw [Text.byteSize, List.cons_append, Text.dropBytes?_cons (by omega)]
      have left : first.utf8Size + Text.byteSize before + count - first.utf8Size =
          Text.byteSize before + count := by omega
      rw [left]
      exact ih

theorem Inside.byte? (inside : Inside source place) :
    ∃ byte, byte? source place = some byte ∧ 128 ≤ byte.toNat := by
  obtain ⟨here, char, rest, count, stands, next, rfl, some, less⟩ := inside
  have wide : 128 ≤ char.toNat := by
    by_contra narrow
    rw [Text.utf8Size_narrow (Nat.lt_of_not_le narrow)] at less
    omega
  have within : count < (String.utf8EncodeChar char).length := by
    rw [String.length_utf8EncodeChar]
    exact less
  refine ⟨(String.utf8EncodeChar char)[count], ?_, Text.encode_wide wide (List.getElem_mem within)⟩
  rw [byte?_add stands, next, Text.bytes_cons, List.getElem?_append_left within,
    List.getElem?_eq_getElem within]

theorem Inside.nextIs (inside : Inside source place) (test : Char → Bool) :
    nextIs source test place = false := by
  obtain ⟨byte, found, wide⟩ := inside.byte?
  rw [Bytewise.nextIs, found]
  exact onByte_wide test wide

theorem Inside.lt_length (inside : Inside source place) :
    place < (Text.bytes source).length := by
  obtain ⟨byte, found, _⟩ := inside.byte?
  exact (List.getElem?_eq_some_iff.mp found).1

theorem Inside.literalCharEnd? (inside : Inside source place) :
    literalCharEnd? source place = none := by
  rw [Bytewise.literalCharEnd?, inside.dropBytes?]

private theorem stringEnd?_of_char (within : place < (Text.bytes source).length)
    (quote : nextIs source (· = '"') place = false)
    (newline : nextIs source (· = '\n') place = false) :
    stringEnd? source place = (literalCharEnd? source place).bind (stringEnd? source) := by
  rw [stringEnd?, dif_pos within, quote, newline]
  simp only [Bool.false_eq_true, if_false]
  split
  · rename_i none
    rw [none, Option.bind_none]
  · rename_i some
    rw [some, Option.bind_some]

theorem Inside.stringEnd? (inside : Inside source place) : stringEnd? source place = none := by
  rw [stringEnd?_of_char inside.lt_length (inside.nextIs _) (inside.nextIs _),
    inside.literalCharEnd?, Option.bind_none]

theorem Inside.markEnd? (inside : Inside source place) : markEnd? source place = none := by
  obtain ⟨byte, found, wide⟩ := inside.byte?
  obtain ⟨within, same⟩ := List.getElem?_eq_some_iff.mp found
  have noMark : (marks.find? fun mark =>
      (Text.bytes mark.1).isPrefixOf ((Text.bytes source).drop place)) = none := by
    rw [List.find?_eq_none, List.drop_eq_getElem_cons within, same]
    intro mark listed
    obtain ⟨nonempty, narrow⟩ := narrow_of_mark listed
    rw [isPrefixOf_wide nonempty narrow wide]
    exact Bool.false_ne_true
  rw [Bytewise.markEnd?, noMark]
  simp only [inside.nextIs, Bool.false_eq_true, if_false, inside.dropBytes?, Option.map_none]

/-- A step from inside a character breaks the scan off. -/
theorem Inside.step? (inside : Inside source place) : step? source place = none := by
  simp only [Bytewise.step?, inside.nextIs, Bool.false_and, Bool.or_self, Bool.false_eq_true,
    if_false, inside.markEnd?]

/-! ### Literals -/

/-- The place behind what has been read as a character of a literal. -/
def EndsAt (source : List Char) : LiteralChar → Option Nat → Prop
  | .found _ _ after, finish? => finish? = some after.offset
  | .missing after, finish? => after.rest = [] ∧ finish? = some after.offset
  | .aborted, finish? => ∃ place, finish? = some place ∧ Inside source place

private theorem lt_utf8Size {char : Char} (wide : 128 ≤ char.toNat) : 1 < char.utf8Size := by
  refine Nat.lt_of_le_of_ne char.utf8Size_pos fun one => ?_
  have narrow := UInt32.le_iff_toNat_le.mp (Char.utf8Size_eq_one_iff.mp one.symm)
  exact Nat.not_lt_of_le narrow wide

private theorem byte?_narrow {char : Char} {rest : List Char}
    (stands : (Cursor.start source).Leads here)
    (next : here.rest = char :: rest) (narrow : char.toNat < 128) :
    byte? source here.offset = some (UInt8.ofNat char.toNat) ∧
      here.advance.offset = here.offset + 1 := by
  constructor
  · have first := byte?_add stands 0
    rw [next, Text.bytes_cons, Text.encode_narrow narrow] at first
    exact first
  · rw [(Cursor.over_advance next).offset_eq, Text.byteSize, Text.utf8Size_narrow narrow]
    rfl

private theorem readHexEscape_endsAt (stands : (Cursor.start source).Leads here) (start : Nat) :
    EndsAt source (readHexEscape start here)
      (cut? source here.offset (run source isHexDigit here.offset)) := by
  rw [run_eq stands .isHexDigit, cut?_eq stands (Cursor.leads_takeWhile isHexDigit here)]
  simp only [readHexEscape]
  split
  · rfl
  · rfl

private theorem escapeEnd?_narrow {char : Char} {rest : List Char}
    (stands : (Cursor.start source).Leads here) (start : Nat) (next : here.rest = char :: rest)
    (narrow : char.toNat < 128) :
    EndsAt source (readEscape start here) (escapeEnd? source here.offset) := by
  obtain ⟨byte, size⟩ := byte?_narrow stands next narrow
  rw [readEscape, next, escapeEnd?, byte]
  simp only [onByte_narrow _ narrow, decide_eq_true_eq, ← size]
  split
  · rename_i simple
    rw [if_neg (simpleEscape?_narrow simple).2]
    rfl
  · by_cases hex : char = 'x'
    · rw [if_pos hex, if_pos hex]
      exact readHexEscape_endsAt (stands.trans (Cursor.leads_advance here)) start
    · rw [if_neg hex, if_neg hex, if_pos narrow]
      rfl

private theorem escapeEnd?_wide {char : Char} {rest : List Char}
    (stands : (Cursor.start source).Leads here) (start : Nat) (next : here.rest = char :: rest)
    (wide : 128 ≤ char.toNat) :
    EndsAt source (readEscape start here) (escapeEnd? source here.offset) := by
  have narrow := Nat.not_lt_of_le wide
  obtain ⟨byte, more, encoded, high⟩ := Text.exists_encode_wide wide
  have first : byte? source here.offset = some byte := by
    have first := byte?_add stands 0
    rw [next, Text.bytes_cons, encoded] at first
    exact first
  have simple : simpleEscape? char = none :=
    Option.eq_none_iff_forall_ne_some.mpr fun _ found => narrow (simpleEscape?_narrow found).1
  have hex : char ≠ 'x' := by
    rintro rfl
    exact narrow (by decide)
  rw [readEscape, next, escapeEnd?, first]
  simp only [simple, if_neg hex, if_neg narrow, onByte_wide _ high, Bool.false_eq_true, if_false]
  exact ⟨_, rfl, here, char, rest, 1, stands, next, rfl, Nat.one_pos, lt_utf8Size wide⟩

private theorem escapeEnd?_endsAt (stands : (Cursor.start source).Leads here) (start : Nat) :
    EndsAt source (readEscape start here) (escapeEnd? source here.offset) := by
  cases next : here.rest with
  | nil =>
      have none : byte? source here.offset = none := by
        have none := byte?_add stands 0
        rw [next] at none
        exact none
      rw [readEscape, next, escapeEnd?, none]
      exact ⟨next, rfl⟩
  | cons char rest =>
      rcases Nat.lt_or_ge char.toNat 128 with narrow | wide
      · exact escapeEnd?_narrow stands start next narrow
      · exact escapeEnd?_wide stands start next wide

private theorem literalCharEnd?_endsAt (stands : (Cursor.start source).Leads here) (start : Nat) :
    EndsAt source (readLiteralChar start here) (literalCharEnd? source here.offset) := by
  rw [literalCharEnd?, dropBytes?_eq stands, readLiteralChar]
  cases next : here.rest with
  | nil => exact ⟨next, rfl⟩
  | cons char rest =>
      have ahead := Cursor.over_advance next
      have size : here.offset + char.utf8Size = here.advance.offset := by
        rw [ahead.offset_eq]
        rfl
      simp only [size]
      split
      · exact escapeEnd?_endsAt (stands.trans ⟨_, ahead⟩) start
      · rfl

private theorem stringEnd?_of_end (atEnd : (Text.bytes source).length ≤ place) :
    stringEnd? source place = some place := by
  rw [stringEnd?, dif_neg (Nat.not_lt_of_le atEnd)]

private theorem stringEnd?_goesOn (stands : (Cursor.start source).Leads here)
    (quote : here.nextIs (· = '"') = false) (newline : here.nextIs (· = '\n') = false) :
    stringEnd? source here.offset =
      (literalCharEnd? source here.offset).bind (stringEnd? source) := by
  cases next : here.rest with
  | nil =>
      rw [literalCharEnd?, dropBytes?_eq stands, next]
      rfl
  | cons char rest =>
      rw [← nextIs_eq stands (.eq (by decide))] at quote newline
      exact stringEnd?_of_char (lt_length stands next) quote newline

private theorem lt_length_of_nextIs {test : Char → Bool} (stands : (Cursor.start source).Leads here)
    (next : here.nextIs test = true) : here.offset < (Text.bytes source).length := by
  obtain ⟨char, rest, same⟩ := List.exists_cons_of_ne_nil (Cursor.ne_nil_of_nextIs next)
  exact lt_length stands same

/-- A string ends over bytes where it ends over characters, and both readings break off together. -/
theorem stringEnd?_eq (stands : (Cursor.start source).Leads here) (start : Nat) :
    stringEnd? source here.offset =
      (readStringBody start here).map fun body => body.2.2.offset := by
  fun_induction readStringBody start here with
  | case1 here closes =>
      have quote := (nextIs_eq stands (.eq (by decide))).trans closes
      rw [stringEnd?, dif_pos (lt_length_of_nextIs stands closes), quote, if_pos rfl,
        ← advance_offset (.eq (by decide)) closes]
      rfl
  | case2 here goesOn endsLine =>
      have quote : nextIs source (· = '"') here.offset = false :=
        (nextIs_eq stands (.eq (by decide))).trans (Bool.eq_false_iff.mpr goesOn)
      have newline := (nextIs_eq stands (.eq (by decide))).trans endsLine
      rw [stringEnd?, dif_pos (lt_length_of_nextIs stands endsLine), quote, newline]
      rfl
  | case3 here quote newline aborted =>
      have literal := literalCharEnd?_endsAt stands start
      rw [aborted] at literal
      obtain ⟨place, found, inside⟩ := literal
      rw [stringEnd?_goesOn stands (Bool.eq_false_iff.mpr quote) (Bool.eq_false_iff.mpr newline),
        found, Option.bind_some, inside.stringEnd?]
      rfl
  | case4 here quote newline after missing =>
      have literal := literalCharEnd?_endsAt stands start
      have moved := readLiteralChar_moves ⟨start, []⟩ here
      rw [missing] at literal moved
      obtain ⟨atEnd, found⟩ := literal
      rw [stringEnd?_goesOn stands (Bool.eq_false_iff.mpr quote) (Bool.eq_false_iff.mpr newline),
        found, Option.bind_some, stringEnd?_of_end (length_le (stands.trans moved) atEnd)]
      rfl
  | case5 here quote newline code faults after read _ ih =>
      have found := literalCharEnd?_endsAt stands start
      have moved := readLiteralChar_moves ⟨start, []⟩ here
      rw [read] at found moved
      rw [stringEnd?_goesOn stands (Bool.eq_false_iff.mpr quote) (Bool.eq_false_iff.mpr newline),
        found, Option.bind_some, ih (stands.trans moved.1), Option.map_map]
      rfl

/-- The place behind what has been read. When the reading breaks off, a place that is reached lies
further on, inside a character. -/
def StepsTo (source : List Char) (here : Cursor) : Reading → Option Nat → Prop
  | .piece piece, finish? => finish? = some piece.after.offset
  | .aborted, finish? => ∀ place, finish? = some place → here.offset ≤ place ∧ Inside source place

private theorem readString_stepsTo (stands : (Cursor.start source).Leads here) (start : Nat) :
    StepsTo source here (readString start here) (stringEnd? source here.offset) := by
  rw [stringEnd?_eq stands start, readString]
  cases readStringBody start here with
  | none =>
      intro place found
      cases found
  | some body => rfl

/-- Past a closing quote, if it stands at the place. -/
theorem closeEnd_eq (stands : (Cursor.start source).Leads here) :
    (if nextIs source (· = '\'') here.offset then here.offset + 1 else here.offset) =
      (if here.nextIs (· = '\'') then here.advance else here).offset := by
  rw [nextIs_eq stands (.eq (by decide))]
  split
  · rename_i closes
    exact (advance_offset (.eq (by decide)) closes).symm
  · rfl

private theorem charEnd?_goesOn (stands : (Cursor.start source).Leads here)
    (quote : here.nextIs (· = '\'') = false) :
    charEnd? source here.offset =
      (literalCharEnd? source here.offset).map fun next =>
        if nextIs source (· = '\'') next then next + 1 else next := by
  have none := (nextIs_eq stands (.eq (by decide))).trans quote
  rw [charEnd?, none, Bool.false_or]
  cases next : here.rest with
  | nil =>
      rw [if_pos (decide_eq_true (length_le stands next)), literalCharEnd?, dropBytes?_eq stands,
        next]
      exact congrArg some ((closeEnd_eq stands).trans (by rw [quote]; rfl)).symm
  | cons char rest =>
      have inside := Nat.not_le_of_lt (lt_length stands next)
      rw [if_neg fun atEnd => inside (of_decide_eq_true atEnd)]

private theorem readChar_stepsTo (stands : (Cursor.start source).Leads here) (start : Nat) :
    StepsTo source here (readChar start here) (charEnd? source here.offset) := by
  rw [readChar]
  cases quote : here.nextIs (· = '\'') with
  | true =>
      have closes := (nextIs_eq stands (.eq (by decide))).trans quote
      rw [charEnd?, closes]
      rfl
  | false =>
      have literal := literalCharEnd?_endsAt stands start
      have moved := readLiteralChar_moves ⟨start, []⟩ here
      rw [charEnd?_goesOn stands quote, if_neg Bool.false_ne_true]
      cases read : readLiteralChar start here with
      | aborted =>
          rw [read] at literal
          obtain ⟨place, found, inside⟩ := literal
          obtain ⟨_, _, _, begins⟩ := readLiteralChar_aborted_iff.mp read
          have further := lt_of_literalCharEnd? source (lt_length stands begins) found
          rw [found]
          intro next same
          rw [Option.map_some, inside.nextIs] at same
          cases same
          exact ⟨Nat.le_of_lt further, inside⟩
      | missing after =>
          rw [read] at literal moved
          obtain ⟨atEnd, found⟩ := literal
          rw [found, Option.map_some, closeEnd_eq (stands.trans moved), Cursor.nextIs, atEnd]
          rfl
      | found code faults after =>
          rw [read] at literal moved
          obtain ⟨further, _⟩ := moved
          have found : literalCharEnd? source here.offset = some after.offset := literal
          rw [found, Option.map_some, closeEnd_eq (stands.trans further)]
          dsimp only
          split
          · rfl
          · rfl

private theorem markEnd?_eq {first : Char} {rest : List Char}
    (stands : (Cursor.start source).Leads here)
    (next : here.rest = first :: rest) :
    markEnd? source here.offset = some (readMark here here.advance first).after.offset := by
  have hash := nextIs_eq stands (.eq (by decide : '#'.toNat < 128))
  have ahead := Cursor.over_advance next
  rw [markEnd?, drop_bytes stands, markAt?_bytes, readMark]
  cases found : markAt? here.rest with
  | some mark =>
      obtain ⟨text, token⟩ := mark
      rw [next] at found
      obtain ⟨more, beyond, rfl, rfl⟩ := exists_cons_of_markAt? found
      obtain ⟨offset, _⟩ := here
      cases next
      simp only [Piece.found, Cursor.advance, List.length_cons, Nat.add_sub_cancel, skip_append,
        Text.length_bytes, Text.byteSize, Nat.add_assoc]
  | none =>
      rw [hash, dropBytes?_eq stands, Cursor.nextIs, next]
      simp only [decide_eq_true_eq]
      split
      · rename_i isHash
        rw [isHash] at ahead
        exact congrArg some ahead.offset_eq.symm
      · exact congrArg some ahead.offset_eq.symm

section Steps

variable {first : Char} {rest : List Char} {test testToo : Char → Bool}
  (stands : (Cursor.start source).Leads here) (next : here.rest = first :: rest)
include stands next

private theorem nextIs_first (narrow : Narrow test) :
    nextIs source test here.offset = test first := by
  rw [nextIs_eq stands narrow, Cursor.nextIs, next]

/-- The byte behind a character of ASCII begins the next character. -/
theorem nextIs_both (narrow : Narrow test) (narrowToo : Narrow testToo) :
    (nextIs source test here.offset && nextIs source testToo (here.offset + 1)) =
      (test first && here.advance.nextIs testToo) := by
  rw [nextIs_first stands next narrow]
  cases passes : test first with
  | false => rfl
  | true =>
      have size := (byte?_narrow stands next (narrow first passes)).2
      rw [← size, nextIs_eq (stands.trans (Cursor.leads_advance here)) narrowToo]

private theorem run_first (narrow : Narrow test) (passes : test first = true) :
    run source test here.offset = (here.advance.takeWhile test).2.offset := by
  rw [run_eq stands narrow, takeWhile_advance next passes]

private theorem lineEnd_eq (solid : first ≠ '\n') :
    runOf source (fun byte => !onByte (· = '\n') byte) here.offset =
      (here.advance.takeWhile (· != '\n')).2.offset := by
  rw [runOf_not_eq stands (.eq (by decide))]
  exact congrArg Cursor.offset (takeWhile_advance next (bne_iff_ne.mpr solid))

theorem readPiece_stepsTo :
    StepsTo source here.advance (readPiece here first) (step? source here.offset) := by
  have ahead := stands.trans (Cursor.leads_advance here)
  have size : first.toNat < 128 → here.offset + 1 = here.advance.offset :=
    fun narrow => (byte?_narrow stands next narrow).2.symm
  have slash : Narrow (· = '/') := .eq (by decide)
  simp only [step?, readPiece, nextIs_first stands next .isSpace, nextIs_both stands next slash slash,
    nextIs_both stands next slash (.eq (by decide : '*'.toNat < 128)),
    nextIs_first stands next .isDigit,
    nextIs_both stands next (.eq (by decide : '.'.toNat < 128)) .isDigit,
    nextIs_first stands next .isLetter, nextIs_first stands next (.eq (by decide : '"'.toNat < 128)),
    nextIs_first stands next (.eq (by decide : '\''.toNat < 128)), decide_eq_true_eq]
  split
  · rename_i space
    exact congrArg some (run_first stands next .isSpace space)
  split
  · rename_i opens
    have isSlash := of_decide_eq_true (Bool.and_eq_true_iff.mp opens).1
    refine congrArg some (lineEnd_eq stands next ?_)
    rw [isSlash]
    decide
  split
  · rename_i opens
    obtain ⟨isSlash, star⟩ := Bool.and_eq_true_iff.mp opens
    have sizeToo := advance_offset (.eq (by decide)) star
    rw [← size (slash first isSlash)] at sizeToo
    have body := ahead.trans (Cursor.leads_advance here.advance)
    have finish := commentEnd_eq body here.offset
    rw [sizeToo] at finish
    exact congrArg some finish
  split
  · rename_i begins
    refine numberEnd?_eq stands next ?_
    rcases Bool.or_eq_true_iff.mp begins with digit | point
    · exact .inl digit
    · exact .inr (of_decide_eq_true (Bool.and_eq_true_iff.mp point).1)
  split
  · rename_i letter
    have word : isWordChar first = true := Bool.or_eq_true_iff.mpr (.inl letter)
    have leads := (Cursor.leads_advance here).trans (Cursor.leads_takeWhile isWordChar here.advance)
    rw [run_first stands next .isWordChar word]
    exact cut?_eq stands leads
  split
  · rename_i quote
    rw [size (quote ▸ by decide)]
    exact readString_stepsTo ahead here.offset
  split
  · rename_i quote
    rw [size (quote ▸ by decide)]
    exact readChar_stepsTo ahead here.offset
  · exact markEnd?_eq stands next

end Steps

end MiniC.Lexer.Bytewise
