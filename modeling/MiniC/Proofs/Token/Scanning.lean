import Mathlib.Data.List.Find
import MiniC.Token.Lexer
import MiniC.Proofs.Token.Written
import MiniC.Proofs.Token.Movement

/-!
What one step of the lexer makes of a written token.

Behind the token the text ends or goes on with a blank character. No word, number
or mark goes on with a blank character, so the longest match is the token itself,
and no test of what comes next is passed by mistake.
-/

namespace MiniC.Lexer

open Text (Cursor)

theorem isSpace_iff {char : Char} : isSpace char = true ↔ char ∈ blanks := by
  simp [isSpace, blanks, or_assoc]

private theorem fails_of_isSpace {test : Char → Bool} (solid : blanks.any test = false)
    {char : Char}
    (blank : isSpace char = true) : test char = false :=
  Bool.eq_false_iff.mpr (List.any_eq_false.mp solid char (isSpace_iff.mp blank))

private theorem not_isSpace_of_passes {test : Char → Bool} (solid : blanks.any test = false)
    {char : Char}
    (passes : test char = true) : isSpace char = false := by
  rw [← Bool.not_eq_true]
  intro blank
  rw [fails_of_isSpace solid blank] at passes
  cases passes

private theorem isLetter_eq (char : Char) : isLetter char = (char.isAlpha || char = '_') := by
  have either : char.isAlpha = (char.isUpper || char.isLower) := rfl
  have lower : char.isLower = ('a' ≤ char && char ≤ 'z') := rfl
  have upper : char.isUpper = ('A' ≤ char && char ≤ 'Z') := Bool.decide_and _ _
  rw [isLetter, either, Bool.or_comm char.isUpper, lower, upper]

private theorem isWordChar_eq (char : Char) :
    isWordChar char = (char.isAlphanum || char = '_') := by
  have digit : isDigit char = char.isDigit := rfl
  rw [isWordChar, isLetter_eq, digit, Char.isAlphanum, Bool.or_assoc, Bool.or_assoc,
    Bool.or_comm (decide _)]

/-- No character at the start of the text passes the test. -/
def Stops (test : Char → Bool) (text : List Char) : Prop :=
  ∀ char, text.head? = some char → test char = false

def Ends (rest : List Char) : Prop := ∀ char, rest.head? = some char → isSpace char = true

theorem Ends.stops {rest : List Char} (ends : Ends rest) {test : Char → Bool}
    (solid : blanks.any test = false) : Stops test rest :=
  fun char first => fails_of_isSpace solid (ends char first)

theorem Stops.append {test : Char → Bool} {more rest : List Char}
    (fails : ∀ char ∈ more, test char = false) (stops : Stops test rest) :
    Stops test (more ++ rest) := by
  intro char first
  cases more with
  | nil => exact stops char first
  | cons head tail =>
      cases first
      exact fails char List.mem_cons_self

section Moves

variable {test : Char → Bool} {offset : Nat} {more rest : List Char}

theorem takeWhile_append (all : ∀ char ∈ more, test char = true) (stops : Stops test rest) :
    Cursor.takeWhile test ⟨offset, more ++ rest⟩ =
      (more, ⟨offset + Text.byteSize more, rest⟩) := by
  have nothing : rest.takeWhile test = [] ∧ rest.dropWhile test = rest := by
    cases rest with
    | nil => exact ⟨rfl, rfl⟩
    | cons char rest =>
        have fails := stops char rfl
        simp only [List.takeWhile_cons, List.dropWhile_cons, fails, Bool.false_eq_true, if_false,
          and_self]
  simp only [Cursor.takeWhile, List.takeWhile_append_of_pos all, List.dropWhile_append_of_pos all,
    nothing, List.append_nil]

private theorem nextIs_of_stops (stops : Stops test rest) :
    Cursor.nextIs test ⟨offset, rest⟩ = false := by
  cases rest with
  | nil => rfl
  | cons char rest => exact stops char rfl

theorem skip_append (offset : Nat) (more rest : List Char) :
    Cursor.skip more.length ⟨offset, more ++ rest⟩ = ⟨offset + Text.byteSize more, rest⟩ := by
  induction more generalizing offset with
  | nil => rfl
  | cons char more ih =>
      change Cursor.skip more.length ⟨offset + char.utf8Size, more ++ rest⟩ = _
      rw [ih, Text.byteSize, Nat.add_assoc]

end Moves

/-- One step reads the text as the token, wherever it ends. -/
def Reads (token : Token) (text : List Char) : Prop :=
  ∃ first more, text = first :: more ∧ isSpace first = false ∧
    ∀ rest offset, Ends rest → ∃ finish,
      readPiece ⟨offset, first :: (more ++ rest)⟩ first = .piece (.found token ⟨finish, rest⟩)

private theorem not_isDigit_of_isLetter {char : Char} (letter : isLetter char = true) :
    isDigit char = false := by
  rw [← Bool.not_eq_true]
  intro digit
  simp only [isLetter, isDigit, Char.le_def, UInt32.le_iff_toNat_le, Bool.or_eq_true,
    Bool.and_eq_true, decide_eq_true_eq] at letter digit
  have nine : '9'.val.toNat = 57 := rfl
  rcases letter with (small | capital) | rfl
  · have a : 'a'.val.toNat = 97 := rfl
    omega
  · have a : 'A'.val.toNat = 65 := rfl
    omega
  · exact absurd digit.2 (by decide)

private theorem readPiece_word {first : Char} {more rest : List Char}
    (letter : isLetter first = true)
    (word : ∀ char ∈ more, isWordChar char = true) (ends : Ends rest) (offset : Nat) :
    readPiece ⟨offset, first :: (more ++ rest)⟩ first =
      .piece (.found (wordToken (first :: more))
        ⟨offset + first.utf8Size + Text.byteSize more, rest⟩) := by
  have slash : first ≠ '/' := by
    rintro rfl
    cases letter
  have point : first ≠ '.' := by
    rintro rfl
    cases letter
  have taken : Cursor.takeWhile isWordChar ⟨offset + first.utf8Size, more ++ rest⟩ = _ :=
    takeWhile_append word (ends.stops (by decide))
  simp only [readPiece, Cursor.advance, not_isSpace_of_passes rfl letter,
    not_isDigit_of_isLetter letter, letter, slash, point, taken]
  simp

private theorem lookup_words {token : Token} {text : String} (listed : text ∈ token.words) :
    words.lookup text = some token := by
  cases token with
  | keyword word =>
      cases word <;> simp only [Token.words, Keyword.spellings, List.mem_cons, List.not_mem_nil,
        or_false] at listed
      case qualifier =>
        rcases listed with rfl | rfl | rfl | rfl | rfl <;> rfl
      all_goals
        subst listed
        rfl
  | typeWord word =>
      cases word <;> simp only [Token.words, TypeWord.spellings, List.mem_cons, List.not_mem_nil,
        or_false] at listed
      case bool =>
        rcases listed with rfl | rfl <;> rfl
      all_goals
        subst listed
        rfl
  | _ => cases listed

private theorem lookup_words_eq_none {name : String} (free : ¬ isReserved name) :
    words.lookup name = none := by
  have all : (words.all fun entry => entry.2.words.contains entry.1) = true := by decide
  cases found : words.lookup name with
  | none => rfl
  | some token =>
      obtain ⟨before, after, same, -⟩ := List.lookup_eq_some_iff.mp found
      have listed : (name, token) ∈ words := by
        rw [same]
        exact List.mem_append_right before List.mem_cons_self
      have reserved := List.all_eq_true.mp all (name, token) listed
      exact absurd ⟨token, List.contains_iff_mem.mp reserved⟩ free

private theorem isName_of_words {token : Token} {text : String} (listed : text ∈ token.words) :
    isName text.toList = true := by
  have all : (token.words.all fun text => isName text.toList) = true := by
    cases token with
    | keyword word => cases word <;> decide
    | typeWord word => cases word <;> decide
    | _ => rfl
  exact List.all_eq_true.mp all text listed

private theorem reads_name {text : List Char} (name : isName text = true) :
    Reads (wordToken text) text := by
  cases text with
  | nil => cases name
  | cons first more =>
      simp only [isName, Bool.and_eq_true, List.all_eq_true] at name
      have letter : isLetter first = true := (isLetter_eq first).trans name.1
      have word : ∀ char ∈ more, isWordChar char = true := by
        intro char listed
        exact (isWordChar_eq char).trans (name.2 char listed)
      refine ⟨first, more, rfl, not_isSpace_of_passes rfl letter, ?_⟩
      intro rest offset ends
      exact ⟨_, readPiece_word letter word ends offset⟩

private theorem reads_word {token : Token} {text : String} (listed : text ∈ token.words) :
    Reads token text.toList := by
  have same : wordToken text.toList = token := by
    rw [wordToken, String.ofList_toList, lookup_words listed, Option.getD_some]
  exact same ▸ reads_name (isName_of_words listed)

private theorem reads_ident {name : String} (isName : isName name.toList = true)
    (free : ¬ isReserved name) : Reads (.ident name) name.toList := by
  have same : wordToken name.toList = .ident name := by
    rw [wordToken, String.ofList_toList, lookup_words_eq_none free, Option.getD_none]
  exact same ▸ reads_name isName

theorem isPrefixOf_append {mark text rest : List Char}
    (solid : ∀ char ∈ mark, isSpace char = false) (ends : Ends rest) :
    mark.isPrefixOf (text ++ rest) = mark.isPrefixOf text := by
  induction mark generalizing text with
  | nil => rfl
  | cons char mark ih =>
      cases text with
      | cons first text =>
          simp only [List.cons_append, List.isPrefixOf_cons_cons]
          rw [ih fun other listed => solid other (List.mem_cons_of_mem char listed)]
      | nil =>
          cases rest with
          | nil => rfl
          | cons next rest =>
              have different : (char == next) = false := by
                rw [beq_eq_false_iff_ne]
                rintro rfl
                have blank := ends char rfl
                rw [solid char List.mem_cons_self] at blank
                cases blank
              simp only [List.nil_append, List.isPrefixOf_cons_cons, different, Bool.false_and,
                List.isPrefixOf_cons_nil]

/-- Blank characters behind a mark make no longer mark of it. -/
theorem markAt?_append {text rest : List Char} (ends : Ends rest) :
    markAt? (text ++ rest) = markAt? text := by
  have solid : (marks.all fun mark => mark.1.all fun char => !isSpace char) = true := by decide
  have same : ∀ mark ∈ marks, mark.1.isPrefixOf (text ++ rest) = mark.1.isPrefixOf text := by
    intro mark listed
    refine isPrefixOf_append ?_ ends
    intro char inside
    have chars := List.all_eq_true.mp solid mark listed
    exact (Bool.not_eq_true' _).mp (List.all_eq_true.mp chars char inside)
  unfold markAt?
  rw [List.find?_congr same]

/-- The first character begins no literal, word or gap, and no later one makes it begin a comment
or a number. -/
def isPlain : List Char → Bool
  | [] => false
  | first :: more =>
      !isSpace first && !isDigit first && !isLetter first && first != '"' && first != '\'' &&
        more.all fun char => char != '/' && char != '*' && !isDigit char

private theorem reads_of_markAt? {text : List Char} {token : Token} (plain : isPlain text = true)
    (found : markAt? text = some (text, token)) : Reads token text := by
  cases text with
  | nil => cases plain
  | cons first more =>
      simp only [isPlain, Bool.and_eq_true, Bool.not_eq_true', bne_iff_ne, List.all_eq_true]
        at plain
      obtain ⟨⟨⟨⟨⟨space, digit⟩, letter⟩, double⟩, single⟩, plainMore⟩ := plain
      refine ⟨first, more, rfl, space, ?_⟩
      intro rest offset ends
      have slash : Stops (· = '/') (more ++ rest) :=
        .append (fun char listed => decide_eq_false (plainMore char listed).1.1) (ends.stops rfl)
      have star : Stops (· = '*') (more ++ rest) :=
        .append (fun char listed => decide_eq_false (plainMore char listed).1.2) (ends.stops rfl)
      have number : Stops isDigit (more ++ rest) :=
        .append (fun char listed => (plainMore char listed).2) (ends.stops (by decide))
      have whole : markAt? (first :: (more ++ rest)) = some (first :: more, token) :=
        (markAt?_append ends).trans found
      refine ⟨offset + first.utf8Size + Text.byteSize more, ?_⟩
      simp only [readPiece, Cursor.advance, space, digit, letter, double, single,
        nextIs_of_stops slash, nextIs_of_stops star, nextIs_of_stops number, readMark, whole,
        Bool.and_false, Bool.or_false, Bool.false_eq_true, if_false, List.length_cons,
        Nat.add_sub_cancel, skip_append]

private theorem markAt?_marks {token : Token} {text : String} (listed : text ∈ token.marks) :
    markAt? text.toList = some (text.toList, token) ∧ isPlain text.toList = true := by
  cases token with
  | punct mark =>
      obtain rfl := List.mem_singleton.mp listed
      cases mark <;> exact ⟨rfl, rfl⟩
  | opAssign op =>
      have spelled : op.assignSpelling? = some text := Option.mem_toList.mp listed
      cases op <;> cases spelled <;> exact ⟨rfl, rfl⟩
  | _ => cases listed

private theorem reads_mark {token : Token} {text : String} (listed : text ∈ token.marks) :
    Reads token text.toList :=
  reads_of_markAt? (markAt?_marks listed).2 (markAt?_marks listed).1

/-! ### Digits and numbers -/

theorem numberOf_eq (base : Nat) (digits : List Char) :
    numberOf base digits = (digits.map digitValue).foldl (fun number digit => number * base + digit) 0 := by
  rw [numberOf, List.foldl_map]

theorem digitValue_digitChar : ∀ digit, digit < 16 → digitValue (Nat.digitChar digit) = digit := by
  decide

section ToDigits

variable {base : Nat} (large : 1 < base) (small : base ≤ 16)

include large

theorem exists_of_mem_toDigits {value : Nat} {char : Char} (listed : char ∈ Nat.toDigits base value) :
    ∃ digit, digit < base ∧ char = Nat.digitChar digit := by
  induction value using Nat.strongRecOn with
  | ind value ih =>
      by_cases single : value < base
      · rw [Nat.toDigits_of_lt_base single, List.mem_singleton] at listed
        exact ⟨value, single, listed⟩
      · rw [Nat.toDigits_of_base_le large (Nat.not_lt.mp single), List.mem_append,
          List.mem_singleton] at listed
        rcases listed with leading | last
        · exact ih (value / base) (Nat.div_lt_self (by omega) large) leading
        · exact ⟨value % base, Nat.mod_lt value (by omega), last⟩

include small

private theorem numberOf_toDigits (value : Nat) :
    numberOf base (Nat.toDigits base value) = value := by
  induction value using Nat.strongRecOn with
  | ind value ih =>
      by_cases single : value < base
      · rw [Nat.toDigits_of_lt_base single]
        simp only [numberOf, List.foldl_cons, List.foldl_nil, Nat.zero_mul, Nat.zero_add]
        exact digitValue_digitChar value (by omega)
      · have leading := ih (value / base) (Nat.div_lt_self (by omega) large)
        have last := digitValue_digitChar (value % base)
          (Nat.lt_of_lt_of_le (Nat.mod_lt value (by omega)) small)
        rw [Nat.toDigits_of_base_le large (Nat.not_lt.mp single), numberOf, List.foldl_append]
        change numberOf base _ * base + digitValue _ = value
        rw [leading, last, Nat.mul_comm, Nat.div_add_mod]

/-- Only the number zero is written with a zero in front. -/
theorem eq_zero_of_toDigits {value : Nat} {more : List Char}
    (same : Nat.toDigits base value = '0' :: more) : value = 0 ∧ more = [] := by
  have zero : value = 0 := by
    induction value using Nat.strongRecOn generalizing more with
    | ind value ih =>
        by_cases single : value < base
        · rw [Nat.toDigits_of_lt_base single] at same
          have value0 := digitValue_digitChar value (by omega)
          rw [(List.cons.inj same).1] at value0
          exact value0.symm
        · rw [Nat.toDigits_of_base_le large (Nat.not_lt.mp single)] at same
          cases leading : Nat.toDigits base (value / base) with
          | nil => exact absurd leading Nat.toDigits_ne_nil
          | cons first others =>
              rw [leading] at same
              have first0 : first = '0' := (List.cons.inj same).1
              have none := ih (value / base) (Nat.div_lt_self (by omega) large)
                (first0 ▸ leading)
              have := Nat.div_pos (Nat.not_lt.mp single) (by omega)
              omega
  rw [zero, Nat.toDigits_of_lt_base (by omega)] at same
  exact ⟨zero, (List.cons.inj same).2.symm⟩

/-- Zeros in front of the digits of a number. -/
theorem numberOf_padded (zeros value : Nat) :
    numberOf base (List.replicate zeros '0' ++ Nat.toDigits base value) = value := by
  have zero : numberOf base (List.replicate zeros '0') = 0 := by
    induction zeros with
    | zero => rfl
    | succ zeros ih =>
        rw [List.replicate_succ', numberOf, List.foldl_append]
        change numberOf base (List.replicate zeros '0') * base + 0 = 0
        rw [ih, Nat.zero_mul]
  rw [numberOf, List.foldl_append]
  change (Nat.toDigits base value).foldl _ (numberOf base (List.replicate zeros '0')) = value
  rw [zero]
  exact numberOf_toDigits large small value

end ToDigits

private theorem exists_of_mem_padded {base zeros value : Nat} (large : 1 < base) {char : Char}
    (listed : char ∈ List.replicate zeros '0' ++ Nat.toDigits base value) :
    ∃ digit, digit < base ∧ char = Nat.digitChar digit := by
  rcases List.mem_append.mp listed with zero | digit
  · exact ⟨0, Nat.zero_lt_of_lt large, List.eq_of_mem_replicate zero⟩
  · exact exists_of_mem_toDigits large digit

theorem padded_ne_nil {base zeros value : Nat} :
    List.replicate zeros '0' ++ Nat.toDigits base value ≠ [] :=
  List.append_ne_nil_of_right_ne_nil _ Nat.toDigits_ne_nil

def below? (bound number : Nat) : Option Nat := if number < bound then some number else none

private theorem readNumber?_of_digits {base : Nat} (bound : Nat) {digits : List Char}
    (nonempty : digits ≠ []) (below : ∀ char ∈ digits, digitValue char < base) :
    readNumber? base bound digits = below? bound (numberOf base digits) := by
  have empty : digits.isEmpty = false := by
    cases digits with
    | nil => exact absurd rfl nonempty
    | cons first more => rfl
  have fits : (digits.any (base ≤ digitValue ·)) = false := by
    rw [List.any_eq_false]
    intro char listed
    rw [decide_eq_true_eq, Nat.not_le]
    exact below char listed
  simp only [readNumber?, empty, fits, Bool.or_self, Bool.false_eq_true, if_false, below?]

private theorem readNumber?_padded {base : Nat} (large : 1 < base) (small : base ≤ 16)
    (bound zeros value : Nat) :
    readNumber? base bound (List.replicate zeros '0' ++ Nat.toDigits base value) =
      below? bound value := by
  rw [readNumber?_of_digits bound padded_ne_nil, numberOf_padded large small]
  intro char listed
  obtain ⟨digit, below, rfl⟩ := exists_of_mem_padded large listed
  rw [digitValue_digitChar digit (Nat.lt_of_lt_of_le below small)]
  exact below

/-- A digit of base sixteen in either case. -/
theorem hexDigit_of_toLower {char : Char} {digit : Nat} (small : digit < 16)
    (same : char.toLower = Nat.digitChar digit) :
    isHexDigit char = true ∧ digitValue char = digit := by
  have lower : ∀ digit, digit < 16 → isHexDigit (Nat.digitChar digit) = true ∧
      digitValue (Nat.digitChar digit) = digit := by decide
  have upper : ∀ digit, digit < 16 → ∀ code, code < 91 → 65 ≤ code →
      code + 32 = (Nat.digitChar digit).toNat →
      isHexDigit (Char.ofNat code) = true ∧ digitValue (Char.ofNat code) = digit := by
    decide +kernel
  unfold Char.toLower at same
  split at same
  · rename_i capital
    simp only [ge_iff_le, UInt32.le_iff_toNat_le] at capital
    have least : 'A'.val.toNat = 65 := rfl
    have greatest : 'Z'.val.toNat = 90 := rfl
    have shift : ('a'.val - 'A'.val).toNat = 32 := rfl
    have code : char.toNat + 32 = (Nat.digitChar digit).toNat := by
      rw [← same]
      change char.val.toNat + 32 = (char.val + ('a'.val - 'A'.val)).toNat
      rw [UInt32.toNat_add, shift]
      omega
    have found := upper digit small char.toNat (Nat.lt_succ_of_le (greatest ▸ capital.2))
      (least ▸ capital.1) code
    rw [Char.ofNat_toNat] at found
    exact found
  · rw [same]
    exact lower digit small

section Integers

variable {unsigned long : Bool} {suffix rest : List Char}

private theorem stops_of_isSuffix (isSuffix : IsSuffix unsigned long suffix) (ends : Ends rest)
    {test : Char → Bool} (fails : ['u', 'U', 'l', 'L'].any test = false)
    (solid : blanks.any test = false) : Stops test (suffix ++ rest) := by
  refine .append ?_ (ends.stops solid)
  intro char listed
  refine Bool.eq_false_iff.mpr (List.any_eq_false.mp fails char ?_)
  rcases isSuffix.letters char listed with rfl | rfl | rfl | rfl <;> decide

theorem any_or_iff {first second : Char} :
    (suffix.any fun char => char = first || char = second) = true ↔
      first ∈ suffix ∨ second ∈ suffix := by
  constructor
  · intro found
    obtain ⟨char, listed, same⟩ := List.any_eq_true.mp found
    rw [Bool.or_eq_true, decide_eq_true_eq, decide_eq_true_eq] at same
    rcases same with rfl | rfl
    · exact Or.inl listed
    · exact Or.inr listed
  · rintro (listed | listed)
    · exact List.any_eq_true.mpr ⟨first, listed, by rw [decide_eq_true rfl, Bool.true_or]⟩
    · exact List.any_eq_true.mpr ⟨second, listed, by rw [decide_eq_true rfl, Bool.or_true]⟩

def integerPiece (start : Nat) (text : List Char) (number : Nat) (unsigned long based : Bool)
    (after : Cursor) : Piece :=
  if number < Nat.pow 2 64 then .found (.int ⟨UInt64.ofNat number, unsigned, long, based⟩) after
  else .failed s!"Integer literal out of range: {String.ofList text}" start after

private theorem finishInteger_suffix (isSuffix : IsSuffix unsigned long suffix) (ends : Ends rest)
    (start : Nat) (spelling : List Char) (number : Nat) (based : Bool) (offset : Nat) :
    finishInteger start spelling (below? (Nat.pow 2 64) number) based ⟨offset, suffix ++ rest⟩ =
      integerPiece start (spelling ++ suffix) number unsigned long based
        ⟨offset + Text.byteSize suffix, rest⟩ := by
  have letters : ∀ char ∈ suffix, (isUnsignedSuffix char || isLongSuffix char) = true := by
    intro char listed
    rcases isSuffix.letters char listed with rfl | rfl | rfl | rfl <;> rfl
  have taken : Cursor.takeWhile (fun char => isUnsignedSuffix char || isLongSuffix char)
      ⟨offset, suffix ++ rest⟩ = _ :=
    takeWhile_append letters (ends.stops rfl)
  have nothing : Cursor.takeWhile isWordChar ⟨offset + Text.byteSize suffix, [] ++ rest⟩ = _ :=
    takeWhile_append (fun _ listed => nomatch listed) (ends.stops rfl)
  have unsignedSuffix : suffix.any isUnsignedSuffix = unsigned := by
    rw [Bool.eq_iff_iff, isSuffix.unsigned_iff]
    exact any_or_iff
  have longSuffix : suffix.any isLongSuffix = long := by
    rw [Bool.eq_iff_iff, isSuffix.long_iff]
    exact any_or_iff
  rw [List.nil_append] at nothing
  simp only [finishInteger, taken, nothing, List.isEmpty_nil, Bool.not_true, Bool.false_eq_true,
    if_false, unsignedSuffix, longSuffix, Text.byteSize, Nat.add_zero]
  by_cases small : number < Nat.pow 2 64
  · simp only [below?, integerPiece, if_pos small]
  · simp only [below?, integerPiece, if_neg small]

private theorem readMantissa_digits {first : Char} {digits behind : List Char} (point : first ≠ '.')
    (all : ∀ char ∈ digits, isDigit char = true) (noDigit : Stops isDigit behind)
    (noPoint : Stops (· = '.') behind) (offset : Nat) :
    readMantissa first ⟨offset, digits ++ behind⟩ =
      ⟨first :: digits, [], false, ⟨offset + Text.byteSize digits, behind⟩⟩ := by
  simp only [readMantissa, if_neg point, takeWhile_append all noDigit, nextIs_of_stops noPoint,
    Bool.false_eq_true, if_false]

private theorem readExponent?_of_stops {behind : List Char}
    (stops : Stops (fun char => char = 'e' || char = 'E') behind) (offset : Nat) :
    readExponent? ⟨offset, behind⟩ = none := by
  simp only [readExponent?, nextIs_of_stops stops, Bool.false_eq_true, if_false]

private theorem readPiece_digit {first : Char} (digit : isDigit first = true) (offset : Nat)
    (behind : List Char) :
    readPiece ⟨offset, first :: behind⟩ first =
      .piece (readNumber offset first ⟨offset + first.utf8Size, behind⟩) := by
  have slash : first ≠ '/' := by
    rintro rfl
    cases digit
  have space : isSpace first = false := not_isSpace_of_passes rfl digit
  simp only [readPiece, Cursor.advance, space, digit, slash, decide_false, Bool.false_and,
    Bool.true_or, Bool.false_eq_true, if_false, if_true]

/-- Digits with a suffix are an integer, of base eight if a zero leads them. -/
theorem readNumber_digits {first : Char} {digits : List Char} {octal : Bool}
    (digit : isDigit first = true) (all : ∀ char ∈ digits, isDigit char = true)
    (leads : (decide (first = '0') && decide (1 < (first :: digits).length)) = octal)
    (isSuffix : IsSuffix unsigned long suffix) (ends : Ends rest) (start place : Nat) :
    readNumber start first ⟨place, digits ++ (suffix ++ rest)⟩ =
      finishInteger start (first :: digits)
        (if octal then readNumber? 8 (Nat.pow 2 64) digits
          else readNumber? 10 (Nat.pow 2 64) (first :: digits))
        octal ⟨place + Text.byteSize digits, suffix ++ rest⟩ := by
  have point : first ≠ '.' := by
    rintro rfl
    cases digit
  have mantissa := readMantissa_digits point all (stops_of_isSuffix isSuffix ends rfl rfl)
    (stops_of_isSuffix isSuffix ends rfl rfl) place
  have exponent := readExponent?_of_stops (stops_of_isSuffix isSuffix ends rfl rfl)
    (place + Text.byteSize digits)
  have noLetter : Stops (fun char => char = 'x' || char = 'X') (digits ++ (suffix ++ rest)) := by
    refine .append ?_ (stops_of_isSuffix isSuffix ends rfl rfl)
    intro char listed
    rw [← Bool.not_eq_true, Bool.or_eq_true, decide_eq_true_eq, decide_eq_true_eq]
    have isDigit := all char listed
    rintro (rfl | rfl) <;> cases isDigit
  simp only [readNumber, nextIs_of_stops noLetter, Bool.and_false, readDecimal, mantissa, exponent,
    leads, Option.isSome_none, Bool.or_self, Bool.false_eq_true, if_false, List.tail_cons]

private theorem isDigit_of_mem_toDigits {base value : Nat} (large : 1 < base) (small : base ≤ 10)
    {char : Char} (listed : char ∈ Nat.toDigits base value) : isDigit char = true :=
  Nat.isDigit_of_mem_toDigits (Nat.zero_lt_of_lt large) small listed

private theorem readNumber?_of_toLower {digits : List Char} {zeros value : Nat} (bound : Nat)
    (spelled : digits.map Char.toLower = List.replicate zeros '0' ++ Nat.toDigits 16 value) :
    (∀ char ∈ digits, isHexDigit char = true) ∧
      readNumber? 16 bound digits = below? bound value := by
  have each : ∀ char ∈ digits, isHexDigit char = true ∧ digitValue char < 16 ∧
      digitValue char = digitValue char.toLower := by
    intro char listed
    have lower : char.toLower ∈ List.replicate zeros '0' ++ Nat.toDigits 16 value :=
      spelled ▸ List.mem_map_of_mem listed
    obtain ⟨digit, small, same⟩ := exists_of_mem_padded (by decide) lower
    obtain ⟨hex, found⟩ := hexDigit_of_toLower small same
    rw [same, digitValue_digitChar digit small, found]
    exact ⟨hex, small, rfl⟩
  have nonempty : digits ≠ [] := by
    rintro rfl
    exact padded_ne_nil spelled.symm
  have values : digits.map digitValue =
      (List.replicate zeros '0' ++ Nat.toDigits 16 value).map digitValue := by
    rw [← spelled, List.map_map]
    exact List.map_congr_left fun char listed => (each char listed).2.2
  have same : numberOf 16 digits = value := by
    rw [numberOf_eq, values, ← numberOf_eq]
    exact numberOf_padded (by decide) (Nat.le_refl 16) zeros value
  refine ⟨fun char listed => (each char listed).1, ?_⟩
  rw [readNumber?_of_digits bound nonempty (fun char listed => (each char listed).2.1), same]

/-- A step that begins at a numeral reads it up to its suffix, as the number that it spells. -/
theorem readNumber_numeral {based : Bool} {number : Nat} {digits : List Char}
    (numeral : Numeral based number digits) (isSuffix : IsSuffix unsigned long suffix) :
    ∃ first more, digits = first :: more ∧ isDigit first = true ∧
      ∀ rest, Ends rest → ∀ start place,
        readNumber start first ⟨place, more ++ (suffix ++ rest)⟩ =
          finishInteger start digits (below? (Nat.pow 2 64) number) based
            ⟨place + Text.byteSize more, suffix ++ rest⟩ := by
  cases numeral with
  | decimal =>
      have value : readNumber? 10 (Nat.pow 2 64) (Nat.toDigits 10 number) = _ :=
        readNumber?_padded (by decide) (by decide) (Nat.pow 2 64) 0 number
      cases spelled : Nat.toDigits 10 number with
      | nil => exact absurd spelled Nat.toDigits_ne_nil
      | cons first more =>
          have all : ∀ char ∈ first :: more, isDigit char = true := by
            intro char listed
            exact isDigit_of_mem_toDigits (by decide) (Nat.le_refl 10) (spelled ▸ listed)
          obtain ⟨digit, moreDigits⟩ := List.forall_mem_cons.mp all
          refine ⟨first, more, rfl, digit, ?_⟩
          intro rest ends start place
          -- only the number zero begins with a zero, and no digit stands behind it
          have octal : (decide (first = '0') && decide (1 < (first :: more).length)) = false := by
            by_cases zero : first = '0'
            · have alone := (eq_zero_of_toDigits (by decide) (by decide) (zero ▸ spelled)).2
              rw [alone, List.length_singleton, decide_eq_false (Nat.lt_irrefl 1), Bool.and_false]
            · rw [decide_eq_false zero, Bool.false_and]
          rw [readNumber_digits digit moreDigits octal isSuffix ends, ← spelled, value]
          rfl
  | octal zeros =>
      refine ⟨'0', _, rfl, rfl, ?_⟩
      intro rest ends start place
      have all : ∀ char ∈ List.replicate zeros '0' ++ Nat.toDigits 8 number,
          isDigit char = true := by
        intro char listed
        rcases List.mem_append.mp listed with zero | digit
        · rw [List.eq_of_mem_replicate zero]
          rfl
        · exact isDigit_of_mem_toDigits (by decide) (by decide) digit
      have octal : (decide ('0' = '0') &&
          decide (1 < ('0' :: (List.replicate zeros '0' ++ Nat.toDigits 8 number)).length)) = true :=
        decide_eq_true (Nat.succ_lt_succ (List.length_pos_iff.mpr padded_ne_nil))
      rw [readNumber_digits rfl all octal isSuffix ends, if_pos rfl,
        readNumber?_padded (by decide) (by decide)]
  | @hexadecimal letter digits zeros _ marked spelled =>
      obtain ⟨isHex, value⟩ := readNumber?_of_toLower (Nat.pow 2 64) spelled
      refine ⟨'0', letter :: digits, rfl, rfl, ?_⟩
      intro rest ends start place
      have hex : (decide (letter = 'x') || decide (letter = 'X')) = true := by
        rcases marked with rfl | rfl <;> rfl
      have taken (place : Nat) :
          Cursor.takeWhile isHexDigit ⟨place, digits ++ (suffix ++ rest)⟩ = _ :=
        takeWhile_append isHex (stops_of_isSuffix isSuffix ends rfl rfl)
      simp only [readNumber, List.cons_append, Cursor.nextIs, hex, decide_true, Bool.and_self,
        if_true, Cursor.advance, taken, value, Text.byteSize, Nat.add_assoc, List.take_succ_cons,
        List.take_zero, List.cons_append, List.nil_append]

/-- One step reads a numeral and its suffix as a token, or reports that the number is too large. -/
theorem readPiece_numeral {based : Bool} {number : Nat} {digits : List Char}
    (numeral : Numeral based number digits) (isSuffix : IsSuffix unsigned long suffix) :
    ∃ first more, digits ++ suffix = first :: more ∧ isDigit first = true ∧
      ∀ rest, Ends rest → ∀ offset,
        readPiece ⟨offset, first :: (more ++ rest)⟩ first =
          .piece (integerPiece offset (digits ++ suffix) number unsigned long based
            ⟨offset + Text.byteSize (digits ++ suffix), rest⟩) := by
  obtain ⟨first, more, rfl, digit, read⟩ := readNumber_numeral numeral isSuffix
  refine ⟨first, more ++ suffix, rfl, digit, ?_⟩
  intro rest ends offset
  rw [readPiece_digit digit, List.append_assoc, read rest ends, finishInteger_suffix isSuffix ends,
    Text.byteSize_append, Text.byteSize, Nat.add_assoc, Nat.add_assoc, Nat.add_assoc]

private theorem reads_numeral {based : Bool} {value : UInt64} {digits : List Char}
    (numeral : Numeral based value.toNat digits) (isSuffix : IsSuffix unsigned long suffix) :
    Reads (.int ⟨value, unsigned, long, based⟩) (digits ++ suffix) := by
  obtain ⟨first, more, same, digit, read⟩ := readPiece_numeral numeral isSuffix
  refine ⟨first, more, same, not_isSpace_of_passes rfl digit, ?_⟩
  intro rest offset ends
  refine ⟨offset + Text.byteSize (digits ++ suffix), ?_⟩
  rw [read rest ends offset, integerPiece, if_pos value.toNat_lt, UInt64.ofNat_toNat]

end Integers

/-! ### Literals in quotes -/

section Quotes

variable {quote char : Char} {spelled text body rest : List Char}

private theorem readLiteralChar_written (written : CharWritten quote char spelled)
    (start offset : Nat)
    (behind : List Char) : ∃ finish,
    readLiteralChar start ⟨offset, spelled ++ behind⟩ = .found char.val [] ⟨finish, behind⟩ := by
  cases written with
  | raw _ backslash _ =>
      refine ⟨offset + char.utf8Size, ?_⟩
      simp only [List.cons_append, List.nil_append, readLiteralChar, if_neg backslash,
        Cursor.advance]
  | @escaped letter named =>
      refine ⟨offset + '\\'.utf8Size + letter.utf8Size, ?_⟩
      unfold escapeLetter? at named
      split at named <;> cases named <;> rfl

/-- No written character begins like the end of a literal. -/
theorem stops_written (written : CharWritten quote char spelled) (behind : List Char) {stop : Char}
    (ends : stop = quote ∨ stop = '\n') (backslash : stop ≠ '\\') :
    Stops (· = stop) (spelled ++ behind) := by
  intro first begins
  refine decide_eq_false ?_
  rintro rfl
  cases written with
  | raw notQuote _ notNewline =>
      cases begins
      exact ends.elim notQuote notNewline
  | escaped _ =>
      cases begins
      exact backslash rfl

theorem readStringBody_of_found {start : Nat} {here after finish : Cursor} {code : UInt32}
    {more : List Diagnostic} (quote : here.nextIs (· = '"') = false)
    (newline : here.nextIs (· = '\n') = false)
    (found : readLiteralChar start here = .found code [] after)
    (behind : readStringBody start after = some (text, more, finish)) :
    readStringBody start here = some (Char.ofNat code.toNat :: text, more, finish) := by
  rw [readStringBody]
  simp only [quote, newline, Bool.false_eq_true, if_false]
  split
  · rename_i other
    rw [found] at other
    cases other
  · rename_i other
    rw [found] at other
    cases other
  · rename_i other
    rw [found] at other
    cases other
    rw [behind]
    rfl

private theorem readStringBody_written (written : TextWritten '"' text body) (start offset : Nat)
    (rest : List Char) : ∃ finish,
    readStringBody start ⟨offset, body ++ '"' :: rest⟩ = some (text, [], ⟨finish, rest⟩) := by
  induction written generalizing offset with
  | nil =>
      refine ⟨offset + '"'.utf8Size, ?_⟩
      rw [readStringBody]
      rfl
  | @cons char spelled text body first others ih =>
      rw [List.append_assoc]
      obtain ⟨between, found⟩ := readLiteralChar_written first start offset (body ++ '"' :: rest)
      obtain ⟨finish, behind⟩ := ih between
      have quote := stops_written first (body ++ '"' :: rest) (Or.inl rfl) (by decide)
      have newline := stops_written first (body ++ '"' :: rest) (Or.inr rfl) (by decide)
      refine ⟨finish, ?_⟩
      rw [readStringBody_of_found (nextIs_of_stops quote) (nextIs_of_stops newline) found behind]
      change some (Char.ofNat char.toNat :: text, _) = _
      rw [Char.ofNat_toNat]

private theorem reads_string {text : String} (written : TextWritten '"' text.toList body) :
    Reads (.string text) ('"' :: (body ++ ['"'])) := by
  refine ⟨'"', body ++ ['"'], rfl, rfl, ?_⟩
  intro rest offset _
  obtain ⟨finish, read⟩ := readStringBody_written written offset (offset + '"'.utf8Size) rest
  refine ⟨finish, ?_⟩
  change readString offset ⟨offset + '"'.utf8Size, body ++ ['"'] ++ rest⟩ = _
  rw [List.append_assoc, List.singleton_append, readString, read]
  change Reading.piece ⟨some (.string (String.ofList text.toList)), [], _⟩ = _
  rw [String.ofList_toList]
  rfl

private theorem reads_char (written : CharWritten '\'' char spelled) :
    Reads (.char char.val) ('\'' :: (spelled ++ ['\''])) := by
  refine ⟨'\'', spelled ++ ['\''], rfl, rfl, ?_⟩
  intro rest offset _
  obtain ⟨finish, found⟩ :=
    readLiteralChar_written written offset (offset + '\''.utf8Size) ('\'' :: rest)
  have quote := stops_written written ('\'' :: rest) (Or.inl rfl) (by decide)
  refine ⟨finish + '\''.utf8Size, ?_⟩
  change readChar offset ⟨offset + '\''.utf8Size, spelled ++ ['\''] ++ rest⟩ = _
  rw [List.append_assoc, List.singleton_append, readChar, nextIs_of_stops quote, found]
  rfl

end Quotes

theorem reads_of_written {token : Token} {text : List Char} (written : token.Written text) :
    Reads token text := by
  cases written with
  | word listed => exact reads_word listed
  | mark listed => exact reads_mark listed
  | ident name free => exact reads_ident name free
  | decimal isSuffix => exact reads_numeral (.decimal _) isSuffix
  | hexadecimal marked spelled isSuffix =>
      exact reads_numeral (.hexadecimal 0 _ marked spelled) isSuffix
  | string written => exact reads_string written
  | char written => exact reads_char written

end MiniC.Lexer
