import MiniC.Proofs.Token.Movement

/-!
The movement of the lexer over bytes.

Here the place of the lexer is a number into the bytes of the source, and nothing
keeps it at the start of a character. Blank characters, comments, numbers, words and
marks are moved over byte by byte. A character is looked at, or a text cut out, only
in literals, behind numbers and words and where no token begins; if the place is
inside a character then, the scan breaks off.
-/

namespace MiniC

namespace Text

def bytes (text : List Char) : List UInt8 := text.flatMap String.utf8EncodeChar

theorem bytes_toList (text : String) : (bytes text.toList).toByteArray = text.toByteArray :=
  String.utf8Encode_toList

theorem bytes_append (first second : List Char) :
    bytes (first ++ second) = bytes first ++ bytes second :=
  List.flatMap_append

theorem length_bytes (text : List Char) : (bytes text).length = byteSize text := by
  induction text with
  | nil => rfl
  | cons char text ih =>
      rw [bytes, List.flatMap_cons, List.length_append, String.length_utf8EncodeChar, byteSize]
      exact congrArg _ ih

/-- A text can be cut at a place just where a character starts or the text ends. -/
theorem exists_of_dropBytes? {place : Nat} {text rest : List Char}
    (found : dropBytes? place text = some rest) :
    ∃ before, text = before ++ rest ∧ place = byteSize before := by
  induction text generalizing place with
  | nil =>
      cases place with
      | zero =>
          rw [dropBytes?] at found
          cases found
          exact ⟨[], rfl, rfl⟩
      | succ place =>
          rw [dropBytes?] at found
          cases found
  | cons char text ih =>
      cases place with
      | zero =>
          rw [dropBytes?] at found
          cases found
          exact ⟨[], rfl, rfl⟩
      | succ place =>
          rw [dropBytes?] at found
          split at found
          · rename_i fits
            obtain ⟨before, rfl, size⟩ := ih found
            refine ⟨char :: before, rfl, ?_⟩
            rw [byteSize, ← size]
            omega
          · cases found

end Text

namespace Lexer

/-- The test of a character, on the byte of a character of ASCII. No other byte passes. -/
def onByte (test : Char → Bool) (byte : UInt8) : Bool :=
  byte.toNat < 128 && test (Char.ofNat byte.toNat)

def isIntegerSuffix (char : Char) : Bool := isUnsignedSuffix char || isLongSuffix char

namespace Bytewise

variable (source : List Char)

def byte? (place : Nat) : Option UInt8 := (Text.bytes source)[place]?

def nextIs (test : Char → Bool) (place : Nat) : Bool := (byte? source place).any (onByte test)

def runOf (test : UInt8 → Bool) (place : Nat) : Nat :=
  place + (((Text.bytes source).drop place).takeWhile test).length

def run (test : Char → Bool) (place : Nat) : Nat := runOf source (onByte test) place

def cut? (start finish : Nat) : Option Nat :=
  (Text.slice? start finish source).map fun _ => finish

def closing? (place : Nat) : List UInt8 → Option Nat
  | [] => none
  | byte :: rest =>
      if onByte (· = '*') byte && rest.head?.any (onByte (· = '/')) then some (place + 2)
      else closing? (place + 1) rest

def commentEnd (place : Nat) : Nat :=
  (closing? place ((Text.bytes source).drop place)).getD (Text.bytes source).length

/-- The end of an integer literal behind its digits. Its text is cut out, as a fault would quote
it. -/
def integerEnd? (start place : Nat) : Option Nat :=
  cut? source start (run source isWordChar (run source isIntegerSuffix place))

def exponentEnd? (place : Nat) : Option Nat :=
  if nextIs source (fun char => char = 'e' || char = 'E') place then
    let signed := nextIs source (· = '-') (place + 1) || nextIs source (· = '+') (place + 1)
    let digits := if signed then place + 2 else place + 1
    if nextIs source isDigit digits then some (run source isDigit digits) else none
  else none

def decimalEnd? (start mantissa : Nat) (point : Bool) : Option Nat :=
  let exponent? := exponentEnd? source mantissa
  let finish := exponent?.getD mantissa
  (cut? source start finish).bind fun _ =>
    if point || exponent?.isSome then
      let suffixed := nextIs source (fun char => char = 'f' || char = 'F') finish ||
        nextIs source isLongSuffix finish
      some (if suffixed then finish + 1 else finish)
    else integerEnd? source start finish

def numberEnd? (start : Nat) : Option Nat :=
  if nextIs source (· = '0') start &&
      nextIs source (fun char => char = 'x' || char = 'X') (start + 1) then
    let finish := run source isHexDigit (start + 2)
    (cut? source (start + 2) finish).bind fun _ => integerEnd? source start finish
  else
    let whole := run source isDigit start
    let point := nextIs source (· = '.') whole
    decimalEnd? source start (if point then run source isDigit (whole + 1) else whole) point

/-- Behind an escape sequence whose backslash ends at the place. Its second character is looked at as
a byte. -/
def escapeEnd? (place : Nat) : Option Nat :=
  match byte? source place with
  | none => some place
  | some byte =>
      if onByte (· = 'x') byte then cut? source (place + 1) (run source isHexDigit (place + 1))
      else some (place + 1)

def literalCharEnd? (place : Nat) : Option Nat :=
  match Text.dropBytes? place source with
  | none => none
  | some [] => some place
  | some (char :: _) =>
      let after := place + char.utf8Size
      if char = '\\' then escapeEnd? source after else some after

private theorem le_run (test : Char → Bool) (place : Nat) : place ≤ run source test place :=
  Nat.le_add_right _ _

private theorem le_of_escapeEnd? {place next : Nat} (found : escapeEnd? source place = some next) :
    place ≤ next := by
  unfold escapeEnd? at found
  split at found
  · cases found
    exact Nat.le_refl _
  · split at found
    · obtain ⟨_, _, rfl⟩ := Option.map_eq_some_iff.mp found
      exact Nat.le_trans (Nat.le_succ place) (le_run source isHexDigit _)
    · cases found
      exact Nat.le_succ place

theorem lt_of_literalCharEnd? {place next : Nat} (inside : place < (Text.bytes source).length)
    (found : literalCharEnd? source place = some next) : place < next := by
  simp only [literalCharEnd?] at found
  split at found
  · cases found
  · rename_i atEnd
    obtain ⟨before, rfl, rfl⟩ := Text.exists_of_dropBytes? atEnd
    rw [List.append_nil, Text.length_bytes] at inside
    exact absurd inside (Nat.lt_irrefl _)
  · rename_i char rest _
    have further : place < place + char.utf8Size := Nat.lt_add_of_pos_right char.utf8Size_pos
    split at found
    · exact Nat.lt_of_lt_of_le further (le_of_escapeEnd? source found)
    · cases found
      exact further

def stringEnd? (place : Nat) : Option Nat :=
  if inside : place < (Text.bytes source).length then
    if nextIs source (· = '"') place then some (place + 1)
    else if nextIs source (· = '\n') place then some place
    else
      match found : literalCharEnd? source place with
      | none => none
      | some next =>
          have := lt_of_literalCharEnd? source inside found
          stringEnd? next
  else some place
termination_by (Text.bytes source).length - place

def charEnd? (place : Nat) : Option Nat :=
  if nextIs source (· = '\'') place || (Text.bytes source).length ≤ place then some place
  else
    (literalCharEnd? source place).map fun next =>
      if nextIs source (· = '\'') next then next + 1 else next

/-! ### Steps -/

def markEnd? (place : Nat) : Option Nat :=
  match marks.find? fun mark =>
      (Text.bytes mark.1).isPrefixOf ((Text.bytes source).drop place) with
  | some mark => some (place + (Text.bytes mark.1).length)
  | none =>
      if nextIs source (· = '#') place then some (place + 1)
      else (Text.dropBytes? place source).map fun rest => place + (rest.headD '?').utf8Size

/-- One step of the scan; `none` when it breaks off. -/
def step? (place : Nat) : Option Nat :=
  if nextIs source isSpace place then some (run source isSpace place)
  else if nextIs source (· = '/') place && nextIs source (· = '/') (place + 1) then
    some (runOf source (fun byte => !onByte (· = '\n') byte) place)
  else if nextIs source (· = '/') place && nextIs source (· = '*') (place + 1) then
    some (commentEnd source (place + 2))
  else if nextIs source isDigit place ||
      (nextIs source (· = '.') place && nextIs source isDigit (place + 1)) then
    numberEnd? source place
  else if nextIs source isLetter place then cut? source place (run source isWordChar place)
  else if nextIs source (· = '"') place then stringEnd? source (place + 1)
  else if nextIs source (· = '\'') place then charEnd? source (place + 1)
  else markEnd? source place

/-- The scan comes to the place. -/
inductive Comes : Nat → Prop where
  | start : Comes 0
  | step {place next : Nat} : Comes place → place < (Text.bytes source).length →
      step? source place = some next → Comes next

/-- The scan comes to a place where it breaks off. -/
def BreaksOff : Prop :=
  ∃ place, Comes source place ∧ place < (Text.bytes source).length ∧ step? source place = none

end Bytewise
end Lexer
end MiniC
