import MiniC.Json

/-!
Reading JSON.

The grammar is followed to the letter: no comments, no commas before a closing
bracket, no leading zeros, and nothing but blanks behind the document. Texts are
checked for their escapes and kept as written.
-/

namespace MiniC.Json

def isBlank (char : Char) : Bool := char = ' ' || char = '\n' || char = '\t' || char = '\r'

def skipBlank (input : List Char) : List Char := input.dropWhile isBlank

def isHexDigit (char : Char) : Bool := (hexValue? char).isSome

def readLiteral : List Char → Option (List Char × List Char)
  | [] => none
  | '"' :: rest => some ([], rest)
  | '\\' :: 'u' :: first :: second :: third :: fourth :: rest => do
      if [first, second, third, fourth].all isHexDigit then
        let (literal, rest) ← readLiteral rest
        return ('\\' :: 'u' :: first :: second :: third :: fourth :: literal, rest)
      else none
  | '\\' :: mark :: rest => do
      if (unescape? mark).isSome then
        let (literal, rest) ← readLiteral rest
        return ('\\' :: mark :: literal, rest)
      else none
  | char :: rest => do
      if isControl char || char = '\\' then none
      else
        let (literal, rest) ← readLiteral rest
        return (char :: literal, rest)

def readDigits (input : List Char) : List Char × List Char :=
  (input.takeWhile Char.isDigit, input.dropWhile Char.isDigit)

def readDigits1? (input : List Char) : Option (List Char × List Char) :=
  let (digits, rest) := readDigits input
  if digits.isEmpty then none else some (digits, rest)

def readSign : List Char → List Char × List Char
  | '-' :: rest => (['-'], rest)
  | input => ([], input)

def readWhole? : List Char → Option (List Char × List Char)
  | '0' :: rest => some (['0'], rest)
  | input => readDigits1? input

def readFraction? : List Char → Option (List Char × List Char)
  | '.' :: rest => (readDigits1? rest).map fun (digits, rest) => ('.' :: digits, rest)
  | input => some ([], input)

def readExponentSign : List Char → List Char × List Char
  | '+' :: rest => (['+'], rest)
  | input => readSign input

def readExponent? : List Char → Option (List Char × List Char)
  | mark :: rest =>
      if mark = 'e' || mark = 'E' then do
        let (sign, rest) := readExponentSign rest
        let (digits, rest) ← readDigits1? rest
        return (mark :: sign ++ digits, rest)
      else some ([], mark :: rest)
  | [] => some ([], [])

def readNumber? (input : List Char) : Option (List Char × List Char) := do
  let (sign, rest) := readSign input
  let (whole, rest) ← readWhole? rest
  let (fraction, rest) ← readFraction? rest
  let (exponent, rest) ← readExponent? rest
  return (sign ++ whole ++ fraction ++ exponent, rest)

mutual

def readValue : Nat → List Char → Option (Json × List Char)
  | 0, _ => none
  | fuel + 1, input =>
      match input with
      | 'n' :: 'u' :: 'l' :: 'l' :: rest => some (.null, rest)
      | 't' :: 'r' :: 'u' :: 'e' :: rest => some (.bool true, rest)
      | 'f' :: 'a' :: 'l' :: 's' :: 'e' :: rest => some (.bool false, rest)
      | '"' :: rest => (readLiteral rest).map fun (literal, rest) => (.text literal, rest)
      | '[' :: rest =>
          match skipBlank rest with
          | ']' :: rest => some (.array [], rest)
          | rest => (readItems fuel rest).map fun (items, rest) => (.array items, rest)
      | '{' :: rest =>
          match skipBlank rest with
          | '}' :: rest => some (.object [], rest)
          | rest => (readMembers fuel rest).map fun (members, rest) => (.object members, rest)
      | _ => (readNumber? input).map fun (literal, rest) => (.number literal, rest)

def readItems : Nat → List Char → Option (List Json × List Char)
  | 0, _ => none
  | fuel + 1, input => do
      let (item, rest) ← readValue fuel input
      match skipBlank rest with
      | ',' :: rest =>
          let (items, rest) ← readItems fuel (skipBlank rest)
          return (item :: items, rest)
      | ']' :: rest => return ([item], rest)
      | _ => none

def readMembers : Nat → List Char → Option (List (List Char × Json) × List Char)
  | 0, _ => none
  | fuel + 1, input => do
      let '"' :: rest := input | none
      let (key, rest) ← readLiteral rest
      let ':' :: rest := skipBlank rest | none
      let (value, rest) ← readValue fuel (skipBlank rest)
      match skipBlank rest with
      | ',' :: rest =>
          let (members, rest) ← readMembers fuel (skipBlank rest)
          return ((key, value) :: members, rest)
      | '}' :: rest => return ([(key, value)], rest)
      | _ => none

end

/-- Every character is entered at most twice. -/
def fuelFor (input : List Char) : Nat := 2 * input.length + 2

def parse? (source : String) : Option Json := do
  let input := skipBlank source.toList
  let (json, rest) ← readValue (fuelFor input) input
  if (skipBlank rest).isEmpty then some json else none

end MiniC.Json
