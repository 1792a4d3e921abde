/-!
JSON documents.

Numbers and texts are kept as they are written, so a document says no less than
its source; `integer?` and `content?` give them a meaning. Printing puts every
item and member on a line of its own, two blanks deeper than what holds it.
-/

namespace MiniC

inductive Json where
  | null
  | bool (truth : Bool)
  | number (literal : List Char)
  /-- What stands between the quotes, escapes included. -/
  | text (literal : List Char)
  | array (items : List Json)
  | object (members : List (List Char × Json))
deriving Inhabited

namespace Json

def ofInt (value : Int) : Json := number (toString value).toList

def natOf (digits : List Char) : Nat :=
  digits.foldl (fun total char => 10 * total + (char.toNat - '0'.toNat)) 0

/-- The integer that a literal denotes. A fraction, an exponent and a negative zero are no
integers. -/
def integerOf? : List Char → Option Int
  | '-' :: digits =>
      if digits.all Char.isDigit && digits ≠ ['0'] then some (-(natOf digits : Int)) else none
  | digits => if digits.all Char.isDigit then some (natOf digits) else none

def integer? : Json → Option Int
  | number literal => integerOf? literal
  | _ => none

def shortEscapes : List (Char × Char) :=
  [('"', '"'), ('\\', '\\'), (Char.ofNat 8, 'b'), (Char.ofNat 12, 'f'), ('\n', 'n'), ('\r', 'r'),
    ('\t', 't')]

def isControl (char : Char) : Bool := char.toNat < 0x20

def hexPair (number : Nat) : List Char := [Nat.digitChar (number / 16), Nat.digitChar (number % 16)]

def escapeChar (char : Char) : List Char :=
  match shortEscapes.lookup char with
  | some mark => ['\\', mark]
  | none => if isControl char then ['\\', 'u', '0', '0'] ++ hexPair char.toNat else [char]

def ofText (content : String) : Json := text (content.toList.flatMap escapeChar)

inductive Piece where
  | char (char : Char)
  | unit (code : Nat)

def hexValue? (char : Char) : Option Nat :=
  if char.isDigit then some (char.toNat - '0'.toNat)
  else if 'a' ≤ char ∧ char ≤ 'f' then some (char.toNat - 'a'.toNat + 10)
  else if 'A' ≤ char ∧ char ≤ 'F' then some (char.toNat - 'A'.toNat + 10)
  else none

def hexOf? (digits : List Char) : Option Nat :=
  digits.foldlM (fun total char => (hexValue? char).map fun digit => 16 * total + digit) 0

def unescape? (mark : Char) : Option Char :=
  if mark = '/' then some mark
  else (shortEscapes.find? fun (_, found) => found = mark).map Prod.fst

def pieces? : List Char → Option (List Piece)
  | [] => some []
  | '\\' :: 'u' :: first :: second :: third :: fourth :: rest => do
      let code ← hexOf? [first, second, third, fourth]
      return .unit code :: (← pieces? rest)
  | '\\' :: mark :: rest => do
      let char ← unescape? mark
      return .char char :: (← pieces? rest)
  | char :: rest => (pieces? rest).map (.char char :: ·)

def isHighUnit (code : Nat) : Bool := 0xD800 ≤ code && code < 0xDC00

def isLowUnit (code : Nat) : Bool := 0xDC00 ≤ code && code < 0xE000

/-- Joins code units to characters. A high and a low unit in a row make one character; one of them
alone makes none. -/
def joinPieces? : List Piece → Option (List Char)
  | [] => some []
  | .char char :: rest => (joinPieces? rest).map (char :: ·)
  | .unit code :: rest =>
      if isHighUnit code then
        match rest with
        | .unit low :: others =>
            if isLowUnit low then
              let point := 0x10000 + (code - 0xD800) * 0x400 + (low - 0xDC00)
              (joinPieces? others).map (Char.ofNat point :: ·)
            else none
        | _ => none
      else if isLowUnit code then none
      else (joinPieces? rest).map (Char.ofNat code :: ·)

def contentOf? (literal : List Char) : Option String :=
  ((pieces? literal).bind joinPieces?).map String.ofList

def content? : Json → Option String
  | text literal => contentOf? literal
  | _ => none

def bool? : Json → Option Bool
  | bool truth => some truth
  | _ => none

def list? {α : Type} (decode : Json → Option α) : Json → Option (List α)
  | array items => items.mapM decode
  | _ => none

def vector? {α : Type} (length : Nat) (decode : Json → Option α) (json : Json) :
    Option (Vector α length) :=
  (list? decode json).bind fun items =>
    if fits : items.toArray.size = length then some ⟨items.toArray, fits⟩ else none

def single? (name : String) (members : List (String × Json)) : Option (Option Json) :=
  match members.filter fun (found, _) => found = name with
  | [] => some none
  | [(_, value)] => some (some value)
  | _ => none

/-- The values of named fields, each of which may be absent. An array gives them by position. -/
def fields? (names : List String) : Json → Option (List (Option Json))
  | object members => do
      let named ← members.mapM fun (key, value) => (contentOf? key).map fun name => (name, value)
      names.mapM fun name => single? name named
  | array items =>
      if items.length ≤ names.length then
        some (items.map some ++ List.replicate (names.length - items.length) none)
      else none
  | _ => none

def getD {α : Type} (decode : Json → Option α) (default : α) : Option Json → Option α
  | none => some default
  | some json => decode json

def between? (low high : Int) (json : Json) : Option Int :=
  json.integer?.filter fun number => low ≤ number && number ≤ high

def lead (depth : Nat) : String := String.ofList (List.replicate (2 * depth) ' ')

def layOut (depth : Nat) (opening closing : String) (parts : List String) : String :=
  if parts.isEmpty then opening ++ closing
  else
    let rows := parts.map fun part => lead (depth + 1) ++ part
    opening ++ "\n" ++ ",\n".intercalate rows ++ "\n" ++ lead depth ++ closing

def quoted (literal : List Char) : String := "\"" ++ String.ofList literal ++ "\""

mutual

def prettyAt (depth : Nat) : Json → String
  | null => "null"
  | bool truth => if truth then "true" else "false"
  | number literal => String.ofList literal
  | text literal => quoted literal
  | array items => layOut depth "[" "]" (prettyItems (depth + 1) items)
  | object members => layOut depth "\x7b" "\x7d" (prettyMembers (depth + 1) members)

def prettyItems (depth : Nat) : List Json → List String
  | [] => []
  | item :: rest => prettyAt depth item :: prettyItems depth rest

def prettyMembers (depth : Nat) : List (List Char × Json) → List String
  | [] => []
  | (key, value) :: rest =>
      (quoted key ++ ": " ++ prettyAt depth value) :: prettyMembers depth rest

end

def pretty (json : Json) : String := prettyAt 0 json

def record (members : List (String × Json)) : Json :=
  object (members.map fun (name, value) => (name.toList.flatMap escapeChar, value))

end Json
end MiniC
