import MiniC.Token

/-!
How tokens are written.

Most tokens can be written in several ways: a qualifier has five words, a digit of
a hexadecimal number two cases, a suffix any order. Between two tokens stands a
separator: blank characters and comments, a blank character first, so that no
token runs into the next.
-/

namespace MiniC

def Keyword.spellings : Keyword → List String
  | .ifWord => ["if"]
  | .elseWord => ["else"]
  | .whileWord => ["while"]
  | .doWord => ["do"]
  | .forWord => ["for"]
  | .returnWord => ["return"]
  | .breakWord => ["break"]
  | .continueWord => ["continue"]
  | .structWord => ["struct"]
  | .typedefWord => ["typedef"]
  | .trueWord => ["true"]
  | .falseWord => ["false"]
  | .qualifier => ["const", "static", "volatile", "extern", "inline"]

def TypeWord.spellings : TypeWord → List String
  | .int => ["int"]
  | .short => ["short"]
  | .char => ["char"]
  | .long => ["long"]
  | .signed => ["signed"]
  | .unsigned => ["unsigned"]
  | .float => ["float"]
  | .double => ["double"]
  | .bool => ["bool", "_Bool"]
  | .void => ["void"]

def Punct.spelling : Punct → String
  | .lparen => "("
  | .rparen => ")"
  | .lbrace => "\x7b"
  | .rbrace => "\x7d"
  | .lbracket => "["
  | .rbracket => "]"
  | .semi => ";"
  | .comma => ","
  | .dot => "."
  | .question => "?"
  | .colon => ":"
  | .plus => "+"
  | .minus => "-"
  | .star => "*"
  | .slash => "/"
  | .percent => "%"
  | .plusPlus => "++"
  | .minusMinus => "--"
  | .amp => "&"
  | .pipe => "|"
  | .caret => "^"
  | .tilde => "~"
  | .bang => "!"
  | .shl => "<<"
  | .shr => ">>"
  | .lt => "<"
  | .gt => ">"
  | .le => "<="
  | .ge => ">="
  | .eqEq => "=="
  | .ne => "!="
  | .andAnd => "&&"
  | .orOr => "||"
  | .assign => "="

/-- The assignment joined with an operator; comparisons and logical operators have none. -/
def BinaryOp.assignSpelling? : BinaryOp → Option String
  | .add => some "+="
  | .sub => some "-="
  | .mul => some "*="
  | .div => some "/="
  | .rem => some "%="
  | .shl => some "<<="
  | .shr => some ">>="
  | .bitAnd => some "&="
  | .bitOr => some "|="
  | .bitXor => some "^="
  | .lt | .le | .gt | .ge | .eq | .ne | .and | .or => none

def Token.words : Token → List String
  | .keyword word => word.spellings
  | .typeWord word => word.spellings
  | _ => []

def Token.marks : Token → List String
  | .punct mark => [mark.spelling]
  | .opAssign op => op.assignSpelling?.toList
  | _ => []

def isName : List Char → Bool
  | [] => false
  | first :: rest =>
      (first.isAlpha || first = '_') && rest.all fun char => char.isAlphanum || char = '_'

def isReserved (name : String) : Prop := ∃ token : Token, name ∈ token.words

/-- The letters behind an integer, in any case, order and number. -/
structure IsSuffix (unsigned long : Bool) (suffix : List Char) : Prop where
  letters : ∀ char ∈ suffix, char = 'u' ∨ char = 'U' ∨ char = 'l' ∨ char = 'L'
  unsigned_iff : unsigned = true ↔ 'u' ∈ suffix ∨ 'U' ∈ suffix
  long_iff : long = true ↔ 'l' ∈ suffix ∨ 'L' ∈ suffix

/-- A number in digits: in base ten without a zero in front, in base eight behind a zero, in base
sixteen behind `0x`, these two with any more zeros. `based` tells them from base ten. -/
inductive Numeral : Bool → Nat → List Char → Prop where
  | decimal (number : Nat) : Numeral false number (Nat.toDigits 10 number)
  | octal (zeros number : Nat) :
      Numeral true number ('0' :: (List.replicate zeros '0' ++ Nat.toDigits 8 number))
  | hexadecimal {letter : Char} {digits : List Char} (zeros number : Nat) :
      letter = 'x' ∨ letter = 'X' →
      digits.map Char.toLower = List.replicate zeros '0' ++ Nat.toDigits 16 number →
      Numeral true number ('0' :: letter :: digits)

def escapeLetter? : Char → Option Char
  | '\n' => some 'n'
  | '\\' => some '\\'
  | '\'' => some '\''
  | '"' => some '"'
  | _ => none

inductive CharWritten (quote : Char) : Char → List Char → Prop where
  | raw {char : Char} : char ≠ quote → char ≠ '\\' → char ≠ '\n' → CharWritten quote char [char]
  | escaped {char letter : Char} : escapeLetter? char = some letter →
      CharWritten quote char ['\\', letter]

inductive TextWritten (quote : Char) : List Char → List Char → Prop where
  | nil : TextWritten quote [] []
  | cons {char : Char} {spelled text body : List Char} : CharWritten quote char spelled →
      TextWritten quote text body → TextWritten quote (char :: text) (spelled ++ body)

inductive Token.Written : Token → List Char → Prop where
  | word {token : Token} {text : String} : text ∈ token.words → Written token text.toList
  | mark {token : Token} {text : String} : text ∈ token.marks → Written token text.toList
  | ident {name : String} : isName name.toList = true → ¬ isReserved name →
      Written (.ident name) name.toList
  | decimal {value : UInt64} {unsigned long : Bool} {suffix : List Char} :
      IsSuffix unsigned long suffix →
      Written (.int ⟨value, unsigned, long, false⟩) (Nat.toDigits 10 value.toNat ++ suffix)
  | hexadecimal {value : UInt64} {unsigned long : Bool} {letter : Char} {digits suffix : List Char} :
      letter = 'x' ∨ letter = 'X' → digits.map Char.toLower = Nat.toDigits 16 value.toNat →
      IsSuffix unsigned long suffix →
      Written (.int ⟨value, unsigned, long, true⟩) ('0' :: letter :: (digits ++ suffix))
  | string {text : String} {body : List Char} : TextWritten '"' text.toList body →
      Written (.string text) ('"' :: (body ++ ['"']))
  | char {char : Char} {spelled : List Char} : CharWritten '\'' char spelled →
      Written (.char char.val) ('\'' :: (spelled ++ ['\'']))

/-- Every token but floating-point numbers, the end of the source, reserved words and other texts as
identifiers, numbers of characters that are none, and assignments joined with an operator that has
none. -/
def Token.isWritable : Token → Prop
  | .int _ | .string _ | .keyword _ | .typeWord _ | .punct _ => True
  | .ident name => isName name.toList = true ∧ ¬ isReserved name
  | .char code => ∃ char : Char, char.val = code
  | .opAssign op => op.assignSpelling?.isSome = true
  | .float _ _ | .eof => False

/-! ### Sequences of tokens -/

def blanks : List Char := [' ', '\t', '\n', '\r', '\x0c']

/-- Blank characters and comments that are closed. -/
inductive Gap : List Char → Prop where
  | nil : Gap []
  | blank {char : Char} {rest : List Char} : char ∈ blanks → Gap rest → Gap (char :: rest)
  | line {body rest : List Char} : '\n' ∉ body → Gap rest →
      Gap ('/' :: '/' :: (body ++ '\n' :: rest))
  | block {body rest : List Char} : ¬ ['*', '/'] <:+: body → Gap rest →
      Gap ('/' :: '*' :: (body ++ '*' :: '/' :: rest))

inductive Separator : List Char → Prop where
  | mk {char : Char} {rest : List Char} : char ∈ blanks → Gap rest → Separator (char :: rest)

/-- The tokens are written one after another, with a separator behind each but perhaps the last. -/
inductive Spelled : List Token → List Char → Prop where
  | nil : Spelled [] []
  | last {token : Token} {text : List Char} : token.Written text → Spelled [token] text
  | cons {token : Token} {tokens : List Token} {text gap rest : List Char} : token.Written text →
      Separator gap → Spelled tokens rest → Spelled (token :: tokens) (text ++ (gap ++ rest))

end MiniC
