import MiniC.Token

/-!
Character classes, and the spellings of words, marks and digits.

Reserved words and marks are tables of spelling and token. A longer mark stands
before the shorter ones that begin it, so the first hit is the longest.
-/

namespace MiniC.Lexer

def isSpace (char : Char) : Bool :=
  char = ' ' || char = '\t' || char = '\n' || char = '\r' || char = '\x0c'

def isDigit (char : Char) : Bool :=
  '0' ≤ char && char ≤ '9'

def isLetter (char : Char) : Bool :=
  ('a' ≤ char && char ≤ 'z') || ('A' ≤ char && char ≤ 'Z') || char = '_'

def isWordChar (char : Char) : Bool :=
  isLetter char || isDigit char

def isHexDigit (char : Char) : Bool :=
  isDigit char || ('a' ≤ char && char ≤ 'f') || ('A' ≤ char && char ≤ 'F')

def digitValue (char : Char) : Nat :=
  if isDigit char then char.toNat - '0'.toNat
  else if 'a' ≤ char then char.toNat - 'a'.toNat + 10
  else char.toNat - 'A'.toNat + 10

def numberOf (base : Nat) (digits : List Char) : Nat :=
  digits.foldl (fun number digit => number * base + digitValue digit) 0

def readNumber? (base bound : Nat) (digits : List Char) : Option Nat :=
  if digits.isEmpty || digits.any (base ≤ digitValue ·) then none
  else
    let number := numberOf base digits
    if number < bound then some number else none

def words : List (String × Token) :=
  [("if", .keyword .ifWord), ("else", .keyword .elseWord), ("while", .keyword .whileWord),
    ("do", .keyword .doWord), ("for", .keyword .forWord), ("return", .keyword .returnWord),
    ("break", .keyword .breakWord), ("continue", .keyword .continueWord),
    ("struct", .keyword .structWord), ("typedef", .keyword .typedefWord),
    ("true", .keyword .trueWord), ("false", .keyword .falseWord),
    ("const", .keyword .qualifier), ("static", .keyword .qualifier),
    ("volatile", .keyword .qualifier), ("extern", .keyword .qualifier),
    ("inline", .keyword .qualifier), ("int", .typeWord .int), ("short", .typeWord .short),
    ("char", .typeWord .char), ("long", .typeWord .long), ("signed", .typeWord .signed),
    ("unsigned", .typeWord .unsigned), ("float", .typeWord .float),
    ("double", .typeWord .double), ("bool", .typeWord .bool), ("_Bool", .typeWord .bool),
    ("void", .typeWord .void)]

def wordToken (text : List Char) : Token :=
  let word := String.ofList text
  (words.lookup word).getD (.ident word)

/-- Punctuation, longer spellings before shorter ones. -/
def marks : List (List Char × Token) :=
  [("<<=".toList, .opAssign .shl), (">>=".toList, .opAssign .shr),
    ("++".toList, .punct .plusPlus), ("+=".toList, .opAssign .add),
    ("--".toList, .punct .minusMinus), ("-=".toList, .opAssign .sub),
    ("*=".toList, .opAssign .mul), ("/=".toList, .opAssign .div),
    ("%=".toList, .opAssign .rem), ("^=".toList, .opAssign .bitXor),
    ("&&".toList, .punct .andAnd), ("&=".toList, .opAssign .bitAnd),
    ("||".toList, .punct .orOr), ("|=".toList, .opAssign .bitOr),
    ("==".toList, .punct .eqEq), ("!=".toList, .punct .ne),
    ("<<".toList, .punct .shl), ("<=".toList, .punct .le),
    (">>".toList, .punct .shr), (">=".toList, .punct .ge),
    ("(".toList, .punct .lparen), (")".toList, .punct .rparen),
    ("\x7b".toList, .punct .lbrace), ("\x7d".toList, .punct .rbrace),
    ("[".toList, .punct .lbracket), ("]".toList, .punct .rbracket),
    (";".toList, .punct .semi), (",".toList, .punct .comma),
    ("?".toList, .punct .question), (":".toList, .punct .colon),
    ("~".toList, .punct .tilde), (".".toList, .punct .dot),
    ("+".toList, .punct .plus), ("-".toList, .punct .minus),
    ("*".toList, .punct .star), ("/".toList, .punct .slash),
    ("%".toList, .punct .percent), ("^".toList, .punct .caret),
    ("&".toList, .punct .amp), ("|".toList, .punct .pipe),
    ("=".toList, .punct .assign), ("!".toList, .punct .bang),
    ("<".toList, .punct .lt), (">".toList, .punct .gt)]

def markAt? (text : List Char) : Option (List Char × Token) :=
  marks.find? fun mark => mark.1.isPrefixOf text

end MiniC.Lexer
