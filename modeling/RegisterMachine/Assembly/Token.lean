import RegisterMachine.Text.Blank
import RegisterMachine.Program

/-! # Tokens

The lines of an assembly text consist of words, numbers, parentheses and arrows. Blanks separate
tokens; parentheses and arrows need no blanks around them, and a semicolon begins a comment. What
looks like a number must be one.

* `Fault`, `AssemblyError` — what is wrong with a line, and with a text.
* `Token`, `Token.toText` — the tokens and their spelling.
* `Integer.parse?` — integer literals.
* `tokenize` — the tokens of a line.
* `renderTokens` — tokens written out again, with single blanks.
-/

namespace RegisterMachine

/-! ## Faults -/

/-- What is wrong with a line. -/
inductive Fault where
  /-- The first word is neither a directive nor an instruction. -/
  | unknownMnemonic (word : String)
  /-- A word is not an operation. -/
  | unknownOperation (word : String)
  /-- A word is not an addressing mode. -/
  | unknownAddressing (word : String)
  /-- A word is not a kind of condition. -/
  | unknownCondition (word : String)
  /-- A word is not a kind of initial data. -/
  | unknownInitializer (word : String)
  /-- A word is not in its vocabulary. -/
  | badName (e : NameError)
  /-- The line ends where something is expected. -/
  | missing (expected : String)
  /-- What looks like a number is none, or it is out of range. -/
  | invalidNumber (word : String)
  /-- A token stands where it is not expected. -/
  | unexpected (token : String)
  /-- An instruction stands outside of a function. -/
  | outsideFunction
  /-- A directive stands inside of a function. -/
  | insideFunction (name : String)
  /-- The text ends inside of a function. -/
  | unterminatedFunction (name : String)
  deriving DecidableEq, Repr

/-- The text of a fault. -/
def Fault.message : Fault → String
  | .unknownMnemonic w => "unknown directive or instruction '" ++ w ++ "'"
  | .unknownOperation w => "unknown operation '" ++ w ++ "'"
  | .unknownAddressing w => "unknown addressing mode '" ++ w ++ "'"
  | .unknownCondition w => "unknown condition '" ++ w ++ "'"
  | .unknownInitializer w => "unknown initializer '" ++ w ++ "'"
  | .badName e => e.message
  | .missing expected => "expected " ++ expected
  | .invalidNumber w => "invalid number '" ++ w ++ "'"
  | .unexpected token => "unexpected token '" ++ token ++ "'"
  | .outsideFunction => "instruction outside of a function"
  | .insideFunction name => "directive inside function '" ++ name ++ "'"
  | .unterminatedFunction name => "function '" ++ name ++ "' has no 'end'"

/-- What is wrong with a text, and in which line, counted from one. -/
structure AssemblyError where
  /-- The line. -/
  line : Nat
  /-- What is wrong with it. -/
  fault : Fault
  deriving DecidableEq, Repr

/-- The text of an assembly error. -/
def AssemblyError.message (e : AssemblyError) : String :=
  "line " ++ toString e.line ++ ": " ++ e.fault.message

/-! ## Tokens -/

/-- A token of a line. -/
inductive Token where
  /-- A word, as it is written. -/
  | word (w : String)
  /-- An integer literal. -/
  | int (n : Int)
  /-- A literal with a fraction or an exponent, or a string of digits too long for an integer. -/
  | float (x : Double)
  /-- An opening parenthesis. -/
  | lparen
  /-- A closing parenthesis. -/
  | rparen
  /-- The arrow before the result type of a signature. -/
  | arrow
  deriving DecidableEq, Repr

/-- The spelling of a token. -/
def Token.toText : Token → String
  | .word w => w
  | .int n => toString n
  | .float x => x.toText
  | .lparen => "("
  | .rparen => ")"
  | .arrow => "->"

/-! ## Integer literals -/

namespace Integer

/-- The greatest magnitude that an integer literal may have. -/
def maxMagnitude : Nat := 9223372036854775807

/-- Whether a character is a hexadecimal digit. -/
def isHexDigit (c : Char) : Bool :=
  c.isDigit || ('a' ≤ c && c ≤ 'f') || ('A' ≤ c && c ≤ 'F')

/-- The value of a hexadecimal digit. -/
def hexValue (c : Char) : Nat :=
  if c.isDigit then c.toNat - '0'.toNat
  else if 'a' ≤ c then c.toNat - 'a'.toNat + 10
  else c.toNat - 'A'.toNat + 10

/-- The number that a list of hexadecimal digits denotes, after the digits of `start`. -/
def hexToNat (start : Nat) : List Char → Nat
  | [] => start
  | c :: cs => hexToNat (16 * start + hexValue c) cs

/-- Reads what follows the mark of a hexadecimal literal: digits, which may have a sign of their
own. -/
def parseHex? (cs : List Char) : Option Int :=
  let (negative, digits) := splitSign cs
  if digits.isEmpty || !digits.all isHexDigit then none
  else
    let n := hexToNat 0 digits
    if negative then if n ≤ maxMagnitude + 1 then some (-(n : Int)) else none
    else if n ≤ maxMagnitude then some n else none

/-- Reads a string of decimal digits. -/
def parseDecimal? (cs : List Char) : Option Int :=
  if cs.isEmpty || !cs.all Char.isDigit then none
  else
    let n := digitsToNat 0 cs
    if n ≤ maxMagnitude then some n else none

/-- Reads an integer literal without its sign. -/
def parseUnsigned? : List Char → Option Int
  | '0' :: 'x' :: cs => parseHex? cs
  | '0' :: 'X' :: cs => parseHex? cs
  | cs => parseDecimal? cs

/-- Reads an integer literal: an optional sign, then decimal digits, or `0x` and hexadecimal digits.
A number has 64 bits, so a minus sign before the least one overflows: its negation is that number
again. -/
def parse? (cs : List Char) : Option Int :=
  let (negative, cs) := splitSign cs
  (parseUnsigned? cs).map fun n => if negative then (-n).bmod 18446744073709551616 else n

end Integer

/-! ## From characters to tokens -/

/-- Whether a word must be a number: a digit or a point stands first, or after one sign. -/
def looksNumeric (cs : List Char) : Bool :=
  match (splitSign cs).2 with
  | c :: _ => c.isDigit || c == '.'
  | [] => false

/-- The token that a word is. -/
def Token.ofWord (cs : List Char) : Except Fault Token :=
  let w := String.ofList cs
  if !looksNumeric cs then .ok (.word w)
  else
    match Integer.parse? cs with
    | some n => .ok (.int n)
    | none =>
      match Double.parse? w with
      | some x => .ok (.float x)
      | none => .error (.invalidNumber w)

/-- A piece of a line: punctuation, or a word not yet told apart from a number. -/
inductive Lexeme where
  /-- A run of characters between blanks and punctuation. -/
  | word (cs : List Char)
  /-- An opening parenthesis. -/
  | lparen
  /-- A closing parenthesis. -/
  | rparen
  /-- An arrow. -/
  | arrow
  deriving DecidableEq, Repr

namespace Lexeme

/-- Puts a word, given by its characters in reverse, before lexemes, unless it is empty. -/
def close (word : List Char) (rest : List Lexeme) : List Lexeme :=
  if word.isEmpty then rest else .word word.reverse :: rest

/-- The lexemes of a text, after the characters of an open word in reverse. -/
def scan (word : List Char) : List Char → List Lexeme
  | [] => close word []
  | ';' :: _ => close word []
  | '(' :: cs => close word (.lparen :: scan [] cs)
  | ')' :: cs => close word (.rparen :: scan [] cs)
  | '-' :: '>' :: cs => close word (.arrow :: scan [] cs)
  | c :: cs => if isBlank c then close word (scan [] cs) else scan (c :: word) cs

/-- The token that a lexeme is. -/
def token : Lexeme → Except Fault Token
  | .word cs => Token.ofWord cs
  | .lparen => .ok .lparen
  | .rparen => .ok .rparen
  | .arrow => .ok .arrow

end Lexeme

/-- The tokens of a line. Of several words that are no numbers though they look like it, the first
is reported. -/
def tokenize (line : List Char) : Except Fault (List Token) :=
  (Lexeme.scan [] line).mapM Lexeme.token

/-! ## From tokens to characters -/

/-- The token of a double in canonical text: a literal where it is finite, and a word elsewhere. -/
def Token.ofDouble (x : Double) : Token := if x.isFinite then .float x else .word x.toText

/-- Writes tokens out with a single blank between them, but none inside parentheses. -/
def renderTokens : List Token → String
  | [] => ""
  | [t] => t.toText
  | .lparen :: ts => "(" ++ renderTokens ts
  | t :: .rparen :: ts => t.toText ++ renderTokens (.rparen :: ts)
  | t :: ts => t.toText ++ " " ++ renderTokens ts

/-! ## Written forms -/

example : (tokenize "a->b (-0x1F); c".toList).toOption =
    some [.word "a", .arrow, .word "b", .lparen, .int (-31), .rparen] := by
  decide +kernel

example : renderTokens [.word "f", .lparen, .word "int", .rparen, .arrow, .word "int"] =
    "f (int) -> int" := by
  decide +kernel

end RegisterMachine
