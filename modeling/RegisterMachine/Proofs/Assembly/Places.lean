import RegisterMachine.Assembly.Line
import RegisterMachine.Proofs.LetterCase.Tokens

/-! # The places of a line

What a line says fixes how many tokens it has and what stands at each place. Two tokens say the same
at a place if they differ at most in the ASCII case of a word that is no symbol, or in the spelling
of a double.

* `Place`, `Place.Agree` — the kinds of places, and when two tokens say the same there.
* `Matches` — two lists of tokens say the same at every place.
* `Line.places` — the places of a line, in the order of its canonical tokens.
-/

namespace RegisterMachine

variable {w w' : String} {t t' t'' : Token} {ts ts' ts'' us us' : List Token}

/-! ## Places -/

/-- What stands at a place of a line. -/
inductive Place where
  /-- A word that is the same in any ASCII case. -/
  | keyword
  /-- A word that is kept as it is written. -/
  | symbol
  /-- An integer literal. -/
  | number
  /-- A double: a literal of either kind, or a word. -/
  | double
  /-- A parenthesis or an arrow. -/
  | punctuation
  deriving DecidableEq, Repr

/-- Two tokens say the same at a place. -/
inductive Place.Agree : Place → Token → Token → Prop where
  /-- Words that differ in ASCII case only. -/
  | keyword {w w' : String} (fold : foldCase w = foldCase w') : Agree .keyword (.word w) (.word w')
  /-- Equal words. -/
  | symbol (w : String) : Agree .symbol (.word w) (.word w)
  /-- Equal integers. -/
  | number (n : Int) : Agree .number (.int n) (.int n)
  /-- Tokens for the same double, where it does not matter which not-a-number it is. -/
  | double {t t' : Token} {x x' : Double} (left : t.asDouble = .ok x) (right : t'.asDouble = .ok x')
      (quieted : x.quieted = x'.quieted) : Agree .double t t'
  /-- Opening parentheses. -/
  | lparen : Agree .punctuation .lparen .lparen
  /-- Closing parentheses. -/
  | rparen : Agree .punctuation .rparen .rparen
  /-- Arrows. -/
  | arrow : Agree .punctuation .arrow .arrow

namespace Place.Agree

variable {p : Place}

/-- A word says the same as its spelling in small letters. -/
theorem of_foldCase (h : foldCase w = w') : Agree .keyword (.word w) (.word w') :=
  .keyword (by rw [← h, foldCase_foldCase])

/-- It does not matter which of two tokens comes first. -/
theorem symm (h : p.Agree t t') : p.Agree t' t := by
  cases h with
  | keyword fold => exact .keyword fold.symm
  | symbol w => exact .symbol w
  | number n => exact .number n
  | double left right quieted => exact .double right left quieted.symm
  | lparen => exact .lparen
  | rparen => exact .rparen
  | arrow => exact .arrow

/-- Tokens that say the same as a third one say the same. -/
theorem trans (h : p.Agree t t') (h' : p.Agree t' t'') : p.Agree t t'' := by
  cases h with
  | keyword fold =>
    cases h' with
    | keyword fold' => exact .keyword (fold.trans fold')
  | symbol w => exact h'
  | number n => exact h'
  | double left right quieted =>
    cases h' with
    | double left' right' quieted' =>
      -- The token in the middle denotes one double.
      obtain rfl := Except.ok.inj (right.symm.trans left')
      exact .double left right' (quieted.trans quieted')
  | lparen => exact h'
  | rparen => exact h'
  | arrow => exact h'

end Place.Agree

/-- Two lists of tokens are as long as a list of places and say the same at each of them. -/
inductive Matches : List Place → List Token → List Token → Prop where
  /-- No places. -/
  | nil : Matches [] [] []
  /-- One more place. -/
  | cons {p : Place} {ps : List Place} {t t' : Token} {ts ts' : List Token} (head : p.Agree t t')
      (tail : Matches ps ts ts') : Matches (p :: ps) (t :: ts) (t' :: ts')

namespace Matches

variable {p : Place} {ps ps' : List Place}

/-- There is a token for each place. -/
theorem length_eq (h : Matches ps ts ts') : ts.length = ps.length ∧ ts'.length = ps.length := by
  induction h with
  | nil => exact ⟨rfl, rfl⟩
  | cons head tail ih => simp [ih]

/-- One place. -/
theorem single (h : p.Agree t t') : Matches [p] [t] [t'] := .cons h .nil

/-- Places that follow on places. -/
theorem append (h : Matches ps ts ts') (h' : Matches ps' us us') :
    Matches (ps ++ ps') (ts ++ us) (ts' ++ us') := by
  induction h with
  | nil => exact h'
  | cons head tail ih => exact .cons head ih

/-- It does not matter which of two lists comes first. -/
theorem symm (h : Matches ps ts ts') : Matches ps ts' ts := by
  induction h with
  | nil => exact .nil
  | cons head tail ih => exact .cons head.symm ih

/-- Lists that match a third one match. -/
theorem trans (h : Matches ps ts ts') (h' : Matches ps ts' ts'') : Matches ps ts ts'' := by
  induction h generalizing ts'' with
  | nil => exact h'
  | cons head tail ih =>
    cases h' with
    | cons head' tail' => exact .cons (head.trans head') (ih tail')

end Matches

/-! ## The places of a line -/

/-- The places of a signature. -/
def Signature.places (sig : Signature) : List Place :=
  .punctuation :: sig.arguments.map (fun _ => .keyword) ++ .punctuation ::
    match sig.result? with
    | some _ => [.punctuation, .keyword]
    | none => []

/-- The places of a condition. -/
def Condition.places : Condition → List Place
  | .signed _ | .unsigned _ | .float _ | .notFloat _ => [.keyword, .keyword]
  | .signedImm _ _ | .unsignedImm _ _ => [.keyword, .keyword, .number]

/-- The places of an operation. -/
def Operation.places : Operation → List Place
  | .intConst _ | .addrStack _ | .immediate _ _ => [.keyword, .number]
  | .floatConst _ => [.keyword, .double]
  | .addrSymbol _ _ => [.keyword, .symbol, .number]
  | .compare cond => .keyword :: cond.places
  | .move | .unary _ | .binary _ => [.keyword]

/-- The places of an addressing mode. -/
def Addressing.places : Addressing → List Place
  | .indexed _ | .stack _ => [.keyword, .number]
  | .global _ _ | .based _ _ => [.keyword, .symbol, .number]
  | .indexedTwo => [.keyword]

/-- The place of the target of a call. -/
def Callee.place : Callee → Place
  | .register _ => .keyword
  | .symbol _ => .symbol

/-- The places of an instruction. -/
def Instruction.places : Instruction → List Place
  | .label _ | .goto _ => [.keyword, .number]
  | .getStack .. | .getParam .. => [.keyword, .number, .keyword, .keyword]
  | .setStack .. => [.keyword, .keyword, .number, .keyword]
  | .op operation args _ =>
    .keyword :: .keyword :: operation.places ++ args.map fun _ => .keyword
  | .load _ mode args _ | .store _ mode args _ =>
    .keyword :: .keyword :: .keyword :: mode.places ++ args.map fun _ => .keyword
  | .call callee | .tailCall callee => [.keyword, callee.place]
  | .cond condition args _ =>
    .keyword :: condition.places ++ (args.map fun _ => .keyword) ++ [.number]
  | .jumpTable _ ls => .keyword :: .keyword :: ls.map fun _ => .number
  | .ret => [.keyword]

/-- The places of an item of initial contents. -/
def InitialData.places : InitialData → List Place
  | .int8 _ | .int16 _ | .int32 _ | .space _ => [.keyword, .number]
  | .float32 _ | .float64 _ => [.keyword, .double]
  | .address _ _ => [.keyword, .symbol, .number]

/-- The places of a line. -/
def Line.places : Line → List Place
  | .entry _ => [.keyword, .symbol]
  | .variable _ init => .keyword :: .symbol :: init.flatMap InitialData.places
  | .external _ sig => .keyword :: .symbol :: sig.places
  | .function _ f =>
    .keyword :: .symbol :: f.signature.places ++
      [.keyword, .number, .keyword, .number, .keyword, .number, .keyword, .number]
  | .finish => [.keyword]
  | .instruction i => i.places

end RegisterMachine
