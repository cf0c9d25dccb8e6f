import RegisterMachine.Assembly.Token

/-! # Reading operands

A reader takes tokens from the front of a line and leaves the rest. Operands are read in the order
in which they stand, and the first one that is wrong is reported.

* `LineReader` — readers, with one for each kind of operand.
* `LineReader.operation`, `LineReader.addressing`, `LineReader.condition` — a name and its
  constants.
* `LineReader.initialData` — an item of the initial contents of a variable.
-/

namespace RegisterMachine

/-- A reader of tokens. -/
abbrev LineReader := StateT (List Token) (Except Fault)

namespace Token

/-- The word that a token is. -/
def asWord : Token → Except Fault String
  | .word w => .ok w
  | t => .error (.unexpected t.toText)

/-- The number that an integer literal is, if `convert` has one for it. -/
def asNumber {α : Type} (convert : Int → Option α) : Token → Except Fault α
  | .int n =>
    match convert n with
    | some a => .ok a
    | none => .error (.invalidNumber (toString n))
  | t => .error (.unexpected t.toText)

/-- The double that a token is: a literal of either kind, or a word for a number that is not finite.
-/
def asDouble : Token → Except Fault Double
  | .float x => .ok x
  | .int n => .ok (.ofInt n)
  | .word w =>
    match Double.parse? w with
    | some x => .ok x
    | none => .error (.invalidNumber w)
  | t => .error (.unexpected t.toText)

/-- The member of a vocabulary that a word names. -/
def asName {α : Type} (read : String → Except NameError α) (t : Token) : Except Fault α := do
  let w ← t.asWord
  (read w).mapError .badName

/-- The register that a token names. -/
def asRegister (t : Token) : Except Fault Register := t.asName Register.read

/-- The data type that a token names. -/
def asDataType (t : Token) : Except Fault DataType := t.asName DataType.read

/-- The label that a token is. -/
def asLabel (t : Token) : Except Fault Label := t.asNumber Word.ofUnsigned?

end Token

namespace LineReader

/-! ## Single tokens -/

/-- Takes one token and converts it. -/
def take {α : Type} (expected : String) (convert : Token → Except Fault α) : LineReader α
  | [] => .error (.missing expected)
  | t :: ts => (convert t).map fun a => (a, ts)

/-- A word. -/
def word (expected : String) : LineReader String := take expected Token.asWord

/-- A given word, in any ASCII case. -/
def keyword (w : String) : LineReader Unit :=
  take w fun
    | .word w' => if foldCase w' = w then .ok () else .error (.unexpected w')
    | t => .error (.unexpected t.toText)

/-- An opening parenthesis. -/
def lparen : LineReader Unit :=
  take "'('" fun
    | .lparen => .ok ()
    | t => .error (.unexpected t.toText)

/-- A word read with sign. -/
def signed (expected : String) : LineReader Word := take expected (Token.asNumber Word.ofInt?)

/-- A word read without sign. -/
def unsigned (expected : String) : LineReader Word :=
  take expected (Token.asNumber Word.ofUnsigned?)

/-- A double. -/
def double : LineReader Double := take "float" Token.asDouble

/-- A label. -/
def label : LineReader Label := take "label" Token.asLabel

/-- A register. -/
def register : LineReader Register := take "register" Token.asRegister

/-- A data type. -/
def dataType : LineReader DataType := take "type" Token.asDataType

/-- A memory chunk. -/
def chunk : LineReader Chunk := take "memory chunk" fun t => t.asName Chunk.read

/-- A comparison. -/
def comparison : LineReader Comparison := take "comparison" fun t => t.asName Comparison.read

/-- The end of the line. -/
def finish : LineReader Unit
  | [] => .ok ((), [])
  | t :: _ => .error (.unexpected t.toText)

/-! ## Runs of tokens -/

/-- All tokens up to the end of the line. -/
def rest {α : Type} (convert : Token → Except Fault α) : LineReader (List α) := fun ts =>
  (ts.mapM convert).map fun as => (as, [])

/-- Registers up to the end of the line. -/
def registers : LineReader (List Register) := rest Token.asRegister

/-- Registers up to the first token that is not a word. -/
def leadingRegisters : LineReader (List Register)
  | .word w :: ts => do
    let r ← Token.asRegister (.word w)
    let (rs, ts) ← leadingRegisters ts
    .ok (r :: rs, ts)
  | ts => .ok ([], ts)

/-- Data types up to a closing parenthesis, which is taken too. -/
def dataTypes : LineReader (List DataType)
  | [] => .error (.missing "type")
  | .rparen :: ts => .ok ([], ts)
  | t :: ts => do
    let a ← t.asDataType
    let (as, ts) ← dataTypes ts
    .ok (a :: as, ts)

/-- An arrow and a result type, or neither. -/
def resultType? : LineReader (Option DataType)
  | .arrow :: ts => (dataType ts).map fun (t, ts) => (some t, ts)
  | ts => .ok (none, ts)

/-- A signature. -/
def signature : LineReader Signature := do
  lparen
  let arguments ← dataTypes
  let result? ← resultType?
  return ⟨arguments, result?⟩

/-! ## Names with constants -/

/-- The target of a call. A word that names a register is that register. -/
def callee : LineReader Callee := do
  let w ← word "call target"
  match Register.read w with
  | .ok r => return .register r
  | .error _ => return .symbol w

/-- A symbol and a byte offset. -/
def symbolOffset : LineReader (String × Word) := do
  let s ← word "symbol"
  let offset ← signed "offset"
  return (s, offset)

/-- A condition: its kind, a comparison and a constant where the kind has one. -/
def condition : LineReader Condition := do
  let kind := foldCase (← word "condition")
  let c ← comparison
  match kind with
  | "cmp" => return .signed c
  | "cmpu" => return .unsigned c
  | "cmpimm" => return .signedImm c (← signed "immediate")
  | "cmpuimm" => return .unsignedImm c (← signed "immediate")
  | "cmpf" => return .float c
  | "notcmpf" => return .notFloat c
  | _ => throw (.unknownCondition kind)

/-- An operation that is no operator, named by a word in small letters. -/
def operationNamed : String → LineReader Operation
  | "move" => return .move
  | "intconst" => return .intConst (← signed "immediate")
  | "floatconst" => return .floatConst (← double)
  | "addrsymbol" => do
    let (s, offset) ← symbolOffset
    return .addrSymbol s offset
  | "addrstack" => return .addrStack (← signed "offset")
  | "cmp" => return .compare (← condition)
  | name => throw (.unknownOperation name)

/-- An operation and its constants. -/
def operation : LineReader Operation := do
  let name := foldCase (← word "operation")
  match (Vocabulary.find? name : Option UnaryOp) with
  | some op => return .unary op
  | none =>
  match (Vocabulary.find? name : Option BinaryOp) with
  | some op => return .binary op
  | none =>
  match (Vocabulary.find? name : Option ImmediateOp) with
  | some op => return .immediate op (← signed "immediate")
  | none => operationNamed name

/-- An addressing mode and its constants. -/
def addressing : LineReader Addressing := do
  let name := foldCase (← word "addressing mode")
  match name with
  | "indexed" => return .indexed (← signed "offset")
  | "indexed2" => return .indexedTwo
  | "global" => do
    let (s, offset) ← symbolOffset
    return .global s offset
  | "based" => do
    let (s, offset) ← symbolOffset
    return .based s offset
  | "stack" => return .stack (← signed "offset")
  | _ => throw (.unknownAddressing name)

/-- An item of initial contents. -/
def initialData : LineReader InitialData := do
  let kind := foldCase (← word "initializer")
  match kind with
  | "int8" => return .int8 (← signed "value")
  | "int16" => return .int16 (← signed "value")
  | "int32" => return .int32 (← signed "value")
  | "float32" => return .float32 (← double)
  | "float64" => return .float64 (← double)
  | "space" => return .space (← unsigned "size")
  | "addr" => do
    let (s, offset) ← symbolOffset
    return .address s offset
  | _ => throw (.unknownInitializer kind)

/-- Items of initial contents up to the end of the line, at most `bound` of them. Every item takes a
token, so the number of tokens is bound enough. -/
def itemsWithin : (bound : Nat) → LineReader (List InitialData)
  | 0 => return []
  | bound + 1 => do
    if (← get).isEmpty then return []
    let item ← initialData
    let items ← itemsWithin bound
    return item :: items

/-- Items of initial contents up to the end of the line. -/
def items : LineReader (List InitialData) := do
  itemsWithin (← get).length

end LineReader

end RegisterMachine
