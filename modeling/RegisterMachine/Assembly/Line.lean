import RegisterMachine.Assembly.Reader

/-! # Lines

A line of an assembly text is a directive, an instruction or blank. Keywords may be written in any
ASCII case; symbols are kept as they are written.

* `Line` — what a line says.
* `Line.read` — the reading of its tokens.
* `Line.tokens` — its canonical tokens.
-/

namespace RegisterMachine

/-- What a line says. -/
inductive Line where
  /-- Names the entry point. -/
  | entry (name : String)
  /-- Declares a variable. -/
  | variable (name : String) (init : List InitialData)
  /-- Declares an external function. -/
  | external (name : String) (sig : Signature)
  /-- Begins a function, whose code is yet empty. -/
  | function (name : String) (f : Function)
  /-- Ends a function. -/
  | finish
  /-- Adds an instruction to a function. -/
  | instruction (i : Instruction)
  deriving DecidableEq

/-! ## Reading -/

namespace LineReader

/-- The operands of an instruction, which is named by a word in small letters. -/
def instructionNamed : String → LineReader Instruction
  | "label" => return .label (← label)
  | "getstack" => do
    let slot ← signed "slot offset"
    let t ← dataType
    return .getStack slot t (← register)
  | "setstack" => do
    let src ← register
    let slot ← signed "slot offset"
    return .setStack src slot (← dataType)
  | "getparam" => do
    let slot ← signed "slot offset"
    let t ← dataType
    return .getParam slot t (← register)
  | "op" => do
    let dst ← register
    let op ← operation
    return .op op (← registers) dst
  | "load" => do
    let c ← chunk
    let dst ← register
    let mode ← addressing
    return .load c mode (← registers) dst
  | "store" => do
    let c ← chunk
    let src ← register
    let mode ← addressing
    return .store c mode (← registers) src
  | "call" => return .call (← callee)
  | "tailcall" => return .tailCall (← callee)
  | "goto" => return .goto (← label)
  | "cond" => do
    let c ← condition
    let args ← leadingRegisters
    return .cond c args (← label)
  | "jumptable" => do
    let arg ← register
    return .jumpTable arg (← rest Token.asLabel)
  | "return" => return .ret
  | name => throw (.unknownMnemonic name)

/-- The head of a function: a signature, two sizes and two reserved slots. -/
def functionHead : LineReader Function := do
  let sig ← signature
  keyword "frame"
  let frameSize ← signed "frame size"
  keyword "stack"
  let stackSize ← signed "stack size"
  keyword "link"
  let linkSlot ← signed "link slot"
  keyword "retaddr"
  let returnSlot ← signed "return-address slot"
  return ⟨sig, #[], frameSize, stackSize, linkSlot, returnSlot⟩

/-- The operands of a line, which is named by a word in small letters. -/
def lineNamed : String → LineReader Line
  | "entry" => return .entry (← word "symbol")
  | "var" => do
    let name ← word "symbol"
    return .variable name (← items)
  | "extern" => do
    let name ← word "symbol"
    return .external name (← signature)
  | "func" => do
    let name ← word "symbol"
    return .function name (← functionHead)
  | "end" => return .finish
  | name => return .instruction (← instructionNamed name)

/-- A whole line that begins with a word. -/
def line (w : String) : LineReader Line := do
  let l ← lineNamed (foldCase w)
  finish
  return l

end LineReader

/-- What the tokens of a line say; nothing if there are none. -/
def Line.read : List Token → Except Fault (Option Line)
  | [] => .ok none
  | .word w :: ts => ((LineReader.line w).run ts).map fun (l, _) => some l
  | t :: _ => .error (.unexpected t.toText)

/-! ## Canonical tokens -/

/-- The token of a register. -/
def Register.token (r : Register) : Token := .word r.name

/-- The token of a data type. -/
def DataType.token (t : DataType) : Token := .word t.name

/-- The token of a word read with sign. -/
def Word.token (w : Word) : Token := .int w.toInt

/-- The token of a word read without sign. -/
def Word.unsignedToken (w : Word) : Token := .int w.toNat

/-- The tokens of a signature. -/
def Signature.tokens (sig : Signature) : List Token :=
  .lparen :: sig.arguments.map DataType.token ++ .rparen ::
    match sig.result? with
    | some t => [.arrow, t.token]
    | none => []

/-- The tokens of a condition. -/
def Condition.tokens (cond : Condition) : List Token :=
  .word cond.mnemonic ::
    match cond with
    | .signed c | .unsigned c | .float c | .notFloat c => [.word c.name]
    | .signedImm c n | .unsignedImm c n => [.word c.name, Word.token n]

/-- The tokens of an operation. -/
def Operation.tokens (op : Operation) : List Token :=
  .word op.mnemonic ::
    match op with
    | .intConst n | .addrStack n | .immediate _ n => [Word.token n]
    | .floatConst x => [.ofDouble x]
    | .addrSymbol s n => [.word s, Word.token n]
    | .compare cond => cond.tokens
    | .move | .unary _ | .binary _ => []

/-- The tokens of an addressing mode. -/
def Addressing.tokens (mode : Addressing) : List Token :=
  .word mode.mnemonic ::
    match mode with
    | .indexed n | .stack n => [Word.token n]
    | .global s n | .based s n => [.word s, Word.token n]
    | .indexedTwo => []

/-- The tokens of an instruction. -/
def Instruction.tokens (i : Instruction) : List Token :=
  .word i.mnemonic ::
    match i with
    | .label l | .goto l => [Word.unsignedToken l]
    | .getStack slot t dst | .getParam slot t dst => [Word.token slot, t.token, dst.token]
    | .setStack src slot t => [src.token, Word.token slot, t.token]
    | .op operation args dst => dst.token :: operation.tokens ++ args.map Register.token
    | .load c mode args r | .store c mode args r =>
      .word c.name :: r.token :: mode.tokens ++ args.map Register.token
    | .call callee | .tailCall callee => [.word callee.toText]
    | .cond condition args l =>
      condition.tokens ++ args.map Register.token ++ [Word.unsignedToken l]
    | .jumpTable arg ls => arg.token :: ls.map Word.unsignedToken
    | .ret => []

/-- The tokens of an item of initial contents. -/
def InitialData.tokens : InitialData → List Token
  | .int8 n => [.word "int8", Word.token n]
  | .int16 n => [.word "int16", Word.token n]
  | .int32 n => [.word "int32", Word.token n]
  | .float32 x => [.word "float32", .ofDouble x]
  | .float64 x => [.word "float64", .ofDouble x]
  | .space count => [.word "space", Word.unsignedToken count]
  | .address s n => [.word "addr", .word s, Word.token n]

/-- The tokens of a line. -/
def Line.tokens : Line → List Token
  | .entry name => [.word "entry", .word name]
  | .variable name init => .word "var" :: .word name :: init.flatMap InitialData.tokens
  | .external name sig => .word "extern" :: .word name :: sig.tokens
  | .function name f =>
    .word "func" :: .word name :: f.signature.tokens ++
      [.word "frame", Word.token f.frameSize, .word "stack", Word.token f.stackSize,
        .word "link", Word.token f.linkSlot, .word "retaddr", Word.token f.returnSlot]
  | .finish => [.word "end"]
  | .instruction i => i.tokens

end RegisterMachine
