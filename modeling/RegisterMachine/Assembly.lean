import RegisterMachine.Assembly.Line

/-! # Assembly texts

A program is written as a text of lines. Reading stops at the first line that is wrong. The
canonical text of a program begins with its entry point, lists its globals in order with a blank
line before each function, and indents instructions.

* `splitLines` — the lines of a text.
* `Draft` — a program of which some lines have been read.
* `Program.ofText`, `Program.toText` — reading and writing.
-/

namespace RegisterMachine

/-! ## Reading -/

/-- The lines of a text, after the characters of an open line in reverse. A line break ends a line,
so there is no empty line after the last one. -/
def linesFrom (line : List Char) : List Char → List (List Char)
  | [] => if line.isEmpty then [] else [line.reverse]
  | '\n' :: cs => line.reverse :: linesFrom [] cs
  | c :: cs => linesFrom (c :: line) cs

/-- The lines of a text. -/
def splitLines (text : String) : List (List Char) := linesFrom [] text.toList

/-- A function of which the end has not been read yet. -/
structure OpenFunction where
  /-- Its name. -/
  name : String
  /-- The line in which it begins. -/
  line : Nat
  /-- What has been read of it. -/
  function : Function

/-- A program of which some lines have been read. -/
structure Draft where
  /-- The globals that are complete. -/
  globals : Array (String × Global)
  /-- The entry point. -/
  entry : String
  /-- The function whose lines are being read. -/
  open? : Option OpenFunction

namespace Draft

/-- The draft of which nothing has been read yet. -/
def empty : Draft := ⟨#[], Program.empty.entry, none⟩

/-- The draft after a line that says something. -/
def add (n : Nat) : Draft → Line → Except Fault Draft
  | ⟨globals, entry, some f⟩, l =>
    match l with
    | .instruction i =>
      .ok ⟨globals, entry, some { f with function.code := f.function.code.push i }⟩
    | .finish => .ok ⟨globals.push (f.name, .function (.internal f.function)), entry, none⟩
    | _ => .error (.insideFunction f.name)
  | ⟨globals, entry, none⟩, l =>
    match l with
    | .entry name => .ok ⟨globals, name, none⟩
    | .variable name init => .ok ⟨globals.push (name, .variable init), entry, none⟩
    | .external name sig =>
      .ok ⟨globals.push (name, .function (.external ⟨name, sig⟩)), entry, none⟩
    | .function name f => .ok ⟨globals, entry, some ⟨name, n, f⟩⟩
    | .finish => .error (.unexpected "end")
    | .instruction _ => .error .outsideFunction

/-- The draft after a line of text. -/
def addText (d : Draft) (n : Nat) (line : List Char) : Except Fault Draft := do
  let tokens ← tokenize line
  match ← Line.read tokens with
  | some l => d.add n l
  | none => return d

/-- The draft after lines of text, the first of which has number `n`. -/
def addLines (d : Draft) (n : Nat) : List (List Char) → Except AssemblyError Draft
  | [] => .ok d
  | line :: lines =>
    match d.addText n line with
    | .ok d => d.addLines (n + 1) lines
    | .error fault => .error ⟨n, fault⟩

/-- The program of a complete draft. -/
def finish (d : Draft) : Except AssemblyError Program :=
  match d.open? with
  | some f => .error ⟨f.line, .unterminatedFunction f.name⟩
  | none => .ok ⟨d.globals.toList, d.entry⟩

end Draft

/-- The program that a text describes. -/
def Program.ofText (text : String) : Except AssemblyError Program := do
  let d ← Draft.empty.addLines 1 (splitLines text)
  d.finish

/-! ## Writing -/

/-- The lines that declare a global. -/
def Global.lines (name : String) : Global → List Line
  | .variable init => [.variable name init]
  | .function (.external ef) => [.external name ef.signature]
  | .function (.internal f) =>
    .function name f :: f.code.toList.map .instruction ++ [.finish]

/-- The lines of a program. -/
def Program.lines (p : Program) : List Line :=
  .entry p.entry :: p.globals.flatMap fun g => g.2.lines g.1

/-- The canonical text of a line with its line break. -/
def Line.toText (l : Line) : String :=
  match l with
  | .function _ _ => "\n" ++ renderTokens l.tokens ++ "\n"
  | .instruction _ => "  " ++ renderTokens l.tokens ++ "\n"
  | _ => renderTokens l.tokens ++ "\n"

/-- The canonical text of a program. -/
def Program.toText (p : Program) : String := String.join (p.lines.map Line.toText)

/-! ## Written forms -/

example : (Program.ofText "VAR x Int8 0xff addr x 4 ; item\nentry x").toOption.map Program.toText =
    some "entry x\nvar x int8 255 addr x 4\n" := by
  decide +kernel

example :
    (Program.ofText
      "func f (int) -> int frame 8 stack 0 link 0 retaddr 1\n RETURN\nend").toOption.map
        Program.toText =
      some
        "entry main\n\nfunc f (int) -> int frame 8 stack 0 link 0 retaddr 1\n  return\nend\n" := by
  decide +kernel

end RegisterMachine
