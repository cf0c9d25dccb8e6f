import RegisterMachine.Check.Violation

/-! # Symbols

Names of globals must differ, the entry point must be a function with code that takes no arguments
and returns an integer, and every symbol that code or initial contents mention must be a global; one
that is called must be a function.

* `Program.symbolViolations` — what is wrong with the symbols of a program.
-/

namespace RegisterMachine

/-- A mention of a symbol by an instruction. -/
structure Reference where
  /-- The symbol. -/
  symbol : String
  /-- Whether the instruction calls it. -/
  isCall : Bool
  deriving DecidableEq, Repr

/-- The symbol that an instruction mentions. -/
def Instruction.reference? : Instruction → Option Reference
  | .call (.symbol s) => some ⟨s, true⟩
  | .tailCall (.symbol s) => some ⟨s, true⟩
  | .op operation _ _ => operation.symbol?.map fun s => ⟨s, false⟩
  | .load _ mode _ _ => mode.symbol?.map fun s => ⟨s, false⟩
  | .store _ mode _ _ => mode.symbol?.map fun s => ⟨s, false⟩
  | _ => none

namespace Program

/-- The last global of a name. -/
def lastGlobal? (p : Program) (name : String) : Option Global :=
  (p.globals.reverse.find? fun g => g.1 = name).map (·.2)

/-- The globals whose names stand before them, given the names that are already taken. -/
def duplicates (taken : List String) : List (String × Global) → List Violation
  | [] => []
  | (name, _) :: rest =>
    if name ∈ taken then .duplicateSymbol name :: duplicates taken rest
    else duplicates (name :: taken) rest

/-- What is wrong with the entry point. -/
def entryViolations (p : Program) : List Violation :=
  match p.global? p.entry with
  | none => [.missingEntry p.entry]
  | some (.function (.internal f)) =>
    if f.signature = .main then [] else [.badEntrySignature p.entry f.signature]
  | some _ => [.entryNotInternal p.entry]

/-- What is wrong with an item of the initial contents of a variable. -/
def initialViolations (p : Program) (var : String) : InitialData → List Violation
  | .address name _ =>
    if (p.lastGlobal? name).isSome then [] else [.unknownInitSymbol var name]
  | _ => []

/-- What is wrong with the initial contents of a global. -/
def contentViolations (p : Program) (g : String × Global) : List Violation :=
  match g.2 with
  | .variable init => init.flatMap (p.initialViolations g.1)
  | .function _ => []

/-- What is wrong with the symbol that an instruction mentions. Where a name is declared more than
once its last declaration counts. -/
def referenceViolations (p : Program) (func : String) (pos : Nat) (i : Instruction) :
    List Violation :=
  match i.reference? with
  | none => []
  | some ref =>
    match p.lastGlobal? ref.symbol with
    | none => [.unknownSymbol func pos ref.symbol]
    | some g =>
      if ref.isCall && !g.isFunction then [.callToVariable func pos ref.symbol] else []

/-- What is wrong with the symbols of a program. -/
def symbolViolations (p : Program) : List Violation :=
  duplicates [] p.globals ++ p.entryViolations ++ p.globals.flatMap p.contentViolations ++
    p.inFunctions fun name f => f.inCode (p.referenceViolations name)

end Program

end RegisterMachine
