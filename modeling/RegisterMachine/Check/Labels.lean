import RegisterMachine.Check.Violation

/-! # Labels

In each function a label stands once, every branch goes to a label that stands there, and control
does not pass the last instruction.

* `Program.labelViolations` — what is wrong with labels and with the ends of functions.
-/

namespace RegisterMachine

namespace Function

/-- The labels that stand in the code of a function. -/
def labels (f : Function) : List Label :=
  f.code.toList.filterMap fun i =>
    match i with
    | .label l => some l
    | _ => none

/-- The labels that stand before themselves in code, given the labels that were already seen and the
position of the first instruction. -/
def duplicateLabels (name : String) (seen : List Label) (pos : Nat) :
    List Instruction → List Violation
  | [] => []
  | .label l :: code =>
    if l ∈ seen then .duplicateLabel name pos l :: duplicateLabels name seen (pos + 1) code
    else duplicateLabels name (l :: seen) (pos + 1) code
  | _ :: code => duplicateLabels name seen (pos + 1) code

/-- The labels to which an instruction branches and that do not stand in the function. -/
def targetViolations (name : String) (f : Function) (pos : Nat) (i : Instruction) :
    List Violation :=
  (i.targets.filter fun l => l ∉ f.labels).map (.undefinedLabel name pos)

/-- Whether control cannot pass the last instruction. -/
def isClosed (f : Function) : Bool := (f.code.back?.map Instruction.endsBlock).getD false

/-- What is wrong with the labels and the end of a function. -/
def labelViolations (name : String) (f : Function) : List Violation :=
  duplicateLabels name [] 0 f.code.toList ++ f.inCode (f.targetViolations name) ++
    if f.isClosed then [] else [.fallsOffEnd name]

end Function

/-- What is wrong with labels and with the ends of functions. -/
def Program.labelViolations (p : Program) : List Violation := p.inFunctions Function.labelViolations

end RegisterMachine
