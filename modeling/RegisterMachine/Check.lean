import RegisterMachine.Check.Symbols
import RegisterMachine.Check.Frames
import RegisterMachine.Check.Labels
import RegisterMachine.Check.Operands

/-! # Checked programs

A program is checked before it runs, under the convention with which it will run. A program without
violations can still get stuck; the checks rule out mistakes that can be seen in its text.

* `Program.violations` — everything that is wrong, in the order of the checks.
* `Program.WellFormed` — a program without violations.
-/

namespace RegisterMachine

namespace Program

/-- Everything that is wrong with a program: symbols first, then frames, labels and operands. -/
def violations (p : Program) (conv : Convention) : List Violation :=
  p.symbolViolations ++ p.frameViolations conv ++ p.labelViolations ++ p.operandViolations

/-- A program is well formed under a convention if nothing is wrong with it. -/
def WellFormed (p : Program) (conv : Convention) : Prop := p.violations conv = []

instance (p : Program) (conv : Convention) : Decidable (p.WellFormed conv) :=
  inferInstanceAs (Decidable (_ = _))

/-- Each of the four checks finds nothing in a well-formed program, and only in one. -/
theorem wellFormed_iff {p : Program} {conv : Convention} :
    p.WellFormed conv ↔ p.symbolViolations = [] ∧ p.frameViolations conv = [] ∧
      p.labelViolations = [] ∧ p.operandViolations = [] := by
  simp [WellFormed, violations]

end Program

end RegisterMachine
