import RegisterMachine.CommandLine
import Mathlib.Data.List.Forall2

/-! # The wording of reports

What stands in the output of a run is said here without printing it: how values and events are
shown, that each event has a line of its own, and by which text each reason for being stuck is
named. The texts that are printed are these. Reasons of different kinds are never named by the same
text, so that a report says what went wrong.

* `Value.ShownAs`, `Event.ShownAs`, `Event.PrintedAs` — the texts of values, events and traces.
* `MemoryError.NamedBy`, `Stuck.NamedBy` — the texts of memory errors and of reasons.
* `Event.printedAs_eventLines`, `Stuck.namedBy_message` — the texts that are printed.
* `Stuck.NamedBy.ctorIdx_eq` — a text names reasons of one kind only.
-/

namespace RegisterMachine

/-! ## Values and events -/

/-- A text shows a value. -/
inductive Value.ShownAs : Value → String → Prop where
  /-- An integer is shown in decimal notation, with its sign. -/
  | int {n : Word} : ShownAs (.int n) (toString n.toInt)
  /-- A double is shown by the shortest decimal that reads back. -/
  | float {x : Double} : ShownAs (.float x) x.toText
  /-- A pointer is shown by its block and its offset. -/
  | ptr {block : BlockId} {offset : Word} :
    ShownAs (.ptr block offset) ("&" ++ toString block ++ "+" ++ toString offset.toInt)
  /-- The undefined value is shown by a word. -/
  | undefined : ShownAs .undefined "undef"

/-- A text shows an event: the name of the function, its arguments in order and its result. -/
inductive Event.ShownAs : Event → String → Prop where
  /-- The arguments stand in parentheses, with commas between them. -/
  | intro {name : String} {args : List EventValue} {result : EventValue} {texts : List String}
    {text : String} (hargs : List.Forall₂ (fun v s => v.toValue.ShownAs s) args texts)
    (hresult : result.toValue.ShownAs text) :
    ShownAs ⟨name, args, result⟩ (name ++ "(" ++ String.intercalate ", " texts ++ ") = " ++ text)

/-- A text shows events: each of them in a line, in order. -/
def Event.PrintedAs (events : List Event) (out : String) : Prop :=
  ∃ lines, List.Forall₂ Event.ShownAs events lines ∧
    out = String.join (lines.map fun line => line ++ "\n")

/-- The text of a value shows it. -/
theorem Value.shownAs_toText (v : Value) : v.ShownAs v.toText := by
  cases v with
  | int n => exact .int
  | float x => exact .float
  | ptr block offset => exact .ptr
  | undefined => exact .undefined

/-- The text of an event shows it. -/
theorem Event.shownAs_toText (e : Event) : e.ShownAs e.toText := by
  refine .intro ?_ (Value.shownAs_toText _)
  exact List.forall₂_map_right_iff.2 (List.forall₂_same.2 fun v _ => Value.shownAs_toText _)

/-- The lines of events show them. -/
theorem Event.printedAs_eventLines (events : List Event) :
    PrintedAs events (Report.eventLines events) := by
  refine ⟨events.map Event.toText, ?_, ?_⟩
  · exact List.forall₂_map_right_iff.2 (List.forall₂_same.2 fun e _ => e.shownAs_toText)
  · rw [List.map_map]
    rfl

/-! ## Reasons -/

/-- A text names a memory error, with the block and the access that failed. -/
inductive MemoryError.NamedBy : MemoryError → String → Prop where
  /-- There is no such block. -/
  | invalidBlock {b : BlockId} :
    NamedBy (.invalidBlock b) ("block " ++ toString b ++ " is not allocated")
  /-- An access that lies outside of the bounds of its block. -/
  | outOfBounds {c : Chunk} {b : BlockId} {offset lo hi : Int} :
    NamedBy (.outOfBounds c b offset lo hi) (c.label ++ " access at " ++ toString b ++ "+" ++
      toString offset ++ " outside bounds [" ++ toString lo ++ ", " ++ toString hi ++ ")")
  /-- An access that is not aligned. -/
  | misaligned {c : Chunk} {b : BlockId} {offset : Int} :
    NamedBy (.misaligned c b offset) ("misaligned " ++ c.label ++ " access at " ++ toString b ++
      "+" ++ toString offset)
  /-- An access that goes to no pointer. -/
  | notAPointer {v : Value} {text : String} (h : v.ShownAs text) :
    NamedBy (.notAPointer v) ("address " ++ text ++ " is not a pointer")
  /-- A block that does not have these bounds. -/
  | badFree {b : BlockId} {lo hi : Int} :
    NamedBy (.badFree b lo hi) ("cannot free block " ++ toString b ++ " with bounds [" ++
      toString lo ++ ", " ++ toString hi ++ ")")

/-- A text names a reason for being stuck, with the names and values that belong to it. -/
inductive Stuck.NamedBy : Stuck → String → Prop where
  /-- A memory error. -/
  | memory {e : MemoryError} {text : String} (h : e.NamedBy text) :
    NamedBy (.memory e) ("memory fault: " ++ text)
  /-- The symbol that is no global. -/
  | unknownSymbol {name : String} :
    NamedBy (.unknownSymbol name) ("unknown symbol '" ++ name ++ "'")
  /-- The value that is no function pointer. -/
  | notAFunction {v : Value} {text : String} (h : v.ShownAs text) :
    NamedBy (.notAFunction v) ("call through non-function value " ++ text)
  /-- The block without a function. -/
  | unknownFunction {b : BlockId} :
    NamedBy (.unknownFunction b) ("no function at block " ++ toString b)
  /-- The block of a function without code. -/
  | notInternal {b : BlockId} :
    NamedBy (.notInternal b) ("function at block " ++ toString b ++ " is not internal")
  /-- The operation without a result. -/
  | undefinedOperation {mnemonic : String} :
    NamedBy (.undefinedOperation mnemonic)
      ("operation '" ++ mnemonic ++ "' undefined for its operands")
  /-- The addressing mode that forms no address. -/
  | undefinedAddress {mnemonic : String} :
    NamedBy (.undefinedAddress mnemonic)
      ("addressing mode '" ++ mnemonic ++ "' undefined for its operands")
  /-- The condition that is not defined. -/
  | undefinedCondition {mnemonic : String} :
    NamedBy (.undefinedCondition mnemonic)
      ("condition '" ++ mnemonic ++ "' undefined for its operands")
  /-- The label that the function does not have. -/
  | missingLabel {l : Label} :
    NamedBy (.missingLabel l) ("label " ++ toString l.toNat ++ " not found")
  /-- The index that is not within the table. -/
  | badJumpIndex {v : Value} {text : String} (h : v.ShownAs text) :
    NamedBy (.badJumpIndex v) ("jump table index " ++ text ++ " out of range")
  /-- The end of the code. -/
  | endOfCode : NamedBy .endOfCode "fell off the end of the function"
  /-- The missing return address. -/
  | noReturnAddress : NamedBy .noReturnAddress "no return address for call site"
  /-- What the link slot holds, and what it should. -/
  | linkMismatch {v w : Value} {stored expected : String} (hv : v.ShownAs stored)
    (hw : w.ShownAs expected) :
    NamedBy (.linkMismatch v w) ("link slot holds " ++ stored ++ ", expected " ++ expected)
  /-- What the return-address slot holds, and what it should. -/
  | returnAddressMismatch {v w : Value} {stored expected : String} (hv : v.ShownAs stored)
    (hw : w.ShownAs expected) :
    NamedBy (.returnAddressMismatch v w)
      ("return-address slot holds " ++ stored ++ ", expected " ++ expected)
  /-- The external function whose call has no outcome. -/
  | externalCallFailed {name : String} :
    NamedBy (.externalCallFailed name) ("external call '" ++ name ++ "' has no outcome")
  /-- The end of the program. -/
  | finished : NamedBy .finished "program has finished"
  /-- The result that is no integer. -/
  | badExitValue {v : Value} {text : String} (h : v.ShownAs text) :
    NamedBy (.badExitValue v) ("exit value " ++ text ++ " is not an integer")

/-- The text of a memory error names it. -/
theorem MemoryError.namedBy_message (e : MemoryError) : e.NamedBy e.message := by
  cases e with
  | invalidBlock b => exact .invalidBlock
  | outOfBounds c b offset lo hi => exact .outOfBounds
  | misaligned c b offset => exact .misaligned
  | notAPointer v => exact .notAPointer v.shownAs_toText
  | badFree b lo hi => exact .badFree

/-- The text of a reason names it. -/
theorem Stuck.namedBy_message (reason : Stuck) : reason.NamedBy reason.message := by
  cases reason with
  | memory e => exact .memory e.namedBy_message
  | notAFunction v => exact .notAFunction v.shownAs_toText
  | badJumpIndex v => exact .badJumpIndex v.shownAs_toText
  | badExitValue v => exact .badExitValue v.shownAs_toText
  | linkMismatch v w => exact .linkMismatch v.shownAs_toText w.shownAs_toText
  | returnAddressMismatch v w => exact .returnAddressMismatch v.shownAs_toText w.shownAs_toText
  | _ => constructor

/-- The first characters of the texts of reasons, in the order of their kinds. -/
def Stuck.openings : List (List Char) :=
  [['m', 'e', 'm', 'o'], ['u', 'n', 'k', 'n'], ['c', 'a', 'l', 'l'], ['n', 'o', ' ', 'f'],
    ['f', 'u', 'n', 'c'], ['o', 'p', 'e', 'r'], ['a', 'd', 'd', 'r'], ['c', 'o', 'n', 'd'],
    ['l', 'a', 'b', 'e'], ['j', 'u', 'm', 'p'], ['f', 'e', 'l', 'l'], ['n', 'o', ' ', 'r'],
    ['l', 'i', 'n', 'k'], ['r', 'e', 't', 'u'], ['e', 'x', 't', 'e'], ['p', 'r', 'o', 'g'],
    ['e', 'x', 'i', 't']]

/-- A text that names a reason begins as all texts of its kind do. -/
theorem Stuck.NamedBy.getElem?_openings {reason : Stuck} {text : String} (h : reason.NamedBy text) :
    openings[reason.ctorIdx]? = some (text.toList.take 4) := by
  cases h with
  | endOfCode | noReturnAddress | finished => rfl
  | _ =>
    simp only [String.toList_append, List.append_assoc]
    rfl

/-- A text names reasons of one kind only. -/
theorem Stuck.NamedBy.ctorIdx_eq {reason reason' : Stuck} {text : String} (h : reason.NamedBy text)
    (h' : reason'.NamedBy text) : reason.ctorIdx = reason'.ctorIdx := by
  have hnodup : openings.Nodup := by decide
  have hlt : reason.ctorIdx < openings.length :=
    (List.getElem?_eq_some_iff.1 h.getElem?_openings).1
  exact (List.getElem?_inj hlt hnodup).1 (h.getElem?_openings.trans h'.getElem?_openings.symm)

end RegisterMachine
