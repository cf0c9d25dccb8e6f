import RegisterMachine.Program

/-! # Return addresses

How code is laid out is not the machine's business, so the addresses to which calls return are
given to it. All that is asked of them is that they depend on nothing but the call site.

* `ReturnAddresses` — an address, or none, for every call site.
* `ReturnAddresses.codeOffset` — addresses a call site by its position in the code.
-/

namespace RegisterMachine

/-- The return address of a call, given the block and the definition of the calling function and the
number of instructions that follow the call. -/
abbrev ReturnAddresses := BlockId → Function → (remaining : Nat) → Option Value

namespace ReturnAddresses

/-- The pointer into the block of the calling function at the index of the instruction after the
call. There is none where the index is beyond the code or is no offset. -/
def codeOffset : ReturnAddresses := fun b f remaining =>
  if remaining ≤ f.code.size then
    (Word.ofInt? (f.code.size - remaining : Nat)).map fun offset => .ptr b offset
  else none

/-- The same answer for every call site. -/
def constant (answer : Option Value) : ReturnAddresses := fun _ _ _ => answer

end ReturnAddresses

end RegisterMachine
