import RegisterMachine.Check
import RegisterMachine.Machine.Step
import RegisterMachine.Proofs.Environment.Loading

/-! # What the checks promise

The checks list violations; a program without violations is known through what its violations would
have been. This file turns the empty lists into facts on the functions of a well-formed program.

* `Program.Accepts` — what the checks promise of a function with code.
* `Program.WellFormed.accepts` — every function of a well-formed program is such a function.
* `Program.WellFormed.entry` — the entry point is a function with code.
* `Program.Accepts.toInt_slotOffset` — a slot that fits lies at its offset, nothing wraps.
* `Program.Accepts.jump_lt`, `Program.Accepts.next_lt` — control stays within the code.
-/

namespace RegisterMachine

/-! ## Empty lists of violations -/

/-- A check of every instruction finds nothing exactly if it finds nothing in each of them. -/
theorem Function.inCode_eq_nil_iff {f : Function} {check : Nat → Instruction → List Violation} :
    f.inCode check = [] ↔
      ∀ (pc : Nat) (i : Instruction), f.code[pc]? = some i → check pc i = [] := by
  simp only [Function.inCode, List.flatMap_eq_nil_iff]
  constructor
  · intro h pc i hi
    refine h (i, pc) ?_
    rw [List.mem_zipIdx_iff_getElem?, Array.getElem?_toList]
    exact hi
  · rintro h ⟨i, pc⟩ hmem
    rw [List.mem_zipIdx_iff_getElem?, Array.getElem?_toList] at hmem
    exact h pc i hmem

/-- A check of every function with code finds nothing exactly if it finds nothing in each of them.
-/
theorem Program.inFunctions_eq_nil_iff {p : Program}
    {check : String → Function → List Violation} :
    p.inFunctions check = [] ↔
      ∀ (name : String) (f : Function), (name, .function (.internal f)) ∈ p.globals →
        check name f = [] := by
  simp only [Program.inFunctions, List.flatMap_eq_nil_iff, Program.functions, List.mem_filterMap]
  constructor
  · intro h name f hf
    exact h (name, f) ⟨_, hf, rfl⟩
  · rintro h ⟨name, f⟩ ⟨⟨name', g⟩, hmem, hg⟩
    split at hg
    · rename_i f' hf'
      simp only [Option.some.injEq, Prod.mk.injEq] at hg
      obtain ⟨rfl, rfl⟩ := hg
      simp only at hf'
      subst hf'
      exact h _ _ hmem
    · cases hg

/-- A list that holds something exactly if a test fails is empty exactly if the test holds. -/
theorem ite_singleton_eq_nil_iff {α : Type} {P : Prop} [Decidable P] {a : α} :
    (if P then [] else [a]) = [] ↔ P := by
  by_cases h : P <;> simp [h]

/-- A list that holds something exactly if a test holds is empty exactly if the test fails. -/
theorem singleton_ite_eq_nil_iff {α : Type} {P : Prop} [Decidable P] {a : α} :
    (if P then [a] else []) = [] ↔ ¬ P := by
  by_cases h : P <;> simp [h]

/-- The last global of a name is one of the globals. -/
theorem Program.mem_of_lastGlobal? {p : Program} {name : String} {g : Global}
    (h : p.lastGlobal? name = some g) : (name, g) ∈ p.globals := by
  simp only [lastGlobal?, Option.map_eq_some_iff] at h
  obtain ⟨⟨name', g'⟩, hfind, rfl⟩ := h
  have hname : name' = name := by simpa using List.find?_some hfind
  exact hname ▸ List.mem_reverse.1 (List.mem_of_find?_eq_some hfind)

/-! ## Accepted functions -/

/-- What the checks of a program under a convention promise of a function with code. -/
structure Program.Accepts (p : Program) (conv : Convention) (name : String) (f : Function) :
    Prop where
  /-- The frame size is not negative. -/
  frameSize_nonneg : 0 ≤ f.frameSize.toInt
  /-- The frame size is a number of words. -/
  frameSize_aligned : f.frameSize.toInt % 4 = 0
  /-- The size of local data is not negative. -/
  stackSize_nonneg : 0 ≤ f.stackSize.toInt
  /-- The size of local data is a number of words. -/
  stackSize_aligned : f.stackSize.toInt % 4 = 0
  /-- The whole frame keeps within the greatest size. -/
  size_le : f.frameSize.toInt + f.stackSize.toInt ≤ maxFrameSize
  /-- The link slot lies in the frame. -/
  link_fits : f.slotFits f.linkSlot .int = true
  /-- The return-address slot lies in the frame. -/
  return_fits : f.slotFits f.returnSlot .int = true
  /-- The reserved slots are two slots. -/
  link_ne_return : f.linkSlot ≠ f.returnSlot
  /-- The slots that instructions access lie in the frame. -/
  slots : ∀ (pc : Nat) (i : Instruction), f.code[pc]? = some i → f.slotViolations name pc i = []
  /-- Arguments of calls lie in the frame and clear of the reserved slots. -/
  outgoing : ∀ (pc : Nat) (i : Instruction), f.code[pc]? = some i →
    p.outgoingViolations conv name f pc i = []
  /-- Symbols are those of globals, and of functions where they are called. -/
  references : ∀ (pc : Nat) (i : Instruction), f.code[pc]? = some i →
    p.referenceViolations name pc i = []
  /-- Branches go to labels of the function. -/
  targets : ∀ (pc : Nat) (i : Instruction), f.code[pc]? = some i → ∀ l ∈ i.targets, l ∈ f.labels
  /-- Control cannot pass the last instruction. -/
  closed : f.isClosed = true
  /-- Instructions have the operands that they take. -/
  operands : ∀ (pc : Nat) (i : Instruction), f.code[pc]? = some i →
    i.operandViolations name pc = []

namespace Program.WellFormed

variable {p : Program} {conv : Convention}

/-- The checks of frames find nothing in an accepted function. -/
theorem frameChecks (h : p.WellFormed conv) {name : String} {f : Function}
    (hf : (name, .function (.internal f)) ∈ p.globals) :
    f.frameViolations name = [] ∧ f.inCode (p.outgoingViolations conv name f) = [] := by
  have hframes := (wellFormed_iff.1 h).2.1
  simp only [frameViolations, List.append_eq_nil_iff, inFunctions_eq_nil_iff] at hframes
  exact hframes.2 name f hf

/-- The functions of a well-formed program are accepted. -/
theorem accepts (h : p.WellFormed conv) {name : String} {f : Function}
    (hf : (name, .function (.internal f)) ∈ p.globals) : p.Accepts conv name f := by
  obtain ⟨hframe, houtgoing⟩ := h.frameChecks hf
  obtain ⟨hsymbols, -, hlabels, hoperands⟩ := wellFormed_iff.1 h
  simp only [symbolViolations, List.append_eq_nil_iff, inFunctions_eq_nil_iff] at hsymbols
  simp only [labelViolations, inFunctions_eq_nil_iff] at hlabels
  simp only [operandViolations, inFunctions_eq_nil_iff] at hoperands
  have hlabel := hlabels name f hf
  simp only [Function.labelViolations, List.append_eq_nil_iff, Function.inCode_eq_nil_iff,
    ite_singleton_eq_nil_iff, Function.targetViolations, List.map_eq_nil_iff,
    List.filter_eq_nil_iff] at hlabel
  simp only [Function.frameViolations, List.append_eq_nil_iff, Function.sizeViolations,
    Function.reservedViolations, Function.inCode_eq_nil_iff, ite_singleton_eq_nil_iff,
    singleton_ite_eq_nil_iff, not_or, Int.not_lt] at hframe
  obtain ⟨⟨⟨⟨⟨⟨hfs, hss⟩, hsize⟩, hlink⟩, hreturn⟩, hdistinct⟩, hslots⟩ := hframe
  exact {
    frameSize_nonneg := hfs.1
    frameSize_aligned := Decidable.not_not.1 hfs.2
    stackSize_nonneg := hss.1
    stackSize_aligned := Decidable.not_not.1 hss.2
    size_le := hsize
    link_fits := hlink
    return_fits := hreturn
    link_ne_return := hdistinct
    slots := hslots
    outgoing := Function.inCode_eq_nil_iff.1 houtgoing
    references := Function.inCode_eq_nil_iff.1 (hsymbols.2 name f hf)
    targets := fun pc i hi l hl => by simpa using hlabel.1.2 pc i hi l hl
    closed := hlabel.2
    operands := Function.inCode_eq_nil_iff.1 (hoperands name f hf) }

/-- The functions of a loaded program are accepted if the program is well formed. -/
theorem accepts_of_function? (h : p.WellFormed conv) {env : Environment} {mem : Memory}
    (hloads : p.Loads env mem) {b : BlockId} {f : Function}
    (hf : env.function? b = some (.internal f)) : ∃ name, p.Accepts conv name f := by
  obtain ⟨name, hmem⟩ := hloads.mem_of_function? hf
  exact ⟨name, h.accepts hmem⟩

/-- The entry point of a well-formed program is a function with code, without arguments and with an
integer result. -/
theorem entry (h : p.WellFormed conv) :
    ∃ f, (p.entry, .function (.internal f)) ∈ p.globals ∧ f.signature = .main := by
  have hsymbols := (wellFormed_iff.1 h).1
  simp only [symbolViolations, List.append_eq_nil_iff] at hsymbols
  have hentry := hsymbols.1.1.2
  unfold entryViolations at hentry
  split at hentry
  · cases hentry
  · rename_i f hf
    simp only [global?, Option.map_eq_some_iff] at hf
    obtain ⟨⟨name, g⟩, hfind, rfl⟩ := hf
    have hname : name = p.entry := by simpa using List.find?_some hfind
    exact ⟨f, hname ▸ List.mem_of_find?_eq_some hfind, ite_singleton_eq_nil_iff.1 hentry⟩
  · cases hentry

end Program.WellFormed

namespace Program.Accepts

variable {p : Program} {conv : Convention} {name : String} {f : Function} {slot : Word}
  {t : DataType} {pc : Nat} {i : Instruction}

/-! ## Slots -/

/-- The bounds of a frame are the frame size below zero and the size of local data above. -/
theorem toInt_neg_frameSize (h : p.Accepts conv name f) :
    (-f.frameSize).toInt = -f.frameSize.toInt := by
  apply BitVec.toInt_neg_of_ne_intMin
  intro heq
  have hnonneg := h.frameSize_nonneg
  rw [heq] at hnonneg
  exact absurd hnonneg (by decide)

/-- A slot that fits lies as many words above the low end of the frame as its offset says: the
address of its first byte does not wrap. -/
theorem toInt_slotOffset (h : p.Accepts conv name f) (hfit : f.slotFits slot t = true) :
    (-f.frameSize + slot * 4#32).toInt = 4 * slot.toInt - f.frameSize.toInt := by
  simp only [Function.slotFits, Bool.and_eq_true, decide_eq_true_eq] at hfit
  have hsize : f.frameSize.toInt < 2147483648 := f.frameSize.toInt_lt
  have hneg := h.toInt_neg_frameSize
  have hwords : (0 : Int) ≤ t.words := Int.natCast_nonneg _
  -- Four times the slot lies between zero and the frame size, so the sum is a word.
  rw [Memory.toInt_slotOffset_of_le (by omega) (by omega), hneg]
  omega

/-- An access to a slot that fits in the frame fits in the bounds of the frame. -/
theorem fitsIn_of_slotFits (h : p.Accepts conv name f) (hfit : f.slotFits slot t = true) :
    t.slotChunk.FitsIn (-f.frameSize + slot * 4#32).toInt (-f.frameSize).toInt
      (max (-f.frameSize).toInt f.stackSize.toInt) := by
  have hoffset := h.toInt_slotOffset hfit
  simp only [Function.slotFits, Bool.and_eq_true, decide_eq_true_eq] at hfit
  have haligned := h.frameSize_aligned
  have hstack := h.stackSize_nonneg
  rw [Chunk.FitsIn, hoffset, h.toInt_neg_frameSize, Chunk.size_slotChunk, Chunk.align_slotChunk]
  push_cast
  omega

/-! ## Control -/

/-- A function whose control cannot pass the end has a last instruction that ends a block. -/
theorem exists_last (h : p.Accepts conv name f) :
    ∃ last, f.code[f.code.size - 1]? = some last ∧ last.endsBlock = true := by
  have hclosed := h.closed
  rw [Function.isClosed, Array.back?] at hclosed
  cases hlast : f.code[f.code.size - 1]? with
  | none => simp [hlast] at hclosed
  | some last => exact ⟨last, rfl, by simpa [hlast] using hclosed⟩

/-- There is an instruction behind every one that does not end a block. -/
theorem next_lt (h : p.Accepts conv name f) (hi : f.code[pc]? = some i)
    (hends : i.endsBlock = false) : pc + 1 < f.code.size := by
  obtain ⟨last, hlast, hlastEnds⟩ := h.exists_last
  have hpc : pc < f.code.size := (Array.getElem?_eq_some_iff.1 hi).1
  by_cases heq : pc = f.code.size - 1
  · -- The last instruction does end a block.
    rw [heq, hlast] at hi
    cases hi
    rw [hlastEnds] at hends
    cases hends
  · omega

/-- A function with code that is accepted has an instruction to begin with. -/
theorem size_pos (h : p.Accepts conv name f) : 0 < f.code.size := by
  obtain ⟨last, hlast, -⟩ := h.exists_last
  have hlt := (Array.getElem?_eq_some_iff.1 hlast).1
  omega

/-- Branches of an instruction succeed, and there is an instruction behind their labels. -/
theorem jump_lt (h : p.Accepts conv name f) (hi : f.code[pc]? = some i) {l : Label}
    (hl : l ∈ i.targets) : ∃ next, f.jump l = .ok next ∧ next < f.code.size := by
  have hmem := h.targets pc i hi l hl
  simp only [Function.labels, List.mem_filterMap] at hmem
  obtain ⟨i', hi', hlabel⟩ := hmem
  -- Some instruction is the label, so the search for the first such one succeeds.
  have hi'l : i'.isLabel l = true := by
    cases i' <;> simp_all [Instruction.isLabel]
  have hsome : (f.code.findIdx? fun i => i.isLabel l).isSome = true := by
    rw [Array.findIdx?_isSome, Array.any_eq_true']
    exact ⟨i', Array.mem_toList_iff.1 hi', hi'l⟩
  obtain ⟨pos, hpos⟩ := Option.isSome_iff_exists.1 hsome
  obtain ⟨hlt, hposl, -⟩ := Array.findIdx?_eq_some_iff_getElem.1 hpos
  -- A label ends no block, so an instruction follows it.
  have hends : f.code[pos].endsBlock = false := by
    rw [Instruction.isLabel_iff.1 hposl]
    rfl
  exact ⟨pos + 1, by simp [Function.jump, findLabel?, hpos],
    h.next_lt (Array.getElem?_eq_getElem hlt) hends⟩

end Program.Accepts

end RegisterMachine
