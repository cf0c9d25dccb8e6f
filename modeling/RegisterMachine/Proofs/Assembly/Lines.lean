import RegisterMachine.Proofs.Assembly.Operands

/-! # Reading lines that were written

The tokens with which a line is written are read as that line. The head of a function does not say
what its code is, and calls do not tell a function with the name of a register from that register.

* `Line.reread` — what is read where a line was written.
* `Line.Unambiguous` — lines that call no function with the name of a register.
* `Line.read_tokens` — reading the tokens of a line.
-/

namespace RegisterMachine

/-- The instruction with one not-a-number for all of them. -/
def Instruction.quieted : Instruction → Instruction
  | .op operation args dst => .op operation.quieted args dst
  | i => i

/-- What is read where a line was written: a function begins without code, and there is one
not-a-number for all of them. -/
def Line.reread : Line → Line
  | .variable name init => .variable name (init.map .quieted)
  | .function name f => .function name { f with code := #[] }
  | .instruction i => .instruction i.quieted
  | l => l

/-- Whether the target of a call, if there is one, is written as what it is. -/
def Instruction.Unambiguous : Instruction → Prop
  | .call c | .tailCall c => c.Unambiguous
  | _ => True

/-- Whether the instruction of a line, if there is one, is written as what it is. -/
def Line.Unambiguous : Line → Prop
  | .instruction i => i.Unambiguous
  | _ => True

namespace LineReader

/-! ## Instructions -/

/-- The operands of an instruction are read behind its name. -/
theorem instructionNamed_tokens {i : Instruction} (h : i.Unambiguous) :
    instructionNamed i.mnemonic i.tokens.tail = .ok (i.quieted, []) := by
  cases i with
  | label l =>
    rw [Instruction.mnemonic, instructionNamed]
    exact run_bind (label_token l)
  | getStack slot t dst =>
    rw [Instruction.mnemonic, instructionNamed, Instruction.tokens, List.tail_cons,
      run_bind (signed_token _ slot), run_bind (dataType_token t)]
    exact run_bind (register_token dst)
  | setStack src slot t =>
    rw [Instruction.mnemonic, instructionNamed, Instruction.tokens, List.tail_cons,
      run_bind (register_token src), run_bind (signed_token _ slot)]
    exact run_bind (dataType_token t)
  | getParam slot t dst =>
    rw [Instruction.mnemonic, instructionNamed, Instruction.tokens, List.tail_cons,
      run_bind (signed_token _ slot), run_bind (dataType_token t)]
    exact run_bind (register_token dst)
  | op operation args dst =>
    rw [Instruction.mnemonic, instructionNamed, Instruction.tokens, List.tail_cons,
      List.cons_append, run_bind (register_token dst), run_bind (operation_tokens operation)]
    exact run_bind (registers_tokens args)
  | load c mode args dst =>
    rw [Instruction.mnemonic, instructionNamed, Instruction.tokens, List.tail_cons,
      List.cons_append, List.cons_append, run_bind (chunk_token c), run_bind (register_token dst),
      run_bind (addressing_tokens mode)]
    exact run_bind (registers_tokens args)
  | store c mode args src =>
    rw [Instruction.mnemonic, instructionNamed, Instruction.tokens, List.tail_cons,
      List.cons_append, List.cons_append, run_bind (chunk_token c), run_bind (register_token src),
      run_bind (addressing_tokens mode)]
    exact run_bind (registers_tokens args)
  | call c =>
    rw [Instruction.mnemonic, instructionNamed]
    exact run_bind (callee_token h)
  | tailCall c =>
    rw [Instruction.mnemonic, instructionNamed]
    exact run_bind (callee_token h)
  | goto l =>
    rw [Instruction.mnemonic, instructionNamed]
    exact run_bind (label_token l)
  | cond c args l =>
    rw [Instruction.mnemonic, instructionNamed, Instruction.tokens, List.tail_cons,
      List.append_assoc, run_bind (condition_tokens c), run_bind (leadingRegisters_tokens args l)]
    exact run_bind (label_token l)
  | jumpTable arg ls =>
    rw [Instruction.mnemonic, instructionNamed, Instruction.tokens, List.tail_cons,
      run_bind (register_token arg)]
    exact run_bind (rest_map Word.asLabel_unsignedToken ls)
  | ret =>
    rw [Instruction.mnemonic, instructionNamed]
    rfl

/-- A line that begins with no directive is an instruction. -/
theorem lineNamed_mnemonic (i : Instruction) :
    lineNamed i.mnemonic = do return .instruction (← instructionNamed i.mnemonic) := by
  cases i <;> rw [Instruction.mnemonic] <;> rfl

/-- The words that name instructions have only small letters. -/
theorem foldCase_mnemonic (i : Instruction) : foldCase i.mnemonic = i.mnemonic := by
  cases i <;> rw [Instruction.mnemonic] <;> rfl

/-- A line is read where its operands are, up to its end. -/
theorem line_of_lineNamed {w : String} {ts : List Token} {l : Line} (hfold : foldCase w = w)
    (h : lineNamed w ts = .ok (l, [])) : Line.read (.word w :: ts) = .ok (some l) := by
  have hfinish : finish [] = .ok ((), []) := rfl
  have hline : line w ts = .ok (l, []) := by
    rw [line, hfold, run_bind h, run_bind hfinish]
    rfl
  rw [Line.read, StateT.run, hline]
  rfl

/-- The head of a function is read. -/
theorem functionHead_tokens (f : Function) :
    functionHead (f.signature.tokens ++
      [.word "frame", Word.token f.frameSize, .word "stack", Word.token f.stackSize,
        .word "link", Word.token f.linkSlot, .word "retaddr", Word.token f.returnSlot]) =
      .ok ({ f with code := #[] }, []) := by
  rw [functionHead, run_bind (signature_tokens f.signature (by simp)),
    run_bind (keyword_cons (by decide)), run_bind (signed_token ..),
    run_bind (keyword_cons (by decide)), run_bind (signed_token ..),
    run_bind (keyword_cons (by decide)), run_bind (signed_token ..),
    run_bind (keyword_cons (by decide)), run_bind (signed_token ..)]
  rfl

end LineReader

/-! ## Lines -/

open LineReader in
/-- The tokens of a line are read as that line. -/
theorem Line.read_tokens {l : Line} (h : l.Unambiguous) :
    Line.read l.tokens = .ok (some l.reread) := by
  cases l with
  | entry name =>
    refine line_of_lineNamed (by decide) ?_
    rw [lineNamed]
    exact run_bind (word_cons ..)
  | «variable» name init =>
    refine line_of_lineNamed (by decide) ?_
    rw [lineNamed, run_bind (word_cons ..)]
    exact run_bind (items_tokens init)
  | external name sig =>
    refine line_of_lineNamed (by decide) ?_
    -- Nothing follows the signature, so no arrow does.
    have hsig : signature (sig.tokens ++ []) = .ok (sig, []) := signature_tokens sig (by simp)
    rw [List.append_nil] at hsig
    rw [lineNamed, run_bind (word_cons ..)]
    exact run_bind hsig
  | function name f =>
    refine line_of_lineNamed (by decide) ?_
    rw [lineNamed]
    refine (run_bind (word_cons ..)).trans ?_
    exact run_bind (functionHead_tokens f)
  | finish =>
    refine line_of_lineNamed (by decide) ?_
    rw [lineNamed]
    rfl
  | instruction i =>
    -- The name of an instruction is no directive.
    have htokens : i.tokens = .word i.mnemonic :: i.tokens.tail := by cases i <;> rfl
    rw [Line.tokens, htokens]
    refine line_of_lineNamed (foldCase_mnemonic i) ?_
    rw [lineNamed_mnemonic]
    exact run_bind (instructionNamed_tokens h)

/-- What is read is written with the same tokens. -/
theorem Line.tokens_reread (l : Line) : l.reread.tokens = l.tokens := by
  cases l with
  | «variable» name init =>
    rw [reread, tokens, tokens, List.flatMap_map]
    simp only [InitialData.tokens_quieted]
  | instruction i =>
    cases i with
    | op operation args dst =>
      rw [reread, tokens, tokens, Instruction.quieted, Instruction.tokens, Instruction.tokens,
        Operation.tokens_quieted]
      rfl
    | _ => rfl
  | entry | external | function | finish => rfl

end RegisterMachine
