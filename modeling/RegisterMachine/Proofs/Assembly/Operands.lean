import RegisterMachine.Assembly.Line
import RegisterMachine.Proofs.Double.RoundTrip

/-! # Reading operands that were written

Each reader takes from the front of a line the tokens with which its operand is written, gives that
operand and leaves the rest. Only doubles are not always given back: all that are not a number are
written the same.

* `Vocabulary` — every name is found.
* `LineReader.run_bind` — readers one after the other.
* `LineReader.signature_tokens`, `LineReader.condition_tokens`, `LineReader.operation_tokens`,
  `LineReader.addressing_tokens`, `LineReader.items_tokens` — operands of several tokens.
-/

namespace RegisterMachine

/-! ## Names -/

/-- A register is found under its name. -/
theorem Register.find?_name (r : Register) : Vocabulary.find? r.name = some r := by
  cases r with
  | int n =>
    revert n
    decide
  | float n =>
    revert n
    decide

/-- A data type is found under its name. -/
theorem DataType.find?_name (t : DataType) : Vocabulary.find? t.name = some t := by
  cases t <;> decide

/-- A chunk is found under its name. -/
theorem Chunk.find?_name (c : Chunk) : Vocabulary.find? c.name = some c := by
  cases c <;> decide

/-- A comparison is found under its name. -/
theorem Comparison.find?_name (c : Comparison) : Vocabulary.find? c.name = some c := by
  cases c <;> decide

/-- A unary operator is found under its name. -/
theorem UnaryOp.find?_name (op : UnaryOp) : Vocabulary.find? op.name = some op := by
  cases op <;> decide

/-- A binary operator is found under its name. -/
theorem BinaryOp.find?_name (op : BinaryOp) : Vocabulary.find? op.name = some op := by
  cases op <;> decide

/-- An operator with a constant is found under its name. -/
theorem ImmediateOp.find?_name (op : ImmediateOp) : Vocabulary.find? op.name = some op := by
  cases op <;> decide

/-- No binary operator has the name of a unary one. -/
theorem BinaryOp.find?_unary_name (op : BinaryOp) :
    (Vocabulary.find? op.name : Option UnaryOp) = none := by
  cases op <;> decide

/-- No operator with a constant has the name of a unary one. -/
theorem ImmediateOp.find?_unary_name (op : ImmediateOp) :
    (Vocabulary.find? op.name : Option UnaryOp) = none := by
  cases op <;> decide

/-- No operator with a constant has the name of a binary one. -/
theorem ImmediateOp.find?_binary_name (op : ImmediateOp) :
    (Vocabulary.find? op.name : Option BinaryOp) = none := by
  cases op <;> decide

/-- The words of the operations that are no operators. -/
def otherOperations : List String :=
  ["move", "intconst", "floatconst", "addrsymbol", "addrstack", "cmp"]

/-- No operator is named by the word of another operation. -/
theorem find?_of_mem_otherOperations : ∀ w ∈ otherOperations,
    foldCase w = w ∧ (Vocabulary.find? w : Option UnaryOp) = none ∧
      (Vocabulary.find? w : Option BinaryOp) = none ∧
        (Vocabulary.find? w : Option ImmediateOp) = none := by
  decide

/-- A register is read from its name. -/
theorem Register.read_name (r : Register) : Register.read r.name = .ok r := by
  rw [Register.read, Register.find?_name]

/-- A register is no other word than its token. -/
theorem Register.asRegister_token (r : Register) : r.token.asRegister = .ok r := by
  have hread : (Register.read r.name).mapError Fault.badName = .ok r := by
    rw [Register.read_name]
    rfl
  exact hread

/-- A data type is read from its token. -/
theorem DataType.asDataType_token (t : DataType) : t.token.asDataType = .ok t := by
  have hread : (DataType.read t.name).mapError Fault.badName = .ok t := by
    rw [DataType.read, DataType.find?_name]
    rfl
  exact hread

/-- A label is read from its token. -/
theorem Word.asLabel_unsignedToken (w : Word) : (Word.unsignedToken w).asLabel = .ok w := by
  rw [Token.asLabel, Word.unsignedToken, Token.asNumber, Word.ofUnsigned?_toNat]

/-- A double is read from its token, but for the sign and the fraction of not-a-number. -/
theorem Double.asDouble_ofDouble (x : Double) : (Token.ofDouble x).asDouble = .ok x.quieted := by
  rw [Token.ofDouble]
  by_cases h : x.isFinite = true
  · rw [if_pos h, Token.asDouble, Double.quieted_of_isFinite h]
  · rw [if_neg h, Token.asDouble, Double.parse?_toText]

namespace LineReader

variable {α β : Type} {ts : List Token}

/-! ## Readers one after the other -/

/-- What follows a reader gets its result and the tokens that it leaves. -/
theorem run_bind {r : LineReader α} {f : α → LineReader β} {ts ts' : List Token} {a : α}
    (h : r ts = .ok (a, ts')) : (r >>= f) ts = f a ts' := by
  show (r ts >>= fun p => f p.1 p.2) = f a ts'
  rw [h]
  rfl

/-! ## Single tokens -/

/-- A token that converts is taken. -/
theorem take_cons {expected : String} {convert : Token → Except Fault α} {t : Token} {a : α}
    (h : convert t = .ok a) : take expected convert (t :: ts) = .ok (a, ts) := by
  rw [take, h]
  rfl

/-- A word is taken. -/
theorem word_cons (expected w : String) : word expected (.word w :: ts) = .ok (w, ts) := rfl

/-- A keyword is taken where it stands. -/
theorem keyword_cons {w : String} (h : foldCase w = w) :
    keyword w (.word w :: ts) = .ok ((), ts) := by
  have hconvert : (if foldCase w = w then Except.ok () else .error (Fault.unexpected w)) =
      .ok () := if_pos h
  exact take_cons hconvert

/-- A word is read with sign. -/
theorem signed_token (expected : String) (w : Word) :
    signed expected (Word.token w :: ts) = .ok (w, ts) := by
  refine take_cons ?_
  rw [Word.token, Token.asNumber, Word.ofInt?_toInt]

/-- A word is read without sign. -/
theorem unsigned_token (expected : String) (w : Word) :
    unsigned expected (Word.unsignedToken w :: ts) = .ok (w, ts) :=
  take_cons (Word.asLabel_unsignedToken w)

/-- A label is read. -/
theorem label_token (l : Label) : label (Word.unsignedToken l :: ts) = .ok (l, ts) :=
  take_cons (Word.asLabel_unsignedToken l)

/-- A double is read. -/
theorem double_token (x : Double) : double (.ofDouble x :: ts) = .ok (x.quieted, ts) :=
  take_cons (Double.asDouble_ofDouble x)

/-- A register is read. -/
theorem register_token (r : Register) : register (r.token :: ts) = .ok (r, ts) :=
  take_cons (Register.asRegister_token r)

/-- A data type is read. -/
theorem dataType_token (t : DataType) : dataType (t.token :: ts) = .ok (t, ts) :=
  take_cons (DataType.asDataType_token t)

/-- A chunk is read. -/
theorem chunk_token (c : Chunk) : chunk (.word c.name :: ts) = .ok (c, ts) := by
  have hread : (Chunk.read c.name).mapError Fault.badName = .ok c := by
    rw [Chunk.read, Chunk.find?_name]
    rfl
  exact take_cons hread

/-- A comparison is read. -/
theorem comparison_token (c : Comparison) : comparison (.word c.name :: ts) = .ok (c, ts) := by
  have hread : (Comparison.read c.name).mapError Fault.badName = .ok c := by
    rw [Comparison.read, Comparison.find?_name]
    rfl
  exact take_cons hread

/-! ## Runs of tokens -/

/-- Tokens that convert are read to the end of the line. -/
theorem rest_map {convert : Token → Except Fault α} {token : α → Token}
    (h : ∀ a, convert (token a) = .ok a) (as : List α) :
    rest convert (as.map token) = .ok (as, []) := by
  have hmap : (as.map token).mapM convert = .ok as := by
    induction as with
    | nil => rfl
    | cons a as ih =>
      rw [List.map_cons, List.mapM_cons, h, ih]
      rfl
  rw [rest, hmap]
  rfl

/-- Registers are read to the end of the line. -/
theorem registers_tokens (args : List Register) :
    registers (args.map Register.token) = .ok (args, []) :=
  rest_map Register.asRegister_token args

/-- Registers are read up to a label. -/
theorem leadingRegisters_tokens (args : List Register) (l : Label) :
    leadingRegisters (args.map Register.token ++ Word.unsignedToken l :: ts) =
      .ok (args, Word.unsignedToken l :: ts) := by
  induction args with
  | nil =>
    -- A label is no word.
    rfl
  | cons r args ih =>
    have hr := r.asRegister_token
    rw [Register.token] at hr
    rw [List.map_cons, List.cons_append, Register.token, leadingRegisters, hr, ih]
    rfl

/-- Data types are read up to a closing parenthesis. -/
theorem dataTypes_tokens (types : List DataType) :
    dataTypes (types.map DataType.token ++ .rparen :: ts) = .ok (types, ts) := by
  induction types with
  | nil => rfl
  | cons t types ih =>
    have ht := t.asDataType_token
    rw [DataType.token] at ht
    rw [List.map_cons, List.cons_append, DataType.token, dataTypes, ht, ih]
    · rfl
    · rintro ⟨⟩

/-- Without an arrow there is no result type. -/
theorem resultType?_of_ne_arrow (h : ts.head? ≠ some .arrow) : resultType? ts = .ok (none, ts) := by
  unfold resultType?
  split
  · exact absurd rfl h
  · rfl

/-- A result type is read behind an arrow. -/
theorem resultType?_arrow (t : DataType) :
    resultType? (.arrow :: t.token :: ts) = .ok (some t, ts) := by
  rw [resultType?, dataType_token]
  rfl

/-- A signature is read, before anything but an arrow. -/
theorem signature_tokens (sig : Signature) (h : ts.head? ≠ some .arrow) :
    signature (sig.tokens ++ ts) = .ok (sig, ts) := by
  have hlparen : ∀ ts, lparen (.lparen :: ts) = .ok ((), ts) := fun ts => rfl
  obtain ⟨arguments, result?⟩ := sig
  rw [Signature.tokens, List.append_assoc, List.cons_append, List.cons_append, signature,
    run_bind (hlparen _), run_bind (dataTypes_tokens arguments)]
  cases result? with
  | some t => exact run_bind (resultType?_arrow t)
  | none =>
    -- What follows must not be taken for the arrow of a result type.
    exact run_bind (resultType?_of_ne_arrow h)

end LineReader

/-! ## Quieted operands -/

/-- The operation with one not-a-number for all of them. -/
def Operation.quieted : Operation → Operation
  | .floatConst x => .floatConst x.quieted
  | op => op

/-- The item of initial contents with one not-a-number for all of them. -/
def InitialData.quieted : InitialData → InitialData
  | .float32 x => .float32 x.quieted
  | .float64 x => .float64 x.quieted
  | item => item

/-- The token of a double does not tell one not-a-number from another. -/
theorem Token.ofDouble_quieted (x : Double) : Token.ofDouble x.quieted = Token.ofDouble x := by
  by_cases h : x.isFinite = true
  · rw [Double.quieted_of_isFinite h]
  · rw [ofDouble, ofDouble, Double.isFinite_quieted, if_neg h, if_neg h, Double.toText_quieted]

/-- Nor do the tokens of an operation. -/
theorem Operation.tokens_quieted (op : Operation) : op.quieted.tokens = op.tokens := by
  cases op with
  | floatConst x =>
    show [Token.word "floatconst", .ofDouble x.quieted] = _
    rw [Token.ofDouble_quieted]
    rfl
  | _ => rfl

/-- Nor do the tokens of an item of initial contents. -/
theorem InitialData.tokens_quieted (item : InitialData) : item.quieted.tokens = item.tokens := by
  cases item with
  | float32 x =>
    show [Token.word "float32", .ofDouble x.quieted] = _
    rw [Token.ofDouble_quieted]
    rfl
  | float64 x =>
    show [Token.word "float64", .ofDouble x.quieted] = _
    rw [Token.ofDouble_quieted]
    rfl
  | _ => rfl

/-- Whether the target of a call is written as what it is: the name of a function is not that of a
register. -/
def Callee.Unambiguous : Callee → Prop
  | .register _ => True
  | .symbol s => (Vocabulary.find? s : Option Register) = none

namespace LineReader

variable {ts : List Token}

/-! ## Names with constants -/

/-- The target of a call is read. -/
theorem callee_token {c : Callee} (h : c.Unambiguous) :
    callee (.word c.toText :: ts) = .ok (c, ts) := by
  rw [callee, run_bind (word_cons ..)]
  cases c with
  | register r =>
    rw [Callee.toText, Register.read_name]
    rfl
  | symbol s =>
    -- Whatever is not the name of a register is that of a function.
    have hread : Register.read s = .error (.register s) := by
      rw [Register.read, h]
    rw [Callee.toText, hread]
    rfl

/-- A symbol and an offset are read. -/
theorem symbolOffset_tokens (s : String) (n : Word) :
    symbolOffset (.word s :: Word.token n :: ts) = .ok ((s, n), ts) := by
  rw [symbolOffset, run_bind (word_cons ..), run_bind (signed_token ..)]
  rfl

/-- A condition is read. -/
theorem condition_tokens (cond : Condition) :
    condition (cond.tokens ++ ts) = .ok (cond, ts) := by
  have hfold : foldCase cond.mnemonic = cond.mnemonic := by
    cases cond <;> rw [Condition.mnemonic] <;> rfl
  rw [Condition.tokens.eq_def, List.cons_append, condition, run_bind (word_cons ..), hfold]
  cases cond with
  | signed c | unsigned c | float c | notFloat c =>
    rw [List.cons_append, run_bind (comparison_token c)]
    rfl
  | signedImm c n | unsignedImm c n =>
    rw [List.cons_append, run_bind (comparison_token c)]
    exact run_bind (signed_token _ n)

/-- An addressing mode is read. -/
theorem addressing_tokens (mode : Addressing) :
    addressing (mode.tokens ++ ts) = .ok (mode, ts) := by
  have hfold : foldCase mode.mnemonic = mode.mnemonic := by
    cases mode <;> rw [Addressing.mnemonic] <;> rfl
  rw [Addressing.tokens.eq_def, List.cons_append, addressing, run_bind (word_cons ..), hfold]
  cases mode with
  | indexed n | stack n => exact run_bind (signed_token _ n)
  | global s n | based s n => exact run_bind (symbolOffset_tokens s n)
  | indexedTwo => rfl

/-- An item of initial contents is read. -/
theorem initialData_tokens (item : InitialData) :
    initialData (item.tokens ++ ts) = .ok (item.quieted, ts) := by
  cases item with
  | int8 n | int16 n | int32 n =>
    exact (run_bind (word_cons ..)).trans (run_bind (signed_token _ n))
  | float32 x | float64 x => exact (run_bind (word_cons ..)).trans (run_bind (double_token x))
  | space count => exact (run_bind (word_cons ..)).trans (run_bind (unsigned_token _ count))
  | address s n => exact (run_bind (word_cons ..)).trans (run_bind (symbolOffset_tokens s n))

/-- The word of another operation than an operator is read as such. -/
theorem operation_other {w : String} (hw : w ∈ otherOperations) :
    operation (.word w :: ts) = operationNamed w ts := by
  obtain ⟨hfold, hunary, hbinary, himmediate⟩ := find?_of_mem_otherOperations w hw
  rw [operation, run_bind (word_cons ..), hfold]
  simp only [hunary, hbinary, himmediate]

/-- An operation is read. -/
theorem operation_tokens (op : Operation) :
    operation (op.tokens ++ ts) = .ok (op.quieted, ts) := by
  -- The vocabularies of operators are tried one after the other, and then the other operations.
  cases op with
  | unary op =>
    have hfold : foldCase op.name = op.name := (Vocabulary.name_of_find? op.find?_name).symm
    rw [Operation.tokens, Operation.mnemonic, List.cons_append, operation, run_bind (word_cons ..),
      hfold]
    simp only [UnaryOp.find?_name]
    rfl
  | binary op =>
    have hfold : foldCase op.name = op.name := (Vocabulary.name_of_find? op.find?_name).symm
    rw [Operation.tokens, Operation.mnemonic, List.cons_append, operation, run_bind (word_cons ..),
      hfold]
    simp only [BinaryOp.find?_unary_name, BinaryOp.find?_name]
    rfl
  | immediate op n =>
    have hfold : foldCase op.name = op.name := (Vocabulary.name_of_find? op.find?_name).symm
    rw [Operation.tokens, Operation.mnemonic, List.cons_append, operation, run_bind (word_cons ..),
      hfold]
    simp only [ImmediateOp.find?_unary_name, ImmediateOp.find?_binary_name, ImmediateOp.find?_name]
    exact run_bind (signed_token _ n)
  | move =>
    rw [Operation.tokens, List.cons_append, operation_other (by decide)]
    rfl
  | intConst n | addrStack n =>
    rw [Operation.tokens, List.cons_append, Operation.mnemonic, operation_other (by decide)]
    exact run_bind (signed_token _ n)
  | floatConst x =>
    rw [Operation.tokens, List.cons_append, Operation.mnemonic, operation_other (by decide)]
    exact run_bind (double_token x)
  | addrSymbol s n =>
    rw [Operation.tokens, List.cons_append, Operation.mnemonic, operation_other (by decide)]
    exact run_bind (symbolOffset_tokens s n)
  | compare cond =>
    rw [Operation.tokens, List.cons_append, Operation.mnemonic, operation_other (by decide)]
    exact run_bind (condition_tokens cond)

/-- An item of initial contents has tokens. -/
theorem tokens_ne_nil (item : InitialData) : item.tokens ≠ [] := by
  cases item <;> exact List.cons_ne_nil _ _

/-- Items of initial contents are read to the end of the line. -/
theorem itemsWithin_tokens {init : List InitialData} {bound : Nat} (h : init.length ≤ bound) :
    itemsWithin bound (init.flatMap InitialData.tokens) =
      .ok (init.map InitialData.quieted, []) := by
  have hget : ∀ ts : List Token, (get : LineReader (List Token)) ts = .ok (ts, ts) := fun _ => rfl
  induction init generalizing bound with
  | nil =>
    cases bound with
    | zero => rfl
    | succ bound => rfl
  | cons item init ih =>
    cases bound with
    | zero => exact absurd h (by simp)
    | succ bound =>
      have hitems := ih (Nat.le_of_succ_le_succ h)
      have hempty : (item.tokens ++ init.flatMap InitialData.tokens).isEmpty = false := by
        simp [tokens_ne_nil]
      rw [List.flatMap_cons, itemsWithin, run_bind (hget _), hempty, if_neg (by decide),
        run_bind (initialData_tokens item), run_bind hitems]
      rfl

/-- Items of initial contents are read to the end of the line, and there are enough tokens. -/
theorem items_tokens (init : List InitialData) :
    items (init.flatMap InitialData.tokens) = .ok (init.map InitialData.quieted, []) := by
  have hget : ∀ ts : List Token, (get : LineReader (List Token)) ts = .ok (ts, ts) := fun _ => rfl
  have hlength : init.length ≤ (init.flatMap InitialData.tokens).length := by
    induction init with
    | nil => exact Nat.le_refl _
    | cons item init ih =>
      have := List.length_pos_of_ne_nil (tokens_ne_nil item)
      rw [List.flatMap_cons, List.length_append, List.length_cons]
      omega
  rw [items, run_bind (hget _), itemsWithin_tokens hlength]

end LineReader

end RegisterMachine
