import RegisterMachine.Proofs.Assembly.Lines
import RegisterMachine.Proofs.Assembly.Tokens

/-! # The spelling of lines that were read

A line that was read can be written: its symbols were words of a text, and all other words are
fixed. A symbol may be spelled in almost any way, so this is a property of every reader: where the
words of a line can be written, what is read from them can.

* `Line.Writable` — lines that are read where they are written.
* `LineReader.Yields` — what a reader makes of words that can be written.
* `Line.writable_of_read` — lines that are read from such words can be written.
-/

namespace RegisterMachine

/-! ## Fixed words and numbers -/

/-- The words that name kinds of lines, of instructions and of operands, and those for doubles that
are not finite. -/
def keywords : List String :=
  ["cmp", "cmpu", "cmpimm", "cmpuimm", "cmpf", "notcmpf",
    "move", "intconst", "floatconst", "addrsymbol", "addrstack",
    "indexed", "indexed2", "global", "based", "stack",
    "label", "getstack", "setstack", "getparam", "op", "load", "store", "call", "tailcall", "goto",
    "cond", "jumptable", "return",
    "entry", "var", "extern", "func", "frame", "link", "retaddr", "end",
    "int8", "int16", "int32", "float32", "float64", "space", "addr",
    "NaN", "inf", "-inf"]

/-- The words that lines are written with besides symbols. -/
def fixedWords : List String :=
  (Vocabulary.all : List Register).map Register.name ++
    (Vocabulary.all : List DataType).map DataType.name ++
    (Vocabulary.all : List Chunk).map Chunk.name ++
    (Vocabulary.all : List Comparison).map Comparison.name ++
    (Vocabulary.all : List UnaryOp).map UnaryOp.name ++
    (Vocabulary.all : List BinaryOp).map BinaryOp.name ++
    (Vocabulary.all : List ImmediateOp).map ImmediateOp.name ++ keywords

/-- The fixed words can be written. -/
theorem Token.writable_fixedWord : ∀ w ∈ fixedWords, (Token.word w).Writable := by
  decide +kernel

/-- So can those of them that are no names of a vocabulary. -/
theorem Token.writable_keyword {w : String} (h : w ∈ keywords) : (Token.word w).Writable :=
  writable_fixedWord w (List.mem_append_right _ h)

/-- The name of a register can be written. -/
theorem Register.writable_token (r : Register) : r.token.Writable := by
  have hmem : r.name ∈ (Vocabulary.all : List Register).map name :=
    List.mem_map_of_mem (Vocabulary.mem_of_find? r.find?_name)
  exact Token.writable_fixedWord _ (by simp only [fixedWords, List.mem_append, hmem, true_or])

/-- The name of a data type can be written. -/
theorem DataType.writable_token (t : DataType) : t.token.Writable := by
  have hmem : t.name ∈ (Vocabulary.all : List DataType).map name :=
    List.mem_map_of_mem (Vocabulary.mem_of_find? t.find?_name)
  exact Token.writable_fixedWord _
    (by simp only [fixedWords, List.mem_append, hmem, or_true, true_or])

/-- The name of a chunk can be written. -/
theorem Chunk.writable_name (c : Chunk) : (Token.word c.name).Writable := by
  have hmem : c.name ∈ (Vocabulary.all : List Chunk).map name :=
    List.mem_map_of_mem (Vocabulary.mem_of_find? c.find?_name)
  exact Token.writable_fixedWord _
    (by simp only [fixedWords, List.mem_append, hmem, or_true, true_or])

/-- The name of a comparison can be written. -/
theorem Comparison.writable_name (c : Comparison) : (Token.word c.name).Writable := by
  have hmem : c.name ∈ (Vocabulary.all : List Comparison).map name :=
    List.mem_map_of_mem (Vocabulary.mem_of_find? c.find?_name)
  exact Token.writable_fixedWord _
    (by simp only [fixedWords, List.mem_append, hmem, or_true, true_or])

/-- A word read with sign can be written. -/
theorem Word.writable_token (w : Word) : (Word.token w).Writable := by
  have hlo := w.le_toInt
  have hhi := w.toInt_lt
  show w.toInt.natAbs ≤ Integer.maxMagnitude
  simp only [Integer.maxMagnitude]
  omega

/-- A word read without sign can be written. -/
theorem Word.writable_unsignedToken (w : Word) : (Word.unsignedToken w).Writable := by
  have hlt := w.isLt
  show (w.toNat : Int).natAbs ≤ Integer.maxMagnitude
  simp only [Integer.maxMagnitude]
  omega

/-- A double that is not finite is written as one of three words. -/
theorem Double.toText_mem_of_not_isFinite {x : Double} (h : ¬ x.isFinite = true) :
    x.toText ∈ ["NaN", "inf", "-inf"] := by
  rcases x.code_cases with hx | hx | hx
  · rw [toText, if_pos hx]
    decide
  · have hnumber : x.isNaN = false := by simp [isNaN, hx]
    have hinfinite : x.isInfinite = true := by simp [isInfinite, hx]
    rw [toText, hnumber, if_neg (by decide), magnitudeText, if_pos hinfinite]
    cases x.isNegative with
    | true => decide
    | false => decide
  · exact absurd (isFinite_iff.2 hx) h

/-- A double can be written. -/
theorem Double.writable_ofDouble (x : Double) : (Token.ofDouble x).Writable := by
  rw [Token.ofDouble]
  by_cases h : x.isFinite = true
  · rw [if_pos h]
    exact h
  · rw [if_neg h]
    refine Token.writable_keyword ?_
    have hmem := toText_mem_of_not_isFinite h
    simp only [List.mem_cons, List.not_mem_nil, or_false] at hmem
    rcases hmem with hmem | hmem | hmem <;> simp [hmem, keywords]

/-- The word that names a kind of condition can be written. -/
theorem Condition.writable_mnemonic (cond : Condition) : (Token.word cond.mnemonic).Writable :=
  Token.writable_keyword (by cases cond <;> simp [keywords, mnemonic])

/-- The word that names an operation can be written. -/
theorem Operation.writable_mnemonic (op : Operation) : (Token.word op.mnemonic).Writable := by
  refine Token.writable_fixedWord _ ?_
  cases op with
  | unary op =>
    have hmem : op.name ∈ (Vocabulary.all : List UnaryOp).map UnaryOp.name :=
      List.mem_map_of_mem (Vocabulary.mem_of_find? op.find?_name)
    simp only [mnemonic, fixedWords, List.mem_append, hmem, or_true, true_or]
  | binary op =>
    have hmem : op.name ∈ (Vocabulary.all : List BinaryOp).map BinaryOp.name :=
      List.mem_map_of_mem (Vocabulary.mem_of_find? op.find?_name)
    simp only [mnemonic, fixedWords, List.mem_append, hmem, or_true, true_or]
  | immediate op n =>
    have hmem : op.name ∈ (Vocabulary.all : List ImmediateOp).map ImmediateOp.name :=
      List.mem_map_of_mem (Vocabulary.mem_of_find? op.find?_name)
    simp only [mnemonic, fixedWords, List.mem_append, hmem, or_true, true_or]
  | move | intConst | floatConst | addrSymbol | addrStack | compare =>
    exact List.mem_append_right _ (by simp [keywords, mnemonic])

/-- The word that names an addressing mode can be written. -/
theorem Addressing.writable_mnemonic (mode : Addressing) :
    (Token.word mode.mnemonic).Writable :=
  Token.writable_keyword (by cases mode <;> simp [keywords, mnemonic])

/-- The word that names an instruction can be written. -/
theorem Instruction.writable_mnemonic (i : Instruction) : (Token.word i.mnemonic).Writable :=
  Token.writable_keyword (by cases i <;> simp [keywords, mnemonic])

/-! ## Lines with symbols that can be written -/

/-- Whether every token of a list can be written. -/
def AllWritable (ts : List Token) : Prop := ∀ t ∈ ts, t.Writable

section

variable {t : Token} {ts ts' : List Token}

theorem allWritable_nil : AllWritable [] := by
  intro t ht
  cases ht

theorem AllWritable.cons (h : t.Writable) (hts : AllWritable ts) : AllWritable (t :: ts) :=
  List.forall_mem_cons.2 ⟨h, hts⟩

theorem AllWritable.keyword {w : String} (hw : w ∈ keywords) (hts : AllWritable ts) :
    AllWritable (.word w :: ts) := .cons (Token.writable_keyword hw) hts

theorem AllWritable.append (h : AllWritable ts) (h' : AllWritable ts') : AllWritable (ts ++ ts') :=
  List.forall_mem_append.2 ⟨h, h'⟩

theorem allWritable_map {α : Type} {token : α → Token} (h : ∀ a, (token a).Writable)
    (as : List α) : AllWritable (as.map token) := by
  intro t ht
  obtain ⟨a, -, rfl⟩ := List.mem_map.1 ht
  exact h a

end

/-- A signature can be written. -/
theorem Signature.allWritable_tokens (sig : Signature) : AllWritable sig.tokens := by
  obtain ⟨arguments, result?⟩ := sig
  refine .append (.cons trivial (allWritable_map DataType.writable_token _)) (.cons trivial ?_)
  cases result? with
  | some t => exact .cons trivial (.cons t.writable_token allWritable_nil)
  | none => exact allWritable_nil

/-- A condition can be written. -/
theorem Condition.allWritable_tokens (cond : Condition) : AllWritable cond.tokens := by
  have hmnemonic := cond.writable_mnemonic
  cases cond with
  | signed c | unsigned c | float c | notFloat c =>
    exact .cons hmnemonic (.cons c.writable_name allWritable_nil)
  | signedImm c n | unsignedImm c n =>
    exact .cons hmnemonic (.cons c.writable_name (.cons n.writable_token allWritable_nil))

/-- An operation can be written if its symbol can. -/
theorem Operation.allWritable_tokens {op : Operation}
    (h : ∀ s, op.symbol? = some s → (Token.word s).Writable) : AllWritable op.tokens := by
  have hmnemonic := op.writable_mnemonic
  cases op with
  | move | unary op | binary op => exact .cons hmnemonic allWritable_nil
  | intConst n | addrStack n | immediate op n =>
    exact .cons hmnemonic (.cons n.writable_token allWritable_nil)
  | floatConst x => exact .cons hmnemonic (.cons x.writable_ofDouble allWritable_nil)
  | addrSymbol s n =>
    exact .cons hmnemonic (.cons (h s rfl) (.cons n.writable_token allWritable_nil))
  | compare cond => exact .cons hmnemonic cond.allWritable_tokens

/-- An addressing mode can be written if its symbol can. -/
theorem Addressing.allWritable_tokens {mode : Addressing}
    (h : ∀ s, mode.symbol? = some s → (Token.word s).Writable) : AllWritable mode.tokens := by
  have hmnemonic := mode.writable_mnemonic
  cases mode with
  | indexed n | stack n => exact .cons hmnemonic (.cons n.writable_token allWritable_nil)
  | global s n | based s n =>
    exact .cons hmnemonic (.cons (h s rfl) (.cons n.writable_token allWritable_nil))
  | indexedTwo => exact .cons hmnemonic allWritable_nil

/-- An item of initial contents can be written if its symbol can. -/
theorem InitialData.allWritable_tokens {item : InitialData}
    (h : ∀ s n, item = .address s n → (Token.word s).Writable) : AllWritable item.tokens := by
  cases item with
  | int8 n | int16 n | int32 n =>
    exact .keyword (by simp [keywords]) (.cons n.writable_token allWritable_nil)
  | float32 x | float64 x =>
    exact .keyword (by simp [keywords]) (.cons x.writable_ofDouble allWritable_nil)
  | space count =>
    exact .keyword (by simp [keywords]) (.cons count.writable_unsignedToken allWritable_nil)
  | address s n =>
    exact .keyword (by simp [keywords]) (.cons (h s n rfl) (.cons n.writable_token allWritable_nil))

/-- The head of a function can be written if its name can. -/
theorem Function.allWritable_tokens {name : String} (h : (Token.word name).Writable)
    (f : Function) : AllWritable (Line.function name f).tokens := by
  refine .append (.keyword (by simp [keywords]) (.cons h f.signature.allWritable_tokens)) ?_
  exact .keyword (by simp [keywords]) (.cons f.frameSize.writable_token
    (.keyword (by simp [keywords]) (.cons f.stackSize.writable_token
      (.keyword (by simp [keywords]) (.cons f.linkSlot.writable_token
        (.keyword (by simp [keywords]) (.cons f.returnSlot.writable_token allWritable_nil)))))))

/-- Whether a line is read where it is written. -/
structure Line.Writable (l : Line) : Prop where
  /-- It calls no function with the name of a register. -/
  unambiguous : l.Unambiguous
  /-- Its tokens are spelled as what they are. -/
  tokens : AllWritable l.tokens

/-- Whether the function that a line begins, if it does, has no code yet. -/
def Line.Codeless : Line → Prop
  | .function _ f => f.code = #[]
  | _ => True

namespace LineReader

variable {α β : Type} {P Q : α → Prop}

/-! ## What readers make of words that can be written -/

/-- Whether the words among tokens can be written. -/
def WritableWords (ts : List Token) : Prop := ∀ w, .word w ∈ ts → (Token.word w).Writable

/-- From tokens with words that can be written, a reader gives only results with a property, and it
leaves such tokens. -/
def Yields (r : LineReader α) (P : α → Prop) : Prop :=
  ∀ ts a ts', WritableWords ts → r ts = .ok (a, ts') → P a ∧ WritableWords ts'

/-- A result without reading. -/
theorem yields_pure {a : α} (h : P a) : Yields (pure a) P := by
  intro ts a' ts' hts hr
  cases hr
  exact ⟨h, hts⟩

/-- A fault gives no results. -/
theorem yields_throw (fault : Fault) : Yields (throw fault) P := by
  intro ts a ts' hts hr
  cases hr

/-- Readers one after the other. -/
theorem Yields.bind {r : LineReader α} {f : α → LineReader β} {Q : β → Prop} (hr : Yields r P)
    (hf : ∀ a, P a → Yields (f a) Q) : Yields (r >>= f) Q := by
  intro ts b ts' hts h
  obtain ⟨⟨a, ts''⟩, ha, hb⟩ := bind_eq_ok_iff.1 h
  obtain ⟨hP, hts''⟩ := hr ts a ts'' hts ha
  exact hf a hP ts'' b ts' hts'' hb

/-- A token that is taken. -/
theorem yields_take {expected : String} {convert : Token → Except Fault α}
    (h : ∀ t a, (∀ w, t = .word w → t.Writable) → convert t = .ok a → P a) :
    Yields (take expected convert) P := by
  intro ts a ts' hts hr
  cases ts with
  | nil => cases hr
  | cons t ts =>
    rw [take] at hr
    cases hconvert : convert t with
    | error fault =>
      rw [hconvert] at hr
      cases hr
    | ok a' =>
      rw [hconvert] at hr
      cases hr
      refine ⟨h t a (fun w hw => ?_) hconvert, fun w hw => hts w (List.mem_cons_of_mem _ hw)⟩
      subst hw
      exact hts w (List.mem_cons_self ..)

/-- A token of which nothing is asked. -/
theorem yields_token (expected : String) (convert : Token → Except Fault α) :
    Yields (take expected convert) fun _ => True :=
  yields_take fun _ _ _ _ => trivial

/-- What is made of a token of which nothing is asked. -/
theorem yields_map_token {expected : String} {convert : Token → Except Fault α} {g : α → β}
    {P : β → Prop} (h : ∀ a, P (g a)) :
    Yields (take expected convert >>= fun a => pure (g a)) P :=
  (yields_token _ _).bind fun a _ => yields_pure (h a)

/-- A word that is taken can be written. -/
theorem yields_word (expected : String) :
    Yields (word expected) fun w => (Token.word w).Writable := by
  apply yields_take
  intro t w ht hw
  cases t with
  | word w' =>
    cases hw
    exact ht w rfl
  | int n => cases hw
  | float x => cases hw
  | lparen => cases hw
  | rparen => cases hw
  | arrow => cases hw

/-- All tokens up to the end of the line. -/
theorem yields_rest (convert : Token → Except Fault α) : Yields (rest convert) fun _ => True := by
  intro ts as ts' hts hr
  rw [rest] at hr
  cases hmap : ts.mapM convert with
  | error fault =>
    rw [hmap] at hr
    cases hr
  | ok as' =>
    rw [hmap] at hr
    cases hr
    exact ⟨trivial, fun w hw => by cases hw⟩

/-- A reader that leaves only tokens that it was given. -/
theorem yields_of_subset {r : LineReader α} (h : ∀ ts a ts', r ts = .ok (a, ts') → ts' ⊆ ts) :
    Yields r fun _ => True :=
  fun ts a ts' hts hr => ⟨trivial, fun w hw => hts w (h ts a ts' hr hw)⟩

/-- A look at the tokens that are left. -/
theorem yields_get : Yields (get : LineReader (List Token)) fun _ => True := by
  apply yields_of_subset
  intro ts a ts' hr
  cases hr
  exact List.Subset.refl _

/-- Registers up to the first token that is not a word. -/
theorem yields_leadingRegisters : Yields leadingRegisters fun _ => True := by
  apply yields_of_subset
  intro ts rs ts' hr
  fun_induction leadingRegisters ts generalizing rs ts' with
  | case1 w ts ih =>
    obtain ⟨r, -, hr⟩ := bind_eq_ok_iff.1 hr
    obtain ⟨⟨rs', ts''⟩, hrs', hr⟩ := bind_eq_ok_iff.1 hr
    cases hr
    exact List.subset_cons_of_subset _ (ih _ _ hrs')
  | case2 ts hts =>
    cases hr
    exact List.Subset.refl _

/-- Data types up to a closing parenthesis. -/
theorem yields_dataTypes : Yields dataTypes fun _ => True := by
  apply yields_of_subset
  intro ts types ts' hr
  fun_induction dataTypes ts generalizing types ts' with
  | case1 => cases hr
  | case2 ts =>
    cases hr
    exact List.subset_cons_self _ _
  | case3 t ts ht ih =>
    obtain ⟨type, -, hr⟩ := bind_eq_ok_iff.1 hr
    obtain ⟨⟨types', ts''⟩, htypes', hr⟩ := bind_eq_ok_iff.1 hr
    cases hr
    exact List.subset_cons_of_subset _ (ih _ _ htypes')

/-- An arrow and a result type, or neither. -/
theorem yields_resultType? : Yields resultType? fun _ => True := by
  intro ts t? ts' hts hr
  unfold resultType? at hr
  split at hr
  · rename_i ts
    have hts : WritableWords ts := fun w hw => hts w (List.mem_cons_of_mem _ hw)
    cases ht : dataType ts with
    | error fault =>
      rw [ht] at hr
      cases hr
    | ok p =>
      obtain ⟨-, hrest⟩ := yields_token _ _ ts p.1 p.2 hts ht
      rw [ht] at hr
      cases hr
      exact ⟨trivial, hrest⟩
  · cases hr
    exact ⟨trivial, hts⟩

/-- A signature. -/
theorem yields_signature : Yields signature fun _ => True :=
  (yields_token _ _).bind fun _ _ => yields_dataTypes.bind fun _ _ =>
    yields_resultType?.bind fun _ _ => yields_pure trivial

/-! ## Names with constants -/

/-- The target of a call is written as what it is. -/
theorem yields_callee :
    Yields callee fun c => c.Unambiguous ∧ (Token.word c.toText).Writable := by
  apply (yields_word _).bind
  intro w hw
  cases hread : Register.read w with
  | ok r => exact yields_pure ⟨trivial, r.writable_token⟩
  | error e =>
    -- The word stays a symbol only because it is not the name of a register.
    have hnone : (Vocabulary.find? w : Option Register) = none := by
      rw [Register.read] at hread
      split at hread
      · cases hread
      · assumption
    exact yields_pure ⟨hnone, hw⟩

/-- A symbol and a byte offset. -/
theorem yields_symbolOffset : Yields symbolOffset fun p => (Token.word p.1).Writable :=
  (yields_word _).bind fun _ hs => (yields_token _ _).bind fun _ _ => yields_pure hs

/-- A condition. -/
theorem yields_condition : Yields condition fun _ => True := by
  apply (yields_token _ _).bind
  intro w _
  apply (yields_token _ _).bind
  intro c _
  -- A case for each kind of condition, and one for other words.
  split
  · exact yields_pure trivial
  · exact yields_pure trivial
  · exact (yields_token _ _).bind fun n _ => yields_pure trivial
  · exact (yields_token _ _).bind fun n _ => yields_pure trivial
  · exact yields_pure trivial
  · exact yields_pure trivial
  · exact yields_throw _

/-- An operation that is no operator. -/
theorem yields_operationNamed (name : String) :
    Yields (operationNamed name) fun op => AllWritable op.tokens := by
  unfold operationNamed
  -- Only the address of a symbol has a word that is not fixed.
  split
  · exact yields_pure (Operation.allWritable_tokens (by rintro s ⟨⟩))
  · exact yields_map_token fun n => Operation.allWritable_tokens (by rintro s ⟨⟩)
  · exact yields_map_token fun x => Operation.allWritable_tokens (by rintro s ⟨⟩)
  · exact yields_symbolOffset.bind fun p hp =>
      yields_pure (Operation.allWritable_tokens (by rintro s ⟨⟩; exact hp))
  · exact yields_map_token fun n => Operation.allWritable_tokens (by rintro s ⟨⟩)
  · exact yields_condition.bind fun cond _ =>
      yields_pure (Operation.allWritable_tokens (by rintro s ⟨⟩))
  · exact yields_throw _

/-- An operation and its constants. -/
theorem yields_operation : Yields operation fun op => AllWritable op.tokens := by
  apply (yields_token _ _).bind
  intro w _
  dsimp only
  split
  · exact yields_pure (Operation.allWritable_tokens (by rintro s ⟨⟩))
  · split
    · exact yields_pure (Operation.allWritable_tokens (by rintro s ⟨⟩))
    · split
      · exact yields_map_token fun n => Operation.allWritable_tokens (by rintro s ⟨⟩)
      · exact yields_operationNamed _

/-- An addressing mode and its constants. -/
theorem yields_addressing : Yields addressing fun mode => AllWritable mode.tokens := by
  apply (yields_token _ _).bind
  intro w _
  dsimp only
  -- Two of the modes have symbols.
  split
  · exact yields_map_token fun n => Addressing.allWritable_tokens (by rintro s ⟨⟩)
  · exact yields_pure (Addressing.allWritable_tokens (by rintro s ⟨⟩))
  · exact yields_symbolOffset.bind fun p hp =>
      yields_pure (Addressing.allWritable_tokens (by rintro s ⟨⟩; exact hp))
  · exact yields_symbolOffset.bind fun p hp =>
      yields_pure (Addressing.allWritable_tokens (by rintro s ⟨⟩; exact hp))
  · exact yields_map_token fun n => Addressing.allWritable_tokens (by rintro s ⟨⟩)
  · exact yields_throw _

/-- An item of initial contents. -/
theorem yields_initialData : Yields initialData fun item => AllWritable item.tokens := by
  apply (yields_token _ _).bind
  intro w _
  dsimp only
  split
  · exact yields_map_token fun n => InitialData.allWritable_tokens (by rintro s n ⟨⟩)
  · exact yields_map_token fun n => InitialData.allWritable_tokens (by rintro s n ⟨⟩)
  · exact yields_map_token fun n => InitialData.allWritable_tokens (by rintro s n ⟨⟩)
  · exact yields_map_token fun x => InitialData.allWritable_tokens (by rintro s n ⟨⟩)
  · exact yields_map_token fun x => InitialData.allWritable_tokens (by rintro s n ⟨⟩)
  · exact yields_map_token fun count => InitialData.allWritable_tokens (by rintro s n ⟨⟩)
  · exact yields_symbolOffset.bind fun p hp =>
      yields_pure (InitialData.allWritable_tokens (by rintro s n ⟨⟩; exact hp))
  · exact yields_throw _

/-- Items of initial contents. -/
theorem yields_itemsWithin (bound : Nat) :
    Yields (itemsWithin bound) fun init => AllWritable (init.flatMap InitialData.tokens) := by
  induction bound with
  | zero => exact yields_pure allWritable_nil
  | succ bound ih =>
    apply yields_get.bind
    intro ts _
    split
    · exact yields_pure allWritable_nil
    · exact yields_initialData.bind fun item hitem => ih.bind fun init hinit =>
        yields_pure (hitem.append hinit)

/-- Items of initial contents up to the end of the line. -/
theorem yields_items : Yields items fun init => AllWritable (init.flatMap InitialData.tokens) :=
  yields_get.bind fun _ _ => yields_itemsWithin _

/-! ## Lines -/

/-- Registers can be written. -/
theorem allWritable_registers (args : List Register) : AllWritable (args.map Register.token) :=
  allWritable_map Register.writable_token args

/-- The operands of an instruction. -/
theorem yields_instructionNamed (name : String) :
    Yields (instructionNamed name) fun i => (Line.instruction i).Writable := by
  unfold instructionNamed
  have hmnemonic := Instruction.writable_mnemonic
  -- A case for each name of an instruction, in the order of the definition, and one for the rest.
  split
  · exact (yields_token _ _).bind fun l _ => yields_pure
      ⟨trivial, .cons (hmnemonic (.label l)) (.cons l.writable_unsignedToken allWritable_nil)⟩
  · exact (yields_token _ _).bind fun slot _ => (yields_token _ _).bind fun t _ =>
      (yields_token _ _).bind fun dst _ => yields_pure
        ⟨trivial, .cons (hmnemonic (.getStack slot t dst)) (.cons slot.writable_token
          (.cons t.writable_token (.cons dst.writable_token allWritable_nil)))⟩
  · exact (yields_token _ _).bind fun src _ => (yields_token _ _).bind fun slot _ =>
      (yields_token _ _).bind fun t _ => yields_pure
        ⟨trivial, .cons (hmnemonic (.setStack src slot t)) (.cons src.writable_token
          (.cons slot.writable_token (.cons t.writable_token allWritable_nil)))⟩
  · exact (yields_token _ _).bind fun slot _ => (yields_token _ _).bind fun t _ =>
      (yields_token _ _).bind fun dst _ => yields_pure
        ⟨trivial, .cons (hmnemonic (.getParam slot t dst)) (.cons slot.writable_token
          (.cons t.writable_token (.cons dst.writable_token allWritable_nil)))⟩
  · exact (yields_token _ _).bind fun dst _ => yields_operation.bind fun operation hoperation =>
      (yields_rest _).bind fun args _ => yields_pure
        ⟨trivial, .cons (hmnemonic (.op operation args dst)) (.append (.cons dst.writable_token
          hoperation) (allWritable_registers args))⟩
  · exact (yields_token _ _).bind fun c _ => (yields_token _ _).bind fun dst _ =>
      yields_addressing.bind fun mode hmode => (yields_rest _).bind fun args _ => yields_pure
        ⟨trivial, .cons (hmnemonic (.load c mode args dst)) (.append (.cons c.writable_name
          (.cons dst.writable_token hmode)) (allWritable_registers args))⟩
  · exact (yields_token _ _).bind fun c _ => (yields_token _ _).bind fun src _ =>
      yields_addressing.bind fun mode hmode => (yields_rest _).bind fun args _ => yields_pure
        ⟨trivial, .cons (hmnemonic (.store c mode args src)) (.append (.cons c.writable_name
          (.cons src.writable_token hmode)) (allWritable_registers args))⟩
  · exact yields_callee.bind fun c hc => yields_pure
      ⟨hc.1, .cons (hmnemonic (.call c)) (.cons hc.2 allWritable_nil)⟩
  · exact yields_callee.bind fun c hc => yields_pure
      ⟨hc.1, .cons (hmnemonic (.tailCall c)) (.cons hc.2 allWritable_nil)⟩
  · exact (yields_token _ _).bind fun l _ => yields_pure
      ⟨trivial, .cons (hmnemonic (.goto l)) (.cons l.writable_unsignedToken allWritable_nil)⟩
  · exact yields_condition.bind fun cond _ => yields_leadingRegisters.bind fun args _ =>
      (yields_token _ _).bind fun l _ => yields_pure
        ⟨trivial, .cons (hmnemonic (.cond cond args l)) (.append (.append cond.allWritable_tokens
          (allWritable_registers args)) (.cons l.writable_unsignedToken allWritable_nil))⟩
  · exact (yields_token _ _).bind fun arg _ => (yields_rest _).bind fun ls _ => yields_pure
      ⟨trivial, .cons (hmnemonic (.jumpTable arg ls)) (.cons arg.writable_token
        (allWritable_map Word.writable_unsignedToken ls))⟩
  · exact yields_pure ⟨trivial, .cons (hmnemonic .ret) allWritable_nil⟩
  · exact yields_throw _

/-- The head of a function has no code. -/
theorem yields_functionHead : Yields functionHead fun f => f.code = #[] :=
  yields_signature.bind fun _ _ =>
    (yields_token _ _).bind fun _ _ => (yields_token _ _).bind fun _ _ =>
    (yields_token _ _).bind fun _ _ => (yields_token _ _).bind fun _ _ =>
    (yields_token _ _).bind fun _ _ => (yields_token _ _).bind fun _ _ =>
    (yields_token _ _).bind fun _ _ => (yields_token _ _).bind fun _ _ => yields_pure rfl

/-- The operands of a line. -/
theorem yields_lineNamed (name : String) :
    Yields (lineNamed name) fun l => l.Writable ∧ l.Codeless := by
  unfold lineNamed
  -- Symbols are the names of globals and those that instructions and items have.
  split
  · exact (yields_word _).bind fun name hname => yields_pure
      ⟨⟨trivial, .keyword (by simp [keywords]) (.cons hname allWritable_nil)⟩, trivial⟩
  · exact (yields_word _).bind fun name hname => yields_items.bind fun init hinit => yields_pure
      ⟨⟨trivial, .keyword (by simp [keywords]) (.cons hname hinit)⟩, trivial⟩
  · exact (yields_word _).bind fun name hname => yields_signature.bind fun sig _ => yields_pure
      ⟨⟨trivial, .keyword (by simp [keywords]) (.cons hname sig.allWritable_tokens)⟩, trivial⟩
  · exact (yields_word _).bind fun name hname => yields_functionHead.bind fun f hf => yields_pure
      ⟨⟨trivial, f.allWritable_tokens hname⟩, hf⟩
  · exact yields_pure ⟨⟨trivial, .keyword (by simp [keywords]) allWritable_nil⟩, trivial⟩
  · exact (yields_instructionNamed _).bind fun i hi => yields_pure ⟨hi, trivial⟩

/-- A whole line. -/
theorem yields_line (w : String) : Yields (line w) fun l => l.Writable ∧ l.Codeless := by
  have hfinish : Yields finish fun _ => True := by
    apply yields_of_subset
    intro ts a ts' h
    cases ts with
    | nil =>
      cases h
      exact List.Subset.refl _
    | cons t ts => cases h
  exact (yields_lineNamed _).bind fun l hl => hfinish.bind fun _ _ => yields_pure hl

end LineReader

/-- A line that is read from words that can be written can be written. -/
theorem Line.writable_of_read {ts : List Token} {l : Line} (hts : LineReader.WritableWords ts)
    (h : Line.read ts = .ok (some l)) : l.Writable ∧ l.Codeless := by
  cases ts with
  | nil => cases h
  | cons t ts =>
    have hts' : LineReader.WritableWords ts := fun w hw => hts w (List.mem_cons_of_mem _ hw)
    cases t with
    | word w =>
      cases hline : LineReader.line w ts with
      | error fault =>
        rw [read, StateT.run, hline] at h
        cases h
      | ok p =>
        rw [read, StateT.run, hline] at h
        cases h
        exact (LineReader.yields_line w ts p.1 p.2 hts' hline).1
    | int n => cases h
    | float x => cases h
    | lparen => cases h
    | rparen => cases h
    | arrow => cases h

end RegisterMachine
