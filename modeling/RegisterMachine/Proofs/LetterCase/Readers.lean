import RegisterMachine.Assembly
import RegisterMachine.Proofs.LetterCase.Tokens

/-! # Reading lines in any letter case

Every reader looks at words without regard to letter case, so it makes the same of tokens that are
alike, but for the spelling of symbols, or reports the same fault. The relation is closed under
reading one thing after the other, and each reader is taken apart only once.

* `Operation.mapSymbols` and its companions, `Line.mapSymbols` — lines with other symbols.
* `LineReader.Agrees` — readers that make the same of tokens that are alike.
* `Line.read_agrees` — lines.
-/

namespace RegisterMachine

/-! ## Other symbols -/

section

variable (g : String → String)

/-- An operation with its symbol changed. -/
def Operation.mapSymbols : Operation → Operation
  | .addrSymbol s offset => .addrSymbol (g s) offset
  | op => op

/-- An addressing mode with its symbol changed. -/
def Addressing.mapSymbols : Addressing → Addressing
  | .global s offset => .global (g s) offset
  | .based s offset => .based (g s) offset
  | mode => mode

/-- The target of a call with its symbol changed. A register stays what it is. -/
def Callee.mapSymbols : Callee → Callee
  | .symbol s => .symbol (g s)
  | .register r => .register r

/-- An instruction with its symbol changed. -/
def Instruction.mapSymbols : Instruction → Instruction
  | .op operation args dst => .op (operation.mapSymbols g) args dst
  | .load c mode args dst => .load c (mode.mapSymbols g) args dst
  | .store c mode args src => .store c (mode.mapSymbols g) args src
  | .call callee => .call (callee.mapSymbols g)
  | .tailCall callee => .tailCall (callee.mapSymbols g)
  | i => i

/-- An item of initial contents with its symbol changed. -/
def InitialData.mapSymbols : InitialData → InitialData
  | .address s offset => .address (g s) offset
  | item => item

/-- A function with the symbols of its code changed. -/
def Function.mapSymbols (f : Function) : Function :=
  { f with code := f.code.map (Instruction.mapSymbols g) }

/-- A line with its symbols changed. -/
def Line.mapSymbols : Line → Line
  | .entry name => .entry (g name)
  | .variable name init => .variable (g name) (init.map (InitialData.mapSymbols g))
  | .external name sig => .external (g name) sig
  | .function name f => .function (g name) (f.mapSymbols g)
  | .finish => .finish
  | .instruction i => .instruction (i.mapSymbols g)

end

/-! ## Tokens -/

namespace Token

variable {α : Type} {t t' : Token}

/-- A conversion gives related values for tokens that are alike if it does for two spellings of a
word. -/
theorem agrees_of_words {R : α → α → Prop} {convert : Token → Except Fault α} (hR : ∀ a, R a a)
    (hwords : ∀ w w', foldCase w = foldCase w' →
      ResultsAgree Fault.fold R (convert (.word w)) (convert (.word w')))
    (h : t.Alike t') : ResultsAgree Fault.fold R (convert t) (convert t') := by
  cases h with
  | word spelling => exact hwords _ _ spelling
  | int | float | lparen | rparen | arrow => exact .refl hR _

/-- Words. -/
theorem asWord_agrees (h : t.Alike t') :
    ResultsAgree Fault.fold (fun w w' => foldCase w = foldCase w') t.asWord t'.asWord :=
  agrees_of_words (fun _ => rfl) (fun _ _ hw => .ok hw) h

/-- Integer literals. -/
theorem asNumber_agrees {convert : Int → Option α} (h : t.Alike t') :
    ResultsAgree Fault.fold Eq (t.asNumber convert) (t'.asNumber convert) :=
  agrees_of_words (fun _ => rfl) (fun _ _ hw => .error (congrArg Fault.unexpected hw)) h

/-- Literals and words for doubles. -/
theorem asDouble_agrees (h : t.Alike t') :
    ResultsAgree Fault.fold Eq t.asDouble t'.asDouble := by
  refine agrees_of_words (fun _ => rfl) (fun w w' hw => ?_) h
  have hparse : Double.parse? w = Double.parse? w' := by
    rw [← Double.parse?_foldCase, hw, Double.parse?_foldCase]
  simp only [asDouble, hparse]
  split
  · exact .ok rfl
  · exact .error (congrArg Fault.invalidNumber hw)

/-- Names of a vocabulary. -/
theorem asName_agrees {read : String → Except NameError α}
    (hread : ∀ w w', foldCase w = foldCase w' →
      ResultsAgree (NameError.mapWord foldCase) Eq (read w) (read w')) (h : t.Alike t') :
    ResultsAgree Fault.fold Eq (t.asName read) (t'.asName read) :=
  (asWord_agrees h).bind fun w w' hw =>
    (hread w w' hw).mapError fun _ _ he => congrArg Fault.badName he

end Token

/-- Words are looked up in a vocabulary without regard to letter case. -/
theorem Vocabulary.read_agrees {α : Type} [Vocabulary α] {read : String → Except NameError α}
    (unknown : String → NameError)
    (hread : ∀ w, read w = (Vocabulary.find? w).elim (.error (unknown w)) .ok)
    (hunknown : ∀ g w, (unknown w).mapWord g = unknown (g w)) (w w' : String)
    (h : foldCase w = foldCase w') :
    ResultsAgree (NameError.mapWord foldCase) Eq (read w) (read w') := by
  rw [hread, hread, Vocabulary.find?_congr h]
  cases (Vocabulary.find? w' : Option α) with
  | some a => exact .ok rfl
  | none => exact .error (by rw [hunknown, hunknown, h])

/-- Registers. -/
theorem Register.read_agrees (w w' : String) (h : foldCase w = foldCase w') :
    ResultsAgree (NameError.mapWord foldCase) Eq (read w) (read w') :=
  Vocabulary.read_agrees .register read_eq (fun _ _ => rfl) w w' h

/-- Data types. -/
theorem DataType.read_agrees (w w' : String) (h : foldCase w = foldCase w') :
    ResultsAgree (NameError.mapWord foldCase) Eq (read w) (read w') :=
  Vocabulary.read_agrees .dataType read_eq (fun _ _ => rfl) w w' h

/-- Chunks. -/
theorem Chunk.read_agrees (w w' : String) (h : foldCase w = foldCase w') :
    ResultsAgree (NameError.mapWord foldCase) Eq (read w) (read w') :=
  Vocabulary.read_agrees .chunk read_eq (fun _ _ => rfl) w w' h

/-- Comparisons. -/
theorem Comparison.read_agrees (w w' : String) (h : foldCase w = foldCase w') :
    ResultsAgree (NameError.mapWord foldCase) Eq (read w) (read w') :=
  Vocabulary.read_agrees .comparison read_eq (fun _ _ => rfl) w w' h

namespace LineReader

variable {α β α' β' : Type} {R : α → β → Prop} {S : α' → β' → Prop}

/-! ## Readers of tokens that are alike -/

/-- From tokens that are alike two readers make related values and leave tokens that are alike, or
they report the same fault up to letter case. -/
def Agrees (R : α → β → Prop) (r : LineReader α) (r' : LineReader β) : Prop :=
  ∀ ts ts', List.Forall₂ Token.Alike ts ts' →
    ResultsAgree Fault.fold (fun p p' => R p.1 p'.1 ∧ List.Forall₂ Token.Alike p.2 p'.2)
      (r ts) (r' ts')

/-- Results without reading. -/
theorem agrees_pure {a : α} {b : β} (h : R a b) : Agrees R (pure a) (pure b) :=
  fun _ _ hts => .ok ⟨h, hts⟩

/-- A fault. -/
theorem agrees_throw (fault : Fault) : Agrees R (throw fault) (throw fault) :=
  fun _ _ _ => .error rfl

/-- Readers one after the other. -/
theorem Agrees.bind {r : LineReader α} {r' : LineReader β} {k : α → LineReader α'}
    {k' : β → LineReader β'} (h : Agrees R r r') (hk : ∀ a b, R a b → Agrees S (k a) (k' b)) :
    Agrees S (r >>= k) (r' >>= k') :=
  fun ts ts' hts => (h ts ts' hts).bind fun _ _ hp => hk _ _ hp.1 _ _ hp.2

/-- Readers one after the other, the first of which makes the same of both. -/
theorem Agrees.then {r r' : LineReader α} {k : α → LineReader α'} {k' : α → LineReader β'}
    (h : Agrees Eq r r') (hk : ∀ a, Agrees S (k a) (k' a)) : Agrees S (r >>= k) (r' >>= k') :=
  h.bind fun a _ hab => hab ▸ hk a

/-- A token that is taken. -/
theorem agrees_take {expected : String} {convert : Token → Except Fault α}
    {convert' : Token → Except Fault β}
    (h : ∀ t t', t.Alike t' → ResultsAgree Fault.fold R (convert t) (convert' t')) :
    Agrees R (take expected convert) (take expected convert') := by
  intro ts ts' hts
  cases hts with
  | nil => exact .error rfl
  | cons ht hts => exact (h _ _ ht).map fun a b hab => ⟨hab, hts⟩

/-- A token that is taken, of which words are looked at without regard to letter case. -/
theorem agrees_take_of_words {expected : String} {R : α → α → Prop}
    {convert : Token → Except Fault α} (hR : ∀ a, R a a)
    (hwords : ∀ w w', foldCase w = foldCase w' →
      ResultsAgree Fault.fold R (convert (.word w)) (convert (.word w'))) :
    Agrees R (take expected convert) (take expected convert) :=
  agrees_take fun _ _ => Token.agrees_of_words hR hwords

/-- A word. -/
theorem agrees_word (expected : String) :
    Agrees (fun w w' => foldCase w = foldCase w') (word expected) (word expected) :=
  agrees_take fun _ _ => Token.asWord_agrees

/-- A given word. -/
theorem agrees_keyword (w : String) : Agrees Eq (keyword w) (keyword w) := by
  refine agrees_take_of_words (fun _ => rfl) fun v v' hv => ?_
  simp only [hv]
  split
  · exact .ok rfl
  · exact .error (congrArg Fault.unexpected hv)

/-- An opening parenthesis. -/
theorem agrees_lparen : Agrees Eq lparen lparen :=
  agrees_take_of_words (fun _ => rfl) fun _ _ hw => .error (congrArg Fault.unexpected hw)

/-- An integer literal. -/
theorem agrees_number {expected : String} {convert : Int → Option α} :
    Agrees Eq (take expected (Token.asNumber convert)) (take expected (Token.asNumber convert)) :=
  agrees_take fun _ _ => Token.asNumber_agrees

/-- A name of a vocabulary. -/
theorem agrees_name {expected : String} {read : String → Except NameError α}
    (hread : ∀ w w', foldCase w = foldCase w' →
      ResultsAgree (NameError.mapWord foldCase) Eq (read w) (read w')) :
    Agrees Eq (take expected fun t => t.asName read) (take expected fun t => t.asName read) :=
  agrees_take fun _ _ => Token.asName_agrees hread

/-- A double. -/
theorem agrees_double : Agrees Eq double double := agrees_take fun _ _ => Token.asDouble_agrees

/-- A register. -/
theorem agrees_register : Agrees Eq register register := agrees_name Register.read_agrees

/-- A data type. -/
theorem agrees_dataType : Agrees Eq dataType dataType := agrees_name DataType.read_agrees

/-- The end of the line. -/
theorem agrees_finish : Agrees Eq finish finish := by
  intro ts ts' hts
  cases hts with
  | nil => exact .ok ⟨rfl, .nil⟩
  | cons ht hts => exact .error (congrArg Fault.unexpected ht.foldCase_toText)

/-- The tokens that are left. -/
theorem agrees_get :
    Agrees (List.Forall₂ Token.Alike) (get : LineReader (List Token)) get :=
  fun _ _ hts => .ok ⟨hts, hts⟩

/-! ## Runs of tokens -/

/-- All tokens up to the end of the line. -/
theorem agrees_rest {convert : Token → Except Fault α}
    (h : ∀ t t', t.Alike t' → ResultsAgree Fault.fold Eq (convert t) (convert t')) :
    Agrees Eq (rest convert) (rest convert) := by
  intro ts ts' hts
  refine (ResultsAgree.mapM h hts).map fun as bs habs => ⟨?_, .nil⟩
  rwa [List.forall₂_eq_eq_eq] at habs

/-- Registers up to the end of the line. -/
theorem agrees_registers : Agrees Eq registers registers :=
  agrees_rest fun _ _ => Token.asName_agrees Register.read_agrees

/-- Registers up to the first token that is not a word. -/
theorem agrees_leadingRegisters : Agrees Eq leadingRegisters leadingRegisters := by
  intro ts ts' hts
  induction hts with
  | nil => exact .ok ⟨rfl, .nil⟩
  | cons ht hts ih =>
    cases ht with
    | word spelling =>
      refine (Token.asName_agrees Register.read_agrees (.word spelling)).bind ?_
      rintro r _ rfl
      refine ih.bind ?_
      rintro ⟨rs, ts⟩ ⟨_, ts'⟩ ⟨rfl, hts⟩
      exact .ok ⟨rfl, hts⟩
    | int n => exact .ok ⟨rfl, .cons (.int n) hts⟩
    | float x => exact .ok ⟨rfl, .cons (.float x) hts⟩
    | lparen => exact .ok ⟨rfl, .cons .lparen hts⟩
    | rparen => exact .ok ⟨rfl, .cons .rparen hts⟩
    | arrow => exact .ok ⟨rfl, .cons .arrow hts⟩

/-- Data types up to a closing parenthesis. -/
theorem agrees_dataTypes : Agrees Eq dataTypes dataTypes := by
  intro ts ts' hts
  induction hts with
  | nil => exact .error rfl
  | cons ht hts ih =>
    cases ht with
    | rparen => exact .ok ⟨rfl, hts⟩
    | word spelling =>
      refine (Token.asName_agrees DataType.read_agrees (.word spelling)).bind ?_
      rintro t _ rfl
      refine ih.bind ?_
      rintro ⟨types, ts⟩ ⟨_, ts'⟩ ⟨rfl, hts⟩
      exact .ok ⟨rfl, hts⟩
    | int | float | lparen | arrow => exact .error rfl

/-- An arrow and a result type, or neither. -/
theorem agrees_resultType? : Agrees Eq resultType? resultType? := by
  intro ts ts' hts
  cases hts with
  | nil => exact .ok ⟨rfl, .nil⟩
  | cons ht hts =>
    cases ht with
    | arrow =>
      refine (agrees_dataType _ _ hts).map ?_
      rintro ⟨t, ts⟩ ⟨_, ts'⟩ ⟨rfl, hts⟩
      exact ⟨rfl, hts⟩
    | word spelling => exact .ok ⟨rfl, .cons (.word spelling) hts⟩
    | int n => exact .ok ⟨rfl, .cons (.int n) hts⟩
    | float x => exact .ok ⟨rfl, .cons (.float x) hts⟩
    | lparen => exact .ok ⟨rfl, .cons .lparen hts⟩
    | rparen => exact .ok ⟨rfl, .cons .rparen hts⟩

/-- A signature. -/
theorem agrees_signature : Agrees Eq signature signature := by
  refine agrees_lparen.then fun _ => agrees_dataTypes.then fun types => ?_
  exact agrees_resultType?.then fun result? => agrees_pure rfl

/-! ## Names with constants -/

/-- The target of a call is a register in both spellings or a symbol in both. -/
theorem agrees_callee :
    Agrees (fun c c' => c.mapSymbols foldCase = c'.mapSymbols foldCase) callee callee := by
  refine (agrees_word _).bind fun w w' hw => ?_
  rcases (Register.read_agrees w w' hw).cases with ⟨r, _, hr, hr', rfl⟩ | ⟨e, e', he, he', -⟩
  · rw [hr, hr']
    exact agrees_pure rfl
  · rw [he, he']
    exact agrees_pure (congrArg Callee.symbol hw)

/-- A symbol and a byte offset. -/
theorem agrees_symbolOffset :
    Agrees (fun p p' => foldCase p.1 = foldCase p'.1 ∧ p.2 = p'.2) symbolOffset symbolOffset :=
  (agrees_word _).bind fun _ _ hs => agrees_number.then fun _ => agrees_pure ⟨hs, rfl⟩

/-- What is made of a symbol and a byte offset. -/
theorem agrees_ofSymbol {R : α → α → Prop} {make : String → Word → α}
    (hmake : ∀ s s' offset, foldCase s = foldCase s' → R (make s offset) (make s' offset)) :
    Agrees R (do let (s, offset) ← symbolOffset; return make s offset)
      (do let (s, offset) ← symbolOffset; return make s offset) := by
  refine agrees_symbolOffset.bind ?_
  rintro ⟨s, offset⟩ ⟨s', _⟩ ⟨hs, rfl⟩
  exact agrees_pure (hmake s s' offset hs)

/-- A condition. -/
theorem agrees_condition : Agrees Eq condition condition := by
  refine (agrees_word _).bind fun w w' hw => (agrees_name Comparison.read_agrees).then fun c => ?_
  rw [hw]
  -- A case for each kind of condition, and one for other words.
  split
  · exact agrees_pure rfl
  · exact agrees_pure rfl
  · exact agrees_number.then fun n => agrees_pure rfl
  · exact agrees_number.then fun n => agrees_pure rfl
  · exact agrees_pure rfl
  · exact agrees_pure rfl
  · exact agrees_throw _

/-- An operation that is no operator. -/
theorem agrees_operationNamed (name : String) :
    Agrees (fun op op' => op.mapSymbols foldCase = op'.mapSymbols foldCase) (operationNamed name)
      (operationNamed name) := by
  unfold operationNamed
  split
  · exact agrees_pure rfl
  · exact agrees_number.then fun n => agrees_pure rfl
  · exact agrees_double.then fun x => agrees_pure rfl
  · exact agrees_ofSymbol fun s s' offset hs => congrArg (Operation.addrSymbol · offset) hs
  · exact agrees_number.then fun n => agrees_pure rfl
  · exact agrees_condition.then fun cond => agrees_pure rfl
  · exact agrees_throw _

/-- An operation and its constants. -/
theorem agrees_operation :
    Agrees (fun op op' => op.mapSymbols foldCase = op'.mapSymbols foldCase) operation
      operation := by
  refine (agrees_word _).bind fun w w' hw => ?_
  rw [hw]
  dsimp only
  split
  · exact agrees_pure rfl
  · split
    · exact agrees_pure rfl
    · split
      · exact agrees_number.then fun n => agrees_pure rfl
      · exact agrees_operationNamed _

/-- An addressing mode and its constants. -/
theorem agrees_addressing :
    Agrees (fun mode mode' => mode.mapSymbols foldCase = mode'.mapSymbols foldCase) addressing
      addressing := by
  refine (agrees_word _).bind fun w w' hw => ?_
  rw [hw]
  dsimp only
  -- Two of the modes have symbols.
  split
  · exact agrees_number.then fun n => agrees_pure rfl
  · exact agrees_pure rfl
  · exact agrees_ofSymbol fun s s' offset hs => congrArg (Addressing.global · offset) hs
  · exact agrees_ofSymbol fun s s' offset hs => congrArg (Addressing.based · offset) hs
  · exact agrees_number.then fun n => agrees_pure rfl
  · exact agrees_throw _

/-- An item of initial contents. -/
theorem agrees_initialData :
    Agrees (fun item item' => item.mapSymbols foldCase = item'.mapSymbols foldCase) initialData
      initialData := by
  refine (agrees_word _).bind fun w w' hw => ?_
  rw [hw]
  dsimp only
  split
  · exact agrees_number.then fun n => agrees_pure rfl
  · exact agrees_number.then fun n => agrees_pure rfl
  · exact agrees_number.then fun n => agrees_pure rfl
  · exact agrees_double.then fun x => agrees_pure rfl
  · exact agrees_double.then fun x => agrees_pure rfl
  · exact agrees_number.then fun count => agrees_pure rfl
  · exact agrees_ofSymbol fun s s' offset hs => congrArg (InitialData.address · offset) hs
  · exact agrees_throw _

/-- Items of initial contents. -/
theorem agrees_itemsWithin (bound : Nat) :
    Agrees (fun init init' =>
      init.map (InitialData.mapSymbols foldCase) = init'.map (InitialData.mapSymbols foldCase))
      (itemsWithin bound) (itemsWithin bound) := by
  induction bound with
  | zero => exact agrees_pure rfl
  | succ bound ih =>
    refine agrees_get.bind fun ts ts' hts => ?_
    have hempty : ts.isEmpty = ts'.isEmpty := by cases hts <;> rfl
    rw [hempty]
    split
    · exact agrees_pure rfl
    · refine agrees_initialData.bind fun item item' hitem => ih.bind fun init init' hinit => ?_
      exact agrees_pure (by rw [List.map_cons, List.map_cons, hitem, hinit])

/-- Items of initial contents up to the end of the line. -/
theorem agrees_items :
    Agrees (fun init init' =>
      init.map (InitialData.mapSymbols foldCase) = init'.map (InitialData.mapSymbols foldCase))
      items items := by
  refine agrees_get.bind fun ts ts' hts => ?_
  rw [hts.length_eq]
  exact agrees_itemsWithin _

/-! ## Lines -/

/-- The operands of an instruction. -/
theorem agrees_instructionNamed (name : String) :
    Agrees (fun i i' => i.mapSymbols foldCase = i'.mapSymbols foldCase) (instructionNamed name)
      (instructionNamed name) := by
  unfold instructionNamed
  -- A case for each name of an instruction, in the order of the definition, and one for the rest.
  split
  · exact agrees_number.then fun l => agrees_pure rfl
  · exact agrees_number.then fun slot => agrees_dataType.then fun t =>
      agrees_register.then fun dst => agrees_pure rfl
  · exact agrees_register.then fun src => agrees_number.then fun slot =>
      agrees_dataType.then fun t => agrees_pure rfl
  · exact agrees_number.then fun slot => agrees_dataType.then fun t =>
      agrees_register.then fun dst => agrees_pure rfl
  · exact agrees_register.then fun dst => agrees_operation.bind fun op op' hop =>
      agrees_registers.then fun args => agrees_pure (congrArg (Instruction.op · args dst) hop)
  · exact (agrees_name Chunk.read_agrees).then fun c => agrees_register.then fun dst =>
      agrees_addressing.bind fun mode mode' hmode => agrees_registers.then fun args =>
        agrees_pure (congrArg (Instruction.load c · args dst) hmode)
  · exact (agrees_name Chunk.read_agrees).then fun c => agrees_register.then fun src =>
      agrees_addressing.bind fun mode mode' hmode => agrees_registers.then fun args =>
        agrees_pure (congrArg (Instruction.store c · args src) hmode)
  · exact agrees_callee.bind fun c c' hc => agrees_pure (congrArg Instruction.call hc)
  · exact agrees_callee.bind fun c c' hc => agrees_pure (congrArg Instruction.tailCall hc)
  · exact agrees_number.then fun l => agrees_pure rfl
  · exact agrees_condition.then fun cond => agrees_leadingRegisters.then fun args =>
      agrees_number.then fun l => agrees_pure rfl
  · exact agrees_register.then fun arg => (agrees_rest fun _ _ => Token.asNumber_agrees).then
      fun ls => agrees_pure rfl
  · exact agrees_pure rfl
  · exact agrees_throw _

/-- The head of a function. -/
theorem agrees_functionHead : Agrees Eq functionHead functionHead :=
  agrees_signature.then fun _ =>
    (agrees_keyword _).then fun _ => agrees_number.then fun _ =>
    (agrees_keyword _).then fun _ => agrees_number.then fun _ =>
    (agrees_keyword _).then fun _ => agrees_number.then fun _ =>
    (agrees_keyword _).then fun _ => agrees_number.then fun _ => agrees_pure rfl

/-- The operands of a line. -/
theorem agrees_lineNamed (name : String) :
    Agrees (fun l l' => l.mapSymbols foldCase = l'.mapSymbols foldCase) (lineNamed name)
      (lineNamed name) := by
  unfold lineNamed
  split
  · exact (agrees_word _).bind fun s s' hs => agrees_pure (congrArg Line.entry hs)
  · exact (agrees_word _).bind fun s s' hs => agrees_items.bind fun init init' hinit =>
      agrees_pure (congrArg₂ Line.variable hs hinit)
  · exact (agrees_word _).bind fun s s' hs => agrees_signature.then fun sig =>
      agrees_pure (congrArg (Line.external · sig) hs)
  · exact (agrees_word _).bind fun s s' hs => agrees_functionHead.then fun f =>
      agrees_pure (congrArg (Line.function · _) hs)
  · exact agrees_pure rfl
  · exact (agrees_instructionNamed _).bind fun i i' hi =>
      agrees_pure (congrArg Line.instruction hi)

/-- A whole line. -/
theorem agrees_line {w w' : String} (h : foldCase w = foldCase w') :
    Agrees (fun l l' => l.mapSymbols foldCase = l'.mapSymbols foldCase) (line w) (line w') := by
  rw [line, line, h]
  exact (agrees_lineNamed _).bind fun l l' hl => agrees_finish.then fun _ => agrees_pure hl

end LineReader

/-- Tokens that are alike say the same but for the spelling of symbols, or have the same fault up to
letter case. -/
theorem Line.read_agrees {ts ts' : List Token} (h : List.Forall₂ Token.Alike ts ts') :
    ResultsAgree Fault.fold
      (fun l? l?' => l?.map (mapSymbols foldCase) = l?'.map (mapSymbols foldCase))
      (read ts) (read ts') := by
  cases h with
  | nil => exact .ok rfl
  | cons ht hts =>
    cases ht with
    | word spelling =>
      refine (LineReader.agrees_line spelling _ _ hts).map fun p p' hp => ?_
      exact congrArg some hp.1
    | int | float | lparen | rparen | arrow => exact .error rfl

end RegisterMachine
