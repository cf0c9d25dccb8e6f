import RegisterMachine.Proofs.Assembly.Places
import RegisterMachine.Proofs.Assembly.RoundTrip

/-! # No token is ignored

Every token of a line says something, and nothing is said that no token says. A reader takes tokens
off the front of a line, and those that it takes match the canonical tokens of what it makes of
them. So the tokens of a line are those of its canonical text, place by place.

* `LineReader.Consumes` — the tokens that a reader takes, and what it makes of them.
* `Line.matches_of_read` — what a line was read from matches its canonical tokens.
* `Line.tokenize_toText` — the tokens of canonical text.
* `Line.tokens_determined` — what is known of the tokens from which a line was read.
-/

namespace RegisterMachine

variable {α β : Type} {w name : String} {t : Token} {ts ts' : List Token} {l : Line}

/-! ## Tokens and what they are read as -/

namespace Token

/-- A token is a word if it is one. -/
theorem asWord_eq_ok_iff : t.asWord = .ok w ↔ t = .word w := by
  cases t <;> simp [asWord]

/-- A token is a number if it is an integer literal for it. -/
theorem asNumber_eq_ok_iff {convert : Int → Option α} {a : α} :
    t.asNumber convert = .ok a ↔ ∃ n, t = .int n ∧ convert n = some a := by
  cases t with
  | int n => cases hn : convert n <;> simp [asNumber, hn]
  | word w => simp [asNumber]
  | float x => simp [asNumber]
  | lparen => simp [asNumber]
  | rparen => simp [asNumber]
  | arrow => simp [asNumber]

/-- A token names a member of a vocabulary if it is a word for it. -/
theorem asName_eq_ok_iff {read : String → Except NameError α} {a : α} :
    t.asName read = .ok a ↔ ∃ w, t = .word w ∧ read w = .ok a := by
  simp only [asName, bind_eq_ok_iff, asWord_eq_ok_iff, mapError_eq_ok_iff]

end Token

namespace Place.Agree

/-- An integer literal says the same as the canonical token of the word that is read with sign. -/
theorem of_asSigned {n : Word} (h : t.asNumber Word.ofInt? = .ok n) :
    Agree .number t (Word.token n) := by
  obtain ⟨k, rfl, hk⟩ := Token.asNumber_eq_ok_iff.1 h
  rw [Word.token, Word.toInt_of_ofInt? hk]
  exact .number k

/-- An integer literal says the same as the canonical token of the word that is read without sign.
-/
theorem of_asUnsigned {n : Word} (h : t.asNumber Word.ofUnsigned? = .ok n) :
    Agree .number t n.unsignedToken := by
  obtain ⟨k, rfl, hk⟩ := Token.asNumber_eq_ok_iff.1 h
  rw [Word.unsignedToken, Word.toNat_of_ofUnsigned? hk]
  exact .number k

/-- A word says the same as the name of the member of a vocabulary that it names. -/
theorem of_asName [Vocabulary α] {read : String → Except NameError α}
    {unknown : String → NameError} {a : α}
    (hread : ∀ w, read w = (Vocabulary.find? w).elim (.error (unknown w)) .ok)
    (h : t.asName read = .ok a) : Agree .keyword t (.word (Vocabulary.name a)) := by
  obtain ⟨w, rfl, hw⟩ := Token.asName_eq_ok_iff.1 h
  exact .of_foldCase (Vocabulary.name_of_read hread hw).symm

/-- A token for a double says the same as the canonical one. -/
theorem of_asDouble {x : Double} (h : t.asDouble = .ok x) : Agree .double t (.ofDouble x) :=
  .double h x.asDouble_ofDouble x.quieted_quieted.symm

end Place.Agree

/-! ## Readers and the tokens that they take -/

namespace LineReader

variable {P : α → List Token → Prop} {Q : β → List Token → Prop}

/-- A reader takes tokens off the front. Between the result and the tokens that are taken there is a
relation. -/
def Consumes (r : LineReader α) (P : α → List Token → Prop) : Prop :=
  ∀ ts a rest, r ts = .ok (a, rest) → ∃ taken, ts = taken ++ rest ∧ P a taken

/-- A result without reading. -/
theorem consumes_pure {a : α} (h : P a []) : Consumes (pure a) P := by
  intro ts a' rest hr
  cases hr
  exact ⟨[], rfl, h⟩

/-- A fault gives no results. -/
theorem consumes_throw (fault : Fault) : Consumes (throw fault) P := by
  intro ts a rest hr
  cases hr

/-- Readers one after the other take tokens one after the other. -/
theorem Consumes.bind {r : LineReader α} {f : α → LineReader β} (hr : Consumes r P)
    (hf : ∀ a taken, P a taken → Consumes (f a) fun b taken' => Q b (taken ++ taken')) :
    Consumes (r >>= f) Q := by
  intro ts b rest h
  obtain ⟨⟨a, middle⟩, ha, hb⟩ := bind_eq_ok_iff.1 h
  obtain ⟨taken, rfl, hP⟩ := hr ts a middle ha
  obtain ⟨taken', rfl, hQ⟩ := hf a taken hP middle b rest hb
  exact ⟨taken ++ taken', (List.append_assoc ..).symm, hQ⟩

/-- What is made of the result of a reader is made of the same tokens. -/
theorem Consumes.map {r : LineReader α} {g : α → β} (hr : Consumes r P)
    (hg : ∀ a taken, P a taken → Q (g a) taken) : Consumes (r >>= fun a => pure (g a)) Q :=
  hr.bind fun a taken hP => consumes_pure (by rw [List.append_nil]; exact hg a taken hP)

/-- One token is taken. -/
theorem consumes_take {expected : String} {convert : Token → Except Fault α}
    (h : ∀ t a, convert t = .ok a → P a [t]) : Consumes (take expected convert) P := by
  intro ts a rest hr
  cases ts with
  | nil => cases hr
  | cons t ts =>
    rw [take] at hr
    obtain ⟨a', ha', heq⟩ := map_eq_ok_iff.1 hr
    cases heq
    exact ⟨[t], rfl, h t a ha'⟩

/-! ## Single tokens -/

/-- A word. -/
theorem consumes_word (expected : String) :
    Consumes (word expected) fun w taken => taken = [.word w] :=
  consumes_take fun t w hw => by rw [Token.asWord_eq_ok_iff.1 hw]

/-- A given word. -/
theorem consumes_keyword (w : String) :
    Consumes (keyword w) fun _ taken => Matches [.keyword] taken [.word w] := by
  apply consumes_take
  intro t _ ht
  cases t with
  | word w' =>
    simp only at ht
    split at ht
    · rename_i hw
      exact .single (.of_foldCase hw)
    · cases ht
  | int n => cases ht
  | float x => cases ht
  | lparen => cases ht
  | rparen => cases ht
  | arrow => cases ht

/-- An opening parenthesis. -/
theorem consumes_lparen : Consumes lparen fun _ taken => taken = [.lparen] := by
  apply consumes_take
  intro t _ ht
  cases t with
  | lparen => rfl
  | word w => cases ht
  | int n => cases ht
  | float x => cases ht
  | rparen => cases ht
  | arrow => cases ht

/-- A word read with sign. -/
theorem consumes_signed (expected : String) :
    Consumes (signed expected) fun n taken => Matches [.number] taken [Word.token n] :=
  consumes_take fun _ _ h => .single (.of_asSigned h)

/-- A word read without sign. -/
theorem consumes_unsigned (expected : String) :
    Consumes (unsigned expected) fun n taken => Matches [.number] taken [n.unsignedToken] :=
  consumes_take fun _ _ h => .single (.of_asUnsigned h)

/-- A double. -/
theorem consumes_double : Consumes double fun x taken => Matches [.double] taken [.ofDouble x] :=
  consumes_take fun _ _ h => .single (.of_asDouble h)

/-- A label. -/
theorem consumes_label :
    Consumes label fun l taken => Matches [.number] taken [Word.unsignedToken l] :=
  consumes_take fun _ _ h => .single (.of_asUnsigned h)

/-- A register. -/
theorem consumes_register : Consumes register fun r taken => Matches [.keyword] taken [r.token] :=
  consumes_take fun _ _ h => .single (.of_asName Register.read_eq h)

/-- A data type. -/
theorem consumes_dataType : Consumes dataType fun t taken => Matches [.keyword] taken [t.token] :=
  consumes_take fun _ _ h => .single (.of_asName DataType.read_eq h)

/-- A memory chunk. -/
theorem consumes_chunk :
    Consumes chunk fun c taken => Matches [.keyword] taken [.word c.name] :=
  consumes_take fun _ _ h => .single (.of_asName Chunk.read_eq h)

/-- A comparison. -/
theorem consumes_comparison :
    Consumes comparison fun c taken => Matches [.keyword] taken [.word c.name] :=
  consumes_take fun _ _ h => .single (.of_asName Comparison.read_eq h)

/-! ## Runs of tokens -/

/-- Tokens that are converted one by one match the canonical tokens of what they convert to. -/
theorem matches_of_mapM {convert : Token → Except Fault α} {p : Place} {token : α → Token}
    {as : List α} (h : ∀ {t a}, convert t = .ok a → p.Agree t (token a))
    (has : ts.mapM convert = .ok as) : Matches (as.map fun _ => p) ts (as.map token) := by
  induction ts generalizing as with
  | nil =>
    cases has
    exact .nil
  | cons t ts ih =>
    simp only [List.mapM_cons, bind_eq_ok_iff] at has
    obtain ⟨a, ha, as', has', heq⟩ := has
    cases heq
    exact .cons (h ha) (ih has')

/-- All tokens up to the end of the line. -/
theorem consumes_rest {convert : Token → Except Fault α} {p : Place} {token : α → Token}
    (h : ∀ {t a}, convert t = .ok a → p.Agree t (token a)) :
    Consumes (rest convert) fun as taken => Matches (as.map fun _ => p) taken (as.map token) := by
  intro ts as left hr
  obtain ⟨as', has, heq⟩ := map_eq_ok_iff.1 hr
  cases heq
  exact ⟨ts, (List.append_nil ts).symm, matches_of_mapM h has⟩

/-- Registers up to the end of the line. -/
theorem consumes_registers :
    Consumes registers fun rs taken =>
      Matches (rs.map fun _ => .keyword) taken (rs.map Register.token) :=
  consumes_rest (.of_asName Register.read_eq)

/-- Registers up to the first token that is not a word. -/
theorem consumes_leadingRegisters :
    Consumes leadingRegisters fun rs taken =>
      Matches (rs.map fun _ => .keyword) taken (rs.map Register.token) := by
  intro ts rs left hr
  fun_induction leadingRegisters ts generalizing rs left with
  | case1 w ts ih =>
    obtain ⟨r, hw, hr⟩ := bind_eq_ok_iff.1 hr
    obtain ⟨⟨rs', left'⟩, hrs', hr⟩ := bind_eq_ok_iff.1 hr
    cases hr
    obtain ⟨taken, rfl, htaken⟩ := ih _ _ hrs'
    exact ⟨.word w :: taken, rfl, .cons (.of_asName Register.read_eq hw) htaken⟩
  | case2 ts hts =>
    cases hr
    exact ⟨[], rfl, .nil⟩

/-- Data types up to a closing parenthesis, which is taken too. -/
theorem consumes_dataTypes :
    Consumes dataTypes fun types taken =>
      Matches (types.map (fun _ => .keyword) ++ [.punctuation]) taken
        (types.map DataType.token ++ [.rparen]) := by
  intro ts types left hr
  fun_induction dataTypes ts generalizing types left with
  | case1 => cases hr
  | case2 ts =>
    cases hr
    exact ⟨[.rparen], rfl, .single .rparen⟩
  | case3 t ts ht ih =>
    obtain ⟨type, htype, hr⟩ := bind_eq_ok_iff.1 hr
    obtain ⟨⟨types', left'⟩, htypes', hr⟩ := bind_eq_ok_iff.1 hr
    cases hr
    obtain ⟨taken, rfl, htaken⟩ := ih _ _ htypes'
    exact ⟨t :: taken, rfl, .cons (.of_asName DataType.read_eq htype) htaken⟩

/-- An arrow and a result type, or neither. -/
theorem consumes_resultType? :
    Consumes resultType? fun t? taken =>
      Matches (match t? with | some _ => [.punctuation, .keyword] | none => []) taken
        (match t? with | some t => [.arrow, t.token] | none => []) := by
  intro ts t? left hr
  unfold resultType? at hr
  split at hr
  · rename_i ts
    obtain ⟨⟨t, left'⟩, ht, heq⟩ := map_eq_ok_iff.1 hr
    cases heq
    obtain ⟨taken, rfl, htaken⟩ := consumes_dataType ts t left ht
    exact ⟨.arrow :: taken, rfl, .cons .arrow htaken⟩
  · cases hr
    exact ⟨[], rfl, .nil⟩

/-- A signature. -/
theorem consumes_signature :
    Consumes signature fun sig taken => Matches sig.places taken sig.tokens := by
  refine consumes_lparen.bind fun _ opened hopened => consumes_dataTypes.bind fun types _ htypes =>
    consumes_resultType?.map fun t? _ ht => ?_
  subst hopened
  have hmatches := (Matches.single .lparen).append (htypes.append ht)
  cases t? with
  | some t => simpa [Signature.places, Signature.tokens] using hmatches
  | none => simpa [Signature.places, Signature.tokens] using hmatches

/-! ## Names with constants -/

/-- The target of a call. -/
theorem consumes_callee :
    Consumes callee fun c taken => Matches [c.place] taken [.word c.toText] := by
  refine (consumes_word _).bind fun w taken htaken => ?_
  subst htaken
  cases hread : Register.read w with
  | ok r =>
    have hname := Vocabulary.name_of_read Register.read_eq hread
    exact consumes_pure (.single (.of_foldCase hname.symm))
  | error e => exact consumes_pure (.single (.symbol w))

/-- A symbol and a byte offset. -/
theorem consumes_symbolOffset :
    Consumes symbolOffset fun p taken =>
      Matches [.symbol, .number] taken [.word p.1, Word.token p.2] := by
  refine (consumes_word _).bind fun s taken hs => (consumes_signed _).map fun n _ hn => ?_
  subst hs
  exact .cons (.symbol s) hn

/-- A condition. -/
theorem consumes_condition :
    Consumes condition fun cond taken => Matches cond.places taken cond.tokens := by
  refine (consumes_word _).bind fun w _ hw => consumes_comparison.bind fun c taken hc => ?_
  subst hw
  have hname : ∀ {kind}, foldCase w = kind →
      Matches [.keyword, .keyword] (.word w :: taken) [.word kind, .word c.name] :=
    fun hkind => .cons (.of_foldCase hkind) hc
  -- A case for each kind of condition, and one for other words.
  split
  · exact consumes_pure ((hname (by assumption)).append .nil)
  · exact consumes_pure ((hname (by assumption)).append .nil)
  · exact (consumes_signed _).map fun n _ hn => (hname (by assumption)).append hn
  · exact (consumes_signed _).map fun n _ hn => (hname (by assumption)).append hn
  · exact consumes_pure ((hname (by assumption)).append .nil)
  · exact consumes_pure ((hname (by assumption)).append .nil)
  · exact consumes_throw _

/-- An operation that is no operator, behind its name. -/
theorem consumes_operationNamed (hw : foldCase w = name) :
    Consumes (operationNamed name) fun op taken =>
      Matches op.places (.word w :: taken) op.tokens := by
  unfold operationNamed
  split
  · exact consumes_pure (.single (.of_foldCase hw))
  · exact (consumes_signed _).map fun n _ hn => .cons (.of_foldCase hw) hn
  · exact consumes_double.map fun x _ hx => .cons (.of_foldCase hw) hx
  · exact consumes_symbolOffset.map fun p _ hp => .cons (.of_foldCase hw) hp
  · exact (consumes_signed _).map fun n _ hn => .cons (.of_foldCase hw) hn
  · exact consumes_condition.map fun cond _ hcond => .cons (.of_foldCase hw) hcond
  · exact consumes_throw _

/-- An operation and its constants. -/
theorem consumes_operation :
    Consumes operation fun op taken => Matches op.places taken op.tokens := by
  refine (consumes_word _).bind fun w _ hw => ?_
  subst hw
  have hname : ∀ {α : Type} [Vocabulary α] {a : α}, Vocabulary.find? (foldCase w) = some a →
      Place.Agree .keyword (.word w) (.word (Vocabulary.name a)) := by
    intro α _ a ha
    exact .of_foldCase (by rw [Vocabulary.name_of_find? ha, foldCase_foldCase])
  dsimp only
  -- The word is looked up as a unary, a binary and an immediate operator, in this order.
  split
  · rename_i op hop
    exact consumes_pure (.single (hname hop))
  · split
    · rename_i op hop
      exact consumes_pure (.single (hname hop))
    · split
      · rename_i op hop
        exact (consumes_signed _).map fun n _ hn => .cons (hname hop) hn
      · exact consumes_operationNamed rfl

/-- An addressing mode and its constants. -/
theorem consumes_addressing :
    Consumes addressing fun mode taken => Matches mode.places taken mode.tokens := by
  refine (consumes_word _).bind fun w _ hw => ?_
  subst hw
  dsimp only
  split
  · exact (consumes_signed _).map fun n _ hn => .cons (.of_foldCase (by assumption)) hn
  · exact consumes_pure (.single (.of_foldCase (by assumption)))
  · exact consumes_symbolOffset.map fun p _ hp => .cons (.of_foldCase (by assumption)) hp
  · exact consumes_symbolOffset.map fun p _ hp => .cons (.of_foldCase (by assumption)) hp
  · exact (consumes_signed _).map fun n _ hn => .cons (.of_foldCase (by assumption)) hn
  · exact consumes_throw _

/-- An item of initial contents. -/
theorem consumes_initialData :
    Consumes initialData fun item taken => Matches item.places taken item.tokens := by
  refine (consumes_word _).bind fun w _ hw => ?_
  subst hw
  dsimp only
  split
  · exact (consumes_signed _).map fun n _ hn => .cons (.of_foldCase (by assumption)) hn
  · exact (consumes_signed _).map fun n _ hn => .cons (.of_foldCase (by assumption)) hn
  · exact (consumes_signed _).map fun n _ hn => .cons (.of_foldCase (by assumption)) hn
  · exact consumes_double.map fun x _ hx => .cons (.of_foldCase (by assumption)) hx
  · exact consumes_double.map fun x _ hx => .cons (.of_foldCase (by assumption)) hx
  · exact (consumes_unsigned _).map fun n _ hn => .cons (.of_foldCase (by assumption)) hn
  · exact consumes_symbolOffset.map fun p _ hp => .cons (.of_foldCase (by assumption)) hp
  · exact consumes_throw _

/-- A look at the tokens takes none of them. -/
theorem consumes_get : Consumes (get : LineReader (List Token)) fun _ taken => taken = [] := by
  intro ts a left hr
  cases hr
  exact ⟨[], rfl, rfl⟩

/-- Items of initial contents. -/
theorem consumes_itemsWithin (bound : Nat) :
    Consumes (itemsWithin bound) fun init taken =>
      Matches (init.flatMap InitialData.places) taken (init.flatMap InitialData.tokens) := by
  induction bound with
  | zero => exact consumes_pure .nil
  | succ bound ih =>
    refine consumes_get.bind fun ts taken htaken => ?_
    subst htaken
    split
    · exact consumes_pure .nil
    · exact consumes_initialData.bind fun item _ hitem => ih.map fun init _ hinit =>
        hitem.append hinit

/-- Items of initial contents up to the end of the line. -/
theorem consumes_items :
    Consumes items fun init taken =>
      Matches (init.flatMap InitialData.places) taken (init.flatMap InitialData.tokens) := by
  refine consumes_get.bind fun ts taken htaken => ?_
  subst htaken
  exact consumes_itemsWithin _

/-! ## Lines -/

/-- The operands of an instruction, behind its name. -/
theorem consumes_instructionNamed (hw : foldCase w = name) :
    Consumes (instructionNamed name) fun i taken =>
      Matches i.places (.word w :: taken) i.tokens := by
  unfold instructionNamed
  -- A case for each name of an instruction, in the order of the definition, and one for the rest.
  split
  · exact consumes_label.map fun l _ hl => .cons (.of_foldCase hw) hl
  · exact (consumes_signed _).bind fun slot _ hslot => consumes_dataType.bind fun t _ ht =>
      consumes_register.map fun dst _ hdst =>
        .cons (.of_foldCase hw) (hslot.append (ht.append hdst))
  · exact consumes_register.bind fun src _ hsrc => (consumes_signed _).bind fun slot _ hslot =>
      consumes_dataType.map fun t _ ht =>
        .cons (.of_foldCase hw) (hsrc.append (hslot.append ht))
  · exact (consumes_signed _).bind fun slot _ hslot => consumes_dataType.bind fun t _ ht =>
      consumes_register.map fun dst _ hdst =>
        .cons (.of_foldCase hw) (hslot.append (ht.append hdst))
  · exact consumes_register.bind fun dst _ hdst => consumes_operation.bind fun op _ hop =>
      consumes_registers.map fun args _ hargs =>
        .cons (.of_foldCase hw) (hdst.append (hop.append hargs))
  · exact consumes_chunk.bind fun c _ hc => consumes_register.bind fun dst _ hdst =>
      consumes_addressing.bind fun mode _ hmode => consumes_registers.map fun args _ hargs =>
        .cons (.of_foldCase hw) (hc.append (hdst.append (hmode.append hargs)))
  · exact consumes_chunk.bind fun c _ hc => consumes_register.bind fun src _ hsrc =>
      consumes_addressing.bind fun mode _ hmode => consumes_registers.map fun args _ hargs =>
        .cons (.of_foldCase hw) (hc.append (hsrc.append (hmode.append hargs)))
  · exact consumes_callee.map fun c _ hc => .cons (.of_foldCase hw) hc
  · exact consumes_callee.map fun c _ hc => .cons (.of_foldCase hw) hc
  · exact consumes_label.map fun l _ hl => .cons (.of_foldCase hw) hl
  · refine consumes_condition.bind fun cond first hcond => consumes_leadingRegisters.bind
      fun args second hargs => consumes_label.map fun l third hl => .cons (.of_foldCase hw) ?_
    have hmatches := (hcond.append hargs).append hl
    rwa [List.append_assoc first second third] at hmatches
  · exact consumes_register.bind fun arg _ harg => (consumes_rest .of_asUnsigned).map
      fun ls _ hls => .cons (.of_foldCase hw) (harg.append hls)
  · exact consumes_pure (.single (.of_foldCase hw))
  · exact consumes_throw _

/-- The head of a function. -/
theorem consumes_functionHead :
    Consumes functionHead fun f taken =>
      Matches (f.signature.places ++ [.keyword, .number, .keyword, .number, .keyword, .number,
          .keyword, .number]) taken
        (f.signature.tokens ++ [.word "frame", Word.token f.frameSize, .word "stack",
          Word.token f.stackSize, .word "link", Word.token f.linkSlot, .word "retaddr",
          Word.token f.returnSlot]) :=
  consumes_signature.bind fun _ _ hsig =>
    (consumes_keyword _).bind fun _ _ h₁ => (consumes_signed _).bind fun _ _ h₂ =>
    (consumes_keyword _).bind fun _ _ h₃ => (consumes_signed _).bind fun _ _ h₄ =>
    (consumes_keyword _).bind fun _ _ h₅ => (consumes_signed _).bind fun _ _ h₆ =>
    (consumes_keyword _).bind fun _ _ h₇ => (consumes_signed _).map fun _ _ h₈ =>
      hsig.append (h₁.append (h₂.append (h₃.append (h₄.append (h₅.append (h₆.append
        (h₇.append h₈)))))))

/-- The operands of a line, behind its name. -/
theorem consumes_lineNamed (hw : foldCase w = name) :
    Consumes (lineNamed name) fun l taken => Matches l.places (.word w :: taken) l.tokens := by
  -- Lines that declare something begin with a keyword and a name.
  have hsymbol : ∀ {name s ps taken us}, foldCase w = name → Matches ps taken us →
      Matches (.keyword :: .symbol :: ps) (.word w :: ([.word s] ++ taken))
        (.word name :: .word s :: us) :=
    fun hname h => .cons (.of_foldCase hname) (.cons (.symbol _) h)
  unfold lineNamed
  split
  · refine (consumes_word _).map fun s _ hs => ?_
    subst hs
    exact hsymbol hw .nil
  · refine (consumes_word _).bind fun s _ hs => consumes_items.map fun init _ hinit => ?_
    subst hs
    exact hsymbol hw hinit
  · refine (consumes_word _).bind fun s _ hs => consumes_signature.map fun sig _ hsig => ?_
    subst hs
    exact hsymbol hw hsig
  · refine (consumes_word _).bind fun s _ hs => consumes_functionHead.map fun f _ hf => ?_
    subst hs
    exact hsymbol hw hf
  · exact consumes_pure (.single (.of_foldCase hw))
  · exact (consumes_instructionNamed hw).map fun i _ hi => hi

/-- A whole line is taken. -/
theorem matches_of_line {left : List Token} (h : line w ts = .ok (l, left)) :
    Matches l.places (.word w :: ts) l.tokens := by
  obtain ⟨⟨l', middle⟩, hl', h⟩ := bind_eq_ok_iff.1 h
  obtain ⟨⟨_, left'⟩, hfinish, h⟩ := bind_eq_ok_iff.1 h
  cases h
  obtain ⟨taken, rfl, htaken⟩ := consumes_lineNamed rfl ts _ middle hl'
  -- Nothing may be left behind the operands.
  cases middle with
  | nil => rwa [List.append_nil]
  | cons t middle => cases hfinish

end LineReader

namespace Line

/-- The tokens from which a line was read match its canonical tokens. -/
theorem matches_of_read (h : read ts = .ok (some l)) : Matches l.places ts l.tokens := by
  cases ts with
  | nil => cases h
  | cons t ts =>
    cases t with
    | word w =>
      obtain ⟨⟨l', left⟩, hline, heq⟩ := map_eq_ok_iff.1 h
      cases heq
      exact LineReader.matches_of_line hline
    | int n => cases h
    | float x => cases h
    | lparen => cases h
    | rparen => cases h
    | arrow => cases h

end Line

/-! ## Canonical text -/

namespace Lexeme

/-- A line break behind a text makes no arrow. -/
theorem not_arrow_newline {c : Char} {cs : List Char}
    (h : ∀ cs', c = '-' → cs = '>' :: cs' → False) :
    ¬ (c = '-' ∧ (cs ++ ['\n']).head? = some '>') := by
  rintro ⟨hc, hhead⟩
  cases cs with
  | nil => exact absurd hhead (by decide)
  | cons c' cs =>
    cases hhead
    exact h cs hc rfl

/-- A line break behind a text adds no lexeme. -/
theorem scan_newline (word cs : List Char) : scan word (cs ++ ['\n']) = scan word cs := by
  fun_induction scan word cs with
  | case1 word => rfl
  | case2 word cs => rfl
  | case3 word cs ih =>
    show close word (.lparen :: scan [] (cs ++ ['\n'])) = _
    rw [ih]
  | case4 word cs ih =>
    show close word (.rparen :: scan [] (cs ++ ['\n'])) = _
    rw [ih]
  | case5 word cs ih =>
    show close word (.arrow :: scan [] (cs ++ ['\n'])) = _
    rw [ih]
  | case6 word c cs hcomment hopen hclose harrow hblank ih =>
    rw [List.cons_append, scan_other hcomment hopen hclose (not_arrow_newline harrow),
      if_pos hblank, ih]
  | case7 word c cs hcomment hopen hclose harrow hblank ih =>
    rw [List.cons_append, scan_other hcomment hopen hclose (not_arrow_newline harrow),
      if_neg hblank, ih]

end Lexeme

namespace Line

/-- The tokens of the canonical text of a line, line breaks and indentation included, are its
canonical tokens. -/
theorem tokenize_toText (h : l.Writable) : tokenize l.toText.toList = .ok l.tokens := by
  -- All lines end with a break. Functions have one in front as well, and instructions are indented.
  have hbreak : ∀ cs : List Char, tokenize (cs ++ ['\n']) = tokenize cs := by
    intro cs
    rw [tokenize, tokenize, Lexeme.scan_newline]
  have htokens := tokenize_renderTokens h.tokens
  cases l with
  | function name f =>
    simp only [toText, String.toList_append]
    exact (hbreak ('\n' :: (renderTokens (Line.function name f).tokens).toList)).trans htokens
  | instruction i =>
    simp only [toText, String.toList_append]
    exact (hbreak (' ' :: ' ' :: (renderTokens i.tokens).toList)).trans
      (tokenize_indented h.tokens)
  | entry | «variable» | external | finish =>
    simp only [toText, String.toList_append]
    exact (hbreak _).trans htokens

/-- No token of a line is ignored. The tokens from which a line was read match its canonical tokens,
which are those of its canonical text, and they match all other tokens from which it is read. -/
theorem tokens_determined (h : read ts = .ok (some l)) :
    Matches l.places ts l.tokens ∧ ts.length = l.tokens.length ∧
      (∀ cs, tokenize cs = .ok ts → tokenize l.toText.toList = .ok l.tokens) ∧
      ∀ ts', read ts' = .ok (some l) → Matches l.places ts ts' := by
  have hmatches := matches_of_read h
  obtain ⟨hlength, hlength'⟩ := hmatches.length_eq
  refine ⟨hmatches, hlength.trans hlength'.symm, fun cs hcs => ?_, fun ts' h' => ?_⟩
  · have hwords : LineReader.WritableWords ts := fun w hw => Token.writable_of_tokenize hcs hw
    exact tokenize_toText (writable_of_read hwords h).1
  · exact hmatches.trans (matches_of_read h').symm

/-- Capital letters, hexadecimal digits and the spelling of doubles are all that is lost of a line.
-/
theorem tokens_determined_variable :
    let text := "VAR X Float64 -nan int8 -0x10 FLOAT32 16 ADDR Sym 4 ; items"
    ∃ ts l, tokenize text.toList = .ok ts ∧ read ts = .ok (some l) ∧
      l.toText = "var X float64 NaN int8 -16 float32 16.0 addr Sym 4\n" ∧
      Matches l.places ts l.tokens ∧ tokenize l.toText.toList = .ok l.tokens := by
  intro text
  have hread : ((tokenize text.toList).toOption.bind fun ts =>
      (read ts).toOption.bind fun l? => l?.map Line.toText) =
      some "var X float64 NaN int8 -16 float32 16.0 addr Sym 4\n" := by decide +kernel
  simp only [Option.bind_eq_some_iff, Option.map_eq_some_iff, toOption_eq_some_iff] at hread
  obtain ⟨ts, hts, l?, hl, l, rfl, htext⟩ := hread
  obtain ⟨hmatches, -, htokens, -⟩ := tokens_determined hl
  exact ⟨ts, l, hts, hl, htext, hmatches, htokens text.toList hts⟩

end Line

end RegisterMachine
