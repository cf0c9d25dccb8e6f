import RegisterMachine.Proofs.Check.Order
import RegisterMachine.Proofs.Machine.Linkage

/-! # Outgoing areas

Arguments for which there are no registers lie at the low end of the caller's frame. The checks see
to it, call by call, that the caller has room for them clear of its reserved slots, and that a tail
call passes none. So long as calls go to functions by name, whoever is called finds the room that
its signature asks for in the frame of its innermost caller, however control got there, and nothing
that is read there can fail.

* `Convention.endSlot_le_outgoingWords` — arguments lie in the outgoing area.
* `SlotByte` — the bytes of a slot.
* `Function.HasOutgoing` — a frame has room for an outgoing area.
* `CallStack.Serves` — the innermost caller has room for the arguments of a call.
* `State.ArgumentsServed` — callers have room for the arguments of what they called; steps keep
  this.
* `Machine.outgoing_areas_safe` — arguments in outgoing areas can be read.
-/

namespace RegisterMachine

variable {env : Environment} {p : Program} {conv : Convention} {name callee : String}
  {f : Function} {func b b' : BlockId} {sp : Value} {pc words : Nat} {stack : CallStack}
  {regs : RegisterFile} {mem mem' : Memory} {s s' : State} {sig : Signature} {slot : Word}
  {t : DataType} {x : Int}

/-! ## Conventions -/

/-- The greatest of numbers is not less than any of them, nor than the one that it began with. -/
theorem le_foldl_max {l : List Nat} {n : Nat} :
    n ≤ l.foldl max n ∧ ∀ k ∈ l, k ≤ l.foldl max n := by
  induction l generalizing n with
  | nil => simp
  | cons k l ih =>
    obtain ⟨hfirst, hrest⟩ := ih (n := max n k)
    rw [List.foldl_cons]
    refine ⟨Nat.le_trans (Nat.le_max_left n k) hfirst, fun k' hk' => ?_⟩
    rcases List.mem_cons.1 hk' with rfl | hk'
    · exact Nat.le_trans (Nat.le_max_right n k') hfirst
    · exact hrest k' hk'

/-- Arguments lie within the words of the outgoing area. -/
theorem Convention.endSlot_le_outgoingWords {l : Location} (h : l ∈ conv.locations sig) :
    l.endSlot ≤ conv.outgoingWords sig :=
  le_foldl_max.2 _ (List.mem_map_of_mem h)

/-! ## Slots -/

/-- A byte belongs to the slot of a type at a word offset from a stack pointer. -/
def SlotByte (sp : Value) (t : DataType) (slot : Word) (b : BlockId) (x : Int) : Prop :=
  ∃ o, slotAddress sp slot = .ok (.ptr b o) ∧ o.toInt ≤ x ∧ x < o.toInt + t.slotChunk.size

/-- A frame has room for an outgoing area of a number of words at its low end, below the reserved
slots. -/
structure Function.HasOutgoing (f : Function) (words : Nat) : Prop where
  /-- The frame has as many words. -/
  le_frameSize : (words : Int) * 4 ≤ f.frameSize.toInt
  /-- The link slot lies above. -/
  le_link : (words : Int) ≤ f.linkSlot.toInt
  /-- The return-address slot lies above. -/
  le_return : (words : Int) ≤ f.returnSlot.toInt

/-- A reserved slot that is clear of arguments does not lie in their area. -/
theorem Function.overlapViolations_eq_nil_iff {which : ReservedSlot} :
    f.overlapViolations name pc callee words which = [] ↔
      ¬ (0 ≤ (f.reservedSlot which).toInt ∧ (f.reservedSlot which).toInt < words) :=
  singleton_ite_eq_nil_iff

/-- A call without violations has room for its arguments. -/
theorem Program.Accepts.hasOutgoing (h : p.Accepts conv name f)
    (hcall : f.callViolations name pc callee words = []) (hwords : words ≠ 0) :
    f.HasOutgoing words := by
  have hlink := h.link_fits
  have hreturn := h.return_fits
  simp only [Function.slotFits, Bool.and_eq_true, decide_eq_true_eq] at hlink hreturn
  simp only [Function.callViolations, if_neg hwords, List.append_eq_nil_iff,
    Function.overlapViolations_eq_nil_iff, Function.reservedSlot, singleton_ite_eq_nil_iff] at hcall
  exact ⟨by omega, by omega, by omega⟩

namespace Environment.FrameAt

/-- Slots within an outgoing area can be read, and their bytes lie at the low end of the frame. -/
theorem read_outgoing (hat : env.FrameAt mem func sp f b) (ha : p.Accepts conv name f)
    (harea : f.HasOutgoing words) (hnonneg : 0 ≤ slot.toInt) (hle : slot.toInt + t.words ≤ words) :
    (∃ v, mem.loadSlot sp t slot = .ok v) ∧
      ∀ b' x, SlotByte sp t slot b' x →
        b' = b ∧ -f.frameSize.toInt ≤ x ∧ x < -f.frameSize.toInt + 4 * words := by
  have hsize := harea.le_frameSize
  have hfits : f.slotFits slot t = true := by
    simp only [Function.slotFits, Bool.and_eq_true, decide_eq_true_eq]
    omega
  refine ⟨hat.loadSlot_isOk ha hfits, ?_⟩
  rintro b' x ⟨o, haddress, hlo, hhi⟩
  rw [hat.sp_eq, Function.frameSp, slotAddress_ptr] at haddress
  cases haddress
  rw [ha.toInt_slotOffset hfits] at hlo hhi
  rw [Chunk.size_slotChunk] at hhi
  push_cast at hhi
  exact ⟨rfl, by omega, by omega⟩

/-- Bytes of an outgoing area belong to no reserved slot. -/
theorem not_reservedByte (hat : env.FrameAt mem func sp f b) (ha : p.Accepts conv name f)
    (harea : f.HasOutgoing words) (hx : x < -f.frameSize.toInt + 4 * words) :
    ¬ f.ReservedByte sp b' x := by
  rintro ⟨slot, o, hslot, haddress, hlo, -⟩
  rw [hat.sp_eq, Function.frameSp, slotAddress_ptr] at haddress
  cases haddress
  have hlink := harea.le_link
  have hreturn := harea.le_return
  rcases hslot with rfl | rfl
  · rw [ha.toInt_slotOffset ha.link_fits] at hlo
    omega
  · rw [ha.toInt_slotOffset ha.return_fits] at hlo
    omega

end Environment.FrameAt

/-! ## Calls -/

/-- All calls of a program name their callees. -/
def Program.CallsByName (p : Program) : Prop :=
  ∀ name f, (name, .function (.internal f)) ∈ p.globals → ∀ (pc : Nat) (r : Register),
    f.code[pc]? ≠ some (.call (.register r)) ∧ f.code[pc]? ≠ some (.tailCall (.register r))

/-- The checks know what a call by name passes to the function where it goes. -/
theorem Program.Loads.outgoingWords?_of_resolve {d : FunctionDef} (h : p.Loads env mem)
    (hresolve : env.resolve regs (.symbol callee) = .ok b) (hd : env.function? b = some d) :
    p.outgoingWords? conv callee = some (conv.outgoingWords d.signature) := by
  have hsymbol : env.symbol? callee = some b := by
    simp only [Environment.resolve] at hresolve
    split at hresolve
    · cases hresolve
    · rename_i b' hb'
      split at hresolve <;> cases hresolve
      exact hb'
  obtain ⟨i, g, rfl, hi, -⟩ := Environment.symbol?_eq_some_iff.1 hsymbol
  obtain ⟨_, name, heq, hi'⟩ := Environment.function?_eq_some_iff.1 hd
  cases heq
  rw [hi, Option.some.injEq, Prod.mk.injEq] at hi'
  obtain ⟨-, rfl⟩ := hi'
  -- Names are distinct, so the first global of the name is that of the block.
  rw [h.globals, List.getElem?_toArray] at hi
  have hfind : (p.globals.find? fun g => g.1 = callee) = some (callee, .function d) :=
    (find?_name_eq_some_iff h.nodup).2 ⟨List.mem_of_getElem? hi, rfl⟩
  simp only [outgoingWords?, global?, hfind, Option.map_some]

variable (env) in
/-- The innermost caller of a function has room for its outgoing area, where it has one. -/
inductive CallStack.Serves : CallStack → (words : Nat) → Prop where
  /-- There is no outgoing area. -/
  | none {stack : CallStack} : Serves stack 0
  /-- The outgoing area lies in the frame of the innermost caller. -/
  | area {a : Activation} {rest : CallStack} {f : Function} {words : Nat}
      (function : env.function? a.func = some (.internal f)) (room : f.HasOutgoing words) :
      Serves (a :: rest) words

/-- An outgoing area that a frame has room for is small enough for offsets. -/
theorem CallStack.Serves.words_lt (h : stack.Serves env words) : words < 2147483648 := by
  cases h with
  | none => exact Nat.zero_lt_succ _
  | @area a rest f words function room =>
    have hsize := room.le_frameSize
    have hlt : f.frameSize.toInt < 2147483648 := f.frameSize.toInt_lt
    omega

/-- What a call passes on the stack has room in the frame of the caller, and a tail call passes
nothing there. -/
theorem CallStack.serves_of_executes {addresses : ReturnAddresses} {i : Instruction}
    {d : FunctionDef} (hloads : p.Loads env mem) (ha : p.Accepts conv name f)
    (function : env.function? func = some (.internal f)) (fetch : f.code[pc]? = some i)
    (hnamed : ∀ r, i ≠ .call (.register r) ∧ i ≠ .tailCall (.register r))
    (executes : Executes env addresses f func sp pc stack regs mem' i s')
    (hcontrol : s'.control = .calling b) (hd : env.function? b = some d) :
    s'.stack.Serves env (conv.outgoingWords d.signature) := by
  have houtgoing := ha.outgoing pc i fetch
  cases executes with
  | @call callee _ _ resolved returns =>
    cases hcontrol
    cases callee with
    | register r => exact absurd rfl (hnamed r).1
    | symbol symbol =>
      simp only [Program.outgoingViolations, hloads.outgoingWords?_of_resolve resolved hd]
        at houtgoing
      by_cases hwords : conv.outgoingWords d.signature = 0
      · rw [hwords]
        exact .none
      · exact .area function (ha.hasOutgoing houtgoing hwords)
  | @tailCall callee _ _ resolved released =>
    cases hcontrol
    cases callee with
    | register r => exact absurd rfl (hnamed r).2
    | symbol symbol =>
      simp only [Program.outgoingViolations, hloads.outgoingWords?_of_resolve resolved hd,
        Function.tailCallViolations, ite_singleton_eq_nil_iff] at houtgoing
      rw [houtgoing]
      exact .none
  | _ => cases hcontrol

/-- Callers have room for the arguments of what they called: of a function that is about to be
entered, and of every function that has a frame. -/
structure State.ArgumentsServed (env : Environment) (conv : Convention) (s : State) : Prop where
  /-- The callee of a call is served. -/
  callee : ∀ b d, s.control = .calling b → env.function? b = some d →
    s.stack.Serves env (conv.outgoingWords d.signature)
  /-- The function of a frame is served. -/
  frame : ∀ func sp stack f, s.HasFrame func sp stack → env.function? func = some (.internal f) →
    stack.Serves env (conv.outgoingWords f.signature)

namespace State.ArgumentsServed

variable {σ : Type} {m : Machine σ}

/-- A run begins with the call of a function that has no arguments. -/
theorem of_startsAt (hwf : p.WellFormed conv) (h : p.StartsAt m s) :
    s.ArgumentsServed m.env conv := by
  have hloads := Program.loads_of_load h.load
  obtain ⟨b, hb, -, heq⟩ := h.eq
  obtain ⟨f, hmem, hmain⟩ := hwf.entry
  obtain ⟨b', hb', hf⟩ := hloads.function?_symbol?_of_mem hmem
  obtain rfl : b = b' := Option.some.inj (hb.symm.trans hb')
  rw [heq]
  refine ⟨fun b'' d hcontrol hd => ?_, fun func sp stack f' hframe => ?_⟩
  · cases hcontrol
    rw [hf, Option.some.injEq] at hd
    subst hd
    rw [show FunctionDef.signature (.internal f) = .main from hmain]
    exact .none
  · cases hframe.mem_frames

/-- Steps of a well-formed program that calls functions by name keep their callees served. -/
theorem of_takes {host host' : σ} {t : Transition} (hwf : p.WellFormed conv)
    (hnames : p.CallsByName) (hloads : p.Loads m.env mem) (h : s.ArgumentsServed m.env conv)
    (htakes : m.Takes s host t host') : t.state.ArgumentsServed m.env conv := by
  constructor
  · intro b d hcontrol hd
    cases htakes with
    | silent step =>
      cases step with
      | execute function fetch executes =>
        obtain ⟨name, hmem⟩ := hloads.mem_of_function? function
        refine CallStack.serves_of_executes hloads (hwf.accepts hmem) function fetch
          (fun r => ?_) executes hcontrol hd
        constructor
        · rintro rfl
          exact (hnames name _ hmem _ r).1 fetch
        · rintro rfl
          exact (hnames name _ hmem _ r).2 fetch
      | enter function entered => cases hcontrol
      | resume => cases hcontrol
    | external call arguments result => cases hcontrol
  · intro func sp stack f hframe hf
    rcases hframe.of_takes htakes with hbefore | ⟨hcalling, -, rfl, -⟩
    · exact h.frame func sp stack f hbefore hf
    · -- The function has just been entered, so it was served as the callee of a call.
      exact h.callee func (.internal f) hcalling hf

/-- Throughout a run of a well-formed program that calls functions by name they are served. -/
theorem of_reached {c : Configuration σ} (hwf : p.WellFormed conv) (hnames : p.CallsByName)
    (h : m.Reached p c) : c.state.ArgumentsServed m.env conv := by
  obtain ⟨mem, hload⟩ := h.load
  exact h.invariant (fun _ => of_startsAt hwf) fun _ _ _ _ _ hs htakes =>
    hs.of_takes hwf hnames (Program.loads_of_load hload) htakes

end State.ArgumentsServed

/-! ## Reading arguments -/

/-- A slot lies in the outgoing area of the innermost caller: its bytes are among as many words as
the area has at the low end of the caller's frame, and none of them belongs to a reserved slot. -/
def State.InOutgoingArea (env : Environment) (s : State) (words : Nat) (t : DataType)
    (slot : Word) : Prop :=
  ∃ a rest f frame, s.stack = a :: rest ∧ env.FrameAt s.mem a.func a.sp f frame ∧
    ∀ b x, SlotByte a.sp t slot b x → b = frame ∧ -f.frameSize.toInt ≤ x ∧ x < 0 ∧
      x < -f.frameSize.toInt + 4 * words ∧ ¬ f.ReservedByte a.sp b x

/-- The arguments of a call can be read if those in the outgoing area can. -/
theorem Convention.arguments_isOk
    (h : ∀ n t, .outgoing n t ∈ conv.locations sig →
      ∃ v, mem.loadSlot sp t (BitVec.ofNat 32 n) = .ok v) :
    ∃ args, conv.arguments sig regs mem sp = .ok args := by
  cases hargs : conv.arguments sig regs mem sp with
  | ok args => exact ⟨args, rfl⟩
  | error e =>
    obtain ⟨l, hl, hread⟩ := exists_mem_of_mapM_eq_error hargs
    cases l with
    | register r => cases hread
    | outgoing n t =>
      obtain ⟨v, hv⟩ := h n t hl
      rw [show mem.loadSlot sp t (BitVec.ofNat 32 n) = .error e from hread] at hv
      cases hv

namespace Machine

variable {σ : Type} {m : Machine σ} {c : Configuration σ}

/-- Slots within the outgoing area that serves a function can be read. -/
theorem Reached.read_of_serves (h : m.Reached p c) (hwf : p.WellFormed conv)
    (hserves : c.state.stack.Serves m.env words) (hnonneg : 0 ≤ slot.toInt)
    (hle : slot.toInt + t.words ≤ words) :
    (∃ v, c.state.mem.loadSlot c.state.stack.callerSp t slot = .ok v) ∧
      c.state.InOutgoingArea m.env words t slot := by
  generalize hstack : c.state.stack = stack at hserves
  cases hserves with
  | none =>
    -- A slot has at least one word, and there is none.
    cases t <;> simp only [DataType.words] at hle <;> omega
  | @area a rest f words function room =>
    obtain ⟨mem₀, hload⟩ := h.load
    obtain ⟨name, ha⟩ := hwf.accepts_of_function? (Program.loads_of_load hload) function
    have hframe : c.state.HasFrame a.func a.sp rest := .suspended (hstack ▸ List.suffix_refl _)
    obtain ⟨f', b, hat⟩ := (State.FrameDiscipline.of_reached h).framed _ hframe.mem_frames
    obtain rfl := hat.function_eq function
    obtain ⟨hread, hbytes⟩ := hat.read_outgoing ha room hnonneg hle
    refine ⟨hread, a, rest, f, b, hstack, hat, fun b' x hx => ?_⟩
    obtain ⟨hb, hlo, hhi⟩ := hbytes b' x hx
    have hsize := room.le_frameSize
    exact ⟨hb, hlo, by omega, hhi, hat.not_reservedByte ha room hhi⟩

/-- Arguments in outgoing areas can be read. In every run of a program that is well formed under the
convention of the machine and calls functions by name only, whatever the return addresses and the
external calls:

* the arguments of an external call can be gathered, and those on the stack are read from the frame
  of the innermost caller, from none of its reserved slots;
* a function that asks for a parameter within the outgoing area of its signature, while its link
  slot holds the stack pointer of the innermost caller, gets it from the outgoing area of this
  caller. -/
theorem outgoing_areas_safe (hwf : p.WellFormed m.convention) (hnames : p.CallsByName)
    (h : m.Reached p c) :
    (∀ ef, m.env.externalCall? c.state = some ef →
      (∃ args, m.convention.arguments ef.signature c.state.regs c.state.mem
        c.state.stack.callerSp = .ok args) ∧
      ∀ n t, .outgoing n t ∈ m.convention.locations ef.signature →
        c.state.InOutgoingArea m.env (m.convention.outgoingWords ef.signature) t
          (BitVec.ofNat 32 n)) ∧
    ∀ func sp pc f slot t dst, c.state.control = .running func sp pc →
      m.env.function? func = some (.internal f) →
      f.code[pc]? = some (.getParam slot t dst) →
      slot.toInt + t.words ≤ m.convention.outgoingWords f.signature →
      c.state.mem.loadSlot sp .int f.linkSlot = .ok c.state.stack.callerSp →
      (∃ t', (m.step c.state c.host).1 = .ok t') ∧
      c.state.InOutgoingArea m.env (m.convention.outgoingWords f.signature) t slot := by
  have hserved := State.ArgumentsServed.of_reached hwf hnames h
  refine ⟨fun ef hcall => ?_, fun func sp pc f slot t dst hcontrol hf hfetch hle hlink => ?_⟩
  · obtain ⟨b, hcontrol, hef⟩ := Environment.exists_of_externalCall? hcall
    have hserves : c.state.stack.Serves m.env (m.convention.outgoingWords ef.signature) :=
      hserved.callee b _ hcontrol hef
    have hread : ∀ n t, .outgoing n t ∈ m.convention.locations ef.signature →
        (∃ v, c.state.mem.loadSlot c.state.stack.callerSp t (BitVec.ofNat 32 n) = .ok v) ∧
          c.state.InOutgoingArea m.env (m.convention.outgoingWords ef.signature) t
            (BitVec.ofNat 32 n) := by
      intro n t hmem
      have hend : n + t.words ≤ _ := Convention.endSlot_le_outgoingWords hmem
      have hlt := hserves.words_lt
      have hslot : (BitVec.ofNat 32 n).toInt = n := by
        rw [BitVec.toInt_ofNat']
        exact Int.bmod_eq_of_le (by omega) (by omega)
      exact h.read_of_serves hwf hserves (by omega) (by omega)
    exact ⟨Convention.arguments_isOk fun n t hmem => (hread n t hmem).1,
      fun n t hmem => (hread n t hmem).2⟩
  · obtain ⟨mem₀, hload⟩ := h.load
    obtain ⟨name, ha⟩ := hwf.accepts_of_function? (Program.loads_of_load hload) hf
    have hnonneg : 0 ≤ slot.toInt := by
      have hslot := ha.slots pc _ hfetch
      simpa only [Function.slotViolations, singleton_ite_eq_nil_iff, Int.not_lt] using hslot
    have hserves := hserved.frame func sp _ f (.current hcontrol) hf
    obtain ⟨⟨v, hread⟩, harea⟩ := h.read_of_serves hwf hserves hnonneg hle
    refine ⟨?_, harea⟩
    obtain ⟨⟨control, stack, regs, mem⟩, host⟩ := c
    simp only at hcontrol
    subst hcontrol
    have hstep : m.Takes ⟨.running func sp pc, stack, regs, mem⟩ host _ host :=
      .silent (.execute hf hfetch (.getParam hlink hread))
    exact ⟨_, congrArg Prod.fst (step_eq_ok_iff.2 hstep)⟩

end Machine

/-! ## A program that passes an argument on the stack -/

/-- The entry point passes seven on the stack to a function that hands it on to the external
function that prints. -/
def Program.passSeven : Program where
  globals := [
    ("main", .function (.internal {
      signature := .main
      code := #[.op (.intConst 7#32) [] Convention.standard.intResult,
        .setStack Convention.standard.intResult 0#32 .int, .call (.symbol "show"), .ret]
      frameSize := 12#32
      stackSize := 0#32
      linkSlot := 1#32
      returnSlot := 2#32 })),
    ("show", .function (.internal {
      signature := ⟨[.int], some .int⟩
      code := #[.getParam 0#32 .int Convention.standard.intResult,
        .setStack Convention.standard.intResult 0#32 .int, .call (.symbol "print_int"), .ret]
      frameSize := 12#32
      stackSize := 0#32
      linkSlot := 1#32
      returnSlot := 2#32 })),
    ("print_int", .function (.external ⟨"print_int", ⟨[.int], some .int⟩⟩))]
  entry := "main"

/-- The machine on which `Program.passSeven` runs. There are no registers for arguments. -/
def Machine.passSeven : Machine Unit :=
  ⟨⟨Program.passSeven.globals.toArray⟩, .withIntParams 0, .codeOffset, .host⟩

/-- The first state of `Program.passSeven` is that of `Program.printSeven`: there are as many
functions. -/
theorem Program.startsAt_passSeven : Program.passSeven.StartsAt Machine.passSeven .printSeven :=
  .of_symbol? rfl (by decide +kernel) rfl

/-- `Program.passSeven` calls its functions by name. -/
theorem Program.callsByName_passSeven : Program.passSeven.CallsByName := by
  intro name f hmem pc r
  simp only [passSeven, List.mem_cons, Prod.mk.injEq, Global.function.injEq,
    FunctionDef.internal.injEq, reduceCtorEq, and_false, List.not_mem_nil, or_false] at hmem
  rcases hmem with ⟨-, rfl⟩ | ⟨-, rfl⟩ <;> constructor <;> intro hget <;>
    simpa using Array.mem_of_getElem? hget

namespace Machine

/-- In `Program.passSeven` the parameter of the function that is called can be read, and so can the
argument of the external function that is called from there. -/
theorem outgoing_areas_safe_passSeven : ∃ c c' : Configuration Unit,
    Program.passSeven.WellFormed Machine.passSeven.convention ∧ Program.passSeven.CallsByName ∧
    Machine.passSeven.Reached Program.passSeven c ∧
    Machine.passSeven.Reached Program.passSeven c' ∧
    c.state.instruction? Machine.passSeven.env =
      some (.getParam 0#32 .int Convention.standard.intResult) ∧
    (∃ t, (Machine.passSeven.step c.state c.host).1 = .ok t) ∧
    Machine.passSeven.env.externalCall? c'.state = some ⟨"print_int", ⟨[.int], some .int⟩⟩ ∧
    ∃ args, Machine.passSeven.convention.arguments ⟨[.int], some .int⟩ c'.state.regs c'.state.mem
      c'.state.stack.callerSp = .ok args := by
  have hsome : (Machine.passSeven.after? ⟨State.printSeven, ()⟩ 8).isSome = true := by
    decide +kernel
  obtain ⟨c', hc'⟩ := Option.isSome_iff_exists.1 hsome
  obtain ⟨c, hc, -⟩ := exists_after?_of_le (k := 5) (by decide) hc'
  have hshape : (Machine.passSeven.after? ⟨State.printSeven, ()⟩ 5).map
      (fun c => (c.state.control, (c.state.mem.loadSlot (.ptr 5 (-12#32)) .int 1#32).toOption,
        c.state.stack.callerSp)) =
        some (.running 2 (.ptr 5 (-12#32)) 0, some (.ptr 4 (-12#32)), .ptr 4 (-12#32)) := by
    decide +kernel
  rw [hc, Option.map_some, Option.some.injEq, Prod.mk.injEq, Prod.mk.injEq] at hshape
  obtain ⟨hcontrol, hlink, hcaller⟩ := hshape
  have hcall : (Machine.passSeven.after? ⟨State.printSeven, ()⟩ 8).map
      (fun c => Machine.passSeven.env.externalCall? c.state) =
        some (some ⟨"print_int", ⟨[.int], some .int⟩⟩) := by
    decide +kernel
  rw [hc', Option.map_some, Option.some.injEq] at hcall
  have hwf : Program.passSeven.WellFormed Machine.passSeven.convention := by decide +kernel
  have hreached : Machine.passSeven.Reached Program.passSeven c :=
    ⟨State.printSeven, (), 5, Program.startsAt_passSeven, hc⟩
  have hreached' : Machine.passSeven.Reached Program.passSeven c' :=
    ⟨State.printSeven, (), 8, Program.startsAt_passSeven, hc'⟩
  have hparam := (outgoing_areas_safe hwf Program.callsByName_passSeven hreached).2 2
    (.ptr 5 (-12#32)) 0 _ 0#32 .int Convention.standard.intResult hcontrol rfl rfl (by decide)
    ((toOption_eq_some_iff.1 hlink).trans (congrArg Except.ok hcaller.symm))
  have hargs := (outgoing_areas_safe hwf Program.callsByName_passSeven hreached').1 _ hcall
  refine ⟨c, c', hwf, Program.callsByName_passSeven, hreached, hreached', ?_, hparam.1, hcall,
    hargs.1⟩
  rw [State.instruction?, hcontrol]
  rfl

end Machine

end RegisterMachine
