import RegisterMachine.Proofs.Machine.Rules

/-! # Runs of a machine

A run begins in the state that calls the entry point of a loaded program and goes on step by step.
External calls keep a state of their own, so a run goes through pairs of a machine state and a state
of the external calls.

* `Configuration` — such a pair.
* `Machine.next?`, `Machine.after?` — the configuration after a step, and after a number of steps.
* `Program.StartsAt` — the state in which a run of a program begins.
* `Machine.Reached` — the configurations through which the runs of a program go.
* `Machine.Reached.invariant` — what holds at the start and is kept by steps holds throughout.
* `Program.printSeven` — a small program with a call, a tail call and an external call, and
  `Machine.printSeven`, on which it runs.
-/

namespace RegisterMachine

/-- A state of a machine and a state of the external calls. -/
structure Configuration (σ : Type) where
  /-- The state of the machine. -/
  state : State
  /-- The state of the external calls. -/
  host : σ

namespace Machine

variable {σ : Type} {m : Machine σ} {c c' c'' : Configuration σ} {n k : Nat}

/-- The configuration after a step, if the step succeeds. -/
def next? (m : Machine σ) (c : Configuration σ) : Option (Configuration σ) :=
  match m.step c.state c.host with
  | (.ok t, host) => some ⟨t.state, host⟩
  | (.error _, _) => none

/-- The configuration after a number of steps, if all of them succeed. -/
def after? (m : Machine σ) (c : Configuration σ) : (n : Nat) → Option (Configuration σ)
  | 0 => some c
  | n + 1 => (m.after? c n).bind m.next?

/-- A configuration has a next one if a rule leads there. -/
theorem next?_eq_some_iff :
    m.next? c = some c' ↔ ∃ events, m.Takes c.state c.host ⟨events, c'.state⟩ c'.host := by
  obtain ⟨s', host'⟩ := c'
  constructor
  · intro h
    unfold next? at h
    split at h
    · rename_i t host'' hstep
      cases h
      exact ⟨t.events, step_eq_ok_iff.1 hstep⟩
    · cases h
  · rintro ⟨events, h⟩
    simp [next?, step_eq_ok_iff.2 h]

@[simp] theorem after?_zero : m.after? c 0 = some c := rfl

/-- The last of several steps. -/
theorem after?_succ_eq_some_iff :
    m.after? c (n + 1) = some c'' ↔ ∃ c', m.after? c n = some c' ∧ m.next? c' = some c'' := by
  simp [after?, Option.bind_eq_some_iff]

/-- Steps that follow on steps. -/
theorem after?_add : m.after? c (n + k) = (m.after? c n).bind fun c' => m.after? c' k := by
  induction k with
  | zero => simp
  | succ k ih =>
    rw [← Nat.add_assoc, after?, ih, Option.bind_assoc]
    rfl

/-- A run that goes on for some steps has gone through all the configurations before. -/
theorem exists_after?_of_le (hk : k ≤ n) (h : m.after? c n = some c') :
    ∃ c₁, m.after? c k = some c₁ ∧ m.after? c₁ (n - k) = some c' := by
  rw [← Nat.add_sub_of_le hk, after?_add, Option.bind_eq_some_iff] at h
  simpa using h

/-- What steps keep is kept by any number of them. -/
theorem after?_invariant {I : Configuration σ → Prop} (hI : I c)
    (keep : ∀ c c', I c → m.next? c = some c' → I c') (h : m.after? c n = some c') : I c' := by
  induction n generalizing c' with
  | zero =>
    cases h
    exact hI
  | succ n ih =>
    obtain ⟨c₁, hc₁, hnext⟩ := after?_succ_eq_some_iff.1 h
    exact keep c₁ c' (ih hc₁) hnext

end Machine

/-- A run of a program on a machine begins in a state: the program has been loaded, the machine has
its environment, and the state calls the entry point. -/
structure Program.StartsAt {σ : Type} (p : Program) (m : Machine σ) (s : State) : Prop where
  /-- The program has been loaded into the memory of the state. -/
  load : p.load = .ok (m.env, s.mem)
  /-- The state is the first one. -/
  initial : m.env.initialState p.entry s.mem = .ok s

/-- A program that has been loaded starts with the call of its entry point. -/
theorem Program.StartsAt.of_symbol? {σ : Type} {p : Program} {m : Machine σ} {b : BlockId}
    {mem : Memory} (load : p.load = .ok (m.env, mem)) (entry : m.env.symbol? p.entry = some b)
    (function : (m.env.function? b).isSome = true) :
    p.StartsAt m ⟨.calling b, [], .empty, mem⟩ :=
  ⟨load, by simp [Environment.initialState, entry, function]⟩

/-- The first state calls a function, with no callers and every register undefined. -/
theorem Program.StartsAt.eq {σ : Type} {p : Program} {m : Machine σ} {s : State}
    (h : p.StartsAt m s) :
    ∃ b, m.env.symbol? p.entry = some b ∧ (m.env.function? b).isSome = true ∧
      s = ⟨.calling b, [], .empty, s.mem⟩ := by
  have hs := h.initial
  unfold Environment.initialState at hs
  split at hs
  · cases hs
  · rename_i b hb
    split at hs
    · rename_i hf
      exact ⟨b, hb, hf, (Except.ok.inj hs).symm⟩
    · cases hs

namespace Machine

variable {σ : Type} {m : Machine σ} {p : Program} {c c' : Configuration σ}

/-- The configurations through which the runs of a program on a machine go. -/
def Reached (m : Machine σ) (p : Program) (c : Configuration σ) : Prop :=
  ∃ s₀ host₀ n, p.StartsAt m s₀ ∧ m.after? ⟨s₀, host₀⟩ n = some c

namespace Reached

/-- A run goes through its first configuration. -/
theorem start {s : State} (h : p.StartsAt m s) (host : σ) : m.Reached p ⟨s, host⟩ :=
  ⟨s, host, 0, h, rfl⟩

/-- A run goes on with the next configuration. -/
theorem next (h : m.Reached p c) (hnext : m.next? c = some c') : m.Reached p c' := by
  obtain ⟨s₀, host₀, n, hs, hn⟩ := h
  exact ⟨s₀, host₀, n + 1, hs, after?_succ_eq_some_iff.2 ⟨c, hn, hnext⟩⟩

/-- What holds of the first state of every run and is kept by every step from a configuration that
runs go through holds of all the configurations that they go through. -/
theorem invariant {I : State → Prop} (start : ∀ s, p.StartsAt m s → I s)
    (keep : ∀ s host t host', m.Reached p ⟨s, host⟩ → I s → m.Takes s host t host' → I t.state)
    (h : m.Reached p c) : I c.state := by
  obtain ⟨s₀, host₀, n, hs, hn⟩ := h
  have hI : m.Reached p c ∧ I c.state := by
    refine after?_invariant (I := fun c => m.Reached p c ∧ I c.state)
      ⟨.start hs host₀, start s₀ hs⟩ ?_ hn
    rintro c₁ c₂ ⟨hc₁, hI⟩ hnext
    -- That the run gets there goes into the induction, since `keep` asks for it.
    obtain ⟨events, htakes⟩ := next?_eq_some_iff.1 hnext
    exact ⟨hc₁.next hnext, keep _ _ _ _ hc₁ hI htakes⟩
  exact hI.2

/-- The program of a run has been loaded. -/
theorem load (h : m.Reached p c) : ∃ mem, p.load = .ok (m.env, mem) := by
  obtain ⟨s₀, host₀, n, hs, hn⟩ := h
  exact ⟨s₀.mem, hs.load⟩

end Reached

end Machine

/-! ## A small program -/

/-- The entry point puts seven into a register and calls a function that gives up its frame to print
it. -/
def Program.printSeven : Program where
  globals := [
    ("main", .function (.internal {
      signature := .main
      code := #[.op (.intConst 7#32) [] Convention.standard.intResult, .call (.symbol "show"), .ret]
      frameSize := 8#32
      stackSize := 0#32
      linkSlot := 0#32
      returnSlot := 1#32 })),
    ("show", .function (.internal {
      signature := ⟨[.int], some .int⟩
      code := #[.tailCall (.symbol "print_int")]
      frameSize := 8#32
      stackSize := 4#32
      linkSlot := 1#32
      returnSlot := 0#32 })),
    ("print_int", .function (.external ⟨"print_int", ⟨[.int], some .int⟩⟩))]
  entry := "main"

/-- The machine with the host primitives on which `Program.printSeven` runs. -/
def Machine.printSeven : Machine Unit :=
  ⟨⟨Program.printSeven.globals.toArray⟩, .standard, .codeOffset, .host⟩

/-- The first state of `Program.printSeven`: each of its functions has an empty block. -/
def State.printSeven : State :=
  ⟨.calling 1, [], .empty, ⟨Array.replicate 3 (some (.fresh 0 0))⟩⟩

/-- The program runs on its machine from its first state. -/
theorem Program.startsAt_printSeven :
    Program.printSeven.StartsAt Machine.printSeven State.printSeven :=
  .of_symbol? rfl (by decide +kernel) rfl

end RegisterMachine
