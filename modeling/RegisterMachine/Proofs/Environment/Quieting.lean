import RegisterMachine.Proofs.Assembly.RoundTrip
import RegisterMachine.Proofs.Environment.Loading
import RegisterMachine.Proofs.Memory.Agreement

/-! # Loading quieted programs

A program in which every not-a-number is the same one has the symbols, the functions and the sizes
of the original program. It is loaded into the same memory, but for the bytes of those items of
initial contents that have changed.

* `InitialData.ChangedAt`, `Program.ChangedAt` — the bytes of these items.
* `Program.symbol?_quieted`, `Program.function?_quieted` — the environment of the program.
* `Environment.storeItems_quieted`, `Environment.fillVariables_quieted` — filling blocks with the
  items of both programs.
* `Program.load_quieted` — both programs are loaded, or both are refused for the same reason.
-/

namespace RegisterMachine

/-! ## Bytes that change -/

namespace InitialData

/-- Quieting an item does not change its size. -/
@[simp] theorem size_quieted (item : InitialData) : item.quieted.size = item.size := by
  cases item <;> rfl

/-- Quieting items does not change their size. -/
@[simp] theorem totalSize_map_quieted (items : List InitialData) :
    totalSize (items.map quieted) = totalSize items := by
  induction items with
  | nil => rfl
  | cons item items ih => rw [List.map_cons, totalSize, totalSize, size_quieted, ih]

/-- Whether the byte at `x` belongs to an item that quieting changes, where items lie one after the
other from an offset on. -/
def ChangedAt : (offset : Nat) → List InitialData → (x : Int) → Prop
  | _, [], _ => False
  | offset, item :: items, x =>
    (item.quieted ≠ item ∧ (offset : Int) ≤ x ∧ x < offset + item.size) ∨
      ChangedAt (offset + item.size) items x

end InitialData

/-- Whether quieting changes the byte at `x` of the block of a global. -/
def Global.ChangedAt (g : Global) (x : Int) : Prop :=
  ∃ init, g = .variable init ∧ InitialData.ChangedAt 0 init x

/-- Whether quieting a program changes the byte at `x` of a block when the program is loaded. -/
def Program.ChangedAt (p : Program) (b : BlockId) (x : Int) : Prop :=
  ∃ (i : Nat) (name : String) (g : Global),
    b = 1 + i ∧ p.globals[i]? = some (name, g) ∧ g.ChangedAt x

/-! ## The environment -/

/-- The function, with or without code, with one not-a-number for all of them. -/
def FunctionDef.quieted : FunctionDef → FunctionDef
  | .internal f => .internal f.quieted
  | .external ef => .external ef

/-- Quieting a global does not change the size of its block. -/
theorem Environment.blockSize_quieted (name : String) (g : Global) :
    blockSize name g.quieted = blockSize name g := by
  cases g with
  | «variable» init => simp only [Global.quieted, blockSize, InitialData.totalSize_map_quieted]
  | function d => cases d <;> rfl

/-- Quieting globals does not change how their blocks are allocated. -/
theorem Environment.allocate_quieted (m : Memory) (taken : List String)
    (gs : List (String × Global)) :
    allocate m taken (gs.map fun g => (g.1, g.2.quieted)) = allocate m taken gs := by
  induction gs generalizing m taken with
  | nil => rfl
  | cons g gs ih => simp only [List.map_cons, allocate, blockSize_quieted, ih]

namespace Program

variable (p : Program)

/-- The globals of a quieted program are those of the program, quieted. -/
theorem globals_environment_quieted :
    p.quieted.environment.globals = p.environment.globals.map fun g => (g.1, g.2.quieted) := by
  rw [environment, environment, quieted, List.map_toArray]

/-- Quieting changes no name, so every symbol keeps its block. -/
theorem symbol?_quieted (name : String) :
    p.quieted.environment.symbol? name = p.environment.symbol? name := by
  rw [Environment.symbol?, Environment.symbol?, globals_environment_quieted, Array.findIdx?_map]
  rfl

/-- A block belongs to the same global, quieted. -/
theorem entry?_quieted (b : BlockId) :
    p.quieted.environment.entry? b =
      (p.environment.entry? b).map fun g => (g.1, g.2.quieted) := by
  cases b with
  | zero => rfl
  | succ i =>
    rw [Environment.entry?_succ, Environment.entry?_succ, globals_environment_quieted,
      Array.getElem?_map]

/-- A block identifies the same function, quieted. -/
theorem function?_quieted (b : BlockId) :
    p.quieted.environment.function? b =
      (p.environment.function? b).map FunctionDef.quieted := by
  rw [Environment.function?, Environment.function?, entry?_quieted]
  rcases p.environment.entry? b with _ | ⟨name, d | init⟩
  · rfl
  · cases d <;> rfl
  · rfl

end Program

/-! ## Initial contents -/

namespace Environment

variable {env env' : Environment} {m m' : Memory} {b : BlockId} {offset : Nat}
  {D : BlockId → Int → Prop}

/-- Zero bytes are written in the same way. -/
theorem storeZeros_agreeOutside {count : Nat} (h : m.AgreeOutside D m') :
    Corresponds id (Memory.AgreeOutside D) (storeZeros m b offset count)
      (storeZeros m' b offset count) := by
  induction count generalizing m m' offset with
  | zero => exact .ok h
  | succ count ih =>
    rw [storeZeros_succ, storeZeros_succ]
    exact (h.store (.inl rfl)).bind fun m₁ m₁' h₁ => ih h₁

/-- An item is written in the same way, but for its own bytes if quieting changes it. -/
theorem storeItem_quieted (henv : ∀ name, env'.symbol? name = env.symbol? name) {item : InitialData}
    (h : m.AgreeOutside D m')
    (hD : item.quieted ≠ item → ∀ x : Int, offset ≤ x → x < offset + item.size → D b x) :
    Corresponds id (Memory.AgreeOutside D) (env.storeItem m b offset item)
      (env'.storeItem m' b offset item.quieted) := by
  cases item with
  | int8 n => exact (h.store (.inl rfl)).mapError fun _ => rfl
  | int16 n => exact (h.store (.inl rfl)).mapError fun _ => rfl
  | int32 n => exact (h.store (.inl rfl)).mapError fun _ => rfl
  | space count => exact (storeZeros_agreeOutside h).mapError fun _ => rfl
  | float32 x =>
    -- Either the same double is written, or the bytes of this item may differ.
    refine (h.store ?_).mapError fun _ => rfl
    by_cases hx : x.quieted = x
    · exact .inl (by rw [hx])
    · exact .inr (hD fun heq => hx (InitialData.float32.inj heq))
  | float64 x =>
    refine (h.store ?_).mapError fun _ => rfl
    by_cases hx : x.quieted = x
    · exact .inl (by rw [hx])
    · exact .inr (hD fun heq => hx (InitialData.float64.inj heq))
  | address symbol delta =>
    simp only [InitialData.quieted, storeItem, address?, henv]
    cases env.symbol? symbol with
    | none => exact .error (LoadError.unknownSymbol symbol)
    | some a => exact (h.store (.inl rfl)).mapError fun _ => rfl

/-- Items are written in the same way, but for the bytes of those that quieting changes. -/
theorem storeItems_quieted (henv : ∀ name, env'.symbol? name = env.symbol? name)
    {items : List InitialData} (h : m.AgreeOutside D m')
    (hD : ∀ x, InitialData.ChangedAt offset items x → D b x) :
    Corresponds id (Memory.AgreeOutside D) (env.storeItems m b offset items)
      (env'.storeItems m' b offset (items.map .quieted)) := by
  induction items generalizing m m' offset with
  | nil => exact .ok h
  | cons item items ih =>
    rw [List.map_cons, storeItems_cons, storeItems_cons, InitialData.size_quieted]
    have hitem := storeItem_quieted henv h fun hne x hlo hhi => hD x (.inl ⟨hne, hlo, hhi⟩)
    exact hitem.bind fun m₁ m₁' h₁ => ih h₁ fun x hx => hD x (.inr hx)

/-- The block of a global is filled in the same way, but for the bytes that quieting changes. -/
theorem fillBlock_quieted (henv : ∀ name, env'.symbol? name = env.symbol? name) {g : Global}
    (h : m.AgreeOutside D m') (hD : ∀ x, g.ChangedAt x → D b x) :
    Corresponds id (Memory.AgreeOutside D) (env.fillBlock m b g)
      (env'.fillBlock m' b g.quieted) := by
  cases g with
  | «variable» init => exact storeItems_quieted henv h fun x hx => hD x ⟨init, rfl, hx⟩
  | function d => cases d <;> exact .ok h

/-- Variables are filled in the same way, but for the bytes that quieting changes. -/
theorem fillVariables_quieted (henv : ∀ name, env'.symbol? name = env.symbol? name)
    {gs : List (String × Global)} (h : m.AgreeOutside D m')
    (hD : ∀ (i : Nat) name g, gs[i]? = some (name, g) → ∀ x, g.ChangedAt x → D (b + i) x) :
    Corresponds id (Memory.AgreeOutside D) (env.fillVariables m b gs)
      (env'.fillVariables m' b (gs.map fun g => (g.1, g.2.quieted))) := by
  induction gs generalizing m m' b with
  | nil => exact .ok h
  | cons g gs ih =>
    obtain ⟨name, g⟩ := g
    rw [List.map_cons, fillVariables_cons, fillVariables_cons]
    refine (fillBlock_quieted henv h (hD 0 name g rfl)).bind fun m₁ m₁' h₁ => ?_
    refine ih h₁ fun i name' g' hi x hx => ?_
    -- The position of a global among the others is one less.
    have hchanged := hD (i + 1) name' g' hi x hx
    rwa [Nat.add_assoc, Nat.add_comm 1 i]

end Environment

/-- A quieted program is loaded where the program is, and refused for the same reason. The memories
differ at most in the bytes of items that quieting changes. -/
theorem Program.load_quieted (p : Program) :
    Corresponds id (fun r r' => r = (p.environment, r.2) ∧ r' = (p.quieted.environment, r'.2) ∧
      r.2.AgreeOutside p.ChangedAt r'.2) p.load p.quieted.load := by
  rw [load_eq_bind, load_eq_bind]
  -- Allocation looks at names and sizes only, and these are the same.
  have hallocate : Environment.allocate .empty [] p.quieted.globals =
      Environment.allocate .empty [] p.globals := Environment.allocate_quieted _ _ _
  rw [hallocate]
  cases Environment.allocate .empty [] p.globals with
  | error e => exact .error e
  | ok m =>
    have hfill := Environment.fillVariables_quieted p.symbol?_quieted (.refl p.ChangedAt m)
      fun i name g hi x hx => ⟨i, name, g, rfl, hi, hx⟩
    exact hfill.map fun m₁ m₁' h => ⟨rfl, rfl, h⟩

end RegisterMachine
