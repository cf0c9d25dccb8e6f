import RegisterMachine.Proofs.Environment.Loading
import RegisterMachine.Proofs.Renaming.Memory

/-! # Renaming blocks in a program that is loaded

Loading fills the block of each variable on its own: what a block holds in the end depends on its
global and on the blocks of the symbols to which the initial contents refer, but not on the other
blocks. So if the globals of a program get other blocks they are filled in the same way, up to the
renaming.

* `Environment.fillBlock_renames` — a renamed block is filled in the same way.
* `Environment.fillBlock_congr` — filling a block depends on no other block.
* `Environment.fillVariables_isOk`, `Environment.region?_of_fillVariables` — so all variables can be
  filled if each of them can, and each block holds what filling it alone makes of it.
-/

namespace RegisterMachine

/-- The load error in which blocks are renamed. -/
def LoadError.rename (ρ : BlockId → BlockId) : LoadError → LoadError
  | .memory e => .memory (e.rename ρ)
  | e => e

/-- Results of memory correspond as results of loading. -/
theorem Corresponds.loading {ρ : BlockId → BlockId} {α β : Type} {R : α → β → Prop}
    {x : Except MemoryError α} {y : Except MemoryError β}
    (h : Corresponds (MemoryError.rename ρ) R x y) :
    Corresponds (LoadError.rename ρ) R (x.mapError .memory) (y.mapError .memory) :=
  h.mapError fun _ => rfl

namespace Environment

variable {ρ : BlockId → BlockId} {env env' : Environment} {m m' m₁ : Memory} {b b' : BlockId}
  {name : String} {g : Global} {gs : List (String × Global)} {taken : List String}

/-! ## One block -/

/-- A renamed value is written to a renamed block. -/
theorem store_renamesAt (hρ : Function.Injective ρ) (h : Memory.RenamesAt ρ b m m') (c : Chunk)
    (offset : Int) (v : Value) :
    Corresponds (MemoryError.rename ρ) (Memory.RenamesAt ρ b) (m.store c b offset v)
      (m'.store c (ρ b) offset (v.rename ρ)) :=
  (Memory.store_renames hρ h).imp fun _ _ hkeeps => hkeeps.2.2 b h

/-- Zero bytes are written to a renamed block. -/
theorem storeZeros_renames (hρ : Function.Injective ρ) (h : Memory.RenamesAt ρ b m m')
    (offset count : Nat) :
    Corresponds (MemoryError.rename ρ) (Memory.RenamesAt ρ b) (storeZeros m b offset count)
      (storeZeros m' (ρ b) offset count) := by
  induction count generalizing m m' offset with
  | zero => exact .ok h
  | succ count ih =>
    rw [storeZeros_succ, storeZeros_succ]
    exact (store_renamesAt hρ h .int8Unsigned offset (.int 0#32)).bind fun m₁ m₁' h₁ =>
      ih h₁ (offset + 1)

/-- An item is written to a renamed block. -/
theorem storeItem_renames (henv : env.Renames ρ env') (h : Memory.RenamesAt ρ b m m')
    (offset : Nat) (item : InitialData) :
    Corresponds (LoadError.rename ρ) (Memory.RenamesAt ρ b) (env.storeItem m b offset item)
      (env'.storeItem m' (ρ b) offset item) := by
  have hstore := store_renamesAt henv.injective h
  cases item with
  | int8 n => exact (hstore .int8Unsigned offset (.int n)).loading
  | int16 n => exact (hstore .int16Unsigned offset (.int n)).loading
  | int32 n => exact (hstore .int32 offset (.int n)).loading
  | float32 x => exact (hstore .float32 offset (.float x)).loading
  | float64 x => exact (hstore .float64 offset (.float x)).loading
  | space count => exact (storeZeros_renames henv.injective h offset count.toNat).loading
  | address symbol delta =>
    simp only [storeItem, henv.address?]
    cases env.address? symbol delta with
    | none => exact .error (LoadError.unknownSymbol symbol)
    | some a => exact (hstore .int32 offset a).loading

/-- Items are written to a renamed block. -/
theorem storeItems_renames (henv : env.Renames ρ env') (h : Memory.RenamesAt ρ b m m')
    (offset : Nat) (items : List InitialData) :
    Corresponds (LoadError.rename ρ) (Memory.RenamesAt ρ b) (env.storeItems m b offset items)
      (env'.storeItems m' (ρ b) offset items) := by
  induction items generalizing m m' offset with
  | nil => exact .ok h
  | cons item items ih =>
    rw [storeItems_cons, storeItems_cons]
    exact (storeItem_renames henv h offset item).bind fun m₁ m₁' h₁ => ih h₁ (offset + item.size)

/-- A renamed block is filled in the same way, up to the renaming. -/
theorem fillBlock_renames (henv : env.Renames ρ env') (h : Memory.RenamesAt ρ b m m')
    (g : Global) :
    Corresponds (LoadError.rename ρ) (Memory.RenamesAt ρ b) (env.fillBlock m b g)
      (env'.fillBlock m' (ρ b) g) := by
  cases g with
  | function d => exact .ok h
  | «variable» init => exact storeItems_renames henv h 0 init

/-- What filling the block of a global makes of this block depends on no other block. -/
theorem fillBlock_congr (h : m'.region? b = m.region? b) (hfill : env.fillBlock m b g = .ok m₁) :
    ∃ m₁', env.fillBlock m' b g = .ok m₁' ∧ m₁'.region? b = m₁.region? b := by
  -- Nothing is renamed between the two memories.
  have hsame : ∀ {m m' : Memory}, Memory.RenamesAt id b m m' ↔ m'.region? b = m.region? b := by
    intro m m'
    rw [Memory.RenamesAt, id, Region.rename_id, Option.map_id_apply]
  have hboth := fillBlock_renames (.refl env) (hsame.2 h) g
  rw [hfill] at hboth
  generalize hx : env.fillBlock m' (id b) g = x at hboth
  cases hboth with
  | ok h₁ => exact ⟨_, hx, hsame.1 h₁⟩

/-! ## Initial contents of all blocks -/

/-- The variables among globals are filled if each of them can be filled. -/
theorem fillVariables_isOk (h : ∀ i name g, gs[i]? = some (name, g) →
    ∃ m₁, env.fillBlock m (b + i) g = .ok m₁) : ∃ m', env.fillVariables m b gs = .ok m' := by
  induction gs generalizing m b with
  | nil => exact ⟨m, rfl⟩
  | cons g gs ih =>
    obtain ⟨name, g⟩ := g
    obtain ⟨m₁, hfirst⟩ := h 0 name g rfl
    have hrest : ∃ m', env.fillVariables m₁ (b + 1) gs = .ok m' := by
      refine ih fun i name' g' hi => ?_
      -- The first block is another one, so the others can still be filled.
      obtain ⟨m₂, hother⟩ := h (i + 1) name' g' hi
      have hregion : m₁.region? (b + (i + 1)) = m.region? (b + (i + 1)) :=
        region?_of_fillBlock hfirst (Nat.ne_of_gt (Nat.lt_add_of_pos_right (Nat.succ_pos i)))
      obtain ⟨m₂', hm₂', -⟩ := fillBlock_congr hregion hother
      exact ⟨m₂', by rwa [Nat.add_assoc, Nat.add_comm 1 i]⟩
    obtain ⟨m', hm'⟩ := hrest
    exact ⟨m', fillVariables_cons_eq_ok_iff.2 ⟨m₁, hfirst, hm'⟩⟩

/-- Blocks before those of globals are not filled. -/
theorem region?_of_fillVariables_of_lt (h : env.fillVariables m b gs = .ok m') (hb : b' < b) :
    m'.region? b' = m.region? b' := by
  induction gs generalizing m b with
  | nil =>
    cases h
    rfl
  | cons g gs ih =>
    obtain ⟨m₁, hfirst, hrest⟩ := fillVariables_cons_eq_ok_iff.1 h
    rw [ih hrest (Nat.lt_succ_of_lt hb), region?_of_fillBlock hfirst (Nat.ne_of_lt hb)]

/-- When the variables have been filled each block holds what filling that block alone makes of
it. -/
theorem region?_of_fillVariables (h : env.fillVariables m b gs = .ok m') {i : Nat}
    (hi : gs[i]? = some (name, g)) :
    ∃ m₁, env.fillBlock m (b + i) g = .ok m₁ ∧ m'.region? (b + i) = m₁.region? (b + i) := by
  induction gs generalizing m b i with
  | nil => simp at hi
  | cons g' gs ih =>
    obtain ⟨m₁, hfirst, hrest⟩ := fillVariables_cons_eq_ok_iff.1 h
    cases i with
    | zero =>
      simp only [List.getElem?_cons_zero, Option.some.injEq] at hi
      subst hi
      exact ⟨m₁, hfirst, region?_of_fillVariables_of_lt hrest (Nat.lt_succ_self _)⟩
    | succ i =>
      rw [List.getElem?_cons_succ] at hi
      obtain ⟨m₂, hother, hregion⟩ := ih hrest hi
      rw [Nat.add_assoc, Nat.add_comm 1 i] at hother hregion
      -- Filling the first block makes no difference to this one.
      have hsame : m.region? (b + (i + 1)) = m₁.region? (b + (i + 1)) :=
        (region?_of_fillBlock hfirst (Nat.ne_of_gt (Nat.lt_add_of_pos_right (Nat.succ_pos i)))).symm
      obtain ⟨m₂', hm₂', hregion'⟩ := fillBlock_congr hsame hother
      exact ⟨m₂', hm₂', hregion.trans hregion'.symm⟩

end Environment

end RegisterMachine
