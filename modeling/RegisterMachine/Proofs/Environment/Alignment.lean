import RegisterMachine.Proofs.Environment.Loading

/-! # Alignment of initial contents

The items of a variable fill its block without gaps, so that one of them may come to lie at an
offset that does not suit it. Once every global has its block this and an address of a symbol that
is not declared are all that can keep a program from being loaded: whatever the sizes are, no item
reaches beyond its block.

* `InitialData.align`, `InitialData.Aligned` — the offsets that items ask for, and items that lie at
  such offsets.
* `Memory.store_within` — a store within bounds fails only if it is not aligned.
* `Environment.FillResult` — the three ways in which filling variables can end.
* `Environment.storeItems_result`, `Environment.fillVariables_result` — there are no others.
-/

namespace RegisterMachine

namespace InitialData

/-- The number that divides the offset of an item. -/
def align : InitialData → Nat
  | .int8 _ | .space _ => 1
  | .int16 _ => 2
  | .int32 _ | .float32 _ | .float64 _ | .address _ _ => 4

/-- Items that lie one after the other from an offset on are aligned. -/
def Aligned : (offset : Nat) → List InitialData → Prop
  | _, [] => True
  | offset, item :: items => offset % item.align = 0 ∧ Aligned (offset + item.size) items

/-- Whether items are aligned can be seen from their sizes. -/
instance decidableAligned : (offset : Nat) → (items : List InitialData) →
    Decidable (Aligned offset items)
  | _, [] => .isTrue trivial
  | offset, item :: items =>
    have := decidableAligned (offset + item.size) items
    inferInstanceAs (Decidable (_ ∧ _))

end InitialData

/-- Whether the initial contents of a program are aligned. Blocks of variables begin at zero. -/
def Program.ContentsAligned (p : Program) : Prop :=
  ∀ name init, (name, .variable init) ∈ p.globals → InitialData.Aligned 0 init

/-- Whether the initial contents of a program hold the address of a symbol. -/
def Program.ContentsMention (p : Program) (symbol : String) : Prop :=
  ∃ name init delta, (name, .variable init) ∈ p.globals ∧ .address symbol delta ∈ init

/-- A store within the bounds of a block succeeds if it is aligned, and is refused for its alignment
if not. -/
theorem Memory.store_within {m : Memory} {c : Chunk} {b : BlockId} {offset lo hi : Int} {v : Value}
    (hbounds : m.bounds? b = some (lo, hi)) (hlo : lo ≤ offset) (hhi : offset + c.size ≤ hi) :
    (offset % c.align = 0 ∧ ∃ m', m.store c b offset v = .ok m') ∨
      (offset % c.align ≠ 0 ∧ m.store c b offset v = .error (.misaligned c b offset)) := by
  by_cases halign : offset % c.align = 0
  · exact .inl ⟨halign, store_isOk_iff.2 ⟨lo, hi, hbounds, hlo, hhi, halign⟩⟩
  · obtain ⟨r, hr, rfl, rfl⟩ := bounds?_eq_some_iff.1 hbounds
    have hcontains : r.Contains c offset := ⟨hlo, hhi⟩
    have hadmits : ¬ r.Admits c offset := fun h => halign h.2
    refine .inr ⟨halign, ?_⟩
    simp [store, hr, accessError?, hcontains, hadmits]

namespace Environment

variable {env : Environment} {m : Memory} {b : BlockId} {offset size : Nat} {A A' : Prop}
  {M M' : String → Prop} {x : Except LoadError Memory}

variable (env) in
/-- How filling variables ends, where `A` says that they are aligned and `M` which symbols they
mention. -/
inductive FillResult (A : Prop) (M : String → Prop) : Except LoadError Memory → Prop where
  /-- They are aligned, and every symbol has a block. -/
  | ok {m : Memory} (aligned : A) (known : ∀ name, M name → (env.symbol? name).isSome = true) :
      FillResult A M (.ok m)
  /-- They are not aligned, and memory refuses an item. -/
  | misaligned {c : Chunk} {b : BlockId} {offset : Int} (notAligned : ¬ A) :
      FillResult A M (.error (.memory (.misaligned c b offset)))
  /-- They mention a symbol that has no block. -/
  | unknownSymbol {name : String} (mentioned : M name) (unknown : env.symbol? name = none) :
      FillResult A M (.error (.unknownSymbol name))

namespace FillResult

/-- The alignment and the symbols may be put in other words. -/
theorem congr (h : env.FillResult A M x) (hA : A ↔ A') (hM : ∀ name, M name ↔ M' name) :
    env.FillResult A' M' x := by
  cases h with
  | ok aligned known => exact .ok (hA.1 aligned) fun name hname => known name ((hM name).2 hname)
  | misaligned notAligned => exact .misaligned fun aligned => notAligned (hA.2 aligned)
  | unknownSymbol mentioned unknown => exact .unknownSymbol ((hM _).1 mentioned) unknown

/-- More symbols may be mentioned if they have blocks. -/
theorem mention (h : env.FillResult A M x) (hM : ∀ name, M name → M' name)
    (known : ∀ name, M' name → (env.symbol? name).isSome = true) : env.FillResult A M' x := by
  cases h with
  | ok aligned _ => exact .ok aligned known
  | misaligned notAligned => exact .misaligned notAligned
  | unknownSymbol mentioned unknown => exact .unknownSymbol (hM _ mentioned) unknown

/-- What is filled first and what is filled then must both be aligned, and the symbols of both must
have blocks. -/
theorem bind {f : Memory → Except LoadError Memory} (h : env.FillResult A M x)
    (hnext : ∀ m, x = .ok m → env.FillResult A' M' (f m)) :
    env.FillResult (A ∧ A') (fun name => M name ∨ M' name) (x >>= f) := by
  cases h with
  | misaligned notAligned => exact .misaligned fun aligned => notAligned aligned.1
  | unknownSymbol mentioned unknown => exact .unknownSymbol (.inl mentioned) unknown
  | @ok m aligned known =>
    change env.FillResult _ _ (f m)
    have hrest := hnext m rfl
    generalize f m = y at hrest
    cases hrest with
    | ok aligned' known' =>
      exact .ok ⟨aligned, aligned'⟩ fun name hname => hname.elim (known name) (known' name)
    | misaligned notAligned => exact .misaligned fun aligned => notAligned aligned.2
    | unknownSymbol mentioned unknown => exact .unknownSymbol (.inr mentioned) unknown

/-- Variables are filled exactly if they are aligned, where every symbol has a block. -/
theorem isOk_iff (h : env.FillResult A M x)
    (known : ∀ name, M name → (env.symbol? name).isSome = true) : (∃ m, x = .ok m) ↔ A := by
  cases h with
  | ok aligned _ => simp [aligned]
  | misaligned notAligned => simp [notAligned]
  | unknownSymbol mentioned unknown =>
    have hknown := known _ mentioned
    simp [unknown] at hknown

/-- Variables are filled exactly if they are aligned and every symbol has a block. -/
theorem isOk_iff_and (h : env.FillResult A M x) :
    (∃ m, x = .ok m) ↔ A ∧ ∀ name, M name → (env.symbol? name).isSome = true := by
  constructor
  · rintro ⟨m, rfl⟩
    cases h with
    | ok aligned known => exact ⟨aligned, known⟩
  · rintro ⟨aligned, known⟩
    exact (h.isOk_iff known).2 aligned

/-- Memory refuses variables for their alignment only. -/
theorem exists_misaligned_of_memory {e : MemoryError}
    (h : env.FillResult A M (.error (.memory e))) : ∃ c b offset, e = .misaligned c b offset := by
  cases h with
  | misaligned notAligned => exact ⟨_, _, _, rfl⟩

/-- Where every symbol has a block, variables cannot be filled for their alignment only. -/
theorem exists_misaligned_of_error {e : LoadError} (h : env.FillResult A M (.error e))
    (known : ∀ name, M name → (env.symbol? name).isSome = true) :
    ∃ c b offset, e = .memory (.misaligned c b offset) := by
  cases h with
  | misaligned notAligned => exact ⟨_, _, _, rfl⟩
  | unknownSymbol mentioned unknown =>
    have hknown := known _ mentioned
    simp [unknown] at hknown

end FillResult

/-- A number or an address is written within a block. -/
theorem store_result {c : Chunk} {v : Value} (hbounds : m.bounds? b = some (0, (size : Int)))
    (hfits : offset + c.size ≤ size) :
    env.FillResult (offset % c.align = 0) (fun _ => False)
      ((m.store c b offset v).mapError .memory) := by
  have hmod : (offset : Int) % c.align = 0 ↔ offset % c.align = 0 := by omega
  have hhi : (offset : Int) + c.size ≤ size := by omega
  rcases Memory.store_within hbounds (Int.natCast_nonneg offset) hhi with
    ⟨halign, m', hstore⟩ | ⟨halign, hstore⟩
  · rw [hstore]
    exact .ok (hmod.1 halign) nofun
  · rw [hstore]
    exact .misaligned fun aligned => halign (hmod.2 aligned)

/-- Zero bytes can be written wherever they lie within a block. -/
theorem storeZeros_isOk {count : Nat} (hbounds : m.bounds? b = some (0, (size : Int)))
    (hfits : offset + count ≤ size) : ∃ m', storeZeros m b offset count = .ok m' := by
  induction count generalizing m offset with
  | zero => exact ⟨m, rfl⟩
  | succ count ih =>
    obtain ⟨m₁, hstore⟩ : ∃ m₁, m.store .int8Unsigned b offset (.int 0#32) = .ok m₁ := by
      refine Memory.store_isOk_iff.2 ⟨0, size, hbounds, Int.natCast_nonneg offset, ?_, ?_⟩
      · simp only [Chunk.size]
        omega
      · exact Int.emod_one _
    have hbounds₁ := ((Memory.SameBounds.of_store hstore).bounds b).trans hbounds
    have hfits₁ : offset + 1 + count ≤ size := by omega
    obtain ⟨m', hrest⟩ := ih hbounds₁ hfits₁
    rw [storeZeros_succ]
    exact ⟨m', bind_eq_ok_iff.2 ⟨m₁, hstore, hrest⟩⟩

/-- One item is written within a block. -/
theorem storeItem_result {item : InitialData} (hbounds : m.bounds? b = some (0, (size : Int)))
    (hfits : offset + item.size ≤ size) :
    env.FillResult (offset % item.align = 0) (fun name => ∃ delta, item = .address name delta)
      (env.storeItem m b offset item) := by
  cases item with
  | int8 n => exact (store_result hbounds hfits).congr .rfl (by simp)
  | int16 n => exact (store_result hbounds hfits).congr .rfl (by simp)
  | int32 n => exact (store_result hbounds hfits).congr .rfl (by simp)
  | float32 x => exact (store_result hbounds hfits).congr .rfl (by simp)
  | float64 x => exact (store_result hbounds hfits).congr .rfl (by simp)
  | space count =>
    have hzeros : ∃ m', storeZeros m b offset count.toNat = .ok m' := storeZeros_isOk hbounds hfits
    obtain ⟨m', hm'⟩ := hzeros
    rw [storeItem, hm']
    refine .ok (Nat.mod_one offset) ?_
    rintro name ⟨delta, ⟨⟩⟩
  | address symbol delta =>
    simp only [storeItem, address?]
    cases hsymbol : env.symbol? symbol with
    | none => exact .unknownSymbol ⟨delta, rfl⟩ hsymbol
    | some a =>
      have hsize : offset + Chunk.int32.size ≤ size := hfits
      refine (store_result hbounds hsize).mention (fun _ h => h.elim) ?_
      rintro name ⟨delta', heq⟩
      cases heq
      rw [hsymbol]
      rfl

/-- Items are written within a block one after the other. -/
theorem storeItems_result {items : List InitialData}
    (hbounds : m.bounds? b = some (0, (size : Int)))
    (hfits : offset + InitialData.totalSize items ≤ size) :
    env.FillResult (InitialData.Aligned offset items)
      (fun name => ∃ delta, .address name delta ∈ items) (env.storeItems m b offset items) := by
  induction items generalizing m offset with
  | nil =>
    refine .ok trivial ?_
    rintro name ⟨delta, ⟨⟩⟩
  | cons item items ih =>
    rw [InitialData.totalSize] at hfits
    have hfirst : offset + item.size ≤ size := by omega
    have hrest : ∀ m₁, env.storeItem m b offset item = .ok m₁ → env.FillResult
        (InitialData.Aligned (offset + item.size) items)
        (fun name => ∃ delta, .address name delta ∈ items)
        (env.storeItems m₁ b (offset + item.size) items) := by
      intro m₁ hm₁
      -- The first item leaves the bounds of the block as they are.
      have hsame : m.SameBounds m₁ :=
        storeItem_invariant (P := m.SameBounds)
          (fun _ _ _ _ _ _ hm hstore => hm.trans (.of_store hstore)) (.refl m) hm₁
      exact ih ((hsame.bounds b).trans hbounds) (by omega)
    rw [storeItems_cons]
    refine ((storeItem_result hbounds hfirst).bind hrest).congr .rfl fun name => ?_
    simp only [List.mem_cons, exists_or, eq_comm]

/-- The block of a global is filled if it has the size of the initial contents. -/
theorem fillBlock_result {g : Global}
    (hbounds : ∀ init, g = .variable init →
      m.bounds? b = some (0, (InitialData.totalSize init : Int))) :
    env.FillResult (∀ init, g = .variable init → InitialData.Aligned 0 init)
      (fun name => ∃ init delta, g = .variable init ∧ .address name delta ∈ init)
      (env.fillBlock m b g) := by
  cases g with
  | function d =>
    refine .ok nofun ?_
    rintro name ⟨init, delta, ⟨⟩, -⟩
  | «variable» init =>
    exact (storeItems_result (hbounds init rfl) (Nat.le_of_eq (Nat.zero_add _))).congr (by simp)
      (by simp)

/-- The variables among globals are filled if each block has the size of the initial contents. -/
theorem fillVariables_result {gs : List (String × Global)}
    (hbounds : ∀ (i : Nat) name init, gs[i]? = some (name, .variable init) →
      m.bounds? (b + i) = some (0, (InitialData.totalSize init : Int))) :
    env.FillResult (∀ name init, (name, .variable init) ∈ gs → InitialData.Aligned 0 init)
      (fun symbol => ∃ name init delta, (name, .variable init) ∈ gs ∧ .address symbol delta ∈ init)
      (env.fillVariables m b gs) := by
  induction gs generalizing m b with
  | nil => exact .ok (by simp) (by simp)
  | cons g gs ih =>
    obtain ⟨name, g⟩ := g
    have hbounds₀ : ∀ init, g = .variable init →
        m.bounds? b = some (0, (InitialData.totalSize init : Int)) := by
      rintro init rfl
      exact hbounds 0 name init rfl
    have hrest : ∀ m₁, env.fillBlock m b g = .ok m₁ → env.FillResult
        (∀ name init, (name, .variable init) ∈ gs → InitialData.Aligned 0 init)
        (fun symbol => ∃ name init delta,
          (name, .variable init) ∈ gs ∧ .address symbol delta ∈ init)
        (env.fillVariables m₁ (b + 1) gs) := by
      intro m₁ hm₁
      have hsame : m.SameBounds m₁ :=
        fillBlock_invariant (P := m.SameBounds)
          (fun _ _ _ _ _ _ _ hm hstore => hm.trans (.of_store hstore)) (.refl m) hm₁
      refine ih fun i name' init hi => ?_
      rw [hsame.bounds, Nat.add_assoc, Nat.add_comm 1 i]
      exact hbounds (i + 1) name' init hi
    rw [fillVariables_cons]
    refine ((fillBlock_result hbounds₀).bind hrest).congr ⟨?_, ?_⟩ fun symbol => ⟨?_, ?_⟩
    · rintro ⟨hg, hgs⟩ name' init hmem
      rcases List.mem_cons.1 hmem with heq | hmem
      · exact hg init (Prod.mk.inj heq).2.symm
      · exact hgs name' init hmem
    · intro h
      exact ⟨fun init hg => h name init (by simp [hg]),
        fun name' init hmem => h name' init (List.mem_cons_of_mem _ hmem)⟩
    · rintro (⟨init, delta, rfl, hmem⟩ | ⟨name', init, delta, hg, hmem⟩)
      · exact ⟨name, init, delta, List.mem_cons_self .., hmem⟩
      · exact ⟨name', init, delta, List.mem_cons_of_mem _ hg, hmem⟩
    · rintro ⟨name', init, delta, hg, hmem⟩
      rcases List.mem_cons.1 hg with heq | hg
      · exact .inl ⟨init, delta, (Prod.mk.inj heq).2.symm, hmem⟩
      · exact .inr ⟨name', init, delta, hg, hmem⟩

end Environment

/-- Once its blocks are allocated a program is loaded, unless its initial contents are not aligned
or hold the address of a symbol that has no block. -/
theorem Program.fill_result {p : Program} {m : Memory}
    (hm : Environment.allocate .empty [] p.globals = .ok m) :
    p.environment.FillResult p.ContentsAligned p.ContentsMention
      (p.environment.fillVariables m 1 p.globals) := by
  refine Environment.fillVariables_result fun i name init hi => ?_
  obtain ⟨size, hsize, hbounds⟩ := Environment.bounds?_getElem_of_allocate hm hi
  simp only [Environment.blockSize] at hsize
  split at hsize
  · cases hsize
    exact hbounds
  · cases hsize

end RegisterMachine
