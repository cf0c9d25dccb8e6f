import RegisterMachine.Convention
import Mathlib.Algebra.GroupWithZero.Nat
import Mathlib.Data.List.Nodup

/-! # Argument locations

The locations of the arguments of a call are reckoned in one pass, and the size of the outgoing area
in another one, as the greatest end of a slot. Whatever the registers of a convention are, the slots
come one right after the other from the stack pointer on, so that the greatest end is the last one.

* `Location.Tile` — locations whose slots fill the words from one to another.
* `Convention.exists_tile_place` — placing arguments tiles the words from the first free one on.
* `Convention.getElem?_place` — the location of each argument.
* `Convention.locationsInWords` — the locations with slots in words, where one may overflow.
* `Convention.TilesArguments`, `Convention.locations_tile` — all of this for a signature.
-/

namespace RegisterMachine

variable {conv : Convention} {sig : Signature} {ints floats : List Register}
  {slot start stop w : Nat} {ts : List DataType} {loc : Location} {locs : List Location}

/-! ## Tilings -/

namespace Location

/-- Number of words that an argument fills in the outgoing area. -/
def words : Location → Nat
  | .register _ => 0
  | .outgoing _ t => t.words

/-- The register that an argument is in, if it is in one. -/
def register? : Location → Option Register
  | .register r => some r
  | .outgoing _ _ => none

/-- A word of the outgoing area is one of those that an argument fills. -/
def Covers (loc : Location) (w : Nat) : Prop :=
  ∃ slot t, loc = .outgoing slot t ∧ slot ≤ w ∧ w < slot + t.words

/-- Locations fill the words from one slot up to another: each slot begins where the one before it
ends, and registers take no words. -/
inductive Tile : (start : Nat) → List Location → (stop : Nat) → Prop where
  /-- No locations fill no words. -/
  | nil {start : Nat} : Tile start [] start
  /-- A register among them. -/
  | register {start stop : Nat} {locs : List Location} (r : Register) (h : Tile start locs stop) :
    Tile start (.register r :: locs) stop
  /-- A slot that begins at the first word. -/
  | outgoing {start stop : Nat} {locs : List Location} (t : DataType)
    (h : Tile (start + t.words) locs stop) : Tile start (.outgoing start t :: locs) stop

namespace Tile

/-- A tiling ends as many words after its start as its locations take. -/
theorem stop_eq (h : Tile start locs stop) : stop = start + (locs.map words).sum := by
  induction h with
  | nil => rfl
  | register r _ ih =>
    rw [ih]
    simp [words]
  | outgoing t _ ih =>
    rw [ih]
    simp [words, Nat.add_assoc]

/-- The greatest end of a slot is the end of the tiling. -/
theorem foldl_endSlot (h : Tile start locs stop) : (locs.map endSlot).foldl max start = stop := by
  induction h with
  | nil => rfl
  | register r _ ih => rwa [List.map_cons, List.foldl_cons, endSlot, Nat.max_eq_left (by omega)]
  | outgoing t _ ih => rwa [List.map_cons, List.foldl_cons, endSlot, Nat.max_eq_right (by omega)]

/-- A tiling is empty if it has no slot. -/
theorem stop_eq_start_iff (h : Tile start locs stop) :
    stop = start ↔ ∀ loc ∈ locs, ∃ r, loc = .register r := by
  induction h with
  | nil => simp
  | register r _ ih => simpa using ih
  | outgoing t h _ =>
    -- A slot has words, and the tiling does not end before it.
    have hpos : 0 < t.words := by cases t <;> decide
    have hstop := h.stop_eq
    constructor
    · intro heq
      omega
    · intro hall
      obtain ⟨r, hr⟩ := hall _ (List.mem_cons_self ..)
      cases hr

/-- The words of a slot lie within the tiling. -/
theorem bounds_of_covers (h : Tile start locs stop) (hmem : loc ∈ locs) (hcovers : loc.Covers w) :
    start ≤ w ∧ w < stop := by
  induction h with
  | nil => cases hmem
  | register r _ ih =>
    rcases List.mem_cons.1 hmem with rfl | hmem
    · obtain ⟨_, _, heq, -⟩ := hcovers
      cases heq
    · exact ih hmem
  | outgoing t h ih =>
    rcases List.mem_cons.1 hmem with rfl | hmem
    · obtain ⟨_, _, heq, hlo, hhi⟩ := hcovers
      cases heq
      have hstop := h.stop_eq
      omega
    · have hrest := ih hmem
      omega

/-- Each word of a tiling belongs to one location. -/
theorem existsUnique_covers (h : Tile start locs stop) (hlo : start ≤ w) (hhi : w < stop) :
    ∃! i : Nat, ∃ loc : Location, locs[i]? = some loc ∧ loc.Covers w := by
  induction h with
  | nil => omega
  | register r _ ih =>
    obtain ⟨i, ⟨loc, hloc, hcovers⟩, hunique⟩ := ih hlo hhi
    refine ⟨i + 1, ⟨loc, hloc, hcovers⟩, ?_⟩
    rintro (_ | j) ⟨loc', hloc', hcovers'⟩
    · cases hloc'
      obtain ⟨_, _, heq, -⟩ := hcovers'
      cases heq
    · rw [hunique j ⟨loc', hloc', hcovers'⟩]
  | @outgoing start stop locs t h ih =>
    -- A word is in the first slot or behind it, and no slot behind covers a word of the first.
    by_cases hfirst : w < start + t.words
    · refine ⟨0, ⟨_, rfl, start, t, rfl, hlo, hfirst⟩, ?_⟩
      rintro (_ | j) ⟨loc', hloc', hcovers'⟩
      · rfl
      · have hrest := h.bounds_of_covers (List.mem_of_getElem? hloc') hcovers'
        omega
    · obtain ⟨i, ⟨loc, hloc, hcovers⟩, hunique⟩ := ih (by omega) hhi
      refine ⟨i + 1, ⟨loc, hloc, hcovers⟩, ?_⟩
      rintro (_ | j) ⟨loc', hloc', hcovers'⟩
      · cases hloc'
        obtain ⟨_, _, heq, -, hend⟩ := hcovers'
        cases heq
        omega
      · rw [hunique j ⟨loc', hloc', hcovers'⟩]

end Tile

end Location

/-! ## Placing arguments -/

namespace Convention

open Location

/-- Of registers of either class, those of a type. -/
def ofClass (ints floats : List Register) : DataType → List Register
  | .int => ints
  | .float => floats

/-- The parameter registers for arguments of a type. -/
def params (conv : Convention) : DataType → List Register :=
  ofClass conv.intParams conv.floatParams

/-- The location of an argument with a number of arguments of its type before it: the register of
that number if there is one, a slot otherwise. -/
def locate (regs : List Register) (number slot : Nat) (t : DataType) : Location :=
  match regs[number]? with
  | some r => .register r
  | none => .outgoing slot t

/-- How one argument is placed. Either its register is taken away from those of its type, or there
was none and it takes the first free slot. -/
theorem place_cases (ints floats : List Register) (slot : Nat) (t : DataType) (ts : List DataType) :
    (∃ r ints' floats', ofClass ints floats t = r :: ofClass ints' floats' t ∧
      (∀ t' ≠ t, ofClass ints floats t' = ofClass ints' floats' t') ∧
      (ints ++ floats).Perm (r :: (ints' ++ floats')) ∧
      place ints floats slot (t :: ts) = .register r :: place ints' floats' slot ts) ∨
    (ofClass ints floats t = [] ∧
      place ints floats slot (t :: ts) =
        .outgoing slot t :: place ints floats (slot + t.words) ts) := by
  cases t with
  | int =>
    cases ints with
    | nil => exact .inr ⟨rfl, by rw [place, DataType.words]⟩
    | cons r ints =>
      refine .inl ⟨r, ints, floats, rfl, fun t' ht' => ?_, .refl _, by rw [place]⟩
      cases t' with
      | int => exact absurd rfl ht'
      | float => rfl
  | float =>
    cases floats with
    | nil => exact .inr ⟨rfl, by rw [place, DataType.words]⟩
    | cons r floats =>
      refine .inl ⟨r, ints, floats, rfl, fun t' ht' => ?_, List.perm_middle, by rw [place]⟩
      cases t' with
      | int => rfl
      | float => exact absurd rfl ht'

@[simp] theorem place_nil : place ints floats slot [] = [] := by
  rw [place]

/-- Each argument has a location. -/
theorem length_place : (place ints floats slot ts).length = ts.length := by
  induction ts generalizing ints floats slot with
  | nil => rw [place_nil]; rfl
  | cons t ts ih =>
    rcases place_cases ints floats slot t ts with ⟨r, ints', floats', -, -, -, heq⟩ | ⟨-, heq⟩
    · rw [heq, List.length_cons, List.length_cons, ih]
    · rw [heq, List.length_cons, List.length_cons, ih]

/-- Arguments are placed from the first free slot on, with nothing left out between them. -/
theorem exists_tile_place (ints floats : List Register) (slot : Nat) (ts : List DataType) :
    ∃ stop, Tile slot (place ints floats slot ts) stop := by
  induction ts generalizing ints floats slot with
  | nil => exact ⟨slot, by rw [place_nil]; exact .nil⟩
  | cons t ts ih =>
    rcases place_cases ints floats slot t ts with ⟨r, ints', floats', -, -, -, heq⟩ | ⟨-, heq⟩
    · obtain ⟨stop, hstop⟩ := ih ints' floats' slot
      exact ⟨stop, heq ▸ hstop.register r⟩
    · obtain ⟨stop, hstop⟩ := ih ints floats (slot + t.words)
      exact ⟨stop, heq ▸ hstop.outgoing t⟩

/-- Arguments fill at most two words each. -/
theorem sum_words_place_le (ints floats : List Register) (slot : Nat) (ts : List DataType) :
    ((place ints floats slot ts).map words).sum ≤ 2 * ts.length := by
  induction ts generalizing ints floats slot with
  | nil => simp
  | cons t ts ih =>
    rcases place_cases ints floats slot t ts with ⟨r, ints', floats', -, -, -, heq⟩ | ⟨-, heq⟩
    · have hrest := ih ints' floats' slot
      simp only [heq, List.map_cons, List.sum_cons, List.length_cons, words]
      omega
    · have hrest := ih ints floats (slot + t.words)
      have htwo : t.words ≤ 2 := by cases t <;> decide
      simp only [heq, List.map_cons, List.sum_cons, List.length_cons, words]
      omega

/-- An argument is in the register of its type whose number is that of the arguments of its type
before it, or right after the slots of the arguments before it. -/
theorem getElem?_place (ints floats : List Register) (slot : Nat) {i : Nat} {t : DataType}
    (h : ts[i]? = some t) :
    (place ints floats slot ts)[i]? =
      some (locate (ofClass ints floats t) ((ts.take i).count t)
        (slot + (((place ints floats slot ts).take i).map words).sum) t) := by
  induction ts generalizing ints floats slot i with
  | nil => cases h
  | cons t₁ ts ih =>
    rcases place_cases ints floats slot t₁ ts with
      ⟨r, ints', floats', htake, hkeep, -, heq⟩ | ⟨hnone, heq⟩
    · cases i with
      | zero =>
        cases h
        simp [heq, locate, htake]
      | succ i =>
        -- The register taken away counts as an argument of its type and of no other.
        rw [heq, List.getElem?_cons_succ, ih ints' floats' slot h]
        by_cases ht : t = t₁
        · subst ht
          simp [locate, htake, words]
        · simp [locate, hkeep t ht, words, List.count_cons_of_ne (Ne.symm ht)]
    · cases i with
      | zero =>
        cases h
        simp [heq, locate, hnone]
      | succ i =>
        -- No registers of the type are left, and so the count does not matter to it.
        rw [heq, List.getElem?_cons_succ, ih ints floats (slot + t₁.words) h]
        by_cases ht : t = t₁
        · subst ht
          simp [locate, hnone, words, Nat.add_assoc]
        · simp [locate, words, Nat.add_assoc, List.count_cons_of_ne (Ne.symm ht)]

/-- Arguments are in registers of the convention. -/
theorem mem_of_mem_place {r : Register}
    (h : r ∈ (place ints floats slot ts).filterMap register?) : r ∈ ints ++ floats := by
  induction ts generalizing ints floats slot with
  | nil => simp at h
  | cons t ts ih =>
    rcases place_cases ints floats slot t ts with ⟨r', ints', floats', -, -, hperm, heq⟩ | ⟨-, heq⟩
    · simp only [heq, List.filterMap_cons, register?] at h
      rw [hperm.mem_iff]
      rcases List.mem_cons.1 h with rfl | h
      · exact List.mem_cons_self ..
      · exact List.mem_cons_of_mem _ (ih h)
    · rw [heq, List.filterMap_cons_none rfl] at h
      exact ih h

/-- Arguments are in distinct registers if those of the convention are distinct. -/
theorem nodup_place (h : (ints ++ floats).Nodup) :
    ((place ints floats slot ts).filterMap register?).Nodup := by
  induction ts generalizing ints floats slot with
  | nil => simp
  | cons t ts ih =>
    rcases place_cases ints floats slot t ts with ⟨r, ints', floats', -, -, hperm, heq⟩ | ⟨-, heq⟩
    · obtain ⟨hnew, hrest⟩ := List.nodup_cons.1 (hperm.nodup_iff.1 h)
      simp only [heq, List.filterMap_cons, register?]
      exact List.nodup_cons.2 ⟨fun hmem => hnew (mem_of_mem_place hmem), ih hrest⟩
    · rw [heq, List.filterMap_cons_none rfl]
      exact ih h

/-! ## Slots in words -/

/-- Places arguments as `place` does, with the next free slot in a word, which may overflow. -/
def placeInWords :
    (ints floats : List Register) → (slot : Word) → List DataType → Option (List Location)
  | _, _, _, [] => some []
  | r :: ints, floats, slot, .int :: ts => do
    let rest ← placeInWords ints floats slot ts
    return .register r :: rest
  | [], floats, slot, .int :: ts => do
    let next ← Word.ofInt? (slot.toInt + 1)
    let rest ← placeInWords [] floats next ts
    return .outgoing slot.toInt.toNat .int :: rest
  | ints, r :: floats, slot, .float :: ts => do
    let rest ← placeInWords ints floats slot ts
    return .register r :: rest
  | ints, [], slot, .float :: ts => do
    let next ← Word.ofInt? (slot.toInt + 2)
    let rest ← placeInWords ints [] next ts
    return .outgoing slot.toInt.toNat .float :: rest

/-- The locations of the arguments of a call, with slots in words. -/
def locationsInWords (conv : Convention) (sig : Signature) : Option (List Location) :=
  placeInWords conv.intParams conv.floatParams 0#32 sig.arguments

/-- The slot some words after another one is a word below the bound of signed readings. -/
theorem exists_next (slot n : Nat) (h : slot + n < 2 ^ 31) :
    ∃ next : Word, Word.ofInt? (slot + n) = some next ∧ next.toInt = (slot + n : Nat) := by
  have hsome : (Word.ofInt? (slot + n)).isSome := by
    rw [Word.ofInt?, if_pos (by omega)]
    rfl
  obtain ⟨next, hnext⟩ := Option.isSome_iff_exists.1 hsome
  exact ⟨next, hnext, by rw [Word.toInt_of_ofInt? hnext, Int.natCast_add]⟩

/-- No slot overflows if there are words left for two to each argument. -/
theorem placeInWords_eq (ints floats : List Register) {w : Word} (hw : w.toInt = slot)
    (h : slot + 2 * ts.length < 2 ^ 31) :
    placeInWords ints floats w ts = some (place ints floats slot ts) := by
  induction ts generalizing ints floats slot w with
  | nil => rw [placeInWords, place_nil]
  | cons t ts ih =>
    rw [List.length_cons] at h
    cases t with
    | int =>
      cases ints with
      | nil =>
        obtain ⟨next, hnext, hvalue⟩ := exists_next slot 1 (by omega)
        have hrest := ih [] floats hvalue (by omega)
        change Word.ofInt? (slot + 1) = some next at hnext
        simp [placeInWords, place, hnext, hrest, hw]
      | cons r ints => simp [placeInWords, place, ih ints floats hw (by omega)]
    | float =>
      cases floats with
      | nil =>
        obtain ⟨next, hnext, hvalue⟩ := exists_next slot 2 (by omega)
        have hrest := ih ints [] hvalue (by omega)
        change Word.ofInt? (slot + 2) = some next at hnext
        simp [placeInWords, place, hnext, hrest, hw]
      | cons r floats => simp [placeInWords, place, ih ints floats hw (by omega)]

/-! ## Signatures -/

/-- How the arguments of a signature are passed. -/
structure TilesArguments (conv : Convention) (sig : Signature) : Prop where
  /-- Each argument has a location. -/
  length_eq : (conv.locations sig).length = sig.arguments.length
  /-- An argument with a number of arguments of its type before it is in the parameter register of
  that number, or else in a slot of its type right after the slots before it. -/
  location : ∀ (i : Nat) (t : DataType), sig.arguments[i]? = some t →
    (conv.locations sig)[i]? =
      some (match (conv.params t)[(sig.arguments.take i).count t]? with
        | some r => .register r
        | none => .outgoing (((conv.locations sig).take i).map words).sum t)
  /-- Slots fill the outgoing area from its start to its end, in the order of the arguments. -/
  tile : Tile 0 (conv.locations sig) (conv.outgoingWords sig)
  /-- Each word of the area belongs to one argument. -/
  covered : ∀ w < conv.outgoingWords sig,
    ∃! i : Nat, ∃ loc : Location, (conv.locations sig)[i]? = some loc ∧ loc.Covers w
  /-- The area is as large as the slots together. -/
  size_eq : conv.outgoingWords sig = ((conv.locations sig).map words).sum
  /-- There is no area if every argument is in a register. -/
  size_eq_zero_iff : conv.outgoingWords sig = 0 ↔
    ∀ loc ∈ conv.locations sig, ∃ r, loc = .register r
  /-- Arguments are in distinct registers if those of the convention are distinct. -/
  nodup : (conv.intParams ++ conv.floatParams).Nodup →
    ((conv.locations sig).filterMap register?).Nodup
  /-- The size of the area is a signed word, and no end of a slot is greater. -/
  size_lt : conv.outgoingWords sig < 2 ^ 31
  /-- Reckoning with words gives the same locations. -/
  inWords_eq : conv.locationsInWords sig = some (conv.locations sig)

/-- The locations of arguments tile the outgoing area. -/
theorem locations_tile (conv : Convention) (sig : Signature)
    (hfew : sig.arguments.length < 2 ^ 30) : conv.TilesArguments sig := by
  obtain ⟨stop, hstop⟩ := exists_tile_place conv.intParams conv.floatParams 0 sig.arguments
  have htile : Tile 0 (conv.locations sig) (conv.outgoingWords sig) := by
    have hsize : conv.outgoingWords sig = stop := hstop.foldl_endSlot
    rwa [hsize]
  have hsize : conv.outgoingWords sig = ((conv.locations sig).map words).sum := by
    rw [htile.stop_eq, Nat.zero_add]
  have hle : ((conv.locations sig).map words).sum ≤ 2 * sig.arguments.length :=
    sum_words_place_le ..
  refine ⟨length_place, fun i t hi => ?_, htile, fun w hw => ?_, hsize, htile.stop_eq_start_iff,
    nodup_place, by omega, placeInWords_eq _ _ rfl (by omega)⟩
  · have hlocation := getElem?_place conv.intParams conv.floatParams 0 hi
    rwa [Nat.zero_add] at hlocation
  · exact htile.existsUnique_covers (Nat.zero_le w) hw

/-- With the standard convention the third float and the fifth integer are the first arguments that
have slots. -/
theorem locations_tile_standard :
    let sig : Signature := ⟨[.float, .int, .float, .int, .int, .float, .int, .int, .float], none⟩
    sig.arguments.length < 2 ^ 30 ∧ standard.TilesArguments sig ∧
      standard.locations sig =
        [.register (.float 0), .register (.int 0), .register (.float 1), .register (.int 1),
          .register (.int 2), .outgoing 0 .float, .register (.int 3), .outgoing 2 .int,
          .outgoing 3 .float] ∧
      standard.outgoingWords sig = 5 :=
  ⟨by decide, locations_tile standard _ (by decide), by decide, by decide⟩

end Convention

end RegisterMachine
