import RegisterMachine.Check
import RegisterMachine.Proofs.Machine.ArgumentLocations

/-! # Parameter registers and the checks

Only the checks of the arguments that a call passes on the stack depend on the convention, and only
through the number of words of these arguments. With more parameter registers of either class no
call passes more words. Each of the three checks then finds less, and all others find the same.

* `Convention.ParamsLe` — at least as many parameter registers of either class.
* `Convention.outgoingWords_eq` — the size of the outgoing area from the numbers of arguments.
* `Violation.outgoingSite?` — the call that passes its arguments wrongly.
* `Violation.Fewer` — violations with fewer such calls, and the same otherwise.
* `Program.violations_of_paramsLe` — what more parameter registers do to the violations.
-/

namespace RegisterMachine

/-! ## The size of the outgoing area -/

namespace Convention

variable {conv conv' : Convention} {ints floats : List Register} {slot : Nat}

/-- A convention has at least as many parameter registers of either class as another one. -/
structure ParamsLe (conv conv' : Convention) : Prop where
  /-- Integer parameter registers. -/
  ints : conv.intParams.length ≤ conv'.intParams.length
  /-- Float parameter registers. -/
  floats : conv.floatParams.length ≤ conv'.floatParams.length

/-- The integers that are left without register take a word each, and the floats take two. In which
order they come does not matter. -/
theorem sum_words_place (ints floats : List Register) (slot : Nat) (ts : List DataType) :
    ((place ints floats slot ts).map Location.words).sum =
      (ts.count .int - ints.length) + 2 * (ts.count .float - floats.length) := by
  induction ts generalizing ints floats slot with
  | nil => simp
  | cons t ts ih =>
    -- An argument takes a register of its class, or its words once there is none.
    cases t with
    | int =>
      have hfloat : (DataType.int :: ts).count .float = ts.count .float := by simp
      cases ints with
      | nil =>
        simp only [place, List.map_cons, List.sum_cons, ih, hfloat, List.count_cons_self,
          Location.words, DataType.words, List.length_nil]
        omega
      | cons r ints =>
        simp only [place, List.map_cons, List.sum_cons, ih, hfloat, List.count_cons_self,
          Location.words, List.length_cons]
        omega
    | float =>
      have hint : (DataType.float :: ts).count .int = ts.count .int := by simp
      cases floats with
      | nil =>
        simp only [place, List.map_cons, List.sum_cons, ih, hint, List.count_cons_self,
          Location.words, DataType.words, List.length_nil]
        omega
      | cons r floats =>
        simp only [place, List.map_cons, List.sum_cons, ih, hint, List.count_cons_self,
          Location.words, List.length_cons]
        omega

/-- The size of the outgoing area depends on the numbers of arguments and of parameter registers of
either class only. -/
theorem outgoingWords_eq (conv : Convention) (sig : Signature) :
    conv.outgoingWords sig =
      (sig.arguments.count .int - conv.intParams.length) +
        2 * (sig.arguments.count .float - conv.floatParams.length) := by
  obtain ⟨stop, hstop⟩ := exists_tile_place conv.intParams conv.floatParams 0 sig.arguments
  have hsize : conv.outgoingWords sig = stop := hstop.foldl_endSlot
  rw [hsize, hstop.stop_eq, sum_words_place, Nat.zero_add]

/-- With more parameter registers no call passes more words. -/
theorem ParamsLe.outgoingWords_le (h : conv.ParamsLe conv') (sig : Signature) :
    conv'.outgoingWords sig ≤ conv.outgoingWords sig := by
  have hints := h.ints
  have hfloats := h.floats
  rw [outgoingWords_eq, outgoingWords_eq]
  omega

end Convention

/-! ## Calls that pass their arguments wrongly -/

/-- What can be wrong with the arguments that a call passes on the stack. -/
inductive OutgoingFault where
  /-- They do not fit into the frame. -/
  | outOfFrame
  /-- They lie over a reserved slot. -/
  | overlapsSlot (which : ReservedSlot)
  /-- They lie in the frame that a tail call gives up. -/
  | inTailCall
  deriving DecidableEq, Repr

/-- A call that passes its arguments wrongly. -/
structure OutgoingSite where
  /-- What is wrong. -/
  fault : OutgoingFault
  /-- The function with the call. -/
  func : String
  /-- The position of the call. -/
  pos : Nat
  /-- The function that is called. -/
  callee : String
  deriving DecidableEq, Repr

namespace Violation

variable {few few' many many' vs : List Violation} {v : Violation} {site : OutgoingSite}

/-- The call that passes its arguments wrongly, if this is the violation. -/
def outgoingSite? : Violation → Option OutgoingSite
  | .outgoingOutOfFrame func pos callee _ => some ⟨.outOfFrame, func, pos, callee⟩
  | .outgoingOverlapsSlot func pos callee which _ => some ⟨.overlapsSlot which, func, pos, callee⟩
  | .tailCallStackArguments func pos callee _ => some ⟨.inTailCall, func, pos, callee⟩
  | _ => none

/-- The violations that are not about arguments on the stack, in order. -/
def others (vs : List Violation) : List Violation :=
  vs.filter fun v => v.outgoingSite?.isNone

/-- The calls that pass their arguments wrongly, in order. -/
def outgoingSites (vs : List Violation) : List OutgoingSite :=
  vs.filterMap outgoingSite?

/-- Violations with fewer calls that pass their arguments wrongly, and the same otherwise. -/
structure Fewer (few many : List Violation) : Prop where
  /-- The same violations that are not about arguments on the stack, in the same order. -/
  others_eq : others few = others many
  /-- The calls come from those of the others, in the same order. -/
  sites : (outgoingSites few).Sublist (outgoingSites many)

namespace Fewer

@[refl] theorem refl (vs : List Violation) : Fewer vs vs :=
  ⟨rfl, .refl _⟩

theorem append (h : Fewer few many) (h' : Fewer few' many') :
    Fewer (few ++ few') (many ++ many') := by
  constructor
  · simp only [others, List.filter_append]
    exact congrArg₂ (· ++ ·) h.others_eq h'.others_eq
  · simp only [outgoingSites, List.filterMap_append]
    exact h.sites.append h'.sites

theorem flatMap {α : Type} {check check' : α → List Violation} {l : List α}
    (h : ∀ x, Fewer (check x) (check' x)) : Fewer (l.flatMap check) (l.flatMap check') := by
  induction l with
  | nil => rfl
  | cons x l ih => exact (h x).append ih

/-- The same call with the same fault, whatever else is noted about it. -/
theorem singleton {v' : Violation} (hv : v.outgoingSite? = some site)
    (hv' : v'.outgoingSite? = some site) : Fewer [v] [v'] := by
  constructor
  · simp [others, hv, hv']
  · simp [outgoingSites, hv, hv']

/-- No violations are fewer than those of calls. -/
theorem nil (h : ∀ v ∈ many, v.outgoingSite?.isSome) : Fewer [] many := by
  refine ⟨(List.filter_eq_nil_iff.2 fun v hv => ?_).symm, List.nil_sublist _⟩
  rw [Bool.not_eq_true, Option.isNone_eq_false_iff]
  exact h v hv

/-- Violations of calls that are found under a weaker condition. -/
theorem ite {P P' : Prop} [Decidable P] [Decidable P'] (hcond : P' → P)
    (hsites : ∀ v ∈ many, v.outgoingSite?.isSome) (h : Fewer few many) :
    Fewer (if P' then few else []) (if P then many else []) := by
  by_cases hP' : P'
  · rwa [if_pos hP', if_pos (hcond hP')]
  · rw [if_neg hP']
    refine nil fun v hv => hsites v ?_
    exact (List.mem_ite_nil_right.1 hv).2

/-- A violation that is not about arguments on the stack is one of both. -/
theorem mem_iff (h : Fewer few many) (hv : v.outgoingSite? = none) : v ∈ few ↔ v ∈ many := by
  have hmem (vs : List Violation) : v ∈ others vs ↔ v ∈ vs := by
    simp [others, hv]
  rw [← hmem few, h.others_eq, hmem many]

/-- A call that passes its arguments wrongly is one of the others too. -/
theorem exists_mem (h : Fewer few many) (hmem : v ∈ few) (hv : v.outgoingSite? = some site) :
    ∃ v' ∈ many, v'.outgoingSite? = some site :=
  List.mem_filterMap.1 (h.sites.subset (List.mem_filterMap.2 ⟨v, hmem, hv⟩))

/-- There are fewer violations than none if there are none. -/
theorem eq_nil (h : Fewer few []) : few = [] := by
  refine List.eq_nil_iff_forall_not_mem.2 fun v hmem => ?_
  cases hv : v.outgoingSite? with
  | none => exact List.not_mem_nil ((h.mem_iff hv).1 hmem)
  | some site =>
    obtain ⟨_, hnil, -⟩ := h.exists_mem hmem hv
    exact List.not_mem_nil hnil

end Fewer

end Violation

/-! ## The checks -/

open Violation

namespace Function

variable {name : String} {f : Function} {pos : Nat} {callee : String} {which : ReservedSlot}
  {words words' : Nat}

/-- Only calls lie over reserved slots. -/
theorem isSome_outgoingSite?_of_mem_overlapViolations {v : Violation}
    (h : v ∈ f.overlapViolations name pos callee words which) : v.outgoingSite?.isSome := by
  rw [overlapViolations, List.mem_ite_nil_right, List.mem_singleton] at h
  rw [h.2]
  rfl

/-- If a call passes fewer words they lie over fewer reserved slots. -/
theorem overlapViolations_fewer (h : words' ≤ words) :
    Fewer (f.overlapViolations name pos callee words' which)
      (f.overlapViolations name pos callee words which) :=
  .ite (fun hover => by omega) (by simp [outgoingSite?]) (.refl _)

/-- A call that passes fewer words is wrong in fewer ways. -/
theorem callViolations_fewer (h : words' ≤ words) :
    Fewer (f.callViolations name pos callee words') (f.callViolations name pos callee words) := by
  rw [callViolations, callViolations, ← ite_not (p := words' = 0), ← ite_not (p := words = 0)]
  refine .ite (fun hsome => by omega) (fun v hv => ?_) (.append (.append ?_ ?_) ?_)
  · simp only [List.mem_append, List.mem_ite_nil_right, List.mem_singleton] at hv
    rcases hv with (⟨-, rfl⟩ | hv) | hv
    · rfl
    · exact isSome_outgoingSite?_of_mem_overlapViolations hv
    · exact isSome_outgoingSite?_of_mem_overlapViolations hv
  · exact .ite (fun hfit => by omega) (by simp [outgoingSite?]) (.singleton rfl rfl)
  · exact overlapViolations_fewer h
  · exact overlapViolations_fewer h

/-- A tail call that passes fewer words is wrong in fewer ways. -/
theorem tailCallViolations_fewer (h : words' ≤ words) :
    Fewer (tailCallViolations name pos callee words')
      (tailCallViolations name pos callee words) := by
  rw [tailCallViolations, tailCallViolations, ← ite_not (p := words' = 0),
    ← ite_not (p := words = 0)]
  exact .ite (fun hsome => by omega) (by simp [outgoingSite?]) (.singleton rfl rfl)

end Function

namespace Program

variable {conv conv' : Convention}

/-- With more parameter registers a call of a name passes no more words, and it is a call of a
function just as before. -/
theorem outgoingWords?_cases (h : conv.ParamsLe conv') (p : Program) (callee : String) :
    (p.outgoingWords? conv' callee = none ∧ p.outgoingWords? conv callee = none) ∨
      ∃ words' words, p.outgoingWords? conv' callee = some words' ∧
        p.outgoingWords? conv callee = some words ∧ words' ≤ words := by
  rw [outgoingWords?, outgoingWords?]
  split
  · exact .inr ⟨_, _, rfl, rfl, h.outgoingWords_le _⟩
  · exact .inl ⟨rfl, rfl⟩

/-- With more parameter registers an instruction is wrong in fewer ways. -/
theorem outgoingViolations_fewer (h : conv.ParamsLe conv') (p : Program) (name : String)
    (f : Function) (pos : Nat) (i : Instruction) :
    Fewer (p.outgoingViolations conv' name f pos i) (p.outgoingViolations conv name f pos i) := by
  have hwords := outgoingWords?_cases h p
  rw [outgoingViolations.eq_def, outgoingViolations.eq_def]
  split
  · next callee =>
    rcases hwords callee with ⟨heq', heq⟩ | ⟨words', words, heq', heq, hle⟩
    · rw [heq', heq]
    · rw [heq', heq]
      exact Function.callViolations_fewer hle
  · next callee =>
    rcases hwords callee with ⟨heq', heq⟩ | ⟨words', words, heq', heq, hle⟩
    · rw [heq', heq]
    · rw [heq', heq]
      exact Function.tailCallViolations_fewer hle
  · rfl

/-- With more parameter registers the checks find fewer calls that pass their arguments wrongly, and
the same otherwise. -/
theorem violations_fewer (h : conv.ParamsLe conv') (p : Program) :
    Fewer (p.violations conv') (p.violations conv) := by
  -- The convention is used for the arguments of calls and nowhere else.
  have hframes : Fewer (p.frameViolations conv') (p.frameViolations conv) :=
    .append (.refl _) (.flatMap fun g => .append (.refl _) (.flatMap fun i =>
      outgoingViolations_fewer h p g.1 g.2 i.2 i.1))
  exact ((Fewer.append (.refl _) hframes).append (.refl _)).append (.refl _)

/-- More parameter registers never invalidate a program. If a convention has at least as many
parameter registers of either class as another one

* no call passes more words on the stack, whatever its signature is;
* the violations that are not about arguments on the stack are the same ones, in the same order;
* such a violation is found under both conventions or under none;
* a call whose arguments do not fit into the frame, lie over one of the reserved slots, or are lost
  in a tail call is found with the same fault under the other convention;
* a program that is well formed under the other convention is well formed.

The words that fewer than 2 ^ 30 arguments take are a signed word (`Convention.locations_tile`). -/
theorem violations_of_paramsLe (h : conv.ParamsLe conv') (p : Program) :
    (∀ sig, conv'.outgoingWords sig ≤ conv.outgoingWords sig) ∧
    others (p.violations conv') = others (p.violations conv) ∧
    (∀ v : Violation, v.outgoingSite? = none →
      (v ∈ p.violations conv' ↔ v ∈ p.violations conv)) ∧
    (∀ v ∈ p.violations conv', ∀ site, v.outgoingSite? = some site →
      ∃ v' ∈ p.violations conv, v'.outgoingSite? = some site) ∧
    (p.WellFormed conv → p.WellFormed conv') := by
  have hfewer := violations_fewer h p
  refine ⟨h.outgoingWords_le, hfewer.others_eq, fun v => hfewer.mem_iff,
    fun v hmem site => hfewer.exists_mem hmem, fun hwf => ?_⟩
  rw [show p.violations conv = [] from hwf] at hfewer
  exact hfewer.eq_nil

/-- A program that calls a function of six integers, jumps to a label that it does not have, and
calls the function once more as a tail call. Its reserved slots are the first and the last one of
four. -/
def crowded : Program where
  globals := [
    ("f", .function (.external ⟨"f", ⟨List.replicate 6 .int, none⟩⟩)),
    ("main", .function (.internal {
      signature := .main
      code := #[.call (.symbol "f"), .goto 7#32, .tailCall (.symbol "f")]
      frameSize := 16#32
      stackSize := 0#32
      linkSlot := 0#32
      returnSlot := 3#32 }))]
  entry := "main"

/-- With four integer parameter registers instead of one a call passes two words instead of five.
They fit into the frame and lie over one of its reserved slots only, while the tail call is wrong
under both conventions, and so is the jump. -/
theorem violations_crowded :
    (Convention.withIntParams 1).ParamsLe .standard ∧
    crowded.violations (.withIntParams 1) =
      [.outgoingOutOfFrame "main" 0 "f" 5, .outgoingOverlapsSlot "main" 0 "f" .link 0,
        .outgoingOverlapsSlot "main" 0 "f" .returnAddress 3, .tailCallStackArguments "main" 2 "f" 5,
        .undefinedLabel "main" 1 7#32] ∧
    crowded.violations .standard =
      [.outgoingOverlapsSlot "main" 0 "f" .link 0, .tailCallStackArguments "main" 2 "f" 2,
        .undefinedLabel "main" 1 7#32] ∧
    others (crowded.violations .standard) = others (crowded.violations (.withIntParams 1)) := by
  have hmore : (Convention.withIntParams 1).ParamsLe .standard := ⟨by decide, by decide⟩
  exact ⟨hmore, by decide +kernel, by decide +kernel,
    (violations_of_paramsLe hmore crowded).2.1⟩

end Program

end RegisterMachine
