/-! # Results that may be errors

What the success or the failure of a composed result says about its parts.

* `bind_eq_ok_iff`, `bind_eq_error_iff` — a result that is used by another.
* `map_eq_ok_iff`, `map_eq_error_iff` — a result of which a function is taken.
* `getElem?_of_mapM_eq_ok`, `exists_mem_of_mapM_eq_error` — lists of results.
* `Corresponds` — results that succeed in related values, or fail with errors up to a renaming.
-/

namespace RegisterMachine

/-! ## Single results -/

/-- Renaming the error of a result does not touch a value. -/
@[simp] theorem mapError_ok {ε ε' α : Type} (f : ε → ε') (a : α) :
    (Except.ok a : Except ε α).mapError f = .ok a := rfl

/-- The error of a result is renamed. -/
@[simp] theorem mapError_error {ε ε' α : Type} (f : ε → ε') (e : ε) :
    (Except.error e : Except ε α).mapError f = .error (f e) := rfl

/-- A renamed result succeeds where the result does. -/
@[simp] theorem mapError_eq_ok_iff {ε ε' α : Type} {f : ε → ε'} {x : Except ε α} {a : α} :
    x.mapError f = .ok a ↔ x = .ok a := by
  cases x <;> simp

/-- The errors of a renamed result are the renamed errors. -/
@[simp] theorem mapError_eq_error_iff {ε ε' α : Type} {f : ε → ε'} {x : Except ε α} {e' : ε'} :
    x.mapError f = .error e' ↔ ∃ e, x = .error e ∧ f e = e' := by
  cases x <;> simp

/-- A result has a value where it succeeds. -/
theorem toOption_eq_some_iff {ε α : Type} {x : Except ε α} {a : α} :
    x.toOption = some a ↔ x = .ok a := by
  cases x <;> simp [Except.toOption]

/-- A sequence of two results succeeds if both do, the second one on the value of the first. -/
theorem bind_eq_ok_iff {ε α β : Type} {x : Except ε α} {f : α → Except ε β} {b : β} :
    (x >>= f) = .ok b ↔ ∃ a, x = .ok a ∧ f a = .ok b := by
  cases x <;> simp [bind, Except.bind]

/-- A sequence of two results fails if the first one fails, or the second one on its value. -/
theorem bind_eq_error_iff {ε α β : Type} {x : Except ε α} {f : α → Except ε β} {e : ε} :
    (x >>= f) = .error e ↔ x = .error e ∨ ∃ a, x = .ok a ∧ f a = .error e := by
  cases x <;> simp [bind, Except.bind]

/-- Errors may be renamed in each of two results of which one is used by the other. -/
theorem mapError_bind {ε ε' α β : Type} (f : ε → ε') (x : Except ε α) (k : α → Except ε β) :
    (x >>= k).mapError f = x.mapError f >>= fun a => (k a).mapError f := by
  cases x <;> rfl

/-- Errors that are renamed twice are renamed once. -/
theorem mapError_mapError {ε ε' ε'' α : Type} (f : ε → ε') (g : ε' → ε'') (x : Except ε α) :
    (x.mapError f).mapError g = x.mapError (g ∘ f) := by
  cases x <;> rfl

/-- The image of a result is that of its value. -/
theorem map_eq_ok_iff {ε α β : Type} {x : Except ε α} {f : α → β} {b : β} :
    x.map f = .ok b ↔ ∃ a, x = .ok a ∧ f a = b := by
  cases x <;> simp [Except.map]

/-- The image of a result has the errors of the result. -/
theorem map_eq_error_iff {ε α β : Type} {x : Except ε α} {f : α → β} {e : ε} :
    x.map f = .error e ↔ x = .error e := by
  cases x <;> simp [Except.map]

/-! ## Lists of results -/

/-- A list of results succeeds with one value for each of its members. -/
theorem getElem?_of_mapM_eq_ok {ε α β : Type} {g : α → Except ε β} {l : List α} {bs : List β}
    (h : l.mapM g = .ok bs) :
    bs.length = l.length ∧
      ∀ (i : Nat) (b : β), bs[i]? = some b → ∃ a, l[i]? = some a ∧ g a = .ok b := by
  induction l generalizing bs with
  | nil =>
    cases h
    simp
  | cons a l ih =>
    rw [List.mapM_cons] at h
    obtain ⟨b, hb, h⟩ := bind_eq_ok_iff.1 h
    obtain ⟨bs', hbs', h⟩ := bind_eq_ok_iff.1 h
    cases h
    obtain ⟨hlength, hget⟩ := ih hbs'
    refine ⟨by rw [List.length_cons, List.length_cons, hlength], fun i b' hi => ?_⟩
    cases i with
    | zero =>
      cases hi
      exact ⟨a, rfl, hb⟩
    | succ i => exact hget i b' hi

/-- What a list of results succeeds with comes from its members. -/
theorem exists_mem_of_mapM_eq_ok {ε α β : Type} {g : α → Except ε β} {l : List α} {bs : List β}
    (h : l.mapM g = .ok bs) {b : β} (hb : b ∈ bs) : ∃ a ∈ l, g a = .ok b := by
  obtain ⟨i, hi⟩ := List.getElem?_of_mem hb
  obtain ⟨a, ha, hab⟩ := (getElem?_of_mapM_eq_ok h).2 i b hi
  exact ⟨a, List.mem_of_getElem? ha, hab⟩

/-- A list of results fails with the failure of one of them. -/
theorem exists_mem_of_mapM_eq_error {ε α β : Type} {g : α → Except ε β} {l : List α} {e : ε}
    (h : l.mapM g = .error e) : ∃ a ∈ l, g a = .error e := by
  induction l with
  | nil => cases h
  | cons a l ih =>
    rw [List.mapM_cons, bind_eq_error_iff] at h
    rcases h with h | ⟨_, -, h⟩
    · exact ⟨a, by simp, h⟩
    · rcases bind_eq_error_iff.1 h with h | ⟨_, -, h⟩
      · obtain ⟨a', ha', h⟩ := ih h
        exact ⟨a', List.mem_cons_of_mem _ ha', h⟩
      · cases h

/-! ## Corresponding results -/

/-- Two results correspond if they succeed in related values, or if the second one fails with the
renamed error of the first one. -/
inductive Corresponds {ε α β : Type} (f : ε → ε) (R : α → β → Prop) :
    Except ε α → Except ε β → Prop where
  /-- Both succeed. -/
  | ok {a : α} {b : β} (related : R a b) : Corresponds f R (.ok a) (.ok b)
  /-- Both fail. -/
  | error (e : ε) : Corresponds f R (.error e) (.error (f e))

namespace Corresponds

variable {ε ε' α β α' β' : Type} {f : ε → ε} {f' : ε' → ε'} {R : α → β → Prop}
  {S : α' → β' → Prop} {x : Except ε α} {y : Except ε β}

/-- A result corresponds to itself. -/
theorem same (x : Except ε α) : Corresponds id (fun a a' => a = a') x x := by
  cases x with
  | ok a => exact .ok rfl
  | error e => exact .error e

/-- What corresponds under a relation corresponds under a weaker one. -/
theorem imp {R' : α → β → Prop} (h : Corresponds f R x y) (himp : ∀ a b, R a b → R' a b) :
    Corresponds f R' x y := by
  cases h with
  | ok related => exact .ok (himp _ _ related)
  | error e => exact .error e

/-- Results that are used by others correspond if the uses do. -/
theorem bind {k : α → Except ε α'} {k' : β → Except ε β'} (h : Corresponds f R x y)
    (hk : ∀ a b, R a b → Corresponds f S (k a) (k' b)) :
    Corresponds f S (x >>= k) (y >>= k') := by
  cases h with
  | ok related => exact hk _ _ related
  | error e => exact .error e

/-- Results correspond after a change of their errors with which the renamings commute. -/
theorem mapError {g : ε → ε'} (h : Corresponds f R x y) (hg : ∀ e, f' (g e) = g (f e)) :
    Corresponds f' R (x.mapError g) (y.mapError g) := by
  cases h with
  | ok related => exact .ok related
  | error e =>
    rw [mapError_error, mapError_error, ← hg]
    exact .error _

/-- Results correspond after a change of their values. -/
theorem map {g : α → α'} {g' : β → β'} (h : Corresponds f R x y)
    (hg : ∀ a b, R a b → S (g a) (g' b)) : Corresponds f S (x.map g) (y.map g') := by
  cases h with
  | ok related => exact .ok (hg _ _ related)
  | error e => exact .error e

/-- Lists of corresponding results correspond. -/
theorem mapM {γ : Type} {p : α → β} {g : γ → Except ε α} {g' : γ → Except ε β} {l : List γ}
    (h : ∀ c ∈ l, Corresponds f (fun a b => b = p a) (g c) (g' c)) :
    Corresponds f (fun as bs => bs = as.map p) (l.mapM g) (l.mapM g') := by
  induction l with
  | nil => exact .ok rfl
  | cons c l ih =>
    simp only [List.mapM_cons]
    refine (h c (by simp)).bind fun a b hab => ?_
    refine (ih fun c' hc' => h c' (by simp [hc'])).bind fun as bs hbs => ?_
    exact .ok (by rw [hab, hbs, List.map_cons])

end Corresponds

end RegisterMachine
