import RegisterMachine.Proofs.Check.Accepted

/-! # Checks and the order of declarations

Checks look globals up by their names. In a well-formed program names are distinct, so a name finds
the same global in every order of the declarations, from whichever end the search begins, and every
check of a global or a function finds the same in it.

* `Program.duplicates_eq_nil_iff` — no name is declared twice exactly if names are distinct.
* `find?_name_of_perm` — a search by name does not depend on the order.
* `Program.WellFormed.of_perm` — a program is well formed in every order of its globals.
-/

namespace RegisterMachine

variable {gs gs' : List (String × Global)} {name : String} {g : String × Global}

/-- With distinct names a search by name finds the only global of this name. -/
theorem find?_name_eq_some_iff (nodup : (gs.map (·.1)).Nodup) :
    (gs.find? fun g => g.1 = name) = some g ↔ g ∈ gs ∧ g.1 = name := by
  constructor
  · intro h
    exact ⟨List.mem_of_find?_eq_some h, by simpa using List.find?_some h⟩
  · rintro ⟨hmem, rfl⟩
    induction gs with
    | nil => cases hmem
    | cons g' gs ih =>
      obtain ⟨hnew, hnodup⟩ := List.nodup_cons.1 nodup
      rcases List.mem_cons.1 hmem with rfl | hmem
      · simp
      · -- The name of a later global is not that of the first one.
        have hne : g'.1 ≠ g.1 := fun heq => hnew (List.mem_map.2 ⟨g, hmem, heq.symm⟩)
        rw [List.find?_cons_of_neg (by simpa using hne)]
        exact ih hnodup hmem

/-- With distinct names a search by name does not depend on the order of the globals. -/
theorem find?_name_of_perm (hperm : gs.Perm gs') (nodup : (gs.map (·.1)).Nodup) (name : String) :
    (gs'.find? fun g => g.1 = name) = gs.find? fun g => g.1 = name := by
  have hnodup : (gs'.map (·.1)).Nodup := (hperm.map _).nodup_iff.1 nodup
  ext g
  rw [find?_name_eq_some_iff nodup, find?_name_eq_some_iff hnodup, hperm.mem_iff]

namespace Program

variable {p p' : Program} {conv : Convention} {taken : List String}

/-- No name is declared twice exactly if the names of globals differ from each other and from those
that are taken. -/
theorem duplicates_eq_nil_iff :
    duplicates taken gs = [] ↔
      (gs.map (·.1)).Nodup ∧ ∀ name ∈ gs.map (·.1), name ∉ taken := by
  induction gs generalizing taken with
  | nil => simp [duplicates]
  | cons g gs ih =>
    obtain ⟨name, g⟩ := g
    by_cases hmem : name ∈ taken
    · simp [duplicates, hmem]
    · simp only [duplicates, hmem, if_false, ih, List.map_cons, List.nodup_cons, List.mem_cons,
        not_or, forall_eq_or_imp, not_false_eq_true, true_and]
      constructor
      · rintro ⟨hnodup, hfresh⟩
        exact ⟨⟨fun h => (hfresh name h).1 rfl, hnodup⟩, fun other h => (hfresh other h).2⟩
      · rintro ⟨⟨hnew, hnodup⟩, hfresh⟩
        exact ⟨hnodup, fun other h => ⟨fun heq => hnew (heq ▸ h), hfresh other h⟩⟩

/-- Names of globals are distinct in a well-formed program. -/
theorem WellFormed.nodup (h : p.WellFormed conv) : (p.globals.map (·.1)).Nodup := by
  have hsymbols := (wellFormed_iff.1 h).1
  simp only [symbolViolations, List.append_eq_nil_iff] at hsymbols
  exact (duplicates_eq_nil_iff.1 hsymbols.1.1.1).1

/-- A name has the same global in every order of the declarations. -/
theorem global?_of_perm (hperm : p.globals.Perm p'.globals) (nodup : (p.globals.map (·.1)).Nodup) :
    p'.global? = p.global? := by
  funext name
  rw [global?, global?, find?_name_of_perm hperm nodup]

/-- The last global of a name is the same in every order of the declarations. -/
theorem lastGlobal?_of_perm (hperm : p.globals.Perm p'.globals)
    (nodup : (p.globals.map (·.1)).Nodup) : p'.lastGlobal? = p.lastGlobal? := by
  have hreverse : p.globals.reverse.Perm p'.globals.reverse :=
    (List.reverse_perm _).trans (hperm.trans (List.reverse_perm _).symm)
  have hnodup : (p.globals.reverse.map (·.1)).Nodup :=
    ((List.reverse_perm p.globals).map _).nodup_iff.2 nodup
  funext name
  rw [lastGlobal?, lastGlobal?, find?_name_of_perm hreverse hnodup]

/-- A program is well formed in every order of its globals. -/
theorem WellFormed.of_perm (h : p.WellFormed conv) (hperm : p.globals.Perm p'.globals)
    (hentry : p.entry = p'.entry) : p'.WellFormed conv := by
  have hnodup := h.nodup
  have hfirst := global?_of_perm hperm hnodup
  have hlast := lastGlobal?_of_perm hperm hnodup
  -- Checks of one global or function are the same for both programs.
  have hentries : p'.entryViolations = p.entryViolations := by
    rw [entryViolations, entryViolations, hfirst, hentry]
  have hinitial : p'.initialViolations = p.initialViolations := by
    funext var item
    cases item <;> simp only [initialViolations, hlast]
  have hcontents : p'.contentViolations = p.contentViolations := by
    funext g
    simp only [contentViolations, hinitial]
  have hreferences : p'.referenceViolations = p.referenceViolations := by
    funext name pc i
    simp only [referenceViolations, hlast]
  have houtgoing : p'.outgoingViolations conv = p.outgoingViolations conv := by
    funext name f pc i
    simp only [outgoingViolations, outgoingWords?, hfirst]
  have hmem : ∀ g, g ∈ p'.globals ↔ g ∈ p.globals := fun g => hperm.mem_iff.symm
  have hduplicates : duplicates [] p'.globals = duplicates [] p.globals := by
    have hnodup' := (hperm.map (·.1)).nodup_iff.1 hnodup
    rw [duplicates_eq_nil_iff.2 ⟨hnodup', fun _ _ => List.not_mem_nil⟩,
      duplicates_eq_nil_iff.2 ⟨hnodup, fun _ _ => List.not_mem_nil⟩]
  simp only [wellFormed_iff, symbolViolations, frameViolations, labelViolations, operandViolations,
    List.append_eq_nil_iff, List.flatMap_eq_nil_iff, inFunctions_eq_nil_iff, hmem, hduplicates,
    hentries, hcontents, hreferences, houtgoing] at h ⊢
  exact h

end Program

end RegisterMachine
