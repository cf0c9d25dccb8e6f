/-! # Vocabularies

The language of the machine is written in small closed vocabularies: registers, data types, memory
chunks, comparisons, operators. A `Vocabulary` lists the members of such a type once and spells each
of them in small letters; reading a word in any mixture of ASCII cases, and printing the canonical
word, are both derived from that one table.

* `foldCase` — the spelling of a word in small ASCII letters.
* `Vocabulary` — a finite type with a name for every member.
* `Vocabulary.find?` — the member that a word names, in any ASCII case.
-/

namespace RegisterMachine

/-- The word with every ASCII capital letter made small; all other characters stay as they are. -/
def foldCase (s : String) : String := String.ofList (s.toList.map Char.toLower)

@[simp] theorem toList_foldCase (s : String) :
    (foldCase s).toList = s.toList.map Char.toLower := by
  simp [foldCase]

/-- A finite type whose members are spelled by words of the language. -/
class Vocabulary (α : Type) where
  /-- Every member, in the order in which the language lists them. -/
  all : List α
  /-- The canonical spelling of a member, in small letters. -/
  name : α → String

namespace Vocabulary

variable {α : Type} [Vocabulary α]

/-- The first member whose name is `s`, ASCII case aside. -/
def find? (s : String) : Option α :=
  (all : List α).find? fun a => name a == foldCase s

/-- Words that differ only in ASCII case name the same member. -/
theorem find?_congr {s t : String} (h : foldCase s = foldCase t) :
    (find? s : Option α) = find? t := by
  simp only [find?, h]

/-- A word finds only members that it spells. -/
theorem name_of_find? {s : String} {a : α} (h : find? s = some a) : name a = foldCase s := by
  simpa using List.find?_some h

/-- Only members are found. -/
theorem mem_of_find? {s : String} {a : α} (h : find? s = some a) : a ∈ (all : List α) :=
  List.mem_of_find?_eq_some h

end Vocabulary

end RegisterMachine
