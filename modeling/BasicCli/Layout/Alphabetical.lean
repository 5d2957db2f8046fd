import Mathlib.Data.List.Sort

/-!
# Alphabetical numbering

A finite set of tags is numbered from `0` in the alphabetical order of the tags' names, whatever
order they were declared in.  `tagNumber` is the number of a tag and `tagAt?` reads a number back to
its tag (`tagAt?_tagNumber`).
-/

namespace BasicCli.Layout

variable {α : Type} (name : α → String)

/-- The tags in alphabetical order of their names. -/
def alphabetical (tags : List α) : List α :=
  tags.insertionSort fun a b => name a ≤ name b

/-- The tag numbered `n`, if the set has one. -/
def tagAt? (tags : List α) (n : ℕ) : Option α := (alphabetical name tags)[n]?

/-- The number of the tag `t`. -/
def tagNumber [DecidableEq α] (tags : List α) (t : α) : ℕ := (alphabetical name tags).idxOf t

theorem mem_alphabetical {tags : List α} {t : α} : t ∈ alphabetical name tags ↔ t ∈ tags :=
  (List.perm_insertionSort _ tags).mem_iff

theorem tagAt?_tagNumber [DecidableEq α] {tags : List α} {t : α} (h : t ∈ tags) :
    tagAt? name tags (tagNumber name tags t) = some t := by
  have hlt : (alphabetical name tags).idxOf t < (alphabetical name tags).length :=
    List.idxOf_lt_length_iff.mpr ((mem_alphabetical name).mpr h)
  unfold tagAt? tagNumber
  rw [List.getElem?_eq_getElem hlt, List.getElem_idxOf]

end BasicCli.Layout
