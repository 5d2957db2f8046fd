import Mathlib.Data.List.Nodup
import Mathlib.Data.Set.Insert
import Mathlib.Logic.Function.Basic

/-!
# Resources and who holds them

Resources are made for an owner, and go when the owner gives up what it holds.  `Accounted` says
that each live resource is one of `base` or is held once, by one owner.

* `Accounted.acquires`: an owner may be given a resource that is not live.
* `Accounted.release`: an owner may give up all that it holds.
-/

namespace BasicCli.Ownership

variable {R O : Type} {base live live' : Set R} {holds : O → List R} {held : List R} {o : O}

/-- What is live is `base` and what the owners hold, and nothing is there twice. -/
structure Accounted (base live : Set R) (holds : O → List R) : Prop where
  mem_live_iff : ∀ r, r ∈ live ↔ r ∈ base ∨ ∃ o, r ∈ holds o
  notMem_base : ∀ o, ∀ r ∈ holds o, r ∉ base
  nodup : ∀ o, (holds o).Nodup
  unique : ∀ o o' r, r ∈ holds o → r ∈ holds o' → o = o'

/-- Nothing happens, or one resource is made that has not been live, and added to what is held. -/
inductive Acquires (live : Set R) (held : List R) : Set R → List R → Prop
  | same : Acquires live held live held
  | fresh {r : R} (h : r ∉ live) : Acquires live held (insert r live) (held ++ [r])

/-- Nobody holds anything. -/
theorem Accounted.init (h : ∀ o, holds o = []) : Accounted base base holds where
  mem_live_iff r := by simp [h]
  notMem_base o r hr := by simp [h] at hr
  nodup o := by simp [h]
  unique o o' r hr := by simp [h] at hr

theorem Accounted.mem_live (h : Accounted base live holds) {r : R} (hr : r ∈ holds o) :
    r ∈ live :=
  (h.mem_live_iff r).mpr (.inr ⟨o, hr⟩)

variable [DecidableEq O]

theorem mem_update_append {r r' : R} {o' : O} :
    r' ∈ Function.update holds o (holds o ++ [r]) o' ↔ r' ∈ holds o' ∨ o' = o ∧ r' = r := by
  by_cases ho : o' = o
  · subst ho
    simp
  · simp [ho]

theorem mem_update_nil {r : R} {o' : O} :
    r ∈ Function.update holds o [] o' ↔ o' ≠ o ∧ r ∈ holds o' := by
  by_cases ho : o' = o
  · subst ho
    simp
  · simp [ho]

/-- **A new resource of an owner.** -/
theorem Accounted.acquires (h : Accounted base live holds)
    (hacquires : Acquires live (holds o) live' held) :
    Accounted base live' (Function.update holds o held) := by
  cases hacquires with
  | same => rwa [Function.update_eq_self]
  | @fresh r hr =>
    -- What is not live is held by nobody.
    have hheld : ∀ o', r ∉ holds o' := fun o' hmem => hr (h.mem_live hmem)
    refine ⟨fun r' => ?_, fun o' r' hr' => ?_, fun o' => ?_, fun o₁ o₂ r' h₁ h₂ => ?_⟩
    · simp only [Set.mem_insert_iff, h.mem_live_iff, mem_update_append]
      constructor
      · rintro (rfl | hbase | ⟨o', ho'⟩)
        · exact .inr ⟨o, .inr ⟨rfl, rfl⟩⟩
        · exact .inl hbase
        · exact .inr ⟨o', .inl ho'⟩
      · rintro (hbase | ⟨o', ho' | ⟨-, rfl⟩⟩)
        · exact .inr (.inl hbase)
        · exact .inr (.inr ⟨o', ho'⟩)
        · exact .inl rfl
    · rcases mem_update_append.mp hr' with hold | ⟨-, rfl⟩
      · exact h.notMem_base o' r' hold
      · exact fun hbase => hr ((h.mem_live_iff r').mpr (.inl hbase))
    · by_cases ho : o' = o
      · subst ho
        rw [Function.update_self]
        exact (h.nodup o').append (List.nodup_singleton r) (List.disjoint_singleton.mpr (hheld o'))
      · rw [Function.update_of_ne ho]
        exact h.nodup o'
    · -- The new one is held by nobody else.
      rcases mem_update_append.mp h₁ with hold₁ | ⟨rfl, rfl⟩
      · rcases mem_update_append.mp h₂ with hold₂ | ⟨rfl, rfl⟩
        · exact h.unique o₁ o₂ r' hold₁ hold₂
        · exact absurd hold₁ (hheld o₁)
      · rcases mem_update_append.mp h₂ with hold₂ | ⟨rfl, -⟩
        · exact absurd hold₂ (hheld o₂)
        · rfl

/-- **An owner gives up what it holds.** -/
theorem Accounted.release (h : Accounted base live holds) (o : O) :
    Accounted base (live \ {r | r ∈ holds o}) (Function.update holds o []) := by
  refine ⟨fun r => ?_, fun o' r hr => ?_, fun o' => ?_, fun o₁ o₂ r h₁ h₂ => ?_⟩
  · rw [Set.mem_sdiff, h.mem_live_iff]
    constructor
    · rintro ⟨hbase | ⟨o', ho'⟩, hnot⟩
      · exact .inl hbase
      · refine .inr ⟨o', mem_update_nil.mpr ⟨?_, ho'⟩⟩
        rintro rfl
        exact hnot ho'
    · rintro (hbase | ⟨o', ho'⟩)
      · exact ⟨.inl hbase, fun hr => h.notMem_base o r hr hbase⟩
      · obtain ⟨hne, hr⟩ := mem_update_nil.mp ho'
        exact ⟨.inr ⟨o', hr⟩, fun hr' => hne (h.unique o' o r hr hr')⟩
  · exact h.notMem_base o' r (mem_update_nil.mp hr).2
  · by_cases ho : o' = o
    · subst ho
      rw [Function.update_self]
      exact List.nodup_nil
    · rw [Function.update_of_ne ho]
      exact h.nodup o'
  · exact h.unique o₁ o₂ r (mem_update_nil.mp h₁).2 (mem_update_nil.mp h₂).2

end BasicCli.Ownership
