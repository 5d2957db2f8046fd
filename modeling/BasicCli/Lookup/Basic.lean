import Mathlib.Data.List.Nodup
import Mathlib.Order.Basic

/-!
# Stores that are filled by need

A store is a list of keys with their values, searched from the front and added to at the end, by
whom has not found a key.

* `mem_of_lookup`, `exists_lookup_of_mem`: a key is found iff it is there.
* `lookup_eq_some_of_mem`: and then with its value, where no key is there twice.
* `nodup_keys_append`: a key that has not been found may be added.
-/

namespace BasicCli.Lookup

variable {κ ν : Type} [BEq κ] [LawfulBEq κ] {l : List (κ × ν)} {k : κ} {v : ν}

theorem mem_of_lookup (h : l.lookup k = some v) : (k, v) ∈ l := by
  obtain ⟨l₁, l₂, rfl, -⟩ := List.lookup_eq_some_iff.mp h
  exact List.mem_append_right l₁ List.mem_cons_self

theorem exists_lookup_of_mem (h : (k, v) ∈ l) : ∃ v', l.lookup k = some v' := by
  rw [← Option.isSome_iff_exists, List.lookup_isSome_iff]
  exact ⟨(k, v), h, beq_self_eq_true k⟩

/-- Where no key is there twice, a key has the value beside it. -/
theorem lookup_eq_some_of_mem (hl : (l.map Prod.fst).Nodup) (h : (k, v) ∈ l) :
    l.lookup k = some v := by
  obtain ⟨v', hv'⟩ := exists_lookup_of_mem h
  have heq := List.inj_on_of_nodup_map hl (mem_of_lookup hv') h rfl
  rw [hv', (Prod.mk.inj heq).2]

theorem notMem_keys_of_lookup (h : l.lookup k = none) : k ∉ l.map Prod.fst := by
  rw [List.lookup_eq_none_iff] at h
  rw [List.mem_map]
  rintro ⟨entry, hentry, rfl⟩
  have hne := h entry hentry
  rw [bne_self_eq_false] at hne
  cases hne

theorem lookup_append_singleton (h : l.lookup k = none) : (l ++ [(k, v)]).lookup k = some v := by
  rw [List.lookup_append, h, Option.none_or, List.lookup_cons_self]

theorem nodup_keys_append (hl : (l.map Prod.fst).Nodup) (h : l.lookup k = none) :
    ((l ++ [(k, v)]).map Prod.fst).Nodup := by
  rw [List.map_append, List.nodup_append]
  refine ⟨hl, List.pairwise_singleton _ k, ?_⟩
  intro a ha b hb hab
  rw [List.mem_singleton.mp hb] at hab
  subst hab
  exact notMem_keys_of_lookup h ha

end BasicCli.Lookup
