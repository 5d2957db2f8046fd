import Mathlib.Data.List.Forall2

/-!
# Functions without a state that can fail

When a `do` of the `Except` monad ends well, and what it fails with.
-/

namespace BasicCli.Run

variable {ε ε' α β : Type}

theorem except_bind_eq_ok_iff {x : Except ε β} {f : β → Except ε α} {a : α} :
    (x >>= f) = .ok a ↔ ∃ b, x = .ok b ∧ f b = .ok a := by
  rcases x with e | b
  · exact ⟨nofun, nofun⟩
  · exact ⟨fun h => ⟨b, rfl, h⟩, fun ⟨_, hb, h⟩ => by cases hb; exact h⟩

theorem except_bind_eq_error_iff {x : Except ε β} {f : β → Except ε α} {e : ε} :
    (x >>= f) = .error e ↔ x = .error e ∨ ∃ b, x = .ok b ∧ f b = .error e := by
  rcases x with e' | b
  · constructor
    · intro h
      cases h
      exact .inl rfl
    · rintro (h | ⟨_, hb, -⟩)
      · cases h
        rfl
      · cases hb
  · constructor
    · exact fun h => .inr ⟨b, rfl, h⟩
    · rintro (hb | ⟨_, hb, h⟩)
      · cases hb
      · cases hb
        exact h

theorem mapError_eq_ok_iff {x : Except ε α} {f : ε → ε'} {a : α} :
    x.mapError f = .ok a ↔ x = .ok a := by
  rcases x with e | b
  · exact ⟨nofun, nofun⟩
  · constructor
    · intro h
      cases h
      rfl
    · intro h
      cases h
      rfl

theorem mapError_eq_error_iff {x : Except ε α} {f : ε → ε'} {e : ε'} :
    x.mapError f = .error e ↔ ∃ err, x = .error err ∧ f err = e := by
  rcases x with err | b
  · constructor
    · intro h
      cases h
      exact ⟨err, rfl, rfl⟩
    · rintro ⟨_, herr, rfl⟩
      cases herr
      rfl
  · exact ⟨nofun, nofun⟩

/-- A list of functions ends well when each of them does. -/
theorem mapM_eq_ok_iff {f : β → Except ε α} {l : List β} {as : List α} :
    l.mapM f = .ok as ↔ List.Forall₂ (fun b a => f b = .ok a) l as := by
  induction l generalizing as with
  | nil =>
    rw [List.mapM_nil, List.forall₂_nil_left_iff]
    constructor
    · intro h
      cases h
      rfl
    · rintro rfl
      rfl
  | cons b l ih =>
    rw [List.mapM_cons, except_bind_eq_ok_iff, List.forall₂_cons_left_iff]
    constructor
    · rintro ⟨a, ha, h⟩
      obtain ⟨as', has', h⟩ := except_bind_eq_ok_iff.mp h
      cases h
      exact ⟨a, as', ha, ih.mp has', rfl⟩
    · rintro ⟨a, as', ha, has', rfl⟩
      exact ⟨a, ha, except_bind_eq_ok_iff.mpr ⟨as', ih.mpr has', rfl⟩⟩

/-- What ends well under a condition does so on a list. -/
theorem mapM_eq_ok_iff_of {f : β → Except ε α} {P : β → Prop} {g : β → α}
    (h : ∀ b a, f b = .ok a ↔ P b ∧ a = g b) {l : List β} {as : List α} :
    l.mapM f = .ok as ↔ (∀ b ∈ l, P b) ∧ as = l.map g := by
  rw [mapM_eq_ok_iff]
  simp only [h]
  induction l generalizing as with
  | nil => simp
  | cons b l ih =>
    rw [List.forall₂_cons_left_iff, List.forall_mem_cons, List.map_cons]
    constructor
    · rintro ⟨a, as', ⟨hP, rfl⟩, hrest, rfl⟩
      obtain ⟨hall, rfl⟩ := ih.mp hrest
      exact ⟨⟨hP, hall⟩, rfl⟩
    · rintro ⟨⟨hP, hall⟩, rfl⟩
      exact ⟨g b, l.map g, ⟨hP, rfl⟩, ih.mpr ⟨hall, rfl⟩, rfl⟩

theorem mapM_of_forall {f : β → Except ε α} {g : β → α} {l : List β}
    (h : ∀ b ∈ l, f b = .ok (g b)) : l.mapM f = .ok (l.map g) := by
  rw [mapM_eq_ok_iff, List.forall₂_map_right_iff, List.forall₂_same]
  exact h

theorem forM_cons {f : β → Except ε Unit} (b : β) (l : List β) :
    (b :: l).forM f = f b >>= fun _ => l.forM f := rfl

theorem forM_eq_ok_iff {f : β → Except ε Unit} {l : List β} :
    l.forM f = .ok () ↔ ∀ b ∈ l, f b = .ok () := by
  induction l with
  | nil => exact ⟨fun _ b hb => (nomatch hb), fun _ => rfl⟩
  | cons b l ih =>
    rw [forM_cons, except_bind_eq_ok_iff, List.forall_mem_cons, ← ih]
    exact ⟨fun ⟨_, hb, h⟩ => ⟨hb, h⟩, fun ⟨hb, h⟩ => ⟨(), hb, h⟩⟩

theorem error_of_forM {f : β → Except ε Unit} {l : List β} {e : ε} (h : l.forM f = .error e) :
    ∃ b ∈ l, f b = .error e := by
  induction l with
  | nil => cases h
  | cons b l ih =>
    rw [forM_cons] at h
    rcases except_bind_eq_error_iff.mp h with h | ⟨-, -, h⟩
    · exact ⟨b, List.mem_cons_self, h⟩
    · obtain ⟨b', hb', hf⟩ := ih h
      exact ⟨b', List.mem_cons_of_mem b hb', hf⟩

end BasicCli.Run
