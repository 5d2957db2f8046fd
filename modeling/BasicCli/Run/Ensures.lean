import Mathlib.Order.Basic

/-!
# What a function that changes a state ensures

A function with a state that can fail is a `StateT σ (Except ε) α`.  `Ensures x s Q E` says of `x`
in the state `s` that it ends with `Q`, or fails with `E`; the rules take a `do` apart.

* `ensures_bind`: what the first part ensures is what the second may rely on.
* `Ensures.of_ok`, `Ensures.of_error`: what this says of an outcome.
-/

namespace BasicCli.Run

variable {σ ε α β : Type} {s s' : σ} {Q : α → σ → Prop} {E : ε → Prop}

/-! ### Outcomes -/

/-- A first part that ends, and the rest from where it ends. -/
theorem bind_ok {x : StateT σ (Except ε) β} {f : β → StateT σ (Except ε) α} {b : β}
    (h : x s = .ok (b, s')) : (x >>= f) s = f b s' := by
  have hbind : (x >>= f) s = (x s).bind fun r => f r.1 r.2 := rfl
  rw [hbind, h]
  rfl

/-- A first part that fails is all there is. -/
theorem bind_error {x : StateT σ (Except ε) β} {f : β → StateT σ (Except ε) α} {e : ε}
    (h : x s = .error e) : (x >>= f) s = .error e := by
  have hbind : (x >>= f) s = (x s).bind fun r => f r.1 r.2 := rfl
  rw [hbind, h]
  rfl

theorem bind_lift_ok {x : Except ε β} {f : β → StateT σ (Except ε) α} {b : β} (h : x = .ok b) :
    (liftM x >>= f) s = f b s := by
  subst h
  rfl

theorem bind_lift_error {x : Except ε β} {f : β → StateT σ (Except ε) α} {e : ε}
    (h : x = .error e) : (liftM x >>= f) s = .error e := by
  subst h
  rfl

/-- Two sequences do the same when their first parts do, and their rests do so from there. -/
theorem bind_eq_bind {x y : StateT σ (Except ε) β} {f g : β → StateT σ (Except ε) α}
    (hx : x s = y s) (hf : ∀ b s', y s = .ok (b, s') → f b s' = g b s') :
    (x >>= f) s = (y >>= g) s := by
  rcases h : y s with e | ⟨b, s'⟩
  · rw [bind_error h, bind_error (hx.trans h)]
  · rw [bind_ok h, bind_ok (hx.trans h)]
    exact hf b s' h

/-- What a mapped program answers. -/
theorem map_ok {x : StateT σ (Except ε) β} {f : β → α} {a : α} :
    (f <$> x) s = .ok (a, s') ↔ ∃ b, x s = .ok (b, s') ∧ f b = a := by
  have hmap : (f <$> x) s = (x s).bind fun r => .ok (f r.1, r.2) := rfl
  rw [hmap]
  rcases x s with e | ⟨b, s₁⟩
  · exact ⟨nofun, nofun⟩
  · constructor
    · intro h
      cases h
      exact ⟨b, rfl, rfl⟩
    · rintro ⟨b', h, rfl⟩
      cases h
      rfl

theorem map_eq_map {x y : StateT σ (Except ε) β} {f : β → α} (h : x s = y s) :
    (f <$> x) s = (f <$> y) s :=
  congrArg (fun r : Except ε (β × σ) => r.bind fun r => .ok (f r.1, r.2)) h

theorem map_error {x : StateT σ (Except ε) β} {f : β → α} {e : ε} :
    (f <$> x) s = .error e ↔ x s = .error e := by
  have hmap : (f <$> x) s = (x s).bind fun r => .ok (f r.1, r.2) := rfl
  rw [hmap]
  rcases x s with e' | r
  · constructor
    · intro h
      cases h
      rfl
    · intro h
      cases h
      rfl
  · constructor
    · intro h
      cases h
    · intro h
      cases h

theorem modify_apply {f : σ → σ} :
    (modify f : StateT σ (Except ε) Unit) s = .ok ((), f s) := rfl

/-! ### Lists of functions without a state -/

/-- A list of functions fails as the first one does that fails. -/
theorem error_of_mapM {f : β → Except ε α} {l : List β} {e : ε} (h : l.mapM f = .error e) :
    ∃ b ∈ l, f b = .error e := by
  induction l with
  | nil => cases h
  | cons b l ih =>
    rw [List.mapM_cons] at h
    rcases hb : f b with e' | a
    · rw [hb] at h
      cases h
      exact ⟨b, List.mem_cons_self, hb⟩
    · rcases hl : l.mapM f with e' | as
      · rw [hb, hl] at h
        cases h
        obtain ⟨b', hb', hf⟩ := ih hl
        exact ⟨b', List.mem_cons_of_mem b hb', hf⟩
      · rw [hb, hl] at h
        cases h

/-- A traversal that ends well has ended well at each element. -/
theorem ok_of_mapM {f : β → Except ε α} {l : List β} {as : List α} (h : l.mapM f = .ok as) :
    ∀ b ∈ l, ∃ a, f b = .ok a := by
  induction l generalizing as with
  | nil => exact fun b hb => nomatch hb
  | cons b l ih =>
    rw [List.mapM_cons] at h
    rcases hb : f b with e' | a
    · rw [hb] at h
      cases h
    · rcases hl : l.mapM f with e' | as'
      · rw [hb, hl] at h
        cases h
      · intro b' hb'
        rcases List.mem_cons.mp hb' with rfl | hb'
        · exact ⟨a, hb⟩
        · exact ih hl b' hb'

/-! ### Postconditions -/

/-- From `s`, `x` ends with an answer and a state with `Q`, or fails with an error with `E`. -/
def Ensures (x : StateT σ (Except ε) α) (s : σ) (Q : α → σ → Prop) (E : ε → Prop) : Prop :=
  match x s with
  | .ok (a, s') => Q a s'
  | .error e => E e

/-- `Ensures` by the two ways to end. -/
theorem ensures_iff {x : StateT σ (Except ε) α} :
    Ensures x s Q E ↔
      (∀ a s', x s = .ok (a, s') → Q a s') ∧ ∀ e, x s = .error e → E e := by
  unfold Ensures
  rcases x s with e | ⟨a, s'⟩
  · constructor
    · intro h
      refine ⟨fun a s' ha => (nomatch ha), fun e' he => ?_⟩
      cases he
      exact h
    · intro h
      exact h.2 e rfl
  · constructor
    · intro h
      refine ⟨fun a' s₁ ha => ?_, fun e he => nomatch he⟩
      cases ha
      exact h
    · intro h
      exact h.1 a s' rfl

/-- What holds where the program ends. -/
theorem Ensures.of_ok {x : StateT σ (Except ε) α} {a : α} (h : Ensures x s Q E)
    (hx : x s = .ok (a, s')) : Q a s' :=
  (ensures_iff.mp h).1 a s' hx

/-- What holds where the program fails. -/
theorem Ensures.of_error {x : StateT σ (Except ε) α} {e : ε} (h : Ensures x s Q E)
    (hx : x s = .error e) : E e :=
  (ensures_iff.mp h).2 e hx

/-- **Consequence**: less may be said of both ends. -/
theorem Ensures.mono {x : StateT σ (Except ε) α} {Q' : α → σ → Prop} {E' : ε → Prop}
    (h : Ensures x s Q' E') (hQ : ∀ a s', Q' a s' → Q a s') (hE : ∀ e, E' e → E e) :
    Ensures x s Q E := by
  rw [ensures_iff] at h ⊢
  exact ⟨fun a s' hx => hQ a s' (h.1 a s' hx), fun e hx => hE e (h.2 e hx)⟩

/-- **Conjunction**: what is known of both ends, together. -/
theorem Ensures.and {x : StateT σ (Except ε) α} {Q' : α → σ → Prop} {E' : ε → Prop}
    (h : Ensures x s Q E) (h' : Ensures x s Q' E') :
    Ensures x s (fun a s' => Q a s' ∧ Q' a s') (fun e => E e ∧ E' e) := by
  rw [ensures_iff] at h h' ⊢
  exact ⟨fun a s' hx => ⟨h.1 a s' hx, h'.1 a s' hx⟩, fun e hx => ⟨h.2 e hx, h'.2 e hx⟩⟩

theorem ensures_true {x : StateT σ (Except ε) α} :
    Ensures x s (fun _ _ => True) (fun _ => True) :=
  ensures_iff.mpr ⟨fun _ _ _ => trivial, fun _ _ => trivial⟩

/-- A condition decides whether a function fails. -/
theorem Ensures.ok_iff {x : StateT σ (Except ε) α} {P : Prop}
    (h : Ensures x s (fun _ _ => P) (fun _ => ¬ P)) : (∃ r, x s = .ok r) ↔ P := by
  constructor
  · rintro ⟨⟨a, s'⟩, hx⟩
    exact h.of_ok hx
  · intro hP
    rcases hx : x s with e | r
    · exact absurd hP (h.of_error hx)
    · exact ⟨r, rfl⟩

/-! ### Rules -/

theorem ensures_pure {a : α} (h : Q a s) :
    Ensures (Pure.pure a : StateT σ (Except ε) α) s Q E := h

/-- **Sequence**: the rest begins where the first part ends. -/
theorem ensures_bind {x : StateT σ (Except ε) β} {f : β → StateT σ (Except ε) α}
    {Q' : β → σ → Prop} (hx : Ensures x s Q' E) (hf : ∀ b s', Q' b s' → Ensures (f b) s' Q E) :
    Ensures (x >>= f) s Q E := by
  rcases h : x s with e | ⟨b, s'⟩
  · rw [Ensures, bind_error h]
    exact hx.of_error h
  · rw [Ensures, bind_ok h]
    exact hf b s' (hx.of_ok h)

theorem ensures_map {x : StateT σ (Except ε) β} {f : β → α}
    (h : Ensures x s (fun b s' => Q (f b) s') E) : Ensures (f <$> x) s Q E := by
  have hmap : (f <$> x) s = (x s).bind fun r => .ok (f r.1, r.2) := rfl
  unfold Ensures at h ⊢
  rw [hmap]
  revert h
  rcases x s with e | ⟨b, s'⟩
  · exact id
  · exact id

theorem ensures_get_bind {f : σ → StateT σ (Except ε) α} (h : Ensures (f s) s Q E) :
    Ensures (get >>= f) s Q E := h

theorem ensures_modify_bind {g : σ → σ} {f : Unit → StateT σ (Except ε) α}
    (h : Ensures (f ()) (g s) Q E) : Ensures (modify g >>= f) s Q E := h

theorem ensures_throw {e : ε} (h : E e) : Ensures (throw e : StateT σ (Except ε) α) s Q E := h

/-- A function without a state. -/
theorem ensures_lift_bind {x : Except ε β} {f : β → StateT σ (Except ε) α}
    (hok : ∀ b, x = .ok b → Ensures (f b) s Q E) (herror : ∀ e, x = .error e → E e) :
    Ensures (liftM x >>= f) s Q E := by
  rcases x with e | b
  · exact herror e rfl
  · exact hok b rfl

end BasicCli.Run
