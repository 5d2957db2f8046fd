import Mathlib.Order.Basic

/-!
# What a function with effects leaves behind

A function that fails without undoing what it has done is an `ExceptT ε (StateM σ)`.
`Leaves x s Q E` says of `x` in the state `s` that it ends with `Q`, or fails with `E`, both of the
state that it leaves; the rules take a `do` apart.
-/

namespace BasicCli.Run

variable {σ ε α β : Type} {s : σ} {Q Q' : α → σ → Prop} {E E' : ε → σ → Prop}

/-- From `s`, `x` ends with an answer and a state with `Q`, or with an error and a state with
`E`. -/
def Leaves (x : ExceptT ε (StateM σ) α) (s : σ) (Q : α → σ → Prop) (E : ε → σ → Prop) : Prop :=
  (∀ a s', x s = (.ok a, s') → Q a s') ∧ ∀ e s', x s = (.error e, s') → E e s'

theorem leaves_of_ok {x : ExceptT ε (StateM σ) α} {a : α} {s' : σ} (h : x s = (.ok a, s'))
    (hQ : Q a s') : Leaves x s Q E := by
  constructor
  · intro a' s₁ h'
    cases h.symm.trans h'
    exact hQ
  · intro e s₁ h'
    cases h.symm.trans h'

theorem leaves_of_error {x : ExceptT ε (StateM σ) α} {e : ε} {s' : σ} (h : x s = (.error e, s'))
    (hE : E e s') : Leaves x s Q E := by
  constructor
  · intro a s₁ h'
    cases h.symm.trans h'
  · intro e' s₁ h'
    cases h.symm.trans h'
    exact hE

theorem leaves_pure {a : α} (h : Q a s) : Leaves (pure a : ExceptT ε (StateM σ) α) s Q E :=
  leaves_of_ok rfl h

theorem leaves_throw {e : ε} (h : E e s) : Leaves (throw e : ExceptT ε (StateM σ) α) s Q E :=
  leaves_of_error rfl h

theorem Leaves.mono {x : ExceptT ε (StateM σ) α} (h : Leaves x s Q E)
    (hQ : ∀ a s', Q a s' → Q' a s') (hE : ∀ e s', E e s' → E' e s') : Leaves x s Q' E' :=
  ⟨fun a s' hx => hQ a s' (h.1 a s' hx), fun e s' hx => hE e s' (h.2 e s' hx)⟩

/-- **One after the other**: the second part starts in what the first has left. -/
theorem leaves_bind {x : ExceptT ε (StateM σ) β} {f : β → ExceptT ε (StateM σ) α}
    {R : β → σ → Prop} (hx : Leaves x s R E) (hf : ∀ b s', R b s' → Leaves (f b) s' Q E) :
    Leaves (x >>= f) s Q E := by
  have hbind : (x >>= f) s = (ExceptT.bindCont f (x s).1 : StateM σ _) (x s).2 := rfl
  rcases hxs : x s with ⟨e | b, s₁⟩
  · refine leaves_of_error ?_ (hx.2 e s₁ hxs)
    rw [hbind, hxs]
    rfl
  · have hrest := hf b s₁ (hx.1 b s₁ hxs)
    have heq : (x >>= f) s = f b s₁ := by
      rw [hbind, hxs]
      rfl
    exact ⟨fun a s' h => hrest.1 a s' (heq.symm.trans h),
      fun e s' h => hrest.2 e s' (heq.symm.trans h)⟩

end BasicCli.Run
