import BasicCli.Run.Basic
import BasicCli.Run.Ensures

/-!
# Two systems that do the same

`Agrees x y s Q` says that `x` and `y` do the same from `s` and that they end, if they do, with `Q`.
What two functions need to agree may be true only of some states; `Q` tells that the ones they come
to are such states.

* `agrees_bind`: what the first parts end with is what the rests may need.
* `run_agrees`: runs agree if steps do, from states that steps come to.
-/

namespace BasicCli.Run

variable {σ ε α β : Type} {s : σ} {Q : α → σ → Prop} {R : β → σ → Prop}

/-- From `s`, `x` and `y` do the same, and if they end, then with `Q`. -/
def Agrees (x y : StateT σ (Except ε) α) (s : σ) (Q : α → σ → Prop) : Prop :=
  x s = y s ∧ Ensures x s Q fun _ => True

theorem Agrees.mono {x y : StateT σ (Except ε) α} {Q' : α → σ → Prop} (h : Agrees x y s Q')
    (hQ : ∀ a s', Q' a s' → Q a s') : Agrees x y s Q :=
  ⟨h.1, h.2.mono hQ fun _ h => h⟩

theorem Agrees.and {x y : StateT σ (Except ε) α} {Q' : α → σ → Prop} {E : ε → Prop}
    (h : Agrees x y s Q) (h' : Ensures x s Q' E) : Agrees x y s fun a s' => Q a s' ∧ Q' a s' :=
  ⟨h.1, (h.2.and h').mono (fun _ _ h => h) fun _ _ => trivial⟩

theorem agrees_pure {a : α} (h : Q a s) :
    Agrees (Pure.pure a : StateT σ (Except ε) α) (Pure.pure a) s Q :=
  ⟨rfl, ensures_pure h⟩

theorem agrees_throw {e : ε} : Agrees (throw e : StateT σ (Except ε) α) (throw e) s Q :=
  ⟨rfl, ensures_throw trivial⟩

/-- **Sequence**: the rests begin where the first parts end. -/
theorem agrees_bind {x y : StateT σ (Except ε) β} {f g : β → StateT σ (Except ε) α}
    (hx : Agrees x y s R) (hf : ∀ b s', R b s' → Agrees (f b) (g b) s' Q) :
    Agrees (x >>= f) (y >>= g) s Q := by
  refine ⟨bind_eq_bind hx.1 fun b s' hy => ?_, ensures_bind hx.2 fun b s' hR => (hf b s' hR).2⟩
  exact (hf b s' (hx.2.of_ok (hx.1.trans hy))).1

theorem agrees_map {x y : StateT σ (Except ε) β} {f : β → α}
    (h : Agrees x y s fun b s' => Q (f b) s') : Agrees (f <$> x) (f <$> y) s Q :=
  ⟨map_eq_map h.1, ensures_map h.2⟩

theorem agrees_get_bind {f g : σ → StateT σ (Except ε) α} (h : Agrees (f s) (g s) s Q) :
    Agrees (get >>= f) (get >>= g) s Q := h

theorem agrees_modify_bind {m : σ → σ} {f g : Unit → StateT σ (Except ε) α}
    (h : Agrees (f ()) (g ()) (m s) Q) : Agrees (modify m >>= f) (modify m >>= g) s Q := h

/-- A function without a state. -/
theorem agrees_lift_bind {x y : Except ε β} {f g : β → StateT σ (Except ε) α} (hxy : x = y)
    (hf : ∀ b, x = .ok b → Agrees (f b) (g b) s Q) :
    Agrees (liftM x >>= f) (liftM y >>= g) s Q := by
  subst hxy
  rcases x with e | b
  · exact ⟨rfl, trivial⟩
  · exact hf b rfl

/-- Functions that do on a part of the state what `x` and `y` do. -/
theorem Agrees.zoom {τ γ : Type} {x y : StateT σ (Except ε) α} {x' y' : StateT τ (Except ε) γ}
    {f : α × σ → γ × τ} {s' : τ} {Q : γ → τ → Prop} (hx : x' s' = (x s).map f)
    (hy : y' s' = (y s).map f) (h : Agrees x y s fun a s => Q (f (a, s)).1 (f (a, s)).2) :
    Agrees x' y' s' Q := by
  obtain ⟨heq, hensures⟩ := h
  rw [Agrees, Ensures, hx, hy, heq]
  refine ⟨rfl, ?_⟩
  rcases hy' : y s with e | ⟨a, s₁⟩
  · trivial
  · exact hensures.of_ok (heq.trans hy')

/-- Functions that fail. -/
theorem agrees_of_error {x y : StateT σ (Except ε) α} {e : ε} (hx : x s = .error e)
    (hy : y s = .error e) : Agrees x y s Q := by
  rw [Agrees, Ensures, hx, hy]
  exact ⟨rfl, trivial⟩

/-- **Runs agree if steps do**, in the states that steps come to. -/
theorem run_agrees {step step' : α → StateT σ (Except ε) β} {I : σ → Prop}
    (hstep : ∀ a s, I s → Agrees (step a) (step' a) s fun _ s' => I s') {as : List α}
    (hs : I s) :
    run step as s = run step' as s ∧ ∀ bs s', run step as s = .ok (bs, s') → I s' := by
  induction as generalizing s with
  | nil =>
    refine ⟨rfl, fun bs s' h => ?_⟩
    cases h
    exact hs
  | cons a as ih =>
    obtain ⟨heq, hensures⟩ := hstep a s hs
    rcases h : step a s with e | ⟨b, s₁⟩
    · rw [run, run, ← heq, h]
      exact ⟨rfl, fun bs s' h => by cases h⟩
    · obtain ⟨hrun, hI⟩ := ih (hensures.of_ok h)
      refine ⟨?_, fun bs s' hok => ?_⟩
      · rw [run, run, ← heq, h]
        simp only [hrun]
      · obtain ⟨b', bs', s₂, -, h₂, hrest⟩ := run_cons_ok.mp hok
        rw [h] at h₂
        cases h₂
        exact hI bs' s' hrest

end BasicCli.Run
