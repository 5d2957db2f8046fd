import Mathlib.Order.Basic

/-!
# Runs of a system that can fail

A system takes an action and either answers from its next state or fails.  `run` takes one action
after the other, up to the first that fails.

* `run_append`: a run is a run of its first part and then of the rest.
* `run_invariant`: what every step keeps, a run keeps; and when it fails, it fails as a step does.
* `run_rel`: a relation that is reflexive and transitive and that holds of every step holds of every
  run.
* `run_ok_iff`: a run does not fail iff each of its steps does not.
* `along_iff`: a property holds in every state of a run iff each step keeps it.
-/

namespace BasicCli.Run

variable {α β σ ε : Type} {step : α → σ → Except ε (β × σ)}

/-- Some actions, up to the first that fails. -/
def run (step : α → σ → Except ε (β × σ)) : List α → σ → Except ε (List β × σ)
  | [], s => .ok ([], s)
  | a :: as, s =>
    match step a s with
    | .error e => .error e
    | .ok (b, s) =>
      match run step as s with
      | .error e => .error e
      | .ok (bs, s) => .ok (b :: bs, s)

/-- `P` holds of each action and of the state that it is taken in. -/
def Along (step : α → σ → Except ε (β × σ)) (P : α → σ → Prop) : List α → σ → Prop
  | [], _ => True
  | a :: as, s => P a s ∧ ∀ b s', step a s = .ok (b, s') → Along step P as s'

/-! ### Parts of a run -/

@[simp] theorem run_nil (s : σ) : run step [] s = .ok ([], s) := rfl

theorem run_cons_ok {a : α} {as : List α} {s s' : σ} {bs : List β} :
    run step (a :: as) s = .ok (bs, s') ↔
      ∃ b bs' s₁, bs = b :: bs' ∧ step a s = .ok (b, s₁) ∧ run step as s₁ = .ok (bs', s') := by
  rw [run]
  constructor
  · intro h
    split at h
    · cases h
    · next b s₁ hstep =>
      split at h
      · cases h
      · next bs' s₂ hrun =>
        cases h
        exact ⟨b, bs', s₁, rfl, hstep, hrun⟩
  · rintro ⟨b, bs', s₁, rfl, hstep, hrun⟩
    simp only [hstep, hrun]

theorem run_cons_error {a : α} {as : List α} {s : σ} {e : ε} :
    run step (a :: as) s = .error e ↔
      step a s = .error e ∨ ∃ b s₁, step a s = .ok (b, s₁) ∧ run step as s₁ = .error e := by
  rw [run]
  constructor
  · intro h
    split at h
    · next e' hstep =>
      cases h
      exact .inl hstep
    · next b s₁ hstep =>
      split at h
      · next e' hrun =>
        cases h
        exact .inr ⟨b, s₁, hstep, hrun⟩
      · cases h
  · rintro (hstep | ⟨b, s₁, hstep, hrun⟩)
    · simp only [hstep]
    · simp only [hstep, hrun]

/-- **A run of two parts** is the first part and then the second. -/
theorem run_append {as as' : List α} {s s' : σ} {bs : List β} :
    run step (as ++ as') s = .ok (bs, s') ↔
      ∃ bs₁ bs₂ s₁, bs = bs₁ ++ bs₂ ∧ run step as s = .ok (bs₁, s₁) ∧
        run step as' s₁ = .ok (bs₂, s') := by
  induction as generalizing s bs with
  | nil =>
    constructor
    · intro h
      exact ⟨[], bs, s, rfl, rfl, h⟩
    · rintro ⟨bs₁, bs₂, s₁, rfl, h₁, h₂⟩
      cases h₁
      exact h₂
  | cons a as ih =>
    rw [List.cons_append, run_cons_ok]
    constructor
    · rintro ⟨b, bs', s₁, rfl, hstep, hrun⟩
      obtain ⟨bs₁, bs₂, s₂, rfl, h₁, h₂⟩ := ih.mp hrun
      exact ⟨b :: bs₁, bs₂, s₂, rfl, run_cons_ok.mpr ⟨b, bs₁, s₁, rfl, hstep, h₁⟩, h₂⟩
    · rintro ⟨bs₁, bs₂, s₂, rfl, h₁, h₂⟩
      obtain ⟨b, bs', s₁, rfl, hstep, hrun⟩ := run_cons_ok.mp h₁
      exact ⟨b, bs' ++ bs₂, s₁, rfl, hstep, ih.mpr ⟨bs', bs₂, s₂, rfl, hrun, h₂⟩⟩

theorem run_concat_ok {as : List α} {a : α} {s s' : σ} {bs : List β} {b : β} :
    run step (as ++ [a]) s = .ok (bs ++ [b], s') ↔
      ∃ s₁, run step as s = .ok (bs, s₁) ∧ step a s₁ = .ok (b, s') := by
  rw [run_append]
  constructor
  · rintro ⟨bs₁, bs₂, s₁, heq, h₁, h₂⟩
    obtain ⟨b', bs', s₂, rfl, hstep, hrun⟩ := run_cons_ok.mp h₂
    cases hrun
    obtain ⟨rfl, hb⟩ := List.append_inj' heq rfl
    cases hb
    exact ⟨s₁, h₁, hstep⟩
  · rintro ⟨s₁, h₁, hstep⟩
    exact ⟨bs, [b], s₁, rfl, h₁, run_cons_ok.mpr ⟨b, [], s', rfl, hstep, rfl⟩⟩

/-- What a run answers tells that there is a state behind it. -/
theorem exists_of_answers {as : List α} {s : σ} {bs : List β}
    (h : (run step as s).map Prod.fst = .ok bs) : ∃ s', run step as s = .ok (bs, s') := by
  rcases hrun : run step as s with e | ⟨bs', s'⟩
  · rw [hrun] at h
    cases h
  · rw [hrun] at h
    cases h
    exact ⟨s', rfl⟩

/-! ### From steps to runs -/

/-- **An invariant of the steps is an invariant of the runs**, and a run fails as a step does. -/
theorem run_invariant (I : σ → Prop) (E : ε → Prop) {as : List α} {s : σ}
    (hok : ∀ a ∈ as, ∀ s b s', I s → step a s = .ok (b, s') → I s')
    (herror : ∀ a ∈ as, ∀ s e, I s → step a s = .error e → E e) (hs : I s) :
    (∀ bs s', run step as s = .ok (bs, s') → I s') ∧ ∀ e, run step as s = .error e → E e := by
  induction as generalizing s with
  | nil =>
    refine ⟨fun bs s' h => ?_, fun e h => ?_⟩
    · cases h
      exact hs
    · cases h
  | cons a as ih =>
    have hok' := fun a' (ha : a' ∈ as) => hok a' (List.mem_cons_of_mem a ha)
    have herror' := fun a' (ha : a' ∈ as) => herror a' (List.mem_cons_of_mem a ha)
    refine ⟨fun bs s' h => ?_, fun e h => ?_⟩
    · obtain ⟨b, bs', s₁, -, hstep, hrun⟩ := run_cons_ok.mp h
      exact (ih hok' herror' (hok a List.mem_cons_self s b s₁ hs hstep)).1 bs' s' hrun
    · rcases run_cons_error.mp h with hstep | ⟨b, s₁, hstep, hrun⟩
      · exact herror a List.mem_cons_self s e hs hstep
      · exact (ih hok' herror' (hok a List.mem_cons_self s b s₁ hs hstep)).2 e hrun

/-- What holds of every step from a state with `I` holds of a run, if it is reflexive and
transitive. -/
theorem run_rel {I : σ → Prop} {R : σ → σ → Prop} (hrefl : ∀ s, R s s)
    (htrans : ∀ s₁ s₂ s₃, R s₁ s₂ → R s₂ s₃ → R s₁ s₃) {as : List α} {s s' : σ} {bs : List β}
    (hstep : ∀ a ∈ as, ∀ s b s', I s → step a s = .ok (b, s') → I s' ∧ R s s') (hs : I s)
    (h : run step as s = .ok (bs, s')) : R s s' := by
  induction as generalizing s bs with
  | nil =>
    cases h
    exact hrefl _
  | cons a as ih =>
    obtain ⟨b, bs', s₁, -, h₁, hrun⟩ := run_cons_ok.mp h
    obtain ⟨hs₁, hR⟩ := hstep a List.mem_cons_self s b s₁ hs h₁
    have hstep' := fun a' (ha : a' ∈ as) => hstep a' (List.mem_cons_of_mem a ha)
    exact htrans _ _ _ hR (ih hstep' hs₁ hrun)

/-- **A run goes through iff each of its steps does.** -/
theorem run_ok_iff {I : σ → Prop} {P : α → σ → Prop}
    (hok : ∀ a s b s', I s → step a s = .ok (b, s') → I s')
    (hstep : ∀ a s, I s → ((∃ r, step a s = .ok r) ↔ P a s)) {as : List α} {s : σ} (hs : I s) :
    (∃ r, run step as s = .ok r) ↔ Along step P as s := by
  induction as generalizing s with
  | nil => exact ⟨fun _ => trivial, fun _ => ⟨_, rfl⟩⟩
  | cons a as ih =>
    rw [Along, ← hstep a s hs]
    constructor
    · rintro ⟨⟨bs, s'⟩, h⟩
      obtain ⟨b, bs', s₁, -, h₁, hrun⟩ := run_cons_ok.mp h
      refine ⟨⟨_, h₁⟩, fun b' s₂ h₂ => ?_⟩
      rw [h₁] at h₂
      cases h₂
      exact (ih (hok a s b s₁ hs h₁)).mp ⟨_, hrun⟩
    · rintro ⟨⟨⟨b, s₁⟩, h₁⟩, hrest⟩
      obtain ⟨⟨bs, s'⟩, hrun⟩ := (ih (hok a s b s₁ hs h₁)).mpr (hrest b s₁ h₁)
      exact ⟨_, run_cons_ok.mpr ⟨b, bs, s₁, rfl, h₁, hrun⟩⟩

section

variable {I : σ → Prop} {H : List β → σ → Prop} {P : α → σ → Prop}

/-- The same, after some answers. -/
theorem along_iff_append (hok : ∀ a s b s', I s → step a s = .ok (b, s') → I s')
    (hstep : ∀ bs a s b s', I s → H bs s → step a s = .ok (b, s') → (H (bs ++ [b]) s' ↔ P a s))
    (herror : ∀ a s e, I s → step a s = .error e → P a s) {as : List α} {bs : List β} {s : σ}
    (hs : I s) (hH : H bs s) :
    Along step P as s ↔
      ∀ n bs' s', run step (as.take n) s = .ok (bs', s') → H (bs ++ bs') s' := by
  induction as generalizing bs s with
  | nil =>
    refine ⟨fun _ n bs' s' h => ?_, fun _ => trivial⟩
    rw [List.take_nil] at h
    cases h
    rwa [List.append_nil]
  | cons a as ih =>
    rw [Along]
    constructor
    · rintro ⟨hP, hrest⟩ n bs' s' h
      rcases n with _ | n
      · cases h
        rwa [List.append_nil]
      · obtain ⟨b, bs'', s₁, rfl, h₁, hrun⟩ := run_cons_ok.mp h
        have hH₁ := (hstep bs a s b s₁ hs hH h₁).mpr hP
        rw [List.append_cons]
        exact (ih (hok a s b s₁ hs h₁) hH₁).mp (hrest b s₁ h₁) n bs'' s' hrun
    · intro h
      have hfirst : ∀ b s₁, step a s = .ok (b, s₁) → H (bs ++ [b]) s₁ :=
        fun b s₁ h₁ => h 1 [b] s₁ (run_cons_ok.mpr ⟨b, [], s₁, rfl, h₁, rfl⟩)
      -- The first step by the run of length one, the others by the runs that begin with it.
      refine ⟨?_, fun b s₁ h₁ => ?_⟩
      · rcases h₁ : step a s with e | ⟨b, s₁⟩
        · exact herror a s e hs h₁
        · exact (hstep bs a s b s₁ hs hH h₁).mp (hfirst b s₁ h₁)
      · refine (ih (hok a s b s₁ hs h₁) (hfirst b s₁ h₁)).mpr fun n bs' s' hrun => ?_
        rw [← List.append_cons]
        exact h (n + 1) (b :: bs') s' (run_cons_ok.mpr ⟨b, bs', s₁, rfl, h₁, hrun⟩)

/-- **A property holds in every state of a run iff each step keeps it**.  It may be about the
answers up to the state, too; `P` is what a step needs to keep it. -/
theorem along_iff (hok : ∀ a s b s', I s → step a s = .ok (b, s') → I s')
    (hstep : ∀ bs a s b s', I s → H bs s → step a s = .ok (b, s') → (H (bs ++ [b]) s' ↔ P a s))
    (herror : ∀ a s e, I s → step a s = .error e → P a s) {as : List α} {s : σ} (hs : I s)
    (hH : H [] s) :
    Along step P as s ↔ ∀ n bs s', run step (as.take n) s = .ok (bs, s') → H bs s' :=
  along_iff_append hok hstep herror hs hH

end

end BasicCli.Run
