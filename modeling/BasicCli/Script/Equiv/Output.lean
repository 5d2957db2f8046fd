import BasicCli.Run.Leaves
import BasicCli.Script.Basic

/-!
# What a script prints

The rules for `ofExcept` and `stdoutLine`, in the terms of `Leaves`.
-/

namespace BasicCli.Script

open Run

variable {α β ε φ : Type} {into : ε → φ} {out : Printed ε}

theorem leaves_ofExcept_bind {x : Except φ β} {f : β → ScriptM ε φ α} {Q : α → Printed ε → Prop}
    {E : φ → Printed ε → Prop} (herror : ∀ e, x = .error e → E e out)
    (hok : ∀ b, x = .ok b → Leaves (f b) out Q E) :
    Leaves ((ofExcept x : ScriptM ε φ β) >>= f) out Q E := by
  refine leaves_bind (R := fun b out' => out = out' ∧ x = .ok b) ?_ ?_
  · rcases x with e | b
    · exact leaves_of_error rfl (herror e rfl)
    · exact leaves_of_ok rfl ⟨rfl, rfl⟩
  · rintro b _ ⟨rfl, hb⟩
    exact hok b hb

/-- What a write that fails gives. -/
def Refused (into : ε → φ) (out : Printed ε) (e : φ) : Prop :=
  ∃ err, e = into err ∧ .error err ∈ out.answers

theorem leaves_stdoutLine (into : ε → φ) (line : Str) (out : Printed ε) :
    Leaves (stdoutLine into line) out
      (fun _ out' => out'.lines = out.lines ++ [line] ∧ out'.answers ⊆ out.answers)
      fun e _ => Refused into out e := by
  obtain ⟨answers, lines⟩ := out
  rcases answers with _ | ⟨answer, answers⟩
  · exact leaves_of_ok rfl ⟨rfl, List.Subset.refl _⟩
  · rcases answer with err | u
    · exact leaves_of_error rfl ⟨err, rfl, List.mem_cons_self⟩
    · exact leaves_of_ok rfl ⟨rfl, List.subset_cons_self _ _⟩

theorem leaves_stdoutLines (into : ε → φ) (lines : List Str) (out : Printed ε) :
    Leaves (lines.forM (stdoutLine into)) out
      (fun _ out' => out'.lines = out.lines ++ lines ∧ out'.answers ⊆ out.answers)
      fun e _ => Refused into out e := by
  induction lines generalizing out with
  | nil => exact leaves_pure ⟨(List.append_nil _).symm, List.Subset.refl _⟩
  | cons line lines ih =>
    have hcons : ((line :: lines).forM (stdoutLine into) : ScriptM ε φ Unit) =
        stdoutLine into line >>= fun _ => lines.forM (stdoutLine into) := rfl
    rw [hcons]
    refine leaves_bind (leaves_stdoutLine into line out) ?_
    rintro - out₁ ⟨hlines, hanswers⟩
    refine (ih out₁).mono ?_ ?_
    · rintro - out₂ ⟨hlines', hanswers'⟩
      refine ⟨?_, List.Subset.trans hanswers' hanswers⟩
      rw [hlines', hlines, List.append_assoc, List.singleton_append]
    · rintro e - ⟨err, rfl, herr⟩
      exact ⟨err, rfl, hanswers herr⟩

end BasicCli.Script
