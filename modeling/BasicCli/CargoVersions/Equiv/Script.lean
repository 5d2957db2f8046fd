import BasicCli.CargoVersions.Equiv.Versions
import BasicCli.CargoVersions.Script
import BasicCli.Run.Except
import BasicCli.Script.Equiv.Output

/-!
# What the comparison ends with

The script ends well iff no dependency of the first manifest has another version than the first one
that the second manifest has for its name, and else exits with 1 and lists those that do
(`main_compares`).
-/

namespace BasicCli.CargoVersions

open Run Script

variable {ε : Type}

/-- Both manifests are there and can be read. -/
structure Reads (w : Surroundings ε) (cwd rootContent ciContent : Str) : Prop where
  cwd : w.cwd = .ok cwd
  rootExists : w.fileExists rootCargoPath = .ok true
  ciExists : w.fileExists ciCargoPath = .ok true
  root : w.readUtf8 rootCargoPath = .ok rootContent
  ci : w.readUtf8 ciCargoPath = .ok ciContent

/-- The mismatches, in the order of the first manifest. -/
def mismatchesOf (rootContent ciContent : Str) : List Mismatch :=
  (extractDependencies rootContent).flatMap (reportOf (extractDependencies ciContent))

/-- A manifest is not there. -/
inductive Absent (w : Surroundings ε) : Str → Prop
  | root (h : w.fileExists rootCargoPath = .ok false) : Absent w rootCargoPath
  | ci (hroot : w.fileExists rootCargoPath = .ok true) (h : w.fileExists ciCargoPath = .ok false) :
    Absent w ciCargoPath

/-- How `main!` fails. -/
inductive Failure (w : Surroundings ε) (out out' : Printed ε) : ScriptErr ε → Prop
  | mismatches {cwd rootContent ciContent : Str} (hreads : Reads w cwd rootContent ciContent)
    (hconflict : FirstConflict (extractDependencies rootContent) (extractDependencies ciContent))
    (hlines : out'.lines = out.lines ++ [cwdLine cwd]) :
    Failure w out out' (errExit (mismatchesText (mismatchesOf rootContent ciContent)))
  | absent {cwd path : Str} (hcwd : w.cwd = .ok cwd) (habsent : Absent w path)
    (hlines : out'.lines = out.lines ++ [cwdLine cwd]) :
    Failure w out out' (errExit (notFoundText path cwd))
  | refused {err : ε} (h : .error err ∈ out.answers) : Failure w out out' (.platform err)
  | failedToGetCwd {err : ε} (h : w.cwd = .error err) : Failure w out out' (.failedToGetCwd err)
  | unknown {path : Str} {err : ε} (h : w.fileExists path = .error err) :
    Failure w out out' (.platform err)
  | unread {path : Str} {err : ε} (h : w.readUtf8 path = .error err) :
    Failure w out out' (.platform err)

/-- **The script tells whether the manifests match**, as far as it reads them. -/
theorem main_compares (w : Surroundings ε) (out : Printed ε) :
    Leaves (main w) out
      (fun _ out' => ∃ cwd rootContent ciContent, Reads w cwd rootContent ciContent ∧
        ¬ FirstConflict (extractDependencies rootContent) (extractDependencies ciContent) ∧
        out'.lines = out.lines ++ [cwdLine cwd, matchLine])
      fun e out' => Failure w out out' e := by
  refine leaves_ofExcept_bind ?_ fun cwd hcwd => ?_
  · intro e he
    obtain ⟨err, herr, rfl⟩ := mapError_eq_error_iff.mp he
    exact .failedToGetCwd herr
  rw [mapError_eq_ok_iff] at hcwd
  refine leaves_bind
    ((leaves_stdoutLine ScriptErr.platform (cwdLine cwd) out).mono (fun _ _ h => h) ?_) ?_
  · rintro e out₁ ⟨err, rfl, herr⟩
    exact .refused herr
  rintro - out₁ ⟨hlines, hanswers⟩
  have hunknown {path : Str} (e : ScriptErr ε)
      (he : (w.fileExists path).mapError ScriptErr.platform = .error e) :
      Failure w out out₁ e := by
    obtain ⟨err, herr, rfl⟩ := mapError_eq_error_iff.mp he
    exact .unknown herr
  have hunread {path : Str} (e : ScriptErr ε)
      (he : (w.readUtf8 path).mapError ScriptErr.platform = .error e) :
      Failure w out out₁ e := by
    obtain ⟨err, herr, rfl⟩ := mapError_eq_error_iff.mp he
    exact .unread herr
  -- Both files are looked for before either is read.
  refine leaves_ofExcept_bind hunknown fun rootExists hroot => ?_
  refine leaves_ofExcept_bind hunknown fun ciExists hci => ?_
  rw [mapError_eq_ok_iff] at hroot hci
  cases rootExists with
  | false => exact leaves_throw (.absent hcwd (.root hroot) hlines)
  | true =>
    cases ciExists with
    | false => exact leaves_throw (.absent hcwd (.ci hroot hci) hlines)
    | true =>
      refine leaves_ofExcept_bind hunread fun rootContent hrootContent => ?_
      refine leaves_ofExcept_bind hunread fun ciContent hciContent => ?_
      rw [mapError_eq_ok_iff] at hrootContent hciContent
      have hreads : Reads w cwd rootContent ciContent :=
        ⟨hcwd, hroot, hci, hrootContent, hciContent⟩
      dsimp only
      split_ifs with hmatch
      · have hnone := findVersionMismatches_eq_nil_iff.mp (List.isEmpty_iff.mp hmatch)
        refine (leaves_stdoutLine ScriptErr.platform matchLine out₁).mono ?_ ?_
        · rintro - out₂ ⟨hlines₂, -⟩
          refine ⟨cwd, rootContent, ciContent, hreads, hnone, ?_⟩
          rw [hlines₂, hlines, List.append_assoc, List.singleton_append]
        · rintro e out₂ ⟨err, rfl, herr⟩
          exact .refused (hanswers herr)
      · have hconflict := mt findVersionMismatches_eq_nil_iff.mpr (mt List.isEmpty_iff.mpr hmatch)
        refine leaves_throw ?_
        rw [findVersionMismatches_eq]
        exact .mismatches hreads (not_not.mp hconflict) hlines

end BasicCli.CargoVersions
