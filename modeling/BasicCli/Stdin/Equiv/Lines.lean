import BasicCli.File.Equiv.Lines
import BasicCli.Stdin.Equiv.Line

/-!
# The lines of standard input

The `k`-th call of `hosted_stdin_line` takes the `k`-th line of what is to come (`kth_call`),
however that is cut and interrupted.  What the earlier lines were does not matter: a line that is
not UTF-8 is taken like another.
-/

namespace BasicCli.Stdin

open StdIo LawfulBufRead Utf8

/-- A text without a newline at its end. -/
def withoutNewline (s : String) : String :=
  if s.toList.getLast? = some '\n' then .ofList s.toList.dropLast else s

theorem trimEndMatchesNewline_line {s : String} (h : 10 ∉ (strBytes s).dropLast) :
    trimEndMatchesNewline s = withoutNewline s := by
  obtain ⟨cs, rfl⟩ : ∃ cs, s = .ofList cs := ⟨s.toList, String.ofList_toList.symm⟩
  rw [withoutNewline, String.toList_ofList]
  by_cases hlast : cs.getLast? = some '\n'
  · -- There is one newline, the last byte, so that trimming all takes no more.
    obtain ⟨ds, rfl⟩ := List.getLast?_eq_some_iff.mp hlast
    have hbytes : strBytes (.ofList (ds ++ ['\n'])) = encode ds ++ [10] := by
      rw [strBytes, String.toList_ofList]
      exact encode_append ds ['\n']
    rw [hbytes, List.dropLast_concat] at h
    rw [if_pos hlast, List.dropLast_concat, trimEndMatchesNewline_concat (newline_notMem h)]
  · rw [if_neg hlast, trimEndMatchesNewline_of_getLast? hlast]

/-- **A line that is a text** is given without its newline. -/
theorem hostedStdinLine_line {s : String} (h : 10 ∉ (strBytes s).dropLast) :
    BasicCli.hostedStdinLine (strBytes s) = .fromStr (withoutNewline s) := by
  have hread : BasicCli.readLine (strBytes s) = s := by
    rw [strBytes, readLine_encode, String.ofList_toList]
  rw [BasicCli.hostedStdinLine, hread, trimEndMatchesNewline_line h]

/-! ### Calls -/

section

variable [Memchr] {R : Type} [LawfulBufRead R] {fuel : ℕ} {stdin : R}

/-- **One call** takes the first line. -/
theorem hostedStdinLine_upTo (hcalm : OnlyInterrupted (errs stdin))
    (hfuel : stepsLeft stdin < fuel) :
    ∃ stdin', hostedStdinLine fuel stdin =
        some (BasicCli.hostedStdinLine (upTo 10 (rest stdin)), stdin') ∧
      rest stdin' = (rest stdin).drop (upTo 10 (rest stdin)).length ∧
      OnlyInterrupted (errs stdin') ∧ stepsLeft stdin' < fuel := by
  obtain ⟨stdin', hread, hrest, herrs⟩ := readUntil_spec 10 [] hcalm hfuel
  refine ⟨stdin', hostedStdinLine_of_readUntil hread, hrest, fun e he => hcalm e (herrs.mem he), ?_⟩
  exact Nat.lt_of_le_of_lt (stepsLeft_le hrest herrs) hfuel

/-- **Some calls** take as many lines, whatever these are. -/
theorem afterCalls_lines (hcalm : OnlyInterrupted (errs stdin)) (hfuel : stepsLeft stdin < fuel)
    (k : ℕ) :
    ∃ stdinₖ, afterCalls (hostedStdinLine fuel) k stdin = some stdinₖ ∧
      lines 10 (rest stdinₖ) = (lines 10 (rest stdin)).drop k ∧
      OnlyInterrupted (errs stdinₖ) ∧ stepsLeft stdinₖ < fuel := by
  induction k generalizing stdin with
  | zero => exact ⟨stdin, rfl, rfl, hcalm, hfuel⟩
  | succ k ih =>
    obtain ⟨stdin', hcall, hrest, hcalm', hfuel'⟩ := hostedStdinLine_upTo hcalm hfuel
    obtain ⟨stdinₖ, hcalls, hlines, h⟩ := ih hcalm' hfuel'
    refine ⟨stdinₖ, ?_, ?_, h⟩
    · rw [afterCalls, hcall]
      exact hcalls
    · rw [hlines, hrest, lines_drop_upTo, List.drop_tail]

end

/-- **The `k`-th call** takes the `k`-th line and gives it without its newline if it is a text.
Behind the last line it gives the empty string. -/
theorem kth_call [Memchr] (stdin : BufReader) (hcalm : OnlyInterrupted (errs stdin)) {fuel : ℕ}
    (hfuel : stepsLeft stdin < fuel) (k : ℕ) :
    ∃ stdinₖ s stdin', afterCalls (hostedStdinLine fuel) k stdin = some stdinₖ ∧
      hostedStdinLine fuel stdinₖ = some (s, stdin') ∧
      rest stdinₖ = ((lines 10 (rest stdin)).drop k).flatten ∧
      rest stdin' = ((lines 10 (rest stdin)).drop (k + 1)).flatten ∧
      (∀ line, (lines 10 (rest stdin))[k]? = some line →
        rest stdinₖ = line ++ rest stdin' ∧
          ∀ text : String, strBytes text = line → s = .fromStr (withoutNewline text)) ∧
      ((lines 10 (rest stdin))[k]? = none → s = .empty) := by
  obtain ⟨stdinₖ, hcalls, hlines, hcalmₖ, hfuelₖ⟩ := afterCalls_lines hcalm hfuel k
  obtain ⟨stdin', hcall, hrest, -, -⟩ := hostedStdinLine_upTo hcalmₖ hfuelₖ
  have hrestₖ : rest stdinₖ = ((lines 10 (rest stdin)).drop k).flatten := by
    rw [← hlines, flatten_lines]
  have hrest' : rest stdin' = ((lines 10 (rest stdin)).drop (k + 1)).flatten := by
    rw [← List.tail_drop, ← hlines, hrest, ← lines_drop_upTo, flatten_lines]
  -- What is left begins with the `k`-th line.
  have hhead : (lines 10 (rest stdinₖ)).head? = (lines 10 (rest stdin))[k]? := by
    rw [hlines, List.head?_drop]
  refine ⟨stdinₖ, _, stdin', hcalls, hcall, hrestₖ, hrest', fun line hline => ?_, fun hnone => ?_⟩
  · have hne : rest stdinₖ ≠ [] := by
      intro hnil
      rw [← hhead, hnil] at hline
      cases hline
    rw [← hhead, head?_lines hne] at hline
    obtain rfl := Option.some.inj hline
    refine ⟨?_, fun text htext => ?_⟩
    · rw [hrest, upTo_append_drop]
    · have hdelim := notMem_dropLast_upTo 10 (rest stdinₖ)
      rw [← htext] at hdelim ⊢
      exact hostedStdinLine_line hdelim
  · rw [← hhead, List.head?_eq_none_iff, lines_eq_nil_iff] at hnone
    rw [hnone]
    rfl

/-- Standard input with a line that is not UTF-8, a blank line and `" a\r"`, which is unterminated
and comes in two pieces with an interruption between them. -/
def oddLines : BufReader :=
  .new [.data 0xFF [10, 10, 32], .error ⟨.interrupted, ""⟩, .data 97 [13]]

theorem kth_call_odd :
    ∃ stdinₖ s stdin', afterCalls (hostedStdinLine 9) 2 oddLines = some stdinₖ ∧
      hostedStdinLine 9 stdinₖ = some (s, stdin') ∧
      rest stdinₖ = ((lines 10 (rest oddLines)).drop 2).flatten ∧
      rest stdin' = ((lines 10 (rest oddLines)).drop 3).flatten ∧
      (∀ line, (lines 10 (rest oddLines))[2]? = some line →
        rest stdinₖ = line ++ rest stdin' ∧
          ∀ text : String, strBytes text = line → s = .fromStr (withoutNewline text)) ∧
      ((lines 10 (rest oddLines))[2]? = none → s = .empty) := by
  refine kth_call oddLines (fun e he => ?_) (by decide) 2
  have he : e ∈ [(⟨.interrupted, ""⟩ : IoError)] := he
  rw [List.mem_singleton.mp he]

end BasicCli.Stdin
