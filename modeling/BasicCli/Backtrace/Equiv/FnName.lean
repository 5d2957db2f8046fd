import BasicCli.Backtrace.Basic
import BasicCli.Text.Split
import Mathlib.Data.List.TakeWhile

/-!
# Function names in backtraces

The symbol of a Roc function has its module, its name and a hash, between underscores.  A name that
has an underscore itself is shown up to that (`formatFnName_symbol`), so it is shown whole iff it
has none (`fnNames_iff`).
-/

namespace BasicCli

open Text

/-- The symbol of a function. -/
def fnSymbol (moduleName name hash : String) : String :=
  "_" ++ moduleName ++ "_" ++ name ++ "_" ++ hash

/-- The name of a named function begins with a small letter, of any script: with no digit, sign or
underscore.  What follows is arbitrary. -/
def IsIdentifier (name : String) : Prop :=
  ∃ c cs, name.toList = c :: cs ∧ ¬ c.isDigit ∧ c ≠ '+' ∧ c ≠ '_'

/-- The name of an anonymous function. -/
def IsNumber (name : String) : Prop := name ≠ "" ∧ ∀ c ∈ name.toList, c.isDigit

/-- The name up to its first underscore. -/
def beforeUnderscore (name : String) : String := .ofList (name.toList.takeWhile (· ≠ '_'))

/-! ### What is shown -/

/-- **What is shown of a symbol** is the name up to its first underscore. -/
theorem formatFnName_symbol {moduleName : String} (hmodule : '_' ∉ moduleName.toList)
    (name hash : String) :
    formatFnName (fnSymbol moduleName name hash) =
      displayRocFn moduleName (beforeUnderscore name) := by
  have hsymbol : (fnSymbol moduleName name hash).toList =
      '_' :: (moduleName.toList ++ '_' :: (name.toList ++ '_' :: hash.toList)) := by
    simp [fnSymbol, String.toList_append]
  obtain ⟨pieces, hpieces⟩ := splitOn_eq_cons '_' name.toList
  have hsplit : (fnSymbol moduleName name hash).toList.splitOn '_' =
      [] :: moduleName.toList :: name.toList.takeWhile (· ≠ '_') ::
        (pieces ++ hash.toList.splitOn '_') := by
    rw [hsymbol, List.splitOn_cons_eq_if_modifyHead, if_pos (beq_self_eq_true _),
      List.splitOn_append_cons_self_of_not_mem hmodule, List.splitOn_append_cons_self, hpieces]
    rfl
  rw [formatFnName, hsplit]
  dsimp only
  rw [String.ofList_toList]
  rfl

theorem beforeUnderscore_eq_self_iff {name : String} :
    beforeUnderscore name = name ↔ '_' ∉ name.toList := by
  rw [beforeUnderscore, String.ext_iff, String.toList_ofList, List.takeWhile_eq_self_iff]
  constructor
  · intro h hmem
    simpa using h '_' hmem
  · intro h c hc
    have hne : c ≠ '_' := fun heq => h (heq ▸ hc)
    simpa using hne

theorem parseU64_of_not_isDigit {name : String} {c : Char} {cs : List Char}
    (hname : name.toList = c :: cs) (hdigit : ¬ c.isDigit) (hplus : c ≠ '+') :
    parseU64 name = none := by
  rw [parseU64, hname]
  simp [hplus, hdigit]

/-- Of a name that begins with a letter, what is shown tells the name. -/
theorem displayRocFn_inj {moduleName name name' : String} (hname : parseU64 name = none)
    (hname' : parseU64 name' = none) :
    displayRocFn moduleName name = displayRocFn moduleName name' ↔ name = name' := by
  rw [displayRocFn, displayRocFn, hname, hname']
  constructor
  · intro h
    have h := congrArg String.toList h
    simp only [String.toList_append] at h
    exact String.ext_iff.mpr (List.append_cancel_left h)
  · rintro rfl
    rfl

theorem parseU64_beforeUnderscore {name : String} (hname : IsIdentifier name) :
    parseU64 (beforeUnderscore name) = none := by
  obtain ⟨c, cs, hchars, hdigit, hplus, hne⟩ := hname
  have hbefore : (beforeUnderscore name).toList = c :: cs.takeWhile (· ≠ '_') := by
    rw [beforeUnderscore, String.toList_ofList, hchars, List.takeWhile_cons_of_pos]
    simpa using hne
  exact parseU64_of_not_isDigit hbefore hdigit hplus

theorem IsIdentifier.parseU64 {name : String} (hname : IsIdentifier name) :
    parseU64 name = none := by
  obtain ⟨c, cs, hchars, hdigit, hplus, -⟩ := hname
  exact parseU64_of_not_isDigit hchars hdigit hplus

/-! ### Whole names -/

/-- **A name is shown whole** iff it has no underscore, and two named functions of a module are
shown under one name iff their names are the same up to the first underscore. -/
theorem fnNames_iff {moduleName : String} (hmodule : '_' ∉ moduleName.toList) :
    (∀ name hash, IsIdentifier name ∨ IsNumber name →
      (formatFnName (fnSymbol moduleName name hash) = displayRocFn moduleName name ↔
        '_' ∉ name.toList)) ∧
    ∀ name name' hash hash', IsIdentifier name → IsIdentifier name' → name ≠ name' →
      (formatFnName (fnSymbol moduleName name hash) ≠
          formatFnName (fnSymbol moduleName name' hash') ↔
        beforeUnderscore name ≠ beforeUnderscore name') := by
  constructor
  · intro name hash hname
    rw [formatFnName_symbol hmodule, ← beforeUnderscore_eq_self_iff]
    -- A name that is shown as a number has no underscore to be cut at.
    rcases hname with hname | ⟨-, hdigits⟩
    · exact displayRocFn_inj (parseU64_beforeUnderscore hname) hname.parseU64
    · -- A number has no underscore.
      have hwhole : beforeUnderscore name = name :=
        beforeUnderscore_eq_self_iff.mpr fun hmem => absurd (hdigits '_' hmem) (by decide)
      rw [hwhole]
      exact iff_of_true rfl rfl
  · intro name name' hash hash' hname hname' _
    rw [formatFnName_symbol hmodule, formatFnName_symbol hmodule]
    exact not_congr (displayRocFn_inj (parseU64_beforeUnderscore hname)
      (parseU64_beforeUnderscore hname'))

theorem fnNames_iff_num :
    (∀ name hash, IsIdentifier name ∨ IsNumber name →
      (formatFnName (fnSymbol "Num" name hash) = displayRocFn "Num" name ↔ '_' ∉ name.toList)) ∧
    ∀ name name' hash hash', IsIdentifier name → IsIdentifier name' → name ≠ name' →
      (formatFnName (fnSymbol "Num" name hash) ≠
          formatFnName (fnSymbol "Num" name' hash') ↔
        beforeUnderscore name ≠ beforeUnderscore name') :=
  fnNames_iff (by decide)

/-- `File.read_bytes` and `File.read_utf8` are both shown as `File.read`. -/
theorem not_fnNames_read :
    formatFnName "_File_read_bytes_a0c2" ≠ displayRocFn "File" "read_bytes" ∧
      formatFnName "_File_read_bytes_a0c2" = formatFnName "_File_read_utf8_9d4e" := by
  decide

end BasicCli
