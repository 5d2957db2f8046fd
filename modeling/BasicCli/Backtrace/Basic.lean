import Mathlib.Algebra.Group.Nat.Defs
import Mathlib.Data.List.Basic

/-!
# Names in backtraces

How `print_backtrace` of `crates/roc_host` shows the symbol of a function.
-/

namespace BasicCli

/-- `str::parse::<u64>`: some digits, behind a `+` or not. -/
def parseU64 (s : String) : Option UInt64 :=
  let digits := if s.toList.head? = some '+' then s.toList.tail else s.toList
  if digits = [] ∨ ¬ digits.all Char.isDigit then none
  else
    let n := digits.foldl (fun n c => n * 10 + (c.toNat - '0'.toNat)) 0
    if n < 2 ^ 64 then some (.ofNat n) else none

/-- `display_roc_fn`. -/
def displayRocFn (moduleName fnName : String) : String :=
  let moduleName := if moduleName = "#UserApp" then "app" else moduleName
  let fnName := if (parseU64 fnName).isSome then "(anonymous function)" else fnName
  "\x1b[36m" ++ moduleName ++ "\x1b[39m." ++ fnName

/-- `format_fn_name`. -/
def formatFnName (fnName : String) : String :=
  -- What is behind the third piece is not looked at.
  match fnName.toList.splitOn '_' with
  | _ :: moduleName :: name :: _ => displayRocFn (.ofList moduleName) (.ofList name)
  | _ => "???"

end BasicCli
