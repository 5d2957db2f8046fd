import BasicCli.Lookup.Basic
import BasicCli.Process.Equiv.Args
import BasicCli.Utf8.Equiv.Ascii

/-!
# The environment reaches the other program

What `Env.var!` answers in the program that a command starts is what the chain of builder calls says
of the variable (`childEnv_eq`): the last value that it was set to, and if there is none, the one
that the program which runs the command has itself, unless the environment was cleared.
-/

namespace BasicCli

open Cmd Utf8

/-! ### Entries -/

section

variable {name name' value : List UInt8} {block : List (List UInt8)}

theorem prefix_environEntry_iff (h : 61 ∉ name) (h' : 61 ∉ name') :
    name ++ [61] <+: environEntry name' value ↔ name' = name := by
  constructor
  · rintro ⟨rest, hrest⟩
    rw [List.append_assoc, List.singleton_append, environEntry] at hrest
    exact ((Text.append_cons_inj h h').mp hrest).1.symm
  · rintro rfl
    exact ⟨value, by rw [environEntry, List.append_assoc, List.singleton_append]⟩

theorem drop_environEntry : (environEntry name value).drop (name.length + 1) = value := by
  rw [environEntry, List.append_cons, List.drop_left' (by simp)]

/-- A variable that only one entry is about has the value of that entry. -/
theorem getenv_eq_some (hne : name ≠ []) (hmem : environEntry name value ∈ block)
    (honly : ∀ entry ∈ block, name ++ [61] <+: entry → entry = environEntry name value) :
    getenv block name = some value := by
  rw [getenv, if_neg hne]
  have hprefix : name ++ [61] <+: environEntry name value :=
    ⟨value, by rw [environEntry, List.append_assoc, List.singleton_append]⟩
  have hsome : (block.findSome? fun entry =>
      if name ++ [61] <+: entry then some (entry.drop (name.length + 1)) else none).isSome :=
    List.findSome?_isSome_iff.mpr ⟨_, hmem, by rw [if_pos hprefix]; rfl⟩
  obtain ⟨value', hvalue'⟩ := Option.isSome_iff_exists.mp hsome
  obtain ⟨entry, hentry, heq⟩ := List.exists_of_findSome?_eq_some hvalue'
  rw [hvalue', ← heq]
  split_ifs at heq with hp
  rw [if_pos hp, honly entry hentry hp, drop_environEntry]

theorem getenv_eq_none (h : ∀ entry ∈ block, ¬ name ++ [61] <+: entry) :
    getenv block name = none := by
  rw [getenv]
  split_ifs
  · rfl
  · exact List.findSome?_eq_none_iff.mpr fun entry hentry => if_neg (h entry hentry)

end

/-! ### Names -/

theorem strBytes_injective : Function.Injective strBytes := by
  intro s s' h
  exact String.ext_iff.mpr (encode_injective h)

theorem eq_notMem_strBytes {s : String} (h : '=' ∉ s.toList) : 61 ∉ strBytes s := by
  intro hmem
  obtain ⟨c, hc, hbyte⟩ := List.mem_flatMap.mp hmem
  have hne : c ≠ '=' := fun heq => h (heq ▸ hc)
  exact ascii_notMem_encodeChar (by decide) hne hbyte

theorem strBytes_ne_nil {s : String} (h : s ≠ "") : strBytes s ≠ [] := fun heq =>
  h (strBytes_injective heq)

/-! ### Blocks -/

/-- The value of a variable of the environment, if it is Unicode. -/
def Environ.var (environ : Environ) (name : String) : Option String :=
  (environ.vars.lookup (strBytes name)).bind fromUtf8?

/-- What the program that is started finds for a variable. -/
theorem StdCommand.EnvBlock.getenv_eq {cmd : StdCommand} {environ : Environ}
    {block : List (List UInt8)} (hblock : cmd.EnvBlock environ block)
    (hkeys : ∀ key value, cmd.vars key = some value → '=' ∉ key.toList) {name : String}
    (hne : name ≠ "") (heq : '=' ∉ name.toList) :
    getenv block (strBytes name) =
      match cmd.vars name with
      | some value => some (strBytes value)
      | none => if cmd.envClear then none else environ.vars.lookup (strBytes name) := by
  have hname := eq_notMem_strBytes heq
  -- Every entry about the variable comes from the command or from the environment.
  have hcases : ∀ entry ∈ block, strBytes name ++ [61] <+: entry →
      (∃ value, cmd.vars name = some value ∧
        entry = environEntry (strBytes name) (strBytes value)) ∨
      (cmd.envClear = false ∧ cmd.vars name = none ∧
        ∃ value, (strBytes name, value) ∈ environ.vars ∧
          entry = environEntry (strBytes name) value) := by
    intro entry hentry hp
    rcases (hblock.mem_iff entry).mp hentry with
      ⟨key, value, hkey, rfl⟩ | ⟨hclear, var, hvar, hnot, rfl⟩
    · have hkey' := eq_notMem_strBytes (hkeys key value hkey)
      obtain rfl := strBytes_injective ((prefix_environEntry_iff hname hkey').mp hp)
      exact .inl ⟨value, hkey, rfl⟩
    · have hsame := (prefix_environEntry_iff hname (environ.eq_notMem var hvar)).mp hp
      obtain ⟨name', value⟩ := var
      subst hsame
      exact .inr ⟨hclear, hnot name rfl, value, hvar, rfl⟩
  cases hvar : cmd.vars name with
  | some value =>
    refine getenv_eq_some (strBytes_ne_nil hne) ?_ fun entry hentry hp => ?_
    · exact (hblock.mem_iff _).mpr (.inl ⟨name, value, hvar, rfl⟩)
    · rcases hcases entry hentry hp with ⟨value', hvalue', rfl⟩ | ⟨-, hnone, -⟩
      · obtain rfl := Option.some.inj (hvar.symm.trans hvalue')
        rfl
      · cases hvar.symm.trans hnone
  | none =>
    dsimp only
    split_ifs with hclear
    · refine getenv_eq_none fun entry hentry hp => ?_
      rcases hcases entry hentry hp with ⟨value, hvalue, -⟩ | ⟨hclear', -⟩
      · cases hvar.symm.trans hvalue
      · cases hclear.symm.trans hclear'
    · have hinherits : cmd.envClear = false := Bool.eq_false_iff.mpr hclear
      cases hlookup : environ.vars.lookup (strBytes name) with
      | some value =>
        have hmem := Lookup.mem_of_lookup hlookup
        have hnone : ∀ key, strBytes key = strBytes name → cmd.vars key = none := by
          intro key hkey
          rw [strBytes_injective hkey, hvar]
        refine getenv_eq_some (strBytes_ne_nil hne) ?_ fun entry hentry hp => ?_
        · exact (hblock.mem_iff _).mpr (.inr ⟨hinherits, _, hmem, hnone, rfl⟩)
        · rcases hcases entry hentry hp with ⟨value', hvalue', -⟩ | ⟨-, -, value', hmem', rfl⟩
          · cases hvar.symm.trans hvalue'
          · have hlookup' := Lookup.lookup_eq_some_of_mem environ.nodup hmem'
            rw [Option.some.inj (hlookup.symm.trans hlookup')]
      | none =>
        refine getenv_eq_none fun entry hentry hp => ?_
        rcases hcases entry hentry hp with ⟨value, hvalue, -⟩ | ⟨-, -, value, hmem, -⟩
        · cases hvar.symm.trans hvalue
        · cases hlookup.symm.trans (Lookup.lookup_eq_some_of_mem environ.nodup hmem)

/-- A variable that has been set is Unicode. -/
theorem hostedEnvVar_strBytes (value : String) :
    hostedEnvVar (t := .unix) (some (strBytes value)) = .fromStr value := by
  have hvalid : Valid (strBytes value) := valid_encode value.toList
  rw [hostedEnvVar_of_valid hvalid]
  exact congrArg RocStr.fromStr (strBytes_fromUtf8Lossy value)

/-- **The environment reaches the other program.**  In the program that a chain of builder calls
starts, `Env.var!` answers the last value that the calls have set the variable to; otherwise the
value that the program which starts it has, unless the calls clear the environment. -/
theorem childVar_eq (program : String) (calls : List Call) {environ : Environ}
    {block : List (List UInt8)}
    (hblock : (stdCommand (build program calls)).EnvBlock environ block)
    (hkeys : ∀ pair ∈ pairsOf calls, '=' ∉ pair.1.toList) {name : String} (hne : name ≠ "")
    (heq : '=' ∉ name.toList) :
    hostedEnvVar (t := .unix) (getenv block (strBytes name)) =
      .fromStr ((envOf calls environ.var name).getD "") := by
  have hkeys' : ∀ key value, (stdCommand (build program calls)).vars key = some value →
      '=' ∉ key.toList := by
    intro key value hkey
    rw [stdCommand_build] at hkey
    have hmem := Lookup.mem_of_lookup hkey
    exact hkeys _ (List.mem_reverse.mp hmem)
  rw [hblock.getenv_eq hkeys' hne heq, stdCommand_build, envOf]
  dsimp only
  -- What the calls set comes first, then the parent's unless it was cleared.
  cases lastValue? (pairsOf calls) name with
  | some value => exact hostedEnvVar_strBytes value
  | none =>
    by_cases hclear : Call.clearEnvs ∈ calls
    · rw [if_pos (decide_eq_true hclear), if_pos hclear]
      rfl
    · rw [if_neg (by simpa using hclear), if_neg hclear, Environ.var]
      cases environ.vars.lookup (strBytes name) with
      | none => rfl
      | some bytes => rfl

/-- `A=0` and `B=1`. -/
def abEnviron : Environ := ⟨[([65], [48]), ([66], [49])], by decide, by decide, by decide⟩

/-- With `A` set to `2` and then to `é`, the block is `B=1` and `A=é`. -/
theorem envBlock_ab :
    (stdCommand (build "env" [.env "A" "2", .env "A" "é"])).EnvBlock abEnviron
      [[66, 61, 49], [65, 61, 0xC3, 0xA9]] := by
  rw [stdCommand_build]
  have hvars : ∀ key, lastValue? (pairsOf [.env "A" "2", .env "A" "é"]) key =
      if key = "A" then some "é" else none := by
    -- The second call replaces the value of the first.
    intro key
    show lastValue? ([("A", "2")] ++ [("A", "é")]) key = _
    rw [lastValue?_append_singleton]
    split_ifs with h
    · rfl
    · exact (lastValue?_append_singleton [] ("A", "2") key).trans (if_neg h)
  refine ⟨fun entry => ?_⟩
  simp only [hvars, List.mem_cons, List.not_mem_nil, or_false]
  constructor
  · rintro (rfl | rfl)
    · refine .inr ⟨by decide, ([66], [49]), .tail _ (.head _), fun key hkey => if_neg ?_, by decide⟩
      rintro rfl
      exact absurd hkey (by decide)
    · exact .inl ⟨"A", "é", if_pos rfl, by decide⟩
  · rintro (⟨key, value, hkey, rfl⟩ | ⟨-, var, hvar, hnot, rfl⟩)
    · split_ifs at hkey with h
      cases h
      cases hkey
      exact .inr (by decide)
    · rcases List.mem_cons.mp hvar with rfl | hvar
      · have hnone := hnot "A" (by decide)
        rw [if_pos rfl] at hnone
        cases hnone
      · rw [List.mem_singleton.mp hvar]
        exact .inl rfl

theorem childVar_ab :
    hostedEnvVar (t := .unix) (getenv [[66, 61, 49], [65, 61, 0xC3, 0xA9]] (strBytes "B")) =
        .fromStr "1" ∧
      hostedEnvVar (t := .unix) (getenv [[66, 61, 49], [65, 61, 0xC3, 0xA9]] (strBytes "A")) =
        .fromStr "é" := by
  have hkeys : ∀ pair ∈ pairsOf [.env "A" "2", .env "A" "é"], '=' ∉ pair.1.toList := by
    decide
  refine ⟨(childVar_eq _ _ envBlock_ab hkeys (by decide) (by decide)).trans (by decide), ?_⟩
  exact (childVar_eq _ _ envBlock_ab hkeys (by decide) (by decide)).trans (by decide)

end BasicCli
