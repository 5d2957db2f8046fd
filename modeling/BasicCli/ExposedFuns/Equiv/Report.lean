import BasicCli.ExposedFuns.Equiv.Header
import BasicCli.Run.Ensures
import BasicCli.Run.Except
import BasicCli.Script.Equiv.Output
import BasicCli.Utf8.Equiv.Decode

/-!
# What the script reports

The script ends well iff every function that an exposed module exposes is found in one of the
directories, and exits with 1, below the list of the others, if not (`main_reports`).
-/

namespace BasicCli.ExposedFuns

open Run Script

variable {ε : Type} {w : Surroundings ε} {cwd : Str} {modules : List ModuleFunctions}

/-- A function starts with a small letter of ASCII. -/
theorem startsWithLowercase_iff {s : Str} :
    startsWithLowercase s ↔ ∃ c t, s = c :: t ∧ 97 ≤ c.toNat ∧ c.toNat ≤ 122 := by
  cases s with
  | nil => exact ⟨nofun, fun ⟨_, _, h, _⟩ => nomatch h⟩
  | cons c s =>
    have hbyte : startsWithLowercase (c :: s) =
        (decide (97 ≤ (String.utf8EncodeChar c).head String.utf8EncodeChar_ne_nil) &&
          decide ((String.utf8EncodeChar c).head String.utf8EncodeChar_ne_nil ≤ 122)) := by
      rw [startsWithLowercase, dif_neg (by simp)]
      simp only [Utf8.encode_cons, List.head_append_of_ne_nil String.utf8EncodeChar_ne_nil]
    have hiff : startsWithLowercase (c :: s) ↔ 97 ≤ c.toNat ∧ c.toNat ≤ 122 := by
      rw [hbyte, Bool.and_eq_true, decide_eq_true_iff, decide_eq_true_iff, UInt8.le_iff_toNat_le,
        UInt8.le_iff_toNat_le]
      have hofNat (n : ℕ) (hn : n < 256) : (UInt8.ofNat n).toNat = n := UInt8.toNat_ofNat_of_lt' hn
      -- A first byte of a longer sequence is above `z`.
      rcases Utf8.utf8EncodeChar_cases c with
        ⟨hc, h⟩ | ⟨hc, hc', h⟩ | ⟨hc, hc', -, h⟩ | ⟨hc, hc', h⟩
      all_goals simp only [h, List.head_cons]
      · rw [hofNat _ (by omega)]
        rfl
      all_goals
        rw [hofNat _ (by omega)]
        simp only [UInt8.reduceToNat]
        omega
    rw [hiff]
    constructor
    · exact fun h => ⟨c, s, rfl, h⟩
    · rintro ⟨c', t, h, hc⟩
      cases h
      exact hc

/-! ### The search -/

/-- No directory has the pattern. -/
def isUnused (w : Surroundings ε) (pattern : Str) : Bool :=
  searchDirs.all fun searchDir => !(w.exec rg ["-q".toList, pattern, searchDir]).isOk

/-- All directories can be searched. -/
def Searchable (w : Surroundings ε) : Prop := ∀ searchDir ∈ searchDirs, w.isDir searchDir = .ok true

/-- A directory passes its check iff it is one. -/
theorem checkDir_eq_ok_iff {searchDir : Str} :
    checkDir w cwd searchDir = .ok () ↔ w.isDir searchDir = .ok true := by
  rw [checkDir]
  rcases w.isDir searchDir with err | isDir
  · by_cases h : w.isNotFound err = true
    · simp [h, errS]
    · simp [h, errS]
  · cases isDir
    · simp [errS]
    · simp

theorem unusedInDir_eq {searchDir pattern : Str} (h : w.isDir searchDir = .ok true) :
    unusedInDir w pattern searchDir =
      .ok !(w.exec rg ["-q".toList, pattern, searchDir]).isOk := by
  rw [unusedInDir, except_bind_eq_ok_iff]
  refine ⟨true, mapError_eq_ok_iff.mpr h, ?_⟩
  rcases w.exec rg ["-q".toList, pattern, searchDir] with err | u
  · rfl
  · rfl

/-- **A function is unused** when no directory has it, of directories that can be searched. -/
theorem isFunctionUnused_eq_ok_iff (hcwd : w.cwd = .ok cwd) {moduleName functionName : Str}
    {b : Bool} :
    isFunctionUnused w moduleName functionName = .ok b ↔
      Searchable w ∧ b = isUnused w (functionPattern moduleName functionName) := by
  have hunused (h : Searchable w) :
      searchDirs.mapM (unusedInDir w (functionPattern moduleName functionName)) = .ok _ :=
    mapM_of_forall fun searchDir hdir => unusedInDir_eq (h searchDir hdir)
  -- The fold over the two directories is the conjunction.
  have hfold : (searchDirs.map fun searchDir => !(w.exec rg ["-q".toList,
      functionPattern moduleName functionName, searchDir]).isOk).foldl
        (fun state isUnusedRes => state && isUnusedRes) true =
      isUnused w (functionPattern moduleName functionName) := by
    simp [isUnused, searchDirs]
  rw [isFunctionUnused, except_bind_eq_ok_iff]
  simp only [mapError_eq_ok_iff, except_bind_eq_ok_iff]
  constructor
  · rintro ⟨cwd', -, ⟨⟩, hdirs, unused, hmapM, hb⟩
    have hsearch : Searchable w := fun searchDir hdir =>
      checkDir_eq_ok_iff.mp (forM_eq_ok_iff.mp hdirs searchDir hdir)
    cases (hunused hsearch).symm.trans hmapM
    cases hb
    exact ⟨hsearch, hfold⟩
  · rintro ⟨hsearch, rfl⟩
    refine ⟨cwd, hcwd, (), ?_, _, hunused hsearch, congrArg Except.ok hfold⟩
    exact forM_eq_ok_iff.mpr fun searchDir hdir => checkDir_eq_ok_iff.mpr (hsearch searchDir hdir)

/-! ### The functions of a module -/

/-- What is known of a function in the end. -/
def usage (w : Surroundings ε) (pattern : Str) : Usage :=
  if isUnused w pattern then .notFound pattern else .found pattern

/-- The names that are searched for. -/
def ModuleFunctions.patterns (m : ModuleFunctions) : List Str :=
  m.exposedFunctions.map (functionPattern m.moduleName)

/-- **A function is tagged** by what `rg` finds, where there is something to search. -/
theorem tagFunction_eq_ok_iff (hcwd : w.cwd = .ok cwd) {moduleName functionName : Str}
    {tag : Usage} :
    tagFunction w moduleName functionName = .ok tag ↔
      Searchable w ∧ tag = usage w (functionPattern moduleName functionName) := by
  have htag (b : Bool) : ((if b then pure (.notFound (functionPattern moduleName functionName))
      else pure (.found (functionPattern moduleName functionName)) : Except (ScriptErr ε) Usage)) =
      .ok (if b then .notFound (functionPattern moduleName functionName)
        else .found (functionPattern moduleName functionName)) := by
    cases b <;> rfl
  rw [tagFunction, except_bind_eq_ok_iff]
  simp only [isFunctionUnused_eq_ok_iff hcwd, htag]
  constructor
  · rintro ⟨b, ⟨hsearch, rfl⟩, h⟩
    cases h
    exact ⟨hsearch, rfl⟩
  · rintro ⟨hsearch, rfl⟩
    exact ⟨_, ⟨hsearch, rfl⟩, rfl⟩

/-- The functions of a module are tagged one by one. -/
theorem tagFunctions_eq_ok_iff (hcwd : w.cwd = .ok cwd) {m : ModuleFunctions} {tags : List Usage} :
    tagFunctions w m = .ok tags ↔
      (m.exposedFunctions ≠ [] → Searchable w) ∧ tags = m.patterns.map (usage w) := by
  rw [tagFunctions, mapM_eq_ok_iff_of fun _ _ => tagFunction_eq_ok_iff hcwd,
    ModuleFunctions.patterns, List.map_map]
  refine and_congr_left fun _ => ⟨fun h hne => ?_, fun h _ hmem => h (List.ne_nil_of_mem hmem)⟩
  obtain ⟨functionName, hmem⟩ := List.exists_mem_of_ne_nil _ hne
  exact h functionName hmem

/-! ### The report -/

/-- The functions that are unused, in order. -/
def report (w : Surroundings ε) (modules : List ModuleFunctions) : List Str :=
  (modules.flatMap ModuleFunctions.patterns).filter (isUnused w)

theorem usage_text (pattern : Str) :
    (usage w pattern).text = if isUnused w pattern then pattern else [] := by
  rw [usage]
  split
  · rfl
  · rfl

/-- **The list** of the message has the functions that are found nowhere, in their order. -/
theorem notFoundFunctions_eq (modules : List ModuleFunctions) :
    (((modules.map fun m => m.patterns.map (usage w)).flatten.map Usage.text).filter
      fun s => !s.isEmpty) = report w modules := by
  have hflatten : (modules.map fun m => m.patterns.map (usage w)).flatten =
      (modules.flatMap ModuleFunctions.patterns).map (usage w) := by
    rw [← List.flatMap_def, List.map_flatMap]
  have hne : ∀ pattern ∈ modules.flatMap ModuleFunctions.patterns, pattern ≠ [] := by
    intro pattern hpattern
    obtain ⟨m, -, hm⟩ := List.mem_flatMap.mp hpattern
    obtain ⟨functionName, -, rfl⟩ := List.mem_map.mp hm
    simp [functionPattern]
  rw [hflatten, List.map_map, report]
  generalize modules.flatMap ModuleFunctions.patterns = patterns at hne
  induction patterns with
  | nil => rfl
  | cons pattern patterns ih =>
    obtain ⟨hpattern, hpatterns⟩ := List.forall_mem_cons.mp hne
    rw [List.map_cons, List.filter_cons, List.filter_cons, ih hpatterns, Function.comp_apply,
      usage_text]
    cases hunused : isUnused w pattern
    · rfl
    · rw [if_pos rfl, if_pos rfl, if_pos (by simpa using hpattern)]

/-- The file of a module lists its functions. -/
def Declares (w : Surroundings ε) (m : ModuleFunctions) : Prop :=
  ∃ source items, w.readUtf8 (modulePath m.moduleName) = .ok source ∧
    Header moduleKeyword source (.ok items : Except (ScriptErr ε) (List Str)) ∧
    m.exposedFunctions = items.filter startsWithLowercase

/-- A module is processed iff its header declares what is answered. -/
theorem processModule_eq_ok_iff {moduleName : Str} {m : ModuleFunctions} :
    processModule w moduleName = .ok m ↔ moduleName = m.moduleName ∧ Declares w m := by
  rw [processModule, except_bind_eq_ok_iff]
  simp only [mapError_eq_ok_iff, except_bind_eq_ok_iff, extractModuleList,
    extractList_eq_iff (show moduleKeyword ≠ [] by decide)]
  constructor
  · rintro ⟨source, hsource, items, hitems, h⟩
    cases h
    exact ⟨rfl, source, items, hsource, hitems, rfl⟩
  · rintro ⟨rfl, source, items, hsource, hitems, hfunctions⟩
    refine ⟨source, hsource, items, hitems, ?_⟩
    rw [← hfunctions]
    rfl

/-- The modules are processed one by one. -/
theorem processModules_eq_ok_iff {names : List Str} :
    names.mapM (processModule w) = .ok modules ↔
      names = modules.map ModuleFunctions.moduleName ∧ ∀ m ∈ modules, Declares w m := by
  rw [mapM_eq_ok_iff]
  simp only [processModule_eq_ok_iff]
  induction modules generalizing names with
  | nil => simp
  | cons m modules ih =>
    rw [List.forall₂_cons_right_iff, List.map_cons, List.forall_mem_cons]
    constructor
    · rintro ⟨name, names', ⟨rfl, hm⟩, hrest, rfl⟩
      obtain ⟨rfl, hall⟩ := ih.mp hrest
      exact ⟨rfl, hm, hall⟩
    · rintro ⟨rfl, hm, hall⟩
      exact ⟨_, _, ⟨rfl, hm⟩, ih.mpr ⟨rfl, hall⟩, rfl⟩

/-- All that the script needs is there: the directory, and the exposed functions in order. -/
structure Finds (w : Surroundings ε) (cwd : Str) (modules : List ModuleFunctions) : Prop where
  ripgrep : w.exec rg ["--version".toList] = .ok ()
  cwd : w.cwd = .ok cwd
  exposes : ∃ content, w.readUtf8 "platform/main.roc".toList = .ok content ∧
    Header exposesKeyword content
      (.ok (modules.map ModuleFunctions.moduleName) : Except (ScriptErr ε) (List Str))
  declares : ∀ m ∈ modules, Declares w m
  searchable : ∀ m ∈ modules, m.exposedFunctions ≠ [] → Searchable w

/-! ### Errors -/

/-- The error is not the exit below the report. -/
def NotExit : ScriptErr ε → Prop
  | .exit _ _ => False
  | _ => True

/-- No error of `x` is the exit. -/
def NeverExits {α : Type} (x : Except (ScriptErr ε) α) : Prop := ∀ e, x = .error e → NotExit e

section

variable {α β : Type}

theorem neverExits_ok (a : α) : NeverExits (.ok a : Except (ScriptErr ε) α) := nofun

theorem neverExits_errS (errMsg : Str) : NeverExits (errS errMsg : Except (ScriptErr ε) α) := by
  rintro _ ⟨⟩
  trivial

theorem neverExits_mapError {x : Except ε α} {f : ε → ScriptErr ε} (hf : ∀ err, NotExit (f err)) :
    NeverExits (x.mapError f) := by
  intro e he
  obtain ⟨err, -, rfl⟩ := mapError_eq_error_iff.mp he
  exact hf err

/-- What follows does not exit either. -/
theorem NeverExits.bind {x : Except (ScriptErr ε) β} {f : β → Except (ScriptErr ε) α}
    (hx : NeverExits x) (hf : ∀ b, NeverExits (f b)) : NeverExits (x >>= f) := by
  intro e he
  rcases except_bind_eq_error_iff.mp he with he | ⟨b, -, he⟩
  · exact hx e he
  · exact hf b e he

/-- A traversal does not exit if no element does. -/
theorem neverExits_mapM {f : β → Except (ScriptErr ε) α} (hf : ∀ b, NeverExits (f b))
    (l : List β) : NeverExits (l.mapM f) := by
  intro e he
  obtain ⟨b, -, hb⟩ := error_of_mapM he
  exact hf b e hb

end

theorem neverExits_extractList {keyword src : Str} (hkeyword : keyword ≠ []) :
    NeverExits (extractList keyword src : Except (ScriptErr ε) (List Str)) := by
  intro e he
  rw [extractList_eq_iff hkeyword] at he
  cases he with
  | missing => trivial
  | unopened => trivial
  | unclosed => trivial

theorem neverExits_processModule (w : Surroundings ε) (moduleName : Str) :
    NeverExits (processModule w moduleName) :=
  (neverExits_mapError fun _ => by trivial).bind fun _ =>
    (neverExits_extractList (by decide)).bind fun _ => neverExits_ok _

theorem neverExits_isFunctionUnused (w : Surroundings ε) (moduleName functionName : Str) :
    NeverExits (isFunctionUnused w moduleName functionName) := by
  -- Both helpers answer every failure by a message.
  have hcheck (cwd searchDir : Str) : NeverExits (checkDir w cwd searchDir) := by
    unfold checkDir
    split
    · split
      · exact neverExits_errS _
      · exact neverExits_ok ()
    · split
      · exact neverExits_errS _
      · exact neverExits_errS _
  have hunused (pattern searchDir : Str) : NeverExits (unusedInDir w pattern searchDir) := by
    refine (neverExits_mapError fun _ => by trivial).bind fun dirExists => ?_
    split
    · exact neverExits_ok true
    · split
      · exact neverExits_ok false
      · exact neverExits_ok true
  refine (neverExits_mapError fun _ => by trivial).bind fun cwd => NeverExits.bind ?_ fun _ =>
    (neverExits_mapM (hunused _) _).bind fun _ => neverExits_ok _
  intro e he
  obtain ⟨searchDir, -, h⟩ := error_of_forM he
  exact hcheck cwd searchDir e h

theorem neverExits_tagFunctions (w : Surroundings ε) (m : ModuleFunctions) :
    NeverExits (tagFunctions w m) := by
  refine neverExits_mapM (fun functionName => ?_) _
  refine (neverExits_isFunctionUnused w m.moduleName functionName).bind fun b => ?_
  cases b
  · exact neverExits_ok _
  · exact neverExits_ok _

/-! ### The script -/

/-- How `main!` fails. -/
inductive Failure (w : Surroundings ε) (out out' : Printed ε) : ScriptErr ε → Prop
  | unused {cwd : Str} {modules : List ModuleFunctions} (hfinds : Finds w cwd modules)
    (hreport : report w modules ≠ [])
    (hlines : out'.lines = out.lines ++ cwdLine cwd :: unusedLine :: report w modules) :
    Failure w out out' (.exit 1 exitMessage)
  | refused {err : ε} (h : .error err ∈ out.answers) : Failure w out out' (.platform err)
  | missing {e : ScriptErr ε} (he : NotExit e) (h : ∀ cwd modules, ¬ Finds w cwd modules) :
    Failure w out out' e

/-- **The script ends well** when each exposed function is used, and else exits with 1 below the
list of those that are not; any other failure is one of a write, or what the script needs is not
there. -/
theorem main_reports (w : Surroundings ε) (out : Printed ε) :
    Leaves (main w) out
      (fun _ out' => ∃ cwd modules, Finds w cwd modules ∧ report w modules = [] ∧
        out'.lines = out.lines ++ [cwdLine cwd])
      fun e out' => Failure w out out' e := by
  -- Where a step fails, nothing that the script could find makes it succeed.
  have hmissing {α : Type} {x : Except (ScriptErr ε) α} (out₁ : Printed ε) (hx : NeverExits x)
      (h : ∀ cwd modules, Finds w cwd modules → ∃ a, x = .ok a) (e : ScriptErr ε)
      (he : x = .error e) : Failure w out out₁ e := by
    refine .missing (hx e he) fun cwd modules hfinds => ?_
    obtain ⟨a, ha⟩ := h cwd modules hfinds
    cases he.symm.trans ha
  refine leaves_ofExcept_bind (hmissing out (neverExits_mapError fun _ => by trivial)
    fun cwd modules hfinds => ⟨(), mapError_eq_ok_iff.mpr hfinds.ripgrep⟩) fun _ hripgrep => ?_
  refine leaves_ofExcept_bind (hmissing out (neverExits_mapError fun _ => by trivial)
    fun cwd modules hfinds => ⟨cwd, mapError_eq_ok_iff.mpr hfinds.cwd⟩) fun cwd hcwd => ?_
  rw [mapError_eq_ok_iff] at hripgrep hcwd
  refine leaves_bind
    ((leaves_stdoutLine ScriptErr.platform (cwdLine cwd) out).mono (fun _ _ h => h) ?_) ?_
  · rintro e out₁ ⟨err, rfl, herr⟩
    exact .refused herr
  rintro - out₁ ⟨hlines, hanswers⟩
  refine leaves_ofExcept_bind (hmissing out₁ (neverExits_mapError fun _ => by trivial) ?_)
    fun content hcontent => ?_
  · intro _ modules hfinds
    obtain ⟨content, hcontent, -⟩ := hfinds.exposes
    exact ⟨content, mapError_eq_ok_iff.mpr hcontent⟩
  rw [mapError_eq_ok_iff] at hcontent
  have hexposes {cwd' : Str} {modules : List ModuleFunctions} (hfinds : Finds w cwd' modules) :
      extractExposesList content =
        (.ok (modules.map ModuleFunctions.moduleName) : Except (ScriptErr ε) (List Str)) := by
    obtain ⟨content', hcontent', hheader⟩ := hfinds.exposes
    cases hcontent.symm.trans hcontent'
    exact (extractList_eq_iff (by decide)).mpr hheader
  refine leaves_ofExcept_bind (hmissing out₁ (neverExits_extractList (by decide))
    fun _ modules hfinds => ⟨_, hexposes hfinds⟩) fun names hnames => ?_
  have hmodules {cwd' : Str} {modules : List ModuleFunctions} (hfinds : Finds w cwd' modules) :
      names.mapM (processModule w) = .ok modules := by
    cases hnames.symm.trans (hexposes hfinds)
    exact processModules_eq_ok_iff.mpr ⟨rfl, hfinds.declares⟩
  refine leaves_ofExcept_bind (hmissing out₁ (neverExits_mapM (neverExits_processModule w) _)
    fun _ modules hfinds => ⟨modules, hmodules hfinds⟩) fun modules hprocess => ?_
  refine leaves_ofExcept_bind (hmissing out₁ (neverExits_mapM (neverExits_tagFunctions w) _) ?_)
    fun tags htags => ?_
  · intro _ modules' hfinds
    cases hprocess.symm.trans (hmodules hfinds)
    exact ⟨_, (mapM_eq_ok_iff_of fun _ _ => tagFunctions_eq_ok_iff hcwd).mpr
      ⟨hfinds.searchable, rfl⟩⟩
  obtain ⟨rfl, hdeclares⟩ := processModules_eq_ok_iff.mp hprocess
  rw [extractExposesList, extractList_eq_iff (by decide)] at hnames
  obtain ⟨hsearchable, rfl⟩ :=
    (mapM_eq_ok_iff_of fun _ _ => tagFunctions_eq_ok_iff hcwd).mp htags
  have hfinds : Finds w cwd modules :=
    ⟨hripgrep, hcwd, ⟨content, hcontent, hnames⟩, hdeclares, hsearchable⟩
  rw [notFoundFunctions_eq]
  by_cases hreport : report w modules = []
  · rw [hreport]
    exact leaves_pure ⟨cwd, modules, hfinds, hreport, hlines⟩
  · rw [if_neg (by simpa using hreport)]
    refine leaves_bind
      ((leaves_stdoutLine ScriptErr.platform unusedLine out₁).mono (fun _ _ h => h) ?_) ?_
    · rintro e out₂ ⟨err, rfl, herr⟩
      exact .refused (hanswers herr)
    rintro - out₂ ⟨hlines₂, hanswers₂⟩
    refine leaves_bind
      ((leaves_stdoutLines ScriptErr.platform (report w modules) out₂).mono (fun _ _ h => h) ?_) ?_
    · rintro e out₃ ⟨err, rfl, herr⟩
      exact .refused (hanswers (hanswers₂ herr))
    rintro - out₃ ⟨hlines₃, -⟩
    refine leaves_throw (.unused hfinds hreport ?_)
    rw [hlines₃, hlines₂, hlines]
    simp

end BasicCli.ExposedFuns
