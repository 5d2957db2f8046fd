import BasicCli.CargoVersions.Manifest
import BasicCli.Text.Split
import BasicCli.Utf8.Equiv.Decode

/-!
# What is read of an entry

`parse_dependency_line` reads the first line of an entry as it is meant iff a plain entry has no
comment behind it and a table has its version where it is looked for.  Nothing is read from the
further lines of an entry if they are skipped (`Entry.isRead_iff`).
-/

namespace BasicCli

theorem Str.fromUtf8_encode (s : Str) : Str.fromUtf8 (Utf8.encode s) = some s := by
  rw [Str.fromUtf8, Utf8.fromUtf8?_encode, Option.map_some, String.toList_ofList]

/-- A text that starts with a character. -/
theorem Str.startsWith_singleton_iff {s : Str} {c : Char} :
    s.startsWith [c] ↔ ∃ t, s = c :: t := by
  rw [Str.startsWith, List.isPrefixOf_iff_prefix]
  constructor
  · rintro ⟨t, rfl⟩
    exact ⟨t, rfl⟩
  · rintro ⟨t, rfl⟩
    exact ⟨t, rfl⟩

theorem Str.trim_trim (s : Str) : Str.trim (Str.trim s) = Str.trim s :=
  Text.trimBy_trimBy isWhiteSpace s

/-! ### Quoted strings -/

/-- A quoted text is read as what is between the quotes. -/
theorem extractQuotedString_quoted (v : Str) :
    extractQuotedString ('"' :: (v ++ ['"'])) = .ok v := by
  have hinner : ((Utf8.encode ('"' :: (v ++ ['"']))).drop 1).dropLast = Utf8.encode v := by
    rw [Utf8.encode_cons, Utf8.encode_append]
    exact List.dropLast_concat
  have hends : Str.endsWith ('"' :: (v ++ ['"'])) ['"'] :=
    List.isSuffixOf_iff_suffix.mpr ⟨'"' :: v, rfl⟩
  rw [extractQuotedString, if_pos (by rw [hends]; rfl), hinner, Str.fromUtf8_encode]

/-- A quoted string is read from its first to its last character. -/
theorem extractQuotedString_eq_ok_iff {s v : Str} :
    extractQuotedString s = .ok v ↔ s = '"' :: (v ++ ['"']) ∨ s = ['"'] ∧ v = [] := by
  constructor
  · intro h
    by_cases hquoted : s.startsWith ['"'] && s.endsWith ['"']
    · rw [Bool.and_eq_true, Str.startsWith_singleton_iff, Str.endsWith,
        List.isSuffixOf_iff_suffix] at hquoted
      obtain ⟨⟨t, rfl⟩, l, hl⟩ := hquoted
      -- A single quote is both ends of itself.
      cases l with
      | nil =>
        obtain ⟨-, rfl⟩ := List.cons.inj hl
        cases h
        exact .inr ⟨rfl, rfl⟩
      | cons c l =>
        obtain ⟨-, rfl⟩ := List.cons.inj hl
        cases (extractQuotedString_quoted l).symm.trans h
        exact .inl rfl
    · rw [extractQuotedString, if_neg hquoted] at h
      cases h
  · rintro (rfl | ⟨rfl, rfl⟩)
    · exact extractQuotedString_quoted v
    · rfl

/-! ### Versions in tables -/

theorem not_isWhiteSpace_quote : ¬ isWhiteSpace '"' := by decide

/-- The byte of `=` is its character. -/
theorem Str.fromUtf8_drop_encode (s : Str) :
    Str.fromUtf8 ((Utf8.encode ('=' :: s)).drop 1) = some s := by
  rw [Utf8.encode_cons]
  exact Str.fromUtf8_encode s

/-- Where a version is read, each of the four searches has found something. -/
theorem extractVersionFromTable_ok {s v : Str} (h : extractVersionFromTable s = .ok v) :
    ∃ before after valueStr gap afterFirstQuote rest,
      Str.splitFirst s versionTag = some (before, after) ∧
      Str.trim after = '=' :: valueStr ∧
      Str.splitFirst (Str.trim valueStr) ['"'] = some (gap, afterFirstQuote) ∧
      Str.splitFirst afterFirstQuote ['"'] = some (v, rest) := by
  rw [extractVersionFromTable] at h
  -- Four steps can fail, and each must have succeeded: the tag, the `=`, the two quotes.
  rcases htag : Str.splitFirst s versionTag with _ | ⟨before, after⟩
  · rw [htag] at h
    cases h
  rw [htag] at h
  dsimp only at h
  by_cases heq : (Str.trim after).startsWith ['=']
  swap
  · rw [if_neg heq] at h
    cases h
  obtain ⟨valueStr, hvalue⟩ := Str.startsWith_singleton_iff.mp heq
  rw [if_pos heq, hvalue, Str.fromUtf8_drop_encode] at h
  dsimp only at h
  rcases hopen : Str.splitFirst (Str.trim valueStr) ['"'] with _ | ⟨gap, afterFirstQuote⟩
  · rw [hopen] at h
    cases h
  rw [hopen] at h
  dsimp only at h
  rcases hclose : Str.splitFirst afterFirstQuote ['"'] with _ | ⟨version, rest⟩
  · rw [hclose] at h
    cases h
  rw [hclose] at h
  cases h
  exact ⟨before, after, valueStr, gap, afterFirstQuote, rest, rfl, hvalue, hopen, hclose⟩

/-- **What is read of a table** stands in it, with `version` before it. -/
theorem readsVersion_of_extractVersionFromTable {s v : Str}
    (h : extractVersionFromTable s = .ok v) : ReadsVersion s v := by
  obtain ⟨before, after, valueStr, gap, afterFirstQuote, rest, htag, hvalue, hopen, hclose⟩ :=
    extractVersionFromTable_ok h
  obtain ⟨hs, hfirst⟩ := (Text.dropInfix?_eq_some_iff (by decide)).mp htag
  obtain ⟨hopen, hgap⟩ := Text.dropInfix?_singleton_eq_some_iff.mp hopen
  obtain ⟨hclose, hversion⟩ := Text.dropInfix?_singleton_eq_some_iff.mp hclose
  obtain ⟨l, r, hl, -, hafter⟩ := Text.exists_eq_trimBy isWhiteSpace after
  obtain ⟨l', r', hl', -, hvalueStr⟩ := Text.exists_eq_trimBy isWhiteSpace valueStr
  rw [← Str.trim] at hafter hvalueStr
  refine ⟨before, l, l' ++ gap, rest ++ r' ++ r, ?_, hfirst, hl, ?_, hversion⟩
  · rw [hs, hafter, hvalue, hvalueStr, hopen, hclose]
    simp only [List.append_assoc, List.cons_append]
  · rw [List.mem_append, not_or]
    exact ⟨fun hmem => not_isWhiteSpace_quote (hl' _ hmem), hgap⟩

/-- What stands behind `version` in a table is read. -/
theorem extractVersionFromTable_of_readsVersion {s v : Str} (h : ReadsVersion s v) :
    extractVersionFromTable s = .ok v := by
  obtain ⟨before, blanks, gap, after, hs, hfirst, hblanks, hgap, hversion⟩ := h
  have htag := (Text.dropInfix?_eq_some_iff (by decide)).mpr ⟨hs, hfirst⟩
  rw [← Str.splitFirst] at htag
  -- Neither trimming reaches what is between `=` and the second quote.
  have htrim : Str.trim (blanks ++ '=' :: (gap ++ '"' :: (v ++ '"' :: after))) =
      '=' :: (gap ++ '"' :: (v ++ '"' :: after.rdropWhile isWhiteSpace)) := by
    rw [Str.trim, Text.trimBy_append_left hblanks, Text.trimBy_cons (by decide),
      Text.rdropWhile_append_cons not_isWhiteSpace_quote,
      Text.rdropWhile_append_cons not_isWhiteSpace_quote]
  have hvalue (rest : Str) : Str.trim (gap ++ '"' :: (v ++ '"' :: rest)) =
      gap.dropWhile isWhiteSpace ++ '"' :: (v ++ '"' :: rest.rdropWhile isWhiteSpace) := by
    rw [Str.trim, Text.trimBy_append_cons not_isWhiteSpace_quote,
      Text.rdropWhile_append_cons not_isWhiteSpace_quote]
  have hopen (rest : Str) : Str.splitFirst (gap.dropWhile isWhiteSpace ++ '"' :: rest) ['"'] =
      some (gap.dropWhile isWhiteSpace, rest) :=
    Text.dropInfix?_singleton_eq_some_iff.mpr
      ⟨rfl, fun hmem => hgap ((List.dropWhile_sublist isWhiteSpace).mem hmem)⟩
  have hclose (rest : Str) : Str.splitFirst (v ++ '"' :: rest) ['"'] = some (v, rest) :=
    Text.dropInfix?_singleton_eq_some_iff.mpr ⟨rfl, hversion⟩
  rw [extractVersionFromTable, htag]
  dsimp only
  rw [htrim, if_pos (Str.startsWith_singleton_iff.mpr ⟨_, rfl⟩), Str.fromUtf8_drop_encode]
  dsimp only
  rw [hvalue, hopen]
  dsimp only
  rw [hclose]

/-- **The version of a table** is read where the first `version` is. -/
theorem extractVersionFromTable_eq_ok_iff {s v : Str} :
    extractVersionFromTable s = .ok v ↔ ReadsVersion s v :=
  ⟨readsVersion_of_extractVersionFromTable, extractVersionFromTable_of_readsVersion⟩

/-- Blanks at the end make no difference. -/
theorem readsVersion_append_iff {s v r : Str} (hr : ∀ c ∈ r, isWhiteSpace c) :
    ReadsVersion (s ++ r) v ↔ ReadsVersion s v := by
  constructor
  · rintro ⟨before, blanks, gap, after, hs, hfirst, hblanks, hgap, hversion⟩
    have hquote : s ++ r =
        before ++ versionTag ++ (blanks ++ '=' :: (gap ++ '"' :: v)) ++ '"' :: after := by
      rw [hs]
      simp only [List.append_assoc, List.cons_append]
    obtain ⟨after', hs', -⟩ := Text.eq_of_append_eq not_isWhiteSpace_quote hr hquote
    refine ⟨before, blanks, gap, after', ?_, hfirst, hblanks, hgap, hversion⟩
    rw [hs']
    simp only [List.append_assoc, List.cons_append]
  · rintro ⟨before, blanks, gap, after, rfl, hfirst, hblanks, hgap, hversion⟩
    refine ⟨before, blanks, gap, after ++ r, ?_, hfirst, hblanks, hgap, hversion⟩
    simp only [List.append_assoc, List.cons_append]

/-! ### Lines -/

/-- **What is read of a value.** -/
theorem parseVersion_eq_ok_iff {s v : Str} : parseVersion s = .ok v ↔ ReadsValue s v := by
  rw [parseVersion, ReadsValue, ← or_assoc, ← extractQuotedString_eq_ok_iff]
  by_cases hquote : s.startsWith ['"']
  · rw [if_pos hquote]
    refine (or_iff_left ?_).symm
    obtain ⟨t, rfl⟩ := Str.startsWith_singleton_iff.mp hquote
    rintro ⟨hbrace, -⟩
    obtain ⟨t', ht'⟩ := Str.startsWith_singleton_iff.mp hbrace
    cases ht'
  · have hquoted : ¬ extractQuotedString s = .ok v := by
      intro h
      rw [extractQuotedString, Bool.eq_false_iff.mpr hquote] at h
      cases h
    rw [if_neg hquote, or_iff_right hquoted, ← extractVersionFromTable_eq_ok_iff]
    by_cases hbrace : s.startsWith ['\x7b']
    · rw [if_pos hbrace, and_iff_right hbrace]
    · rw [if_neg hbrace]
      exact iff_of_false nofun fun h => hbrace h.1

/-- What is read of a line of a dependency section. -/
def lineDep (line : Str) : Option Dep := (parseDependencyLine (Str.trim line)).toOption

/-- **What is read of a line** is a name and the value behind its first `=`. -/
theorem lineDep_eq_some_iff {line : Str} {d : Dep} : lineDep line = some d ↔ ReadsDep line d := by
  rw [lineDep, parseDependencyLine, Str.trim_trim, ReadsDep]
  by_cases hskip : (Str.trim line).startsWith ['#'] || (Str.trim line).isEmpty
  · rw [if_pos hskip]
    refine iff_of_false nofun ?_
    rintro ⟨hcomment, name, value, hline, -⟩
    rw [Bool.or_eq_true, or_iff_right hcomment, hline] at hskip
    simp at hskip
  · rw [if_neg hskip]
    rw [Bool.or_eq_true, not_or] at hskip
    rw [and_iff_right hskip.1]
    -- Everything else hangs on what is behind the first `=`.
    rcases hsplit : Str.splitFirst (Str.trim line) ['='] with _ | ⟨namePart, valuePart⟩
    · refine iff_of_false nofun ?_
      rintro ⟨name, value, hline, hname, -⟩
      have hsome := Text.dropInfix?_singleton_eq_some_iff.mpr ⟨hline, hname⟩
      rw [← Str.splitFirst, hsplit] at hsome
      cases hsome
    · dsimp only
      constructor
      · intro h
        obtain ⟨hline, hname⟩ := Text.dropInfix?_singleton_eq_some_iff.mp hsplit
        rcases hversion : parseVersion (Str.trim valuePart) with err | v
        · rw [hversion] at h
          cases h
        · rw [hversion] at h
          cases h
          exact ⟨namePart, valuePart, hline, hname, rfl, parseVersion_eq_ok_iff.mp hversion⟩
      · rintro ⟨name, value, hline, hname, hd, hvalue⟩
        have hsome := Text.dropInfix?_singleton_eq_some_iff.mpr ⟨hline, hname⟩
        rw [← Str.splitFirst, hsplit] at hsome
        cases hsome
        rw [parseVersion_eq_ok_iff.mpr hvalue]
        cases d
        cases hd
        rfl

/-- The characters of a bare key, by their numbers. -/
theorem toNat_of_isBareKeyChar {c : Char} (hc : isBareKeyChar c) :
    (48 ≤ c.toNat ∧ c.toNat ≤ 57) ∨ (65 ≤ c.toNat ∧ c.toNat ≤ 90) ∨
      (97 ≤ c.toNat ∧ c.toNat ≤ 122) ∨ c.toNat = 95 ∨ c.toNat = 45 := by
  have hc : ((((decide ('A'.val ≤ c.val ∧ c.val ≤ 'Z'.val) ||
      (decide ('a'.val ≤ c.val) && decide (c.val ≤ 'z'.val))) ||
      (decide ('0'.val ≤ c.val) && decide (c.val ≤ '9'.val))) || c == '_') || c == '-') = true := hc
  simp only [Bool.or_eq_true, Bool.and_eq_true, decide_eq_true_eq, beq_iff_eq,
    UInt32.le_iff_toNat_le] at hc
  rcases hc with ((((h | h) | h) | rfl) | rfl)
  · exact .inr (.inl h)
  · exact .inr (.inr (.inl h))
  · exact .inl h
  · decide
  · decide

theorem not_isWhiteSpace_of_isBareKeyChar {c : Char} (hc : isBareKeyChar c) :
    ¬ isWhiteSpace c := by
  have hrange := toNat_of_isBareKeyChar hc
  simp only [isWhiteSpace, Bool.or_eq_true, Bool.and_eq_true, decide_eq_true_eq, beq_iff_eq]
  omega

theorem newline_notMem_blanks (b : Blanks) : '\n' ∉ b.1 := fun hmem => (b.2 _ hmem).2 rfl

theorem ne_newline_of_notMem {s : Str} (hs : '\n' ∉ s) : ∀ c ∈ s, decide (c ≠ '\n') :=
  fun _ hc => decide_eq_true fun heq => hs (heq ▸ hc)

/-- The first line of an entry. -/
def Entry.firstLine (e : Entry) : Str :=
  e.indent.1 ++ e.name.1 ++ e.nameBlanks.1 ++
    '=' :: (e.valueBlanks.1 ++ e.value.takeWhile (· ≠ '\n'))

namespace Entry

variable (e : Entry)

theorem newline_notMem_name : '\n' ∉ e.name.1 := fun hmem =>
  not_isWhiteSpace_of_isBareKeyChar (e.name.2.2 _ hmem) (by decide)

theorem equals_notMem_name : '=' ∉ e.name.1 := fun hmem => by
  have hrange := toNat_of_isBareKeyChar (e.name.2.2 _ hmem)
  exact absurd hrange (by decide)

theorem lines_eq : ∃ rest, e.lines = e.firstLine :: rest := by
  obtain ⟨rest, hrest⟩ := Text.splitOn_eq_cons '\n' e.text
  refine ⟨rest, hrest.trans (congrArg (· :: rest) ?_)⟩
  have hblanks (b : Blanks) := ne_newline_of_notMem (newline_notMem_blanks b)
  have hname := ne_newline_of_notMem e.newline_notMem_name
  rw [text, List.append_assoc, List.append_assoc, List.takeWhile_append_of_pos (hblanks _),
    List.takeWhile_append_of_pos hname, List.takeWhile_append_of_pos (hblanks _),
    List.takeWhile_cons_of_pos (by decide), List.takeWhile_append_of_pos (hblanks _), firstLine,
    List.append_assoc, List.append_assoc]

/-- The name is in front of the first `=`. -/
theorem trim_firstLine :
    Str.trim e.firstLine = e.name.1 ++ e.nameBlanks.1 ++
      '=' :: (e.valueBlanks.1 ++ e.value.takeWhile (· ≠ '\n')).rdropWhile isWhiteSpace := by
  rw [firstLine, List.append_assoc, List.append_assoc, Str.trim,
    Text.trimBy_append_left fun c hc => (e.indent.2 c hc).1, ← List.append_assoc,
    Text.trimBy_append_cons (by decide)]
  obtain ⟨c, cs, hname⟩ := List.exists_cons_of_ne_nil e.name.2.1
  have hc : isBareKeyChar c := e.name.2.2 c (by rw [hname]; exact List.mem_cons_self)
  rw [hname, List.cons_append, List.dropWhile_cons_of_neg (not_isWhiteSpace_of_isBareKeyChar hc)]

/-- The blanks behind a name are trimmed off. -/
theorem trim_nameBlanks : Str.trim (e.name.1 ++ e.nameBlanks.1) = e.name.1 := by
  rw [Str.trim, Text.trimBy_append_right fun c hc => (e.nameBlanks.2 c hc).1,
    Text.trimBy_of_forall fun c hc => not_isWhiteSpace_of_isBareKeyChar (e.name.2.2 c hc)]

/-- The line of an entry starts with its name. -/
theorem not_startsWith_trim_firstLine {c : Char} (hc : ¬ isBareKeyChar c) :
    ¬ (Str.trim e.firstLine).startsWith [c] := by
  obtain ⟨d, cs, hname⟩ := List.exists_cons_of_ne_nil e.name.2.1
  have hd : isBareKeyChar d := e.name.2.2 d (by rw [hname]; exact List.mem_cons_self)
  rw [trim_firstLine, hname, Str.startsWith_singleton_iff]
  rintro ⟨t, ht⟩
  obtain ⟨rfl, -⟩ := List.cons.inj ht
  exact hc hd

/-- **The first line of an entry** is read as its name with what is read of its value. -/
theorem parseDependencyLine_firstLine :
    parseDependencyLine (Str.trim e.firstLine) =
      (parseVersion (Str.trim (e.value.takeWhile (· ≠ '\n')))).map (Dep.mk e.name.1) := by
  -- The first `=` of the line is the one behind the name, which has none.
  have hsplit : Str.splitFirst (Str.trim e.firstLine) ['='] =
      some (e.name.1 ++ e.nameBlanks.1,
        (e.valueBlanks.1 ++ e.value.takeWhile (· ≠ '\n')).rdropWhile isWhiteSpace) := by
    refine Text.dropInfix?_singleton_eq_some_iff.mpr ⟨e.trim_firstLine, ?_⟩
    rw [List.mem_append, not_or]
    exact ⟨e.equals_notMem_name, fun hmem => absurd (e.nameBlanks.2 _ hmem).1 (by decide)⟩
  have hentry : ¬ ((Str.trim e.firstLine).startsWith ['#'] || (Str.trim e.firstLine).isEmpty) := by
    rw [Bool.or_eq_true, not_or]
    refine ⟨e.not_startsWith_trim_firstLine (by decide), ?_⟩
    rw [e.trim_firstLine]
    simp
  have hvalue : Str.trim
      ((e.valueBlanks.1 ++ e.value.takeWhile (· ≠ '\n')).rdropWhile isWhiteSpace) =
        Str.trim (e.value.takeWhile (· ≠ '\n')) := by
    rw [Str.trim, Text.trimBy_rdropWhile,
      Text.trimBy_append_left fun c hc => (e.valueBlanks.2 c hc).1, Str.trim]
  rw [parseDependencyLine, Str.trim_trim, if_neg hentry, hsplit]
  dsimp only
  rw [e.trim_nameBlanks, hvalue]

/-- The name of an entry is always read as it is meant. -/
theorem lineDep_firstLine :
    lineDep e.firstLine =
      (parseVersion (Str.trim (e.value.takeWhile (· ≠ '\n')))).toOption.map (Dep.mk e.name.1) := by
  rw [lineDep, e.parseDependencyLine_firstLine]
  rcases parseVersion (Str.trim (e.value.takeWhile (· ≠ '\n'))) with err | version
  · rfl
  · rfl

/-- Whatever version is read of an entry, it is one of its name. -/
theorem name_of_lineDep {d : Dep} (h : lineDep e.firstLine = some d) : d.name = e.name.1 := by
  rw [lineDep_firstLine] at h
  obtain ⟨version, -, rfl⟩ := Option.map_eq_some_iff.mp h
  rfl

/-- An entry is read as what it says iff its value is. -/
theorem lineDep_firstLine_eq_dep_iff :
    lineDep e.firstLine = some e.dep ↔
      parseVersion (Str.trim (e.value.takeWhile (· ≠ '\n'))) = .ok e.version.1 := by
  rw [lineDep_firstLine]
  rcases parseVersion (Str.trim (e.value.takeWhile (· ≠ '\n'))) with err | version
  · exact iff_of_false nofun nofun
  · simp [Except.toOption, dep]

/-! ### The two forms -/

variable {e}

theorem value_plain (hform : e.form = .plain) :
    e.value = '"' :: (e.version.1 ++ '"' :: (e.endBlanks.1 ++ commentText e.comment)) := by
  rw [value, hform]
  simp [VersionText.quoted]

/-- A plain value is on one line. -/
theorem newline_notMem_value (hform : e.form = .plain) : '\n' ∉ e.value := by
  have hcomment : '\n' ∉ commentText e.comment := by
    rcases e.comment with _ | comment
    · exact List.not_mem_nil
    · rw [commentText, List.mem_cons, not_or]
      exact ⟨by decide, comment.2⟩
  rw [value_plain hform]
  simp [e.version.2.2.2, hcomment, newline_notMem_blanks]

/-- A plain entry has no further lines. -/
theorem restSkipped_of_plain (hform : e.form = .plain) : e.RestSkipped := by
  have hline : '\n' ∉ e.text := by
    rw [text]
    simp [newline_notMem_blanks, e.newline_notMem_name, newline_notMem_value hform]
  rw [RestSkipped, lines, List.splitOn_eq_singleton hline]
  exact fun line hmem => absurd hmem List.not_mem_nil

/-- **A plain entry** is read as it is meant iff there is no comment behind it. -/
theorem parseVersion_plain_iff (hform : e.form = .plain) :
    parseVersion (Str.trim (e.value.takeWhile (· ≠ '\n'))) = .ok e.version.1 ↔
      e.comment = none := by
  have hline : e.value.takeWhile (· ≠ '\n') = e.value :=
    List.takeWhile_eq_self_iff.mpr (ne_newline_of_notMem (newline_notMem_value hform))
  have htrim : Str.trim e.value = '"' :: (e.version.1 ++
      '"' :: (e.endBlanks.1 ++ commentText e.comment).rdropWhile isWhiteSpace) := by
    rw [value_plain hform, Str.trim, Text.trimBy_cons not_isWhiteSpace_quote,
      Text.rdropWhile_append_cons not_isWhiteSpace_quote]
  rw [hline, htrim, parseVersion, if_pos (Str.startsWith_singleton_iff.mpr ⟨_, rfl⟩),
    extractQuotedString_eq_ok_iff]
  constructor
  · -- A comment would stand behind the closing quote.
    rintro (h | ⟨h, -⟩)
    · obtain ⟨-, h⟩ := List.cons.inj (List.append_cancel_left (List.cons.inj h).2)
      rcases hcomment : e.comment with _ | comment
      · rfl
      · rw [hcomment, commentText, Text.rdropWhile_append_cons (by decide)] at h
        simp at h
    · simp at h
  · intro hnone
    have hend : e.endBlanks.1.rdropWhile isWhiteSpace = [] :=
      List.rdropWhile_eq_nil_iff.mpr fun c hc => (e.endBlanks.2 c hc).1
    rw [hnone, commentText, List.append_nil, hend]
    exact .inl rfl

/-- **A table** is read as it is meant iff its version is where it is looked for. -/
theorem parseVersion_table_iff {t : Table} (hform : e.form = .table t) :
    parseVersion (Str.trim (e.value.takeWhile (· ≠ '\n'))) = .ok e.version.1 ↔
      ReadsVersion (e.value.takeWhile (· ≠ '\n')) e.version.1 := by
  obtain ⟨rest, hline⟩ : ∃ rest, e.value.takeWhile (· ≠ '\n') = '\x7b' :: rest := by
    rw [value, hform]
    exact ⟨_, List.takeWhile_cons_of_pos (by decide)⟩
  have htrim : Str.trim ('\x7b' :: rest) = '\x7b' :: rest.rdropWhile isWhiteSpace := by
    rw [Str.trim, Text.trimBy_cons (by decide)]
  -- Blanks at the end of the line do not matter to the version.
  have hblanks : ReadsVersion ('\x7b' :: rest) e.version.1 ↔
      ReadsVersion ('\x7b' :: rest.rdropWhile isWhiteSpace) e.version.1 := by
    conv_lhs =>
      rw [← List.rdropWhile_append_rtakeWhile (p := isWhiteSpace) (l := rest), ← List.cons_append]
    exact readsVersion_append_iff fun c => List.mem_rtakeWhile_imp
  have hquote : ¬ Str.startsWith ('\x7b' :: rest.rdropWhile isWhiteSpace) ['"'] := by
    rw [Str.startsWith_singleton_iff]
    rintro ⟨t, ht⟩
    cases ht
  rw [hline, htrim, hblanks, parseVersion, if_neg hquote,
    if_pos (Str.startsWith_singleton_iff.mpr ⟨_, rfl⟩), extractVersionFromTable_eq_ok_iff]

/-- **An entry is read as it is meant** iff its first line is and the others are skipped. -/
theorem isRead_iff : e.IsRead ↔ lineDep e.firstLine = some e.dep ∧ e.RestSkipped := by
  rw [lineDep_firstLine_eq_dep_iff, IsRead]
  rcases hform : e.form with _ | t
  · dsimp only
    rw [parseVersion_plain_iff hform, and_iff_left (restSkipped_of_plain hform)]
  · dsimp only
    rw [parseVersion_table_iff hform]

/-- A table that has no text `version` before the key, nor a line end, has its version where it is
looked for. -/
theorem readsVersion_of_not_infix {t : Table} (hform : e.form = .table t)
    (htag : ¬ versionTag <:+: t.before) (hline : '\n' ∉ t.before) :
    ReadsVersion (e.value.takeWhile (· ≠ '\n')) e.version.1 := by
  obtain ⟨rest, hvalue⟩ : ∃ rest, e.value = ('\x7b' :: t.before ++ versionTag ++
      (t.keyBlanks.1 ++ '=' :: (t.versionBlanks.1 ++ '"' :: (e.version.1 ++ ['"'])))) ++ rest := by
    refine ⟨t.after ++ '\x7d' :: (e.endBlanks.1 ++ commentText e.comment), ?_⟩
    rw [value, hform]
    simp [VersionText.quoted]
  have hnewline : '\n' ∉ '\x7b' :: t.before ++ versionTag ++
      (t.keyBlanks.1 ++ '=' :: (t.versionBlanks.1 ++ '"' :: (e.version.1 ++ ['"']))) := by
    have htagline : '\n' ∉ versionTag := by decide
    simp [hline, htagline, newline_notMem_blanks, e.version.2.2.2]
  have hfirst : ¬ versionTag <:+: '\x7b' :: t.before ++ versionTag.dropLast := by
    -- The tag begins with its only `v`, so it does not overlap itself.
    show ¬ 'v' :: "ersion".toList <:+: _ ++ ('v' :: "ersion".toList).dropLast
    rw [Text.infix_append_dropLast_iff (by decide), List.infix_cons_iff, not_or]
    exact ⟨fun h => absurd (List.cons_prefix_cons.mp h).1 (by decide), htag⟩
  refine ⟨'\x7b' :: t.before, t.keyBlanks.1, t.versionBlanks.1, rest.takeWhile (· ≠ '\n'), ?_,
    hfirst, fun c hc => (t.keyBlanks.2 c hc).1,
    fun hmem => not_isWhiteSpace_quote (t.versionBlanks.2 _ hmem).1, e.version.2.1⟩
  rw [hvalue, List.takeWhile_append_of_pos (ne_newline_of_notMem hnewline)]
  simp

end Entry

end BasicCli
