import BasicCli.CargoVersions.Equiv.Lines

/-!
# The walk over the sections

If `extract_dependencies` finds the dependency sections and no others, and skips the further lines
of their entries, what it gives is what it reads of the first lines, in their order
(`extractDependencies_text`).
-/

namespace BasicCli

/-! ### Many lines -/

theorem foldl_walk_skipped {lines : List Str} (h : ∀ line ∈ lines, IsSkipped line)
    (deps : List Dep) : lines.foldl DepState.walk ⟨deps, true⟩ = ⟨deps, true⟩ := by
  induction lines with
  | nil => rfl
  | cons line lines ih =>
    rw [List.foldl_cons, DepState.walk_eq_self_iff.mpr (h line List.mem_cons_self),
      ih fun line hline => h line (List.mem_cons_of_mem _ hline)]

/-- Lines of another section give nothing, unless one has the tag. -/
theorem foldl_walk_other {lines : List Str} (h : ∀ line ∈ lines, ¬ HasTag line)
    (deps : List Dep) : lines.foldl DepState.walk ⟨deps, false⟩ = ⟨deps, false⟩ := by
  induction lines with
  | nil => rfl
  | cons line lines ih =>
    have hline : DepState.walk ⟨deps, false⟩ line = ⟨deps, false⟩ := by
      rw [DepState.walk_eq]
      simp [h line List.mem_cons_self]
    rw [List.foldl_cons, hline, ih fun line hline => h line (List.mem_cons_of_mem _ hline)]

/-- What is read of an entry: its first line. -/
def Entry.read (e : Entry) : Option Dep := lineDep e.firstLine

/-- **An entry** gives what is read of it, if its further lines are skipped. -/
theorem foldl_walk_entry {e : Entry} (h : e.RestSkipped) (deps : List Dep) :
    e.lines.foldl DepState.walk ⟨deps, true⟩ = ⟨deps ++ e.read.toList, true⟩ := by
  obtain ⟨rest, hlines⟩ := e.lines_eq
  rw [Entry.RestSkipped, hlines, List.tail_cons] at h
  have hheader : ¬ IsHeader e.firstLine := e.not_startsWith_trim_firstLine (by decide)
  have hfirst : DepState.walk ⟨deps, true⟩ e.firstLine = ⟨deps ++ e.read.toList, true⟩ := by
    rw [DepState.walk_eq, Entry.read]
    simp [hheader]
  rw [hlines, List.foldl_cons, hfirst, foldl_walk_skipped h]

/-! ### Sections -/

theorem isHeader_header (header : SectionHeader) : IsHeader header.text := by
  rw [IsHeader, SectionHeader.text, Str.trim,
    Text.trimBy_append_left fun c hc => (header.indent.2 c hc).1, Text.trimBy_cons (by decide)]
  exact Str.startsWith_singleton_iff.mpr ⟨_, rfl⟩

/-- **A header** opens a dependency section iff it has the tag. -/
theorem walk_header (state : DepState) (header : SectionHeader) :
    state.walk header.text = ⟨state.deps, decide (HasTag header.text)⟩ := by
  rw [DepState.walk_eq]
  simp [isHeader_header header]

theorem splitOn_header (header : SectionHeader) : header.text.splitOn '\n' = [header.text] := by
  refine List.splitOn_eq_singleton ?_
  rw [SectionHeader.text, List.mem_append, List.mem_cons, not_or, not_or]
  exact ⟨newline_notMem_blanks header.indent, by decide, header.rest.2⟩

/-- A blank or a comment is a line of its own, and is skipped. -/
theorem splitOn_item {item : Item} (hitem : item.toEntry = none) :
    item.text.splitOn '\n' = [item.text] ∧ IsSkipped item.text := by
  -- An entry is excluded by the hypothesis; blank lines and comments are left.
  cases item with
  | blank blanks =>
    have hempty : (Str.trim blanks.1).isEmpty := by
      rw [Str.trim, Text.trimBy, List.dropWhile_eq_nil_iff.mpr fun c hc => (blanks.2 c hc).1]
      rfl
    obtain ⟨hheader, hnone⟩ := lineDep_of_blank hempty
    refine ⟨List.splitOn_eq_singleton (newline_notMem_blanks blanks),
      fun h => absurd h hheader, fun _ d hd => ?_⟩
    rw [← lineDep_eq_some_iff, Item.text, hnone] at hd
    cases hd
  | comment indent rest =>
    have htrim : ∃ t, Str.trim (indent.1 ++ '#' :: rest.1) = '#' :: t := by
      rw [Str.trim, Text.trimBy_append_left fun c hc => (indent.2 c hc).1,
        Text.trimBy_cons (by decide)]
      exact ⟨_, rfl⟩
    have hcomment := Str.startsWith_singleton_iff.mpr htrim
    refine ⟨List.splitOn_eq_singleton ?_, fun h => ?_, fun _ d hd => hd.1 hcomment⟩
    · rw [Item.text, commentText, List.mem_append, List.mem_cons, not_or, not_or]
      exact ⟨newline_notMem_blanks indent, by decide, rest.2⟩
    · obtain ⟨t, ht⟩ := htrim
      obtain ⟨t', ht'⟩ := Str.startsWith_singleton_iff.mp h
      rw [Item.text, commentText, ht] at ht'
      cases ht'
  | entry e => cases hitem

theorem Item.text_of_toEntry {item : Item} {e : Entry} (h : item.toEntry = some e) :
    item.text = e.text := by
  cases item with
  | entry e' =>
    cases h
    rfl
  | blank blanks => cases h
  | comment indent rest => cases h

/-- The lines of a dependency section give what is read of its entries. -/
theorem foldl_walk_items {items : List Item}
    (h : ∀ e ∈ items.filterMap Item.toEntry, e.RestSkipped) (deps : List Dep) :
    (items.flatMap fun item => item.text.splitOn '\n').foldl DepState.walk ⟨deps, true⟩ =
      ⟨deps ++ (items.filterMap Item.toEntry).filterMap Entry.read, true⟩ := by
  induction items generalizing deps with
  | nil => simp
  | cons item items ih =>
    rw [List.flatMap_cons, List.foldl_append]
    rcases hitem : item.toEntry with _ | e
    · obtain ⟨hsplit, hskipped⟩ := splitOn_item hitem
      rw [List.filterMap_cons_none hitem] at h ⊢
      rw [hsplit, List.foldl_cons, List.foldl_nil, DepState.walk_eq_self_iff.mpr hskipped, ih h]
    · rw [List.filterMap_cons_some hitem] at h ⊢
      rw [Item.text_of_toEntry hitem, ← Entry.lines, foldl_walk_entry (h e List.mem_cons_self),
        ih fun e he => h e (List.mem_cons_of_mem _ he), List.append_assoc, List.filterMap_cons]
      rcases e.read with _ | dep
      · rfl
      · rfl

theorem flatMap_splitOn_lines (lines : List Line) :
    (lines.map Subtype.val).flatMap (·.splitOn '\n') = lines.map Subtype.val := by
  rw [List.flatMap_map]
  induction lines with
  | nil => rfl
  | cons line lines ih =>
    rw [List.flatMap_cons, List.splitOn_eq_singleton line.2, ih]
    rfl

/-- **A section** gives what is read of its entries, if it is taken for what it is. -/
theorem foldl_walk_section {s : Section} (hfound : s.IsFound)
    (hskipped : ∀ e ∈ s.entries, e.RestSkipped) (state : DepState) :
    ((s.texts.flatMap (·.splitOn '\n')).foldl DepState.walk state).deps =
      state.deps ++ s.entries.filterMap Entry.read := by
  cases s with
  | dependencies header items =>
    have htag : HasTag header.text := hfound
    rw [Section.texts, List.flatMap_cons, splitOn_header, List.singleton_append, List.foldl_cons,
      walk_header, decide_eq_true htag, List.flatMap_map, foldl_walk_items hskipped,
      Section.entries]
  | other header lines =>
    obtain ⟨htag, hlines⟩ := hfound
    rw [Section.texts, List.flatMap_cons, splitOn_header, List.singleton_append, List.foldl_cons,
      walk_header, decide_eq_false htag, flatMap_splitOn_lines, foldl_walk_other, Section.entries,
      List.filterMap_nil, List.append_nil]
    intro line hline
    obtain ⟨line, hmem, rfl⟩ := List.mem_map.mp hline
    exact hlines line hmem

/-- Each header says anew what the lines behind it are. -/
theorem foldl_walk_sections {sections : List Section} (hfound : ∀ s ∈ sections, s.IsFound)
    (hskipped : ∀ e ∈ sections.flatMap Section.entries, e.RestSkipped) (state : DepState) :
    (((sections.flatMap Section.texts).flatMap (·.splitOn '\n')).foldl DepState.walk state).deps =
      state.deps ++ (sections.flatMap Section.entries).filterMap Entry.read := by
  induction sections generalizing state with
  | nil => simp
  | cons s sections ih =>
    rw [List.flatMap_cons] at hskipped
    rw [List.flatMap_cons, List.flatMap_append, List.foldl_append,
      ih (fun s hs => hfound s (List.mem_cons_of_mem _ hs))
        fun e he => hskipped e (List.mem_append_right _ he),
      foldl_walk_section (hfound s List.mem_cons_self)
        fun e he => hskipped e (List.mem_append_left _ he),
      List.flatMap_cons, List.filterMap_append, List.append_assoc]

/-! ### The file -/

/-- An empty file has one line, which gives nothing. -/
theorem foldl_walk_text (m : Manifest) (state : DepState) :
    ((m.text.splitOn '\n').foldl DepState.walk state).deps =
      ((m.texts.flatMap (·.splitOn '\n')).foldl DepState.walk state).deps := by
  rw [Manifest.text]
  by_cases hempty : m.texts = []
  · rw [hempty]
    obtain ⟨deps, inDepSection⟩ := state
    rcases inDepSection with _ | _
    · rfl
    · rfl
  · rw [Text.splitOn_intercalate_flatMap _ hempty]

/-- **What the code extracts** is what it reads of the entries. -/
theorem extractDependencies_text {m : Manifest} (hfound : m.SectionsFound)
    (hskipped : ∀ e ∈ m.entries, e.RestSkipped) :
    extractDependencies m.text = m.entries.filterMap Entry.read := by
  rw [extractDependencies, foldl_walk_text, Manifest.texts, List.flatMap_append,
    flatMap_splitOn_lines, List.foldl_append, foldl_walk_other,
    foldl_walk_sections hfound.2 hskipped]
  · rfl
  · intro line hline
    obtain ⟨line, hmem, rfl⟩ := List.mem_map.mp hline
    exact hfound.1 line hmem

/-- **Of a manifest that is read as it is meant** the code extracts what it declares. -/
theorem extractDependencies_of_isRead {m : Manifest} (h : m.IsRead) :
    extractDependencies m.text = m.declared := by
  obtain ⟨hfound, hread⟩ := h
  rw [extractDependencies_text hfound fun e he => (Entry.isRead_iff.mp (hread e he)).2,
    Manifest.declared, ← List.filterMap_eq_map]
  exact List.filterMap_congr fun e he => (Entry.isRead_iff.mp (hread e he)).1

end BasicCli
