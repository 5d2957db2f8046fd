import BasicCli.CargoVersions.Equiv.Sections
import Mathlib.Data.List.Nodup

/-!
# The reported mismatches

The script finds a conflict of two manifests iff there is one among what is read of their lines, and
there only the first version counts that is read of a name (`reportsConflict_iff_readConflict`).
Where all is read as it is meant, it is thus a conflict with the first version that the second
declares of some name.  A manifest with an entry that is not read as it is meant is judged wrongly
beside some other one (`versions_iff`).
-/

namespace BasicCli

/-- A name is declared in `a` with another version than the one that `b` declares first. -/
def FirstConflict (a b : List Dep) : Prop :=
  ∃ d ∈ a, ∃ c, b.find? (fun c => c.name == d.name) = some c ∧ d.version ≠ c.version

/-- No name is declared twice. -/
def Manifest.NamesNodup (m : Manifest) : Prop := (m.declared.map Dep.name).Nodup

/-! ### The join -/

/-- What is reported of one dependency. -/
def reportOf (ciDeps : List Dep) (rootDep : Dep) : List Mismatch :=
  match ciDeps.find? (fun ciDep => ciDep.name == rootDep.name) with
  | some ciDep =>
    if rootDep.version ≠ ciDep.version then
      [⟨rootDep.name, rootDep.version, ciDep.version⟩]
    else []
  | none => []

/-- The reports are those of the dependencies of the first manifest, one by one. -/
theorem findVersionMismatches_eq (rootDeps ciDeps : List Dep) :
    findVersionMismatches rootDeps ciDeps = rootDeps.flatMap (reportOf ciDeps) := by
  rw [findVersionMismatches, List.flatMap_eq_foldl]
  refine congrArg (fun step => rootDeps.foldl step []) ?_
  funext state rootDep
  rw [reportOf]
  rcases hfind : ciDeps.find? (fun ciDep => ciDep.name == rootDep.name) with _ | ciDep
  · simp [hfind]
  · by_cases h : rootDep.version = ciDep.version
    · simp [hfind, h]
    · simp [hfind, h]

/-- A dependency is not reported iff the first entry of its name has its version. -/
theorem reportOf_eq_nil_iff {ciDeps : List Dep} {rootDep : Dep} :
    reportOf ciDeps rootDep = [] ↔
      ∀ ciDep, ciDeps.find? (fun ciDep => ciDep.name == rootDep.name) = some ciDep →
        rootDep.version = ciDep.version := by
  rw [reportOf]
  rcases hfind : ciDeps.find? (fun ciDep => ciDep.name == rootDep.name) with _ | ciDep
  · simp [hfind]
  · by_cases h : rootDep.version = ciDep.version
    · simp [hfind, h]
    · simp [hfind, h]

/-- **A mismatch is reported** iff there is a conflict with a first version. -/
theorem findVersionMismatches_eq_nil_iff {rootDeps ciDeps : List Dep} :
    findVersionMismatches rootDeps ciDeps = [] ↔ ¬ FirstConflict rootDeps ciDeps := by
  rw [findVersionMismatches_eq, List.flatMap_eq_nil_iff, FirstConflict]
  simp only [reportOf_eq_nil_iff]
  constructor
  · rintro h ⟨d, hd, c, hfirst, hne⟩
    exact hne (h d hd c hfirst)
  · intro h d hd c hfirst
    by_contra hne
    exact h ⟨d, hd, c, hfirst, hne⟩

/-- A conflict with the first entry is one. -/
theorem FirstConflict.conflict {a b : List Dep} (h : FirstConflict a b) : Conflict a b := by
  obtain ⟨d, hd, c, hfirst, hne⟩ := h
  have hname := List.find?_some hfirst
  exact ⟨d, hd, c, List.mem_of_find?_eq_some hfirst, by simpa using hname, hne⟩

/-- Where no name has two versions, its first one is its only one. -/
theorem Conflict.firstConflict {a b : List Dep} (hnodup : (b.map Dep.name).Nodup)
    (h : Conflict a b) : FirstConflict a b := by
  obtain ⟨d, hd, c, hc, hname, hne⟩ := h
  refine ⟨d, hd, c, Text.find?_eq_of_forall fun x => ?_, hne⟩
  rw [beq_iff_eq, Option.some_inj]
  constructor
  · rintro ⟨hx, hxname⟩
    exact List.inj_on_of_nodup_map hnodup hc hx (hname.trans hxname.symm)
  · rintro rfl
    exact ⟨hc, hname⟩

/-- What conflicts with a first version is read so of some lines. -/
theorem firstConflict_stateBehind_iff {a b : List Str} :
    FirstConflict (stateBehind a).deps (stateBehind b).deps ↔ ReadConflict a b := by
  constructor
  · rintro ⟨d, hd, c, hfind, hne⟩
    obtain ⟨i, hread⟩ := mem_stateBehind_iff.mp hd
    obtain ⟨j, hread', hname, hfirst⟩ := find?_stateBehind_iff.mp hfind
    refine ⟨i, d, j, c, hread, hread', hname, hne, ?_⟩
    rwa [hname]
  · rintro ⟨i, d, j, c, hread, hread', hname, hne, hfirst⟩
    rw [hname] at hfirst
    exact ⟨d, mem_stateBehind_iff.mpr ⟨i, hread⟩, c,
      find?_stateBehind_iff.mpr ⟨j, hread', hname, hfirst⟩, hne⟩

/-- **Of any two manifests** the conflict is reported that is read of their lines. -/
theorem reportsConflict_iff_readConflict (a b : Manifest) :
    ReportsConflict a b ↔
      (Conflict a.declared b.declared ↔ ReadConflict a.lines b.lines) := by
  rw [ReportsConflict, findVersionMismatches_eq_nil_iff, not_iff_not,
    ← firstConflict_stateBehind_iff]
  exact Iff.comm

/-- **Of two manifests that are read as they are meant** a conflict is reported iff one with a first
version is enough. -/
theorem reportsConflict_iff {a b : Manifest} (ha : a.IsRead) (hb : b.IsRead) :
    ReportsConflict a b ↔
      (Conflict a.declared b.declared → FirstConflict a.declared b.declared) := by
  rw [ReportsConflict, extractDependencies_of_isRead ha, extractDependencies_of_isRead hb,
    findVersionMismatches_eq_nil_iff, not_iff_not]
  exact ⟨fun h => h.mpr, fun h => ⟨FirstConflict.conflict, h⟩⟩

/-! ### One entry -/

def noBlanks : Blanks := ⟨[], nofun⟩

def oneBlank : Blanks :=
  ⟨[' '], fun c hc => by
    obtain rfl := List.mem_singleton.mp hc
    decide⟩

/-- `name = "version"` and nothing else. -/
def plainEntry (name : BareKey) (version : VersionText) : Entry :=
  ⟨noBlanks, name, oneBlank, oneBlank, .plain, version, noBlanks, none⟩

/-- A manifest with one dependency section. -/
def Manifest.ofEntries (entries : List Entry) : Manifest :=
  ⟨[], [.dependencies ⟨noBlanks, ⟨dependenciesTag, by decide⟩⟩ (entries.map .entry)]⟩

/-- A manifest of one section has its entries. -/
theorem entries_ofEntries (entries : List Entry) :
    (Manifest.ofEntries entries).entries = entries := by
  rw [Manifest.entries, Manifest.ofEntries, List.flatMap_singleton, Section.entries,
    List.filterMap_map]
  exact List.filterMap_some

theorem sectionsFound_ofEntries (entries : List Entry) :
    (Manifest.ofEntries entries).SectionsFound := by
  refine ⟨nofun, fun s hs => ?_⟩
  obtain rfl := List.mem_singleton.mp hs
  exact (List.suffix_cons '[' dependenciesTag).isInfix

/-- A manifest with one plain entry. -/
def Manifest.single (name : BareKey) (version : VersionText) : Manifest :=
  .ofEntries [plainEntry name version]

section

variable (name : BareKey) (version : VersionText)

theorem isRead_single : (Manifest.single name version).IsRead := by
  refine ⟨sectionsFound_ofEntries _, ?_⟩
  rw [Manifest.single, entries_ofEntries]
  intro e he
  obtain rfl := List.mem_singleton.mp he
  rfl

theorem declared_single : (Manifest.single name version).declared = [⟨name.1, version.1⟩] := by
  rw [Manifest.declared, Manifest.single, entries_ofEntries]
  rfl

theorem namesNodup_single : (Manifest.single name version).NamesNodup := by
  rw [Manifest.NamesNodup, declared_single]
  exact List.nodup_singleton _

/-- Another version. -/
def otherVersion (version : VersionText) : VersionText :=
  ⟨version.1 ++ ['0'], by
    obtain ⟨hquote, hbackslash, hnewline⟩ := version.2
    simp [hquote, hbackslash, hnewline]⟩

theorem otherVersion_ne : version.1 ≠ (otherVersion version).1 := by
  rw [otherVersion]
  simp

end

/-- Beside a manifest of one dependency, every conflict is with the first. -/
theorem firstConflict_singleton_right {a : List Dep} {c : Dep} :
    FirstConflict a [c] ↔ ∃ d ∈ a, d.name = c.name ∧ d.version ≠ c.version := by
  constructor
  · rintro ⟨d, hd, c', hfirst, hne⟩
    have hname := List.find?_some hfirst
    obtain rfl := List.mem_singleton.mp (List.mem_of_find?_eq_some hfirst)
    exact ⟨d, hd, (beq_iff_eq.mp hname).symm, hne⟩
  · rintro ⟨d, hd, hname, hne⟩
    exact ⟨d, hd, c, List.find?_cons_of_pos (by simp [hname]), hne⟩

theorem firstConflict_singleton_left {d : Dep} {b : List Dep} :
    FirstConflict [d] b ↔
      ∃ c, b.find? (fun c => c.name == d.name) = some c ∧ d.version ≠ c.version := by
  constructor
  · rintro ⟨d', hd, h⟩
    obtain rfl := List.mem_singleton.mp hd
    exact h
  · exact fun h => ⟨d, List.mem_singleton_self d, h⟩

/-! ### One manifest -/

section

variable {m : Manifest} (hfound : m.SectionsFound) (hskipped : ∀ e ∈ m.entries, e.RestSkipped)
  (hnodup : m.NamesNodup) {e : Entry} (he : e ∈ m.entries)

include hnodup he

theorem eq_of_name_eq {e' : Entry} (he' : e' ∈ m.entries) (hname : e'.name.1 = e.name.1) :
    e' = e := by
  rw [Manifest.NamesNodup, Manifest.declared, List.map_map] at hnodup
  exact List.inj_on_of_nodup_map hnodup he' he hname

/-- In a manifest with distinct names an entry is told by its name. -/
theorem mem_declared_iff {d : Dep} : d ∈ m.declared ∧ d.name = e.name.1 ↔ e.dep = d := by
  constructor
  · rintro ⟨hd, hname⟩
    obtain ⟨e', he', rfl⟩ := List.mem_map.mp hd
    rw [eq_of_name_eq hnodup he he' hname]
  · rintro rfl
    exact ⟨List.mem_map_of_mem he, rfl⟩

include hfound hskipped

/-- Under the name of an entry, nothing is extracted but what is read of it. -/
theorem mem_extractDependencies_iff {d : Dep} :
    d ∈ extractDependencies m.text ∧ d.name = e.name.1 ↔ lineDep e.firstLine = some d := by
  rw [extractDependencies_text hfound hskipped]
  constructor
  · rintro ⟨hd, hname⟩
    obtain ⟨e', he', hd⟩ := List.mem_filterMap.mp hd
    rw [← eq_of_name_eq hnodup he he' ((e'.name_of_lineDep hd).symm.trans hname)]
    exact hd
  · intro hd
    exact ⟨List.mem_filterMap.mpr ⟨e, he, hd⟩, e.name_of_lineDep hd⟩

/-- One plain entry behind a manifest: what is read of the entry of its name decides. -/
theorem reportsConflict_single_right_iff (version : VersionText) :
    ReportsConflict m (.single e.name version) ↔
      ((∃ d, lineDep e.firstLine = some d ∧ d.version ≠ version.1) ↔
        e.version.1 ≠ version.1) := by
  have hread : FirstConflict (extractDependencies m.text) [⟨e.name.1, version.1⟩] ↔
      ∃ d, lineDep e.firstLine = some d ∧ d.version ≠ version.1 := by
    rw [firstConflict_singleton_right]
    refine exists_congr fun d => ?_
    rw [← mem_extractDependencies_iff hfound hskipped hnodup he, and_assoc]
  have hdeclared : Conflict m.declared [⟨e.name.1, version.1⟩] ↔ e.version.1 ≠ version.1 := by
    constructor
    · rintro ⟨d, hd, c, hc, hname, hne⟩
      obtain rfl := List.mem_singleton.mp hc
      obtain rfl := (mem_declared_iff hnodup he).mp ⟨hd, hname.symm⟩
      exact hne
    · exact fun hne => ⟨e.dep, List.mem_map_of_mem he, _, List.mem_singleton_self _, rfl, hne⟩
  rw [ReportsConflict, extractDependencies_of_isRead (isRead_single e.name version),
    declared_single, findVersionMismatches_eq_nil_iff, not_iff_not, hread, hdeclared]

/-- The same with the manifest behind the plain entry. -/
theorem reportsConflict_single_left_iff (version : VersionText) :
    ReportsConflict (.single e.name version) m ↔
      ((∃ d, lineDep e.firstLine = some d ∧ d.version ≠ version.1) ↔
        e.version.1 ≠ version.1) := by
  have hfind : (extractDependencies m.text).find? (fun c => c.name == e.name.1) =
      lineDep e.firstLine := by
    refine Text.find?_eq_of_forall fun d => ?_
    rw [beq_iff_eq]
    exact mem_extractDependencies_iff hfound hskipped hnodup he
  -- What the script compares: the version of the first line of the entry, if it reads one.
  have hread : FirstConflict [⟨e.name.1, version.1⟩] (extractDependencies m.text) ↔
      ∃ d, lineDep e.firstLine = some d ∧ d.version ≠ version.1 := by
    rw [firstConflict_singleton_left, hfind]
    exact exists_congr fun d => and_congr_right fun _ => ne_comm
  -- What the manifest declares: the version of the entry.
  have hdeclared : Conflict [⟨e.name.1, version.1⟩] m.declared ↔ e.version.1 ≠ version.1 := by
    constructor
    · rintro ⟨d, hd, c, hc, hname, hne⟩
      obtain rfl := List.mem_singleton.mp hd
      obtain rfl := (mem_declared_iff hnodup he).mp ⟨hc, hname⟩
      exact hne.symm
    · exact fun hne =>
        ⟨_, List.mem_singleton_self _, e.dep, List.mem_map_of_mem he, rfl, hne.symm⟩
  rw [ReportsConflict, extractDependencies_of_isRead (isRead_single e.name version),
    declared_single, findVersionMismatches_eq_nil_iff, not_iff_not, hread, hdeclared]

end

/-- What differs from any version as the declared one does is the declared one. -/
theorem Entry.lineDep_eq_of_forall {e : Entry}
    (h : ∀ version : VersionText,
      (∃ d, lineDep e.firstLine = some d ∧ d.version ≠ version.1) ↔ e.version.1 ≠ version.1) :
    lineDep e.firstLine = some e.dep := by
  rcases hdep : lineDep e.firstLine with _ | d
  · obtain ⟨d, hd, -⟩ := (h (otherVersion e.version)).mpr (otherVersion_ne e.version)
    rw [hdep] at hd
    cases hd
  · have hversion : d.version = e.version.1 := by
      by_contra hne
      exact (h e.version).mp ⟨d, hdep, hne⟩ rfl
    have hname := e.name_of_lineDep hdep
    cases d
    cases hversion
    cases hname
    rfl

section

variable {m : Manifest} (hfound : m.SectionsFound) (hskipped : ∀ e ∈ m.entries, e.RestSkipped)
  (hnodup : m.NamesNodup)

include hfound hskipped hnodup

/-- **In the first place** a manifest is judged rightly beside every other one iff its entries are
read as they are meant. -/
theorem reportsConflict_left_iff :
    (∀ b : Manifest, b.IsRead → b.NamesNodup → ReportsConflict m b) ↔
      ∀ e ∈ m.entries, e.IsRead := by
  constructor
  · intro h e he
    refine Entry.isRead_iff.mpr ⟨Entry.lineDep_eq_of_forall fun v => ?_, hskipped e he⟩
    exact (reportsConflict_single_right_iff hfound hskipped hnodup he v).mp
      (h _ (isRead_single e.name v) (namesNodup_single e.name v))
  · intro h b hb hbnodup
    exact (reportsConflict_iff ⟨hfound, h⟩ hb).mpr (Conflict.firstConflict hbnodup)

/-- **In the second place** likewise. -/
theorem reportsConflict_right_iff :
    (∀ a : Manifest, a.IsRead → a.NamesNodup → ReportsConflict a m) ↔
      ∀ e ∈ m.entries, e.IsRead := by
  constructor
  · intro h e he
    refine Entry.isRead_iff.mpr ⟨Entry.lineDep_eq_of_forall fun v => ?_, hskipped e he⟩
    exact (reportsConflict_single_left_iff hfound hskipped hnodup he v).mp
      (h _ (isRead_single e.name v) (namesNodup_single e.name v))
  · intro h a ha _
    exact (reportsConflict_iff ha ⟨hfound, h⟩).mpr (Conflict.firstConflict hnodup)

end

/-! ### What the check finds -/

def serde : BareKey := ⟨"serde".toList, by decide, List.all_eq_true.mp rfl⟩

def versionOne : VersionText := ⟨"1.0".toList, by decide⟩

def versionTwo : VersionText := ⟨"2.0".toList, by decide⟩

/-- A table over two lines: `serde = { version = "1.0",` and `  features = ["derive"] }`. -/
def tableEntry : Entry :=
  { plainEntry serde versionOne with
    form := .table ⟨[' '], oneBlank, oneBlank, ",\n  features = [\"derive\"] ".toList⟩ }

theorem restSkipped_tableEntry : tableEntry.RestSkipped := by
  intro line hline
  have hlines : tableEntry.lines.tail = ["  features = [\"derive\"] \x7d".toList] := by decide
  rw [hlines, List.mem_singleton] at hline
  have hwalk : DepState.walk ⟨[], true⟩ line = ⟨[], true⟩ := by
    rw [hline]
    decide
  exact DepState.walk_eq_self_iff.mp hwalk

theorem isRead_tableEntry : (Manifest.ofEntries [tableEntry]).IsRead := by
  refine ⟨sectionsFound_ofEntries _, ?_⟩
  rw [entries_ofEntries]
  intro e he
  obtain rfl := List.mem_singleton.mp he
  exact ⟨Entry.readsVersion_of_not_infix rfl (by decide) (by decide), restSkipped_tableEntry⟩

/-- `serde = "1.0" # pinned` -/
def pinnedEntry : Entry :=
  { plainEntry serde versionOne with
    endBlanks := oneBlank
    comment := some ⟨" pinned".toList, by decide⟩ }

/-- `serde = { features = ["version"], version = "1.0" }` -/
def featuresEntry : Entry :=
  { plainEntry serde versionOne with
    form := .table ⟨" features = [\"version\"], ".toList, oneBlank, oneBlank, [' ']⟩ }

/-- `serde` has version `1.0` in one section and `2.0` in another. -/
def serdeTwice : Manifest :=
  ⟨[], [.dependencies ⟨noBlanks, ⟨dependenciesTag, by decide⟩⟩
      [.entry (plainEntry serde versionOne)],
    .dependencies ⟨noBlanks, ⟨"dev-dependencies]".toList, by decide⟩⟩
      [.entry (plainEntry serde versionTwo)]]⟩

end BasicCli
