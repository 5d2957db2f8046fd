import BasicCli.CargoVersions.Basic

/-!
# Cargo manifests

A manifest is described by what its author wrote: the sections with their headers, the entries of
the dependency sections, blanks and comments.  `Manifest.text` is the file, `Manifest.declared` what
it declares.  What the script takes from the lines of a file is described beside it, by where in the
text it is (`ReadAt`).
-/

namespace BasicCli

/-! ### Parts of a line -/

/-- A line, without its end. -/
abbrev Line := {s : Str // '\n' ∉ s}

/-- Blanks within a line. -/
abbrev Blanks := {s : Str // ∀ c ∈ s, isWhiteSpace c ∧ c ≠ '\n'}

/-- A character of a bare key. -/
def isBareKeyChar (c : Char) : Bool := c.isAlphanum || c == '_' || c == '-'

/-- A bare key. -/
abbrev BareKey := {s : Str // s ≠ [] ∧ ∀ c ∈ s, isBareKeyChar c}

/-- What may stand between the quotes of a version: there is nothing to escape in one. -/
abbrev VersionText := {s : Str // '"' ∉ s ∧ '\\' ∉ s ∧ '\n' ∉ s}

def VersionText.quoted (version : VersionText) : Str := '"' :: version.1 ++ ['"']

/-- A comment, if there is one. -/
def commentText : Option Line → Str
  | none => []
  | some comment => '#' :: comment.1

/-! ### Entries -/

/-- A table with a version.  The other keys, in any order, are in `before` and `after`, whatever
they hold and over however many lines. -/
structure Table where
  before : Str
  keyBlanks : Blanks
  versionBlanks : Blanks
  after : Str

/-- The two forms of an entry. -/
inductive Form
  | plain
  | table (t : Table)

/-- `name = "version"` or `name = { .., version = "version", .. }`. -/
structure Entry where
  indent : Blanks
  name : BareKey
  nameBlanks : Blanks
  valueBlanks : Blanks
  form : Form
  version : VersionText
  endBlanks : Blanks
  comment : Option Line

namespace Entry

/-- What is behind the `=` and the blanks there. -/
def value (e : Entry) : Str :=
  (match e.form with
    | .plain => e.version.quoted
    | .table t =>
      '\x7b' :: t.before ++ versionTag ++ t.keyBlanks.1 ++ '=' :: t.versionBlanks.1
        ++ e.version.quoted ++ t.after ++ ['\x7d']) ++ e.endBlanks.1 ++ commentText e.comment

def text (e : Entry) : Str :=
  e.indent.1 ++ e.name.1 ++ e.nameBlanks.1 ++ '=' :: (e.valueBlanks.1 ++ e.value)

/-- What the entry declares. -/
def dep (e : Entry) : Dep := ⟨e.name.1, e.version.1⟩

/-- The lines of the entry. -/
def lines (e : Entry) : List Str := e.text.splitOn '\n'

end Entry

/-! ### Sections -/

/-- A line that opens a section. -/
structure SectionHeader where
  indent : Blanks
  rest : Line

def SectionHeader.text (h : SectionHeader) : Str := h.indent.1 ++ '[' :: h.rest.1

/-- What a dependency section is made of. -/
inductive Item
  | blank (blanks : Blanks)
  | comment (indent : Blanks) (rest : Line)
  | entry (e : Entry)

def Item.text : Item → Str
  | .blank blanks => blanks.1
  | .comment indent rest => indent.1 ++ commentText (some rest)
  | .entry e => e.text

def Item.toEntry : Item → Option Entry
  | .entry e => some e
  | _ => none

/-- A section, of dependencies or not. -/
inductive Section
  | dependencies (header : SectionHeader) (items : List Item)
  | other (header : SectionHeader) (lines : List Line)

def Section.texts : Section → List Str
  | .dependencies header items => header.text :: items.map Item.text
  | .other header lines => header.text :: lines.map Subtype.val

def Section.entries : Section → List Entry
  | .dependencies _ items => items.filterMap Item.toEntry
  | .other _ _ => []

/-! ### Manifests -/

/-- A manifest: what is before the first header, and the sections. -/
structure Manifest where
  preamble : List Line
  sections : List Section

namespace Manifest

def texts (m : Manifest) : List Str :=
  m.preamble.map Subtype.val ++ m.sections.flatMap Section.texts

/-- The file. -/
def text (m : Manifest) : Str := ['\n'].intercalate m.texts

def lines (m : Manifest) : List Str := m.text.splitOn '\n'

def entries (m : Manifest) : List Entry := m.sections.flatMap Section.entries

/-- What the manifest declares. -/
def declared (m : Manifest) : List Dep := m.entries.map Entry.dep

end Manifest

/-- A name is declared in `a` with a version and in `b` with another one. -/
def Conflict (a b : List Dep) : Prop := ∃ d ∈ a, ∃ c ∈ b, c.name = d.name ∧ d.version ≠ c.version

instance (a b : List Dep) : Decidable (Conflict a b) :=
  inferInstanceAs (Decidable (∃ d ∈ a, ∃ c ∈ b, c.name = d.name ∧ d.version ≠ c.version))

/-- The script reports a mismatch of two manifests iff they conflict. -/
def ReportsConflict (a b : Manifest) : Prop :=
  findVersionMismatches (extractDependencies a.text) (extractDependencies b.text) = [] ↔
    ¬ Conflict a.declared b.declared

/-! ### What is read of a file -/

/-- The first `version` of the text has `=` behind it, and the first quoted text from there on is
`version`. -/
def ReadsVersion (s version : Str) : Prop :=
  ∃ before blanks gap after,
    s = before ++ versionTag ++ (blanks ++ '=' :: (gap ++ '"' :: (version ++ '"' :: after))) ∧
      ¬ versionTag <:+: before ++ versionTag.dropLast ∧ (∀ c ∈ blanks, isWhiteSpace c) ∧
      '"' ∉ gap ∧ '"' ∉ version

/-- What is read of a value: a text between quotes, which may be one and the same, or the version of
a table. -/
def ReadsValue (value version : Str) : Prop :=
  value = '"' :: (version ++ ['"']) ∨ value = ['"'] ∧ version = [] ∨
    value.startsWith ['\x7b'] ∧ ReadsVersion value version

/-- The dependency is read of the line: no comment, with a value to read behind its first `=`. -/
def ReadsDep (line : Str) (d : Dep) : Prop :=
  ¬ (Str.trim line).startsWith ['#'] ∧ ∃ name value,
    Str.trim line = name ++ '=' :: value ∧ '=' ∉ name ∧ Str.trim name = d.name ∧
      ReadsValue (Str.trim value) d.version

/-- The line is taken for a header. -/
def IsHeader (line : Str) : Prop := (Str.trim line).startsWith ['[']

/-- The line has what the header of a dependency section is known by. -/
def HasTag (line : Str) : Prop := dependenciesTag <:+: line

instance (line : Str) : Decidable (IsHeader line) :=
  inferInstanceAs (Decidable ((Str.trim line).startsWith ['[']))

instance (line : Str) : Decidable (HasTag line) :=
  inferInstanceAs (Decidable (dependenciesTag <:+: line))

/-- Behind these lines is a dependency section: of those that are headers or have the tag, the last
one has it. -/
def OpenBehind (lines : List Str) : Prop :=
  ∃ before line after, lines = before ++ line :: after ∧ HasTag line ∧
    ∀ l ∈ after, IsHeader l → HasTag l

/-- The dependency is read of the line with the number `i`. -/
def ReadAt (lines : List Str) (i : ℕ) (d : Dep) : Prop :=
  ∃ line, lines[i]? = some line ∧ OpenBehind (lines.take i) ∧ ¬ IsHeader line ∧ ReadsDep line d

/-- A name is read in `a` with another version than the one that is read first in `b`. -/
def ReadConflict (a b : List Str) : Prop :=
  ∃ i d j c, ReadAt a i d ∧ ReadAt b j c ∧ c.name = d.name ∧ d.version ≠ c.version ∧
    ∀ k < j, ∀ c', ReadAt b k c' → c'.name ≠ c.name

/-! ### What is read as it is meant -/

/-- Within a dependency section the line makes no difference: nothing is read of it, and it does not
close the section. -/
structure IsSkipped (line : Str) : Prop where
  tag : IsHeader line → HasTag line
  dep : ¬ IsHeader line → ∀ d, ¬ ReadsDep line d

/-- The further lines of the entry are skipped. -/
def Entry.RestSkipped (e : Entry) : Prop := ∀ line ∈ e.lines.tail, IsSkipped line

/-- The entry is read as it is meant: a plain one has no comment behind it, a table has its version
where it is looked for, and its further lines are skipped. -/
def Entry.IsRead (e : Entry) : Prop :=
  match e.form with
  | .plain => e.comment = none
  | .table _ => ReadsVersion (e.value.takeWhile (· ≠ '\n')) e.version.1 ∧ e.RestSkipped

/-- The section is taken for what it is. -/
def Section.IsFound : Section → Prop
  | .dependencies header _ => HasTag header.text
  | .other header lines => ¬ HasTag header.text ∧ ∀ line ∈ lines, ¬ HasTag line.1

/-- The dependency sections are found and no others. -/
def Manifest.SectionsFound (m : Manifest) : Prop :=
  (∀ line ∈ m.preamble, ¬ HasTag line.1) ∧ ∀ s ∈ m.sections, s.IsFound

/-- The manifest is read as it is meant. -/
def Manifest.IsRead (m : Manifest) : Prop := m.SectionsFound ∧ ∀ e ∈ m.entries, e.IsRead

end BasicCli
