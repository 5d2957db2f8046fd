import BasicCli.CargoVersions.Equiv.Entry
import BasicCli.ExposedFuns.Basic
import Mathlib.Data.Set.List

/-!
# What is read of a header

`extract_exposes_list` and `extract_module_list` read the names between the brackets behind the
first keyword, however they are laid out, and fail where there are no brackets
(`extractList_eq_iff`).
-/

namespace BasicCli

theorem Str.splitFirst_singleton {c : Char} {s : Str} (hs : c ∉ s) (t : Str) :
    Str.splitFirst (s ++ c :: t) [c] = some (s, t) :=
  Text.dropInfix?_singleton_eq_some_iff.mpr ⟨rfl, hs⟩

theorem Str.replaceFirst_cons (c : Char) (s : Str) : Str.replaceFirst (c :: s) [c] [] = s := by
  have hsplit := Str.splitFirst_singleton (c := c) (s := []) List.not_mem_nil s
  rw [List.nil_append] at hsplit
  rw [Str.replaceFirst, hsplit]
  rfl

theorem Str.splitFirst_eq_none_iff {s pat : Str} : Str.splitFirst s pat = none ↔ ¬ pat <:+: s :=
  Text.dropInfix?_eq_none_iff

namespace ExposedFuns

variable {ε : Type} {keyword src before after blanks content rest : Str}

/-! ### The parts of a header -/

/-- `src` has its first `keyword` between `before` and `after`. -/
structure FirstIn (keyword src before after : Str) : Prop where
  eq : src = before ++ keyword ++ after
  first : ¬ keyword <:+: before ++ keyword.dropLast

/-- The split is at the first place of the keyword. -/
theorem splitFirst_eq_some_iff (hkeyword : keyword ≠ []) :
    Str.splitFirst src keyword = some (before, after) ↔ FirstIn keyword src before after := by
  rw [Str.splitFirst, Text.dropInfix?_eq_some_iff hkeyword]
  exact ⟨fun h => ⟨h.1, h.2⟩, fun h => ⟨h.eq, h.first⟩⟩

/-- Only blanks are before the bracket that opens. -/
structure Opens (after blanks content : Str) : Prop where
  eq : after = blanks ++ '[' :: content
  blank : ∀ c ∈ blanks, isWhiteSpace c

/-- What is behind the keyword is trimmed to the bracket and what follows. -/
theorem trim_of_opens (h : Opens after blanks content) :
    Str.trim after = '[' :: content.rdropWhile isWhiteSpace := by
  rw [Str.trim, h.eq, Text.trimBy_append_left h.blank, Text.trimBy_cons (by decide)]

/-- A bracket is found iff blanks only stand before it. -/
theorem startsWith_trim_iff :
    (Str.trim after).startsWith ['['] ↔ ∃ blanks content, Opens after blanks content := by
  rw [Str.startsWith_singleton_iff]
  constructor
  · rintro ⟨t, ht⟩
    obtain ⟨l, r, hl, -, hafter⟩ := Text.exists_eq_trimBy isWhiteSpace after
    refine ⟨l, t ++ r, ?_, hl⟩
    rw [hafter]
    rw [Str.trim] at ht
    rw [ht, List.append_assoc]
    rfl
  · rintro ⟨blanks, content, h⟩
    exact ⟨_, trim_of_opens h⟩

/-- A name that a list can have. -/
structure IsName (name : Str) : Prop where
  ne_nil : name ≠ []
  trim : Str.trim name = name
  comma : ',' ∉ name
  bracket : ']' ∉ name

/-- What is between two commas. -/
inductive Piece
  | blank (s : Str) (hs : ∀ c ∈ s, isWhiteSpace c)
  | item (left name right : Str) (hleft : ∀ c ∈ left, isWhiteSpace c) (hname : IsName name)
    (hright : ∀ c ∈ right, isWhiteSpace c)

/-- How it is written. -/
def Piece.text : Piece → Str
  | blank s _ => s
  | item left name right _ _ _ => left ++ name ++ right

/-- What it says. -/
def Piece.name? : Piece → Option Str
  | blank _ _ => none
  | item _ name _ _ _ _ => some name

/-- What is between the brackets. -/
def listText (pieces : List Piece) : Str := [','].intercalate (pieces.map Piece.text)

/-- What a header is read as. -/
inductive Header (keyword src : Str) : Except (ScriptErr ε) (List Str) → Prop
  | missing (h : ¬ keyword <:+: src) :
    Header keyword src (errS ("Could not find ".toList ++ keyword ++
      " section in source_code:\n\t".toList ++ src))
  | unopened {before after : Str} (hfirst : FirstIn keyword src before after)
    (hopens : ¬ ∃ blanks content, Opens after blanks content) :
    Header keyword src (errS ("Could not find opening bracket after '".toList ++ keyword ++
      "' in source code:\n\t".toList ++ src))
  | unclosed {before after blanks content : Str} (hfirst : FirstIn keyword src before after)
    (hopens : Opens after blanks content) (hcloses : ']' ∉ content) :
    Header keyword src (errS ("Could not find closing bracket for ".toList ++ keyword ++
      " list in source code:\n\t".toList ++ src))
  | closed {before after blanks rest : Str} {pieces : List Piece} (hpieces : pieces ≠ [])
    (hfirst : FirstIn keyword src before after)
    (hopens : Opens after blanks (listText pieces ++ ']' :: rest)) :
    Header keyword src (.ok (pieces.filterMap Piece.name?))

/-! ### Pieces -/

theorem trim_eq_nil_iff {s : Str} : Str.trim s = [] ↔ ∀ c ∈ s, isWhiteSpace c := by
  constructor
  · intro h c hc
    obtain ⟨l, r, hl, hr, hs⟩ := Text.exists_eq_trimBy isWhiteSpace s
    rw [Str.trim] at h
    rw [hs, h, List.append_nil] at hc
    rcases List.mem_append.mp hc with hc | hc
    · exact hl c hc
    · exact hr c hc
  · intro h
    have htrim := Text.trimBy_append_left (t := []) h
    rw [List.append_nil] at htrim
    exact htrim

/-- A piece is trimmed to its name. -/
theorem Piece.trim_text (piece : Piece) : Str.trim piece.text = piece.name?.getD [] := by
  cases piece with
  | blank s hs => exact trim_eq_nil_iff.mpr hs
  | item left name right hleft hname hright =>
    have htrim : Str.trim (left ++ name ++ right) = Str.trim name := by
      rw [Str.trim, Text.trimBy_append_right hright, Text.trimBy_append_left hleft, Str.trim]
    exact htrim.trans hname.trim

theorem Piece.notMem_text {c : Char} (hc : ¬ isWhiteSpace c)
    (hname : ∀ name, IsName name → c ∉ name) (piece : Piece) : c ∉ piece.text := by
  cases piece with
  | blank s hs => exact fun h => hc (hs c h)
  | item left name right hleft hname' hright =>
    rw [Piece.text, List.mem_append, List.mem_append]
    rintro ((h | h) | h)
    · exact hc (hleft c h)
    · exact hname name hname' h
    · exact hc (hright c h)

/-- Whatever has no comma and no bracket is a piece. -/
theorem Piece.exists_of_notMem {s : Str} (hcomma : ',' ∉ s) (hbracket : ']' ∉ s) :
    ∃ piece : Piece, piece.text = s := by
  by_cases hblank : ∀ c ∈ s, isWhiteSpace c
  · exact ⟨.blank s hblank, rfl⟩
  · obtain ⟨l, r, hl, hr, hs⟩ := Text.exists_eq_trimBy isWhiteSpace s
    have hsubset {c : Char} (hc : c ∈ Str.trim s) : c ∈ s := by
      rw [hs]
      exact List.mem_append_left r (List.mem_append_right l hc)
    refine ⟨.item l (Str.trim s) r hl ?_ hr, hs.symm⟩
    exact {
      ne_nil := mt trim_eq_nil_iff.mp hblank
      trim := Str.trim_trim s
      comma := fun h => hcomma (hsubset h)
      bracket := fun h => hbracket (hsubset h) }

/-- The pieces of a text without a bracket. -/
theorem exists_pieces {content : Str} (h : ']' ∉ content) :
    ∃ pieces, pieces ≠ [] ∧ content = listText pieces := by
  have hmem : content.splitOn ',' ∈ Set.range (List.map Piece.text) := by
    rw [Set.range_list_map]
    intro s hs
    refine Piece.exists_of_notMem (fun hcomma => ?_) fun hbracket => ?_
    · exact (Text.mem_of_mem_splitOn hs hcomma).1 rfl
    · exact h (Text.mem_of_mem_splitOn hs hbracket).2
  obtain ⟨pieces, hpieces⟩ := hmem
  refine ⟨pieces, ?_, ?_⟩
  · rintro rfl
    exact List.splitOn_ne_nil ',' content hpieces.symm
  · rw [listText, hpieces, List.intercalate_splitOn]

theorem bracket_notMem_listText (pieces : List Piece) : ']' ∉ listText pieces := by
  intro h
  rcases Text.mem_intercalate h with h | ⟨l, hl, hmem⟩
  · exact absurd h (by decide)
  · obtain ⟨piece, -, rfl⟩ := List.mem_map.mp hl
    exact piece.notMem_text (by decide) (fun _ hname => hname.bracket) hmem

/-- **The names** that are read of the pieces. -/
theorem names_listText {pieces : List Piece} (hpieces : pieces ≠ []) :
    (((listText pieces).splitOn ',').map Str.trim).filter (fun s => !s.isEmpty) =
      pieces.filterMap Piece.name? := by
  have hcomma : ∀ l ∈ pieces.map Piece.text, ',' ∉ l := by
    intro l hl
    obtain ⟨piece, -, rfl⟩ := List.mem_map.mp hl
    exact piece.notMem_text (by decide) fun _ hname => hname.comma
  rw [listText, List.splitOn_intercalate ',' hcomma (by simpa using hpieces)]
  clear hpieces hcomma
  induction pieces with
  | nil => rfl
  | cons piece pieces ih =>
    rw [List.map_cons, List.map_cons, piece.trim_text, List.filter_cons, ih]
    cases piece with
    | blank s hs => rfl
    | item left name right hleft hname hright =>
      have hne : name.isEmpty = false := by simpa using hname.ne_nil
      simp [Piece.name?, hne]

/-! ### Reading it -/

/-- **A list that is closed** is split at its commas. -/
theorem extractList_of_closed (hkeyword : keyword ≠ []) (hfirst : FirstIn keyword src before after)
    (hopens : Opens after blanks content) {list : Str}
    (hcloses : Str.splitFirst (content.rdropWhile isWhiteSpace) [']'] = some (list, rest)) :
    (extractList keyword src : Except (ScriptErr ε) (List Str)) =
      .ok (((list.splitOn ',').map Str.trim).filter fun s => !s.isEmpty) := by
  have hstarts := startsWith_trim_iff.mpr ⟨blanks, content, hopens⟩
  rw [extractList, (splitFirst_eq_some_iff hkeyword).mpr hfirst]
  dsimp only
  rw [if_pos hstarts, trim_of_opens hopens, Str.replaceFirst_cons, hcloses]

theorem extractList_of_unclosed (hkeyword : keyword ≠ [])
    (hfirst : FirstIn keyword src before after) (hopens : Opens after blanks content)
    (hcloses : ']' ∉ content) :
    (extractList keyword src : Except (ScriptErr ε) (List Str)) =
      errS ("Could not find closing bracket for ".toList ++ keyword ++
        " list in source code:\n\t".toList ++ src) := by
  have hstarts := startsWith_trim_iff.mpr ⟨blanks, content, hopens⟩
  have hnone : Str.splitFirst (content.rdropWhile isWhiteSpace) [']'] = none := by
    rw [Str.splitFirst_eq_none_iff, List.singleton_infix_iff]
    exact fun hmem => hcloses ((List.rdropWhile_prefix _ _).subset hmem)
  rw [extractList, (splitFirst_eq_some_iff hkeyword).mpr hfirst]
  dsimp only
  rw [if_pos hstarts, trim_of_opens hopens, Str.replaceFirst_cons, hnone]

/-- **The grammar is sound**: a source with such a header is read so. -/
theorem extractList_of_header (hkeyword : keyword ≠ []) {r : Except (ScriptErr ε) (List Str)}
    (h : Header keyword src r) : extractList keyword src = r := by
  cases h with
  | missing h => rw [extractList, Str.splitFirst_eq_none_iff.mpr h]
  | unopened hfirst hopens =>
    rw [extractList, (splitFirst_eq_some_iff hkeyword).mpr hfirst]
    exact if_neg (mt startsWith_trim_iff.mp hopens)
  | unclosed hfirst hopens hcloses => exact extractList_of_unclosed hkeyword hfirst hopens hcloses
  | @closed before after blanks rest pieces hpieces hfirst hopens =>
    have hsplit : Str.splitFirst ((listText pieces ++ ']' :: rest).rdropWhile isWhiteSpace) [']'] =
        some (listText pieces, rest.rdropWhile isWhiteSpace) := by
      rw [Text.rdropWhile_append_cons (by decide)]
      exact Str.splitFirst_singleton (bracket_notMem_listText pieces) _
    rw [extractList_of_closed hkeyword hfirst hopens hsplit, names_listText hpieces]

/-- **The grammar is complete**: every source has a header, well or badly formed. -/
theorem exists_header (hkeyword : keyword ≠ []) (src : Str) :
    ∃ r : Except (ScriptErr ε) (List Str), Header keyword src r := by
  rcases hsplit : Str.splitFirst src keyword with _ | ⟨before, after⟩
  · exact ⟨_, .missing (Str.splitFirst_eq_none_iff.mp hsplit)⟩
  have hfirst := (splitFirst_eq_some_iff hkeyword).mp hsplit
  by_cases hopens : ∃ blanks content, Opens after blanks content
  · obtain ⟨blanks, content, hopens⟩ := hopens
    by_cases hcloses : ']' ∈ content
    · obtain ⟨list, rest, rfl, hlist⟩ := List.eq_append_cons_of_mem hcloses
      obtain ⟨pieces, hpieces, rfl⟩ := exists_pieces hlist
      exact ⟨_, .closed hpieces hfirst hopens⟩
    · exact ⟨_, .unclosed hfirst hopens hcloses⟩
  · exact ⟨_, .unopened hfirst hopens⟩

/-- **A header is read as** what it says. -/
theorem extractList_eq_iff (hkeyword : keyword ≠ []) {r : Except (ScriptErr ε) (List Str)} :
    extractList keyword src = r ↔ Header keyword src r := by
  refine ⟨?_, extractList_of_header hkeyword⟩
  rintro rfl
  obtain ⟨r, hr⟩ : ∃ r : Except (ScriptErr ε) (List Str), Header keyword src r :=
    exists_header hkeyword src
  rwa [extractList_of_header hkeyword hr]

theorem header_path : Header moduleKeyword "module  [\n    Path,\n    display,\n]".toList
    (.ok ["Path".toList, "display".toList] : Except (ScriptErr Unit) (List Str)) :=
  (extractList_eq_iff (by decide)).mp (by rfl)

end ExposedFuns

end BasicCli
