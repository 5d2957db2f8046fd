import BasicCli.Http.Convert
import BasicCli.Utf8.Equiv.Decode
import Mathlib.Data.List.Forall2

/-!
# Header lists

Headers that all parse are appended one by one: the loops over a header list end with the map of
that list (`foldl_header`), as long as a map can hold it.
-/

namespace BasicCli

open Hyper Multimap

/-! ### Visible ASCII -/

theorem strBytes_ascii {bytes : List UInt8} (h : ∀ b ∈ bytes, b.toNat < 0x80) :
    strBytes (.ofList (bytes.map fun b => .ofNat b.toNat)) = bytes := by
  rw [strBytes, String.toList_ofList]
  induction bytes with
  | nil => rfl
  | cons b bytes ih =>
    have hb := Utf8.encodeChar_one (h b (List.mem_cons_self ..))
    rw [List.map_cons, Utf8.encode_cons, hb, ih fun b' hb' => h b' (List.mem_cons_of_mem b hb'),
      Utf8.ofNat_eq_of_toNat_eq rfl, List.singleton_append]

/-- The bytes of a header value where they are visible ASCII, and otherwise none. -/
def visibleBytes (bytes : List UInt8) : List UInt8 := if bytes.all isVisible then bytes else []

theorem all_isVisible_visibleBytes (bytes : List UInt8) : (visibleBytes bytes).all isVisible := by
  rw [visibleBytes]
  split_ifs with h
  · exact h
  · rfl

theorem lt_of_isVisible {b : UInt8} (h : isVisible b) : b.toNat < 0x80 := by
  rw [isVisible] at h
  have hlt : b < 128 := by grind
  exact UInt8.lt_iff_toNat_lt.mp hlt

namespace Hyper.ReadsVisible

variable {hyper : Hyper} (hreads : hyper.ReadsVisible)

include hreads

/-- **A value has a text** iff it is visible ASCII. -/
theorem isSome_iff {value : hyper.HeaderValue} :
    (hyper.headerValueToStr value).isSome ↔ (hyper.headerValueAsBytes value).all isVisible := by
  rw [Option.isSome_iff_exists]
  constructor
  · rintro ⟨s, hs⟩
    exact ((hreads value s).mp hs).1
  · intro h
    refine ⟨_, (hreads value _).mpr ⟨h, strBytes_ascii fun b hb => ?_⟩⟩
    exact lt_of_isVisible (List.all_eq_true.mp h b hb)

/-- **`to_str` keeps the bytes**, where it gives a text. -/
theorem strBytes_getD (value : hyper.HeaderValue) :
    strBytes ((hyper.headerValueToStr value).getD "") =
      visibleBytes (hyper.headerValueAsBytes value) := by
  rw [visibleBytes]
  have hiff : (hyper.headerValueToStr value).isSome ↔ _ := hreads.isSome_iff
  rcases hs : hyper.headerValueToStr value with _ | s
  · rw [hs] at hiff
    rw [if_neg fun h => by cases hiff.mpr h]
    rfl
  · obtain ⟨hvisible, hbytes⟩ := (hreads value s).mp hs
    rw [if_pos hvisible]
    exact hbytes

end Hyper.ReadsVisible

/-- The header that Roc gets for an entry of the map, with an empty value for one without a text. -/
def Hyper.header (hyper : Hyper) (e : hyper.HeaderName × hyper.HeaderValue) : Header where
  name := .fromStr (hyper.headerNameAsStr e.1)
  value := .fromStr ((hyper.headerValueToStr e.2).getD "")

/-- The header parses as the entry. -/
def Header.Parses (hyper : Hyper) (header : Header)
    (e : hyper.HeaderName × hyper.HeaderValue) : Prop :=
  hyper.headerNameTryFrom header.name.bytes = .ok e.1 ∧
    hyper.headerValueTryFrom header.value.bytes = .ok e.2

/-! ### Header names -/

namespace Hyper.Laws

variable {hyper : Hyper} (laws : hyper.Laws)

include laws

/-- **Texts that parse as names** are the same in whatever case iff the names are. -/
theorem eqIgnoreAsciiCase_iff {a b : List UInt8} {name name' : hyper.HeaderName}
    (ha : hyper.headerNameTryFrom a = .ok name) (hb : hyper.headerNameTryFrom b = .ok name') :
    eqIgnoreAsciiCase a b = true ↔ name = name' := by
  -- A name is in lower case, so ignoring the case of the texts is comparing those of the names.
  rw [eqIgnoreAsciiCase, decide_eq_true_iff, ← laws.headerNameAsStr_tryFrom _ _ ha,
    ← laws.headerNameAsStr_tryFrom _ _ hb]
  constructor
  · intro h
    have hok := laws.headerNameTryFrom_asStr name
    rw [h, laws.headerNameTryFrom_asStr name'] at hok
    exact (Except.ok.inj hok).symm
  · rintro rfl
    rfl

/-- A name is `Content-Type` in whatever case iff it is that name. -/
theorem eqIgnoreAsciiCase_contentType {contentType : hyper.HeaderName}
    (hcontentType : hyper.headerNameTryFrom (strBytes "Content-Type") = .ok contentType)
    (name : hyper.HeaderName) :
    eqIgnoreAsciiCase (strBytes (hyper.headerNameAsStr name)) (strBytes "Content-Type") = true ↔
      name = contentType :=
  laws.eqIgnoreAsciiCase_iff (laws.headerNameTryFrom_asStr name) hcontentType

/-! ### The loops -/

variable {P : Type}

/-- One header. -/
theorem header_ok (head : P × hyper.HeaderMap) (name : hyper.HeaderName) (value : hyper.HeaderValue)
    (hlen : (hyper.iter head.2).length < hyper.maxHeaders) :
    ∃ headers, Head.header (.ok head) (.ok name) (.ok value) = .ok (head.1, headers) ∧
      Same (hyper.iter headers) (hyper.iter head.2 ++ [(name, value)]) := by
  obtain ⟨headers, hheaders⟩ := laws.tryAppend_eq_ok head.2 name value hlen
  refine ⟨headers, ?_, laws.iter_tryAppend _ _ _ _ hheaders⟩
  show (hyper.tryAppend head.2 name value).map _ = _
  rw [hheaders]
  rfl

/-- **A loop over headers** that parse as the entries. -/
theorem foldl_header {ι : Type} {key : ι → Except hyper.Error hyper.HeaderName}
    {value : ι → Except hyper.Error hyper.HeaderValue} {l : List ι}
    {entries : List (hyper.HeaderName × hyper.HeaderValue)}
    (hentries : List.Forall₂ (fun i e => key i = .ok e.1 ∧ value i = .ok e.2) l entries)
    (head : P × hyper.HeaderMap)
    (hlen : (hyper.iter head.2).length + l.length ≤ hyper.maxHeaders) :
    ∃ headers, l.foldl (fun head i => Head.header head (key i) (value i)) (.ok head) =
        .ok (head.1, headers) ∧
      Same (hyper.iter headers) (hyper.iter head.2 ++ entries) := by
  -- The map that has been built so far is the first part of the list.
  induction hentries generalizing head with
  | nil => exact ⟨head.2, rfl, by rw [List.append_nil]; exact .refl _⟩
  | @cons i e l entries hentry hentries ih =>
    rw [List.length_cons] at hlen
    obtain ⟨headers, hheader, hsame⟩ := laws.header_ok head e.1 e.2 (by omega)
    have hlen' : (hyper.iter headers).length = (hyper.iter head.2).length + 1 := by
      rw [hsame.length_eq, List.length_append]
      rfl
    obtain ⟨headers', hfoldl, hsame'⟩ := ih (head.1, headers) (by
      rw [hlen']
      omega)
    refine ⟨headers', ?_, hsame'.trans ?_⟩
    · rw [List.foldl_cons, hentry.1, hentry.2, hheader]
      exact hfoldl
    · rw [List.append_cons]
      exact hsame.append (.refl _)

/-- The loop over headers that parse, from what has no headers. -/
theorem foldl_header_new {ι : Type} {key : ι → Except hyper.Error hyper.HeaderName}
    {value : ι → Except hyper.Error hyper.HeaderValue} {l : List ι}
    {entries : List (hyper.HeaderName × hyper.HeaderValue)}
    (hentries : List.Forall₂ (fun i e => key i = .ok e.1 ∧ value i = .ok e.2) l entries)
    (hlimit : l.length ≤ hyper.maxHeaders) (parts : P) :
    ∃ map, l.foldl (fun head i => Head.header head (key i) (value i))
        (.ok (parts, hyper.headerMapNew)) = .ok (parts, map) ∧
      Same (hyper.iter map) entries := by
  obtain ⟨map, hfoldl, hsame⟩ := laws.foldl_header hentries (parts, hyper.headerMapNew) (by
    rw [laws.iter_new, List.length_nil]
    omega)
  rw [laws.iter_new, List.nil_append] at hsame
  exact ⟨map, hfoldl, hsame⟩

end Hyper.Laws

end BasicCli
