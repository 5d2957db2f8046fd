import BasicCli.Http.Equiv.RoundTrip

/-!
# `to_hyper_request`

The map of a request that is sent has for each name the values of the list, in whatever case it
writes the name, and a content type where the list has none.  One header that does not parse, or the
URI, is enough for an error, wherever it stands: the builder keeps its first error.
-/

namespace BasicCli

open Hyper Multimap

/-- `HeaderValue::try_from` takes the bytes as they are. -/
def Hyper.KeepsValues (hyper : Hyper) : Prop :=
  ∀ bytes value, hyper.headerValueTryFrom bytes = .ok value →
    hyper.headerValueAsBytes value = bytes

/-- The name and the value are such. -/
def Header.Valid (hyper : Hyper) (header : Header) : Prop :=
  (∃ name, hyper.headerNameTryFrom header.name.bytes = .ok name) ∧
    ∃ value, hyper.headerValueTryFrom header.value.bytes = .ok value

/-- The values of a name in a list of headers, which may write it in any case. -/
def givenValues (headers : List Header) (name : List UInt8) : List (List UInt8) :=
  (headers.filter fun header => eqIgnoreAsciiCase header.name.bytes name).map fun header =>
    header.value.bytes

section

variable {headers : List Header} {header : Header} {name : List UInt8}

theorem givenValues_cons_of_eq (h : eqIgnoreAsciiCase header.name.bytes name) :
    givenValues (header :: headers) name = header.value.bytes :: givenValues headers name := by
  rw [givenValues, List.filter_cons, if_pos h]
  rfl

theorem givenValues_cons_of_ne (h : ¬ eqIgnoreAsciiCase header.name.bytes name) :
    givenValues (header :: headers) name = givenValues headers name := by
  rw [givenValues, List.filter_cons, if_neg h]
  rfl

end

variable {hyper : Hyper}

/-! ### Headers that parse -/

theorem exists_entries {headers : List Header}
    (hvalid : ∀ header ∈ headers, header.Valid hyper) :
    ∃ entries : List (hyper.HeaderName × hyper.HeaderValue),
      List.Forall₂ (Header.Parses hyper) headers entries := by
  induction headers with
  | nil => exact ⟨[], .nil⟩
  | cons header headers ih =>
    obtain ⟨⟨⟨name, hname⟩, value, hvalue⟩, hvalid⟩ := List.forall_mem_cons.mp hvalid
    obtain ⟨entries, hentries⟩ := ih hvalid
    exact ⟨(name, value) :: entries, .cons ⟨hname, hvalue⟩ hentries⟩

/-- **The values of a name** among the entries are those of the list. -/
theorem Hyper.Laws.values_entries (laws : hyper.Laws) (hkeeps : hyper.KeepsValues)
    {headers : List Header} {entries : List (hyper.HeaderName × hyper.HeaderValue)}
    (hentries : List.Forall₂ (Header.Parses hyper) headers entries)
    (name : hyper.HeaderName) :
    (values name entries).map hyper.headerValueAsBytes =
      givenValues headers (strBytes (hyper.headerNameAsStr name)) := by
  induction hentries with
  | nil => rfl
  | @cons header e headers entries hentry hentries ih =>
    have hname := laws.eqIgnoreAsciiCase_iff hentry.1 (laws.headerNameTryFrom_asStr name)
    by_cases h : e.1 = name
    · -- The first header has the name, in whatever case the list writes it.
      rw [givenValues_cons_of_eq (hname.mpr h), ← ih, ← h, values_cons_self, List.map_cons,
        hkeeps _ _ hentry.2]
    · rw [givenValues_cons_of_ne fun heq => h (hname.mp heq), ← ih, values_cons_of_ne h]

/-! ### Errors -/

section

variable {P : Type} {head : Head hyper P}

theorem header_error {key : Except hyper.Error hyper.HeaderName}
    {value : Except hyper.Error hyper.HeaderValue}
    (h : ¬ ((∃ name, key = .ok name) ∧ ∃ v, value = .ok v)) :
    ∃ err, head.header key value = .error err := by
  cases head with
  | error err => exact ⟨err, rfl⟩
  | ok head =>
    cases key with
    | error err => exact ⟨err, rfl⟩
    | ok name =>
      cases value with
      | error err => exact ⟨err, rfl⟩
      | ok v => exact absurd ⟨⟨name, rfl⟩, v, rfl⟩ h

/-- **An error of the builder stays**, and every header that does not parse is one. -/
theorem foldl_header_error {headers : List Header}
    (h : (∃ err, head = .error err) ∨ ∃ header ∈ headers, ¬ header.Valid hyper) :
    ∃ err, headers.foldl
      (fun head header => Head.header head (hyper.headerNameTryFrom header.name.bytes)
        (hyper.headerValueTryFrom header.value.bytes))
      head = .error err := by
  induction headers generalizing head with
  | nil =>
    obtain h | ⟨header, hmem, -⟩ := h
    · exact h
    · cases hmem
  | cons header headers ih =>
    rw [List.foldl_cons]
    apply ih
    obtain ⟨err, rfl⟩ | ⟨header', hmem, hinvalid⟩ := h
    · exact .inl ⟨err, rfl⟩
    · obtain rfl | hmem := List.mem_cons.mp hmem
      · exact .inl (header_error hinvalid)
      · exact .inr ⟨header', hmem, hinvalid⟩

end

/-! ### The request -/

/-- **One part that does not parse is an error** of `to_hyper_request`, wherever it stands. -/
theorem toHyperRequest_error (laws : hyper.BuilderLaws) {req : RequestToAndFromHost}
    {method : hyper.Method}
    (hmethod : req.asHyperMethod hyper = some method)
    (hinvalid : (∃ err, hyper.uriTryFrom req.uri.bytes = .error err) ∨
      ∃ header ∈ req.headers, ¬ header.Valid hyper) :
    ∃ err, req.toHyperRequest hyper = some (.error err) := by
  have hhead : (∃ err, (hyper.uriTryFrom req.uri.bytes).map
        (fun uri => ((method, uri), hyper.headerMapNew)) = .error err) ∨
      ∃ header ∈ req.headers, ¬ header.Valid hyper := by
    apply hinvalid.imp_left
    rintro ⟨err, huri⟩
    exact ⟨err, by rw [huri]; rfl⟩
  obtain ⟨err, hfoldl⟩ := foldl_header_error hhead
  refine ⟨err, ?_⟩
  -- The default content type goes to a builder that has failed.
  rw [laws.toHyperRequest_eq hmethod, hfoldl]
  split_ifs <;> rfl

/-- **`to_hyper_request`** sends what the record says, and a content type where it has none. -/
theorem toHyperRequest_spec (laws : hyper.Laws) (hkeeps : hyper.KeepsValues)
    {req : RequestToAndFromHost} {method : hyper.Method}
    (hmethod : req.asHyperMethod hyper = some method) :
    (∀ uri, hyper.uriTryFrom req.uri.bytes = .ok uri →
      (∀ header ∈ req.headers, header.Valid hyper) → req.headers.length < hyper.maxHeaders →
        ∃ headers, req.toHyperRequest hyper = some (.ok ⟨method, uri, headers, req.body⟩) ∧
          ∀ name, (hyper.getAll headers name).map hyper.headerValueAsBytes =
            givenValues req.headers (strBytes (hyper.headerNameAsStr name)) ++
              if eqIgnoreAsciiCase (strBytes (hyper.headerNameAsStr name))
                    (strBytes "Content-Type") ∧
                  ¬ ∃ header ∈ req.headers,
                    eqIgnoreAsciiCase header.name.bytes (strBytes "Content-Type")
              then [strBytes "text/plain"] else []) ∧
    ((∃ err, hyper.uriTryFrom req.uri.bytes = .error err) ∨
      (∃ header ∈ req.headers, ¬ header.Valid hyper) →
        ∃ err, req.toHyperRequest hyper = some (.error err)) := by
  refine ⟨fun uri huri hvalid hlimit => ?_, toHyperRequest_error laws.toBuilderLaws hmethod⟩
  obtain ⟨entries, hentries⟩ := exists_entries hvalid
  obtain ⟨contentType, textPlain, headers, hcontentType, hbytes, hok, hsame⟩ :=
    laws.toHyperRequest_eq_ok hmethod huri hentries hlimit
  refine ⟨headers, hok, fun name => ?_⟩
  rw [getAll, hsame name, values_append, List.map_append, laws.values_entries hkeeps hentries]
  congr 1
  have hname := laws.eqIgnoreAsciiCase_contentType hcontentType name
  by_cases hany : req.headers.any fun header =>
      eqIgnoreAsciiCase header.name.bytes (strBytes "Content-Type")
  · -- The loop has seen a content type.
    rw [if_pos hany, if_neg fun h => h.2 (List.any_eq_true.mp hany)]
    rfl
  · -- The loop has seen none, and adds one value to the values of `Content-Type`.
    rw [if_neg hany]
    by_cases heq : name = contentType
    · rw [if_pos ⟨hname.mpr heq, fun h => hany (List.any_eq_true.mpr h)⟩, heq, values_cons_self,
        values_nil, List.map_singleton, hbytes]
    · rw [if_neg fun h => heq (hname.mp h.1), values_cons_of_ne (Ne.symm heq)]
      rfl

theorem keepsValues_reference : reference.KeepsValues := by
  intro bytes value h
  have h : refValueFrom bytes = .ok value := h
  rw [refValueFrom] at h
  split_ifs at h
  cases h
  rfl

/-- A `GET` with headers. -/
def refGet (headers : List (String × String)) : RequestToAndFromHost where
  body := []
  headers := headers.map fun (name, value) => ⟨.fromStr name, .fromStr value⟩
  method := 3
  methodExt := .empty
  timeoutMs := 0
  uri := .fromStr "/"

/-- A name is written twice, in two ways. -/
def refTwice : RequestToAndFromHost := refGet [("X-Id", "7"), ("Accept", "*/*"), ("x-iD", "8")]

/-- The second header has no name. -/
def refNoName : RequestToAndFromHost := refGet [("X-Id", "7"), ("X Id", "8")]

theorem toHyperRequest_spec_get :
    (∃ headers, refTwice.toHyperRequest reference =
        some (.ok ⟨refMethod .get, reference.uriDefault, headers, []⟩) ∧
      ∀ name, (reference.getAll headers name).map reference.headerValueAsBytes =
        givenValues refTwice.headers (strBytes (reference.headerNameAsStr name)) ++
          if eqIgnoreAsciiCase (strBytes (reference.headerNameAsStr name))
                (strBytes "Content-Type") ∧
              ¬ ∃ header ∈ refTwice.headers,
                eqIgnoreAsciiCase header.name.bytes (strBytes "Content-Type")
          then [strBytes "text/plain"] else []) ∧
    givenValues refTwice.headers (strBytes "x-id") = [strBytes "7", strBytes "8"] ∧
    ∃ err, refNoName.toHyperRequest reference = some (.error err) := by
  have hmethod (headers : List (String × String)) :
      (refGet headers).asHyperMethod reference = some (refMethod .get) := rfl
  have hid : ∃ name, reference.headerNameTryFrom (strBytes "X-Id") = .ok name :=
    ⟨⟨strBytes "x-id", by decide, by decide⟩, rfl⟩
  refine ⟨?_, by decide, ?_⟩
  · refine (toHyperRequest_spec reference_laws keepsValues_reference (hmethod _)).1 _
      (RefText.tryFrom_bytes refUriDefault) ?_ (by decide)
    refine List.forall_mem_cons.mpr ⟨⟨hid, ⟨strBytes "7", by decide⟩, rfl⟩, ?_⟩
    refine List.forall_mem_cons.mpr ⟨⟨⟨⟨strBytes "accept", by decide, by decide⟩, rfl⟩,
      ⟨strBytes "*/*", by decide⟩, rfl⟩, ?_⟩
    exact List.forall_mem_singleton.mpr ⟨⟨⟨strBytes "x-id", by decide, by decide⟩, rfl⟩,
      ⟨strBytes "8", by decide⟩, rfl⟩
  · refine (toHyperRequest_spec reference_laws keepsValues_reference (hmethod _)).2
      (.inr ⟨_, List.mem_cons_of_mem _ (List.mem_singleton_self _), ?_⟩)
    -- A blank is no part of a header name.
    rintro ⟨⟨name, hname⟩, -⟩
    have hname : refNameFrom (strBytes "X Id") = .ok name := hname
    have herror : refNameFrom (strBytes "X Id") = .error () := rfl
    rw [herror] at hname
    cases hname

end BasicCli
