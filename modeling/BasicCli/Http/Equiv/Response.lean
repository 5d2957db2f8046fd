import BasicCli.Http.Reference

/-!
# Responses there and back

The client's response turned into the record, and that into a `hyper::Response`, has the status, the
body and the headers of the first, but that a header value which is not visible ASCII is empty
(`toHyperResponse_asyncSendRequest`).
-/

namespace BasicCli

open Hyper Multimap

variable {hyper : Hyper}

/-- A response that the client has received.  The client refuses one with more than 100 headers, so
a map can hold what there are. -/
structure Received (hyper : Hyper) extends Response hyper (Option (List UInt8)) where
  headers_le : (hyper.iter headers).length ≤ hyper.maxHeaders

/-- The record that `async_send_request` makes of a response. -/
structure Reported (response : Response hyper (Option (List UInt8))) (body : List UInt8)
    (res : ResponseToAndFromHost) : Prop where
  status : res.status = hyper.statusAsU16 response.status
  body : res.body = body
  headers : res.headers.map (fun header => (header.name.bytes, header.value.bytes)) =
    (hyper.iter response.headers).map fun e =>
      (strBytes (hyper.headerNameAsStr e.1), visibleBytes (hyper.headerValueAsBytes e.2))

/-- The response that is made of the record again. -/
structure Returned (response : Response hyper (Option (List UInt8))) (body : List UInt8)
    (response' : Response hyper (List UInt8)) : Prop where
  status : response'.status = response.status
  body : response'.body = body
  headers : ∀ name, (hyper.getAll response'.headers name).map hyper.headerValueAsBytes =
    (hyper.getAll response.headers name).map fun value =>
      visibleBytes (hyper.headerValueAsBytes value)

theorem asyncSendRequest_response {response : Response hyper (Option (List UInt8))}
    {body : List UInt8} (hbody : response.body = some body) :
    asyncSendRequest (.response response.texts) =
      ⟨body, (hyper.iter response.headers).map hyper.header,
        hyper.statusAsU16 response.status⟩ := by
  rw [asyncSendRequest]
  simp only [Response.texts, hbody]
  rw [headerTexts, List.map_map]
  rfl

/-- **The headers of a loop** go to what the builder has, one by one. -/
theorem Hyper.BuilderLaws.responseBody_foldl (laws : hyper.BuilderLaws)
    (builder : hyper.ResponseBuilder) (headers : List Header) :
    hyper.responseBody (headers.foldl
        (fun builder header => hyper.responseHeader builder header.name.bytes header.value.bytes)
        builder) =
      headers.foldl
        (fun head header => Head.header head (hyper.headerNameTryFrom header.name.bytes)
          (hyper.headerValueFromBytes header.value.bytes))
        (hyper.responseBody builder) := by
  induction headers generalizing builder with
  | nil => rfl
  | cons header headers ih => rw [List.foldl_cons, List.foldl_cons, ih, laws.responseBody_header]

namespace Hyper.Laws

variable (laws : hyper.Laws)

include laws

/-- The headers of the record parse, as entries with the visible values. -/
theorem exists_entries (l : List (hyper.HeaderName × hyper.HeaderValue)) :
    ∃ entries : List (hyper.HeaderName × hyper.HeaderValue),
      List.Forall₂
        (fun header e => hyper.headerNameTryFrom header.name.bytes = .ok e.1 ∧
          hyper.headerValueFromBytes header.value.bytes = .ok e.2) (l.map hyper.header) entries ∧
      entries.map (fun e => (e.1, hyper.headerValueAsBytes e.2)) =
        l.map fun e => (e.1, visibleBytes (hyper.headerValueAsBytes e.2)) := by
  induction l with
  | nil => exact ⟨[], .nil, rfl⟩
  | cons e l ih =>
    obtain ⟨entries, hentries, hmap⟩ := ih
    -- What comes through is visible ASCII, if only the empty value.
    obtain ⟨value, -, hvalue⟩ := laws.headerValueTryFrom_visible _
      (all_isVisible_visibleBytes (hyper.headerValueAsBytes e.2))
    refine ⟨(e.1, value) :: entries, .cons ⟨laws.headerNameTryFrom_asStr e.1, ?_⟩ hentries, ?_⟩
    · show hyper.headerValueFromBytes (strBytes _) = _
      rw [laws.readsVisible.strBytes_getD, ← hvalue, laws.headerValueFromBytes_asBytes]
    · rw [List.map_cons, List.map_cons, hmap, hvalue]

/-- **`From<ResponseToAndFromHost>`** where everything parses. -/
theorem toHyperResponse_eq_some (res : ResponseToAndFromHost) {status : hyper.StatusCode}
    {entries : List (hyper.HeaderName × hyper.HeaderValue)}
    (hstatus : res.status = hyper.statusAsU16 status)
    (hentries : List.Forall₂
      (fun header e => hyper.headerNameTryFrom header.name.bytes = .ok e.1 ∧
        hyper.headerValueFromBytes header.value.bytes = .ok e.2) res.headers entries)
    (hlimit : res.headers.length ≤ hyper.maxHeaders) :
    ∃ headers, res.toHyperResponse hyper = some ⟨status, headers, res.body⟩ ∧
      Same (hyper.iter headers) entries := by
  obtain ⟨headers, hfoldl, hsame⟩ := laws.foldl_header_new hentries hlimit status
  refine ⟨headers, ?_, hsame⟩
  have hnew : hyper.responseBody (hyper.responseStatus hyper.responseBuilder status) =
      .ok (status, hyper.headerMapNew) := by
    rw [laws.responseBody_status, laws.responseBody_new]
    rfl
  rw [ResponseToAndFromHost.toHyperResponse, hstatus, laws.statusFromU16_asU16,
    Option.bind_eq_bind, Option.bind_some]
  dsimp only
  rw [laws.responseBody_foldl, hnew, hfoldl]
  rfl

end Hyper.Laws

/-- **A response is reported and comes back**, with the header values that are visible ASCII. -/
theorem toHyperResponse_asyncSendRequest (laws : hyper.Laws) (response : Received hyper)
    {body : List UInt8} (hbody : response.body = some body) :
    Reported response.toResponse body (asyncSendRequest (.response response.texts)) ∧
      ∃ response',
        (asyncSendRequest (.response response.texts)).toHyperResponse hyper = some response' ∧
        Returned response.toResponse body response' := by
  rw [asyncSendRequest_response hbody]
  constructor
  · refine ⟨rfl, rfl, ?_⟩
    rw [List.map_map]
    apply List.map_congr_left
    intro e _
    rw [← laws.readsVisible.strBytes_getD]
    rfl
  · -- Every header that went to Roc came from `hyper`, so each can be read back.
    obtain ⟨entries, hentries, hmap⟩ := laws.exists_entries (hyper.iter response.headers)
    obtain ⟨headers, hto, hsame⟩ := laws.toHyperResponse_eq_some
      ⟨body, _, hyper.statusAsU16 response.status⟩ rfl hentries (by
        rw [List.length_map]
        exact response.headers_le)
    refine ⟨_, hto, rfl, rfl, ?_⟩
    intro name
    rw [getAll, hsame name, ← values_map, hmap, values_map (fun value => visibleBytes _)]
    rfl

/-- A response with two cookies and a name that is not ASCII. -/
def refReceived : Received reference where
  status := refStatusOk
  headers :=
    [(⟨strBytes "set-cookie", by decide, by decide⟩, ⟨strBytes "a=1", by decide⟩),
      (⟨strBytes "set-cookie", by decide, by decide⟩, ⟨strBytes "b=2", by decide⟩),
      (⟨strBytes "x-name", by decide, by decide⟩, ⟨strBytes "Zoë", by decide⟩)]
  body := some [1, 2]
  headers_le := by decide

theorem toHyperResponse_asyncSendRequest_cookies :
    Reported refReceived.toResponse [1, 2] (asyncSendRequest (.response refReceived.texts)) ∧
      ∃ response',
        (asyncSendRequest (.response refReceived.texts)).toHyperResponse reference =
          some response' ∧
        Returned refReceived.toResponse [1, 2] response' :=
  toHyperResponse_asyncSendRequest reference_laws refReceived rfl

/-- The value that is not ASCII is lost. -/
theorem not_reported_bytes :
    (asyncSendRequest (.response refReceived.texts)).headers.map (fun header =>
        (header.name.bytes, header.value.bytes)) ≠
      (reference.iter refReceived.headers).map fun e =>
        (strBytes (reference.headerNameAsStr e.1), reference.headerValueAsBytes e.2) := by
  decide

end BasicCli
