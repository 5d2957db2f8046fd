import BasicCli.Http.Reference

/-!
# Requests there and back

A `hyper::Request` turned into the record and back is the same request, with a content type if it
had none (`toHyperRequest_ofRequest`).
-/

namespace BasicCli

open Hyper Multimap

theorem mapM_of_forall_eq_some {α β : Type} {f : α → Option β} {g : α → β} {l : List α}
    (h : ∀ a ∈ l, f a = some (g a)) : l.mapM f = some (l.map g) := by
  induction l with
  | nil => rfl
  | cons a l ih =>
    rw [List.mapM_cons, h a (List.mem_cons_self ..),
      ih fun a' ha' => h a' (List.mem_cons_of_mem a ha')]
    rfl

namespace RequestToAndFromHost

variable {hyper : Hyper}

/-! ### There -/

/-- **`From<hyper::Request<String>>`** where every header value is visible ASCII. -/
theorem ofRequest_eq_some {hyperReq : Request hyper String}
    (hvisible : ∀ e ∈ hyper.iter hyperReq.headers,
      (hyper.headerValueToStr e.2).isSome) :
    ∃ req, ofRequest hyperReq = some req ∧ req.body = strBytes hyperReq.body ∧
      req.headers = (hyper.iter hyperReq.headers).map hyper.header ∧
      req.method = fromHyperMethod (hyper.methodAsStr hyperReq.method) ∧
      (isExtensionMethod req.method →
        req.methodExt = .fromStr (hyper.methodAsStr hyperReq.method)) ∧
      req.uri = .fromStr (hyper.uriToString hyperReq.uri) := by
  rw [ofRequest, ofHyperRequest]
  show ∃ req, Option.bind (List.mapM (m := Option) _ (hyper.headerTexts hyperReq.headers)) _ = _ ∧ _
  rw [headerTexts, List.mapM_map, mapM_of_forall_eq_some (g := hyper.header), Option.bind_some]
  · exact ⟨_, rfl, rfl, rfl, rfl, fun hext => if_pos hext, rfl⟩
  · intro e he
    obtain ⟨s, hs⟩ := Option.isSome_iff_exists.mp (hvisible e he)
    show (hyper.headerValueToStr e.2).bind _ = _
    rw [Hyper.header, hs]
    rfl

/-! ### Back -/

theorem addHeaders_eq (reqBuilder : hyper.RequestBuilder) (hasContentTypeHeader : Bool)
    (headers : List Header) :
    addHeaders hyper reqBuilder hasContentTypeHeader headers =
      (headers.foldl
          (fun reqBuilder header =>
            hyper.builderHeader reqBuilder header.name.bytes header.value.bytes)
          reqBuilder,
        hasContentTypeHeader ||
          headers.any fun header =>
            eqIgnoreAsciiCase header.name.bytes (strBytes "Content-Type")) := by
  induction headers generalizing reqBuilder hasContentTypeHeader with
  | nil => rw [List.any_nil, Bool.or_false]; rfl
  | cons header headers ih =>
    rw [List.foldl_cons, List.any_cons]
    refine (ih _ _).trans ?_
    congr 1
    cases eqIgnoreAsciiCase header.name.bytes (strBytes "Content-Type") <;> simp

/-- What is no standard method has the number of the extensions. -/
theorem fromHyperMethod_of_ne {method : String} (h : ∀ m : StandardMethod, method ≠ m.text) :
    fromHyperMethod method = 2 := by
  rw [fromHyperMethod, if_neg (show method ≠ "CONNECT" from h .connect),
    if_neg (show method ≠ "DELETE" from h .delete), if_neg (show method ≠ "GET" from h .get),
    if_neg (show method ≠ "HEAD" from h .head), if_neg (show method ≠ "OPTIONS" from h .options),
    if_neg (show method ≠ "PATCH" from h .patch), if_neg (show method ≠ "POST" from h .post),
    if_neg (show method ≠ "PUT" from h .put), if_neg (show method ≠ "TRACE" from h .trace)]

end RequestToAndFromHost

namespace Hyper.BuilderLaws

variable {hyper : Hyper} (laws : hyper.BuilderLaws)

include laws

/-- A builder that has been given a method and a URI. -/
theorem builderBody_method_uri (method : hyper.Method) (uri : List UInt8) :
    hyper.builderBody (hyper.builderUri (hyper.builderMethod hyper.requestBuilder method) uri) =
      (hyper.uriTryFrom uri).map fun uri => ((method, uri), hyper.headerMapNew) := by
  rw [laws.builderBody_uri, laws.builderBody_method, laws.builderBody_new]
  rfl

/-- **The headers of a loop** go to what the builder has, one by one. -/
theorem builderBody_foldl (reqBuilder : hyper.RequestBuilder) (headers : List Header) :
    hyper.builderBody (headers.foldl
        (fun reqBuilder header =>
          hyper.builderHeader reqBuilder header.name.bytes header.value.bytes) reqBuilder) =
      headers.foldl
        (fun head header => Head.header head (hyper.headerNameTryFrom header.name.bytes)
          (hyper.headerValueTryFrom header.value.bytes))
        (hyper.builderBody reqBuilder) := by
  induction headers generalizing reqBuilder with
  | nil => rfl
  | cons header headers ih => rw [List.foldl_cons, List.foldl_cons, ih, laws.builderBody_header]

/-- **`to_hyper_request`** by what its builder has: the request line, the headers of the list, and a
content type where the loop has seen none. -/
theorem toHyperRequest_eq {req : RequestToAndFromHost} {method : hyper.Method}
    (hmethod : req.asHyperMethod hyper = some method) :
    req.toHyperRequest hyper =
      let head := req.headers.foldl
        (fun head header => Head.header head (hyper.headerNameTryFrom header.name.bytes)
          (hyper.headerValueTryFrom header.value.bytes))
        ((hyper.uriTryFrom req.uri.bytes).map fun uri => ((method, uri), hyper.headerMapNew))
      let head :=
        if req.headers.any fun header =>
            eqIgnoreAsciiCase header.name.bytes (strBytes "Content-Type")
        then head
        else Head.header head (hyper.headerNameTryFrom (strBytes "Content-Type"))
          (hyper.headerValueTryFrom (strBytes "text/plain"))
      some (head.map fun ((method, uri), headers) => ⟨method, uri, headers, req.body⟩) := by
  rw [RequestToAndFromHost.toHyperRequest, hmethod, Option.bind_eq_bind, Option.bind_some]
  simp only [RequestToAndFromHost.addHeaders_eq, Bool.false_or]
  rw [← laws.builderBody_method_uri, ← laws.builderBody_foldl, ← laws.builderBody_header]
  split_ifs <;> rfl

end Hyper.BuilderLaws

namespace Hyper.Laws

variable {hyper : Hyper} (laws : hyper.Laws)

include laws

theorem eq_method {method : hyper.Method} {m : StandardMethod}
    (h : hyper.methodAsStr method = m.text) : method = hyper.method m := by
  -- Methods are told apart by their texts, since these parse.
  have hok := laws.methodFromBytes_asStr method
  rw [h, ← laws.methodAsStr_method m, laws.methodFromBytes_asStr] at hok
  exact (Except.ok.inj hok).symm

/-- **The method comes back**, from its number or from the extension. -/
theorem asHyperMethod_fromHyperMethod {req : RequestToAndFromHost} {method : hyper.Method}
    (hmethod : req.method = RequestToAndFromHost.fromHyperMethod (hyper.methodAsStr method))
    (hext : RequestToAndFromHost.isExtensionMethod req.method →
      req.methodExt = .fromStr (hyper.methodAsStr method)) :
    req.asHyperMethod hyper = some method := by
  by_cases hstandard : ∃ m : StandardMethod, hyper.methodAsStr method = m.text
  · obtain ⟨m, hm⟩ := hstandard
    rw [RequestToAndFromHost.asHyperMethod, hmethod, hm, laws.eq_method hm]
    cases m
    all_goals rfl
  · -- An extension has the number 2 and its own text.
    rw [RequestToAndFromHost.fromHyperMethod_of_ne fun m hm => hstandard ⟨m, hm⟩] at hmethod
    rw [RequestToAndFromHost.asHyperMethod, hext (by rw [hmethod]; rfl), hmethod]
    show (hyper.methodFromBytes (strBytes (hyper.methodAsStr method))).toOption = _
    rw [laws.methodFromBytes_asStr]
    rfl

/-- **`to_hyper_request`** where everything parses: the headers are those of the list, and a content
type if there is none. -/
theorem toHyperRequest_eq_ok {req : RequestToAndFromHost} {method : hyper.Method} {uri : hyper.Uri}
    {entries : List (hyper.HeaderName × hyper.HeaderValue)}
    (hmethod : req.asHyperMethod hyper = some method)
    (huri : hyper.uriTryFrom req.uri.bytes = .ok uri)
    (hentries : List.Forall₂ (Header.Parses hyper) req.headers entries)
    (hlimit : req.headers.length < hyper.maxHeaders) :
    ∃ contentType textPlain headers,
      hyper.headerNameTryFrom (strBytes "Content-Type") = .ok contentType ∧
      hyper.headerValueAsBytes textPlain = strBytes "text/plain" ∧
      req.toHyperRequest hyper = some (.ok ⟨method, uri, headers, req.body⟩) ∧
      Same (hyper.iter headers)
        (entries ++
          if req.headers.any fun header =>
            eqIgnoreAsciiCase header.name.bytes (strBytes "Content-Type")
          then [] else [(contentType, textPlain)]) := by
  obtain ⟨contentType, hcontentType⟩ := laws.contentType
  obtain ⟨textPlain, htextPlain, hbytes⟩ :=
    laws.headerValueTryFrom_visible (strBytes "text/plain") (by decide)
  obtain ⟨headers, hfoldl, hsame⟩ :=
    laws.foldl_header_new hentries (Nat.le_of_lt hlimit) (method, uri)
  have hnew : (hyper.uriTryFrom req.uri.bytes).map
      (fun uri => ((method, uri), hyper.headerMapNew)) =
        .ok ((method, uri), hyper.headerMapNew) := by
    rw [huri]
    rfl
  rw [laws.toHyperRequest_eq hmethod, hnew, hfoldl]
  -- With a content type of its own the request keeps its headers as they are; without one the code
  -- appends `text/plain`.
  cases hany : req.headers.any fun header =>
      eqIgnoreAsciiCase header.name.bytes (strBytes "Content-Type") with
  | true =>
    refine ⟨contentType, textPlain, headers, hcontentType, hbytes, rfl, ?_⟩
    rw [if_pos rfl, List.append_nil]
    exact hsame
  | false =>
    obtain ⟨headers', hheader, hsame'⟩ :=
      laws.header_ok ((method, uri), headers) contentType textPlain (by
        rw [hsame.length_eq, ← hentries.length_eq]
        exact hlimit)
    refine ⟨contentType, textPlain, headers', hcontentType, hbytes, ?_, ?_⟩
    · dsimp only
      rw [if_neg Bool.false_ne_true, hcontentType, htextPlain, hheader]
      rfl
    · exact hsame'.trans (hsame.append (.refl _))

/-- The headers of the record parse as the entries of the map. -/
theorem forall₂_header {l : List (hyper.HeaderName × hyper.HeaderValue)}
    (hvisible : ∀ e ∈ l, (hyper.headerValueToStr e.2).isSome) :
    List.Forall₂ (Header.Parses hyper) (l.map hyper.header) l := by
  rw [List.forall₂_map_left_iff, List.forall₂_same]
  intro e he
  have hvisible := laws.readsVisible.isSome_iff.mp (hvisible e he)
  obtain ⟨value, hvalue, hbytes⟩ := laws.headerValueTryFrom_visible _ hvisible
  refine ⟨laws.headerNameTryFrom_asStr e.1, ?_⟩
  show hyper.headerValueTryFrom (strBytes _) = _
  rw [laws.readsVisible.strBytes_getD, visibleBytes, if_pos hvisible, hvalue,
    laws.headerValueAsBytes_injective hbytes]

/-- The loop finds a content type iff the map has one. -/
theorem any_contentType {contentType : hyper.HeaderName}
    (hcontentType : hyper.headerNameTryFrom (strBytes "Content-Type") = .ok contentType)
    (map : hyper.HeaderMap) :
    ((hyper.iter map).map hyper.header).any
        (fun header => eqIgnoreAsciiCase header.name.bytes (strBytes "Content-Type")) = true ↔
      hyper.getAll map contentType ≠ [] := by
  rw [List.any_map, List.any_eq_true, getAll, ne_eq, values_eq_nil_iff]
  push Not
  constructor
  · rintro ⟨e, he, hname⟩
    exact ⟨e, he, (laws.eqIgnoreAsciiCase_contentType hcontentType e.1).mp hname⟩
  · rintro ⟨e, he, hname⟩
    exact ⟨e, he, (laws.eqIgnoreAsciiCase_contentType hcontentType e.1).mpr hname⟩

end Hyper.Laws

/-- The request that has come back: that which it was, but for a content type that it lacked. -/
structure WithContentType {hyper : Hyper} (hyperReq : Request hyper String)
    (hyperReq' : Request hyper (List UInt8)) : Prop where
  method : hyperReq'.method = hyperReq.method
  uri : hyperReq'.uri = hyperReq.uri
  body : hyperReq'.body = strBytes hyperReq.body
  headers : ∃ contentType textPlain,
    hyper.headerNameTryFrom (strBytes "Content-Type") = .ok contentType ∧
    hyper.headerValueAsBytes textPlain = strBytes "text/plain" ∧
    ∀ name, hyper.getAll hyperReq'.headers name = hyper.getAll hyperReq.headers name ++
      if name = contentType ∧ hyper.getAll hyperReq.headers name = [] then [textPlain] else []

/-- **A request comes back**, with a content type. -/
theorem toHyperRequest_ofRequest {hyper : Hyper} (laws : hyper.Laws)
    (hyperReq : Request hyper String)
    (hlimit : (hyper.iter hyperReq.headers).length < hyper.maxHeaders)
    (hvisible : ∀ e ∈ hyper.iter hyperReq.headers, (hyper.headerValueToStr e.2).isSome) :
    ∃ req hyperReq', RequestToAndFromHost.ofRequest hyperReq = some req ∧
      req.toHyperRequest hyper = some (.ok hyperReq') ∧ WithContentType hyperReq hyperReq' := by
  obtain ⟨req, hof, hbody, hheaders, hmethod, hext, huri⟩ :=
    RequestToAndFromHost.ofRequest_eq_some hvisible
  have huri' : hyper.uriTryFrom req.uri.bytes = .ok hyperReq.uri := by
    rw [huri]
    exact laws.uriTryFrom_toString hyperReq.uri
  obtain ⟨contentType, textPlain, headers, hcontentType, hbytes, hto, hsame⟩ :=
    laws.toHyperRequest_eq_ok (laws.asHyperMethod_fromHyperMethod hmethod hext) huri'
      (hheaders ▸ laws.forall₂_header hvisible) (by rwa [hheaders, List.length_map])
  rw [hheaders] at hsame
  refine ⟨req, _, hof, hto, rfl, rfl, hbody, contentType, textPlain, hcontentType, hbytes, ?_⟩
  intro name
  rw [getAll, hsame name, values_append]
  congr 1
  by_cases hany : hyper.getAll hyperReq.headers contentType = []
  · -- The loop has found no content type.
    rw [if_neg fun h => (laws.any_contentType hcontentType _).mp h hany]
    by_cases hname : name = contentType
    · subst hname
      rw [if_pos ⟨rfl, hany⟩, values_cons_self, values_nil]
    · rw [if_neg fun h => hname h.1, values_cons_of_ne (Ne.symm hname), values_nil]
  · rw [if_pos ((laws.any_contentType hcontentType _).mpr hany), values_nil, if_neg]
    rintro ⟨rfl, h⟩
    exact hany h

theorem toHyperRequest_ofRequest_get :
    ∃ req hyperReq', RequestToAndFromHost.ofRequest refRequest = some req ∧
      req.toHyperRequest reference = some (.ok hyperReq') ∧
      WithContentType refRequest hyperReq' :=
  toHyperRequest_ofRequest reference_laws refRequest (by decide) (by decide)

end BasicCli
