import BasicCli.Http.Basic
import BasicCli.Multimap.Basic

/-!
# `hyper`

What `crates/roc_http` uses of `hyper` and of `http` under it: types of their own with the functions
that make them from a `&str` or bytes and read them, the map of headers, and the builders.
`ReadsVisible`, `BuilderLaws` and `Laws` are what these crates document.
-/

namespace BasicCli

/-- The methods that are constants of `hyper::Method`. -/
inductive StandardMethod
  | connect | delete | get | head | options | patch | post | put | trace
deriving DecidableEq, Repr

def StandardMethod.text : StandardMethod → String
  | connect => "CONNECT"
  | delete => "DELETE"
  | get => "GET"
  | head => "HEAD"
  | options => "OPTIONS"
  | patch => "PATCH"
  | post => "POST"
  | put => "PUT"
  | trace => "TRACE"

/-- The types of `hyper` and `http`.  A `&str` is given by its bytes where one is parsed. -/
structure Hyper where
  /-- `http::Error` -/
  Error : Type
  Method : Type
  /-- the constants of `Method` -/
  method : StandardMethod → Method
  /-- `Method::from_bytes` -/
  methodFromBytes : List UInt8 → Except Error Method
  /-- `Method::as_str` -/
  methodAsStr : Method → String
  Uri : Type
  /-- `Uri::default` -/
  uriDefault : Uri
  /-- `Uri::try_from` -/
  uriTryFrom : List UInt8 → Except Error Uri
  /-- `Uri::to_string` -/
  uriToString : Uri → String
  HeaderName : Type
  [decEq : DecidableEq HeaderName]
  /-- `HeaderName::try_from` -/
  headerNameTryFrom : List UInt8 → Except Error HeaderName
  /-- `HeaderName::as_str` -/
  headerNameAsStr : HeaderName → String
  HeaderValue : Type
  /-- `HeaderValue::try_from` of a `&str` -/
  headerValueTryFrom : List UInt8 → Except Error HeaderValue
  /-- `HeaderValue::try_from` of a `&[u8]` -/
  headerValueFromBytes : List UInt8 → Except Error HeaderValue
  /-- `HeaderValue::as_bytes` -/
  headerValueAsBytes : HeaderValue → List UInt8
  /-- `HeaderValue::to_str` -/
  headerValueToStr : HeaderValue → Option String
  /-- `HeaderMap<HeaderValue>` -/
  HeaderMap : Type
  /-- `HeaderMap::new` -/
  headerMapNew : HeaderMap
  /-- `HeaderMap::try_append` -/
  tryAppend : HeaderMap → HeaderName → HeaderValue → Except Error HeaderMap
  /-- `HeaderMap::iter`, which yields each key once for each of its values -/
  iter : HeaderMap → List (HeaderName × HeaderValue)
  /-- as many headers as a map can hold, whatever they are -/
  maxHeaders : ℕ
  StatusCode : Type
  /-- `StatusCode::default` -/
  statusDefault : StatusCode
  /-- `StatusCode::from_u16` -/
  statusFromU16 : UInt16 → Option StatusCode
  /-- `StatusCode::as_u16` -/
  statusAsU16 : StatusCode → UInt16
  /-- `http::request::Builder` -/
  RequestBuilder : Type
  /-- `Request::builder` -/
  requestBuilder : RequestBuilder
  /-- `method` of a `Method` -/
  builderMethod : RequestBuilder → Method → RequestBuilder
  /-- `uri` of a `&str` -/
  builderUri : RequestBuilder → List UInt8 → RequestBuilder
  /-- `header` of a `&str` and a `&str` -/
  builderHeader : RequestBuilder → List UInt8 → List UInt8 → RequestBuilder
  /-- `body`, by what the request has beside its body -/
  builderBody : RequestBuilder → Except Error ((Method × Uri) × HeaderMap)
  /-- `http::response::Builder` -/
  ResponseBuilder : Type
  /-- `Response::builder` -/
  responseBuilder : ResponseBuilder
  /-- `status` of a `StatusCode` -/
  responseStatus : ResponseBuilder → StatusCode → ResponseBuilder
  /-- `header` of a `&str` and a `&[u8]` -/
  responseHeader : ResponseBuilder → List UInt8 → List UInt8 → ResponseBuilder
  /-- `body`, by what the response has beside its body -/
  responseBody : ResponseBuilder → Except Error (StatusCode × HeaderMap)

/-- The bytes that are visible ASCII, or a tab. -/
def isVisible (b : UInt8) : Bool := 32 ≤ b && b < 127 || b = 9

/-- `u8::to_ascii_lowercase`. -/
def toAsciiLowercase (b : UInt8) : UInt8 := if 65 ≤ b ∧ b ≤ 90 then b + 32 else b

namespace Hyper

open Multimap

attribute [instance] Hyper.decEq

/-! ### Builders -/

/-- What a builder has so far, or its first error.  `P` is what the message has but for the
headers. -/
abbrev Head (hyper : Hyper) (P : Type) := Except hyper.Error (P × hyper.HeaderMap)

/-- A header is appended to what a builder has, if its key and its value are such. -/
def Head.header {hyper : Hyper} {P : Type} (head : Head hyper P)
    (key : Except hyper.Error hyper.HeaderName) (value : Except hyper.Error hyper.HeaderValue) :
    Head hyper P :=
  head.bind fun head => key.bind fun name => value.bind fun value =>
    (hyper.tryAppend head.2 name value).map fun headers => (head.1, headers)

/-- What the crates document of the builders, which keep their first error until `body` answers with
it. -/
structure BuilderLaws (hyper : Hyper) : Prop where
  builderBody_new : hyper.builderBody hyper.requestBuilder =
    .ok ((hyper.method .get, hyper.uriDefault), hyper.headerMapNew)
  builderBody_method : ∀ builder method,
    hyper.builderBody (hyper.builderMethod builder method) =
      (hyper.builderBody builder).map fun head => ((method, head.1.2), head.2)
  builderBody_uri : ∀ builder uri,
    hyper.builderBody (hyper.builderUri builder uri) =
      (hyper.builderBody builder).bind fun head =>
        (hyper.uriTryFrom uri).map fun uri => ((head.1.1, uri), head.2)
  builderBody_header : ∀ builder key value,
    hyper.builderBody (hyper.builderHeader builder key value) =
      Head.header (hyper.builderBody builder) (hyper.headerNameTryFrom key)
        (hyper.headerValueTryFrom value)
  responseBody_new :
    hyper.responseBody hyper.responseBuilder = .ok (hyper.statusDefault, hyper.headerMapNew)
  responseBody_status : ∀ builder status,
    hyper.responseBody (hyper.responseStatus builder status) =
      (hyper.responseBody builder).map fun head => (status, head.2)
  responseBody_header : ∀ builder key value,
    hyper.responseBody (hyper.responseHeader builder key value) =
      Head.header (hyper.responseBody builder) (hyper.headerNameTryFrom key)
        (hyper.headerValueFromBytes value)

/-! ### Laws -/

/-- What the crates document of `to_str`: a value of visible ASCII is the text that it is, and no
other is a text. -/
def ReadsVisible (hyper : Hyper) : Prop := ∀ value s, hyper.headerValueToStr value = some s ↔
  (hyper.headerValueAsBytes value).all isVisible ∧ strBytes s = hyper.headerValueAsBytes value

/-- What the crates document. -/
structure Laws (hyper : Hyper) : Prop extends BuilderLaws hyper where
  readsVisible : hyper.ReadsVisible
  methodFromBytes_asStr : ∀ m, hyper.methodFromBytes (strBytes (hyper.methodAsStr m)) = .ok m
  methodAsStr_method : ∀ m, hyper.methodAsStr (hyper.method m) = m.text
  uriTryFrom_toString : ∀ uri, hyper.uriTryFrom (strBytes (hyper.uriToString uri)) = .ok uri
  headerNameTryFrom_asStr :
    ∀ name, hyper.headerNameTryFrom (strBytes (hyper.headerNameAsStr name)) = .ok name
  /-- A name is kept in lower case. -/
  headerNameAsStr_tryFrom : ∀ bytes name, hyper.headerNameTryFrom bytes = .ok name →
    strBytes (hyper.headerNameAsStr name) = bytes.map toAsciiLowercase
  contentType : ∃ name, hyper.headerNameTryFrom (strBytes "Content-Type") = .ok name
  headerValueAsBytes_injective : Function.Injective hyper.headerValueAsBytes
  headerValueFromBytes_asBytes :
    ∀ value, hyper.headerValueFromBytes (hyper.headerValueAsBytes value) = .ok value
  /-- Visible ASCII is a header value. -/
  headerValueTryFrom_visible : ∀ bytes, bytes.all isVisible →
    ∃ value, hyper.headerValueTryFrom bytes = .ok value ∧ hyper.headerValueAsBytes value = bytes
  iter_new : hyper.iter hyper.headerMapNew = []
  tryAppend_eq_ok : ∀ map name value, (hyper.iter map).length < hyper.maxHeaders →
    ∃ map', hyper.tryAppend map name value = .ok map'
  /-- The value is put behind those that the name has. -/
  iter_tryAppend : ∀ map name value map', hyper.tryAppend map name value = .ok map' →
    Same (hyper.iter map') (hyper.iter map ++ [(name, value)])
  statusFromU16_asU16 : ∀ status, hyper.statusFromU16 (hyper.statusAsU16 status) = some status

/-! ### Messages -/

variable (hyper : Hyper)

/-- `HeaderMap::get_all`. -/
def getAll (map : hyper.HeaderMap) (name : hyper.HeaderName) : List hyper.HeaderValue :=
  values name (hyper.iter map)

/-- `hyper::Request<B>`. -/
structure Request (B : Type) where
  method : hyper.Method
  uri : hyper.Uri
  headers : hyper.HeaderMap
  body : B

/-- `hyper::Response<B>`. -/
structure Response (B : Type) where
  status : hyper.StatusCode
  headers : hyper.HeaderMap
  body : B

/-- The texts of the headers. -/
def headerTexts (map : hyper.HeaderMap) : List (String × Option String) :=
  (hyper.iter map).map fun (name, value) =>
    (hyper.headerNameAsStr name, hyper.headerValueToStr value)

variable {hyper}

/-- What the host reads of a request. -/
def Request.texts (req : Request hyper String) : HyperRequest where
  method := hyper.methodAsStr req.method
  uri := hyper.uriToString req.uri
  headers := hyper.headerTexts req.headers
  body := req.body

/-- What the host reads of a response; its body is missing when receiving it fails. -/
def Response.texts (response : Response hyper (Option (List UInt8))) : HyperResponse where
  status := hyper.statusAsU16 response.status
  headers := hyper.headerTexts response.headers
  body := response.body

end Hyper

end BasicCli
