import BasicCli.RocStr.Basic

/-!
# HTTP messages

The records in which `crates/roc_http` and `crates/roc_host` hand requests and responses to Roc.
-/

namespace BasicCli

/-! ### `hyper` -/

/-- `hyper::Request<String>`: the texts of its method and URI, its headers and its body.  A header
value has a text if `to_str` gives one. -/
structure HyperRequest where
  method : String
  uri : String
  headers : List (String × Option String)
  body : String

/-- `hyper::Response`.  The body is missing when receiving it failed. -/
structure HyperResponse where
  status : UInt16
  headers : List (String × Option String)
  body : Option (List UInt8)

/-! ### Records -/

/-- `Header`. -/
structure Header where
  name : RocStr
  value : RocStr
deriving DecidableEq

/-- `RequestToAndFromHost`. -/
structure RequestToAndFromHost where
  body : List UInt8
  headers : List Header
  method : UInt64
  methodExt : RocStr
  timeoutMs : UInt64
  uri : RocStr
deriving DecidableEq

/-- `ResponseToAndFromHost`. -/
structure ResponseToAndFromHost where
  body : List UInt8
  headers : List Header
  status : UInt16
deriving DecidableEq

namespace RequestToAndFromHost

/-- `is_extension_method`. -/
def isExtensionMethod (rawMethod : UInt64) : Bool := rawMethod = 2

/-- `from_hyper_method`. -/
def fromHyperMethod (method : String) : UInt64 :=
  if method = "CONNECT" then 0
  else if method = "DELETE" then 1
  else if method = "GET" then 3
  else if method = "HEAD" then 4
  else if method = "OPTIONS" then 5
  else if method = "PATCH" then 6
  else if method = "POST" then 7
  else if method = "PUT" then 8
  else if method = "TRACE" then 9
  else 2

/-- `From<hyper::Request<String>>`; `none` is the panic on a header value without a text. -/
def ofHyperRequest (hyperReq : HyperRequest) : Option RequestToAndFromHost := do
  let headers ← hyperReq.headers.mapM fun (key, value) => do
    let value ← value
    pure ⟨.fromStr key, .fromStr value⟩
  let method := fromHyperMethod hyperReq.method
  let methodExt := if isExtensionMethod method then .fromStr hyperReq.method else .empty
  pure {
    body := strBytes hyperReq.body
    headers
    method
    methodExt
    timeoutMs := 0
    uri := .fromStr hyperReq.uri }

end RequestToAndFromHost

namespace ResponseToAndFromHost

/-- `REQUEST_BAD_BODY`. -/
def requestBadBody : List UInt8 := strBytes "Bad Body"

/-- `From<hyper::http::Error>`, with the text of the error. -/
def ofHttpError (err : String) : ResponseToAndFromHost := ⟨strBytes err, [], 500⟩

end ResponseToAndFromHost

/-- The request of `async_send_request` that has got an answer. -/
inductive Sent
  | noConnector
  | response (response : HyperResponse)
  | failed (err : String)

/-- `async_send_request`. -/
def asyncSendRequest : Sent → ResponseToAndFromHost
  | .noConnector => ⟨strBytes "Failed to initialize HTTPS connector with native roots", [], 500⟩
  | .response response =>
    let headers := response.headers.map fun (name, value) =>
      ⟨.fromStr name, .fromStr (value.getD "")⟩
    match response.body with
    | some body => ⟨body, headers, response.status⟩
    | none => ⟨ResponseToAndFromHost.requestBadBody, [], 500⟩
  | .failed err => ⟨strBytes ("ERROR:\n" ++ err), [], 500⟩

end BasicCli
