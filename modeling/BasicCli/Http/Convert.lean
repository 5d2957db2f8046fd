import BasicCli.Http.Hyper

/-!
# Conversions of HTTP messages

The functions of `crates/roc_http` between its records and the messages of `hyper`.  `none` is a
panic.
-/

namespace BasicCli

open Hyper

/-- `str::eq_ignore_ascii_case`. -/
def eqIgnoreAsciiCase (a b : List UInt8) : Bool := a.map toAsciiLowercase = b.map toAsciiLowercase

namespace RequestToAndFromHost

section

variable {hyper : Hyper}

/-- `From<hyper::Request<String>>`. -/
def ofRequest (hyperReq : Request hyper String) : Option RequestToAndFromHost :=
  ofHyperRequest hyperReq.texts

end

variable (hyper : Hyper)

/-- `as_hyper_method`. -/
def asHyperMethod (self : RequestToAndFromHost) : Option hyper.Method :=
  match self.method.toNat with
  | 0 => some (hyper.method .connect)
  | 1 => some (hyper.method .delete)
  | 2 => (hyper.methodFromBytes self.methodExt.bytes).toOption
  | 3 => some (hyper.method .get)
  | 4 => some (hyper.method .head)
  | 5 => some (hyper.method .options)
  | 6 => some (hyper.method .patch)
  | 7 => some (hyper.method .post)
  | 8 => some (hyper.method .put)
  | 9 => some (hyper.method .trace)
  | _ => none

/-- The loop of `to_hyper_request` over the headers, from a builder and whether there has been a
content type. -/
def addHeaders (reqBuilder : hyper.RequestBuilder) (hasContentTypeHeader : Bool)
    (headers : List Header) : hyper.RequestBuilder × Bool :=
  headers.foldl
    (fun (reqBuilder, hasContentTypeHeader) header =>
      (hyper.builderHeader reqBuilder header.name.bytes header.value.bytes,
        if eqIgnoreAsciiCase header.name.bytes (strBytes "Content-Type") then true
        else hasContentTypeHeader))
    (reqBuilder, hasContentTypeHeader)

/-- `to_hyper_request`. -/
def toHyperRequest (self : RequestToAndFromHost) :
    Option (Except hyper.Error (Request hyper (List UInt8))) := do
  let method ← self.asHyperMethod hyper
  let reqBuilder :=
    hyper.builderUri (hyper.builderMethod hyper.requestBuilder method) self.uri.bytes
  let (reqBuilder, hasContentTypeHeader) := addHeaders hyper reqBuilder false self.headers
  let reqBuilder :=
    if hasContentTypeHeader then reqBuilder
    else hyper.builderHeader reqBuilder (strBytes "Content-Type") (strBytes "text/plain")
  pure ((hyper.builderBody reqBuilder).map fun ((method, uri), headers) =>
    { method, uri, headers, body := self.body })

end RequestToAndFromHost

namespace ResponseToAndFromHost

/-- `From<ResponseToAndFromHost> for hyper::Response`. -/
def toHyperResponse (hyper : Hyper) (rocResponse : ResponseToAndFromHost) :
    Option (Response hyper (List UInt8)) := do
  let status ← hyper.statusFromU16 rocResponse.status
  let builder := rocResponse.headers.foldl
    (fun builder header => hyper.responseHeader builder header.name.bytes header.value.bytes)
    (hyper.responseStatus hyper.responseBuilder status)
  ((hyper.responseBody builder).map fun (status, headers) =>
    { status, headers, body := rocResponse.body }).toOption

end ResponseToAndFromHost

end BasicCli
