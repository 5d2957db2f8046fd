import BasicCli.Http.Convert

/-!
# `roc_fx_send_request`

The function of `crates/roc_host` that sends a request of Roc.  What comes of a request, and whether
a time limit elapses before, is up to the network.  `none` is a panic.
-/

namespace BasicCli

open Hyper

namespace RequestToAndFromHost

/-- `REQUEST_TIMEOUT_BODY`. -/
def requestTimeoutBody : List UInt8 := strBytes "RequestTimeout"

/-- `has_timeout`. -/
def hasTimeout (self : RequestToAndFromHost) : Option UInt64 :=
  if self.timeoutMs > 0 then some self.timeoutMs else none

end RequestToAndFromHost

/-- What the network makes of a request. -/
structure Network (hyper : Hyper) where
  /-- what has come of it in the end -/
  sent : Request hyper (List UInt8) → Sent
  /-- whether a limit of so many milliseconds elapses before -/
  elapses : Request hyper (List UInt8) → UInt64 → Bool

/-- The answer to a request that has taken too long. -/
def timeoutResponse : ResponseToAndFromHost :=
  ⟨RequestToAndFromHost.requestTimeoutBody, [], 408⟩

/-- `roc_fx_send_request`, with `to_string` of an error. -/
def rocFxSendRequest {hyper : Hyper} (errorToString : hyper.Error → String)
    (network : Network hyper) (rocRequest : RequestToAndFromHost) :
    Option ResponseToAndFromHost := do
  match ← rocRequest.toHyperRequest hyper with
  | .error err => pure (.ofHttpError (errorToString err))
  | .ok request =>
    match rocRequest.hasTimeout with
    | some timeLimit =>
      pure (if network.elapses request timeLimit then timeoutResponse
        else asyncSendRequest (network.sent request))
    | none => pure (asyncSendRequest (network.sent request))

end BasicCli
