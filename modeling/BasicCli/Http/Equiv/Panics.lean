import BasicCli.Http.Reference
import BasicCli.Http.Send

/-!
# Panics of the conversions

`to_hyper_request` has an error to answer with, and answers with it for each field but the method:
an extension that is no method makes it panic (`asHyperMethod_eq_none_iff`).  So does a header value
that is not visible ASCII in `From<hyper::Request<String>>` (`ofRequest_isSome_iff`), where
`async_send_request` takes the same value for empty.
-/

namespace BasicCli

open Hyper

theorem isSome_mapM_iff {α β : Type} {f : α → Option β} {l : List α} :
    (l.mapM f).isSome ↔ ∀ a ∈ l, (f a).isSome := by
  induction l with
  | nil => exact iff_of_true rfl fun _ ha => by cases ha
  | cons a l ih =>
    rw [List.mapM_cons, List.forall_mem_cons, ← ih]
    cases f a with
    | none => exact iff_of_false (by simp) fun h => by cases h.1
    | some b => cases l.mapM f <;> simp

theorem isVisible_iff {b : UInt8} : isVisible b = true ↔ 32 ≤ b ∧ b < 127 ∨ b = 9 := by
  simp [isVisible]

namespace RequestToAndFromHost

variable {hyper : Hyper} {req : RequestToAndFromHost}

/-! ### From Roc -/

/-- **`as_hyper_method` panics** on a number that is none of a method, and on an extension that is
no method. -/
theorem asHyperMethod_eq_none_iff :
    req.asHyperMethod hyper = none ↔ 9 < req.method ∨
      req.method = 2 ∧ ∀ method, hyper.methodFromBytes req.methodExt.bytes ≠ .ok method := by
  have hnine : (9 : UInt64).toNat = 9 := rfl
  have htwo : (2 : UInt64).toNat = 2 := rfl
  rw [asHyperMethod, UInt64.lt_iff_toNat_lt, ← UInt64.toNat_inj, hnine, htwo]
  split
  -- `2` is the number of an extension.
  case h_3 h =>
    cases hyper.methodFromBytes req.methodExt.bytes with
    | error err => exact iff_of_true rfl (.inr ⟨h, fun _ hok => by cases hok⟩)
    | ok method =>
      refine iff_of_false (fun hnone => by cases hnone) ?_
      rintro (hlt | ⟨-, hne⟩)
      · omega
      · exact hne method rfl
  case h_11 => exact iff_of_true rfl (.inl (by grind))
  -- Every other number has its method.
  all_goals
    refine iff_of_false (fun hnone => by cases hnone) ?_
    rintro (hlt | ⟨heq, -⟩) <;> omega

/-- **`to_hyper_request` panics** only where it asks for the method: whatever else does not parse is
an error of the builder. -/
theorem isSome_toHyperRequest :
    (req.toHyperRequest hyper).isSome = (req.asHyperMethod hyper).isSome := by
  rw [toHyperRequest]
  cases req.asHyperMethod hyper <;> rfl

section

variable (errorToString : hyper.Error → String) (network : Network hyper)

theorem isSome_rocFxSendRequest :
    (rocFxSendRequest errorToString network req).isSome = (req.toHyperRequest hyper).isSome := by
  rw [rocFxSendRequest]
  cases req.toHyperRequest hyper with
  | none => rfl
  | some result =>
    cases result with
    | error err => rfl
    | ok request => cases req.hasTimeout <;> rfl

/-- **An error is answered with.** -/
theorem rocFxSendRequest_error {err : hyper.Error}
    (h : req.toHyperRequest hyper = some (.error err)) :
    rocFxSendRequest errorToString network req =
      some (.ofHttpError (errorToString err)) := by
  rw [rocFxSendRequest, h]
  rfl

end

variable (hyper req) in
/-- The conversion of a request of Roc ends, well or in an error, and so does sending it, which
answers with the error. -/
structure Converts : Prop where
  toHyperRequest : (req.toHyperRequest hyper).isSome
  rocFxSendRequest : ∀ (errorToString : hyper.Error → String) (network : Network hyper),
    (rocFxSendRequest errorToString network req).isSome
  error : ∀ (errorToString : hyper.Error → String) (network : Network hyper) (err : hyper.Error),
    req.toHyperRequest hyper = some (.error err) →
      BasicCli.rocFxSendRequest errorToString network req =
        some (.ofHttpError (errorToString err))

theorem converts_iff (hmethod : req.method ≤ 9) :
    req.Converts hyper ↔
      (req.method = 2 → ∃ method, hyper.methodFromBytes req.methodExt.bytes = .ok method) := by
  have hreturns : (req.toHyperRequest hyper).isSome ↔
      (req.method = 2 → ∃ method, hyper.methodFromBytes req.methodExt.bytes = .ok method) := by
    rw [isSome_toHyperRequest, Option.isSome_iff_ne_none, ne_eq, asHyperMethod_eq_none_iff]
    push Not
    exact and_iff_right (UInt64.not_lt.mpr hmethod)
  rw [← hreturns]
  constructor
  · intro h
    exact h.toHyperRequest
  · intro h
    refine ⟨h, fun errorToString network => ?_, fun errorToString network err => ?_⟩
    · rw [isSome_rocFxSendRequest]
      exact h
    · exact rocFxSendRequest_error errorToString network

/-! ### To Roc -/

/-- **`From<hyper::Request<String>>` panics** on a header value that is not visible ASCII. -/
theorem ofRequest_isSome_iff (hreads : hyper.ReadsVisible) {hyperReq : Request hyper String} :
    (ofRequest hyperReq).isSome ↔ ∀ e ∈ hyper.iter hyperReq.headers,
      ∀ b ∈ hyper.headerValueAsBytes e.2, 32 ≤ b ∧ b < 127 ∨ b = 9 := by
  rw [ofRequest, ofHyperRequest]
  -- The request panics iff one of its headers does.
  show (Option.bind (List.mapM (m := Option) _ (hyper.headerTexts hyperReq.headers)) _).isSome ↔ _
  rw [Option.isSome_bind]
  show Option.any (fun _ => true) _ = true ↔ _
  rw [Option.any_true, isSome_mapM_iff, headerTexts, List.forall_mem_map]
  refine forall₂_congr fun e _ => ?_
  show ((hyper.headerValueToStr e.2).bind _).isSome ↔ _
  rw [Option.isSome_bind]
  show Option.any (fun _ => true) _ = true ↔ _
  rw [Option.any_true, hreads.isSome_iff, List.all_eq_true]
  exact forall₂_congr fun b _ => isVisible_iff

end RequestToAndFromHost

/-! ### Every conversion -/

/-- **The conversions panic** on an extension that is no method, on a header value that is not
visible ASCII, and on nothing else. -/
theorem conversions_return_iff (hyper : Hyper) (hreads : hyper.ReadsVisible) :
    (∀ req : RequestToAndFromHost, req.method ≤ 9 →
      (req.Converts hyper ↔
        (req.method = 2 → ∃ method, hyper.methodFromBytes req.methodExt.bytes = .ok method))) ∧
    ∀ hyperReq : Request hyper String,
      (RequestToAndFromHost.ofRequest hyperReq).isSome ↔ ∀ e ∈ hyper.iter hyperReq.headers,
        ∀ b ∈ hyper.headerValueAsBytes e.2, 32 ≤ b ∧ b < 127 ∨ b = 9 :=
  ⟨fun _ hmethod => RequestToAndFromHost.converts_iff hmethod,
    fun _ => RequestToAndFromHost.ofRequest_isSome_iff hreads⟩

/-- A request with the method `A B`, which is none. -/
def refSpaceMethod : RequestToAndFromHost where
  body := []
  headers := []
  method := 2
  methodExt := .fromStr "A B"
  timeoutMs := 0
  uri := .fromStr "/"

/-- A `GET` with the header `x-author: é` in Latin-1. -/
def refLatin1 : Request reference String where
  method := refMethod .get
  uri := reference.uriDefault
  headers := [(⟨strBytes "x-author", by decide, by decide⟩, ⟨[0xE9], by decide⟩)]
  body := ""

theorem conversions_return_iff_space :
    (refSpaceMethod.Converts reference ↔
      (refSpaceMethod.method = 2 →
        ∃ method, reference.methodFromBytes refSpaceMethod.methodExt.bytes = .ok method)) ∧
    ((RequestToAndFromHost.ofRequest refLatin1).isSome ↔ ∀ e ∈ reference.iter refLatin1.headers,
      ∀ b ∈ reference.headerValueAsBytes e.2, 32 ≤ b ∧ b < 127 ∨ b = 9) := by
  obtain ⟨hfrom, hto⟩ := conversions_return_iff reference reference_laws.readsVisible
  exact ⟨hfrom refSpaceMethod (by decide), hto refLatin1⟩

theorem not_conversions_return :
    refSpaceMethod.method ≤ 9 ∧ ¬ refSpaceMethod.Converts reference ∧
      ¬ (RequestToAndFromHost.ofRequest refLatin1).isSome := by
  refine ⟨by decide, fun h => ?_, by decide⟩
  exact absurd h.toHyperRequest (by decide)

end BasicCli
