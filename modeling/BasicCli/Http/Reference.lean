import BasicCli.Http.Equiv.Headers

/-!
# A small `hyper`

Texts for methods, URIs and headers, and a list for the map of headers.  It shows that the laws can
be met, and is small enough to run.
-/

namespace BasicCli

namespace Hyper

/-- A text of some of the ASCII characters, not empty. -/
structure RefText (p : List UInt8) where
  bytes : List UInt8
  ne_nil : bytes ≠ []
  all : bytes.all p.contains
deriving DecidableEq

namespace RefText

variable {p : List UInt8}

def tryFrom (p bytes : List UInt8) : Except Unit (RefText p) :=
  if h : bytes ≠ [] ∧ bytes.all p.contains then .ok ⟨bytes, h.1, h.2⟩ else .error ()

def asStr (text : RefText p) : String := .ofList (text.bytes.map fun b => .ofNat b.toNat)

theorem mem (text : RefText p) {b : UInt8} (h : b ∈ text.bytes) : b ∈ p :=
  List.contains_iff_mem.mp (List.all_eq_true.mp text.all b h)

theorem strBytes_asStr (hp : p.all fun b => b.toNat < 0x80) (text : RefText p) :
    strBytes text.asStr = text.bytes :=
  strBytes_ascii fun b hb => of_decide_eq_true (List.all_eq_true.mp hp b (text.mem hb))

theorem tryFrom_bytes (text : RefText p) : tryFrom p text.bytes = .ok text :=
  dif_pos ⟨text.ne_nil, text.all⟩

theorem tryFrom_asStr (hp : p.all fun b => b.toNat < 0x80) (text : RefText p) :
    tryFrom p (strBytes text.asStr) = .ok text := by
  rw [strBytes_asStr hp, tryFrom_bytes]

theorem bytes_of_tryFrom {bytes : List UInt8} {text : RefText p} (h : tryFrom p bytes = .ok text) :
    text.bytes = bytes := by
  rw [tryFrom] at h
  split_ifs at h
  cases h
  rfl

end RefText

/-- The characters of header names. -/
def nameBytes : List UInt8 := strBytes "!#$%&'*+-.^_`|~0123456789abcdefghijklmnopqrstuvwxyz"

/-- The characters of methods. -/
def methodBytes : List UInt8 := nameBytes ++ strBytes "ABCDEFGHIJKLMNOPQRSTUVWXYZ"

/-- The characters of URIs. -/
def uriBytes : List UInt8 := methodBytes ++ strBytes "():;<>@[]/?=,"

/-- The bytes of header values. -/
def isValueByte (b : UInt8) : Bool := 32 ≤ b && b != 127 || b = 9

abbrev RefValue := { bytes : List UInt8 // bytes.all isValueByte }

def refValueFrom (bytes : List UInt8) : Except Unit RefValue :=
  if h : bytes.all isValueByte then .ok ⟨bytes, h⟩ else .error ()

def refNameFrom (bytes : List UInt8) : Except Unit (RefText nameBytes) :=
  RefText.tryFrom nameBytes (bytes.map toAsciiLowercase)

abbrev RefMap := List (RefText nameBytes × RefValue)

def refAppend (map : RefMap) (name : RefText nameBytes) (value : RefValue) : Except Unit RefMap :=
  if map.length < 24576 then .ok (map ++ [(name, value)]) else .error ()

abbrev RefStatus := { status : UInt16 // 100 ≤ status ∧ status ≤ 999 }

/-- `StatusCode::OK`. -/
def refStatusOk : RefStatus := ⟨200, by decide⟩

def refStatusFrom (status : UInt16) : Option RefStatus :=
  if h : 100 ≤ status ∧ status ≤ 999 then some ⟨status, h⟩ else none

/-- The method of a constant. -/
def refMethod (m : StandardMethod) : RefText methodBytes :=
  ⟨strBytes m.text, by cases m <;> decide, by cases m <;> decide⟩

def refToStr (value : RefValue) : Option String :=
  if value.val.all isVisible then some (.ofList (value.val.map fun b => .ofNat b.toNat)) else none

/-- A builder is what it has so far, or its first error. -/
abbrev RefBuilder (P : Type) := Except Unit (P × RefMap)

def refHeader {P : Type} (builder : RefBuilder P) (key : Except Unit (RefText nameBytes))
    (value : Except Unit RefValue) : RefBuilder P :=
  match builder, key, value with
  | .ok (parts, map), .ok name, .ok value =>
    (refAppend map name value).map fun map => (parts, map)
  | _, _, _ => .error ()

/-- The URI `/`. -/
def refUriDefault : RefText uriBytes := ⟨strBytes "/", by decide, by decide⟩

def reference : Hyper where
  Error := Unit
  Method := RefText methodBytes
  method := refMethod
  methodFromBytes := RefText.tryFrom methodBytes
  methodAsStr := RefText.asStr
  Uri := RefText uriBytes
  uriDefault := refUriDefault
  uriTryFrom := RefText.tryFrom uriBytes
  uriToString := RefText.asStr
  HeaderName := RefText nameBytes
  headerNameTryFrom := refNameFrom
  headerNameAsStr := RefText.asStr
  HeaderValue := RefValue
  headerValueTryFrom := refValueFrom
  headerValueFromBytes := refValueFrom
  headerValueAsBytes := Subtype.val
  headerValueToStr := refToStr
  HeaderMap := RefMap
  headerMapNew := []
  tryAppend := refAppend
  iter := id
  maxHeaders := 24576
  StatusCode := RefStatus
  statusDefault := refStatusOk
  statusFromU16 := refStatusFrom
  statusAsU16 := Subtype.val
  RequestBuilder := RefBuilder (RefText methodBytes × RefText uriBytes)
  requestBuilder := .ok ((refMethod .get, refUriDefault), [])
  builderMethod builder method := builder.map fun head => ((method, head.1.2), head.2)
  builderUri builder uri := builder.bind fun head =>
    (RefText.tryFrom uriBytes uri).map fun uri => ((head.1.1, uri), head.2)
  builderHeader builder key value := refHeader builder (refNameFrom key) (refValueFrom value)
  builderBody := id
  ResponseBuilder := RefBuilder RefStatus
  responseBuilder := .ok (refStatusOk, [])
  responseStatus builder status := builder.map fun head => (status, head.2)
  responseHeader builder key value := refHeader builder (refNameFrom key) (refValueFrom value)
  responseBody := id

theorem map_toAsciiLowercase (name : RefText nameBytes) :
    name.bytes.map toAsciiLowercase = name.bytes := by
  have hlower : nameBytes.all fun b => toAsciiLowercase b = b := by decide
  refine (List.map_congr_left fun b hb => ?_).trans (List.map_id _)
  exact of_decide_eq_true (List.all_eq_true.mp hlower b (name.mem hb))

theorem refValueFrom_eq_ok {bytes : List UInt8} (h : bytes.all isValueByte) :
    refValueFrom bytes = .ok ⟨bytes, h⟩ := dif_pos h

theorem isValueByte_of_visible {bytes : List UInt8} (h : bytes.all isVisible) :
    bytes.all isValueByte := by
  rw [List.all_eq_true] at h ⊢
  intro b hb
  have hb := h b hb
  rw [isVisible] at hb
  rw [isValueByte]
  grind

theorem refToStr_eq_some_iff (value : RefValue) (s : String) :
    refToStr value = some s ↔ value.val.all isVisible ∧ strBytes s = value.val := by
  rw [refToStr]
  split_ifs with h
  · have hascii : ∀ b ∈ value.val, b.toNat < 0x80 := fun b hb =>
      lt_of_isVisible (List.all_eq_true.mp h b hb)
    rw [Option.some.injEq, and_iff_right h]
    constructor
    · rintro rfl
      exact strBytes_ascii hascii
    · -- A text is told by its bytes.
      intro hs
      exact String.ext_iff.mpr (Utf8.encode_injective ((strBytes_ascii hascii).trans hs.symm))
  · exact iff_of_false (fun hnone => by cases hnone) fun hvisible => h hvisible.1

theorem refNameFrom_asStr (name : RefText nameBytes) :
    refNameFrom (strBytes name.asStr) = .ok name := by
  rw [refNameFrom, RefText.strBytes_asStr (by decide), map_toAsciiLowercase,
    RefText.tryFrom_bytes]

/-- The name `Content-Type`. -/
def refContentType : RefText nameBytes := ⟨strBytes "content-type", by decide, by decide⟩

theorem refNameFrom_contentType :
    refNameFrom (strBytes "Content-Type") = .ok refContentType := by
  have hlower : (strBytes "Content-Type").map toAsciiLowercase = strBytes "content-type" := by
    decide
  rw [refNameFrom, hlower]
  exact refContentType.tryFrom_bytes

theorem strBytes_asStr_of_refNameFrom {bytes : List UInt8} {name : RefText nameBytes}
    (h : refNameFrom bytes = .ok name) : strBytes name.asStr = bytes.map toAsciiLowercase := by
  rw [RefText.strBytes_asStr (by decide), RefText.bytes_of_tryFrom h]

theorem same_of_refAppend {map map' : RefMap} {name : RefText nameBytes} {value : RefValue}
    (h : refAppend map name value = .ok map') : Multimap.Same map' (map ++ [(name, value)]) := by
  rw [refAppend] at h
  split_ifs at h
  cases h
  exact .refl _

/-- The header of the reference is appended as the crates document it. -/
theorem refHeader_eq {P : Type} (builder : RefBuilder P) (key : Except Unit (RefText nameBytes))
    (value : Except Unit RefValue) :
    refHeader builder key value = @Head.header reference P builder key value := by
  cases builder with
  | error err => rfl
  | ok head =>
    cases key with
    | error err => rfl
    | ok name => cases value <;> rfl

theorem reference_laws : reference.Laws where
  readsVisible := refToStr_eq_some_iff
  builderBody_new := rfl
  builderBody_method _ _ := rfl
  builderBody_uri _ _ := rfl
  builderBody_header _ _ _ := refHeader_eq _ _ _
  responseBody_new := rfl
  responseBody_status _ _ := rfl
  responseBody_header _ _ _ := refHeader_eq _ _ _
  methodFromBytes_asStr := RefText.tryFrom_asStr (by decide)
  methodAsStr_method m := by cases m <;> decide
  uriTryFrom_toString := RefText.tryFrom_asStr (by decide)
  headerNameTryFrom_asStr := refNameFrom_asStr
  headerNameAsStr_tryFrom _ _ := strBytes_asStr_of_refNameFrom
  contentType := ⟨_, refNameFrom_contentType⟩
  headerValueAsBytes_injective := Subtype.val_injective
  headerValueFromBytes_asBytes value := refValueFrom_eq_ok value.property
  headerValueTryFrom_visible bytes h :=
    ⟨⟨bytes, isValueByte_of_visible h⟩, refValueFrom_eq_ok _, rfl⟩
  iter_new := rfl
  tryAppend_eq_ok _ _ _ h := ⟨_, if_pos h⟩
  iter_tryAppend _ _ _ _ := same_of_refAppend
  statusFromU16_asU16 status := dif_pos status.property

/-- A `GET` with a header that has two values and no content type. -/
def refRequest : Request reference String where
  method := refMethod .get
  uri := ⟨strBytes "/", by decide, by decide⟩
  headers :=
    [(⟨strBytes "accept", by decide, by decide⟩, ⟨strBytes "text/html", by decide⟩),
      (⟨strBytes "accept", by decide, by decide⟩, ⟨strBytes "*/*", by decide⟩),
      (⟨strBytes "x-id", by decide, by decide⟩, ⟨strBytes "7", by decide⟩)]
  body := "hi"

end Hyper

end BasicCli
