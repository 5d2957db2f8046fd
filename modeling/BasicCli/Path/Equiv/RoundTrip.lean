import BasicCli.Path.Basic

/-!
# Paths there and back

On Unix both directions are the identity.  On Windows `os_str_to_roc_path` writes each unit with
its high byte first and `path_from_roc_path` reads it with its low byte first, so a path comes back
with the bytes of every unit exchanged (`pathFromRocPath_osStrToRocPath_windows`); it is the path
that was sent only if no unit notices.
-/

namespace BasicCli

/-! ### Single units -/

/-- The unit with its two bytes exchanged. -/
def swapBytes (c : UInt16) : UInt16 := .ofNat (c.toNat / 256 + 256 * (c.toNat % 256))

theorem toNat_swapBytes (c : UInt16) :
    (swapBytes c).toNat = c.toNat / 256 + 256 * (c.toNat % 256) := by
  have := c.toNat_lt
  exact UInt16.toNat_ofNat_of_lt' (show _ < 65536 by omega)

/-- The low-byte-first reading of what `to_be_bytes` wrote. -/
theorem u16OfLeBytes_beBytes (c : UInt16) :
    u16OfLeBytes (.ofNat (c.toNat / 256)) (.ofNat (c.toNat % 256)) = swapBytes c := by
  have := c.toNat_lt
  unfold u16OfLeBytes swapBytes
  rw [UInt8.toNat_ofNat_of_lt' (show _ < 256 by omega),
    UInt8.toNat_ofNat_of_lt' (show _ < 256 by omega)]

/-- `to_be_bytes` of a unit read low byte first gives the two bytes, exchanged. -/
theorem toBeBytes_u16OfLeBytes (b₀ b₁ : UInt8) : toBeBytes (u16OfLeBytes b₀ b₁) = [b₁, b₀] := by
  have h₀ := b₀.toNat_lt
  have h₁ := b₁.toNat_lt
  have h : (u16OfLeBytes b₀ b₁).toNat = b₀.toNat + 256 * b₁.toNat :=
    UInt16.toNat_ofNat_of_lt' (show _ < 65536 by omega)
  unfold toBeBytes
  rw [h, show (b₀.toNat + 256 * b₁.toNat) / 256 = b₁.toNat by omega,
    show (b₀.toNat + 256 * b₁.toNat) % 256 = b₀.toNat by omega, UInt8.ofNat_toNat,
    UInt8.ofNat_toNat]

/-! ### Windows -/

theorem even_length_flatMap_toBeBytes (units : List UInt16) :
    (units.flatMap toBeBytes).length % 2 = 0 := by
  induction units with
  | nil => rfl
  | cons c units ih => rw [List.flatMap_cons, List.length_append, toBeBytes]; simpa using ih

theorem castToU16_flatMap_toBeBytes (units : List UInt16) :
    castToU16 (units.flatMap toBeBytes) = units.map swapBytes := by
  induction units with
  | nil => rfl
  | cons c units ih =>
    rw [List.flatMap_cons, List.map_cons, ← ih, ← u16OfLeBytes_beBytes]
    rfl

/-- A Windows path comes back with the bytes of every unit exchanged. -/
theorem pathFromRocPath_osStrToRocPath_windows (units : OsStr .windows) :
    pathFromRocPath .windows (osStrToRocPath .windows units) =
      some (List.map swapBytes (units : List UInt16)) := by
  show (if (units.flatMap toBeBytes).length % 2 = 0 then
    some (castToU16 (units.flatMap toBeBytes)) else none) = _
  rw [if_pos (even_length_flatMap_toBeBytes units), castToU16_flatMap_toBeBytes]

/-- The bytes of every pair exchanged; an odd last byte is dropped. -/
def swapPairs : List UInt8 → List UInt8
  | b₀ :: b₁ :: rest => b₁ :: b₀ :: swapPairs rest
  | _ => []

theorem flatMap_toBeBytes_castToU16 (bytes : List UInt8) :
    (castToU16 bytes).flatMap toBeBytes = swapPairs bytes := by
  induction bytes using castToU16.induct with
  | case1 b₀ b₁ rest ih =>
    rw [castToU16, List.flatMap_cons, ih, toBeBytes_u16OfLeBytes]
    rfl
  | case2 bytes h =>
    match bytes, h with
    | [], _ => rfl
    | [_], _ => rfl
    | b₀ :: b₁ :: rest, h => exact absurd rfl (h b₀ b₁ rest)

/-! ### When a path survives -/

/-- The two bytes of every unit are equal; Unix paths have no units. -/
def OsStr.ByteSymmetric : (t : TargetFamily) → OsStr t → Prop
  | .unix, _ => True
  | .windows, units => ∀ c ∈ (units : List UInt16), c.toNat / 256 = c.toNat % 256

/-- The two bytes of every pair are equal. -/
def PairsEqual : List UInt8 → Prop
  | b₀ :: b₁ :: rest => b₀ = b₁ ∧ PairsEqual rest
  | _ => True

/-- The bytes that `path_from_roc_path` takes without panicking. -/
def Accepted : TargetFamily → List UInt8 → Prop
  | .unix, _ => True
  | .windows, bytes => bytes.length % 2 = 0

theorem swapBytes_eq_self_iff (c : UInt16) :
    swapBytes c = c ↔ c.toNat / 256 = c.toNat % 256 := by
  have := c.toNat_lt
  rw [← UInt16.toNat_inj, toNat_swapBytes]
  omega

theorem map_swapBytes_eq_self_iff (units : List UInt16) :
    units.map swapBytes = units ↔ ∀ c ∈ units, c.toNat / 256 = c.toNat % 256 := by
  induction units with
  | nil => simp
  | cons c units ih =>
    rw [List.map_cons, List.cons_eq_cons, ih, swapBytes_eq_self_iff, List.forall_mem_cons]

theorem swapPairs_eq_self_iff (bytes : List UInt8) :
    swapPairs bytes = bytes ↔ bytes.length % 2 = 0 ∧ PairsEqual bytes := by
  induction bytes using swapPairs.induct with
  | case1 b₀ b₁ rest ih =>
    simp only [swapPairs, PairsEqual, List.cons.injEq, ih, List.length_cons]
    constructor
    · rintro ⟨rfl, -, h, hp⟩
      exact ⟨by omega, rfl, hp⟩
    · rintro ⟨h, rfl, hp⟩
      exact ⟨rfl, rfl, by omega, hp⟩
  | case2 bytes h =>
    match bytes, h with
    | [], _ => simp [swapPairs, PairsEqual]
    | [_], _ => simp [swapPairs]
    | b₀ :: b₁ :: rest, h => exact absurd rfl (h b₀ b₁ rest)

/-- A path that the host hands to Roc means the same path when it comes back exactly if it is
byte-symmetric. -/
theorem pathFromRocPath_osStrToRocPath_iff (t : TargetFamily) (p : OsStr t) :
    pathFromRocPath t (osStrToRocPath t p) = some p ↔ OsStr.ByteSymmetric t p := by
  cases t with
  | unix => simp [pathFromRocPath, osStrToRocPath, OsStr.ByteSymmetric]
  | windows =>
    rw [pathFromRocPath_osStrToRocPath_windows, Option.some_inj]
    exact map_swapBytes_eq_self_iff p

/-- Accepted bytes are given back exactly if their pairs are equal, on Windows. -/
theorem osStrToRocPath_of_pathFromRocPath_iff (t : TargetFamily) (bytes : List UInt8) :
    (∀ p, pathFromRocPath t bytes = some p → osStrToRocPath t p = bytes) ↔
      (t = .windows → Accepted t bytes → PairsEqual bytes) := by
  cases t with
  | unix => simp [pathFromRocPath, osStrToRocPath]
  | windows =>
    by_cases h : bytes.length % 2 = 0
    · have hp : pathFromRocPath .windows bytes = some (castToU16 bytes) := by
        rw [pathFromRocPath, if_pos h]
      simp only [hp, Option.some_inj, forall_eq', osStrToRocPath, flatMap_toBeBytes_castToU16,
        swapPairs_eq_self_iff, Accepted, h, true_and, true_imp_iff]
    · have hp : pathFromRocPath .windows bytes = none := by rw [pathFromRocPath, if_neg h]
      simp [hp, Accepted, h]

/-! ### The paths the host hands out -/

/-- What the operating system answers a function of the host that hands paths to Roc. -/
inductive PathSource (t : TargetFamily)
  | dirList (readDir : List (Except IoError (OsStr t)))
  | cwd (currentDir : Except IoError (OsStr t))
  | exePath (currentExe : Except IoError (OsStr t))

/-- The paths the operating system named. -/
def PathSource.paths {t : TargetFamily} : PathSource t → List (OsStr t)
  | dirList readDir => readDir.filterMap Except.toOption
  | cwd p | exePath p => p.toOption.toList

/-- The byte lists that Roc got for them. -/
def PathSource.handed {t : TargetFamily} : PathSource t → List (List UInt8)
  | dirList readDir =>
    (BasicCli.dirList (fun e => e.message) id true (.ok readDir)).toOption.getD []
  | cwd currentDir => if currentDir.isOk then [BasicCli.cwd currentDir] else []
  | exePath currentExe => (BasicCli.exePath currentExe).toOption.toList

theorem PathSource.handed_eq {t : TargetFamily} (src : PathSource t) :
    src.handed = src.paths.map (osStrToRocPath t) := by
  cases src with
  | dirList readDir => rfl
  | cwd p => cases p <;> rfl
  | exePath p => cases p <;> rfl

/-- **When paths survive the crossing**: a path comes back as itself exactly if it is
byte-symmetric, so the paths handed out by one of the host's functions all denote the files they
did exactly if all of them are; and accepted bytes are written as themselves exactly if, on
Windows, their pairs are equal. -/
theorem roundTrip_iff (t : TargetFamily) (p : OsStr t) (bytes : List UInt8) (src : PathSource t) :
    (pathFromRocPath t (osStrToRocPath t p) = some p ↔ OsStr.ByteSymmetric t p) ∧
    (src.handed.map (pathFromRocPath t) = src.paths.map some ↔
      ∀ q ∈ src.paths, OsStr.ByteSymmetric t q) ∧
    ((∀ q, pathFromRocPath t bytes = some q → osStrToRocPath t q = bytes) ↔
      (t = .windows → Accepted t bytes → PairsEqual bytes)) := by
  refine ⟨pathFromRocPath_osStrToRocPath_iff t p, ?_, osStrToRocPath_of_pathFromRocPath_iff t bytes⟩
  rw [src.handed_eq, List.map_map, List.map_inj_left]
  exact forall₂_congr fun q _ => pathFromRocPath_osStrToRocPath_iff t q

/-- On Windows `C:` comes back as `䌀㨀`. -/
theorem not_roundTrip_windows :
    ¬ ∀ (t : TargetFamily) (p : OsStr t), pathFromRocPath t (osStrToRocPath t p) = some p := by
  intro h
  have := (pathFromRocPath_osStrToRocPath_iff .windows [0x43, 0x3A]).mp (h .windows _) 0x43
    (List.mem_cons_self ..)
  exact absurd this (by decide)

end BasicCli
