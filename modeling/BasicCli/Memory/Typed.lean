import BasicCli.Layout.Record
import BasicCli.Memory.Basic

/-!
# Values in memory

How values are written to memory and found there again.  A `Writer` knows the shape of its type and
changes nothing outside of it; records and unions are written by writing their fields and payloads
at the offsets that `Layout` gives them, and what lies between these is left as it was.

`Writer.At` says that a value has been written at an address.  From a record's there follow those of
its fields (`Writer.At.field`), so that what is read by the same offsets is what has been written
(`Writer.At.readField`, `Writer.At.read_union`).
-/

namespace BasicCli.Memory

open Layout

variable {α β γ τ : Type}

/-! ### Writers -/

/-- How values of a type are written. -/
structure Writer (α : Type) where
  shape : Shape
  write : Mem → ℕ → α → Mem
  frame : ∀ m a v x, x < a ∨ a + shape.size ≤ x → write m a v x = m x

namespace Writer

/-- `v` has been written at `a`, whatever was there before. -/
def At (w : Writer α) (m : Mem) (a : ℕ) (v : α) : Prop :=
  ∃ m₀, ∀ x, a ≤ x → x < a + w.shape.size → m x = w.write m₀ a v x

theorem at_write (w : Writer α) (m : Mem) (a : ℕ) (v : α) : w.At (w.write m a v) a v :=
  ⟨m, fun _ _ _ => rfl⟩

/-- Values that are written as their bytes. -/
def ofBytes (shape : Shape) (toBytes : α → List UInt8)
    (length_toBytes : ∀ v, (toBytes v).length = shape.size) : Writer α where
  shape := shape
  write m a v := m.store a (toBytes v)
  frame m a v x h := by
    rcases h with h | h
    · exact Mem.store_of_lt m _ h
    · exact Mem.store_of_le m (by rwa [length_toBytes])

theorem At.load {shape : Shape} {toBytes : α → List UInt8}
    {length_toBytes : ∀ v, (toBytes v).length = shape.size} {m : Mem} {a : ℕ} {v : α}
    (h : (ofBytes shape toBytes length_toBytes).At m a v) : m.load a shape.size = toBytes v := by
  obtain ⟨m₀, h⟩ := h
  rw [← Mem.load_store_self m₀ a (toBytes v), length_toBytes]
  exact Mem.load_congr fun i hi => h (a + i) (by omega) (Nat.add_lt_add_left hi a)

/-- Values that are written as what `f` makes of them. -/
def comap (f : α → β) (w : Writer β) : Writer α where
  shape := w.shape
  write m a v := w.write m a (f v)
  frame m a v := w.frame m a (f v)

theorem at_comap {f : α → β} {w : Writer β} {m : Mem} {a : ℕ} {v : α} :
    (w.comap f).At m a v ↔ w.At m a (f v) :=
  Iff.rfl

/-! #### Records -/

/-- A field of the record `α`. -/
structure Field (α : Type) where
  name : String
  writer : Writer α

/-- The shape of a field. -/
def Field.shape (f : Field α) : Shape := f.writer.shape

/-- The memory after the fields of `v` have been written to their offsets. -/
def writeFields (v : α) (a : ℕ) (m : Mem) (placed : List (Field α × ℕ)) : Mem :=
  placed.foldl (fun m p => p.1.writer.write m (a + p.2) v) m

theorem writeFields_of_apart {v : α} {a n x : ℕ} {m : Mem} (fields : List (Field α))
    (h : x < a + n ∨ a + placeEnd Field.shape n fields ≤ x) :
    writeFields v a m (place Field.shape n fields) x = m x := by
  induction fields generalizing n m with
  | nil => rfl
  | cons f fs ih =>
    have hle := f.shape.le_alignUp n
    have hend := le_placeEnd Field.shape (f.shape.alignUp n + f.shape.size) fs
    rw [placeEnd] at h
    show writeFields v a (f.writer.write m (a + f.shape.alignUp n) v) (place Field.shape _ fs) x = _
    rw [ih (by omega)]
    refine f.writer.frame _ _ _ _ ?_
    show x < a + f.shape.alignUp n ∨ a + f.shape.alignUp n + f.shape.size ≤ x
    omega

/-- In its place a field is as its writer has left it. -/
theorem exists_writeFields {v : α} {a n : ℕ} (m : Mem) {fields : List (Field α)}
    {p : Field α × ℕ} (h : p ∈ place Field.shape n fields) :
    ∃ m₀, ∀ x, a + p.2 ≤ x → x < a + p.2 + p.1.shape.size →
      writeFields v a m (place Field.shape n fields) x = p.1.writer.write m₀ (a + p.2) v x := by
  induction fields generalizing n m with
  | nil => cases h
  | cons f fs ih =>
    rcases List.mem_cons.mp h with rfl | h
    · refine ⟨m, ?_⟩
      intro x _ hx
      -- The fields behind it do not touch it.
      have hlt : x < a + (f.shape.alignUp n + f.shape.size) := by rwa [← Nat.add_assoc]
      exact writeFields_of_apart fs (.inl hlt)
    · exact ih _ h

/-- Records, whose fields are put in the given order. -/
def record (fields : List (Field α)) : Writer α where
  shape := recordShape Field.shape fields
  write m a v := writeFields v a m (place Field.shape 0 fields)
  frame m a v x h := by
    have hend := placeEnd_le_size Field.shape fields
    refine writeFields_of_apart fields ?_
    omega

theorem At.field {fields : List (Field α)} {m : Mem} {a : ℕ} {v : α}
    (h : (record fields).At m a v) {p : Field α × ℕ} (hp : p ∈ place Field.shape 0 fields) :
    p.1.writer.At m (a + p.2) v := by
  obtain ⟨m₁, h₁⟩ := h
  obtain ⟨m₀, h₀⟩ := exists_writeFields (v := v) (a := a) m₁ hp
  have hend := (le_of_mem_place hp).2
  have hsize := placeEnd_le_size Field.shape fields
  refine ⟨m₀, ?_⟩
  intro x hx hx'
  have hlt : x < a + p.2 + p.1.shape.size := hx'
  rw [← h₀ x hx hlt]
  refine h₁ x (by omega) ?_
  show x < a + (recordShape Field.shape fields).size
  omega

/-! #### Unions -/

/-- C's union of two types. -/
def union (w₁ : Writer α) (w₂ : Writer β) : Writer (α ⊕ β) where
  shape := unionShape [w₁.shape, w₂.shape]
  write m a
    | .inl v => w₁.write m a v
    | .inr v => w₂.write m a v
  frame m a v x h := by
    cases v with
    | inl v =>
      have hle := size_le_unionShape_left w₁.shape w₂.shape
      exact w₁.frame m a v x (by omega)
    | inr v =>
      have hle := size_le_unionShape_right w₁.shape w₂.shape
      exact w₂.frame m a v x (by omega)

theorem At.inl {w₁ : Writer α} {w₂ : Writer β} {m : Mem} {a : ℕ} {v : α}
    (h : (union w₁ w₂).At m a (.inl v)) : w₁.At m a v := by
  obtain ⟨m₀, h⟩ := h
  have hle := size_le_unionShape_left w₁.shape w₂.shape
  exact ⟨m₀, fun x hx hx' => h x hx (Nat.lt_of_lt_of_le hx' (Nat.add_le_add_left hle a))⟩

theorem At.inr {w₁ : Writer α} {w₂ : Writer β} {m : Mem} {a : ℕ} {v : β}
    (h : (union w₁ w₂).At m a (.inr v)) : w₂.At m a v := by
  obtain ⟨m₀, h⟩ := h
  have hle := size_le_unionShape_right w₁.shape w₂.shape
  exact ⟨m₀, fun x hx hx' => h x hx (Nat.lt_of_lt_of_le hx' (Nat.add_le_add_left hle a))⟩

end Writer

/-! ### Readers -/

/-- How values of a type are found. -/
structure Reader (α : Type) where
  shape : Shape
  read : Mem → ℕ → Option α

namespace Reader

/-- What `f` makes of the values found. -/
def map (f : α → β) (r : Reader α) : Reader β where
  shape := r.shape
  read m a := (r.read m a).map f

/-- The value of the empty type's only value. -/
def const (v : α) : Reader α := ⟨⟨0, 1, Nat.one_pos⟩, fun _ _ => some v⟩

/-- The field called `s` of a record whose fields are put in the given order. -/
def readField (fields : List (String × Shape)) (s : String) (r : Reader α) (m : Mem) (a : ℕ) :
    Option α := do
  let offset ← fieldOffset Prod.fst Prod.snd fields s
  r.read m (a + offset)

/-- Roc's union of the given tags: the number of the tag says what is read as its payload. -/
def rocUnion (name : τ → String) (payload : τ → Reader α) (tags : List τ) : Reader α :=
  let payloads := tags.map fun t => (payload t).shape
  { shape := rocUnionShape payloads
    read := fun m a => do
      let t ← tagAt? name tags (m (a + discriminantOffset payloads)).toNat
      (payload t).read m a }

end Reader

/-! ### Both -/

/-- How values of a type are written and found. -/
structure Codec (α : Type) extends Writer α where
  read : Mem → ℕ → Option α
  read_of_at : ∀ {m a v}, toWriter.At m a v → read m a = some v

namespace Codec

/-- How the values are found. -/
def reader (c : Codec α) : Reader α := ⟨c.shape, c.read⟩

theorem read_reader (c : Codec β) {f : α → β} {m : Mem} {a : ℕ} {v : α}
    (h : (c.comap f).At m a v) : c.reader.read m a = some (f v) :=
  c.read_of_at h

/-- Values that are written as their bytes. -/
def ofBytes (shape : Shape) (toBytes : α → List UInt8) (ofBytes : List UInt8 → Option α)
    (length_toBytes : ∀ v, (toBytes v).length = shape.size)
    (ofBytes_toBytes : ∀ v, ofBytes (toBytes v) = some v) : Codec α where
  toWriter := .ofBytes shape toBytes length_toBytes
  read m a := ofBytes (m.load a shape.size)
  read_of_at h := by rw [h.load, ofBytes_toBytes]

/-- `u8`. -/
def u8 : Codec UInt8 :=
  ofBytes ⟨1, 1, by decide⟩ (fun v => [v]) List.head? (fun _ => rfl) fun _ => rfl

/-- `i32`, little-endian. -/
def i32 : Codec Int32 :=
  ofBytes ⟨4, 4, by decide⟩ (fun v => toLeBytes 4 v.toUInt32.toNat)
    (fun bytes => some (UInt32.ofNat (ofLeBytes bytes)).toInt32)
    (fun v => length_toLeBytes 4 v.toUInt32.toNat)
    fun v => by
      rw [ofLeBytes_toLeBytes v.toUInt32.toNat_lt, UInt32.ofNat_toNat, Int32.toInt32_toUInt32]

/-- `u32`, little-endian. -/
def u32 : Codec UInt32 :=
  ofBytes (.scalar 4) (fun v => toLeBytes 4 v.toNat)
    (fun bytes => some (.ofNat (ofLeBytes bytes)))
    (fun v => length_toLeBytes 4 v.toNat)
    fun v => by rw [ofLeBytes_toLeBytes v.toNat_lt, UInt32.ofNat_toNat]

/-- `u64`, little-endian. -/
def u64 : Codec UInt64 :=
  ofBytes (.scalar 8) (fun v => toLeBytes 8 v.toNat)
    (fun bytes => some (.ofNat (ofLeBytes bytes)))
    (fun v => length_toLeBytes 8 v.toNat)
    fun v => by rw [ofLeBytes_toLeBytes v.toNat_lt, UInt64.ofNat_toNat]

/-- `u128`, little-endian. -/
def u128 : Codec (BitVec 128) :=
  ofBytes (.scalar 16) (fun v => toLeBytes 16 v.toNat)
    (fun bytes => some (.ofNat 128 (ofLeBytes bytes)))
    (fun v => length_toLeBytes 16 v.toNat)
    fun v => by rw [ofLeBytes_toLeBytes v.isLt, BitVec.ofNat_toNat, BitVec.setWidth_eq]

/-- `()`, which has no bytes. -/
def unit : Codec Unit :=
  ofBytes ⟨0, 1, by decide⟩ (fun _ => []) (fun _ => some ()) (fun _ => rfl) fun _ => rfl

end Codec

/-! ### What is read is what has been written -/

namespace Writer

variable {m : Mem} {a : ℕ} {v : α} {b : β}

/-- A field is read by its name, wherever it has been declared: only the order in memory counts. -/
theorem At.readField {fields : List (Field α)} (h : (record fields).At m a v)
    (hnd : (fields.map Field.name).Nodup) {decl : List (String × Shape)}
    (hdecl : fields.map (fun f => (f.name, f.shape)) = decl) {f : Field α} (hf : f ∈ fields)
    {r : Reader β} (hread : ∀ a', f.writer.At m a' v → r.read m a' = some b) :
    Reader.readField decl f.name r m a = some b := by
  obtain ⟨offset, hplace⟩ : ∃ offset, (f, offset) ∈ place Field.shape 0 fields :=
    exists_mem_place 0 hf
  have hoffset : fieldOffset Prod.fst Prod.snd decl f.name = some offset := by
    rw [← hdecl, fieldOffset_map]
    exact fieldOffsetFrom_of_mem hnd hplace
  unfold Reader.readField
  rw [hoffset]
  exact hread _ (h.field hplace)

/-- If the discriminant lies where Roc looks for it, it says what the payload is read as. -/
theorem At.rocUnion {payload : Writer α} {discriminant : α → UInt8} {s s' : String}
    (h : (record [⟨s, payload⟩, ⟨s', Codec.u8.comap discriminant⟩]).At m a v)
    (name : τ → String) (payload' : τ → Reader β) (tags : List τ)
    (hoffset : discriminantOffset (tags.map fun t => (payload' t).shape) = payload.shape.size) :
    payload.At m a v ∧ (Reader.rocUnion name payload' tags).read m a =
      (tagAt? name tags (discriminant v).toNat).bind fun t => (payload' t).read m a := by
  have hpayload := h.field (List.mem_cons_self ..)
  have hbyte := h.field (List.mem_cons_of_mem _ (List.mem_cons_self ..))
  rw [Shape.alignUp_zero] at hpayload hbyte
  rw [Nat.zero_add, Shape.alignUp_of_align_eq_one rfl] at hbyte
  have hdiscriminant : m (a + payload.shape.size) = discriminant v :=
    Option.some.inj (Codec.u8.read_reader hbyte)
  refine ⟨hpayload, ?_⟩
  unfold Reader.rocUnion
  dsimp only
  rw [hoffset, hdiscriminant]
  rfl

/-- A payload is read as that of the tag with the number that has been written with it. -/
theorem At.read_rocUnion [DecidableEq τ] {payload : Writer α} {discriminant : α → UInt8}
    {s s' : String} (h : (record [⟨s, payload⟩, ⟨s', Codec.u8.comap discriminant⟩]).At m a v)
    {name : τ → String} {payload' : τ → Reader β} {tags : List τ}
    (hoffset : discriminantOffset (tags.map fun t => (payload' t).shape) = payload.shape.size)
    {t : τ} (ht : t ∈ tags) (hnumber : tagNumber name tags t = (discriminant v).toNat)
    (hread : payload.At m a v → (payload' t).read m a = some b) :
    (Reader.rocUnion name payload' tags).read m a = some b := by
  obtain ⟨hpayload, heq⟩ := h.rocUnion name payload' tags hoffset
  rw [heq, ← hnumber, tagAt?_tagNumber name ht]
  exact hread hpayload

end Writer

end BasicCli.Memory
