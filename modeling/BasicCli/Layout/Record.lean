import BasicCli.Layout.Alphabetical

/-!
# Layout of records and unions

Where the fields of a record lie when they are put one after the other, each at the next multiple of
its alignment (`place`).  C puts them in the order of the declaration; Roc puts them in `rocOrder`,
the larger ones first and those of one size in the alphabetical order of their names.  A union has
its payloads at `0`; Roc puts the number of the tag right behind the largest one
(`discriminantOffset`).
-/

namespace BasicCli.Layout

/-! ### Shapes -/

/-- The size and the alignment of a type. -/
structure Shape where
  size : ℕ
  align : ℕ
  align_pos : 0 < align := by decide
deriving DecidableEq

/-- An integer of `n` bytes, which is aligned to its size. -/
def Shape.scalar (n : ℕ) (ne : n ≠ 0 := by decide) : Shape := ⟨n, n, Nat.pos_of_ne_zero ne⟩

/-- The first multiple of the alignment from `n` on. -/
def Shape.alignUp (s : Shape) (n : ℕ) : ℕ := (n + s.align - 1) / s.align * s.align

theorem Shape.le_alignUp (s : Shape) (n : ℕ) : n ≤ s.alignUp n := by
  have hpos := s.align_pos
  have hlt := Nat.lt_div_mul_add (a := n + s.align - 1) hpos
  unfold Shape.alignUp
  omega

theorem Shape.alignUp_zero (s : Shape) : s.alignUp 0 = 0 := by
  have hpos := s.align_pos
  unfold Shape.alignUp
  rw [Nat.div_eq_of_lt (by omega), Nat.zero_mul]

theorem Shape.alignUp_of_align_eq_one {s : Shape} (h : s.align = 1) (n : ℕ) : s.alignUp n = n := by
  unfold Shape.alignUp
  rw [h, Nat.div_one, Nat.mul_one, Nat.add_sub_cancel]

/-- The largest of some sizes. -/
def maxSize (shapes : List Shape) : ℕ := (shapes.map Shape.size).foldr max 0

/-- The largest of some alignments. -/
def maxAlign (shapes : List Shape) : ℕ := (shapes.map Shape.align).foldr max 1

theorem maxAlign_pos (shapes : List Shape) : 0 < maxAlign shapes := by
  unfold maxAlign
  induction shapes with
  | nil => exact Nat.one_pos
  | cons s shapes ih => exact Nat.lt_of_lt_of_le ih (Nat.le_max_right ..)

/-- A type of at least `size` bytes with the largest of some alignments, which its size is a
multiple of. -/
def Shape.padded (size : ℕ) (shapes : List Shape) : Shape :=
  let shape : Shape := ⟨size, maxAlign shapes, maxAlign_pos shapes⟩
  { shape with size := shape.alignUp size }

theorem Shape.le_size_padded (size : ℕ) (shapes : List Shape) :
    size ≤ (Shape.padded size shapes).size :=
  Shape.le_alignUp _ size

/-! ### Records -/

section Record

variable {ι : Type} (name : ι → String) (shape : ι → Shape)

/-- The fields with their offsets when they are put one after the other from `n` on. -/
def place (n : ℕ) : List ι → List (ι × ℕ)
  | [] => []
  | f :: fs =>
    let offset := (shape f).alignUp n
    (f, offset) :: place (offset + (shape f).size) fs

/-- Where the last field ends. -/
def placeEnd (n : ℕ) : List ι → ℕ
  | [] => n
  | f :: fs => placeEnd ((shape f).alignUp n + (shape f).size) fs

/-- The shape of a record whose fields are put in the given order. -/
def recordShape (fields : List ι) : Shape :=
  .padded (placeEnd shape 0 fields) (fields.map shape)

theorem placeEnd_le_size (fields : List ι) :
    placeEnd shape 0 fields ≤ (recordShape shape fields).size :=
  Shape.le_size_padded ..

/-- The offset of the field called `s` when the fields are put one after the other from `n` on. -/
def fieldOffsetFrom (n : ℕ) (fields : List ι) (s : String) : Option ℕ :=
  match fields with
  | [] => none
  | f :: fs =>
    let offset := (shape f).alignUp n
    if name f = s then some offset else fieldOffsetFrom (offset + (shape f).size) fs s

/-- The offset of the field called `s`. -/
def fieldOffset (fields : List ι) (s : String) : Option ℕ := fieldOffsetFrom name shape 0 fields s

/-- The order in which Roc puts the fields of a record: by decreasing size, then alphabetically. -/
def rocOrder (fields : List ι) : List ι :=
  fields.insertionSort fun f g =>
    (shape g).size < (shape f).size ∨ ((shape f).size = (shape g).size ∧ name f ≤ name g)

theorem le_placeEnd (n : ℕ) (fields : List ι) : n ≤ placeEnd shape n fields := by
  induction fields generalizing n with
  | nil => exact Nat.le_refl n
  | cons f fs ih =>
    have hf := (shape f).le_alignUp n
    have hfs := ih ((shape f).alignUp n + (shape f).size)
    rw [placeEnd]
    omega

variable {name shape}

/-- A field lies between the start and the end of the record. -/
theorem le_of_mem_place {n : ℕ} {fields : List ι} {p : ι × ℕ} (h : p ∈ place shape n fields) :
    n ≤ p.2 ∧ p.2 + (shape p.1).size ≤ placeEnd shape n fields := by
  induction fields generalizing n with
  | nil => cases h
  | cons f fs ih =>
    have hf := (shape f).le_alignUp n
    rw [placeEnd]
    rcases List.mem_cons.mp h with rfl | h
    · exact ⟨hf, le_placeEnd shape _ fs⟩
    · obtain ⟨hle, hend⟩ := ih h
      exact ⟨by omega, hend⟩

theorem exists_mem_place (n : ℕ) {fields : List ι} {f : ι} (hf : f ∈ fields) :
    ∃ offset, (f, offset) ∈ place shape n fields := by
  induction fields generalizing n with
  | nil => cases hf
  | cons g fs ih =>
    rcases List.mem_cons.mp hf with rfl | hf
    · exact ⟨_, List.mem_cons_self ..⟩
    · obtain ⟨offset, h⟩ := ih _ hf
      exact ⟨offset, List.mem_cons_of_mem _ h⟩

theorem mem_of_mem_place {n : ℕ} {fields : List ι} {p : ι × ℕ} (h : p ∈ place shape n fields) :
    p.1 ∈ fields := by
  induction fields generalizing n with
  | nil => cases h
  | cons f fs ih =>
    rcases List.mem_cons.mp h with rfl | h
    · exact List.mem_cons_self ..
    · exact List.mem_cons_of_mem _ (ih h)

/-- In a record whose fields have different names, a name has the offset of its field. -/
theorem fieldOffsetFrom_of_mem {n : ℕ} {fields : List ι} (hnd : (fields.map name).Nodup)
    {p : ι × ℕ} (h : p ∈ place shape n fields) :
    fieldOffsetFrom name shape n fields (name p.1) = some p.2 := by
  induction fields generalizing n with
  | nil => cases h
  | cons f fs ih =>
    rw [List.map_cons, List.nodup_cons] at hnd
    unfold fieldOffsetFrom
    rcases List.mem_cons.mp h with rfl | h
    · exact if_pos rfl
    · have hne : name f ≠ name p.1 := by
        intro heq
        rw [heq] at hnd
        exact hnd.1 (List.mem_map_of_mem (mem_of_mem_place h))
      dsimp only
      rw [if_neg hne]
      exact ih hnd.2 h

/-- The offsets depend on the names and the shapes only. -/
theorem fieldOffset_map {κ : Type} (g : κ → ι) (fields : List κ) (s : String) :
    fieldOffset name shape (fields.map g) s =
      fieldOffset (fun k => name (g k)) (fun k => shape (g k)) fields s := by
  unfold fieldOffset
  generalize 0 = n
  induction fields generalizing n with
  | nil => rfl
  | cons f fs ih => rw [List.map_cons, fieldOffsetFrom, ih, fieldOffsetFrom]

end Record

/-! ### Unions -/

/-- The offset of the number of the tag. -/
def discriminantOffset (payloads : List Shape) : ℕ := maxSize payloads

/-- The shape of Roc's union of tags with the given payloads. -/
def rocUnionShape (payloads : List Shape) : Shape :=
  .padded (discriminantOffset payloads + 1) payloads

/-- The shape of C's union of the given members. -/
def unionShape (members : List Shape) : Shape := .padded (maxSize members) members

theorem size_le_unionShape_left (s t : Shape) : s.size ≤ (unionShape [s, t]).size :=
  Nat.le_trans (Nat.le_max_left _ (max t.size 0)) (Shape.le_size_padded ..)

theorem size_le_unionShape_right (s t : Shape) : t.size ≤ (unionShape [s, t]).size := by
  have hle : t.size ≤ max s.size (max t.size 0) := by omega
  exact Nat.le_trans hle (Shape.le_size_padded ..)

end BasicCli.Layout
