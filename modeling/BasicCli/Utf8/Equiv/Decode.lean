import BasicCli.Utf8.Basic
import Mathlib.Data.Char
import Mathlib.Data.Option.Basic
import Mathlib.Data.List.ReduceOption

/-!
# Correctness of `decode`

`decode` undoes `encode` (`decode_encode`), and what it decodes without an invalid run it encodes
back to the same bytes (`encode_of_decode`), so the invalid runs appear exactly in the bytes that
are no text (`none_mem_decode_iff`).  The strict and the lossy reading follow.
-/

namespace BasicCli.Utf8

/-! ### One character -/

/-- The bytes of a character, by the size of its code point. -/
theorem utf8EncodeChar_cases (c : Char) :
    (c.toNat < 0x80 ∧ String.utf8EncodeChar c = [.ofNat c.toNat]) ∨
    (0x80 ≤ c.toNat ∧ c.toNat < 0x800 ∧
      String.utf8EncodeChar c = [.ofNat (0xC0 + c.toNat / 64), .ofNat (0x80 + c.toNat % 64)]) ∨
    (0x800 ≤ c.toNat ∧ c.toNat < 0x10000 ∧ (c.toNat < 0xD800 ∨ 0xDFFF < c.toNat) ∧
      String.utf8EncodeChar c = [.ofNat (0xE0 + c.toNat / 4096),
        .ofNat (0x80 + c.toNat / 64 % 64), .ofNat (0x80 + c.toNat % 64)]) ∨
    (0x10000 ≤ c.toNat ∧ c.toNat < 0x110000 ∧
      String.utf8EncodeChar c = [.ofNat (0xF0 + c.toNat / 262144),
        .ofNat (0x80 + c.toNat / 4096 % 64), .ofNat (0x80 + c.toNat / 64 % 64),
        .ofNat (0x80 + c.toNat % 64)]) := by
  have hv : c.toNat < 0xD800 ∨ 0xDFFF < c.toNat ∧ c.toNat < 0x110000 := c.valid
  have hval : c.val.toNat = c.toNat := rfl
  unfold String.utf8EncodeChar
  simp only [hval]
  by_cases h₁ : c.toNat ≤ 0x7F
  · exact .inl ⟨by omega, by rw [if_pos h₁]⟩
  by_cases h₂ : c.toNat ≤ 0x7FF
  · refine .inr (.inl ⟨by omega, by omega, ?_⟩)
    rw [if_neg h₁, if_pos h₂, Nat.mod_eq_of_lt (show c.toNat / 64 < 32 by omega), Nat.add_comm,
      Nat.add_comm (_ % 64)]
  by_cases h₃ : c.toNat ≤ 0xFFFF
  · refine .inr (.inr (.inl ⟨by omega, by omega, by omega, ?_⟩))
    rw [if_neg h₁, if_neg h₂, if_pos h₃, Nat.mod_eq_of_lt (show c.toNat / 4096 < 16 by omega),
      Nat.add_comm, Nat.add_comm (_ % 64), Nat.add_comm (_ % 64)]
  · refine .inr (.inr (.inr ⟨by omega, by omega, ?_⟩))
    rw [if_neg h₁, if_neg h₂, if_neg h₃, Nat.mod_eq_of_lt (show c.toNat / 262144 < 8 by omega),
      Nat.add_comm, Nat.add_comm (_ % 64), Nat.add_comm (_ % 64), Nat.add_comm (_ % 64)]

theorem lead?_one {b : ℕ} (h : b < 0x80) : lead? b = some ⟨0, 0x80, 0xBF, b⟩ := by
  rw [lead?, if_pos h]

theorem lead?_two {b : ℕ} (h : 0xC2 ≤ b) (h' : b < 0xE0) :
    lead? b = some ⟨1, 0x80, 0xBF, b - 0xC0⟩ := by
  rw [lead?, if_neg (by omega), if_neg (by omega), if_pos h']

theorem lead?_three {b : ℕ} (h : 0xE0 ≤ b) (h' : b < 0xF0) :
    lead? b = some ⟨2, if b = 0xE0 then 0xA0 else 0x80, if b = 0xED then 0x9F else 0xBF,
      b - 0xE0⟩ := by
  rw [lead?, if_neg (by omega), if_neg (by omega), if_neg (by omega), if_pos h']

theorem lead?_four {b : ℕ} (h : 0xF0 ≤ b) (h' : b < 0xF5) :
    lead? b = some ⟨3, if b = 0xF0 then 0x90 else 0x80, if b = 0xF4 then 0x8F else 0xBF,
      b - 0xF0⟩ := by
  rw [lead?, if_neg (by omega), if_neg (by omega), if_neg (by omega), if_neg (by omega), if_pos h']

/-- A lead byte is followed by as many continuation bytes as it says. -/
theorem first_of_lead {b : UInt8} {l : Lead} (h : lead? b.toNat = some l) (bs : List UInt8) :
    first b bs = ((readConts l.conts l.lo l.hi l.bits bs).1.map Char.ofNat,
      (readConts l.conts l.lo l.hi l.bits bs).2) := by
  rw [first, h]

/-- A continuation byte with the bits `x`. -/
theorem readConts_cons {n lo hi acc x : ℕ} {bs : List UInt8} (hx : x < 64) (hlo : lo ≤ 0x80 + x)
    (hhi : 0x80 + x ≤ hi) :
    readConts (n + 1) lo hi acc (.ofNat (0x80 + x) :: bs) =
      ((readConts n 0x80 0xBF (acc * 64 + x) bs).1,
        (readConts n 0x80 0xBF (acc * 64 + x) bs).2 + 1) := by
  have hb : (UInt8.ofNat (0x80 + x)).toNat = 0x80 + x :=
    UInt8.toNat_ofNat_of_lt' (show _ < 256 by omega)
  rw [readConts, hb, if_pos ⟨hlo, hhi⟩, show (0x80 + x) % 64 = x by omega]

/-- The first character of the code of a character, whatever comes behind it. -/
theorem first_encodeChar (c : Char) (bs : List UInt8) :
    ∃ b tl, String.utf8EncodeChar c = b :: tl ∧ first b (tl ++ bs) = (some c, tl.length) := by
  have hx : ∀ x : ℕ, x % 64 < 64 := fun x => Nat.mod_lt _ (by decide)
  -- By the number of bytes: one, two, three, four.
  rcases utf8EncodeChar_cases c with ⟨h, henc⟩ | ⟨h, h', henc⟩ | ⟨h, h', hs, henc⟩ | ⟨h, h', henc⟩
  · refine ⟨_, _, henc, ?_⟩
    have hb : (UInt8.ofNat c.toNat).toNat = c.toNat :=
      UInt8.toNat_ofNat_of_lt' (show _ < 256 by omega)
    rw [first_of_lead (lead?_one (by omega)), hb]
    simp [readConts]
  · refine ⟨_, _, henc, ?_⟩
    have hb : (UInt8.ofNat (0xC0 + c.toNat / 64)).toNat = 0xC0 + c.toNat / 64 :=
      UInt8.toNat_ofNat_of_lt' (show _ < 256 by omega)
    rw [first_of_lead (lead?_two (by omega) (by omega)), hb]
    simp only [List.cons_append, List.nil_append]
    rw [readConts_cons (hx _) (by omega) (by omega)]
    simp only [readConts]
    rw [show (0xC0 + c.toNat / 64 - 0xC0) * 64 + c.toNat % 64 = c.toNat by omega]
    simp
  · refine ⟨_, _, henc, ?_⟩
    have hb : (UInt8.ofNat (0xE0 + c.toNat / 4096)).toNat = 0xE0 + c.toNat / 4096 :=
      UInt8.toNat_ofNat_of_lt' (show _ < 256 by omega)
    rw [first_of_lead (lead?_three (by omega) (by omega)), hb]
    simp only [List.cons_append, List.nil_append]
    rw [readConts_cons (hx _) (by split_ifs <;> omega) (by split_ifs <;> omega),
      readConts_cons (hx _) (by omega) (by omega)]
    simp only [readConts]
    rw [show ((0xE0 + c.toNat / 4096 - 0xE0) * 64 + c.toNat / 64 % 64) * 64 + c.toNat % 64 =
      c.toNat by omega]
    simp
  · refine ⟨_, _, henc, ?_⟩
    have hb : (UInt8.ofNat (0xF0 + c.toNat / 262144)).toNat = 0xF0 + c.toNat / 262144 :=
      UInt8.toNat_ofNat_of_lt' (show _ < 256 by omega)
    rw [first_of_lead (lead?_four (by omega) (by omega)), hb]
    simp only [List.cons_append, List.nil_append]
    rw [readConts_cons (hx _) (by split_ifs <;> omega) (by split_ifs <;> omega),
      readConts_cons (hx _) (by omega) (by omega), readConts_cons (hx _) (by omega) (by omega)]
    simp only [readConts]
    rw [show (((0xF0 + c.toNat / 262144 - 0xF0) * 64 + c.toNat / 4096 % 64) * 64 +
      c.toNat / 64 % 64) * 64 + c.toNat % 64 = c.toNat by omega]
    simp

/-- The lead bytes, by the number of bytes behind them. -/
theorem lead?_eq_some {b : ℕ} {l : Lead} (h : lead? b = some l) :
    (b < 0x80 ∧ l = ⟨0, 0x80, 0xBF, b⟩) ∨
    (0xC2 ≤ b ∧ b < 0xE0 ∧ l = ⟨1, 0x80, 0xBF, b - 0xC0⟩) ∨
    (0xE0 ≤ b ∧ b < 0xF0 ∧ l = ⟨2, if b = 0xE0 then 0xA0 else 0x80,
      if b = 0xED then 0x9F else 0xBF, b - 0xE0⟩) ∨
    (0xF0 ≤ b ∧ b < 0xF5 ∧ l = ⟨3, if b = 0xF0 then 0x90 else 0x80,
      if b = 0xF4 then 0x8F else 0xBF, b - 0xF0⟩) := by
  by_cases h₁ : b < 0x80
  · exact .inl ⟨h₁, Option.some.inj (h.symm.trans (lead?_one h₁))⟩
  by_cases h₂ : b < 0xC2
  · rw [lead?, if_neg h₁, if_pos h₂] at h
    cases h
  by_cases h₃ : b < 0xE0
  · exact .inr (.inl ⟨by omega, h₃, Option.some.inj (h.symm.trans (lead?_two (by omega) h₃))⟩)
  by_cases h₄ : b < 0xF0
  · exact .inr (.inr (.inl ⟨by omega, h₄,
      Option.some.inj (h.symm.trans (lead?_three (by omega) h₄))⟩))
  by_cases h₅ : b < 0xF5
  · exact .inr (.inr (.inr ⟨by omega, h₅,
      Option.some.inj (h.symm.trans (lead?_four (by omega) h₅))⟩))
  · rw [lead?, if_neg h₁, if_neg h₂, if_neg h₃, if_neg h₄, if_neg h₅] at h
    cases h

/-- One continuation byte of a sequence that is whole. -/
theorem readConts_succ_eq_some {n lo hi acc v k : ℕ} {bs : List UInt8}
    (h : readConts (n + 1) lo hi acc bs = (some v, k)) :
    ∃ b bs' k', bs = b :: bs' ∧ k = k' + 1 ∧ lo ≤ b.toNat ∧ b.toNat ≤ hi ∧
      readConts n 0x80 0xBF (acc * 64 + b.toNat % 64) bs' = (some v, k') := by
  cases bs with
  | nil => cases h
  | cons b bs' =>
    rw [readConts] at h
    by_cases hb : lo ≤ b.toNat ∧ b.toNat ≤ hi
    · rw [if_pos hb] at h
      obtain ⟨h₁, h₂⟩ := Prod.ext_iff.mp h
      exact ⟨b, bs', _, rfl, h₂.symm, hb.1, hb.2, Prod.ext h₁ rfl⟩
    · rw [if_neg hb] at h
      cases h

/-- A code point that is one is the code point of its character. -/
theorem toNat_charOfNat {n : ℕ} (h : n < 0xD800 ∨ 0xDFFF < n ∧ n < 0x110000) :
    (Char.ofNat n).toNat = n := by
  rw [Char.ofNat, dif_pos h]
  rfl

theorem ofNat_eq_of_toNat_eq {n : ℕ} {b : UInt8} (h : n = b.toNat) : UInt8.ofNat n = b := by
  rw [h, UInt8.ofNat_toNat]

theorem lead_of_first {b : UInt8} {bs : List UInt8} {c : Char} {k : ℕ}
    (h : first b bs = (some c, k)) : ∃ l v, lead? b.toNat = some l ∧
      readConts l.conts l.lo l.hi l.bits bs = (some v, k) ∧ c = Char.ofNat v := by
  cases hl : lead? b.toNat with
  | none =>
    rw [first, hl] at h
    cases h
  | some l =>
    rw [first_of_lead hl] at h
    obtain ⟨h₁, h₂⟩ := Prod.ext_iff.mp h
    obtain ⟨v, hv, rfl⟩ := Option.map_eq_some_iff.mp h₁
    exact ⟨l, v, rfl, Prod.ext hv h₂, rfl⟩

/-! The bytes of the character with a given code point, by its size. -/

theorem encodeChar_one {v : ℕ} (h : v < 0x80) :
    String.utf8EncodeChar (Char.ofNat v) = [.ofNat v] := by
  have hcases := utf8EncodeChar_cases (Char.ofNat v)
  rw [toNat_charOfNat (by omega)] at hcases
  rcases hcases with ⟨-, henc⟩ | ⟨h', -⟩ | ⟨h', -⟩ | ⟨h', -⟩
  · exact henc
  all_goals omega

theorem encodeChar_two {v : ℕ} (h : 0x80 ≤ v) (h' : v < 0x800) :
    String.utf8EncodeChar (Char.ofNat v) = [.ofNat (0xC0 + v / 64), .ofNat (0x80 + v % 64)] := by
  have hcases := utf8EncodeChar_cases (Char.ofNat v)
  rw [toNat_charOfNat (by omega)] at hcases
  rcases hcases with ⟨hlt, -⟩ | ⟨-, -, henc⟩ | ⟨hle, -⟩ | ⟨hle, -⟩
  · omega
  · exact henc
  all_goals omega

theorem encodeChar_three {v : ℕ} (h : 0x800 ≤ v) (h' : v < 0x10000)
    (hs : v < 0xD800 ∨ 0xDFFF < v) :
    String.utf8EncodeChar (Char.ofNat v) = [.ofNat (0xE0 + v / 4096),
      .ofNat (0x80 + v / 64 % 64), .ofNat (0x80 + v % 64)] := by
  have hcases := utf8EncodeChar_cases (Char.ofNat v)
  rw [toNat_charOfNat (by omega)] at hcases
  rcases hcases with ⟨hlt, -⟩ | ⟨-, hlt, -⟩ | ⟨-, -, -, henc⟩ | ⟨hle, -⟩
  · omega
  · omega
  · exact henc
  · omega

theorem encodeChar_four {v : ℕ} (h : 0x10000 ≤ v) (h' : v < 0x110000) :
    String.utf8EncodeChar (Char.ofNat v) = [.ofNat (0xF0 + v / 262144),
      .ofNat (0x80 + v / 4096 % 64), .ofNat (0x80 + v / 64 % 64), .ofNat (0x80 + v % 64)] := by
  have hcases := utf8EncodeChar_cases (Char.ofNat v)
  rw [toNat_charOfNat (by omega)] at hcases
  rcases hcases with ⟨hlt, -⟩ | ⟨-, hlt, -⟩ | ⟨-, hlt, -⟩ | ⟨-, -, henc⟩
  · omega
  · omega
  · omega
  · exact henc

/-- A character that is read has the bytes that are taken for it as its code. -/
theorem encodeChar_of_first {b : UInt8} {bs : List UInt8} {c : Char} {k : ℕ}
    (h : first b bs = (some c, k)) : String.utf8EncodeChar c = b :: bs.take k := by
  obtain ⟨l, v, hl, hv, rfl⟩ := lead_of_first h
  rcases lead?_eq_some hl with ⟨hb, rfl⟩ | ⟨hb, hb', rfl⟩ | ⟨hb, hb', rfl⟩ | ⟨hb, hb', rfl⟩
  · obtain ⟨rfl, rfl⟩ : b.toNat = v ∧ 0 = k := by simpa [readConts] using hv
    rw [encodeChar_one hb, UInt8.ofNat_toNat, List.take_zero]
  · obtain ⟨b₁, bs, k, rfl, rfl, h₁, h₁', hv⟩ := readConts_succ_eq_some hv
    obtain ⟨hv, rfl⟩ : (b.toNat - 0xC0) * 64 + b₁.toNat % 64 = v ∧ 0 = k := by
      simpa only [readConts, Prod.mk.injEq, Option.some.injEq] using hv
    dsimp only at h₁ h₁'
    rw [encodeChar_two (by omega) (by omega), ofNat_eq_of_toNat_eq (b := b) (by omega),
      ofNat_eq_of_toNat_eq (b := b₁) (by omega)]
    rfl
  · obtain ⟨b₁, bs, k, rfl, rfl, h₁, h₁', hv⟩ := readConts_succ_eq_some hv
    obtain ⟨b₂, bs, k, rfl, rfl, h₂, h₂', hv⟩ := readConts_succ_eq_some hv
    obtain ⟨hv, rfl⟩ :
        ((b.toNat - 0xE0) * 64 + b₁.toNat % 64) * 64 + b₂.toNat % 64 = v ∧ 0 = k := by
      simpa only [readConts, Prod.mk.injEq, Option.some.injEq] using hv
    -- The range of the first continuation byte keeps overlong forms and surrogates out.
    have hr : 0x80 ≤ b₁.toNat ∧ b₁.toNat ≤ 0xBF ∧ (b.toNat = 0xE0 → 0xA0 ≤ b₁.toNat) ∧
        (b.toNat = 0xED → b₁.toNat ≤ 0x9F) := by
      dsimp only at h₁ h₁'
      split_ifs at h₁ h₁' <;> omega
    rw [encodeChar_three (by omega) (by omega) (by omega),
      ofNat_eq_of_toNat_eq (b := b) (by omega), ofNat_eq_of_toNat_eq (b := b₁) (by omega),
      ofNat_eq_of_toNat_eq (b := b₂) (by omega)]
    rfl
  · obtain ⟨b₁, bs, k, rfl, rfl, h₁, h₁', hv⟩ := readConts_succ_eq_some hv
    obtain ⟨b₂, bs, k, rfl, rfl, h₂, h₂', hv⟩ := readConts_succ_eq_some hv
    obtain ⟨b₃, bs, k, rfl, rfl, h₃, h₃', hv⟩ := readConts_succ_eq_some hv
    obtain ⟨hv, rfl⟩ : (((b.toNat - 0xF0) * 64 + b₁.toNat % 64) * 64 + b₂.toNat % 64) * 64 +
        b₃.toNat % 64 = v ∧ 0 = k := by
      simpa only [readConts, Prod.mk.injEq, Option.some.injEq] using hv
    -- The same for the overlong forms here and for what is beyond the last code point.
    have hr : 0x80 ≤ b₁.toNat ∧ b₁.toNat ≤ 0xBF ∧ (b.toNat = 0xF0 → 0x90 ≤ b₁.toNat) ∧
        (b.toNat = 0xF4 → b₁.toNat ≤ 0x8F) := by
      dsimp only at h₁ h₁'
      split_ifs at h₁ h₁' <;> omega
    rw [encodeChar_four (by omega) (by omega), ofNat_eq_of_toNat_eq (b := b) (by omega),
      ofNat_eq_of_toNat_eq (b := b₁) (by omega), ofNat_eq_of_toNat_eq (b := b₂) (by omega),
      ofNat_eq_of_toNat_eq (b := b₃) (by omega)]
    rfl

/-! ### Texts -/

/-- To skip bytes is to decode what is behind them. -/
theorem decodeFrom_eq (n : ℕ) (bs : List UInt8) : decodeFrom n bs = decode (bs.drop n) := by
  induction bs generalizing n with
  | nil => cases n <;> rfl
  | cons b bs ih =>
    cases n with
    | zero => rfl
    | succ n => exact ih n

/-- One character, and the rest of the bytes. -/
theorem decode_cons (b : UInt8) (bs : List UInt8) :
    decode (b :: bs) = (first b bs).1 :: decode (bs.drop (first b bs).2) := by
  rw [decode, decodeFrom, decodeFrom_eq]

theorem encode_cons (c : Char) (cs : List Char) :
    encode (c :: cs) = String.utf8EncodeChar c ++ encode cs := rfl

theorem encode_append (cs ds : List Char) : encode (cs ++ ds) = encode cs ++ encode ds :=
  List.flatMap_append

/-- **Decoding undoes encoding.** -/
theorem decode_encode (cs : List Char) : decode (encode cs) = cs.map some := by
  induction cs with
  | nil => rfl
  | cons c cs ih =>
    obtain ⟨b, tl, henc, hfirst⟩ := first_encodeChar c (encode cs)
    rw [encode_cons, henc, List.cons_append, decode_cons, hfirst, List.drop_left, ih,
      List.map_cons]

/-- **Encoding undoes decoding**, when there are no invalid runs. -/
theorem encode_of_decode {bs : List UInt8} {cs : List Char} (h : decode bs = cs.map some) :
    encode cs = bs := by
  induction cs generalizing bs with
  | nil =>
    cases bs with
    | nil => rfl
    | cons b bs => rw [decode_cons] at h; cases h
  | cons c cs ih =>
    cases bs with
    | nil => cases h
    | cons b bs =>
      rw [decode_cons, List.map_cons, List.cons.injEq] at h
      rw [encode_cons, ih h.2, encodeChar_of_first (Prod.ext h.1 rfl), List.cons_append,
        List.take_append_drop]

/-- Texts are told by their bytes. -/
theorem encode_injective : Function.Injective encode := by
  intro cs ds h
  have h' := congrArg decode h
  rw [decode_encode, decode_encode] at h'
  exact List.map_injective_iff.mpr (Option.some_injective _) h'

theorem valid_encode (cs : List Char) : Valid (encode cs) := ⟨cs, rfl⟩

theorem map_some_reduceOption {α : Type} {l : List (Option α)} (h : none ∉ l) :
    l.reduceOption.map some = l := by
  induction l with
  | nil => rfl
  | cons a l ih =>
    rw [List.mem_cons, not_or] at h
    cases a with
    | none => exact absurd rfl h.1
    | some a => rw [List.reduceOption_cons_of_some, List.map_cons, ih h.2]

/-- The invalid runs appear exactly in the bytes of no text. -/
theorem none_mem_decode_iff (bs : List UInt8) : none ∈ decode bs ↔ ¬ Valid bs := by
  constructor
  · rintro h ⟨cs, rfl⟩
    rw [decode_encode] at h
    obtain ⟨c, -, hc⟩ := List.mem_map.mp h
    cases hc
  · intro h
    by_contra hn
    exact h ⟨(decode bs).reduceOption, encode_of_decode (map_some_reduceOption hn).symm⟩

/-- **The lossy reading of a text** is the text. -/
theorem fromUtf8Lossy_encode (cs : List Char) : fromUtf8Lossy (encode cs) = .ofList cs := by
  rw [fromUtf8Lossy, decode_encode, lossy, List.map_map]
  congr 1
  exact List.map_id cs

/-- What is no character becomes U+FFFD. -/
theorem mem_lossy {cs : List (Option Char)} (h : none ∈ cs) : '\uFFFD' ∈ (lossy cs).toList := by
  rw [lossy, String.toList_ofList]
  exact List.mem_map.mpr ⟨none, h, rfl⟩

/-- **The lossy reading of anything else** has a replacement character. -/
theorem mem_fromUtf8Lossy {bs : List UInt8} (h : ¬ Valid bs) :
    '\uFFFD' ∈ (fromUtf8Lossy bs).toList :=
  mem_lossy ((none_mem_decode_iff bs).mpr h)

/-- Valid UTF-8 is decoded, and nothing of it is replaced. -/
theorem fromUtf8?_of_valid {bs : List UInt8} (h : Valid bs) :
    fromUtf8? bs = some (fromUtf8Lossy bs) := by
  rw [fromUtf8?, strict?, if_neg fun hn => (none_mem_decode_iff bs).mp hn h, fromUtf8Lossy]

theorem fromUtf8?_of_not_valid {bs : List UInt8} (h : ¬ Valid bs) : fromUtf8? bs = none := by
  rw [fromUtf8?, strict?, if_pos ((none_mem_decode_iff bs).mpr h)]

theorem fromUtf8?_encode (cs : List Char) : fromUtf8? (encode cs) = some (.ofList cs) := by
  rw [fromUtf8?_of_valid (valid_encode cs), fromUtf8Lossy_encode]

end BasicCli.Utf8
