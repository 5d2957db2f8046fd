import BasicCli.Text.Split
import BasicCli.Utf8.Equiv.Decode

/-!
# ASCII characters in UTF-8

The byte of an ASCII character is part of no other character, so a text may be split at one before
or after it is encoded (`splitOn_encode`).
-/

namespace BasicCli.Utf8

variable {c d : Char}

theorem encodeChar_ascii (hd : d.toNat < 0x80) : String.utf8EncodeChar d = [.ofNat d.toNat] := by
  rcases utf8EncodeChar_cases d with ⟨-, h⟩ | ⟨h, -⟩ | ⟨h, -⟩ | ⟨h, -⟩
  · exact h
  all_goals omega

/-- Every byte of another character is another byte. -/
theorem ascii_notMem_encodeChar (hd : d.toNat < 0x80) (h : c ≠ d) :
    UInt8.ofNat d.toNat ∉ String.utf8EncodeChar c := by
  have hne : c.toNat ≠ d.toNat := fun heq => h (Char.toNat_inj.mp heq)
  have hbyte (n : ℕ) (hn : n < 0x100) : UInt8.ofNat d.toNat = .ofNat n ↔ d.toNat = n := by
    rw [← UInt8.toNat_inj, UInt8.toNat_ofNat_of_lt' (Nat.lt_trans hd (by decide)),
      UInt8.toNat_ofNat_of_lt' hn]
  rcases utf8EncodeChar_cases c with ⟨hc, h⟩ | ⟨hc, hc', h⟩ | ⟨hc, hc', -, h⟩ | ⟨hc, hc', h⟩
  all_goals
    rw [h]
    simp only [List.mem_cons, List.not_mem_nil, or_false]
  · rw [hbyte _ (by omega)]
    omega
  · rw [hbyte _ (by omega), hbyte _ (by omega)]
    omega
  · rw [hbyte _ (by omega), hbyte _ (by omega), hbyte _ (by omega)]
    omega
  · rw [hbyte _ (by omega), hbyte _ (by omega), hbyte _ (by omega), hbyte _ (by omega)]
    omega

/-- **The pieces of an encoded text** are the encoded pieces of the text. -/
theorem splitOn_encode (hd : d.toNat < 0x80) (cs : List Char) :
    (encode cs).splitOn (.ofNat d.toNat) = (cs.splitOn d).map encode := by
  induction cs with
  | nil => rfl
  | cons c cs ih =>
    rw [encode_cons]
    by_cases h : c = d
    · subst h
      rw [encodeChar_ascii hd, List.singleton_append, List.splitOn_cons_eq_if_modifyHead,
        List.splitOn_cons_eq_if_modifyHead, if_pos (beq_self_eq_true _),
        if_pos (beq_self_eq_true _), ih]
      rfl
    · rw [List.splitOn_cons_eq_if_modifyHead,
        Text.splitOn_append_of_notMem (ascii_notMem_encodeChar hd h), ih, if_neg (by simpa using h)]
      obtain ⟨piece, pieces, hpieces⟩ := List.exists_cons_of_ne_nil (List.splitOn_ne_nil d cs)
      rw [hpieces]
      rfl

theorem Valid.append {bs cs : List UInt8} (hbs : Valid bs) (hcs : Valid cs) : Valid (bs ++ cs) := by
  obtain ⟨bs, rfl⟩ := hbs
  obtain ⟨cs, rfl⟩ := hcs
  exact ⟨bs ++ cs, encode_append bs cs⟩

theorem Valid.of_mem_splitOn {bs piece : List UInt8} (hd : d.toNat < 0x80) (hbs : Valid bs)
    (hpiece : piece ∈ bs.splitOn (.ofNat d.toNat)) : Valid piece := by
  obtain ⟨cs, rfl⟩ := hbs
  rw [splitOn_encode hd] at hpiece
  obtain ⟨piece, -, rfl⟩ := List.mem_map.mp hpiece
  exact valid_encode piece

end BasicCli.Utf8
