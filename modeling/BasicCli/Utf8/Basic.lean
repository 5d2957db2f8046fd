import Mathlib.Data.List.Basic

/-!
# Decoding UTF-8

`decode` splits any bytes into the characters that UTF-8 finds in them and the invalid runs
between these.  The strict reading `fromUtf8?` refuses bytes with an invalid run, and the lossy one,
`fromUtf8Lossy`, puts `U+FFFD` in the place of each.

A run ends before the first byte that cannot continue it, so that byte is looked at again: what is
replaced is always a maximal part of a character.
-/

namespace BasicCli.Utf8

/-- The bytes of a text. -/
def encode (cs : List Char) : List UInt8 := cs.flatMap String.utf8EncodeChar

/-- The bytes are those of some text. -/
def Valid (bs : List UInt8) : Prop := ∃ cs, encode cs = bs

/-- What the first byte of a character says: its number of continuation bytes, the range of the
first of these, and the leading bits of the code point. -/
structure Lead where
  conts : ℕ
  lo : ℕ
  hi : ℕ
  bits : ℕ

/-- The reading of a first byte.  The ranges leave out overlong forms (`E0`, `F0`), surrogates
(`ED`) and what is beyond the last code point (`F4`). -/
def lead? (b : ℕ) : Option Lead :=
  if b < 0x80 then some ⟨0, 0x80, 0xBF, b⟩
  else if b < 0xC2 then none
  else if b < 0xE0 then some ⟨1, 0x80, 0xBF, b - 0xC0⟩
  else if b < 0xF0 then
    some ⟨2, if b = 0xE0 then 0xA0 else 0x80, if b = 0xED then 0x9F else 0xBF, b - 0xE0⟩
  else if b < 0xF5 then
    some ⟨3, if b = 0xF0 then 0x90 else 0x80, if b = 0xF4 then 0x8F else 0xBF, b - 0xF0⟩
  else none

/-- Read `n` continuation bytes, the first of them between `lo` and `hi`, after the bits `acc`: the
code point, unless a byte is missing or out of range, and the number of bytes read. -/
def readConts : (n lo hi acc : ℕ) → List UInt8 → Option ℕ × ℕ
  | 0, _, _, acc, _ => (some acc, 0)
  | _ + 1, _, _, _, [] => (none, 0)
  | n + 1, lo, hi, acc, b :: bs =>
    if lo ≤ b.toNat ∧ b.toNat ≤ hi then
      let r := readConts n 0x80 0xBF (acc * 64 + b.toNat % 64) bs
      (r.1, r.2 + 1)
    else (none, 0)

/-- The character that begins with `b`, `none` if there is an invalid run, and the number of bytes
after `b` that belong to it. -/
def first (b : UInt8) (bs : List UInt8) : Option Char × ℕ :=
  match lead? b.toNat with
  | some l =>
    let r := readConts l.conts l.lo l.hi l.bits bs
    (r.1.map Char.ofNat, r.2)
  | none => (none, 0)

/-- `decode` behind the next `skip` bytes. -/
def decodeFrom : (skip : ℕ) → List UInt8 → List (Option Char)
  | _, [] => []
  | skip + 1, _ :: bs => decodeFrom skip bs
  | 0, b :: bs => (first b bs).1 :: decodeFrom (first b bs).2 bs

/-- The characters of `bs`, with `none` for each invalid run. -/
def decode (bs : List UInt8) : List (Option Char) := decodeFrom 0 bs

/-- The text of what was decoded, with `U+FFFD` for the invalid runs. -/
def lossy (cs : List (Option Char)) : String := .ofList (cs.map fun c => c.getD '\uFFFD')

/-- The text of what was decoded, if there are no invalid runs. -/
def strict? (cs : List (Option Char)) : Option String :=
  if none ∈ cs then none else some (lossy cs)

/-- `String::from_utf8_lossy`. -/
def fromUtf8Lossy (bs : List UInt8) : String := lossy (decode bs)

/-- `String::from_utf8`. -/
def fromUtf8? (bs : List UInt8) : Option String := strict? (decode bs)

end BasicCli.Utf8
