import Mathlib.Data.List.Basic

/-!
# Percent-encoding of query text

`urlencoding::encode` keeps the ASCII letters, digits and `-._~` of the text's
UTF-8 and writes every other byte as `%` and two upper-case hex digits.
Percent-decoding gives the bytes back (`percentDecode_encode`), and the
encoded text holds only those characters and `%` (`encode_encodedChar`), so no
`&`, `=`, `#` or `?`.
-/

namespace OpenMusicPlayer

/-! ## `urlencoding` -/

/-- The bytes `append_string` copies: `0-9`, `A-Z`, `a-z`, `-`, `.`, `_` and `~`. -/
def isUnreserved (b : UInt8) : Bool :=
  (48 ≤ b.toNat && b.toNat ≤ 57) || (65 ≤ b.toNat && b.toNat ≤ 90) ||
    (97 ≤ b.toNat && b.toNat ≤ 122) || b.toNat == 45 || b.toNat == 46 || b.toNat == 95 ||
    b.toNat == 126

def toHexDigit (digit : Nat) : Char := Char.ofNat (if digit ≤ 9 then 48 + digit else 65 - 10 + digit)

def isEncodedChar (c : Char) : Bool :=
  c.isAlphanum || c == '-' || c == '.' || c == '_' || c == '~' || c == '%'

def encodeByte (b : UInt8) : List Char :=
  if isUnreserved b then [Char.ofNat b.toNat]
  else ['%', toHexDigit (b.toNat / 16), toHexDigit (b.toNat % 16)]

def encodeBinary (data : List UInt8) : String := ⟨data.flatMap encodeByte⟩

/-- `urlencoding::encode`, over `data.as_bytes()`. -/
def encode (data : String) : String := encodeBinary data.toUTF8.data.toList

/-! ## Decoding -/

def hexValue (c : Char) : Option Nat :=
  if '0' ≤ c ∧ c ≤ '9' then some (c.toNat - 48)
  else if 'A' ≤ c ∧ c ≤ 'F' then some (c.toNat - 55)
  else if 'a' ≤ c ∧ c ≤ 'f' then some (c.toNat - 87)
  else none

/-- Percent-decoding of a query value: `%` and two hex digits stand for one
byte, every other character for its UTF-8 bytes. -/
def percentDecode : List Char → List UInt8
  | [] => []
  | c :: rest =>
    if c = '%' then
      match _hr : rest with
      | h :: l :: rest' =>
        match hexValue h, hexValue l with
        | some a, some b => UInt8.ofNat (16 * a + b) :: percentDecode rest'
        | _, _ => 37 :: percentDecode rest
      | _ => 37 :: percentDecode rest
    else String.utf8EncodeChar c ++ percentDecode rest
termination_by s => s.length

theorem percentDecode_of_ne {c : Char} (h : c ≠ '%') (rest : List Char) :
    percentDecode (c :: rest) = String.utf8EncodeChar c ++ percentDecode rest := by
  match rest with
  | _ :: _ :: _ => rw [percentDecode.eq_2, if_neg h]
  | [] | [_] => rw [percentDecode.eq_3 _ _ (by simp), if_neg h]

theorem percentDecode_escape {h l : Char} {a b : Nat} (ha : hexValue h = some a)
    (hb : hexValue l = some b) (rest : List Char) :
    percentDecode ('%' :: h :: l :: rest) = UInt8.ofNat (16 * a + b) :: percentDecode rest := by
  rw [percentDecode.eq_2, if_pos rfl, ha, hb]

/-! ## Single bytes -/

theorem hexValue_toHexDigit : ∀ n < 16, hexValue (toHexDigit n) = some n := by decide

theorem toHexDigit_encodedChar : ∀ n < 16, isEncodedChar (toHexDigit n) = true := by decide

theorem unreserved_encodedChar :
    ∀ n < 128, isUnreserved (UInt8.ofNat n) = true → isEncodedChar (Char.ofNat n) = true := by
  decide

theorem ascii_ofNat : ∀ n < 128, (Char.ofNat n).toNat = n ∧
    String.utf8EncodeChar (Char.ofNat n) = [UInt8.ofNat n] := by decide

theorem UInt8.ofNat_toNat (b : UInt8) : UInt8.ofNat b.toNat = b :=
  UInt8.toNat.inj (UInt8.toNat_ofNat_of_lt b.toNat_lt_size)

theorem isUnreserved_bounds {b : UInt8} (h : isUnreserved b = true) :
    b.toNat < 128 ∧ b.toNat ≠ 37 := by
  simp only [isUnreserved, Bool.or_eq_true, Bool.and_eq_true, decide_eq_true_eq, beq_iff_eq] at h
  omega

theorem percentDecode_encodeByte (b : UInt8) (rest : List Char) :
    percentDecode (encodeByte b ++ rest) = b :: percentDecode rest := by
  have hb : b.toNat < 256 := b.toNat_lt_size
  unfold encodeByte
  split
  · next hu =>
    obtain ⟨h128, h37⟩ := isUnreserved_bounds hu
    obtain ⟨hnat, hutf⟩ := ascii_ofNat b.toNat h128
    have hne : Char.ofNat b.toNat ≠ '%' := fun h => h37 (by rw [← hnat, h]; rfl)
    rw [List.singleton_append, percentDecode_of_ne hne, hutf, UInt8.ofNat_toNat]
    rfl
  · have hhi := hexValue_toHexDigit (b.toNat / 16) (by omega)
    have hlo := hexValue_toHexDigit (b.toNat % 16) (by omega)
    rw [List.cons_append, List.cons_append, List.singleton_append, percentDecode_escape hhi hlo,
      show 16 * (b.toNat / 16) + b.toNat % 16 = b.toNat by omega, UInt8.ofNat_toNat]

theorem percentDecode_encodeBinary (data : List UInt8) :
    percentDecode (encodeBinary data).data = data := by
  induction data with
  | nil => exact percentDecode.eq_1
  | cons b data ih =>
    simpa [encodeBinary, List.flatMap_cons, percentDecode_encodeByte] using ih

/-- Percent-decoding `encode data` gives the UTF-8 bytes of `data`. -/
theorem percentDecode_encode (data : String) :
    percentDecode (encode data).data = data.toUTF8.data.toList :=
  percentDecode_encodeBinary _

/-! ## The encoded alphabet -/

theorem encodeByte_encodedChar (b : UInt8) : ∀ ch ∈ encodeByte b, isEncodedChar ch = true := by
  have hb : b.toNat < 256 := b.toNat_lt_size
  unfold encodeByte
  split
  · next hu =>
    simpa using unreserved_encodedChar b.toNat (isUnreserved_bounds hu).1 (by rwa [UInt8.ofNat_toNat])
  · simp only [List.mem_cons, List.not_mem_nil, or_false, forall_eq_or_imp, forall_eq]
    exact ⟨rfl, toHexDigit_encodedChar _ (by omega), toHexDigit_encodedChar _ (by omega)⟩

theorem encode_encodedChar (data : String) : ∀ ch ∈ (encode data).data, isEncodedChar ch = true := by
  intro ch hch
  obtain ⟨b, -, hb⟩ := List.mem_flatMap.mp hch
  exact encodeByte_encodedChar b ch hb

theorem isEncodedChar_ne {c : Char} (h : isEncodedChar c = true) : c ≠ '&' ∧ c ≠ '=' :=
  ⟨by rintro rfl; exact absurd h (by decide), by rintro rfl; exact absurd h (by decide)⟩

end OpenMusicPlayer
