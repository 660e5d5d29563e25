import OpenMusicPlayer.Percent

/-!
# Catalog identifiers

An identifier is a `uuid::Uuid`. The client prints it with `Display` into
lookup URLs, as 36 lower-case hex digits and hyphens, and reads it with
`FromStr` from response bodies, which takes the simple, hyphenated, braced and
URN forms with hex digits of either case. The parser is that of uuid 1.27,
where the letters of the `urn:uuid:` prefix may also be of either case.
Reading the printed form gives the identifier back (`parseStr_hyphenated`),
also after a `urn:uuid:` prefix in any case (`tryParse_urn`).
-/

namespace OpenMusicPlayer

structure Uuid where
  bytes : List UInt8
  length_eq : bytes.length = 16

def hexLower (d : Nat) : Char := Char.ofNat (if d ≤ 9 then 48 + d else 97 - 10 + d)

def byteHex (b : UInt8) : List Char := [hexLower (b.toNat / 16), hexLower (b.toNat % 16)]

/-- The `Display` of a `Uuid`: lower-case hex in groups of 8, 4, 4, 4 and 12. -/
def Uuid.hyphenated (u : Uuid) : String :=
  let group (i n : Nat) := ((u.bytes.drop i).take n).flatMap byteHex
  ⟨group 0 4 ++ '-' :: group 4 2 ++ '-' :: group 6 2 ++ '-' :: group 8 2 ++ '-' :: group 10 6⟩

/-! ## Parsing -/

/-- `HEX_TABLE`: the value of an ASCII hex digit of either case, and `0xff`
for any other byte. -/
def hexTable (b : UInt8) : UInt8 :=
  if 48 ≤ b ∧ b ≤ 57 then b - 48
  else if 65 ≤ b ∧ b ≤ 70 then b - 55
  else if 97 ≤ b ∧ b ≤ 102 then b - 87
  else 0xff

def hexPair (a b : UInt8) : Option UInt8 :=
  let h1 := hexTable a
  let h2 := hexTable b
  if (h1 ||| h2) = 0xff then none else some ((h1 <<< 4) ||| h2)

def hexQuad (s : List UInt8) (i : Nat) : Option (UInt8 × UInt8) :=
  let h1 := hexTable (s.getD i 0)
  let h2 := hexTable (s.getD (i + 1) 0)
  let h3 := hexTable (s.getD (i + 2) 0)
  let h4 := hexTable (s.getD (i + 3) 0)
  if (h1 ||| h2 ||| h3 ||| h4) = 0xff then none else some ((h1 <<< 4) ||| h2, (h3 <<< 4) ||| h4)

def parseSimple (s : List UInt8) : Option (List UInt8) :=
  if s.length = 32 then (List.range 16).mapM fun i => hexPair (s.getD (i * 2) 0) (s.getD (i * 2 + 1) 0)
  else none

/-- `parse_hyphenated`: 36 bytes with hyphens at 8, 13, 18 and 23, and eight
groups of four hex digits. -/
def parseHyphenated (s : List UInt8) : Option (List UInt8) :=
  if s.length = 36 ∧ [s.getD 8 0, s.getD 13 0, s.getD 18 0, s.getD 23 0] = [45, 45, 45, 45] then
    (([0, 4, 9, 14, 19, 24, 28, 32] : List Nat).mapM (hexQuad s)).map
      fun ps => ps.flatMap fun p => [p.1, p.2]
  else none

def asciiLower (b : UInt8) : UInt8 := if 65 ≤ b ∧ b ≤ 90 then b + 32 else b

/-- `try_parse`: the simple form, the hyphenated one, the hyphenated one in
braces, or after `urn:uuid:` with its letters in either case. -/
def tryParse (input : List UInt8) : Option (List UInt8) :=
  if input.length = 32 then parseSimple input
  else if input.length = 36 then parseHyphenated input
  else if input.length = 38 ∧ input.head? = some 123 ∧ input.getLast? = some 125 then
    parseHyphenated (input.drop 1).dropLast
  else if input.length = 45 ∧ (input.take 9).map asciiLower = "urn:uuid:".toUTF8.data.toList then
    parseHyphenated (input.drop 9)
  else none

theorem length_of_mapM {α β : Type} {f : α → Option β} :
    ∀ {l : List α} {l' : List β}, l.mapM f = some l' → l'.length = l.length
  | [], l', h => by rw [List.mapM_nil] at h; cases h; rfl
  | a :: l, l', h => by
    simp only [List.mapM_cons, Option.bind_eq_bind, Option.bind_eq_some, Option.pure_def,
      Option.some.injEq] at h
    obtain ⟨b, -, bs, hbs, rfl⟩ := h
    simp [length_of_mapM hbs]

theorem length_flatMap_pair (ps : List (UInt8 × UInt8)) :
    (ps.flatMap fun p => [p.1, p.2]).length = 2 * ps.length := by
  induction ps with
  | nil => rfl
  | cons p ps ih => simp [List.flatMap_cons, ih]; omega

theorem tryParse_length {input bytes : List UInt8} (h : tryParse input = some bytes) :
    bytes.length = 16 := by
  have hyph : ∀ {s}, parseHyphenated s = some bytes → bytes.length = 16 := fun {s} h => by
    unfold parseHyphenated at h
    split_ifs at h
    obtain ⟨ps, hps, rfl⟩ := Option.map_eq_some'.mp h
    rw [length_flatMap_pair, length_of_mapM hps]
    rfl
  unfold tryParse at h
  split_ifs at h
  · unfold parseSimple at h
    split_ifs at h
    simpa using length_of_mapM h
  all_goals exact hyph h

def Uuid.parseStr (s : String) : Option Uuid :=
  match h : tryParse s.toUTF8.data.toList with
  | some bytes => some ⟨bytes, tryParse_length h⟩
  | none => none

/-! ## Reading the printed form back -/

def hexByte (d : Nat) : UInt8 := UInt8.ofNat (hexLower d).toNat

def hexDigits (b : UInt8) : List UInt8 := [hexByte (b.toNat / 16), hexByte (b.toNat % 16)]

def hyphenatedBytes (u : Uuid) : List UInt8 :=
  let group (i n : Nat) := ((u.bytes.drop i).take n).flatMap hexDigits
  group 0 4 ++ 45 :: group 4 2 ++ 45 :: group 6 2 ++ 45 :: group 8 2 ++ 45 :: group 10 6

theorem utf8_hexLower : ∀ d < 16, String.utf8EncodeChar (hexLower d) = [hexByte d] := by decide

theorem hexTable_hexByte : ∀ d < 16, hexTable (hexByte d) = UInt8.ofNat d := by decide

theorem ofNat_or : ∀ a < 16, ∀ b < 16, UInt8.ofNat a ||| UInt8.ofNat b = UInt8.ofNat (a ||| b) := by
  decide

theorem or_lt : ∀ a < 16, ∀ b < 16, a ||| b < 16 := by decide

theorem ofNat_ne_ff : ∀ e < 16, UInt8.ofNat e ≠ 255 := by decide

theorem shl_or : ∀ a < 16, ∀ b < 16, (UInt8.ofNat a <<< 4) ||| UInt8.ofNat b = UInt8.ofNat (16 * a + b) := by
  decide

theorem utf8_byteHex (b : UInt8) : (byteHex b).flatMap String.utf8EncodeChar = hexDigits b := by
  have : b.toNat < 256 := b.toNat_lt_size
  simp [byteHex, hexDigits, utf8_hexLower _ (show b.toNat / 16 < 16 by omega),
    utf8_hexLower _ (show b.toNat % 16 < 16 by omega)]

theorem utf8_groups (l : List UInt8) :
    (l.flatMap byteHex).flatMap String.utf8EncodeChar = l.flatMap hexDigits := by
  induction l with
  | nil => rfl
  | cons b l ih => rw [List.flatMap_cons, List.flatMap_append, utf8_byteHex, ih]; rfl

theorem hyphenated_utf8 (u : Uuid) : u.hyphenated.toUTF8.data.toList = hyphenatedBytes u := by
  show u.hyphenated.data.flatMap String.utf8EncodeChar = _
  simp only [Uuid.hyphenated, hyphenatedBytes, List.flatMap_append, List.flatMap_cons, utf8_groups]
  rfl

theorem hexTable_hi (b : UInt8) : hexTable (hexByte (b.toNat / 16)) = UInt8.ofNat (b.toNat / 16) :=
  hexTable_hexByte _ (by have : b.toNat < 256 := b.toNat_lt_size; omega)

theorem hexTable_lo (b : UInt8) : hexTable (hexByte (b.toNat % 16)) = UInt8.ofNat (b.toNat % 16) :=
  hexTable_hexByte _ (by omega)

theorem quad_ne (x y : UInt8) :
    ¬ (UInt8.ofNat (x.toNat / 16) ||| UInt8.ofNat (x.toNat % 16) ||| UInt8.ofNat (y.toNat / 16) |||
      UInt8.ofNat (y.toNat % 16)) = 255 := by
  have hx : x.toNat < 256 := x.toNat_lt_size
  have hy : y.toNat < 256 := y.toNat_lt_size
  have q12 := or_lt _ (show x.toNat / 16 < 16 by omega) _ (show x.toNat % 16 < 16 by omega)
  have q123 := or_lt _ q12 _ (show y.toNat / 16 < 16 by omega)
  rw [ofNat_or _ (by omega) _ (by omega), ofNat_or _ q12 _ (by omega), ofNat_or _ q123 _ (by omega)]
  exact ofNat_ne_ff _ (or_lt _ q123 _ (by omega))

theorem shl_or_byte (x : UInt8) : (UInt8.ofNat (x.toNat / 16) <<< 4) ||| UInt8.ofNat (x.toNat % 16) = x := by
  have hx : x.toNat < 256 := x.toNat_lt_size
  rw [shl_or _ (by omega) _ (by omega), Nat.div_add_mod, UInt8.ofNat_toNat]

theorem length_flatMap_hexDigits (l : List UInt8) : (l.flatMap hexDigits).length = 2 * l.length := by
  induction l with
  | nil => rfl
  | cons b l ih =>
    simp only [List.flatMap_cons, List.length_append, ih, hexDigits, List.length_cons, List.length_nil]
    omega

theorem hyphenatedBytes_length (u : Uuid) : (hyphenatedBytes u).length = 36 := by
  simp only [hyphenatedBytes, List.length_append, List.length_cons, length_flatMap_hexDigits,
    List.length_take, List.length_drop, u.length_eq]
  rfl

theorem parseHyphenated_hyphenatedBytes (u : Uuid) : parseHyphenated (hyphenatedBytes u) = some u.bytes := by
  obtain ⟨bs, hbs⟩ := u
  match bs, hbs with
  | [b0, b1, b2, b3, b4, b5, b6, b7, b8, b9, b10, b11, b12, b13, b14, b15], _ =>
    simp only [hyphenatedBytes, List.drop, List.take, List.flatMap_cons, List.flatMap_nil, hexDigits,
      List.cons_append, List.nil_append, List.append_nil]
    simp only [parseHyphenated, List.length_cons, List.length_nil, List.getD_cons_succ,
      List.getD_cons_zero, List.mapM_cons, List.mapM_nil, hexQuad, hexTable_hi, hexTable_lo, quad_ne,
      shl_or_byte]
    rfl

theorem tryParse_hyphenatedBytes (u : Uuid) : tryParse (hyphenatedBytes u) = some u.bytes := by
  rw [tryParse, if_neg (by rw [hyphenatedBytes_length]; decide), if_pos (hyphenatedBytes_length u),
    parseHyphenated_hyphenatedBytes]

theorem tryParse_urn (u : Uuid) {p : List UInt8} (hp : p.map asciiLower = "urn:uuid:".toUTF8.data.toList) :
    tryParse (p ++ hyphenatedBytes u) = some u.bytes := by
  have hl : p.length = 9 := by rw [← List.length_map p asciiLower, hp]; rfl
  have hlen : (p ++ hyphenatedBytes u).length = 45 := by
    rw [List.length_append, hl, hyphenatedBytes_length]
  have htake : (p ++ hyphenatedBytes u).take 9 = p := List.take_left' hl
  rw [tryParse, if_neg (by omega), if_neg (by omega), if_neg (by omega), if_pos ⟨hlen, by rw [htake]; exact hp⟩,
    List.drop_left' hl, parseHyphenated_hyphenatedBytes]

example : "URN:Uuid:".toUTF8.data.toList.map asciiLower = "urn:uuid:".toUTF8.data.toList := by decide

theorem tryParse_hyphenated (u : Uuid) : tryParse u.hyphenated.toUTF8.data.toList = some u.bytes := by
  rw [hyphenated_utf8, tryParse_hyphenatedBytes]

theorem parseStr_of_tryParse {s : String} {u : Uuid} (h : tryParse s.toUTF8.data.toList = some u.bytes) :
    Uuid.parseStr s = some u := by
  unfold Uuid.parseStr
  split
  · next bytes h' => rw [h] at h'; cases h'; rfl
  · next h' => rw [h] at h'; cases h'

/-- **Identifiers read back.** `FromStr` reads what `Display` prints as the
same identifier. -/
theorem parseStr_hyphenated (u : Uuid) : Uuid.parseStr u.hyphenated = some u :=
  parseStr_of_tryParse (tryParse_hyphenated u)

end OpenMusicPlayer
