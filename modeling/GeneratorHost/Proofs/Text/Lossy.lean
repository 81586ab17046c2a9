import GeneratorHost.Generator.View

/-! Reading bytes as text gives back every text that was written as bytes, whatever follows it. -/
namespace GeneratorHost

namespace Text

variable {byte : UInt8} {need low high point more : Nat} {rest : List UInt8}

/-! ### One byte -/

theorem decodeFrom_ascii (h : byte.toNat < 0x80) :
    decodeFrom 0 0 0 0 (byte :: rest) = Char.ofNat byte.toNat :: decodeFrom 0 0 0 0 rest := by
  simp [decodeFrom, h]

theorem decodeFrom_lead (hb : 0x80 ≤ byte.toNat) (h : sequence? byte.toNat = some (more, low, high)) :
    decodeFrom 0 0 0 0 (byte :: rest) = decodeFrom more low high (leadBits byte.toNat more) rest := by
  simp [decodeFrom, Nat.not_lt.mpr hb, h]

theorem decodeFrom_last (hl : low ≤ byte.toNat) (hh : byte.toNat ≤ high) :
    decodeFrom 1 low high point (byte :: rest) =
      Char.ofNat (64 * point + byte.toNat % 64) :: decodeFrom 0 0 0 0 rest := by
  simp [decodeFrom, hl, hh]

theorem decodeFrom_next (hl : low ≤ byte.toNat) (hh : byte.toNat ≤ high) :
    decodeFrom (need + 2) low high point (byte :: rest) =
      decodeFrom (need + 1) 0x80 0xbf (64 * point + byte.toNat % 64) rest := by
  simp [decodeFrom, hl, hh]

/-! ### One character -/

private theorem sequence?_two {b : Nat} (hl : 2 ≤ b) (hh : b < 32) :
    sequence? (b + 192) = some (1, 0x80, 0xbf) := by
  unfold sequence?
  rw [if_pos (by simp; omega)]

/-- The second byte is bounded below where fewer bytes would do, and above where surrogates begin. -/
private theorem sequence?_three {b : Nat} (hh : b < 16) :
    sequence? (b + 224) = some (2, if b = 0 then 0xa0 else 0x80, if b = 13 then 0x9f else 0xbf) := by
  revert b
  decide

private theorem sequence?_four {b : Nat} (hh : b < 5) :
    sequence? (b + 240) = some (3, if b = 0 then 0x90 else 0x80, if b = 4 then 0x8f else 0xbf) := by
  revert b
  decide

/-- A number below 256 is the number of a byte. -/
private theorem toNat_byte {n : Nat} (h : n < 256) : (UInt8.ofNat n).toNat = n := UInt8.toNat_ofNat_of_lt' h

variable {v : Nat}

private theorem decodeFrom_two (hl : 0x7f < v) (hh : v ≤ 0x7ff) :
    decodeFrom 0 0 0 0 (UInt8.ofNat (v / 64 % 32 + 192) :: UInt8.ofNat (v % 64 + 128) :: rest) =
      Char.ofNat v :: decodeFrom 0 0 0 0 rest := by
  have hb : (UInt8.ofNat (v / 64 % 32 + 192)).toNat = v / 64 % 32 + 192 := toNat_byte (by omega)
  have hlast : (UInt8.ofNat (v % 64 + 128)).toNat = v % 64 + 128 := toNat_byte (by omega)
  have hs := sequence?_two (b := v / 64 % 32) (by omega) (by omega)
  rw [← hb] at hs
  rw [decodeFrom_lead (by omega) hs, decodeFrom_last (by omega) (by omega), hb, hlast]
  congr 2
  simp only [leadBits]
  omega

private theorem decodeFrom_three (hl : 0x7ff < v) (hh : v ≤ 0xffff) (hv : v < 0xd800 ∨ 0xdfff < v) :
    decodeFrom 0 0 0 0 (UInt8.ofNat (v / 4096 % 16 + 224) :: UInt8.ofNat (v / 64 % 64 + 128) ::
      UInt8.ofNat (v % 64 + 128) :: rest) = Char.ofNat v :: decodeFrom 0 0 0 0 rest := by
  have hb : (UInt8.ofNat (v / 4096 % 16 + 224)).toNat = v / 4096 % 16 + 224 := toNat_byte (by omega)
  have hnext : (UInt8.ofNat (v / 64 % 64 + 128)).toNat = v / 64 % 64 + 128 := toNat_byte (by omega)
  have hlast : (UInt8.ofNat (v % 64 + 128)).toNat = v % 64 + 128 := toNat_byte (by omega)
  have hs := sequence?_three (b := v / 4096 % 16) (by omega)
  rw [← hb] at hs
  rw [decodeFrom_lead (by omega) hs, decodeFrom_next (by split <;> omega) (by split <;> omega),
    decodeFrom_last (by omega) (by omega), hb, hnext, hlast]
  congr 2
  simp only [leadBits]
  omega

private theorem decodeFrom_four (hl : 0xffff < v) (hh : v < 0x110000) :
    decodeFrom 0 0 0 0 (UInt8.ofNat (v / 262144 % 8 + 240) :: UInt8.ofNat (v / 4096 % 64 + 128) ::
      UInt8.ofNat (v / 64 % 64 + 128) :: UInt8.ofNat (v % 64 + 128) :: rest) =
        Char.ofNat v :: decodeFrom 0 0 0 0 rest := by
  have hb : (UInt8.ofNat (v / 262144 % 8 + 240)).toNat = v / 262144 % 8 + 240 := toNat_byte (by omega)
  have hsecond : (UInt8.ofNat (v / 4096 % 64 + 128)).toNat = v / 4096 % 64 + 128 := toNat_byte (by omega)
  have hthird : (UInt8.ofNat (v / 64 % 64 + 128)).toNat = v / 64 % 64 + 128 := toNat_byte (by omega)
  have hlast : (UInt8.ofNat (v % 64 + 128)).toNat = v % 64 + 128 := toNat_byte (by omega)
  have hs := sequence?_four (b := v / 262144 % 8) (by omega)
  rw [← hb] at hs
  rw [decodeFrom_lead (by omega) hs, decodeFrom_next (by split <;> omega) (by split <;> omega),
    decodeFrom_next (by omega) (by omega), decodeFrom_last (by omega) (by omega), hb, hsecond, hthird, hlast]
  congr 2
  simp only [leadBits]
  omega

theorem decodeFrom_utf8EncodeChar (c : Char) (rest : List UInt8) :
    decodeFrom 0 0 0 0 (String.utf8EncodeChar c ++ rest) = c :: decodeFrom 0 0 0 0 rest := by
  have hv : c.val.toNat < 0xd800 ∨ 0xdfff < c.val.toNat ∧ c.val.toNat < 0x110000 := c.valid
  have hc : Char.ofNat c.val.toNat = c := Char.ofNat_toNat c
  -- One case for each number of bytes; surrogates, which three bytes could spell, are no characters.
  unfold String.utf8EncodeChar
  generalize c.val.toNat = v at hv hc
  subst hc
  dsimp only
  split
  · rw [List.singleton_append, decodeFrom_ascii (by rw [toNat_byte] <;> omega), toNat_byte (by omega)]
  · split
    · exact decodeFrom_two (by omega) (by omega)
    · split
      · exact decodeFrom_three (by omega) (by omega) (by omega)
      · exact decodeFrom_four (by omega) (by omega)

/-! ### Texts -/

private theorem toList_loop (b : ByteArray) (i : Nat) (r : List UInt8) :
    ByteArray.toList.loop b i r = r.reverse ++ b.data.toList.drop i := by
  fun_induction ByteArray.toList.loop b i r with
  | case1 i r h ih =>
    have hi : i < b.data.toList.length := by simpa using h
    rw [ih, List.drop_eq_getElem_cons hi]
    simp [ByteArray.get!, h]
  | case2 i r h =>
    rw [List.drop_eq_nil_of_le (by simpa using Nat.le_of_not_lt h), List.append_nil]

theorem bytes_eq_data (s : String) : bytes s = s.toByteArray.data.toList := by
  rw [bytes, String.toUTF8_eq_toByteArray, ByteArray.toList, toList_loop]
  rfl

theorem bytes_eq (s : String) : bytes s = s.toList.flatMap String.utf8EncodeChar := by
  have hb : s.toByteArray = s.toList.utf8Encode := by
    rw [← String.toByteArray_ofList, String.ofList_toList]
  rw [bytes_eq_data, hb]
  exact List.toList_data_toByteArray

theorem length_bytes (s : String) : (bytes s).length = s.utf8ByteSize := by
  rw [bytes_eq_data]
  rfl

/-- Bytes that are read as a text are its encoding. -/
theorem ofBytes?_eq_some_iff {bs : List UInt8} {s : String} : ofBytes? bs = some s ↔ bs = bytes s := by
  unfold ofBytes? String.fromUTF8?
  rw [bytes_eq_data]
  constructor
  · intro h
    split at h
    · cases h
      exact List.toList_toArray.symm
    · cases h
  · rintro rfl
    exact dif_pos s.isValidUTF8

theorem decodeFrom_flatMap (cs : List Char) (rest : List UInt8) :
    decodeFrom 0 0 0 0 (cs.flatMap String.utf8EncodeChar ++ rest) = cs ++ decodeFrom 0 0 0 0 rest := by
  induction cs with
  | nil => rfl
  | cons c cs ih => rw [List.flatMap_cons, List.append_assoc, decodeFrom_utf8EncodeChar, ih, List.cons_append]

theorem lossy_bytes_append (s : String) (rest : List UInt8) : lossy (bytes s ++ rest) = s ++ lossy rest := by
  rw [lossy, bytes_eq, decodeFrom_flatMap, String.ofList_append, String.ofList_toList, lossy]

theorem lossy_nil : lossy [] = "" := rfl

@[simp] theorem lossy_bytes (s : String) : lossy (bytes s) = s := by
  rw [← List.append_nil (bytes s), lossy_bytes_append, lossy_nil, String.append_empty]

end Text

namespace RawText

@[simp] theorem toText_ofString (s : String) : (ofString s).toText = s := Text.lossy_bytes s

@[simp] theorem toText_null : null.toText = "" := rfl

end RawText
end GeneratorHost
