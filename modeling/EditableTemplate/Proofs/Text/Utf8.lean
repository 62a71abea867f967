import EditableTemplate.Proofs.Except
import EditableTemplate.Text.Utf8

/-!
# Decoded bytes are encoded as they were

A character has one form in UTF-8. While a character is read, the bytes so far and any bytes in the
ranges that are left make up the form of the character that comes of them (`Utf8.Partial.Forms`).
So a text that was decoded is encoded as the bytes that it was decoded from
(`Utf8.encode_of_decode`).
-/

namespace EditableTemplate.Utf8

/-! ## The bytes of a text -/

theorem toList_loop_eq (bytes : ByteArray) (position : Nat) (read : List UInt8) :
    ByteArray.toList.loop bytes position read =
      read.reverse ++ bytes.data.toList.drop position := by
  fun_induction ByteArray.toList.loop bytes position read with
  | case1 position read within ih =>
      have inside : position < bytes.data.toList.length := by simpa using within
      rw [ih, List.drop_eq_getElem_cons inside]
      simp [ByteArray.get!, within]
  | case2 position read beyond =>
      rw [List.drop_eq_nil_of_le (by simpa using Nat.le_of_not_lt beyond), List.append_nil]

/-- A text is encoded character by character. -/
theorem encode_ofList (text : List Char) :
    encode (String.ofList text) = text.flatMap String.utf8EncodeChar := by
  rw [encode, String.toUTF8_eq_toByteArray, String.toByteArray_ofList, ByteArray.toList,
    toList_loop_eq, List.utf8Encode, List.toList_data_toByteArray]
  rfl

/-! ## The form of a character -/

theorem toNat_ofNat {number : Nat} (valid : number.isValidChar) :
    (Char.ofNat number).val.toNat = number := by
  rw [Char.ofNat, dif_pos valid]
  rfl

theorem ofNat_eq_of_toNat {number : Nat} {byte : UInt8} (same : byte.toNat = number) :
    UInt8.ofNat number = byte := by
  rw [← same, UInt8.ofNat_toNat]

/-- A number below 0x80 has one byte. -/
theorem form_of_one {byte : UInt8} (small : byte.toNat < 0x80) :
    String.utf8EncodeChar (Char.ofNat byte.toNat) = [byte] := by
  have valid : byte.toNat.isValidChar := .inl (by omega)
  simp only [String.utf8EncodeChar, toNat_ofNat valid]
  rw [if_pos (by omega), UInt8.ofNat_toNat]

/-- A number below 0x800 has two bytes: the upper bits in the first, six in the other. -/
theorem form_of_two {number : Nat} {first second : UInt8} (large : 0x80 ≤ number)
    (small : number < 0x800) (starts : first.toNat = number / 64 % 0x20 + 0xC0)
    (ends : second.toNat = number % 64 + 0x80) :
    String.utf8EncodeChar (Char.ofNat number) = [first, second] := by
  have valid : number.isValidChar := .inl (by omega)
  simp only [String.utf8EncodeChar, toNat_ofNat valid]
  rw [if_neg (by omega), if_pos (by omega), ofNat_eq_of_toNat starts, ofNat_eq_of_toNat ends]

/-- A number below 0x10000 that is no surrogate has three bytes. -/
theorem form_of_three {number : Nat} {first second third : UInt8} (large : 0x800 ≤ number)
    (small : number < 0x10000) (whole : number < 0xD800 ∨ 0xDFFF < number)
    (starts : first.toNat = number / 4096 % 0x10 + 0xE0)
    (goesOn : second.toNat = number / 64 % 64 + 0x80)
    (ends : third.toNat = number % 64 + 0x80) :
    String.utf8EncodeChar (Char.ofNat number) = [first, second, third] := by
  have valid : number.isValidChar := by
    rcases whole with before | after
    · exact .inl before
    · exact .inr ⟨after, by omega⟩
  simp only [String.utf8EncodeChar, toNat_ofNat valid]
  rw [if_neg (by omega), if_neg (by omega), if_pos (by omega), ofNat_eq_of_toNat starts,
    ofNat_eq_of_toNat goesOn, ofNat_eq_of_toNat ends]

/-- A number below 0x110000 has four bytes. -/
theorem form_of_four {number : Nat} {first second third fourth : UInt8}
    (large : 0x10000 ≤ number) (small : number < 0x110000)
    (starts : first.toNat = number / 262144 % 8 + 0xF0)
    (goesOn : second.toNat = number / 4096 % 64 + 0x80)
    (further : third.toNat = number / 64 % 64 + 0x80)
    (ends : fourth.toNat = number % 64 + 0x80) :
    String.utf8EncodeChar (Char.ofNat number) = [first, second, third, fourth] := by
  have valid : number.isValidChar := .inr ⟨by omega, small⟩
  simp only [String.utf8EncodeChar, toNat_ofNat valid]
  rw [if_neg (by omega), if_neg (by omega), if_neg (by omega), ofNat_eq_of_toNat starts,
    ofNat_eq_of_toNat goesOn, ofNat_eq_of_toNat further, ofNat_eq_of_toNat ends]

/-! ## Reading a character -/

/-- So many more bytes, each in its range, make up with those that were read the form of the
character that comes of them. -/
def Partial.Forms : Nat → Partial → List UInt8 → Prop
  | 0, pending, read => String.utf8EncodeChar (Char.ofNat pending.bits) = read
  | owed + 1, pending, read => ∀ byte : UInt8, pending.low ≤ byte.toNat →
      byte.toNat ≤ pending.high → Forms owed (pending.extend byte) (read ++ [byte])

section

variable {position low high bits : Nat} {byte : UInt8}

/-- One more byte makes up a character with a byte that starts two. -/
theorem forms_two (least : 0xC2 ≤ byte.toNat) (most : byte.toNat < 0xE0) :
    Partial.Forms 1 ⟨position, byte, 1, 1, 0x80, 0xBF, byte.toNat - 0xC0⟩ [byte] := by
  intro second low high
  simp only [Partial.Forms, Partial.extend] at low high ⊢
  exact form_of_two (by omega) (by omega) (by omega) (by omega)

/-- Two more bytes make up a character with a byte that starts three. -/
theorem forms_three (same : bits + 0xE0 = byte.toNat) (most : byte.toNat < 0xF0)
    (within : 0x80 ≤ low ∧ high ≤ 0xBF) (short : bits = 0 → 0xA0 ≤ low)
    (halves : bits = 0xD → high ≤ 0x9F) :
    Partial.Forms 2 ⟨position, byte, 1, 2, low, high, bits⟩ [byte] := by
  intro second low high third low' high'
  simp only [Partial.Forms, Partial.extend] at low high low' high' ⊢
  exact form_of_three (by omega) (by omega) (by omega) (by omega) (by omega) (by omega)

/-- Three more bytes make up a character with a byte that starts four. -/
theorem forms_four (same : bits + 0xF0 = byte.toNat) (most : byte.toNat < 0xF5)
    (within : 0x80 ≤ low ∧ high ≤ 0xBF) (short : bits = 0 → 0x90 ≤ low)
    (last : bits = 4 → high ≤ 0x8F) :
    Partial.Forms 3 ⟨position, byte, 1, 3, low, high, bits⟩ [byte] := by
  intro second low high third low' high' fourth low'' high''
  simp only [Partial.Forms, Partial.extend] at low high low' high' low'' high'' ⊢
  exact form_of_four (by omega) (by omega) (by omega) (by omega) (by omega) (by omega)

end

/-- The first byte of a longer character leaves those to come that make up its form. -/
theorem forms_of_start {position : Nat} {byte : UInt8} {pending : Partial}
    (started : start position byte = .more pending) :
    pending.owed ≠ 0 ∧ pending.Forms pending.owed [byte] := by
  revert started
  fun_cases start position byte with
  | case1 => rintro ⟨⟩
  | case2 => rintro ⟨⟩
  | case3 =>
      rintro ⟨⟩
      exact ⟨Nat.succ_ne_zero _, forms_two (by omega) (by omega)⟩
  | case4 | case5 | case6 =>
      rintro ⟨⟩
      exact ⟨Nat.succ_ne_zero _, forms_three (by omega) (by omega) (by omega) (by omega) (by omega)⟩
  | case7 | case8 | case9 =>
      rintro ⟨⟩
      exact ⟨Nat.succ_ne_zero _, forms_four (by omega) (by omega) (by omega) (by omega) (by omega)⟩
  | case10 => rintro ⟨⟩

/-- A byte that is a character alone is its form. -/
theorem form_of_start {position : Nat} {byte : UInt8} {c : Char}
    (started : start position byte = .single c) : String.utf8EncodeChar c = [byte] := by
  revert started
  fun_cases start position byte with
  | case1 n small =>
      rintro ⟨⟩
      exact form_of_one small
  | _ => rintro ⟨⟩

/-- The bytes that were read of a character, if one is pending: those to come make up its form. -/
def Holds : Option Partial → List UInt8 → Prop
  | none, read => read = []
  | some pending, read => pending.owed ≠ 0 ∧ pending.Forms pending.owed read

/-- A byte in its range goes on with the form of the pending character. -/
theorem Holds.extend {pending : Partial} {read : List UInt8} (held : Holds (some pending) read)
    {byte : UInt8} (within : pending.low ≤ byte.toNat ∧ byte.toNat ≤ pending.high) :
    (pending.extend byte).Forms (pending.extend byte).owed (read ++ [byte]) := by
  obtain ⟨some, forms⟩ := held
  have left : pending.owed = (pending.extend byte).owed + 1 := by
    change pending.owed = pending.owed - 1 + 1
    omega
  rw [left] at forms
  exact forms byte within.1 within.2

/-- The text that is decoded has the form of the bytes that were read and those that follow. -/
theorem flatMap_of_decodeFrom {position : Nat} {pending : Option Partial} {bytes : List UInt8}
    {text : List Char} (decoded : decodeFrom position pending bytes = .ok text)
    {read : List UInt8} (held : Holds pending read) :
    text.flatMap String.utf8EncodeChar = read ++ bytes := by
  fun_induction decodeFrom position pending bytes generalizing text read with
  | case1 =>
      cases decoded
      cases held
      rfl
  | case2 => cases decoded
  | case3 position byte rest c started ih =>
      obtain ⟨later, onward, rfl⟩ := Except.map_eq_ok.mp decoded
      cases held
      rw [List.flatMap_cons, form_of_start started, ih onward rfl]
      rfl
  | case4 position byte rest pending started ih =>
      cases held
      exact ih decoded (forms_of_start started)
  | case5 => cases decoded
  | case6 position pending byte rest within extended last =>
      rename_i ih
      obtain ⟨later, onward, rfl⟩ := Except.map_eq_ok.mp decoded
      have forms := held.extend within
      rw [last] at forms
      have form : String.utf8EncodeChar (Char.ofNat extended.bits) = read ++ [byte] := forms
      rw [List.flatMap_cons, form, ih onward rfl, List.nil_append, List.append_assoc]
      rfl
  | case7 position pending byte rest within extended more =>
      rename_i ih
      rw [ih decoded ⟨more, held.extend within⟩, List.append_assoc]
      rfl
  | case8 => cases decoded

/-- Bytes that are decoded are the encoding of the text. -/
theorem encode_of_decode {bytes : List UInt8} {text : List Char}
    (decoded : decode bytes = .ok text) : encode (String.ofList text) = bytes := by
  rw [encode_ofList]
  exact flatMap_of_decodeFrom decoded rfl

end EditableTemplate.Utf8
