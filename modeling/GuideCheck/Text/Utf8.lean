set_option autoImplicit false

/-! # Texts as bytes

A text has a sequence of bytes in UTF-8. Bytes that come from outside, such as the names of files,
need not be those of a text. `decode` shows them all the same, with a replacement character in place
of every broken piece; where they are those of a text, it gives back that text (`decode_utf8`). -/

namespace GuideCheck.Text

/-- The bytes of a text in UTF-8. -/
def utf8 (text : List Char) : List UInt8 := text.flatMap String.utf8EncodeChar

theorem utf8_cons (c : Char) (text : List Char) :
    utf8 (c :: text) = String.utf8EncodeChar c ++ utf8 text := List.flatMap_cons

theorem utf8_append (text after : List Char) : utf8 (text ++ after) = utf8 text ++ utf8 after :=
  List.flatMap_append

/-! ## Decoding -/

/-- The character that bytes begin with. -/
def firstChar? (bytes : List UInt8) : Option Char := bytes.toByteArray.utf8DecodeChar? 0

/-- Whether a character could begin with some bytes; the least and the greatest byte that may follow
    decide this. -/
def isBeginning (bytes : List UInt8) : Bool :=
  [0x80, 0xbf].any fun next => (firstChar? (bytes ++ [next, next, next])).isSome

/-- The length of the broken piece that bytes begin with: all of what could be the beginning of one
    character, or else a single byte. -/
def brokenLength (bytes : List UInt8) : Nat :=
  if isBeginning (bytes.take 3) then 3 else if isBeginning (bytes.take 2) then 2 else 1

/-- The characters of bytes after those that belong to a character or piece before them. -/
def decodeAfter : (passed : Nat) → List UInt8 → List Char
  | _, [] => []
  | passed + 1, _ :: rest => decodeAfter passed rest
  | 0, byte :: rest =>
    match firstChar? (byte :: rest) with
    | some c => c :: decodeAfter (c.utf8Size - 1) rest
    | none => '\ufffd' :: decodeAfter (brokenLength (byte :: rest) - 1) rest

/-- The characters of bytes, with a replacement character for each broken piece. -/
def decode (bytes : List UInt8) : List Char := decodeAfter 0 bytes

/-! ## Laws -/

theorem exists_encode_eq_cons (c : Char) :
    ∃ first others, String.utf8EncodeChar c = first :: others := by
  refine List.exists_cons_of_length_pos ?_
  rw [String.length_utf8EncodeChar]
  exact c.utf8Size_pos

theorem firstChar?_encode_append (c : Char) (rest : List UInt8) :
    firstChar? (String.utf8EncodeChar c ++ rest) = some c := by
  rw [firstChar?, List.toByteArray_append]
  exact ByteArray.utf8DecodeChar?_utf8EncodeChar_append

/-- What bytes begin with is the encoding of their first character. -/
theorem exists_eq_append_of_firstChar? {bytes : List UInt8} {c : Char}
    (h : firstChar? bytes = some c) : ∃ rest, bytes = String.utf8EncodeChar c ++ rest := by
  obtain ⟨rest, hbytes⟩ := ByteArray.exists_of_utf8DecodeChar?_eq_some h
  refine ⟨rest.data.toList, ?_⟩
  have hlist := congrArg (·.data.toList) hbytes
  simpa using hlist

theorem decodeAfter_append (passed rest : List UInt8) :
    decodeAfter passed.length (passed ++ rest) = decode rest := by
  induction passed with
  | nil => rfl
  | cons byte passed ih => exact ih

/-- Decoding the bytes of a text gives back the text. -/
theorem decode_utf8 (text : List Char) : decode (utf8 text) = text := by
  induction text with
  | nil => rfl
  | cons c text ih =>
    have hfirst := firstChar?_encode_append c (utf8 text)
    have hlength := String.length_utf8EncodeChar c
    obtain ⟨byte, others, hencode⟩ := exists_encode_eq_cons c
    rw [hencode, List.cons_append] at hfirst
    rw [hencode, List.length_cons] at hlength
    rw [utf8_cons, hencode, List.cons_append, decode, decodeAfter, hfirst]
    simp only [← hlength, Nat.add_sub_cancel, decodeAfter_append, ih]

/-- A line feed is shown only where there is one among the bytes. -/
theorem newline_mem_of_mem_decodeAfter {passed : Nat} {bytes : List UInt8}
    (h : '\n' ∈ decodeAfter passed bytes) : '\n'.toUInt8 ∈ bytes := by
  induction bytes generalizing passed with
  | nil => cases passed <;> cases h
  | cons byte rest ih =>
    cases passed with
    | succ passed => exact List.mem_cons_of_mem byte (ih h)
    | zero =>
      rw [decodeAfter] at h
      split at h
      · next c hfirst =>
        rcases List.mem_cons.1 h with rfl | hrest
        · obtain ⟨after, hbytes⟩ := exists_eq_append_of_firstChar? hfirst
          rw [hbytes]
          exact List.mem_append_left after (by decide)
        · exact List.mem_cons_of_mem byte (ih hrest)
      · rcases List.mem_cons.1 h with heq | hrest
        · cases heq
        · exact List.mem_cons_of_mem byte (ih hrest)

end GuideCheck.Text
