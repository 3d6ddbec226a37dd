import GuideCheck.Text.Units
import GuideCheck.Text.Utf8
import Mathlib.Data.List.Basic
import Mathlib.Data.List.Induction
import Mathlib.Tactic.SplitIfs

set_option autoImplicit false

/-! # Characters among bytes

ASCII characters are one byte each, and no other character has a byte that is one of theirs
(`Text.le_of_mem_encode`), so they can be looked for byte by byte.

Bytes can be cut where a character begins, and at the end. `Text.slice?` refuses to cut them
elsewhere. -/

namespace GuideCheck.Text

/-! ## ASCII -/

theorem encode_of_le {c : Char} (h : c.toNat ≤ 127) :
    String.utf8EncodeChar c = [UInt8.ofNat c.toNat] := by
  unfold String.utf8EncodeChar
  exact if_pos h

/-- The bytes of characters outside ASCII are no ASCII characters. -/
theorem le_of_mem_encode {c : Char} (hc : 127 < c.toNat) {b : UInt8}
    (hb : b ∈ String.utf8EncodeChar c) : 128 ≤ b.toNat := by
  have hmarked (n : Nat) {mark : Nat} (hmark : 128 ≤ mark) (hlt : n + mark < 256)
      (h : b = UInt8.ofNat (n + mark)) : 128 ≤ b.toNat := by
    rw [h, UInt8.toNat_ofNat', Nat.mod_eq_of_lt hlt]
    omega
  have hascii : ¬ c.val.toNat ≤ 127 := Nat.not_le_of_lt hc
  unfold String.utf8EncodeChar at hb
  dsimp only at hb
  rw [if_neg hascii] at hb
  split_ifs at hb
  · simp only [List.mem_cons, List.not_mem_nil, or_false] at hb
    rcases hb with hb | hb
    · exact hmarked _ (by decide) (by omega) hb
    · exact hmarked _ (by decide) (by omega) hb
  · simp only [List.mem_cons, List.not_mem_nil, or_false] at hb
    rcases hb with hb | hb | hb
    · exact hmarked _ (by decide) (by omega) hb
    · exact hmarked _ (by decide) (by omega) hb
    · exact hmarked _ (by decide) (by omega) hb
  · simp only [List.mem_cons, List.not_mem_nil, or_false] at hb
    rcases hb with hb | hb | hb | hb
    · exact hmarked _ (by decide) (by omega) hb
    · exact hmarked _ (by decide) (by omega) hb
    · exact hmarked _ (by decide) (by omega) hb
    · exact hmarked _ (by decide) (by omega) hb

theorem ofUInt8_ofNat {c : Char} (h : c.toNat ≤ 127) : Char.ofUInt8 (UInt8.ofNat c.toNat) = c := by
  apply Char.toNat_inj.1
  have hlt : c.toNat < 256 := by omega
  change (UInt8.ofNat c.toNat).toUInt32.toNat = c.toNat
  rw [UInt8.toNat_toUInt32, UInt8.toNat_ofNat', Nat.mod_eq_of_lt hlt]

/-- A text whose bytes begin with an ASCII character begins with the character. -/
theorem exists_of_utf8_eq_cons {text : List Char} {b : UInt8} {bs : List UInt8}
    (h : utf8 text = b :: bs) (hb : b.toNat < 128) :
    ∃ rest, text = Char.ofUInt8 b :: rest ∧ utf8 rest = bs := by
  cases text with
  | nil => cases h
  | cons c text =>
    rw [utf8_cons] at h
    by_cases hc : c.toNat ≤ 127
    · rw [encode_of_le hc] at h
      obtain ⟨rfl, rfl⟩ := List.cons.inj h
      exact ⟨text, by rw [ofUInt8_ofNat hc], rfl⟩
    · obtain ⟨first, others, hencode⟩ := exists_encode_eq_cons c
      rw [hencode] at h
      obtain ⟨rfl, -⟩ := List.cons.inj h
      have hle := le_of_mem_encode (Nat.lt_of_not_le hc) (hencode ▸ List.mem_cons_self)
      exact absurd hb (Nat.not_lt_of_le hle)

/-- A text whose bytes end in an ASCII character ends in the character. -/
theorem exists_of_utf8_eq_concat {text : List Char} {bytes : List UInt8} {c : Char}
    (hc : c.toNat ≤ 127) (h : utf8 text = bytes ++ [UInt8.ofNat c.toNat]) :
    ∃ front, text = front ++ [c] ∧ utf8 front = bytes := by
  have hlt : c.toNat < 256 := by omega
  obtain rfl | ⟨front, last, rfl⟩ := text.eq_nil_or_concat'
  · simp [utf8] at h
  · have hempty : utf8 [] = [] := rfl
    rw [utf8_append, utf8_cons, hempty, List.append_nil] at h
    by_cases hlast : last.toNat ≤ 127
    · rw [encode_of_le hlast] at h
      obtain ⟨hfront, hbyte⟩ := List.append_inj' h rfl
      have hsame : last = c := by
        rw [← ofUInt8_ofNat hlast, List.singleton_inj.1 hbyte, ofUInt8_ofNat hc]
      exact ⟨front, by rw [hsame], hfront⟩
    · have hmem : UInt8.ofNat c.toNat ∈ String.utf8EncodeChar last := by
        obtain ⟨init, byte, hencode⟩ :=
          (String.utf8EncodeChar last).eq_nil_or_concat'.resolve_left String.utf8EncodeChar_ne_nil
        rw [hencode, ← List.append_assoc] at h
        rw [hencode, List.singleton_inj.1 (List.append_inj' h rfl).2]
        exact List.mem_append_right _ List.mem_cons_self
      have hle := le_of_mem_encode (Nat.lt_of_not_le hlast) hmem
      rw [UInt8.toNat_ofNat', Nat.mod_eq_of_lt hlt] at hle
      omega

/-- A text whose bytes end in those of an ASCII text ends in that text. -/
theorem exists_of_utf8_eq_append {text ending : List Char} {bytes : List UInt8}
    (hascii : ∀ c ∈ ending, c.toNat ≤ 127) (h : utf8 text = bytes ++ utf8 ending) :
    ∃ front, text = front ++ ending ∧ utf8 front = bytes := by
  induction ending using List.reverseRecOn generalizing text with
  | nil => exact ⟨text, by simp, by simpa [utf8] using h⟩
  | append_singleton ending c ih =>
    have hc := hascii c (List.mem_append_right _ List.mem_cons_self)
    have hencode : utf8 [c] = [UInt8.ofNat c.toNat] := by
      rw [utf8_cons, encode_of_le hc]
      rfl
    rw [utf8_append, hencode, ← List.append_assoc] at h
    obtain ⟨front, rfl, hfront⟩ := exists_of_utf8_eq_concat hc h
    obtain ⟨stem, rfl, hstem⟩ := ih (fun d hd => hascii d (List.mem_append_left _ hd)) hfront
    exact ⟨stem, by simp, hstem⟩

/-! ## Cutting -/

/-- Whether a text with these bytes can be cut at an index: a character begins there, or the bytes
    end. -/
def isBoundary (bytes : List UInt8) (i : Nat) : Bool :=
  match bytes[i]? with
  | some b => b.IsUTF8FirstByte
  | none => i = bytes.length

/-- The bytes between two indices; none if the indices are out of range, or inside a character. -/
def slice? (bytes : List UInt8) (start stop : Nat) : Option (List UInt8) :=
  if start ≤ stop ∧ isBoundary bytes start ∧ isBoundary bytes stop then
    some ((bytes.take stop).drop start)
  else none

theorem isBoundary_append {bytes after : List UInt8} {i : Nat} :
    isBoundary (bytes ++ after) (bytes.length + i) = isBoundary after i := by
  have hget : (bytes ++ after)[bytes.length + i]? = after[i]? := by
    rw [List.getElem?_append_right (Nat.le_add_right _ _), Nat.add_sub_cancel_left]
  unfold isBoundary
  rw [hget]
  cases after[i]? with
  | some b => rfl
  | none => simp

/-- The bytes of a text can be cut after each of its characters and nowhere else. -/
theorem isBoundary_utf8_iff {text : List Char} {i : Nat} : isBoundary (utf8 text) i = true ↔
    ∃ before after, before ++ after = text ∧ (utf8 before).length = i := by
  induction text generalizing i with
  | nil =>
    simp only [isBoundary, utf8, List.flatMap_nil, List.getElem?_nil, List.length_nil,
      decide_eq_true_eq, List.append_eq_nil_iff]
    constructor
    · rintro rfl
      exact ⟨[], [], ⟨rfl, rfl⟩, rfl⟩
    · rintro ⟨before, after, ⟨rfl, rfl⟩, rfl⟩
      rfl
  | cons c text ih =>
    rw [utf8_cons]
    by_cases hi : i < (String.utf8EncodeChar c).length
    · have hget : (String.utf8EncodeChar c ++ utf8 text)[i]? =
          some (String.utf8EncodeChar c)[i] := by
        rw [List.getElem?_append_left hi, List.getElem?_eq_getElem hi]
      simp only [isBoundary, hget, decide_eq_true_eq,
        UInt8.isUTF8FirstByte_getElem_utf8EncodeChar]
      constructor
      · rintro rfl
        exact ⟨[], c :: text, rfl, rfl⟩
      · rintro ⟨before, after, happend, rfl⟩
        cases before with
        | nil => rfl
        | cons d before =>
          -- the first character ends behind the index
          cases happend
          rw [utf8_cons, List.length_append] at hi
          omega
    · obtain ⟨j, rfl⟩ := Nat.exists_eq_add_of_le (Nat.le_of_not_lt hi)
      rw [isBoundary_append, ih]
      constructor
      · rintro ⟨before, after, rfl, rfl⟩
        exact ⟨c :: before, after, rfl, by rw [utf8_cons, List.length_append]⟩
      · rintro ⟨before, after, happend, hlength⟩
        cases before with
        | nil =>
          obtain ⟨first, others, hencode⟩ := exists_encode_eq_cons c
          simp only [utf8, List.flatMap_nil, List.length_nil, hencode, List.length_cons] at hlength
          omega
        | cons d before =>
          cases happend
          rw [utf8_cons, List.length_append] at hlength
          exact ⟨before, after, rfl, Nat.add_left_cancel hlength⟩

/-- What is cut out of a text are the bytes of a part. -/
theorem slice?_utf8 (before text after : List Char) :
    slice? (utf8 (before ++ text ++ after)) (utf8 before).length (utf8 (before ++ text)).length =
      some (utf8 text) := by
  have hstart : isBoundary (utf8 (before ++ text ++ after)) (utf8 before).length = true :=
    isBoundary_utf8_iff.2 ⟨before, text ++ after, by rw [List.append_assoc], rfl⟩
  have hstop : isBoundary (utf8 (before ++ text ++ after)) (utf8 (before ++ text)).length = true :=
    isBoundary_utf8_iff.2 ⟨before ++ text, after, rfl, rfl⟩
  have hle : (utf8 before).length ≤ (utf8 (before ++ text)).length := by
    rw [utf8_append, List.length_append]
    exact Nat.le_add_right _ _
  rw [slice?, if_pos ⟨hle, hstart, hstop⟩, utf8_append (before ++ text), List.take_left,
    utf8_append, List.drop_left]

end GuideCheck.Text
