import GuideCheck.Proofs.Encoding
import GuideCheck.Proofs.Pairs

set_option autoImplicit false

/-! # Mending byte by byte

Surrogates are mended in one pass over the bytes of a text. The pass jumps over escapes without
knowing characters, so it may land inside of one, or past the end, and it copies slices of the text
between the escapes that it replaces. `Json.mendBytes?` is that pass; it has no result if it takes a
slice that does not begin and end between characters.

It has one for every text, the bytes of the mended text (`mendBytes?_utf8`). At every index that the
pass gets to, a part of the text has been passed, and of that a part has been copied; the induction
is on what is left, pair by pair and piece by piece (`mendFrom_utf8`). The bytes in the middle of a
character are no backslashes, so from there the pass goes on to the next character.

A replacement is as wide as the escape (`Replaced`), so positions stay what they are. -/

namespace GuideCheck.Json

open Text (utf8 slice?)

/-! ## The pass -/

/-- The byte of a backslash. -/
def markByte : UInt8 := 0x5c

/-- The byte of the letter `u`. -/
def letterByte : UInt8 := 0x75

/-- The escape of U+FFFD. -/
def replacement : List UInt8 := utf8 ['\\', 'u', 'f', 'f', 'f', 'd']

/-- The code unit of the escape that some bytes begin with. -/
def escape? : List UInt8 → Option Nat
  | mark :: letter :: a :: b :: c :: d :: _ =>
    if mark = markByte ∧ letter = letterByte then Quoted.unit? ([d, c, b, a].map Char.ofUInt8)
    else none
  | _ => none

/-- The code unit of the escape that begins at an index. -/
def escapeAt? (bytes : List UInt8) (i : Nat) : Option Nat := escape? (bytes.drop i)

/-- Mends bytes from the index `i` on. Once an escape has been replaced, `out` is what became of the
    bytes before `copied`. -/
def mendFrom (bytes : List UInt8) (i copied : Nat) (out : Option (List UInt8)) :
    Option (List UInt8) :=
  if h : i < bytes.length then
    if bytes[i] ≠ markByte then mendFrom bytes (i + 1) copied out
    else
      match escapeAt? bytes i with
      | none => mendFrom bytes (i + 2) copied out
      | some unit =>
        if Quoted.isHigh unit ∧ (escapeAt? bytes (i + 6)).any Quoted.isLow then
          mendFrom bytes (i + 12) copied out
        else if ¬ Quoted.isHigh unit ∧ ¬ Quoted.isLow unit then mendFrom bytes (i + 6) copied out
        else
          match slice? bytes copied i with
          | some part =>
            mendFrom bytes (i + 6) (i + 6) (some (out.getD [] ++ part ++ replacement))
          | none => none
  else
    match out with
    | some out => (slice? bytes copied bytes.length).map (out ++ ·)
    | none => some bytes
termination_by bytes.length - i

/-- The bytes with every escape of a surrogate that has no partner replaced; none if a slice begins
    or ends inside a character. -/
def mendBytes? (bytes : List UInt8) : Option (List UInt8) := mendFrom bytes 0 0 none

/-! ## Escapes -/

theorem exists_of_escape? {text : List Char} {unit : Nat} (h : escape? (utf8 text) = some unit) :
    ∃ a b c d rest, text = '\\' :: 'u' :: a :: b :: c :: d :: rest ∧
      Quoted.unit? [d, c, b, a] = some unit := by
  unfold escape? at h
  split at h
  next mark letter a b c d bytes hbytes =>
    split_ifs at h with hmark
    have hdigits := Quoted.isSome_unit?_iff.1 (Option.isSome_iff_exists.2 ⟨unit, h⟩)
    have hascii {x : UInt8} (hx : x ∈ [d, c, b, a]) : x.toNat < 128 := by
      have hle := toNat_le_of_isHexDigit (hdigits _ (List.mem_map_of_mem hx))
      exact Nat.lt_succ_of_le hle
    obtain ⟨rfl, rfl⟩ := hmark
    obtain ⟨text, rfl, hletter⟩ := Text.exists_of_utf8_eq_cons hbytes (by decide)
    obtain ⟨text, rfl, ha⟩ := Text.exists_of_utf8_eq_cons hletter (by decide)
    obtain ⟨text, rfl, hb⟩ := Text.exists_of_utf8_eq_cons ha (hascii (by simp))
    obtain ⟨text, rfl, hc⟩ := Text.exists_of_utf8_eq_cons hb (hascii (by simp))
    obtain ⟨text, rfl, hd⟩ := Text.exists_of_utf8_eq_cons hc (hascii (by simp))
    obtain ⟨rest, rfl, -⟩ := Text.exists_of_utf8_eq_cons hd (hascii (by simp))
    exact ⟨_, _, _, _, rest, rfl, h⟩
  next => cases h

theorem utf8_cons_of_isHexDigit {c : Char} (h : isHexDigit c = true) (text : List Char) :
    utf8 (c :: text) = UInt8.ofNat c.toNat :: utf8 text := by
  rw [Text.utf8_cons, Text.encode_of_le (toNat_le_of_isHexDigit h)]
  rfl

theorem utf8_unit {a b c d : Char}
    (h : isHexDigit a ∧ isHexDigit b ∧ isHexDigit c ∧ isHexDigit d) (rest : List Char) :
    utf8 ('\\' :: 'u' :: a :: b :: c :: d :: rest) = markByte :: letterByte ::
      UInt8.ofNat a.toNat :: UInt8.ofNat b.toNat :: UInt8.ofNat c.toNat :: UInt8.ofNat d.toNat ::
        utf8 rest := by
  rw [← utf8_cons_of_isHexDigit h.2.2.2, ← utf8_cons_of_isHexDigit h.2.2.1,
    ← utf8_cons_of_isHexDigit h.2.1, ← utf8_cons_of_isHexDigit h.1]
  rfl

/-- An escape is read of the bytes if the first piece of the text is one. -/
theorem escape?_utf8 (text : List Char) :
    escape? (utf8 text) = (pieces text).head?.bind Piece.unit? := by
  -- bytes that are read as an escape are those of one
  have hnone (h : ∀ a b c d rest, text = '\\' :: 'u' :: a :: b :: c :: d :: rest →
      ¬ (isHexDigit a ∧ isHexDigit b ∧ isHexDigit c ∧ isHexDigit d)) :
      escape? (utf8 text) = none := by
    refine Option.eq_none_iff_forall_ne_some.2 fun unit hunit => ?_
    obtain ⟨a, b, c, d, rest, htext, hvalue⟩ := exists_of_escape? hunit
    exact h a b c d rest htext (Quoted.exists_unit?_iff.1 ⟨unit, hvalue⟩)
  induction text using pieces_induction with
  | nil => rfl
  | mark => rfl
  | plain c rest hc _ =>
    rw [pieces_cons hc]
    refine hnone ?_
    rintro _ _ _ _ _ ⟨⟩
    exact absurd rfl hc
  | escape c rest h _ =>
    rw [pieces_escape h]
    refine hnone ?_
    rintro a b c d rest ⟨⟩ hdigits
    exact not_length_digits_lt hdigits rest (h rfl)
  | unit a b c d rest hdigits _ =>
    rw [pieces_unit hdigits, utf8_unit hdigits]
    have hback {x : Char} (hx : isHexDigit x = true) : Char.ofUInt8 (UInt8.ofNat x.toNat) = x :=
      Text.ofUInt8_ofNat (toNat_le_of_isHexDigit hx)
    simp only [escape?, List.map_cons, List.map_nil, hback hdigits.1, hback hdigits.2.1,
      hback hdigits.2.2.1, hback hdigits.2.2.2, List.head?_cons, Option.bind_some, Piece.unit?,
      and_self, if_true]

theorem escapeAt?_utf8 (done rest : List Char) :
    escapeAt? (utf8 (done ++ rest)) (utf8 done).length = (pieces rest).head?.bind Piece.unit? := by
  rw [escapeAt?, Text.utf8_append, List.drop_left, escape?_utf8]

/-! ## Steps of the pass -/

section

variable (copied : Nat) (out : Option (List UInt8))

theorem mendFrom_of_ne (before : List UInt8) {b : UInt8} (h : b ≠ markByte) (after : List UInt8) :
    mendFrom (before ++ b :: after) before.length copied out =
      mendFrom (before ++ b :: after) (before.length + 1) copied out := by
  rw [mendFrom.eq_def]
  simp [h]

/-- Bytes that are no backslash are passed one by one. -/
theorem mendFrom_of_forall_ne (before : List UInt8) {part : List UInt8}
    (h : ∀ b ∈ part, b ≠ markByte) (after : List UInt8) :
    mendFrom (before ++ (part ++ after)) before.length copied out =
      mendFrom (before ++ (part ++ after)) (before.length + part.length) copied out := by
  induction part generalizing before with
  | nil => rfl
  | cons b part ih =>
    obtain ⟨hb, hpart⟩ := List.forall_mem_cons.1 h
    rw [List.cons_append, mendFrom_of_ne copied out before hb]
    have hrest := ih (before ++ [b]) hpart
    rw [List.append_assoc, List.length_append, List.length_singleton] at hrest
    rw [List.length_cons, Nat.add_comm part.length, ← Nat.add_assoc]
    exact hrest

/-- The end of the bytes. -/
theorem mendFrom_of_le {bytes : List UInt8} {i : Nat} (h : bytes.length ≤ i) :
    mendFrom bytes i copied out =
      match out with
      | some out => (slice? bytes copied bytes.length).map (out ++ ·)
      | none => some bytes := by
  rw [mendFrom.eq_def, dif_neg (Nat.not_lt_of_le h)]

theorem mendFrom_of_mark {bytes : List UInt8} {i : Nat} (h : bytes[i]? = some markByte) :
    mendFrom bytes i copied out =
      match escapeAt? bytes i with
      | none => mendFrom bytes (i + 2) copied out
      | some unit =>
        if Quoted.isHigh unit ∧ (escapeAt? bytes (i + 6)).any Quoted.isLow then
          mendFrom bytes (i + 12) copied out
        else if ¬ Quoted.isHigh unit ∧ ¬ Quoted.isLow unit then mendFrom bytes (i + 6) copied out
        else
          match slice? bytes copied i with
          | some part =>
            mendFrom bytes (i + 6) (i + 6) (some (out.getD [] ++ part ++ replacement))
          | none => none := by
  obtain ⟨hlt, hget⟩ := List.getElem?_eq_some_iff.1 h
  rw [mendFrom.eq_def, dif_pos hlt, if_neg (not_not.2 hget)]

/-! ## Pieces -/

theorem ne_markByte_of_mem_encode {c : Char} (hc : c ≠ '\\') {b : UInt8}
    (hb : b ∈ String.utf8EncodeChar c) : b ≠ markByte := by
  rintro rfl
  by_cases hascii : c.toNat ≤ 127
  · rw [Text.encode_of_le hascii, List.mem_singleton] at hb
    have hback := Text.ofUInt8_ofNat hascii
    rw [← hb] at hback
    exact hc hback.symm
  · exact absurd (Text.le_of_mem_encode (Nat.lt_of_not_le hascii) hb) (by decide)

/-- No character goes on with a backslash. -/
theorem ne_markByte_of_mem_tail {c : Char} {b : UInt8}
    (hb : b ∈ (String.utf8EncodeChar c).tail) : b ≠ markByte := by
  rintro rfl
  by_cases hascii : c.toNat ≤ 127
  · rw [Text.encode_of_le hascii] at hb
    cases hb
  · have hle := Text.le_of_mem_encode (Nat.lt_of_not_le hascii) (List.mem_of_mem_tail hb)
    exact absurd hle (by decide)

theorem getElem?_mark (done rest : List Char) :
    (utf8 (done ++ '\\' :: rest))[(utf8 done).length]? = some markByte := by
  rw [Text.utf8_append, List.getElem?_append_right (Nat.le_refl _), Nat.sub_self]
  rfl

theorem mendFrom_plain (done : List Char) {c : Char} (hc : c ≠ '\\') (rest : List Char) :
    mendFrom (utf8 (done ++ c :: rest)) (utf8 done).length copied out =
      mendFrom (utf8 (done ++ c :: rest)) (utf8 (done ++ [c])).length copied out := by
  have hstep := mendFrom_of_forall_ne copied out (utf8 done)
    (fun b => ne_markByte_of_mem_encode hc) (utf8 rest)
  rw [Text.utf8_append, Text.utf8_cons, hstep, Text.utf8_append, Text.utf8_cons]
  simp [utf8]

theorem mendFrom_escape (done : List Char) {c : Char} {rest : List Char}
    (h : c = 'u' → (digits rest).length < 4) :
    mendFrom (utf8 (done ++ '\\' :: c :: rest)) (utf8 done).length copied out =
      mendFrom (utf8 (done ++ '\\' :: c :: rest)) (utf8 (done ++ ['\\', c])).length copied out := by
  have hescape : escapeAt? (utf8 (done ++ '\\' :: c :: rest)) (utf8 done).length = none := by
    rw [escapeAt?_utf8, pieces_escape h]
    rfl
  -- the pass goes on behind the first byte of the character
  obtain ⟨first, others, hencode⟩ := Text.exists_encode_eq_cons c
  have hothers : ∀ b ∈ others, b ≠ markByte :=
    fun b hb => ne_markByte_of_mem_tail (c := c) (by rw [hencode]; exact hb)
  have hbytes (after : List Char) : utf8 (done ++ '\\' :: c :: after) =
      utf8 done ++ [markByte, first] ++ (others ++ utf8 after) := by
    have hmark : String.utf8EncodeChar '\\' = [markByte] := rfl
    rw [Text.utf8_append, Text.utf8_cons, Text.utf8_cons, hmark, hencode]
    simp
  have hlength : (utf8 (done ++ ['\\', c])).length =
      (utf8 done ++ [markByte, first]).length + others.length := by
    rw [hbytes [], List.length_append]
    simp [utf8]
  rw [mendFrom_of_mark _ _ (getElem?_mark done _), hescape, hlength, hbytes,
    ← mendFrom_of_forall_ne copied out _ hothers (utf8 rest), List.length_append]
  rfl

section

variable {a b c d : Char} (hdigits : isHexDigit a ∧ isHexDigit b ∧ isHexDigit c ∧ isHexDigit d)

include hdigits

theorem length_utf8_unit (done : List Char) :
    (utf8 (done ++ ['\\', 'u', a, b, c, d])).length = (utf8 done).length + 6 := by
  rw [Text.utf8_append, utf8_unit hdigits, List.length_append]
  rfl

/-- The escape of a code unit is passed, by itself or with its partner, or it is replaced. -/
theorem mendFrom_unit {bytes : List UInt8} (done rest : List Char)
    (hbytes : bytes = utf8 (done ++ '\\' :: 'u' :: a :: b :: c :: d :: rest)) :
    mendFrom bytes (utf8 done).length copied out =
      if (Piece.unit a b c d).isHigh ∧ (pieces rest).head?.any Piece.isLow then
        mendFrom bytes ((utf8 done).length + 12) copied out
      else if ¬ (Piece.unit a b c d).isHigh ∧ ¬ (Piece.unit a b c d).isLow then
        mendFrom bytes ((utf8 done).length + 6) copied out
      else
        match slice? bytes copied (utf8 done).length with
        | some part => mendFrom bytes ((utf8 done).length + 6) ((utf8 done).length + 6)
            (some (out.getD [] ++ part ++ replacement))
        | none => none := by
  obtain ⟨unit, hunit⟩ := Quoted.exists_unit?_iff.2 hdigits
  have hfirst : escapeAt? bytes (utf8 done).length = some unit := by
    rw [hbytes, escapeAt?_utf8, pieces_unit hdigits]
    exact hunit
  have hsecond : escapeAt? bytes ((utf8 done).length + 6) =
      (pieces rest).head?.bind Piece.unit? := by
    rw [hbytes, ← length_utf8_unit hdigits, ← escapeAt?_utf8 (done ++ ['\\', 'u', a, b, c, d]),
      List.append_assoc]
    rfl
  have hpartner : ((pieces rest).head?.bind Piece.unit?).any Quoted.isLow =
      (pieces rest).head?.any Piece.isLow := by
    cases (pieces rest).head? <;> rfl
  have hmark : bytes[(utf8 done).length]? = some markByte := hbytes ▸ getElem?_mark done _
  rw [mendFrom_of_mark _ _ hmark, hfirst, hsecond, hpartner, Piece.isHigh_unit hunit,
    Piece.isLow_unit hunit]

end

end

/-! ## Whole texts -/

/-- At the end the bytes that have not been copied are those of a text. -/
theorem mendFrom_end (before text : List Char) {out : Option (List UInt8)}
    (hout : out = none → before = []) {i : Nat} (hi : (utf8 (before ++ text)).length ≤ i) :
    mendFrom (utf8 (before ++ text)) i (utf8 before).length out =
      some (out.getD [] ++ utf8 text) := by
  rw [mendFrom_of_le _ _ hi]
  cases out with
  | none =>
    obtain rfl := hout rfl
    rfl
  | some out =>
    have hslice := Text.slice?_utf8 before text []
    rw [List.append_nil] at hslice
    simp only [hslice, Option.map_some, Option.getD_some]

/-- What the pass makes of the rest of a text is what mending makes of it. -/
theorem mendFrom_utf8 {done before text rest : List Char} {out : Option (List UInt8)}
    (hdone : done = before ++ text) (hout : out = none → before = []) :
    mendFrom (utf8 (done ++ rest)) (utf8 done).length (utf8 before).length out =
      some (out.getD [] ++ utf8 (text ++ mendSurrogates rest)) := by
  -- some more characters that have been passed
  have hpassed {done before text : List Char} (h : done = before ++ text) (part : List Char) :
      done ++ part = before ++ (text ++ part) := by
    rw [h, List.append_assoc]
  induction rest using mend_induction generalizing done before text out with
  | nil =>
    rw [mendSurrogates_nil, List.append_nil, List.append_nil, hdone]
    exact mendFrom_end before text hout (Nat.le_refl _)
  | mark =>
    have hescape : escapeAt? (utf8 (done ++ ['\\'])) (utf8 done).length = none := by
      rw [escapeAt?_utf8, pieces_mark]
      rfl
    have hlength : (utf8 (done ++ ['\\'])).length ≤ (utf8 done).length + 2 := by
      rw [Text.utf8_append, List.length_append]
      exact Nat.le_succ _
    rw [hpassed hdone] at hlength
    have hend := mendFrom_end before (text ++ ['\\']) hout hlength
    rw [← hpassed hdone] at hend
    rw [mendFrom_of_mark _ _ (getElem?_mark done []), hescape, mendSurrogates_mark]
    exact hend
  | plain c rest hc ih =>
    have hnext := ih (hpassed hdone [c]) hout
    rw [List.append_assoc, List.append_assoc] at hnext
    rw [mendFrom_plain _ _ _ hc, mendSurrogates_plain hc]
    exact hnext
  | escape c rest h ih =>
    have hnext := ih (hpassed hdone ['\\', c]) hout
    rw [List.append_assoc, List.append_assoc] at hnext
    rw [mendFrom_escape _ _ _ h, mendSurrogates_escape h]
    exact hnext
  | pair a b c d a' b' c' d' rest hfirst hsecond hhigh hlow ih =>
    have hpartner : (pieces ('\\' :: 'u' :: a' :: b' :: c' :: d' :: rest)).head?.any Piece.isLow =
        true := by
      rw [pieces_unit hsecond]
      exact hlow
    have hlength : (utf8 (done ++ ['\\', 'u', a, b, c, d] ++ ['\\', 'u', a', b', c', d'])).length =
        (utf8 done).length + 12 := by
      rw [length_utf8_unit hsecond, length_utf8_unit hfirst]
    have hnext := ih (hpassed (hpassed hdone ['\\', 'u', a, b, c, d])
      ['\\', 'u', a', b', c', d']) hout
    rw [hlength] at hnext
    simp only [List.append_assoc] at hnext
    rw [mendFrom_unit _ _ hfirst done _ rfl, if_pos ⟨hhigh, hpartner⟩,
      mendSurrogates_pair hfirst hsecond hhigh hlow]
    exact hnext
  | unit a b c d rest hdigits halone ih =>
    rw [mendFrom_unit _ _ hdigits done rest rfl, if_neg halone, mendSurrogates_unit hdigits halone]
    by_cases hsurrogate : ¬ (Piece.unit a b c d).isHigh ∧ ¬ (Piece.unit a b c d).isLow
    · have hnext := ih (hpassed hdone ['\\', 'u', a, b, c, d]) hout
      rw [length_utf8_unit hdigits] at hnext
      simp only [List.append_assoc] at hnext
      rw [if_pos hsurrogate, Piece.alone_of_not (by simpa using hsurrogate.1)
        (by simpa using hsurrogate.2)]
      exact hnext
    · have hslice := Text.slice?_utf8 before text ('\\' :: 'u' :: a :: b :: c :: d :: rest)
      rw [← hdone] at hslice
      rw [if_neg hsurrogate, hslice]
      -- what has been copied ends with the replacement
      have hnext : mendFrom (utf8 (done ++ ['\\', 'u', a, b, c, d] ++ rest)) _ _
          (some (out.getD [] ++ utf8 text ++ replacement)) = _ :=
        ih (List.append_nil _).symm nofun
      rw [length_utf8_unit hdigits, List.append_assoc] at hnext
      have hreplaced : (Piece.unit a b c d).alone = .unit 'f' 'f' 'f' 'd' := by
        rw [Piece.alone, if_pos]
        by_contra hneither
        exact hsurrogate (not_or.1 hneither)
      refine hnext.trans ?_
      rw [hreplaced, List.nil_append, Option.getD_some, Text.utf8_append text,
        Text.utf8_append _ (mendSurrogates rest)]
      simp [replacement, Piece.text]

/-- The bytes of every text are mended, and they are those of the mended text. -/
theorem mendBytes?_utf8 (text : List Char) :
    mendBytes? (utf8 text) = some (utf8 (mendSurrogates text)) := by
  have hmend : mendFrom (utf8 ([] ++ text)) (utf8 []).length (utf8 []).length none = _ :=
    mendFrom_utf8 (List.append_nil _).symm fun _ => rfl
  exact hmend

-- the backslash before a character of two bytes, and an escape cut off at the end, stay
example : mendBytes? (utf8 ['\\', 'é', '\\', 'u', 'd', '8', '0', '0', '\\', 'u', '1']) =
    some (utf8 ['\\', 'é', '\\', 'u', 'f', 'f', 'f', 'd', '\\', 'u', '1']) := by cbv

/-! ## Positions -/

def lineFeed : UInt8 := 0x0a

/-- Whether the escape of a surrogate at an index has been replaced. -/
def IsReplaced (bytes out : List UInt8) (start : Nat) : Prop :=
  (∃ unit, escapeAt? bytes start = some unit ∧ (Quoted.isHigh unit ∨ Quoted.isLow unit)) ∧
    (out.drop start).take 6 = replacement

/-- Whether bytes are others with some escapes of surrogates replaced. -/
inductive Replaced : List UInt8 → List UInt8 → Prop
  | nil : Replaced [] []
  | keep (b : UInt8) {bytes out : List UInt8} (h : Replaced bytes out) :
      Replaced (b :: bytes) (b :: out)
  | replace {escape : List UInt8} {unit : Nat} (hlength : escape.length = 6)
      (hunit : escape? escape = some unit) (hsurrogate : Quoted.isHigh unit ∨ Quoted.isLow unit)
      {bytes out : List UInt8} (h : Replaced bytes out) :
      Replaced (escape ++ bytes) (replacement ++ out)

theorem length_replacement : replacement.length = 6 := rfl

theorem getElem?_append_add {before : List UInt8} {n : Nat} (h : before.length = n)
    (bytes : List UInt8) (i : Nat) : (before ++ bytes)[n + i]? = bytes[i]? := by
  rw [← h, List.getElem?_append_right (Nat.le_add_right _ i), Nat.add_sub_cancel_left]

theorem escape?_append {escape : List UInt8} (h : escape.length = 6) (bytes : List UInt8) :
    escape? (escape ++ bytes) = escape? escape := by
  match escape, h with
  | [_, _, _, _, _, _], _ => rfl

theorem lineFeed_notMem_of_escape? {escape : List UInt8} (h : escape.length = 6) {unit : Nat}
    (hunit : escape? escape = some unit) : lineFeed ∉ escape := by
  match escape, h with
  | [mark, letter, a, b, c, d], _ =>
    simp only [escape?] at hunit
    split_ifs at hunit with hmark
    obtain ⟨rfl, rfl⟩ := hmark
    have hdigits := Quoted.isSome_unit?_iff.1 (Option.isSome_iff_exists.2 ⟨unit, hunit⟩)
    -- a line feed is neither a digit nor one of the two bytes before them
    have hdigit : lineFeed ∉ [d, c, b, a] := fun hmem =>
      absurd (hdigits _ (List.mem_map_of_mem hmem)) (by decide)
    have hmark : lineFeed ≠ markByte := by decide
    have hletter : lineFeed ≠ letterByte := by decide
    simp only [List.mem_cons, List.not_mem_nil, or_false, not_or] at hdigit ⊢
    exact ⟨hmark, hletter, hdigit.2.2.2, hdigit.2.2.1, hdigit.2.1, hdigit.1⟩

theorem lineFeed_notMem_replacement : lineFeed ∉ replacement := by decide

namespace Replaced

variable {bytes out : List UInt8}

theorem append_left (h : Replaced bytes out) (before : List UInt8) :
    Replaced (before ++ bytes) (before ++ out) := by
  induction before with
  | nil => exact h
  | cons b before ih => exact .keep b ih

theorem length_eq (h : Replaced bytes out) : out.length = bytes.length := by
  induction h with
  | nil => rfl
  | keep b _ ih => rw [List.length_cons, List.length_cons, ih]
  | replace hlength _ _ _ ih =>
    rw [List.length_append, List.length_append, ih, hlength]
    rfl

/-- A byte is the same, or it belongs to an escape that has been replaced. -/
theorem getElem?_eq_or (h : Replaced bytes out) (i : Nat) : out[i]? = bytes[i]? ∨
    ∃ start, start ≤ i ∧ i < start + 6 ∧ IsReplaced bytes out start := by
  induction h generalizing i with
  | nil => exact Or.inl rfl
  | keep b _ ih =>
    cases i with
    | zero => exact Or.inl rfl
    | succ i =>
      rcases ih i with heq | ⟨start, hle, hlt, hreplaced⟩
      · exact Or.inl heq
      · exact Or.inr ⟨start + 1, by omega, by omega, hreplaced⟩
  | @replace escape unit hlength hunit hsurrogate bytes out _ ih =>
    by_cases hi : i < 6
    · refine Or.inr ⟨0, Nat.zero_le i, hi, ⟨unit, ?_, hsurrogate⟩, rfl⟩
      rw [escapeAt?, List.drop_zero, escape?_append hlength, hunit]
    · obtain ⟨j, rfl⟩ := Nat.exists_eq_add_of_le (Nat.le_of_not_lt hi)
      rw [getElem?_append_add hlength, getElem?_append_add length_replacement]
      rcases ih j with heq | ⟨start, hle, hlt, ⟨unit', hunit', hsurrogate'⟩, hreplacement⟩
      · exact Or.inl heq
      · refine Or.inr ⟨6 + start, by omega, by omega, ⟨unit', ?_, hsurrogate'⟩, ?_⟩
        · rw [escapeAt?, ← hlength, List.drop_length_add_append]
          exact hunit'
        · rw [← length_replacement, List.drop_length_add_append]
          exact hreplacement

/-- Line feeds stay where they are. -/
theorem lineFeed_iff (h : Replaced bytes out) (i : Nat) :
    out[i]? = some lineFeed ↔ bytes[i]? = some lineFeed := by
  induction h generalizing i with
  | nil => exact Iff.rfl
  | keep b _ ih =>
    cases i with
    | zero => exact Iff.rfl
    | succ i => exact ih i
  | @replace escape unit hlength hunit _ bytes out _ ih =>
    by_cases hi : i < 6
    · have hescape : i < escape.length := by omega
      have hreplacement : i < replacement.length := hi
      rw [List.getElem?_append_left hescape, List.getElem?_append_left hreplacement]
      constructor
      · intro hfeed
        exact absurd (List.mem_of_getElem? hfeed) lineFeed_notMem_replacement
      · intro hfeed
        exact absurd (List.mem_of_getElem? hfeed) (lineFeed_notMem_of_escape? hlength hunit)
    · obtain ⟨j, rfl⟩ := Nat.exists_eq_add_of_le (Nat.le_of_not_lt hi)
      rw [getElem?_append_add hlength, getElem?_append_add length_replacement]
      exact ih j

end Replaced

/-- The bytes of a piece that is a surrogate are an escape. -/
theorem escape?_of_isSurrogate {p : Piece} (h : p.isHigh ∨ p.isLow) :
    (utf8 p.text).length = 6 ∧ ∃ unit, escape? (utf8 p.text) = some unit ∧
      (Quoted.isHigh unit ∨ Quoted.isLow unit) := by
  cases p with
  | plain c => rcases h with h | h <;> cases h
  | escape c => rcases h with h | h <;> cases h
  | unit a b c d =>
    cases hunit : (Piece.unit a b c d).unit? with
    | none => simp [Piece.isHigh, Piece.isLow, hunit] at h
    | some unit =>
      have hdigits := Quoted.exists_unit?_iff.1 ⟨unit, hunit⟩
      refine ⟨length_utf8_unit hdigits [], unit, ?_, ?_⟩
      · rw [Piece.text, escape?_utf8, pieces_unit hdigits]
        exact hunit
      · simpa [Piece.isHigh, Piece.isLow, hunit] using h

/-- Mended pieces have the bytes of the pieces, but for the escapes that are replaced. -/
theorem replaced_mendAfter (high : Bool) (ps : List Piece) :
    Replaced (utf8 (textOf ps)) (utf8 (textOf (mendAfter high ps))) := by
  induction ps generalizing high with
  | nil => exact .nil
  | cons p ps ih =>
    have hkept := (ih p.isHigh).append_left (utf8 p.text)
    rw [mendAfter, textOf, textOf, List.flatMap_cons, List.flatMap_cons, Text.utf8_append,
      Text.utf8_append]
    split_ifs
    · exact hkept
    · unfold Piece.alone
      split_ifs with hsurrogate
      · obtain ⟨hlength, unit, hunit, hvalue⟩ := escape?_of_isSurrogate hsurrogate
        exact .replace hlength hunit hvalue (ih p.isHigh)
      · exact hkept

/-- **Mending keeps positions.** The pass over the bytes of a text ends and takes no slice that cuts
    a character. It leaves the number of bytes as it is, each byte that does not belong to an escape
    it replaces, and all line feeds, and it finds nothing to replace in what it has made. -/
theorem mendSurrogates_keeps (text : List Char) :
    mendBytes? (utf8 text) = some (utf8 (mendSurrogates text)) ∧
    (utf8 (mendSurrogates text)).length = (utf8 text).length ∧
    (∀ i : Nat, (utf8 (mendSurrogates text))[i]? = (utf8 text)[i]? ∨
      ∃ start, start ≤ i ∧ i < start + 6 ∧
        IsReplaced (utf8 text) (utf8 (mendSurrogates text)) start) ∧
    (∀ i : Nat,
      (utf8 (mendSurrogates text))[i]? = some lineFeed ↔ (utf8 text)[i]? = some lineFeed) ∧
    mendBytes? (utf8 (mendSurrogates text)) = some (utf8 (mendSurrogates text)) := by
  have hreplaced := replaced_mendAfter false (pieces text)
  rw [← mend_eq_mendAfter, ← mendSurrogates, textOf_pieces] at hreplaced
  have hidempotent := mendBytes?_utf8 (mendSurrogates text)
  rw [mendSurrogates_mendSurrogates] at hidempotent
  exact ⟨mendBytes?_utf8 text, hreplaced.length_eq, hreplaced.getElem?_eq_or,
    hreplaced.lineFeed_iff, hidempotent⟩

end GuideCheck.Json
