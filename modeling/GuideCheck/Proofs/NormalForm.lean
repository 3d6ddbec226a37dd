import GuideCheck.Proofs.Encoding
import GuideCheck.Proofs.Keys
import GuideCheck.Proofs.Reading

set_option autoImplicit false

/-! # What values a reader yields

The reader yields values in normal form (`Json.IsNormal`): the members of an object stand in the
order of the bytes of their keys, one for each key, and integers are in range. The order of bytes is
the order of characters, because a smaller character has smaller bytes, whatever follows
(`Text.encode_lt_encode`). -/

namespace GuideCheck

/-! ## The order of keys -/

namespace Text

/-- The first byte decides, unless it is the same. -/
theorem ofNat_cons_lt {m n : Nat} {s t : List UInt8} (hn : n < 256) (hle : m ≤ n)
    (h : m = n → s < t) : UInt8.ofNat m :: s < UInt8.ofNat n :: t := by
  rcases Nat.lt_or_eq_of_le hle with hlt | rfl
  · refine List.cons_lt_cons_iff.2 (.inl (UInt8.lt_iff_toNat_lt.2 ?_))
    rw [UInt8.toNat_ofNat', UInt8.toNat_ofNat', Nat.mod_eq_of_lt hn, Nat.mod_eq_of_lt (by omega)]
    exact hlt
  · exact List.cons_lt_cons_iff.2 (.inr ⟨rfl, h rfl⟩)

/-- The bytes of a smaller character are smaller, whatever follows. -/
theorem encode_lt_encode {c d : Char} (h : c < d) (s t : List UInt8) :
    String.utf8EncodeChar c ++ s < String.utf8EncodeChar d ++ t := by
  have hval : c.val.toNat < d.val.toNat := UInt32.lt_iff_toNat_lt.1 (Char.lt_def.1 h)
  have hmax : d.val.toNat < 0x110000 := by
    have hvalid := d.valid
    rw [UInt32.isValidChar, Nat.isValidChar] at hvalid
    omega
  unfold String.utf8EncodeChar
  generalize c.val.toNat = m at hval
  generalize d.val.toNat = n at hval hmax
  dsimp only
  simp only [apply_ite (· ++ s), apply_ite (· ++ t), List.cons_append, List.nil_append]
  -- a smaller character is not longer; if it is as long, the first digit in base 64 that differs
  -- decides, and if it is shorter, the mark on the first byte
  split_ifs
  all_goals repeat first | omega | refine ofNat_cons_lt (by omega) (by omega) fun _ => ?_

theorem utf8_lt_utf8_of_lt {s t : List Char} (h : s < t) : utf8 s < utf8 t := by
  induction h with
  | nil =>
    obtain ⟨first, others, hencode⟩ := exists_encode_eq_cons ‹Char›
    rw [utf8_cons, hencode]
    exact .nil
  | rel hlt => exact encode_lt_encode hlt _ _
  | cons _ ih => exact List.append_left_lt ih

end Text

/-- Whether a text comes before another one by their bytes in UTF-8. -/
def ByteLt (a b : String) : Prop := Text.utf8 a.toList < Text.utf8 b.toList

instance (a b : String) : Decidable (ByteLt a b) :=
  inferInstanceAs (Decidable (Text.utf8 a.toList < Text.utf8 b.toList))

theorem byteLt_iff {a b : String} : ByteLt a b ↔ a < b := by
  refine ⟨fun h => ?_, fun h => Text.utf8_lt_utf8_of_lt (String.lt_iff.1 h)⟩
  rcases lt_trichotomy a b with hlt | rfl | hgt
  · exact hlt
  · exact absurd h (List.lt_irrefl _)
  · exact absurd h (List.lt_asymm (Text.utf8_lt_utf8_of_lt (String.lt_iff.1 hgt)))

/-! ## Values in range -/

/-- Whether an integer is kept as one when it is read: all others become doubles. -/
def Number.IsAdmitted (n : Int) : Prop := -2 ^ 63 ≤ n ∧ n < 2 ^ 64

instance (n : Int) : Decidable (Number.IsAdmitted n) :=
  inferInstanceAs (Decidable (-2 ^ 63 ≤ n ∧ n < 2 ^ 64))

namespace Json

/-- Whether all integers in a value are in range. -/
inductive IsInRange : Json → Prop
  | null : IsInRange .null
  | bool (b : Bool) : IsInRange (.bool b)
  | int {n : Int} (h : Number.IsAdmitted n) : IsInRange (.num (.int n))
  | double (x : Double) : IsInRange (.num (.double x))
  | str (text : String) : IsInRange (.str text)
  | arr {items : List Json} (parts : ∀ item ∈ items, IsInRange item) : IsInRange (.arr items)
  | obj {members : List (String × Json)} (parts : ∀ member ∈ members, IsInRange member.2) :
      IsInRange (.obj members)

namespace Numeral

theorem digit?_le {c : Char} {d : Nat} (h : digit? c = some d) : d ≤ 9 := by
  unfold digit? at h
  split_ifs at h with hdigit
  cases h
  have hle : c.toNat ≤ '9'.toNat := UInt32.le_iff_toNat_le.1 hdigit.2
  have hnine : '9'.toNat = 57 := rfl
  have hzero : '0'.toNat = 48 := rfl
  omega

theorem significand_firstDigit {c : Char} {d : Nat} (h : digit? c = some d) (negative : Bool) :
    (firstDigit negative d).significand ≤ maxSignificand := by
  have hle := digit?_le h
  have hmax : 9 ≤ maxSignificand := by decide
  exact Nat.le_trans hle hmax

variable {n next : Numeral} {c : Char}

theorem significand_addWhole (h : n.significand ≤ maxSignificand) (d : Nat) :
    (n.addWhole d).significand ≤ maxSignificand := by
  unfold addWhole
  split_ifs with hfits
  · exact of_decide_eq_true hfits
  · exact h

theorem significand_addFraction (h : n.significand ≤ maxSignificand) (d : Nat) :
    (n.addFraction d).significand ≤ maxSignificand := by
  unfold addFraction
  split_ifs with hfits
  · exact of_decide_eq_true hfits
  · exact h

theorem significand_addPower (h : n.significand ≤ maxSignificand) {negative : Bool} {value d : Nat}
    (hstep : n.addPower negative value d = .more next) : next.significand ≤ maxSignificand := by
  unfold addPower at hstep
  split_ifs at hstep <;> cases hstep <;> exact h

theorem significand_afterDigits (h : n.significand ≤ maxSignificand) {pointAllowed : Bool}
    (hstep : n.afterDigits pointAllowed c = .more next) : next.significand ≤ maxSignificand := by
  unfold afterDigits at hstep
  split_ifs at hstep <;> cases hstep <;> exact h

/-- The significand of a literal never exceeds 64 bits. -/
theorem significand_of_more (h : n.significand ≤ maxSignificand) (hstep : n.step c = .more next) :
    next.significand ≤ maxSignificand := by
  unfold step at hstep
  split at hstep
  case h_1 hdigit => cases hstep; exact significand_firstDigit hdigit _
  case h_4 | h_6 | h_8 | h_12 | h_14 => exact significand_afterDigits h hstep
  case h_5 => cases hstep; exact significand_addWhole h _
  case h_9 | h_11 => cases hstep; exact significand_addFraction h _
  case h_15 | h_17 | h_19 => exact significand_addPower h hstep
  case h_16 => split_ifs at hstep <;> cases hstep <;> exact h
  all_goals
    cases hstep
    try exact h

theorem isInRange_of_finish (h : n.significand ≤ maxSignificand) {number : Number}
    (hfinish : n.finish = some number) : (Json.num number).IsInRange := by
  have hmax : maxSignificand < 2 ^ 64 := by decide
  have hinteger : (Json.num n.integer).IsInRange := by
    unfold integer
    split_ifs with hnegative hdouble
    · exact .double _
    · have hle : n.significand ≤ 2 ^ 63 := by
        rw [not_or, not_lt] at hdouble
        exact hdouble.2
      refine .int ⟨?_, ?_⟩ <;> omega
    · refine .int ⟨?_, ?_⟩ <;> omega
  unfold finish at hfinish
  split at hfinish
  · cases hfinish
    exact hinteger
  · cases hfinish
    exact hinteger
  · cases hfinish
    exact .double _
  · obtain ⟨x, -, rfl⟩ := Option.map_eq_some_iff.1 hfinish
    exact .double x
  · obtain ⟨x, -, rfl⟩ := Option.map_eq_some_iff.1 hfinish
    exact .double x

end Numeral

/-! ## What the reader has read so far -/

/-- Whether the values in a frame are in range. -/
def Frame.IsInRange : Frame → Prop
  | array items => ∀ item ∈ items, item.IsInRange
  | object members _ => ∀ member ∈ members, member.2.IsInRange

/-- Whether what has been read of the next value is in range. -/
def Expected.IsInRange : Expected → Prop
  | word _ result | nothing result => result.IsInRange
  | number numeral => numeral.significand ≤ Numeral.maxSignificand
  | _ => True

theorem Frame.IsInRange.value {frame : Frame} (h : frame.IsInRange) : frame.value.IsInRange := by
  cases frame with
  | array items => exact .arr fun item hitem => h item (List.mem_reverse.1 hitem)
  | object members key => exact .obj fun member hmember => h member (List.mem_reverse.1 hmember)

namespace Reader

/-- Whether everything that has been read is in range. -/
structure IsInRange (state : Reader) : Prop where
  frames : ∀ frame ∈ state.frames, frame.IsInRange
  expected : state.expected.IsInRange

variable {frames : List Frame} {value : Json} {c : Char} {next : Reader}

theorem isInRange_give (hframes : ∀ frame ∈ frames, frame.IsInRange) (hvalue : value.IsInRange) :
    (give frames value).IsInRange := by
  match frames with
  | [] => exact ⟨nofun, hvalue⟩
  | .array items :: outer =>
    rw [List.forall_mem_cons] at hframes
    exact ⟨List.forall_mem_cons.2 ⟨List.forall_mem_cons.2 ⟨hvalue, hframes.1⟩, hframes.2⟩, trivial⟩
  | .object members key :: outer =>
    rw [List.forall_mem_cons] at hframes
    exact ⟨List.forall_mem_cons.2 ⟨List.forall_mem_cons.2 ⟨hvalue, hframes.1⟩, hframes.2⟩, trivial⟩

theorem isInRange_giveKey (hframes : ∀ frame ∈ frames, frame.IsInRange) (key : String) :
    (giveKey frames key).IsInRange := by
  match frames with
  | [] => exact ⟨nofun, trivial⟩
  | .array items :: outer => exact ⟨hframes, trivial⟩
  | .object members other :: outer =>
    rw [List.forall_mem_cons] at hframes
    exact ⟨List.forall_mem_cons.2 ⟨hframes.1, hframes.2⟩, trivial⟩

theorem isInRange_close (hframes : ∀ frame ∈ frames, frame.IsInRange) :
    (close frames).IsInRange := by
  match frames with
  | [] => exact ⟨nofun, .null⟩
  | frame :: outer =>
    rw [List.forall_mem_cons] at hframes
    exact isInRange_give hframes.2 hframes.1.value

theorem isInRange_of_enter {frame : Frame} {expected : Expected}
    (hframes : ∀ frame ∈ frames, frame.IsInRange) (hframe : frame.IsInRange)
    (hexpected : expected.IsInRange) (h : enter frames frame expected = .ok next) :
    next.IsInRange := by
  rw [eq_of_enter h]
  exact ⟨List.forall_mem_cons.2 ⟨hframe, hframes⟩, hexpected⟩

theorem isInRange_of_stepValue {place : Place} (hframes : ∀ frame ∈ frames, frame.IsInRange)
    (h : stepValue frames place c = .ok next) : next.IsInRange := by
  unfold stepValue at h
  split at h
  · cases h
    exact ⟨hframes, trivial⟩
  · split at h
    · cases h
      exact ⟨hframes, trivial⟩
    · refine isInRange_of_enter hframes ?_ ?_ h
      · exact List.forall_mem_nil _
      · trivial
    · refine isInRange_of_enter hframes ?_ ?_ h
      · exact List.forall_mem_nil _
      · trivial
    · cases h
      exact ⟨hframes, .null⟩
    · cases h
      exact ⟨hframes, .bool true⟩
    · cases h
      exact ⟨hframes, .bool false⟩
    · cases h
      exact ⟨hframes, Nat.zero_le _⟩
    · split at h
      · next hdigit =>
        cases h
        exact ⟨hframes, Numeral.significand_firstDigit hdigit false⟩
      · split_ifs at h
        cases h
        exact isInRange_close hframes

theorem isInRange_of_stepKey {first : Bool} (hframes : ∀ frame ∈ frames, frame.IsInRange)
    (h : stepKey frames first c = .ok next) : next.IsInRange := by
  unfold stepKey at h
  split_ifs at h
  · cases h
    exact ⟨hframes, trivial⟩
  · cases h
    exact ⟨hframes, trivial⟩
  · cases h
    exact isInRange_close hframes

theorem isInRange_of_stepComma (hframes : ∀ frame ∈ frames, frame.IsInRange)
    (h : stepComma frames c = .ok next) : next.IsInRange := by
  unfold stepComma at h
  split at h
  · cases h
    exact ⟨hframes, trivial⟩
  · split at h
    · split_ifs at h
      · cases h
        exact ⟨hframes, trivial⟩
      · cases h
        exact isInRange_close hframes
    · split_ifs at h
      · cases h
        exact ⟨hframes, trivial⟩
      · cases h
        exact isInRange_close hframes

theorem isInRange_of_stepNothing (hvalue : value.IsInRange)
    (h : stepNothing value c = .ok next) : next.IsInRange := by
  unfold stepNothing at h
  split_ifs at h
  cases h
  exact ⟨nofun, hvalue⟩

theorem isInRange_of_stepAfter (hframes : ∀ frame ∈ frames, frame.IsInRange)
    (hvalue : value.IsInRange) (h : stepAfter frames value c = .ok next) : next.IsInRange := by
  have hgive := isInRange_give hframes hvalue
  unfold stepAfter at h
  split at h
  · next hafter =>
    rw [hafter] at hgive
    exact isInRange_of_stepNothing hgive.expected h
  · exact isInRange_of_stepComma hgive.frames h

theorem IsInRange.step {state : Reader} (hstate : state.IsInRange) {offset : Nat}
    (h : state.step offset c = .ok next) : next.IsInRange := by
  obtain ⟨frames, expected⟩ := state
  obtain ⟨hframes, hexpected⟩ := hstate
  cases expected with
  | value place => exact isInRange_of_stepValue hframes (eq_ok_of_reported h)
  | key first => exact isInRange_of_stepKey hframes (eq_ok_of_reported h)
  | comma => exact isInRange_of_stepComma hframes (eq_ok_of_reported h)
  | nothing value => exact isInRange_of_stepNothing hexpected (eq_ok_of_reported h)
  | colon =>
    simp only [Reader.step] at h
    split_ifs at h
    · cases h
      exact ⟨hframes, trivial⟩
    · cases h
      exact ⟨hframes, trivial⟩
  | word rest value =>
    cases rest with
    | nil =>
      cases h
      exact isInRange_give hframes hexpected
    | cons w rest =>
      simp only [Reader.step] at h
      split_ifs at h
      · cases h
        exact isInRange_give hframes hexpected
      · cases h
        exact ⟨hframes, hexpected⟩
  | number numeral =>
    simp only [Reader.step] at h
    split at h
    · next hmore =>
      cases h
      exact ⟨hframes, Numeral.significand_of_more hexpected hmore⟩
    · cases h
    · split at h
      · next hfinish =>
        exact isInRange_of_stepAfter hframes (Numeral.isInRange_of_finish hexpected hfinish)
          (eq_ok_of_reported h)
      · cases h
  | keyText quoted =>
    simp only [Reader.step] at h
    split at h
    · cases h
      exact ⟨hframes, trivial⟩
    · cases h
      exact isInRange_giveKey hframes _
    · cases h
  | valueText quoted =>
    simp only [Reader.step] at h
    split at h
    · cases h
      exact ⟨hframes, trivial⟩
    · cases h
      exact isInRange_give hframes (.str _)
    · cases h

theorem IsInRange.endAfter {state : Reader} (hstate : state.IsInRange)
    (h : state.endAfter = .ok value) : value.IsInRange := by
  unfold Reader.endAfter at h
  split at h
  · cases h
    exact hstate.expected
  · cases h
  · cases h

theorem IsInRange.finish {state : Reader} (hstate : state.IsInRange)
    (h : state.finish = .ok value) : value.IsInRange := by
  unfold Reader.finish at h
  split at h
  case h_6 | h_7 => exact hstate.endAfter h
  case h_9 numeral hnumber =>
    have hnumeral : numeral.significand ≤ Numeral.maxSignificand := by
      have hexpected := hstate.expected
      rwa [hnumber] at hexpected
    split_ifs at h
    split at h
    · next hfinish =>
      have hvalue := Numeral.isInRange_of_finish hnumeral hfinish
      exact (isInRange_give hstate.frames hvalue).endAfter h
    · cases h
  all_goals cases h

theorem IsInRange.run {state : Reader} (hstate : state.IsInRange) {offset : Nat}
    {text : List Char} (h : state.run offset text = .ok value) : value.IsInRange := by
  induction text generalizing state offset with
  | nil =>
    rw [Reader.run] at h
    cases hfinish : state.finish with
    | ok result =>
      rw [hfinish] at h
      cases h
      exact hstate.finish hfinish
    | error cause =>
      rw [hfinish] at h
      cases h
  | cons c text ih =>
    rw [Reader.run] at h
    cases hstep : state.step offset c with
    | ok next =>
      rw [hstep] at h
      exact ih (hstate.step hstep) h
    | error fault =>
      rw [hstep] at h
      cases h

end Reader

/-! ## The normal form -/

/-- Whether a value is in normal form: integers are in range, and the members of each object stand
    in the order of the bytes of their keys, so that there is one for each key. -/
inductive IsNormal : Json → Prop
  | null : IsNormal .null
  | bool (b : Bool) : IsNormal (.bool b)
  | int {n : Int} (h : Number.IsAdmitted n) : IsNormal (.num (.int n))
  | double (x : Double) : IsNormal (.num (.double x))
  | str (text : String) : IsNormal (.str text)
  | arr {items : List Json} (parts : ∀ item ∈ items, IsNormal item) : IsNormal (.arr items)
  | obj {members : List (String × Json)}
      (ordered : members.Pairwise fun member later => ByteLt member.1 later.1)
      (parts : ∀ member ∈ members, IsNormal member.2) : IsNormal (.obj members)

theorem IsInRange.isNormal_normal {value : Json} (h : value.IsInRange) : value.normal.IsNormal := by
  induction h with
  | null => exact .null
  | bool b => exact .bool b
  | int h => exact .int h
  | double x => exact .double x
  | str text => exact .str text
  | arr _ ih =>
    rw [normal, normalItems_eq_map]
    exact .arr (List.forall_mem_map.2 ih)
  | @obj members _ ih =>
    rw [normal, normalMembers_eq_map]
    refine .obj ?_ fun member hmember => ?_
    · exact (pairwise_sortMembers _).imp byteLt_iff.2
    · obtain ⟨source, hsource, rfl⟩ := List.mem_map.1 (mem_of_mem_sortMembers hmember)
      exact ih source hsource

/-- **The reader yields values in normal form.** -/
theorem isNormal_of_parse {text : List Char} {value : Json} (h : parse text = .ok value) :
    value.IsNormal := by
  rw [parse, read] at h
  cases hrun : Reader.initial.run 0 text with
  | ok result =>
    rw [hrun] at h
    cases h
    have hinitial : Reader.initial.IsInRange := ⟨List.forall_mem_nil _, trivial⟩
    exact (hinitial.run hrun).isNormal_normal
  | error fault =>
    rw [hrun] at h
    cases h

end Json

end GuideCheck
