import GuideCheck.Json.Writer
import GuideCheck.Proofs.Reading
import Mathlib.Tactic.IntervalCases

set_option autoImplicit false

/-! # Written JSON is read back

A reader that meets the compact form of a value ends up where it would be if it had been given the
value (`Reader.Yields`), whatever frames are open and whatever follows. For strings that is because
the escape of a character leads a string literal to that character and to no other
(`Quoted.feed_escapeChar`), for numbers because each digit is added to those before it. Arrays and
objects are closed over these by induction on the value.

Numbers are natural numbers of at most 64 bits here, and the depth of a value is bounded as the
reader bounds it. -/

namespace GuideCheck.Json

/-! ## Strings -/

namespace Quoted

/-- The string literal after some more characters that neither close nor break it. -/
def feed (q : Quoted) : List Char → Option Quoted
  | [] => some q
  | c :: cs =>
    match q.step c with
    | .more next => next.feed cs
    | _ => none

theorem feed_append {q next : Quoted} {cs : List Char} (h : q.feed cs = some next)
    (ds : List Char) : q.feed (cs ++ ds) = next.feed ds := by
  induction cs generalizing q with
  | nil =>
    cases h
    rfl
  | cons c cs ih =>
    simp only [List.cons_append, feed] at h ⊢
    cases hstep : q.step c with
    | more q' =>
      rw [hstep] at h
      exact ih h
    | closed text => rw [hstep] at h; cases h
    | fault cause past => rw [hstep] at h; cases h

theorem feed_cons {q next : Quoted} {c : Char} (h : q.step c = .more next) (cs : List Char) :
    q.feed (c :: cs) = next.feed cs := by
  simp only [feed, h]

/-- The four hexadecimal digits of a control character stand for it: there are only few of them. -/
theorem feed_hexDigits (chars : List Char) {n : Nat} (h : n < 0x20) :
    feed ⟨chars, .hex []⟩ ['0', '0', hexDigit (n / 16), hexDigit (n % 16)] =
      some ⟨Char.ofNat n :: chars, .plain⟩ := by
  interval_cases n <;> rfl

/-- The escape of a character leads to the character. -/
theorem feed_escapeChar (chars : List Char) (c : Char) :
    feed ⟨chars, .plain⟩ (escapeChar c) = some ⟨c :: chars, .plain⟩ := by
  unfold escapeChar
  split
  case h_8 hquote hbackslash _ _ _ _ _ =>
    by_cases hcontrol : c.toNat < 0x20
    · rw [if_pos hcontrol]
      have hdigits := feed_hexDigits chars hcontrol
      rw [Char.ofNat_toNat] at hdigits
      exact hdigits
    · rw [if_neg hcontrol]
      have hstep : step ⟨chars, .plain⟩ c = .more ⟨c :: chars, .plain⟩ := by
        simp only [step]
        rw [if_neg hquote, if_neg hbackslash, if_neg hcontrol, push]
      exact feed_cons hstep []
  all_goals rfl

theorem feed_escaped (chars text : List Char) :
    feed ⟨chars, .plain⟩ (text.flatMap escapeChar) = some ⟨text.reverse ++ chars, .plain⟩ := by
  induction text generalizing chars with
  | nil => rfl
  | cons c text ih =>
    rw [List.flatMap_cons, feed_append (feed_escapeChar chars c), ih, List.reverse_cons,
      List.append_assoc]
    rfl

end Quoted

namespace Reader

/-! ## Reading strings -/

section

variable (frames : List Frame) (inside : Quoted → Expected)
  (hmore : ∀ {q next : Quoted} {c : Char}, q.step c = .more next →
    next? ⟨frames, inside q⟩ c = some ⟨frames, inside next⟩)

include hmore

theorem value?_feed {q next : Quoted} {cs : List Char} (h : q.feed cs = some next)
    (rest : List Char) :
    value? ⟨frames, inside q⟩ (cs ++ rest) = value? ⟨frames, inside next⟩ rest := by
  induction cs generalizing q with
  | nil =>
    cases h
    rfl
  | cons c cs ih =>
    simp only [Quoted.feed] at h
    cases hstep : q.step c with
    | more q' =>
      rw [hstep] at h
      rw [List.cons_append, value?_cons, hmore hstep]
      exact ih h
    | closed text => rw [hstep] at h; cases h
    | fault cause past => rw [hstep] at h; cases h

/-- What follows the opening quote of a written string leads to the string. -/
theorem value?_escaped (after : String → Reader)
    (hclosed : ∀ {q : Quoted} {c : Char} {text : String}, q.step c = .closed text →
      next? ⟨frames, inside q⟩ c = some (after text))
    (text : String) (rest : List Char) :
    value? ⟨frames, inside .opened⟩ (text.toList.flatMap escapeChar ++ '"' :: rest) =
      (after text).value? rest := by
  have hfeed := Quoted.feed_escaped [] text.toList
  rw [List.append_nil] at hfeed
  have hquote : Quoted.step ⟨text.toList.reverse, .plain⟩ '"' = .closed text := by
    simp only [Quoted.step, if_true, List.reverse_reverse, String.ofList_toList]
  rw [Quoted.opened, value?_feed frames inside hmore hfeed, value?_cons, hclosed hquote,
    Option.bind_some]

end

/-- A written key is read back. -/
theorem value?_quote_key (frames : List Frame) (first : Bool) (key : String) (rest : List Char) :
    value? ⟨frames, .key first⟩ (quote key ++ rest) = (giveKey frames key).value? rest := by
  have hopen : next? ⟨frames, .key first⟩ '"' = some ⟨frames, .keyText .opened⟩ := rfl
  rw [quote, List.cons_append, List.cons_append, value?_cons, hopen, Option.bind_some,
    List.append_assoc]
  refine value?_escaped frames .keyText ?_ (giveKey frames) ?_ key rest
  · intro q next c hstep
    simp only [next?, step, hstep, Except.toOption]
  · intro q c text hstep
    simp only [next?, step, hstep, Except.toOption]

/-! ## Reading values -/

/-- Whether no number goes on into a text. -/
def EndsNumber (rest : List Char) : Prop :=
  ∀ c ∈ rest.head?, Numeral.digit? c = none ∧ c ≠ '.' ∧ c ≠ 'e' ∧ c ≠ 'E'

/-- Whether a text of some depth is read as a value, whatever is open and whatever follows. -/
def Yields (depth : Nat) (text : List Char) (value : Json) : Prop :=
  ∀ (frames : List Frame) (place : Place) (rest : List Char),
    frames.length + depth ≤ maxDepth → EndsNumber rest →
      value? ⟨frames, .value place⟩ (text ++ rest) = (give frames value).value? rest

theorem yields_quote (depth : Nat) (text : String) : Yields depth (quote text) (.str text) := by
  intro frames place rest _ _
  have hopen : next? ⟨frames, .value place⟩ '"' = some ⟨frames, .valueText .opened⟩ := rfl
  rw [quote, List.cons_append, List.cons_append, value?_cons, hopen, Option.bind_some,
    List.append_assoc]
  refine value?_escaped frames .valueText ?_ (fun text => give frames (.str text)) ?_ text rest
  · intro q next c hstep
    simp only [next?, step, hstep, Except.toOption]
  · intro q c text hstep
    simp only [next?, step, hstep, Except.toOption]

/-! ### Numbers -/

theorem digit?_digitChar {d : Nat} (h : d < 10) : Numeral.digit? d.digitChar = some d := by
  interval_cases d <;> rfl

theorem next?_digitChar (frames : List Frame) (place : Place) {d : Nat} (h : d < 10) :
    next? ⟨frames, .value place⟩ d.digitChar = some ⟨frames, .number (.firstDigit false d)⟩ := by
  interval_cases d <;> rfl

theorem step_firstDigit {n d : Nat} (hn : n ≠ 0) (hd : d < 10)
    (hfits : n * 10 + d ≤ Numeral.maxSignificand) :
    (Numeral.firstDigit false n).step d.digitChar =
      .more (.firstDigit false (n * 10 + d)) := by
  have hsum : n * 10 + d ≠ 0 := by omega
  simp only [Numeral.firstDigit, if_neg hn, if_neg hsum, Numeral.step, digit?_digitChar hd,
    Numeral.addWhole, Numeral.fits, hfits, decide_true, if_true]

/-- The digits of a number make up the number. -/
theorem value?_toDigits (frames : List Frame) (place : Place) {n : Nat}
    (h : n ≤ Numeral.maxSignificand) (rest : List Char) :
    value? ⟨frames, .value place⟩ (Nat.toDigits 10 n ++ rest) =
      value? ⟨frames, .number (.firstDigit false n)⟩ rest := by
  induction n using Nat.strongRecOn generalizing rest with
  | ind n ih =>
    by_cases hsmall : n < 10
    · rw [Nat.toDigits_of_lt_base hsmall, List.singleton_append, value?_cons,
        next?_digitChar frames place hsmall, Option.bind_some]
    · have hdigit : n % 10 < 10 := Nat.mod_lt n (by decide)
      have hparts : n / 10 * 10 + n % 10 = n := by omega
      have hstep := step_firstDigit (n := n / 10) (by omega) hdigit (by omega)
      rw [hparts] at hstep
      have hnext : next? ⟨frames, .number (.firstDigit false (n / 10))⟩ (n % 10).digitChar =
          some ⟨frames, .number (.firstDigit false n)⟩ := by
        simp only [next?, step, hstep, Except.toOption]
      rw [Nat.toDigits_of_base_le (by decide) (by omega), List.append_assoc,
        ih (n / 10) (by omega) (by omega), List.singleton_append, value?_cons, hnext,
        Option.bind_some]

theorem step_firstDigit_of_ends (n : Nat) {c : Char}
    (h : Numeral.digit? c = none ∧ c ≠ '.' ∧ c ≠ 'e' ∧ c ≠ 'E') :
    (Numeral.firstDigit false n).step c = .done := by
  obtain ⟨hdigit, hpoint, hlower, hupper⟩ := h
  by_cases hn : n = 0 <;>
    simp [Numeral.firstDigit, hn, Numeral.step, hdigit, Numeral.afterDigits, hpoint, hlower, hupper]

theorem finish_firstDigit (n : Nat) : (Numeral.firstDigit false n).finish = some (.int n) := by
  by_cases hn : n = 0 <;> simp [Numeral.firstDigit, hn, Numeral.finish, Numeral.integer]

theorem canEnd_firstDigit (n : Nat) : (Numeral.firstDigit false n).canEnd = true := by
  by_cases hn : n = 0 <;> simp [Numeral.firstDigit, hn, Numeral.canEnd]

theorem finish_give (frames : List Frame) (value : Json) :
    (give frames value).finish = (give frames value).endAfter := by
  rcases frames with _ | ⟨_ | _, _⟩ <;> rfl

theorem next?_give (frames : List Frame) (value : Json) (c : Char) :
    (give frames value).next? c = (stepAfter frames value c).toOption := by
  rcases frames with _ | ⟨_ | _, _⟩ <;> exact toOption_reported 0 _

/-- A number that does not go on is given like any other value. -/
theorem value?_number (frames : List Frame) (n : Nat) {rest : List Char} (h : EndsNumber rest) :
    value? ⟨frames, .number (.firstDigit false n)⟩ rest =
      (give frames (.ofNat n)).value? rest := by
  cases rest with
  | nil =>
    rw [value?_nil, value?_nil, finish_give]
    simp only [finish, finish_firstDigit, canEnd_firstDigit, not_true_eq_false, if_false]
    rfl
  | cons c rest =>
    have hstep := step_firstDigit_of_ends n (h c rfl)
    have hnext : next? ⟨frames, .number (.firstDigit false n)⟩ c =
        (give frames (.ofNat n)).next? c := by
      rw [next?_give]
      simp only [next?, step, hstep, finish_firstDigit, toOption_reported]
      rfl
    rw [value?_cons, value?_cons, hnext]

theorem yields_toDigits (depth : Nat) {n : Nat} (h : n ≤ Numeral.maxSignificand) :
    Yields depth (Nat.toDigits 10 n) (.ofNat n) := by
  intro frames place rest _ hends
  rw [value?_toDigits frames place h, value?_number frames n hends]

/-! ### Words -/

theorem yields_null (depth : Nat) : Yields depth (write .null) .null := by
  intro frames place rest _ _
  simp only [write, List.cons_append, List.nil_append, value?_cons]
  rfl

theorem yields_bool (depth : Nat) (b : Bool) : Yields depth (write (.bool b)) (.bool b) := by
  intro frames place rest _ _
  cases b <;>
  · simp only [write, List.cons_append, List.nil_append, value?_cons]
    rfl

/-! ### Arrays and objects -/

theorem next?_open (frames : List Frame) (place : Place) (h : frames.length + 1 ≤ maxDepth) :
    next? ⟨frames, .value place⟩ '[' = some ⟨.array [] :: frames, .value .firstItem⟩ ∧
      next? ⟨frames, .value place⟩ '{' = some ⟨.object [] "" :: frames, .key true⟩ := by
  have hroom : ¬ maxDepth ≤ frames.length := by omega
  constructor
  · show (reported 0 (enter frames (.array []) (.value .firstItem))).toOption = _
    rw [enter, if_neg hroom]
    rfl
  · show (reported 0 (enter frames (.object [] "") (.key true))).toOption = _
    rw [enter, if_neg hroom]
    rfl

theorem endsNumber_cons {c : Char} (h : c = ',' ∨ c = ']' ∨ c = '}') (rest : List Char) :
    EndsNumber (c :: rest) := by
  intro next hnext
  cases hnext
  rcases h with rfl | rfl | rfl <;> decide

/-- Written items are read one after another, and the bracket closes the array. -/
theorem value?_writeItems {depth : Nat} {items : List Json} (hne : items ≠ [])
    (h : ∀ item ∈ items, Yields depth item.write item) {frames : List Frame}
    (hdepth : frames.length + 1 + depth ≤ maxDepth) (done : List Json) (place : Place)
    (rest : List Char) :
    value? ⟨.array done :: frames, .value place⟩ (writeItems items ++ rest) =
      (give frames (.arr (done.reverse ++ items))).value? rest := by
  induction items generalizing done place with
  | nil => exact absurd rfl hne
  | cons item items ih =>
    have hitem := h item List.mem_cons_self (.array done :: frames) place
    cases items with
    | nil =>
      have hends := endsNumber_cons (.inr (.inl rfl)) rest
      have hclose : next? (give (.array done :: frames) item) ']' =
          some (give frames (.arr (item :: done).reverse)) := rfl
      rw [writeItems, List.append_assoc, List.singleton_append, hitem _ hdepth hends, value?_cons,
        hclose, Option.bind_some, List.reverse_cons]
    | cons next items =>
      have hends := endsNumber_cons (.inl rfl) (writeItems (next :: items) ++ rest)
      have hcomma : next? (give (.array done :: frames) item) ',' =
          some ⟨.array (item :: done) :: frames, .value .nextItem⟩ := rfl
      have hrest := ih (List.cons_ne_nil next items)
        (fun other hmem => h other (List.mem_cons_of_mem item hmem)) (item :: done) .nextItem
      rw [writeItems, List.append_assoc, List.cons_append, hitem _ hdepth hends, value?_cons,
        hcomma, Option.bind_some, hrest, List.reverse_cons, List.append_assoc]
      · rfl
      · exact nofun

/-- Written members are read one after another, and the brace closes the object. -/
theorem value?_writeMembers {depth : Nat} {members : List (String × Json)} (hne : members ≠ [])
    (h : ∀ member ∈ members, Yields depth member.2.write member.2) {frames : List Frame}
    (hdepth : frames.length + 1 + depth ≤ maxDepth) (done : List (String × Json)) (last : String)
    (first : Bool) (rest : List Char) :
    value? ⟨.object done last :: frames, .key first⟩ (writeMembers members ++ rest) =
      (give frames (.obj (done.reverse ++ members))).value? rest := by
  induction members generalizing done last first with
  | nil => exact absurd rfl hne
  | cons member members ih =>
    obtain ⟨key, value⟩ := member
    have hvalue := h (key, value) List.mem_cons_self (.object done key :: frames) .member
    have hcolon : next? (giveKey (.object done last :: frames) key) ':' =
        some ⟨.object done key :: frames, .value .member⟩ := rfl
    cases members with
    | nil =>
      have hends := endsNumber_cons (.inr (.inr rfl)) rest
      have hclose : next? (give (.object done key :: frames) value) '}' =
          some (give frames (.obj ((key, value) :: done).reverse)) := rfl
      simp only [writeMembers, List.append_assoc, List.cons_append, List.nil_append]
      rw [value?_quote_key, value?_cons, hcolon, Option.bind_some, hvalue _ hdepth hends,
        value?_cons, hclose, Option.bind_some, List.reverse_cons]
    | cons next members =>
      have hends := endsNumber_cons (.inl rfl) (writeMembers (next :: members) ++ rest)
      have hcomma : next? (give (.object done key :: frames) value) ',' =
          some ⟨.object ((key, value) :: done) key :: frames, .key false⟩ := rfl
      have hrest := ih (List.cons_ne_nil next members)
        (fun other hmem => h other (List.mem_cons_of_mem _ hmem)) ((key, value) :: done) key false
      simp only [writeMembers, List.append_assoc, List.cons_append]
      rw [value?_quote_key, value?_cons, hcolon, Option.bind_some, hvalue _ hdepth hends,
        value?_cons, hcomma, Option.bind_some, hrest, List.reverse_cons, List.append_assoc]
      rfl

theorem yields_arr {depth : Nat} {items : List Json}
    (h : ∀ item ∈ items, Yields depth item.write item) :
    Yields (depth + 1) (write (.arr items)) (.arr items) := by
  intro frames place rest hdepth hends
  rw [write, List.cons_append, value?_cons, (next?_open frames place (by omega)).1,
    Option.bind_some]
  by_cases hne : items = []
  · subst hne
    have hclose : next? ⟨.array [] :: frames, .value .firstItem⟩ ']' =
        some (give frames (.arr [])) := rfl
    rw [writeItems, List.singleton_append, value?_cons, hclose, Option.bind_some]
  · exact value?_writeItems hne h (by omega) [] .firstItem rest

theorem yields_obj {depth : Nat} {members : List (String × Json)}
    (h : ∀ member ∈ members, Yields depth member.2.write member.2) :
    Yields (depth + 1) (write (.obj members)) (.obj members) := by
  intro frames place rest hdepth hends
  rw [write, List.cons_append, value?_cons, (next?_open frames place (by omega)).2,
    Option.bind_some]
  by_cases hne : members = []
  · subst hne
    have hclose : next? ⟨.object [] "" :: frames, .key true⟩ '}' =
        some (give frames (.obj [])) := rfl
    rw [writeMembers, List.singleton_append, value?_cons, hclose, Option.bind_some]
  · exact value?_writeMembers hne h (by omega) [] "" true rest

end Reader

/-! ## Whole values -/

/-- Whether a value is no deeper than some depth, and its numbers are natural numbers of at most 64
    bits. -/
inductive IsReadable : Nat → Json → Prop
  | null {depth : Nat} : IsReadable depth .null
  | bool {depth : Nat} (b : Bool) : IsReadable depth (.bool b)
  | num {depth n : Nat} (h : n < UInt64.size) : IsReadable depth (.ofNat n)
  | str {depth : Nat} (text : String) : IsReadable depth (.str text)
  | arr {depth : Nat} {items : List Json} (h : ∀ item ∈ items, IsReadable depth item) :
      IsReadable (depth + 1) (.arr items)
  | obj {depth : Nat} {members : List (String × Json)}
      (h : ∀ member ∈ members, IsReadable depth member.2) : IsReadable (depth + 1) (.obj members)

theorem write_ofNat (n : Nat) : write (.ofNat n) = Nat.toDigits 10 n := by
  show (toString n).toList = _
  exact Nat.toList_repr

theorem yields_write {depth : Nat} {value : Json} (h : value.IsReadable depth) :
    Reader.Yields depth value.write value := by
  induction h with
  | null => exact Reader.yields_null _
  | bool b => exact Reader.yields_bool _ b
  | num h =>
    rw [write_ofNat]
    exact Reader.yields_toDigits _ (Nat.le_pred_of_lt h)
  | str text => exact Reader.yields_quote _ text
  | arr _ ih => exact Reader.yields_arr ih
  | obj _ ih => exact Reader.yields_obj ih

/-- The compact form of a value is read as the value. -/
theorem read_write {depth : Nat} {value : Json} (h : value.IsReadable depth)
    (hdepth : depth ≤ Reader.maxDepth) : read value.write = .ok value := by
  have hyields := yields_write h [] .root [] (by simpa using hdepth) nofun
  rw [List.append_nil] at hyields
  have hread : (read value.write).toOption = some value := by
    rw [read, Reader.toOption_mapError]
    exact hyields
  cases hresult : read value.write with
  | ok found =>
    rw [hresult] at hread
    cases hread
    rfl
  | error fault => rw [hresult] at hread; cases hread

theorem parse_write {depth : Nat} {value : Json} (h : value.IsReadable depth)
    (hdepth : depth ≤ Reader.maxDepth) : parse value.write = .ok value.normal := by
  rw [parse, read_write h hdepth]
  rfl

/-! ## The normal form -/

theorem normalItems_eq_map (items : List Json) : normalItems items = items.map normal := by
  induction items with
  | nil => rfl
  | cons item items ih => rw [normalItems, ih, List.map_cons]

theorem normalMembers_eq_map (members : List (String × Json)) :
    normalMembers members = members.map fun member => (member.1, member.2.normal) := by
  induction members with
  | nil => rfl
  | cons member members ih => rw [normalMembers, ih, List.map_cons]

theorem lookup_cons_eq_ite {α β : Type} [BEq α] [LawfulBEq α] [DecidableEq α] (key name : α)
    (value : β) (rest : List (α × β)) :
    ((name, value) :: rest).lookup key = if key = name then some value else rest.lookup key := by
  by_cases h : key = name
  · simp [h]
  · have hbeq : (key == name) = false := beq_false_of_ne h
    simp [List.lookup_cons, hbeq, h]

/-- A member that is put in its place is found under its key, and hides no other. -/
theorem lookup_insertMember (key name : String) (value : Json) (sorted : List (String × Json)) :
    (insertMember name value sorted).lookup key =
      if key = name then some value else sorted.lookup key := by
  induction sorted with
  | nil => exact lookup_cons_eq_ite key name value []
  | cons member sorted ih =>
    obtain ⟨other, found⟩ := member
    rw [insertMember]
    by_cases hlt : name < other
    · rw [if_pos hlt, lookup_cons_eq_ite]
    rw [if_neg hlt]
    by_cases heq : name = other
    · rw [if_pos heq, lookup_cons_eq_ite, lookup_cons_eq_ite, ← heq]
      by_cases hkey : key = name
      · rw [if_pos hkey, if_pos hkey]
      · rw [if_neg hkey, if_neg hkey, if_neg hkey]
    · rw [if_neg heq, lookup_cons_eq_ite, lookup_cons_eq_ite, ih]
      by_cases hkey : key = name
      · rw [hkey, if_neg heq, if_pos rfl, if_pos rfl]
      · rw [if_neg hkey, if_neg hkey]

theorem lookup_sortMembers (members : List (String × Json)) (key : String) :
    (sortMembers members).lookup key = members.reverse.lookup key := by
  rw [sortMembers, ← List.foldr_reverse]
  induction members.reverse with
  | nil => rfl
  | cons member rest ih =>
    rw [List.foldr_cons, lookup_insertMember, ih, lookup_cons_eq_ite]

theorem get?_normal (members : List (String × Json)) (key : String) :
    (normal (.obj members)).get? key = (members.reverse.lookup key).map normal := by
  rw [normal, get?, lookup_sortMembers, normalMembers_eq_map, ← List.map_reverse]
  induction members.reverse with
  | nil => rfl
  | cons member rest ih =>
    obtain ⟨name, value⟩ := member
    rw [List.map_cons, lookup_cons_eq_ite, lookup_cons_eq_ite, ih]
    split_ifs <;> rfl

/-! ## Lines -/

theorem newline_ne_hexDigit : ∀ n < 16, '\n' ≠ hexDigit n := by decide

theorem newline_notMem_escapeChar (c : Char) : '\n' ∉ escapeChar c := by
  unfold escapeChar
  split
  case h_8 _ _ _ _ hnewline _ _ =>
    by_cases hcontrol : c.toNat < 0x20
    · have hhigh := newline_ne_hexDigit (c.toNat / 16) (by omega)
      have hlow := newline_ne_hexDigit (c.toNat % 16) (by omega)
      rw [if_pos hcontrol]
      simp [hhigh, hlow]
    · rw [if_neg hcontrol, List.mem_singleton]
      exact fun heq => hnewline heq.symm
  all_goals decide

theorem newline_notMem_quote (text : String) : '\n' ∉ quote text := by
  intro h
  simp only [quote, List.cons_append, List.mem_cons, List.mem_append, List.mem_flatMap] at h
  obtain hquote | ⟨c, -, hc⟩ | hquote := h
  · cases hquote
  · exact newline_notMem_escapeChar c hc
  · simp at hquote

theorem newline_notMem_writeItems {items : List Json} (h : ∀ item ∈ items, '\n' ∉ item.write) :
    '\n' ∉ writeItems items := by
  induction items with
  | nil => decide
  | cons item items ih =>
    have hitem := h item List.mem_cons_self
    have hitems := ih fun other hmem => h other (List.mem_cons_of_mem item hmem)
    cases items with
    | nil => simp [writeItems, hitem]
    | cons next items => simp [writeItems, hitem, hitems]

theorem newline_notMem_writeMembers {members : List (String × Json)}
    (h : ∀ member ∈ members, '\n' ∉ member.2.write) : '\n' ∉ writeMembers members := by
  induction members with
  | nil => decide
  | cons member members ih =>
    have hvalue := h member List.mem_cons_self
    have hmembers := ih fun other hmem => h other (List.mem_cons_of_mem member hmem)
    obtain ⟨key, value⟩ := member
    have hkey := newline_notMem_quote key
    cases members with
    | nil => simp [writeMembers, hkey, hvalue]
    | cons next members => simp [writeMembers, hkey, hvalue, hmembers]

/-- The compact form of a value is one line. -/
theorem newline_notMem_write {depth : Nat} {value : Json} (h : value.IsReadable depth) :
    '\n' ∉ value.write := by
  induction h with
  | null => decide
  | bool b => cases b <;> decide
  | num _ =>
    rw [write_ofNat]
    intro hmem
    have hdigit := Nat.isDigit_of_mem_toDigits (by decide) (by decide) hmem
    exact absurd hdigit (by decide)
  | str text => exact newline_notMem_quote text
  | arr _ ih => simp [write, newline_notMem_writeItems ih]
  | obj _ ih => simp [write, newline_notMem_writeMembers ih]

end GuideCheck.Json
