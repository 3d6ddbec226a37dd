set_option autoImplicit false

/-! # The length of a text in other units

Columns count the bytes of the UTF-8 form, and the length of a message counts UTF-16 code units. -/

namespace GuideCheck.Text

/-- The number of bytes in the UTF-8 form of a text. -/
def bytes (cs : List Char) : Nat := cs.foldr (fun c n => c.utf8Size + n) 0

/-- The number of UTF-16 code units of one character: two outside the basic plane. -/
def unitsOf (c : Char) : Nat := if c.toNat < 0x10000 then 1 else 2

/-- The number of UTF-16 code units of a text. -/
def units16 (cs : List Char) : Nat := cs.foldr (fun c n => unitsOf c + n) 0

theorem bytes_append (as bs : List Char) : bytes (as ++ bs) = bytes as + bytes bs := by
  induction as with
  | nil => exact (Nat.zero_add _).symm
  | cons a as ih =>
    simp only [bytes, List.cons_append, List.foldr_cons] at ih ⊢
    rw [ih, Nat.add_assoc]

end GuideCheck.Text
