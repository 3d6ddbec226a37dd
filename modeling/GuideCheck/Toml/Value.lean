set_option autoImplicit false

/-! # TOML values -/

namespace GuideCheck

/-- A TOML value; numbers with a fraction and dates keep their text. -/
inductive Toml
  | string (text : String)
  | integer (value : Int)
  | float (text : String)
  | boolean (value : Bool)
  | date (text : String)
  | array (items : List Toml)
  | table (entries : List (String × Toml))
deriving Inhabited, Repr

def Toml.get? (key : String) : Toml → Option Toml
  | table entries => entries.lookup key
  | _ => none

end GuideCheck
