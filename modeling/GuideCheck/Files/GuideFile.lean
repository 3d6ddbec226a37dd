import GuideCheck.Files.Path

set_option autoImplicit false

/-! # Guide files

A guide file has a path relative to the folder of guides, which is a text, and a name to show: the
file name without the extension of guides. -/

namespace GuideCheck.Files

structure GuideFile where
  relativePath : String
deriving DecidableEq, Repr

def GuideFile.displayName (guide : GuideFile) : String :=
  match fileName? (bytes guide.relativePath) with
  | none => "Untitled"
  | some name => display (if isGuideName name then (splitName name).1 else name)

end GuideCheck.Files
