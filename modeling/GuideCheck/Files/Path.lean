import GuideCheck.Text.Lines
import GuideCheck.Text.Search
import GuideCheck.Text.Utf8

set_option autoImplicit false

/-! # Paths

Names of files and paths are bytes, which need not be those of a text. The parts of a path stand
between slashes. Empty parts mean nothing; the part `.` is the folder itself and `..` the folder
above it. A guide is a file whose name ends in `.txt` after at least one byte. -/

namespace GuideCheck.Files

abbrev Name := List UInt8

abbrev Path := List UInt8

/-! ## Texts -/

def bytes (text : String) : List UInt8 := Text.utf8 text.toList

/-- The text that a path is, if it is one. -/
def text? (path : Path) : Option String := String.fromUTF8? path.toByteArray

/-- A path as it is shown: what is no text in it is replaced. -/
def display (path : Path) : String := String.ofList (Text.decode path)

/-! ## Parts -/

def slash : UInt8 := '/'.toUInt8

def parts (path : Path) : List Name := (Text.split slash path).filter fun part => !part.isEmpty

def ofParts (parts : List Name) : Path := Text.join slash parts

def isAbsolute (path : Path) : Bool := path.head? = some slash

/-- The path of a part below a folder. -/
def below (folder part : Path) : Path :=
  if folder.getLast? = some slash then folder ++ part else folder ++ slash :: part

def join (folder path : Path) : Path :=
  if isAbsolute path then path else if path = [] then folder else below folder path

/-! ## Names -/

def dot : UInt8 := '.'.toUInt8

/-- A file name cut at its last dot; a dot at its start ends nothing. -/
def splitName (name : Name) : Name × Option Name :=
  match Text.cutAtLast? dot name with
  | some (stem@(_ :: _), extension) => (stem, some extension)
  | _ => (name, none)

/-- The extension of guides. -/
def guideExtension : Name := bytes "txt"

/-- Whether a file of this name is a guide. -/
def isGuideName (name : Name) : Bool := (splitName name).2 = some guideExtension

/-- The name of the file that a relative path leads to: its last part, where the parts `.` mean
    nothing and `..` is no name. -/
def fileName? (path : Path) : Option Name :=
  ((parts path).filter (· ≠ bytes ".")).getLast?.filter (· ≠ bytes "..")

/-- Whether a path leads to a guide. -/
def isGuide (path : Path) : Bool := (fileName? path).any isGuideName

end GuideCheck.Files
