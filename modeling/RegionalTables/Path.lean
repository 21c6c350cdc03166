import RegionalTables.Text.Split
import RegionalTables.Text.Utf8

/-! Paths of files. A path is a list of bytes: names with slashes between them, after a first slash
in an absolute path. Empty names and single dots lead nowhere. -/
namespace RegionalTables

abbrev Path := List UInt8

namespace Path

def slash : UInt8 := 0x2F

def ofText (text : String) : Path := Text.Utf8.encode text.toList

def isAbsolute (path : Path) : Bool := path.head? == some slash

def names (path : Path) : List Path :=
  (Text.split slash path).filter fun name => name != [] && name != ofText "."

def ofNames (absolute : Bool) (names : List Path) : Path :=
  (if absolute then [slash] else []) ++ [slash].intercalate names

/-- The directory a path lies in. It is empty for a path of one name. -/
def parent (path : Path) : Path := ofNames (isAbsolute path) (names path).dropLast

/-- The place a name leads to, as far as it can be told without looking at the files. Places have
their last name first, and nothing is above the root. -/
def step (place : List Path) (name : Path) : List Path :=
  if name = ofText ".." then place.tail else name :: place

/-- The places that names lead to, one after the other. -/
def steps (place : List Path) : List Path → List (List Path)
  | [] => []
  | name :: rest => step place name :: steps (step place name) rest

/-- A relative path starts at the base. -/
def start (base path : Path) : List Path := if isAbsolute path then [] else (names base).reverse

def ofPlace (place : List Path) : Path := ofNames true place.reverse

/-- The absolute path without steps back. -/
def resolve (base path : Path) : Path := ofPlace ((names path).foldl step (start base path))

/-- The absolute paths of all places on the way along a path. -/
def way (base path : Path) : List Path := (steps (start base path) (names path)).map ofPlace

def join (directory name : String) : String :=
  if directory.endsWith "/" then directory ++ name else directory ++ "/" ++ name

end Path

end RegionalTables
