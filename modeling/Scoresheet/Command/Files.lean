import Scoresheet.Command.Plain

/-!
# Files

Paths, and `Host.ofFiles`: a directory that exists in memory only, with the plain toolkit.  Of what lies outside the
directory, nothing but that there are folders is known.
-/
namespace Scoresheet

namespace Files

/-! ## Paths -/

/-- What stands between two slashes of a path. -/
abbrev Name := List Char

/-- The name of the folder that a name stands in: a dot. -/
def here : Name := ['.']

/-- The name of the folder above. -/
def above : Name := ['.', '.']

/-- How many bytes a name and a path may take. -/
def maxName : Nat := 255
def maxPath : Nat := 4095

/-- How many bytes longer than a name its draft is: while a text is written it stands beside its place, under the name
between two dots and six more characters. -/
def draftMargin : Nat := 8

/-- The bytes of a name. -/
def size (name : Name) : Nat := (String.ofList name).utf8ByteSize

def names (path : String) : List Name := path.toList.splitOn '/'

/-- Whether a path starts outside every folder. -/
def isAbsolute (path : String) : Bool := path.toList.head? == some '/'

/-- The folder and the name in it that a path to be written to consists of.  Dots, and slashes at the end, do not count;
a path that ends in the folder above has no name. -/
def split? (path : String) : Option (List Name × Name) :=
  match ((names path).filter fun n => !n.isEmpty && n != here).reverse with
  | [] => none
  | name :: folder => if name == above then none else some (folder.reverse, name)

/-! ## A directory in memory -/

/-- Where a path leads: to a place in the directory, told by the names on the way to it, or to a folder outside. -/
inductive Place where
  | inside (way : List Name)
  | outside
deriving DecidableEq

/-- The text of the file at a place. -/
def text? (files : Table String) : Place → Option String
  | .inside way => (files.entries.find? fun f => names f.1 == way).map (·.2)
  | .outside => none

/-- Whether there is anything at the end of a way: a file, or a folder with something in it. -/
def isThere (files : Table String) (way : List Name) : Bool :=
  way.isEmpty || files.entries.any fun f => way.isPrefixOf (names f.1)

/-- The place one name further. -/
def step (files : Table String) (place : Place) (name : Name) : Except FileFault Place :=
  if (text? files place).isSome then .error .notADirectory
  else if name.isEmpty || name == here then .ok place
  else if name == above then
    match place with
    | .inside (n :: way) => .ok (.inside (n :: way).dropLast)
    | _ => .ok .outside
  else if maxName < size name then .error .nameTooLong
  else match place with
    | .outside => .error .missing
    | .inside way => if isThere files (way ++ [name]) then .ok (.inside (way ++ [name])) else .error .missing

/-- The place that names lead to from where a path starts. -/
def walk (files : Table String) (path : String) (way : List Name) : Except FileFault Place :=
  if maxPath < path.utf8ByteSize then .error .nameTooLong
  else way.foldlM (step files) (if isAbsolute path then .outside else .inside [])

/-- What reading a path gives. -/
def look (files : Table String) (path : String) : Except FileFault String :=
  if path.isEmpty then .error .missing
  else (walk files path (names path)).bind fun place =>
    match text? files place with
    | some text => .ok text
    | none => .error .isADirectory

/-- The folder that a text written to a path goes to, and its name there. -/
def target (files : Table String) (path : String) : Except FileFault (Place × Name) :=
  match split? path with
  | none => .error .isADirectory
  | some (folder, name) =>
    (walk files path (folder ++ [here])).bind fun place =>
      if maxName < size name + draftMargin then .error .nameTooLong else .ok (place, name)

/-- Whether a text can be written to a path. -/
def put (files : Table String) (path : String) : Writing :=
  match target files path with
  | .error fault => .cannotOpen fault
  | .ok (place, name) =>
    match step files place name with
    | .ok place => if (text? files place).isSome then .written else .cannotSave .isADirectory
    | .error _ => .written

/-- The name of the new file that a text written to a path makes in the directory itself, if it makes one there. -/
def added? (files : Table String) (path : String) : Option String :=
  match target files path with
  | .ok (.inside [], name) => if files.contains (String.ofList name) then none else some (String.ofList name)
  | _ => none

end Files

/-- A directory in memory. -/
def Host.ofFiles (files : Table String) (settings : Option String) (logChosen : Bool) : Host where
  toToolkit := .plain
  read := Files.look files
  write := Files.put files
  settings
  terminal := false
  logChosen
  logFault := none

end Scoresheet
