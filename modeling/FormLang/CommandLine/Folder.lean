import FormLang.Data.Table

/-!
Contract: the reading of files.

A path is followed name by name from a place: from the working folder, or from
outside of it if the path starts with a slash. An empty name and a single dot stay in
a folder, two dots go to the folder around it, and any other name goes to what the
folder holds. Nothing follows a file, not even an empty name behind a last slash.

Owns: the reasons why a path cannot be read, folders that are held in memory with the
files in them, and the following of a path in such a folder.
-/

set_option autoImplicit false

namespace FormLang.CommandLine

/-- Why no bytes can be read at a path. -/
inductive ReadFault where
  | missing
  | directory
  | notDirectory
  | nameTooLong
  | other (description : String)
deriving DecidableEq, Repr

/-- The message of a fault, with the number of the system's error. -/
def ReadFault.message : ReadFault → String
  | .missing => "No such file or directory (os error 2)"
  | .directory => "Is a directory (os error 21)"
  | .notDirectory => "Not a directory (os error 20)"
  | .nameTooLong => "File name too long (os error 36)"
  | .other description => description

def nameLimit : Nat := 255

def pathLimit : Nat := 4095

/-- The files of a working folder and its subfolders, by path from the folder. -/
abbrev Folder := Table ByteArray

/-- Where a path leads. -/
inductive Place where
  /-- A folder, by the names that lead to it from the working folder. -/
  | inside (names : List String)
  /-- A folder around the working folder, of which nothing is known. -/
  | outside
  | file (bytes : ByteArray)

/-- The names of the path under which a file is kept. -/
def fileNames (path : String) : List String :=
  path.splitOn "/"

namespace Folder

/-- What the names lead to from the working folder: a file of that path, or a
subfolder if a file lies below it. -/
def placeAt (folder : Folder) (names : List String) : Except ReadFault Place :=
  match folder.find? fun (path, _) => fileNames path == names with
  | some (_, bytes) => .ok (.file bytes)
  | none =>
      if folder.any fun (path, _) => names.isPrefixOf (fileNames path) then
        .ok (.inside names)
      else
        .error .missing

/-- Follow one name from a place. -/
def follow (folder : Folder) (place : Place) (name : String) : Except ReadFault Place :=
  match place with
  | .file _ => .error .notDirectory
  | .inside names =>
      if name = "" ∨ name = "." then .ok place
      else if name = ".." then .ok (if names.isEmpty then .outside else .inside names.dropLast)
      else if nameLimit < name.utf8ByteSize then .error .nameTooLong
      else folder.placeAt (names ++ [name])
  | .outside =>
      if name = "" ∨ name = "." ∨ name = ".." then .ok place
      else if nameLimit < name.utf8ByteSize then .error .nameTooLong
      else .error .missing

def resolve (folder : Folder) (path : String) : Except ReadFault Place :=
  if path.isEmpty then .error .missing
  else if pathLimit < path.utf8ByteSize then .error .nameTooLong
  else
    let start : Place := if path.startsWith "/" then .outside else .inside []
    (path.splitOn "/").foldlM folder.follow start

def read (folder : Folder) (path : String) : Except ReadFault ByteArray :=
  match folder.resolve path with
  | .error fault => .error fault
  | .ok (.file bytes) => .ok bytes
  | .ok _ => .error .directory

end Folder

end FormLang.CommandLine
