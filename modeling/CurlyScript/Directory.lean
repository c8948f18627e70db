namespace CurlyScript

/-- Why the text of a file cannot be had. -/
inductive ReadError where
  | missing
  | directory
  | notDirectory
  | notText
  | other (reason : String)
  deriving DecidableEq, Repr

def ReadError.message : ReadError → String
  | .missing => "No such file or directory (os error 2)"
  | .directory => "Is a directory (os error 21)"
  | .notDirectory => "Not a directory (os error 20)"
  | .notText => "stream did not contain valid UTF-8"
  | .other reason => reason

/-- The text that the bytes of a file stand for. -/
def textOf (bytes : ByteArray) : Except ReadError String :=
  match String.fromUTF8? bytes with
  | some text => .ok text
  | none => .error .notText

/-- What a name can lead to. -/
inductive Entry where
  | file (bytes : ByteArray)
  | directory

/-- A directory with all that is in it, at any depth. Each entry goes with the names that lead to
    it, the innermost first, so that the way up is the tail. -/
structure Directory where
  entries : List (List String × Entry)

/-- How far a path has led: to a place below a directory, by its names with the innermost first, or
    out of the directory. -/
inductive Place where
  | inside (names : List String)
  | outside
  deriving DecidableEq, Repr

namespace Directory

/-- The directory of some files and directories that are given by their paths. -/
def ofPaths (entries : List (String × Entry)) : Directory :=
  ⟨entries.map fun (path, entry) => ((path.splitOn "/").reverse, entry)⟩

/-- What some names lead to. No names lead to the directory itself, and whatever holds an entry is
    a directory. -/
def entry? (directory : Directory) (names : List String) : Option Entry :=
  if names.isEmpty then some .directory
  else
    match directory.entries.lookup names with
    | some entry => some entry
    | none =>
      if directory.entries.any (fun (inner, _) => names.isSuffixOf inner) then some .directory
      else none

/-- One step of a path. It has to start from a directory, even if it stays there. Nothing is known
    of what lies outside, so no name leads anywhere from there, not even back. -/
def step (directory : Directory) (place : Place) (name : String) : Except ReadError Place :=
  match place with
  | .outside => if ["", ".", ".."].contains name then .ok .outside else .error .missing
  | .inside names =>
    match directory.entry? names with
    | none => .error .missing
    | some (.file _) => .error .notDirectory
    | some .directory =>
      if name = "" || name = "." then .ok (.inside names)
      else if name = ".." then
        match names with
        | [] => .ok .outside
        | _ :: outer => .ok (.inside outer)
      else .ok (.inside (name :: names))

/-- Where a path leads. One that begins with a slash begins outside. -/
def follow (directory : Directory) (path : String) : Except ReadError Place :=
  if path.isEmpty then .error .missing
  else
    (path.splitOn "/").foldlM directory.step
      (if path.startsWith "/" then .outside else .inside [])

/-- The text of the file that a path leads to. -/
def read (directory : Directory) (path : String) : Except ReadError String :=
  match directory.follow path with
  | .error error => .error error
  | .ok .outside => .error .directory
  | .ok (.inside names) =>
    match directory.entry? names with
    | none => .error .missing
    | some .directory => .error .directory
    | some (.file bytes) => textOf bytes

end Directory

end CurlyScript
