import JudgeSelf.Machine.Filepath

/-! # Unpacking an archive

Model of `Unzip` on the texts of its paths. An archive that can be opened is the list of its entries.
Directories and files that exist when an error ends the run stay.
-/

namespace JudgeSelf.Engine.S3

open Machine (Tree)
open Machine.Path (resolve)
open Machine.Filepath (clean dir hasPrefix join passed)

/-- `zip.File`. -/
structure ZipFile where
  name : String
  /-- The mode of the entry is that of a directory. -/
  modeDir : Bool
  openErr : Option String
  /-- What is read from the entry, up to the error. -/
  content : String
  copyErr : Option String
deriving DecidableEq

/-- `FileInfo().IsDir()`: also a name with a slash at its end is one of a directory. -/
def ZipFile.isDir (file : ZipFile) : Bool := file.modeDir || file.name.toList.getLast? = some '/'

inductive UnzipError
  | illegalPath (path : String)
  /-- An error of the file system or of the archive. -/
  | other (err : String)
deriving DecidableEq

def UnzipError.message : UnzipError → String
  | illegalPath path => "illegal file path: " ++ path
  | other err => err

/-- One iteration of the loop. -/
def unzipFile (destinationFolder : String) (tree : Tree) (file : ZipFile) : Tree × Option UnzipError :=
  let path := join [destinationFolder, file.name]
  if hasPrefix path (clean destinationFolder ++ "/") = false then (tree, some (.illegalPath path))
  else if file.isDir then ((tree.mkdirs (passed path)).1, none)
  else
    let (tree, made) := tree.mkdirs (passed (dir path))
    if made = false then (tree, some (.other "mkdir: not a directory"))
    else
      match file.openErr with
      | some err => (tree, some (.other err))
      | none =>
        match tree.write (resolve [] path) file.content with
        | none => (tree, some (.other "open: is a directory"))
        | some tree => (tree, file.copyErr.map .other)

def unzipFiles (destinationFolder : String) : Tree → List ZipFile → Tree × Option UnzipError
  | tree, [] => (tree, none)
  | tree, file :: files =>
    match unzipFile destinationFolder tree file with
    | (tree, none) => unzipFiles destinationFolder tree files
    | (tree, some err) => (tree, some err)

def unzip (destinationFolder : String) (files : List ZipFile) (tree : Tree) : Tree × Option UnzipError :=
  let (tree, made) := tree.mkdirs (passed destinationFolder)
  if made = false then (tree, some (.other "mkdir: not a directory"))
  else unzipFiles destinationFolder tree files

end JudgeSelf.Engine.S3
