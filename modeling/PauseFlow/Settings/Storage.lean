import PauseFlow.Text.Ascii
import PauseFlow.Text.Bytes

namespace PauseFlow

/-- Why there is no text to read at a path. -/
inductive FileFault where
  | noSuchFile
  | isDirectory
  | notDirectory
  | nameTooLong
  /-- A path cannot have the character that ends it. -/
  | endsWithin
  | notText
deriving DecidableEq

def FileFault.message : FileFault → String
  | .noSuchFile => "No such file or directory (os error 2)"
  | .isDirectory => "Is a directory (os error 21)"
  | .notDirectory => "Not a directory (os error 20)"
  | .nameTooLong => "File name too long (os error 36)"
  | .endsWithin => "file name contained an unexpected NUL byte"
  | .notText => "stream did not contain valid UTF-8"

namespace Storage

/-- What a file holds. -/
inductive Content where
  | text (text : String)
  /-- Bytes that are no text. -/
  | bytes
deriving DecidableEq

/-- Directories that every system has, by the names on the way from the root. -/
def standardDirectories : List (List String) :=
  [[], ["bin"], ["boot"], ["dev"], ["dev", "pts"], ["dev", "shm"], ["etc"], ["home"], ["lib"],
   ["media"], ["mnt"], ["opt"], ["proc"], ["proc", "self"], ["proc", "sys"], ["root"], ["run"],
   ["sbin"], ["srv"], ["sys"], ["tmp"], ["usr"], ["usr", "bin"], ["usr", "lib"],
   ["usr", "local"], ["usr", "sbin"], ["usr", "share"], ["var"], ["var", "cache"],
   ["var", "lib"], ["var", "log"], ["var", "tmp"]]

/-- Files that every system has. Of the texts under `etc` the first line is enough. -/
def standardFiles : List (List String × Content) :=
  [(["dev", "null"], .text ""),
   (["etc", "passwd"], .text "root:x:0:0:root:/root:/bin/sh\n"),
   (["etc", "group"], .text "root:x:0:\n"),
   (["etc", "hosts"], .text "127.0.0.1\tlocalhost\n"),
   (["etc", "hostname"], .text "localhost\n"),
   (["bin", "sh"], .bytes),
   (["usr", "bin", "env"], .bytes)]

/-- Where a path has led so far. -/
inductive Place where
  | directory (path : List String)
  | file (content : Content)

/-- The working directory: it is a few steps under the root, and no name leads to it. -/
def workingDirectory : List String := List.replicate 8 ""

def find? (path : List String) : Option Place :=
  if path ∈ standardDirectories then some (.directory path)
  else (standardFiles.lookup path).map .file

/-- One step of a path; a name has at most 255 bytes. -/
def Place.enter (place : Place) (name : List Char) : Except FileFault Place :=
  match place with
  | .file _ => .error .notDirectory
  | .directory path =>
    if name = [] ∨ name = ['.'] then .ok place
    else if name = ['.', '.'] then .ok (.directory path.dropLast)
    else if 255 < Text.byteCount name then .error .nameTooLong
    else match find? (path ++ [String.ofList name]) with
      | some place => .ok place
      | none => .error .noSuchFile

/-- The text of the file at a path of at most 4095 bytes. -/
def read (path : String) : Except FileFault String :=
  let path := path.toList
  if '\x00' ∈ path then .error .endsWithin
  else if path = [] then .error .noSuchFile
  else if 4095 < Text.byteCount path then .error .nameTooLong
  else do
    let start := if path.head? = some '/' then [] else workingDirectory
    match ← (Text.pieces '/' path).foldlM Place.enter (.directory start) with
    | .directory _ => .error .isDirectory
    | .file .bytes => .error .notText
    | .file (.text text) => .ok text

end Storage

end PauseFlow
