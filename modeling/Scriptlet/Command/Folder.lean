import Scriptlet.Fault
import Scriptlet.Text.Parts

/-! # Scripts in a folder

Scripts are kept in files that are named by a path from the folder the program was started in. A
script that is asked for and does not exist is made, empty, together with the folders on its path.
Files are read as text, in which every kind of line break counts as a line feed.
-/
namespace Scriptlet

/-- A path: a list of names, to be followed from the starting folder or from the topmost one. The
name `..` leads to the folder above. -/
structure Path where
  /-- Whether the path starts in the topmost folder. -/
  rooted : Bool := false
  /-- The names on the path. -/
  names : List String := []
deriving DecidableEq, Repr, Inhabited

namespace Path

/-- The path that a text names. Empty names and `.` lead nowhere. -/
def ofText (text : String) : Path where
  rooted := text.toList.head? = some '/'
  names := (Text.parts '/' text).filter fun name => name ≠ "" ∧ name ≠ "."

/-- The path as it is shown. -/
def text (p : Path) : String :=
  if p.rooted then "/" ++ "/".intercalate p.names
  else if p.names = [] then "."
  else "/".intercalate p.names

/-- The path without its last name. -/
def parent (p : Path) : Path :=
  { p with names := p.names.dropLast }

/-- One more step on a way of which the names are given, the last one first. -/
def step (rooted : Bool) (way : List String) (name : String) : List String :=
  if name = ".." then
    match way with
    | [] => if rooted then [] else [".."]
    | last :: before => if last = ".." then name :: way else before
  else name :: way

/-- The place that a path leads to, as the shortest path to it. -/
def place (p : Path) : Path :=
  { p with names := (p.names.foldl (step p.rooted) []).reverse }

/-- The paths to the folders on the way to a path, from the outermost on, without the path
itself. -/
def ancestors (p : Path) : List Path :=
  (List.range p.names.length).map fun n => { p with names := p.names.take n }

/-- Whether a place lies in the starting folder. -/
def isInside (p : Path) : Bool :=
  !p.rooted && p.names.head? ≠ some ".."

end Path

/-- The files and folders that are there. -/
structure Folder where
  /-- The places of the files, with their text. -/
  files : List (Path × String) := []
  /-- The places of the folders. -/
  folders : List Path := []
deriving Inhabited

namespace Folder

/-- The text of the file at a place, if there is a file. -/
def file? (f : Folder) (place : Path) : Option String :=
  f.files.lookup place

/-- Whether there is a folder at a place. The starting folder, those above it and the topmost one
are always there. -/
def isFolder (f : Folder) (place : Path) : Bool :=
  place.names.all (· = "..") || f.folders.contains place

/-- Adds a folder. -/
def addFolder (f : Folder) (place : Path) : Folder :=
  if f.isFolder place then f else { f with folders := f.folders ++ [place] }

/-- Makes a folder and those on its path. -/
def makeFolder (f : Folder) (p : Path) : Except Fault Folder :=
  if p.ancestors.any fun a => (f.file? a.place).isSome then .error (.path .notDirectory p.text)
  else if (f.file? p.place).isSome then .error (.path .fileExists p.text)
  else .ok ((p.ancestors ++ [p]).foldl (fun f a => f.addFolder a.place) f)

/-- Adds a file with the folders on its path. -/
def addFile (f : Folder) (p : Path) (content : String) : Folder :=
  let f := p.ancestors.foldl (fun f a => f.addFolder a.place) f
  { f with files := f.files ++ [(p.place, content)] }

/-- The folder that holds the given files. -/
def ofFiles (files : List (String × String)) : Folder :=
  files.foldl (fun f (name, content) => f.addFile (Path.ofText name) content) {}

/-- A text in which every line break is a line feed. -/
def unifyLineBreaks : List Char → List Char
  | '\r' :: '\n' :: rest => '\n' :: unifyLineBreaks rest
  | '\r' :: rest => '\n' :: unifyLineBreaks rest
  | c :: rest => c :: unifyLineBreaks rest
  | [] => []

/-- Opens a script: what the folder is afterwards, and the text or the fault. -/
def openScript (f : Folder) (path : String) : Folder × Except Fault String :=
  let p := Path.ofText path
  match f.makeFolder p.parent with
  | .error fault => (f, .error fault)
  | .ok f =>
    if f.isFolder p.place then (f, .error (.path .isDirectory p.text))
    else
      match f.file? p.place with
      | some content => (f, .ok (String.ofList (unifyLineBreaks content.toList)))
      | none => (f.addFile p "", .ok "")

/-- The paths of all files in the starting folder, in the order of their text. -/
def names (f : Folder) : List String :=
  ((f.files.map Prod.fst).filter Path.isInside).map Path.text |>.mergeSort fun a b => !(b < a)

end Folder

end Scriptlet
