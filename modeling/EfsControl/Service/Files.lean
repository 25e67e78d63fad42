/-
# Files and the socket of the service

The service takes away what is at the path of its socket, makes the
directories above it, and puts its socket there. Files are kept by the names
on the way to them, which starts in the working directory or at the root; what
is not kept does not exist.

Key definitions: `Files`, `Files.socketAt`, `Files.placeSocket`.
-/
import EfsControl.Socket
import EfsControl.Text.Utf8

namespace EfsControl

/-- What a file is. -/
inductive FileKind
  | plain (content : List UInt8)
  | directory
  | socket
  deriving DecidableEq

/-- The files, by the names on the way to them. -/
structure Files where
  entries : List (List String × FileKind) := []
  deriving DecidableEq

namespace Files

/-- The pieces of a text between slashes. -/
def splitSlashes : List Char → List (List Char)
  | [] => [[]]
  | c :: cs =>
    if c = '/' then [] :: splitSlashes cs
    else
      match splitSlashes cs with
      | [] => [[c]]
      | piece :: pieces => (c :: piece) :: pieces

/-- What the root is called. -/
def rootName : String := "/"

/-- The names on the way to a path. One that begins with a slash starts at the root. -/
def names (path : String) : List String :=
  let pieces := (splitSlashes path.toList).filter fun piece => piece != [] && piece != ['.']
  (if path.toList.head? = some '/' then [rootName] else []) ++ pieces.map String.ofList

/-- What is at the end of a way: the working directory and the root are always there. -/
def kind? (fs : Files) (way : List String) : Option FileKind :=
  if way = [] || way = [rootName] then some .directory else fs.entries.lookup way

/-- The files with one more. -/
def add (fs : Files) (way : List String) (kind : FileKind) : Files := ⟨(way, kind) :: fs.entries⟩

/-- The files without one. -/
def remove (fs : Files) (way : List String) : Files := ⟨fs.entries.filter (·.1 != way)⟩

/-- What is at a path. An empty path leads nowhere. -/
def at? (fs : Files) (path : String) : Option FileKind :=
  if path = "" then none else fs.kind? (names path)

/-- What someone finds who connects to a path. -/
def socketAt (fs : Files) (path : String) : Socket :=
  match fs.at? path with
  | none => .absent
  | some .socket => .listening
  | some _ => .deaf

/-! ### What the system says -/

/-- The system's text where something else is in the place of a directory to be made. -/
def fileExists : String := "File exists (os error 17)"

/-- The system's text where a way leads through something that is no directory. -/
def notADirectory : String := "Not a directory (os error 20)"

/-- The system's text where a directory was to be removed as a file. -/
def isADirectory : String := "Is a directory (os error 21)"

/-- The text where a path has a null character in it. -/
def nullInPath : String := "paths must not contain interior null bytes"

/-- The text where a path is too long for a socket. -/
def pathTooLong : String := "path must be shorter than SUN_LEN"

/-- The length in bytes from which on a path is too long for a socket. -/
def socketPathLimit : Nat := 108

/-! ### Placing the socket -/

/-- Takes away the file at a path, if there is one. -/
def clear (fs : Files) (path : String) : Except String Files :=
  match fs.at? path with
  | none => .ok fs
  | some .directory => .error isADirectory
  | some _ => .ok (fs.remove (names path))

/-- Makes the directories on a way, of which those above `done` are there. -/
def makeDirectories (fs : Files) (done : List String) : (rest : List String) → Files × Option String
  | [] => (fs, none)
  | name :: rest =>
    let way := done ++ [name]
    match fs.kind? way with
    | some .directory => makeDirectories fs way rest
    | none => makeDirectories (fs.add way .directory) way rest
    | some _ => (fs, some (if rest = [] then fileExists else notADirectory))

/-- Puts a socket at a path. With an empty path it has no place among the files. -/
def bindSocket (fs : Files) (path : String) : Files × Option String :=
  if path.toList.contains '\x00' then (fs, some nullInPath)
  else if socketPathLimit ≤ (Utf8.ofString path).length then (fs, some pathTooLong)
  else if path = "" then (fs, none)
  else (fs.add (names path) .socket, none)

/-- Clears a path, makes the directories above it and puts a socket there; with why this cannot be
done, if it cannot. -/
def placeSocket (fs : Files) (path : String) : Files × Option String :=
  match fs.clear path with
  | .error cause => (fs, some cause)
  | .ok fs =>
    match fs.makeDirectories [] (names path).dropLast with
    | (fs, none) => fs.bindSocket path
    | (fs, some cause) => (fs, some cause)

/-- Takes the socket away again. -/
def removeSocket (fs : Files) (path : String) : Files :=
  if path = "" then fs else fs.remove (names path)

example : ((Files.mk [(["a"], .plain [])]).placeSocket "a/s").2 = some fileExists := by decide +kernel
example : ((Files.mk [(["a"], .plain [])]).placeSocket "a/b/s").2 = some notADirectory := by
  decide +kernel
example : ((Files.mk [(["s"], .plain [])]).placeSocket "s").1.socketAt "s" = .listening := by
  decide +kernel

end Files
end EfsControl
