import SegmentStream.Bytes
import SegmentStream.Storage.Fault

/-!
# The store

What every channel writes to: named buffers in memory and files in a tree of
directories.  Reading a place gives what was last put there, and putting
something in one place leaves the others alone.
-/

namespace SegmentStream

inductive Location where
  | buffer (name : String)
  /-- A file by the names of its directories and its own. -/
  | file (path : List String)
  deriving DecidableEq, Repr

structure Store where
  contents : List (Location × Bytes) := []
  /-- Directories by the names that lead to them; the outermost always exists. -/
  directories : List (List String) := []
  deriving DecidableEq, Repr

instance : Inhabited Store := ⟨{}⟩

namespace Store

/-! ## Contents -/

def lookup (location : Location) : List (Location × Bytes) → Option Bytes
  | [] => none
  | (other, bytes) :: rest => if other = location then some bytes else lookup location rest

def replace (location : Location) (bytes : Bytes) :
    List (Location × Bytes) → List (Location × Bytes)
  | [] => [(location, bytes)]
  | (other, held) :: rest =>
      if other = location then (location, bytes) :: rest
      else (other, held) :: replace location bytes rest

def get? (store : Store) (location : Location) : Option Bytes := lookup location store.contents

def read (store : Store) (location : Location) : Bytes := (store.get? location).getD []

def put (store : Store) (location : Location) (bytes : Bytes) : Store :=
  { store with contents := replace location bytes store.contents }

/-- Makes an empty place of one that does not exist yet. -/
def ensure (store : Store) (location : Location) : Store :=
  store.put location (store.read location)

def buffers (store : Store) : List (String × Bytes) :=
  store.contents.filterMap fun
    | (.buffer name, bytes) => some (name, bytes)
    | _ => none

/-- Every file below a directory with what it holds, by its path from there. -/
def filesBelow (store : Store) (directory : List String) : List (String × Bytes) :=
  store.contents.filterMap fun
    | (.file path, bytes) =>
        if directory.isPrefixOf path then
          some ("/".intercalate (path.drop directory.length), bytes)
        else none
    | _ => none

theorem lookup_replace (location other : Location) (bytes : Bytes)
    (contents : List (Location × Bytes)) :
    lookup other (replace location bytes contents) =
      if other = location then some bytes else lookup other contents := by
  induction contents with
  | nil => simp [replace, lookup, eq_comm]
  | cons head rest ih =>
      obtain ⟨place, held⟩ := head
      by_cases hplace : place = location
      · subst hplace
        by_cases hother : other = place
        · simp [replace, lookup, hother]
        · simp [replace, lookup, hother, Ne.symm hother]
      · by_cases hother : place = other
        · subst hother
          simp [replace, lookup, hplace]
        · simp [replace, lookup, hplace, hother, ih]

@[simp] theorem read_put_self (store : Store) (location : Location) (bytes : Bytes) :
    (store.put location bytes).read location = bytes := by
  simp [read, get?, put, lookup_replace]

theorem read_put_of_ne (store : Store) {location other : Location} (bytes : Bytes)
    (h : other ≠ location) : (store.put location bytes).read other = store.read other := by
  simp [read, get?, put, lookup_replace, h]

/-! ## Paths -/

def isDirectory (store : Store) (path : List String) : Bool :=
  path.isEmpty || store.directories.contains path

def isFile (store : Store) (path : List String) : Bool := (store.get? (.file path)).isSome

def makeDirectory (store : Store) (path : List String) : Store :=
  let missing := ((List.range path.length).map fun depth => path.take (depth + 1)).filter
    fun path => !store.isDirectory path
  { store with directories := missing ++ store.directories }

def longestName : Nat := 255

def longestPath : Nat := 4095

/-- Enters a directory, or leaves one for the directory around it. -/
def enter (store : Store) (place : List String) (name : String) :
    Except IoFault (List String) :=
  if name = "." then .ok place
  else if name = ".." then .ok place.dropLast
  else if longestName < name.utf8ByteSize then .error .nameTooLong
  else if store.isDirectory (place ++ [name]) then .ok (place ++ [name])
  else if store.isFile (place ++ [name]) then .error .notDirectory
  else .error .noSuchFile

/-- What stands between the separators of a path, where nothing does also. -/
def partsOf : List Char → List (List Char)
  | [] => [[]]
  | char :: rest =>
      if char = '/' then [] :: partsOf rest
      else (partsOf rest).modifyHead fun part => char :: part

def namesOf (path : String) : List String :=
  ((partsOf path.toList).filter fun part => !part.isEmpty).map String.ofList

/--
The place of the file that a path names, whether the file exists or not.  The
names before the last one are entered from the outermost directory; a path that
ends as only a directory's can is no file's.
-/
def locate (store : Store) (path : String) : Except IoFault Location := do
  if path.toList.contains '\x00' then throw .zeroInPath
  if path = "" then throw .noSuchFile
  if longestPath < path.utf8ByteSize then throw .nameTooLong
  let place ← (namesOf path).dropLast.foldlM store.enter []
  match (namesOf path).getLast? with
  | none | some "." | some ".." => throw .isDirectory
  | some name =>
      if path.endsWith "/" then throw .isDirectory
      if longestName < name.utf8ByteSize then throw .nameTooLong
      if store.isDirectory (place ++ [name]) then throw .isDirectory
      return .file (place ++ [name])

/-- Makes an empty file, or empties the one that is there. -/
def create (store : Store) (path : String) : Except IoFault (Location × Store) := do
  let location ← store.locate path
  return (location, store.put location [])

end Store

end SegmentStream
