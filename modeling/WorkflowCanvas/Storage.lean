import WorkflowCanvas.Json.Symbol
import WorkflowCanvas.Text.Basic

/-!
# Files and directories

The storage the settings are kept in, as a map from paths to what stands there.  A path is given as
the names a walk from the root follows; `.` stays and `..` goes back to the directory above, so
different names can lead to the same place.  `walk` finds the place, `makeDirectories` creates what
is missing on the way, and `StorageError` lists why either can fail.
-/

namespace WorkflowCanvas

/-- What stands at a place. -/
inductive Entry
  | directory
  | file (content : List Symbol)
  deriving DecidableEq

/-- Where something stands: the names from the root down, without `.` and `..`. -/
abbrev Place := List String

/-- Why files or directories cannot be used. -/
inductive StorageError
  | missing
  | exists
  | notDirectory
  | isDirectory
  | notText
  deriving DecidableEq

/-- The wording of a failure. -/
def StorageError.message : StorageError → String
  | .missing => "No such file or directory (os error 2)"
  | .exists => "File exists (os error 17)"
  | .notDirectory => "Not a directory (os error 20)"
  | .isDirectory => "Is a directory (os error 21)"
  | .notText => "stream did not contain valid UTF-8"

/-- The files and directories below a root; of two entries for a place the first counts. -/
structure Storage where
  entries : List (Place × Entry)

namespace Storage

/-- The storage with nothing below its root. -/
def empty : Storage := ⟨[]⟩

/-- What stands at a place.  The root is a directory. -/
def entry? (d : Storage) : Place → Option Entry
  | [] => some .directory
  | place => d.entries.lookup place

/-- Puts an entry at a place. -/
def put (d : Storage) (place : Place) (entry : Entry) : Storage := ⟨(place, entry) :: d.entries⟩

/-- The names in the text of a path. -/
def names (path : String) : List String :=
  ((Text.split (· == '/') path.toList).filter (· ≠ [])).map String.ofList

/-- The place that names lead to from `place`.  Every step starts in a directory. -/
def walkFrom (d : Storage) (place : Place) : List String → Except StorageError Place
  | [] => .ok place
  | name :: rest =>
    match d.entry? place with
    | some .directory =>
      if name = "." then walkFrom d place rest
      else if name = ".." then walkFrom d place.dropLast rest
      else walkFrom d (place ++ [name]) rest
    | some (.file _) => .error .notDirectory
    | none => .error .missing

/-- The place that names lead to from the root. -/
def walk (d : Storage) (names : List String) : Except StorageError Place := d.walkFrom [] names

/-- What stands where the names lead to. -/
def find? (d : Storage) (names : List String) : Except StorageError (Place × Entry) := do
  let place ← d.walk names
  match d.entry? place with
  | some entry => .ok (place, entry)
  | none => .error .missing

/-- Whether the names lead to a directory. -/
def isDirectory (d : Storage) (names : List String) : Bool :=
  match d.find? names with
  | .ok (_, .directory) => true
  | _ => false

/-- Creates a directory in a directory that is there.  Names that end in `.` or `..` name no new
place. -/
def makeDirectory (d : Storage) (names : List String) : Except StorageError Storage := do
  match names.getLast? with
  | none => .error .exists
  | some name =>
    let (above, entry) ← d.find? names.dropLast
    if entry ≠ .directory then .error .notDirectory
    else if name = "." ∨ name = ".." then .error .exists
    else
      match d.entry? (above ++ [name]) with
      | some _ => .error .exists
      | none => .ok (d.put (above ++ [name]) .directory)

/-- Names without the `.` at their end. -/
def trimDots (names : List String) : List String := (names.reverse.dropWhile (· == ".")).reverse

/-- The names that lead to the directory around a place. -/
def above (names : List String) : List String := trimDots (trimDots names).dropLast

theorem length_trimDots_le (names : List String) : (trimDots names).length ≤ names.length := by
  have h := (List.dropWhile_sublist (· == ".") (l := names.reverse)).length_le
  simpa [trimDots] using h

theorem length_above_lt {names : List String} (h : names ≠ []) :
    (above names).length < names.length := by
  have h₁ := length_trimDots_le names
  have h₂ := length_trimDots_le (trimDots names).dropLast
  have h₃ := List.length_pos_iff.2 h
  rw [List.length_dropLast] at h₂
  unfold above
  omega

/-- The storage after a directory was asked for; one that was there already is as good as a new one.
-/
def orPresent (d : Storage) (names : List String) :
    Except StorageError Storage → Except StorageError Storage
  | .ok d' => .ok d'
  | .error e => if d.isDirectory names then .ok d else .error e

/-- Creates a directory and all directories around it that are missing. -/
def makeDirectories (d : Storage) (names : List String) : Except StorageError Storage :=
  if _h : names = [] then .ok d
  else
    match d.makeDirectory names with
    | .error .missing => do
      let d' ← makeDirectories d (above names)
      d'.orPresent names (d'.makeDirectory names)
    | made => d.orPresent names made
termination_by names.length
decreasing_by exact length_above_lt _h

/-- Writes a file into a directory. -/
def writeFile (d : Storage) (directory : List String) (name : String) (content : List Symbol) :
    Except StorageError Storage := do
  let place ← d.walk (directory ++ [name])
  match d.entry? place with
  | some .directory => .error .isDirectory
  | _ => .ok (d.put place (.file content))

/-- The text of a file, none if it cannot be reached. -/
def readText? (d : Storage) (directory : List String) (name : String) :
    Except StorageError (Option String) :=
  match d.find? (directory ++ [name]) with
  | .error _ => .ok none
  | .ok (_, .directory) => .error .isDirectory
  | .ok (_, .file content) =>
    match Symbol.toText? content with
    | some text => .ok (some text)
    | none => .error .notText

end Storage

end WorkflowCanvas
