import Mathlib.Data.List.DropRight
import Mathlib.Logic.Function.Basic

namespace Telegraph
open Function

abbrev Bytes := List UInt8

/-- The data directory: the content of each file, by its path inside it. -/
abbrev Files := String → Option Bytes

namespace BlobStore

def tempPath (recordingId : String) : String := "tmp/upload-" ++ recordingId ++ ".part"

def relativePath (recordingId : String) : String := "recordings/" ++ recordingId ++ ".wav"

theorem tempPath_inj {a b : String} : tempPath a = tempPath b ↔ a = b := by
  unfold tempPath
  rw [String.append_left_inj, String.append_right_inj]

theorem relativePath_inj {a b : String} : relativePath a = relativePath b ↔ a = b := by
  unfold relativePath
  rw [String.append_left_inj, String.append_right_inj]

/-- The two directories never share a path. -/
theorem tempPath_ne_relativePath (a b : String) : tempPath a ≠ relativePath b := by
  intro h
  have hl := congrArg String.toList h
  simp [tempPath, relativePath, String.toList_append] at hl

/-- `Path::extension` of a file name: what follows its last dot, unless that dot is its
first character. -/
def extension (name : List Char) : Option (List Char) :=
  match (name.rdropWhile (· != '.')).dropLast with
  | [] => none
  | _ :: _ => some (name.rtakeWhile (· != '.'))

/-- An entry of `tmp/` that `clean_stale_temp` takes for a left-over. -/
def staleTemp (path : String) : Bool :=
  path.toList.take 4 == "tmp/".toList && !(path.toList.drop 4).contains '/' &&
    extension (path.toList.drop 4) == some "part".toList

theorem staleTemp_tempPath {id : String} (h : '/' ∉ id.toList) : staleTemp (tempPath id) = true := by
  have hname : (tempPath id).toList = "tmp/".toList ++ ("upload-".toList ++ id.toList ++ ".part".toList) := by
    simp [tempPath, String.toList_append]
  have hdrop : ("upload-".toList ++ id.toList ++ ".part".toList).rdropWhile (· != '.') =
      "upload-".toList ++ id.toList ++ ['.'] := by
    simp [List.rdropWhile, List.dropWhile]
  have htake : ("upload-".toList ++ id.toList ++ ".part".toList).rtakeWhile (· != '.') = "part".toList := by
    simp [List.rtakeWhile, List.takeWhile]
  have hfour : "tmp/".toList.length = 4 := by decide
  unfold staleTemp
  rw [hname, List.take_left' hfour, List.drop_left' hfour, extension, hdrop, htake]
  simp [h]

theorem staleTemp_relativePath (id : String) : staleTemp (relativePath id) = false := by
  simp [staleTemp, relativePath, String.toList_append]

end BlobStore

namespace Files

/-- `File::create`: an existing file is emptied. -/
def create (d : Files) (path : String) : Files := update d path (some [])

/-- A write at the end of an open file. -/
def append (d : Files) (path : String) (chunk : Bytes) : Files :=
  match d path with
  | some content => update d path (some (content ++ chunk))
  | none => d

/-- `fs::rename`: the target is replaced; a missing source is an error. -/
def rename (d : Files) (source target : String) : Option Files :=
  (d source).map fun content => update (update d source none) target (some content)

/-- `fs::remove_file`, a missing file ignored. -/
def remove (d : Files) (path : String) : Files := update d path none

/-- `clean_stale_temp`; a removal is taken not to fail. -/
def cleanStaleTemp (d : Files) : Files := fun path => if BlobStore.staleTemp path then none else d path

end Files
end Telegraph
