import ActionFlow.Definition.Load

/-!
# Folders of files

A folder in memory: the files of one folder, without folders inside of it, and the path of the
folder.  `Folder.read` follows a path part by part, as a disk does, so that it fails where a disk
would: at a name that is not there, and at a file in the place of a folder.
-/
namespace ActionFlow

inductive FileError where
  | missing
  | notFolder
  | isFolder
  | longName
  | zeroByte
  | denied
  | notText
  deriving DecidableEq, Repr

def FileError.message : FileError → String
  | missing => "No such file or directory (os error 2)"
  | denied => "Permission denied (os error 13)"
  | notFolder => "Not a directory (os error 20)"
  | isFolder => "Is a directory (os error 21)"
  | longName => "File name too long (os error 36)"
  | zeroByte => "file name contained an unexpected NUL byte"
  | notText => "stream did not contain valid UTF-8"

/-- The files of one folder. -/
structure Folder where
  path : String
  files : Entries String

namespace Folder

def nameLimit : Nat := 255

def pathLimit : Nat := 4096

/-- Follows the parts of a path from the folder on.  What is outside of the folder counts as
missing. -/
def follow (folder : Folder) : List (List Char) → Except FileError String
  | [] => .error .isFolder
  | part :: rest =>
    let name := String.ofList part
    if part = [] ∨ part = ['.'] then follow folder rest
    else if nameLimit < name.utf8ByteSize then .error .longName
    else
      match Entries.find? folder.files name with
      | none => .error .missing
      | some content => if rest.isEmpty then .ok content else .error .notFolder

/-- What is read is the content of a file of the folder. -/
theorem find?_of_follow {folder : Folder} {parts : List (List Char)} {content : String}
    (h : folder.follow parts = .ok content) :
    ∃ name, Entries.find? folder.files name = some content := by
  induction parts with
  | nil => cases h
  | cons part rest ih =>
    simp only [follow] at h
    split at h
    · exact ih h
    · split at h
      · cases h
      · split at h
        · cases h
        · rename_i found
          split at h
          · cases h
            exact ⟨_, found⟩
          · cases h

def read (folder : Folder) (path : String) : Except FileError String :=
  if path.toList.contains '\x00' then .error .zeroByte
  else if pathLimit ≤ path.utf8ByteSize then .error .longName
  else if folder.path.toList.isPrefixOf path.toList then
    follow folder (Path.pieces (path.toList.drop folder.path.length))
  else .error .missing

def toFiles (folder : Folder) : Files := fun path => (folder.read path).mapError FileError.message

end Folder

end ActionFlow
