/-!
# Files

The files that a run may read and append to, and how paths lead to them.
-/

set_option autoImplicit false

namespace Chip8

/-- What keeps a path from leading to a file. -/
inductive PathFault where
  /-- Nothing has that name, and no file can be made there. -/
  | missing
  | notDirectory
  /-- The path leads to a directory. -/
  | isDirectory
  | tooLong
  /-- The path holds a null character. -/
  | malformed
  deriving DecidableEq, Repr

structure Directory where
  files : List (String × ByteArray)
  /-- Where a path leads, given which full names have a file. -/
  layout : (String → Bool) → String → Except PathFault String
  /-- What is written there is found there afterwards. Devices may throw it away. -/
  keeps : String → Bool := fun _ => true

namespace Directory

/-- The full name under which the standard output can be opened. What stands there was
sent to it through that name. -/
def outputDevice : String := "/dev/stdout"

def content? (directory : Directory) (name : String) : Option ByteArray :=
  directory.files.lookup name

/-- The full name of the file that a path leads to. The file may yet have to be made. -/
def locate (directory : Directory) (path : String) : Except PathFault String :=
  directory.layout (fun name => (directory.content? name).isSome) path

def read? (directory : Directory) (path : String) : Option ByteArray :=
  match directory.locate path with
  | .ok name => directory.content? name
  | .error _ => none

/-- The directory with a file of that name, which is empty if it is new. -/
def ensure (directory : Directory) (name : String) : Directory :=
  if (directory.content? name).isSome then directory
  else { directory with files := directory.files ++ [(name, ByteArray.empty)] }

/-- Adds to the end of a file, if it keeps that. A name without a file is passed over. -/
def append (directory : Directory) (name : String) (bytes : ByteArray) : Directory :=
  if directory.keeps name then
    { directory with
      files := directory.files.map fun (other, content) =>
        (other, if other = name then content ++ bytes else content) }
  else directory

end Directory
end Chip8
