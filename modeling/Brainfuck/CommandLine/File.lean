/-!
# Files

Why a file cannot be read or written, and a directory of files that holds no other directory. Paths
are walked name by name: a file may stand only at the end of one, and names outside of the directory
lead nowhere.
-/
namespace Brainfuck
namespace CommandLine

inductive FileError
  | notFound
  | isDirectory
  | notDirectory
  | notText
  /-- Anything else, in the words of the system. -/
  | other (text : String)
  deriving DecidableEq

def FileError.message : FileError → String
  | notFound => "No such file or directory (os error 2)"
  | isDirectory => "Is a directory (os error 21)"
  | notDirectory => "Not a directory (os error 20)"
  | notText => "stream did not contain valid UTF-8"
  | other text => text

structure Directory where
  files : List (String × ByteArray)

namespace Directory

def find? (d : Directory) (name : String) : Option ByteArray :=
  d.files.lookup name

def put (d : Directory) (name : String) (contents : ByteArray) : Directory :=
  ⟨(name, contents) :: d.files.filter (·.1 ≠ name)⟩

/-- Walks names that must all be directories. The result says whether the walk is still inside. -/
def walk (d : Directory) : (inside : Bool) → List String → Except FileError Bool
  | inside, [] => .ok inside
  | inside, "" :: names => d.walk inside names
  | inside, "." :: names => d.walk inside names
  | _, ".." :: names => d.walk false names
  | inside, name :: _ =>
    if inside && (d.find? name).isSome then .error .notDirectory else .error .notFound

inductive Target
  /-- At a directory. -/
  | directory
  /-- At a name, which lies in this directory or in another. -/
  | name (inside : Bool) (name : String)

/-- Walks the names of a path but the last. -/
def target (d : Directory) (names : List String) : Except FileError Target :=
  match d.walk (names.head? ≠ some "") names.dropLast with
  | .error e => .error e
  | .ok inside =>
    match names.getLast? with
    | none | some "" | some "." | some ".." => .ok .directory
    | some name => .ok (.name inside name)

def read (d : Directory) (path : String) : Except FileError ByteArray :=
  match d.target (path.splitOn "/") with
  | .error e => .error e
  | .ok .directory => .error .isDirectory
  | .ok (.name false _) => .error .notFound
  | .ok (.name true name) =>
    match d.find? name with
    | some contents => .ok contents
    | none => .error .notFound

/-- Names without the empty ones at the end. -/
def trimSlashes (names : List String) : List String :=
  (names.reverse.dropWhile (· = "")).reverse

/-- Writes a file at a path. A path that ends in a slash names a directory, if the names before it
do not fail. -/
def write (d : Directory) (path : String) (contents : ByteArray) : Except FileError Directory :=
  let names := path.splitOn "/"
  let trimmed := trimSlashes names
  match d.target trimmed with
  | .error e => .error e
  | .ok .directory => .error .isDirectory
  | .ok (.name inside name) =>
    if trimmed.length < names.length then .error .isDirectory
    else if inside then .ok (d.put name contents)
    else .error .notFound

end Directory
end CommandLine
end Brainfuck
