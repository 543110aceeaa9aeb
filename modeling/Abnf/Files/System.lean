import Abnf.Files.Error
import Abnf.Path

/-! A file system: files and directories under one root, and a working directory from which
relative paths start. Nothing is ever removed. -/

namespace Abnf

inductive Node where
  | file (content : ByteArray)
  | directory

instance : DecidableEq Node
  | .file a, .file b =>
    match ByteArray.instDecidableEq a b with
    | isTrue h => isTrue (congrArg _ h)
    | isFalse h => isFalse fun he => h (Node.file.inj he)
  | .directory, .directory => isTrue rfl
  | .file _, .directory | .directory, .file _ => isFalse nofun

/-- Each node stands under the names that lead to it from the root. -/
structure FileSystem where
  workingDirectory : List String
  nodes : List (List String × Node)

namespace FileSystem

def node? (fs : FileSystem) : List String → Option Node
  | [] => some .directory
  | names => fs.nodes.lookup names

def put (fs : FileSystem) (names : List String) (node : Node) : FileSystem :=
  { fs with nodes := (names, node) :: fs.nodes.filter (·.1 != names) }

/-- The longest name that a directory may hold, in bytes. -/
def maxName : Nat := 255

/-- The longest path that can be asked for, in bytes. -/
def maxPath : Nat := 4095

/-- The directory at `at`, or why there is none. -/
def requireDirectory (fs : FileSystem) (names : List String) : Except FileError Unit :=
  match fs.node? names with
  | some .directory => .ok ()
  | some (.file _) => .error .notDirectory
  | none => .error .notFound

/-- One name further. The names `.` and `..` stay and go up. -/
def enter (fs : FileSystem) (dir : List String) (name : String) : Except FileError (List String) := do
  fs.requireDirectory dir
  if name = "." then return dir
  if name = ".." then return dir.dropLast
  if maxName < name.utf8ByteSize then throw .nameTooLong
  if (fs.node? (dir ++ [name])).isNone then throw .notFound
  return dir ++ [name]

/-- Where a path starts. No path at all is refused here. -/
def origin (fs : FileSystem) (p : Path) : Except FileError (List String) := do
  if p.text.toList.contains '\x00' then throw .nulInName
  if p.text = "" then throw .notFound
  if maxPath < p.text.utf8ByteSize then throw .nameTooLong
  return if p.isAbsolute then [] else fs.workingDirectory

/-- The names from the root of the node that a path leads to. -/
def resolve (fs : FileSystem) (p : Path) : Except FileError (List String) := do
  let found ← p.names.foldlM fs.enter (← fs.origin p)
  if p.endsInSlash then fs.requireDirectory found
  return found

def read (fs : FileSystem) (p : Path) : Except FileError ByteArray := do
  match fs.node? (← fs.resolve p) with
  | some (.file content) => return content
  | some .directory => throw .isDirectory
  | none => throw .notFound

/-- The bytes as text, if they are UTF-8. -/
def textOf (content : ByteArray) : Except FileError String :=
  match String.fromUTF8? content with
  | some text => .ok text
  | none => .error .notText

def readText (fs : FileSystem) (p : Path) : Except FileError String := do
  textOf (← fs.read p)

/-- Makes sure that a file can be appended to: an existing file is left as it is, and where there is
nothing an empty file is made. -/
def openAppend (fs : FileSystem) (p : Path) : Except FileError FileSystem := do
  let start ← fs.origin p
  match p.names.getLast? with
  | none => throw .isDirectory
  | some name =>
    let dir ← p.names.dropLast.foldlM fs.enter start
    fs.requireDirectory dir
    if p.endsInSlash ∨ name = "." ∨ name = ".." then throw .isDirectory
    if maxName < name.utf8ByteSize then throw .nameTooLong
    match fs.node? (dir ++ [name]) with
    | some .directory => throw .isDirectory
    | some (.file _) => return fs
    | none => return fs.put (dir ++ [name]) (.file .empty)

/-- Adds bytes at the end of a file. Where there is no file nothing happens. -/
def append (fs : FileSystem) (p : Path) (bytes : ByteArray) : FileSystem :=
  match fs.resolve p with
  | .error _ => fs
  | .ok names =>
    match fs.node? names with
    | some (.file content) => fs.put names (.file (content ++ bytes))
    | _ => fs

/-- An empty file system with a working directory. -/
def scratch (workingDirectory : List String) : FileSystem :=
  ⟨workingDirectory, (List.range (workingDirectory.length + 1)).map fun n =>
    (workingDirectory.take n, .directory)⟩

/-- The node and every directory above it, unless it is there already. -/
def create (fs : FileSystem) (p : Path) (node : Node) : FileSystem :=
  let names := (if p.isAbsolute then [] else fs.workingDirectory) ++ p.names
  let parents := (List.range names.length).map fun n => names.take n
  let fs := parents.foldl (fun fs dir => if (fs.node? dir).isNone then fs.put dir .directory else fs) fs
  fs.put names node

end FileSystem

end Abnf
