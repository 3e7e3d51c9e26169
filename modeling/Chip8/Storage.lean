/-!
# Storage

A file is known by its name, which is a path: components between slashes, walked
one by one. A reader is anything that answers names with bytes or with a reason
why it cannot. `Storage` is a reader that holds a tree of files and directories,
of which the walk starts at the working directory. The working directory lies
in a larger tree of which nothing is known but that it consists of directories.

To write a file or to make a directory, the directories on the way that do not
exist are made. A step back leads to the directory above wherever the walk has
come to, so a name may lead through a directory that it does not end in.
-/

namespace Chip8

/-- Why a file cannot be read or written. -/
inductive FileError where
  /-- There is nothing of this name. -/
  | notFound
  /-- It is a directory. -/
  | isDirectory
  /-- What ought to be a directory is a file. -/
  | notDirectory
  /-- A directory cannot be made of what is a file. -/
  | fileExists
  /-- A component or the whole name is too long. -/
  | nameTooLong
  /-- Any other reason, in words. -/
  | other (text : String)
deriving DecidableEq, Repr

/-- A reason in words. -/
def FileError.message : FileError → String
  | notFound => "No such file or directory"
  | isDirectory => "Is a directory"
  | notDirectory => "Not a directory"
  | fileExists => "File exists"
  | nameTooLong => "File name too long"
  | other text => text

/-- What answers names of files with their contents. -/
abbrev Reader := String → Except FileError (List UInt8)

/-- What stands at a place. -/
inductive Node where
  /-- A file with its contents. -/
  | file (bytes : List UInt8)
  /-- A directory. -/
  | directory
deriving DecidableEq, Repr

/-- A place in the larger tree: at a path below the directory that is so many
    levels above the working directory. -/
structure Place where
  /-- The number of levels above the working directory. -/
  above : Nat
  /-- The path below it. -/
  path : List String
deriving DecidableEq, Repr

namespace Place

/-- The place one level up. -/
def parent (p : Place) : Place :=
  match p.path with
  | [] => ⟨p.above + 1, []⟩
  | path => ⟨p.above, path.dropLast⟩

/-- The place of a component in a directory. -/
def child (p : Place) (component : String) : Place :=
  ⟨p.above, p.path ++ [component]⟩

end Place

/-- A tree of files and directories, latest entries first. -/
structure Storage where
  /-- What stands at which place. -/
  entries : List (Place × Node)
deriving DecidableEq, Repr

namespace Storage

/-- The storage without files. -/
def empty : Storage :=
  ⟨[]⟩

/-- What stands at a place. The working directory and those above it are
    directories. -/
def node? (s : Storage) (p : Place) : Option Node :=
  if p.path = [] then some .directory else s.entries.lookup p

/-- Puts a node at a place. -/
def put (s : Storage) (p : Place) (n : Node) : Storage :=
  ⟨(p, n) :: s.entries⟩

/-! ### Walks -/

/-- The number of bytes that a component may have. -/
def componentLimit : Nat := 255

/-- The number of bytes that a name has to stay below. -/
def nameLimit : Nat := 4096

/-- The pieces of a name between slashes, if it is the name of anything. -/
def pieces (name : String) : Except FileError (List String) :=
  if name = "" then .error .notFound
  else if nameLimit ≤ name.utf8ByteSize then .error .nameTooLong
  else .ok ((name.toList.splitOn '/').map String.ofList)

/-- Where the walk along a name starts: names with a slash in front start
    outside the working directory. -/
def origin (name : String) : Place :=
  if name.toList.head? = some '/' then ⟨1, []⟩ else ⟨0, []⟩

/-- Walks along one component. -/
def walk (s : Storage) (p : Place) (component : String) : Except FileError Place :=
  if s.node? p ≠ some .directory then .error .notDirectory
  else if component = "" ∨ component = "." then .ok p
  else if component = ".." then .ok p.parent
  else if componentLimit < component.utf8ByteSize then .error .nameTooLong
  else if (s.node? (p.child component)).isSome then .ok (p.child component)
  else .error .notFound

/-! ### Files and directories -/

/-- The contents of a file. -/
def read (s : Storage) : Reader := fun name =>
  match pieces name with
  | .error e => .error e
  | .ok components =>
    match components.foldlM s.walk (origin name) with
    | .error e => .error e
    | .ok p =>
      match s.node? p with
      | some (.file bytes) => .ok bytes
      | some .directory => .error .isDirectory
      | none => .error .notFound

/-! ### Changes -/

/-- A change of the storage. One that fails half way keeps what it has made. -/
abbrev Change (α : Type) := ExceptT FileError (StateM Storage) α

/-- Does a change. Gives the storage after it, and why it failed if it did. -/
def after (s : Storage) (c : Change Unit) : Storage × Option FileError :=
  match c.run.run s with
  | (.ok _, s) => (s, none)
  | (.error e, s) => (s, some e)

/-- Walks along one component, and makes a directory of it if there is nothing. -/
def enter (p : Place) (component : String) : Change Place := do
  let s ← get
  match s.walk p component with
  | .ok p => return p
  | .error .notFound =>
    set (s.put (p.child component) .directory)
    return p.child component
  | .error e => throw e

/-- Makes a directory of what the components lead to. Empty ones do not count. -/
def makePath (start : Place) (components : List String) : Change Place := do
  let p ← (components.filter (· ≠ "")).foldlM enter start
  if (← get).node? p = some .directory then return p else throw .fileExists

/-- Makes a directory. -/
def makeDirectory (name : String) : Change Unit := do
  let _ ← makePath (origin name) (← pieces name)

/-- Writes a file into a directory. -/
def writeInto (p : Place) (component : String) (bytes : List UInt8) : Change Unit := do
  let s ← get
  match s.walk p component with
  | .error .notFound => set (s.put (p.child component) (.file bytes))
  | .error e => throw e
  | .ok p =>
    if s.node? p = some .directory then throw .isDirectory else set (s.put p (.file bytes))

/-- Writes a file. -/
def writeFile (name : String) (bytes : List UInt8) : Change Unit := do
  let components ← pieces name
  let p ← makePath (origin name) components.dropLast
  writeInto p (components.getLastD "") bytes

end Storage

end Chip8
