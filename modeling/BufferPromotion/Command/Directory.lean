import BufferPromotion.Command.Path

/-! # A working directory in memory

A shell whose files are held in memory: one directory with some files and no directories in
it, and the two standard streams. It shows what a run of the command leaves behind.

Around this directory lies the rest of the system, of which little is known. There are the
directories above, the usual directories below the root, and the devices for the standard
streams. Any other name outside the working directory stands for nothing; a file of that name
can be written, but it is not kept.
-/

set_option autoImplicit false

namespace BufferPromotion

/-! ## Around the working directory -/

/-- A device that can be read and written like a file. -/
inductive Device where
  /-- Is empty, and takes everything. -/
  | null
  | standardInput
  | standardOutput
  | standardError
  deriving DecidableEq, Repr

namespace Device

/-- The devices by their names. -/
def names : List (String × Device) :=
  [("null", null), ("stdin", standardInput), ("stdout", standardOutput), ("stderr", standardError)]

end Device

/-- A directory that a path can lead through. -/
inductive Folder where
  /-- The working directory. -/
  | working
  /-- A directory above the working directory. -/
  | above
  | root
  /-- A directory right below the root. -/
  | top
  /-- The directory of the devices. -/
  | devices
  deriving DecidableEq, Repr

namespace Folder

/-- The directory above. The root is above itself. -/
def parent : Folder → Folder
  | working | above => above
  | root | top | devices => root

/-- The names of the directories right below the root, that of the devices left out. -/
def topNames : List String :=
  ["bin", "boot", "etc", "home", "lib", "media", "mnt", "opt", "proc", "root", "run", "sbin",
   "srv", "sys", "tmp", "usr", "var"]

/-- The name of the directory of the devices. -/
def devicesName : String := "dev"

end Folder

/-- What a path leads to. -/
inductive Place where
  | folder (folder : Folder)
  /-- A file of the working directory. -/
  | file (name content : String)
  | device (device : Device)
  /-- A name that stands for nothing. The flag says whether it is in the working directory. -/
  | vacant (name : String) (working : Bool)
  deriving DecidableEq, Repr

/-! ## The directory -/

/-- A directory and the standard streams. -/
structure Directory where
  /-- The files by name. -/
  files : List (String × String)
  standardInput : String
  standardOutput : String
  deriving DecidableEq, Repr

namespace Directory

/-- The content of a file. -/
def content? (directory : Directory) (name : String) : Option String :=
  directory.files.lookup name

/-- Writes a file, in place of what was there. -/
def store (directory : Directory) (name content : String) : Directory :=
  { directory with files := (name, content) :: directory.files.filter (·.1 != name) }

/-- Adds a text to the standard output. -/
def print (directory : Directory) (text : String) : Directory :=
  { directory with standardOutput := directory.standardOutput ++ text }

/-! ## Following a path -/

/-- What a name in a folder stands for. -/
def placeOf (directory : Directory) (folder : Folder) (name : String) : Place :=
  match folder with
  | .working =>
      match directory.content? name with
      | some content => .file name content
      | none => .vacant name true
  | .root =>
      if name = Folder.devicesName then .folder .devices
      else if name ∈ Folder.topNames then .folder .top
      else .vacant name false
  | .devices =>
      match Device.names.lookup name with
      | some device => .device device
      | none => .vacant name false
  | .above | .top => .vacant name false

/-- What a part of a path leads to from a folder. -/
def find (directory : Directory) (folder : Folder) (part : PathPart) : Except SystemFault Place :=
  match part with
  | .same => .ok (.folder folder)
  | .up => .ok (.folder folder.parent)
  | .name name =>
      if PathPart.maxNameSize < name.utf8ByteSize then .error .nameTooLong
      else .ok (directory.placeOf folder name)

/-- The folder that a part of a path leads to from a folder. -/
def enter (directory : Directory) (folder : Folder) (part : PathPart) :
    Except SystemFault Folder := do
  match ← directory.find folder part with
  | .folder next => pure next
  | .vacant .. => throw .notFound
  | .file .. | .device _ => throw .notDirectory

/-- The folder in which a path ends. -/
def folderOf (directory : Directory) (path : Path) : Except SystemFault Folder :=
  path.through.foldlM directory.enter (if path.fromRoot then .root else .working)

/-- What a path leads to, for reading. -/
def placeToRead (directory : Directory) (path : Path) : Except SystemFault Place := do
  let folder ← directory.folderOf path
  match path.last with
  | none => pure (.folder folder)
  | some last =>
      if path.closed then pure (.folder (← directory.enter folder last))
      else directory.find folder last

/-- What a path leads to, for writing. With a `/` behind its last part, a path is never that
of a file, whatever there is. -/
def placeToWrite (directory : Directory) (path : Path) : Except SystemFault Place := do
  let folder ← directory.folderOf path
  match path.last with
  | none => pure (.folder folder)
  | some last => if path.closed then throw .isDirectory else directory.find folder last

/-! ## Reading and writing -/

/-- The text that a device gives. -/
def readDevice (directory : Directory) : Device → String
  | .standardInput => directory.standardInput
  | .null | .standardOutput | .standardError => ""

/-- Writes a text to a device. -/
def writeDevice (directory : Directory) (device : Device) (text : String) : Directory :=
  match device with
  | .standardOutput => directory.print text
  | .null | .standardInput | .standardError => directory

/-- Reads a file. A path that leads to nothing, for whatever reason, is that of a missing
file. -/
def readFile (directory : Directory) (path : String) : Except CommandError String :=
  match Path.ofText path >>= directory.placeToRead with
  | .ok (.folder _) => .error (.inputUnreadable (.file path) .isDirectory)
  | .ok (.file _ content) => .ok content
  | .ok (.device device) => .ok (directory.readDevice device)
  | .ok (.vacant ..) | .error _ => .error (.inputMissing path)

/-- Writes a file. -/
def writeFile (directory : Directory) (path text : String) : Except CommandError Directory :=
  match Path.ofText path >>= directory.placeToWrite with
  | .ok (.folder _) => .error (.outputUnopened path .isDirectory)
  | .ok (.file name _) | .ok (.vacant name true) => .ok (directory.store name text)
  | .ok (.device device) => .ok (directory.writeDevice device text)
  | .ok (.vacant _ false) => .ok directory
  | .error fault => .error (.outputUnopened path fault)

/-- Reads a stream. -/
def read (directory : Directory) (stream : Stream) : Except CommandError String :=
  match stream with
  | .standard => .ok directory.standardInput
  | .file path => directory.readFile path

/-- Writes a stream. -/
def write (directory : Directory) (stream : Stream) (text : String) :
    Except CommandError Directory :=
  match stream with
  | .standard => .ok (directory.print text)
  | .file path => directory.writeFile path text

/-- The shell over a directory. Diagnostics are not kept. -/
def shell : Shell (StateM Directory) where
  read stream := do return (← get).read stream
  write stream text := do
    match (← get).write stream text with
    | .ok directory => set directory; return .ok ()
    | .error error => return .error error
  report _ := pure ()

/-- Runs the command in a directory: how it ends, and the directory afterwards. -/
def runCommand (directory : Directory) (arguments : List String) : Exit × Directory :=
  let (exit, after) := Id.run ((BufferPromotion.runCommand arguments shell).run directory)
  (exit, after)

end Directory

end BufferPromotion
