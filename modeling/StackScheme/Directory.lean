import StackScheme.Failure
import StackScheme.Path
import StackScheme.Table
import StackScheme.Text.Line

/-! Files in folders, as far as programs that read a file and write a file see them. A path is
walked step by step, and fails at the first step that cannot be taken. -/
namespace StackScheme

/-- Files that keep nothing. The null device is empty, and the other two are zeros without end; the
full device has no space for any text. -/
inductive Device
  | null
  | zero
  | full
deriving DecidableEq

namespace Device

def bytes : Device → Except FileCause ByteArray
  | .null => .ok ByteArray.empty
  | .zero | .full => .error .endless

def put (text : String) : Device → Except FileCause Unit
  | .null | .zero => .ok ()
  | .full => if text = "" then .ok () else .error .noSpace

end Device

structure Directory where
  files : Table Location ByteArray := {}
  folders : List Location := []
  devices : Table Location Device := {}
  /-- The working folder. It is there, and so are the folders above it. -/
  here : Location := []

inductive Entry
  | file (bytes : ByteArray)
  | device (device : Device)
  | folder

namespace Directory

/-- No name has more bytes. -/
def nameLimit : Nat := 255

/-- No path has as many bytes. -/
def pathLimit : Nat := 4096

/-- The folders at the root of every system, and some of those in them. -/
def commonFolders : List Location :=
  ["bin", "boot", "dev", "etc", "home", "lib", "media", "mnt", "opt", "proc", "root", "run", "sbin",
    "srv", "sys", "tmp", "usr", "var"].map (fun name => [name]) ++
  ["fd", "pts", "shm"].map (fun name => [name, "dev"]) ++
  ["net", "self", "sys"].map (fun name => [name, "proc"]) ++
  ["block", "bus", "class", "dev", "devices", "firmware", "fs", "kernel", "module"].map
    (fun name => [name, "sys"]) ++
  ["bin", "games", "include", "lib", "libexec", "local", "sbin", "share", "src"].map
    (fun name => [name, "usr"]) ++
  ["bin", "etc", "games", "include", "lib", "man", "sbin", "share", "src"].map
    (fun name => [name, "local", "usr"]) ++
  ["cache", "lib", "local", "lock", "log", "mail", "opt", "run", "spool", "tmp"].map
    (fun name => [name, "var"])

def commonDevices : List (Location × Device) :=
  [(["null", "dev"], .null), (["zero", "dev"], .zero), (["full", "dev"], .full)]

/-- A temporary working folder. Its own name is empty, so that no path can spell it. -/
def temporary : Directory where
  folders := commonFolders
  devices := .ofList commonDevices
  here := ["", "tmp"]

/-- A temporary working folder with these files in it. -/
def ofFiles (files : List (String × ByteArray)) : Directory :=
  { temporary with
    files := Table.ofList (files.map fun file => (file.1 :: temporary.here, file.2)) }

/-- The files of the working folder. -/
def listing (directory : Directory) : List (String × ByteArray) :=
  directory.files.entries.filterMap fun
    | (name :: folder, bytes) => if folder = directory.here then some (name, bytes) else none
    | ([], _) => none

def isFolder (directory : Directory) (location : Location) : Bool :=
  location.isSuffixOf directory.here || location ∈ directory.folders

/-- What is at a place, if its name can be looked up at all. -/
def look (directory : Directory) (location : Location) : Except FileCause (Option Entry) :=
  if location.head?.any (·.utf8ByteSize > nameLimit) then .error .nameTooLong
  else if directory.isFolder location then .ok (some .folder)
  else match directory.devices.find? location with
    | some device => .ok (some (.device device))
    | none => .ok ((directory.files.find? location).map .file)

/-- A step on the way has to lead to a folder. -/
def enter (directory : Directory) (location : Location) (step : PathStep) :
    Except FileCause Location :=
  match step with
  | .down _ =>
    match directory.look (step.follow location) with
    | .ok (some .folder) => .ok (step.follow location)
    | .ok (some (.file _)) | .ok (some (.device _)) => .error .notDirectory
    | .ok none => .error .notFound
    | .error cause => .error cause
  | step => .ok (step.follow location)

/-- The place that a name leads to, once all folders on the way have been entered. -/
def reach (directory : Directory) (name : String) : Except FileCause Location := do
  let path := Path.ofString name
  if '\x00' ∈ name.toList then throw .embeddedNull
  if name = "" then throw .notFound
  if name.utf8ByteSize ≥ pathLimit then throw .nameTooLong
  let folder ← path.steps.dropLast.foldlM directory.enter (path.start directory.here)
  return path.steps.getLast?.elim folder (·.follow folder)

/-- The bytes of a file. -/
def readBytes (directory : Directory) (name : String) : Except FileCause ByteArray := do
  match ← directory.look (← directory.reach name) with
  | none => throw .notFound
  | some .folder => throw .isDirectory
  | some (.file bytes) =>
    if (Path.ofString name).endsInSlash then throw .notDirectory
    return bytes
  | some (.device device) =>
    if (Path.ofString name).endsInSlash then throw .notDirectory
    device.bytes

/-- The text of a file, its lines ended by newlines. -/
def read (directory : Directory) (name : String) : Except FileFault String :=
  match directory.readBytes name with
  | .error cause => .error ⟨cause, name⟩
  | .ok bytes =>
    match String.fromUTF8? bytes with
    | some text => .ok (Text.unifyNewlines text)
    | none => .error ⟨.notText, name⟩

/-- The place that can be written to under a name: a file, or nothing yet. A final slash rules both
out. -/
def writable (directory : Directory) (name : String) : Except FileCause Location := do
  let location ← directory.reach name
  if (Path.ofString name).endsInSlash then throw .isDirectory
  match ← directory.look location with
  | some .folder => throw .isDirectory
  | some (.file _) | some (.device _) | none => return location

def put (directory : Directory) (location : Location) (text : String) :
    Except FileCause Directory :=
  match directory.devices.find? location with
  | some device => (device.put text).map fun _ => directory
  | none => .ok { directory with files := directory.files.insert location text.toUTF8 }

/-- The folder once a text stands in a file, in place of what stood there. -/
def write (directory : Directory) (name text : String) : Except FileFault Directory :=
  ((directory.writable name).bind (directory.put · text)).mapError (⟨·, name⟩)

end Directory
end StackScheme
