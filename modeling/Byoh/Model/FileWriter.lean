import Byoh.Foundation.Interface
import Byoh.Model.CloudInit

/-!
# The file writer

`agent/cloudinit/file_writer.go`: `FileWriter` makes directories and writes files with the functions
of `os` and `os/user`, each a `SysCall` here. With it, with the template parser and with the command
runner, the script executor runs on a host (`hosted`).

* `FileSystem` maps names to places and places to files and directories. Two names can stand for one
  place; the files are regular files.
* `Host.exec` answers a call of the operating system. A call can fail whatever the file system is
  like, so what it needs besides (permissions, a directory above the file, space) is left to the
  outcome. A failed write may have written some of its bytes.
-/

set_option autoImplicit false

namespace Byoh.Model.CloudInit

open Byoh.Foundation

/-! ## Calls of the operating system -/

/-- Flags of `os.OpenFile`. -/
inductive OpenFlag where
  | wronly
  | create
  | append
  | trunc
  deriving DecidableEq, Repr

/-- An open file: its place, and whether it was opened for appending. -/
structure File where
  place : String
  append : Bool
  deriving DecidableEq, Repr

/-- `user.User`. -/
structure UserInfo where
  uid : String
  gid : String
  deriving DecidableEq, Repr

/-- The errors of `os.Stat`. -/
inductive StatError where
  | notExist
  | other (e : Err)
  deriving DecidableEq, Repr

inductive SysCall where
  | stat (name : String)
  | mkdirAll (path : String) (perm : Nat)
  | openFile (name : String) (flag : List OpenFlag) (perm : Nat)
  | writeString (f : File) (s : Bytes)
  | chmod (f : File) (mode : Nat)
  | lookup (username : String)
  | chown (f : File) (uid gid : Nat)
  | close (f : File)
  | parseTemplate (templateContent : Bytes)
  | runCmd (cmd : String)
  deriving DecidableEq, Repr

/-- The responses; `Stat` returns the mode. -/
@[reducible] def SysResp : SysCall → Type
  | .stat _ => Except StatError Nat
  | .openFile _ _ _ => Except Err File
  | .lookup _ => Except Err UserInfo
  | .parseTemplate _ => Except Err Bytes
  | .mkdirAll _ _ | .writeString _ _ | .chmod _ _ | .chown _ _ _ | .close _ | .runCmd _ => Option Err

abbrev WriterM := GoM SysCall SysResp Err Unit

/-! ## FileWriter -/

namespace FileWriter

/-- `filePermission`. -/
def filePermission : Nat := 0o644

/-- `dirPermission`. -/
def dirPermission : Nat := 0o744

/-- `if err != nil { return err }`. -/
def check : Option Err → WriterM Unit
  | none => pure ()
  | some e => GoM.throw e

/-- `MkdirIfNotExists`. -/
def mkdirIfNotExists (dirName : String) : WriterM Unit := do
  let info : Except StatError Nat ← GoM.lift (Prog.perform (SysCall.stat dirName))
  match info with
  | .ok _ => pure ()
  | .error .notExist => do
      let err ← GoM.lift (Prog.perform (.mkdirAll dirName dirPermission))
      check err
  | .error (.other e) => GoM.throw e

/-- `os.IsExist` of the error of `os.Stat`. It recognises the errors of calls that were to make
something new, which `Stat` does not return; for a file that exists there is no error. -/
def isExist : Except StatError Nat → Bool
  | .ok _ => false
  | .error _ => false

/-- The first lines of `WriteToFile`. -/
def initPermission (stats : Except StatError Nat) : Nat :=
  if isExist stats then stats.toOption.getD filePermission else filePermission

/-- The flags of `WriteToFile`. -/
def openFlags (file : Files) : List OpenFlag :=
  [.wronly, .create] ++ if file.append then [.append] else []

/-- `strconv.ParseUint`, with a message in front of its error. -/
def parseUint (msg s : String) (base : Nat) : WriterM Nat :=
  match Text.parseUint32 s base with
  | some n => pure n
  | none => GoM.throw (.wrap msg (.text "strconv.ParseUint"))

/-- The mode of the file. -/
def setPermissions (file : Files) (f : File) : WriterM Unit := do
  let fileMode ← parseUint ("Error parse the file permission " ++ file.permissions) file.permissions 8
  let err ← GoM.lift (Prog.perform (.chmod f fileMode))
  check err

/-- The owner of the file. The group after the colon is not read. -/
def setOwner (file : Files) (f : File) : WriterM Unit :=
  match Text.split file.owner ':' with
  | [username, _] => do
      let userInfo : Except Err UserInfo ← GoM.lift (Prog.perform (SysCall.lookup username))
      match userInfo with
      | .error e => GoM.throw (.wrap ("Error Lookup user " ++ username) e)
      | .ok userInfo => do
          let uid ← parseUint ("Error convert uid " ++ userInfo.uid) userInfo.uid 10
          let gid ← parseUint ("Error convert gid " ++ userInfo.gid) userInfo.gid 10
          let err ← GoM.lift (Prog.perform (.chown f uid gid))
          check err
  | _ => GoM.throw (.text ("invalid owner format '" ++ file.owner ++ "'"))

/-- `WriteToFile` on the open file. -/
def writeOpened (file : Files) (f : File) : WriterM Unit := do
  let err ← GoM.lift (Prog.perform (.writeString f file.content))
  check err
  GoM.when (file.permissions ≠ "") (setPermissions file f)
  GoM.when (file.owner ≠ "") (setOwner file f)
  let err ← GoM.lift (Prog.perform (.close f))
  check err

/-- `WriteToFile`. -/
def writeToFile (file : Files) : WriterM Unit := do
  let stats ← GoM.lift (Prog.perform (.stat file.path))
  let f ← GoM.lift (Prog.perform (.openFile file.path (openFlags file) (initPermission stats)))
  let f ← GoM.ofExcept f
  writeOpened file f

end FileWriter

/-! ## File systems -/

structure FileData where
  content : Bytes
  mode : Nat
  owner : Nat × Nat
  deriving DecidableEq, Repr

inductive Node where
  | file (data : FileData)
  | directory (mode : Nat)
  deriving DecidableEq, Repr

/-- A file system, as a process sees it: `place` is where a name leads, through links and relative
to the working directory, `owner` the user and the group of the process and `passwd` the users. -/
structure FileSystem where
  place : String → String := id
  nodes : String → Option Node := fun _ => none
  umask : Nat := 0o022
  owner : Nat × Nat := (0, 0)
  passwd : String → Option UserInfo := fun _ => none

namespace FileSystem

def setNode (fs : FileSystem) (place : String) (node : Node) : FileSystem :=
  { fs with nodes := Function.update fs.nodes place (some node) }

/-- Change the file at a place, if there is one. -/
def updateFile (fs : FileSystem) (place : String) (f : FileData → FileData) : FileSystem :=
  match fs.nodes place with
  | some (.file data) => fs.setNode place (.file (f data))
  | _ => fs

/-- The content of the file at a place. -/
def contentAt (fs : FileSystem) (place : String) : Option Bytes :=
  match fs.nodes place with
  | some (.file data) => some data.content
  | _ => none

/-- `os.ReadFile`. -/
def read (fs : FileSystem) (name : String) : Option Bytes := fs.contentAt (fs.place name)

/-- The permissions that a new node gets. -/
def masked (fs : FileSystem) (perm : Nat) : Nat := perm - (perm &&& fs.umask)

/-- Make a directory, unless there is something. -/
def mkdir (fs : FileSystem) (perm : Nat) (name : String) : FileSystem :=
  match fs.nodes (fs.place name) with
  | none => fs.setNode (fs.place name) (.directory (fs.masked perm))
  | some _ => fs

/-- A path and the directories above it, the highest first. -/
def ancestors (path : String) : List String :=
  ((path.toList.splitOn '/').inits.tail.map fun names =>
    String.ofList (['/'].intercalate names)).filter (· ≠ "")

/-- Make a directory and those above it; none of them may be a file. -/
def mkdirAll (fs : FileSystem) (path : String) (perm : Nat) : Option Err × FileSystem :=
  if (ancestors path).any fun name => (fs.read name).isSome then
    (some (.text "not a directory"), fs)
  else (none, (ancestors path).foldl (·.mkdir perm) fs)

/-- Open a file: create it, truncate it or leave it as it is. -/
def openFile (fs : FileSystem) (name : String) (flag : List OpenFlag) (perm : Nat) :
    Except Err File × FileSystem :=
  let place := fs.place name
  let f : File := ⟨place, .append ∈ flag⟩
  match fs.nodes place with
  | none =>
      if .create ∈ flag then
        (.ok f, fs.setNode place (.file ⟨[], fs.masked perm, fs.owner⟩))
      else (.error (.text "no such file or directory"), fs)
  | some (.directory _) => (.error (.text "is a directory"), fs)
  | some (.file data) =>
      if .trunc ∈ flag then (.ok f, fs.setNode place (.file { data with content := [] }))
      else (.ok f, fs)

/-- The content after a write to a file that was just opened: at the end or from the beginning, over
what is there. -/
def overwritten (append : Bool) (old s : Bytes) : Bytes :=
  if append then old ++ s else s ++ old.drop s.length

def writeString (fs : FileSystem) (f : File) (s : Bytes) : FileSystem :=
  fs.updateFile f.place fun data => { data with content := overwritten f.append data.content s }

end FileSystem

/-- `syscallMode`: the permissions of an `fs.FileMode`, and its bits for setuid, setgid and sticky. -/
def syscallMode (mode : Nat) : Nat :=
  (mode &&& 0o777) + (if mode.testBit 23 then 0o4000 else 0) +
    (if mode.testBit 22 then 0o2000 else 0) + (if mode.testBit 20 then 0o1000 else 0)

/-! ## The host -/

/-- What the environment decides about a call: its error, if it fails, and how far it had come: how
many bytes were written, or how many directories made. -/
structure SysOutcome where
  err : Option Err := none
  progress : Nat := 0
  deriving DecidableEq, Repr

instance : Inhabited SysOutcome := ⟨{}⟩

/-- What a template expands to, and what a command does to the file system. -/
structure Host where
  expand : Bytes → Except Err Bytes
  command : String → FileSystem → FileSystem

/-- A call that fails without any effect, or has its effect. -/
def failOr (o : SysOutcome) (fs fs' : FileSystem) : Option Err × FileSystem :=
  match o.err with
  | some e => (some e, fs)
  | none => (none, fs')

/-- Answer a call. -/
def Host.exec (host : Host) (o : SysOutcome) : (c : SysCall) → FileSystem → SysResp c × FileSystem
  | .stat name, fs =>
      match o.err, fs.nodes (fs.place name) with
      | some e, _ => (.error (.other e), fs)
      | none, none => (.error .notExist, fs)
      | none, some (.file data) => (.ok data.mode, fs)
      | none, some (.directory mode) => (.ok mode, fs)
  | .mkdirAll path perm, fs =>
      match o.err with
      | some e => (some e, ((FileSystem.ancestors path).take o.progress).foldl (·.mkdir perm) fs)
      | none => fs.mkdirAll path perm
  | .openFile name flag perm, fs =>
      match o.err with
      | some e => (.error e, fs)
      | none => fs.openFile name flag perm
  | .writeString f s, fs =>
      match o.err with
      | some e => (some e, fs.writeString f (s.take o.progress))
      | none => (none, fs.writeString f s)
  | .chmod f mode, fs =>
      failOr o fs (fs.updateFile f.place fun data => { data with mode := syscallMode mode })
  | .lookup username, fs =>
      match o.err, fs.passwd username with
      | some e, _ => (.error e, fs)
      | none, none => (.error (.text ("user: unknown user " ++ username)), fs)
      | none, some userInfo => (.ok userInfo, fs)
  | .chown f uid gid, fs =>
      failOr o fs (fs.updateFile f.place fun data => { data with owner := (uid, gid) })
  | .close _, fs => (o.err, fs)
  | .parseTemplate content, fs =>
      match o.err with
      | some e => (.error e, fs)
      | none => (host.expand content, fs)
  | .runCmd cmd, fs => (o.err, host.command cmd fs)

/-- The error that a function of the file writer returns. None of them panics. -/
def returned (x : WriterM Unit) : Prog SysCall SysResp (Option Err) :=
  (x ()).bind fun r =>
    match r.1 with
    | .ok _ => .ret none
    | .err e => .ret (some e)
    | .panic msg => .ret (some (.text msg))

/-- The interfaces of `ScriptExecutor`, carried out on the host. -/
def interfaces : (c : Call) → Prog SysCall SysResp (Resp c)
  | .mkdirIfNotExists dirName => returned (FileWriter.mkdirIfNotExists dirName)
  | .parseTemplate content => Prog.perform (SysCall.parseTemplate content)
  | .writeToFile file => returned (FileWriter.writeToFile file)
  | .runCmd cmd => Prog.perform (SysCall.runCmd cmd)

/-- Run a function of the script executor on a file system: its exit, and the file system. -/
def hosted (host : Host) (os : List SysOutcome) (x : ExecutorM Unit) (fs : FileSystem) :
    Exit Err Unit × FileSystem :=
  let r := Prog.run host.exec os (Prog.handle interfaces (x ())) fs
  (r.1.1, r.2)

end Byoh.Model.CloudInit
