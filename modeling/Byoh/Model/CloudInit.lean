import Byoh.Foundation.GoFunction
import Byoh.Foundation.Text
import Byoh.Model.Objects

/-!
# Bootstrap scripts

`agent/cloudinit`: `ScriptExecutor.Execute` carries out a cloud-config, a list of files to write and
a list of commands to run. It uses three interfaces, whose calls are a `Call` here. The file writer
of the agent is in `Model/FileWriter`.

What `yaml.Unmarshal`, base64 and gzip compute is given by the `ScriptExecutor`, and what a template
expands to by the environment. Content is a list of bytes; the other fields of a file are texts.
-/

set_option autoImplicit false

namespace Byoh.Model.CloudInit

open Byoh.Foundation

abbrev Bytes := List UInt8

/-- `Files`. -/
structure Files where
  path : String
  encoding : String := ""
  owner : String := ""
  permissions : String := ""
  content : Bytes := []
  append : Bool := false
  deriving DecidableEq, Repr

/-- `bootstrapConfig`. -/
structure BootstrapConfig where
  filesToWrite : List Files := []
  commandsToExecute : List String := []
  deriving DecidableEq, Repr

/-! ## Encodings -/

/-- The decoders of `encoding/base64` and `common.GunzipData`. -/
structure Decoders where
  base64 : Bytes → Except Err Bytes
  gunzip : Bytes → Except Err Bytes

/-- `encodingBase64`. -/
def encodingBase64 : String := "application/base64"

/-- `parseEncodingScheme`. -/
def parseEncodingScheme (e : String) : List String :=
  let e := Text.trimSpace (Text.toLower e)
  if e ∈ ["gz+base64", "gzip+base64", "gz+b64", "gzip+b64"] then
    [encodingBase64, "application/x-gzip"]
  else if e ∈ ["base64", "b64"] then [encodingBase64]
  else ["text/plain"]

/-- `decodeContent`. -/
def decodeContent (d : Decoders) (content : Bytes) : List String → Except Err Bytes
  | [] => .ok content
  | e :: encodings =>
      if e = encodingBase64 then
        match d.base64 content with
        | .error err => .error err
        | .ok rByte => decodeContent d rByte encodings
      else if e = "application/x-gzip" then
        match d.gunzip content with
        | .error err => .error err
        | .ok rByte => decodeContent d rByte encodings
      else if e = "text/plain" then decodeContent d content encodings
      else .error (.text "Unknown bootstrap data encoding")

/-! ## ScriptExecutor -/

/-- The calls of `IFileWriter`, `ITemplateParser` and `ICmdRunner`. -/
inductive Call where
  | mkdirIfNotExists (dirName : String)
  | parseTemplate (templateContent : Bytes)
  | writeToFile (file : Files)
  | runCmd (cmd : String)
  deriving DecidableEq, Repr

/-- The responses; `none` is the nil error. -/
@[reducible] def Resp : Call → Type
  | .parseTemplate _ => Except Err Bytes
  | .mkdirIfNotExists _ | .writeToFile _ | .runCmd _ => Option Err

abbrev ExecutorM := GoM Call Resp Err Unit

/-- `ScriptExecutor`. The file writer and the command runner are always there; `parser` tells
whether `ParseTemplateExecutor` is. -/
structure ScriptExecutor where
  unmarshal : String → Except Err BootstrapConfig
  decoders : Decoders
  parser : Bool := true

/-- The decoded content of a file. -/
def decoded (se : ScriptExecutor) (file : Files) : Except Err Bytes :=
  decodeContent se.decoders file.content (parseEncodingScheme file.encoding)

/-- Return the error of a call with a message in front of it. -/
def wrapError (msg : String) : Option Err → ExecutorM Unit
  | none => pure ()
  | some e => GoM.throw (.wrap msg e)

/-- Return the error of a result with a message in front of it. -/
def wrapResult (msg : String) : Except Err Bytes → ExecutorM Bytes
  | .ok content => pure content
  | .error e => GoM.throw (.wrap msg e)

/-- `se.ParseTemplateExecutor.ParseTemplate`; it panics without a parser. -/
def parseTemplate (se : ScriptExecutor) (content : Bytes) : ExecutorM (Except Err Bytes) :=
  if se.parser then GoM.lift (Prog.perform (Call.parseTemplate content))
  else GoM.panic "invalid memory address: se.ParseTemplateExecutor"

/-- The second part of the body of the first loop of `Execute`: decode, expand and write. -/
def writeContent (se : ScriptExecutor) (file : Files) : ExecutorM Unit := do
  let encodings := parseEncodingScheme file.encoding
  let content ← wrapResult ("error decoding content for " ++ file.path)
    (decodeContent se.decoders file.content encodings)
  let res ← parseTemplate se content
  let content ← wrapResult ("error parse template content for " ++ file.path) res
  let err ← GoM.lift (Prog.perform (.writeToFile { file with content := content }))
  wrapError ("Error writing the file " ++ file.path) err

/-- The body of the first loop of `Execute`. -/
def writeFile (se : ScriptExecutor) (file : Files) : ExecutorM Unit := do
  let directoryToCreate := Text.dirOf file.path
  let err ← GoM.lift (Prog.perform (.mkdirIfNotExists directoryToCreate))
  wrapError ("Error creating the directory " ++ directoryToCreate) err
  writeContent se file

/-- The first loop of `Execute`. -/
def writeFiles (se : ScriptExecutor) : List Files → ExecutorM Unit
  | [] => pure ()
  | file :: files => do
      writeFile se file
      writeFiles se files

/-- The second loop of `Execute`. -/
def runCommands : List String → ExecutorM Unit
  | [] => pure ()
  | cmd :: cmds => do
      let err ← GoM.lift (Prog.perform (.runCmd cmd))
      wrapError ("Error running the command " ++ cmd) err
      runCommands cmds

/-- `Execute` on the parsed script. -/
def executeConfig (se : ScriptExecutor) (cloudInitData : BootstrapConfig) : ExecutorM Unit := do
  writeFiles se cloudInitData.filesToWrite
  runCommands cloudInitData.commandsToExecute

/-- `Execute`. -/
def execute (se : ScriptExecutor) (bootstrapScript : String) : ExecutorM Unit :=
  match se.unmarshal bootstrapScript with
  | .error e => GoM.throw (.wrap ("error parsing write_files action: " ++ bootstrapScript) e)
  | .ok cloudInitData => executeConfig se cloudInitData

end Byoh.Model.CloudInit
