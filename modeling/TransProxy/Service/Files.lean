import Mathlib.Logic.Function.Basic
import TransProxy.Library.Crash

/-!
# The host of the service

What `install`, `uninstall`, `start` and `stop` ask of the system, as operations with answers.
Files are seen by their paths. An operation that fails may leave a part of what it was to do, and
an answer is one that the host can give.
-/
namespace TransProxy.Service
open Library

structure File where
  content : String
  executable : Bool
deriving DecidableEq

structure Exe where
  path : String
  file : File
deriving DecidableEq

inductive Op where
  /-- `geteuid` is 0. -/
  | isRoot
  | currentExe
  | copy (exe : Exe) (path : String)
  | pathExists (path : String)
  | write (path text : String)
  | removeFile (path : String)
  | createDirAll (dir : String)
  | removeDirAll (dir : String)
  | run (program : String) (args : List String)

inductive Answer where
  | ok
  | holds (b : Bool)
  | failed (message : String)
  /-- A file that was not written completely, or not at all. -/
  | left (message : String) (file : Option File)
  /-- A directory of which these paths were not removed. -/
  | kept (message : String) (paths : String → Bool)
  /-- A program without success; there is no code if it was killed. It may have done its work. -/
  | exited (code : Option ℤ) (did : Bool)

def Answer.message : Answer → String
  | .failed message | .left message _ | .kept message _ => message
  | _ => ""

def unitPath : String := "/etc/systemd/system/trans_proxy.service"
def plistPath : String := "/Library/LaunchDaemons/com.github.madeye.trans_proxy.plist"

/-- Where `systemctl enable` links to the unit. -/
def wantsPath : String := "/etc/systemd/system/multi-user.target.wants/trans_proxy.service"

inductive Manages where
  | starts
  | reloads
deriving DecidableEq

/-- What a command is to a service manager. -/
def manages (program : String) (args : List String) : Option Manages :=
  if program = "systemctl" ∧ (args = ["enable", "--now", "trans_proxy"] ∨
      args = ["start", "trans_proxy"]) ∨
    program = "launchctl" ∧ args = ["load", "-w", plistPath] then some .starts
  else if program = "systemctl" ∧ args = ["daemon-reload"] then some .reloads
  else none

def enables (program : String) (args : List String) : Option Bool :=
  if program = "systemctl" ∧ args = ["enable", "--now", "trans_proxy"] then some true
  else if program = "systemctl" ∧ args = ["disable", "--now", "trans_proxy"] then some false
  else none

structure Host where
  file : String → Option File
  /-- The symbolic links, by their targets. -/
  link : String → Option String
  dir : String → Bool
  /-- The unit as systemd has read it. -/
  loaded : Option String
  -- history
  /-- The files and the unit in use whenever the manager was told to start the service. -/
  started : List ((String → Option File) × Option String)

namespace Host
variable (h : Host)

def put (path : String) (file : Option File) : Host :=
  { h with file := Function.update h.file path file }

def setMode (path mode : String) : Host :=
  h.put path ((h.file path).map fun file => { file with executable := mode == "755" })

/-- The path is that of a file below the directory. -/
def below (dir path : String) : Bool := (dir ++ "/").toList.isPrefixOf path.toList

def removeBelow (dir : String) (paths : String → Bool) : Host :=
  { h with file := fun path => if below dir path && !paths path then none else h.file path }

def linkAfter (program : String) (args : List String) : String → Option String :=
  match enables program args with
  | some true => Function.update h.link wantsPath (some unitPath)
  | some false => Function.update h.link wantsPath none
  | none => h.link

/-- `did` tells whether the program did its work. -/
def runs (program : String) (args : List String) (did : Bool) : Host :=
  match manages program args with
  | some .starts => { h with started := h.started ++ [(h.file, h.loaded)] }
  | some .reloads => if did then { h with loaded := (h.file unitPath).map File.content } else h
  | none =>
    match program, args with
    | "chmod", [mode, path] => if did then h.setMode path mode else h
    | _, _ => h

end Host

def Answer.isOk : Answer → Bool
  | .ok => true
  | _ => false

def Answer.did : Answer → Bool
  | .ok => true
  | .exited _ did => did
  | _ => false

/-- What is at the path when a file was to be written there. -/
def Host.wrote (h : Host) (path : String) (file : File) : Answer → Host
  | .ok => h.put path (some file)
  | .left _ part => h.put path part
  | _ => h

/-- What is below the directory when it was to be removed. -/
def Host.removedDir (h : Host) (dir : String) : Answer → Host
  | .ok =>
    { h with
      file := (h.removeBelow dir fun _ => false).file, dir := Function.update h.dir dir false }
  | .kept _ paths => h.removeBelow dir paths
  | _ => h

def Op.effect (op : Op) (answer : Answer) (h : Host) : Host :=
  match op with
  | .copy exe path => h.wrote path exe.file answer
  | .write path text =>
    h.wrote path { content := text, executable := (h.file path).any File.executable } answer
  | .removeFile path => if answer.isOk then h.put path none else h
  | .createDirAll dir =>
    if answer.isOk then { h with dir := Function.update h.dir dir true } else h
  | .removeDirAll dir => h.removedDir dir answer
  | .run program args =>
    { h.runs program args answer.did with
      link := if answer.did then h.linkAfter program args else h.link }
  | .isRoot | .currentExe | .pathExists _ => h

/-- The answers that a host can give. What fails to write a file does not remove it. -/
def Op.Allowed (h : Host) : Op → Answer → Prop
  | .isRoot, .holds _ => True
  | .currentExe, .ok | .currentExe, .failed _ => True
  | .copy _ _, .ok => True
  | .copy _ path, .left _ file => (h.file path).isSome → file.isSome
  | .pathExists path, .holds b => b = ((h.file path).isSome || h.dir path)
  | .write _ _, .ok => True
  | .write path _, .left _ file => (h.file path).isSome → file.isSome
  | .removeFile _, .ok | .removeFile _, .failed _ => True
  | .createDirAll _, .ok | .createDirAll _, .failed _ => True
  | .removeDirAll _, .ok | .removeDirAll _, .kept _ _ => True
  | .run _ _, .ok | .run _ _, .failed _ => True
  | .run _ _, .exited code _ => code ≠ some 0
  | _, _ => False

abbrev ServiceScript := Script Op Answer String

def Host.after (h : Host) (trace : List (Op × Answer)) : Host := Script.after Op.effect h trace

def Host.Answers (h : Host) (trace : List (Op × Answer)) : Prop :=
  Script.Allows Op.effect Op.Allowed h trace

/-- `with_context` and `?`. -/
def orFail (context : String) (op : Op) : ServiceScript Unit :=
  Script.check (fun _ answer =>
    if answer.isOk then none else some (context ++ ": " ++ answer.message)) op

def ask (op : Op) : ServiceScript Bool :=
  .command op fun
    | .holds b => .done b
    | _ => .done false

/-- `{:?}` of an exit code. -/
def codeText : Option ℤ → String
  | some code => "Some(" ++ toString code ++ ")"
  | none => "None"

def runCmdError (cmd : String) : Answer → Option String
  | .ok => none
  | .exited code _ => some (cmd ++ " failed (exit code: " ++ codeText code ++ ")")
  | answer => some ("Failed to run " ++ cmd ++ ": " ++ answer.message)

def runCmd (cmd : String) (args : List String) : ServiceScript Unit :=
  Script.check (fun _ answer => runCmdError cmd answer) (.run cmd args)

def checkRoot : ServiceScript Unit := do
  if ← ask .isRoot then pure () else .fail "This command must be run as root (use sudo)"

def setExecutable (path : String) : ServiceScript Unit := runCmd "chmod" ["755", path]

end TransProxy.Service
