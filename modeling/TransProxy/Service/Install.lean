import TransProxy.Service.Lifecycle
import TransProxy.Service.Files

/-!
# Installing and removing the service

The four service commands on both platforms. The texts that are printed are left out.
-/
namespace TransProxy.Service
open Library

def scriptsDir : String := "/usr/local/lib/trans_proxy"
def wrapperPath : String := "/usr/local/lib/trans_proxy/run.sh"
def plistLabel : String := "com.github.madeye.trans_proxy"
def logPath : String := "/var/log/trans_proxy.log"

/-- The property list takes no arguments from the command line. -/
def generatePlist (_args : List String) : String :=
  "<?xml version=\x221.0\x22 encoding=\x22UTF-8\x22?>\n" ++
  "<!DOCTYPE plist PUBLIC \x22-//Apple//DTD PLIST 1.0//EN\x22 " ++
  "\x22http://www.apple.com/DTDs/PropertyList-1.0.dtd\x22>\n" ++
  "<plist version=\x221.0\x22>\n" ++
  "<dict>\n" ++
  "    <key>Label</key>\n" ++
  "    <string>" ++ plistLabel ++ "</string>\n" ++
  "    <key>ProgramArguments</key>\n" ++
  "    <array>\n" ++
  "        <string>" ++ wrapperPath ++ "</string>\n" ++
  "    </array>\n" ++
  "    <key>RunAtLoad</key>\n" ++
  "    <true/>\n" ++
  "    <key>KeepAlive</key>\n" ++
  "    <true/>\n" ++
  "    <key>StandardOutPath</key>\n" ++
  "    <string>" ++ logPath ++ "</string>\n" ++
  "    <key>StandardErrorPath</key>\n" ++
  "    <string>" ++ logPath ++ "</string>\n" ++
  "    <key>WorkingDirectory</key>\n" ++
  "    <string>/</string>\n" ++
  "</dict>\n" ++
  "</plist>\n"

def installBinary (exe : Exe) : ServiceScript Unit := do
  orFail "Failed to determine current executable path" .currentExe
  orFail ("Failed to copy " ++ exe.path ++ " to " ++ installBin) (.copy exe installBin)
  setExecutable installBin

def removeInstalled (path : String) (first : ServiceScript Unit) : ServiceScript Unit := do
  if ← ask (.pathExists path) then
    first
    orFail ("Failed to remove " ++ path) (.removeFile path)
  else pure ()

def removeScripts : ServiceScript Unit := do
  if ← ask (.pathExists scriptsDir) then
    orFail ("Failed to remove " ++ scriptsDir) (.removeDirAll scriptsDir)
  else pure ()

def whenInstalled (kind path : String) (cmd : String) (args : List String) :
    ServiceScript Unit := do
  checkRoot
  if ← ask (.pathExists path) then runCmd cmd args
  else
    .fail ("Service is not installed (no " ++ kind ++ " at " ++ path ++
      "). Run with --install first.")

namespace Linux

/-- Scripts of previous installations; it does not matter whether they can be removed. -/
def removeLegacyScripts : ServiceScript Unit := do
  if ← ask (.pathExists scriptsDir) then Script.ignore (.removeDirAll scriptsDir) else pure ()

def install (exe : Exe) (args : List String) : ServiceScript Unit := do
  checkRoot
  installBinary exe
  removeLegacyScripts
  orFail ("Failed to write unit file to " ++ unitPath) (.write unitPath (generateUnit args))
  runCmd "systemctl" ["daemon-reload"]
  runCmd "systemctl" ["enable", "--now", "trans_proxy"]

def start : ServiceScript Unit :=
  whenInstalled "unit" unitPath "systemctl" ["start", "trans_proxy"]

def stop : ServiceScript Unit :=
  whenInstalled "unit" unitPath "systemctl" ["stop", "trans_proxy"]

def uninstall : ServiceScript Unit := do
  checkRoot
  removeInstalled unitPath (Script.ignore (.run "systemctl" ["disable", "--now", "trans_proxy"]))
  removeInstalled installBin (pure ())
  removeScripts
  Script.ignore (.run "systemctl" ["daemon-reload"])

end Linux

namespace Macos

def legacyScripts : List String :=
  ["/usr/local/lib/trans_proxy/pf_setup.sh", "/usr/local/lib/trans_proxy/pf_teardown.sh"]

def removeLegacy : List String → ServiceScript Unit
  | [] => pure ()
  | path :: paths => do
    Script.ignore (.removeFile path)
    removeLegacy paths

def launchctlLoad : ServiceScript Unit :=
  Script.check (fun _ answer =>
    match answer with
    | .ok => none
    | .exited code _ => some ("launchctl load failed (exit code: " ++ codeText code ++ ")")
    | answer => some ("Failed to run launchctl: " ++ answer.message))
    (.run "launchctl" ["load", "-w", plistPath])

def install (exe : Exe) (args : List String) : ServiceScript Unit := do
  checkRoot
  installBinary exe
  orFail ("Failed to create " ++ scriptsDir) (.createDirAll scriptsDir)
  removeLegacy legacyScripts
  orFail ("Failed to write " ++ wrapperPath) (.write wrapperPath (generateWrapper args))
  setExecutable wrapperPath
  orFail ("Failed to write plist to " ++ plistPath) (.write plistPath (generatePlist args))
  runCmd "chmod" ["644", plistPath]
  runCmd "chown" ["root:wheel", plistPath]
  launchctlLoad

def start : ServiceScript Unit :=
  whenInstalled "plist" plistPath "launchctl" ["load", "-w", plistPath]

def stop : ServiceScript Unit :=
  whenInstalled "plist" plistPath "launchctl" ["unload", plistPath]

def uninstall : ServiceScript Unit := do
  checkRoot
  removeInstalled plistPath (Script.ignore (.run "launchctl" ["unload", "-w", plistPath]))
  removeInstalled installBin (pure ())
  removeScripts

end Macos

inductive Request where
  | install (exe : Exe) (args : List String)
  | start
  | stop
  | uninstall

/-- What the program does on a request. -/
def Request.script : Manager → Request → ServiceScript Unit
  | .systemd, .install exe args => Linux.install exe args
  | .systemd, .start => Linux.start
  | .systemd, .stop => Linux.stop
  | .systemd, .uninstall => Linux.uninstall
  | .launchd, .install exe args => Macos.install exe args
  | .launchd, .start => Macos.start
  | .launchd, .stop => Macos.stop
  | .launchd, .uninstall => Macos.uninstall

end TransProxy.Service
