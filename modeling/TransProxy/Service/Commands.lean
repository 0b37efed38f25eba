import TransProxy.Library.Shell
import TransProxy.Service.Args

/-!
# The commands of the installed service

`generate_unit` and `generate_wrapper` write the same three commands down: the setup of
the firewall, the proxy and the teardown.
-/
namespace TransProxy.Service
open Library

structure Command where
  program : String
  args : List String
deriving DecidableEq

def installBin : String := "/usr/local/bin/trans_proxy"

def unitSetup (args : List String) : Command := ⟨installBin, unitSetupArgs args⟩

def wrapperSetup (args : List String) : Command := ⟨installBin, wrapperSetupArgs args⟩

def proxyCommand (args : List String) : Command := ⟨installBin, filterServiceArgs args⟩

def teardownCommand : Command := ⟨installBin, ["--teardown-firewall"]⟩

def singleQuote : Char := '\x27'
def doubleQuote : Char := '\x22'
def backslash : Char := '\x5c'

/-- What systemd takes as it is. -/
def isUnitSafe (ch : Char) : Bool := ch.isAlphanum || "@_+=:,./-".toList.contains ch

def isShellSafe (ch : Char) : Bool := ch.isAlphanum || "@%_+=:,./-".toList.contains ch

def systemdQuoteArg (arg : String) : String :=
  let escaped := arg.toList.flatMap (fun ch => if ch = '%' ∨ ch = '$' then [ch, ch] else [ch])
  if escaped ≠ [] ∧ escaped.all isUnitSafe then String.ofList escaped
  else
    let quoted := escaped.flatMap
      (fun ch => if ch = doubleQuote ∨ ch = backslash then [backslash, ch] else [ch])
    String.ofList (doubleQuote :: quoted ++ [doubleQuote])

def shellQuote (arg : String) : String :=
  if arg.toList ≠ [] ∧ arg.toList.all isShellSafe then arg
  else
    let quoted := arg.toList.flatMap (fun ch =>
      if ch = singleQuote then [singleQuote, backslash, singleQuote, singleQuote] else [ch])
    String.ofList (singleQuote :: quoted ++ [singleQuote])

def systemdCommand (program : String) (args : List String) : String :=
  " ".intercalate (program :: args.map systemdQuoteArg)

def shellCommand (program : String) (args : List String) : String :=
  " ".intercalate (program :: args.map shellQuote)

theorem toList_join (program : String) (words : List String) :
    (" ".intercalate (program :: words)).toList =
      program.toList ++ (words.map String.toList).flatMap (' ' :: ·) := by
  induction words generalizing program with
  | nil => simp
  | cons word words ih =>
    rw [String.intercalate_cons_cons, String.toList_append, String.toList_append, ih, List.map_cons,
      List.flatMap_cons]
    simp

def systemdUnit (args : List String) : Supervised Command :=
  { startPre := unitSetup args, start := proxyCommand args, stopPost := teardownCommand }

def unitHead : String :=
  "[Unit]\n" ++
  "Description=Transparent proxy with upstream HTTP CONNECT and SOCKS5 support\n" ++
  "After=network-online.target\n" ++
  "Wants=network-online.target\n" ++
  "\n" ++
  "[Service]\n" ++
  "Type=simple\n"

def unitTail : String :=
  "Restart=always\n" ++
  "RestartSec=5\n" ++
  "StandardOutput=journal\n" ++
  "StandardError=journal\n" ++
  "LimitNOFILE=65536\n" ++
  "ProtectSystem=false\n" ++
  "PrivateTmp=false\n" ++
  "AmbientCapabilities=CAP_NET_ADMIN CAP_NET_BIND_SERVICE\n" ++
  "\n" ++
  "[Install]\n" ++
  "WantedBy=multi-user.target\n"

def generateUnit (args : List String) : String :=
  let execStart := systemdCommand installBin (filterServiceArgs args)
  let setupCmd := systemdCommand installBin (unitSetupArgs args)
  let teardownCmd := installBin ++ " --teardown-firewall"
  unitHead ++
  "ExecStartPre=" ++ setupCmd ++ "\n" ++
  "ExecStart=" ++ execStart ++ "\n" ++
  "ExecStopPost=" ++ teardownCmd ++ "\n" ++
  unitTail

def wrapperScript (args : List String) : List (Stmt Command) :=
  [.errexit, .trapExit [teardownCommand], .run (wrapperSetup args), .exec (proxyCommand args)]

/-- The comments on top of the wrapper. -/
def wrapperHead : String :=
  "#!/bin/bash\n" ++
  "# Auto-generated wrapper script for trans_proxy LaunchDaemon.\n" ++
  "# Sets up firewall rules before starting, tears down on exit.\n"

def generateWrapper (args : List String) : String :=
  let execArgs := shellCommand installBin (filterServiceArgs args)
  let setupCmd := shellCommand installBin (wrapperSetupArgs args)
  let teardownCmd := installBin ++ " --teardown-firewall"
  wrapperHead ++
  "set -euo pipefail\n\n" ++
  "cleanup() \x7b\n" ++ "    " ++ teardownCmd ++ "\n" ++ "\x7d\n" ++
  "trap cleanup EXIT\n\n" ++
  setupCmd ++ "\n\n" ++
  "exec " ++ execArgs ++ "\n"

def unitText (u : Supervised Command) : String :=
  "ExecStartPre=" ++ systemdCommand u.startPre.program u.startPre.args ++ "\n" ++
  "ExecStart=" ++ systemdCommand u.start.program u.start.args ++ "\n" ++
  "ExecStopPost=" ++ systemdCommand u.stopPost.program u.stopPost.args ++ "\n"

/-- The commands of a trap are the body of a function. -/
def bodyText : List Command → String
  | [] => ""
  | c :: body => "    " ++ shellCommand c.program c.args ++ "\n" ++ bodyText body

def stmtText : Stmt Command → String
  | .errexit => "set -euo pipefail\n\n"
  | .trapExit body => "cleanup() \x7b\n" ++ bodyText body ++ "\x7d\n" ++ "trap cleanup EXIT\n\n"
  | .run c => shellCommand c.program c.args ++ "\n\n"
  | .exec c => "exec " ++ shellCommand c.program c.args ++ "\n"

def scriptText : List (Stmt Command) → String
  | [] => ""
  | stmt :: script => stmtText stmt ++ scriptText script

/-- The teardown needs no quoting. -/
theorem teardown_text :
    systemdCommand installBin ["--teardown-firewall"] = installBin ++ " --teardown-firewall" ∧
      shellCommand installBin ["--teardown-firewall"] = installBin ++ " --teardown-firewall" := by
  decide

/-- The unit file is written for the commands of the unit. -/
theorem generateUnit_eq (args : List String) :
    generateUnit args = unitHead ++ unitText (systemdUnit args) ++ unitTail := by
  unfold generateUnit unitText systemdUnit unitSetup proxyCommand teardownCommand
  simp only [teardown_text.1, String.append_assoc]

/-- The wrapper is written for the script. -/
theorem generateWrapper_eq (args : List String) :
    generateWrapper args = wrapperHead ++ scriptText (wrapperScript args) := by
  simp only [generateWrapper, wrapperScript, scriptText, stmtText, bodyText, wrapperSetup,
    proxyCommand, teardownCommand, teardown_text.2, String.append_assoc, String.append_empty]

end TransProxy.Service
