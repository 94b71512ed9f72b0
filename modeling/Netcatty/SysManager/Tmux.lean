import Netcatty.SysManager.Inventory

/-! # tmux sessions

`planOperation` turns an operation on tmux sessions into a fixed invocation: the words are kept, and
`renderShellCommand` writes them for a transport that takes one shell command.  `parseSessions`
reads what `LIST_SESSIONS_FORMAT` asks tmux to print, one line for each session.  A line that it
cannot read rejects the whole listing. -/

namespace Netcatty.SysManager.Tmux

open Serial (isControl isWhitespace)
open Vault (Text utf8Len)

def maxSessionNameBytes : ℕ := 64
def maxListOutputBytes : ℕ := 256 * 1024
def maxListLineBytes : ℕ := 512
def maxListedSessions : ℕ := 512
def maxWindowCount : ℕ := 1000000
def maxEpochSeconds : ℕ := 253402300799
def mutationOutputLimitBytes : ℕ := 4 * 1024

def listSessionsFormat : Text :=
  ("#\x7bsession_name\x7d\t#\x7bsession_windows\x7d\t#\x7bsession_attached\x7d\t" ++
    "#\x7bsession_created\x7d\t#\x7bsession_activity\x7d").toList

/-! ### Plans -/

inductive TmuxOperation
  | listSessions
  | createSession (name : Text)
  | attachSession (name : Text)
  | killSession (name : Text)
  | renameSession (name newName : Text)
  deriving DecidableEq

inductive TmuxExecKind
  | listSessions | createSession | killSession | renameSession
  deriving DecidableEq, Repr

structure TmuxExecPlan where
  kind : TmuxExecKind
  args : List Text
  shellCommand : Text
  maxOutputBytes : ℕ
  deriving DecidableEq

def TmuxExecPlan.program : Text := "tmux".toList

structure TmuxTerminalLaunchPlan where
  args : List Text
  deriving DecidableEq

inductive TmuxOperationPlan
  | exec (plan : TmuxExecPlan)
  | terminalAttach (plan : TmuxTerminalLaunchPlan)
  deriving DecidableEq

inductive TmuxPlanError
  | invalidSessionName | renameTargetUnchanged
  deriving DecidableEq, Repr

/-- The name is data: what would end a field, a line or a target in it is refused. -/
def validateSessionName (name : Text) : Except TmuxPlanError Unit :=
  if utf8Len name = 0 ∨ maxSessionNameBytes < utf8Len name ∨ name.all isWhitespace ∨
      name.any (fun character => isControl character || character = ':') then
    .error .invalidSessionName
  else .ok ()

def shellQuote (value : Text) : Text := SysManager.shellQuote value

def renderShellCommand (args : List Text) : Text :=
  "tmux".toList ++ args.flatMap fun arg => ' ' :: shellQuote arg

def exactTarget (name : Text) : Text := '=' :: name

def execPlan (kind : TmuxExecKind) (args : List Text) : TmuxExecPlan where
  kind
  args
  shellCommand := renderShellCommand args
  maxOutputBytes := if kind = .listSessions then maxListOutputBytes else mutationOutputLimitBytes

def planOperation : TmuxOperation → Except TmuxPlanError TmuxOperationPlan
  | .listSessions =>
      .ok (.exec (execPlan .listSessions
        ["list-sessions".toList, "-F".toList, listSessionsFormat]))
  | .createSession name => do
      validateSessionName name
      return .exec (execPlan .createSession
        ["new-session".toList, "-d".toList, "-s".toList, name])
  | .attachSession name => do
      validateSessionName name
      return .terminalAttach ⟨["attach-session".toList, "-t".toList, exactTarget name]⟩
  | .killSession name => do
      validateSessionName name
      return .exec (execPlan .killSession ["kill-session".toList, "-t".toList, exactTarget name])
  | .renameSession name newName => do
      validateSessionName name
      validateSessionName newName
      if name = newName then .error .renameTargetUnchanged
      else return .exec (execPlan .renameSession
        ["rename-session".toList, "-t".toList, exactTarget name, newName])

/-! ### Listings -/

structure TmuxSession where
  name : Text
  windows : ℕ
  attached : Bool
  created : Option ℕ
  lastActivity : Option ℕ
  deriving DecidableEq

inductive TmuxParseError
  | outputTooLarge | lineTooLarge | tooManySessions | malformedRow | duplicateSession
  deriving DecidableEq, Repr

def parseOptionalEpoch (value : Text) : Except TmuxParseError (Option ℕ) :=
  if value.isEmpty ∨ value = ['0'] then .ok none
  else
    match (parseUnsigned 64 value).filter fun epoch => 1 ≤ epoch ∧ epoch ≤ maxEpochSeconds with
    | some epoch => .ok (some epoch)
    | none => .error .malformedRow

def parseWindows (value : Text) : Except TmuxParseError ℕ :=
  match (parseUnsigned 32 value).filter fun count => 1 ≤ count ∧ count ≤ maxWindowCount with
  | some count => .ok count
  | none => .error .malformedRow

def parseAttached (value : Text) : Except TmuxParseError Bool :=
  if value = ['0'] then .ok false
  else if value = ['1'] then .ok true
  else .error .malformedRow

/-- The five fields of a line. -/
def parseSession (line : Text) : Except TmuxParseError TmuxSession :=
  match line.splitOn '\t' with
  | [name, windows, attached, created, activity] =>
      match validateSessionName name with
      | .error _ => .error .malformedRow
      | .ok () => do
          let windows ← parseWindows windows
          let attached ← parseAttached attached
          let created ← parseOptionalEpoch created
          let lastActivity ← parseOptionalEpoch activity
          return { name, windows, attached, created, lastActivity }
  | _ => .error .malformedRow

/-- The loop body: the names that were seen are those of the sessions so far. -/
def parseLine (sessions : List TmuxSession) (rawLine : Text) :
    Except TmuxParseError (List TmuxSession) :=
  let line := stripCarriageReturn rawLine
  if line.isEmpty then .ok sessions
  else if maxListLineBytes < utf8Len line then .error .lineTooLarge
  else if sessions.length = maxListedSessions then .error .tooManySessions
  else do
    let session ← parseSession line
    if session.name ∈ sessions.map TmuxSession.name then .error .duplicateSession
    else return sessions ++ [session]

def parseSessions (stdout : Text) : Except TmuxParseError (List TmuxSession) :=
  if maxListOutputBytes < utf8Len stdout then .error .outputTooLarge
  else (stdout.splitOn '\n').foldlM parseLine []

end Netcatty.SysManager.Tmux
