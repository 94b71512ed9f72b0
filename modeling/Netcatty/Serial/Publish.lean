import Mathlib.Logic.Function.Basic
import Netcatty.Serial.Zmodem.Metadata

/-! # Publishing a received file

A received file is written under a stage name and then published: a job links it to the first free
one of its destination names and takes the stage name away.  `PublishCancellation` is the cell in
which the job and any number of requests to cancel it meet; the directory is a map from names to
files, in which others create names at the same time.

A state holds the place of the job in `PendingReceiveFile::publish`, one step for each access to the
cell or to the directory, and for each request its place in `request_cancel`. -/

namespace Netcatty.Serial

open Zmodem (maxFilenameBytes sanitizeZmodemFilename)

inductive NativeFileOperation
  | inspect | flush | metadata | publish
  deriving DecidableEq, Repr

/-- The errors of publishing and of what interrupts it. -/
inductive SerialZmodemError
  | selectedPathInvalid
  | destinationExists
  | nativeFileFailed (operation : NativeFileOperation)
  | transferCancelled
  | selectionBufferFull
  | protocol (error : Zmodem.Error)
  | serialClosed
  | invalidState
  deriving DecidableEq, Repr

/-! ### Destination names -/

def maxUniqueDestinationAttempts : ℕ := 10000

/-- A name that sanitizing leaves as it is.  Such a name is one normal component of a path. -/
def validateReceiveName (fileName : List Char) : Except SerialZmodemError Unit :=
  if fileName = [] ∨ maxFilenameBytes < (encodeUtf8 fileName).length then
    .error .selectedPathInvalid
  else
    match sanitizeZmodemFilename fileName with
    | .error error => .error (.protocol error)
    | .ok sanitized => if sanitized ≠ fileName then .error .selectedPathInvalid else .ok ()

/-- The longest beginning of at most so many bytes. -/
def truncateUtf8 : List Char → ℕ → List Char
  | [], _ => []
  | c :: rest, maximumBytes =>
      if c.utf8Size ≤ maximumBytes then c :: truncateUtf8 rest (maximumBytes - c.utf8Size) else []

/-- `file_stem` and `extension`: a dot at the beginning separates nothing. -/
def splitExtension (fileName : List Char) : List Char × Option (List Char) :=
  let stem := (fileName.rdropWhile (· ≠ '.')).dropLast
  if stem = [] then (fileName, none) else (stem, some (fileName.rtakeWhile (· ≠ '.')))

/-- The destination name of an attempt, which is the file's own name at first. -/
def uniqueDestinationName (fileName : List Char) (attempt : ℕ) :
    Except SerialZmodemError (List Char) := do
  validateReceiveName fileName
  if attempt = 0 then return fileName
  let (stem, extension) := splitExtension fileName
  let suffix := " (".toList ++ Nat.toDigits 10 attempt ++ [')']
  let extension := extension.filter fun value =>
    (encodeUtf8 value).length + suffix.length + 2 < maxFilenameBytes
  let extensionBytes := (extension.map fun value => (encodeUtf8 value).length + 1).getD 0
  if maxFilenameBytes < suffix.length + extensionBytes then throw .destinationExists
  let stemBudget := maxFilenameBytes - (suffix.length + extensionBytes)
  let truncated := truncateUtf8 stem stemBudget
  let base := if truncated = [] then truncateUtf8 "zmodem".toList stemBudget else truncated
  let candidate := base ++ suffix ++ (extension.map ('.' :: ·)).getD []
  validateReceiveName candidate
  return candidate

/-! ### The cell -/

inductive PublishState
  | publishOpen | publishCancelled | publishCommitting | publishCancelRequested | publishCommitted
  deriving DecidableEq, Repr

inductive PublishCancelDisposition
  | cancellationWon | commitWon
  deriving DecidableEq, Repr

/-- A request to cancel: between its load and its exchange others may change the cell. -/
inductive CancelCall
  | loading
  | exchanging (expected next : PublishState)
  | returned (disposition : PublishCancelDisposition)
  deriving DecidableEq, Repr

namespace PublishState

variable (cell : PublishState)

def compareExchange (expected next : PublishState) : PublishState × Bool :=
  if cell = expected then (next, true) else (cell, false)

def beginCommit : PublishState × Bool := cell.compareExchange publishOpen publishCommitting

def finishCommit : PublishState × Bool := cell.compareExchange publishCommitting publishCommitted

/-- The exchange of `retry_after_name_conflict`. -/
def retryAfterNameConflict : PublishState × Bool :=
  cell.compareExchange publishCommitting publishOpen

/-- The load of `request_cancel`, and what it decides. -/
def requestCancel : CancelCall :=
  match cell with
  | publishOpen => .exchanging publishOpen publishCancelled
  | publishCommitting => .exchanging publishCommitting publishCancelRequested
  | publishCancelled | publishCancelRequested => .returned .cancellationWon
  | publishCommitted => .returned .commitWon

end PublishState

/-! ### States -/

/-- A file, whatever name it has. -/
abbrev FileIdentity := ℕ

/-- The names of a directory. -/
abbrev Directory := List Char → Option FileIdentity

structure ReceivedFile where
  stageName : List Char
  fileName : List Char
  file : FileIdentity

/-- What a job has to clean up. -/
structure PublishReceiveStage where
  publishedName : Option (List Char) := none
  stagePresent : Bool := true
  cleanupArmed : Bool := true
  deriving DecidableEq, Repr

abbrev PublishResult := Except SerialZmodemError (List Char)

/-- The place of the job.  The first three belong to the future, which drops the pending file when it
fails or is dropped itself; the rest belong to the blocking job. -/
inductive PublishPhase
  | takeFile | flushFile | syncFile
  | dropPending (error : SerialZmodemError)
  | applyMetadata | syncStage | inspectStage
  | attempt (number : ℕ)
  | hardLink (number : ℕ) (candidate : List Char)
  | retry (number : ℕ)
  | withdraw
  | inspectPublished (name : List Char)
  | removeStage (name : List Char)
  | syncDirectory (name : List Char)
  | finish (name : List Char)
  | disarm (name : List Char)
  | rollbackPublished | rollbackStage | rollbackSync
  | finishCancelled (rollback : Except SerialZmodemError Unit)
  | dropPublished (result : PublishResult)
  | dropStage (result : PublishResult)
  | done (result : PublishResult)

def PublishPhase.isDone : PublishPhase → Bool
  | .done _ => true
  | _ => false

structure PublishRun where
  cell : PublishState := .publishOpen
  phase : PublishPhase := .takeFile
  stage : PublishReceiveStage := {}
  calls : ℕ → CancelCall := fun _ => .loading
  directory : Directory
  /-- The directory without what the job has done in it. -/
  others : Directory
  /-- Every name that the job has linked. -/
  linked : List (List Char) := []

namespace PublishRun

/-- The stage file has been created in a directory, and nothing else has happened. -/
def start (received : ReceivedFile) (directory : Directory) : PublishRun where
  directory := Function.update directory received.stageName (some received.file)
  others := Function.update directory received.stageName none

/-! ### The job -/

/-- How the operating system answers. -/
inductive Outcome
  | success | failure | alreadyExists
  deriving DecidableEq, Repr

variable (received : ReceivedFile) (s : PublishRun)

def goto (phase : PublishPhase) : PublishRun := { s with phase }

/-- The closure of the job returns, and its stage is dropped. -/
def fail (error : SerialZmodemError) : PublishRun := s.goto (.dropPublished (.error error))

def remove (name : List Char) : PublishRun :=
  { s with directory := Function.update s.directory name none }

/-- An operation after which the future goes on, or drops the pending file. -/
def pendingStep (outcome : Outcome) (next : PublishPhase) (error : SerialZmodemError) : PublishRun :=
  if outcome = .success then s.goto next else s.goto (.dropPending error)

/-- An operation after which the job goes on, or fails. -/
def jobStep (outcome : Outcome) (next : PublishPhase) (operation : NativeFileOperation) :
    PublishRun :=
  if outcome = .success then s.goto next else s.fail (.nativeFileFailed operation)

/-- The name must be that of the received file. -/
def inspect (outcome : Outcome) (name : List Char) (next : PublishPhase) : PublishRun :=
  if s.directory name = some received.file then s.jobStep outcome next .inspect
  else s.fail (.nativeFileFailed .inspect)

def nextAttempt (number : ℕ) : PublishRun :=
  if maxUniqueDestinationAttempts ≤ number then s.fail .destinationExists
  else
    match uniqueDestinationName received.fileName number with
    | .error error => s.fail error
    | .ok candidate =>
        match s.cell.beginCommit with
        | (cell, true) => { s with cell }.goto (.hardLink number candidate)
        | (cell, false) => { s with cell }.fail .transferCancelled

/-- A name that exists is never linked. -/
def hardLink (outcome : Outcome) (number : ℕ) (candidate : List Char) : PublishRun :=
  match outcome, s.directory received.stageName, s.directory candidate with
  | .success, some file, none =>
      { s with
        directory := Function.update s.directory candidate (some file)
        stage.publishedName := some candidate
        linked := candidate :: s.linked
        phase := .inspectPublished candidate }
  | .success, some _, some _ => s.goto (.retry number)
  | .alreadyExists, _, _ => s.goto (.retry number)
  | .success, none, _ => s.fail (.nativeFileFailed .publish)
  | .failure, _, _ => s.fail (.nativeFileFailed .publish)

def retry (number : ℕ) : PublishRun :=
  match s.cell.retryAfterNameConflict with
  | (cell, true) => { s with cell }.goto (.attempt (number + 1))
  | (cell, false) =>
      if cell = .publishCancelRequested then { s with cell }.goto .withdraw
      else { s with cell }.fail .transferCancelled

def removeStage (outcome : Outcome) (name : List Char) : PublishRun :=
  if outcome = .success then
    { s.remove received.stageName with stage.stagePresent := false }.goto (.syncDirectory name)
  else s.fail (.nativeFileFailed .publish)

def finish (name : List Char) : PublishRun :=
  match s.cell.finishCommit with
  | (cell, true) => { s with cell }.goto (.disarm name)
  | (cell, false) => { s with cell }.goto .rollbackPublished

/-- The published name is removed where there is one. -/
def removePublished : PublishRun :=
  match s.stage.publishedName with
  | some name => { s.remove name with stage.publishedName := none }
  | none => s

/-- The stage name is removed where it is still there. -/
def removePresentStage : PublishRun :=
  if s.stage.stagePresent then { s.remove received.stageName with stage.stagePresent := false } else s

/-- What a rollback came to is the result. -/
def finishCancelled (rollback : Except SerialZmodemError Unit) : PublishRun :=
  let s := { s with cell := .publishCancelled }
  match rollback with
  | .error error => s.fail error
  | .ok () => s.fail .transferCancelled

/-- One step of `publish`.  The removals that clean up succeed. -/
def job (outcome : Outcome) : PublishRun :=
  match s.phase with
  | .takeFile => s.pendingStep outcome .flushFile .invalidState
  | .flushFile => s.pendingStep outcome .syncFile (.nativeFileFailed .flush)
  | .syncFile => s.pendingStep outcome .applyMetadata (.nativeFileFailed .flush)
  | .dropPending error => (s.removePresentStage received).goto (.done (.error error))
  | .applyMetadata => s.jobStep outcome .syncStage .metadata
  | .syncStage => s.jobStep outcome .inspectStage .flush
  | .inspectStage => s.inspect received outcome received.stageName (.attempt 0)
  | .attempt number => s.nextAttempt received number
  | .hardLink number candidate => s.hardLink received outcome number candidate
  | .retry number => s.retry number
  | .withdraw => { s with cell := .publishCancelled }.fail .transferCancelled
  | .inspectPublished name => s.inspect received outcome name (.removeStage name)
  | .removeStage name => s.removeStage received outcome name
  | .syncDirectory name => s.jobStep outcome (.finish name) .publish
  | .finish name => s.finish name
  | .disarm name => { s with stage.cleanupArmed := false }.goto (.dropPublished (.ok name))
  | .rollbackPublished => s.removePublished.goto .rollbackStage
  | .rollbackStage => (s.removePresentStage received).goto .rollbackSync
  | .rollbackSync =>
      s.goto (.finishCancelled
        (if outcome = .success then .ok () else .error (.nativeFileFailed .publish)))
  | .finishCancelled rollback => s.finishCancelled rollback
  | .dropPublished result =>
      if s.stage.cleanupArmed then s.removePublished.goto (.dropStage result)
      else s.goto (.done result)
  | .dropStage result => (s.removePresentStage received).goto (.done result)
  | .done _ => s

/-! ### Requests and others -/

def setCall (index : ℕ) (call : CancelCall) : PublishRun :=
  { s with calls := Function.update s.calls index call }

def load (index : ℕ) : PublishRun := s.setCall index s.cell.requestCancel

/-- An exchange that fails loads again. -/
def exchange (index : ℕ) (expected next : PublishState) : PublishRun :=
  match s.cell.compareExchange expected next with
  | (cell, true) => { s with cell }.setCall index (.returned .cancellationWon)
  | (cell, false) => { s with cell }.setCall index .loading

/-- Another process creates a name. -/
def create (name : List Char) (file : FileIdentity) : PublishRun :=
  { s with
    directory := Function.update s.directory name (some file)
    others := Function.update s.others name (some file) }

inductive Action
  | job (outcome : Outcome)
  | request (index : ℕ)
  | create (name : List Char) (file : FileIdentity)

/-- The steps of a run, in any order.  Others keep off the stage name and off every name that the job
has linked. -/
inductive Step : PublishRun → Action → PublishRun → Prop
  | job {s : PublishRun} (outcome : Outcome) (hrunning : s.phase.isDone = false) :
      Step s (.job outcome) (s.job received outcome)
  | load {s : PublishRun} {index : ℕ} (hcall : s.calls index = .loading) :
      Step s (.request index) (s.load index)
  | exchange {s : PublishRun} {index : ℕ} {expected next : PublishState}
      (hcall : s.calls index = .exchanging expected next) :
      Step s (.request index) (s.exchange index expected next)
  | create {s : PublishRun} {name : List Char} (file : FileIdentity)
      (hfree : s.directory name = none) (hstage : name ≠ received.stageName)
      (hlinked : name ∉ s.linked) : Step s (.create name file) (s.create name file)

end PublishRun

end Netcatty.Serial
