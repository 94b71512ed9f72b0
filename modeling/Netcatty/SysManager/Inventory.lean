import Netcatty.Library.Words
import Netcatty.Vault.Names

/-! # The process inventory

`parseProcesses` reads what `LIST_PROCESSES` prints on the remote machine: the identities of the
processes, then one row for each process, whose last column is its command line.  A row that looks
like the header of a listing changes the layout of the rows after it.  `signalActionPlan` builds the
commands that send a signal to a process with a given identity. -/

namespace Netcatty.SysManager

open Serial (isWhitespace)
open Vault (Text utf8Len eqIgnoreAsciiCase stripPrefix splitOnce)
open Words (wordsBy splitAtPart)

/-! ### Text -/

def splitWhitespace (text : Text) : List Text := wordsBy isWhitespace text

def isAsciiWhitespace (c : Char) : Bool := [' ', '\t', '\n', '\x0c', '\r'].contains c

def splitAsciiWhitespace (text : Text) : List Text := wordsBy isAsciiWhitespace text

def stripCarriageReturn (line : Text) : Text :=
  if line.getLast? = some '\r' then line.dropLast else line

/-- `str::lines`: what follows the last line feed is a line where it is not empty. -/
def lines (text : Text) : List Text :=
  let parts := text.splitOn '\n'
  parts.dropLast.map stripCarriageReturn ++ (parts.getLast?.filter (· ≠ [])).toList

def normalizeLineEnds : Text → Text
  | '\r' :: '\n' :: rest => '\n' :: normalizeLineEnds rest
  | c :: rest => c :: normalizeLineEnds rest
  | [] => []

/-- `str::parse` of an unsigned number, which takes a plus sign. -/
def parseUnsigned (bits : ℕ) (text : Text) : Option ℕ :=
  let digits := (stripPrefix "+" text).getD text
  if digits.isEmpty || !digits.all Char.isDigit then none
  else
    let value := Nat.ofDigitChars 10 digits 0
    if value < 2 ^ bits then some value else none

def decimal (n : ℕ) : Text := Nat.toDigits 10 n

def joinWords (parts : List Text) : Text := [' '].intercalate parts

/-! ### Identities -/

inductive ProcessIdentity
  | linux (bootId : Text) (startTicks : ℕ)
  | posixPs (longStart : Text)
  deriving DecidableEq

def isHexDigit (c : Char) : Bool :=
  c.isDigit || ('a' ≤ c && c ≤ 'f') || ('A' ≤ c && c ≤ 'F')

def validBootId (value : Text) : Bool :=
  utf8Len value = 36 && value.zipIdx.all fun (character, index) =>
    if index = 8 ∨ index = 13 ∨ index = 18 ∨ index = 23 then character = '-'
    else isHexDigit character

def inRange (low high : ℕ) (value : Option ℕ) : Bool := value.any fun n => low ≤ n && n ≤ high

def validTime (value : Text) : Bool :=
  match value.splitOn ':' with
  | [hour, minute, second] =>
      inRange 0 23 (parseUnsigned 8 hour) && inRange 0 59 (parseUnsigned 8 minute) &&
        inRange 0 60 (parseUnsigned 8 second)
  | _ => false

def validLongStart (value : Text) : Bool :=
  match splitAsciiWhitespace value with
  | [weekday, month, day, time, year] =>
      utf8Len weekday = 3 && utf8Len month = 3 && weekday.all Char.isAlpha && month.all Char.isAlpha &&
        inRange 1 31 (parseUnsigned 8 day) && inRange 1970 9999 (parseUnsigned 16 year) &&
        validTime time
  | _ => false

def parseProcessIdentity (token : Text) : Option ProcessIdentity :=
  match stripPrefix "linux:" token with
  | some value => do
      let (bootId, startTicks) ← splitOnce ':' value
      let startTicks ← (parseUnsigned 64 startTicks).filter (0 < ·)
      if validBootId bootId then return .linux bootId startTicks else none
  | none => do
      let longStart ← stripPrefix "ps:" token
      if validLongStart longStart then return .posixPs longStart else none

/-! ### Rows -/

structure RemoteProcess where
  pid : ℕ
  parentPid : ℕ
  user : Text
  state : Text
  cpuPercent : Text
  memoryPercent : Text
  residentKib : ℕ
  elapsed : Text
  command : Text
  startTimeToken : Text
  deriving DecidableEq

/-- Where the columns of a listing stand. -/
structure Header where
  pid : ℕ
  parentPid : Option ℕ
  user : Option ℕ
  state : Option ℕ
  cpu : Option ℕ
  memory : Option ℕ
  resident : Option ℕ
  elapsed : Option ℕ
  command : ℕ
  deriving DecidableEq

def findColumn (columns : List Text) (names : List String) : Option ℕ :=
  columns.findIdx? fun column => names.any fun name => eqIgnoreAsciiCase column name.toList

/-- The columns of a line that names them; the command must be the last one. -/
def header (columns : List Text) : Option Header := do
  let pid ← findColumn columns ["PID"]
  let command ← findColumn columns ["COMMAND", "CMD", "ARGS"]
  if command + 1 ≠ columns.length then none
  else return {
    pid
    parentPid := findColumn columns ["PPID"]
    user := findColumn columns ["USER", "UID"]
    state := findColumn columns ["STAT", "STATE", "S"]
    cpu := findColumn columns ["%CPU", "CPU", "PCPU"]
    memory := findColumn columns ["%MEM", "MEM", "PMEM"]
    resident := findColumn columns ["RSS", "RSZ"]
    elapsed := findColumn columns ["ELAPSED", "ETIME", "TIME"]
    command }

def value (parts : List Text) (index : Option ℕ) : Text := (index.bind (parts[·]?)).getD []

def number (bits : ℕ) (parts : List Text) (index : Option ℕ) : ℕ :=
  ((index.bind (parts[·]?)).bind (parseUnsigned bits)).getD 0

def parseFallback (parts : List Text) (header : Header) : Option RemoteProcess := do
  let pid ← parts[header.pid]?
  let pid ← parseUnsigned 32 pid
  if parts.length < header.command then none
  else
    let command := joinWords (parts.drop header.command)
    if command.isEmpty then none
    else return {
      pid
      parentPid := number 32 parts header.parentPid
      user := value parts header.user
      state := value parts header.state
      cpuPercent := value parts header.cpu
      memoryPercent := value parts header.memory
      residentKib := number 64 parts header.resident
      elapsed := value parts header.elapsed
      command
      startTimeToken := [] }

/-- A row of the primary listing. -/
def parseRow : List Text → Option RemoteProcess
  | pid :: parentPid :: user :: state :: cpuPercent :: memoryPercent :: resident :: elapsed :: rest => do
      let pid ← parseUnsigned 32 pid
      let command := joinWords rest
      if command.isEmpty then none
      else return {
        pid
        parentPid := (parseUnsigned 32 parentPid).getD 0
        user
        state
        cpuPercent
        memoryPercent
        residentKib := (parseUnsigned 64 resident).getD 0
        elapsed
        command
        startTimeToken := [] }
  | _ => none

def parseWith (detectedHeader : Option Header) (parts : List Text) : Option RemoteProcess :=
  match detectedHeader with
  | some header => parseFallback parts header
  | none => parseRow parts

/-- The loop over the rows. -/
def parseRows : Option Header → List (List Text) → List RemoteProcess
  | _, [] => []
  | detectedHeader, parts :: rest =>
      if parts.isEmpty then parseRows detectedHeader rest
      else
        match header parts with
        | some nextHeader => parseRows (some nextHeader) rest
        | none => (parseWith detectedHeader parts).toList ++ parseRows detectedHeader rest

/-! ### Snapshots -/

def identitiesHeader : Text := "__GORAL_PROCESS_IDENTITIES_V1__".toList
def rowsHeader : Text := "__GORAL_PROCESS_ROWS_V1__".toList
def linuxMode : Text := "mode=linux".toList
def psMode : Text := "mode=ps".toList

/-- The tokens of processes. -/
abbrev Identities := ℕ → Option Text

def linuxToken (bootId : Text) (startTicks : ℕ) : Text :=
  "linux:".toList ++ bootId ++ ':' :: decimal startTicks

def linuxIdentity (line : Text) : Option (ℕ × Text) :=
  match line.splitOn '\t' with
  | [pid, bootId, startTicks] => do
      let pid ← parseUnsigned 32 pid
      let startTicks ← (parseUnsigned 64 startTicks).filter (0 < ·)
      if validBootId bootId then return (pid, linuxToken bootId startTicks) else none
  | _ => none

def psIdentity (line : Text) : Option (ℕ × Text) := do
  let pid ← (splitAsciiWhitespace line).head?
  let pid ← parseUnsigned 32 pid
  let longStart := joinWords (splitAsciiWhitespace line).tail
  if validLongStart longStart then return (pid, "ps:".toList ++ longStart) else none

/-- A later identity of a process replaces an earlier one. -/
def insertIdentity (parse : Text → Option (ℕ × Text)) (identities : Identities) (line : Text) :
    Identities :=
  match parse line with
  | some (pid, token) => Function.update identities pid (some token)
  | none => identities

def collectIdentities (parse : Text → Option (ℕ × Text)) (rows : List Text) : Identities :=
  rows.foldl (insertIdentity parse) fun _ => none

def modeIdentities (mode : Text) (rows : List Text) : Option Identities :=
  if mode = linuxMode then some (collectIdentities linuxIdentity rows)
  else if mode = psMode then some (collectIdentities psIdentity rows)
  else none

def framedSnapshot (stdout : Text) : Option (Identities × Text) := do
  let snapshot ← identitiesHeader.isPrefixOf? stdout
  let snapshot ← stripPrefix "\n" snapshot
  let (identityRows, processRows) ← splitAtPart ('\n' :: (rowsHeader ++ ['\n'])) snapshot
  let rows := lines identityRows
  let mode ← rows.head?
  let identities ← modeIdentities mode rows.tail
  return (identities, processRows)

/-- `retain_mut`: each identity is taken by the first row of its process. -/
def bindIdentities : Identities → List RemoteProcess → List RemoteProcess
  | _, [] => []
  | identities, process :: rest =>
      match identities process.pid with
      | some token =>
          { process with startTimeToken := token } ::
            bindIdentities (Function.update identities process.pid none) rest
      | none => bindIdentities identities rest

def processRowParts (rows : Text) : List (List Text) := (lines rows).map splitWhitespace

def parseProcesses (stdout : Text) : List RemoteProcess :=
  let normalized := normalizeLineEnds stdout
  if identitiesHeader.isPrefixOf normalized then
    match framedSnapshot normalized with
    | some (identities, processRows) =>
        bindIdentities identities (parseRows none (processRowParts processRows))
    | none => []
  else parseRows none (processRowParts normalized)

/-! ### Signals -/

inductive ProcessSignal
  | term | hup | kill
  deriving DecidableEq, Repr

def ProcessSignal.name : ProcessSignal → Text
  | term => "TERM".toList
  | hup => "HUP".toList
  | kill => "KILL".toList

inductive InventoryActionKind
  | processSignal | systemService
  deriving DecidableEq, Repr

inductive InventoryActionRoute
  | plain | elevated
  deriving DecidableEq, Repr

structure InventoryActionPlan where
  kind : InventoryActionKind
  probeOrder : InventoryActionRoute × InventoryActionRoute
  plainProbeCommand : Text
  elevatedProbeCommand : Text
  plainCommand : Text
  elevatedCommand : Text
  deriving DecidableEq

def processIdentityMismatchExitStatus : ℕ := 125

def shellQuote (value : Text) : Text :=
  '\'' :: (value.flatMap fun c => if c = '\'' then ['\'', '"', '\'', '"', '\''] else [c]) ++ ['\'']

/-- `|| exit 125;`, where an identity is not the expected one. -/
def orMismatch : Text := "|| exit ".toList ++ decimal processIdentityMismatchExitStatus ++ "; ".toList

def identityCheckScript (pid : ℕ) : ProcessIdentity → Text
  | .linux bootId startTicks =>
      "pid=".toList ++ decimal pid ++ "; expected_boot=".toList ++ shellQuote bootId ++
        "; expected_start=".toList ++ decimal startTicks ++
        "; boot=$(tr -d \"\\r\\n\" < /proc/sys/kernel/random/boot_id 2>/dev/null) ".toList ++
        orMismatch ++ "[ \"$boot\" = \"$expected_boot\" ] ".toList ++ orMismatch ++
        "stat_value=$(cat \"/proc/$pid/stat\" 2>/dev/null) ".toList ++ orMismatch ++
        "stat_tail=$\x7bstat_value##*) \x7d; [ \"$stat_tail\" != \"$stat_value\" ] ".toList ++
        orMismatch ++ "set -- $stat_tail; [ \"$#\" -ge 20 ] ".toList ++ orMismatch ++
        "shift 19; [ \"$1\" = \"$expected_start\" ] ".toList ++ orMismatch
  | .posixPs longStart =>
      "pid=".toList ++ decimal pid ++ "; expected_start=".toList ++ shellQuote longStart ++
        "; current_start=$(ps -p \"$pid\" -o lstart= 2>/dev/null) ".toList ++ orMismatch ++
        "set -- $current_start; [ \"$#\" -eq 5 ] ".toList ++ orMismatch ++
        "current_start=\"$1 $2 $3 $4 $5\"; ".toList ++
        "[ \"$current_start\" = \"$expected_start\" ] ".toList ++ orMismatch

def identityBoundCommand (check command : Text) : Text :=
  "sh -c ".toList ++ shellQuote ("LC_ALL=C; export LC_ALL; set -f; ".toList ++ check ++ command)

def signalActionPlan (signal : ProcessSignal) (pid : ℕ) (startTimeToken : Text) :
    Option InventoryActionPlan :=
  if pid = 0 ∨ 2 ^ 31 - 1 < pid then none
  else do
    let identity ← parseProcessIdentity startTimeToken
    let check := identityCheckScript pid identity
    let kill := "kill -".toList ++ signal.name ++ " \"$pid\"".toList
    return {
      kind := .processSignal
      probeOrder := (.plain, .elevated)
      plainProbeCommand := identityBoundCommand check "kill -0 \"$pid\"".toList
      elevatedProbeCommand := identityBoundCommand check "sudo -n kill -0 \"$pid\"".toList
      plainCommand := identityBoundCommand check kill
      elevatedCommand := identityBoundCommand check ("sudo -n ".toList ++ kill) }

end Netcatty.SysManager
