import Netcatty.Vault.Model

/-! # The blocklist of terminal commands

`blockedTerminalCommand` is the fixed list of commands that a turn never runs, whatever mode it is
in.  It looks at the text of a command alone: at the words of each segment (`splitSegments`), and
at substrings of the command in lower case. -/

namespace Netcatty.Ai

open Serial (isWhitespace trim)
open Vault (Text containsText)

/-! ### Text -/

def contains (needle : String) (s : Text) : Bool := containsText needle.toList s

def startsWith (needle : String) (s : Text) : Bool := needle.toList.isPrefixOf s

def toAsciiLowercase (s : Text) : Text := s.map Char.toLower

def splitWhitespace (s : Text) : List Text := (s.splitOnP isWhitespace).filter (!·.isEmpty)

def trimMatches (p : Char → Bool) (s : Text) : Text := (s.dropWhile p).rdropWhile p

def isPathSeparator (c : Char) : Bool := c = '/' || c = '\\'

/-- The part after the last path separator. -/
def lastComponent (s : Text) : Text := s.rtakeWhile (!isPathSeparator ·)

def isQuote (c : Char) : Bool := c = '"' || c = '\''

/-- Where one command ends and another may begin. -/
def isSegmentEnd (c : Char) : Bool := c = '\n' || c = ';' || c = '&' || c = '|'

def splitSegments (s : Text) : List Text := s.splitOnP isSegmentEnd

def isWordChar (c : Char) : Bool := c.isAlphanum || c = '_'

def hasWord (command : Text) (word : String) : Bool :=
  (command.splitOnP (!isWordChar ·)).any (· = word.toList)

def isOneOf (s : Text) (names : List String) : Bool := names.any (·.toList = s)

/-! ### Shells that run a command -/

def shellNames : List String :=
  ["sh", "sh.exe", "bash", "bash.exe", "zsh", "zsh.exe", "fish", "fish.exe", "dash", "dash.exe",
    "ash", "ash.exe", "ksh", "ksh.exe", "mksh", "mksh.exe", "yash", "yash.exe"]

def isWrapping (c : Char) : Bool := isQuote c || ['(', ')', '[', ']', '\x7b', '\x7d'].contains c

def shellOption (argument : Text) : Bool :=
  let option := trimMatches isQuote argument
  option = "--command".toList || startsWith "--command=" option ||
    match option with
    | '-' :: shortOptions => !startsWith "-" shortOptions && shortOptions.contains 'c'
    | _ => false

def cmdOption (argument : Text) : Bool :=
  let option := trimMatches isQuote argument
  startsWith "/c" option || startsWith "/k" option

def powershellExecutionOptions : List String :=
  ["command", "commandwithargs", "encodedcommand", "encodedarguments", "file"]

/-- What follows the first of the three option markers that the text starts with. -/
def stripOptionMarker : Text → Option Text
  | '-' :: '-' :: rest | '-' :: rest | '/' :: rest => some rest
  | _ => none

def powershellOption (argument : Text) : Bool :=
  let option := trimMatches isQuote argument
  option = "-".toList ||
    match stripOptionMarker option with
    | none => false
    | some value =>
      let optionName := value.takeWhile fun c => !(c = ':' || c = '=')
      !optionName.isEmpty &&
        powershellExecutionOptions.any fun executionOption =>
          optionName.isPrefixOf executionOption.toList

/-- Whether a word of a segment is a shell that is told to run a command by the words after it. -/
def shellWrapperAt (token : Text) (arguments : List Text) : Bool :=
  let executable := lastComponent (trimMatches isWrapping token)
  if isOneOf executable shellNames then arguments.any shellOption
  else if isOneOf executable ["cmd", "cmd.exe"] then arguments.any cmdOption
  else if isOneOf executable ["powershell", "powershell.exe", "pwsh", "pwsh.exe"] then
    arguments.any powershellOption
  else false

def shellWrapperTokens : List Text → Bool
  | [] => false
  | token :: arguments => shellWrapperAt token arguments || shellWrapperTokens arguments

def shellWrapperIsBlocked (command : Text) : Bool :=
  (((splitSegments command).map trim).filter (!·.isEmpty)).any fun segment =>
    shellWrapperTokens (splitWhitespace segment)

/-! ### Destructive commands -/

def windowsTargetIsBroad (token : Text) : Bool :=
  let unquoted := trimMatches (fun c => isQuote c || c = ',') token
  let target := toAsciiLowercase (unquoted.map fun c => if c = '/' then '\\' else c)
  isOneOf target ["\\", "*", "*.*"] || target.contains '*' ||
    isOneOf target ["$env:systemdrive\\", "$env:windir", "$env:windir\\", "$env:userprofile",
      "$env:userprofile\\"] ||
    match target with
    | drive :: ':' :: path =>
      drive.isAlpha &&
        let suffix := path.rdropWhile (· = '\\')
        suffix.isEmpty ||
          isOneOf suffix ["\\windows", "\\users", "\\program files", "\\programdata"]
    | _ => false

def equalsIgnoreAsciiCase (name : String) (token : Text) : Bool :=
  toAsciiLowercase token = toAsciiLowercase name.toList

def windowsDestructiveLine (line : Text) : Bool :=
  let tokens := splitWhitespace line
  let executable := lastComponent (trimMatches isQuote (tokens.head?.getD []))
  if isOneOf executable ["format", "format.com", "diskpart", "diskpart.exe"] then true
  else if isOneOf executable ["restart-computer", "stop-computer", "shutdown.exe"] then true
  else
    let broadTarget := tokens.any windowsTargetIsBroad
    if executable = "remove-item".toList then
      (tokens.any fun token =>
        isOneOf (trimMatches isQuote token) ["-recurse", "-force", "-rf", "-fr"]) && broadTarget
    else if isOneOf executable ["del", "del.exe", "erase", "erase.exe", "rd", "rd.exe", "rmdir",
        "rmdir.exe"] then
      tokens.any (equalsIgnoreAsciiCase "/s") && tokens.any (equalsIgnoreAsciiCase "/q") &&
        broadTarget
    else false

def windowsDestructiveCommandIsBlocked (command : Text) : Bool :=
  (((splitSegments command).map trim).filter (!·.isEmpty)).any windowsDestructiveLine

/-- A long option, or a letter among short ones. -/
def hasFlag (long : String) (letter : Char) (flags : List Text) : Bool :=
  flags.any fun token =>
    token = long.toList ||
      match token with
      | '-' :: rest => rest.contains letter
      | _ => false

/-- `rm` with a recursive and a forcing option after it. -/
def recursiveForceRm (line : Text) : Bool :=
  match (splitWhitespace line).dropWhile fun token => lastComponent token ≠ "rm".toList with
  | [] => false
  | _ :: flags => hasFlag "--recursive" 'r' flags && hasFlag "--force" 'f' flags

def hasShellPipe (source : Text) : Bool :=
  (contains "curl" source || contains "wget" source || contains "base64" source) &&
    source.contains '|' && (hasWord source "bash" || hasWord source "sh")

def haltingWords : List String :=
  ["shutdown", "reboot", "poweroff", "halt", "restart-computer", "stop-computer"]

def blockedTerminalCommand (command : Text) : Bool :=
  let lower := toAsciiLowercase command
  let compact := lower.filter (!isWhitespace ·)
  shellWrapperIsBlocked lower || windowsDestructiveCommandIsBlocked lower ||
    (splitSegments lower).any recursiveForceRm ||
    contains "mkfs." lower ||
    (hasWord lower "dd" && contains "of=/dev/" lower) ||
    haltingWords.any (hasWord lower) ||
    contains ":()\x7b:|:&\x7d;:" compact ||
    (lower.contains '>' && contains "/dev/sd" lower) ||
    (hasWord lower "chmod" && (contains " -r" lower || contains "--recursive" lower) &&
      contains "777" lower && contains " /" lower) ||
    (hasWord lower "mv" && contains "mv / " lower) ||
    (contains ":>" compact && contains "/etc/" lower) ||
    hasShellPipe lower ||
    hasWord lower "eval" ||
    contains "$(" lower ||
    2 ≤ lower.count '`'

end Netcatty.Ai
