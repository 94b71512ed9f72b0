import Netcatty.Library.Feed
import Mathlib.Logic.Function.Basic

/-! # The Telnet codec

The stateful RFC 854 parser and option negotiator of `netcatty-telnet`.  A codec stays in raw
receive mode until the peer sends its first IAC byte; at that byte it sends the client's offers
(`startNegotiation`) and from then on parses commands across frame boundaries.

`receive` is the codec's entry point, frame by frame.  The handlers return what they append to the
outbound bytes and to the events.  An operation that can fail returns the codec it leaves, as the
source mutates the codec before it reports the error. -/

namespace Netcatty.Telnet

/-! ### Command and option numbers -/

namespace Command

abbrev se : UInt8 := 240
abbrev sb : UInt8 := 250
abbrev will : UInt8 := 251
abbrev wont : UInt8 := 252
abbrev «do» : UInt8 := 253
abbrev dont : UInt8 := 254
abbrev iac : UInt8 := 255

end Command

namespace Opt

/-- RFC 857. -/
abbrev echo : UInt8 := 1
/-- RFC 858. -/
abbrev suppressGoAhead : UInt8 := 3
/-- RFC 1091. -/
abbrev terminalType : UInt8 := 24
/-- RFC 1073. -/
abbrev naws : UInt8 := 31

end Opt

namespace Suboption

abbrev «is» : UInt8 := 0
abbrev send : UInt8 := 1

end Suboption

def isOptionCommand (byte : UInt8) : Bool :=
  byte == Command.will || byte == Command.wont || byte == Command.do || byte == Command.dont

/-! ### Configuration, errors and results -/

def maxInputBytes : ℕ := 64 * 1024
def maxSubnegotiationBytes : ℕ := 64 * 1024
def maxWindowDimension : ℕ := 10000
def maxTerminalTypeBytes : ℕ := 255

inductive CodecError where
  | inputTooLarge (maximumBytes : ℕ)
  | subnegotiationTooLarge (maximumBytes : ℕ)
  | invalidWindowSize (maximum : ℕ)
  | invalidTerminalType (maximumBytes : ℕ)
  | poisoned
deriving DecidableEq, Repr

/-- A terminal size that fits the two-byte fields of a NAWS subnegotiation. -/
structure WindowSize where
  columns : ℕ
  rows : ℕ
  columns_pos : 0 < columns
  rows_pos : 0 < rows
  columns_le : columns ≤ maxWindowDimension
  rows_le : rows ≤ maxWindowDimension
deriving DecidableEq

namespace WindowSize

def default : WindowSize := ⟨80, 24, by decide, by decide, by decide, by decide⟩

def new (columns rows : ℕ) : Except CodecError WindowSize :=
  if h : columns = 0 ∨ rows = 0 ∨ columns > maxWindowDimension ∨ rows > maxWindowDimension then
    .error (.invalidWindowSize maxWindowDimension)
  else
    .ok ⟨columns, rows, by omega, by omega, by omega, by omega⟩

end WindowSize

/-- A terminal name: printable ASCII, from one to 255 bytes. -/
def validTerminalType (bytes : List UInt8) : Bool :=
  !bytes.isEmpty && decide (bytes.length ≤ maxTerminalTypeBytes) &&
    bytes.all fun byte => 0x20 ≤ byte && byte ≤ 0x7e

/-- The default terminal name, `XTERM-256COLOR`. -/
def defaultTerminalType : List UInt8 :=
  [0x58, 0x54, 0x45, 0x52, 0x4d, 0x2d, 0x32, 0x35, 0x36, 0x43, 0x4f, 0x4c, 0x4f, 0x52]

structure TelnetConfig where
  terminalType : List UInt8
  windowSize : WindowSize
  terminalType_valid : validTerminalType terminalType = true

namespace TelnetConfig

def default : TelnetConfig := ⟨defaultTerminalType, .default, by decide⟩

def withTerminalType (c : TelnetConfig) (terminalType : List UInt8) :
    Except CodecError TelnetConfig :=
  if h : validTerminalType terminalType = true then .ok ⟨terminalType, c.windowSize, h⟩
  else .error (.invalidTerminalType maxTerminalTypeBytes)

def withWindowSize (c : TelnetConfig) (windowSize : WindowSize) : TelnetConfig :=
  { c with windowSize }

end TelnetConfig

inductive TelnetEvent where
  | protocolActivated
  | remoteEchoChanged (enabled : Bool)
  | localEchoChanged (enabled : Bool)
deriving DecidableEq, Repr

/-- What one frame yields: application bytes, wire replies and state events. -/
@[ext] structure DecodeResult where
  applicationData : List UInt8
  outbound : List UInt8
  events : List TelnetEvent
deriving DecidableEq, Repr

namespace DecodeResult

instance : Zero DecodeResult := ⟨⟨[], [], []⟩⟩
instance : Add DecodeResult :=
  ⟨fun r s => ⟨r.applicationData ++ s.applicationData, r.outbound ++ s.outbound,
    r.events ++ s.events⟩⟩

@[simp] theorem zero_applicationData : (0 : DecodeResult).applicationData = [] := rfl
@[simp] theorem zero_outbound : (0 : DecodeResult).outbound = [] := rfl
@[simp] theorem zero_events : (0 : DecodeResult).events = [] := rfl
@[simp] theorem add_applicationData (r s : DecodeResult) :
    (r + s).applicationData = r.applicationData ++ s.applicationData := rfl
@[simp] theorem add_outbound (r s : DecodeResult) :
    (r + s).outbound = r.outbound ++ s.outbound := rfl
@[simp] theorem add_events (r s : DecodeResult) : (r + s).events = r.events ++ s.events := rfl

/-- Results of consecutive frames add up. -/
instance : AddMonoid DecodeResult where
  add_assoc r s t := by ext1 <;> simp
  zero_add r := by ext1 <;> simp
  add_zero r := by ext1 <;> simp
  nsmul := nsmulRec

def data (bytes : List UInt8) : DecodeResult := ⟨bytes, [], []⟩
def reply (outbound : List UInt8) (events : List TelnetEvent) : DecodeResult :=
  ⟨[], outbound, events⟩

end DecodeResult

/-! ### Codec state -/

structure OptionState where
  enabled : Bool := false
  pendingEnable : Bool := false
  rejectionSent : Bool := false
deriving DecidableEq, Repr

inductive ParseState where
  | data
  | iac
  | option (verb : UInt8)
  | subnegotiationOption
  | subnegotiationData (selectedOption : UInt8)
  | subnegotiationIac (selectedOption : UInt8)
deriving DecidableEq, Repr

/-- The 256 entries of an option table. -/
abbrev OptionTable := UInt8 → OptionState

structure TelnetCodec where
  config : TelnetConfig
  active : Bool
  poisoned : Bool
  parseState : ParseState
  subnegotiation : List UInt8
  localOptions : OptionTable
  remoteOptions : OptionTable
  remoteEcho : Bool
  remoteEchoKnown : Bool
  localEcho : Bool

/-! ### Wire encodings -/

def supportsRemote (selectedOption : UInt8) : Bool :=
  selectedOption == Opt.echo || selectedOption == Opt.suppressGoAhead

def supportsLocal (selectedOption : UInt8) : Bool :=
  selectedOption == Opt.echo || selectedOption == Opt.suppressGoAhead ||
    selectedOption == Opt.terminalType || selectedOption == Opt.naws

def appendCommand (verb selectedOption : UInt8) : List UInt8 :=
  [Command.iac, verb, selectedOption]

/-- Every IAC byte doubled. -/
def escapeIac (input : List UInt8) : List UInt8 :=
  input.flatMap fun byte => if byte = Command.iac then [byte, Command.iac] else [byte]

def appendSubnegotiation (selectedOption : UInt8) (payload : List UInt8) : List UInt8 :=
  [Command.iac, Command.sb, selectedOption] ++ escapeIac payload ++ [Command.iac, Command.se]

/-- A carriage return keeps a following LF or NUL; every other CR or LF becomes CR LF. -/
def normalizeNvtNewlines : List UInt8 → List UInt8
  | [] => []
  | 0x0d :: 0x0a :: rest => 0x0d :: 0x0a :: normalizeNvtNewlines rest
  | 0x0d :: 0x00 :: rest => 0x0d :: 0x00 :: normalizeNvtNewlines rest
  | 0x0d :: rest => 0x0d :: 0x0a :: normalizeNvtNewlines rest
  | 0x0a :: rest => 0x0d :: 0x0a :: normalizeNvtNewlines rest
  | byte :: rest => byte :: normalizeNvtNewlines rest

namespace TelnetCodec

def new (config : TelnetConfig) : TelnetCodec where
  config := config
  active := false
  poisoned := false
  parseState := .data
  subnegotiation := []
  localOptions := fun _ => {}
  remoteOptions := fun _ => {}
  remoteEcho := true
  remoteEchoKnown := false
  localEcho := false

/-- Forget all negotiated and partial-frame state, for a reconnect. -/
def reset (c : TelnetCodec) : TelnetCodec := new c.config

def setRemote (c : TelnetCodec) (selectedOption : UInt8) (s : OptionState) : TelnetCodec :=
  { c with remoteOptions := Function.update c.remoteOptions selectedOption s }

def setLocal (c : TelnetCodec) (selectedOption : UInt8) (s : OptionState) : TelnetCodec :=
  { c with localOptions := Function.update c.localOptions selectedOption s }

/-! ### Option handlers -/

def setRemoteEcho (c : TelnetCodec) (enabled : Bool) : TelnetCodec × List TelnetEvent :=
  if !c.remoteEchoKnown || c.remoteEcho != enabled then
    ({ c with remoteEcho := enabled, remoteEchoKnown := true }, [.remoteEchoChanged enabled])
  else
    (c, [])

def setLocalEcho (c : TelnetCodec) (enabled : Bool) : TelnetCodec × List TelnetEvent :=
  if c.localEcho != enabled then
    ({ c with localEcho := enabled }, [.localEchoChanged enabled])
  else
    (c, [])

def beBytes16 (n : ℕ) : List UInt8 := [UInt8.ofNat (n / 256), UInt8.ofNat n]

def appendNawsIfEnabled (c : TelnetCodec) : List UInt8 :=
  if !c.active || !(c.localOptions Opt.naws).enabled then []
  else
    appendSubnegotiation Opt.naws
      (beBytes16 c.config.windowSize.columns ++ beBytes16 c.config.windowSize.rows)

def requestRemote (c : TelnetCodec) (selectedOption : UInt8) : TelnetCodec × List UInt8 :=
  (c.setRemote selectedOption { c.remoteOptions selectedOption with pendingEnable := true },
    appendCommand Command.do selectedOption)

def requestLocal (c : TelnetCodec) (selectedOption : UInt8) : TelnetCodec × List UInt8 :=
  (c.setLocal selectedOption { c.localOptions selectedOption with pendingEnable := true },
    appendCommand Command.will selectedOption)

def startNegotiation (c : TelnetCodec) : TelnetCodec × List UInt8 :=
  let (c, offer₁) := c.requestRemote Opt.suppressGoAhead
  let (c, offer₂) := c.requestLocal Opt.terminalType
  let (c, offer₃) := c.requestLocal Opt.naws
  (c, offer₁ ++ offer₂ ++ offer₃)

/-- A remote ECHO takes the place of the local one. -/
def revokeLocalEcho (c : TelnetCodec) : TelnetCodec × DecodeResult :=
  if (c.localOptions Opt.echo).enabled then
    let (c, events) := (c.setLocal Opt.echo
      { enabled := false, pendingEnable := false, rejectionSent := true }).setLocalEcho false
    (c, .reply (appendCommand Command.wont Opt.echo) events)
  else
    (c, 0)

def handleWill (c : TelnetCodec) (selectedOption : UInt8) : TelnetCodec × DecodeResult :=
  let state := c.remoteOptions selectedOption
  if !supportsRemote selectedOption then
    (c.setRemote selectedOption
        { enabled := false, pendingEnable := false, rejectionSent := true },
      .reply (if !state.rejectionSent then appendCommand Command.dont selectedOption else []) [])
  else
    let acknowledged := state.pendingEnable
    let wasEnabled := state.enabled
    let c := c.setRemote selectedOption
      { enabled := true, pendingEnable := false, rejectionSent := false }
    let (c, revoked) := if selectedOption = Opt.echo then c.revokeLocalEcho else (c, 0)
    let (c, events) := if selectedOption = Opt.echo then c.setRemoteEcho true else (c, [])
    (c, revoked + .reply
      (if !acknowledged && !wasEnabled then appendCommand Command.do selectedOption else [])
      events)

def handleWont (c : TelnetCodec) (selectedOption : UInt8) : TelnetCodec × DecodeResult :=
  let state := c.remoteOptions selectedOption
  let c := c.setRemote selectedOption
    { enabled := false, pendingEnable := false, rejectionSent := false }
  let (c, events) := if selectedOption = Opt.echo then c.setRemoteEcho false else (c, [])
  (c, .reply
    (if !state.pendingEnable && state.enabled then appendCommand Command.dont selectedOption
      else []) events)

def handleDo (c : TelnetCodec) (selectedOption : UInt8) : TelnetCodec × DecodeResult :=
  let state := c.localOptions selectedOption
  if !supportsLocal selectedOption then
    (c.setLocal selectedOption
        { enabled := false, pendingEnable := false, rejectionSent := true },
      .reply (if !state.rejectionSent then appendCommand Command.wont selectedOption else []) [])
  else
    let acknowledged := state.pendingEnable
    let wasEnabled := state.enabled
    let c := c.setLocal selectedOption
      { enabled := true, pendingEnable := false, rejectionSent := false }
    let answer :=
      if !acknowledged && !wasEnabled then appendCommand Command.will selectedOption else []
    let (c, events) :=
      if selectedOption = Opt.echo ∧ !wasEnabled then c.setLocalEcho true else (c, [])
    let size :=
      if selectedOption = Opt.naws ∧ !wasEnabled then c.appendNawsIfEnabled else []
    (c, .reply (answer ++ size) events)

def handleDont (c : TelnetCodec) (selectedOption : UInt8) : TelnetCodec × DecodeResult :=
  let state := c.localOptions selectedOption
  let c := c.setLocal selectedOption
    { enabled := false, pendingEnable := false, rejectionSent := false }
  let (c, events) :=
    if selectedOption = Opt.echo ∧ state.enabled then c.setLocalEcho false else (c, [])
  (c, .reply
    (if !state.pendingEnable && state.enabled then appendCommand Command.wont selectedOption
      else []) events)

def handleOption (c : TelnetCodec) (verb selectedOption : UInt8) : TelnetCodec × DecodeResult :=
  if verb = Command.will then c.handleWill selectedOption
  else if verb = Command.wont then c.handleWont selectedOption
  else if verb = Command.do then c.handleDo selectedOption
  else if verb = Command.dont then c.handleDont selectedOption
  else (c, 0)

def handleSubnegotiation (c : TelnetCodec) (selectedOption : UInt8) (payload : List UInt8) :
    List UInt8 :=
  if selectedOption = Opt.terminalType ∧ payload.head? = some Suboption.send then
    appendSubnegotiation Opt.terminalType (Suboption.is :: c.config.terminalType)
  else
    []

/-! ### Receiving -/

def ensureAvailable (c : TelnetCodec) : Except CodecError Unit :=
  if c.poisoned then .error .poisoned else .ok ()

def checkInputSize (input : List UInt8) : Except CodecError Unit :=
  if input.length > maxInputBytes then .error (.inputTooLarge maxInputBytes) else .ok ()

def pushSubnegotiation (c : TelnetCodec) (byte : UInt8) : TelnetCodec × Except CodecError Unit :=
  if c.subnegotiation.length = maxSubnegotiationBytes then
    ({ c with poisoned := true, subnegotiation := [] },
      .error (.subnegotiationTooLarge maxSubnegotiationBytes))
  else
    ({ c with subnegotiation := c.subnegotiation ++ [byte] }, .ok ())

def setParse (c : TelnetCodec) (parseState : ParseState) : TelnetCodec := { c with parseState }

/-- One iteration of the parsing loop. -/
def parseByte (c : TelnetCodec) (byte : UInt8) : TelnetCodec × Except CodecError DecodeResult :=
  match c.parseState with
  | .data =>
    if byte = Command.iac then (c.setParse .iac, .ok 0) else (c, .ok (.data [byte]))
  | .iac =>
    if byte = Command.iac then (c.setParse .data, .ok (.data [Command.iac]))
    else if isOptionCommand byte then (c.setParse (.option byte), .ok 0)
    else if byte = Command.sb then (c.setParse .subnegotiationOption, .ok 0)
    else (c.setParse .data, .ok 0)
  | .option verb =>
    let (c, result) := c.handleOption verb byte
    (c.setParse .data, .ok result)
  | .subnegotiationOption =>
    ({ c with subnegotiation := [], parseState := .subnegotiationData byte }, .ok 0)
  | .subnegotiationData selectedOption =>
    if byte = Command.iac then (c.setParse (.subnegotiationIac selectedOption), .ok 0)
    else
      match c.pushSubnegotiation byte with
      | (c, .ok ()) => (c, .ok 0)
      | (c, .error e) => (c, .error e)
  | .subnegotiationIac selectedOption =>
    if byte = Command.se then
      let payload := c.subnegotiation
      let c := { c with subnegotiation := [] }
      (c.setParse .data, .ok (.reply (c.handleSubnegotiation selectedOption payload) []))
    else if byte = Command.iac then
      match c.pushSubnegotiation Command.iac with
      | (c, .ok ()) => (c.setParse (.subnegotiationData selectedOption), .ok 0)
      | (c, .error e) => (c, .error e)
    else
      -- an embedded IAC command pair is ignored
      (c.setParse (.subnegotiationData selectedOption), .ok 0)

/-- Go active and make the client's offers. -/
def activate (c : TelnetCodec) : TelnetCodec × DecodeResult :=
  let (c, offers) := startNegotiation { c with active := true }
  (c, .reply offers [.protocolActivated])

/-- Decode one remote frame. -/
def receive (c : TelnetCodec) (input : List UInt8) :
    TelnetCodec × Except CodecError DecodeResult :=
  match c.ensureAvailable, checkInputSize input with
  | .error e, _ => (c, .error e)
  | .ok (), .error e => (c, .error e)
  | .ok (), .ok () =>
    if !c.active then
      match input.findIdx? (· == Command.iac) with
      | none => (c, .ok (.data input))
      | some iacAt =>
        let (active, offers) := c.activate
        Feed.andThen (active, .ok (.data (input.take iacAt) + offers)) fun c =>
          Feed.feed parseByte c (input.drop iacAt)
    else
      Feed.feed parseByte c input

/-- NVT newline conversion, then IAC escaping once the protocol is active. -/
def encodeInput (c : TelnetCodec) (input : List UInt8) : Except CodecError (List UInt8) := do
  c.ensureAvailable
  checkInputSize input
  let normalized := normalizeNvtNewlines input
  if !c.active || !normalized.contains Command.iac then .ok normalized
  else .ok (escapeIac normalized)

def resize (c : TelnetCodec) (columns rows : ℕ) : TelnetCodec × Except CodecError (List UInt8) :=
  match c.ensureAvailable, WindowSize.new columns rows with
  | .error e, _ => (c, .error e)
  | .ok (), .error e => (c, .error e)
  | .ok (), .ok windowSize =>
    let c := { c with config := c.config.withWindowSize windowSize }
    (c, .ok c.appendNawsIfEnabled)

end TelnetCodec

end Netcatty.Telnet
