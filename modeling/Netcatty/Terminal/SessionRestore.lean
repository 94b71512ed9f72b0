import Mathlib.Data.List.DropRight
import Netcatty.Library.JsonText
import Netcatty.Terminal.Panes

/-! # Snapshots of the sessions to restore

What is stored of the workspace between two starts: the sessions with what they were connected to,
and the layout of their panes.  A stored value is not trusted; `validateSessionRestoreSnapshot`
checks it and gives a snapshot, and `createSessionRestoreSnapshot` leaves out the panes of sessions
that are not stored. -/

namespace Netcatty.Terminal

open Json (NumberText Value isHighSurrogate isLowSurrogate units)

inductive SessionRestoreError
  | savedHostIdInvalid
  | hostnameInvalid
  | portInvalid
  | shellIdInvalid
  | targetLabelInvalid
  | targetInvalid
  | targetProtocolInvalid
  | targetKindInvalid
  | entryInvalid
  | workspaceSessionIdInvalid
  | protocolInvalid
  | paneNodeIdInvalid
  | paneRatioInvalid
  | paneLayoutInvalid
  | paneFocusInvalid
  | paneDepthLimit
  | paneNodeLimit
  | paneNodeInvalid
  | paneNodeDuplicate
  | paneSessionInvalid
  | paneSessionDuplicate
  | paneDirectionInvalid
  | snapshotInvalid
  | limitReached
  | duplicate
  | activeSessionInvalid
  | sizeLimit
  | jsonInvalid
  deriving DecidableEq, Repr

abbrev Restoring := Except SessionRestoreError

def sessionRestoreVersion : ℚ := 2
def maxWorkspaceSessions : ℕ := 64
def maxSessionRestoreEntries : ℕ := maxWorkspaceSessions
def maxSessionRestoreBytes : ℕ := 64 * 1024
def maxSessionRestorePaneNodes : ℕ := maxWorkspaceSessions * 2 - 1
def maxSessionRestorePaneDepth : ℕ := maxWorkspaceSessions
def maxTargetLabelBytes : ℕ := 512
def maxHostnameBytes : ℕ := 512
def maxSavedHostIdBytes : ℕ := 256
def maxLocalShellIdBytes : ℕ := 128
def maxPaneNodeIdBytes : ℕ := 256
def minPaneRatio : ℚ := 1 / 100
def maxPaneRatio : ℚ := 99 / 100

/-! ### Values -/

def isObject : Value → Bool
  | .object _ => true
  | _ => false

def fieldOf (value : Value) (key : String) : Value :=
  match value with
  | .object fields => (fields.lookup (units key)).getD .other
  | _ => .other

def hasExactKeys (value : Value) (expected : List String) : Bool :=
  match value with
  | .object fields =>
      fields.length = expected.length &&
        expected.all fun key => (fields.map Prod.fst).contains (units key)
  | _ => false

/-- `value === "…"`. -/
def isText (value : Value) (s : String) : Bool :=
  match value with
  | .string text => text = units s
  | _ => false

/-- The bytes of a unit that is no half of a pair; a lone half is encoded as U+FFFD. -/
def unitBytes (c : UInt16) : ℕ := if c < 0x80 then 1 else if c < 0x800 then 2 else 3

def byteLength : JsString → ℕ
  | [] => 0
  | [c] => unitBytes c
  | c :: d :: rest =>
      if isHighSurrogate c && isLowSurrogate d then 4 + byteLength rest
      else unitBytes c + byteLength (d :: rest)

/-- White space and the ends of lines. -/
def isBlank (c : UInt16) : Bool :=
  (9 ≤ c && c ≤ 13) || (0x2000 ≤ c && c ≤ 0x200a) ||
    [0x20, 0xa0, 0x1680, 0x2028, 0x2029, 0x202f, 0x205f, 0x3000, 0xfeff].contains c

def trimBlanks (text : JsString) : JsString := (text.dropWhile isBlank).rdropWhile isBlank

def isControlUnit (c : UInt16) : Bool := c ≤ 0x1f || c = 0x7f

def isSlash (c : UInt16) : Bool := c = 0x5c || c = 0x2f

/-! ### Fields -/

def assertText (value : Value) (error : SessionRestoreError) (maximumBytes : ℕ) :
    Restoring JsString :=
  match value with
  | .string text =>
      if (trimBlanks text).isEmpty || maximumBytes < byteLength text then .error error
      else if text ≠ trimBlanks text || text.any isControlUnit then .error error
      else .ok text
  | _ => .error error

/-- A text that is no path and no URI. -/
def assertReference (value : Value) (error : SessionRestoreError) (maximumBytes : ℕ) :
    Restoring JsString :=
  match assertText value error maximumBytes with
  | .error error => .error error
  | .ok text => if text.any isSlash || units "://" <:+: text then .error error else .ok text

def assertOpaqueSavedHostId (value : Value) : Restoring JsString :=
  assertReference value .savedHostIdInvalid maxSavedHostIdBytes

def assertHostname (value : Value) : Restoring JsString :=
  assertReference value .hostnameInvalid maxHostnameBytes

def assertPaneNodeId (value : Value) : Restoring JsString :=
  assertReference value .paneNodeIdInvalid maxPaneNodeIdBytes

def assertTargetLabel (value : Value) : Restoring JsString :=
  assertText value .targetLabelInvalid maxTargetLabelBytes

def assertPort (value : Value) : Restoring ℕ :=
  match value with
  | .number q =>
      if q.den = 1 ∧ 1 ≤ q.num ∧ q.num ≤ 65535 then .ok q.num.toNat else .error .portInvalid
  | _ => .error .portInvalid

def isShellIdStart (c : UInt16) : Bool := (0x61 ≤ c && c ≤ 0x7a) || (0x30 ≤ c && c ≤ 0x39)

def isShellIdUnit (c : UInt16) : Bool := isShellIdStart c || c = 0x2e || c = 0x5f || c = 0x2d

def isLocalShellId : JsString → Bool
  | [] => false
  | c :: rest => isShellIdStart c && rest.all isShellIdUnit

def assertLocalShellId (value : Value) : Restoring JsString :=
  match assertText value .shellIdInvalid maxLocalShellIdBytes with
  | .error error => .error error
  | .ok shellId =>
      if !isLocalShellId shellId || units ".." <:+: shellId then .error .shellIdInvalid
      else .ok shellId

def assertPaneRatio (value : Value) : Restoring ℚ :=
  match value with
  | .number q => if q < minPaneRatio ∨ maxPaneRatio < q then .error .paneRatioInvalid else .ok q
  | _ => .error .paneRatioInvalid

/-! ### Session ids -/

def isLowerHexUnit (c : UInt16) : Bool := (0x30 ≤ c && c ≤ 0x39) || (0x61 ≤ c && c ≤ 0x66)

/-- What the units of an id have to be. -/
def workspaceSessionIdPattern : List (UInt16 → Bool) :=
  (units "ws-").map (fun c => (· == c)) ++ List.replicate 8 isLowerHexUnit ++ [(· == 0x2d)] ++
    List.replicate 4 isLowerHexUnit ++ [(· == 0x2d)] ++ [fun c => 0x31 ≤ c && c ≤ 0x38] ++
    List.replicate 3 isLowerHexUnit ++ [(· == 0x2d)] ++
    [fun c => [0x38, 0x39, 0x61, 0x62].contains c] ++ List.replicate 3 isLowerHexUnit ++
    [(· == 0x2d)] ++ List.replicate 12 isLowerHexUnit

def matchesPattern : List (UInt16 → Bool) → JsString → Bool
  | [], [] => true
  | accepts :: pattern, c :: text => accepts c && matchesPattern pattern text
  | _, _ => false

def isWorkspaceSessionId (text : JsString) : Bool := matchesPattern workspaceSessionIdPattern text

def WorkspaceSessionId : Type := { text : JsString // isWorkspaceSessionId text = true }
  deriving DecidableEq

def workspaceSessionIdFrom (value : Value) : Option WorkspaceSessionId :=
  match value with
  | .string text => if h : isWorkspaceSessionId text = true then some ⟨text, h⟩ else none
  | _ => none

/-! ### Entries -/

inductive TerminalSessionProtocol
  | ssh | telnet | mosh | et | serial | local
  deriving DecidableEq, Repr

namespace TerminalSessionProtocol

def text : TerminalSessionProtocol → String
  | ssh => "ssh"
  | telnet => "telnet"
  | mosh => "mosh"
  | et => "et"
  | serial => "serial"
  | «local» => "local"

def all : List TerminalSessionProtocol := [ssh, telnet, mosh, et, serial, «local»]

def ofValue (value : Value) : Option TerminalSessionProtocol :=
  all.find? fun protocol => isText value protocol.text

end TerminalSessionProtocol

inductive SessionRestoreTarget
  | saved (savedHostId label : JsString)
  | quick (label hostname : JsString) (port : ℕ)
  | local (label shellId : JsString)
  | serial (label : JsString)
  deriving DecidableEq

structure SessionRestoreEntry where
  workspaceSessionId : WorkspaceSessionId
  protocol : TerminalSessionProtocol
  target : SessionRestoreTarget
  deriving DecidableEq

def normalizeSaved (candidate : Value) (protocol : TerminalSessionProtocol) :
    Restoring SessionRestoreTarget :=
  if !hasExactKeys candidate ["kind", "savedHostId", "label"] then .error .targetInvalid
  else if protocol = .local then .error .targetProtocolInvalid
  else do
    let savedHostId ← assertOpaqueSavedHostId (fieldOf candidate "savedHostId")
    let label ← assertTargetLabel (fieldOf candidate "label")
    return .saved savedHostId label

def normalizeQuick (candidate : Value) (protocol : TerminalSessionProtocol) :
    Restoring SessionRestoreTarget :=
  if !hasExactKeys candidate ["kind", "label", "hostname", "port"] then .error .targetInvalid
  else if protocol = .local then .error .targetProtocolInvalid
  else do
    let label ← assertTargetLabel (fieldOf candidate "label")
    let hostname ← assertHostname (fieldOf candidate "hostname")
    let port ← assertPort (fieldOf candidate "port")
    return .quick label hostname port

def normalizeLocal (candidate : Value) (protocol : TerminalSessionProtocol) :
    Restoring SessionRestoreTarget :=
  if !hasExactKeys candidate ["kind", "label", "shellId"] then .error .targetInvalid
  else if protocol ≠ .local then .error .targetProtocolInvalid
  else do
    let label ← assertTargetLabel (fieldOf candidate "label")
    let shellId ← assertLocalShellId (fieldOf candidate "shellId")
    return .local label shellId

def normalizeSerial (candidate : Value) (protocol : TerminalSessionProtocol) :
    Restoring SessionRestoreTarget :=
  if !hasExactKeys candidate ["kind", "label"] || protocol ≠ .serial then
    .error .targetProtocolInvalid
  else (assertTargetLabel (fieldOf candidate "label")).map .serial

def normalizeTarget (value : Value) (protocol : TerminalSessionProtocol) :
    Restoring SessionRestoreTarget :=
  let kind := fieldOf value "kind"
  if !isObject value then .error .targetInvalid
  else if isText kind "saved" then normalizeSaved value protocol
  else if isText kind "quick" then normalizeQuick value protocol
  else if isText kind "local" then normalizeLocal value protocol
  else if isText kind "serial" then normalizeSerial value protocol
  else .error .targetKindInvalid

def normalizeEntry (value : Value) : Restoring SessionRestoreEntry :=
  if !hasExactKeys value ["workspaceSessionId", "protocol", "target"] then .error .entryInvalid
  else
    match workspaceSessionIdFrom (fieldOf value "workspaceSessionId") with
    | none => .error .workspaceSessionIdInvalid
    | some workspaceSessionId =>
        match TerminalSessionProtocol.ofValue (fieldOf value "protocol") with
        | none => .error .protocolInvalid
        | some protocol =>
            (normalizeTarget (fieldOf value "target") protocol).map fun target =>
              ⟨workspaceSessionId, protocol, target⟩

/-! ### Pane layouts -/

abbrev SessionRestorePaneLayoutNode := TerminalPaneLayoutNode WorkspaceSessionId

abbrev SessionRestorePaneLayout := TerminalPaneLayoutSnapshot WorkspaceSessionId

/-- The variables of `normalizePaneLayout`; a set keeps its elements in the order of their
insertion. -/
structure PaneVisit where
  nodeCount : ℕ
  nodeIds : List JsString
  leafSessionIds : List WorkspaceSessionId
  retainedLeafSessionIds : List WorkspaceSessionId

def assertDirection (value : Value) : Restoring TerminalPaneSplitDirection :=
  if isText value "horizontal" then .ok .horizontal
  else if isText value "vertical" then .ok .vertical
  else .error .paneDirectionInvalid

/-- A node's id, which is a new one. -/
def visitNodeId (candidate : Value) (state : PaneVisit) : Restoring (JsString × PaneVisit) :=
  match assertPaneNodeId (fieldOf candidate "id") with
  | .error error => .error error
  | .ok id =>
      if state.nodeIds.contains id then .error .paneNodeDuplicate
      else .ok (id, { state with nodeIds := state.nodeIds ++ [id] })

/-- A leaf's session, which is a new one. -/
def visitSession (candidate : Value) (state : PaneVisit) :
    Restoring (WorkspaceSessionId × PaneVisit) :=
  match workspaceSessionIdFrom (fieldOf candidate "sessionId") with
  | none => .error .paneSessionInvalid
  | some sessionId =>
      if state.leafSessionIds.contains sessionId then .error .paneSessionDuplicate
      else .ok (sessionId, { state with leafSessionIds := state.leafSessionIds ++ [sessionId] })

section Layout

variable (retained : WorkspaceSessionId → Bool) (pruneMissingSessions : Bool)

/-- The leaf stays if its session is stored. -/
def retainLeaf (id : JsString) (sessionId : WorkspaceSessionId) (state : PaneVisit) :
    Restoring (Option SessionRestorePaneLayoutNode × PaneVisit) :=
  if !retained sessionId then
    if pruneMissingSessions then .ok (none, state) else .error .paneSessionInvalid
  else
    .ok (some (.pane id sessionId),
      { state with retainedLeafSessionIds := state.retainedLeafSessionIds ++ [sessionId] })

def visitPaneLeaf (candidate : Value) (state : PaneVisit) :
    Restoring (Option SessionRestorePaneLayoutNode × PaneVisit) :=
  if !hasExactKeys candidate ["id", "type", "sessionId"] then .error .paneNodeInvalid
  else do
    let (id, state) ← visitNodeId candidate state
    let (sessionId, state) ← visitSession candidate state
    retainLeaf retained pruneMissingSessions id sessionId state

/-- What a split node says of itself. -/
def visitSplitHead (candidate : Value) (state : PaneVisit) :
    Restoring ((JsString × TerminalPaneSplitDirection × ℚ) × PaneVisit) :=
  if !hasExactKeys candidate ["id", "type", "direction", "ratio", "first", "second"] then
    .error .paneNodeInvalid
  else do
    let (id, state) ← visitNodeId candidate state
    let direction ← assertDirection (fieldOf candidate "direction")
    let ratio ← assertPaneRatio (fieldOf candidate "ratio")
    return ((id, direction, ratio), state)

def joinSplit (head : JsString × TerminalPaneSplitDirection × ℚ) :
    Option SessionRestorePaneLayoutNode → Option SessionRestorePaneLayoutNode →
      Option SessionRestorePaneLayoutNode
  | none, second => second
  | some first, none => some first
  | some first, some second => some (.split head.1 head.2.1 head.2.2 first second)

/-- `visit`, the local function of `normalizePaneLayout`, with the depths that are left. -/
def visitPaneNode : ℕ → Value → PaneVisit →
    Restoring (Option SessionRestorePaneLayoutNode × PaneVisit)
  | 0, _, _ => .error .paneDepthLimit
  | depths + 1, rawNode, state =>
      let state := { state with nodeCount := state.nodeCount + 1 }
      if maxSessionRestorePaneNodes < state.nodeCount then .error .paneNodeLimit
      else if !isObject rawNode then .error .paneNodeInvalid
      else if isText (fieldOf rawNode "type") "pane" then
        visitPaneLeaf retained pruneMissingSessions rawNode state
      else if isText (fieldOf rawNode "type") "split" then do
        let (head, state) ← visitSplitHead rawNode state
        let (first, state) ← visitPaneNode depths (fieldOf rawNode "first") state
        let (second, state) ← visitPaneNode depths (fieldOf rawNode "second") state
        return (joinSplit head first second, state)
      else .error .paneNodeInvalid

/-- The focus that was asked for, or the first pane that is left. -/
def chooseRestoredFocus (requestedFocus : WorkspaceSessionId) (state : PaneVisit) :
    WorkspaceSessionId :=
  if state.retainedLeafSessionIds.contains requestedFocus then requestedFocus
  else state.retainedLeafSessionIds.headD requestedFocus

def normalizePaneLayout (value : Value) : Restoring (Option SessionRestorePaneLayout) :=
  if !hasExactKeys value ["root", "focusedSessionId"] then .error .paneLayoutInvalid
  else
    match workspaceSessionIdFrom (fieldOf value "focusedSessionId") with
    | none => .error .paneFocusInvalid
    | some requestedFocus =>
        match visitPaneNode retained pruneMissingSessions maxSessionRestorePaneDepth
            (fieldOf value "root") ⟨0, [], [], []⟩ with
        | .error error => .error error
        | .ok (none, _) => .ok none
        | .ok (some root, state) =>
            if !state.retainedLeafSessionIds.contains requestedFocus && !pruneMissingSessions then
              .error .paneFocusInvalid
            else .ok (some ⟨root, chooseRestoredFocus requestedFocus state⟩)

end Layout

/-! ### Snapshots -/

structure SessionRestoreSnapshot where
  activeSessionId : Option WorkspaceSessionId
  sessions : List SessionRestoreEntry
  paneLayout : Option SessionRestorePaneLayout
  deriving DecidableEq

/-- The loop over the entries. -/
def normalizeEntries : List Value → List SessionRestoreEntry → Restoring (List SessionRestoreEntry)
  | [], sessions => .ok sessions
  | rawEntry :: rest, sessions =>
      match normalizeEntry rawEntry with
      | .error error => .error error
      | .ok entry =>
          if (sessions.map (·.workspaceSessionId)).contains entry.workspaceSessionId then
            .error .duplicate
          else normalizeEntries rest (sessions ++ [entry])

def normalizeActive (value : Value) (ids : List WorkspaceSessionId) :
    Restoring (Option WorkspaceSessionId) :=
  match value with
  | .null => .ok none
  | value =>
      match workspaceSessionIdFrom value with
      | none => .error .activeSessionInvalid
      | some id => if ids.contains id then .ok (some id) else .error .activeSessionInvalid

def snapshotKeys : List String := ["version", "activeSessionId", "sessions"]

def isVersion (value : Value) : Bool :=
  match value with
  | .number q => q = sessionRestoreVersion
  | _ => false

/-- The pane layout of a value that has one. -/
def normalizeStoredLayout (hasPaneLayout : Bool) (value : Value) (ids : List WorkspaceSessionId) :
    Restoring (Option SessionRestorePaneLayout) :=
  if hasPaneLayout then normalizePaneLayout ids.contains false (fieldOf value "paneLayout")
  else .ok none

/-- The entries of a value that has a version, and what comes behind them. -/
def validateStored (hasPaneLayout : Bool) (value : Value) (rawEntries : List Value) :
    Restoring SessionRestoreSnapshot := do
  let sessions ← normalizeEntries rawEntries []
  let ids := sessions.map (·.workspaceSessionId)
  let activeSessionId ← normalizeActive (fieldOf value "activeSessionId") ids
  let paneLayout ← normalizeStoredLayout hasPaneLayout value ids
  return ⟨activeSessionId, sessions, paneLayout⟩

def validateSessionRestoreSnapshot (value : Value) : Restoring SessionRestoreSnapshot :=
  let hasPaneLayout := hasExactKeys value (snapshotKeys ++ ["paneLayout"])
  if !hasPaneLayout && !hasExactKeys value snapshotKeys then .error .snapshotInvalid
  else if !isVersion (fieldOf value "version") then .error .snapshotInvalid
  else
    match fieldOf value "sessions" with
    | .array rawEntries =>
        if maxSessionRestoreEntries < rawEntries.length then .error .limitReached
        else validateStored hasPaneLayout value rawEntries
    | _ => .error .snapshotInvalid

/-! ### The values of snapshots -/

def textValue (s : String) : Value := .string (units s)

def objectValue (fields : List (String × Value)) : Value :=
  .object (fields.map fun field => (units field.1, field.2))

def SessionRestoreTarget.value : SessionRestoreTarget → Value
  | saved savedHostId label =>
      objectValue [("kind", textValue "saved"), ("savedHostId", .string savedHostId),
        ("label", .string label)]
  | quick label hostname port =>
      objectValue [("kind", textValue "quick"), ("label", .string label),
        ("hostname", .string hostname), ("port", .number port)]
  | «local» label shellId =>
      objectValue [("kind", textValue "local"), ("label", .string label),
        ("shellId", .string shellId)]
  | serial label => objectValue [("kind", textValue "serial"), ("label", .string label)]

def SessionRestoreEntry.value (entry : SessionRestoreEntry) : Value :=
  objectValue [("workspaceSessionId", .string entry.workspaceSessionId.val),
    ("protocol", textValue entry.protocol.text), ("target", entry.target.value)]

def splitDirectionText : TerminalPaneSplitDirection → String
  | .horizontal => "horizontal"
  | .vertical => "vertical"

def paneNodeValue : SessionRestorePaneLayoutNode → Value
  | .pane id sessionId =>
      objectValue [("id", .string id), ("type", textValue "pane"),
        ("sessionId", .string sessionId.val)]
  | .split id direction ratio first second =>
      objectValue [("id", .string id), ("type", textValue "split"),
        ("direction", textValue (splitDirectionText direction)), ("ratio", .number ratio),
        ("first", paneNodeValue first), ("second", paneNodeValue second)]

def paneLayoutValue (layout : SessionRestorePaneLayout) : Value :=
  objectValue [("root", paneNodeValue layout.root),
    ("focusedSessionId", .string layout.focusedSessionId.val)]

def activeValue (activeSessionId : Option WorkspaceSessionId) : Value :=
  match activeSessionId with
  | none => .null
  | some id => .string id.val

def SessionRestoreSnapshot.value (snapshot : SessionRestoreSnapshot) : Value :=
  objectValue ([("version", .number sessionRestoreVersion),
    ("activeSessionId", activeValue snapshot.activeSessionId),
    ("sessions", .array (snapshot.sessions.map SessionRestoreEntry.value))] ++
      (snapshot.paneLayout.map fun layout => ("paneLayout", paneLayoutValue layout)).toList)

/-! ### Creating, encoding, decoding -/

/-- The snapshot with the panes that are left of a layout. -/
def withPaneLayout (snapshot : SessionRestoreSnapshot) (paneLayout : SessionRestorePaneLayout) :
    Restoring SessionRestoreSnapshot :=
  let retainedIds := snapshot.sessions.map (·.workspaceSessionId)
  match normalizePaneLayout retainedIds.contains true (paneLayoutValue paneLayout) with
  | .error error => .error error
  | .ok none => .ok snapshot
  | .ok (some pruned) =>
      validateSessionRestoreSnapshot { snapshot with paneLayout := some pruned }.value

def createSessionRestoreSnapshot (sessions : List SessionRestoreEntry)
    (activeSessionId : Option WorkspaceSessionId) (paneLayout : Option SessionRestorePaneLayout) :
    Restoring SessionRestoreSnapshot :=
  match validateSessionRestoreSnapshot
      (SessionRestoreSnapshot.mk activeSessionId sessions none).value, paneLayout with
  | .error error, _ => .error error
  | .ok snapshot, none => .ok snapshot
  | .ok snapshot, some paneLayout => withPaneLayout snapshot paneLayout

section Encoding

variable (F : NumberText)

def encodeSessionRestoreSnapshot (snapshot : Value) : Restoring JsString :=
  match validateSessionRestoreSnapshot snapshot with
  | .error error => .error error
  | .ok normalized =>
      let encoded := Json.textOf F normalized.value
      if maxSessionRestoreBytes < byteLength encoded then .error .sizeLimit else .ok encoded

def decodeSessionRestoreSnapshot (encoded : JsString) : Restoring SessionRestoreSnapshot :=
  if maxSessionRestoreBytes < byteLength encoded then .error .sizeLimit
  else
    match Json.parse F encoded with
    | none => .error .jsonInvalid
    | some parsed => validateSessionRestoreSnapshot parsed

end Encoding

end Netcatty.Terminal
