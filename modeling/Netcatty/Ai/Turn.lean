import Netcatty.Ai.Blocklist

/-! # Turns of the terminal agent

An `AiAgentTurn` keeps the messages of a turn, the permission mode, the terminal that it is attached
to and the tool call that waits for its result.  A step of the provider may complete the turn, ask
for a tool call, or ask for several at once, which are all rejected (`acceptProviderStep`); the
caller authorizes the pending call and submits its result.  A call returns its result and the turn
as it is afterwards, also where it fails.

The derived JSON decoder of the tool's arguments, the derived encoder of a result and Base64 are the
fields of `AgentExternals`; nothing is assumed of them. -/

namespace Netcatty.Ai

open Serial (isControl trim)
open Vault (Text utf8Len)

abbrev Bytes := List UInt8

def maxAiModelBytes : ℕ := 256
def maxAiMessages : ℕ := 64
def maxAiMessageBytes : ℕ := 128 * 1024
def maxAiRequestTextBytes : ℕ := 512 * 1024
def maxAiImageParts : ℕ := 4
def maxAiImageBytes : ℕ := 5 * 1024 * 1024
def maxAiRequestImageBytes : ℕ := 10 * 1024 * 1024
def maxAiImageBase64Bytes : ℕ := (maxAiImageBytes + 2) / 3 * 4
def maxAiAgentToolIterations : ℕ := 4
def maxAiTerminalCommandBytes : ℕ := 32 * 1024 - 1
def maxAiToolOutputBytes : ℕ := 32 * 1024
def terminalToolName : Text := "terminal_execute".toList
def maxToolCallIdBytes : ℕ := 128
def maxTerminalRouteIdBytes : ℕ := 1024
def maxTerminalProtocolBytes : ℕ := 16
def maxToolErrorCodeBytes : ℕ := 128
def parallelToolCallError : Text := "AI_TOOL_PARALLEL_CALLS_UNSUPPORTED".toList
def parallelToolCallRetryInstruction : Text :=
  "Return exactly one terminal_execute tool call in the next response.".toList

inductive AiErrorCode
  | modelRequired | modelInvalid | messagesInvalid | imageInputInvalid | imageInputUnsupported
  | requestTooLarge | agentIterationLimit | agentStateInvalid | terminalScopeInvalid
  | toolCallInvalid | toolCommandInvalid | toolResultInvalid
  deriving DecidableEq, Repr

/-! ### Requests -/

inductive AiChatRole
  | system | user | assistant
  deriving DecidableEq

structure AiChatContentPart where
  mimeType : Text
  data : Text
  deriving DecidableEq

structure AiChatMessage where
  role : AiChatRole
  content : Text
  contentParts : List AiChatContentPart
  deriving DecidableEq

structure AiChatRequest where
  model : Text
  messages : List AiChatMessage
  deriving DecidableEq

structure ToolResultDocument where
  output : Text
  timedOut : Bool
  truncated : Bool
  errorCode : Option Text
  deriving DecidableEq

/-- Code outside the agent. -/
structure AgentExternals where
  argumentsFromStr : Text → Option Text
  documentToString : ToolResultDocument → Text
  decodeBase64 : Text → Option Bytes
  encodeBase64 : Bytes → Text

section Requests

variable (E : AgentExternals)

def imageSignatureMatches (mimeType : Text) (decoded : Bytes) : Bool :=
  if mimeType = "image/png".toList then
    [0x89, 0x50, 0x4e, 0x47, 0x0d, 0x0a, 0x1a, 0x0a].isPrefixOf decoded
  else if mimeType = "image/jpeg".toList then [0xff, 0xd8, 0xff].isPrefixOf decoded
  else if mimeType = "image/webp".toList then
    12 ≤ decoded.length && [0x52, 0x49, 0x46, 0x46].isPrefixOf decoded &&
      [0x57, 0x45, 0x42, 0x50].isPrefixOf (decoded.drop 8)
  else false

def validateImagePart (part : AiChatContentPart) : Except AiErrorCode ℕ :=
  if part.data.isEmpty || maxAiImageBase64Bytes < utf8Len part.data then .error .requestTooLarge
  else if !isOneOf part.mimeType ["image/png", "image/jpeg", "image/webp"] then
    .error .imageInputInvalid
  else
    match E.decodeBase64 part.data with
    | none => .error .imageInputInvalid
    | some decoded =>
      if decoded.isEmpty || maxAiImageBytes < decoded.length ||
          E.encodeBase64 decoded ≠ part.data || !imageSignatureMatches part.mimeType decoded then
        .error .imageInputInvalid
      else .ok decoded.length

/-- The number of images and their bytes, with those of one more message. -/
def countImages (count bytes : ℕ) : List AiChatContentPart → Except AiErrorCode (ℕ × ℕ)
  | [] => .ok (count, bytes)
  | part :: parts => do
    if maxAiImageParts < count + 1 then .error .requestTooLarge
    let decodedBytes ← validateImagePart E part
    if maxAiRequestImageBytes < bytes + decodedBytes then .error .requestTooLarge
    countImages (count + 1) (bytes + decodedBytes) parts

def validateMessages (total count bytes : ℕ) : List AiChatMessage → Except AiErrorCode Unit
  | [] => .ok ()
  | message :: messages => do
    let length := utf8Len message.content
    if (length = 0 ∧ message.contentParts = []) ∨ maxAiMessageBytes < length ∨
        message.content.contains '\x00' then .error .messagesInvalid
    if maxAiRequestTextBytes < total + length then .error .requestTooLarge
    if message.contentParts ≠ [] ∧ message.role ≠ .user then .error .imageInputInvalid
    let (count, bytes) ← countImages E count bytes message.contentParts
    validateMessages (total + length) count bytes messages

def validateRequest (request : AiChatRequest) : Except AiErrorCode Unit :=
  let model := trim request.model
  if model.isEmpty then .error .modelRequired
  else if maxAiModelBytes < utf8Len model ∨ model.any isControl then .error .modelInvalid
  else if request.messages.isEmpty ∨ maxAiMessages < request.messages.length then
    .error .messagesInvalid
  else validateMessages E 0 0 0 request.messages

def AiChatRequest.hasImageContent (request : AiChatRequest) : Bool :=
  request.messages.any (!·.contentParts.isEmpty)

end Requests

/-! ### Messages and calls -/

inductive AiPermissionMode
  | observer | confirm | auto
  deriving DecidableEq, Repr

inductive AiReasoningEffort
  | low | medium | high
  deriving DecidableEq, Repr

structure AiTerminalScope where
  routeId : Text
  generation : ℕ
  protocol : Text
  deriving DecidableEq

def AiTerminalScope.validate (scope : AiTerminalScope) : Except AiErrorCode Unit :=
  if scope.routeId.isEmpty || maxTerminalRouteIdBytes < utf8Len scope.routeId ||
      scope.routeId.any isControl || scope.protocol.isEmpty ||
      maxTerminalProtocolBytes < utf8Len scope.protocol ||
      !isOneOf scope.protocol ["local", "ssh", "telnet", "mosh", "et"] then
    .error .terminalScopeInvalid
  else .ok ()

structure AiTerminalToolCall where
  id : Text
  command : Text
  scope : AiTerminalScope
  deriving DecidableEq

structure AiTerminalToolResult where
  output : Text
  timedOut : Bool
  errorCode : Option Text
  deriving DecidableEq

inductive AiAgentDecision
  | continue
  | completed (content : Text)
  | toolCall (call : AiTerminalToolCall) (approvalRequired : Bool) (content : Option Text)
  deriving DecidableEq

/-- A call as the provider spells it. -/
structure ProviderToolCall where
  id : Text
  kind : Text
  name : Text
  arguments : Text
  deriving DecidableEq

inductive ProviderRole
  | system | user | assistant | tool
  deriving DecidableEq

structure ProviderMessage where
  role : ProviderRole
  content : Option Text
  toolCalls : List ProviderToolCall
  toolCallId : Option Text
  deriving DecidableEq

namespace ProviderMessage

def plain (message : AiChatMessage) : ProviderMessage where
  role := match message.role with
    | .system => .system
    | .user => .user
    | .assistant => .assistant
  content := some message.content
  toolCalls := []
  toolCallId := none

def assistantTools (toolCalls : List ProviderToolCall) (content : Option Text) : ProviderMessage :=
  ⟨.assistant, content, toolCalls, none⟩

def toolResult (callId content : Text) : ProviderMessage := ⟨.tool, some content, [], some callId⟩

end ProviderMessage

inductive ProviderStep
  | completed (content : Text)
  | toolCall (call : ProviderToolCall) (content : Option Text)
  | parallelToolCalls (calls : List ProviderToolCall) (content : Option Text)
  deriving DecidableEq

/-! ### The turn -/

structure AiAgentTurn where
  model : Text
  reasoningEffort : Option AiReasoningEffort
  permissionMode : AiPermissionMode
  terminalScope : Option AiTerminalScope
  messages : List ProviderMessage
  toolIterations : ℕ
  pendingCall : Option AiTerminalToolCall
  deriving DecidableEq

/-- A method on a turn: its result, and the turn afterwards. -/
abbrev TurnM (α : Type) : Type := AiAgentTurn → Except AiErrorCode α × AiAgentTurn

def fixedToolErrorWithOutput (E : AgentExternals) (errorCode output : Text) : Text :=
  E.documentToString ⟨output, false, false, some errorCode⟩

def fixedToolError (E : AgentExternals) (errorCode : String) : Text :=
  fixedToolErrorWithOutput E errorCode.toList []

def parallelToolRetryError (E : AgentExternals) : Text :=
  fixedToolErrorWithOutput E parallelToolCallError parallelToolCallRetryInstruction

def validateTerminalCommand (command : Text) : Except AiErrorCode Unit :=
  if (trim command).isEmpty || maxAiTerminalCommandBytes < utf8Len command ||
      command.contains '\x00' ||
      command.any fun c => isControl c && c ≠ '\n' && c ≠ '\t' then
    .error .toolCommandInvalid
  else .ok ()

/-- The characters in front that take at most so many bytes. -/
def takeUtf8 : ℕ → Text → Text
  | _, [] => []
  | maximum, c :: rest =>
    if c.utf8Size ≤ maximum then c :: takeUtf8 (maximum - c.utf8Size) rest else []

def boundedUtf8Prefix (value : Text) (maximum : ℕ) : Text × Bool :=
  if utf8Len value ≤ maximum then (value, false) else (takeUtf8 maximum value, true)

/-- Whether the error code of a result is spelled in capitals, digits and underscores. -/
def isErrorCode (code : Text) : Bool :=
  !code.isEmpty && utf8Len code ≤ maxToolErrorCodeBytes &&
    code.all fun c => c.isUpper || c.isDigit || c = '_'

namespace AiAgentTurn

variable (E : AgentExternals)

/-- `new_with_reasoning_effort`. -/
def new (request : AiChatRequest) (permissionMode : AiPermissionMode)
    (terminalScope : Option AiTerminalScope) (reasoningEffort : Option AiReasoningEffort) :
    Except AiErrorCode AiAgentTurn := do
  validateRequest E request
  if request.hasImageContent then .error .imageInputUnsupported
  match terminalScope with
  | some scope => scope.validate
  | none => .ok ()
  return {
    model := request.model
    reasoningEffort
    permissionMode
    terminalScope
    messages := request.messages.map .plain
    toolIterations := 0
    pendingCall := none }

def setPermissionMode (permissionMode : AiPermissionMode) (turn : AiAgentTurn) : AiAgentTurn :=
  { turn with permissionMode }

def authorizeToolExecution (callId : Text) (scope : AiTerminalScope) (turn : AiAgentTurn) :
    Except AiErrorCode Unit :=
  match turn.pendingCall with
  | none => .error .agentStateInvalid
  | some pending =>
    if pending.id ≠ callId ∨ pending.scope ≠ scope then .error .agentStateInvalid else .ok ()

/-- The budget is used up also by calls that turn out to be invalid. -/
def reserveToolIterations (count : ℕ) : TurnM Unit := fun turn =>
  if 255 < count ∨ count = 0 then (.error .toolCallInvalid, turn)
  else if 255 < turn.toolIterations + count ∨
      maxAiAgentToolIterations < turn.toolIterations + count then
    (.error .agentIterationLimit, turn)
  else (.ok (), { turn with toolIterations := turn.toolIterations + count })

def validateToolCall (turn : AiAgentTurn) (call : ProviderToolCall) :
    Except AiErrorCode AiTerminalToolCall :=
  match turn.terminalScope with
  | none => .error .toolCallInvalid
  | some scope =>
    if call.kind ≠ "function".toList ∨ call.name ≠ terminalToolName ∨ call.id.isEmpty ∨
        maxToolCallIdBytes < utf8Len call.id ∨ call.id.any isControl ∨
        maxAiTerminalCommandBytes + 256 < utf8Len call.arguments then
      .error .toolCallInvalid
    else
      match E.argumentsFromStr call.arguments with
      | none => .error .toolCallInvalid
      | some command => do
        validateTerminalCommand command
        return ⟨call.id, command, scope⟩

/-- Each call is valid, and no id comes twice. -/
def validateToolCalls (turn : AiAgentTurn) : List Text → List ProviderToolCall →
    Except AiErrorCode Unit
  | _, [] => .ok ()
  | seen, call :: calls => do
    let _ ← validateToolCall E turn call
    if call.id ∈ seen then .error .toolCallInvalid
    validateToolCalls turn (call.id :: seen) calls

def push (messages : List ProviderMessage) (turn : AiAgentTurn) : AiAgentTurn :=
  { turn with messages := turn.messages ++ messages }

def rejectParallelToolCalls (calls : List ProviderToolCall) (content : Option Text) :
    TurnM AiAgentDecision := fun turn =>
  match reserveToolIterations calls.length turn with
  | (.error error, turn) => (.error error, turn)
  | (.ok (), turn) =>
    match validateToolCalls E turn [] calls with
    | .error error => (.error error, turn)
    | .ok () =>
      (.ok .continue, turn.push (.assistantTools calls content ::
        calls.map fun call => .toolResult call.id (parallelToolRetryError E)))

/-- A single call is answered at once, or waits for its result. -/
def acceptToolCall (call : ProviderToolCall) (content : Option Text) : TurnM AiAgentDecision :=
  fun turn =>
    match reserveToolIterations 1 turn with
    | (.error error, turn) => (.error error, turn)
    | (.ok (), turn) =>
      match validateToolCall E turn call with
      | .error error => (.error error, turn)
      | .ok toolCall =>
        let turn := turn.push [.assistantTools [call] content]
        if blockedTerminalCommand toolCall.command then
          (.ok .continue,
            turn.push [.toolResult toolCall.id (fixedToolError E "AI_TOOL_COMMAND_BLOCKED")])
        else if turn.permissionMode = .observer then
          (.ok .continue,
            turn.push [.toolResult toolCall.id (fixedToolError E "AI_TOOL_OBSERVER_DENIED")])
        else
          (.ok (.toolCall toolCall (turn.permissionMode = .confirm) content),
            { turn with pendingCall := some toolCall })

def acceptProviderStep (step : ProviderStep) : TurnM AiAgentDecision := fun turn =>
  if turn.pendingCall.isSome then (.error .agentStateInvalid, turn)
  else
    match step with
    | .completed content => (.ok (.completed content), turn)
    | .toolCall call content => acceptToolCall E call content turn
    | .parallelToolCalls calls content => rejectParallelToolCalls E calls content turn

def submitToolResult (callId : Text) (scope : AiTerminalScope) (result : AiTerminalToolResult) :
    TurnM Unit := fun turn =>
  match turn.authorizeToolExecution callId scope with
  | .error error => (.error error, turn)
  | .ok () =>
    if result.output.contains '\x00' || result.errorCode.any (!isErrorCode ·) then
      (.error .toolResultInvalid, turn)
    else
      let (output, truncated) := boundedUtf8Prefix result.output maxAiToolOutputBytes
      let content := E.documentToString ⟨output, result.timedOut, truncated, result.errorCode⟩
      match turn.pendingCall with
      | none => (.error .agentStateInvalid, turn)
      | some pending =>
        let turn := { turn.push [.toolResult pending.id content] with pendingCall := none }
        (.ok (), if result.timedOut then { turn with terminalScope := none } else turn)

end AiAgentTurn

end Netcatty.Ai
