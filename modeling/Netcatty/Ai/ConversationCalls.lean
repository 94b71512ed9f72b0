import Netcatty.Ai.Conversation

/-! # The calls on conversations

The operations that the workspace calls: they check their arguments, change a draft of the state,
and return what `finish` makes of it.  A call that throws leaves the state as it was.  A state is
`Reachable` where a run of calls leads to it from `createAiConversationState`. -/

namespace Netcatty.Ai

variable (U : UnicodeTables)

/-! ### Arguments -/

def throwWhen (refused : Bool) (error : AiConversationError) : Except AiConversationError Unit :=
  if refused then .error error else .ok ()

def assertBoundedOpaqueText (value : JsText) (error : AiConversationError) (maxBytes : ℕ) :
    Except AiConversationError JsText :=
  if value.isEmpty || maxBytes < byteLength value ||
      value.any fun c => isControlPoint c || U.isFormat c || isSurrogate c then .error error
  else .ok value

def assertScopeKey (scopeKey : JsText) : Except AiConversationError JsText :=
  assertBoundedOpaqueText U scopeKey .scopeKeyInvalid maxAiScopeKeyBytes

def assertOpaqueId (id : JsText) : Except AiConversationError JsText :=
  assertBoundedOpaqueText U id .idInvalid maxAiOpaqueIdBytes

def assertTarget (target : AiConversationTarget) : Except AiConversationError Unit := do
  let _ ← assertScopeKey U target.scopeKey
  let _ ← assertOpaqueId U target.conversationId

def protectedTargetKeys (targets : List AiConversationTarget) :
    Except AiConversationError ProtectedTargets :=
  targets.mapM fun target => do
    let scopeKey ← assertScopeKey U target.scopeKey
    let conversationId ← assertOpaqueId U target.conversationId
    return targetKey scopeKey conversationId

structure AiConversationTerminalScope where
  routeId : JsText
  generation : JsNumber

def decimalText (n : ℕ) : JsText := (Nat.toDigits 10 n).map fun c => ⟨c.toNat, char_toNat_lt c⟩

def aiConversationScopeKey :
    Option AiConversationTerminalScope → Except AiConversationError JsText
  | none => .ok aiNoTerminalScopeKey
  | some scope => do
      let _ ← assertBoundedOpaqueText U scope.routeId .routeIdInvalid maxAiScopeKeyBytes
      match scope.generation with
      | some generation =>
          throwWhen (!isSafeInteger (some generation) || generation < 0) .generationInvalid
          assertScopeKey U (scope.routeId ++ jsText ":" ++ decimalText generation.toNat)
      | none => throw .generationInvalid

def isTitleSpace (c : CodePoint) : Bool := isSpace c || (jsText "<> &").contains c

/-- Runs of blanks become one. -/
def collapseSpaces : JsText → JsText
  | [] => []
  | [c] => if isSpace c then jsText " " else [c]
  | c :: d :: rest =>
      if isSpace c then
        if isSpace d then collapseSpaces (d :: rest) else jsText " " ++ collapseSpaces (d :: rest)
      else c :: collapseSpaces (d :: rest)

def ellipsis : JsText := jsText "…"

def deriveAiConversationTitle (firstUserMessage : JsText) : JsText :=
  let replaced := (U.normalizeNfkc firstUserMessage).flatMap fun c =>
    if isTitleSpace c then jsText " "
    else if isControlPoint c || U.isFormat c || isSurrogate c then [] else [c]
  let normalized := trimText (collapseSpaces replaced)
  if byteLength normalized ≤ maxAiConversationTitleBytes then normalized
  else
    trimEnd (takeUtf8Prefix normalized (maxAiConversationTitleBytes - byteLength ellipsis)) ++
      ellipsis

def isErrorCodePoint (c : CodePoint) : Bool :=
  (0x41 ≤ c.val && c.val ≤ 0x5a) || (0x30 ≤ c.val && c.val ≤ 0x39) || c.val = 0x5f

def normalizeToolActivity (activity : AiConversationToolActivity) :
    Except AiConversationError AiConversationToolActivity := do
  let id ← assertOpaqueId U activity.id
  throwWhen ((trimText activity.command).isEmpty ||
    maxAiToolCommandBytes < byteLength activity.command || activity.command.contains 0 ||
    (activity.command.any fun c => isControlPoint c && c.val ≠ 0x0a && c.val ≠ 0x09) ||
    activity.errorCode.any fun errorCode =>
      errorCode.isEmpty || 128 < byteLength errorCode || !errorCode.all isErrorCodePoint)
    .toolActivityInvalid
  return { activity with id }

structure AiConversationImageAttachmentInput where
  id : JsText
  name : JsText
  mimeType : AiImageMimeType
  size : JsNumber
  data : JsText

def isBase64Point (c : CodePoint) : Bool :=
  (0x41 ≤ c.val && c.val ≤ 0x5a) || (0x61 ≤ c.val && c.val ≤ 0x7a) ||
    (0x30 ≤ c.val && c.val ≤ 0x39) || c.val = 0x2b || c.val = 0x2f

def isBase64 (data : JsText) : Bool :=
  let padding := data.dropWhile isBase64Point
  !(data.takeWhile isBase64Point).isEmpty && padding.length ≤ 2 && padding.all (·.val = 0x3d)

def normalizeAttachment (attachment : AiConversationImageAttachmentInput) :
    Except AiConversationError AiConversationImageAttachment := do
  let id ← assertOpaqueId U attachment.id
  let name ← assertBoundedOpaqueText U attachment.name .attachmentNameInvalid
    maxAiAttachmentNameBytes
  match attachment.size with
  | some size =>
      throwWhen (size ≤ 0 || (maxAiImageAttachmentBytes : ℤ) < size || attachment.data.isEmpty ||
        utf16Length attachment.data ≠ (size.toNat + 2) / 3 * 4 || !isBase64 attachment.data)
        .attachmentsInvalid
      return { id, name, mimeType := attachment.mimeType, size := size.toNat, data := attachment.data }
  | none => throw .attachmentsInvalid

/-! ### Scopes and conversations -/

def newConversation (id : JsText) (order : ℕ) : Except AiConversationError AiConversation := do
  let id ← assertOpaqueId U id
  return {
    id
    title := []
    titleInitialized := false
    messages := []
    createdOrder := order
    updatedOrder := order }

def createAiConversationState : AiConversationState :=
  freezeState { activeScopeKey := aiNoTerminalScopeKey, scopes := [], revision := 0 }

structure AiConversationActivationOptions where
  conversationId : Option JsText
  protectedTargets : List AiConversationTarget

def makeConversationId (uuid : JsText) : JsText := jsText "ai-conversation-" ++ uuid

namespace AiConversationState

variable (state : AiConversationState)

def findScope (key : JsText) : Option AiConversationScopeState := state.scopes.find? (·.key = key)

def findConversation (target : AiConversationTarget) : Option AiConversation :=
  (state.findScope target.scopeKey).bind fun scope =>
    scope.conversations.find? (·.id = target.conversationId)

/-- The draft of a call, and the order of what it writes. -/
def draft : MutableState := { toMutable state with revision := state.revision + 1 }

end AiConversationState

def MutableState.pushScope (state : MutableState) (key : JsText) (conversation : AiConversation)
    (order : ℕ) : MutableState :=
  { state with
    scopes := state.scopes ++ [{
      key
      activeConversationId := conversation.id
      conversations := [conversation]
      createdOrder := order
      updatedOrder := order }] }

/-- The draft of an activation: a scope that is not there yet starts with a conversation. -/
def activatedDraft (state : AiConversationState) (scopeKey conversationId : JsText) :
    Except AiConversationError MutableState :=
  let order := state.revision + 1
  let draft := { state.draft with activeScopeKey := scopeKey }
  if (state.findScope scopeKey).isSome then
    return draft.modifyScope scopeKey fun scope => { scope with updatedOrder := order }
  else do
    let conversation ← newConversation U conversationId order
    return draft.pushScope scopeKey conversation order

def activateAiConversationScope (state : AiConversationState)
    (terminalScope : Option AiConversationTerminalScope) (options : AiConversationActivationOptions)
    (uuid : JsText) : Except AiConversationError AiConversationState := do
  let scopeKey ← aiConversationScopeKey U terminalScope
  let existing := state.findScope scopeKey
  if existing.isSome && state.activeScopeKey = scopeKey then return state
  let draft ← activatedDraft U state scopeKey
    (options.conversationId.getD (makeConversationId uuid))
  let protectedTargets ← protectedTargetKeys U options.protectedTargets
  finish draft protectedTargets

def createAiConversation (state : AiConversationState) (scopeKey : Option JsText)
    (conversationId : Option JsText) (uuid : JsText) :
    Except AiConversationError AiConversationState := do
  let scopeKey ← assertScopeKey U (scopeKey.getD state.activeScopeKey)
  let conversationId ← assertOpaqueId U (conversationId.getD (makeConversationId uuid))
  throwWhen (state.findConversation ⟨scopeKey, conversationId⟩).isSome .idDuplicate
  let order := state.revision + 1
  let conversation ← newConversation U conversationId order
  let draft := { state.draft with activeScopeKey := scopeKey }
  let draft :=
    if (state.findScope scopeKey).isSome then
      draft.modifyScope scopeKey fun scope => { scope with
        conversations := scope.conversations ++ [conversation]
        activeConversationId := conversationId
        updatedOrder := order }
    else draft.pushScope scopeKey conversation order
  finish draft [targetKey scopeKey conversationId]

def switchAiConversation (state : AiConversationState) (target : AiConversationTarget) :
    Except AiConversationError AiConversationState := do
  assertTarget U target
  match state.findScope target.scopeKey with
  | none => return state
  | some scope =>
      if (state.findConversation target).isNone then return state
      if state.activeScopeKey = target.scopeKey ∧
          scope.activeConversationId = target.conversationId then return state
      let order := state.revision + 1
      let draft := { state.draft with activeScopeKey := target.scopeKey }
      let draft := draft.modifyScope target.scopeKey fun scope => { scope with
        activeConversationId := target.conversationId
        updatedOrder := order }
      let draft := draft.modifyConversation target fun conversation =>
        { conversation with updatedOrder := order }
      finish draft [targetKey target.scopeKey target.conversationId]

/-- The scope that a conversation leaves; the last one is replaced. -/
def scopeWithout (scope : AiConversationScopeState) (id replacementId : JsText) (order : ℕ) :
    Except AiConversationError AiConversationScopeState :=
  if (scope.conversations.filter (·.id ≠ id)).isEmpty then do
    let replacement ← newConversation U replacementId order
    return { scope with
      conversations := [replacement]
      activeConversationId := replacement.id
      updatedOrder := order }
  else return { scope.removeConversation id with updatedOrder := order }

def deleteAiConversation (state : AiConversationState) (target : AiConversationTarget)
    (conversationId : Option JsText) (uuid : JsText) :
    Except AiConversationError AiConversationState := do
  assertTarget U target
  match state.findScope target.scopeKey with
  | none => return state
  | some scope =>
      if (state.findConversation target).isNone then return state
      let order := state.revision + 1
      let conversations := scope.conversations.filter (·.id ≠ target.conversationId)
      if conversations.isEmpty ∧ state.activeScopeKey ≠ target.scopeKey then
        finish { state.draft with scopes := state.scopes.filter (·.key ≠ target.scopeKey) }
      else do
        let scope ← scopeWithout U scope target.conversationId
          (conversationId.getD (makeConversationId uuid)) order
        finish (state.draft.modifyScope target.scopeKey fun _ => scope)
          [targetKey scope.key scope.activeConversationId]

/-! ### Messages -/

structure AiConversationMessageInput where
  id : JsText
  role : AiConversationMessageRole
  content : JsText
  attachments : List AiConversationImageAttachmentInput
  toolActivity : Option AiConversationToolActivity

structure AiConversationMessageUpdate where
  role : Option AiConversationMessageRole
  content : Option JsText
  toolActivity : Option AiConversationToolActivity

/-- The target is written: it is the last one updated in its scope. -/
def MutableState.write (state : MutableState) (target : AiConversationTarget) (order : ℕ)
    (f : AiConversation → AiConversation) : MutableState :=
  state.modifyScope target.scopeKey fun scope =>
    { scope.modifyConversation target.conversationId fun conversation =>
        { f conversation with updatedOrder := order } with updatedOrder := order }

def pushMessage (message : AiConversationMessage) (conversation : AiConversation) :
    AiConversation :=
  let titled := message.role = .user && !conversation.titleInitialized
  { conversation with
    messages := conversation.messages ++ [message]
    title := if titled then deriveAiConversationTitle U message.content else conversation.title
    titleInitialized := conversation.titleInitialized || titled }

def appendAiConversationMessage (state : AiConversationState)
    (capturedTarget : AiConversationTarget) (input : AiConversationMessageInput) :
    Except AiConversationError AiConversationState := do
  assertTarget U capturedTarget
  match state.findConversation capturedTarget with
  | none => return state
  | some conversation =>
      if conversation.messages.any (·.id = input.id) then return state
      let _ ← assertOpaqueId U input.id
      throwWhen (maxAiImageAttachmentsPerMessage < input.attachments.length) .attachmentsInvalid
      throwWhen (!input.attachments.isEmpty && input.role ≠ .user) .attachmentsInvalid
      throwWhen (input.toolActivity.isSome && input.role ≠ .assistant) .toolActivityInvalid
      let toolActivity ← input.toolActivity.mapM (normalizeToolActivity U)
      let attachments ← input.attachments.mapM (normalizeAttachment U)
      let order := state.revision + 1
      let message : AiConversationMessage := {
        id := input.id
        role := input.role
        content := takeUtf8Prefix input.content maxAiConversationMessageBytes
        attachments
        toolActivity
        createdOrder := order }
      finish (state.draft.write capturedTarget order (pushMessage U message))
        [targetKey capturedTarget.scopeKey capturedTarget.conversationId]

def AiConversationMessage.rewritten (message : AiConversationMessage)
    (role : AiConversationMessageRole) (content : JsText)
    (toolActivity : Option AiConversationToolActivity) : AiConversationMessage :=
  { message with role, content, toolActivity }

/-- The tool activity of an update; without one the message keeps its own. -/
def updatedToolActivity (message : AiConversationMessage) :
    Option AiConversationToolActivity →
      Except AiConversationError (Option AiConversationToolActivity)
  | some activity => do
      let activity ← normalizeToolActivity U activity
      return some activity
  | none => return message.toolActivity

def updateAiConversationMessage (state : AiConversationState)
    (capturedTarget : AiConversationTarget) (messageId : JsText)
    (input : AiConversationMessageUpdate) :
    Except AiConversationError AiConversationState := do
  assertTarget U capturedTarget
  let _ ← assertOpaqueId U messageId
  match (state.findConversation capturedTarget).bind fun conversation =>
      conversation.messages.find? (·.id = messageId) with
  | none => return state
  | some message =>
      let role := input.role.getD message.role
      let content := takeUtf8Prefix (input.content.getD message.content)
        maxAiConversationMessageBytes
      let toolActivity ← updatedToolActivity U message input.toolActivity
      throwWhen (toolActivity.isSome && role ≠ .assistant) .toolActivityInvalid
      if message.role = role ∧ message.content = content ∧ message.toolActivity = toolActivity then
        return state
      let order := state.revision + 1
      finish (state.draft.write capturedTarget order
          (·.modifyMessage messageId (·.rewritten role content toolActivity)))
        [targetKey capturedTarget.scopeKey capturedTarget.conversationId]

def deleteAiConversationMessage (state : AiConversationState)
    (capturedTarget : AiConversationTarget) (messageId : JsText) :
    Except AiConversationError AiConversationState := do
  assertTarget U capturedTarget
  let _ ← assertOpaqueId U messageId
  match state.findConversation capturedTarget with
  | none => return state
  | some conversation =>
      if !conversation.messages.any (·.id = messageId) then return state
      finish (state.draft.write capturedTarget (state.revision + 1) fun conversation =>
          { conversation with messages := conversation.messages.filter (·.id ≠ messageId) })
        [targetKey capturedTarget.scopeKey capturedTarget.conversationId]

/-! ### Runs -/

/-- The calls of the workspace; `uuid` is what the random generator answers. -/
inductive AiConversationCall
  | activate (terminalScope : Option AiConversationTerminalScope)
      (options : AiConversationActivationOptions) (uuid : JsText)
  | create (scopeKey conversationId : Option JsText) (uuid : JsText)
  | switch (target : AiConversationTarget)
  | delete (target : AiConversationTarget) (conversationId : Option JsText) (uuid : JsText)
  | append (target : AiConversationTarget) (input : AiConversationMessageInput)
  | update (target : AiConversationTarget) (messageId : JsText) (input : AiConversationMessageUpdate)
  | deleteMessage (target : AiConversationTarget) (messageId : JsText)

namespace AiConversationCall

def apply (state : AiConversationState) :
    AiConversationCall → Except AiConversationError AiConversationState
  | activate terminalScope options uuid =>
      activateAiConversationScope U state terminalScope options uuid
  | create scopeKey conversationId uuid => createAiConversation U state scopeKey conversationId uuid
  | switch target => switchAiConversation U state target
  | delete target conversationId uuid => deleteAiConversation U state target conversationId uuid
  | append target input => appendAiConversationMessage U state target input
  | update target messageId input => updateAiConversationMessage U state target messageId input
  | deleteMessage target messageId => deleteAiConversationMessage U state target messageId

/-- The protected targets of a call lie in fewer scopes than there may be. -/
def FewProtected : AiConversationCall → Prop
  | activate _ options _ =>
      (options.protectedTargets.map AiConversationTarget.scopeKey).dedup.length ≤
        maxAiConversationScopes - 1
  | _ => True

end AiConversationCall

/-- The states that calls lead to; a call that throws leaves the state alone. -/
inductive Reachable : AiConversationState → Prop
  | start : Reachable createAiConversationState
  | call {state state' : AiConversationState} {call : AiConversationCall} :
      Reachable state → call.FewProtected → call.apply U state = .ok state' → Reachable state'

end Netcatty.Ai
