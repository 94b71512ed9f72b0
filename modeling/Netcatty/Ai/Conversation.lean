import Mathlib.Algebra.Group.Int.Defs
import Mathlib.Algebra.Ring.Nat
import Mathlib.Data.Fin.Basic
import Mathlib.Data.List.DropRight
import Netcatty.Library.Eviction

/-! # The conversations of the AI workspace

The conversations of the workspace are kept in scopes, one for each terminal, and in memory only.
Every call works on a draft of the state and ends with `finish`, which enforces the bounds: the
oldest messages of a conversation, the oldest conversations of a scope, the oldest scopes, whole
histories and then single messages beyond the budget of text, and the bodies of old images.

A text of the program is the list of its code points, where a surrogate that is not part of a pair
is a code point of its own.  What the Unicode tables say is a field of `UnicodeTables`; nothing is
assumed of it. -/

namespace Netcatty.Ai

open Eviction (oldest drain)

/-! ### Texts -/

abbrev CodePoint := Fin 0x110000

instance instNeZeroCodePoints : NeZero (0x110000 : ℕ) := ⟨by decide⟩

abbrev JsText := List CodePoint

theorem char_toNat_lt (c : Char) : c.toNat < 0x110000 := by
  have := c.valid
  simp only [UInt32.isValidChar, Nat.isValidChar, UInt32.toNat] at this
  have hval : c.toNat = c.val.toBitVec.toNat := rfl
  omega

def jsText (value : String) : JsText := value.toList.map fun c => ⟨c.toNat, char_toNat_lt c⟩

structure UnicodeTables where
  /-- `\p{Cf}` -/
  isFormat : CodePoint → Bool
  normalizeNfkc : JsText → JsText

def isControlPoint (c : CodePoint) : Bool := c.val < 0x20 || (0x7f ≤ c.val && c.val ≤ 0x9f)

def isSurrogate (c : CodePoint) : Bool := 0xd800 ≤ c.val && c.val ≤ 0xdfff

def isSpace (c : CodePoint) : Bool :=
  (0x09 ≤ c.val && c.val ≤ 0x0d) || (0x2000 ≤ c.val && c.val ≤ 0x200a) ||
    [0x20, 0xa0, 0x1680, 0x2028, 0x2029, 0x202f, 0x205f, 0x3000, 0xfeff].contains c.val

def trimEnd (value : JsText) : JsText := value.rdropWhile isSpace

def trimText (value : JsText) : JsText := trimEnd (value.dropWhile isSpace)

/-- The bytes of a code point in UTF-8; a surrogate is written as the replacement character. -/
def utf8Size (c : CodePoint) : ℕ :=
  if c.val < 0x80 then 1 else if c.val < 0x800 then 2 else if c.val < 0x10000 then 3 else 4

def byteLength (value : JsText) : ℕ := (value.map utf8Size).sum

def utf16Length (value : JsText) : ℕ := (value.map fun c => if c.val < 0x10000 then 1 else 2).sum

def takeWithin : ℕ → JsText → JsText
  | _, [] => []
  | maxBytes, c :: rest =>
      if maxBytes < utf8Size c then [] else c :: takeWithin (maxBytes - utf8Size c) rest

def takeUtf8Prefix (value : JsText) (maxBytes : ℕ) : JsText :=
  if byteLength value ≤ maxBytes then value else takeWithin maxBytes value

/-- A number; `none` where it is no integer. -/
abbrev JsNumber := Option ℤ

def isSafeInteger (n : JsNumber) : Bool := n.any fun n => -(2 ^ 53) < n && n < 2 ^ 53

/-! ### The state -/

def aiNoTerminalScopeKey : JsText := jsText "no-terminal"
def maxAiConversationScopes : ℕ := 12
def maxAiConversationsPerScope : ℕ := 8
def maxAiMessagesPerConversation : ℕ := 63
def maxAiConversationMessageBytes : ℕ := 128 * 1024
def maxAiConversationTitleBytes : ℕ := 96
def maxAiImageAttachmentsPerMessage : ℕ := 4
def maxAiImageAttachmentBytes : ℕ := 5 * 1024 * 1024
def maxAiToolCommandBytes : ℕ := 32 * 1024 - 1
def maxAiConversationImageParts : ℕ := 4
def maxAiConversationImageBytes : ℕ := 10 * 1024 * 1024
def maxAiConversationTotalTextBytes : ℕ := 384 * 1024
def maxAiScopeKeyBytes : ℕ := 2 * 1024
def maxAiOpaqueIdBytes : ℕ := 256
def maxAiAttachmentNameBytes : ℕ := 512

inductive AiConversationMessageRole
  | user | assistant | system | error
  deriving DecidableEq, Repr

inductive AiConversationToolActivityStatus
  | running | completed | timedOut | failed | rejected | cancelled
  deriving DecidableEq, Repr

inductive AiImageMimeType
  | png | jpeg | webp
  deriving DecidableEq, Repr

structure AiConversationToolActivity where
  id : JsText
  command : JsText
  status : AiConversationToolActivityStatus
  errorCode : Option JsText
  deriving DecidableEq

/-- The body of an old image is discarded before the rest of it. -/
structure AiConversationImageAttachment where
  id : JsText
  name : JsText
  mimeType : AiImageMimeType
  size : ℕ
  data : Option JsText
  deriving DecidableEq

structure AiConversationMessage where
  id : JsText
  role : AiConversationMessageRole
  content : JsText
  attachments : List AiConversationImageAttachment
  toolActivity : Option AiConversationToolActivity
  createdOrder : ℕ
  deriving DecidableEq

structure AiConversation where
  id : JsText
  title : JsText
  titleInitialized : Bool
  messages : List AiConversationMessage
  createdOrder : ℕ
  updatedOrder : ℕ
  deriving DecidableEq

structure AiConversationScopeState where
  key : JsText
  activeConversationId : JsText
  conversations : List AiConversation
  createdOrder : ℕ
  updatedOrder : ℕ
  deriving DecidableEq

structure AiConversationState where
  activeScopeKey : JsText
  scopes : List AiConversationScopeState
  revision : ℕ
  totalTextBytes : ℕ
  deriving DecidableEq

structure MutableState where
  activeScopeKey : JsText
  scopes : List AiConversationScopeState
  revision : ℕ
  deriving DecidableEq

structure AiConversationTarget where
  scopeKey : JsText
  conversationId : JsText
  deriving DecidableEq

inductive AiConversationError
  | scopeKeyInvalid | idInvalid | routeIdInvalid | attachmentNameInvalid | generationInvalid
  | idDuplicate | attachmentsInvalid | toolActivityInvalid | boundInvariant
  deriving DecidableEq, Repr

/-! ### Sizes -/

def AiConversationMessage.textBytes (message : AiConversationMessage) : ℕ :=
  byteLength message.content + byteLength ((message.toolActivity.map (·.command)).getD [])

def AiConversation.textBytes (conversation : AiConversation) : ℕ :=
  byteLength conversation.title + (conversation.messages.map AiConversationMessage.textBytes).sum

def textBytes (scopes : List AiConversationScopeState) : ℕ :=
  (scopes.map fun scope => (scope.conversations.map AiConversation.textBytes).sum).sum

/-- The images of a message that still have a body, with their positions. -/
def AiConversationMessage.retainedImages (message : AiConversationMessage) :
    List (AiConversationImageAttachment × ℕ) :=
  message.attachments.zipIdx.filter fun image => image.1.data.any (· ≠ [])

/-- An image that still has a body. -/
structure RetainedImage where
  target : AiConversationTarget
  message : AiConversationMessage
  index : ℕ
  attachment : AiConversationImageAttachment

def retainedImageContent (scopes : List AiConversationScopeState) : List RetainedImage :=
  scopes.flatMap fun scope => scope.conversations.flatMap fun conversation =>
    conversation.messages.flatMap fun message => message.retainedImages.map fun image =>
      ⟨⟨scope.key, conversation.id⟩, message, image.2, image.1⟩

def imageBytes (scopes : List AiConversationScopeState) : ℕ :=
  ((retainedImageContent scopes).map fun image => image.attachment.size).sum

def freezeState (state : MutableState) : AiConversationState where
  activeScopeKey := state.activeScopeKey
  scopes := state.scopes
  revision := state.revision
  totalTextBytes := textBytes state.scopes

def toMutable (state : AiConversationState) : MutableState where
  activeScopeKey := state.activeScopeKey
  scopes := state.scopes
  revision := state.revision

/-! ### Changes of a draft -/

/-- The first entry that `find` would return is changed. -/
def modifyFirst {α : Type} (p : α → Bool) (f : α → α) : List α → List α
  | [] => []
  | a :: rest => if p a then f a :: rest else a :: modifyFirst p f rest

def MutableState.modifyScope (state : MutableState) (key : JsText)
    (f : AiConversationScopeState → AiConversationScopeState) : MutableState :=
  { state with scopes := modifyFirst (·.key = key) f state.scopes }

def AiConversationScopeState.modifyConversation (scope : AiConversationScopeState) (id : JsText)
    (f : AiConversation → AiConversation) : AiConversationScopeState :=
  { scope with conversations := modifyFirst (·.id = id) f scope.conversations }

def MutableState.modifyConversation (state : MutableState) (target : AiConversationTarget)
    (f : AiConversation → AiConversation) : MutableState :=
  state.modifyScope target.scopeKey (·.modifyConversation target.conversationId f)

def targetKey (scopeKey conversationId : JsText) : JsText := scopeKey ++ 0 :: conversationId

abbrev ProtectedTargets := List JsText

def activeTargetKey (state : MutableState) : Option JsText :=
  (state.scopes.find? (·.key = state.activeScopeKey)).map fun scope =>
    targetKey scope.key scope.activeConversationId

def latest (conversations : List AiConversation) : Option AiConversation :=
  oldest (fun left right => right.updatedOrder ≤ left.updatedOrder) conversations

/-- The conversation leaves its scope; where it was the active one, the last updated one is. -/
def AiConversationScopeState.removeConversation (scope : AiConversationScopeState) (id : JsText) :
    AiConversationScopeState :=
  let conversations := scope.conversations.filter (·.id ≠ id)
  { scope with
    conversations
    activeConversationId :=
      if scope.activeConversationId = id then
        ((latest conversations).map (·.id)).getD scope.activeConversationId
      else scope.activeConversationId }

/-- A scope without conversations is removed as well. -/
def removeConversation (state : MutableState) (target : AiConversationTarget) : MutableState :=
  let state := state.modifyScope target.scopeKey (·.removeConversation target.conversationId)
  { state with
    scopes := state.scopes.filter fun scope =>
      scope.key ≠ target.scopeKey || !scope.conversations.isEmpty }

def AiConversation.isOlder (left right : AiConversation) : Bool :=
  left.updatedOrder < right.updatedOrder ||
    (left.updatedOrder = right.updatedOrder && left.createdOrder ≤ right.createdOrder)

def AiConversationScopeState.isOlder (left right : AiConversationScopeState) : Bool :=
  left.updatedOrder < right.updatedOrder ||
    (left.updatedOrder = right.updatedOrder && left.createdOrder ≤ right.createdOrder)

/-! ### Bounds -/

def isOverConversations (scope : AiConversationScopeState) : Bool :=
  maxAiConversationsPerScope < scope.conversations.length

def evictConversation (protectedTargets : ProtectedTargets) (scope : AiConversationScopeState) :
    Option AiConversationScopeState :=
  let candidates := scope.conversations.filter fun conversation =>
    conversation.id ≠ scope.activeConversationId &&
      !protectedTargets.contains (targetKey scope.key conversation.id)
  (oldest AiConversation.isOlder candidates).map fun conversation =>
    scope.removeConversation conversation.id

def AiConversation.dropOldMessages (conversation : AiConversation) : AiConversation :=
  { conversation with
    messages := conversation.messages.drop
      (conversation.messages.length - maxAiMessagesPerConversation) }

def boundScope (protectedTargets : ProtectedTargets) (scope : AiConversationScopeState) :
    Except AiConversationError AiConversationScopeState :=
  let scope := { scope with
    conversations := scope.conversations.map AiConversation.dropOldMessages }
  let scope := drain isOverConversations (evictConversation protectedTargets)
    scope.conversations.length scope
  if isOverConversations scope then .error .boundInvariant else .ok scope

def isOverScopes (state : MutableState) : Bool := maxAiConversationScopes < state.scopes.length

def evictScope (protectedTargets : ProtectedTargets) (state : MutableState) :
    Option MutableState :=
  let candidates := state.scopes.filter fun scope =>
    scope.key ≠ state.activeScopeKey &&
      !protectedTargets.any fun key => (scope.key ++ [0]).isPrefixOf key
  (oldest AiConversationScopeState.isOlder candidates).map fun scope =>
    { state with scopes := state.scopes.filter (·.key ≠ scope.key) }

def isOverText (state : MutableState) : Bool :=
  maxAiConversationTotalTextBytes < textBytes state.scopes

def oldestRemovableConversation (protectedTargets : ProtectedTargets) (state : MutableState) :
    Option (AiConversationScopeState × AiConversation) :=
  let candidates := state.scopes.flatMap fun scope =>
    (scope.conversations.filter fun conversation =>
      some (targetKey scope.key conversation.id) ≠ activeTargetKey state &&
        !protectedTargets.contains (targetKey scope.key conversation.id)).map (scope, ·)
  oldest (fun left right => left.2.isOlder right.2) candidates

/-- A whole history that is neither visible nor protected. -/
def evictHistory (protectedTargets : ProtectedTargets) (state : MutableState) :
    Option MutableState :=
  (oldestRemovableConversation protectedTargets state).map fun (scope, conversation) =>
    removeConversation state ⟨scope.key, conversation.id⟩

/-- The first messages of the conversations. -/
def firstMessages (state : MutableState) : List (AiConversationTarget × AiConversationMessage) :=
  state.scopes.flatMap fun scope => scope.conversations.flatMap fun conversation =>
    (conversation.messages.head?.map fun message => (⟨scope.key, conversation.id⟩, message)).toList

def dropOldestMessage (state : MutableState) : Option MutableState :=
  (oldest (fun left right => left.2.createdOrder ≤ right.2.createdOrder) (firstMessages state)).map
    fun (target, _) => state.modifyConversation target fun conversation =>
      { conversation with messages := conversation.messages.tail }

def isOverImages (state : MutableState) : Bool :=
  maxAiConversationImageParts < (retainedImageContent state.scopes).length ||
    maxAiConversationImageBytes < imageBytes state.scopes

def AiConversationMessage.discardData (message : AiConversationMessage) (index : ℕ) :
    AiConversationMessage :=
  { message with
    attachments := message.attachments.modify index fun attachment =>
      { attachment with data := none } }

def AiConversation.modifyMessage (conversation : AiConversation) (id : JsText)
    (f : AiConversationMessage → AiConversationMessage) : AiConversation :=
  { conversation with messages := modifyFirst (·.id = id) f conversation.messages }

def discardOldestImage (state : MutableState) : Option MutableState :=
  (oldest (fun left right => left.message.createdOrder ≤ right.message.createdOrder)
    (retainedImageContent state.scopes)).map fun image =>
      state.modifyConversation image.target
        (·.modifyMessage image.message.id (·.discardData image.index))

def conversationCount (state : MutableState) : ℕ :=
  (state.scopes.map fun scope => scope.conversations.length).sum

def messageCount (state : MutableState) : ℕ :=
  (state.scopes.map fun scope =>
    (scope.conversations.map fun conversation => conversation.messages.length).sum).sum

def enforceBounds (state : MutableState) (protectedTargets : ProtectedTargets) :
    Except AiConversationError MutableState := do
  let scopes ← state.scopes.mapM (boundScope protectedTargets)
  let state := { state with scopes }
  let state := drain isOverScopes (evictScope protectedTargets) state.scopes.length state
  if isOverScopes state then throw .boundInvariant
  let state := drain isOverText (evictHistory protectedTargets) (conversationCount state) state
  let state := drain isOverText dropOldestMessage (messageCount state) state
  if isOverText state then throw .boundInvariant
  return drain isOverImages discardOldestImage (retainedImageContent state.scopes).length state

def finish (state : MutableState) (protectedTargets : ProtectedTargets := []) :
    Except AiConversationError AiConversationState :=
  (enforceBounds state protectedTargets).map freezeState

end Netcatty.Ai
