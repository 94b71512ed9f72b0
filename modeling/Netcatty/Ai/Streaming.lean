import Netcatty.Ai.Turn
import Netcatty.Library.LineStream

/-! # Server-Sent Events of an OpenAI-compatible provider

`SseDecoder` decodes the lines of a streamed chat completion: the `data` lines of an event are
joined, and an empty line dispatches the event.  Its line buffer, its byte count and the loop over a
chunk are those of `LineDecoder`; `AiChatStream::next_event` is `nextEvent` of `sseProtocol`.  The
derived decoder of a chunk object is the parameter `fromStr`. -/

namespace Netcatty.Ai

open LineStream
open Serial (decodeUtf8 isWhitespace trim)
open Vault (Text)

def maxAiResponseBytes : ℕ := 2 * 1024 * 1024

/-- The codes of `AiError` that come from a streamed response. -/
inductive AiStreamErrorCode
  | emptyResponse | requestFailed | responseInvalid | responseTooLarge
  deriving DecidableEq, Repr

inductive AiStreamEvent
  | delta (content : Text)
  | done
  deriving DecidableEq

/-- The text that an event adds to the answer. -/
def AiStreamEvent.text : AiStreamEvent → Text
  | .delta content => content
  | .done => []

structure ProviderStreamMessage where
  content : Option Text

structure ProviderStreamChoice where
  delta : Option ProviderStreamMessage
  message : Option ProviderStreamMessage
  text : Option Text

structure ProviderStreamResponse where
  choices : List ProviderStreamChoice

/-- What the decoder keeps between two lines. -/
structure SseDecoder where
  data : Bytes
  sawJsonEvent : Bool
  sawNonWhitespace : Bool
  done : Bool
  deriving DecidableEq

def SseDecoder.default : SseDecoder := ⟨[], false, false, false⟩

/-- The field of a line and what follows its first colon. -/
def splitField (line : Bytes) : Bytes × Bytes :=
  match line.idxOf? 58 with
  | some separator => (line.take separator, line.drop (separator + 1))
  | none => (line, [])

/-- One space after the colon is no part of the value. -/
def stripSpace : Bytes → Bytes
  | 32 :: value => value
  | value => value

/-- The bytes of an ASCII literal. -/
def ascii (s : String) : Bytes := s.toList.map fun c => c.toUInt8

/-- A further `data` line of an event. -/
def appendData (data value : Bytes) : Bytes :=
  (if data.isEmpty then data else data ++ [lf]) ++ value

namespace SseDecoder

variable (fromStr : Text → Option ProviderStreamResponse)

/-- The content of the first choice: its delta, else its message, else its text. -/
def choiceContent (choice : ProviderStreamChoice) : Option Text :=
  ((choice.delta.bind (·.content)).orElse fun _ => choice.message.bind (·.content)).orElse
    fun _ => choice.text

/-- A chunk object has been decoded. -/
def acceptPayload (d : SseDecoder) (payload : ProviderStreamResponse) :
    SseDecoder × List AiStreamEvent :=
  let d := { d with sawJsonEvent := true }
  match payload.choices.head?.bind choiceContent with
  | none => (d, [])
  | some content =>
      if content.isEmpty then (d, [])
      else if content.any fun c => !isWhitespace c then
        ({ d with sawNonWhitespace := true }, [.delta content])
      else (d, [.delta content])

def dispatchEvent (self : SseDecoder) :
    Except AiStreamErrorCode (SseDecoder × List AiStreamEvent) :=
  let d := { self with data := [] }
  match decodeUtf8 self.data with
  | none => .error .responseInvalid
  | some text =>
      let trimmed := trim text
      if trimmed.isEmpty then .ok (d, [])
      else if trimmed = "[DONE]".toList then
        if d.sawNonWhitespace then .ok ({ d with done := true }, [.done])
        else .error .emptyResponse
      else match fromStr text with
        | none => .error .responseInvalid
        | some payload => .ok (acceptPayload d payload)

def finishLine (d : SseDecoder) (line : Line) :
    Except AiStreamErrorCode (SseDecoder × List AiStreamEvent) :=
  if line.isEmpty then
    if d.data.isEmpty then .ok (d, []) else d.dispatchEvent fromStr
  else if (decodeUtf8 line).isNone then .error .responseInvalid
  else if line.head? = some 58 then .ok (d, [])
  else if (splitField line).1 = ascii "data" then
    .ok ({ d with data := appendData d.data (stripSpace (splitField line).2) }, [])
  else .ok (d, [])

def finish (b : Buffer SseDecoder) : Except AiStreamErrorCode Unit :=
  if b.state.done then .ok ()
  else if !b.line.isEmpty || !b.state.data.isEmpty || b.state.sawJsonEvent then
    .error .responseInvalid
  else .error .emptyResponse

end SseDecoder

/-- The decoder of an OpenAI-compatible stream. -/
def sseProtocol (fromStr : Text → Option ProviderStreamResponse) :
    LineProtocol SseDecoder AiStreamErrorCode AiStreamEvent where
  finishLine := SseDecoder.finishLine fromStr
  done := SseDecoder.done
  finish := SseDecoder.finish
  maxBytes := maxAiResponseBytes
  tooLarge := .responseTooLarge

end Netcatty.Ai
