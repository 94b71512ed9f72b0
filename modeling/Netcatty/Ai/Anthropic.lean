import Netcatty.Ai.Streaming

/-! # Server-Sent Events of the Anthropic Messages API

`AnthropicSseDecoder` follows the events of a message: it starts, its content blocks open, grow and
close, and it stops.  Everything else is refused.  The loop over a chunk is the same as that of
`SseDecoder`; the derived decoder of an event's envelope is the parameter `fromStr`.

A chunk that is refused takes the deltas of the same chunk with it.  So the cut of a stream into
chunks shows in the delivered text exactly where a line is refused after some text
(`stream_cut_iff`), and `delta_lost` cuts one stream of each provider in two ways. -/

namespace Netcatty.Ai

open LineStream
open Serial (decodeUtf8 encodeUtf8 isWhitespace trim)
open Vault (Text utf8Len)

def maxAnthropicContentBlocks : ℕ := 64
def maxAnthropicEventNameBytes : ℕ := 128

structure AnthropicMessageMetadata where
  kind : Text
  role : Text

structure AnthropicContentBlock where
  kind : Text
  text : Option Text

structure AnthropicContentDelta where
  kind : Option Text
  text : Option Text

structure AnthropicStreamEnvelope where
  kind : Text
  index : Option ℕ
  message : Option AnthropicMessageMetadata
  contentBlock : Option AnthropicContentBlock
  delta : Option AnthropicContentDelta

/-- What the decoder keeps between two lines.  A block is 0 before it opens, 1 while it is open and
2 after it has closed. -/
structure AnthropicSseDecoder where
  outputBytes : ℕ
  eventName : Bytes
  data : Bytes
  sawJsonEvent : Bool
  sawNonWhitespace : Bool
  messageStarted : Bool
  blockStates : Fin maxAnthropicContentBlocks → UInt8
  done : Bool

def AnthropicSseDecoder.default : AnthropicSseDecoder :=
  ⟨0, [], [], false, false, false, fun _ => 0, false⟩

namespace AnthropicSseDecoder

/-- A step of the decoder: its state after it and the events, or the error. -/
abbrev Step := Except AiStreamErrorCode (AnthropicSseDecoder × List AiStreamEvent)

def checkedIndex (index : Option ℕ) :
    Except AiStreamErrorCode (Fin maxAnthropicContentBlocks) :=
  match index with
  | some i => if h : i < maxAnthropicContentBlocks then .ok ⟨i, h⟩ else .error .responseInvalid
  | none => .error .responseInvalid

def hasOpenBlocks (d : AnthropicSseDecoder) : Bool :=
  (List.finRange maxAnthropicContentBlocks).any fun i => d.blockStates i == 1

def setBlock (d : AnthropicSseDecoder) (index : Fin maxAnthropicContentBlocks) (state : UInt8) :
    AnthropicSseDecoder :=
  { d with blockStates := fun i => if i = index then state else d.blockStates i }

def emitText (d : AnthropicSseDecoder) (text : Text) : Step :=
  if text.isEmpty then .ok (d, [])
  else if text.contains '\x00' then .error .responseInvalid
  else if maxAiResponseBytes < d.outputBytes + utf8Len text then .error .responseTooLarge
  else .ok ({ d with
    outputBytes := d.outputBytes + utf8Len text
    sawNonWhitespace := d.sawNonWhitespace || text.any fun c => !isWhitespace c }, [.delta text])

def acceptMessageStart (d : AnthropicSseDecoder) (payload : AnthropicStreamEnvelope) : Step :=
  match payload.message with
  | none => .error .responseInvalid
  | some message =>
      if d.messageStarted || message.kind ≠ "message".toList || message.role ≠ "assistant".toList ||
          (List.finRange maxAnthropicContentBlocks).any (fun i => d.blockStates i != 0) then
        .error .responseInvalid
      else .ok ({ d with messageStarted := true }, [])

def acceptContentBlockStart (d : AnthropicSseDecoder) (payload : AnthropicStreamEnvelope) : Step :=
  if !d.messageStarted then .error .responseInvalid
  else do
    let index ← checkedIndex payload.index
    match payload.contentBlock with
    | none => .error .responseInvalid
    | some block =>
        if d.blockStates index != 0 || block.kind ≠ "text".toList then .error .responseInvalid
        else match block.text with
          | none => .error .responseInvalid
          | some text => (d.setBlock index 1).emitText text

def acceptContentBlockDelta (d : AnthropicSseDecoder) (payload : AnthropicStreamEnvelope) :
    Step := do
  let index ← checkedIndex payload.index
  match payload.delta with
  | none => .error .responseInvalid
  | some delta =>
      if !d.messageStarted || d.blockStates index != 1 || delta.kind ≠ some "text_delta".toList then
        .error .responseInvalid
      else match delta.text with
        | none => .error .responseInvalid
        | some text => d.emitText text

def acceptContentBlockStop (d : AnthropicSseDecoder) (payload : AnthropicStreamEnvelope) :
    Step := do
  let index ← checkedIndex payload.index
  if !d.messageStarted || d.blockStates index != 1 then .error .responseInvalid
  else .ok (d.setBlock index 2, [])

/-- A message whose blocks are all closed. -/
def acceptMessageDelta (d : AnthropicSseDecoder) : Step :=
  if !d.messageStarted || d.hasOpenBlocks then .error .responseInvalid else .ok (d, [])

def acceptMessageStop (d : AnthropicSseDecoder) : Step :=
  if !d.messageStarted || d.hasOpenBlocks then .error .responseInvalid
  else if !d.sawNonWhitespace then .error .emptyResponse
  else .ok ({ d with done := true }, [.done])

/-- The kinds of an envelope that are well formed. -/
def isKind (kind : Text) : Bool :=
  !kind.isEmpty && decide (utf8Len kind ≤ maxAnthropicEventNameBytes) &&
    kind.all fun c => ('a' ≤ c && c ≤ 'z') || ('0' ≤ c && c ≤ '9') || c == '_'

def acceptEnvelope (d : AnthropicSseDecoder) (payload : AnthropicStreamEnvelope) : Step :=
  if payload.kind = "message_start".toList then d.acceptMessageStart payload
  else if payload.kind = "content_block_start".toList then d.acceptContentBlockStart payload
  else if payload.kind = "content_block_delta".toList then d.acceptContentBlockDelta payload
  else if payload.kind = "content_block_stop".toList then d.acceptContentBlockStop payload
  else if payload.kind = "message_delta".toList then d.acceptMessageDelta
  else if payload.kind = "message_stop".toList then d.acceptMessageStop
  else if payload.kind = "ping".toList then .ok (d, [])
  else if payload.kind = "error".toList then .error .requestFailed
  else .error .responseInvalid

variable (fromStr : Text → Option AnthropicStreamEnvelope)

def dispatchEvent (self : AnthropicSseDecoder) : Step :=
  let d := { self with data := [], eventName := [] }
  match decodeUtf8 self.data with
  | none => .error .responseInvalid
  | some text =>
      if (trim text).isEmpty then .ok (d, [])
      else match fromStr text with
        | none => .error .responseInvalid
        | some payload =>
            if !isKind payload.kind then .error .responseInvalid
            else if !self.eventName.isEmpty && decodeUtf8 self.eventName ≠ some payload.kind then
              .error .responseInvalid
            else acceptEnvelope { d with sawJsonEvent := true } payload

def finishLine (d : AnthropicSseDecoder) (line : Line) : Step :=
  if line.isEmpty then
    if d.data.isEmpty then .ok ({ d with eventName := [] }, []) else d.dispatchEvent fromStr
  else if (decodeUtf8 line).isNone then .error .responseInvalid
  else if line.head? = some 58 then .ok (d, [])
  else
    let field := (splitField line).1
    let value := stripSpace (splitField line).2
    if field = ascii "data" then .ok ({ d with data := appendData d.data value }, [])
    else if field = ascii "event" then
      if value.isEmpty || decide (maxAnthropicEventNameBytes < value.length) ||
          value.any (fun byte => byte < 32 || byte == 127) then
        .error .responseInvalid
      else .ok ({ d with eventName := value }, [])
    else .ok (d, [])

def finish (b : Buffer AnthropicSseDecoder) : Except AiStreamErrorCode Unit :=
  if b.state.done then .ok ()
  else if !b.line.isEmpty || !b.state.eventName.isEmpty || !b.state.data.isEmpty ||
      b.state.sawJsonEvent then
    .error .responseInvalid
  else .error .emptyResponse

end AnthropicSseDecoder

/-- The decoder of an Anthropic stream. -/
def anthropicProtocol (fromStr : Text → Option AnthropicStreamEnvelope) :
    LineProtocol AnthropicSseDecoder AiStreamErrorCode AiStreamEvent where
  finishLine := AnthropicSseDecoder.finishLine fromStr
  done := AnthropicSseDecoder.done
  finish := AnthropicSseDecoder.finish
  maxBytes := maxAiResponseBytes
  tooLarge := .responseTooLarge

/-! ### The cut of a stream -/

/-- Two cuts of an OpenAI-compatible stream deliver the same text and end in the same way. -/
def SseCutIndependent (fromStr : Text → Option ProviderStreamResponse) (bytes : Bytes) : Prop :=
  (sseProtocol fromStr).CutIndependent AiStreamEvent.text ⟨0, .default, [], false⟩ bytes

/-- Two cuts of an Anthropic stream deliver the same text and end in the same way. -/
def AnthropicCutIndependent (fromStr : Text → Option AnthropicStreamEnvelope) (bytes : Bytes) :
    Prop :=
  (anthropicProtocol fromStr).CutIndependent AiStreamEvent.text ⟨0, .default, [], false⟩ bytes

/-- **The cut of a stream shows exactly where a line is refused after some text**, for both
providers. -/
theorem stream_cut_iff (parseChunk : Text → Option ProviderStreamResponse)
    (parseEnvelope : Text → Option AnthropicStreamEnvelope) (bytes : Bytes)
    (h : bytes.length ≤ maxAiResponseBytes) :
    (SseCutIndependent parseChunk bytes ↔
      ¬ (sseProtocol parseChunk).RefusedAfterText AiStreamEvent.text .default (lines bytes)) ∧
    (AnthropicCutIndependent parseEnvelope bytes ↔
      ¬ (anthropicProtocol parseEnvelope).RefusedAfterText AiStreamEvent.text .default
        (lines bytes)) :=
  ⟨LineProtocol.cutIndependent_iff h, LineProtocol.cutIndependent_iff h⟩

/-- A chunk object whose delta says `hi`. -/
def hiChunk : Text := "\x7b\"choices\":[\x7b\"delta\":\x7b\"content\":\"hi\"\x7d\x7d]\x7d".toList

/-- The decoder of chunk objects at `hiChunk` and at texts that are no JSON. -/
def parseHiChunk (text : Text) : Option ProviderStreamResponse :=
  if text = hiChunk then some ⟨[⟨some ⟨some "hi".toList⟩, none, none⟩]⟩ else none

/-- The start of a message. -/
def startEnvelope : Text :=
  "\x7b\"type\":\"message_start\",".toList ++
    "\"message\":\x7b\"type\":\"message\",\"role\":\"assistant\"\x7d\x7d".toList

/-- A block that opens with `hi`. -/
def hiEnvelope : Text :=
  "\x7b\"type\":\"content_block_start\",\"index\":0,".toList ++
    "\"content_block\":\x7b\"type\":\"text\",\"text\":\"hi\"\x7d\x7d".toList

/-- The decoder of envelopes at these two and at texts that are no JSON. -/
def parseHiEnvelope (text : Text) : Option AnthropicStreamEnvelope :=
  if text = startEnvelope then
    some ⟨"message_start".toList, none,
      some ⟨"message".toList, "assistant".toList⟩, none, none⟩
  else if text = hiEnvelope then
    some ⟨"content_block_start".toList, some 0, none,
      some ⟨"text".toList, some "hi".toList⟩, none⟩
  else none

/-- A stream with one event for each text. -/
def dataStream (texts : List Text) : Bytes :=
  texts.flatMap fun text => ascii "data: " ++ encodeUtf8 text ++ [lf, lf]

theorem stream_cut_iff_hi :
    (dataStream [hiChunk, "[DONE]".toList]).length ≤ maxAiResponseBytes ∧
      SseCutIndependent parseHiChunk (dataStream [hiChunk, "[DONE]".toList]) := by
  have hlen : (dataStream [hiChunk, "[DONE]".toList]).length ≤ maxAiResponseBytes := by
    decide
  refine ⟨hlen, (stream_cut_iff parseHiChunk parseHiEnvelope _ hlen).1.mpr ?_⟩
  rw [LineProtocol.refusedAfterText_iff]
  rintro ⟨⟨e, he⟩, -⟩
  have hok : ((sseProtocol parseHiChunk).readLines .default
      (lines (dataStream [hiChunk, "[DONE]".toList]))).2 = .ok ⟨[], true, true, true⟩ := by
    decide
  rw [hok] at he
  cases he

/-- One chunk loses the delta before a refused line; with a cut before that line it is delivered. -/
theorem delta_lost :
    (dataStream [hiChunk, "not-json".toList]).length ≤ maxAiResponseBytes ∧
    ¬ SseCutIndependent parseHiChunk (dataStream [hiChunk, "not-json".toList]) ∧
    (dataStream [startEnvelope, hiEnvelope, "not-json".toList]).length ≤ maxAiResponseBytes ∧
    ¬ AnthropicCutIndependent parseHiEnvelope
      (dataStream [startEnvelope, hiEnvelope, "not-json".toList]) := by
  refine ⟨by decide, fun h => ?_, by decide +kernel, fun h => ?_⟩
  · have hone : (sseProtocol parseHiChunk).deliver ⟨0, .default, [], false⟩
        [dataStream [hiChunk, "not-json".toList]] = ([], .error .responseInvalid) := by
      decide +kernel
    have htwo : (sseProtocol parseHiChunk).deliver ⟨0, .default, [], false⟩
        [dataStream [hiChunk], dataStream ["not-json".toList]] =
          ([.delta "hi".toList], .error .responseInvalid) := by
      decide +kernel
    have hsame := h _ _ _ _ _ _ (by decide) (by decide)
      (LineProtocol.delivers_iff.mpr hone) (LineProtocol.delivers_iff.mpr htwo)
    exact absurd hsame.1 (by decide)
  · have hone : (anthropicProtocol parseHiEnvelope).deliver ⟨0, .default, [], false⟩
        [dataStream [startEnvelope, hiEnvelope, "not-json".toList]] =
          ([], .error .responseInvalid) := by
      decide +kernel
    have htwo : (anthropicProtocol parseHiEnvelope).deliver ⟨0, .default, [], false⟩
        [dataStream [startEnvelope, hiEnvelope], dataStream ["not-json".toList]] =
          ([.delta "hi".toList], .error .responseInvalid) := by
      decide +kernel
    have hsame := h _ _ _ _ _ _ (by decide +kernel) (by decide +kernel)
      (LineProtocol.delivers_iff.mpr hone) (LineProtocol.delivers_iff.mpr htwo)
    exact absurd hsame.1 (by decide)

end Netcatty.Ai
