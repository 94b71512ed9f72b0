import Netcatty.Ai.History

/-! # Safety of turns

Whatever the provider sends and in whatever order the caller acts, a turn accepts no more tool calls
than its budget, opens none that is blocked, observed or without a terminal, and keeps its history
paired: a message with tool calls is followed by the result of each (`agent_turn_safe`). -/

namespace Netcatty.Ai

open Vault (Text)

/-! ### Histories -/

/-- The results that follow a message with tool calls: one for each id, in order. -/
structure AnsweredBy (message : ProviderMessage) (results : List ProviderMessage) : Prop where
  role : message.role = .assistant
  nodup : (message.toolCalls.map (·.id)).Nodup
  ids : results.map (·.toolCallId) = message.toolCalls.map fun call => some call.id
  results : ∀ result ∈ results, result.role = .tool ∧ result.toolCalls = []

/-- **Every message with tool calls is followed by their results**, and by no other result. -/
def AllAnswered (messages : List ProviderMessage) : Prop :=
  ∀ before message after, messages = before ++ message :: after → message.toolCalls ≠ [] →
    ∃ results rest, after = results ++ rest ∧ AnsweredBy message results ∧
      ∀ other ∈ rest.head?, other.role ≠ .tool

/-- A history of plain messages and of calls with their results. -/
inductive Paired : List ProviderMessage → Prop
  | nil : Paired []
  | plain {messages : List ProviderMessage} (message : ProviderMessage) (h : Paired messages)
      (hcalls : message.toolCalls = []) (hrole : message.role ≠ .tool) :
      Paired (messages ++ [message])
  | answered {messages : List ProviderMessage} (message : ProviderMessage)
      (results : List ProviderMessage) (h : Paired messages)
      (hresults : AnsweredBy message results) : Paired (messages ++ message :: results)

/-- A block behind a paired history does not start with a result. -/
theorem AllAnswered.append {messages block : List ProviderMessage} {first : ProviderMessage}
    {rest : List ProviderMessage} (h : AllAnswered messages) (hblock : block = first :: rest)
    (hfirst : first.role ≠ .tool)
    (hown : ∀ before message after, block = before ++ message :: after → message.toolCalls ≠ [] →
      ∃ results tail, after = results ++ tail ∧ AnsweredBy message results ∧
        ∀ other ∈ tail.head?, other.role ≠ .tool) : AllAnswered (messages ++ block) := by
  intro before message after heq hcalls
  rcases List.append_eq_append_iff.mp heq with ⟨skipped, hbefore, hskipped⟩ | ⟨kept, hkept, hafter⟩
  · obtain ⟨results, tail, hafter, hanswered, htail⟩ := hown skipped message after hskipped hcalls
    exact ⟨results, tail, hafter, hanswered, htail⟩
  · cases kept with
    | nil =>
        rw [List.nil_append] at hafter
        exact hown [] message after hafter.symm hcalls
    | cons head kept =>
        rw [List.cons_append, List.cons.injEq] at hafter
        obtain ⟨rfl, rfl⟩ := hafter
        obtain ⟨results, tail, hkept', hanswered, htail⟩ := h before message kept hkept hcalls
        refine ⟨results, tail ++ block, by rw [hkept', List.append_assoc], hanswered, ?_⟩
        intro other hother
        cases tail with
        | nil =>
            rw [List.nil_append, hblock, List.head?_cons, Option.mem_some_iff] at hother
            exact hother ▸ hfirst
        | cons other' tail => exact htail other hother

theorem Paired.allAnswered {messages : List ProviderMessage} (h : Paired messages) :
    AllAnswered messages := by
  induction h with
  | nil =>
      intro before message after heq
      cases before <;> cases heq
  | plain message h hcalls hrole ih =>
      refine ih.append rfl hrole fun before other after heq hother => ?_
      cases before with
      | nil =>
          cases heq
          exact absurd hcalls hother
      | cons head before => simp at heq
  | answered message results h hresults ih =>
      refine ih.append rfl (by rw [hresults.role]; decide) fun before other after heq hother => ?_
      cases before with
      | nil =>
          cases heq
          exact ⟨results, [], (List.append_nil _).symm, hresults, nofun⟩
      | cons head before =>
          rw [List.cons_append, List.cons.injEq] at heq
          have hmem : other ∈ results := heq.2 ▸ List.mem_append_right _ List.mem_cons_self
          exact absurd (hresults.results other hmem).2 hother

/-- The tool calls in a history. -/
def toolCallCount (messages : List ProviderMessage) : ℕ :=
  (messages.map (·.toolCalls.length)).sum

theorem toolCallCount_append (messages others : List ProviderMessage) :
    toolCallCount (messages ++ others) = toolCallCount messages + toolCallCount others := by
  simp [toolCallCount]

theorem answeredBy_of_answers {calls : List ProviderToolCall} {results : List ProviderMessage}
    (content : Option Text) (hnodup : (calls.map (·.id)).Nodup)
    (h : AiAgentTurn.Answers calls results) :
    AnsweredBy (.assistantTools calls content) results ∧ toolCallCount results = 0 := by
  obtain ⟨answer, rfl⟩ := h
  refine ⟨⟨rfl, hnodup, ?_, fun result hresult => ?_⟩, ?_⟩
  · simp [ProviderMessage.toolResult, ProviderMessage.assistantTools]
  · obtain ⟨call, -, rfl⟩ := List.mem_map.mp hresult
    exact ⟨rfl, rfl⟩
  · unfold toolCallCount
    induction calls with
    | nil => rfl
    | cons call calls ih =>
        simpa [ProviderMessage.toolResult] using ih (List.nodup_cons.mp hnodup).2

/-- The last message is the one call whose result is missing. -/
def AwaitsResult (messages : List ProviderMessage) (pending : AiTerminalToolCall) : Prop :=
  ∃ before call content, messages = before ++ [.assistantTools [call] content] ∧ Paired before ∧
    call.id = pending.id

theorem AwaitsResult.close {messages : List ProviderMessage} {pending : AiTerminalToolCall}
    (h : AwaitsResult messages pending) (content : Text) :
    Paired (messages ++ [.toolResult pending.id content]) := by
  obtain ⟨before, call, text, rfl, hbefore, hid⟩ := h
  rw [List.append_assoc]
  refine Paired.answered _ [.toolResult pending.id content] hbefore ⟨rfl, by simp [
    ProviderMessage.assistantTools], by simp [ProviderMessage.assistantTools,
    ProviderMessage.toolResult, hid], fun result hresult => ?_⟩
  rw [List.mem_singleton.mp hresult]
  exact ⟨rfl, rfl⟩

/-! ### What every turn keeps -/

/-- The history of a turn, where a call waits for its result and where none does. -/
def WellFormed (turn : AiAgentTurn) : Prop :=
  match turn.pendingCall with
  | none => Paired turn.messages
  | some pending => AwaitsResult turn.messages pending

structure TurnSafe (turn : AiAgentTurn) : Prop where
  calls : toolCallCount turn.messages ≤ turn.toolIterations
  budget : turn.toolIterations ≤ maxAiAgentToolIterations
  history : WellFormed turn
  scope : ∀ pending ∈ turn.pendingCall, turn.terminalScope = some pending.scope

/-- The calls that act on a turn. -/
inductive AgentCall
  | acceptProviderStep (step : ProviderStep)
  | setPermissionMode (mode : AiPermissionMode)
  | authorizeToolExecution (callId : Text) (scope : AiTerminalScope)
  | submitToolResult (callId : Text) (scope : AiTerminalScope) (result : AiTerminalToolResult)

section Calls

variable (E : AgentExternals)

/-- A call: the decision that it returns, if it does, and the turn afterwards. -/
def AgentCall.run (turn : AiAgentTurn) :
    AgentCall → Except AiErrorCode (Option AiAgentDecision) × AiAgentTurn
  | .acceptProviderStep step =>
    ((turn.acceptProviderStep E step).1.map some, (turn.acceptProviderStep E step).2)
  | .setPermissionMode mode => (.ok none, turn.setPermissionMode mode)
  | .authorizeToolExecution callId scope =>
    ((turn.authorizeToolExecution callId scope).map fun _ => none, turn)
  | .submitToolResult callId scope result =>
    ((turn.submitToolResult E callId scope result).1.map fun _ => none,
      (turn.submitToolResult E callId scope result).2)

def runCalls (turn : AiAgentTurn) (calls : List AgentCall) : AiAgentTurn :=
  calls.foldl (fun turn call => (call.run E turn).2) turn

variable {E} {turn : AiAgentTurn}

/-- **Every call keeps a turn safe.** -/
theorem TurnSafe.step (h : TurnSafe turn) (call : AgentCall) : TurnSafe (call.run E turn).2 := by
  obtain ⟨hcalls, hbudget, hhistory, hscope⟩ := h
  cases call with
  | setPermissionMode mode => exact ⟨hcalls, hbudget, hhistory, hscope⟩
  | authorizeToolExecution callId scope => exact ⟨hcalls, hbudget, hhistory, hscope⟩
  | acceptProviderStep step =>
      simp only [AgentCall.run]
      generalize hrun : turn.acceptProviderStep E step = outcome
      have hcases := AiAgentTurn.acceptProviderStep_cases E step turn
      rw [hrun] at hcases
      cases hcases with
      | refused error iterations hle hmax =>
          exact ⟨hcalls.trans hle, hmax hbudget, hhistory, hscope⟩
      | completed content => exact ⟨hcalls, hbudget, hhistory, hscope⟩
      | answered calls results content hidle hne hnodup hanswers hmax =>
          obtain ⟨hanswered, hcount⟩ := answeredBy_of_answers content hnodup hanswers
          refine ⟨?_, hmax, ?_, hscope⟩
          · rw [toolCallCount_append]
            simp only [toolCallCount, List.map_cons, List.sum_cons] at hcount hcalls ⊢
            simp only [ProviderMessage.assistantTools]
            omega
          · simp only [WellFormed, hidle] at hhistory ⊢
            exact Paired.answered _ results hhistory hanswered
      | opened call content toolCall hopens =>
          obtain ⟨hidle, hmax, hvalid, -, -⟩ := hopens
          obtain ⟨hid, hattached⟩ := AiAgentTurn.validateToolCall_ok hvalid
          refine ⟨?_, hmax, ?_, fun pending hpending => ?_⟩
          · rw [toolCallCount_append]
            simpa [toolCallCount, ProviderMessage.assistantTools] using hcalls
          · simp only [WellFormed, hidle] at hhistory
            exact ⟨turn.messages, call, content, rfl, hhistory, hid.symm⟩
          · cases hpending
            exact hattached
  | submitToolResult callId scope result =>
      simp only [AgentCall.run]
      generalize hrun : turn.submitToolResult E callId scope result = outcome
      have hcases := AiAgentTurn.submitToolResult_cases E callId scope result turn
      rw [hrun] at hcases
      cases hcases with
      | refused error => exact ⟨hcalls, hbudget, hhistory, hscope⟩
      | closed pending content hpending hid hscope =>
          refine ⟨?_, hbudget, ?_, nofun⟩
          · rw [toolCallCount_append]
            simpa [toolCallCount, ProviderMessage.toolResult] using hcalls
          · simp only [WellFormed, hpending] at hhistory
            exact hhistory.close content

theorem TurnSafe.run (h : TurnSafe turn) (calls : List AgentCall) :
    TurnSafe (runCalls E turn calls) := by
  induction calls generalizing turn with
  | nil => exact h
  | cons call calls ih => exact ih (h.step call)

theorem paired_plain (messages : List AiChatMessage) :
    Paired (messages.map .plain) ∧ toolCallCount (messages.map .plain) = 0 := by
  induction messages using List.reverseRecOn with
  | nil => exact ⟨Paired.nil, rfl⟩
  | append_singleton messages message ih =>
      rw [List.map_append, toolCallCount_append, ih.2]
      refine ⟨Paired.plain _ ih.1 rfl ?_, rfl⟩
      cases hrole : message.role <;> simp [ProviderMessage.plain, hrole]

/-- A turn is safe when it starts. -/
theorem TurnSafe.new {request : AiChatRequest} {mode : AiPermissionMode}
    {scope : Option AiTerminalScope} {effort : Option AiReasoningEffort} {start : AiAgentTurn}
    (h : AiAgentTurn.new E request mode scope effort = .ok start) : TurnSafe start := by
  have hstart : start =
      ⟨request.model, effort, mode, scope, request.messages.map .plain, 0, none⟩ := by
    unfold AiAgentTurn.new at h
    obtain ⟨-, h⟩ := Catalog.check_ok_iff.mp h
    obtain ⟨-, h⟩ := Catalog.refuse_ok_iff.mp h
    split at h
    · obtain ⟨-, h⟩ := Catalog.check_ok_iff.mp h
      cases h
      rfl
    · cases h
      rfl
  subst hstart
  obtain ⟨hpaired, hcount⟩ := paired_plain request.messages
  exact ⟨hcount.le, Nat.zero_le _, hpaired, nofun⟩

/-! ### One call -/

/-- **A call that becomes pending** is not blocked, not just observed, and has its terminal. -/
theorem pendingCall_step (call : AgentCall) {pending : AiTerminalToolCall}
    (h : (call.run E turn).2.pendingCall = some pending) :
    turn.pendingCall = some pending ∨
      turn.pendingCall = none ∧ blockedTerminalCommand pending.command = false ∧
        turn.permissionMode ≠ .observer ∧ turn.terminalScope = some pending.scope := by
  cases call with
  | setPermissionMode mode => exact .inl h
  | authorizeToolExecution callId scope => exact .inl h
  | acceptProviderStep step =>
      simp only [AgentCall.run] at h
      generalize hrun : turn.acceptProviderStep E step = outcome at h
      have hcases := AiAgentTurn.acceptProviderStep_cases E step turn
      rw [hrun] at hcases
      cases hcases with
      | refused error iterations => exact .inl h
      | completed content => exact .inl h
      | answered calls results content => exact .inl h
      | opened call content toolCall hopens =>
          obtain ⟨hidle, -, hvalid, hblocked, hmode⟩ := hopens
          cases h
          exact .inr ⟨hidle, hblocked, hmode, (AiAgentTurn.validateToolCall_ok hvalid).2⟩
  | submitToolResult callId scope result =>
      simp only [AgentCall.run] at h
      generalize hrun : turn.submitToolResult E callId scope result = outcome at h
      have hcases := AiAgentTurn.submitToolResult_cases E callId scope result turn
      rw [hrun] at hcases
      cases hcases with
      | refused error => exact .inl h
      | closed => cases h

/-- A turn without a terminal does not get one back, nor a call that waits. -/
theorem detached_step (call : AgentCall) (hscope : turn.terminalScope = none)
    (hidle : turn.pendingCall = none) :
    (call.run E turn).2.terminalScope = none ∧ (call.run E turn).2.pendingCall = none := by
  cases call with
  | setPermissionMode mode => exact ⟨hscope, hidle⟩
  | authorizeToolExecution callId scope => exact ⟨hscope, hidle⟩
  | acceptProviderStep step =>
      simp only [AgentCall.run]
      generalize hrun : turn.acceptProviderStep E step = outcome
      have hcases := AiAgentTurn.acceptProviderStep_cases E step turn
      rw [hrun] at hcases
      cases hcases with
      | refused error iterations => exact ⟨hscope, hidle⟩
      | completed content => exact ⟨hscope, hidle⟩
      | answered calls results content => exact ⟨hscope, hidle⟩
      | opened call content toolCall hopens =>
          have hattached := (AiAgentTurn.validateToolCall_ok hopens.2.2.1).2
          rw [hscope] at hattached
          cases hattached
  | submitToolResult callId scope result =>
      simp only [AgentCall.run]
      generalize hrun : turn.submitToolResult E callId scope result = outcome
      have hcases := AiAgentTurn.submitToolResult_cases E callId scope result turn
      rw [hrun] at hcases
      cases hcases with
      | refused error => exact ⟨hscope, hidle⟩
      | closed pending content hpending =>
          rw [hidle] at hpending
          cases hpending

theorem detached_run (hscope : turn.terminalScope = none) (hidle : turn.pendingCall = none)
    (calls : List AgentCall) : (runCalls E turn calls).pendingCall = none := by
  induction calls generalizing turn with
  | nil => exact hidle
  | cons call calls ih =>
      obtain ⟨hscope, hidle⟩ := detached_step (E := E) call hscope hidle
      exact ih hscope hidle

/-- A call that fails leaves the history and the pending call. -/
theorem failed_step (call : AgentCall) {error : AiErrorCode}
    (h : (call.run E turn).1 = .error error) :
    (call.run E turn).2.messages = turn.messages ∧
      (call.run E turn).2.pendingCall = turn.pendingCall := by
  cases call with
  | setPermissionMode mode => exact ⟨rfl, rfl⟩
  | authorizeToolExecution callId scope => exact ⟨rfl, rfl⟩
  | acceptProviderStep step =>
      simp only [AgentCall.run] at h ⊢
      generalize hrun : turn.acceptProviderStep E step = outcome at h ⊢
      have hcases := AiAgentTurn.acceptProviderStep_cases E step turn
      rw [hrun] at hcases
      cases hcases with
      | refused error iterations => exact ⟨rfl, rfl⟩
      | completed content => exact ⟨rfl, rfl⟩
      | answered calls results content => cases h
      | opened call content toolCall hopens => cases h
  | submitToolResult callId scope result =>
      simp only [AgentCall.run] at h ⊢
      generalize hrun : turn.submitToolResult E callId scope result = outcome at h ⊢
      have hcases := AiAgentTurn.submitToolResult_cases E callId scope result turn
      rw [hrun] at hcases
      cases hcases with
      | refused error => exact ⟨rfl, rfl⟩
      | closed => cases h

end Calls

/-- **Turns are safe.** -/
theorem agent_turn_safe (E : AgentExternals) (request : AiChatRequest) (mode : AiPermissionMode)
    (scope : Option AiTerminalScope) (effort : Option AiReasoningEffort) (start : AiAgentTurn)
    (hnew : AiAgentTurn.new E request mode scope effort = .ok start) (calls : List AgentCall) :
    toolCallCount (runCalls E start calls).messages ≤ maxAiAgentToolIterations ∧
    ((∀ (call : AgentCall) pending,
        (call.run E (runCalls E start calls)).2.pendingCall = some pending →
        (runCalls E start calls).pendingCall = some pending ∨
          (runCalls E start calls).pendingCall = none ∧
            blockedTerminalCommand pending.command = false ∧
            (runCalls E start calls).permissionMode ≠ .observer ∧
            (runCalls E start calls).terminalScope = some pending.scope) ∧
      ∀ before callId scope result after,
        calls = before ++ .submitToolResult callId scope result :: after →
        result.timedOut = true →
        ((runCalls E start before).submitToolResult E callId scope result).1 = .ok () →
        (runCalls E start calls).pendingCall = none) ∧
    (((runCalls E start calls).pendingCall = none →
        AllAnswered (runCalls E start calls).messages) ∧
      ∀ pending, (runCalls E start calls).pendingCall = some pending →
        AwaitsResult (runCalls E start calls).messages pending ∧
          ∀ content, AllAnswered
            ((runCalls E start calls).messages ++ [.toolResult pending.id content])) ∧
    ∀ (call : AgentCall) error, (call.run E (runCalls E start calls)).1 = .error error →
      (call.run E (runCalls E start calls)).2.messages = (runCalls E start calls).messages ∧
      (call.run E (runCalls E start calls)).2.pendingCall =
        (runCalls E start calls).pendingCall := by
  have hsafe : TurnSafe (runCalls E start calls) := (TurnSafe.new hnew).run calls
  have hhistory := hsafe.history
  refine ⟨hsafe.calls.trans hsafe.budget, ⟨fun call pending => pendingCall_step call, ?_⟩,
    ⟨fun hidle => ?_, fun pending hpending => ?_⟩, fun call error => failed_step call⟩
  · rintro before callId scope result after rfl htimed hok
    unfold runCalls at hok ⊢
    rw [List.foldl_append, List.foldl_cons]
    generalize before.foldl (fun (turn : AiAgentTurn) (call : AgentCall) =>
      (call.run E turn).2) start = turn at hok ⊢
    have hcases := AiAgentTurn.submitToolResult_cases E callId scope result turn
    have hdetached : (turn.submitToolResult E callId scope result).2.terminalScope = none ∧
        (turn.submitToolResult E callId scope result).2.pendingCall = none := by
      generalize turn.submitToolResult E callId scope result = outcome at hok hcases
      cases hcases with
      | refused error => cases hok
      | closed pending content => exact ⟨by rw [if_pos htimed], rfl⟩
    exact detached_run hdetached.1 hdetached.2 after
  · simp only [WellFormed, hidle] at hhistory
    exact hhistory.allAnswered
  · simp only [WellFormed, hpending] at hhistory
    exact ⟨hhistory, fun content => (hhistory.close content).allAnswered⟩

/-! ### A turn in the lab -/

/-- JSON of the commands and results that the lab uses. -/
def labExternals : AgentExternals where
  argumentsFromStr arguments :=
    if arguments = "\x7b\"command\":\"pwd\"\x7d".toList then some "pwd".toList
    else if arguments = "\x7b\"command\":\"ls\"\x7d".toList then some "ls".toList
    else none
  documentToString document :=
    "\x7b\"output\":\"".toList ++ document.output ++ "\",\"timedOut\":".toList ++
      (toString document.timedOut).toList ++ ",\"truncated\":".toList ++
      (toString document.truncated).toList ++
      (document.errorCode.elim [] fun code => ",\"errorCode\":\"".toList ++ code ++ ['"']) ++
      ['\x7d']
  decodeBase64 _ := none
  encodeBase64 _ := []

def labRequest : AiChatRequest := ⟨"gpt-4o".toList, [⟨.user, "Where am I?".toList, []⟩]⟩

def labScope : AiTerminalScope := ⟨"route-1".toList, 7, "ssh".toList⟩

def labStart : AiAgentTurn :=
  ⟨"gpt-4o".toList, none, .confirm, some labScope, labRequest.messages.map .plain, 0, none⟩

theorem labStart_new : AiAgentTurn.new labExternals labRequest .confirm (some labScope) none =
    .ok labStart := by
  decide

def labPwd (id : String) : AgentCall :=
  .acceptProviderStep (.toolCall ⟨id.toList, "function".toList, terminalToolName,
    "\x7b\"command\":\"pwd\"\x7d".toList⟩ none)

def labLs (id : String) : AgentCall :=
  .acceptProviderStep (.toolCall ⟨id.toList, "function".toList, terminalToolName,
    "\x7b\"command\":\"ls\"\x7d".toList⟩ none)

def labResult (id : String) (output : String) (timedOut : Bool) : AgentCall :=
  .submitToolResult id.toList labScope ⟨output.toList, timedOut, none⟩

/-- A call, its result, and a call whose capture times out. -/
def labCalls : List AgentCall :=
  [labPwd "call-1", labResult "call-1" "/tmp" false, labLs "call-2", labResult "call-2" "" true]

theorem agent_turn_safe_lab :
    toolCallCount (runCalls labExternals labStart labCalls).messages ≤ maxAiAgentToolIterations ∧
      AllAnswered (runCalls labExternals labStart labCalls).messages :=
  let safe := agent_turn_safe labExternals labRequest .confirm (some labScope) none labStart
    labStart_new labCalls
  ⟨safe.1, safe.2.2.1.1 (by decide)⟩

end Netcatty.Ai
