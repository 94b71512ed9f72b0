import Netcatty.Ai.Turn
import Netcatty.Library.Catalog

/-! # What a call does to a turn

Each step of the provider is refused, completes the turn, is answered at once or opens a call that
waits for its result (`acceptProviderStep_cases`); a result is refused or closes the call that waits
(`submitToolResult_cases`).  The history stays paired: a message with tool calls is followed by the
result of each (`TurnSafe.step`). -/

namespace Netcatty.Ai

open Catalog
open Vault (Text)

namespace AiAgentTurn

@[simp] theorem push_pendingCall (messages : List ProviderMessage) (turn : AiAgentTurn) :
    (turn.push messages).pendingCall = turn.pendingCall := rfl

@[simp] theorem push_messages (messages : List ProviderMessage) (turn : AiAgentTurn) :
    (turn.push messages).messages = turn.messages ++ messages := rfl

variable {E : AgentExternals} {turn : AiAgentTurn}

theorem reserveToolIterations_cases (count : ℕ) (turn : AiAgentTurn) :
    (∃ error, reserveToolIterations count turn = (.error error, turn)) ∨
      0 < count ∧ turn.toolIterations + count ≤ maxAiAgentToolIterations ∧
        reserveToolIterations count turn =
          (.ok (), { turn with toolIterations := turn.toolIterations + count }) := by
  unfold reserveToolIterations
  split
  · exact .inl ⟨_, rfl⟩
  · split
    · exact .inl ⟨_, rfl⟩
    · exact .inr ⟨by omega, by omega, rfl⟩

theorem validateToolCall_ok {call : ProviderToolCall} {toolCall : AiTerminalToolCall}
    (h : validateToolCall E turn call = .ok toolCall) :
    toolCall.id = call.id ∧ turn.terminalScope = some toolCall.scope := by
  unfold validateToolCall at h
  split at h
  · cases h
  · rename_i scope hscope
    split at h
    · cases h
    · split at h
      · cases h
      · rename_i command _
        cases hcommand : validateTerminalCommand command with
        | error error =>
            rw [hcommand] at h
            cases h
        | ok _ =>
            rw [hcommand] at h
            cases h
            exact ⟨rfl, hscope⟩

theorem validateToolCalls_ok {seen : List Text} {calls : List ProviderToolCall}
    (h : validateToolCalls E turn seen calls = .ok ()) :
    (calls.map (·.id)).Nodup ∧ ∀ call ∈ calls, call.id ∉ seen := by
  induction calls generalizing seen with
  | nil => simp
  | cons call calls ih =>
      obtain ⟨-, -, h⟩ := bind_ok_iff.mp h
      obtain ⟨hnew, h⟩ := refuse_ok_iff.mp h
      obtain ⟨hnodup, hrest⟩ := ih h
      refine ⟨?_, fun other hother => ?_⟩
      · rw [List.map_cons, List.nodup_cons]
        refine ⟨fun hmem => ?_, hnodup⟩
        obtain ⟨other, hother, heq⟩ := List.mem_map.mp hmem
        exact hrest other hother (heq ▸ List.mem_cons_self)
      · rcases List.mem_cons.mp hother with rfl | hother
        · exact hnew
        · exact fun hmem => hrest other hother (List.mem_cons_of_mem _ hmem)

/-- A single call that the provider may open: the budget is left, the call is valid, it is not on
the blocklist, and the turn does not just observe. -/
def Opens (E : AgentExternals) (turn : AiAgentTurn) (call : ProviderToolCall)
    (toolCall : AiTerminalToolCall) : Prop :=
  turn.pendingCall = none ∧ turn.toolIterations + 1 ≤ maxAiAgentToolIterations ∧
    validateToolCall E turn call = .ok toolCall ∧
    blockedTerminalCommand toolCall.command = false ∧ turn.permissionMode ≠ .observer

/-- The results that answer calls at once. -/
def Answers (calls : List ProviderToolCall) (results : List ProviderMessage) : Prop :=
  ∃ content, results = calls.map fun call => .toolResult call.id content

/-- What a step of the provider can do. -/
inductive Accepts (E : AgentExternals) (turn : AiAgentTurn) :
    ProviderStep → Except AiErrorCode AiAgentDecision × AiAgentTurn → Prop
  | refused {step : ProviderStep} (error : AiErrorCode) (iterations : ℕ)
      (hle : turn.toolIterations ≤ iterations)
      (hmax : turn.toolIterations ≤ maxAiAgentToolIterations →
        iterations ≤ maxAiAgentToolIterations)
      (hopen : ∀ call content toolCall, step = .toolCall call content →
        ¬ Opens E turn call toolCall) :
      Accepts E turn step (.error error, { turn with toolIterations := iterations })
  | completed (content : Text) (hidle : turn.pendingCall = none) :
      Accepts E turn (.completed content) (.ok (.completed content), turn)
  | answered {step : ProviderStep} (calls : List ProviderToolCall)
      (results : List ProviderMessage) (content : Option Text) (hidle : turn.pendingCall = none)
      (hcalls : calls ≠ []) (hnodup : (calls.map (·.id)).Nodup) (hanswers : Answers calls results)
      (hmax : turn.toolIterations + calls.length ≤ maxAiAgentToolIterations)
      (hopen : ∀ call content toolCall, step = .toolCall call content →
        ¬ Opens E turn call toolCall) :
      Accepts E turn step (.ok .continue,
        { turn with
          messages := turn.messages ++ .assistantTools calls content :: results
          toolIterations := turn.toolIterations + calls.length })
  | opened (call : ProviderToolCall) (content : Option Text) (toolCall : AiTerminalToolCall)
      (hopens : Opens E turn call toolCall) :
      Accepts E turn (.toolCall call content)
        (.ok (.toolCall toolCall (turn.permissionMode = .confirm) content),
          { turn with
            messages := turn.messages ++ [.assistantTools [call] content]
            toolIterations := turn.toolIterations + 1
            pendingCall := some toolCall })

theorem refuse_unchanged {step : ProviderStep} (error : AiErrorCode)
    (hopen : ∀ call content toolCall, step = .toolCall call content →
      ¬ Opens E turn call toolCall) : Accepts E turn step (.error error, turn) :=
  Accepts.refused error turn.toolIterations le_rfl id hopen

/-- A call that is answered at once with the given result. -/
theorem answered_single {call : ProviderToolCall} {toolCall : AiTerminalToolCall}
    (hidle : turn.pendingCall = none) (hid : toolCall.id = call.id) (content : Option Text)
    (answer : Text) (hmax : turn.toolIterations + 1 ≤ maxAiAgentToolIterations)
    (hclosed : ¬ Opens E turn call toolCall)
    (hvalid : validateToolCall E turn call = .ok toolCall) :
    Accepts E turn (.toolCall call content) (.ok .continue,
      push [.toolResult toolCall.id answer] <| push [.assistantTools [call] content]
        { turn with toolIterations := turn.toolIterations + 1 }) := by
  have heq : (push [.toolResult toolCall.id answer] <| push [.assistantTools [call] content]
      { turn with toolIterations := turn.toolIterations + 1 }) =
      { turn with
        messages := turn.messages ++ .assistantTools [call] content ::
          [call].map fun call => .toolResult call.id answer
        toolIterations := turn.toolIterations + [call].length } := by
    simp [push, hid]
  rw [heq]
  refine Accepts.answered [call] _ content hidle (by simp) (by simp) ⟨answer, rfl⟩ hmax ?_
  intro call' content' toolCall' hstep hopens
  cases hstep
  have hok := hopens.2.2.1
  rw [hvalid] at hok
  cases hok
  exact hclosed hopens

theorem acceptToolCall_cases (hidle : turn.pendingCall = none) (call : ProviderToolCall)
    (content : Option Text) :
    Accepts E turn (.toolCall call content) (acceptToolCall E call content turn) := by
  unfold acceptToolCall
  rcases reserveToolIterations_cases 1 turn with ⟨error, hreserve⟩ | ⟨-, hmax, hreserve⟩
  · rw [hreserve]
    refine refuse_unchanged error fun call' content' toolCall heq hopens => ?_
    unfold reserveToolIterations at hreserve
    have hmax := hopens.2.1
    have hlimit : maxAiAgentToolIterations = 4 := rfl
    rw [if_neg (by omega), if_neg (by omega)] at hreserve
    cases hreserve
  rw [hreserve]
  dsimp only
  -- The budget does not matter for the check of the call.
  have hsame : validateToolCall E { turn with toolIterations := turn.toolIterations + 1 } call =
      validateToolCall E turn call := rfl
  rw [hsame]
  cases hvalid : validateToolCall E turn call with
  | error error =>
      refine Accepts.refused error _ (by omega) (fun _ => hmax) fun call' content' toolCall heq
        hopens => ?_
      cases heq
      have hok := hopens.2.2.1
      rw [hvalid] at hok
      cases hok
  | ok toolCall =>
      obtain ⟨hid, -⟩ := validateToolCall_ok hvalid
      dsimp only
      split
      · rename_i hblocked
        exact answered_single hidle hid content _ hmax
          (fun hopens => by simp [hopens.2.2.2.1] at hblocked) hvalid
      · rename_i hallowed
        split
        · rename_i hobserver
          exact answered_single hidle hid content _ hmax
            (fun hopens => hopens.2.2.2.2 hobserver) hvalid
        · rename_i hmode
          exact Accepts.opened call content toolCall
            ⟨hidle, hmax, hvalid, Bool.not_eq_true _ ▸ hallowed, hmode⟩

theorem rejectParallelToolCalls_cases (hidle : turn.pendingCall = none)
    (calls : List ProviderToolCall) (content : Option Text) :
    Accepts E turn (.parallelToolCalls calls content)
      (rejectParallelToolCalls E calls content turn) := by
  unfold rejectParallelToolCalls
  rcases reserveToolIterations_cases calls.length turn with
    ⟨error, hreserve⟩ | ⟨hpos, hmax, hreserve⟩
  · rw [hreserve]
    exact refuse_unchanged error nofun
  rw [hreserve]
  dsimp only
  split
  · exact Accepts.refused _ _ (by omega) (fun _ => hmax) nofun
  · rename_i hvalid
    obtain ⟨hnodup, -⟩ := validateToolCalls_ok hvalid
    exact Accepts.answered calls _ content hidle (List.length_pos_iff.mp hpos) hnodup ⟨_, rfl⟩ hmax
      nofun

/-- **What a step of the provider does.** -/
theorem acceptProviderStep_cases (E : AgentExternals) (step : ProviderStep) (turn : AiAgentTurn) :
    Accepts E turn step (acceptProviderStep E step turn) := by
  unfold acceptProviderStep
  split
  · rename_i hpending
    refine refuse_unchanged _ fun call content toolCall _ hopens => ?_
    simp [hopens.1] at hpending
  · rename_i hidle
    rw [Option.not_isSome_iff_eq_none] at hidle
    cases step with
    | completed content => exact Accepts.completed content hidle
    | toolCall call content => exact acceptToolCall_cases hidle call content
    | parallelToolCalls calls content => exact rejectParallelToolCalls_cases hidle calls content

/-! ### Results -/

theorem authorizeToolExecution_ok_iff {callId : Text} {scope : AiTerminalScope} :
    turn.authorizeToolExecution callId scope = .ok () ↔
      ∃ pending, turn.pendingCall = some pending ∧ pending.id = callId ∧ pending.scope = scope := by
  unfold authorizeToolExecution
  split
  · rename_i hnone
    simp [hnone]
  · rename_i pending hpending
    by_cases h : pending.id = callId ∧ pending.scope = scope
    · simp [hpending, h]
    · simp only [hpending, Option.some.injEq, exists_eq_left', h, iff_false]
      rw [if_pos (not_and_or.mp h)]
      exact nofun

/-- What the submission of a result can do. -/
inductive Submits (turn : AiAgentTurn) (callId : Text) (scope : AiTerminalScope)
    (result : AiTerminalToolResult) : Except AiErrorCode Unit × AiAgentTurn → Prop
  | refused (error : AiErrorCode) : Submits turn callId scope result (.error error, turn)
  | closed (pending : AiTerminalToolCall) (content : Text)
      (hpending : turn.pendingCall = some pending) (hid : pending.id = callId)
      (hscope : pending.scope = scope) :
      Submits turn callId scope result (.ok (),
        { turn with
          messages := turn.messages ++ [.toolResult pending.id content]
          pendingCall := none
          terminalScope := if result.timedOut then none else turn.terminalScope })

/-- **What a result does.** -/
theorem submitToolResult_cases (E : AgentExternals) (callId : Text) (scope : AiTerminalScope)
    (result : AiTerminalToolResult) (turn : AiAgentTurn) :
    Submits turn callId scope result (submitToolResult E callId scope result turn) := by
  unfold submitToolResult
  split
  · exact Submits.refused _
  · rename_i hauthorized
    obtain ⟨pending, hpending, hid, hscope⟩ := authorizeToolExecution_ok_iff.mp hauthorized
    split
    · exact Submits.refused _
    · have hclosed : ∀ content, Submits turn callId scope result (.ok (),
          { turn with
            messages := turn.messages ++ [.toolResult pending.id content]
            pendingCall := none
            terminalScope := if result.timedOut then none else turn.terminalScope }) :=
        fun content => Submits.closed pending content hpending hid hscope
      simp only [hpending]
      cases htimed : result.timedOut with
      | true =>
          simp only [htimed, if_true] at hclosed
          exact hclosed _
      | false =>
          simp only [htimed, Bool.false_eq_true, if_false] at hclosed
          exact hclosed _

end AiAgentTurn

end Netcatty.Ai
