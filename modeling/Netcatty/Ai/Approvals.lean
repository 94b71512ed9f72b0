import Netcatty.Ai.Safety

/-! # Approvals

An approval names a call by its id and the scope of its terminal, and the provider chooses the id.
As long as it does not use an id twice for the calls that it opens, an approval or a result of an
earlier decision is refused; where it does, the turn takes it for the later command
(`approvals_not_transferred_iff`). -/

namespace Netcatty.Ai

open Vault (Text)

/-- What a caller sees of a turn: the decisions, and the results that were taken. -/
inductive TurnEvent
  | decided (decision : AiAgentDecision)
  | submitted (callId : Text) (scope : AiTerminalScope)
  deriving DecidableEq

/-- The id of the call that a decision asks to run. -/
def TurnEvent.calledId : TurnEvent → Option Text
  | .decided (.toolCall call _ _) => some call.id
  | _ => none

section Runs

variable (E : AgentExternals)

def AgentCall.events (turn : AiAgentTurn) (call : AgentCall) : List TurnEvent :=
  match call, (call.run E turn).1 with
  | _, .ok (some decision) => [.decided decision]
  | .submitToolResult callId scope _, .ok none => [.submitted callId scope]
  | _, _ => []

/-- The events of a run, in order. -/
def runEvents : AiAgentTurn → List AgentCall → List TurnEvent
  | _, [] => []
  | turn, call :: calls => call.events E turn ++ runEvents (call.run E turn).2 calls

/-- The id of the call that a step of the provider opens: the turn is idle and does not just
observe, the budget is left, the call is valid and not on the blocklist. -/
def AgentCall.opensId (turn : AiAgentTurn) : AgentCall → Option Text
  | .acceptProviderStep (.toolCall call _) =>
    match turn.validateToolCall E call with
    | .error _ => none
    | .ok toolCall =>
      if turn.pendingCall = none ∧ turn.toolIterations + 1 ≤ maxAiAgentToolIterations ∧
          blockedTerminalCommand toolCall.command = false ∧ turn.permissionMode ≠ .observer then
        some call.id
      else none
  | _ => none

/-- The ids of the calls that the provider opens in a run, in order. -/
def openedIds : AiAgentTurn → List AgentCall → List Text
  | _, [] => []
  | turn, call :: calls => (call.opensId E turn).toList ++ openedIds (call.run E turn).2 calls

/-- **No approval is transferred** after these calls: an approval or a result with the id and the
scope of a decision is taken only if that decision is the last one, its result was not taken before,
and its command is the one that waits. -/
def NotTransferred (start : AiAgentTurn) (calls : List AgentCall) : Prop :=
  ∀ earlier call approvalRequired content later,
    runEvents E start calls =
      earlier ++ .decided (.toolCall call approvalRequired content) :: later →
    ((runCalls E start calls).authorizeToolExecution call.id call.scope = .ok () ∨
      ∃ result, ((runCalls E start calls).submitToolResult E call.id call.scope result).1 =
        .ok ()) →
    (∀ decision, .decided decision ∉ later) ∧ .submitted call.id call.scope ∉ later ∧
      ∃ pending, (runCalls E start calls).pendingCall = some pending ∧
        pending.command = call.command

variable {E} {start turn : AiAgentTurn}

theorem runCalls_append (start : AiAgentTurn) (before after : List AgentCall) :
    runCalls E start (before ++ after) = runCalls E (runCalls E start before) after :=
  List.foldl_append ..

theorem runEvents_append (start : AiAgentTurn) (before after : List AgentCall) :
    runEvents E start (before ++ after) =
      runEvents E start before ++ runEvents E (runCalls E start before) after := by
  induction before generalizing start with
  | nil => rfl
  | cons call before ih =>
      rw [List.cons_append, runEvents, runEvents, ih, List.append_assoc]
      rfl

theorem openedIds_append (start : AiAgentTurn) (before after : List AgentCall) :
    openedIds E start (before ++ after) =
      openedIds E start before ++ openedIds E (runCalls E start before) after := by
  induction before generalizing start with
  | nil => rfl
  | cons call before ih =>
      rw [List.cons_append, openedIds, openedIds, ih, List.append_assoc]
      rfl

theorem opensId_eq_some {call : ProviderToolCall} {content : Option Text}
    {toolCall : AiTerminalToolCall} (h : AiAgentTurn.Opens E turn call toolCall) :
    (AgentCall.acceptProviderStep (.toolCall call content)).opensId E turn = some call.id := by
  obtain ⟨hidle, hmax, hvalid, hblocked, hmode⟩ := h
  simp only [AgentCall.opensId, hvalid]
  rw [if_pos ⟨hidle, hmax, hblocked, hmode⟩]

theorem opensId_eq_none {step : ProviderStep}
    (h : ∀ call content toolCall, step = .toolCall call content →
      ¬ AiAgentTurn.Opens E turn call toolCall) :
    (AgentCall.acceptProviderStep step).opensId E turn = none := by
  cases step with
  | completed content => rfl
  | parallelToolCalls calls content => rfl
  | toolCall call content =>
      simp only [AgentCall.opensId]
      split
      · rfl
      · rename_i toolCall hvalid
        rw [if_neg]
        rintro ⟨hidle, hmax, hblocked, hmode⟩
        exact h call content toolCall rfl ⟨hidle, hmax, hvalid, hblocked, hmode⟩

/-! ### Events -/

/-- What the events of a run say of the turn: the call that waits is the last event, and all calls
were made for the terminal that is still attached. -/
structure Tracks (turn : AiAgentTurn) (events : List TurnEvent) : Prop where
  safe : TurnSafe turn
  last : ∀ pending, turn.pendingCall = some pending →
    ∃ earlier approvalRequired content,
      events = earlier ++ [.decided (.toolCall pending approvalRequired content)]
  scopes : ∀ scope, turn.terminalScope = some scope → ∀ call approvalRequired content,
    .decided (.toolCall call approvalRequired content) ∈ events → call.scope = scope

/-- **One call**: the events say so again, and they name the id that was opened. -/
theorem Tracks.step {events : List TurnEvent} (h : Tracks turn events) (call : AgentCall) :
    Tracks (call.run E turn).2 (events ++ call.events E turn) ∧
      (call.events E turn).filterMap TurnEvent.calledId = (call.opensId E turn).toList := by
  have hsafe := h.safe.step (E := E) call
  have hsame : Tracks turn (events ++ []) := by rwa [List.append_nil]
  cases call with
  | setPermissionMode mode =>
      exact ⟨⟨hsafe, hsame.last, hsame.scopes⟩, rfl⟩
  | authorizeToolExecution callId scope =>
      have hsilent : (AgentCall.authorizeToolExecution callId scope).events E turn = [] := by
        simp only [AgentCall.events, AgentCall.run]
        cases turn.authorizeToolExecution callId scope <;> rfl
      rw [hsilent]
      exact ⟨⟨hsafe, hsame.last, hsame.scopes⟩, rfl⟩
  | acceptProviderStep step =>
      have hcases := AiAgentTurn.acceptProviderStep_cases E step turn
      simp only [AgentCall.events, AgentCall.run] at hsafe ⊢
      generalize turn.acceptProviderStep E step = outcome at hcases hsafe ⊢
      cases hcases with
      | refused error iterations hle hmax hopen =>
          rw [opensId_eq_none hopen]
          exact ⟨⟨hsafe, hsame.last, hsame.scopes⟩, rfl⟩
      | completed content hidle =>
          refine ⟨⟨hsafe, fun pending hpending => ?_,
            fun scope hscope call approval text hmem => ?_⟩, rfl⟩
          · rw [hidle] at hpending
            cases hpending
          · rcases List.mem_append.mp hmem with hmem | hmem
            · exact h.scopes scope hscope call approval text hmem
            · cases List.mem_singleton.mp hmem
      | answered calls results content hidle hcalls hnodup hanswers hmax hopen =>
          rw [opensId_eq_none hopen]
          refine ⟨⟨hsafe, fun pending hpending => ?_,
            fun scope hscope call approval text hmem => ?_⟩, rfl⟩
          · have hpending : turn.pendingCall = some pending := hpending
            rw [hidle] at hpending
            cases hpending
          · rcases List.mem_append.mp hmem with hmem | hmem
            · exact h.scopes scope hscope call approval text hmem
            · cases List.mem_singleton.mp hmem
      | opened call content toolCall hopens =>
          obtain ⟨hid, hattached⟩ := AiAgentTurn.validateToolCall_ok hopens.2.2.1
          rw [opensId_eq_some hopens]
          refine ⟨⟨hsafe, fun pending hpending => ?_,
            fun scope hscope other approval text hmem => ?_⟩, by simp [Except.map, TurnEvent.calledId, hid]⟩
          · cases hpending
            exact ⟨events, _, content, rfl⟩
          · have hscope : turn.terminalScope = some scope := hscope
            rcases List.mem_append.mp hmem with hmem | hmem
            · exact h.scopes scope hscope other approval text hmem
            · cases List.mem_singleton.mp hmem
              exact Option.some.inj (hattached.symm.trans hscope)
  | submitToolResult callId scope result =>
      have hcases := AiAgentTurn.submitToolResult_cases E callId scope result turn
      simp only [AgentCall.events, AgentCall.run] at hsafe ⊢
      generalize turn.submitToolResult E callId scope result = outcome at hcases hsafe ⊢
      cases hcases with
      | refused error => exact ⟨hsame, rfl⟩
      | closed pending content hpending hid hscope =>
          refine ⟨⟨hsafe, fun pending' hpending' => ?_,
            fun attached hattached call approval text hmem => ?_⟩, rfl⟩
          · cases hpending'
          have hattached : turn.terminalScope = some attached := by
            dsimp only at hattached
            split at hattached
            · cases hattached
            · exact hattached
          exact h.scopes attached hattached call approval text
            (by simpa [Except.map] using hmem)

/-- **A whole run.** -/
theorem Tracks.run {events : List TurnEvent} (h : Tracks turn events) (calls : List AgentCall) :
    Tracks (runCalls E turn calls) (events ++ runEvents E turn calls) ∧
      (runEvents E turn calls).filterMap TurnEvent.calledId = openedIds E turn calls := by
  induction calls generalizing turn events with
  | nil => exact ⟨by rwa [runEvents, List.append_nil], rfl⟩
  | cons call calls ih =>
      obtain ⟨htracks, hids⟩ := h.step (E := E) call
      obtain ⟨hrun, hrest⟩ := ih htracks
      refine ⟨by rwa [runEvents, ← List.append_assoc], ?_⟩
      rw [runEvents, List.filterMap_append, hids, hrest, openedIds]

/-- A turn that starts has no events. -/
theorem Tracks.new {request : AiChatRequest} {mode : AiPermissionMode}
    {scope : Option AiTerminalScope} {effort : Option AiReasoningEffort}
    (h : AiAgentTurn.new E request mode scope effort = .ok start) : Tracks start [] := by
  have hidle : start.pendingCall = none := by
    unfold AiAgentTurn.new at h
    obtain ⟨-, h⟩ := Catalog.check_ok_iff.mp h
    obtain ⟨-, h⟩ := Catalog.refuse_ok_iff.mp h
    split at h
    · obtain ⟨-, h⟩ := Catalog.check_ok_iff.mp h
      cases h
      rfl
    · cases h
      rfl
  refine ⟨TurnSafe.new h, fun pending hpending => ?_, fun scope hscope call approval text => nofun⟩
  rw [hidle] at hpending
  cases hpending

/-! ### Transfers -/

theorem authorized_of_taken {callId : Text} {scope : AiTerminalScope}
    (h : turn.authorizeToolExecution callId scope = .ok () ∨
      ∃ result, (turn.submitToolResult E callId scope result).1 = .ok ()) :
    ∃ pending, turn.pendingCall = some pending ∧ pending.id = callId ∧ pending.scope = scope := by
  rcases h with h | ⟨result, h⟩
  · exact AiAgentTurn.authorizeToolExecution_ok_iff.mp h
  · have hcases := AiAgentTurn.submitToolResult_cases E callId scope result turn
    generalize turn.submitToolResult E callId scope result = outcome at hcases h
    cases hcases with
    | refused error => cases h
    | closed pending content hpending hid hscope => exact ⟨pending, hpending, hid, hscope⟩

/-- Distinct ids: an approval that is taken belongs to the last decision. -/
theorem Tracks.notTransferred {calls : List AgentCall} (h : Tracks start [])
    (hnodup : (openedIds E start calls).Nodup) : NotTransferred E start calls := by
  intro earlier call approval content later hevents htaken
  obtain ⟨hrun, hids⟩ := h.run (E := E) calls
  rw [List.nil_append] at hrun
  obtain ⟨pending, hpending, hid, hscope⟩ := authorized_of_taken htaken
  obtain ⟨earlier', approval', content', hlast⟩ := hrun.last pending hpending
  rw [hevents] at hlast hids
  rcases List.eq_nil_or_concat later with rfl | ⟨front, event, rfl⟩
  · obtain ⟨-, hsame⟩ := List.append_inj' hlast rfl
    cases hsame
    exact ⟨nofun, nofun, call, hpending, rfl⟩
  · rw [List.concat_eq_append] at hlast hids
    rw [← List.cons_append, ← List.append_assoc] at hlast
    obtain ⟨-, hsame⟩ := List.append_inj' hlast rfl
    cases hsame
    rw [← hids, List.filterMap_append] at hnodup
    have hnodup : (call.id :: (front ++
        [TurnEvent.decided (.toolCall pending approval' content')]).filterMap
          TurnEvent.calledId).Nodup := (List.nodup_append.mp hnodup).2.1
    have htwice : call.id ∈ (front ++
        [TurnEvent.decided (.toolCall pending approval' content')]).filterMap
          TurnEvent.calledId :=
      List.mem_filterMap.mpr ⟨_, List.mem_append_right _ List.mem_cons_self, congrArg some hid⟩
    exact absurd htwice (List.nodup_cons.mp hnodup).1

theorem opens_step {call : ProviderToolCall} (content : Option Text)
    {toolCall : AiTerminalToolCall} (h : AiAgentTurn.Opens E turn call toolCall) :
    ((AgentCall.acceptProviderStep (.toolCall call content)).run E turn).2.pendingCall =
        some toolCall ∧
      (AgentCall.acceptProviderStep (.toolCall call content)).events E turn =
        [.decided (.toolCall toolCall (turn.permissionMode = .confirm) content)] := by
  simp only [AgentCall.events, AgentCall.run]
  have hcases := AiAgentTurn.acceptProviderStep_cases E (.toolCall call content) turn
  generalize turn.acceptProviderStep E (.toolCall call content) = outcome at hcases ⊢
  cases hcases with
  | refused error iterations hle hmax hnone => exact absurd h (hnone _ _ _ rfl)
  | answered calls results text hidle hcalls hnodup hanswers hmax hnone =>
      exact absurd h (hnone _ _ _ rfl)
  | opened _ _ toolCall' hopens =>
      have hok := hopens.2.2.1.symm.trans h.2.2.1
      cases hok
      exact ⟨rfl, rfl⟩

/-- An id that comes twice: the approval of the earlier decision is taken for the later call. -/
theorem Tracks.fresh_of_notTransferred {calls : List AgentCall} {call : AgentCall} {id : Text}
    (h : Tracks start []) (hopens : call.opensId E (runCalls E start calls) = some id)
    (hnot : NotTransferred E start (calls ++ [call])) : id ∉ openedIds E start calls := by
  intro hmem
  obtain ⟨hrun, hids⟩ := h.run (E := E) calls
  obtain ⟨hrun', -⟩ := h.run (E := E) (calls ++ [call])
  rw [List.nil_append] at hrun hrun'
  rw [← hids] at hmem
  obtain ⟨event, hevent, hid⟩ := List.mem_filterMap.mp hmem
  -- The step that opens the second call.
  have hstep : ∃ provided content toolCall,
      call = .acceptProviderStep (.toolCall provided content) ∧
      AiAgentTurn.Opens E (runCalls E start calls) provided toolCall ∧ provided.id = id := by
    unfold AgentCall.opensId at hopens
    split at hopens
    · rename_i provided content
      split at hopens
      · cases hopens
      · rename_i toolCall hvalid
        split at hopens
        · rename_i hopen
          exact ⟨provided, content, toolCall, rfl,
            ⟨hopen.1, hopen.2.1, hvalid, hopen.2.2⟩, Option.some.inj hopens⟩
        · cases hopens
    · cases hopens
  obtain ⟨provided, content, toolCall, rfl, hopen, hprovided⟩ := hstep
  obtain ⟨hsameId, hattached⟩ := AiAgentTurn.validateToolCall_ok hopen.2.2.1
  obtain ⟨hpending, hevents⟩ := opens_step content hopen
  cases event with
  | submitted callId scope => cases hid
  | decided decision =>
      cases decision with
      | «continue» => cases hid
      | completed text => cases hid
      | toolCall decided approval text =>
          have hid : decided.id = id := Option.some.inj hid
          obtain ⟨earlier, later, hsplit⟩ := List.append_of_mem hevent
          have hscope : decided.scope = toolCall.scope :=
            hrun.scopes _ hattached decided approval text hevent
          have htaken := hnot earlier decided approval text
            (later ++ [.decided (.toolCall toolCall
              ((runCalls E start calls).permissionMode = .confirm) content)])
            (by rw [runEvents_append, runEvents, hevents, hsplit, List.append_assoc,
              List.cons_append]; rfl)
            (.inl (AiAgentTurn.authorizeToolExecution_ok_iff.mpr ⟨toolCall,
              by rw [runCalls_append]; exact hpending, by rw [hsameId, hprovided, hid],
              hscope.symm⟩))
          exact htaken.1 _ (List.mem_append_right _ List.mem_cons_self)

end Runs

/-- **Approvals are not transferred** in a run exactly if the provider does not open two calls with
one id. -/
theorem approvals_not_transferred_iff (E : AgentExternals) (request : AiChatRequest)
    (mode : AiPermissionMode) (scope : Option AiTerminalScope) (effort : Option AiReasoningEffort)
    (start : AiAgentTurn) (hnew : AiAgentTurn.new E request mode scope effort = .ok start)
    (calls : List AgentCall) :
    (∀ before after, calls = before ++ after → NotTransferred E start before) ↔
      (openedIds E start calls).Nodup := by
  have htracks : Tracks start [] := Tracks.new hnew
  constructor
  · induction calls using List.reverseRecOn with
    | nil => exact fun _ => List.nodup_nil
    | append_singleton calls call ih =>
        intro hall
        have hbefore := ih fun before after heq => hall before (after ++ [call])
          (by rw [heq, List.append_assoc])
        rw [openedIds_append]
        simp only [openedIds, List.append_nil]
        cases hopens : call.opensId E (runCalls E start calls) with
        | none => simpa using hbefore
        | some id =>
            have hfresh := htracks.fresh_of_notTransferred hopens
              (hall _ [] (List.append_nil _).symm)
            simp only [Option.toList_some, List.nodup_append, List.nodup_cons, List.not_mem_nil,
              not_false_eq_true, List.nodup_nil, and_self, List.mem_singleton, true_and]
            exact ⟨hbefore, fun other hother id' hid' heq => hfresh (hid' ▸ heq ▸ hother)⟩
  · rintro hnodup before after rfl
    rw [openedIds_append] at hnodup
    exact htracks.notTransferred (List.nodup_append.mp hnodup).1

theorem approvals_not_transferred_iff_lab : NotTransferred labExternals labStart labCalls :=
  (approvals_not_transferred_iff labExternals labRequest .confirm (some labScope) none labStart
    labStart_new labCalls).mpr (by decide) labCalls [] (List.append_nil _).symm

/-- The provider asks for `ls` under the id that was approved for `pwd`. -/
def transferCalls : List AgentCall :=
  [labPwd "call-1", labResult "call-1" "/tmp" false, labLs "call-1"]

theorem approval_transferred :
    ¬ ∀ before after, transferCalls = before ++ after →
      NotTransferred labExternals labStart before := by
  intro hall
  have hrun : runEvents labExternals labStart transferCalls =
        [] ++ .decided (.toolCall ⟨"call-1".toList, "pwd".toList, labScope⟩ true none) ::
          [.submitted "call-1".toList labScope,
            .decided (.toolCall ⟨"call-1".toList, "ls".toList, labScope⟩ true none)] ∧
      (runCalls labExternals labStart transferCalls).authorizeToolExecution "call-1".toList
        labScope = .ok () := by
    decide
  have hnot := hall transferCalls [] (List.append_nil _).symm _ _ _ _ _ hrun.1 (.inl hrun.2)
  exact hnot.1 _ (List.mem_cons_of_mem _ List.mem_cons_self)

end Netcatty.Ai
