import Netcatty.Library.Rendezvous
import Netcatty.Ssh.HostKey

/-! # Prompts for host keys and for logins

A host key that is not trusted, and an interactive login, are prompts: each call of `verify` or
`respond` is a request to its broker, which the window that owns it answers.  Any number of calls,
answers and rejections interleave, and a call may be given up where it waits.  `prompts_laws` holds
in every run. -/

namespace Netcatty.Ssh

open Rendezvous (Careful CarefulStep Entry Heard Held Move Phase Request Step)
open Runs (Run)
open SysManager (decimal)

structure HostKeyPrompt where
  requestId : Text
  ownerId : Text
  sessionId : Text
  clientAttemptId : Text
  hostname : Text
  port : ℕ
  status : HostKeyStatus
  keyType : Text
  fingerprint : Text
  publicKey : Text
  knownHostId : Option Text
  knownFingerprint : Option Text

structure PromptingHostKeyVerifier where
  ownerId : Text
  sessionId : Text
  clientAttemptId : Text
  hostname : Text
  port : ℕ
  knownHosts : List KnownHost
  verificationEnabled : Bool

structure AuthenticationPrompt where
  text : Text
  echo : Bool

structure AuthenticationPrompts where
  name : Text
  instructions : Text
  prompts : List AuthenticationPrompt

structure InteractivePrompt where
  requestId : Text
  ownerId : Text
  sessionId : Text
  clientAttemptId : Text
  name : Text
  instructions : Text
  prompts : List AuthenticationPrompt

structure PromptingInteractiveAuthResponder where
  ownerId : Text
  sessionId : Text
  clientAttemptId : Text

inductive PromptFailure
  | hostKeyRejected
  | interactiveAuthFailed
  deriving DecidableEq, Repr

/-- The counter has 64 bits. -/
def nextRequestId (affix : String) (processId sequence : ℕ) : Text :=
  affix.toList ++ decimal processId ++ '-' :: decimal (sequence % 2 ^ 64)

def hostKeyRequestId (processId : ℕ) : ℕ → Text := nextRequestId "hostkey-" processId

def interactiveRequestId (processId : ℕ) : ℕ → Text := nextRequestId "interactive-" processId

abbrev HostKeyBroker := Rendezvous.State Text Text HostKeyPrompt Bool
abbrev InteractiveAuthBroker := Rendezvous.State Text Text InteractivePrompt (Option (List Text))
abbrev HostKeyMove := Move Text Text HostKeyPrompt Bool
abbrev InteractiveMove := Move Text Text InteractivePrompt (Option (List Text))

/-! ### Calls -/

/-- A call of `verify`. -/
structure Verification where
  verifier : PromptingHostKeyVerifier
  key : LiveHostKey

namespace Verification

variable (opensshFingerprint : Text → Option Text) (v : Verification)

def classify : HostKeyClassification :=
  classifyHostKey opensshFingerprint v.verifier.knownHosts v.verifier.hostname v.verifier.port v.key

/-- The call does not return before it asks. -/
def asks : Bool :=
  v.verifier.verificationEnabled && (v.classify opensshFingerprint).status ≠ .trusted

def prompt (requestId : Text) : HostKeyPrompt where
  requestId := requestId
  ownerId := v.verifier.ownerId
  sessionId := v.verifier.sessionId
  clientAttemptId := v.verifier.clientAttemptId
  hostname := v.verifier.hostname
  port := v.verifier.port
  status := (v.classify opensshFingerprint).status
  keyType := v.key.keyType
  fingerprint := v.key.fingerprint
  publicKey := v.key.publicKey
  knownHostId := (v.classify opensshFingerprint).knownHostId
  knownFingerprint := (v.classify opensshFingerprint).expectedFingerprint

def move (call : ℕ) : HostKeyMove := .call call v.verifier.ownerId (v.prompt opensshFingerprint)

end Verification

namespace PromptingInteractiveAuthResponder

variable (responder : PromptingInteractiveAuthResponder) (request : AuthenticationPrompts)

def prompt (requestId : Text) : InteractivePrompt where
  requestId := requestId
  ownerId := responder.ownerId
  sessionId := responder.sessionId
  clientAttemptId := responder.clientAttemptId
  name := request.name
  instructions := request.instructions
  prompts := request.prompts

def move (call : ℕ) : InteractiveMove := .call call responder.ownerId (responder.prompt request)

end PromptingInteractiveAuthResponder

/-! ### Both brokers -/

structure PromptState where
  hostKeys : HostKeyBroker
  verifications : ℕ → Option Verification
  interactive : InteractiveAuthBroker

def PromptState.initial : PromptState := ⟨.initial, fun _ => none, .initial⟩

inductive PromptMove
  | verify (call : ℕ) (verification : Verification)
  | hostKey (move : HostKeyMove)
  | respond (call : ℕ) (responder : PromptingInteractiveAuthResponder)
      (request : AuthenticationPrompts)
  | interactive (move : InteractiveMove)

/-- The moves by which a broker's requests begin are those of the calls. -/
def isCall {Prompt Answer : Type} : Move Text Text Prompt Answer → Bool
  | .call .. => true
  | _ => false

section Steps

variable (opensshFingerprint : Text → Option Text) (processId : ℕ)

inductive PromptStep : PromptState → PromptMove → PromptState → Prop
  /-- The call returns at once. -/
  | trusted {s : PromptState} (call : ℕ) (v : Verification) (hcall : s.verifications call = none)
      (hv : v.asks opensshFingerprint = false) :
      PromptStep s (.verify call v)
        { s with verifications := Function.update s.verifications call (some v) }
  | asked {s : PromptState} {broker : HostKeyBroker} (call : ℕ) (v : Verification)
      (hcall : s.verifications call = none) (hv : v.asks opensshFingerprint = true)
      (hs : Step (hostKeyRequestId processId) false s.hostKeys (v.move opensshFingerprint call)
        broker) :
      PromptStep s (.verify call v)
        { s with
          hostKeys := broker
          verifications := Function.update s.verifications call (some v) }
  | hostKey {s : PromptState} {broker : HostKeyBroker} {m : HostKeyMove} (hm : isCall m = false)
      (hs : Step (hostKeyRequestId processId) false s.hostKeys m broker) :
      PromptStep s (.hostKey m) { s with hostKeys := broker }
  | respond {s : PromptState} {broker : InteractiveAuthBroker} (call : ℕ)
      (responder : PromptingInteractiveAuthResponder) (request : AuthenticationPrompts)
      (hs : Step (interactiveRequestId processId) none s.interactive (responder.move request call)
        broker) :
      PromptStep s (.respond call responder request) { s with interactive := broker }
  | interactive {s : PromptState} {broker : InteractiveAuthBroker} {m : InteractiveMove}
      (hm : isCall m = false)
      (hs : Step (interactiveRequestId processId) none s.interactive m broker) :
      PromptStep s (.interactive m) { s with interactive := broker }

def hostKeyMoves : PromptMove → List HostKeyMove
  | .verify call v => if v.asks opensshFingerprint then [v.move opensshFingerprint call] else []
  | .hostKey m => [m]
  | .respond .. | .interactive _ => []

def interactiveMoves : PromptMove → List InteractiveMove
  | .respond call responder request => [responder.move request call]
  | .interactive m => [m]
  | .verify .. | .hostKey _ => []

/-- No call is given up while its request is registered. -/
def PromptState.Careful (s : PromptState) : PromptMove → Prop
  | .hostKey m => Rendezvous.Careful s.hostKeys m
  | .interactive m => Rendezvous.Careful s.interactive m
  | .verify .. | .respond .. => True

def CarefulPromptStep (s : PromptState) (m : PromptMove) (t : PromptState) : Prop :=
  s.Careful m ∧ PromptStep opensshFingerprint processId s m t

/-! ### Results -/

/-- What a call of `verify` has returned. -/
def PromptState.verified (s : PromptState) (call : ℕ) : Option (Except PromptFailure Bool) :=
  (s.verifications call).bind fun v =>
    if v.asks opensshFingerprint then
      match (s.hostKeys.requests call).map Request.phase with
      | some (.returned true) => some (.ok true)
      | some (.returned false) => some (.error .hostKeyRejected)
      | _ => none
    else some (.ok true)

/-- What a call of the responder has returned. -/
def PromptState.answered (s : PromptState) (call : ℕ) :
    Option (Except PromptFailure (List Text)) :=
  match (s.interactive.requests call).map Request.phase with
  | some (.returned (some answers)) => some (.ok answers)
  | some (.returned none) => some (.error .interactiveAuthFailed)
  | _ => none

/-- Every call has returned or was given up. -/
def PromptState.Idle (s : PromptState) : Prop :=
  (∀ call r, s.hostKeys.requests call = some r → r.phase.ended = true) ∧
    ∀ call r, s.interactive.requests call = some r → r.phase.ended = true

/-! ### Laws -/

variable {opensshFingerprint processId} {s t : PromptState} {m : PromptMove}

theorem PromptStep.hostKeys (h : PromptStep opensshFingerprint processId s m t) :
    Run (Step (hostKeyRequestId processId) false) s.hostKeys (hostKeyMoves opensshFingerprint m)
      t.hostKeys := by
  cases h with
  | trusted call v hcall hv =>
      rw [hostKeyMoves, hv]
      exact .refl
  | asked call v hcall hv hs =>
      rw [hostKeyMoves, hv]
      exact .single hs
  | hostKey hm hs => exact .single hs
  | respond call responder request hs => exact .refl
  | interactive hm hs => exact .refl

theorem PromptStep.interactive_run (h : PromptStep opensshFingerprint processId s m t) :
    Run (Step (interactiveRequestId processId) none) s.interactive (interactiveMoves m)
      t.interactive := by
  cases h with
  | trusted call v hcall hv => exact .refl
  | asked call v hcall hv hs => exact .refl
  | hostKey hm hs => exact .refl
  | respond call responder request hs => exact .single hs
  | interactive hm hs => exact .single hs

theorem CarefulPromptStep.hostKeys (h : CarefulPromptStep opensshFingerprint processId s m t) :
    Run (CarefulStep (hostKeyRequestId processId) false) s.hostKeys
      (hostKeyMoves opensshFingerprint m) t.hostKeys := by
  obtain ⟨hcareful, hs⟩ := h
  cases hs with
  | trusted call v hcall hv =>
      rw [hostKeyMoves, hv]
      exact .refl
  | asked call v hcall hv hs =>
      rw [hostKeyMoves, hv]
      exact .single ⟨trivial, hs⟩
  | hostKey hm hs => exact .single ⟨hcareful, hs⟩
  | respond call responder request hs => exact .refl
  | interactive hm hs => exact .refl

theorem CarefulPromptStep.interactive (h : CarefulPromptStep opensshFingerprint processId s m t) :
    Run (CarefulStep (interactiveRequestId processId) none) s.interactive (interactiveMoves m)
      t.interactive := by
  obtain ⟨hcareful, hs⟩ := h
  cases hs with
  | trusted call v hcall hv => exact .refl
  | asked call v hcall hv hs => exact .refl
  | hostKey hm hs => exact .refl
  | respond call responder request hs => exact .single ⟨trivial, hs⟩
  | interactive hm hs => exact .single ⟨hcareful, hs⟩

/-- The request of a call that asks belongs to the owner of its verifier. -/
def Assigned (opensshFingerprint : Text → Option Text) (s : PromptState) : Prop :=
  ∀ call v, s.verifications call = some v → v.asks opensshFingerprint = true →
    ∃ r, s.hostKeys.requests call = some r ∧ r.owner = v.verifier.ownerId

theorem Assigned.kept {broker : HostKeyBroker} {hostKeyMove : HostKeyMove}
    (ha : Assigned opensshFingerprint s) (h : Held s.hostKeys)
    (hs : Step (hostKeyRequestId processId) false s.hostKeys hostKeyMove broker) {call : ℕ}
    {v : Verification} (hv : s.verifications call = some v)
    (hasks : v.asks opensshFingerprint = true) :
    ∃ r, broker.requests call = some r ∧ r.owner = v.verifier.ownerId := by
  obtain ⟨r, hr, howner⟩ := ha call v hv hasks
  obtain ⟨r', hr', hchange⟩ := hs.change h hr
  exact ⟨r', hr', hchange.owner.trans howner⟩

theorem Assigned.step (ha : Assigned opensshFingerprint s) (h : Held s.hostKeys)
    (hs : PromptStep opensshFingerprint processId s m t) : Assigned opensshFingerprint t := by
  cases hs with
  | trusted call v hcall hv =>
      intro call' v' hv' hasks
      dsimp only at hv' ⊢
      rw [Function.update_apply] at hv'
      split_ifs at hv' with hsame
      · obtain rfl := Option.some.inj hv'
        rw [hv] at hasks
        cases hasks
      · exact ha call' v' hv' hasks
  | asked call v hcall hv hs =>
      intro call' v' hv' hasks
      dsimp only at hv' ⊢
      rw [Function.update_apply] at hv'
      split_ifs at hv' with hsame
      · obtain rfl := Option.some.inj hv'
        subst hsame
        cases hs with
        | call owner prompt hnone =>
            exact ⟨_, (Rendezvous.requests_setRequest _ _ _).trans (if_pos rfl), rfl⟩
      · exact ha.kept h hs hv' hasks
  | hostKey hm hs => exact fun call v hv hasks => ha.kept h hs hv hasks
  | respond call responder request hs => exact ha
  | interactive hm hs => exact ha

/-- What holds of the prompts after a run. -/
structure PromptLaws (opensshFingerprint : Text → Option Text) (processId : ℕ)
    (ms : List PromptMove) (s : PromptState) : Prop where
  /-- A key is accepted if it is known, or if its owner accepted it first. -/
  accepted : ∀ call v, s.verifications call = some v → v.verifier.verificationEnabled = true →
    s.verified opensshFingerprint call = some (.ok true) →
      (∃ known ∈ v.verifier.knownHosts,
        matchesHostAndPort known v.verifier.hostname v.verifier.port = true ∧
          knownFingerprint opensshFingerprint known =
            some (normalizeFingerprint v.key.fingerprint)) ∨
      ∃ r, s.hostKeys.requests call = some r ∧ r.owner = v.verifier.ownerId ∧
        Heard (hostKeyRequestId processId) false (ms.flatMap (hostKeyMoves opensshFingerprint)) call
          r.owner r.id true
  /-- The answers are those that the owner gave first. -/
  answers : ∀ call answers, s.answered call = some (.ok answers) →
    ∃ r, s.interactive.requests call = some r ∧
      Heard (interactiveRequestId processId) none (ms.flatMap interactiveMoves) call r.owner r.id
        (some answers)
  deliveredDecision : ∀ owner id accept broker,
    Step (hostKeyRequestId processId) false s.hostKeys (.respond owner id accept (.ok ())) broker →
      ∃! call, ∃ r, s.hostKeys.requests call = some r ∧ r.owner = owner ∧ r.id = id ∧
        r.mailbox = .vacant ∧ broker.requests = Function.update s.hostKeys.requests call
          (some { r with mailbox := .answered accept })
  deliveredAnswers : ∀ owner id answers broker,
    Step (interactiveRequestId processId) none s.interactive (.respond owner id answers (.ok ()))
      broker →
      ∃! call, ∃ r, s.interactive.requests call = some r ∧ r.owner = owner ∧ r.id = id ∧
        r.mailbox = .vacant ∧ broker.requests = Function.update s.interactive.requests call
          (some { r with mailbox := .answered answers })
  /-- Nothing stays registered after the last call, if none was given up while it was. -/
  left : Run (CarefulPromptStep opensshFingerprint processId) .initial ms s → s.Idle →
    (∀ id, s.hostKeys.pending id = none) ∧ ∀ id, s.interactive.pending id = none

theorem verified_ok {call : ℕ} {v : Verification} (hv : s.verifications call = some v)
    (h : s.verified opensshFingerprint call = some (.ok true)) :
    v.asks opensshFingerprint = false ∨ v.asks opensshFingerprint = true ∧
      ∃ r, s.hostKeys.requests call = some r ∧ r.phase = .returned true := by
  rw [PromptState.verified, hv, Option.bind_some] at h
  split_ifs at h with hasks
  · refine .inr ⟨hasks, ?_⟩
    cases hr : s.hostKeys.requests call with
    | none =>
        rw [hr] at h
        cases h
    | some r =>
        refine ⟨r, rfl, ?_⟩
        rw [hr, Option.map_some] at h
        split at h
        · next hphase => exact Option.some.inj hphase
        · cases h
        · cases h
  · exact .inl (Bool.eq_false_iff.mpr hasks)

theorem answered_ok {call : ℕ} {answers : List Text} (h : s.answered call = some (.ok answers)) :
    ∃ r, s.interactive.requests call = some r ∧ r.phase = .returned (some answers) := by
  rw [PromptState.answered] at h
  cases hr : s.interactive.requests call with
  | none =>
      rw [hr] at h
      cases h
  | some r =>
      refine ⟨r, rfl, ?_⟩
      rw [hr, Option.map_some] at h
      split at h
      · next hphase =>
          cases h
          exact Option.some.inj hphase
      · cases h
      · cases h

/-- **Prompts are answered by their owner**, in every run. -/
theorem prompts_laws {ms : List PromptMove}
    (hrun : Run (PromptStep opensshFingerprint processId) .initial ms s) :
    PromptLaws opensshFingerprint processId ms s := by
  have hhostKeys : Run (Step (hostKeyRequestId processId) false) Rendezvous.State.initial
      (ms.flatMap (hostKeyMoves opensshFingerprint)) s.hostKeys :=
    hrun.project PromptState.hostKeys fun _ _ _ hs => hs.hostKeys
  have hinteractive : Run (Step (interactiveRequestId processId) none) Rendezvous.State.initial
      (ms.flatMap interactiveMoves) s.interactive :=
    hrun.project PromptState.interactive fun _ _ _ hs => hs.interactive_run
  have hassigned : Held s.hostKeys ∧ Assigned opensshFingerprint s := by
    have hinitial : Assigned opensshFingerprint PromptState.initial := by
      intro call v hv
      change none = some v at hv
      cases hv
    refine hrun.invariant (I := fun s => Held s.hostKeys ∧ Assigned opensshFingerprint s)
      ⟨Rendezvous.held_initial, hinitial⟩ fun t m u ht hs => ⟨?_, ht.2.step ht.1 hs⟩
    exact hs.hostKeys.invariant ht.1 fun _ _ _ h hs => h.step hs
  refine ⟨fun call v hv henabled hok => ?_, fun call answers hok => ?_, ?_, ?_, ?_⟩
  · obtain hasks | ⟨hasks, r, hr, hphase⟩ := verified_ok hv hok
    · left
      rw [Verification.asks, henabled, Bool.true_and, decide_eq_false_iff_not, not_not] at hasks
      exact classifyHostKey_trusted_iff.mp hasks
    · right
      obtain ⟨r', hr', howner⟩ := hassigned.2 call v hv hasks
      obtain rfl := Option.some.inj (hr.symm.trans hr')
      exact ⟨r, hr, howner, Rendezvous.returned_heard hhostKeys hr hphase nofun⟩
  · obtain ⟨r, hr, hphase⟩ := answered_ok hok
    exact ⟨r, hr, Rendezvous.returned_heard hinteractive hr hphase nofun⟩
  · exact fun owner id accept broker hs => Rendezvous.respond_delivers hassigned.1 hs
  · exact fun owner id answers broker hs =>
      Rendezvous.respond_delivers (Rendezvous.held_run hinteractive) hs
  · intro hcareful hidle
    have hkeys : Run (CarefulStep (hostKeyRequestId processId) false) Rendezvous.State.initial
        (ms.flatMap (hostKeyMoves opensshFingerprint)) s.hostKeys :=
      hcareful.project PromptState.hostKeys fun _ _ _ hs => hs.hostKeys
    have hlogins : Run (CarefulStep (interactiveRequestId processId) none) Rendezvous.State.initial
        (ms.flatMap interactiveMoves) s.interactive :=
      hcareful.project PromptState.interactive fun _ _ _ hs => hs.interactive
    exact ⟨Rendezvous.pending_eq_none hkeys hidle.1, Rendezvous.pending_eq_none hlogins hidle.2⟩

end Steps

/-! ### Two runs -/

def windowVerifier : PromptingHostKeyVerifier where
  ownerId := ['w']
  sessionId := ['s']
  clientAttemptId := ['a']
  hostname := ['h']
  port := 22
  knownHosts := []
  verificationEnabled := true

def windowVerification : Verification := ⟨windowVerifier, ⟨['e'], ['f'], ['p']⟩⟩

/-- The window's request, in a phase. -/
def windowRequest (phase : Phase Bool) (mailbox : Rendezvous.Mailbox Bool) :
    Request Text Text HostKeyPrompt Bool where
  owner := ['w']
  id := hostKeyRequestId 1 1
  prompt := windowVerification.prompt (fun _ => none) (hostKeyRequestId 1 1)
  phase := phase
  mailbox := mailbox

/-- A broker with the window's request only. -/
def windowBroker (entry : Option (Entry Text)) (request : Request Text Text HostKeyPrompt Bool)
    (prompts : List HostKeyPrompt) : HostKeyBroker where
  sequence := 2
  pending := Function.update (fun _ => none) (hostKeyRequestId 1 1) entry
  requests := Function.update (fun _ => none) 0 (some request)
  listeners := 1
  prompts := prompts

theorem windowBroker_setRequest {entry : Option (Entry Text)}
    {request request' : Request Text Text HostKeyPrompt Bool} {prompts : List HostKeyPrompt} :
    (windowBroker entry request prompts).setRequest 0 request' =
      windowBroker entry request' prompts := by
  unfold windowBroker Rendezvous.State.setRequest
  rw [Function.update_idem]

theorem windowBroker_setPending {entry entry' : Option (Entry Text)}
    {request : Request Text Text HostKeyPrompt Bool} {prompts : List HostKeyPrompt} :
    (windowBroker entry request prompts).setPending (hostKeyRequestId 1 1) entry' =
      windowBroker entry' request prompts := by
  unfold windowBroker Rendezvous.State.setPending
  rw [Function.update_idem]

theorem windowBroker_requests {entry : Option (Entry Text)}
    {request : Request Text Text HostKeyPrompt Bool} {prompts : List HostKeyPrompt} :
    (windowBroker entry request prompts).requests 0 = some request := by simp [windowBroker]

theorem windowBroker_pending {entry : Option (Entry Text)}
    {request : Request Text Text HostKeyPrompt Bool} {prompts : List HostKeyPrompt} :
    (windowBroker entry request prompts).pending (hostKeyRequestId 1 1) = entry := by
  simp [windowBroker]

theorem windowBroker_discard {request : Request Text Text HostKeyPrompt Bool}
    {prompts : List HostKeyPrompt} :
    (windowBroker none request prompts).discard (hostKeyRequestId 1 1) =
      windowBroker none request prompts := by
  unfold Rendezvous.State.discard
  rw [windowBroker_pending]

def windowState (broker : HostKeyBroker) : PromptState where
  hostKeys := broker
  verifications := Function.update (fun _ => none) 0 (some windowVerification)
  interactive := .initial

/-- A step of the broker, in the state with the window's verification. -/
theorem window_step {broker broker' : HostKeyBroker} {m : HostKeyMove} (hm : isCall m = false)
    {broker'' : HostKeyBroker} (hs : Step (hostKeyRequestId 1) false broker m broker'')
    (heq : broker'' = broker') :
    PromptStep (fun _ => none) 1 (windowState broker) (.hostKey m) (windowState broker') := by
  subst heq
  exact .hostKey hm hs

def windowPrompt : HostKeyPrompt :=
  windowVerification.prompt (fun _ => none) (hostKeyRequestId 1 1)

def askedBroker : HostKeyBroker :=
  windowBroker (some ⟨['w'], 0⟩) (windowRequest .waiting .vacant) [windowPrompt]

def askingMoves : List PromptMove :=
  [.hostKey (.listen 1), .verify 0 windowVerification, .hostKey (.register 0),
    .hostKey (.publish 0)]

theorem run_asking :
    Run (PromptStep (fun _ => none) 1) .initial askingMoves (windowState askedBroker) := by
  have hlistened : PromptStep (fun _ => none) 1 .initial (.hostKey (.listen 1))
      { PromptState.initial with hostKeys := { Rendezvous.State.initial with listeners := 1 } } :=
    .hostKey rfl (.listen 1)
  have hasks : windowVerification.asks (fun _ => none) = true := by decide
  have hempty : Function.update (fun _ : Text => (none : Option (Entry Text)))
      (hostKeyRequestId 1 1) none = fun _ => none :=
    Function.update_eq_self (hostKeyRequestId 1 1) _
  have hcalled : PromptStep (fun _ => none) 1
      { PromptState.initial with hostKeys := { Rendezvous.State.initial with listeners := 1 } }
      (.verify 0 windowVerification)
      (windowState (windowBroker none (windowRequest .starting .vacant) [])) := by
    rw [windowBroker, hempty]
    exact .asked 0 windowVerification rfl hasks (.call _ _ rfl)
  have hregister : (windowBroker none (windowRequest .starting .vacant) []).register 0
      (windowRequest .starting .vacant) =
        windowBroker (some ⟨['w'], 0⟩) (windowRequest .registered .vacant) [] := by
    unfold Rendezvous.State.register
    change (((windowBroker none _ []).discard (hostKeyRequestId 1 1)).setPending
      (hostKeyRequestId 1 1) _).setRequest 0 _ = _
    rw [windowBroker_discard, windowBroker_setPending]
    exact windowBroker_setRequest
  have hpublish : (windowBroker (some ⟨['w'], 0⟩) (windowRequest .registered .vacant) []).publish 0
      (windowRequest .registered .vacant) = askedBroker := windowBroker_setRequest
  have hregistered := window_step rfl (.register windowBroker_requests rfl) hregister
  have hpublished := window_step rfl (.publish windowBroker_requests rfl) hpublish
  exact (((Run.single hlistened).snoc hcalled).snoc hregistered).snoc hpublished

/-- The window accepts the key. -/
theorem prompts_laws_accepted :
    ∃ ms s, s.verified (fun _ => none) 0 = some (.ok true) ∧ PromptLaws (fun _ => none) 1 ms s := by
  have hrespond : askedBroker.respond ['w'] (hostKeyRequestId 1 1) true =
      (windowBroker none (windowRequest .waiting (.answered true)) [windowPrompt], .ok ()) := by
    unfold Rendezvous.State.respond askedBroker
    rw [windowBroker_pending]
    dsimp only
    rw [if_neg (not_not.mpr rfl), windowBroker_setPending]
    unfold Rendezvous.State.send
    rw [windowBroker_requests]
    exact Prod.ext windowBroker_setRequest rfl
  have hstep : Step (hostKeyRequestId 1) false askedBroker _ _ :=
    .respond ['w'] (hostKeyRequestId 1 1) true
  rw [hrespond] at hstep
  have hresponded := window_step rfl hstep rfl
  have hfinish : ((windowBroker none (windowRequest (.finishing true) (.answered true))
      [windowPrompt]).discard (hostKeyRequestId 1 1)).setRequest 0
        (windowRequest (.returned true) (.answered true)) =
          windowBroker none (windowRequest (.returned true) (.answered true)) [windowPrompt] := by
    rw [windowBroker_discard]
    exact windowBroker_setRequest
  have hanswered : Rendezvous.Mailbox.answered true ≠ .vacant := nofun
  have hreceived := window_step rfl (.receive windowBroker_requests rfl hanswered)
    (@windowBroker_setRequest none (windowRequest .waiting (.answered true))
      (windowRequest (.finishing true) (.answered true)) [windowPrompt])
  have hfinished := window_step rfl (.finish windowBroker_requests rfl) hfinish
  refine ⟨_, _, ?_, prompts_laws (((run_asking.snoc hresponded).snoc hreceived).snoc hfinished)⟩
  have hasks : windowVerification.asks (fun _ => none) = true := by decide
  simp only [PromptState.verified, windowState, Function.update_self, Option.bind_some, hasks,
    if_true, windowBroker_requests, Option.map_some, windowRequest]

/-- A call that is given up while it waits leaves its entry behind. -/
theorem prompt_left_behind :
    ∃ ms s, Run (PromptStep (fun _ => none) 1) .initial ms s ∧ s.Idle ∧
      s.hostKeys.pending (hostKeyRequestId 1 1) ≠ none := by
  have hdropped := window_step rfl (.drop windowBroker_requests rfl)
    (@windowBroker_setRequest (some ⟨['w'], 0⟩) (windowRequest .waiting .vacant)
      (windowRequest .dropped .vacant) [windowPrompt])
  refine ⟨_, _, run_asking.snoc hdropped, ⟨fun call r hr => ?_, fun call r hr => ?_⟩, ?_⟩
  · unfold windowState windowBroker at hr
    dsimp only at hr
    rw [Function.update_apply] at hr
    split_ifs at hr
    cases hr
    rfl
  · change none = some r at hr
    cases hr
  · change (windowBroker _ _ _).pending (hostKeyRequestId 1 1) ≠ none
    rw [windowBroker_pending]
    exact Option.some_ne_none _

end Netcatty.Ssh
