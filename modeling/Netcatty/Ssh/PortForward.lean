import Mathlib.Logic.Function.Basic
import Mathlib.Order.Defs.LinearOrder
import Mathlib.Data.List.Sort

/-! # Port forwards

A `PortForwardManager` registers one forwarding task per rule.  Any number of `start`,
`start_remote`, `stop` and `stop_all` calls are under way at a time, and so are the tasks: `Step`
takes one of them to its next lock, request, event or return.  What happens while the lock on the
registry is held is one step.  A task never looks at the registry, so that spawning it and
registering it may be one step too. -/

namespace Netcatty.Ssh.PortForward

inductive PortForwardKind
  | localForward | remoteForward | dynamicForward
  deriving DecidableEq, Repr

inductive PortForwardError
  | invalidRule | duplicateRule | notFound | unsupportedKind | bindFailed | channelFailed
  | capacityReached | socksProtocol
  | transport (error : String)
  deriving DecidableEq, Repr

def PortForwardError.toString : PortForwardError → String
  | invalidRule => "端口转发规则无效"
  | duplicateRule => "该端口转发规则已经在运行"
  | notFound => "端口转发不存在"
  | unsupportedKind => "这种端口转发类型尚不可用"
  | bindFailed => "无法监听端口转发地址"
  | channelFailed => "无法打开 SSH 端口转发通道"
  | capacityReached => "端口转发并发连接数已达到上限"
  | socksProtocol => "SOCKS5 请求无效或不受支持"
  | transport error => error

inductive PortForwardEvent
  | active (address : String) (port : ℕ)
  | connectionError (message : String)
  | stopped
  deriving DecidableEq, Repr

def eventBufferSize : ℕ := 64
def maxForwardConnectionsPerRule : ℕ := 128

/-- Normalizing a rule makes sure that every forward but a dynamic one has a target. -/
structure NormalizedPortForwardRule (RuleId : Type) where
  id : RuleId
  kind : PortForwardKind
  bindAddress : String
  localPort : ℕ
  remoteHost : Option String
  remotePort : Option ℕ
  target_ok : kind ≠ .dynamicForward → remoteHost.isSome = true ∧ remotePort.isSome = true

/-! ### Forwarding tasks -/

/-- Where a forwarding task is: in its accept loop, waiting for the connections that it aborted,
before the request that gives a remote forward back, before its last event, or over. -/
inductive Phase
  | accepting | closing | cancelling | leaving | ended
  deriving DecidableEq, Repr

/-- A forwarding task, with its cancellation token and its event channel. -/
structure Forward (RuleId : Type) where
  /-- The call that spawned it. -/
  starter : ℕ
  rule : NormalizedPortForwardRule RuleId
  assignedPort : ℕ
  /-- The remote forward that it serves. -/
  grant : Option ℕ
  cancelled : Bool
  phase : Phase
  /-- Connection tasks that have not ended; each holds a slot. -/
  connections : ℕ
  /-- Whether it left its accept loop because nothing could be accepted any more. -/
  failed : Bool
  events : List PortForwardEvent
  /-- How far the receiver that its starter returned has read. -/
  position : ℕ
  received : List PortForwardEvent

inductive ForwardMove
  /-- The loop ends because of the cancellation token. -/
  | noticed
  | accepted
  /-- A connection comes when no slot is free. -/
  | refused
  | acceptFailed (error : PortForwardError)
  | connectionEnded
  | connectionFailed (error : PortForwardError)
  /-- No connection task is left. -/
  | joined
  | withdrawn
  | finished
  /-- The receiver of the starter receives. -/
  | receive
  deriving DecidableEq, Repr

namespace Forward

variable {RuleId : Type}

def spawn (starter : ℕ) (rule : NormalizedPortForwardRule RuleId) (assignedPort : ℕ)
    (grant : Option ℕ) : Forward RuleId where
  starter
  rule
  assignedPort
  grant
  cancelled := false
  phase := .accepting
  connections := 0
  failed := false
  events := []
  position := 0
  received := []

def send (f : Forward RuleId) (event : PortForwardEvent) : Forward RuleId :=
  { f with events := f.events ++ [event] }

/-- A receiver that fell too far behind skips to the oldest event that is still there. -/
def recv (f : Forward RuleId) : Option (Forward RuleId) :=
  match f.events[f.position]? with
  | none => none
  | some event =>
    if f.position + eventBufferSize < f.events.length then
      some { f with position := f.events.length - eventBufferSize }
    else some { f with position := f.position + 1, received := f.received ++ [event] }

def move (f : Forward RuleId) : ForwardMove → Option (Forward RuleId)
  | .noticed =>
    if f.phase = .accepting ∧ f.cancelled = true then some { f with phase := .closing } else none
  | .accepted =>
    if f.phase = .accepting ∧ f.connections < maxForwardConnectionsPerRule then
      some { f with connections := f.connections + 1 }
    else none
  | .refused =>
    if f.phase = .accepting ∧ ¬f.connections < maxForwardConnectionsPerRule then
      some (f.send (.connectionError PortForwardError.capacityReached.toString))
    else none
  | .acceptFailed error =>
    if f.phase = .accepting ∧ (f.grant = none → error = .bindFailed) then
      some { f.send (.connectionError error.toString) with phase := .closing, failed := true }
    else none
  | .connectionEnded =>
    if 0 < f.connections then some { f with connections := f.connections - 1 } else none
  | .connectionFailed error =>
    if 0 < f.connections then
      some { f.send (.connectionError error.toString) with connections := f.connections - 1 }
    else none
  | .joined =>
    if f.phase = .closing ∧ f.connections = 0 then
      some { f with phase := if f.grant.isSome then .cancelling else .leaving }
    else none
  | .withdrawn => if f.phase = .cancelling then some { f with phase := .leaving } else none
  | .finished =>
    if f.phase = .leaving then some { f.send .stopped with phase := .ended } else none
  | .receive => f.recv

end Forward

/-! ### Calls -/

/-- How far a call has come. -/
inductive Call (RuleId : Type)
  /-- `start` listens and asks for the lock. -/
  | bound (rule : NormalizedPortForwardRule RuleId) (address : String) (port : ℕ)
  /-- `start_remote` found no such rule running and asks the server. -/
  | requesting (rule : NormalizedPortForwardRule RuleId)
  /-- `start_remote` has its forward and asks for the lock again. -/
  | granted (rule : NormalizedPortForwardRule RuleId) (grant port : ℕ)
  /-- `start_remote` is about to give its forward back. -/
  | withdrawing (grant : ℕ) (address : String) (port : ℕ) (error : PortForwardError)
  /-- The task is registered and the lock is free again. -/
  | publishing (tunnel : ℕ) (address : String) (port : ℕ)
  | started (tunnel : ℕ)
  /-- `stop` or `stop_all` took these tasks out of the registry and has not told them yet. -/
  | stopping (tunnels : List ℕ)
  | returned
  | failed (error : PortForwardError)

structure State (RuleId : Type) where
  rules : List (RuleId × ℕ)
  forwards : ℕ → Option (Forward RuleId)
  nextTunnelId : ℕ
  /-- The remote forwards that the server granted, by the address and port they are given back
  under. -/
  grants : List (String × ℕ)
  /-- The requests to give a remote forward back. -/
  withdrawn : List (ℕ × String × ℕ)
  calls : ℕ → Option (Call RuleId)

namespace State

variable {RuleId : Type}

def initial : State RuleId where
  rules := []
  forwards _ := none
  nextTunnelId := 1
  grants := []
  withdrawn := []
  calls _ := none

def setCall (s : State RuleId) (c : ℕ) (call : Call RuleId) : State RuleId :=
  { s with calls := Function.update s.calls c (some call) }

def setForward (s : State RuleId) (t : ℕ) (f : Forward RuleId) : State RuleId :=
  { s with forwards := Function.update s.forwards t (some f) }

def containsKey (s : State RuleId) (id : RuleId) : Prop := id ∈ s.rules.map Prod.fst

/-- A task is spawned and registered, and the call goes on to publish it. -/
def register (s : State RuleId) (c : ℕ) (rule : NormalizedPortForwardRule RuleId)
    (address : String) (port : ℕ) (grant : Option ℕ) : State RuleId :=
  let t := s.nextTunnelId
  let s := { s with rules := (rule.id, t) :: s.rules, nextTunnelId := t + 1 }
  (s.setForward t (.spawn c rule port grant)).setCall c (.publishing t address port)

/-- The server grants a remote forward. -/
def addGrant (s : State RuleId) (address : String) (port : ℕ) : State RuleId :=
  { s with grants := s.grants ++ [(address, port)] }

/-- The server is asked to end a remote forward. -/
def cancelRemoteForward (s : State RuleId) (grant : ℕ) (address : String) (port : ℕ) :
    State RuleId :=
  { s with withdrawn := s.withdrawn ++ [(grant, address, port)] }

/-- The registered tunnels, by rule. -/
def activeTunnels [LinearOrder RuleId] (s : State RuleId) : List (RuleId × ℕ) :=
  s.rules.mergeSort fun left right => left.1 ≤ right.1

end State

/-! ### Steps -/

inductive Move
  | call (c : ℕ)
  | forward (t : ℕ) (move : ForwardMove)
  deriving DecidableEq, Repr

inductive Step {RuleId : Type} [DecidableEq RuleId] :
    State RuleId → Move → State RuleId → Prop
  /-- A call fails before it holds anything: a rule of another kind or already running, an address
  that cannot be listened on, nothing to stop. -/
  | refused {s c} (error : PortForwardError) (h : s.calls c = none) :
      Step s (.call c) (s.setCall c (.failed error))
  | bound {s c rule} (address : String) (port : ℕ) (h : s.calls c = none)
      (hkind : rule.kind ≠ .remoteForward) :
      Step s (.call c) (s.setCall c (.bound rule address port))
  | duplicate {s c rule address port} (h : s.calls c = some (.bound rule address port))
      (hkey : s.containsKey rule.id) :
      Step s (.call c) (s.setCall c (.failed .duplicateRule))
  | register {s c rule address port} (h : s.calls c = some (.bound rule address port))
      (hkey : ¬s.containsKey rule.id) :
      Step s (.call c) (s.register c rule address port none)
  | requested {s c rule} (h : s.calls c = none) (hkind : rule.kind = .remoteForward)
      (hkey : ¬s.containsKey rule.id) :
      Step s (.call c) (s.setCall c (.requesting rule))
  | requestFailed {s c rule} (error : PortForwardError) (h : s.calls c = some (.requesting rule)) :
      Step s (.call c) (s.setCall c (.failed error))
  | grantedNone {s c rule} (h : s.calls c = some (.requesting rule)) :
      Step s (.call c) ((s.addGrant rule.bindAddress rule.localPort).setCall c
        (.withdrawing s.grants.length rule.bindAddress rule.localPort .channelFailed))
  | granted {s c rule} (port : ℕ) (h : s.calls c = some (.requesting rule)) (hport : port ≠ 0) :
      Step s (.call c) ((s.addGrant rule.bindAddress port).setCall c
        (.granted rule s.grants.length port))
  | remoteDuplicate {s c rule grant port} (h : s.calls c = some (.granted rule grant port))
      (hkey : s.containsKey rule.id) :
      Step s (.call c) (s.setCall c (.withdrawing grant rule.bindAddress port .duplicateRule))
  | registerRemote {s c rule grant port} (h : s.calls c = some (.granted rule grant port))
      (hkey : ¬s.containsKey rule.id) :
      Step s (.call c) (s.register c rule rule.bindAddress port (some grant))
  | withdrew {s c grant address port error}
      (h : s.calls c = some (.withdrawing grant address port error)) :
      Step s (.call c) ((s.cancelRemoteForward grant address port).setCall c (.failed error))
  | published {s c t address port f} (h : s.calls c = some (.publishing t address port))
      (hf : s.forwards t = some f) :
      Step s (.call c) ((s.setForward t (f.send (.active address port))).setCall c (.started t))
  | stop {s c id t} (h : s.calls c = none) (hrule : (id, t) ∈ s.rules) :
      Step s (.call c)
        ({ s with rules := s.rules.filter fun rule => rule.1 ≠ id }.setCall c (.stopping [t]))
  | stopAll {s c} (h : s.calls c = none) :
      Step s (.call c) ({ s with rules := [] }.setCall c (.stopping (s.rules.map Prod.snd)))
  | cancelled {s c t ts f} (h : s.calls c = some (.stopping (t :: ts)))
      (hf : s.forwards t = some f) :
      Step s (.call c)
        ((s.setForward t { f with cancelled := true }).setCall c (.stopping ts))
  /-- The tasks have ended, or were waited for long enough. -/
  | returned {s c} (h : s.calls c = some (.stopping [])) :
      Step s (.call c) (s.setCall c .returned)
  | forward {s t f f'} (move : ForwardMove) (hf : s.forwards t = some f)
      (hmove : f.move move = some f') (hwithdrawn : move ≠ .withdrawn)
      (hreceive : move = .receive → s.calls f.starter = some (.started t)) :
      Step s (.forward t move) (s.setForward t f')
  | forwardWithdrawn {s t f f' grant} (hf : s.forwards t = some f)
      (hmove : f.move .withdrawn = some f') (hgrant : f.grant = some grant) :
      Step s (.forward t .withdrawn)
        ((s.setForward t f').cancelRemoteForward grant f.rule.bindAddress f.assignedPort)

end Netcatty.Ssh.PortForward
