import Mathlib.Data.Rat.Lemmas
import Mathlib.Algebra.Order.Ring.Rat
import Mathlib.Data.List.Basic
import Netcatty.Library.Rect

/-! # The layout of terminal panes

A workspace tiles its sessions: the layout is a binary tree whose leaves are panes and whose inner
nodes split their place in a ratio, with one session in focus.  Numbers are exact, and a number that
is not finite is `none`.

A call that throws returns an error; the layout that it was given is a value, and stays. -/

namespace Netcatty.Terminal

/-- A string, as its code units. -/
abbrev JsString := List UInt16

def jsString (s : String) : JsString := s.toList.map fun c => c.toNat.toUInt16

inductive TerminalPaneSplitDirection where
  | horizontal
  | vertical
  deriving DecidableEq

inductive TerminalPaneSplitPosition where
  | before
  | after
  deriving DecidableEq

inductive TerminalPaneLayoutNode (σ : Type) where
  | pane (id : JsString) (sessionId : σ)
  | split (id : JsString) (direction : TerminalPaneSplitDirection) (ratio : ℚ)
      (first second : TerminalPaneLayoutNode σ)
  deriving DecidableEq

structure TerminalPaneLayoutSnapshot (σ : Type) where
  root : TerminalPaneLayoutNode σ
  focusedSessionId : σ
  deriving DecidableEq

inductive TerminalPaneError where
  | nodeIdInvalid
  | targetNotFound
  | sessionDuplicate
  | limitReached
  | directionInvalid
  | positionInvalid
  | sessionNotFound
  | ratioInvalid
  | splitNotFound
  deriving DecidableEq

abbrev Throws := Except TerminalPaneError

def maxTerminalPanes : ℕ := 64
def absoluteMinTerminalPaneRatio : ℚ := 1 / 100
def absoluteMaxTerminalPaneRatio : ℚ := 99 / 100

/-! ### Nodes -/

/-- What the factory returns at each of its calls; `none` is no string. -/
abbrev IdFactory := ℕ → Option JsString

/-- The id of a node from the next call of the factory. -/
def createNodeId (affix : String) (idFactory : IdFactory) (calls : ℕ) : Throws JsString :=
  match idFactory calls with
  | none => .error .nodeIdInvalid
  | some suffix =>
      if suffix.length = 0 ∨ 128 < suffix.length then .error .nodeIdInvalid
      else .ok (jsString affix ++ jsString "-" ++ suffix)

section Layout

variable {σ : Type}

def createTerminalPaneLayout (sessionId : σ) (idFactory : IdFactory) :
    Throws (TerminalPaneLayoutSnapshot σ) :=
  (createNodeId "pane" idFactory 0).map fun id => ⟨.pane id sessionId, sessionId⟩

def collectTerminalPaneSessionIds : TerminalPaneLayoutNode σ → List σ
  | .pane _ sessionId => [sessionId]
  | .split _ _ _ first second =>
      collectTerminalPaneSessionIds first ++ collectTerminalPaneSessionIds second

variable [DecidableEq σ]

def terminalPaneLayoutContains (layout : TerminalPaneLayoutSnapshot σ) (sessionId : σ) : Bool :=
  (collectTerminalPaneSessionIds layout.root).contains sessionId

/-! ### Insertion -/

/-- The variables that the recursion changes: the calls of the factory, and `replaced`. -/
structure Insertion where
  calls : ℕ
  replaced : Bool

/-- `insert`, the local function of `insertTerminalPane`. -/
def insertPane (newPane : TerminalPaneLayoutNode σ) (targetSessionId : σ)
    (direction : TerminalPaneSplitDirection) (position : TerminalPaneSplitPosition)
    (idFactory : IdFactory) :
    TerminalPaneLayoutNode σ → Insertion → Throws (TerminalPaneLayoutNode σ × Insertion)
  | .pane id sessionId, state =>
      if sessionId ≠ targetSessionId then .ok (.pane id sessionId, state)
      else (createNodeId "split" idFactory state.calls).map fun splitId =>
        (.split splitId direction (1 / 2)
          (if position = .before then newPane else .pane id sessionId)
          (if position = .before then .pane id sessionId else newPane),
          ⟨state.calls + 1, true⟩)
  | .split id splitDirection ratio first second, state => do
      let (first, state) ←
        insertPane newPane targetSessionId direction position idFactory first state
      let (second, state) ←
        insertPane newPane targetSessionId direction position idFactory second state
      return (.split id splitDirection ratio first second, state)

/-- The recursion over the whole tree, with the new pane. -/
def insertAtTarget (layout : TerminalPaneLayoutSnapshot σ) (targetSessionId newSessionId : σ)
    (direction : TerminalPaneSplitDirection) (position : TerminalPaneSplitPosition)
    (idFactory : IdFactory) : Throws (TerminalPaneLayoutSnapshot σ) := do
  let id ← createNodeId "pane" idFactory 0
  let (root, state) ← insertPane (.pane id newSessionId) targetSessionId direction position
    idFactory layout.root ⟨1, false⟩
  if state.replaced then return ⟨root, layout.focusedSessionId⟩ else .error .targetNotFound

/-- A direction or a position that is neither of its two values is `none`. -/
def insertTerminalPane (layout : TerminalPaneLayoutSnapshot σ) (targetSessionId newSessionId : σ)
    (direction : Option TerminalPaneSplitDirection) (position : Option TerminalPaneSplitPosition)
    (idFactory : IdFactory) : Throws (TerminalPaneLayoutSnapshot σ) :=
  let sessionIds := collectTerminalPaneSessionIds layout.root
  if !sessionIds.contains targetSessionId then .error .targetNotFound
  else if sessionIds.contains newSessionId then .error .sessionDuplicate
  else if maxTerminalPanes ≤ sessionIds.length then .error .limitReached
  else
    match direction, position with
    | none, _ => .error .directionInvalid
    | some _, none => .error .positionInvalid
    | some direction, some position =>
        insertAtTarget layout targetSessionId newSessionId direction position idFactory

def splitTerminalPane (layout : TerminalPaneLayoutSnapshot σ) (targetSessionId newSessionId : σ)
    (direction : Option TerminalPaneSplitDirection) (idFactory : IdFactory) :
    Throws (TerminalPaneLayoutSnapshot σ) :=
  insertTerminalPane layout targetSessionId newSessionId direction (some .after) idFactory

def splitTerminalPaneAtPosition (layout : TerminalPaneLayoutSnapshot σ)
    (targetSessionId newSessionId : σ) (direction : Option TerminalPaneSplitDirection)
    (position : Option TerminalPaneSplitPosition) (idFactory : IdFactory) :
    Throws (TerminalPaneLayoutSnapshot σ) :=
  insertTerminalPane layout targetSessionId newSessionId direction position idFactory

/-! ### Focus and removal -/

def focusTerminalPane (layout : TerminalPaneLayoutSnapshot σ) (sessionId : σ) :
    Throws (TerminalPaneLayoutSnapshot σ) :=
  if !terminalPaneLayoutContains layout sessionId then .error .sessionNotFound
  else if layout.focusedSessionId = sessionId then .ok layout
  else .ok ⟨layout.root, sessionId⟩

def removeSessionNode (sessionId : σ) : TerminalPaneLayoutNode σ → Option (TerminalPaneLayoutNode σ)
  | .pane id session => if session = sessionId then none else some (.pane id session)
  | .split id direction ratio first second =>
      match removeSessionNode sessionId first, removeSessionNode sessionId second with
      | none, second => second
      | some first, none => some first
      | some first, some second => some (.split id direction ratio first second)

/-- The first session of a tree, `nextIds[0]`. -/
def firstSession : TerminalPaneLayoutNode σ → σ
  | .pane _ sessionId => sessionId
  | .split _ _ _ first _ => firstSession first

def removeTerminalPane (layout : TerminalPaneLayoutSnapshot σ) (sessionId : σ) :
    Option (TerminalPaneLayoutSnapshot σ) :=
  let previousIds := collectTerminalPaneSessionIds layout.root
  if !previousIds.contains sessionId then some layout
  else
    let removedIndex := previousIds.idxOf sessionId
    (removeSessionNode sessionId layout.root).map fun root =>
      let nextIds := collectTerminalPaneSessionIds root
      let focusedSessionId :=
        if layout.focusedSessionId = sessionId then
          (((previousIds.drop (removedIndex + 1)).find? nextIds.contains).or
            ((previousIds.take removedIndex).reverse.find? nextIds.contains)).getD
              (firstSession root)
        else layout.focusedSessionId
      ⟨root, focusedSessionId⟩

/-- The loop of `pruneTerminalPaneLayout`. -/
def prunePanes (live : σ → Bool) :
    List σ → Option (TerminalPaneLayoutSnapshot σ) → Option (TerminalPaneLayoutSnapshot σ)
  | [], next => next
  | sessionId :: rest, next =>
      prunePanes live rest
        (if live sessionId then next else next.bind fun next => removeTerminalPane next sessionId)

def pruneTerminalPaneLayout (layout : TerminalPaneLayoutSnapshot σ) (live : σ → Bool) :
    Option (TerminalPaneLayoutSnapshot σ) :=
  prunePanes live (collectTerminalPaneSessionIds layout.root) (some layout)

/-! ### Ratios -/

def clampRatio (ratio : Option ℚ) : Throws ℚ :=
  match ratio with
  | none => .error .ratioInvalid
  | some ratio =>
      .ok (min absoluteMaxTerminalPaneRatio (max absoluteMinTerminalPaneRatio ratio))

/-- `patch`, the local function of `resizeTerminalPaneSplit`, with `matched`. -/
def patchRatio (splitId : JsString) (normalizedRatio : ℚ) :
    TerminalPaneLayoutNode σ → TerminalPaneLayoutNode σ × Bool
  | .pane id sessionId => (.pane id sessionId, false)
  | .split id direction ratio first second =>
      if id = splitId then (.split id direction normalizedRatio first second, true)
      else
        let first := patchRatio splitId normalizedRatio first
        let second := patchRatio splitId normalizedRatio second
        (.split id direction ratio first.1 second.1, first.2 || second.2)

def resizeTerminalPaneSplit (layout : TerminalPaneLayoutSnapshot σ) (splitId : JsString)
    (ratio : Option ℚ) : Throws (TerminalPaneLayoutSnapshot σ) := do
  let normalizedRatio ← clampRatio ratio
  let patched := patchRatio splitId normalizedRatio layout.root
  if patched.2 then return ⟨patched.1, layout.focusedSessionId⟩ else .error .splitNotFound

/-! ### Geometry -/

structure TerminalPaneSplitHandle where
  splitId : JsString
  direction : TerminalPaneSplitDirection
  ratio : ℚ
  rect : Rect ℚ

structure TerminalPaneGeometry (σ : Type) where
  panes : List (σ × Rect ℚ)
  handles : List TerminalPaneSplitHandle

/-- `panes[sessionId] = rect`. -/
def setPane (sessionId : σ) (rect : Rect ℚ) : List (σ × Rect ℚ) → List (σ × Rect ℚ)
  | [] => [(sessionId, rect)]
  | entry :: rest =>
      if entry.1 = sessionId then (sessionId, rect) :: rest
      else entry :: setPane sessionId rect rest

/-- `visit`, the local function of `computeTerminalPaneGeometry`. -/
def visitPanes : TerminalPaneLayoutNode σ → Rect ℚ → TerminalPaneGeometry σ →
    Throws (TerminalPaneGeometry σ)
  | .pane _ sessionId, rect, geometry =>
      .ok { geometry with panes := setPane sessionId rect geometry.panes }
  | .split id direction ratio first second, rect, geometry => do
      let ratio ← clampRatio (some ratio)
      let geometry := { geometry with
        handles := geometry.handles ++ [⟨id, direction, ratio, rect⟩] }
      match direction with
      | .vertical => do
          let geometry ← visitPanes first (rect.left ratio) geometry
          visitPanes second (rect.right ratio) geometry
      | .horizontal => do
          let geometry ← visitPanes first (rect.upper ratio) geometry
          visitPanes second (rect.lower ratio) geometry

def unitSquare : Rect ℚ := ⟨0, 0, 1, 1⟩

def computeTerminalPaneGeometry (layout : TerminalPaneLayoutSnapshot σ) :
    Throws (TerminalPaneGeometry σ) := visitPanes layout.root unitSquare ⟨[], []⟩

/-! ### Calls -/

inductive PaneCall (σ : Type) where
  | split (targetSessionId newSessionId : σ) (direction : Option TerminalPaneSplitDirection)
      (position : Option TerminalPaneSplitPosition) (idFactory : IdFactory)
  | focus (sessionId : σ)
  | resize (splitId : JsString) (ratio : Option ℚ)
  | remove (sessionId : σ)
  | prune (live : σ → Bool)

/-- What a call returns; `none` is no layout. -/
def PaneCall.result (layout : TerminalPaneLayoutSnapshot σ) :
    PaneCall σ → Throws (Option (TerminalPaneLayoutSnapshot σ))
  | split target new direction position idFactory =>
      (splitTerminalPaneAtPosition layout target new direction position idFactory).map some
  | focus sessionId => (focusTerminalPane layout sessionId).map some
  | resize splitId ratio => (resizeTerminalPaneSplit layout splitId ratio).map some
  | remove sessionId => .ok (removeTerminalPane layout sessionId)
  | prune live => .ok (pruneTerminalPaneLayout layout live)

/-- The layout of the workspace after a call. -/
def afterCall (layout : TerminalPaneLayoutSnapshot σ) (call : PaneCall σ) :
    Option (TerminalPaneLayoutSnapshot σ) :=
  match call.result layout with
  | .error _ => some layout
  | .ok next => next

/-- The layout after calls, as long as there is one. -/
def afterCalls (layout : TerminalPaneLayoutSnapshot σ) :
    List (PaneCall σ) → Option (TerminalPaneLayoutSnapshot σ)
  | [] => some layout
  | call :: calls => (afterCall layout call).bind fun next => afterCalls next calls

end Layout

end Netcatty.Terminal
