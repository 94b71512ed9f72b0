import Netcatty.Terminal.PaneLaws
import Netcatty.Terminal.RestoreLaws

/-! # The stored layout of panes

The recursion over a stored layout accepts a value exactly if it shows a tree within the bounds, and
keeps of it what `pruneNode` does, the leaves whose sessions are stored (`visitPaneNode_ok_iff`). -/

namespace Netcatty.Terminal

open Catalog (bind_ok_iff)
open Json (Value units)

/-! ### Trees -/

section Trees

variable {σ : Type}

/-- The ids of the nodes, each before those below it. -/
def paneNodeIds : TerminalPaneLayoutNode σ → List JsString
  | .pane id _ => [id]
  | .split id _ _ first second => id :: (paneNodeIds first ++ paneNodeIds second)

def nodeDepth : TerminalPaneLayoutNode σ → ℕ
  | .pane .. => 1
  | .split _ _ _ first second => max (nodeDepth first) (nodeDepth second) + 1

/-- The ratios of the splits are within the bounds. -/
def RatiosInside : TerminalPaneLayoutNode σ → Prop
  | .pane .. => True
  | .split _ _ ratio first second =>
      minPaneRatio ≤ ratio ∧ ratio ≤ maxPaneRatio ∧ RatiosInside first ∧ RatiosInside second

/-- The panes of the sessions to keep; a split of one part is that part. -/
def pruneNode (keep : σ → Bool) : TerminalPaneLayoutNode σ → Option (TerminalPaneLayoutNode σ)
  | .pane id sessionId => if keep sessionId then some (.pane id sessionId) else none
  | .split id direction ratio first second =>
      match pruneNode keep first, pruneNode keep second with
      | none, second => second
      | some first, none => some first
      | some first, some second => some (.split id direction ratio first second)

theorem nodeDepth_le (node : TerminalPaneLayoutNode σ) :
    nodeDepth node ≤ (collectTerminalPaneSessionIds node).length := by
  induction node with
  | pane id sessionId => exact Nat.le_refl 1
  | split id direction ratio first second ihFirst ihSecond =>
      have hfirst := List.length_pos_iff.mpr (collect_ne_nil first)
      have hsecond := List.length_pos_iff.mpr (collect_ne_nil second)
      rw [nodeDepth, collectTerminalPaneSessionIds, List.length_append]
      omega

theorem length_paneNodeIds (node : TerminalPaneLayoutNode σ) :
    (paneNodeIds node).length + 1 = 2 * (collectTerminalPaneSessionIds node).length := by
  induction node with
  | pane id sessionId => rfl
  | split id direction ratio first second ihFirst ihSecond =>
      rw [paneNodeIds, collectTerminalPaneSessionIds, List.length_cons, List.length_append,
        List.length_append]
      omega

theorem pruneNode_all {keep : σ → Bool} {node : TerminalPaneLayoutNode σ}
    (h : ∀ sessionId ∈ collectTerminalPaneSessionIds node, keep sessionId = true) :
    pruneNode keep node = some node := by
  induction node with
  | pane id sessionId => exact if_pos (h sessionId List.mem_cons_self)
  | split id direction ratio first second ihFirst ihSecond =>
      rw [collectTerminalPaneSessionIds] at h
      rw [pruneNode, ihFirst fun sessionId hs => h sessionId (List.mem_append_left _ hs),
        ihSecond fun sessionId hs => h sessionId (List.mem_append_right _ hs)]

/-- The panes that are left, in their order. -/
theorem collect_pruneNode (keep : σ → Bool) (node : TerminalPaneLayoutNode σ) :
    ((pruneNode keep node).map collectTerminalPaneSessionIds).getD [] =
      (collectTerminalPaneSessionIds node).filter keep := by
  induction node with
  | pane id sessionId =>
      cases h : keep sessionId with
      | false => simp [pruneNode, collectTerminalPaneSessionIds, h]
      | true => simp [pruneNode, collectTerminalPaneSessionIds, h]
  | split id direction ratio first second ihFirst ihSecond =>
      rw [pruneNode, collectTerminalPaneSessionIds, List.filter_append, ← ihFirst, ← ihSecond]
      cases pruneNode keep first with
      | none => rfl
      | some first =>
          cases pruneNode keep second with
          | none => exact (List.append_nil _).symm
          | some second => rfl

theorem pruneNode_eq_none_iff {keep : σ → Bool} {node : TerminalPaneLayoutNode σ} :
    pruneNode keep node = none ↔ (collectTerminalPaneSessionIds node).filter keep = [] := by
  rw [← collect_pruneNode]
  cases pruneNode keep node with
  | none => exact iff_of_true rfl rfl
  | some root => exact iff_of_false nofun (collect_ne_nil root)

/-- What pruning leaves of a tree has no new ids, and no new ratios. -/
theorem pruneNode_inherits {keep : σ → Bool} {node root : TerminalPaneLayoutNode σ}
    (h : pruneNode keep node = some root) :
    (paneNodeIds root).Sublist (paneNodeIds node) ∧ (RatiosInside node → RatiosInside root) := by
  induction node generalizing root with
  | pane id sessionId =>
      rw [pruneNode] at h
      split_ifs at h
      cases h
      exact ⟨List.Sublist.refl _, fun hr => hr⟩
  | split id direction ratio first second ihFirst ihSecond =>
      rw [pruneNode] at h
      cases hfirst : pruneNode keep first with
      | none =>
          rw [hfirst] at h
          obtain ⟨hids, hratios⟩ := ihSecond h
          exact ⟨(hids.trans (List.sublist_append_right _ _)).cons _, fun hr => hratios hr.2.2.2⟩
      | some first' =>
          rw [hfirst] at h
          obtain ⟨hids, hratios⟩ := ihFirst hfirst
          cases hsecond : pruneNode keep second with
          | none =>
              rw [hsecond] at h
              cases h
              exact ⟨(hids.trans (List.sublist_append_left _ _)).cons _,
                fun hr => hratios hr.2.2.1⟩
          | some second' =>
              rw [hsecond] at h
              cases h
              obtain ⟨hids', hratios'⟩ := ihSecond hsecond
              exact ⟨(hids.append hids').cons_cons _,
                fun hr => ⟨hr.1, hr.2.1, hratios hr.2.2.1, hratios' hr.2.2.2⟩⟩

/-- Pruning twice is pruning by both. -/
theorem pruneNode_bind (keep keep' : σ → Bool) (node : TerminalPaneLayoutNode σ) :
    (pruneNode keep node).bind (pruneNode keep') =
      pruneNode (fun sessionId => keep sessionId && keep' sessionId) node := by
  induction node with
  | pane id sessionId =>
      rw [pruneNode, pruneNode]
      cases hkeep : keep sessionId with
      | false => rfl
      | true => rfl
  | split id direction ratio first second ihFirst ihSecond =>
      rw [pruneNode, pruneNode, ← ihFirst, ← ihSecond]
      cases pruneNode keep first with
      | none => rfl
      | some first' =>
          rw [Option.bind_some]
          cases pruneNode keep second with
          | none =>
              rw [Option.bind_none]
              dsimp only
              rw [Option.bind_some]
              cases pruneNode keep' first' with
              | none => rfl
              | some root => rfl
          | some second' => rfl

end Trees

/-! ### New elements -/

section Fresh

variable {α : Type}

/-- The elements of a list are different ones, and none of those before. -/
def Fresh (before new : List α) : Prop := new.Nodup ∧ ∀ a ∈ new, a ∉ before

theorem fresh_singleton {before : List α} {a : α} : Fresh before [a] ↔ a ∉ before := by
  unfold Fresh
  simp

theorem fresh_append {before new new' : List α} :
    Fresh before (new ++ new') ↔ Fresh before new ∧ Fresh (before ++ new) new' := by
  unfold Fresh
  simp only [List.nodup_append', List.mem_append, not_or, or_imp, forall_and, List.disjoint_left]
  constructor
  · rintro ⟨⟨hnew, hnew', hdisjoint⟩, hbefore, hbefore'⟩
    exact ⟨⟨hnew, hbefore⟩, hnew', hbefore', fun a ha' ha => hdisjoint ha ha'⟩
  · rintro ⟨⟨hnew, hbefore⟩, hnew', hbefore', hdisjoint⟩
    exact ⟨⟨hnew, hnew', fun a ha ha' => hdisjoint a ha' ha⟩, hbefore, hbefore'⟩

theorem fresh_nil {new : List α} : Fresh [] new ↔ new.Nodup := by
  unfold Fresh
  simp

end Fresh

/-! ### The recursion -/

/-- The fields of a value, and no others, are those of the node. -/
def PaneNodeShows : SessionRestorePaneLayoutNode → Value → Prop
  | .pane id sessionId, value =>
      hasExactKeys value ["id", "type", "sessionId"] = true ∧
        fieldOf value "type" = textValue "pane" ∧ fieldOf value "id" = .string id ∧
        fieldOf value "sessionId" = .string sessionId.val
  | .split id direction ratio first second, value =>
      hasExactKeys value ["id", "type", "direction", "ratio", "first", "second"] = true ∧
        fieldOf value "type" = textValue "split" ∧ fieldOf value "id" = .string id ∧
        fieldOf value "direction" = textValue (splitDirectionText direction) ∧
        fieldOf value "ratio" = .number ratio ∧
        PaneNodeShows first (fieldOf value "first") ∧ PaneNodeShows second (fieldOf value "second")

theorem isObject_of_paneNodeShows {node : SessionRestorePaneLayoutNode} {value : Value}
    (h : PaneNodeShows node value) : isObject value = true := by
  cases node with
  | pane id sessionId => exact isObject_of_hasExactKeys h.1
  | split id direction ratio first second => exact isObject_of_hasExactKeys h.1

section Visit

variable (retained : WorkspaceSessionId → Bool) (pruneMissingSessions : Bool)

/-- The variables after a node. -/
def PaneVisit.after (state : PaneVisit) (node : SessionRestorePaneLayoutNode) : PaneVisit where
  nodeCount := state.nodeCount + (paneNodeIds node).length
  nodeIds := state.nodeIds ++ paneNodeIds node
  leafSessionIds := state.leafSessionIds ++ collectTerminalPaneSessionIds node
  retainedLeafSessionIds :=
    state.retainedLeafSessionIds ++ (collectTerminalPaneSessionIds node).filter retained

/-- The variables after the id of a split. -/
def PaneVisit.afterHead (state : PaneVisit) (id : JsString) : PaneVisit :=
  { state with nodeCount := state.nodeCount + 1, nodeIds := state.nodeIds ++ [id] }

/-- A tree that the recursion accepts in a state, with the depths that are left. -/
structure Accepted (depths : ℕ) (state : PaneVisit) (node : SessionRestorePaneLayoutNode) :
    Prop where
  ratios : RatiosInside node
  ids : ∀ id ∈ paneNodeIds node, Reference maxPaneNodeIdBytes id
  newIds : Fresh state.nodeIds (paneNodeIds node)
  newSessions : Fresh state.leafSessionIds (collectTerminalPaneSessionIds node)
  count : state.nodeCount + (paneNodeIds node).length ≤ maxSessionRestorePaneNodes
  depth : nodeDepth node ≤ depths
  kept : pruneMissingSessions = true ∨
    ∀ sessionId ∈ collectTerminalPaneSessionIds node, retained sessionId = true

variable {retained pruneMissingSessions} {depths : ℕ} {state : PaneVisit}

theorem accepted_split {id : JsString} {direction : TerminalPaneSplitDirection} {ratio : ℚ}
    {first second : SessionRestorePaneLayoutNode} :
    Accepted retained pruneMissingSessions (depths + 1) state
        (.split id direction ratio first second) ↔
      Reference maxPaneNodeIdBytes id ∧ id ∉ state.nodeIds ∧
        minPaneRatio ≤ ratio ∧ ratio ≤ maxPaneRatio ∧
        Accepted retained pruneMissingSessions depths (state.afterHead id) first ∧
        Accepted retained pruneMissingSessions depths ((state.afterHead id).after retained first)
          second := by
  have hids : Fresh state.nodeIds (paneNodeIds (.split id direction ratio first second)) ↔
      id ∉ state.nodeIds ∧ Fresh (state.nodeIds ++ [id]) (paneNodeIds first) ∧
        Fresh (state.nodeIds ++ [id] ++ paneNodeIds first) (paneNodeIds second) := by
    rw [paneNodeIds, ← List.singleton_append, fresh_append, fresh_append, fresh_singleton]
  constructor
  · intro h
    obtain ⟨hid, hfirstIds, hsecondIds⟩ := hids.mp h.newIds
    obtain ⟨hfirst, hsecond⟩ := fresh_append.mp h.newSessions
    obtain ⟨hlow, hhigh, hratios, hratios'⟩ := h.ratios
    have hdepth := h.depth
    have hcount := h.count
    rw [nodeDepth] at hdepth
    rw [paneNodeIds, List.length_cons, List.length_append] at hcount
    have hall : ∀ id' ∈ paneNodeIds first ++ paneNodeIds second, Reference maxPaneNodeIdBytes id' :=
      fun id' hid' => h.ids id' (List.mem_cons_of_mem _ hid')
    refine ⟨h.ids id List.mem_cons_self, hid, hlow, hhigh, ?_, ?_⟩
    · refine ⟨hratios, fun id' hid' => hall id' (List.mem_append_left _ hid'), hfirstIds, hfirst,
        ?_, by omega, h.kept.imp_right fun hk s hs => hk s (List.mem_append_left _ hs)⟩
      simp only [PaneVisit.afterHead]
      omega
    · refine ⟨hratios', fun id' hid' => hall id' (List.mem_append_right _ hid'), hsecondIds,
        hsecond, ?_, by omega, h.kept.imp_right fun hk s hs => hk s (List.mem_append_right _ hs)⟩
      simp only [PaneVisit.afterHead, PaneVisit.after]
      omega
  · rintro ⟨href, hid, hlow, hhigh, hfirst, hsecond⟩
    have hcount := hsecond.count
    have hdepth := hfirst.depth
    have hdepth' := hsecond.depth
    simp only [PaneVisit.afterHead, PaneVisit.after] at hcount
    refine ⟨⟨hlow, hhigh, hfirst.ratios, hsecond.ratios⟩, ?_,
      hids.mpr ⟨hid, hfirst.newIds, hsecond.newIds⟩,
      fresh_append.mpr ⟨hfirst.newSessions, hsecond.newSessions⟩, ?_, ?_, ?_⟩
    · intro id' hid'
      obtain rfl | hmem := List.mem_cons.mp hid'
      · exact href
      · obtain hmem | hmem := List.mem_append.mp hmem
        · exact hfirst.ids id' hmem
        · exact hsecond.ids id' hmem
    · rw [paneNodeIds, List.length_cons, List.length_append]
      omega
    · rw [nodeDepth]
      omega
    · obtain hprune | hkept := hfirst.kept
      · exact .inl hprune
      · refine hsecond.kept.imp_right fun hkept' s hs => ?_
        obtain hs | hs := List.mem_append.mp hs
        · exact hkept s hs
        · exact hkept' s hs

theorem joinSplit_pruneNode {id : JsString} {direction : TerminalPaneSplitDirection} {ratio : ℚ}
    {first second : SessionRestorePaneLayoutNode} :
    joinSplit (id, direction, ratio) (pruneNode retained first) (pruneNode retained second) =
      pruneNode retained (.split id direction ratio first second) := by
  rw [pruneNode]
  cases pruneNode retained first with
  | none => rfl
  | some first' =>
      cases pruneNode retained second with
      | none => rfl
      | some second' => rfl

theorem after_after {id : JsString} {direction : TerminalPaneSplitDirection} {ratio : ℚ}
    {first second : SessionRestorePaneLayoutNode} :
    ((state.afterHead id).after retained first).after retained second =
      state.after retained (.split id direction ratio first second) := by
  simp only [PaneVisit.after, PaneVisit.afterHead, paneNodeIds, collectTerminalPaneSessionIds,
    List.filter_append, List.append_assoc, List.length_cons, List.length_append,
    List.cons_append]
  congr 1
  omega

theorem visitNodeId_ok_iff {value : Value} {result : JsString × PaneVisit} :
    visitNodeId value state = .ok result ↔
      fieldOf value "id" = .string result.1 ∧ Reference maxPaneNodeIdBytes result.1 ∧
        result.1 ∉ state.nodeIds ∧
        result.2 = { state with nodeIds := state.nodeIds ++ [result.1] } := by
  obtain ⟨id, state'⟩ := result
  unfold visitNodeId assertPaneNodeId
  constructor
  · intro h
    split at h
    · cases h
    · next hid =>
        rw [unless_ok_iff, List.contains_iff_mem] at h
        obtain ⟨hfresh, hresult⟩ := h
        cases hresult
        obtain ⟨hfield, href⟩ := assertReference_ok_iff.mp hid
        exact ⟨hfield, href, hfresh, rfl⟩
  · rintro ⟨hfield, href, hfresh, hstate⟩
    rw [assertReference_ok_iff.mpr ⟨hfield, href⟩]
    dsimp only at hfresh hstate ⊢
    rw [unless_ok_iff, List.contains_iff_mem, hstate]
    exact ⟨hfresh, rfl⟩

theorem visitSession_ok_iff {value : Value} {result : WorkspaceSessionId × PaneVisit} :
    visitSession value state = .ok result ↔
      fieldOf value "sessionId" = .string result.1.val ∧ result.1 ∉ state.leafSessionIds ∧
        result.2 = { state with leafSessionIds := state.leafSessionIds ++ [result.1] } := by
  obtain ⟨sessionId, state'⟩ := result
  unfold visitSession
  constructor
  · intro h
    split at h
    · cases h
    · next hid =>
        rw [unless_ok_iff, List.contains_iff_mem] at h
        obtain ⟨hfresh, hresult⟩ := h
        cases hresult
        exact ⟨workspaceSessionIdFrom_eq_some.mp hid, hfresh, rfl⟩
  · rintro ⟨hfield, hfresh, hstate⟩
    rw [workspaceSessionIdFrom_eq_some.mpr hfield]
    dsimp only at hfresh hstate ⊢
    rw [unless_ok_iff, List.contains_iff_mem, hstate]
    exact ⟨hfresh, rfl⟩

theorem retainLeaf_ok_iff {id : JsString} {sessionId : WorkspaceSessionId}
    {result : Option SessionRestorePaneLayoutNode × PaneVisit} :
    retainLeaf retained pruneMissingSessions id sessionId state = .ok result ↔
      (pruneMissingSessions = true ∨ retained sessionId = true) ∧
        result = (pruneNode retained (.pane id sessionId),
          { state with retainedLeafSessionIds :=
              state.retainedLeafSessionIds ++ [sessionId].filter retained }) := by
  unfold retainLeaf
  cases hretained : retained sessionId with
  | true => simp [pruneNode, hretained, eq_comm]
  | false => cases pruneMissingSessions with
    | true => simp [pruneNode, hretained, eq_comm]
    | false => simp

/-- What the recursion does with a leaf that it has counted. -/
theorem visitPaneLeaf_ok_iff {value : Value}
    {result : Option SessionRestorePaneLayoutNode × PaneVisit} (hdepths : 0 < depths)
    (hcount : state.nodeCount + 1 ≤ maxSessionRestorePaneNodes)
    (htype : fieldOf value "type" = textValue "pane") :
    visitPaneLeaf retained pruneMissingSessions value
        { state with nodeCount := state.nodeCount + 1 } = .ok result ↔
      ∃ id sessionId, PaneNodeShows (.pane id sessionId) value ∧
        Accepted retained pruneMissingSessions depths state (.pane id sessionId) ∧
        result = (pruneNode retained (.pane id sessionId),
          state.after retained (.pane id sessionId)) := by
  unfold visitPaneLeaf
  simp only [unless_ok_iff, bind_ok_iff, visitNodeId_ok_iff, visitSession_ok_iff,
    retainLeaf_ok_iff, Bool.not_eq_true, Bool.not_eq_false', Prod.exists]
  constructor
  · rintro ⟨hkeys, id, state₁, ⟨hid, href, hfresh, rfl⟩, sessionId, state₂, ⟨hsession, hnew, rfl⟩,
      hkept, rfl⟩
    refine ⟨id, sessionId, ⟨hkeys, htype, hid, hsession⟩, ⟨trivial, ?_, fresh_singleton.mpr hfresh,
      fresh_singleton.mpr hnew, hcount, hdepths, ?_⟩, rfl⟩
    · exact List.forall_mem_singleton.mpr href
    · exact hkept.imp_right List.forall_mem_singleton.mpr
  · rintro ⟨id, sessionId, ⟨hkeys, -, hid, hsession⟩, h, rfl⟩
    exact ⟨hkeys, id, _, ⟨hid, h.ids id List.mem_cons_self, fresh_singleton.mp h.newIds, rfl⟩,
      sessionId, _, ⟨hsession, fresh_singleton.mp h.newSessions, rfl⟩,
      h.kept.imp_right fun hkept => hkept sessionId List.mem_cons_self, rfl⟩

theorem visitSplitHead_ok_iff {value : Value}
    {result : (JsString × TerminalPaneSplitDirection × ℚ) × PaneVisit} :
    visitSplitHead value { state with nodeCount := state.nodeCount + 1 } = .ok result ↔
      ∃ id direction ratio,
        hasExactKeys value ["id", "type", "direction", "ratio", "first", "second"] = true ∧
        fieldOf value "id" = .string id ∧
        fieldOf value "direction" = textValue (splitDirectionText direction) ∧
        fieldOf value "ratio" = .number ratio ∧
        (Reference maxPaneNodeIdBytes id ∧ id ∉ state.nodeIds ∧ minPaneRatio ≤ ratio ∧
          ratio ≤ maxPaneRatio) ∧
        result = ((id, direction, ratio), state.afterHead id) := by
  unfold visitSplitHead
  simp only [unless_ok_iff, bind_ok_iff, visitNodeId_ok_iff, assertDirection_ok_iff,
    assertPaneRatio_ok_iff, Catalog.pure_ok_iff, Bool.not_eq_true, Bool.not_eq_false', Prod.exists]
  constructor
  · rintro ⟨hkeys, id, _, ⟨hid, href, hfresh, rfl⟩, direction, hdirection, ratio,
      ⟨hratio, hlow, hhigh⟩, rfl⟩
    exact ⟨id, direction, ratio, hkeys, hid, hdirection, hratio, ⟨href, hfresh, hlow, hhigh⟩, rfl⟩
  · rintro ⟨id, direction, ratio, hkeys, hid, hdirection, hratio, ⟨href, hfresh, hlow, hhigh⟩, rfl⟩
    exact ⟨hkeys, id, _, ⟨hid, href, hfresh, rfl⟩, direction, hdirection, ratio,
      ⟨hratio, hlow, hhigh⟩, rfl⟩

/-- The recursion accepts the values that show an accepted tree, and prunes it. -/
theorem visitPaneNode_ok_iff {value : Value}
    {result : Option SessionRestorePaneLayoutNode × PaneVisit} :
    visitPaneNode retained pruneMissingSessions depths value state = .ok result ↔
      ∃ node, PaneNodeShows node value ∧ Accepted retained pruneMissingSessions depths state node ∧
        result = (pruneNode retained node, state.after retained node) := by
  induction depths generalizing value state result with
  | zero =>
      refine ⟨nofun, ?_⟩
      rintro ⟨node, -, h, -⟩
      have hdepth := h.depth
      cases node with
      | pane id sessionId => exact absurd hdepth (by rw [nodeDepth]; omega)
      | split id direction ratio first second => exact absurd hdepth (by rw [nodeDepth]; omega)
  | succ depths ih =>
      rw [visitPaneNode]
      dsimp only
      rw [unless_ok_iff, unless_ok_iff, not_lt, Bool.not_eq_true, Bool.not_eq_false']
      constructor
      · rintro ⟨hcount, hobject, h⟩
        split_ifs at h with hpane hsplit
        · obtain ⟨id, sessionId, hresult⟩ :=
            (visitPaneLeaf_ok_iff (Nat.succ_pos depths) hcount (isText_iff.mp hpane)).mp h
          exact ⟨.pane id sessionId, hresult⟩
        · simp only [bind_ok_iff, visitSplitHead_ok_iff, Prod.exists, ih, Catalog.pure_ok_iff] at h
          obtain ⟨id, direction, ratio, _, ⟨_, _, _, hkeys, hid, hdirection, hratio, hhead, heq⟩,
            _, _, ⟨first, hfirstShown, hfirst, heq'⟩, _, _, ⟨second, hsecondShown, hsecond, heq''⟩,
            rfl⟩ := h
          cases heq
          cases heq'
          cases heq''
          refine ⟨.split id direction ratio first second,
            ⟨hkeys, isText_iff.mp hsplit, hid, hdirection, hratio, hfirstShown, hsecondShown⟩,
            accepted_split.mpr ⟨hhead.1, hhead.2.1, hhead.2.2.1, hhead.2.2.2, hfirst, hsecond⟩, ?_⟩
          rw [joinSplit_pruneNode, after_after]
      · rintro ⟨node, hshown, h, rfl⟩
        have hcount := h.count
        refine ⟨?_, isObject_of_paneNodeShows hshown, ?_⟩
        · have hids := length_paneNodeIds node
          have hpos := List.length_pos_iff.mpr (collect_ne_nil node)
          omega
        cases node with
        | pane id sessionId =>
            rw [if_pos (isText_iff.mpr hshown.2.1)]
            exact (visitPaneLeaf_ok_iff (Nat.succ_pos depths) hcount hshown.2.1).mpr
              ⟨id, sessionId, hshown, h, rfl⟩
        | split id direction ratio first second =>
            obtain ⟨href, hfresh, hlow, hhigh, hfirst, hsecond⟩ := accepted_split.mp h
            obtain ⟨hkeys, htype, hid, hdirection, hratio, hfirstShown, hsecondShown⟩ := hshown
            have hpane : isText (textValue "split") "pane" = false := by decide
            rw [htype, if_neg (by rw [hpane]; exact Bool.false_ne_true),
              if_pos (isText_iff.mpr rfl)]
            simp only [bind_ok_iff, visitSplitHead_ok_iff, Prod.exists, ih, Catalog.pure_ok_iff]
            refine ⟨_, _, _, _, ⟨id, direction, ratio, hkeys, hid, hdirection, hratio,
              ⟨href, hfresh, hlow, hhigh⟩, rfl⟩, _, _, ⟨first, hfirstShown, hfirst, rfl⟩, _, _,
              ⟨second, hsecondShown, hsecond, rfl⟩, ?_⟩
            rw [joinSplit_pruneNode, after_after]

end Visit

end Netcatty.Terminal
