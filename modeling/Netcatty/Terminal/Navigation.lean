import Netcatty.Library.Catalog
import Netcatty.Library.Comparator
import Netcatty.Terminal.PaneLaws

/-! # Moving the focus between panes

The focus moves from a pane to the first of its candidates in a direction: those on that side, or
else those at the opposite edge.  The candidates are sorted by their distance along the direction
and beside it, in four scores that count as equal within an epsilon, and at last by their ids. -/

namespace Netcatty.Terminal

open Comparator

inductive TerminalPaneFocusDirection where
  | left
  | right
  | up
  | down
  deriving DecidableEq

namespace TerminalPaneFocusDirection

def all : List TerminalPaneFocusDirection := [left, right, up, down]

def horizontal : TerminalPaneFocusDirection → Bool
  | left | right => true
  | up | down => false

end TerminalPaneFocusDirection

def terminalPaneGeometryEpsilon : ℚ := 1 / 1000000000

theorem epsilon_pos : 0 < terminalPaneGeometryEpsilon := by
  unfold terminalPaneGeometryEpsilon
  positivity

structure TerminalPaneFocusCandidate (σ : Type) where
  sessionId : σ
  rect : Rect ℚ

section Scores

/-- `score`, the local function of `compareFocusCandidates`. -/
def focusScore (current : Rect ℚ) (direction : TerminalPaneFocusDirection) (rect : Rect ℚ) :
    List ℚ :=
  let horizontal := direction.horizontal
  let currentAxisCenter :=
    if horizontal then current.x + current.width / 2 else current.y + current.height / 2
  let currentCrossCenter :=
    if horizontal then current.y + current.height / 2 else current.x + current.width / 2
  let currentCrossStart := if horizontal then current.y else current.x
  let currentCrossEnd := currentCrossStart + if horizontal then current.height else current.width
  let axisStart := if horizontal then rect.x else rect.y
  let axisSize := if horizontal then rect.width else rect.height
  let crossStart := if horizontal then rect.y else rect.x
  let crossSize := if horizontal then rect.height else rect.width
  let axisCenter := axisStart + axisSize / 2
  let crossCenter := crossStart + crossSize / 2
  let crossEnd := crossStart + crossSize
  let crossGap := max 0 (max (currentCrossStart - crossEnd) (crossStart - currentCrossEnd))
  [if terminalPaneGeometryEpsilon < crossGap then 1 else 0, |axisCenter - currentAxisCenter|,
    crossGap, |crossCenter - currentCrossCenter|]

variable {σ : Type}

def candidateScore (current : Rect ℚ) (direction : TerminalPaneFocusDirection)
    (candidate : TerminalPaneFocusCandidate σ) : List ℚ :=
  focusScore current direction candidate.rect

def compareIds (localeCompare : σ → σ → ℚ) (left right : TerminalPaneFocusCandidate σ) : ℚ :=
  localeCompare left.sessionId right.sessionId

/-- The loop over the scores, and the comparison of the ids behind it. -/
def compareFocusCandidates (localeCompare : σ → σ → ℚ) (current : Rect ℚ)
    (direction : TerminalPaneFocusDirection) :
    TerminalPaneFocusCandidate σ → TerminalPaneFocusCandidate σ → ℚ :=
  byKeys terminalPaneGeometryEpsilon (candidateScore current direction) (compareIds localeCompare)

/-- Whether a pane lies on that side of another one. -/
def liesIn (current rect : Rect ℚ) : TerminalPaneFocusDirection → Bool
  | .left => rect.x + rect.width ≤ current.x + terminalPaneGeometryEpsilon
  | .right => current.x + current.width - terminalPaneGeometryEpsilon ≤ rect.x
  | .up => rect.y + rect.height ≤ current.y + terminalPaneGeometryEpsilon
  | .down => current.y + current.height - terminalPaneGeometryEpsilon ≤ rect.y

/-- `edge`, the edge of a pane from which a move comes in. -/
def edgeOf (rect : Rect ℚ) : TerminalPaneFocusDirection → ℚ
  | .left => rect.x + rect.width
  | .right => rect.x
  | .up => rect.y + rect.height
  | .down => rect.y

/-- The outermost of the edges. -/
def targetEdge (direction : TerminalPaneFocusDirection) (edges : List ℚ) : Option ℚ :=
  match direction with
  | .left | .up => edges.max?
  | .right | .down => edges.min?

end Scores

section Focus

variable {σ : Type} [DecidableEq σ]

/-- The panes at the opposite edge. -/
def wrapAround (direction : TerminalPaneFocusDirection)
    (candidates : List (TerminalPaneFocusCandidate σ)) : List (TerminalPaneFocusCandidate σ) :=
  candidates.filter fun candidate =>
    (targetEdge direction (candidates.map fun candidate => edgeOf candidate.rect direction)).any
      fun target => |edgeOf candidate.rect direction - target| ≤ terminalPaneGeometryEpsilon

/-- The other panes. -/
def focusCandidates (panes : List (σ × Rect ℚ)) (currentSessionId : σ) :
    List (TerminalPaneFocusCandidate σ) :=
  (panes.filter fun entry => entry.1 ≠ currentSessionId).map fun entry => ⟨entry.1, entry.2⟩

/-- The panes on that side, or else those at the opposite edge. -/
def directionalCandidates (current : Rect ℚ) (direction : TerminalPaneFocusDirection)
    (candidates : List (TerminalPaneFocusCandidate σ)) : List (TerminalPaneFocusCandidate σ) :=
  let directional := candidates.filter fun candidate => liesIn current candidate.rect direction
  if directional.isEmpty then wrapAround direction candidates else directional

variable (S : ArraySort) (localeCompare : σ → σ → ℚ)

/-- The choice among the entries of a geometry. -/
def chooseFocus (panes : List (σ × Rect ℚ)) (currentSessionId : σ)
    (direction : TerminalPaneFocusDirection) : Option σ :=
  match panes.lookup currentSessionId with
  | none => none
  | some current =>
      let candidates := focusCandidates panes currentSessionId
      if candidates.isEmpty then none
      else
        (S.sort (compareFocusCandidates localeCompare current direction)
          (directionalCandidates current direction candidates)).head?.map (·.sessionId)

def findNextTerminalPaneFocusSessionId (layout : TerminalPaneLayoutSnapshot σ)
    (currentSessionId : σ) (direction : TerminalPaneFocusDirection) : Throws (Option σ) :=
  (computeTerminalPaneGeometry layout).map fun geometry =>
    chooseFocus S localeCompare geometry.panes currentSessionId direction

def moveTerminalPaneFocus (layout : TerminalPaneLayoutSnapshot σ)
    (direction : TerminalPaneFocusDirection) : Throws (TerminalPaneLayoutSnapshot σ) := do
  let next ← findNextTerminalPaneFocusSessionId S localeCompare layout layout.focusedSessionId
    direction
  match next with
  | some nextSessionId => focusTerminalPane layout nextSessionId
  | none => return layout

/-- The layout after moves. -/
def afterMoves (layout : TerminalPaneLayoutSnapshot σ)
    (directions : List TerminalPaneFocusDirection) : Throws (TerminalPaneLayoutSnapshot σ) :=
  directions.foldlM (moveTerminalPaneFocus S localeCompare) layout

/-! ### Candidates -/

variable {panes entries : List (σ × Rect ℚ)} {current : Rect ℚ} {currentSessionId : σ}
  {direction : TerminalPaneFocusDirection} {candidates : List (TerminalPaneFocusCandidate σ)}

theorem mem_focusCandidates {candidate : TerminalPaneFocusCandidate σ} :
    candidate ∈ focusCandidates panes currentSessionId ↔
      (candidate.sessionId, candidate.rect) ∈ panes ∧ candidate.sessionId ≠ currentSessionId := by
  simp only [focusCandidates, List.mem_map, List.mem_filter, decide_eq_true_eq]
  constructor
  · rintro ⟨entry, ⟨hmem, hne⟩, rfl⟩
    exact ⟨hmem, hne⟩
  · rintro ⟨hmem, hne⟩
    exact ⟨_, ⟨hmem, hne⟩, rfl⟩

omit [DecidableEq σ] in
theorem targetEdge_eq_some {edges : List ℚ} (h : edges ≠ []) :
    ∃ target ∈ edges, targetEdge direction edges = some target := by
  have hmax : ∃ target ∈ edges, edges.max? = some target := by
    cases htarget : edges.max? with
    | none => exact absurd (List.max?_eq_none_iff.mp htarget) h
    | some target => exact ⟨target, List.max?_mem htarget, rfl⟩
  have hmin : ∃ target ∈ edges, edges.min? = some target := by
    cases htarget : edges.min? with
    | none => exact absurd (List.min?_eq_none_iff.mp htarget) h
    | some target => exact ⟨target, List.min?_mem htarget, rfl⟩
  cases direction with
  | left => exact hmax
  | up => exact hmax
  | right => exact hmin
  | down => exact hmin

omit [DecidableEq σ] in
theorem targetEdge_perm {edges edges' : List ℚ} (h : edges'.Perm edges) :
    targetEdge direction edges' = targetEdge direction edges := by
  have hmax : edges'.max? = edges.max? := by
    refine Option.ext fun target => ?_
    rw [List.max?_eq_some_iff, List.max?_eq_some_iff, h.mem_iff]
    exact and_congr_right fun _ => forall_congr' fun edge => by rw [h.mem_iff]
  have hmin : edges'.min? = edges.min? := by
    refine Option.ext fun target => ?_
    rw [List.min?_eq_some_iff, List.min?_eq_some_iff, h.mem_iff]
    exact and_congr_right fun _ => forall_congr' fun edge => by rw [h.mem_iff]
  cases direction with
  | left => exact hmax
  | up => exact hmax
  | right => exact hmin
  | down => exact hmin

omit [DecidableEq σ] in
theorem wrapAround_ne_nil (h : candidates ≠ []) : wrapAround direction candidates ≠ [] := by
  have hedges : (candidates.map fun candidate => edgeOf candidate.rect direction) ≠ [] := by
    simpa using h
  obtain ⟨target, htarget, hsome⟩ := @targetEdge_eq_some direction _ hedges
  obtain ⟨candidate, hcandidate, rfl⟩ := List.mem_map.mp htarget
  refine List.ne_nil_of_mem (a := candidate) (List.mem_filter.mpr ⟨hcandidate, ?_⟩)
  rw [hsome, Option.any_some, sub_self, abs_zero]
  exact decide_eq_true epsilon_pos.le

omit [DecidableEq σ] in
theorem directionalCandidates_ne_nil (h : candidates ≠ []) :
    directionalCandidates current direction candidates ≠ [] := by
  unfold directionalCandidates
  dsimp only
  split_ifs with hempty
  · exact wrapAround_ne_nil h
  · rwa [List.isEmpty_iff] at hempty

omit [DecidableEq σ] in
/-- The candidates of a direction lie on that side, or there is none that does. -/
theorem mem_directionalCandidates {candidate : TerminalPaneFocusCandidate σ}
    (h : candidate ∈ directionalCandidates current direction candidates) :
    candidate ∈ candidates ∧ (liesIn current candidate.rect direction = true ∨
      (∀ other ∈ candidates, liesIn current other.rect direction = false) ∧
        candidate ∈ wrapAround direction candidates) := by
  unfold directionalCandidates at h
  dsimp only at h
  split_ifs at h with hempty
  · rw [List.isEmpty_iff, List.filter_eq_nil_iff] at hempty
    exact ⟨(List.mem_filter.mp h).1,
      .inr ⟨fun other hother => by simpa using hempty other hother, h⟩⟩
  · exact ⟨(List.mem_filter.mp h).1, .inl (List.mem_filter.mp h).2⟩

omit [DecidableEq σ] in
theorem directionalCandidates_perm {candidates' : List (TerminalPaneFocusCandidate σ)}
    (h : candidates'.Perm candidates) : (directionalCandidates current direction candidates').Perm
      (directionalCandidates current direction candidates) := by
  have hside := h.filter fun candidate => liesIn current candidate.rect direction
  have hedge : (wrapAround direction candidates').Perm (wrapAround direction candidates) := by
    unfold wrapAround
    rw [targetEdge_perm (h.map _)]
    exact h.filter _
  have hempty :
      (candidates'.filter fun candidate => liesIn current candidate.rect direction).isEmpty =
        (candidates.filter fun candidate => liesIn current candidate.rect direction).isEmpty := by
    rw [Bool.eq_iff_iff, List.isEmpty_iff, List.isEmpty_iff]
    exact ⟨fun hnil => (hnil ▸ hside).nil_eq.symm, fun hnil => (hnil ▸ hside).eq_nil⟩
  unfold directionalCandidates
  dsimp only
  rw [hempty]
  split_ifs
  · exact hedge
  · exact hside

/-! ### The choice -/

/-- What is chosen is one of the candidates of the direction. -/
theorem chooseFocus_mem (hcurrent : panes.lookup currentSessionId = some current)
    (hother : ∃ entry ∈ panes, entry.1 ≠ currentSessionId) :
    ∃ next, chooseFocus S localeCompare panes currentSessionId direction = some next.sessionId ∧
      next ∈ directionalCandidates current direction (focusCandidates panes currentSessionId) := by
  obtain ⟨⟨sessionId, rect⟩, hmem, hne⟩ := hother
  have hcandidates : focusCandidates panes currentSessionId ≠ [] :=
    List.ne_nil_of_mem (a := ⟨sessionId, rect⟩) (mem_focusCandidates.mpr ⟨hmem, hne⟩)
  rw [chooseFocus, hcurrent]
  dsimp only
  rw [if_neg (by rwa [List.isEmpty_iff])]
  cases hhead : (S.sort (compareFocusCandidates localeCompare current direction)
      (directionalCandidates current direction
        (focusCandidates panes currentSessionId))).head? with
  | none =>
      exact absurd ((head?_eq_none_iff S _ _).mp hhead) (directionalCandidates_ne_nil hcandidates)
  | some next => exact ⟨next, rfl, (S.perm _ _).subset (List.mem_of_head? hhead)⟩

/-- Ids that compare like those of an order: no two different ones as equal. -/
structure Collation (localeCompare : σ → σ → ℚ) (ids : List σ) : Prop where
  consistent : Consistent localeCompare ids
  distinct : ∀ a ∈ ids, ∀ b ∈ ids, localeCompare a b ≤ 0 → localeCompare b a ≤ 0 → a = b

/-- The scores of the panes are equal or differ by more than the epsilon. -/
def SeparatedScores (panes : List (σ × Rect ℚ)) (current : Rect ℚ)
    (direction : TerminalPaneFocusDirection) : Prop :=
  ∀ entry ∈ panes, ∀ entry' ∈ panes, Separated terminalPaneGeometryEpsilon
    (focusScore current direction entry.2) (focusScore current direction entry'.2)

variable {localeCompare}

theorem consistent_compareFocusCandidates
    (hcollation : Collation localeCompare (panes.map Prod.fst))
    (hscores : SeparatedScores panes current direction) :
    Consistent (compareFocusCandidates localeCompare current direction)
      (directionalCandidates current direction (focusCandidates panes currentSessionId)) := by
  have hmem : ∀ candidate ∈
      directionalCandidates current direction (focusCandidates panes currentSessionId),
        (candidate.sessionId, candidate.rect) ∈ panes := fun candidate h =>
    (mem_focusCandidates.mp (mem_directionalCandidates h).1).1
  have hid : ∀ candidate ∈
      directionalCandidates current direction (focusCandidates panes currentSessionId),
        candidate.sessionId ∈ panes.map Prod.fst := fun candidate h =>
    List.mem_map.mpr ⟨_, hmem candidate h, rfl⟩
  refine consistent_byKeys epsilon_pos.le ?_ ⟨?_, ?_⟩
  · exact fun a ha b hb =>
      hscores (a.sessionId, a.rect) (hmem a ha) (b.sessionId, b.rect) (hmem b hb)
  · exact fun a ha b hb => hcollation.consistent.sign _ (hid a ha) _ (hid b hb)
  · exact fun a ha b hb c hc =>
      hcollation.consistent.trans _ (hid a ha) _ (hid b hb) _ (hid c hc)

omit [DecidableEq σ] in
/-- Candidates that tie have ids that tie. -/
theorem ids_tied {a b : TerminalPaneFocusCandidate σ}
    (h : Separated terminalPaneGeometryEpsilon (focusScore current direction a.rect)
      (focusScore current direction b.rect))
    (h' : Separated terminalPaneGeometryEpsilon (focusScore current direction b.rect)
      (focusScore current direction a.rect))
    (hab : compareFocusCandidates localeCompare current direction a b ≤ 0)
    (hba : compareFocusCandidates localeCompare current direction b a ≤ 0) :
    localeCompare a.sessionId b.sessionId ≤ 0 ∧ localeCompare b.sessionId a.sessionId ≤ 0 :=
  (@tied_of_byKeys _ terminalPaneGeometryEpsilon (candidateScore current direction)
    (compareIds localeCompare) epsilon_pos.le a b h h' hab hba).2

theorem lookup_iff_mem (h : (panes.map Prod.fst).Nodup) {sessionId : σ} {rect : Rect ℚ} :
    panes.lookup sessionId = some rect ↔ (sessionId, rect) ∈ panes := by
  induction panes with
  | nil => simp
  | cons entry panes ih =>
      rw [List.map_cons, List.nodup_cons] at h
      rw [List.lookup_cons, List.mem_cons]
      by_cases hsame : sessionId = entry.1
      · subst hsame
        rw [beq_self_eq_true, Option.some.injEq]
        constructor
        · rintro rfl
          exact .inl rfl
        · rintro (heq | hmem)
          · rw [← heq]
          · exact absurd (List.mem_map.mpr ⟨_, hmem, rfl⟩) h.1
      · rw [beq_eq_false_iff_ne.mpr hsame, ih h.2]
        refine ⟨.inr, fun hmem => hmem.resolve_left ?_⟩
        rintro rfl
        exact hsame rfl

/-- **The choice does not depend on the order of the entries** where the scores are separated. -/
theorem chooseFocus_perm (hnodup : (panes.map Prod.fst).Nodup)
    (hcollation : Collation localeCompare (panes.map Prod.fst))
    (hscores : ∀ current, (currentSessionId, current) ∈ panes →
      SeparatedScores panes current direction) (hperm : entries.Perm panes) :
    chooseFocus S localeCompare entries currentSessionId direction =
      chooseFocus S localeCompare panes currentSessionId direction := by
  have hlookup : entries.lookup currentSessionId = panes.lookup currentSessionId := by
    refine Option.ext fun rect => ?_
    rw [lookup_iff_mem hnodup, lookup_iff_mem ((hperm.map Prod.fst).nodup_iff.mpr hnodup),
      hperm.mem_iff]
  have hcandidates : (focusCandidates entries currentSessionId).Perm
      (focusCandidates panes currentSessionId) := (hperm.filter _).map _
  rw [chooseFocus, chooseFocus, hlookup]
  cases hcurrent : panes.lookup currentSessionId with
  | none => rfl
  | some current =>
      dsimp only
      have hempty : (focusCandidates entries currentSessionId).isEmpty =
          (focusCandidates panes currentSessionId).isEmpty := by
        rw [Bool.eq_iff_iff, List.isEmpty_iff, List.isEmpty_iff]
        exact ⟨fun hnil => (hnil ▸ hcandidates).nil_eq.symm,
          fun hnil => (hnil ▸ hcandidates).eq_nil⟩
      rw [hempty]
      split_ifs
      · rfl
      · have hseparated := hscores current ((lookup_iff_mem hnodup).mp hcurrent)
        have hconsistent : Consistent (compareFocusCandidates localeCompare current direction)
            (directionalCandidates current direction (focusCandidates panes currentSessionId)) :=
          consistent_compareFocusCandidates hcollation hseparated
        refine head_unique S (f := TerminalPaneFocusCandidate.sessionId) hconsistent
          (fun a ha b hb hab hba => ?_) (directionalCandidates_perm hcandidates)
        obtain ⟨hamem, -⟩ := mem_focusCandidates.mp (mem_directionalCandidates ha).1
        obtain ⟨hbmem, -⟩ := mem_focusCandidates.mp (mem_directionalCandidates hb).1
        have htied := ids_tied (hseparated (a.sessionId, a.rect) hamem (b.sessionId, b.rect) hbmem)
          (hseparated (b.sessionId, b.rect) hbmem (a.sessionId, a.rect) hamem) hab hba
        exact hcollation.distinct a.sessionId (List.mem_map.mpr ⟨_, hamem, rfl⟩) b.sessionId
          (List.mem_map.mpr ⟨_, hbmem, rfl⟩) htied.1 htied.2

/-! ### Layouts -/

variable (localeCompare)

/-- What a move from a pane comes to. -/
structure MoveLaws (layout : TerminalPaneLayoutSnapshot σ) (currentSessionId : σ)
    (direction : TerminalPaneFocusDirection) (panes : List (σ × Rect ℚ)) (current : Rect ℚ)
    (next : TerminalPaneFocusCandidate σ) : Prop where
  found : findNextTerminalPaneFocusSessionId S localeCompare layout currentSessionId direction =
    .ok (some next.sessionId)
  different : next.sessionId ≠ currentSessionId
  shown : next.sessionId ∈ collectTerminalPaneSessionIds layout.root ∧
    (next.sessionId, next.rect) ∈ panes
  /-- On that side, or else at the opposite edge. -/
  side : liesIn current next.rect direction = true ∨
    (∀ entry ∈ panes, entry.1 ≠ currentSessionId → liesIn current entry.2 direction = false) ∧
      next ∈ wrapAround direction (focusCandidates panes currentSessionId)
  /-- A move from the pane with the focus brings it there. -/
  moved : layout.focusedSessionId = currentSessionId →
    moveTerminalPaneFocus S localeCompare layout direction = .ok ⟨layout.root, next.sessionId⟩
  /-- The entries may be in any order. -/
  order : Collation localeCompare (collectTerminalPaneSessionIds layout.root) →
    SeparatedScores panes current direction → ∀ entries : List (σ × Rect ℚ), entries.Perm panes →
      chooseFocus S localeCompare entries currentSessionId direction = some next.sessionId

theorem SoundLayout.moves {layout : TerminalPaneLayoutSnapshot σ} (h : SoundLayout layout)
    (htwo : 2 ≤ (collectTerminalPaneSessionIds layout.root).length)
    (hcurrent : currentSessionId ∈ collectTerminalPaneSessionIds layout.root)
    (direction : TerminalPaneFocusDirection) :
    ∃ geometry current next, computeTerminalPaneGeometry layout = .ok geometry ∧
      (currentSessionId, current) ∈ geometry.panes ∧
        MoveLaws S localeCompare layout currentSessionId direction geometry.panes current next := by
  obtain ⟨geometry, hgeometry, hids, -⟩ := h.laws.geometry
  have hnodup : (geometry.panes.map Prod.fst).Nodup := hids ▸ h.distinct
  have hshown : currentSessionId ∈ geometry.panes.map Prod.fst := hids ▸ hcurrent
  obtain ⟨⟨sessionId, current⟩, hmem, hsame⟩ := List.mem_map.mp hshown
  obtain rfl : sessionId = currentSessionId := hsame
  have hlookup := (lookup_iff_mem hnodup).mpr hmem
  have hother : ∃ entry ∈ geometry.panes, entry.1 ≠ sessionId := by
    by_contra hall
    push Not at hall
    have hsub : geometry.panes.map Prod.fst ⊆ [sessionId] := by
      intro id hid
      obtain ⟨entry, hentry, rfl⟩ := List.mem_map.mp hid
      exact List.mem_singleton.mpr (hall entry hentry)
    have hle := hnodup.length_le_of_subset hsub
    rw [hids, List.length_singleton] at hle
    omega
  obtain ⟨next, hchoice, hnext⟩ := chooseFocus_mem S localeCompare hlookup hother
  obtain ⟨hcandidate, hside⟩ := mem_directionalCandidates hnext
  obtain ⟨hnextMem, hne⟩ := mem_focusCandidates.mp hcandidate
  have hfound : findNextTerminalPaneFocusSessionId S localeCompare layout sessionId direction =
      .ok (some next.sessionId) := by
    rw [findNextTerminalPaneFocusSessionId, hgeometry]
    exact congrArg Except.ok hchoice
  have hcontained : next.sessionId ∈ collectTerminalPaneSessionIds layout.root := by
    rw [← hids]
    exact List.mem_map.mpr ⟨_, hnextMem, rfl⟩
  refine ⟨geometry, current, next, hgeometry, hmem, hfound, hne, ⟨hcontained, hnextMem⟩, ?_, ?_, ?_⟩
  · refine hside.imp_right fun ⟨hnone, hwrap⟩ => ⟨fun entry hentry hdifferent => ?_, hwrap⟩
    exact hnone ⟨entry.1, entry.2⟩ (mem_focusCandidates.mpr ⟨hentry, hdifferent⟩)
  · intro hfocused
    have hcontains : (!terminalPaneLayoutContains layout next.sessionId) = false := by
      rw [terminalPaneLayoutContains, List.contains_iff_mem.mpr hcontained]
      rfl
    have hdifferent : layout.focusedSessionId ≠ next.sessionId := hfocused ▸ hne.symm
    rw [moveTerminalPaneFocus, hfocused, hfound]
    change focusTerminalPane layout next.sessionId = _
    unfold focusTerminalPane
    simp only [hcontains, Bool.false_eq_true, if_false, if_neg hdifferent]
  · intro hcollation hscores entries hperm
    rw [chooseFocus_perm S hnodup (hids ▸ hcollation) (fun other hother => ?_) hperm, hchoice]
    have hcurrent' : other = current := by
      have hlookup' := (lookup_iff_mem hnodup).mpr hother
      rw [hlookup] at hlookup'
      exact (Option.some.inj hlookup').symm
    rwa [hcurrent']

/-- A move changes the focus only, and to the pane that is found. -/
theorem moveTerminalPaneFocus_ok {layout next : TerminalPaneLayoutSnapshot σ}
    {geometry : TerminalPaneGeometry σ}
    (hgeometry : computeTerminalPaneGeometry layout = .ok geometry)
    (h : moveTerminalPaneFocus S localeCompare layout direction = .ok next) :
    next.root = layout.root ∧ (next.focusedSessionId = layout.focusedSessionId ∨
      chooseFocus S localeCompare geometry.panes layout.focusedSessionId direction =
        some next.focusedSessionId) := by
  rw [moveTerminalPaneFocus, findNextTerminalPaneFocusSessionId, hgeometry] at h
  change (match chooseFocus S localeCompare geometry.panes layout.focusedSessionId direction with
    | some nextSessionId => focusTerminalPane layout nextSessionId
    | none => .ok layout) = .ok next at h
  cases hchoice : chooseFocus S localeCompare geometry.panes layout.focusedSessionId direction with
  | none =>
      rw [hchoice] at h
      cases h
      exact ⟨rfl, .inl rfl⟩
  | some nextSessionId =>
      rw [hchoice] at h
      change focusTerminalPane layout nextSessionId = .ok next at h
      unfold focusTerminalPane at h
      split_ifs at h <;> cases h
      · exact ⟨rfl, .inl rfl⟩
      · exact ⟨rfl, .inr rfl⟩

/-- Moves never lead to a pane that no other pane's moves lead to. -/
theorem afterMoves_avoids {layout after : TerminalPaneLayoutSnapshot σ}
    {geometry : TerminalPaneGeometry σ} {sessionId : σ}
    (hgeometry : computeTerminalPaneGeometry layout = .ok geometry)
    (hnever : ∀ current ≠ sessionId, ∀ direction,
      chooseFocus S localeCompare geometry.panes current direction ≠ some sessionId)
    (hfocused : layout.focusedSessionId ≠ sessionId) {directions : List TerminalPaneFocusDirection}
    (h : afterMoves S localeCompare layout directions = .ok after) :
    after.focusedSessionId ≠ sessionId := by
  induction directions generalizing layout with
  | nil =>
      cases h
      exact hfocused
  | cons direction directions ih =>
      rw [afterMoves, List.foldlM_cons] at h
      obtain ⟨next, hnext, hrest⟩ := Catalog.bind_ok_iff.mp h
      obtain ⟨hroot, hfocus⟩ := moveTerminalPaneFocus_ok S localeCompare hgeometry hnext
      have hsame : computeTerminalPaneGeometry next = .ok geometry := by
        rw [computeTerminalPaneGeometry, hroot]
        exact hgeometry
      have hnext : next.focusedSessionId ≠ sessionId := by
        obtain hkept | hchoice := hfocus
        · rwa [hkept]
        · exact fun heq => hnever _ hfocused direction (heq ▸ hchoice)
      exact ih hsame hnext hrest

/-- **Pane navigation**, in every layout that calls lead to: a move from any pane goes to another
one, on that side or at the opposite edge, whatever the order of the entries. -/
theorem moveLaws_of_calls {sessionId : σ} {idFactory : IdFactory}
    {created layout : TerminalPaneLayoutSnapshot σ} {calls : List (PaneCall σ)}
    (hcreated : createTerminalPaneLayout sessionId idFactory = .ok created)
    (hcalls : afterCalls created calls = some layout)
    (htwo : 2 ≤ (collectTerminalPaneSessionIds layout.root).length)
    (hcurrent : currentSessionId ∈ collectTerminalPaneSessionIds layout.root)
    (direction : TerminalPaneFocusDirection) :
    ∃ geometry current next, computeTerminalPaneGeometry layout = .ok geometry ∧
      (currentSessionId, current) ∈ geometry.panes ∧
        MoveLaws S localeCompare layout currentSessionId direction geometry.panes current next :=
  ((SoundLayout.create hcreated).afterCalls hcalls).moves S localeCompare htwo hcurrent direction

end Focus

/-- Numbers in their order. -/
def compareNumbers (a b : ℕ) : ℚ := a - b

theorem moveLaws_pairedLayout : ∃ geometry current next,
    computeTerminalPaneGeometry pairedLayout = .ok geometry ∧ (1, current) ∈ geometry.panes ∧
      MoveLaws insertionSort compareNumbers pairedLayout 1 .right geometry.panes current next := by
  have hcreated : createTerminalPaneLayout 1 (fun _ => some (jsString "a")) =
      .ok ⟨.pane (jsString "pane-a") 1, 1⟩ := by decide
  have hcalls : afterCalls ⟨.pane (jsString "pane-a") 1, 1⟩
      [.split 1 2 (some .vertical) (some .after) fun _ => some (jsString "a")] =
        some pairedLayout := by decide +kernel
  exact moveLaws_of_calls insertionSort compareNumbers hcreated hcalls (by decide) (by decide)
    .right

/-! ### A pane that no move goes to -/

/-- A split into a pane and another one behind it, at a ratio. -/
def divide (target new : ℕ) (direction : TerminalPaneSplitDirection) (splitId : UInt16)
    (ratio : ℚ) : List (PaneCall ℕ) :=
  [.split target new (some direction) (some .after) fun _ => some [splitId],
    .resize (jsString "split-" ++ [splitId]) (some ratio)]

/-- Three rows, the middle one with a wide pane between two narrow ones. -/
def strandingCalls : List (PaneCall ℕ) :=
  divide 0 3 .horizontal 1 (1 / 3) ++ divide 3 8 .horizontal 2 (1 / 2) ++
  divide 0 1 .vertical 3 (7 / 11) ++ divide 1 2 .vertical 4 (1 / 4) ++
  divide 3 4 .vertical 5 (5 / 22) ++ divide 4 5 .vertical 6 (1 / 17) ++
  divide 5 6 .vertical 7 (5 / 8) ++ divide 6 7 .vertical 8 (1 / 6) ++
  divide 8 9 .vertical 9 (3 / 11) ++ divide 9 10 .vertical 10 (1 / 8) ++ [.focus 4]

def strandedPanes : List (ℕ × Rect ℚ) :=
  [(0, ⟨0, 0, 7 / 11, 1 / 3⟩), (1, ⟨7 / 11, 0, 1 / 11, 1 / 3⟩), (2, ⟨8 / 11, 0, 3 / 11, 1 / 3⟩),
    (3, ⟨0, 1 / 3, 5 / 22, 1 / 3⟩), (4, ⟨5 / 22, 1 / 3, 1 / 22, 1 / 3⟩),
    (5, ⟨6 / 22, 1 / 3, 10 / 22, 1 / 3⟩), (6, ⟨16 / 22, 1 / 3, 1 / 22, 1 / 3⟩),
    (7, ⟨17 / 22, 1 / 3, 5 / 22, 1 / 3⟩), (8, ⟨0, 2 / 3, 6 / 22, 1 / 3⟩),
    (9, ⟨6 / 22, 2 / 3, 2 / 22, 1 / 3⟩), (10, ⟨8 / 22, 2 / 3, 14 / 22, 1 / 3⟩)]

/-- Two columns, the second one in rows that begin with panes of almost the same width. -/
def nearCalls : List (PaneCall ℕ) :=
  divide 0 1 .vertical 1 (1 / 2) ++ divide 1 5 .horizontal 2 (1 / 4) ++
  divide 5 3 .horizontal 3 (1 / 2) ++ divide 1 2 .vertical 4 (1 / 2) ++
  divide 3 4 .vertical 5 (1 / 2 + 24 / 10000000000) ++
  divide 5 6 .vertical 6 (1 / 2 + 48 / 10000000000)

def firstPane : TerminalPaneLayoutSnapshot ℕ := ⟨.pane (jsString "pane-a") 0, 0⟩

theorem firstPane_created :
    createTerminalPaneLayout 0 (fun _ => some (jsString "a")) = .ok firstPane := by decide

/-- The focus and the entries after calls, from one pane. -/
def panesAfter (calls : List (PaneCall ℕ)) : Option (ℕ × List (ℕ × Rect ℚ)) := do
  let layout ← afterCalls firstPane calls
  let geometry ← (computeTerminalPaneGeometry layout).toOption
  return (layout.focusedSessionId, geometry.panes)

theorem panesAfter_eq_some {calls : List (PaneCall ℕ)} {focused : ℕ} {panes : List (ℕ × Rect ℚ)}
    (h : panesAfter calls = some (focused, panes)) :
    ∃ layout geometry, afterCalls firstPane calls = some layout ∧
      computeTerminalPaneGeometry layout = .ok geometry ∧ layout.focusedSessionId = focused ∧
        geometry.panes = panes := by
  unfold panesAfter at h
  obtain ⟨layout, hlayout, h⟩ := Option.bind_eq_some_iff.mp h
  obtain ⟨geometry, hgeometry, h⟩ := Option.bind_eq_some_iff.mp h
  cases hresult : computeTerminalPaneGeometry layout with
  | error e =>
      rw [hresult] at hgeometry
      nomatch hgeometry
  | ok geometry' =>
      rw [hresult] at hgeometry
      cases hgeometry
      cases h
      exact ⟨layout, geometry, hlayout, hresult, rfl, rfl⟩

theorem chooseFocus_stranded (current : ℕ) (hcurrent : current ≠ 5)
    (direction : TerminalPaneFocusDirection) :
    chooseFocus insertionSort compareNumbers strandedPanes current direction ≠ some 5 := by
  by_cases hshown : current ∈ strandedPanes.map Prod.fst
  · have hall : ∀ current ∈ [0, 1, 2, 3, 4, 6, 7, 8, 9, 10], ∀ direction ∈
        TerminalPaneFocusDirection.all,
          chooseFocus insertionSort compareNumbers strandedPanes current direction ≠ some 5 := by
      decide +kernel
    refine hall current ?_ direction (by cases direction <;> decide)
    simp only [strandedPanes, List.map_cons, List.map_nil, List.mem_cons] at hshown ⊢
    tauto
  · have hlookup : strandedPanes.lookup current = none := by
      rw [List.lookup_eq_none_iff]
      intro entry hentry
      have hne : current ≠ entry.1 := fun heq => hshown (List.mem_map.mpr ⟨entry, hentry, heq.symm⟩)
      simpa using hne
    rw [chooseFocus, hlookup]
    exact nofun

/-- No moves lead to the wide pane; and the order of the entries decides between panes that are
almost at the same distance. -/
theorem moves_incomplete :
    createTerminalPaneLayout 0 (fun _ => some (jsString "a")) = .ok firstPane ∧
    (∃ layout, afterCalls firstPane strandingCalls = some layout ∧
      layout.focusedSessionId = 4 ∧ 5 ∈ collectTerminalPaneSessionIds layout.root ∧
        ∀ directions after, afterMoves insertionSort compareNumbers layout directions = .ok after →
          after.focusedSessionId ≠ 5) ∧
    ∃ layout geometry, afterCalls firstPane nearCalls = some layout ∧
      computeTerminalPaneGeometry layout = .ok geometry ∧
        chooseFocus insertionSort compareNumbers geometry.panes.reverse 0 .right ≠
          chooseFocus insertionSort compareNumbers geometry.panes 0 .right := by
  refine ⟨firstPane_created, ?_, ?_⟩
  · have hpanes : panesAfter strandingCalls = some (4, strandedPanes) := by decide +kernel
    obtain ⟨layout, geometry, hlayout, hgeometry, hfocused, hentries⟩ := panesAfter_eq_some hpanes
    refine ⟨layout, hlayout, hfocused, ?_, fun directions after hafter => ?_⟩
    · obtain ⟨geometry', hgeometry', hids, -⟩ :=
        ((SoundLayout.create firstPane_created).afterCalls hlayout).laws.geometry
      cases hgeometry.symm.trans hgeometry'
      rw [← hids, hentries]
      decide
    · refine afterMoves_avoids insertionSort compareNumbers hgeometry ?_ (by omega) hafter
      rw [hentries]
      exact chooseFocus_stranded
  · have hpanes : (panesAfter nearCalls).map (fun result =>
        (chooseFocus insertionSort compareNumbers result.2.reverse 0 .right,
          chooseFocus insertionSort compareNumbers result.2 0 .right)) =
            some (some 3, some 1) := by decide +kernel
    obtain ⟨⟨focused, panes⟩, hpanes, hchoices⟩ := Option.map_eq_some_iff.mp hpanes
    obtain ⟨layout, geometry, hlayout, hgeometry, -, rfl⟩ := panesAfter_eq_some hpanes
    refine ⟨layout, geometry, hlayout, hgeometry, ?_⟩
    rw [(Prod.mk.inj hchoices).1, (Prod.mk.inj hchoices).2]
    decide

end Netcatty.Terminal
