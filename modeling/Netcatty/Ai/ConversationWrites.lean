import Netcatty.Ai.ConversationRuns
import Netcatty.Library.Catalog

/-! # Written messages

A message that is appended is the newest one, and stays.  An update keeps the order of its message,
so the bounds may take the message that is written: `written_shown_iff` says when they do not. -/

namespace Netcatty.Ai

open Catalog (bind_ok_iff)
open Eviction
open scoped List

variable {U : UnicodeTables}

/-! ### Text from an order on -/

/-- The title of a conversation and its messages from `order` on. -/
def AiConversation.textFrom (conversation : AiConversation) (order : ℕ) : ℕ :=
  byteLength conversation.title +
    ((conversation.messages.filter fun message => order ≤ message.createdOrder).map
      AiConversationMessage.textBytes).sum

def AiConversationScopeState.textFrom (shown : JsText → Bool) (order : ℕ)
    (scope : AiConversationScopeState) : ℕ :=
  (scope.conversations.map fun conversation =>
    if shown (targetKey scope.key conversation.id) then conversation.textFrom order else 0).sum

def textFrom (shown : JsText → Bool) (order : ℕ) (scopes : List AiConversationScopeState) : ℕ :=
  (scopes.map (·.textFrom shown order)).sum

section Text

variable {shown : JsText → Bool} {order : ℕ}

theorem conversation_textFrom_le (conversation : AiConversation) :
    conversation.textFrom order ≤ conversation.textBytes :=
  Nat.add_le_add_left ((List.filter_sublist.map _).sum_le_sum fun _ _ => Nat.zero_le _) _

theorem textFrom_le (scopes : List AiConversationScopeState) :
    textFrom shown order scopes ≤ textBytes scopes := by
  refine List.sum_le_sum fun scope _ => List.sum_le_sum fun conversation _ => ?_
  split_ifs
  · exact conversation_textFrom_le conversation
  · exact Nat.zero_le _

/-- Where every conversation is shown and every message is new, this is all of the text. -/
theorem textFrom_eq_textBytes {scopes : List AiConversationScopeState}
    (h : ∀ scope ∈ scopes, ∀ conversation ∈ scope.conversations,
      shown (targetKey scope.key conversation.id) = true ∧
        ∀ message ∈ conversation.messages, order ≤ message.createdOrder) :
    textFrom shown order scopes = textBytes scopes := by
  refine congrArg List.sum (List.map_congr_left fun scope hscope => ?_)
  refine congrArg List.sum (List.map_congr_left fun conversation hconversation => ?_)
  obtain ⟨hshown, horder⟩ := h scope hscope conversation hconversation
  rw [if_pos hshown, AiConversation.textFrom, AiConversation.textBytes,
    List.filter_eq_self.mpr fun message hmessage => decide_eq_true (horder message hmessage)]

theorem sum_map_filter_of_zero {α : Type} {p : α → Bool} {g : α → ℕ} {l : List α}
    (h : ∀ a ∈ l, p a = false → g a = 0) : ((l.filter p).map g).sum = (l.map g).sum := by
  induction l with
  | nil => rfl
  | cons a rest ih =>
      have hrest := ih fun b hb => h b (List.mem_cons_of_mem _ hb)
      cases hp : p a with
      | true => rw [List.filter_cons_of_pos hp, List.map_cons, List.map_cons, List.sum_cons,
          List.sum_cons, hrest]
      | false =>
          rw [List.filter_cons_of_neg (Bool.eq_false_iff.mp hp), List.map_cons, List.sum_cons, hrest,
            h a List.mem_cons_self hp, Nat.zero_add]

/-- A conversation that is not shown takes nothing with it. -/
theorem textFrom_removeConversation {state : MutableState} (hsound : state.Sound)
    {target : AiConversationTarget}
    (hhidden : shown (targetKey target.scopeKey target.conversationId) = false) :
    textFrom shown order (removeConversation state target).scopes =
      textFrom shown order state.scopes := by
  rw [scopes_removeConversation hsound, textFrom, sum_map_filter_of_zero, List.map_map]
  · refine congrArg List.sum (List.map_congr_left fun scope _ => ?_)
    rw [Function.comp_apply]
    split_ifs with hkey
    · refine sum_map_filter_of_zero fun conversation _ hgone => ?_
      rw [decide_eq_false_iff_not, not_not] at hgone
      show (if shown (targetKey scope.key conversation.id) = true then _ else 0) = 0
      rw [hkey, hgone, hhidden]
      rfl
    · rfl
  · intro scope _ hgone
    rw [Bool.or_eq_false_iff, Bool.not_eq_false', List.isEmpty_iff] at hgone
    rw [AiConversationScopeState.textFrom, hgone.2]
    rfl

theorem sum_modifyFirst {α : Type} {p : α → Bool} {f : α → α} {g : α → ℕ} {x y : ℕ} {l : List α}
    (h : ∀ a ∈ l, p a = true → g (f a) + x = g a + y) (hmem : ∃ a ∈ l, p a = true) :
    ((modifyFirst p f l).map g).sum + x = (l.map g).sum + y := by
  induction l with
  | nil =>
      obtain ⟨a, ha, -⟩ := hmem
      nomatch ha
  | cons a rest ih =>
      rw [modifyFirst]
      by_cases hp : p a = true
      · have := h a List.mem_cons_self hp
        rw [if_pos hp]
        simp only [List.map_cons, List.sum_cons]
        omega
      · have hrest : ∃ b ∈ rest, p b = true := by
          obtain ⟨b, hb, hpb⟩ := hmem
          rcases List.mem_cons.mp hb with rfl | hb
          · exact absurd hpb hp
          · exact ⟨b, hb, hpb⟩
        have := ih (fun b hb => h b (List.mem_cons_of_mem _ hb)) hrest
        rw [if_neg hp]
        simp only [List.map_cons, List.sum_cons]
        omega

theorem map_modifyFirst_of_mem {α β : Type} {p : α → Bool} {f : α → α} {g : α → β} {l : List α}
    (h : ∀ a ∈ l, p a = true → g (f a) = g a) : (modifyFirst p f l).map g = l.map g := by
  induction l with
  | nil => rfl
  | cons a rest ih =>
      rw [modifyFirst]
      split_ifs with hp
      · rw [List.map_cons, List.map_cons, h a List.mem_cons_self hp]
      · rw [List.map_cons, List.map_cons, ih fun b hb => h b (List.mem_cons_of_mem _ hb)]

theorem textFrom_modifyConversation {state : MutableState} {target : AiConversationTarget}
    {f : AiConversation → AiConversation} (hid : ∀ conversation, (f conversation).id = conversation.id)
    (h : ∀ scope ∈ state.scopes, scope.key = target.scopeKey →
      ∀ conversation ∈ scope.conversations, conversation.id = target.conversationId →
        (f conversation).textFrom order = conversation.textFrom order) :
    textFrom shown order (state.modifyConversation target f).scopes =
      textFrom shown order state.scopes := by
  refine congrArg List.sum (map_modifyFirst_of_mem fun scope hscope hkey => ?_)
  refine congrArg List.sum (map_modifyFirst_of_mem fun conversation hconversation hc => ?_)
  rw [hid, h scope hscope (by simpa using hkey) conversation hconversation (by simpa using hc)]

end Text

/-! ### The written message -/

/-- The message is still in the conversation. -/
def MutableState.HoldsMessage (state : MutableState) (target : AiConversationTarget) (id : JsText) :
    Prop :=
  ∃ scope ∈ state.scopes, scope.key = target.scopeKey ∧
    ∃ conversation ∈ scope.conversations, conversation.id = target.conversationId ∧
      id ∈ conversation.messages.map (·.id)

/-- A draft in which the message has been written. -/
def MutableState.Wrote (draft : MutableState) (target : AiConversationTarget)
    (written : AiConversationMessage) : Prop :=
  ∃ scope ∈ draft.scopes, scope.key = target.scopeKey ∧
    ∃ conversation ∈ scope.conversations, conversation.id = target.conversationId ∧
      written ∈ conversation.messages

/-- What neither eviction takes: the visible conversation and the written one. -/
def MutableState.isShown (state : MutableState) (target : AiConversationTarget) (key : JsText) :
    Bool :=
  some key = activeTargetKey state || key = targetKey target.scopeKey target.conversationId

def AllShown (shown : JsText → Bool) (state : MutableState) : Prop :=
  ∀ scope ∈ state.scopes, ∀ conversation ∈ scope.conversations,
    shown (targetKey scope.key conversation.id) = true

theorem AllShown.of_remains {shown : JsText → Bool} {new old : MutableState} (h : new.Remains old)
    (hold : AllShown shown old) : AllShown shown new := by
  intro scope hscope conversation hconversation
  obtain ⟨scope', hscope', hremains⟩ := h.exists_scope hscope
  obtain ⟨conversation', hconversation', hr⟩ := hremains.exists_conversation hconversation
  rw [hremains.key, hr.id]
  exact hold scope' hscope' conversation' hconversation'

section Written

variable {state state' : MutableState} {target : AiConversationTarget} {id : JsText}

theorem MutableState.HoldsMessage.of_remains (h : state'.Remains state)
    (hholds : state'.HoldsMessage target id) : state.HoldsMessage target id := by
  obtain ⟨scope, hscope, hkey, conversation, hconversation, hid, hmem⟩ := hholds
  obtain ⟨scope', hscope', hremains⟩ := h.exists_scope hscope
  obtain ⟨conversation', hconversation', hr⟩ := hremains.exists_conversation hconversation
  exact ⟨scope', hscope', hremains.key.symm.trans hkey, conversation', hconversation',
    hr.id.symm.trans hid, hr.ids_sublist.subset hmem⟩

theorem MutableState.Wrote.holdsMessage {written : AiConversationMessage}
    (h : state.Wrote target written) : state.HoldsMessage target written.id := by
  obtain ⟨scope, hscope, hkey, conversation, hconversation, hid, hmem⟩ := h
  exact ⟨scope, hscope, hkey, conversation, hconversation, hid, List.mem_map_of_mem hmem⟩

/-- The message that is left is the written one. -/
theorem MutableState.Wrote.remains {draft : MutableState} {written : AiConversationMessage}
    (hwrote : draft.Wrote target written) (hsound : draft.Sound) (h : state.Remains draft)
    {scope : AiConversationScopeState} (hscope : scope ∈ state.scopes)
    (hkey : scope.key = target.scopeKey) {conversation : AiConversation}
    (hconversation : conversation ∈ scope.conversations) (hid : conversation.id = target.conversationId)
    {message : AiConversationMessage} (hmessage : message ∈ conversation.messages)
    (hmessageId : message.id = written.id) : message.Remains written := by
  obtain ⟨scope₀, hscope₀, hkey₀, conversation₀, hconversation₀, hid₀, hwritten⟩ := hwrote
  obtain ⟨scope', hscope', hremains⟩ := h.exists_scope hscope
  obtain ⟨conversation', hconversation', hr⟩ := hremains.exists_conversation hconversation
  have hsame : conversation' = conversation₀ := conversation_eq_of_target hsound hscope' hscope₀
    (hremains.key.symm.trans (hkey.trans hkey₀.symm)) hconversation' hconversation₀
    (hr.id.symm.trans (hid.trans hid₀.symm))
  subst hsame
  obtain ⟨message', hmessage', hm⟩ := exists_of_sublistForall₂ hr.sublist hmessage
  have hnodup := ((hsound.scopes scope' hscope').conversations conversation' hconversation').ids_nodup
  rwa [List.inj_on_of_nodup_map hnodup hmessage' hwritten (hm.id.symm.trans hmessageId)] at hm

theorem holdsMessage_modifyConversation (hsound : state.Sound) {other : AiConversationTarget}
    {f : AiConversation → AiConversation} (hid : ∀ conversation, (f conversation).id = conversation.id)
    (h : ∀ scope ∈ state.scopes, scope.key = target.scopeKey →
      ∀ conversation ∈ scope.conversations, conversation.id = target.conversationId →
        other = target → id ∈ conversation.messages.map (·.id) →
          id ∈ (f conversation).messages.map (·.id))
    (hholds : state.HoldsMessage target id) :
    (state.modifyConversation other f).HoldsMessage target id := by
  obtain ⟨scope, hscope, hkey, conversation, hconversation, hconversationId, hmem⟩ := hholds
  refine ⟨_, mem_modifyFirst_of_mem hsound.keys_nodup hscope, ?_⟩
  by_cases hother : scope.key = other.scopeKey
  · rw [if_pos hother]
    refine ⟨hkey, _, mem_modifyFirst_of_mem (hsound.scopes scope hscope).ids_nodup hconversation, ?_⟩
    by_cases hsame : conversation.id = other.conversationId
    · rw [if_pos hsame]
      have htarget : other = target := by
        cases other
        cases target
        exact congr (congrArg _ (hother.symm.trans hkey)) (hsame.symm.trans hconversationId)
      exact ⟨(hid _).trans hconversationId, h scope hscope hkey conversation hconversation
        hconversationId htarget hmem⟩
    · rw [if_neg hsame]
      exact ⟨hconversationId, hmem⟩
  · rw [if_neg hother]
    exact ⟨hkey, conversation, hconversation, hconversationId, hmem⟩

/-! ### Whole histories -/

theorem holdsMessage_removeConversation (hsound : state.Sound) {other : AiConversationTarget}
    (hne : other ≠ target) (hholds : state.HoldsMessage target id) :
    (removeConversation state other).HoldsMessage target id := by
  obtain ⟨scope, hscope, hkey, conversation, hconversation, hconversationId, hmem⟩ := hholds
  rw [MutableState.HoldsMessage, scopes_removeConversation hsound]
  by_cases hother : scope.key = other.scopeKey
  · have hleft : conversation ∈ (scope.removeConversation other.conversationId).conversations := by
      refine List.mem_filter.mpr ⟨hconversation, decide_eq_true fun hsame => hne ?_⟩
      cases other
      cases target
      exact congr (congrArg _ (hother.symm.trans hkey)) (hsame.symm.trans hconversationId)
    refine ⟨_, List.mem_filter.mpr ⟨List.mem_map.mpr ⟨scope, hscope, if_pos hother⟩, ?_⟩, hkey,
      conversation, hleft, hconversationId, hmem⟩
    rw [Bool.or_eq_true, Bool.not_eq_true', List.isEmpty_eq_false_iff]
    exact .inr (List.ne_nil_of_mem hleft)
  · refine ⟨scope, List.mem_filter.mpr ⟨List.mem_map.mpr ⟨scope, hscope, if_neg hother⟩, ?_⟩, hkey,
      conversation, hconversation, hconversationId, hmem⟩
    rw [Bool.or_eq_true, decide_eq_true_eq]
    exact .inl hother

theorem activeTargetKey_of_kept {protectedTargets : ProtectedTargets} (hsound : state.Sound)
    (hsound' : state'.Sound) (h : Kept protectedTargets state' state)
    (hvisible : ∃ visible, state.IsActive visible) : activeTargetKey state' = activeTargetKey state := by
  obtain ⟨_, scope, hscope, hkey, rfl⟩ := hvisible
  obtain ⟨scope', hscope', hkey', heq⟩ := h.active _ ⟨scope, hscope, hkey, rfl⟩
  rw [activeTargetKey_eq hsound hscope hkey, activeTargetKey_eq hsound' hscope' hkey']
  obtain ⟨hkeys, hids⟩ := AiConversationTarget.mk.inj heq
  rw [hkeys, hids]

/-- A history that is evicted is not shown. -/
theorem evictHistory_spec {protectedTargets : ProtectedTargets}
    (h : evictHistory protectedTargets state = some state') :
    ∃ evicted : AiConversationTarget, state' = removeConversation state evicted ∧
      some (targetKey evicted.scopeKey evicted.conversationId) ≠ activeTargetKey state ∧
      targetKey evicted.scopeKey evicted.conversationId ∉ protectedTargets := by
  obtain ⟨⟨scope, conversation⟩, holdest, rfl⟩ := Option.map_eq_some_iff.mp h
  obtain ⟨_, -, hmem⟩ := List.mem_flatMap.mp (oldest_mem holdest)
  obtain ⟨_, hcandidate, heq⟩ := List.mem_map.mp hmem
  obtain ⟨rfl, rfl⟩ := Prod.mk.inj heq
  have hfree := (List.mem_filter.mp hcandidate).2
  rw [Bool.and_eq_true, decide_eq_true_eq, Bool.not_eq_true'] at hfree
  refine ⟨⟨_, _⟩, rfl, hfree.1, fun hprotected => ?_⟩
  rw [List.contains_iff_mem.mpr hprotected] at hfree
  nomatch hfree.2

theorem allShown_of_evictHistory
    (h : evictHistory [targetKey target.scopeKey target.conversationId] state = none) :
    AllShown (state.isShown target) state := by
  intro scope hscope conversation hconversation
  have hempty := oldest_eq_none.mp (Option.map_eq_none_iff.mp h)
  have hscopeEmpty := List.flatMap_eq_nil_iff.mp hempty scope hscope
  have hnot := List.filter_eq_nil_iff.mp (List.map_eq_nil_iff.mp hscopeEmpty) conversation
    hconversation
  rw [MutableState.isShown, Bool.or_eq_true, decide_eq_true_eq, decide_eq_true_eq]
  by_contra hhidden
  rw [not_or] at hhidden
  refine hnot ?_
  rw [Bool.and_eq_true, decide_eq_true_eq, Bool.not_eq_true']
  refine ⟨hhidden.1, Bool.eq_false_iff.mpr fun hcontains => hhidden.2 ?_⟩
  exact List.mem_singleton.mp (List.contains_iff_mem.mp hcontains)

end Written

/-! ### Old messages -/

section Oldest

variable {state state' : MutableState}

/-- The message that is dropped comes before all others. -/
theorem dropOldestMessage_spec (hsound : state.Sound) (h : dropOldestMessage state = some state') :
    ∃ scope ∈ state.scopes, ∃ conversation ∈ scope.conversations, ∃ first rest,
      conversation.messages = first :: rest ∧
      state' = state.modifyConversation ⟨scope.key, conversation.id⟩
        (fun c => { c with messages := c.messages.tail }) ∧
      ∀ other ∈ state.scopes, ∀ c ∈ other.conversations, ∀ message ∈ c.messages,
        first.createdOrder ≤ message.createdOrder := by
  obtain ⟨⟨target, first⟩, holdest, rfl⟩ := Option.map_eq_some_iff.mp h
  obtain ⟨scope, hscope, conversation, hconversation, rfl, hhead⟩ :=
    mem_firstMessages.mp (oldest_mem holdest)
  obtain ⟨rest, hmessages⟩ := List.head?_eq_some_iff.mp hhead
  refine ⟨scope, hscope, conversation, hconversation, first, rest, hmessages, rfl, ?_⟩
  intro other hother c hc message hmessage
  cases hcm : c.messages with
  | nil =>
      rw [hcm] at hmessage
      nomatch hmessage
  | cons head tail =>
      have hfirst : first.createdOrder ≤ head.createdOrder := by
        have hle := oldest_le (fun _ _ _ hab hbc => decide_eq_true
            ((of_decide_eq_true hab).trans (of_decide_eq_true hbc)))
          (fun a b => by simpa using Nat.le_total a.2.createdOrder b.2.createdOrder) holdest
          (mem_firstMessages.mpr ⟨other, hother, c, hc, rfl, by rw [hcm]; rfl⟩)
        exact of_decide_eq_true hle
      have hordered := ((hsound.scopes other hother).conversations c hc).ordered
      rw [hcm] at hmessage hordered
      rcases List.mem_cons.mp hmessage with rfl | htail
      · exact hfirst
      · exact hfirst.trans (List.rel_of_pairwise_cons hordered (List.mem_map_of_mem htail)).le

theorem perm_modifyFirst {α : Type} {p : α → Bool} {f : α → α} {g : α → List ℕ} {x : ℕ}
    {l : List α} (h : ∀ a ∈ l, p a = true → (x :: g (f a)).Perm (g a)) (hmem : ∃ a ∈ l, p a = true) :
    (x :: (modifyFirst p f l).flatMap g).Perm (l.flatMap g) := by
  induction l with
  | nil =>
      obtain ⟨a, ha, -⟩ := hmem
      nomatch ha
  | cons a rest ih =>
      rw [modifyFirst]
      by_cases hp : p a = true
      · rw [if_pos hp, List.flatMap_cons, List.flatMap_cons, ← List.cons_append]
        exact (h a List.mem_cons_self hp).append_right _
      · have hrest : ∃ b ∈ rest, p b = true := by
          obtain ⟨b, hb, hpb⟩ := hmem
          rcases List.mem_cons.mp hb with rfl | hb
          · exact absurd hpb hp
          · exact ⟨b, hb, hpb⟩
        rw [if_neg hp, List.flatMap_cons, List.flatMap_cons]
        refine List.perm_middle.symm.trans (List.Perm.append_left _ ?_)
        exact ih (fun b hb => h b (List.mem_cons_of_mem _ hb)) hrest

/-- The order of the message that is dropped is used only once. -/
theorem orders_dropOldestMessage (hsound : state.Sound) {scope : AiConversationScopeState}
    (hscope : scope ∈ state.scopes) {conversation : AiConversation}
    (hconversation : conversation ∈ scope.conversations) {first : AiConversationMessage}
    {rest : List AiConversationMessage} (hmessages : conversation.messages = first :: rest) :
    first.createdOrder ∉ (state.modifyConversation ⟨scope.key, conversation.id⟩
      fun c => { c with messages := c.messages.tail }).orders := by
  have hperm : (first.createdOrder :: (state.modifyConversation ⟨scope.key, conversation.id⟩
      fun c => { c with messages := c.messages.tail }).orders).Perm state.orders := by
    refine perm_modifyFirst (fun other hother hkey => ?_) ⟨scope, hscope, by simp⟩
    have hkey' : other.key = scope.key := by simpa using hkey
    obtain rfl := eq_of_key_eq_of_nodup hsound.keys_nodup hother hscope hkey'
    refine perm_modifyFirst (fun same hsame hid => ?_) ⟨conversation, hconversation, by simp⟩
    have hid' : same.id = conversation.id := by simpa using hid
    rw [conversation_eq_of_target hsound hscope hscope rfl hsame hconversation hid']
    rw [hmessages]
    exact List.Perm.refl _
  exact (List.nodup_cons.mp (hperm.nodup_iff.mpr hsound.orders_nodup)).1

variable {draft : MutableState} {target : AiConversationTarget} {written : AiConversationMessage}
  {shown : JsText → Bool}

theorem order_mem_of_holdsMessage (hwrote : draft.Wrote target written) (hsound : draft.Sound)
    (h : state.Remains draft) (hholds : state.HoldsMessage target written.id) :
    written.createdOrder ∈ state.orders := by
  obtain ⟨scope, hscope, hkey, conversation, hconversation, hid, hmem⟩ := hholds
  obtain ⟨message, hmessage, hmessageId⟩ := List.mem_map.mp hmem
  have hremains := hwrote.remains hsound h hscope hkey hconversation hid hmessage hmessageId
  rw [← hremains.createdOrder]
  exact List.mem_flatMap.mpr ⟨scope, hscope, List.mem_flatMap.mpr ⟨conversation, hconversation,
    List.mem_map_of_mem hmessage⟩⟩

/-- As long as the written message is left, so is what is shown and newer. -/
theorem textFrom_dropOldestMessage (hwrote : draft.Wrote target written) (hsoundDraft : draft.Sound)
    (hsound : state.Sound) (hremains : state'.Remains draft)
    (h : dropOldestMessage state = some state') (hholds : state'.HoldsMessage target written.id)
    (hbefore : written.createdOrder ∈ state.orders) :
    textFrom shown written.createdOrder state'.scopes =
      textFrom shown written.createdOrder state.scopes := by
  obtain ⟨scope, hscope, conversation, hconversation, first, rest, hmessages, rfl, hfirst⟩ :=
    dropOldestMessage_spec hsound h
  have hmem := order_mem_of_holdsMessage hwrote hsoundDraft hremains hholds
  have hne : first.createdOrder ≠ written.createdOrder := fun heq =>
    orders_dropOldestMessage hsound hscope hconversation hmessages (heq ▸ hmem)
  have hle : first.createdOrder ≤ written.createdOrder := by
    obtain ⟨other, hother, hc⟩ := List.mem_flatMap.mp hbefore
    obtain ⟨c, hc, hm⟩ := List.mem_flatMap.mp hc
    obtain ⟨message, hmessage, heq⟩ := List.mem_map.mp hm
    exact heq ▸ hfirst other hother c hc message hmessage
  refine textFrom_modifyConversation (fun _ => rfl) fun other hother hkey c hc hid => ?_
  rw [conversation_eq_of_target hsound hother hscope hkey hc hconversation hid]
  have hold : decide (written.createdOrder ≤ first.createdOrder) = false :=
    decide_eq_false (by omega)
  simp only [AiConversation.textFrom, hmessages, List.tail_cons, List.filter_cons, hold,
    Bool.false_eq_true, if_false]

/-- While the text is over its budget, a message whose newer text fits is not the oldest one. -/
theorem holdsMessage_dropOldestMessage (hwrote : draft.Wrote target written)
    (hsoundDraft : draft.Sound) (hsound : state.Sound) (hremains : state.Remains draft)
    (hshown : AllShown shown state) (hover : isOverText state = true)
    (hfits : textFrom shown written.createdOrder state.scopes ≤ maxAiConversationTotalTextBytes)
    (h : dropOldestMessage state = some state') (hholds : state.HoldsMessage target written.id) :
    state'.HoldsMessage target written.id := by
  obtain ⟨scope, hscope, conversation, hconversation, first, rest, hmessages, rfl, hfirst⟩ :=
    dropOldestMessage_spec hsound h
  have hold : first.createdOrder < written.createdOrder := by
    by_contra hnew
    have htext : textFrom shown written.createdOrder state.scopes = textBytes state.scopes :=
      textFrom_eq_textBytes fun other hother c hc => ⟨hshown other hother c hc,
        fun message hmessage =>
          (Nat.not_lt.mp hnew).trans (hfirst other hother c hc message hmessage)⟩
    have hlarge := of_decide_eq_true hover
    omega
  refine holdsMessage_modifyConversation hsound (fun _ => rfl) ?_ hholds
  intro other hother hkey c hc hid htarget hmem
  obtain ⟨message, hmessage, hmessageId⟩ := List.mem_map.mp hmem
  have hr := hwrote.remains hsoundDraft hremains hother hkey hc hid hmessage hmessageId
  have hsame : c = conversation := by
    subst htarget
    exact conversation_eq_of_target hsound hother hscope hkey hc hconversation hid
  subst hsame
  rw [hmessages] at hmessage
  rcases List.mem_cons.mp hmessage with rfl | hrest
  · rw [hr.createdOrder] at hold
    exact absurd hold (Nat.lt_irrefl _)
  · rw [hmessages]
    exact List.mem_map.mpr ⟨message, hrest, hmessageId⟩

end Oldest

/-! ### The rounds -/

section Rounds

variable {draft : MutableState} {target : AiConversationTarget} {written : AiConversationMessage}

/-- What is true of the draft while whole histories go. -/
theorem histories_spec (hsound : draft.Sound) (hwrote : draft.Wrote target written)
    (hvisible : ∃ visible, draft.IsActive visible) :
    let protectedTargets := [targetKey target.scopeKey target.conversationId]
    let histories :=
      drain isOverText (evictHistory protectedTargets) (conversationCount draft) draft
    histories.HoldsMessage target written.id ∧
      textFrom (draft.isShown target) written.createdOrder histories.scopes =
        textFrom (draft.isShown target) written.createdOrder draft.scopes ∧
      (isOverText histories = false ∨ AllShown (draft.isShown target) histories) := by
  intro protectedTargets histories
  have hactive : ∀ {state : MutableState}, Kept protectedTargets state draft →
      activeTargetKey state = activeTargetKey draft := fun hkept =>
    activeTargetKey_of_kept hsound (hkept.sound hsound) hkept hvisible
  have hinvariant : Kept protectedTargets histories draft ∧
      histories.HoldsMessage target written.id ∧
      textFrom (draft.isShown target) written.createdOrder histories.scopes =
        textFrom (draft.isShown target) written.createdOrder draft.scopes := by
    refine drain_invariant (I := fun state => Kept protectedTargets state draft ∧
      state.HoldsMessage target written.id ∧
      textFrom (draft.isShown target) written.createdOrder state.scopes =
        textFrom (draft.isShown target) written.createdOrder draft.scopes) ?_
      ⟨.refl hsound, hwrote.holdsMessage, rfl⟩
    rintro state state' - hnext ⟨hkept, hholds, htext⟩
    have hsoundState := hkept.sound hsound
    obtain ⟨evicted, rfl, hfree, hunprotected⟩ := evictHistory_spec hnext
    refine ⟨(evictHistory_kept hsoundState hnext).1.trans hkept, ?_, ?_⟩
    · refine holdsMessage_removeConversation hsoundState (fun heq => hunprotected ?_) hholds
      rw [heq]
      exact List.mem_singleton_self _
    · rw [textFrom_removeConversation hsoundState, htext]
      rw [MutableState.isShown, Bool.or_eq_false_iff, decide_eq_false_iff_not,
        decide_eq_false_iff_not, ← hactive hkept]
      exact ⟨hfree, fun heq => hunprotected (List.mem_singleton.mpr heq)⟩
  obtain ⟨hkept, hholds, htext⟩ := hinvariant
  refine ⟨hholds, htext, ?_⟩
  have hends : isOverText histories = false ∨ evictHistory protectedTargets histories = none :=
    drain_over_or_none protectedTargets (m := conversationCount) evictHistory_kept hsound
  refine hends.imp id fun hnone => ?_
  have hshown : draft.isShown target = histories.isShown target := by
    funext key
    rw [MutableState.isShown, MutableState.isShown, hactive hkept]
  rw [hshown]
  exact allShown_of_evictHistory hnone

/-- The written message stays while old messages go if and only if what is newer fits. -/
theorem trimmed_iff {histories : MutableState} {shown : JsText → Bool} (hsoundDraft : draft.Sound)
    (hwrote : draft.Wrote target written) (hsound : histories.Sound)
    (hremains : histories.Remains draft) (hholds : histories.HoldsMessage target written.id)
    (hshown : isOverText histories = false ∨ AllShown shown histories) :
    let trimmed := drain isOverText dropOldestMessage (messageCount histories) histories
    isOverText trimmed = false → (trimmed.HoldsMessage target written.id ↔
      textFrom shown written.createdOrder histories.scopes ≤ maxAiConversationTotalTextBytes) := by
  intro trimmed hbounded
  rcases hshown with hwithin | hshown
  · have hsame : trimmed = histories := drain_of_within hwithin
    rw [hsame]
    exact ⟨fun _ => (textFrom_le _).trans (Nat.not_lt.mp (of_decide_eq_false hwithin)),
      fun _ => hholds⟩
  have hkept : ∀ {state state' : MutableState}, Kept [] state histories →
      dropOldestMessage state = some state' → Kept [] state' state := fun hkept hnext =>
    (dropOldestMessage_kept (hkept.sound hsound) hnext).1
  have htext : ∀ {state state' : MutableState}, Kept [] state histories →
      dropOldestMessage state = some state' → state'.HoldsMessage target written.id →
      textFrom shown written.createdOrder state'.scopes =
        textFrom shown written.createdOrder state.scopes := by
    intro state state' hstate hnext hafter
    have hstate' := hkept hstate hnext
    exact textFrom_dropOldestMessage hwrote hsoundDraft (hstate.sound hsound)
      ((hstate'.trans hstate).remains.trans hremains) hnext hafter
      (order_mem_of_holdsMessage hwrote hsoundDraft (hstate.remains.trans hremains)
        (hafter.of_remains hstate'.remains))
  constructor
  · intro hleft
    have hinvariant : Kept [] trimmed histories ∧ (trimmed.HoldsMessage target written.id →
        textFrom shown written.createdOrder trimmed.scopes =
          textFrom shown written.createdOrder histories.scopes) := by
      refine drain_invariant (I := fun state => Kept [] state histories ∧
        (state.HoldsMessage target written.id → textFrom shown written.createdOrder state.scopes =
          textFrom shown written.createdOrder histories.scopes)) ?_ ⟨.refl hsound, fun _ => rfl⟩
      rintro state state' - hnext ⟨hstate, hsame⟩
      refine ⟨(hkept hstate hnext).trans hstate, fun hafter => ?_⟩
      exact (htext hstate hnext hafter).trans
        (hsame (hafter.of_remains (hkept hstate hnext).remains))
    rw [← hinvariant.2 hleft]
    exact (textFrom_le _).trans (Nat.not_lt.mp (of_decide_eq_false hbounded))
  · intro hfits
    have hinvariant : Kept [] trimmed histories ∧ trimmed.HoldsMessage target written.id ∧
        textFrom shown written.createdOrder trimmed.scopes =
          textFrom shown written.createdOrder histories.scopes := by
      refine drain_invariant (I := fun state => Kept [] state histories ∧
        state.HoldsMessage target written.id ∧ textFrom shown written.createdOrder state.scopes =
          textFrom shown written.createdOrder histories.scopes) ?_ ⟨.refl hsound, hholds, rfl⟩
      rintro state state' hover hnext ⟨hstate, hbefore, hsame⟩
      have hafter := holdsMessage_dropOldestMessage hwrote hsoundDraft (hstate.sound hsound)
        (hstate.remains.trans hremains) (hshown.of_remains hstate.remains) hover (hsame ▸ hfits)
        hnext hbefore
      exact ⟨(hkept hstate hnext).trans hstate, hafter, (htext hstate hnext hafter).trans hsame⟩
    exact hinvariant.2.1

/-- Images go without their messages. -/
theorem holdsMessage_images {state : MutableState} (hsound : state.Sound) {id : JsText} (fuel : ℕ)
    (hholds : state.HoldsMessage target id) :
    (drain isOverImages discardOldestImage fuel state).HoldsMessage target id := by
  refine (drain_invariant (I := fun s => Kept [] s state ∧ s.HoldsMessage target id) ?_
    ⟨.refl hsound, hholds⟩).2
  rintro s t - hnext ⟨hkept, hs⟩
  refine ⟨(discardOldestImage_kept (hkept.sound hsound) hnext).1.trans hkept, ?_⟩
  obtain ⟨image, -, rfl⟩ := Option.map_eq_some_iff.mp hnext
  refine holdsMessage_modifyConversation (hkept.sound hsound) (fun _ => rfl) ?_ hs
  intro _ _ _ conversation _ _ _ hmem
  have hids : (conversation.modifyMessage image.message.id (·.discardData image.index)).messages.map
      (·.id) = conversation.messages.map (·.id) := map_modifyFirst fun _ => rfl
  exact hids ▸ hmem

end Rounds

/-! ### Drafts of a write -/

section Writing

variable {state : AiConversationState} {target : AiConversationTarget}

theorem mapM_modifyFirst {α ε : Type} {p : α → Bool} {f f' : α → α} {g : α → Except ε α} {l : List α}
    (hfixed : ∀ a ∈ l, g a = .ok a) (h : ∀ a ∈ l, p a = true → g (f a) = .ok (f' a)) :
    (modifyFirst p f l).mapM g = .ok (modifyFirst p f' l) := by
  have hmap : ∀ {l : List α}, (∀ a ∈ l, g a = .ok a) → l.mapM g = .ok l := by
    intro l hl
    induction l with
    | nil => rfl
    | cons a rest ih =>
        rw [List.mapM_cons, hl a List.mem_cons_self, ih fun b hb => hl b (List.mem_cons_of_mem _ hb)]
        rfl
  induction l with
  | nil => rfl
  | cons a rest ih =>
      rw [modifyFirst, modifyFirst]
      have hrest := fun b hb => hfixed b (List.mem_cons_of_mem a hb)
      split_ifs with hp
      · rw [List.mapM_cons, h a List.mem_cons_self hp, hmap hrest]
        rfl
      · rw [List.mapM_cons, hfixed a List.mem_cons_self,
          ih hrest fun b hb => h b (List.mem_cons_of_mem _ hb)]
        rfl

theorem map_modifyFirst_of_fixed {α : Type} {p : α → Bool} {f g : α → α} {l : List α}
    (hfixed : ∀ a ∈ l, g a = a) : (modifyFirst p f l).map g = modifyFirst p (fun a => g (f a)) l := by
  have hmap : ∀ {l : List α}, (∀ a ∈ l, g a = a) → l.map g = l := fun hl =>
    (List.map_congr_left hl).trans (List.map_id _)
  induction l with
  | nil => rfl
  | cons a rest ih =>
      rw [modifyFirst, modifyFirst]
      have hrest := fun b hb => hfixed b (List.mem_cons_of_mem a hb)
      split_ifs
      · rw [List.map_cons, hmap hrest]
      · rw [List.map_cons, hfixed a List.mem_cons_self, ih hrest]

theorem dropOldMessages_of_within {conversation : AiConversation}
    (h : conversation.messages.length ≤ maxAiMessagesPerConversation) :
    conversation.dropOldMessages = conversation := by
  rw [AiConversation.dropOldMessages, Nat.sub_eq_zero_of_le h, List.drop_zero]

/-- Of a written conversation the oldest messages go. -/
theorem boundScope_write {protectedTargets : ProtectedTargets} {scope : AiConversationScopeState}
    (hlength : scope.conversations.length ≤ maxAiConversationsPerScope)
    (hmessages : ∀ conversation ∈ scope.conversations,
      conversation.messages.length ≤ maxAiMessagesPerConversation) (id : JsText) (order : ℕ)
    (f : AiConversation → AiConversation) :
    boundScope protectedTargets { scope.modifyConversation id f with updatedOrder := order } =
      .ok { scope.modifyConversation id fun conversation => (f conversation).dropOldMessages with
        updatedOrder := order } := by
  have hconversations : (scope.modifyConversation id f).conversations.map
      AiConversation.dropOldMessages =
        modifyFirst (·.id = id) (fun conversation => (f conversation).dropOldMessages)
          scope.conversations :=
    map_modifyFirst_of_fixed fun conversation hmem =>
      dropOldMessages_of_within (hmessages conversation hmem)
  have hover : isOverConversations { scope.modifyConversation id f with
      updatedOrder := order
      conversations := modifyFirst (·.id = id) (fun conversation => (f conversation).dropOldMessages)
        scope.conversations } = false :=
    decide_eq_false (Nat.not_lt.mpr (length_modifyFirst.le.trans hlength))
  simp only [boundScope, hconversations]
  rw [drain_of_within hover]
  exact if_neg (Bool.eq_false_iff.mp hover)

/-- What the first two rounds make of a write. -/
def AiConversationState.trimmedWrite (state : AiConversationState) (target : AiConversationTarget)
    (f : AiConversation → AiConversation) : MutableState :=
  state.draft.write target (state.revision + 1) fun conversation => (f conversation).dropOldMessages

theorem mapM_boundScope_write (hgood : state.Good) (protectedTargets : ProtectedTargets)
    (f : AiConversation → AiConversation) :
    (state.draft.write target (state.revision + 1) f).scopes.mapM (boundScope protectedTargets) =
      .ok (state.trimmedWrite target f).scopes := by
  refine mapM_modifyFirst (fun scope hscope => ?_) fun scope hscope _ => ?_
  · exact boundScope_of_within (hgood.bounded.conversations scope hscope)
      (hgood.bounded.messages scope hscope)
  · exact boundScope_write (hgood.bounded.conversations scope hscope)
      (hgood.bounded.messages scope hscope) _ _ _

theorem mem_trimmedWrite (hgood : state.Good) {f : AiConversation → AiConversation}
    {conversation : AiConversation} (hfind : state.findConversation target = some conversation) :
    ∃ scope ∈ (state.trimmedWrite target f).scopes, scope.key = target.scopeKey ∧
      { (f conversation).dropOldMessages with updatedOrder := state.revision + 1 } ∈
        scope.conversations := by
  obtain ⟨scope, hscope, hkey, hconversation, hid⟩ := (findConversation_eq_some hgood).mp hfind
  refine ⟨_, mem_modifyScope hgood hscope, ?_⟩
  rw [if_pos hkey]
  refine ⟨hkey, ?_⟩
  let g (c : AiConversation) : AiConversation :=
    { (f c).dropOldMessages with updatedOrder := state.revision + 1 }
  have hmem : (if conversation.id = target.conversationId then g conversation else conversation) ∈
      modifyFirst (·.id = target.conversationId) g scope.conversations :=
    mem_modifyFirst_of_mem (hgood.sound.scopes scope hscope).ids_nodup hconversation
  rwa [if_pos hid] at hmem

theorem trimmedWrite_within (hgood : state.Good) (target : AiConversationTarget)
    (f : AiConversation → AiConversation) :
    (state.trimmedWrite target f).scopes.length ≤ maxAiConversationScopes ∧
      (∀ scope ∈ (state.trimmedWrite target f).scopes,
        scope.conversations.length ≤ maxAiConversationsPerScope) ∧
      ∀ scope ∈ (state.trimmedWrite target f).scopes, ∀ conversation ∈ scope.conversations,
        conversation.messages.length ≤ maxAiMessagesPerConversation := by
  refine ⟨length_modifyFirst.le.trans hgood.bounded.scopes, fun scope hscope => ?_,
    fun scope hscope conversation hconversation => ?_⟩
  · rcases mem_modifyFirst hscope with hmem | ⟨before, hmem, -, rfl⟩
    · exact hgood.bounded.conversations scope hmem
    · exact length_modifyFirst.le.trans (hgood.bounded.conversations before hmem)
  · rcases mem_modifyFirst hscope with hmem | ⟨before, hmem, -, rfl⟩
    · exact hgood.bounded.messages scope hmem conversation hconversation
    · rcases mem_modifyFirst hconversation with hold | ⟨old, hold, -, rfl⟩
      · exact hgood.bounded.messages before hmem conversation hold
      · exact length_dropOldMessages_le (f old)

/-- The last rounds, where the first two take no scope. -/
theorem enforceBounds_of_rounds {draft : MutableState} {protectedTargets : ProtectedTargets}
    {scopes : List AiConversationScopeState}
    (hscopes : draft.scopes.mapM (boundScope protectedTargets) = .ok scopes)
    (hover : isOverScopes { draft with scopes } = false) :
    let first := { draft with scopes }
    let histories :=
      drain isOverText (evictHistory protectedTargets) (conversationCount first) first
    let trimmed := drain isOverText dropOldestMessage (messageCount histories) histories
    isOverText trimmed = false →
      enforceBounds draft protectedTargets = .ok (drain isOverImages discardOldestImage
        (retainedImageContent trimmed.scopes).length trimmed) := by
  intro first histories trimmed htext
  simp only [enforceBounds, hscopes]
  show (if isOverScopes (drain isOverScopes _ _ first) = true then _ else _ :
    Except AiConversationError MutableState) = _
  rw [drain_of_within hover, if_neg (Bool.eq_false_iff.mp hover)]
  exact if_neg (Bool.eq_false_iff.mp htext)

/-- **A write is kept if and only if the newer text that is shown fits.** -/
theorem finish_write_iff (hgood : state.Good) (hclean : 0 ∉ target.scopeKey)
    {conversation : AiConversation} (hfind : state.findConversation target = some conversation)
    {f : AiConversation → AiConversation} (hid : ∀ conversation, (f conversation).id = conversation.id)
    (hsound : (f conversation).Sound)
    (horders : (f conversation).messages.map (·.createdOrder) <+~
      [state.revision + 1] ++ conversation.messages.map (·.createdOrder))
    {written : AiConversationMessage} (hwritten : written ∈ (f conversation).dropOldMessages.messages) :
    ∃ after, finish (state.draft.write target (state.revision + 1) f)
        [targetKey target.scopeKey target.conversationId] = .ok after ∧ after.Good ∧
      (toMutable after).Remains (state.trimmedWrite target f) ∧
      (state.trimmedWrite target f).Wrote target written ∧ (state.trimmedWrite target f).Sound ∧
      ((toMutable after).HoldsMessage target written.id ↔
        textFrom ((toMutable state).isShown target) written.createdOrder
          (state.trimmedWrite target f).scopes ≤ maxAiConversationTotalTextBytes) := by
  have hdrafted : Drafted (state.trimmedWrite target f)
      [targetKey target.scopeKey target.conversationId] :=
    drafted_write hgood hclean hfind (fun c => hid c)
      (hsound.of_remains (dropOldMessages_remains _))
      (((List.drop_sublist _ _).map _).subperm.trans horders)
  obtain ⟨scope, hscope, hkey, hconversation⟩ := mem_trimmedWrite hgood hfind (f := f)
  have hwrote : (state.trimmedWrite target f).Wrote target written :=
    ⟨scope, hscope, hkey, _, hconversation,
      (hid conversation).trans ((findConversation_eq_some hgood).mp hfind).choose_spec.2.2.2, hwritten⟩
  obtain ⟨hscopes, hlength, hmessages⟩ := trimmedWrite_within hgood target f
  obtain ⟨visible, hvisible⟩ : ∃ visible, state.IsVisible visible := by
    obtain ⟨other, hother, -⟩ := (findConversation_eq_some hgood).mp hfind
    rcases hgood.visible with hnil | ⟨shown, hshown, hshownKey⟩
    · rw [hnil] at hother
      nomatch hother
    · exact ⟨_, shown, hshown, hshownKey, rfl⟩
  have hactive : (state.trimmedWrite target f).IsActive visible := isActive_write hgood hvisible
  have hshown : (state.trimmedWrite target f).isShown target = (toMutable state).isShown target := by
    funext key
    obtain ⟨left, hleft, hleftKey, rfl⟩ := hvisible
    obtain ⟨right, hright, hrightKey, heq⟩ := hactive
    obtain ⟨hkeys, hids⟩ := AiConversationTarget.mk.inj heq
    rw [MutableState.isShown, MutableState.isShown, activeTargetKey_eq hgood.sound hleft hleftKey,
      activeTargetKey_eq hdrafted.sound hright hrightKey, hkeys, hids]
  let protectedTargets := [targetKey target.scopeKey target.conversationId]
  let histories := drain isOverText (evictHistory protectedTargets)
    (conversationCount (state.trimmedWrite target f)) (state.trimmedWrite target f)
  let trimmed := drain isOverText dropOldestMessage (messageCount histories) histories
  let bounded := drain isOverImages discardOldestImage
    (retainedImageContent trimmed.scopes).length trimmed
  obtain ⟨hhistories, htrimmed, htext, hbounded, -⟩ :
      Kept protectedTargets histories (state.trimmedWrite target f) ∧
        Kept protectedTargets trimmed histories ∧ isOverText trimmed = false ∧
        Kept protectedTargets bounded trimmed ∧ bounded.Bounded :=
    finish_rounds protectedTargets hdrafted.sound hscopes hlength hmessages
  have hsoundHistories := hhistories.sound hdrafted.sound
  obtain ⟨hholds, hsame, hends⟩ := histories_spec hdrafted.sound hwrote ⟨visible, hactive⟩
  have hiff : trimmed.HoldsMessage target written.id ↔
      textFrom ((state.trimmedWrite target f).isShown target) written.createdOrder histories.scopes ≤
        maxAiConversationTotalTextBytes :=
    trimmed_iff hdrafted.sound hwrote hsoundHistories hhistories.remains hholds hends htext
  rw [hsame, hshown] at hiff
  have himages : trimmed.HoldsMessage target written.id → bounded.HoldsMessage target written.id :=
    holdsMessage_images (htrimmed.sound hsoundHistories) _
  have hfinish : finish (state.draft.write target (state.revision + 1) f) protectedTargets =
      .ok (freezeState bounded) := by
    rw [finish, enforceBounds_of_rounds (mapM_boundScope_write hgood _ f)
      (decide_eq_false (Nat.not_lt.mpr hscopes)) htext]
    rfl
  have hgood' : (freezeState bounded).Good := by
    have hmeets := finish_meets (drafted_write hgood hclean hfind hid hsound horders)
    rw [hfinish] at hmeets
    exact hmeets.1
  have hremains : bounded.Remains (state.trimmedWrite target f) :=
    hbounded.remains.trans (htrimmed.remains.trans hhistories.remains)
  have hback : bounded.HoldsMessage target written.id → trimmed.HoldsMessage target written.id :=
    fun hafter => hafter.of_remains hbounded.remains
  clear_value bounded trimmed histories
  exact ⟨freezeState bounded, hfinish, hgood', hremains, hwrote, hdrafted.sound,
    Iff.trans ⟨hback, himages⟩ hiff⟩

/-- What a write adds to the text that is shown. -/
theorem textFrom_trimmedWrite (hgood : state.Good) {shown : JsText → Bool} {order x y : ℕ}
    (hshown : shown (targetKey target.scopeKey target.conversationId) = true)
    {conversation : AiConversation} (hfind : state.findConversation target = some conversation)
    {f : AiConversation → AiConversation} (hid : ∀ conversation, (f conversation).id = conversation.id)
    (h : (f conversation).dropOldMessages.textFrom order + x = conversation.textFrom order + y) :
    textFrom shown order (state.trimmedWrite target f).scopes + x =
      textFrom shown order state.scopes + y := by
  obtain ⟨scope, hscope, hkey, hconversation, hconversationId⟩ :=
    (findConversation_eq_some hgood).mp hfind
  refine sum_modifyFirst (fun other hother hotherKey => ?_) ⟨scope, hscope, decide_eq_true hkey⟩
  have hotherKey' : other.key = target.scopeKey := of_decide_eq_true hotherKey
  obtain rfl := eq_of_key_eq_of_nodup hgood.sound.keys_nodup hother hscope (hotherKey'.trans hkey.symm)
  refine sum_modifyFirst (fun c hc hcId => ?_) ⟨conversation, hconversation,
    decide_eq_true hconversationId⟩
  have hcId' : c.id = target.conversationId := of_decide_eq_true hcId
  obtain rfl := conversation_eq_of_target hgood.sound hscope hscope rfl hc hconversation
    (hcId'.trans hconversationId.symm)
  show (if shown (targetKey other.key (f c).id) = true then
      (f c).dropOldMessages.textFrom order else 0) + x =
    (if shown (targetKey other.key c.id) = true then c.textFrom order else 0) + y
  rw [hid, hkey, hcId', if_pos hshown, if_pos hshown, h]

def AiConversationState.findMessage (state : AiConversationState) (target : AiConversationTarget)
    (id : JsText) : Option AiConversationMessage :=
  (state.findConversation target).bind fun conversation =>
    conversation.messages.find? (·.id = id)

/-- The conversation shows what was written. -/
def AiConversationState.Shows (state : AiConversationState) (target : AiConversationTarget)
    (written : AiConversationMessage) : Prop :=
  ∃ conversation, state.findConversation target = some conversation ∧
    ∃ message ∈ conversation.messages, message.id = written.id ∧ message.role = written.role ∧
      message.content = written.content ∧ message.toolActivity = written.toolActivity

theorem shows_iff (hgood : state.Good) {draft : MutableState} {written : AiConversationMessage}
    (hremains : (toMutable state).Remains draft) (hwrote : draft.Wrote target written)
    (hsound : draft.Sound) :
    state.Shows target written ↔ (toMutable state).HoldsMessage target written.id := by
  constructor
  · rintro ⟨conversation, hfind, message, hmessage, hid, -⟩
    obtain ⟨scope, hscope, hkey, hconversation, hconversationId⟩ :=
      (findConversation_eq_some hgood).mp hfind
    exact ⟨scope, hscope, hkey, conversation, hconversation, hconversationId,
      List.mem_map.mpr ⟨message, hmessage, hid⟩⟩
  · rintro ⟨scope, hscope, hkey, conversation, hconversation, hconversationId, hmem⟩
    obtain ⟨message, hmessage, hid⟩ := List.mem_map.mp hmem
    have hr := hwrote.remains hsound hremains hscope hkey hconversation hconversationId hmessage hid
    exact ⟨conversation, (findConversation_eq_some hgood).mpr
      ⟨scope, hscope, hkey, hconversation, hconversationId⟩, message, hmessage, hid, hr.role,
      hr.content, hr.toolActivity⟩

end Writing

/-! ### Appended messages -/

section Append

variable {state : AiConversationState} {target : AiConversationTarget}

/-- Without messages that are new enough, only titles count. -/
theorem textFrom_le_titles (hgood : state.Good) (shown : JsText → Bool) :
    textFrom shown (state.revision + 1) state.scopes ≤
      maxAiConversationScopes * (maxAiConversationsPerScope * maxAiConversationTitleBytes) := by
  have hold : ∀ scope ∈ state.scopes, ∀ conversation ∈ scope.conversations,
      conversation.textFrom (state.revision + 1) ≤ maxAiConversationTitleBytes := by
    intro scope hscope conversation hconversation
    have hsound := (hgood.sound.scopes scope hscope).conversations conversation hconversation
    have hnone : conversation.messages.filter
        (fun message => state.revision + 1 ≤ message.createdOrder) = [] := by
      refine List.filter_eq_nil_iff.mpr fun message hmessage => ?_
      rw [decide_eq_true_eq, Nat.not_le]
      exact Nat.lt_succ_of_le (hgood.sound.orders_le _ (List.mem_flatMap.mpr ⟨scope, hscope,
        List.mem_flatMap.mpr ⟨conversation, hconversation, List.mem_map_of_mem hmessage⟩⟩))
    rw [AiConversation.textFrom, hnone]
    exact hsound.title_le
  refine (List.sum_le_card_nsmul _ (maxAiConversationsPerScope * maxAiConversationTitleBytes)
    fun bytes hbytes => ?_).trans ?_
  · obtain ⟨scope, hscope, rfl⟩ := List.mem_map.mp hbytes
    refine (List.sum_le_card_nsmul _ maxAiConversationTitleBytes fun bytes hbytes => ?_).trans ?_
    · obtain ⟨conversation, hconversation, rfl⟩ := List.mem_map.mp hbytes
      split_ifs
      · exact hold scope hscope conversation hconversation
      · exact Nat.zero_le _
    · rw [List.length_map, smul_eq_mul]
      exact Nat.mul_le_mul_right _ (hgood.bounded.conversations scope hscope)
  · rw [List.length_map, smul_eq_mul]
    exact Nat.mul_le_mul_right _ hgood.bounded.scopes

theorem pushMessage_dropOldMessages (conversation : AiConversation)
    (message : AiConversationMessage) :
    ∃ kept, kept <+ conversation.messages ∧
      (pushMessage U message conversation).dropOldMessages.messages = kept ++ [message] := by
  refine ⟨conversation.messages.drop ((conversation.messages.length + 1) -
    maxAiMessagesPerConversation), List.drop_sublist _ _, ?_⟩
  have hmax : maxAiMessagesPerConversation = 63 := rfl
  rw [AiConversation.dropOldMessages, pushMessage]
  simp only [List.length_append, List.length_singleton]
  rw [List.drop_append_of_le_length (by omega)]

/-- A new message and the titles fit. -/
theorem textFrom_append_le (hgood : state.Good) {shown : JsText → Bool}
    (hshown : shown (targetKey target.scopeKey target.conversationId) = true)
    {conversation : AiConversation} (hfind : state.findConversation target = some conversation)
    {message : AiConversationMessage} (horder : message.createdOrder = state.revision + 1)
    (hbytes : message.textBytes ≤ maxAiConversationMessageBytes + maxAiToolCommandBytes) :
    textFrom shown message.createdOrder (state.trimmedWrite target (pushMessage U message)).scopes ≤
      maxAiConversationTotalTextBytes := by
  obtain ⟨kept, hkept, hmessages⟩ := pushMessage_dropOldMessages (U := U) conversation message
  have hold : ∀ m ∈ conversation.messages, m.createdOrder ≤ state.revision := fun m hm =>
    order_le_of_findConversation hgood hfind hm
  have hfilter : ∀ l : List AiConversationMessage, l <+ conversation.messages →
      l.filter (fun m => state.revision + 1 ≤ m.createdOrder) = [] := by
    intro l hl
    refine List.filter_eq_nil_iff.mpr fun m hm => ?_
    rw [decide_eq_true_eq, Nat.not_le]
    exact Nat.lt_succ_of_le (hold m (hl.subset hm))
  have htitle : byteLength (pushMessage U message conversation).title ≤ maxAiConversationTitleBytes := by
    simp only [pushMessage]
    split_ifs
    · exact byteLength_title_le U _
    · exact (sound_of_findConversation hgood hfind).title_le
  have hsum : (pushMessage U message conversation).dropOldMessages.textFrom (state.revision + 1) +
        byteLength conversation.title =
      conversation.textFrom (state.revision + 1) +
        (byteLength (pushMessage U message conversation).title + message.textBytes) := by
    have htitle' : (pushMessage U message conversation).dropOldMessages.title =
        (pushMessage U message conversation).title := rfl
    have hnew : [message].filter (fun m => state.revision + 1 ≤ m.createdOrder) = [message] := by
      simp [horder]
    rw [AiConversation.textFrom, AiConversation.textFrom, hmessages, List.filter_append,
      hfilter kept hkept, hfilter _ (List.Sublist.refl _), htitle', hnew]
    simp only [List.nil_append, List.map_cons, List.map_nil, List.sum_cons, List.sum_nil]
    omega
  have hall := textFrom_trimmedWrite hgood hshown hfind (f := pushMessage U message) (fun _ => rfl) hsum
  have htitles := textFrom_le_titles hgood shown
  have hmax : maxAiConversationScopes * (maxAiConversationsPerScope * maxAiConversationTitleBytes) +
      maxAiConversationTitleBytes + (maxAiConversationMessageBytes + maxAiToolCommandBytes) ≤
        maxAiConversationTotalTextBytes := by decide
  rw [horder]
  omega

/-- The message of a call that appends it. -/
def AiConversationMessageInput.appended (input : AiConversationMessageInput) (order : ℕ) :
    AiConversationMessage where
  id := input.id
  role := input.role
  content := takeUtf8Prefix input.content maxAiConversationMessageBytes
  attachments := []
  toolActivity := input.toolActivity
  createdOrder := order

theorem Meets.of_ok {α : Type} {P : α → Prop} {x : Except AiConversationError α} (hx : Meets x P)
    {value : α} (h : x = .ok value) : P value := by
  rw [h] at hx
  exact hx

theorem normalizeToolActivity_ok {activity normalized : AiConversationToolActivity}
    (h : normalizeToolActivity U activity = .ok normalized) :
    normalized = activity ∧ byteLength activity.command ≤ maxAiToolCommandBytes := by
  refine ⟨(normalizeToolActivity_meets activity).of_ok h, ?_⟩
  obtain ⟨_, -, h⟩ := bind_ok_iff.mp h
  obtain ⟨_, hchecked, -⟩ := bind_ok_iff.mp h
  have hfalse := (Meets.throwWhen (by decide)).of_ok hchecked
  simp only [Bool.or_eq_false_iff, decide_eq_false_iff_not, Nat.not_lt] at hfalse
  exact hfalse.1.1.1.2

theorem mapM_normalizeToolActivity_ok {activity normalized : Option AiConversationToolActivity}
    (h : activity.mapM (normalizeToolActivity U) = .ok normalized) :
    normalized = activity ∧
      byteLength ((activity.map (·.command)).getD []) ≤ maxAiToolCommandBytes := by
  cases activity with
  | none =>
      cases h
      exact ⟨rfl, Nat.zero_le _⟩
  | some activity =>
      have hmap : some <$> normalizeToolActivity U activity = .ok normalized := h
      cases hnormalized : normalizeToolActivity U activity with
      | error error =>
          rw [hnormalized] at hmap
          nomatch hmap
      | ok normalized' =>
          obtain ⟨rfl, hle⟩ := normalizeToolActivity_ok hnormalized
          rw [hnormalized] at hmap
          cases hmap
          exact ⟨rfl, hle⟩

/-- **An appended message is kept.** -/
theorem append_shown (hgood : state.Good) {input : AiConversationMessageInput}
    {after : AiConversationState} (h : appendAiConversationMessage U state target input = .ok after)
    (hchanged : after ≠ state) : after.Shows target (input.appended (state.revision + 1)) := by
  obtain ⟨_, htarget, h⟩ := bind_ok_iff.mp h
  have hclean := (assertTarget_meets target).of_ok htarget
  cases hfind : state.findConversation target with
  | none =>
      rw [hfind] at h
      cases h
      exact absurd rfl hchanged
  | some conversation =>
      rw [hfind] at h
      dsimp only at h
      by_cases hknown : conversation.messages.any (·.id = input.id) = true
      · rw [if_pos hknown] at h
        cases h
        exact absurd rfl hchanged
      rw [if_neg hknown] at h
      obtain ⟨_, -, h⟩ := bind_ok_iff.mp h
      obtain ⟨_, -, h⟩ := bind_ok_iff.mp h
      obtain ⟨_, -, h⟩ := bind_ok_iff.mp h
      obtain ⟨_, -, h⟩ := bind_ok_iff.mp h
      obtain ⟨_, hactivity, h⟩ := bind_ok_iff.mp h
      obtain ⟨rfl, hcommand⟩ := mapM_normalizeToolActivity_ok hactivity
      obtain ⟨attachments, -, h⟩ := bind_ok_iff.mp h
      let message : AiConversationMessage :=
        { input.appended (state.revision + 1) with attachments }
      have hnew : message.id ∉ conversation.messages.map (·.id) := by
        intro hmem
        obtain ⟨m, hm, hid⟩ := List.mem_map.mp hmem
        exact hknown (List.any_eq_true.mpr ⟨m, hm, decide_eq_true hid⟩)
      have hwritten : message ∈ (pushMessage U message conversation).dropOldMessages.messages := by
        obtain ⟨kept, -, hmessages⟩ := pushMessage_dropOldMessages (U := U) conversation message
        rw [hmessages]
        exact List.mem_append_right _ (List.mem_singleton_self _)
      obtain ⟨after', hfinish, hgood', hremains, hwrote, hsound, hiff⟩ :=
        finish_write_iff hgood hclean hfind (f := pushMessage U message) (fun _ => rfl)
          (sound_pushMessage (sound_of_findConversation hgood hfind) hnew fun m hm =>
            Nat.lt_succ_of_le (order_le_of_findConversation hgood hfind hm))
          (orders_pushMessage rfl) hwritten
      obtain rfl : after' = after := Except.ok.inj (hfinish.symm.trans h)
      have hshows : after'.Shows target message :=
        (shows_iff hgood' hremains hwrote hsound).mpr (hiff.mpr (textFrom_append_le hgood
          (by simp [MutableState.isShown]) hfind rfl
          (Nat.add_le_add (byteLength_takeUtf8Prefix_le _ _) hcommand)))
      exact hshows

end Append

/-! ### Updated messages -/

section Update

variable {state : AiConversationState} {target : AiConversationTarget}

/-- The message of a call that updates it. -/
def AiConversationMessageUpdate.updated (input : AiConversationMessageUpdate)
    (message : AiConversationMessage) : AiConversationMessage :=
  message.rewritten (input.role.getD message.role)
    (takeUtf8Prefix (input.content.getD message.content) maxAiConversationMessageBytes)
    (input.toolActivity.or message.toolActivity)

/-- The shown text that is newer than the message, with the message as it is written, fits. -/
def FitsText (state : AiConversationState) (target : AiConversationTarget)
    (message written : AiConversationMessage) : Prop :=
  textFrom ((toMutable state).isShown target) message.createdOrder state.scopes + written.textBytes ≤
    maxAiConversationTotalTextBytes + message.textBytes

theorem findMessage_eq_some (hgood : state.Good) {id : JsText} {message : AiConversationMessage}
    (h : state.findMessage target id = some message) :
    ∃ conversation, state.findConversation target = some conversation ∧
      message ∈ conversation.messages ∧ message.id = id ∧
      ∀ m ∈ conversation.messages, m.id = id → m = message := by
  obtain ⟨conversation, hfind, hmessage⟩ := Option.bind_eq_some_iff.mp h
  have hmem := List.mem_of_find?_eq_some hmessage
  have hid : message.id = id := by simpa using List.find?_some hmessage
  exact ⟨conversation, hfind, hmem, hid, fun m hm hmid => List.inj_on_of_nodup_map
    (sound_of_findConversation hgood hfind).ids_nodup hm hmem (hmid.trans hid.symm)⟩

/-- The messages of an update, and the text that is shown of them. -/
theorem modifyMessage_textFrom {conversation : AiConversation} {message written : AiConversationMessage}
    (hmem : message ∈ conversation.messages)
    (hunique : ∀ m ∈ conversation.messages, m.id = message.id → m = message)
    {f : AiConversationMessage → AiConversationMessage} (hf : f message = written)
    (horder : written.createdOrder = message.createdOrder) :
    written ∈ (conversation.modifyMessage message.id f).messages ∧
      (conversation.modifyMessage message.id f).textFrom message.createdOrder + message.textBytes =
        conversation.textFrom message.createdOrder + written.textBytes := by
  have hsum : ∀ messages : List AiConversationMessage, message ∈ messages →
      (∀ m ∈ messages, m.id = message.id → m = message) →
      written ∈ modifyFirst (·.id = message.id) f messages ∧
      (((modifyFirst (·.id = message.id) f messages).filter fun m =>
          message.createdOrder ≤ m.createdOrder).map AiConversationMessage.textBytes).sum +
          message.textBytes =
        ((messages.filter fun m => message.createdOrder ≤ m.createdOrder).map
          AiConversationMessage.textBytes).sum + written.textBytes := by
    intro messages
    induction messages with
    | nil => exact fun h => nomatch h
    | cons m rest ih =>
        intro hmem hunique
        rw [modifyFirst]
        by_cases hid : m.id = message.id
        · obtain rfl := hunique m List.mem_cons_self hid
          rw [if_pos (decide_eq_true rfl), hf]
          refine ⟨List.mem_cons_self, ?_⟩
          simp only [List.filter_cons, horder, Nat.le_refl, decide_true, if_true, List.map_cons,
            List.sum_cons]
          omega
        · have hrest : message ∈ rest := by
            rcases List.mem_cons.mp hmem with rfl | hrest
            · exact absurd rfl hid
            · exact hrest
          obtain ⟨hwritten, htext⟩ := ih hrest fun b hb => hunique b (List.mem_cons_of_mem _ hb)
          rw [if_neg (by simpa using hid)]
          refine ⟨List.mem_cons_of_mem _ hwritten, ?_⟩
          simp only [List.filter_cons]
          split_ifs
          · simp only [List.map_cons, List.sum_cons]
            omega
          · exact htext
  obtain ⟨hwritten, htext⟩ := hsum conversation.messages hmem hunique
  have htitle : (conversation.modifyMessage message.id f).title = conversation.title := rfl
  have hmessages : (conversation.modifyMessage message.id f).messages =
      modifyFirst (·.id = message.id) f conversation.messages := rfl
  refine ⟨hwritten, ?_⟩
  rw [AiConversation.textFrom, AiConversation.textFrom, htitle, hmessages]
  omega

/-- **What an update leaves of its message.** -/
theorem finish_update_iff (hgood : state.Good) (hclean : 0 ∉ target.scopeKey) {messageId : JsText}
    {message : AiConversationMessage} (hmessage : state.findMessage target messageId = some message)
    (role : AiConversationMessageRole) (content : JsText)
    (toolActivity : Option AiConversationToolActivity) :
    ∃ after, finish (state.draft.write target (state.revision + 1)
        (·.modifyMessage messageId (·.rewritten role content toolActivity)))
        [targetKey target.scopeKey target.conversationId] = .ok after ∧
      after.revision = state.revision + 1 ∧
      (after.Shows target (message.rewritten role content toolActivity) ↔
        FitsText state target message (message.rewritten role content toolActivity)) := by
  obtain ⟨conversation, hfind, hmem, rfl, hunique⟩ := findMessage_eq_some hgood hmessage
  obtain ⟨hsound, horders⟩ := sound_modifyMessage (sound_of_findConversation hgood hfind)
    message.id (f := (·.rewritten role content toolActivity)) (fun _ => rfl) fun _ => rfl
  obtain ⟨hwritten, htext⟩ := modifyMessage_textFrom hmem hunique
    (f := (·.rewritten role content toolActivity)) rfl rfl
  have hwithin : (conversation.modifyMessage message.id
      (·.rewritten role content toolActivity)).dropOldMessages =
        conversation.modifyMessage message.id (·.rewritten role content toolActivity) := by
    refine dropOldMessages_of_within (length_modifyFirst.le.trans ?_)
    obtain ⟨scope, hscope, -, hconversation, -⟩ := (findConversation_eq_some hgood).mp hfind
    exact hgood.bounded.messages scope hscope conversation hconversation
  have hwritten' : message.rewritten role content toolActivity ∈
      (conversation.modifyMessage message.id
        (·.rewritten role content toolActivity)).dropOldMessages.messages := by
    rwa [hwithin]
  obtain ⟨after, hfinish, hgood', hremains, hwrote, hsound', hiff⟩ :=
    finish_write_iff hgood hclean hfind
      (f := (·.modifyMessage message.id (·.rewritten role content toolActivity))) (fun _ => rfl) hsound
      (by
        rw [horders]
        exact (List.sublist_append_right _ _).subperm) hwritten'
  refine ⟨after, hfinish, hremains.revision, (shows_iff hgood' hremains hwrote hsound').trans (hiff.trans ?_)⟩
  have hshown : (toMutable state).isShown target
      (targetKey target.scopeKey target.conversationId) = true := by simp [MutableState.isShown]
  have hall := textFrom_trimmedWrite hgood hshown hfind
    (f := (·.modifyMessage message.id (·.rewritten role content toolActivity))) (fun _ => rfl)
    (hwithin.symm ▸ htext)
  rw [FitsText]
  show textFrom _ message.createdOrder _ ≤ _ ↔ _
  omega

theorem update_shown_iff (hgood : state.Good) {messageId : JsText}
    {input : AiConversationMessageUpdate} {after : AiConversationState}
    (h : updateAiConversationMessage U state target messageId input = .ok after)
    (hchanged : after ≠ state) {message : AiConversationMessage}
    (hmessage : state.findMessage target messageId = some message) :
    after.Shows target (input.updated message) ↔
      FitsText state target message (input.updated message) := by
  obtain ⟨_, htarget, h⟩ := bind_ok_iff.mp h
  have hclean := (assertTarget_meets target).of_ok htarget
  obtain ⟨_, -, h⟩ := bind_ok_iff.mp h
  rw [AiConversationState.findMessage] at hmessage
  rw [hmessage] at h
  obtain ⟨_, hactivity, h⟩ := bind_ok_iff.mp h
  obtain rfl := (updatedToolActivity_meets message input.toolActivity).of_ok hactivity
  obtain ⟨_, -, h⟩ := bind_ok_iff.mp h
  split_ifs at h
  · cases h
    exact absurd rfl hchanged
  · obtain ⟨after', hfinish, -, hiff⟩ := finish_update_iff hgood hclean hmessage
      (input.role.getD message.role)
      (takeUtf8Prefix (input.content.getD message.content) maxAiConversationMessageBytes)
      (input.toolActivity.or message.toolActivity)
    obtain rfl : after' = after := Except.ok.inj (hfinish.symm.trans h)
    exact hiff

end Update

/-! ### Every write -/

namespace AiConversationCall

/-- The message that a call writes. -/
def writes (state : AiConversationState) :
    AiConversationCall → Option (AiConversationTarget × AiConversationMessage)
  | append target input => some (target, input.appended (state.revision + 1))
  | update target messageId input =>
      (state.findMessage target messageId).map fun message => (target, input.updated message)
  | _ => none

/-- An update leaves the text from its message on within the budget. -/
def Fits (state : AiConversationState) : AiConversationCall → Prop
  | update target messageId input => ∀ message, state.findMessage target messageId = some message →
      FitsText state target message (input.updated message)
  | _ => True

end AiConversationCall

/-- **A written message is shown if and only if the newer text fits.** -/
theorem written_shown_iff {state after : AiConversationState} (h : Reachable U state)
    {call : AiConversationCall} (happly : call.apply U state = .ok after) (hchanged : after ≠ state)
    {target : AiConversationTarget} {written : AiConversationMessage}
    (hwrites : call.writes state = some (target, written)) :
    after.Shows target written ↔ call.Fits state := by
  have hgood := good_of_reachable h
  cases call with
  | append appended input =>
      obtain ⟨rfl, rfl⟩ := Prod.mk.inj (Option.some.inj hwrites)
      exact ⟨fun _ => trivial, fun _ => append_shown hgood happly hchanged⟩
  | update updated messageId input =>
      obtain ⟨message, hmessage, heq⟩ := Option.map_eq_some_iff.mp hwrites
      obtain ⟨rfl, rfl⟩ := Prod.mk.inj heq
      refine (update_shown_iff hgood happly hchanged hmessage).trans ⟨fun hfits m hm => ?_,
        fun hfits => hfits message hmessage⟩
      obtain rfl := Option.some.inj (hmessage.symm.trans hm)
      exact hfits
  | activate => nomatch hwrites
  | create => nomatch hwrites
  | switch => nomatch hwrites
  | delete => nomatch hwrites
  | deleteMessage => nomatch hwrites

/-! ### A lost update

An answer whose placeholder is older than three long messages: its first word takes it away. -/

section Lost

def labTarget : AiConversationTarget := ⟨[0x73], [0x63]⟩

def labMessage (id : CodePoint) (length order : ℕ) : AiConversationMessage where
  id := [id]
  role := .assistant
  content := List.replicate length 0x61
  attachments := []
  toolActivity := none
  createdOrder := order

def labInput (id : CodePoint) (length : ℕ) : AiConversationMessageInput where
  id := [id]
  role := .assistant
  content := List.replicate length 0x61
  attachments := []
  toolActivity := none

/-- One conversation, which is the visible one. -/
def labDraft (messages : List AiConversationMessage) (revision : ℕ) : MutableState where
  activeScopeKey := [0x73]
  scopes := [⟨[0x73], [0x63], [⟨[0x63], [], false, messages, 1, revision⟩], 1, revision⟩]
  revision

def labState (messages : List AiConversationMessage) (revision : ℕ) : AiConversationState :=
  freezeState (labDraft messages revision)

theorem byteLength_replicate (n : ℕ) : byteLength (List.replicate n 0x61) = n := by
  rw [byteLength, List.map_replicate, List.sum_replicate, smul_eq_mul]
  exact Nat.mul_one n

/-- A draft within the bounds is left alone. -/
theorem finish_of_bounded {draft : MutableState} (h : draft.Bounded)
    (protectedTargets : ProtectedTargets) :
    finish draft protectedTargets = .ok (freezeState draft) := by
  have hscopes : draft.scopes.mapM (boundScope protectedTargets) = .ok draft.scopes :=
    mapM_boundScope_of_within fun scope hscope => ⟨h.conversations scope hscope, h.messages scope hscope⟩
  have htext : isOverText draft = false := decide_eq_false (Nat.not_lt.mpr h.text)
  have himages : isOverImages draft = false := by
    rw [isOverImages, Bool.or_eq_false_iff]
    exact ⟨decide_eq_false (Nat.not_lt.mpr h.images), decide_eq_false (Nat.not_lt.mpr h.imageBytes)⟩
  have hhistories : drain isOverText (evictHistory protectedTargets) (conversationCount draft) draft =
      draft := drain_of_within htext
  have htrimmed : drain isOverText dropOldestMessage (messageCount draft) draft = draft :=
    drain_of_within htext
  have hrounds := enforceBounds_of_rounds hscopes (decide_eq_false (Nat.not_lt.mpr h.scopes))
  simp only [hhistories, htrimmed] at hrounds
  rw [finish, hrounds htext, drain_of_within himages]
  rfl

theorem textBytes_labState (messages : List AiConversationMessage) (revision : ℕ) :
    textBytes (labState messages revision).scopes =
      (messages.map AiConversationMessage.textBytes).sum := by
  simp [textBytes, labState, freezeState, labDraft, AiConversation.textBytes, byteLength]

/-- Messages without attachments. -/
theorem finish_labDraft {messages : List AiConversationMessage} {revision : ℕ}
    (hlength : messages.length ≤ maxAiMessagesPerConversation)
    (htext : (messages.map AiConversationMessage.textBytes).sum ≤ maxAiConversationTotalTextBytes)
    (hplain : ∀ message ∈ messages, message.attachments = []) (protectedTargets : ProtectedTargets) :
    finish (labDraft messages revision) protectedTargets = .ok (labState messages revision) := by
  have himages : retainedImageContent (labDraft messages revision).scopes = [] := by
    simp only [retainedImageContent, labDraft, List.flatMap_cons, List.flatMap_nil, List.append_nil]
    refine List.flatMap_eq_nil_iff.mpr fun message hmessage => ?_
    rw [AiConversationMessage.retainedImages, hplain message hmessage]
    rfl
  refine finish_of_bounded ⟨?_, fun scope hscope => ?_,
    fun scope hscope conversation hconversation => ?_, ?_, ?_, ?_⟩ _
  · exact Nat.succ_le_succ (Nat.zero_le 11)
  · obtain rfl := List.mem_singleton.mp hscope
    exact Nat.succ_le_succ (Nat.zero_le 7)
  · obtain rfl := List.mem_singleton.mp hscope
    obtain rfl := List.mem_singleton.mp hconversation
    exact hlength
  · exact (textBytes_labState messages revision).le.trans htext
  · rw [himages]
    exact Nat.zero_le _
  · rw [imageBytes, himages]
    exact Nat.zero_le _

theorem create_lab : (AiConversationCall.create (some [0x73]) (some [0x63]) []).apply plainTables
    createAiConversationState = .ok (labState [] 1) :=
  (bind_ok_iff.mpr ⟨[0x73], rfl, bind_ok_iff.mpr ⟨[0x63], rfl, bind_ok_iff.mpr ⟨(), rfl,
    bind_ok_iff.mpr ⟨⟨[0x63], [], false, [], 1, 1⟩, rfl, finish_labDraft (Nat.zero_le _)
      (Nat.zero_le _) (List.forall_mem_nil _) _⟩⟩⟩⟩)

theorem append_lab {messages : List AiConversationMessage} {revision : ℕ} {id : CodePoint}
    {length : ℕ} (hid : assertOpaqueId plainTables [id] = .ok [id])
    (hnew : messages.any (fun message => message.id = [id]) = false)
    (hlong : length ≤ maxAiConversationMessageBytes)
    (hlength : messages.length < maxAiMessagesPerConversation)
    (htext : (messages.map AiConversationMessage.textBytes).sum + length ≤
      maxAiConversationTotalTextBytes)
    (hplain : ∀ message ∈ messages, message.attachments = []) :
    (AiConversationCall.append labTarget (labInput id length)).apply plainTables
        (labState messages revision) =
      .ok (labState (messages ++ [labMessage id length (revision + 1)]) (revision + 1)) := by
  refine bind_ok_iff.mpr ⟨(), rfl, ?_⟩
  show (if messages.any (fun message => message.id = [id]) = true then _ else _) = _
  rw [hnew, if_neg Bool.false_ne_true]
  refine bind_ok_iff.mpr ⟨[id], hid, bind_ok_iff.mpr ⟨(), rfl, bind_ok_iff.mpr ⟨(), rfl,
    bind_ok_iff.mpr ⟨(), rfl, bind_ok_iff.mpr ⟨none, rfl, bind_ok_iff.mpr ⟨[], rfl, ?_⟩⟩⟩⟩⟩⟩
  have hcontent : takeUtf8Prefix (List.replicate length 0x61) maxAiConversationMessageBytes =
      List.replicate length 0x61 := by
    rw [takeUtf8Prefix, byteLength_replicate, if_pos hlong]
  have htext' : (labMessage id length (revision + 1)).textBytes = length := by
    rw [AiConversationMessage.textBytes]
    exact byteLength_replicate length
  have hplain' : ∀ message ∈ messages ++ [labMessage id length (revision + 1)],
      message.attachments = [] := by
    intro message hmessage
    rcases List.mem_append.mp hmessage with hmem | hmem
    · exact hplain message hmem
    · rw [List.mem_singleton.mp hmem]
      rfl
  have hlength' : (messages ++ [labMessage id length (revision + 1)]).length ≤
      maxAiMessagesPerConversation := by
    rw [List.length_append]
    exact hlength
  have hfinish : finish (labDraft (messages ++ [labMessage id length (revision + 1)]) (revision + 1))
      [targetKey [0x73] [0x63]] = _ :=
    finish_labDraft hlength' (by simpa [htext'] using htext) hplain' _
  dsimp only [labInput]
  rw [hcontent]
  exact hfinish

theorem textBytes_labMessage (id : CodePoint) (length order : ℕ) :
    (labMessage id length order).textBytes = length :=
  byteLength_replicate length

theorem attachments_labMessage (id : CodePoint) (length order : ℕ) :
    (labMessage id length order).attachments = [] := rfl

/-- The placeholder, and three long messages after it. -/
def longMessages : List AiConversationMessage :=
  [labMessage 0x70 0 2, labMessage 0x71 131072 3, labMessage 0x72 131072 4, labMessage 0x74 131072 5]

theorem reachable_created : Reachable plainTables (labState [] 1) :=
  .call .start (show (AiConversationCall.create (some [0x73]) (some [0x63]) []).FewProtected
    from trivial) create_lab

theorem append_placeholder : (AiConversationCall.append labTarget (labInput 0x70 0)).apply plainTables
    (labState [] 1) = .ok (labState [labMessage 0x70 0 2] 2) :=
  append_lab rfl rfl (Nat.zero_le _) (Nat.succ_le_succ (Nat.zero_le _)) (Nat.zero_le _)
    (List.forall_mem_nil _)

theorem Reachable.append_long {messages : List AiConversationMessage} {revision : ℕ}
    (h : Reachable plainTables (labState messages revision)) (id : CodePoint)
    (hid : assertOpaqueId plainTables [id] = .ok [id])
    (hnew : messages.any (fun message => message.id = [id]) = false) (hlength : messages.length ≤ 3)
    (htext : (messages.map AiConversationMessage.textBytes).sum ≤ 2 * 131072)
    (hplain : ∀ message ∈ messages, message.attachments = []) :
    Reachable plainTables
      (labState (messages ++ [labMessage id 131072 (revision + 1)]) (revision + 1)) := by
  have hbudget : 2 * 131072 + 131072 = maxAiConversationTotalTextBytes := rfl
  have hmax : maxAiMessagesPerConversation = 63 := rfl
  exact .call h (show (AiConversationCall.append labTarget (labInput id 131072)).FewProtected
    from trivial) (append_lab hid hnew (Nat.le_refl _) (by omega) (by omega) hplain)

theorem reachable_longMessages : Reachable plainTables (labState longMessages 5) := by
  have hplaceholder : Reachable plainTables (labState [labMessage 0x70 0 2] 2) :=
    .call reachable_created (show (AiConversationCall.append labTarget (labInput 0x70 0)).FewProtected
      from trivial) append_placeholder
  have hfirst := hplaceholder.append_long 0x71 rfl rfl (by simp)
    (by simp [textBytes_labMessage]) (by simp [attachments_labMessage])
  have hsecond := hfirst.append_long 0x72 rfl rfl (by simp)
    (by simp [textBytes_labMessage]) (by simp [attachments_labMessage])
  exact hsecond.append_long 0x74 rfl rfl (by simp) (by simp [textBytes_labMessage])
    (by simp [attachments_labMessage])

theorem written_shown_iff_lab :
    (labState [labMessage 0x70 0 2] 2).Shows labTarget (labMessage 0x70 0 2) :=
  (written_shown_iff reachable_created append_placeholder (by simp [labState, labDraft, freezeState])
    rfl).mpr trivial

/-- The first word of the answer. -/
def firstWord : AiConversationMessageUpdate := ⟨none, some [0x61], none⟩

/-- The text of the three messages is the whole budget. -/
theorem not_fitsText_longMessages : ¬ FitsText (labState longMessages 5) labTarget
    (labMessage 0x70 0 2) (firstWord.updated (labMessage 0x70 0 2)) := by
  have hshown : (toMutable (labState longMessages 5)).isShown labTarget (targetKey [0x73] [0x63]) =
      true := by simp [MutableState.isShown, labTarget]
  have hnewer : ∀ message ∈ longMessages, 2 ≤ message.createdOrder := by
    refine List.forall_mem_cons.mpr ⟨Nat.le_refl 2, List.forall_mem_cons.mpr ⟨Nat.le_succ 2,
      List.forall_mem_cons.mpr ⟨Nat.le_add_left 2 2, List.forall_mem_cons.mpr
        ⟨Nat.le_add_left 2 3, List.forall_mem_nil _⟩⟩⟩⟩
  have htext : textFrom ((toMutable (labState longMessages 5)).isShown labTarget) 2
      (labState longMessages 5).scopes = textBytes (labState longMessages 5).scopes := by
    refine textFrom_eq_textBytes fun scope hscope conversation hconversation => ?_
    obtain rfl := List.mem_singleton.mp hscope
    obtain rfl := List.mem_singleton.mp hconversation
    exact ⟨hshown, hnewer⟩
  have hbytes := textBytes_labState longMessages 5
  have hword : (firstWord.updated (labMessage 0x70 0 2)).textBytes = 1 := rfl
  have hlong : (longMessages.map AiConversationMessage.textBytes).sum = 3 * 131072 := by
    simp [longMessages, textBytes_labMessage]
  have hbudget : maxAiConversationTotalTextBytes = 3 * 131072 := rfl
  have horder : (labMessage 0x70 0 2).createdOrder = 2 := rfl
  rw [FitsText, horder, htext, hbytes, hword, hlong, hbudget, textBytes_labMessage]
  omega

theorem update_lost : ∃ after, Reachable plainTables (labState longMessages 5) ∧
    (AiConversationCall.update labTarget [0x70] firstWord).apply plainTables
      (labState longMessages 5) = .ok after ∧ after ≠ labState longMessages 5 ∧
    ¬ after.Shows labTarget (firstWord.updated (labMessage 0x70 0 2)) := by
  have hmessage : (labState longMessages 5).findMessage labTarget [0x70] =
      some (labMessage 0x70 0 2) := rfl
  obtain ⟨after, hfinish, hrevision, hiff⟩ := finish_update_iff (good_of_reachable reachable_longMessages)
    (by decide) hmessage .assistant [0x61] none
  have happly : (AiConversationCall.update labTarget [0x70] firstWord).apply plainTables
      (labState longMessages 5) = .ok after := by
    refine bind_ok_iff.mpr ⟨(), rfl, bind_ok_iff.mpr ⟨[0x70], rfl, bind_ok_iff.mpr ⟨none, rfl,
      bind_ok_iff.mpr ⟨(), rfl, ?_⟩⟩⟩⟩
    exact hfinish
  refine ⟨after, reachable_longMessages, happly, ?_, fun hshows => ?_⟩
  · rintro rfl
    exact absurd hrevision (Nat.ne_of_lt (Nat.lt_succ_self 5))
  · exact not_fitsText_longMessages (hiff.mp hshows)

end Lost

end Netcatty.Ai
