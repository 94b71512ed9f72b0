import Mathlib.Data.List.Dedup
import Mathlib.Data.List.Flatten
import Netcatty.Ai.ConversationBounds

/-! # Runs of conversation calls

Every call on a `Good` state succeeds within the bounds or is refused for its arguments, keeps the
conversation that it writes and the visible one, and leaves of every other conversation what the
bounds leave (`conversations_bounded`). -/

namespace Netcatty.Ai

open Eviction
open scoped List

variable {U : UnicodeTables}

/-! ### Outcomes -/

/-- A result that holds, or a refusal of the arguments. -/
def Meets {α : Type} (outcome : Except AiConversationError α) (P : α → Prop) : Prop :=
  match outcome with
  | .ok value => P value
  | .error error => error ≠ .boundInvariant

namespace Meets

variable {α β : Type} {P Q : α → Prop} {x : Except AiConversationError α}

theorem pure {value : α} (h : P value) : Meets (Pure.pure value) P := h

theorem throw {error : AiConversationError} (h : error ≠ .boundInvariant) :
    Meets (.error error : Except AiConversationError α) P := h

theorem bind {R : β → Prop} {f : α → Except AiConversationError β} (hx : Meets x P)
    (hf : ∀ value, x = .ok value → P value → Meets (f value) R) : Meets (x >>= f) R := by
  cases x with
  | error error => exact hx
  | ok value => exact hf value rfl hx

theorem throwWhen {refused : Bool} {error : AiConversationError} (h : error ≠ .boundInvariant) :
    Meets (throwWhen refused error) fun _ => refused = false := by
  cases refused with
  | true => exact h
  | false => rfl

theorem weaken (hx : Meets x P) (h : ∀ value, P value → Q value) : Meets x Q := by
  cases x with
  | error error => exact hx
  | ok value => exact h value hx

theorem mapM {γ : Type} {R : β → γ → Prop} {f : β → Except AiConversationError γ} {l : List β}
    (h : ∀ b ∈ l, Meets (f b) (R b)) : Meets (l.mapM f) (List.Forall₂ R l) := by
  induction l with
  | nil => exact .nil
  | cons b rest ih =>
      rw [List.mapM_cons]
      refine bind (h b List.mem_cons_self) fun c _ hc => ?_
      refine bind (ih fun d hd => h d (List.mem_cons_of_mem _ hd)) fun cs _ hcs => ?_
      exact .cons hc hcs

end Meets

/-! ### Arguments -/

theorem assertBoundedOpaqueText_meets {value : JsText} {error : AiConversationError} {maxBytes : ℕ}
    (h : error ≠ .boundInvariant) :
    Meets (assertBoundedOpaqueText U value error maxBytes) fun v => v = value ∧ 0 ∉ value := by
  rw [assertBoundedOpaqueText]
  split_ifs with hbad
  · exact h
  · refine ⟨rfl, fun hmem => hbad ?_⟩
    simp only [Bool.or_eq_true, List.any_eq_true]
    exact .inr ⟨0, hmem, .inl (.inl rfl)⟩

theorem assertScopeKey_meets (scopeKey : JsText) :
    Meets (assertScopeKey U scopeKey) fun v => v = scopeKey ∧ 0 ∉ scopeKey :=
  assertBoundedOpaqueText_meets (by decide)

theorem assertOpaqueId_meets (id : JsText) : Meets (assertOpaqueId U id) fun v => v = id :=
  (assertBoundedOpaqueText_meets (by decide)).weaken fun _ h => h.1

theorem assertTarget_meets (target : AiConversationTarget) :
    Meets (assertTarget U target) fun _ => 0 ∉ target.scopeKey := by
  refine Meets.bind (assertScopeKey_meets target.scopeKey) fun _ _ hkey => ?_
  exact Meets.bind (assertOpaqueId_meets target.conversationId) fun _ _ _ => hkey.2

theorem aiConversationScopeKey_meets (scope : Option AiConversationTerminalScope) :
    Meets (aiConversationScopeKey U scope) fun key => 0 ∉ key := by
  cases scope with
  | none =>
      have h : aiNoTerminalScopeKey.all (· ≠ 0) = true := by decide
      exact fun hmem => by simpa using List.all_eq_true.mp h 0 hmem
  | some scope =>
      refine Meets.bind (assertBoundedOpaqueText_meets (by decide)) fun _ _ _ => ?_
      cases scope.generation with
      | none => exact Meets.throw (by decide)
      | some generation =>
          refine Meets.bind (Meets.throwWhen (by decide)) fun _ _ _ => ?_
          refine (assertScopeKey_meets _).weaken ?_
          rintro _ ⟨rfl, hclean⟩
          exact hclean

/-- The targets that an activation protects. -/
theorem protectedTargetKeys_meets (targets : List AiConversationTarget) :
    Meets (protectedTargetKeys U targets) fun keys =>
      keys = targets.map (fun target => targetKey target.scopeKey target.conversationId) ∧
        ∀ target ∈ targets, 0 ∉ target.scopeKey := by
  refine (Meets.mapM (R := fun target key =>
    key = targetKey target.scopeKey target.conversationId ∧ 0 ∉ target.scopeKey)
      fun target _ => ?_).weaken ?_
  · refine Meets.bind (assertScopeKey_meets target.scopeKey) fun scopeKey _ hkey => ?_
    refine Meets.bind (assertOpaqueId_meets target.conversationId) fun conversationId _ hid => ?_
    exact Meets.pure ⟨by rw [hkey.1, hid], hkey.2⟩
  · intro keys hkeys
    induction hkeys with
    | nil => exact ⟨rfl, fun _ h => nomatch h⟩
    | cons hhead _ ih =>
        refine ⟨by rw [List.map_cons, hhead.1, ih.1], fun target htarget => ?_⟩
        rcases List.mem_cons.mp htarget with rfl | hrest
        · exact hhead.2
        · exact ih.2 target hrest

theorem fewKeys_of_targets {targets : List AiConversationTarget}
    (hfew : (targets.map AiConversationTarget.scopeKey).dedup.length ≤ maxAiConversationScopes - 1)
    (hclean : ∀ target ∈ targets, 0 ∉ target.scopeKey) :
    FewKeys (targets.map fun target => targetKey target.scopeKey target.conversationId) := by
  refine ⟨_, hfew, fun key hkey => ?_, fun key hkey => ?_⟩
  · obtain ⟨target, htarget, rfl⟩ := List.mem_map.mp (List.mem_dedup.mp hkey)
    exact hclean target htarget
  · obtain ⟨target, htarget, rfl⟩ := List.mem_map.mp hkey
    exact ⟨target, List.mem_dedup.mpr (List.mem_map_of_mem htarget), rfl⟩

theorem fewKeys_nil : FewKeys [] :=
  ⟨[], Nat.zero_le _, fun _ h => (nomatch h), fun _ h => (nomatch h)⟩

theorem fewKeys_singleton {key id : JsText} (h : 0 ∉ key) : FewKeys [targetKey key id] := by
  refine ⟨[key], Nat.succ_le_succ (Nat.zero_le 10), fun k hk => ?_, fun k hk => ?_⟩
  · rwa [List.mem_singleton.mp hk]
  · exact ⟨⟨key, id⟩, List.mem_singleton_self _, List.mem_singleton.mp hk⟩

/-! ### Good states -/

/-- The bounds and the shape of a state. -/
structure AiConversationState.Good (state : AiConversationState) : Prop where
  sound : (toMutable state).Sound
  bounded : (toMutable state).Bounded
  totalTextBytes : state.totalTextBytes = textBytes state.scopes
  visible : state.scopes = [] ∨ ∃ scope ∈ state.scopes, scope.key = state.activeScopeKey

abbrev AiConversationState.Holds (state : AiConversationState) (target : AiConversationTarget) :
    Prop :=
  (toMutable state).Holds target

abbrev AiConversationState.IsVisible (state : AiConversationState)
    (target : AiConversationTarget) : Prop :=
  (toMutable state).IsActive target

/-- Conversations of the state, apart from the target, are as before up to what the bounds take from
them, or new. -/
def LeavesOthers (target : Option AiConversationTarget) (before after : AiConversationState) :
    Prop :=
  ∀ scope ∈ after.scopes, ∀ conversation ∈ scope.conversations,
    target ≠ some ⟨scope.key, conversation.id⟩ →
      match before.findConversation ⟨scope.key, conversation.id⟩ with
      | none => conversation.messages = []
      | some previous => conversation.Remains previous

theorem good_createAiConversationState : createAiConversationState.Good where
  sound := ⟨.nil, fun _ h => (nomatch h), .nil, fun _ h => (nomatch h)⟩
  bounded := ⟨Nat.zero_le _, fun _ h => (nomatch h), fun _ h => (nomatch h), Nat.zero_le _,
    Nat.zero_le _, Nat.zero_le _⟩
  totalTextBytes := rfl
  visible := .inl rfl

section Finding

variable {state : AiConversationState} {target : AiConversationTarget}

theorem findScope_eq_some (hgood : state.Good) {scope : AiConversationScopeState} {key : JsText} :
    state.findScope key = some scope ↔ scope ∈ state.scopes ∧ scope.key = key := by
  constructor
  · intro h
    exact ⟨List.mem_of_find?_eq_some h, by simpa using List.find?_some h⟩
  · rintro ⟨hmem, rfl⟩
    cases hfind : state.findScope scope.key with
    | none =>
        have := List.find?_eq_none.mp hfind scope hmem
        simp at this
    | some other =>
        have hother : other.key = scope.key := by simpa using List.find?_some hfind
        rw [eq_of_key_eq_of_nodup hgood.sound.keys_nodup (List.mem_of_find?_eq_some hfind) hmem hother]

theorem findConversation_eq_some (hgood : state.Good) {conversation : AiConversation} :
    state.findConversation target = some conversation ↔
      ∃ scope ∈ state.scopes, scope.key = target.scopeKey ∧ conversation ∈ scope.conversations ∧
        conversation.id = target.conversationId := by
  rw [AiConversationState.findConversation, Option.bind_eq_some_iff]
  constructor
  · rintro ⟨scope, hscope, hfind⟩
    obtain ⟨hmem, hkey⟩ := (findScope_eq_some hgood).mp hscope
    exact ⟨scope, hmem, hkey, List.mem_of_find?_eq_some hfind, by simpa using List.find?_some hfind⟩
  · rintro ⟨scope, hmem, hkey, hconversation, hid⟩
    refine ⟨scope, (findScope_eq_some hgood).mpr ⟨hmem, hkey⟩, ?_⟩
    cases hfind : scope.conversations.find? (·.id = target.conversationId) with
    | none =>
        have := List.find?_eq_none.mp hfind conversation hconversation
        simp [hid] at this
    | some other =>
        have hother : other.id = target.conversationId := by simpa using List.find?_some hfind
        rw [List.inj_on_of_nodup_map (hgood.sound.scopes scope hmem).ids_nodup
          (List.mem_of_find?_eq_some hfind) hconversation (hother.trans hid.symm)]

theorem holds_iff_findConversation (hgood : state.Good) :
    state.Holds target ↔ (state.findConversation target).isSome = true := by
  rw [Option.isSome_iff_exists]
  constructor
  · rintro ⟨scope, hscope, hkey, hid⟩
    obtain ⟨conversation, hconversation, hid⟩ := List.mem_map.mp hid
    exact ⟨conversation, (findConversation_eq_some hgood).mpr
      ⟨scope, hscope, hkey, hconversation, hid⟩⟩
  · rintro ⟨conversation, hfind⟩
    obtain ⟨scope, hscope, hkey, hconversation, hid⟩ := (findConversation_eq_some hgood).mp hfind
    exact ⟨scope, hscope, hkey, List.mem_map.mpr ⟨conversation, hconversation, hid⟩⟩

end Finding

/-! ### Drafts -/

/-- A draft whose bounds can be enforced. -/
structure Drafted (draft : MutableState) (protectedTargets : ProtectedTargets) : Prop where
  sound : draft.Sound
  evictable : ∀ scope ∈ draft.scopes, Evictable protectedTargets scope
  few : FewKeys protectedTargets
  visible : draft.scopes = [] ∨ ∃ scope ∈ draft.scopes, scope.key = draft.activeScopeKey

theorem finish_meets {draft : MutableState} {protectedTargets : ProtectedTargets}
    (h : Drafted draft protectedTargets) :
    Meets (finish draft protectedTargets) fun state =>
      state.Good ∧ Kept protectedTargets (toMutable state) draft := by
  obtain ⟨state', henforce, hkept, hbounded⟩ :=
    enforceBounds_spec protectedTargets h.sound h.evictable h.few
  rw [finish, henforce]
  refine ⟨⟨hkept.sound h.sound, hbounded, rfl, ?_⟩, hkept⟩
  rcases h.visible with hnil | ⟨scope, hscope, hkey⟩
  · have hlength := hkept.remains.length_scopes_le
    rw [hnil] at hlength
    exact .inl (List.length_eq_zero_iff.mp (Nat.le_zero.mp hlength))
  · obtain ⟨scope', hscope', hkey', -⟩ := hkept.active ⟨scope.key, scope.activeConversationId⟩
      ⟨scope, hscope, hkey, rfl⟩
    exact .inr ⟨scope', hscope', hkey'⟩

theorem leavesOthers_of_kept {target : Option AiConversationTarget} {before : AiConversationState}
    {draft : MutableState} {protectedTargets : ProtectedTargets} {after : AiConversationState}
    (hkept : Kept protectedTargets (toMutable after) draft)
    (h : LeavesOthers target before (freezeState draft)) : LeavesOthers target before after := by
  intro scope hscope conversation hconversation htarget
  obtain ⟨scope', hscope', hremains⟩ := hkept.remains.exists_scope hscope
  obtain ⟨conversation', hconversation', hr⟩ := hremains.exists_conversation hconversation
  have hall := h scope' hscope' conversation' hconversation' (by
    rw [← hremains.key, ← hr.id]
    exact htarget)
  rw [← hremains.key, ← hr.id] at hall
  cases hfind : before.findConversation ⟨scope.key, conversation.id⟩ with
  | none =>
      rw [hfind] at hall
      have hle := hr.length_messages_le
      rw [show conversation'.messages = [] from hall] at hle
      exact List.length_eq_zero_iff.mp (Nat.le_zero.mp hle)
  | some previous =>
      rw [hfind] at hall
      exact hr.trans hall

theorem leavesOthers_refl (hgood : AiConversationState.Good state)
    (target : Option AiConversationTarget) : LeavesOthers target state state := by
  intro scope hscope conversation hconversation _
  rw [(findConversation_eq_some hgood).mpr ⟨scope, hscope, rfl, hconversation, rfl⟩]
  exact .refl _

/-! ### Changing a scope -/

section ModifyScope

variable {state : AiConversationState}

def AiConversationScopeState.orders (scope : AiConversationScopeState) : List ℕ :=
  scope.conversations.flatMap fun conversation => conversation.messages.map (·.createdOrder)

theorem flatMap_modifyFirst_subperm {α : Type} {p : α → Bool} {f : α → α} {g : α → List ℕ}
    {added : List ℕ} {l : List α} (h : ∀ a ∈ l, p a = true → g (f a) <+~ added ++ g a) :
    (modifyFirst p f l).flatMap g <+~ added ++ l.flatMap g := by
  induction l with
  | nil => exact List.nil_subperm
  | cons a rest ih =>
      rw [modifyFirst]
      split_ifs with hp
      · rw [List.flatMap_cons, List.flatMap_cons, ← List.append_assoc]
        exact (List.subperm_append_right _).mpr (h a List.mem_cons_self hp)
      · rw [List.flatMap_cons, List.flatMap_cons]
        have hrest := (List.subperm_append_left (g a)).mpr
          (ih fun b hb => h b (List.mem_cons_of_mem _ hb))
        refine hrest.trans (List.Perm.subperm ?_)
        rw [← List.append_assoc, ← List.append_assoc]
        exact List.perm_append_comm.append_right _

/-- The orders that a draft may have: those before, and a new one. -/
theorem orders_fresh (hgood : state.Good) {orders : List ℕ}
    (h : orders <+~ [state.revision + 1] ++ (toMutable state).orders) :
    orders.Nodup ∧ ∀ order ∈ orders, order ≤ state.revision + 1 := by
  have hle : ∀ order ∈ (toMutable state).orders, order ≤ state.revision := hgood.sound.orders_le
  have hnodup : ([state.revision + 1] ++ (toMutable state).orders).Nodup := by
    refine List.nodup_cons.mpr ⟨fun hmem => ?_, hgood.sound.orders_nodup⟩
    have := hle _ hmem
    omega
  obtain ⟨orders', hperm, hsub⟩ := h
  refine ⟨hperm.nodup_iff.mp (hnodup.sublist hsub), fun order horder => ?_⟩
  rcases List.mem_cons.mp (hsub.subset (hperm.mem_iff.mpr horder)) with rfl | hmem
  · exact Nat.le_refl _
  · exact (hle order hmem).trans (Nat.le_succ _)

/-- A scope of the draft is changed, and may become the visible one. -/
theorem sound_modifyScope (hgood : state.Good) {activeScopeKey key : JsText}
    {f : AiConversationScopeState → AiConversationScopeState} (hkey : ∀ scope, (f scope).key = scope.key)
    (hsound : ∀ scope ∈ state.scopes, scope.key = key → (f scope).Sound)
    (horders : ∀ scope ∈ state.scopes, scope.key = key →
      (f scope).orders <+~ [state.revision + 1] ++ scope.orders) :
    (MutableState.modifyScope { state.draft with activeScopeKey } key f).Sound := by
  have hfresh := orders_fresh hgood (flatMap_modifyFirst_subperm
    (p := (·.key = key)) (f := f) (g := AiConversationScopeState.orders) (l := state.scopes)
    fun scope hscope hp => horders scope hscope (by simpa using hp))
  refine ⟨?_, fun scope hscope => ?_, hfresh.1, hfresh.2⟩
  · have hkeys : (modifyFirst (·.key = key) f state.scopes).map (·.key) =
        state.scopes.map (·.key) := map_modifyFirst hkey
    exact hkeys ▸ hgood.sound.keys_nodup
  · rcases mem_modifyFirst hscope with hmem | ⟨before, hmem, hp, rfl⟩
    · exact hgood.sound.scopes scope hmem
    · exact hsound before hmem (by simpa using hp)

theorem mem_modifyScope (hgood : state.Good) {activeScopeKey key : JsText}
    {f : AiConversationScopeState → AiConversationScopeState} {scope : AiConversationScopeState}
    (hscope : scope ∈ state.scopes) :
    (if scope.key = key then f scope else scope) ∈
      (MutableState.modifyScope { state.draft with activeScopeKey } key f).scopes :=
  mem_modifyFirst_of_mem hgood.sound.keys_nodup hscope

theorem evictable_modifyScope (hgood : state.Good) {activeScopeKey key : JsText}
    {protectedTargets : ProtectedTargets}
    {f : AiConversationScopeState → AiConversationScopeState}
    (h : ∀ scope ∈ state.scopes, scope.key = key → Evictable protectedTargets (f scope)) :
    ∀ scope ∈ (MutableState.modifyScope { state.draft with activeScopeKey } key f).scopes,
      Evictable protectedTargets scope := by
  intro scope hscope
  rcases mem_modifyFirst hscope with hmem | ⟨before, hmem, hp, rfl⟩
  · exact .inl (hgood.bounded.conversations scope hmem)
  · exact h before hmem (by simpa using hp)

/-- Conversations of the draft that the change of a scope leaves alone. -/
theorem leavesOthers_modifyScope (hgood : state.Good) {activeScopeKey key : JsText}
    {f : AiConversationScopeState → AiConversationScopeState} {target : Option AiConversationTarget}
    (hkey : ∀ scope, (f scope).key = scope.key)
    (h : ∀ scope ∈ state.scopes, scope.key = key → ∀ conversation ∈ (f scope).conversations,
      target ≠ some ⟨key, conversation.id⟩ → conversation ∈ scope.conversations ∨
        state.findConversation ⟨key, conversation.id⟩ = none ∧ conversation.messages = []) :
    LeavesOthers target state
      (freezeState (MutableState.modifyScope { state.draft with activeScopeKey } key f)) := by
  have hsame : ∀ scope ∈ state.scopes, ∀ conversation ∈ scope.conversations,
      match state.findConversation ⟨scope.key, conversation.id⟩ with
      | none => conversation.messages = []
      | some previous => conversation.Remains previous := by
    intro scope hscope conversation hconversation
    rw [(findConversation_eq_some hgood).mpr ⟨scope, hscope, rfl, hconversation, rfl⟩]
    exact .refl _
  intro scope hscope conversation hconversation htarget
  rcases mem_modifyFirst hscope with hmem | ⟨before, hmem, hp, rfl⟩
  · exact hsame scope hmem conversation hconversation
  · have hbefore : before.key = key := by simpa using hp
    rw [hkey, hbefore] at htarget ⊢
    rcases h before hmem hbefore conversation hconversation htarget with hold | ⟨hnone, hempty⟩
    · rw [← hbefore]
      exact hsame before hmem conversation hold
    · rw [hnone]
      exact hempty

end ModifyScope

/-! ### Written conversations -/

section Write

variable {state : AiConversationState} {target : AiConversationTarget}

theorem orders_modifyConversation {scope : AiConversationScopeState} {id : JsText}
    {f : AiConversation → AiConversation} {added : List ℕ}
    (h : ∀ conversation ∈ scope.conversations, conversation.id = id →
      (f conversation).messages.map (·.createdOrder) <+~
        added ++ conversation.messages.map (·.createdOrder)) :
    (scope.modifyConversation id f).orders <+~ added ++ scope.orders :=
  flatMap_modifyFirst_subperm fun conversation hmem hp => h conversation hmem (by simpa using hp)

theorem sound_modifyConversation {scope : AiConversationScopeState} (hscope : scope.Sound)
    (id : JsText) {f : AiConversation → AiConversation}
    (hid : ∀ conversation, (f conversation).id = conversation.id)
    (h : ∀ conversation ∈ scope.conversations, conversation.id = id → (f conversation).Sound) :
    (scope.modifyConversation id f).Sound := by
  have hids : (scope.modifyConversation id f).conversations.map (·.id) =
      scope.conversations.map (·.id) := map_modifyFirst hid
  refine ⟨hscope.key_clean, hids ▸ hscope.ids_nodup, hids ▸ hscope.active_mem,
    fun conversation hmem => ?_⟩
  rcases mem_modifyFirst hmem with hold | ⟨before, hbefore, hp, rfl⟩
  · exact hscope.conversations conversation hold
  · exact h before hbefore (by simpa using hp)

/-- The draft of a call that writes to a conversation. -/
theorem drafted_write (hgood : state.Good) (hclean : 0 ∉ target.scopeKey)
    {conversation : AiConversation} (hfind : state.findConversation target = some conversation)
    {f : AiConversation → AiConversation} (hid : ∀ conversation, (f conversation).id = conversation.id)
    (hsound : (f conversation).Sound)
    (horders : (f conversation).messages.map (·.createdOrder) <+~
      [state.revision + 1] ++ conversation.messages.map (·.createdOrder)) :
    Drafted (state.draft.write target (state.revision + 1) f)
      [targetKey target.scopeKey target.conversationId] := by
  obtain ⟨scope, hscope, hkey, hconversation, hconversationId⟩ :=
    (findConversation_eq_some hgood).mp hfind
  have hsame : ∀ other ∈ state.scopes, other.key = target.scopeKey →
      ∀ c ∈ other.conversations, c.id = target.conversationId → c = conversation := by
    intro other hother hotherKey c hc hcid
    exact conversation_eq_of_target hgood.sound hother hscope (hotherKey.trans hkey.symm) hc
      hconversation (hcid.trans hconversationId.symm)
  have hwritten : ∀ other : AiConversationScopeState, ∀ c : AiConversation,
      ({ f c with updatedOrder := state.revision + 1 } : AiConversation).id = c.id :=
    fun _ c => hid c
  refine ⟨sound_modifyScope hgood (fun _ => rfl) (fun other hother hotherKey => ?_)
    (fun other hother hotherKey => ?_), evictable_modifyScope hgood fun other hother _ => .inl ?_,
    fewKeys_singleton hclean, ?_⟩
  · have hmodified := sound_modifyConversation (hgood.sound.scopes other hother)
      target.conversationId (hwritten other) fun c hc hcid => by
        rw [hsame other hother hotherKey c hc hcid]
        exact ⟨hsound.ids_nodup, hsound.ordered, hsound.title_le⟩
    exact ⟨hmodified.key_clean, hmodified.ids_nodup, hmodified.active_mem, hmodified.conversations⟩
  · refine orders_modifyConversation fun c hc hcid => ?_
    rw [hsame other hother hotherKey c hc hcid]
    exact horders
  · have hids : (other.modifyConversation target.conversationId fun c =>
        { f c with updatedOrder := state.revision + 1 }).conversations.map (·.id) =
        other.conversations.map (·.id) := map_modifyFirst (hwritten other)
    have hlength := congrArg List.length hids
    rw [List.length_map, List.length_map] at hlength
    exact hlength.le.trans (hgood.bounded.conversations other hother)
  · rcases hgood.visible with hnil | ⟨other, hother, hotherKey⟩
    · rw [hnil] at hscope
      nomatch hscope
    · refine .inr ⟨_, mem_modifyScope hgood hother, ?_⟩
      split_ifs <;> exact hotherKey

/-- The written conversation is there, as the draft has it. -/
theorem holds_write (hgood : state.Good) (hholds : state.Holds target)
    {f : AiConversation → AiConversation} (hid : ∀ conversation, (f conversation).id = conversation.id) :
    (state.draft.write target (state.revision + 1) f).Holds target := by
  obtain ⟨scope, hscope, hkey, hmem⟩ := hholds
  refine ⟨_, mem_modifyScope hgood hscope, ?_, ?_⟩
  · rw [if_pos hkey]
    exact hkey
  · rw [if_pos hkey]
    have hids : (scope.modifyConversation target.conversationId fun c =>
        { f c with updatedOrder := state.revision + 1 }).conversations.map (·.id) =
        scope.conversations.map (·.id) := map_modifyFirst hid
    exact hids ▸ hmem

theorem isActive_write (hgood : state.Good) {f : AiConversation → AiConversation}
    {visible : AiConversationTarget} (h : state.IsVisible visible) :
    (state.draft.write target (state.revision + 1) f).IsActive visible := by
  obtain ⟨scope, hscope, hkey, rfl⟩ := h
  refine ⟨_, mem_modifyScope hgood hscope, ?_, ?_⟩
  · split_ifs <;> exact hkey
  · split_ifs <;> rfl

/-- **A written conversation is kept**, and the visible one. -/
theorem write_meets (hgood : state.Good) (hclean : 0 ∉ target.scopeKey)
    {conversation : AiConversation} (hfind : state.findConversation target = some conversation)
    {f : AiConversation → AiConversation} (hid : ∀ conversation, (f conversation).id = conversation.id)
    (hsound : (f conversation).Sound)
    (horders : (f conversation).messages.map (·.createdOrder) <+~
      [state.revision + 1] ++ conversation.messages.map (·.createdOrder)) :
    Meets (finish (state.draft.write target (state.revision + 1) f)
      [targetKey target.scopeKey target.conversationId]) fun after =>
        after.Good ∧ ((state.Holds target → after.Holds target) ∧
          ∀ visible, state.IsVisible visible → after.IsVisible visible) ∧
          LeavesOthers (some target) state after := by
  refine (finish_meets (drafted_write hgood hclean hfind hid hsound horders)).weaken
    fun after hafter => ⟨hafter.1, ⟨fun hholds => ?_, fun visible hvisible => ?_⟩, ?_⟩
  · exact hafter.2.holds target (List.mem_singleton_self _) (holds_write hgood hholds hid)
  · exact hafter.2.active visible (isActive_write hgood hvisible)
  · refine leavesOthers_of_kept hafter.2 (leavesOthers_modifyScope hgood (fun _ => rfl) ?_)
    intro scope hscope hkey c hc htarget
    refine .inl ?_
    rcases mem_modifyFirst hc with hmem | ⟨before, hmem, hp, rfl⟩
    · exact hmem
    · have hbefore : before.id = target.conversationId := by simpa using hp
      refine absurd ?_ htarget
      show some target = some ⟨target.scopeKey, (f before).id⟩
      rw [hid, hbefore]

end Write

/-! ### Calls that write messages -/

section Messages

variable {state : AiConversationState}

theorem sound_of_findConversation (hgood : state.Good) {target : AiConversationTarget}
    {conversation : AiConversation} (hfind : state.findConversation target = some conversation) :
    conversation.Sound := by
  obtain ⟨scope, hscope, -, hconversation, -⟩ := (findConversation_eq_some hgood).mp hfind
  exact (hgood.sound.scopes scope hscope).conversations conversation hconversation

theorem order_le_of_findConversation (hgood : state.Good) {target : AiConversationTarget}
    {conversation : AiConversation} (hfind : state.findConversation target = some conversation)
    {message : AiConversationMessage} (hmessage : message ∈ conversation.messages) :
    message.createdOrder ≤ state.revision := by
  obtain ⟨scope, hscope, -, hconversation, -⟩ := (findConversation_eq_some hgood).mp hfind
  exact hgood.sound.orders_le _ (List.mem_flatMap.mpr ⟨scope, hscope, List.mem_flatMap.mpr
    ⟨conversation, hconversation, List.mem_map_of_mem hmessage⟩⟩)

/-- A message with a new id and a new order. -/
theorem sound_pushMessage {conversation : AiConversation} (hsound : conversation.Sound)
    {message : AiConversationMessage} (hid : message.id ∉ conversation.messages.map (·.id))
    (horder : ∀ m ∈ conversation.messages, m.createdOrder < message.createdOrder) :
    (pushMessage U message conversation).Sound where
  ids_nodup := by
    rw [pushMessage, List.map_append]
    refine List.nodup_append.mpr ⟨hsound.ids_nodup, List.nodup_singleton _, fun a ha b hb => ?_⟩
    rintro rfl
    rw [List.mem_singleton.mp hb] at ha
    exact hid ha
  ordered := by
    rw [pushMessage, List.map_append]
    refine List.pairwise_append.mpr ⟨hsound.ordered, List.pairwise_singleton _ _,
      fun a ha b hb => ?_⟩
    obtain ⟨m, hm, rfl⟩ := List.mem_map.mp ha
    obtain rfl := List.mem_singleton.mp hb
    exact horder m hm
  title_le := by
    simp only [pushMessage]
    split_ifs
    · exact byteLength_title_le U _
    · exact hsound.title_le

theorem orders_pushMessage {conversation : AiConversation} {message : AiConversationMessage}
    {order : ℕ} (h : message.createdOrder = order) :
    (pushMessage U message conversation).messages.map (·.createdOrder) <+~
      [order] ++ conversation.messages.map (·.createdOrder) := by
  rw [pushMessage, List.map_append, ← h]
  exact List.perm_append_comm.subperm

theorem sound_modifyMessage {conversation : AiConversation} (hsound : conversation.Sound)
    (id : JsText) {f : AiConversationMessage → AiConversationMessage}
    (hid : ∀ message, (f message).id = message.id)
    (horder : ∀ message, (f message).createdOrder = message.createdOrder) :
    (conversation.modifyMessage id f).Sound ∧
      (conversation.modifyMessage id f).messages.map (·.createdOrder) =
        conversation.messages.map (·.createdOrder) := by
  have hids : (conversation.modifyMessage id f).messages.map (·.id) =
      conversation.messages.map (·.id) := map_modifyFirst hid
  have horders : (conversation.modifyMessage id f).messages.map (·.createdOrder) =
      conversation.messages.map (·.createdOrder) := map_modifyFirst horder
  exact ⟨⟨hids ▸ hsound.ids_nodup, horders ▸ hsound.ordered, hsound.title_le⟩, horders⟩

theorem sound_filterMessages {conversation : AiConversation} (hsound : conversation.Sound)
    (p : AiConversationMessage → Bool) :
    AiConversation.Sound { conversation with messages := conversation.messages.filter p } where
  ids_nodup := hsound.ids_nodup.sublist (List.filter_sublist.map _)
  ordered := hsound.ordered.sublist (List.filter_sublist.map _)
  title_le := hsound.title_le

theorem normalizeToolActivity_meets (activity : AiConversationToolActivity) :
    Meets (normalizeToolActivity U activity) fun normalized => normalized = activity := by
  refine Meets.bind (assertOpaqueId_meets activity.id) fun id _ hid => ?_
  refine Meets.bind (Meets.throwWhen (by decide)) fun _ _ _ => ?_
  exact Meets.pure (by rw [hid])

theorem normalizeAttachment_meets (attachment : AiConversationImageAttachmentInput) :
    Meets (normalizeAttachment U attachment) fun _ => True := by
  refine Meets.bind (assertOpaqueId_meets attachment.id) fun _ _ _ => ?_
  refine Meets.bind (assertBoundedOpaqueText_meets (by decide)) fun _ _ _ => ?_
  cases attachment.size with
  | none => exact Meets.throw (by decide)
  | some size =>
      exact Meets.bind (Meets.throwWhen (by decide)) fun _ _ _ => Meets.pure trivial

theorem updatedToolActivity_meets (message : AiConversationMessage)
    (activity : Option AiConversationToolActivity) :
    Meets (updatedToolActivity U message activity) fun updated =>
      updated = activity.or message.toolActivity := by
  cases activity with
  | none => exact Meets.pure rfl
  | some activity =>
      refine Meets.bind (normalizeToolActivity_meets activity) fun _ _ hactivity => ?_
      exact Meets.pure (by rw [hactivity]; rfl)

/-- What a call on messages does: the result is good, keeps the target and the visible conversation,
and leaves the others. -/
def WritesTo (target : AiConversationTarget) (before after : AiConversationState) : Prop :=
  after.Good ∧ ((before.Holds target → after.Holds target) ∧
    ∀ visible, before.IsVisible visible → after.IsVisible visible) ∧
    LeavesOthers (some target) before after

theorem writesTo_refl (hgood : state.Good) (target : AiConversationTarget) :
    WritesTo target state state :=
  ⟨hgood, ⟨id, fun _ => id⟩, leavesOthers_refl hgood _⟩

theorem append_meets (hgood : state.Good) (target : AiConversationTarget)
    (input : AiConversationMessageInput) :
    Meets (appendAiConversationMessage U state target input) (WritesTo target state) := by
  refine Meets.bind (assertTarget_meets target) fun _ _ hclean => ?_
  cases hfind : state.findConversation target with
  | none => exact Meets.pure (writesTo_refl hgood target)
  | some conversation =>
      dsimp only
      by_cases hknown : conversation.messages.any (·.id = input.id) = true
      · rw [if_pos hknown]
        exact Meets.pure (writesTo_refl hgood target)
      · rw [if_neg hknown]
        refine Meets.bind (assertOpaqueId_meets input.id) fun _ _ _ => ?_
        refine Meets.bind (Meets.throwWhen (by decide)) fun _ _ _ => ?_
        refine Meets.bind (Meets.throwWhen (by decide)) fun _ _ _ => ?_
        refine Meets.bind (Meets.throwWhen (by decide)) fun _ _ _ => ?_
        have hactivity : Meets (input.toolActivity.mapM (normalizeToolActivity U))
            fun _ => True := by
          cases input.toolActivity with
          | none => exact Meets.pure trivial
          | some activity =>
              exact Meets.bind (normalizeToolActivity_meets activity) fun _ _ _ =>
                Meets.pure trivial
        refine Meets.bind hactivity fun toolActivity _ _ => ?_
        refine Meets.bind (Meets.mapM (R := fun _ _ => True) fun attachment _ =>
          normalizeAttachment_meets attachment) fun attachments _ _ => ?_
        refine write_meets hgood hclean hfind (fun _ => rfl) ?_ (orders_pushMessage rfl)
        refine sound_pushMessage (sound_of_findConversation hgood hfind) ?_ fun m hm =>
          Nat.lt_succ_of_le (order_le_of_findConversation hgood hfind hm)
        intro hmem
        obtain ⟨m, hm, hid⟩ := List.mem_map.mp hmem
        exact hknown (List.any_eq_true.mpr ⟨m, hm, by simpa using hid⟩)

theorem update_meets (hgood : state.Good) (target : AiConversationTarget) (messageId : JsText)
    (input : AiConversationMessageUpdate) :
    Meets (updateAiConversationMessage U state target messageId input) (WritesTo target state) := by
  refine Meets.bind (assertTarget_meets target) fun _ _ hclean => ?_
  refine Meets.bind (assertOpaqueId_meets messageId) fun _ _ _ => ?_
  cases hmessage : (state.findConversation target).bind fun conversation =>
      conversation.messages.find? (·.id = messageId) with
  | none => exact Meets.pure (writesTo_refl hgood target)
  | some message =>
      obtain ⟨conversation, hfind, -⟩ := Option.bind_eq_some_iff.mp hmessage
      refine Meets.bind (updatedToolActivity_meets message input.toolActivity)
        fun toolActivity _ _ => ?_
      refine Meets.bind (Meets.throwWhen (by decide)) fun _ _ _ => ?_
      split_ifs
      · exact Meets.pure (writesTo_refl hgood target)
      · obtain ⟨hsound, horders⟩ := sound_modifyMessage (sound_of_findConversation hgood hfind)
          messageId (f := (·.rewritten (input.role.getD message.role)
            (takeUtf8Prefix (input.content.getD message.content) maxAiConversationMessageBytes)
            toolActivity)) (fun _ => rfl) fun _ => rfl
        refine write_meets hgood hclean hfind (fun _ => rfl) hsound ?_
        rw [horders]
        exact (List.sublist_append_right _ _).subperm

theorem deleteMessage_meets (hgood : state.Good) (target : AiConversationTarget)
    (messageId : JsText) :
    Meets (deleteAiConversationMessage U state target messageId) (WritesTo target state) := by
  refine Meets.bind (assertTarget_meets target) fun _ _ hclean => ?_
  refine Meets.bind (assertOpaqueId_meets messageId) fun _ _ _ => ?_
  cases hfind : state.findConversation target with
  | none => exact Meets.pure (writesTo_refl hgood target)
  | some conversation =>
      dsimp only
      split_ifs
      · exact Meets.pure (writesTo_refl hgood target)
      · exact write_meets hgood hclean hfind (fun _ => rfl)
          (sound_filterMessages (sound_of_findConversation hgood hfind) _)
          (((List.filter_sublist.map _).trans (List.sublist_append_right _ _)).subperm)

end Messages

/-! ### Calls on conversations -/

section Conversations

variable {state : AiConversationState}

theorem sound_draft (hgood : state.Good) (activeScopeKey : JsText) :
    MutableState.Sound { state.draft with activeScopeKey } where
  keys_nodup := hgood.sound.keys_nodup
  scopes := hgood.sound.scopes
  orders_nodup := hgood.sound.orders_nodup
  orders_le order horder := (hgood.sound.orders_le order horder).trans (Nat.le_succ _)

theorem not_holds_of_findScope (hgood : state.Good) {target : AiConversationTarget}
    (h : state.findScope target.scopeKey = none) : ¬ state.Holds target := by
  rintro ⟨scope, hscope, hkey, -⟩
  rw [(findScope_eq_some hgood).mpr ⟨hscope, hkey⟩] at h
  nomatch h

theorem modifyFirst_modifyFirst {α : Type} {p : α → Bool} {f g : α → α} {l : List α}
    (h : ∀ a, p (f a) = p a) :
    modifyFirst p g (modifyFirst p f l) = modifyFirst p (fun a => g (f a)) l := by
  induction l with
  | nil => rfl
  | cons a rest ih =>
      by_cases hp : p a = true
      · simp [modifyFirst, h, hp]
      · simp [modifyFirst, hp, ih]

theorem modifyConversation_modifyScope (draft : MutableState) (target : AiConversationTarget)
    {f : AiConversationScopeState → AiConversationScopeState} {g : AiConversation → AiConversation}
    (hkey : ∀ scope, (f scope).key = scope.key) :
    (draft.modifyScope target.scopeKey f).modifyConversation target g =
      draft.modifyScope target.scopeKey fun scope =>
        (f scope).modifyConversation target.conversationId g :=
  congrArg (fun scopes => { draft with scopes })
    (modifyFirst_modifyFirst fun scope => by rw [hkey])

theorem length_modifyFirst {α : Type} {p : α → Bool} {f : α → α} {l : List α} :
    (modifyFirst p f l).length = l.length := by
  induction l with
  | nil => rfl
  | cons a rest ih =>
      rw [modifyFirst]
      split_ifs
      · rfl
      · rw [List.length_cons, List.length_cons, ih]

theorem modifyFirst_congr {α : Type} {p : α → Bool} {f g : α → α} {l : List α}
    (h : ∀ a ∈ l, p a = true → f a = g a) : modifyFirst p f l = modifyFirst p g l := by
  induction l with
  | nil => rfl
  | cons a rest ih =>
      rw [modifyFirst, modifyFirst]
      split_ifs with hp
      · rw [h a List.mem_cons_self hp]
      · rw [ih fun b hb => h b (List.mem_cons_of_mem _ hb)]

theorem newConversation_meets (id : JsText) (order : ℕ) :
    Meets (newConversation U id order) fun conversation =>
      conversation = ⟨id, [], false, [], order, order⟩ := by
  refine Meets.bind (assertOpaqueId_meets id) fun _ _ hid => ?_
  exact Meets.pure (by rw [hid])

theorem sound_emptyConversation (id : JsText) (order : ℕ) :
    AiConversation.Sound ⟨id, [], false, [], order, order⟩ :=
  ⟨.nil, .nil, Nat.zero_le _⟩

/-- A scope that is new in the draft. -/
theorem drafted_pushScope (hgood : state.Good) {key id : JsText} (hclean : 0 ∉ key)
    (hnone : state.findScope key = none) (order : ℕ) {protectedTargets : ProtectedTargets}
    (hfew : FewKeys protectedTargets) :
    Drafted (MutableState.pushScope { state.draft with activeScopeKey := key } key
      ⟨id, [], false, [], order, order⟩ order) protectedTargets := by
  have hnew : ∀ scope ∈ state.scopes, scope.key ≠ key := by
    intro scope hscope hkey
    rw [(findScope_eq_some hgood).mpr ⟨hscope, hkey⟩] at hnone
    nomatch hnone
  have hdraft := sound_draft hgood key
  have horders : (MutableState.pushScope { state.draft with activeScopeKey := key } key
      ⟨id, [], false, [], order, order⟩ order).orders = state.draft.orders := by
    simp [MutableState.orders, MutableState.pushScope]
  refine ⟨⟨?_, fun scope hscope => ?_, horders ▸ hdraft.orders_nodup, horders ▸ hdraft.orders_le⟩,
    fun scope hscope => ?_, hfew, .inr ⟨_, List.mem_append_right _ (List.mem_singleton_self _), rfl⟩⟩
  · simp only [MutableState.pushScope, List.map_append, List.map_cons, List.map_nil]
    refine List.nodup_append.mpr ⟨hdraft.keys_nodup, List.nodup_singleton _, fun a ha b hb => ?_⟩
    obtain ⟨scope, hscope, rfl⟩ := List.mem_map.mp ha
    rw [List.mem_singleton.mp hb]
    exact hnew scope hscope
  · rcases List.mem_append.mp hscope with hmem | hmem
    · exact hdraft.scopes scope hmem
    · obtain rfl := List.mem_singleton.mp hmem
      refine ⟨hclean, List.nodup_singleton _, List.mem_singleton_self _, fun c hc => ?_⟩
      rw [List.mem_singleton.mp hc]
      exact sound_emptyConversation id order
  · rcases List.mem_append.mp hscope with hmem | hmem
    · exact .inl (hgood.bounded.conversations scope hmem)
    · obtain rfl := List.mem_singleton.mp hmem
      exact .inl (Nat.succ_le_succ (Nat.zero_le 7))

theorem leavesOthers_pushScope (hgood : state.Good) {key id : JsText}
    (hnone : state.findScope key = none) (order : ℕ) (target : Option AiConversationTarget) :
    LeavesOthers target state (freezeState (MutableState.pushScope
      { state.draft with activeScopeKey := key } key ⟨id, [], false, [], order, order⟩ order)) := by
  intro scope hscope conversation hconversation htarget
  rcases List.mem_append.mp hscope with hmem | hmem
  · exact leavesOthers_refl hgood target scope hmem conversation hconversation htarget
  · obtain rfl := List.mem_singleton.mp hmem
    obtain rfl := List.mem_singleton.mp hconversation
    have hfind : state.findConversation ⟨key, id⟩ = none := by
      rw [AiConversationState.findConversation, hnone]
      rfl
    rw [hfind]

theorem isActive_pushScope {key id : JsText} (order : ℕ) :
    (MutableState.pushScope { state.draft with activeScopeKey := key } key
      ⟨id, [], false, [], order, order⟩ order).IsActive ⟨key, id⟩ :=
  ⟨_, List.mem_append_right _ (List.mem_singleton_self _), rfl, rfl⟩

/-- The result of an activation shows the scope, with its own conversation where it was there. -/
def Activates (key : JsText) (protectedTargets : List AiConversationTarget)
    (before after : AiConversationState) : Prop :=
  (∃ visible, after.IsVisible visible ∧ visible.scopeKey = key ∧
    ∀ scope, before.findScope key = some scope →
      visible.conversationId = scope.activeConversationId) ∧
    ∀ target ∈ protectedTargets, before.Holds target → after.Holds target

/-- The draft of an activation can be finished for any few protected targets. -/
theorem activatedDraft_meets (hgood : state.Good) {key : JsText} (hclean : 0 ∉ key) (id : JsText) :
    Meets (activatedDraft U state key id) fun draft =>
      (∀ protectedTargets, FewKeys protectedTargets → Drafted draft protectedTargets) ∧
        LeavesOthers none state (freezeState draft) ∧
        (∃ visible, draft.IsActive visible ∧ visible.scopeKey = key ∧
          ∀ scope, state.findScope key = some scope →
            visible.conversationId = scope.activeConversationId) ∧
        ∀ target, state.Holds target → draft.Holds target := by
  unfold activatedDraft
  cases hfind : state.findScope key with
  | none =>
      refine Meets.bind (newConversation_meets id (state.revision + 1)) ?_
      rintro _ _ rfl
      refine Meets.pure ⟨fun _ hfew => drafted_pushScope hgood hclean hfind _ hfew,
        leavesOthers_pushScope hgood hfind _ _, ⟨⟨key, id⟩, isActive_pushScope _, rfl,
          fun _ h => (nomatch h)⟩, ?_⟩
      rintro target ⟨scope, hscope, hkey, hid⟩
      exact ⟨scope, List.mem_append_left _ hscope, hkey, hid⟩
  | some scope =>
      obtain ⟨hscope, hkey⟩ := (findScope_eq_some hgood).mp hfind
      refine Meets.pure ⟨fun _ hfew => ⟨?_, ?_, hfew, ?_⟩, ?_, ?_, ?_⟩
      · refine sound_modifyScope hgood (fun _ => rfl) (fun other hother _ => ?_) fun other _ _ =>
          (List.sublist_append_right _ _).subperm
        have := hgood.sound.scopes other hother
        exact ⟨this.key_clean, this.ids_nodup, this.active_mem, this.conversations⟩
      · exact evictable_modifyScope hgood fun other hother _ =>
          .inl (hgood.bounded.conversations other hother)
      · refine .inr ⟨_, mem_modifyScope hgood hscope, ?_⟩
        rw [if_pos hkey]
        exact hkey
      · exact leavesOthers_modifyScope hgood (fun _ => rfl) fun _ _ _ c hc _ => .inl hc
      · refine ⟨⟨scope.key, scope.activeConversationId⟩, ⟨_, mem_modifyScope hgood hscope, ?_, ?_⟩,
          hkey, ?_⟩
        · rw [if_pos hkey]
          exact hkey
        · rw [if_pos hkey]
        · rintro _ h
          obtain rfl := Option.some.inj h
          rfl
      · rintro target ⟨other, hother, hotherKey, hid⟩
        refine ⟨_, mem_modifyScope hgood hother, ?_, ?_⟩
        · split_ifs <;> exact hotherKey
        · split_ifs <;> exact hid

theorem activate_meets (hgood : state.Good) (terminalScope : Option AiConversationTerminalScope)
    (options : AiConversationActivationOptions) (uuid : JsText)
    (hfew : (options.protectedTargets.map AiConversationTarget.scopeKey).dedup.length ≤
      maxAiConversationScopes - 1) :
    Meets (activateAiConversationScope U state terminalScope options uuid) fun after =>
      after.Good ∧ (∃ key, aiConversationScopeKey U terminalScope = .ok key ∧
        Activates key options.protectedTargets state after) ∧ LeavesOthers none state after := by
  refine Meets.bind (aiConversationScopeKey_meets terminalScope) fun key hkey hclean => ?_
  dsimp only
  by_cases hsame : ((state.findScope key).isSome && decide (state.activeScopeKey = key)) = true
  · rw [if_pos hsame]
    rw [Bool.and_eq_true, decide_eq_true_eq, Option.isSome_iff_exists] at hsame
    obtain ⟨⟨scope, hfind⟩, hactive⟩ := hsame
    obtain ⟨hscope, hscopeKey⟩ := (findScope_eq_some hgood).mp hfind
    refine Meets.pure ⟨hgood, ⟨key, hkey, ⟨⟨scope.key, scope.activeConversationId⟩,
      ⟨scope, hscope, hscopeKey.trans hactive.symm, rfl⟩, hscopeKey, fun other hother => ?_⟩,
      fun _ _ => id⟩, leavesOthers_refl hgood none⟩
    rw [hfind] at hother
    obtain rfl := Option.some.inj hother
    rfl
  · rw [if_neg hsame]
    refine Meets.bind (activatedDraft_meets hgood hclean _) fun draft _ hdraft => ?_
    obtain ⟨hdrafted, hothers, ⟨visible, hvisible, hvisibleKey, hscopes⟩, hholds⟩ := hdraft
    refine Meets.bind (protectedTargetKeys_meets options.protectedTargets) ?_
    rintro _ _ ⟨rfl, hprotected⟩
    have hfew' := fewKeys_of_targets hfew hprotected
    refine (finish_meets (hdrafted _ hfew')).weaken fun after hafter =>
      ⟨hafter.1, ⟨key, hkey, ⟨visible, hafter.2.active visible hvisible, hvisibleKey, hscopes⟩,
        fun target htarget hold => ?_⟩, leavesOthers_of_kept hafter.2 hothers⟩
    exact hafter.2.holds target (List.mem_map_of_mem htarget) (hholds target hold)

/-- A scope with one conversation more, which is its active one. -/
theorem sound_pushConversation {scope : AiConversationScopeState} (hscope : scope.Sound)
    {id : JsText} (hid : id ∉ scope.conversations.map (·.id)) (order : ℕ) :
    AiConversationScopeState.Sound { scope with
      conversations := scope.conversations ++ [⟨id, [], false, [], order, order⟩]
      activeConversationId := id
      updatedOrder := order } where
  key_clean := hscope.key_clean
  ids_nodup := by
    rw [List.map_append]
    refine List.nodup_append.mpr ⟨hscope.ids_nodup, List.nodup_singleton _, fun a ha b hb => ?_⟩
    rintro rfl
    rw [List.mem_singleton.mp hb] at ha
    exact hid ha
  active_mem := by simp
  conversations c hc := by
    rcases List.mem_append.mp hc with hmem | hmem
    · exact hscope.conversations c hmem
    · rw [List.mem_singleton.mp hmem]
      exact sound_emptyConversation id order

theorem create_meets (hgood : state.Good) (scopeKey conversationId : Option JsText)
    (uuid : JsText) :
    Meets (createAiConversation U state scopeKey conversationId uuid) fun after =>
      after.Good ∧ after.IsVisible ⟨scopeKey.getD state.activeScopeKey,
        conversationId.getD (makeConversationId uuid)⟩ ∧ LeavesOthers none state after := by
  unfold createAiConversation
  refine Meets.bind (assertScopeKey_meets (scopeKey.getD state.activeScopeKey)) ?_
  rintro _ - ⟨rfl, hclean⟩
  refine Meets.bind (assertOpaqueId_meets (conversationId.getD (makeConversationId uuid))) ?_
  rintro _ - rfl
  generalize scopeKey.getD state.activeScopeKey = key at hclean ⊢
  generalize conversationId.getD (makeConversationId uuid) = id
  refine Meets.bind (Meets.throwWhen (by decide)) fun _ _ hduplicate => ?_
  refine Meets.bind (newConversation_meets id (state.revision + 1)) ?_
  rintro _ - rfl
  dsimp only
  cases hfind : state.findScope key with
  | none =>
      refine (finish_meets (drafted_pushScope hgood hclean hfind _
        (fewKeys_singleton hclean))).weaken fun after hafter =>
          ⟨hafter.1, hafter.2.active _ (isActive_pushScope _),
            leavesOthers_of_kept hafter.2 (leavesOthers_pushScope hgood hfind _ _)⟩
  | some scope =>
      obtain ⟨hscope, hkey⟩ := (findScope_eq_some hgood).mp hfind
      have hfree : ∀ other ∈ state.scopes, other.key = key →
          id ∉ other.conversations.map (·.id) := by
        intro other hother hotherKey hmem
        have hholds : state.Holds ⟨key, id⟩ := ⟨other, hother, hotherKey, hmem⟩
        rw [holds_iff_findConversation hgood, hduplicate] at hholds
        nomatch hholds
      have hdraft : Drafted (MutableState.modifyScope { state.draft with activeScopeKey := key } key
          fun scope => { scope with
            conversations := scope.conversations ++ [⟨id, [], false, [], state.revision + 1,
              state.revision + 1⟩]
            activeConversationId := id
            updatedOrder := state.revision + 1 }) [targetKey key id] := by
        refine ⟨sound_modifyScope hgood (fun _ => rfl) (fun other hother hotherKey => ?_)
          (fun other hother hotherKey => ?_), evictable_modifyScope hgood
            fun other hother hotherKey => .inr ?_, fewKeys_singleton hclean,
          .inr ?_⟩
        · exact sound_pushConversation (hgood.sound.scopes other hother)
            (hfree other hother hotherKey) _
        · refine List.Sublist.subperm ?_
          simp only [AiConversationScopeState.orders, List.flatMap_append, List.flatMap_cons,
            List.flatMap_nil, List.map_nil, List.append_nil]
          exact List.sublist_append_right _ _
        · intro otherId _ hprotected
          have hkeys : other.key ++ 0 :: otherId = key ++ 0 :: id :=
            List.mem_singleton.mp hprotected
          rw [hotherKey] at hkeys
          exact (List.cons.inj (List.append_cancel_left hkeys)).2
        · refine ⟨_, mem_modifyScope hgood hscope, ?_⟩
          rw [if_pos hkey]
          exact hkey
      refine (finish_meets hdraft).weaken fun after hafter =>
        ⟨hafter.1, hafter.2.active _ ⟨_, mem_modifyScope hgood hscope, ?_, ?_⟩,
          leavesOthers_of_kept hafter.2 ?_⟩
      · rw [if_pos hkey]
        exact hkey
      · rw [if_pos hkey]
        exact congrArg (fun k => (⟨k, id⟩ : AiConversationTarget)) hkey.symm
      · refine leavesOthers_modifyScope hgood (fun _ => rfl) fun other hother hotherKey c hc _ => ?_
        rcases List.mem_append.mp hc with hmem | hmem
        · exact .inl hmem
        · obtain rfl := List.mem_singleton.mp hmem
          have hnone : state.findConversation ⟨key, id⟩ = none := by
            rwa [Option.isSome_eq_false_iff, Option.isNone_iff_eq_none] at hduplicate
          exact .inr ⟨hnone, rfl⟩

theorem switch_meets (hgood : state.Good) (target : AiConversationTarget) :
    Meets (switchAiConversation U state target) fun after =>
      after.Good ∧ (state.Holds target → after.IsVisible target) ∧
        LeavesOthers (some target) state after := by
  refine Meets.bind (assertTarget_meets target) fun _ _ hclean => ?_
  cases hscopeFind : state.findScope target.scopeKey with
  | none =>
      exact Meets.pure ⟨hgood, fun hholds => absurd hholds (not_holds_of_findScope hgood hscopeFind),
        leavesOthers_refl hgood _⟩
  | some scope =>
      obtain ⟨hscope, hkey⟩ := (findScope_eq_some hgood).mp hscopeFind
      cases hfind : state.findConversation target with
      | none =>
          refine Meets.pure ⟨hgood, fun hholds => ?_, leavesOthers_refl hgood _⟩
          rw [holds_iff_findConversation hgood, hfind] at hholds
          nomatch hholds
      | some conversation =>
          dsimp only [Option.isNone_some]
          rw [if_neg Bool.false_ne_true]
          split_ifs with hsame
          · exact Meets.pure ⟨hgood, fun _ => ⟨scope, hscope, hkey.trans hsame.1.symm,
              by rw [hkey, hsame.2]⟩, leavesOthers_refl hgood _⟩
          · rw [modifyConversation_modifyScope]
            case hkey => exact fun _ => rfl
            have hdraft : Drafted (MutableState.modifyScope
                { state.draft with activeScopeKey := target.scopeKey } target.scopeKey fun scope =>
                  AiConversationScopeState.modifyConversation { scope with
                    activeConversationId := target.conversationId
                    updatedOrder := state.revision + 1 } target.conversationId fun conversation =>
                      { conversation with updatedOrder := state.revision + 1 })
                [targetKey target.scopeKey target.conversationId] := by
              refine ⟨sound_modifyScope hgood (fun _ => rfl) (fun other hother hotherKey => ?_)
                (fun other hother hotherKey => ?_), evictable_modifyScope hgood
                  fun other hother _ => .inl ?_, fewKeys_singleton hclean, .inr ?_⟩
              · have hsound := hgood.sound.scopes other hother
                have hheld : target.conversationId ∈ other.conversations.map (·.id) := by
                  obtain ⟨found, hfound, hfoundKey, hmem, hid⟩ :=
                    (findConversation_eq_some hgood).mp hfind
                  rw [eq_of_key_eq_of_nodup hgood.sound.keys_nodup hother hfound
                    (hotherKey.trans hfoundKey.symm)]
                  exact List.mem_map.mpr ⟨conversation, hmem, hid⟩
                have hopened : AiConversationScopeState.Sound { other with
                    activeConversationId := target.conversationId
                    updatedOrder := state.revision + 1 } :=
                  ⟨hsound.key_clean, hsound.ids_nodup, hheld, hsound.conversations⟩
                exact sound_modifyConversation hopened _ (fun _ => rfl) fun c hc _ =>
                  ⟨(hsound.conversations c hc).ids_nodup, (hsound.conversations c hc).ordered,
                    (hsound.conversations c hc).title_le⟩
              · exact orders_modifyConversation fun _ _ _ => (List.sublist_append_right _ _).subperm
              · exact length_modifyFirst.le.trans (hgood.bounded.conversations other hother)
              · refine ⟨_, mem_modifyScope hgood hscope, ?_⟩
                rw [if_pos hkey]
                exact hkey
            refine (finish_meets hdraft).weaken fun after hafter =>
              ⟨hafter.1, fun _ => hafter.2.active _ ⟨_, mem_modifyScope hgood hscope, ?_, ?_⟩,
                leavesOthers_of_kept hafter.2 ?_⟩
            · rw [if_pos hkey]
              exact hkey
            · rw [if_pos hkey]
              exact congrArg (fun k => (⟨k, target.conversationId⟩ : AiConversationTarget)) hkey.symm
            · refine leavesOthers_modifyScope hgood (fun _ => rfl)
                fun other hother hotherKey c hc htarget => .inl ?_
              rcases mem_modifyFirst hc with hmem | ⟨before, hmem, hp, rfl⟩
              · exact hmem
              · have hbefore : before.id = target.conversationId := by simpa using hp
                refine absurd ?_ htarget
                show some target = some ⟨target.scopeKey, before.id⟩
                rw [hbefore]

/-- What is left of a scope that a conversation leaves. -/
theorem scopeWithout_meets {scope : AiConversationScopeState} (hscope : scope.Sound)
    (hlength : scope.conversations.length ≤ maxAiConversationsPerScope) (id replacementId : JsText)
    (order : ℕ) :
    Meets (scopeWithout U scope id replacementId order) fun scope' =>
      scope'.Sound ∧ scope'.key = scope.key ∧ scope'.orders <+ scope.orders ∧
        scope'.conversations.length ≤ maxAiConversationsPerScope ∧
        (scope.activeConversationId ≠ id →
          scope'.activeConversationId = scope.activeConversationId) ∧
        ((∀ conversation ∈ scope'.conversations, conversation ∈ scope.conversations) ∨
          scope.conversations.filter (·.id ≠ id) = [] ∧
            ∀ conversation ∈ scope'.conversations, conversation.messages = []) := by
  unfold scopeWithout
  by_cases hempty : (scope.conversations.filter (·.id ≠ id)).isEmpty = true
  · rw [if_pos hempty]
    refine Meets.bind (newConversation_meets replacementId order) ?_
    rintro _ - rfl
    refine Meets.pure ⟨⟨hscope.key_clean, List.nodup_singleton _, List.mem_singleton_self _,
      fun c hc => ?_⟩, rfl, List.nil_sublist _, Nat.succ_le_succ (Nat.zero_le 7), fun hne => ?_,
      .inr ⟨List.isEmpty_iff.mp hempty, fun c hc => ?_⟩⟩
    · rw [List.mem_singleton.mp hc]
      exact sound_emptyConversation _ _
    · obtain ⟨active, hactive, hid⟩ := List.mem_map.mp hscope.active_mem
      have hmem : active ∈ scope.conversations.filter (·.id ≠ id) :=
        List.mem_filter.mpr ⟨hactive, by rw [hid]; simpa using hne⟩
      rw [List.isEmpty_iff.mp hempty] at hmem
      nomatch hmem
    · rw [List.mem_singleton.mp hc]
  · rw [if_neg hempty]
    have hne : (scope.removeConversation id).conversations ≠ [] := fun h =>
      hempty (List.isEmpty_iff.mpr h)
    have hsound : (scope.removeConversation id).Sound :=
      hscope.of_remains removeConversation_remains
        (active_mem_removeConversation hscope.active_mem hne)
    refine Meets.pure ⟨⟨hsound.key_clean, hsound.ids_nodup, hsound.active_mem,
      hsound.conversations⟩, rfl, ?_, ?_, removeConversation_active, .inl fun c hc => ?_⟩
    · exact List.filter_sublist.flatMap _
    · exact (List.length_filter_le _ _).trans hlength
    · exact List.mem_of_mem_filter hc

/-- A scope that goes with its last conversation is not the visible one. -/
theorem drafted_withoutScope (hgood : state.Good) {key : JsText} (hkey : state.activeScopeKey ≠ key) :
    Drafted { state.draft with scopes := state.scopes.filter (·.key ≠ key) } [] := by
  have hsub : state.scopes.filter (·.key ≠ key) <+ state.scopes := List.filter_sublist
  have hdraft := sound_draft hgood state.activeScopeKey
  refine ⟨⟨hdraft.keys_nodup.sublist (hsub.map _), fun scope hscope =>
    hdraft.scopes scope (hsub.subset hscope), hdraft.orders_nodup.sublist (hsub.flatMap _),
    fun order horder => hdraft.orders_le order ((hsub.flatMap _).subset horder)⟩,
    fun scope hscope => .inl (hgood.bounded.conversations scope (hsub.subset hscope)), fewKeys_nil, ?_⟩
  rcases hgood.visible with hnil | ⟨scope, hscope, hvisible⟩
  · refine .inl ?_
    show state.scopes.filter _ = []
    rw [hnil, List.filter_nil]
  · exact .inr ⟨scope, List.mem_filter.mpr ⟨hscope, by simpa [hvisible] using hkey⟩, hvisible⟩

theorem delete_meets (hgood : state.Good) (target : AiConversationTarget)
    (conversationId : Option JsText) (uuid : JsText) :
    Meets (deleteAiConversation U state target conversationId uuid) fun after =>
      after.Good ∧ (∀ visible, state.IsVisible visible → visible ≠ target →
        after.IsVisible visible) ∧ LeavesOthers (some target) state after := by
  refine Meets.bind (assertTarget_meets target) fun _ _ hclean => ?_
  cases hscopeFind : state.findScope target.scopeKey with
  | none => exact Meets.pure ⟨hgood, fun _ h _ => h, leavesOthers_refl hgood _⟩
  | some scope =>
      obtain ⟨hscope, hkey⟩ := (findScope_eq_some hgood).mp hscopeFind
      dsimp only
      by_cases hnone : (state.findConversation target).isNone = true
      · rw [if_pos hnone]
        exact Meets.pure ⟨hgood, fun _ h _ => h, leavesOthers_refl hgood _⟩
      rw [if_neg hnone]
      split_ifs with hlast
      · refine (finish_meets (drafted_withoutScope hgood hlast.2)).weaken fun after hafter =>
          ⟨hafter.1, fun visible hvisible _ => hafter.2.active _ ?_, leavesOthers_of_kept hafter.2 ?_⟩
        · obtain ⟨other, hother, hotherKey, rfl⟩ := hvisible
          refine ⟨other, List.mem_filter.mpr ⟨hother, ?_⟩, hotherKey, rfl⟩
          have hne : other.key ≠ target.scopeKey := fun h => hlast.2 (hotherKey.symm.trans h)
          simpa using hne
        · intro other hother
          exact leavesOthers_refl hgood (some target) other (List.mem_of_mem_filter hother)
      · refine Meets.bind (scopeWithout_meets (hgood.sound.scopes scope hscope)
          (hgood.bounded.conversations scope hscope) target.conversationId _ _)
            fun scope' _ hscope' => ?_
        obtain ⟨hsound, hkey', horders, hlength, hactive, hconversations⟩ := hscope'
        have hunique : ∀ other ∈ state.scopes, other.key = target.scopeKey → other = scope :=
          fun other hother hotherKey => eq_of_key_eq_of_nodup hgood.sound.keys_nodup hother hscope
            (hotherKey.trans hkey.symm)
        have hreplace : state.draft.modifyScope target.scopeKey (fun _ => scope') =
            state.draft.modifyScope target.scopeKey fun other => { scope' with key := other.key } :=
          congrArg (fun scopes => { state.draft with scopes })
            (modifyFirst_congr fun other hother hp => by
              rw [hunique other hother (by simpa using hp), ← hkey'])
        rw [hreplace]
        have hdraft : Drafted (state.draft.modifyScope target.scopeKey fun other =>
            { scope' with key := other.key })
            [targetKey scope'.key scope'.activeConversationId] := by
          refine ⟨sound_modifyScope hgood (fun _ => rfl) (fun other hother hotherKey => ?_)
            (fun other hother hotherKey => ?_), evictable_modifyScope hgood
              fun _ _ _ => .inl hlength, fewKeys_singleton hsound.key_clean, ?_⟩
          · rw [hunique other hother hotherKey, ← hkey']
            exact hsound
          · rw [hunique other hother hotherKey]
            exact (horders.trans (List.sublist_append_right _ _)).subperm
          · rcases hgood.visible with hnil | ⟨other, hother, hotherKey⟩
            · rw [hnil] at hscope
              nomatch hscope
            · refine .inr ⟨_, mem_modifyScope hgood hother, ?_⟩
              split_ifs <;> exact hotherKey
        refine (finish_meets hdraft).weaken fun after hafter =>
          ⟨hafter.1, fun visible hvisible hne => hafter.2.active _ ?_, leavesOthers_of_kept hafter.2 ?_⟩
        · obtain ⟨other, hother, hotherKey, rfl⟩ := hvisible
          refine ⟨_, mem_modifyScope hgood hother, ?_, ?_⟩
          · split_ifs <;> exact hotherKey
          · split_ifs with hsame
            · obtain rfl := hunique other hother hsame
              have hid : other.activeConversationId ≠ target.conversationId := fun h =>
                hne (by rw [h, hsame])
              show (⟨other.key, _⟩ : AiConversationTarget) = ⟨other.key, scope'.activeConversationId⟩
              rw [hactive hid]
            · rfl
        · refine leavesOthers_modifyScope hgood (fun _ => rfl) fun other hother hotherKey c hc hc' => ?_
          obtain rfl := hunique other hother hotherKey
          rcases hconversations with hold | ⟨hempty, hmessages⟩
          · exact .inl (hold c hc)
          · refine .inr ⟨?_, hmessages c hc⟩
            -- every conversation of the scope has the id of the target
            refine Option.not_isSome_iff_eq_none.mp fun hsome => ?_
            obtain ⟨found, hfound⟩ := Option.isSome_iff_exists.mp hsome
            obtain ⟨foundScope, hfoundScope, hfoundKey, hmem, hid⟩ :=
              (findConversation_eq_some hgood).mp hfound
            obtain rfl := hunique foundScope hfoundScope hfoundKey
            have hfilter : found ∈ foundScope.conversations.filter (·.id ≠ target.conversationId) :=
              List.mem_filter.mpr ⟨hmem, by
                have hfoundId : found.id = c.id := hid
                have : found.id ≠ target.conversationId := fun h =>
                  hc' (by rw [← hfoundId, h])
                simpa using this⟩
            rw [hempty] at hfilter
            nomatch hfilter

end Conversations

/-! ### Every call -/

namespace AiConversationCall

/-- The conversation that a call writes, opens or deletes. -/
def target : AiConversationCall → Option AiConversationTarget
  | activate .. | create .. => none
  | switch target | delete target .. | append target _ | update target .. | deleteMessage target _ =>
      some target

/-- The conversations that a call is about are there afterwards. -/
def Keeps (U : UnicodeTables) (before after : AiConversationState) : AiConversationCall → Prop
  | activate terminalScope options _ =>
      ∃ key, aiConversationScopeKey U terminalScope = .ok key ∧
        Activates key options.protectedTargets before after
  | create scopeKey conversationId uuid =>
      after.IsVisible ⟨scopeKey.getD before.activeScopeKey,
        conversationId.getD (makeConversationId uuid)⟩
  | switch target => before.Holds target → after.IsVisible target
  | delete target .. =>
      ∀ visible, before.IsVisible visible → visible ≠ target → after.IsVisible visible
  | append target _ | update target .. | deleteMessage target _ =>
      (before.Holds target → after.Holds target) ∧
        ∀ visible, before.IsVisible visible → after.IsVisible visible

end AiConversationCall

theorem apply_meets {state : AiConversationState} (hgood : state.Good) (call : AiConversationCall)
    (hfew : call.FewProtected) :
    Meets (call.apply U state) fun after =>
      after.Good ∧ call.Keeps U state after ∧ LeavesOthers call.target state after := by
  cases call with
  | activate terminalScope options uuid => exact activate_meets hgood terminalScope options uuid hfew
  | create scopeKey conversationId uuid => exact create_meets hgood scopeKey conversationId uuid
  | switch target => exact switch_meets hgood target
  | delete target conversationId uuid => exact delete_meets hgood target conversationId uuid
  | append target input => exact append_meets hgood target input
  | update target messageId input => exact update_meets hgood target messageId input
  | deleteMessage target messageId => exact deleteMessage_meets hgood target messageId

theorem good_of_reachable {state : AiConversationState} (h : Reachable U state) : state.Good := by
  induction h with
  | start => exact good_createAiConversationState
  | call _ hfew happly ih =>
      have hmeets := apply_meets (U := U) ih _ hfew
      rw [happly] at hmeets
      exact hmeets.1

/-- Tables without format characters and without compatibility forms. -/
def plainTables : UnicodeTables := ⟨fun _ => false, id⟩

end Netcatty.Ai
