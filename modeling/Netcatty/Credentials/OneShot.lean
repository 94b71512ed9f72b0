import Netcatty.Credentials.Ephemeral

/-! # One shot

Every run from an empty store keeps `Ledger`, which relates the entries to the insertions and the
deliveries so far.  It follows that a secret is delivered at most once, to its owner and before it
expires (`OneShot`), and that the limits are kept (`WithinLimits`); what single calls remove and
refuse is `CallLaws`. -/

namespace Netcatty.Credentials

open Runs
open Vault (Text utf8Len)

/-! ### Insertions and deliveries -/

structure Insertion where
  reference : EphemeralCredentialReference
  owner : Text
  secret : SecretValue
  now : ℕ

/-- A secret that a call has returned for a reference. -/
structure Delivery where
  reference : EphemeralCredentialReference
  owner : Text
  secret : SecretValue
  now : ℕ

namespace Event

variable (event : Event)

def insertions : List Insertion :=
  match event.call, event.answer with
  | .insert owner secret _, .inserted (.ok reference) => [⟨reference, owner, secret, event.now⟩]
  | _, _ => []

def deliveries : List Delivery :=
  match event.call, event.answer with
  | .take owner reference, .taken (.ok secret) => [⟨reference, owner, secret, event.now⟩]
  | .takeMany owner references, .takenMany (.ok secrets) =>
      (references.zip secrets).map fun (reference, secret) =>
        ⟨reference, owner, secret, event.now⟩
  | _, _ => []

/-- What the generator has drawn. -/
def candidates : List EphemeralCredentialReference :=
  match event.call with
  | .insert _ _ candidates => candidates
  | _ => []

end Event

def insertions (events : List Event) : List Insertion := events.flatMap Event.insertions

def deliveries (events : List Event) : List Delivery := events.flatMap Event.deliveries

def candidates (events : List Event) : List EphemeralCredentialReference :=
  events.flatMap Event.candidates

/-- Each delivery is that of an insertion, to its owner and before it expires, and none is the
second of its insertion. -/
structure OneShot (ttl : ℕ) (events : List Event) : Prop where
  inserted : ∀ delivery ∈ deliveries events, ∃ insertion ∈ insertions events,
    insertion.reference = delivery.reference ∧ insertion.owner = delivery.owner ∧
      insertion.secret = delivery.secret ∧ delivery.now < insertion.now + ttl
  once : ((deliveries events).map Delivery.reference).Nodup
  distinct : ((insertions events).map Insertion.reference).Nodup

structure WithinLimits (limits : EphemeralLimits) (s : EphemeralState) : Prop where
  entries : s.entries.length ≤ limits.globalEntries
  perOwner : ∀ owner, s.ownerEntries owner ≤ limits.entriesPerOwner
  bytes : s.totalSecretBytes ≤ limits.totalSecretBytes

/-- What a call removes, returns and refuses. -/
def CallLaws (limits : EphemeralLimits) (now : ℕ) (s t : EphemeralState) : Call → Answer → Prop
  | .insert owner secret _, .inserted (.error _) =>
      InvalidOwner owner ∨ (s.unexpired now).isFull limits owner secret
  | .takeMany _ _, .takenMany (.error _) | .take _ _, .taken (.error _) =>
      ∀ entry ∈ s.entries, now < entry.expiresAt → entry ∈ t.entries
  | .takeMany _ references, .takenMany (.ok secrets) =>
      List.Forall₂ (HasSecret s) references secrets ∧
        t.entries = s.entries.filter fun entry => entry.reference ∉ references
  | .take _ reference, .taken (.ok secret) =>
      HasSecret s reference secret ∧
        t.entries = s.entries.filter fun entry => entry.reference ≠ reference
  | .purgeOwner owner, _ => ∀ entry ∈ s.entries, entry.owner ≠ owner → entry ∈ t.entries
  | .purgeExpired, _ | .expire _, _ =>
      ∀ entry ∈ s.entries, now < entry.expiresAt → entry ∈ t.entries
  | _, _ => True

/-! ### One call -/

@[simp] theorem EphemeralState.retain_true (s : EphemeralState) :
    (s.retain fun _ => true) = s := by
  simp [EphemeralState.retain]

/-- What a call does to the entries, next to what it has inserted and delivered. -/
inductive Change (store : EphemeralCredentialStore) (event : Event) (t : EphemeralState) : Prop
  | kept (keep : EphemeralEntry → Bool) (state : t = store.state.retain keep)
      (insertions : event.insertions = []) (deliveries : event.deliveries = [])
  | delivered (insertions : event.insertions = [])
      (state : t = store.state.retain fun entry =>
        entry.reference ∉ event.deliveries.map Delivery.reference)
      (nodup : (event.deliveries.map Delivery.reference).Nodup)
      (entry : ∀ delivery ∈ event.deliveries, ∃ entry ∈ store.state.entries,
        entry.reference = delivery.reference ∧ entry.owner = delivery.owner ∧
          entry.secret = delivery.secret ∧ delivery.now < entry.expiresAt)
  | inserted (reference : EphemeralCredentialReference) (owner : Text) (secret : SecretValue)
      (hfree : (store.state.unexpired event.now).get reference = none)
      (drawn : reference ∈ event.candidates)
      (room : ¬ (store.state.unexpired event.now).isFull store.limits owner secret)
      (state : t = (store.state.unexpired event.now).insert reference hfree owner
        (event.now + store.ttl) secret)
      (insertions : event.insertions = [⟨reference, owner, secret, event.now⟩])
      (deliveries : event.deliveries = [])

section Calls

variable {store store' : EphemeralCredentialStore} {now : ℕ} {call : Call} {answer : Answer}

/-- The entries that are left where at most one that has expired is removed. -/
theorem exists_retain_of_expired {s state : EphemeralState}
    (h : state = s ∨ ∃ entry ∈ s.entries, entry.expiresAt ≤ now ∧
      state = s.remove entry.reference) :
    (∃ keep, state = s.retain keep) ∧
      ∀ entry ∈ s.entries, now < entry.expiresAt → entry ∈ state.entries := by
  obtain rfl | ⟨gone, hgone, hexpired, rfl⟩ := h
  · exact ⟨⟨fun _ => true, by simp⟩, fun entry hentry _ => hentry⟩
  · refine ⟨⟨_, rfl⟩, fun entry hentry hlive => ?_⟩
    rw [EphemeralState.mem_remove]
    refine ⟨hentry, fun hreference => ?_⟩
    have heq : entry = gone := Catalog.eq_of_key_eq s.nodup hentry hgone hreference
    rw [heq] at hlive
    omega

/-- A secret that is found for a reference that can be taken. -/
theorem entry_of_takeable {s : EphemeralState} {owner : Text}
    {reference : EphemeralCredentialReference} {secret : SecretValue}
    (htakeable : Takeable s now owner reference) (hsecret : HasSecret s reference secret) :
    ∃ entry ∈ s.entries, entry.reference = reference ∧ entry.owner = owner ∧
      entry.secret = secret ∧ now < entry.expiresAt := by
  obtain ⟨entry, hentry, hreference, hlive, howner⟩ := htakeable
  obtain ⟨found, hfound, hreference', rfl⟩ := hsecret
  have heq : found = entry :=
    Catalog.eq_of_key_eq s.nodup hfound hentry (hreference'.trans hreference.symm)
  exact ⟨entry, hentry, hreference, howner, by rw [heq], hlive⟩

theorem map_reference_zip (now : ℕ) {references : List EphemeralCredentialReference}
    {secrets : List SecretValue} (hlength : references.length = secrets.length) (owner : Text) :
    ((references.zip secrets).map fun (reference, secret) =>
      (⟨reference, owner, secret, now⟩ : Delivery)).map Delivery.reference = references := by
  rw [List.map_map]
  exact List.map_fst_zip hlength.le

theorem mem_zip_deliveries {s : EphemeralState} {references : List EphemeralCredentialReference}
    {secrets : List SecretValue} {owner : Text} {delivery : Delivery}
    (hsecrets : List.Forall₂ (HasSecret s) references secrets)
    (htakeable : ∀ reference ∈ references, Takeable s now owner reference)
    (hmem : delivery ∈ (references.zip secrets).map fun (reference, secret) =>
      (⟨reference, owner, secret, now⟩ : Delivery)) :
    ∃ entry ∈ s.entries, entry.reference = delivery.reference ∧ entry.owner = delivery.owner ∧
      entry.secret = delivery.secret ∧ delivery.now < entry.expiresAt := by
  obtain ⟨⟨reference, secret⟩, hzip, rfl⟩ := List.mem_map.mp hmem
  exact entry_of_takeable (htakeable reference (List.of_mem_zip hzip).1)
    ((List.forall₂_iff_zip.mp hsecrets).2 hzip)

/-- **What a call can do.** -/
theorem change_of_perform (h : store.perform now call = some (answer, store')) :
    Change store ⟨now, call, answer⟩ store'.state ∧ store'.ttl = store.ttl ∧
      store'.limits = store.limits := by
  cases call with
  | insert owner secret candidates =>
      obtain ⟨⟨result, found⟩, hinsert, heq⟩ := Option.map_eq_some_iff.mp h
      cases heq
      obtain ⟨_, rfl, rfl⟩ | ⟨_, rfl, rfl⟩ | ⟨reference, hfree, hdrawn, _, hroom, rfl, hstate, httl,
        hlimits⟩ := insert_cases hinsert
      · exact ⟨.kept (fun _ => true) (by simp) rfl rfl, rfl, rfl⟩
      · exact ⟨.kept _ rfl rfl rfl, rfl, rfl⟩
      · exact ⟨.inserted reference owner secret hfree hdrawn hroom hstate rfl rfl, httl, hlimits⟩
  | take owner reference =>
      obtain ⟨⟨result, found⟩, htake, heq⟩ := Option.map_eq_some_iff.mp h
      cases heq
      obtain ⟨code, found, hmany, htake'⟩ | ⟨secret, found, hmany, htake'⟩ :=
        take_eq store now owner reference
      · rw [htake'] at htake
        cases htake
        obtain ⟨state, rfl, hstate⟩ := takeMany_error hmany
        obtain ⟨⟨keep, hkeep⟩, -⟩ := exists_retain_of_expired hstate
        exact ⟨.kept keep hkeep rfl rfl, rfl, rfl⟩
      · rw [htake'] at htake
        cases htake
        obtain ⟨-, htakeable, hsecrets, rfl⟩ := takeMany_ok hmany
        refine ⟨.delivered rfl rfl (List.nodup_singleton _) fun delivery hdelivery => ?_, rfl, rfl⟩
        obtain rfl := List.mem_singleton.mp hdelivery
        cases hsecrets with
        | cons hsecret _ => exact entry_of_takeable (htakeable reference List.mem_cons_self) hsecret
  | takeMany owner references =>
      obtain ⟨⟨result, found⟩, hmany, heq⟩ := Option.map_eq_some_iff.mp h
      cases heq
      cases result with
      | error code =>
          obtain ⟨state, rfl, hstate⟩ := takeMany_error hmany
          obtain ⟨⟨keep, hkeep⟩, -⟩ := exists_retain_of_expired hstate
          exact ⟨.kept keep hkeep rfl rfl, rfl, rfl⟩
      | ok secrets =>
          obtain ⟨hnodup, htakeable, hsecrets, rfl⟩ := takeMany_ok hmany
          have hmap := map_reference_zip now hsecrets.length_eq owner
          refine ⟨.delivered rfl ?_ ?_ fun delivery hdelivery =>
            mem_zip_deliveries hsecrets htakeable hdelivery, rfl, rfl⟩
          · simp only [Event.deliveries, hmap]
          · simp only [Event.deliveries, hmap]
            exact hnodup
  | purgeOwner owner =>
      cases h
      exact ⟨.kept _ rfl rfl rfl, rfl, rfl⟩
  | purgeExpired =>
      cases h
      exact ⟨.kept _ rfl rfl rfl, rfl, rfl⟩
  | expire task =>
      obtain ⟨⟨removed, found⟩, hexpire, heq⟩ := Option.map_eq_some_iff.mp h
      cases heq
      obtain ⟨state, rfl, hstate⟩ := expire_spec hexpire
      obtain ⟨⟨keep, hkeep⟩, -⟩ := exists_retain_of_expired hstate
      exact ⟨.kept keep hkeep rfl rfl, rfl, rfl⟩

theorem callLaws_of_perform (h : store.perform now call = some (answer, store')) :
    CallLaws store.limits now store.state store'.state call answer := by
  cases call with
  | insert owner secret candidates =>
      obtain ⟨⟨result, found⟩, hinsert, heq⟩ := Option.map_eq_some_iff.mp h
      cases heq
      obtain ⟨howner, rfl, -⟩ | ⟨hfull, rfl, -⟩ | ⟨_, _, _, _, _, rfl, _⟩ := insert_cases hinsert
      · exact .inl howner
      · exact .inr hfull
      · trivial
  | take owner reference =>
      obtain ⟨⟨result, found⟩, htake, heq⟩ := Option.map_eq_some_iff.mp h
      cases heq
      obtain ⟨code, found, hmany, htake'⟩ | ⟨secret, found, hmany, htake'⟩ :=
        take_eq store now owner reference
      · rw [htake'] at htake
        cases htake
        obtain ⟨state, rfl, hstate⟩ := takeMany_error hmany
        exact (exists_retain_of_expired hstate).2
      · rw [htake'] at htake
        cases htake
        obtain ⟨-, -, hsecrets, rfl⟩ := takeMany_ok hmany
        cases hsecrets with
        | cons hsecret _ => exact ⟨hsecret, by simp⟩
  | takeMany owner references =>
      obtain ⟨⟨result, found⟩, hmany, heq⟩ := Option.map_eq_some_iff.mp h
      cases heq
      cases result with
      | error code =>
          obtain ⟨state, rfl, hstate⟩ := takeMany_error hmany
          exact (exists_retain_of_expired hstate).2
      | ok secrets =>
          obtain ⟨-, -, hsecrets, rfl⟩ := takeMany_ok hmany
          exact ⟨hsecrets, rfl⟩
  | purgeOwner owner =>
      cases h
      intro entry hentry howner
      simpa [EphemeralCredentialStore.purgeOwner] using ⟨hentry, howner⟩
  | purgeExpired =>
      cases h
      exact fun entry hentry hlive => EphemeralState.mem_unexpired.mpr ⟨hentry, hlive⟩
  | expire task =>
      obtain ⟨⟨removed, found⟩, hexpire, heq⟩ := Option.map_eq_some_iff.mp h
      cases heq
      obtain ⟨state, rfl, hstate⟩ := expire_spec hexpire
      exact (exists_retain_of_expired hstate).2

end Calls

/-! ### Limits -/

section Limits

variable {s : EphemeralState}

theorem WithinLimits.retain {limits : EphemeralLimits} (h : WithinLimits limits s)
    (keep : EphemeralEntry → Bool) : WithinLimits limits (s.retain keep) where
  entries := (List.length_filter_le _ _).trans h.entries
  perOwner owner := by
    have hsub : ((s.entries.filter keep).filter (·.owner = owner)).Sublist
        (s.entries.filter (·.owner = owner)) := List.filter_sublist.filter _
    exact hsub.length_le.trans (h.perOwner owner)
  bytes := by
    have hsum : ((s.entries.filter keep).map fun entry => entry.secret.len).sum ≤
        (s.entries.map fun entry => entry.secret.len).sum := by
      induction s.entries with
      | nil => exact Nat.le_refl _
      | cons entry entries ih =>
          rw [List.filter_cons]
          cases keep entry with
          | true =>
              simp only [if_true, List.map_cons, List.sum_cons]
              omega
          | false =>
              simp only [Bool.false_eq_true, if_false, List.map_cons, List.sum_cons]
              omega
    exact hsum.trans h.bytes

theorem WithinLimits.insert {limits : EphemeralLimits} (h : WithinLimits limits s)
    {reference : EphemeralCredentialReference} {hfree : s.get reference = none} {owner : Text}
    {expiresAt : ℕ} {secret : SecretValue} (hroom : ¬ s.isFull limits owner secret) :
    WithinLimits limits (s.insert reference hfree owner expiresAt secret) := by
  simp only [EphemeralState.isFull, not_or, Nat.not_le, Nat.not_lt] at hroom
  obtain ⟨hentries, howner, hbytes⟩ := hroom
  refine ⟨hentries, fun other => ?_, ?_⟩
  · by_cases hother : owner = other
    · subst hother
      simp only [EphemeralState.ownerEntries, EphemeralState.insert, decide_true,
        List.filter_cons_of_pos, List.length_cons] at howner ⊢
      omega
    · have hfilter : (s.insert reference hfree owner expiresAt secret).ownerEntries other =
          s.ownerEntries other := by
        simp [EphemeralState.ownerEntries, EphemeralState.insert, hother]
      rw [hfilter]
      exact h.perOwner other
  · simp only [EphemeralState.totalSecretBytes, EphemeralState.insert, List.map_cons,
      List.sum_cons] at hbytes ⊢
    omega

end Limits

/-! ### Runs -/

section Runs

variable {events : List Event} {event : Event}

theorem insertions_concat :
    insertions (events ++ [event]) = insertions events ++ event.insertions := by
  simp [insertions]

theorem deliveries_concat :
    deliveries (events ++ [event]) = deliveries events ++ event.deliveries := by
  simp [deliveries]

theorem candidates_concat :
    candidates (events ++ [event]) = candidates events ++ event.candidates := by
  simp [candidates]

/-- How the entries are related to what has been inserted and delivered. -/
structure Ledger (limits : EphemeralLimits) (ttl : ℕ) (events : List Event)
    (store : EphemeralCredentialStore) : Prop where
  ttl_eq : store.ttl = ttl
  limits_eq : store.limits = limits
  within : WithinLimits limits store.state
  entry : ∀ entry ∈ store.state.entries, ∃ insertion ∈ insertions events,
    insertion.reference = entry.reference ∧ insertion.owner = entry.owner ∧
      insertion.secret = entry.secret ∧ entry.expiresAt = insertion.now + ttl
  gone : ∀ delivery ∈ deliveries events, ∀ entry ∈ store.state.entries,
    entry.reference ≠ delivery.reference
  drawn : ∀ insertion ∈ insertions events, insertion.reference ∈ candidates events
  oneShot : OneShot ttl events

variable {limits : EphemeralLimits} {ttl : ℕ} {store store' : EphemeralCredentialStore}

theorem OneShot.concat (h : OneShot ttl events) (hinsertions : event.insertions = [])
    (hdeliveries : event.deliveries = []) : OneShot ttl (events ++ [event]) := by
  refine ⟨?_, ?_, ?_⟩
  · rw [deliveries_concat, insertions_concat, hinsertions, hdeliveries, List.append_nil,
      List.append_nil]
    exact h.inserted
  · rw [deliveries_concat, hdeliveries, List.append_nil]
    exact h.once
  · rw [insertions_concat, hinsertions, List.append_nil]
    exact h.distinct

theorem Ledger.kept (h : Ledger limits ttl events store) (httl : store'.ttl = store.ttl)
    (hlimits : store'.limits = store.limits) {keep : EphemeralEntry → Bool}
    (hstate : store'.state = store.state.retain keep) (hinsertions : event.insertions = [])
    (hdeliveries : event.deliveries = []) : Ledger limits ttl (events ++ [event]) store' where
  ttl_eq := httl.trans h.ttl_eq
  limits_eq := hlimits.trans h.limits_eq
  within := by
    rw [hstate]
    exact h.within.retain keep
  entry := by
    rw [insertions_concat, hinsertions, List.append_nil, hstate]
    exact fun entry hentry => h.entry entry (List.mem_of_mem_filter hentry)
  gone := by
    rw [deliveries_concat, hdeliveries, List.append_nil, hstate]
    exact fun delivery hdelivery entry hentry =>
      h.gone delivery hdelivery entry (List.mem_of_mem_filter hentry)
  drawn := by
    rw [insertions_concat, hinsertions, List.append_nil, candidates_concat]
    exact fun insertion hinsertion => List.mem_append_left _ (h.drawn insertion hinsertion)
  oneShot := h.oneShot.concat hinsertions hdeliveries

/-- What is delivered was in the store, and therefore has not been delivered before. -/
theorem Ledger.delivered (h : Ledger limits ttl events store) (httl : store'.ttl = store.ttl)
    (hlimits : store'.limits = store.limits) (hinsertions : event.insertions = [])
    (hstate : store'.state = store.state.retain fun entry =>
      entry.reference ∉ event.deliveries.map Delivery.reference)
    (hnodup : (event.deliveries.map Delivery.reference).Nodup)
    (hentry : ∀ delivery ∈ event.deliveries, ∃ entry ∈ store.state.entries,
      entry.reference = delivery.reference ∧ entry.owner = delivery.owner ∧
        entry.secret = delivery.secret ∧ delivery.now < entry.expiresAt) :
    Ledger limits ttl (events ++ [event]) store' where
  ttl_eq := httl.trans h.ttl_eq
  limits_eq := hlimits.trans h.limits_eq
  within := by
    rw [hstate]
    exact h.within.retain _
  entry := by
    rw [insertions_concat, hinsertions, List.append_nil, hstate]
    exact fun entry hentry => h.entry entry (List.mem_of_mem_filter hentry)
  gone := by
    rw [deliveries_concat, hstate]
    intro delivery hdelivery entry hmem
    obtain ⟨hmem, hkept⟩ := List.mem_filter.mp hmem
    obtain hdelivery | hdelivery := List.mem_append.mp hdelivery
    · exact h.gone delivery hdelivery entry hmem
    · intro heq
      have hnot := of_decide_eq_true hkept
      exact hnot (List.mem_map.mpr ⟨delivery, hdelivery, heq.symm⟩)
  drawn := by
    rw [insertions_concat, hinsertions, List.append_nil, candidates_concat]
    exact fun insertion hinsertion => List.mem_append_left _ (h.drawn insertion hinsertion)
  oneShot := by
    refine ⟨?_, ?_, ?_⟩
    · rw [deliveries_concat, insertions_concat, hinsertions, List.append_nil]
      intro delivery hdelivery
      obtain hdelivery | hdelivery := List.mem_append.mp hdelivery
      · exact h.oneShot.inserted delivery hdelivery
      · obtain ⟨entry, hmem, hreference, howner, hsecret, hlive⟩ := hentry delivery hdelivery
        obtain ⟨insertion, hinsertion, hreference', howner', hsecret', hexpires⟩ :=
          h.entry entry hmem
        exact ⟨insertion, hinsertion, hreference'.trans hreference, howner'.trans howner,
          hsecret'.trans hsecret, by omega⟩
    · rw [deliveries_concat, List.map_append, List.nodup_append]
      refine ⟨h.oneShot.once, hnodup, fun reference hbefore other hnow heq => ?_⟩
      subst heq
      obtain ⟨earlier, hearlier, rfl⟩ := List.mem_map.mp hbefore
      obtain ⟨delivery, hdelivery, hsame⟩ := List.mem_map.mp hnow
      obtain ⟨entry, hmem, hreference, -⟩ := hentry delivery hdelivery
      exact h.gone earlier hearlier entry hmem (hreference.trans hsame)
    · rw [insertions_concat, hinsertions, List.append_nil]
      exact h.oneShot.distinct

/-- A reference that is drawn anew has not been inserted, nor delivered. -/
theorem Ledger.inserted (h : Ledger limits ttl events store) (httl : store'.ttl = store.ttl)
    (hlimits : store'.limits = store.limits) {reference : EphemeralCredentialReference}
    {owner : Text} {secret : SecretValue}
    {hfree : (store.state.unexpired event.now).get reference = none}
    (hdrawn : reference ∈ event.candidates)
    (hroom : ¬ (store.state.unexpired event.now).isFull store.limits owner secret)
    (hstate : store'.state = (store.state.unexpired event.now).insert reference hfree owner
      (event.now + store.ttl) secret)
    (hinsertions : event.insertions = [⟨reference, owner, secret, event.now⟩])
    (hdeliveries : event.deliveries = [])
    (hfresh : (candidates (events ++ [event])).Nodup) :
    Ledger limits ttl (events ++ [event]) store' := by
  rw [candidates_concat, List.nodup_append] at hfresh
  have hnew : ∀ insertion ∈ insertions events, insertion.reference ≠ reference :=
    fun insertion hinsertion heq =>
      hfresh.2.2 _ (h.drawn insertion hinsertion) _ hdrawn heq
  have hentries : ∀ entry ∈ store'.state.entries, entry.reference = reference ∧
      entry = ⟨reference, owner, event.now + ttl, store'.state.nextGeneration, secret⟩ ∨
        entry ∈ store.state.entries := by
    intro entry hentry
    rw [hstate] at hentry
    obtain rfl | hentry := List.mem_cons.mp hentry
    · refine .inl ⟨rfl, ?_⟩
      rw [hstate, h.ttl_eq]
      rfl
    · exact .inr (EphemeralState.mem_unexpired.mp hentry).1
  refine ⟨httl.trans h.ttl_eq, hlimits.trans h.limits_eq, ?_, ?_, ?_, ?_, ⟨?_, ?_, ?_⟩⟩
  · rw [hstate]
    rw [h.limits_eq] at hroom
    exact (h.within.retain _).insert hroom
  · rw [insertions_concat, hinsertions]
    intro entry hentry
    obtain ⟨-, rfl⟩ | hentry := hentries entry hentry
    · exact ⟨_, List.mem_append_right _ (List.mem_singleton_self _), rfl, rfl, rfl, rfl⟩
    · obtain ⟨insertion, hinsertion, hrest⟩ := h.entry entry hentry
      exact ⟨insertion, List.mem_append_left _ hinsertion, hrest⟩
  · rw [deliveries_concat, hdeliveries, List.append_nil]
    intro delivery hdelivery entry hentry
    obtain ⟨hreference, -⟩ | hentry := hentries entry hentry
    · obtain ⟨insertion, hinsertion, heq, -⟩ := h.oneShot.inserted delivery hdelivery
      rw [hreference, ← heq]
      exact (hnew insertion hinsertion).symm
    · exact h.gone delivery hdelivery entry hentry
  · rw [insertions_concat, hinsertions, candidates_concat]
    intro insertion hinsertion
    obtain hinsertion | hinsertion := List.mem_append.mp hinsertion
    · exact List.mem_append_left _ (h.drawn insertion hinsertion)
    · obtain rfl := List.mem_singleton.mp hinsertion
      exact List.mem_append_right _ hdrawn
  · rw [deliveries_concat, hdeliveries, List.append_nil, insertions_concat]
    intro delivery hdelivery
    obtain ⟨insertion, hinsertion, hrest⟩ := h.oneShot.inserted delivery hdelivery
    exact ⟨insertion, List.mem_append_left _ hinsertion, hrest⟩
  · rw [deliveries_concat, hdeliveries, List.append_nil]
    exact h.oneShot.once
  · rw [insertions_concat, hinsertions, List.map_append, List.nodup_append]
    refine ⟨h.oneShot.distinct, List.nodup_singleton _, fun other hother this hthis heq => ?_⟩
    subst heq
    obtain ⟨insertion, hinsertion, rfl⟩ := List.mem_map.mp hother
    exact hnew insertion hinsertion (List.mem_singleton.mp hthis)

theorem Ledger.step {s t : System} (h : Ledger limits ttl events s.store)
    (hstep : Step s event t) (hfresh : (candidates (events ++ [event])).Nodup) :
    Ledger limits ttl (events ++ [event]) t.store := by
  obtain ⟨-, -, hperform⟩ := hstep
  obtain ⟨hchange, httl, hlimits⟩ := change_of_perform hperform
  cases hchange with
  | kept keep hstate hinsertions hdeliveries =>
      exact h.kept httl hlimits hstate hinsertions hdeliveries
  | delivered hinsertions hstate hnodup hentry =>
      exact h.delivered httl hlimits hinsertions hstate hnodup hentry
  | inserted reference owner secret hfree hdrawn hroom hstate hinsertions hdeliveries =>
      exact h.inserted httl hlimits hdrawn hroom hstate hinsertions hdeliveries hfresh

theorem ledger_new (ttl : ℕ) : Ledger .default ttl [] (.new ttl) where
  ttl_eq := rfl
  limits_eq := rfl
  within := ⟨Nat.zero_le _, fun _ => Nat.zero_le _, Nat.zero_le _⟩
  entry _ h := nomatch h
  gone _ h := nomatch h
  drawn _ h := nomatch h
  oneShot := ⟨fun _ h => (nomatch h), List.nodup_nil, List.nodup_nil⟩

theorem ledger_of_run {start : ℕ} {t : System} (hrun : Run Step ⟨start, .new ttl⟩ events t)
    (hfresh : (candidates events).Nodup) : Ledger .default ttl events t.store := by
  refine hrun.history (H := fun events t => (candidates events).Nodup →
    Ledger .default ttl events t.store) (fun _ => ledger_new ttl) ?_ hfresh
  intro events t event u ih hstep hfresh
  have hfresh' := hfresh
  rw [candidates_concat] at hfresh'
  exact (ih hfresh'.of_append_left).step hstep hfresh

end Runs

/-! ### The laws of a run -/

/-- **Ephemeral credentials are one-shot, owner-bound and bounded**, and a valid owner is refused
only where the unexpired entries leave no room. -/
theorem ephemeral_credentials_one_shot {ttl start : ℕ} {events : List Event} {t : System}
    (hrun : Run Step ⟨start, .new ttl⟩ events t) (hfresh : (candidates events).Nodup) :
    OneShot ttl events ∧ WithinLimits .default t.store.state ∧
      ∀ event u, Step t event u →
        CallLaws .default event.now t.store.state u.store.state event.call event.answer := by
  have h := ledger_of_run hrun hfresh
  refine ⟨h.oneShot, h.within, fun event u hstep => ?_⟩
  have hlaws := callLaws_of_perform hstep.2.2
  rwa [h.limits_eq] at hlaws

/-- A secret is staged for a window and taken by it. -/
theorem staged_secret_taken_once :
    let reference : EphemeralCredentialReference :=
      ⟨⟨[0, 0, 0, 0, 0, 0, 64, 0, 0, 0, 0, 0, 0, 0, 0, 0], rfl⟩, by decide⟩
    let secret : SecretValue := ⟨[7], by decide, by decide⟩
    let events : List Event :=
      [⟨1, .insert ['m'] secret [reference], .inserted (.ok reference)⟩,
        ⟨3, .take ['m'] reference, .taken (.ok secret)⟩]
    OneShot 5 events ∧ (deliveries events).length = 1 := by
  intro reference secret events
  let staged : System := ⟨1, ⟨⟨[⟨reference, ['m'], 6, 1, secret⟩], 1, List.nodup_singleton _⟩, 5,
    .default, [⟨reference, 1, 6⟩]⟩⟩
  let taken : System := ⟨3, ⟨⟨[], 1, List.nodup_nil⟩, 5, .default, [⟨reference, 1, 6⟩]⟩⟩
  have hinserted : Step ⟨0, .new 5⟩ ⟨1, .insert ['m'] secret [reference], .inserted (.ok reference)⟩
      staged := ⟨by decide, rfl, rfl⟩
  have htaken : Step staged ⟨3, .take ['m'] reference, .taken (.ok secret)⟩ taken :=
    ⟨by decide, rfl, rfl⟩
  have hrun : Run Step ⟨0, .new 5⟩ events taken := (Run.refl.snoc hinserted).snoc htaken
  exact ⟨(ephemeral_credentials_one_shot hrun (by decide)).1, rfl⟩

/-- An owner that is empty is refused although the store has room. -/
theorem empty_owner_refused :
    let secret : SecretValue := ⟨[7], by decide, by decide⟩
    let store := EphemeralCredentialStore.new 5
    Step ⟨0, store⟩ ⟨0, .insert [] secret [], .inserted (.error .ownerMismatch)⟩ ⟨0, store⟩ ∧
      ¬ (store.state.unexpired 0).isFull .default [] secret :=
  ⟨⟨by decide, rfl, rfl⟩, by decide⟩

end Netcatty.Credentials
