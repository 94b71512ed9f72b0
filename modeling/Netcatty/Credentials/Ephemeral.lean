import Netcatty.Library.Catalog
import Netcatty.Library.Runs
import Netcatty.Secret.Envelope
import Netcatty.Vault.Model

/-! # Ephemeral credentials

A secret that is staged in memory is taken once, by its owner and before it expires.  Every call
holds the lock of the store, so that a call is one function on its state (`perform`), and a run is a
sequence of calls at times that do not decrease; a task that has been spawned to remove an expired
entry is a call of its own, which comes at its deadline or later.

There is one lemma for what each call can do (`insert_cases`, `takeMany_error`, `takeMany_ok`,
`expire_spec`); `takeMany_isSome` says that no `expect` fails. -/

namespace Netcatty.Credentials

open Catalog
open Secret (Bytes Uuid u64Limit)
open Vault (Text utf8Len)

/-- In nanoseconds. -/
def defaultEphemeralCredentialTtl : ℕ := 120 * 10 ^ 9
def maxEphemeralCredentialEntries : ℕ := 256
def maxEphemeralCredentialsPerOwner : ℕ := 32
def maxEphemeralTotalSecretBytes : ℕ := 4 * 1024 * 1024
def maxOwnerBytes : ℕ := 256
def maxSecretValueBytes : ℕ := 64 * 1024

inductive CredentialErrorCode
  | invalidReference | notFound | expired | ownerMismatch | invalidSecret | tooLarge
  | capacityExceeded | invalidUtf8 | kindMismatch | corruptRecord | storageUnavailable | conflict
  | backendFailure
  deriving DecidableEq, Repr

structure SecretValue where
  bytes : Bytes
  ne_nil : bytes ≠ []
  length_le : bytes.length ≤ maxSecretValueBytes
  deriving DecidableEq

def SecretValue.len (secret : SecretValue) : ℕ := secret.bytes.length

structure EphemeralCredentialReference where
  id : Uuid
  random : id.isRandom = true
  deriving DecidableEq

structure EphemeralEntry where
  reference : EphemeralCredentialReference
  owner : Text
  expiresAt : ℕ
  generation : ℕ
  secret : SecretValue
  deriving DecidableEq

/-- No two entries have one reference. -/
structure EphemeralState where
  entries : List EphemeralEntry
  nextGeneration : ℕ
  nodup : (entries.map EphemeralEntry.reference).Nodup

structure EphemeralLimits where
  globalEntries : ℕ
  entriesPerOwner : ℕ
  totalSecretBytes : ℕ

def EphemeralLimits.default : EphemeralLimits where
  globalEntries := maxEphemeralCredentialEntries
  entriesPerOwner := maxEphemeralCredentialsPerOwner
  totalSecretBytes := maxEphemeralTotalSecretBytes

/-- What a spawned task knows of the entry that it is to remove. -/
structure ExpiryTask where
  reference : EphemeralCredentialReference
  generation : ℕ
  expiresAt : ℕ
  deriving DecidableEq

structure EphemeralCredentialStore where
  state : EphemeralState
  ttl : ℕ
  limits : EphemeralLimits
  tasks : List ExpiryTask

def EphemeralCredentialStore.new (ttl : ℕ) : EphemeralCredentialStore where
  state := ⟨[], 0, List.nodup_nil⟩
  ttl := ttl
  limits := .default
  tasks := []

/-! ### Operations on the entries -/

namespace EphemeralState

variable (s : EphemeralState)

def get (reference : EphemeralCredentialReference) : Option EphemeralEntry :=
  s.entries.find? (·.reference = reference)

def retain (keep : EphemeralEntry → Bool) : EphemeralState where
  entries := s.entries.filter keep
  nextGeneration := s.nextGeneration
  nodup := s.nodup.sublist (List.filter_sublist.map _)

def remove (reference : EphemeralCredentialReference) : EphemeralState :=
  s.retain (·.reference ≠ reference)

def unexpired (now : ℕ) : EphemeralState := s.retain (now < ·.expiresAt)

def ownerEntries (owner : Text) : ℕ := (s.entries.filter (·.owner = owner)).length

def totalSecretBytes : ℕ := (s.entries.map fun entry => entry.secret.len).sum

@[simp] theorem entries_retain (keep : EphemeralEntry → Bool) :
    (s.retain keep).entries = s.entries.filter keep := rfl

variable {s}

theorem get_eq_some {reference : EphemeralCredentialReference} {entry : EphemeralEntry} :
    s.get reference = some entry ↔ entry ∈ s.entries ∧ entry.reference = reference :=
  find?_eq_some_iff s.nodup

theorem mem_remove {reference : EphemeralCredentialReference} {entry : EphemeralEntry} :
    entry ∈ (s.remove reference).entries ↔ entry ∈ s.entries ∧ entry.reference ≠ reference := by
  simp [remove, retain]

theorem mem_unexpired {now : ℕ} {entry : EphemeralEntry} :
    entry ∈ (s.unexpired now).entries ↔ entry ∈ s.entries ∧ now < entry.expiresAt := by
  simp [unexpired, retain]

end EphemeralState

/-! ### Calls -/

/-- An owner that `insert` refuses. -/
def InvalidOwner (owner : Text) : Prop := owner.isEmpty ∨ maxOwnerBytes < utf8Len owner

instance (owner : Text) : Decidable (InvalidOwner owner) := inferInstanceAs (Decidable (_ ∨ _))

/-- Whether one more entry would exceed a limit; a sum that overflows exceeds each. -/
def EphemeralState.isFull (s : EphemeralState) (limits : EphemeralLimits) (owner : Text)
    (secret : SecretValue) : Prop :=
  limits.globalEntries ≤ s.entries.length ∨ limits.entriesPerOwner ≤ s.ownerEntries owner ∨
    limits.totalSecretBytes < s.totalSecretBytes + secret.len

instance (s : EphemeralState) (limits : EphemeralLimits) (owner : Text) (secret : SecretValue) :
    Decidable (s.isFull limits owner secret) := inferInstanceAs (Decidable (_ ∨ _))

/-- References are drawn until one is free. -/
def drawReference (s : EphemeralState) (candidates : List EphemeralCredentialReference) :
    Option EphemeralCredentialReference :=
  candidates.find? fun candidate => (s.get candidate).isNone

/-- `insert` of the state, at the generation that follows. -/
def EphemeralState.insert (s : EphemeralState) (reference : EphemeralCredentialReference)
    (hfree : s.get reference = none) (owner : Text) (expiresAt : ℕ) (secret : SecretValue) :
    EphemeralState where
  entries := ⟨reference, owner, expiresAt, (s.nextGeneration + 1) % u64Limit, secret⟩ :: s.entries
  nextGeneration := (s.nextGeneration + 1) % u64Limit
  nodup := by
    rw [List.map_cons, List.nodup_cons]
    refine ⟨fun hmem => ?_, s.nodup⟩
    obtain ⟨entry, hentry, hreference⟩ := List.mem_map.mp hmem
    rw [EphemeralState.get_eq_some.mpr ⟨hentry, hreference⟩] at hfree
    nomatch hfree

/-- `remove_expired_generation`. -/
def EphemeralState.removeExpiredGeneration (s : EphemeralState)
    (reference : EphemeralCredentialReference) (generation now : ℕ) : Bool × EphemeralState :=
  if (s.get reference).any fun entry => entry.generation = generation ∧ entry.expiresAt ≤ now then
    (true, s.remove reference)
  else (false, s)

/-- The references of a group are looked at in their order; an entry that has expired is
removed. -/
def validateGroup (s : EphemeralState) (now : ℕ) (owner : Text) :
    List EphemeralCredentialReference → List EphemeralCredentialReference →
      Except CredentialErrorCode Unit × EphemeralState
  | _, [] => (.ok (), s)
  | unique, reference :: rest =>
      if reference ∈ unique then (.error .invalidReference, s)
      else
        match s.get reference with
        | none => (.error .notFound, s)
        | some entry =>
            if entry.expiresAt ≤ now then (.error .expired, s.remove reference)
            else if entry.owner ≠ owner then (.error .ownerMismatch, s)
            else validateGroup s now owner (reference :: unique) rest

/-- Where an entry is missing, its `expect` fails. -/
def consumeGroup : EphemeralState → List EphemeralCredentialReference →
    Option (List SecretValue × EphemeralState)
  | s, [] => some ([], s)
  | s, reference :: rest => do
      let entry ← s.get reference
      let (secrets, s') ← consumeGroup (s.remove reference) rest
      return (entry.secret :: secrets, s')

namespace EphemeralCredentialStore

variable (store : EphemeralCredentialStore)

/-- Nothing is returned while the candidates are taken. -/
def insert (now : ℕ) (owner : Text) (secret : SecretValue)
    (candidates : List EphemeralCredentialReference) :
    Option (Except CredentialErrorCode EphemeralCredentialReference × EphemeralCredentialStore) :=
  if InvalidOwner owner then some (.error .ownerMismatch, store)
  else
    let state := store.state.unexpired now
    if state.isFull store.limits owner secret then
      some (.error .capacityExceeded, { store with state })
    else
      match drawReference state candidates with
      | none => none
      | some reference =>
          if hfree : state.get reference = none then
            let inserted := state.insert reference hfree owner (now + store.ttl) secret
            some (.ok reference, { store with
              state := inserted
              tasks := ⟨reference, inserted.nextGeneration, now + store.ttl⟩ :: store.tasks })
          else none

def takeMany (now : ℕ) (owner : Text) (references : List EphemeralCredentialReference) :
    Option (Except CredentialErrorCode (List SecretValue) × EphemeralCredentialStore) :=
  match validateGroup store.state now owner [] references with
  | (.error code, state) => some (.error code, { store with state })
  | (.ok (), state) =>
      (consumeGroup state references).map fun (secrets, state) =>
        (.ok secrets, { store with state })

def take (now : ℕ) (owner : Text) (reference : EphemeralCredentialReference) :
    Option (Except CredentialErrorCode SecretValue × EphemeralCredentialStore) :=
  match store.takeMany now owner [reference] with
  | none => none
  | some (.error code, store) => some (.error code, store)
  | some (.ok secrets, store) => secrets.getLast?.map fun secret => (.ok secret, store)

def purgeOwner (owner : Text) : ℕ × EphemeralCredentialStore :=
  let state := store.state.retain (·.owner ≠ owner)
  (store.state.entries.length - state.entries.length, { store with state })

def purgeExpired (now : ℕ) : ℕ × EphemeralCredentialStore :=
  let state := store.state.unexpired now
  (store.state.entries.length - state.entries.length, { store with state })

/-- A task that fires; one whose entry is gone may be past its deadline already, and fires too. -/
def expire (now : ℕ) (task : ExpiryTask) : Option (Bool × EphemeralCredentialStore) :=
  if task ∈ store.tasks ∧ task.expiresAt ≤ now then
    let (removed, state) :=
      store.state.removeExpiredGeneration task.reference task.generation now
    some (removed, { store with state })
  else none

end EphemeralCredentialStore

inductive Call
  | insert (owner : Text) (secret : SecretValue) (candidates : List EphemeralCredentialReference)
  | take (owner : Text) (reference : EphemeralCredentialReference)
  | takeMany (owner : Text) (references : List EphemeralCredentialReference)
  | purgeOwner (owner : Text)
  | purgeExpired
  | expire (task : ExpiryTask)

inductive Answer
  | inserted (result : Except CredentialErrorCode EphemeralCredentialReference)
  | taken (result : Except CredentialErrorCode SecretValue)
  | takenMany (result : Except CredentialErrorCode (List SecretValue))
  | purged (count : ℕ)
  | expired (removed : Bool)

def EphemeralCredentialStore.perform (store : EphemeralCredentialStore) (now : ℕ) :
    Call → Option (Answer × EphemeralCredentialStore)
  | .insert owner secret candidates =>
      (store.insert now owner secret candidates).map fun (result, store) =>
        (.inserted result, store)
  | .take owner reference =>
      (store.take now owner reference).map fun (result, store) => (.taken result, store)
  | .takeMany owner references =>
      (store.takeMany now owner references).map fun (result, store) => (.takenMany result, store)
  | .purgeOwner owner => let (count, store) := store.purgeOwner owner; some (.purged count, store)
  | .purgeExpired => let (count, store) := store.purgeExpired now; some (.purged count, store)
  | .expire task =>
      (store.expire now task).map fun (removed, store) => (.expired removed, store)

/-- A call, the time at which it was made and its answer. -/
structure Event where
  now : ℕ
  call : Call
  answer : Answer

structure System where
  clock : ℕ
  store : EphemeralCredentialStore

def Step (s : System) (event : Event) (t : System) : Prop :=
  s.clock ≤ event.now ∧ t.clock = event.now ∧
    s.store.perform event.now event.call = some (event.answer, t.store)

/-! ### What a call can do -/

section Calls

variable {store store' : EphemeralCredentialStore} {s : EphemeralState} {now : ℕ} {owner : Text}
  {references : List EphemeralCredentialReference}

theorem insert_cases {secret : SecretValue} {candidates : List EphemeralCredentialReference}
    {result : Except CredentialErrorCode EphemeralCredentialReference}
    (h : store.insert now owner secret candidates = some (result, store')) :
    (InvalidOwner owner ∧ result = .error .ownerMismatch ∧ store' = store) ∨
    ((store.state.unexpired now).isFull store.limits owner secret ∧
      result = .error .capacityExceeded ∧
      store' = { store with state := store.state.unexpired now }) ∨
    ∃ reference, ∃ hfree : (store.state.unexpired now).get reference = none,
      reference ∈ candidates ∧ ¬ InvalidOwner owner ∧
      ¬ (store.state.unexpired now).isFull store.limits owner secret ∧ result = .ok reference ∧
      store'.state =
        (store.state.unexpired now).insert reference hfree owner (now + store.ttl) secret ∧
      store'.ttl = store.ttl ∧ store'.limits = store.limits := by
  unfold EphemeralCredentialStore.insert at h
  by_cases howner : InvalidOwner owner
  · rw [if_pos howner] at h
    cases h
    exact .inl ⟨howner, rfl, rfl⟩
  · rw [if_neg howner] at h
    dsimp only at h
    by_cases hfull : (store.state.unexpired now).isFull store.limits owner secret
    · rw [if_pos hfull] at h
      cases h
      exact .inr (.inl ⟨hfull, rfl, rfl⟩)
    · rw [if_neg hfull] at h
      cases hdraw : drawReference (store.state.unexpired now) candidates with
      | none => simp [hdraw] at h
      | some reference =>
          simp only [hdraw] at h
          by_cases hfree : (store.state.unexpired now).get reference = none
          · rw [dif_pos hfree] at h
            cases h
            exact .inr (.inr ⟨reference, hfree, List.mem_of_find?_eq_some hdraw, howner, hfull, rfl,
              rfl, rfl, rfl⟩)
          · rw [dif_neg hfree] at h
            nomatch h

/-- A group that fails loses at most an entry that has expired. -/
theorem validateGroup_error {unique : List EphemeralCredentialReference}
    {code : CredentialErrorCode} {s' : EphemeralState}
    (h : validateGroup s now owner unique references = (.error code, s')) :
    s' = s ∨ ∃ entry ∈ s.entries, entry.expiresAt ≤ now ∧ s' = s.remove entry.reference := by
  induction references generalizing unique with
  | nil => simp [validateGroup] at h
  | cons reference rest ih =>
      rw [validateGroup] at h
      by_cases hmem : reference ∈ unique
      · rw [if_pos hmem] at h
        cases h
        exact .inl rfl
      · rw [if_neg hmem] at h
        cases hget : s.get reference with
        | none =>
            rw [hget] at h
            cases h
            exact .inl rfl
        | some entry =>
            simp only [hget] at h
            by_cases hexpired : entry.expiresAt ≤ now
            · rw [if_pos hexpired] at h
              cases h
              obtain ⟨hentry, rfl⟩ := EphemeralState.get_eq_some.mp hget
              exact .inr ⟨entry, hentry, hexpired, rfl⟩
            · rw [if_neg hexpired] at h
              by_cases howner : entry.owner ≠ owner
              · rw [if_pos howner] at h
                cases h
                exact .inl rfl
              · rw [if_neg howner] at h
                exact ih h

/-- An entry that its owner can take. -/
def Takeable (s : EphemeralState) (now : ℕ) (owner : Text)
    (reference : EphemeralCredentialReference) : Prop :=
  ∃ entry ∈ s.entries, entry.reference = reference ∧ now < entry.expiresAt ∧ entry.owner = owner

theorem validateGroup_ok {unique : List EphemeralCredentialReference} {s' : EphemeralState}
    (h : validateGroup s now owner unique references = (.ok (), s')) :
    s' = s ∧ references.Nodup ∧ (∀ reference ∈ references, reference ∉ unique) ∧
      ∀ reference ∈ references, Takeable s now owner reference := by
  induction references generalizing unique with
  | nil =>
      cases h
      simp
  | cons reference rest ih =>
      rw [validateGroup] at h
      by_cases hmem : reference ∈ unique
      · simp [hmem] at h
      · rw [if_neg hmem] at h
        cases hget : s.get reference with
        | none => simp [hget] at h
        | some entry =>
            simp only [hget] at h
            by_cases hexpired : entry.expiresAt ≤ now
            · simp [hexpired] at h
            · rw [if_neg hexpired] at h
              by_cases howner : entry.owner ≠ owner
              · simp [howner] at h
              · rw [if_neg howner] at h
                obtain ⟨hs, hnodup, hunique, htakeable⟩ := ih h
                obtain ⟨hentry, hreference⟩ := EphemeralState.get_eq_some.mp hget
                refine ⟨hs, List.nodup_cons.mpr ⟨fun hrest => ?_, hnodup⟩, ?_, ?_⟩
                · exact hunique reference hrest List.mem_cons_self
                · intro other hother
                  obtain rfl | hother := List.mem_cons.mp hother
                  · exact hmem
                  · exact fun hin => hunique other hother (List.mem_cons_of_mem _ hin)
                · intro other hother
                  obtain rfl | hother := List.mem_cons.mp hother
                  · exact ⟨entry, hentry, hreference, Nat.lt_of_not_le hexpired,
                      not_not.mp howner⟩
                  · exact htakeable other hother

/-- The secret of an entry. -/
def HasSecret (s : EphemeralState) (reference : EphemeralCredentialReference)
    (secret : SecretValue) : Prop :=
  ∃ entry ∈ s.entries, entry.reference = reference ∧ entry.secret = secret

/-- A group of entries that are there is consumed, in its order, and nothing else is. -/
theorem consumeGroup_eq (hnodup : references.Nodup)
    (hmem : ∀ reference ∈ references, (s.get reference).isSome = true) :
    ∃ secrets, consumeGroup s references =
        some (secrets, s.retain fun entry => entry.reference ∉ references) ∧
      List.Forall₂ (HasSecret s) references secrets := by
  induction references generalizing s with
  | nil =>
      refine ⟨[], ?_, .nil⟩
      simp [consumeGroup, EphemeralState.retain]
  | cons reference rest ih =>
      obtain ⟨hnotin, hrest⟩ := List.nodup_cons.mp hnodup
      obtain ⟨entry, hget⟩ := Option.isSome_iff_exists.mp (hmem reference List.mem_cons_self)
      obtain ⟨hentry, hreference⟩ := EphemeralState.get_eq_some.mp hget
      have hmem' : ∀ other ∈ rest, ((s.remove reference).get other).isSome = true := by
        intro other hother
        obtain ⟨found, hfound⟩ :=
          Option.isSome_iff_exists.mp (hmem other (List.mem_cons_of_mem _ hother))
        obtain ⟨hin, hother'⟩ := EphemeralState.get_eq_some.mp hfound
        have hne : found.reference ≠ reference := by
          rw [hother']
          rintro rfl
          exact hnotin hother
        rw [EphemeralState.get_eq_some.mpr ⟨EphemeralState.mem_remove.mpr ⟨hin, hne⟩, hother'⟩]
        rfl
      obtain ⟨secrets, hconsume, hsecrets⟩ := ih hrest hmem'
      refine ⟨entry.secret :: secrets, ?_, .cons ⟨entry, hentry, hreference, rfl⟩ ?_⟩
      · have hretain : (s.remove reference).retain (fun entry => entry.reference ∉ rest) =
            s.retain fun entry => entry.reference ∉ reference :: rest := by
          simp only [EphemeralState.remove, EphemeralState.retain, List.filter_filter,
            EphemeralState.mk.injEq, and_true]
          refine List.filter_congr fun entry _ => ?_
          simp [Bool.and_comm]
        simp only [consumeGroup, hget, hconsume, hretain]
        rfl
      · refine hsecrets.imp fun other secret => ?_
        rintro ⟨found, hfound, hother, hsecret⟩
        exact ⟨found, (EphemeralState.mem_remove.mp hfound).1, hother, hsecret⟩

theorem takeMany_error {code : CredentialErrorCode}
    (h : store.takeMany now owner references = some (.error code, store')) :
    (∃ state, store' = { store with state } ∧ (state = store.state ∨
      ∃ entry ∈ store.state.entries, entry.expiresAt ≤ now ∧
        state = store.state.remove entry.reference)) := by
  unfold EphemeralCredentialStore.takeMany at h
  rcases hvalid : validateGroup store.state now owner [] references with ⟨result, state⟩
  rw [hvalid] at h
  cases result with
  | error code' =>
      cases h
      exact ⟨state, rfl, validateGroup_error hvalid⟩
  | ok =>
      cases hconsume : consumeGroup state references with
      | none => simp [hconsume] at h
      | some consumed => simp [hconsume] at h

/-- **A group that is taken** was there, unexpired and its owner's, and exactly it is gone. -/
theorem takeMany_ok {secrets : List SecretValue}
    (h : store.takeMany now owner references = some (.ok secrets, store')) :
    references.Nodup ∧ (∀ reference ∈ references, Takeable store.state now owner reference) ∧
      List.Forall₂ (HasSecret store.state) references secrets ∧
      store' = { store with
        state := store.state.retain fun entry => entry.reference ∉ references } := by
  unfold EphemeralCredentialStore.takeMany at h
  rcases hvalid : validateGroup store.state now owner [] references with ⟨result, state⟩
  rw [hvalid] at h
  cases result with
  | error code' => nomatch h
  | ok =>
      obtain ⟨rfl, hnodup, -, htakeable⟩ := validateGroup_ok hvalid
      obtain ⟨found, hconsume, hsecrets⟩ := consumeGroup_eq hnodup fun reference hreference => by
        obtain ⟨entry, hentry, hreference, -⟩ := htakeable reference hreference
        rw [EphemeralState.get_eq_some.mpr ⟨hentry, hreference⟩]
        rfl
      dsimp only at h
      rw [hconsume] at h
      cases h
      exact ⟨hnodup, htakeable, hsecrets, rfl⟩

/-- No `expect` of a group fails. -/
theorem takeMany_isSome (store : EphemeralCredentialStore) (now : ℕ) (owner : Text)
    (references : List EphemeralCredentialReference) :
    (store.takeMany now owner references).isSome = true := by
  unfold EphemeralCredentialStore.takeMany
  rcases hvalid : validateGroup store.state now owner [] references with ⟨result, state⟩
  cases result with
  | error code => rfl
  | ok =>
      obtain ⟨rfl, hnodup, -, htakeable⟩ := validateGroup_ok hvalid
      obtain ⟨found, hconsume, -⟩ := consumeGroup_eq hnodup fun reference hreference => by
        obtain ⟨entry, hentry, hreference, -⟩ := htakeable reference hreference
        rw [EphemeralState.get_eq_some.mpr ⟨hentry, hreference⟩]
        rfl
      simp [hconsume]

/-- A reference is taken as a group of one. -/
theorem take_eq (store : EphemeralCredentialStore) (now : ℕ) (owner : Text)
    (reference : EphemeralCredentialReference) :
    (∃ code store', store.takeMany now owner [reference] = some (.error code, store') ∧
      store.take now owner reference = some (.error code, store')) ∨
    ∃ secret store', store.takeMany now owner [reference] = some (.ok [secret], store') ∧
      store.take now owner reference = some (.ok secret, store') := by
  obtain ⟨⟨result, store'⟩, hmany⟩ :=
    Option.isSome_iff_exists.mp (takeMany_isSome store now owner [reference])
  cases result with
  | error code =>
      refine .inl ⟨code, store', hmany, ?_⟩
      rw [EphemeralCredentialStore.take, hmany]
  | ok secrets =>
      obtain ⟨-, -, hsecrets, -⟩ := takeMany_ok hmany
      cases hsecrets with
      | cons hsecret hnil =>
          cases hnil
          refine .inr ⟨_, store', hmany, ?_⟩
          rw [EphemeralCredentialStore.take, hmany]
          rfl

theorem expire_spec {task : ExpiryTask} {removed : Bool}
    (h : store.expire now task = some (removed, store')) :
    ∃ state, store' = { store with state } ∧ (state = store.state ∨
      ∃ entry ∈ store.state.entries, entry.expiresAt ≤ now ∧
        state = store.state.remove entry.reference) := by
  unfold EphemeralCredentialStore.expire EphemeralState.removeExpiredGeneration at h
  by_cases hfires : task ∈ store.tasks ∧ task.expiresAt ≤ now
  · rw [if_pos hfires] at h
    cases hget : store.state.get task.reference with
    | none =>
        simp only [hget, Option.any_none, Bool.false_eq_true, if_false] at h
        cases h
        exact ⟨_, rfl, .inl rfl⟩
    | some entry =>
        by_cases hexpired : entry.generation = task.generation ∧ entry.expiresAt ≤ now
        · simp only [hget, Option.any_some, hexpired, and_self, decide_true, if_true] at h
          cases h
          obtain ⟨hentry, hreference⟩ := EphemeralState.get_eq_some.mp hget
          exact ⟨_, rfl, .inr ⟨entry, hentry, hexpired.2, by rw [hreference]⟩⟩
        · simp only [hget, Option.any_some, hexpired, decide_false, Bool.false_eq_true, if_false]
            at h
          cases h
          exact ⟨_, rfl, .inl rfl⟩
  · rw [if_neg hfires] at h
    nomatch h

end Calls

end Netcatty.Credentials
