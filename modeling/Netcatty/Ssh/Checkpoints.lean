import Netcatty.Library.HashChain
import Netcatty.Ssh.LocalTree
import Netcatty.Ssh.ManifestText
import Netcatty.Ssh.RemoteTree

/-! # Checkpoints and prefixes

A checkpoint covers the first files of a transfer: their identities are chained into its hash, by
SHA-256 of a text in the first version and by the compression function alone in the second.  Where
neither collides on what two chains hash, a checkpoint matches the lists that begin with the
identities it covers and no others (`checkpoints_identify_prefixes`). -/

namespace Netcatty.Ssh

open Catalog HashChain
open Serial (encodeUtf8 encodeUtf8_inj)

namespace DirectoryResumeCheckpoint

variable (D : ManifestDigest)

def matchesPrefix (checkpoint : DirectoryResumeCheckpoint) (identities : List Text) :
    Except DirectoryTraversalError Bool := do
  checkpoint.validate
  if identities.length < checkpoint.coveredEntries then return false
  else do
    let rebuilt ← (identities.take checkpoint.coveredEntries).foldlM (·.append D ·)
      (TreeManifest.firstCheckpoint checkpoint.version)
    return rebuilt.manifestHash == checkpoint.manifestHash

/-- What follows where the prefix matches. -/
def migrateMatching (checkpoint : DirectoryResumeCheckpoint) (identities : List Text) :
    Except DirectoryTraversalError DirectoryResumeCheckpoint :=
  if checkpoint.version = 2 then return checkpoint
  else do
    let migrated ← (identities.take checkpoint.coveredEntries).foldlM (·.append D ·) empty
    return { migrated with completedEntries := checkpoint.completedEntries }

def migrateToV2 (checkpoint : DirectoryResumeCheckpoint) (identities : List Text) :
    Except DirectoryTraversalError DirectoryResumeCheckpoint := do
  let matching ← checkpoint.matchesPrefix D identities
  if !matching then throw .invalidCheckpoint
  else checkpoint.migrateMatching D identities

end DirectoryResumeCheckpoint

/-! ### What is assumed of the hash functions -/

/-- The hash functions have results of the right form, and a file is identified by its tuple. -/
structure ManifestDigest.WellFormed (D : ManifestDigest) : Prop where
  encodeIdentity : ∀ sourcePath targetPath size modifiedAt,
    D.encodeIdentity sourcePath targetPath size modifiedAt =
      some (serdeTuple sourcePath targetPath size modifiedAt)
  sha256Hex : ∀ bytes, isLowerHex256 (D.sha256Hex bytes) = true
  compress256 : ∀ state block, state.length = 8 → block.length = 64 →
    (D.compress256 state block).length = 8 ∧ ∀ word ∈ D.compress256 state block, word < 2 ^ 32

def firstHash (version : ℕ) : Text := (TreeManifest.firstCheckpoint version).manifestHash

/-- The chain of a version over identities. -/
def manifestChain (D : ManifestDigest) (version : ℕ) (identities : List Text) :
    Except DirectoryTraversalError Text :=
  chain (appendDirectoryManifestIdentity D version) (firstHash version) identities

/-- What the chains of a version over two lists take in. -/
def hashedInputs (D : ManifestDigest) (version : ℕ) (identities identities' : List Text) :
    Set (Text × Text) :=
  inputs (appendDirectoryManifestIdentity D version) (firstHash version) identities ∪
    inputs (appendDirectoryManifestIdentity D version) (firstHash version) identities'

def sha256Input (input : Text × Text) : List UInt8 := encodeUtf8 (input.1 ++ ':' :: input.2)

def compressInput (input : Text × Text) : List ℕ × List UInt8 :=
  (hashWords input.1, encodeUtf8 input.2)

/-- SHA-256 and its compression function do not collide on what is hashed for two lists. -/
structure NoCollision (D : ManifestDigest) (identities identities' : List Text) : Prop where
  sha256 : Set.InjOn D.sha256Hex (sha256Input '' hashedInputs D 1 identities identities')
  compress256 : Set.InjOn (fun input => D.compress256 input.1 input.2)
    (compressInput '' hashedInputs D 2 identities identities')

section Chains

variable {D : ManifestDigest}

theorem step_ok {version : ℕ} (hversion : version = 1 ∨ version = 2) {hash identity hash' : Text}
    (h : appendDirectoryManifestIdentity D version hash identity = .ok hash') :
    isLowerHex256 hash = true ∧ isLowerHex256 identity = true ∧
      (version = 1 ∧ hash' = D.sha256Hex (sha256Input (hash, identity)) ∨
        version = 2 ∧ hash' =
          (D.compress256 (hashWords hash) (encodeUtf8 identity)).flatMap wordHex) := by
  unfold appendDirectoryManifestIdentity at h
  rw [ite_eq_iff] at h
  obtain ⟨-, herror⟩ | ⟨hvalid, h⟩ := h
  · nomatch herror
  · rw [Bool.or_eq_true, not_or, Bool.not_eq_true', Bool.not_eq_true', Bool.not_eq_false,
      Bool.not_eq_false] at hvalid
    refine ⟨hvalid.1, hvalid.2, ?_⟩
    obtain rfl | rfl := hversion
    · exact .inl ⟨rfl, (Except.ok.inj h).symm⟩
    · exact .inr ⟨rfl, (Except.ok.inj h).symm⟩

theorem step_isLowerHex256 (hD : D.WellFormed) {version : ℕ} (hversion : version = 1 ∨ version = 2)
    {hash identity hash' : Text}
    (h : appendDirectoryManifestIdentity D version hash identity = .ok hash') :
    isLowerHex256 hash' = true := by
  obtain ⟨hhash, hidentity, ⟨-, rfl⟩ | ⟨-, rfl⟩⟩ := step_ok hversion h
  · exact hD.sha256Hex _
  · exact isLowerHex256_wordHex (hD.compress256 _ _ (wordHex_hashWords hhash).2
      (length_encodeUtf8_of_isLowerHex256 hidentity)).1

theorem firstHash_isLowerHex256 (version : ℕ) : isLowerHex256 (firstHash version) = true := by
  unfold firstHash TreeManifest.firstCheckpoint
  split_ifs
  · show isLowerHex256 emptyDirectoryManifestHash = true
    decide
  · decide

theorem manifestChain_isLowerHex256 (hD : D.WellFormed) {version : ℕ}
    (hversion : version = 1 ∨ version = 2) {identities : List Text} {hash : Text}
    (h : manifestChain D version identities = .ok hash) : isLowerHex256 hash = true := by
  rcases List.eq_nil_or_concat identities with rfl | ⟨front, identity, rfl⟩
  · obtain rfl := Except.ok.inj h
    exact firstHash_isLowerHex256 version
  · rw [List.concat_eq_append] at h
    obtain ⟨hash', -, hstep⟩ := chain_concat_ok h
    exact step_isLowerHex256 hD hversion hstep

theorem sha256Input_inj {hash identity hash' identity' : Text} (hhash : isLowerHex256 hash = true)
    (hhash' : isLowerHex256 hash' = true)
    (h : sha256Input (hash, identity) = sha256Input (hash', identity')) :
    (hash, identity) = (hash', identity') := by
  rw [isLowerHex256, Bool.and_eq_true, beq_iff_eq] at hhash hhash'
  have htext : hash ++ ':' :: identity = hash' ++ ':' :: identity' := encodeUtf8_inj h
  obtain ⟨rfl, hrest⟩ := List.append_inj htext (hhash.1.trans hhash'.1.symm)
  rw [List.tail_eq_of_cons_eq hrest]

theorem compressInput_inj {hash identity hash' identity' : Text} (hhash : isLowerHex256 hash = true)
    (hhash' : isLowerHex256 hash' = true)
    (h : compressInput (hash, identity) = compressInput (hash', identity')) :
    (hash, identity) = (hash', identity') := by
  obtain ⟨hwords, hidentity⟩ := Prod.mk.inj h
  have hsame : hash = hash' := by
    rw [← (wordHex_hashWords hhash).1, ← (wordHex_hashWords hhash').1]
    exact congrArg (List.flatMap wordHex) hwords
  have hidentity' : identity = identity' := encodeUtf8_inj hidentity
  rw [hsame, hidentity']

/-- Steps of the two chains do not collide. -/
theorem NoCollision.chains (hD : D.WellFormed) {identities identities' : List Text}
    (h : NoCollision D identities identities') {version : ℕ}
    (hversion : version = 1 ∨ version = 2) :
    CollisionFree (appendDirectoryManifestIdentity D version) (firstHash version) identities
      identities' := by
  rintro ⟨hash, identity⟩ hinput ⟨hash', identity'⟩ hinput' next hstep hstep'
  obtain ⟨hhash, hidentity, hnext⟩ := step_ok hversion hstep
  obtain ⟨hhash', hidentity', hnext'⟩ := step_ok hversion hstep'
  obtain rfl | rfl := hversion
  · obtain ⟨-, rfl⟩ := hnext.resolve_right fun hwrong => nomatch hwrong.1
    obtain ⟨-, hsame⟩ := hnext'.resolve_right fun hwrong => nomatch hwrong.1
    exact sha256Input_inj hhash hhash' (h.sha256 ⟨_, hinput, rfl⟩ ⟨_, hinput', rfl⟩ hsame)
  · obtain ⟨-, rfl⟩ := hnext.resolve_left fun hwrong => nomatch hwrong.1
    obtain ⟨-, hsame⟩ := hnext'.resolve_left fun hwrong => nomatch hwrong.1
    have hwords : ∀ {hash identity : Text}, isLowerHex256 hash = true →
        isLowerHex256 identity = true →
          ∀ word ∈ D.compress256 (hashWords hash) (encodeUtf8 identity), word < 2 ^ 32 :=
      fun hhash hidentity => (hD.compress256 _ _ (wordHex_hashWords hhash).2
        (length_encodeUtf8_of_isLowerHex256 hidentity)).2
    have hcompress := congrArg hashWords hsame
    rw [hashWords_wordHex (hwords hhash hidentity), hashWords_wordHex (hwords hhash' hidentity')]
      at hcompress
    exact compressInput_inj hhash hhash'
      (h.compress256 ⟨_, hinput, rfl⟩ ⟨_, hinput', rfl⟩ hcompress)

end Chains

/-! ### Checkpoints and chains -/

section Appends

variable {D : ManifestDigest}

theorem validate_ok_iff {checkpoint : DirectoryResumeCheckpoint} :
    checkpoint.validate = .ok () ↔ (checkpoint.version = 1 ∨ checkpoint.version = 2) ∧
      checkpoint.completedEntries ≤ checkpoint.coveredEntries ∧
        isLowerHex256 checkpoint.manifestHash = true := by
  unfold DirectoryResumeCheckpoint.validate
  rw [ite_eq_right_iff]
  simp only [Bool.or_eq_true, Bool.not_eq_true', Bool.or_eq_false_iff, beq_eq_false_iff_ne,
    decide_eq_true_eq, reduceCtorEq, imp_false, not_or, Nat.not_lt, Bool.not_eq_false]
  tauto

theorem append_ok_iff {checkpoint checkpoint' : DirectoryResumeCheckpoint} {identity : Text} :
    checkpoint.append D identity = .ok checkpoint' ↔ checkpoint.validate = .ok () ∧
      ∃ hash, appendDirectoryManifestIdentity D checkpoint.version checkpoint.manifestHash
          identity = .ok hash ∧ checkpoint.coveredEntries + 1 < 2 ^ 64 ∧
        checkpoint' = { checkpoint with
          manifestHash := hash
          coveredEntries := checkpoint.coveredEntries + 1 } := by
  unfold DirectoryResumeCheckpoint.append checkedAdd
  rw [check_ok_iff, bind_ok_iff]
  refine and_congr_right fun _ => exists_congr fun hash => and_congr_right fun _ => ?_
  by_cases hroom : checkpoint.coveredEntries + 1 < 2 ^ 64
  · rw [if_pos hroom]
    dsimp only
    rw [pure_ok_iff]
    exact (and_iff_right hroom).symm
  · rw [if_neg hroom]
    exact iff_of_false (fun h => nomatch h) fun h => hroom h.1

/-- What appending identities to a first checkpoint comes to. -/
theorem foldlM_append_ok_iff {version : ℕ} (hversion : version = 1 ∨ version = 2)
    {identities : List Text} {checkpoint : DirectoryResumeCheckpoint} :
    identities.foldlM (·.append D ·) (TreeManifest.firstCheckpoint version) = .ok checkpoint ↔
      ∃ hash, manifestChain D version identities = .ok hash ∧ identities.length < 2 ^ 64 ∧
        checkpoint = ⟨version, identities.length, 0, hash⟩ := by
  have hfirst : TreeManifest.firstCheckpoint version = ⟨version, 0, 0, firstHash version⟩ := by
    obtain rfl | rfl := hversion <;> rfl
  induction identities using List.reverseRecOn generalizing checkpoint with
  | nil =>
      rw [hfirst]
      constructor
      · intro h
        exact ⟨firstHash version, rfl, by decide, (Except.ok.inj h).symm⟩
      · rintro ⟨hash, hhash, -, rfl⟩
        obtain rfl := Except.ok.inj hhash
        rfl
  | append_singleton front identity ih =>
      rw [List.foldlM_append]
      simp only [bind_ok_iff, ih, List.foldlM_cons, List.foldlM_nil, pure_ok_iff, append_ok_iff]
      constructor
      · rintro ⟨_, ⟨hash, hhash, hlength, rfl⟩, _, ⟨hvalid, hash', hstep, hroom, rfl⟩, rfl⟩
        refine ⟨hash', ?_, ?_, ?_⟩
        · rw [manifestChain, chain_concat]
          rw [manifestChain] at hhash
          rw [hhash]
          exact hstep
        · rw [List.length_append]
          exact hroom
        · rw [List.length_append]
          rfl
      · rintro ⟨hash', hhash', hlength, rfl⟩
        obtain ⟨hash, hhash, hstep⟩ := chain_concat_ok hhash'
        rw [List.length_append, List.length_singleton] at hlength ⊢
        refine ⟨_, ⟨hash, hhash, by omega, rfl⟩, _, ⟨?_, hash', hstep, hlength, rfl⟩, rfl⟩
        exact validate_ok_iff.mpr ⟨hversion, Nat.zero_le _, (step_ok hversion hstep).1⟩

end Appends

/-- A checkpoint that is built over identities: from the first one of its version by appending, and
with a count of completed entries. -/
inductive Covers (D : ManifestDigest) (version : ℕ) : List Text → DirectoryResumeCheckpoint → Prop
  | first : Covers D version [] (TreeManifest.firstCheckpoint version)
  | append {identities checkpoint identity checkpoint'} : Covers D version identities checkpoint →
      checkpoint.append D identity = .ok checkpoint' →
        Covers D version (identities ++ [identity]) checkpoint'
  | complete {identities checkpoint} (completedEntries : ℕ) :
      Covers D version identities checkpoint → completedEntries ≤ checkpoint.coveredEntries →
        Covers D version identities { checkpoint with completedEntries }

namespace TreeManifest

/-- The identities of the files, in their order. -/
def identities (manifest : TreeManifest) : List Text :=
  manifest.files.map (·.directoryEntryIdentity)

/-- The count of the files is right. -/
def Counted (manifest : TreeManifest) : Prop := manifest.totalFiles = manifest.files.length

theorem foldlM_files (D : ManifestDigest) (manifest : TreeManifest) (count : ℕ)
    (start : DirectoryResumeCheckpoint) :
    (manifest.files.take count).foldlM
        (fun checkpoint entry => checkpoint.append D entry.directoryEntryIdentity) start =
      (manifest.identities.take count).foldlM (·.append D ·) start := by
  rw [identities, ← List.map_take, List.foldlM_map]

end TreeManifest

section Covers

variable {D : ManifestDigest} {version : ℕ} {identities : List Text}
  {checkpoint : DirectoryResumeCheckpoint}

/-- **What is known of a checkpoint that covers identities.** -/
structure CoversSpec (D : ManifestDigest) (version : ℕ) (identities : List Text)
    (checkpoint : DirectoryResumeCheckpoint) : Prop where
  version_eq : checkpoint.version = version
  covered_eq : checkpoint.coveredEntries = identities.length
  completed_le : checkpoint.completedEntries ≤ checkpoint.coveredEntries
  length_lt : identities.length < 2 ^ 64
  chain_eq : manifestChain D version identities = .ok checkpoint.manifestHash

theorem Covers.spec (hversion : version = 1 ∨ version = 2)
    (h : Covers D version identities checkpoint) : CoversSpec D version identities checkpoint := by
  induction h with
  | first => obtain rfl | rfl := hversion <;> exact ⟨rfl, rfl, Nat.le_refl 0, by decide, rfl⟩
  | @append identities checkpoint identity checkpoint' _ happend ih =>
      obtain ⟨-, hash, hstep, hroom, rfl⟩ := append_ok_iff.mp happend
      rw [ih.version_eq] at hstep
      refine ⟨ih.version_eq, ?_, Nat.le_succ_of_le ih.completed_le, ?_, ?_⟩
      · rw [List.length_append, ← ih.covered_eq]
        rfl
      · rw [List.length_append, ← ih.covered_eq]
        exact hroom
      · have hchain := ih.chain_eq
        rw [manifestChain] at hchain ⊢
        rw [chain_concat, hchain]
        exact hstep
  | complete completedEntries _ hle ih =>
      exact ⟨ih.version_eq, ih.covered_eq, hle, ih.length_lt, ih.chain_eq⟩

theorem Covers.of_foldlM
    (h : identities.foldlM (·.append D ·) (TreeManifest.firstCheckpoint version) = .ok checkpoint) :
    Covers D version identities checkpoint := by
  induction identities using List.reverseRecOn generalizing checkpoint with
  | nil =>
      obtain rfl := Except.ok.inj h
      exact .first
  | append_singleton front identity ih =>
      rw [List.foldlM_append] at h
      obtain ⟨before, hfront, hlast⟩ := bind_ok_iff.mp h
      rw [List.foldlM_cons] at hlast
      obtain ⟨after, happend, hend⟩ := bind_ok_iff.mp hlast
      obtain rfl := Except.ok.inj hend
      exact .append (ih hfront) happend

theorem CoversSpec.validate (hD : D.WellFormed) (hversion : version = 1 ∨ version = 2)
    (h : CoversSpec D version identities checkpoint) : checkpoint.validate = .ok () :=
  validate_ok_iff.mpr ⟨h.version_eq ▸ hversion, h.completed_le,
    manifestChain_isLowerHex256 hD hversion h.chain_eq⟩

/-- The chain over a list of the length that is covered ends in the hash of the checkpoint where the
list is the one that is covered. -/
theorem rebuilt_iff (hD : D.WellFormed) (hversion : version = 1 ∨ version = 2)
    (h : CoversSpec D version identities checkpoint) {other : List Text}
    (hlength : other.length = identities.length) (hfree : NoCollision D identities other) :
    (∃ rebuilt, other.foldlM (·.append D ·) (TreeManifest.firstCheckpoint version) = .ok rebuilt ∧
      rebuilt.manifestHash = checkpoint.manifestHash) ↔ other = identities := by
  constructor
  · rintro ⟨rebuilt, hrebuilt, hhash⟩
    obtain ⟨hash, hchain, -, rfl⟩ := (foldlM_append_ok_iff hversion).mp hrebuilt
    obtain rfl : hash = checkpoint.manifestHash := hhash
    exact (chain_inj hlength.symm h.chain_eq hchain (hfree.chains hD hversion)).symm
  · rintro rfl
    exact ⟨_, (foldlM_append_ok_iff hversion).mpr ⟨_, h.chain_eq, h.length_lt, rfl⟩, rfl⟩

/-- A checkpoint matches the lists that begin with what it covers. -/
theorem matchesPrefix_iff (hD : D.WellFormed) (hversion : version = 1 ∨ version = 2)
    (h : CoversSpec D version identities checkpoint) {other : List Text}
    (hfree : NoCollision D identities (other.take checkpoint.coveredEntries)) :
    checkpoint.matchesPrefix D other = .ok true ↔
      other.take checkpoint.coveredEntries = identities := by
  unfold DirectoryResumeCheckpoint.matchesPrefix
  rw [check_ok_iff, and_iff_right (h.validate hD hversion)]
  by_cases hshort : other.length < checkpoint.coveredEntries
  · rw [if_pos hshort]
    refine iff_of_false (fun hwrong => nomatch hwrong) fun htake => ?_
    have hlength := congrArg List.length htake
    rw [List.length_take, h.covered_eq] at hlength
    rw [h.covered_eq] at hshort
    omega
  · rw [if_neg hshort, h.version_eq]
    have hlength : (other.take checkpoint.coveredEntries).length = identities.length := by
      rw [List.length_take_of_le (Nat.le_of_not_lt hshort), h.covered_eq]
    rw [← rebuilt_iff hD hversion h hlength hfree]
    simp only [bind_ok_iff, pure_ok_iff]
    refine exists_congr fun rebuilt => and_congr_right fun _ => ?_
    rw [eq_comm, beq_iff_eq]

/-! ### Manifests -/

namespace TreeManifest

theorem checkpointForPrefix_ok_iff {manifest : TreeManifest} {coveredEntries completedEntries : ℕ} :
    manifest.checkpointForPrefix D version coveredEntries completedEntries = .ok checkpoint ↔
      (version = 1 ∨ version = 2) ∧ completedEntries ≤ coveredEntries ∧
        coveredEntries ≤ manifest.totalFiles ∧
          ∃ rebuilt, (manifest.identities.take coveredEntries).foldlM (·.append D ·)
              (firstCheckpoint version) = .ok rebuilt ∧
            checkpoint = { rebuilt with completedEntries } ∧ checkpoint.validate = .ok () := by
  unfold checkpointForPrefix
  rw [foldlM_files]
  by_cases hrefused : (!(version == 1 || version == 2) || coveredEntries < completedEntries ||
      manifest.totalFiles < coveredEntries) = true
  · rw [if_pos hrefused]
    refine iff_of_false (fun hwrong => nomatch hwrong) fun ⟨hversion, hcompleted, hcovered, _⟩ => ?_
    simp only [Bool.or_eq_true, Bool.not_eq_true', Bool.or_eq_false_iff, beq_eq_false_iff_ne,
      decide_eq_true_eq] at hrefused
    omega
  · rw [if_neg hrefused]
    simp only [Bool.or_eq_true, Bool.not_eq_true', Bool.or_eq_false_iff, beq_eq_false_iff_ne,
      decide_eq_true_eq, not_or, Nat.not_lt, not_and_or, not_not] at hrefused
    rw [and_iff_right hrefused.1.1, and_iff_right hrefused.1.2, and_iff_right hrefused.2]
    simp only [bind_ok_iff, pure_ok_iff]
    refine exists_congr fun rebuilt => and_congr_right fun _ => ?_
    constructor
    · rintro ⟨⟨⟩, hvalid, rfl⟩
      exact ⟨rfl, hvalid⟩
    · rintro ⟨rfl, hvalid⟩
      exact ⟨(), hvalid, rfl⟩

/-- A checkpoint for a prefix covers that prefix. -/
theorem covers_of_checkpointForPrefix {manifest : TreeManifest}
    {coveredEntries completedEntries : ℕ}
    (h : manifest.checkpointForPrefix D version coveredEntries completedEntries = .ok checkpoint) :
    Covers D version (manifest.identities.take coveredEntries) checkpoint := by
  obtain ⟨-, -, -, rebuilt, hrebuilt, rfl, hvalid⟩ := checkpointForPrefix_ok_iff.mp h
  exact .complete completedEntries (.of_foldlM hrebuilt) (validate_ok_iff.mp hvalid).2.1

theorem matchesCheckpoint_iff (hD : D.WellFormed) (hversion : version = 1 ∨ version = 2)
    (h : CoversSpec D version identities checkpoint) {manifest : TreeManifest}
    (hcounted : manifest.Counted)
    (hfree : NoCollision D identities (manifest.identities.take checkpoint.coveredEntries)) :
    manifest.matchesCheckpoint D checkpoint = .ok true ↔
      manifest.identities.take checkpoint.coveredEntries = identities := by
  have hfiles : manifest.identities.length = manifest.totalFiles := by
    rw [TreeManifest.identities, List.length_map, hcounted]
  unfold matchesCheckpoint
  rw [check_ok_iff, and_iff_right (h.validate hD hversion)]
  by_cases hshort : manifest.totalFiles < checkpoint.coveredEntries
  · rw [if_pos hshort]
    refine iff_of_false (fun hwrong => nomatch hwrong) fun htake => ?_
    have hlength := congrArg List.length htake
    rw [List.length_take, hfiles, h.covered_eq] at hlength
    rw [h.covered_eq] at hshort
    omega
  · rw [if_neg hshort, h.version_eq]
    have hlength : (manifest.identities.take checkpoint.coveredEntries).length =
        identities.length := by
      rw [List.length_take_of_le (by omega), h.covered_eq]
    rw [← rebuilt_iff hD hversion h hlength hfree]
    simp only [bind_ok_iff, pure_ok_iff, checkpointForPrefix_ok_iff]
    constructor
    · rintro ⟨_, ⟨-, -, -, rebuilt, hrebuilt, rfl, -⟩, hsame⟩
      exact ⟨rebuilt, hrebuilt, beq_iff_eq.mp hsame.symm⟩
    · rintro ⟨rebuilt, hrebuilt, hsame⟩
      have hvalid : { rebuilt with completedEntries := checkpoint.completedEntries }.validate =
          .ok () := by
        obtain ⟨hash, hchain, -, rfl⟩ := (foldlM_append_ok_iff hversion).mp hrebuilt
        refine validate_ok_iff.mpr ⟨hversion, ?_, manifestChain_isLowerHex256 hD hversion hchain⟩
        rw [hlength, ← h.covered_eq]
        exact h.completed_le
      exact ⟨_, ⟨hversion, h.completed_le, Nat.le_of_not_lt hshort, rebuilt, hrebuilt, rfl, hvalid⟩,
        (beq_iff_eq.mpr hsame).symm⟩

end TreeManifest

/-! ### Migration -/

theorem migrateToV2_ok_iff {other : List Text} {migrated : DirectoryResumeCheckpoint} :
    checkpoint.migrateToV2 D other = .ok migrated ↔ checkpoint.matchesPrefix D other = .ok true ∧
      checkpoint.migrateMatching D other = .ok migrated := by
  unfold DirectoryResumeCheckpoint.migrateToV2
  rw [bind_ok_iff]
  constructor
  · rintro ⟨matching, hmatching, h⟩
    cases matching with
    | false => nomatch h
    | true => exact ⟨hmatching, h⟩
  · rintro ⟨hmatching, h⟩
    exact ⟨true, hmatching, h⟩

/-- Where the chain of the first version succeeds, that of the second does. -/
theorem manifestChain_second (hD : D.WellFormed) {hash : Text}
    (h : manifestChain D 1 identities = .ok hash) :
    ∃ hash', manifestChain D 2 identities = .ok hash' := by
  induction identities using List.reverseRecOn generalizing hash with
  | nil => exact ⟨_, rfl⟩
  | append_singleton front identity ih =>
      obtain ⟨before, hfront, hstep⟩ := chain_concat_ok h
      obtain ⟨before', hfront'⟩ := ih hfront
      have hidentity := (step_ok (.inl rfl) hstep).2.1
      have hbefore := manifestChain_isLowerHex256 hD (.inr rfl) hfront'
      refine ⟨(D.compress256 (hashWords before') (encodeUtf8 identity)).flatMap wordHex, ?_⟩
      rw [manifestChain] at hfront' ⊢
      rw [chain_concat, hfront']
      change appendDirectoryManifestIdentity D 2 before' identity = _
      rw [appendDirectoryManifestIdentity, hbefore, hidentity]
      rfl

/-- A migrated checkpoint covers the same identities. -/
theorem migrateMatching_covers (hD : D.WellFormed) (hversion : version = 1 ∨ version = 2)
    (hcovers : Covers D version identities checkpoint) {other : List Text}
    (hother : other.take checkpoint.coveredEntries = identities) :
    ∃ migrated, checkpoint.migrateMatching D other = .ok migrated ∧
      Covers D 2 identities migrated ∧
        migrated.completedEntries = checkpoint.completedEntries := by
  have h := hcovers.spec hversion
  unfold DirectoryResumeCheckpoint.migrateMatching
  obtain rfl | rfl := hversion
  · rw [h.version_eq, if_neg (by decide), hother]
    obtain ⟨hash, hchain⟩ := manifestChain_second hD h.chain_eq
    have hmigrated := (foldlM_append_ok_iff (.inr rfl)).mpr ⟨hash, hchain, h.length_lt, rfl⟩
    refine ⟨_, bind_ok_iff.mpr ⟨_, hmigrated, rfl⟩, ?_, rfl⟩
    refine .complete checkpoint.completedEntries (.of_foldlM hmigrated) ?_
    rw [← h.covered_eq]
    exact h.completed_le
  · rw [h.version_eq, if_pos rfl]
    exact ⟨checkpoint, rfl, hcovers, rfl⟩

end Covers

/-! ### The manifests that are discovered -/

section Discovery

variable {W ε P F : Type}

/-- As many files are counted as are found. -/
def CountedState (s : TreeState W) : Prop := s.totalFiles = s.files.length

theorem recordFile_keeps (E : TreeErrors ε) (D : ManifestDigest)
    (relativePath sourcePath targetPath : Text) (size modifiedAt : ℕ) (isSymlink : Bool) :
    Fueled.Keeps CountedState (recordFile E D relativePath sourcePath targetPath size modifiedAt
      isSymlink : Discovery W ε Unit) := by
  -- between its count and its entry a file is counted that is not yet in the list
  let Ahead (s : TreeState W) : Prop := s.totalFiles = s.files.length + 1
  refine Fueled.Keeps.of_ends (X := fun _ => True) ?_
  refine Fueled.Ends.bind (R := fun _ => CountedState)
    (Fueled.Ends.ofExcept (fun _ _ _ hs => hs) fun _ _ => trivial) fun identity => ?_
  refine Fueled.Ends.bind (R := fun _ => CountedState) (Fueled.Ends.step fun s hs => hs)
    fun index => ?_
  refine Fueled.Ends.bind (R := fun _ => Ahead) (Fueled.Ends.step fun s hs => ?_) fun _ =>
    Fueled.Ends.bind (R := fun _ => Ahead) (Fueled.Ends.step fun s hs => ?_) fun _ =>
      Fueled.Ends.bind (R := fun _ => Ahead) (Fueled.Ends.step fun s hs => ?_) fun _ =>
        Fueled.Ends.update fun s hs => ?_
  · unfold checkedAdd
    by_cases hroom : s.totalFiles + 1 < 2 ^ 64
    · rw [if_pos hroom]
      exact congrArg (· + 1) hs
    · rw [if_neg hroom]
      trivial
  · cases checkedAdd s.totalBytes size with
    | none => trivial
    | some totalBytes => exact hs
  · cases s.manifestCheckpoint.append D identity with
    | error error => trivial
    | ok checkpoint => exact hs
  · change s.totalFiles = (s.files ++ [_]).length
    rw [List.length_append]
    exact hs

/-- A walker whose steps count right. -/
structure Walker.Counts (K : Walker W ε P F) : Prop where
  canonicalize : ∀ path, Fueled.Keeps CountedState (K.canonicalize path)
  openDirectory : ∀ place, Fueled.Keeps CountedState (K.openDirectory place)
  appendFile : ∀ file, Fueled.Keeps CountedState (K.appendFile file)
  skip : ∀ place reason, Fueled.Keeps CountedState (K.skip place reason)

theorem walkDirectory_keeps {K : Walker W ε P F} {options : TreeOptions} (hK : K.Counts)
    (fuel : ℕ) (place : Place P) (symlinkDepth : ℕ) :
    Fueled.Keeps CountedState (walkDirectory K options fuel place symlinkDepth) := by
  induction fuel generalizing place symlinkDepth with
  | zero => exact Fueled.exhausted_keeps
  | succ fuel ih =>
      refine (hK.canonicalize _).bind fun canonical => ?_
      refine Fueled.Keeps.bind (Fueled.Keeps.step fun s hs => hs) fun claimed => ?_
      cases claimed with
      | none => exact hK.skip _ _
      | some claimed =>
          rw [walkGranted]
          refine Fueled.Keeps.finallyUpdate ?_ fun s hs => hs
          refine (hK.openDirectory place).bind fun entries => ?_
          refine (Fueled.Keeps.forM (fun entry => ?_) _).bind fun _ =>
            (Fueled.Keeps.forM hK.appendFile _).bind fun _ =>
              Fueled.Keeps.forM (fun entry => hK.skip entry _) _
          unfold walkChild
          split_ifs
          · exact hK.skip _ _
          · exact hK.skip _ _
          · exact ih entry _

theorem accountEntries_keeps (E : TreeErrors ε) (count : ℕ) :
    Fueled.Keeps CountedState (accountEntries E count : Discovery W ε Unit) :=
  Fueled.Keeps.step fun _ hs => hs

theorem pushDirectory_keeps (entry : TreeDirectoryEntry) :
    Fueled.Keeps CountedState (pushDirectory entry : Discovery W ε Unit) :=
  Fueled.Keeps.update fun _ hs => hs

theorem pushSkipped_keeps (entry : TreeSkippedEntry) :
    Fueled.Keeps CountedState (pushSkipped entry : Discovery W ε Unit) :=
  Fueled.Keeps.update fun _ hs => hs

/-- A program whose manifest is counted. -/
def CountsManifest (m : Discovery W ε TreeManifest) : Prop :=
  ∀ s, CountedState s → ∀ manifest s', Fueled.succeeds m s = some (manifest, s') → manifest.Counted

theorem CountsManifest.bind {α : Type} {m : Discovery W ε α} {f : α → Discovery W ε TreeManifest}
    (hm : Fueled.Keeps CountedState m) (hf : ∀ a, CountsManifest (f a)) :
    CountsManifest (m >>= f) := by
  intro s hs manifest s' h
  rw [Fueled.succeeds_bind] at h
  obtain ⟨⟨a, t⟩, hrun, hend⟩ := Option.bind_eq_some_iff.mp h
  exact hf a t (hm s hs a t hrun) manifest s' hend

theorem manifest_countsManifest (sourceRoot targetRoot : Text) :
    CountsManifest (Fueled.step fun s => (.ok (s.manifest sourceRoot targetRoot), s) :
      Discovery W ε TreeManifest) := by
  intro s hs manifest s' h
  obtain ⟨rfl, -⟩ := Prod.mk.inj (Option.some.inj h)
  exact hs

end Discovery

theorem localWalker_counts (D : ManifestDigest) (fs : LocalFileSystem) (targetRoot : Text) :
    (localWalker D fs targetRoot).Counts where
  canonicalize _ := (Fueled.Keeps.ofExcept _).bind fun _ => Fueled.Keeps.ofExcept _
  openDirectory _ := (Fueled.Keeps.ofExcept _).bind fun _ => (pushDirectory_keeps _).bind fun _ =>
    (Fueled.Keeps.ofExcept _).bind fun _ => (Fueled.Keeps.mapM' (fun _ =>
      (accountEntries_keeps _ _).bind fun _ => Fueled.Keeps.ofExcept _) _).bind fun _ =>
        Fueled.Keeps.pure _
  appendFile _ := (Fueled.Keeps.ofExcept _).bind fun _ => (Fueled.Keeps.ofExcept _).bind fun _ =>
    recordFile_keeps _ _ _ _ _ _ _ _
  skip _ _ := (Fueled.Keeps.ofExcept _).bind fun _ => pushSkipped_keeps _

theorem remoteWalker_counts {W : Type} (D : ManifestDigest) (S : RemoteTreeSource W)
    (targetRoot : OsPath) : (remoteWalker D S targetRoot).Counts where
  canonicalize _ := Fueled.Keeps.step fun _ hs => hs
  openDirectory _ := (Fueled.Keeps.ofExcept _).bind fun _ => (Fueled.Keeps.ofExcept _).bind
    fun _ => (pushDirectory_keeps _).bind fun _ => (Fueled.Keeps.step fun _ hs => hs).bind fun _ =>
      (accountEntries_keeps _ _).bind fun _ => (Fueled.Keeps.ofExcept _).bind fun _ =>
        (Fueled.Keeps.mapM' (fun entry => (Fueled.Keeps.ofExcept _).bind fun _ =>
          Fueled.Keeps.bind (by
            unfold entryMetadata
            split_ifs
            · exact Fueled.Keeps.step fun _ hs => hs
            · exact Fueled.Keeps.pure _) fun _ => Fueled.Keeps.pure _) _).bind fun _ =>
              Fueled.Keeps.pure _
  appendFile _ := (Fueled.Keeps.ofExcept _).bind fun _ => recordFile_keeps _ _ _ _ _ _ _ _
  skip _ _ := pushSkipped_keeps _

theorem discoverLocalTree_counted (D : ManifestDigest) (fs : LocalFileSystem) (targetRoot : Text)
    (fuel : ℕ) (sourceRoot : OsPath) (options : TreeOptions) :
    CountsManifest (discoverLocalTree D fs targetRoot fuel sourceRoot options) :=
  .bind (Fueled.Keeps.ofExcept _) fun _ => .bind (Fueled.Keeps.ofExcept _) fun _ =>
    .bind (Fueled.Keeps.ofExcept _) fun _ => .bind (Fueled.Keeps.ofExcept _) fun _ =>
      .bind (walkDirectory_keeps (localWalker_counts _ _ _) _ _ _) fun _ =>
        manifest_countsManifest _ _

theorem discoverRemoteTree_counted {W : Type} (D : ManifestDigest) (S : RemoteTreeSource W)
    (targetRoot : OsPath) (fuel : ℕ) (sourceRoot : Text) (options : TreeOptions) :
    CountsManifest (discoverRemoteTree D S targetRoot fuel sourceRoot options) :=
  .bind (Fueled.Keeps.ofExcept _) fun _ => .bind (Fueled.Keeps.ofExcept _) fun _ =>
    .bind (Fueled.Keeps.ofExcept _) fun _ =>
      .bind (walkDirectory_keeps (remoteWalker_counts _ _ _) _ _ _) fun _ =>
        manifest_countsManifest _ _

/-! ### Identification -/

/-- **A file is identified by its paths, its size and its time.** -/
theorem directoryEntryIdentity_inj {D : ManifestDigest} (hD : D.WellFormed)
    {sourcePath targetPath sourcePath' targetPath' identity : Text}
    {size modifiedAt size' modifiedAt' : ℕ}
    (h : createDirectoryEntryIdentity D sourcePath targetPath size modifiedAt = .ok identity)
    (h' : createDirectoryEntryIdentity D sourcePath' targetPath' size' modifiedAt' = .ok identity)
    (hfree : Set.InjOn D.sha256Hex {serdeTuple sourcePath targetPath size modifiedAt,
      serdeTuple sourcePath' targetPath' size' modifiedAt'}) :
    sourcePath = sourcePath' ∧ targetPath = targetPath' ∧ size = size' ∧
      modifiedAt = modifiedAt' := by
  rw [createDirectoryEntryIdentity, hD.encodeIdentity] at h h'
  refine serdeTuple_inj (hfree (.inl rfl) (.inr rfl) ?_)
  exact (Except.ok.inj h).trans (Except.ok.inj h').symm

/-- A checkpoint matches the lists, and the manifests, that begin with the identities and no
others. -/
structure Identifies (D : ManifestDigest) (identities : List Text)
    (checkpoint : DirectoryResumeCheckpoint) : Prop where
  covered : checkpoint.coveredEntries = identities.length
  list : ∀ other, NoCollision D identities (other.take checkpoint.coveredEntries) →
    (checkpoint.matchesPrefix D other = .ok true ↔
      other.take checkpoint.coveredEntries = identities)
  manifest : ∀ manifest : TreeManifest, manifest.Counted →
    NoCollision D identities (manifest.identities.take checkpoint.coveredEntries) →
      (manifest.matchesCheckpoint D checkpoint = .ok true ↔
        manifest.identities.take checkpoint.coveredEntries = identities)

theorem Covers.identifies {D : ManifestDigest} (hD : D.WellFormed) {version : ℕ}
    (hversion : version = 1 ∨ version = 2) {identities : List Text}
    {checkpoint : DirectoryResumeCheckpoint} (h : Covers D version identities checkpoint) :
    Identifies D identities checkpoint where
  covered := (h.spec hversion).covered_eq
  list _ hfree := matchesPrefix_iff hD hversion (h.spec hversion) hfree
  manifest _ hcounted hfree :=
    TreeManifest.matchesCheckpoint_iff hD hversion (h.spec hversion) hcounted hfree

/-- What a migration comes to: the same identities with the same count of completed entries where
the prefix matches, and an error elsewhere. -/
structure Migrates (D : ManifestDigest) (identities : List Text)
    (checkpoint : DirectoryResumeCheckpoint) (other : List Text) : Prop where
  matching : other.take checkpoint.coveredEntries = identities →
    ∃ migrated, checkpoint.migrateToV2 D other = .ok migrated ∧ migrated.version = 2 ∧
      migrated.completedEntries = checkpoint.completedEntries ∧ Identifies D identities migrated
  different : other.take checkpoint.coveredEntries ≠ identities →
    ∃ error, checkpoint.migrateToV2 D other = .error error

theorem Covers.migrates {D : ManifestDigest} (hD : D.WellFormed) {version : ℕ}
    (hversion : version = 1 ∨ version = 2) {identities : List Text}
    {checkpoint : DirectoryResumeCheckpoint} (h : Covers D version identities checkpoint)
    {other : List Text} (hfree : NoCollision D identities (other.take checkpoint.coveredEntries)) :
    Migrates D identities checkpoint other := by
  have hmatches := matchesPrefix_iff hD hversion (h.spec hversion) hfree
  constructor
  · intro hother
    obtain ⟨migrated, hmigrated, hcovers, hcompleted⟩ := migrateMatching_covers hD hversion h hother
    exact ⟨migrated, migrateToV2_ok_iff.mpr ⟨hmatches.mpr hother, hmigrated⟩,
      (hcovers.spec (.inr rfl)).version_eq, hcompleted, hcovers.identifies hD (.inr rfl)⟩
  · intro hother
    cases hmigrated : checkpoint.migrateToV2 D other with
    | error error => exact ⟨error, rfl⟩
    | ok migrated => exact absurd (hmatches.mp (migrateToV2_ok_iff.mp hmigrated).1) hother

/-- **A checkpoint identifies exactly the prefix it was built from**, in both versions, for lists of
identities and for manifests; a migration keeps the prefix, and an identity stands for one source,
target, size and time.  Every manifest that is discovered counts its files right. -/
theorem checkpoints_identify_prefixes {D : ManifestDigest} (hD : D.WellFormed) :
    (∀ version, version = 1 ∨ version = 2 → ∀ identities checkpoint,
      Covers D version identities checkpoint → Identifies D identities checkpoint ∧
        ∀ other, NoCollision D identities (other.take checkpoint.coveredEntries) →
          Migrates D identities checkpoint other) ∧
    (∀ (manifest : TreeManifest) (version coveredEntries completedEntries : ℕ) checkpoint,
      manifest.checkpointForPrefix D version coveredEntries completedEntries = .ok checkpoint →
        (version = 1 ∨ version = 2) ∧
          Covers D version (manifest.identities.take coveredEntries) checkpoint) ∧
    (∀ (sourcePath targetPath sourcePath' targetPath' identity : Text)
        (size modifiedAt size' modifiedAt' : ℕ),
      createDirectoryEntryIdentity D sourcePath targetPath size modifiedAt = .ok identity →
      createDirectoryEntryIdentity D sourcePath' targetPath' size' modifiedAt' = .ok identity →
      Set.InjOn D.sha256Hex {serdeTuple sourcePath targetPath size modifiedAt,
        serdeTuple sourcePath' targetPath' size' modifiedAt'} →
      sourcePath = sourcePath' ∧ targetPath = targetPath' ∧ size = size' ∧
        modifiedAt = modifiedAt') ∧
    (∀ (fs : LocalFileSystem) targetRoot fuel sourceRoot options,
      CountsManifest (discoverLocalTree D fs targetRoot fuel sourceRoot options)) ∧
    ∀ (W : Type) (S : RemoteTreeSource W) targetRoot fuel sourceRoot options,
      CountsManifest (discoverRemoteTree D S targetRoot fuel sourceRoot options) :=
  ⟨fun _ hversion _ _ h => ⟨h.identifies hD hversion, fun _ hfree => h.migrates hD hversion hfree⟩,
    fun _ _ _ _ _ h => ⟨(TreeManifest.checkpointForPrefix_ok_iff.mp h).1,
      TreeManifest.covers_of_checkpointForPrefix h⟩,
    fun _ _ _ _ _ _ _ _ _ h h' hfree => directoryEntryIdentity_inj hD h h' hfree,
    fun _ _ _ _ _ => discoverLocalTree_counted _ _ _ _ _ _,
    fun _ _ _ _ _ _ => discoverRemoteTree_counted _ _ _ _ _ _⟩

/-! ### An instance -/

def firstIdentity : Text := List.replicate 64 'a'
def secondIdentity : Text := List.replicate 64 'b'

/-- The values of the hash functions on the two identities, in chains of one entry. -/
def tabulatedDigest : ManifestDigest where
  encodeIdentity sourcePath targetPath size modifiedAt :=
    some (serdeTuple sourcePath targetPath size modifiedAt)
  sha256Hex bytes :=
    if bytes = sha256Input (firstHash 1, firstIdentity) then
      "04fcb9cc35d4314b4e44db25a6780859399b77d4abc77b85e09dd623b532a325".toList
    else if bytes = sha256Input (firstHash 1, secondIdentity) then
      "180c15bb24cfa777183339292fcdf8c7dac1a6bbac44fefd9a3ec7a5c2076961".toList
    else List.replicate 64 '0'
  compress256 state block :=
    if (state, block) = compressInput (firstHash 2, firstIdentity) then
      [0xdf5bb81c, 0xe81e0626, 0xfb45a894, 0x4fd40f31, 0xb25e6816, 0xd6d499c1, 0xab904929, 0x635e66]
    else if (state, block) = compressInput (firstHash 2, secondIdentity) then
      [0x3fb0a766, 0xaa053d3f, 0xaef820bb, 0x660349bf, 0x2d9c86d6, 0xfa2e6f6a, 0x6ffc5d7c,
        0x216a7687]
    else List.replicate 8 0

theorem tabulatedDigest_wellFormed : tabulatedDigest.WellFormed where
  encodeIdentity _ _ _ _ := rfl
  sha256Hex bytes := by
    unfold tabulatedDigest
    dsimp only
    split_ifs <;> decide
  compress256 state block _ _ := by
    unfold tabulatedDigest
    dsimp only
    split_ifs <;> decide

theorem tabulatedDigest_noCollision :
    NoCollision tabulatedDigest [firstIdentity] [secondIdentity] := by
  constructor
  · rw [hashedInputs, inputs_singleton, inputs_singleton, Set.image_union, Set.image_singleton,
      Set.image_singleton, Set.singleton_union, Set.injOn_pair]
    intro hwrong
    exact absurd hwrong (by decide)
  · rw [hashedInputs, inputs_singleton, inputs_singleton, Set.image_union, Set.image_singleton,
      Set.image_singleton, Set.singleton_union, Set.injOn_pair]
    intro hwrong
    exact absurd hwrong (by decide)

/-- A checkpoint of the first version over one file that is done. -/
def legacyCheckpoint : DirectoryResumeCheckpoint :=
  ⟨1, 1, 1, tabulatedDigest.sha256Hex (sha256Input (firstHash 1, firstIdentity))⟩

theorem legacyCheckpoint_covers : Covers tabulatedDigest 1 [firstIdentity] legacyCheckpoint := by
  have hfirst : Covers tabulatedDigest 1 ([] ++ [firstIdentity])
      { legacyCheckpoint with completedEntries := 0 } := .append .first (by decide)
  exact .complete 1 hfirst (Nat.le_refl 1)

theorem checkpoints_identify_prefixes_legacy :
    (legacyCheckpoint.matchesPrefix tabulatedDigest [secondIdentity] = .ok true ↔
      [secondIdentity] = [firstIdentity]) ∧
    Migrates tabulatedDigest [firstIdentity] legacyCheckpoint [secondIdentity] := by
  have h := (checkpoints_identify_prefixes tabulatedDigest_wellFormed).1 1 (.inl rfl) _ _
    legacyCheckpoint_covers
  exact ⟨h.1.list _ tabulatedDigest_noCollision, h.2 _ tabulatedDigest_noCollision⟩

end Netcatty.Ssh
