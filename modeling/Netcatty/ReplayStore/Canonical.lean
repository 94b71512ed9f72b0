import Netcatty.ReplayStore.Bundles

/-! # What the decoders take

`decodeIndexBundle` takes the entries of an index in any order, and each digest once
(`decodeIndexBundle_spec`); the encoder writes them in one (`HoldsListing.encoded_iff`).  A replay
has one encoding (`decodeReplayBundle_spec`).  The decoders never panic. -/

set_option maxRecDepth 8000

namespace Netcatty.ReplayStore

open BigEndian
open LogExport (usizeLimit addOrPanic)
open Secret (Digest SshSecretBundle)
open Serial (encodeUtf8 decodeUtf8)
open Vault (Text utf8Len)
open ConnectionLogReplayStoreErrorCode

/-! ### Checked reads -/

section Reads

variable {bytes : Bytes} {cursor : ℕ}

theorem readNumber_eq {width offset : ℕ} (hlength : bytes.length < usizeLimit)
    (h : offset + width ≤ bytes.length) :
    readNumber width bytes offset = some (readBe bytes offset width) := by
  unfold readNumber
  rw [if_pos (by omega)]
  exact if_pos h

theorem addOrPanic_eq {a b : ℕ} (hlength : bytes.length < usizeLimit) (h : a + b ≤ bytes.length) :
    addOrPanic a b = some (a + b) := if_pos (by omega)

theorem fieldOrPanic_eq {start stop : ℕ} (hlength : bytes.length < usizeLimit)
    (hle : start ≤ stop) (h : cursor + stop ≤ bytes.length) :
    fieldOrPanic bytes cursor start stop = some (slice bytes (cursor + start) (stop - start)) := by
  have hsub : cursor + stop - (cursor + start) = stop - start := by omega
  rw [fieldOrPanic, addOrPanic_eq hlength (by omega), addOrPanic_eq hlength h]
  simp only [Option.bind_eq_bind, Option.bind_some]
  rw [sliceOrPanic, if_pos ⟨by omega, h⟩, hsub]

theorem readField_eq {start : ℕ} (hlength : bytes.length < usizeLimit)
    (h : cursor + start + 8 ≤ bytes.length) :
    readField bytes cursor start = some (.ok (.ofNat (readBe bytes (cursor + start) 8))) := by
  rw [readField, addOrPanic_eq hlength (by omega)]
  simp only [Option.bind_eq_bind, Option.bind_some]
  rw [readNumber_eq hlength h]
  rfl

theorem slice_one {offset : ℕ} {byte : UInt8} :
    slice bytes offset 1 = [byte] ↔ bytes[offset]? = some byte := by
  rw [slice, List.take_one, List.head?_drop]
  cases bytes[offset]? <;> simp

theorem savedFlag_eq_some_iff {byte : UInt8} {saved : Bool} :
    savedFlag byte = some saved ↔ byte = if saved then 1 else 0 := by
  unfold savedFlag
  split_ifs with h₀ h₁ h₂ h₃ <;> simp_all

end Reads

/-! ### Bundles of a private key -/

theorem bundleOf_ok_iff {encoded : Bytes} {bundle : SshSecretBundle} :
    bundleOf encoded = .ok bundle ↔
      bundle.privateKey = encoded ∧ hasOnlyPrivateKey bundle = true := by
  constructor
  · intro h
    unfold bundleOf SshSecretBundle.new at h
    cases hprivate : Secret.validateRequired encoded Secret.maxPrivateKeyBytes with
    | error code => rw [hprivate] at h; cases h
    | ok checked =>
        have hvalid : Secret.ValidBundle encoded none none none :=
          ⟨checked.down.1, checked.down.2, nofun, nofun, nofun⟩
        have hnew := SshSecretBundle.new_fields ⟨encoded, none, none, none, hvalid⟩
        unfold SshSecretBundle.new at hnew
        simp only at hnew
        rw [hnew] at h
        obtain rfl := Except.ok.inj h
        exact ⟨rfl, rfl⟩
  · rintro ⟨rfl, honly⟩
    have hnew := bundle.new_fields
    unfold hasOnlyPrivateKey at honly
    simp only [Bool.and_eq_true, Option.isNone_iff_eq_none] at honly
    rw [honly.1.1, honly.1.2, honly.2] at hnew
    rw [bundleOf, hnew]
    rfl

/-! ### Entries -/

/-- What the codecs take for an entry. -/
def Recordable (entry : ReplayIndexEntry) : Prop := entry.revision ≠ 0 ∧ entry.startTime ≠ 0

theorem length_encodeEntry (digest : Digest) (entry : ReplayIndexEntry) :
    (encodeEntry digest entry).length = indexEntryBytes := by
  simp only [encodeEntry, List.length_append, digest.length_eq, length_beBytes,
    List.length_singleton, List.length_replicate]
  rfl

theorem ofNat_readBe_eq_iff {bytes : Bytes} {offset : ℕ} {n : UInt64}
    (h : offset + 8 ≤ bytes.length) :
    UInt64.ofNat (readBe bytes offset 8) = n ↔ slice bytes offset 8 = beBytes 8 n.toNat := by
  have hlt : readBe bytes offset 8 < 2 ^ 64 := by
    have := beValue_lt (slice bytes offset 8)
    rw [length_slice h] at this
    exact this
  have hn : n.toNat < 256 ^ 8 := n.toNat_lt
  rw [slice_eq_beBytes_iff h hn, ← UInt64.toNat_inj, UInt64.toNat_ofNat', Nat.mod_eq_of_lt hlt]

theorem reserved_iff {reserved : Bytes} (h : reserved.length = 7) :
    reserved.any (· ≠ 0) = false ↔ reserved = List.replicate 7 0 := by
  rw [List.eq_replicate_iff]
  simp [h]

section Entry

variable {bytes : Bytes} {cursor : ℕ}

/-- An entry is written at a place where its fields are. -/
theorem drop_eq_encodeEntry_iff {digest : Digest} {entry : ReplayIndexEntry} {rest : Bytes} :
    bytes.drop cursor = encodeEntry digest entry ++ rest ↔
      slice bytes cursor 32 = digest.bytes ∧
      slice bytes (cursor + 32) 8 = beBytes 8 entry.revision.toNat ∧
      slice bytes (cursor + 40) 8 = beBytes 8 entry.startTime.toNat ∧
      slice bytes (cursor + 48) 1 = [if entry.saved then 1 else 0] ∧
      slice bytes (cursor + 49) 7 = List.replicate 7 0 ∧ bytes.drop (cursor + 56) = rest := by
  unfold encodeEntry
  simp only [List.append_assoc]
  rw [drop_eq_append_iff digest.length_eq, drop_eq_append_iff (length_beBytes 8 _),
    drop_eq_append_iff (length_beBytes 8 _), drop_eq_append_iff (show List.length [_] = 1 from rfl),
    drop_eq_append_iff (List.length_replicate)]

theorem readFlags_spec (hlength : bytes.length < usizeLimit) (h : cursor + 56 ≤ bytes.length)
    (revision startTime : UInt64) :
    ∃ read, readFlags bytes cursor revision startTime = some read ∧
      ∀ saved, read = .ok saved ↔ revision ≠ 0 ∧ startTime ≠ 0 ∧
        slice bytes (cursor + 48) 1 = [if saved then 1 else 0] ∧
        slice bytes (cursor + 49) 7 = List.replicate 7 0 := by
  obtain ⟨flag, hflag⟩ : ∃ flag, bytes[cursor + 48]? = some flag :=
    ⟨_, List.getElem?_eq_getElem (by omega)⟩
  have hslice : ∀ saved : Bool, slice bytes (cursor + 48) 1 = [if saved then 1 else 0] ↔
      savedFlag flag = some saved := by
    intro saved
    rw [slice_one, hflag, savedFlag_eq_some_iff, Option.some.injEq]
  unfold readFlags
  rw [addOrPanic_eq hlength (by omega)]
  simp only [Option.bind_eq_bind, Option.bind_some, hflag]
  cases hsaved : savedFlag flag with
  | none =>
      refine ⟨_, rfl, fun saved => ⟨nofun, fun hread => ?_⟩⟩
      rw [hslice, hsaved] at hread
      cases hread.2.2.1
  | some saved =>
      have hfield : fieldOrPanic bytes cursor 49 indexEntryBytes =
          some (slice bytes (cursor + 49) 7) := fieldOrPanic_eq hlength (by decide) h
      have hin : cursor + 49 + 7 ≤ bytes.length := by omega
      have hreserved := reserved_iff (length_slice hin)
      simp only [hfield, Option.bind_some]
      split_ifs with hbad
      · refine ⟨_, rfl, fun saved' => ⟨nofun, fun hread => ?_⟩⟩
        obtain ⟨hrevision, hstart, -, hzero⟩ := hread
        rw [← hreserved] at hzero
        rcases hbad with hbad | hbad | hbad
        · exact absurd hbad hrevision
        · exact absurd hbad hstart
        · rw [hzero] at hbad
          cases hbad
      · rw [not_or, not_or, Bool.not_eq_true, hreserved] at hbad
        refine ⟨_, rfl, fun saved' => ?_⟩
        rw [hslice, hsaved]
        refine ⟨fun hread => ?_, fun hread => ?_⟩
        · exact ⟨hbad.1, hbad.2.1, congrArg some (Except.ok.inj hread), hbad.2.2⟩
        · exact congrArg Except.ok (Option.some.inj hread.2.2.1)

theorem readEntry_spec (hlength : bytes.length < usizeLimit) (h : cursor + 56 ≤ bytes.length) :
    ∃ read, readEntry bytes cursor = some read ∧
      ∀ digest entry, read = .ok (digest, entry) ↔ Recordable entry ∧
        bytes.drop cursor = encodeEntry digest entry ++ bytes.drop (cursor + 56) := by
  have hdigest : (slice bytes cursor 32).length = 32 := length_slice (by omega)
  have hfield : fieldOrPanic bytes cursor 0 32 = some (slice bytes cursor 32) :=
    fieldOrPanic_eq hlength (by decide) (by omega)
  have hslice : Digest.fromSlice (slice bytes cursor 32) = some ⟨slice bytes cursor 32, hdigest⟩ :=
    dif_pos hdigest
  obtain ⟨read, hread, hiff⟩ := readFlags_spec hlength h
    (.ofNat (readBe bytes (cursor + 32) 8)) (.ofNat (readBe bytes (cursor + 40) 8))
  refine ⟨read.map fun saved => (⟨slice bytes cursor 32, hdigest⟩,
    ⟨.ofNat (readBe bytes (cursor + 32) 8), .ofNat (readBe bytes (cursor + 40) 8), saved⟩), ?_, ?_⟩
  · unfold readEntry
    simp only [hfield, Option.bind_eq_bind, Option.bind_some, hslice,
      readField_eq hlength (show cursor + 32 + 8 ≤ bytes.length by omega),
      readField_eq hlength (show cursor + 40 + 8 ≤ bytes.length by omega), hread]
    rfl
  · intro digest entry
    obtain ⟨revision, startTime, saved⟩ := entry
    rw [drop_eq_encodeEntry_iff, ← ofNat_readBe_eq_iff (by omega), ← ofNat_readBe_eq_iff (by omega)]
    constructor
    · intro hmap
      cases read with
      | error code => cases hmap
      | ok saved' =>
          obtain ⟨hrevision, hstart, hflag, hzero⟩ := (hiff saved').mp rfl
          cases hmap
          exact ⟨⟨hrevision, hstart⟩, rfl, rfl, rfl, hflag, hzero, rfl⟩
    · rintro ⟨⟨hrevision, hstart⟩, hbytes, rfl, rfl, hflag, hzero, -⟩
      rw [(hiff saved).mpr ⟨hrevision, hstart, hflag, hzero⟩]
      cases digest
      cases hbytes
      rfl

end Entry

/-! ### The loop over the entries -/

def listingBytes (listing : List (Digest × ReplayIndexEntry)) : Bytes :=
  listing.flatMap fun item => encodeEntry item.1 item.2

theorem length_listingBytes (listing : List (Digest × ReplayIndexEntry)) :
    (listingBytes listing).length = listing.length * indexEntryBytes := by
  induction listing with
  | nil => rfl
  | cons item rest ih =>
      rw [listingBytes, List.flatMap_cons, List.length_append, length_encodeEntry, List.length_cons,
        Nat.succ_mul, Nat.add_comm]
      exact congrArg (· + indexEntryBytes) ih

/-- A fresh entry comes before the others of a map that holds them all. -/
theorem fresh_of_perm {entries index : ReplayIndex} {item : Digest × ReplayIndexEntry}
    {rest : List (Digest × ReplayIndexEntry)}
    (h : index.entries.Perm (entries.entries ++ item :: rest)) :
    entries.contains item.1 = false := by
  rw [SortedMap.contains_eq_false_iff]
  intro entry hmem heq
  have hnodup := (h.map Prod.fst).nodup_iff.mp index.keys_nodup
  rw [List.map_append, List.map_cons] at hnodup
  exact (List.nodup_append.mp hnodup).2.2 _ (List.mem_map_of_mem hmem) _ List.mem_cons_self heq

theorem drop_eq_listingBytes_cons {bytes : Bytes} {cursor : ℕ} {digest : Digest}
    {entry : ReplayIndexEntry} {rest : List (Digest × ReplayIndexEntry)} :
    bytes.drop cursor = listingBytes ((digest, entry) :: rest) ↔
      bytes.drop cursor = encodeEntry digest entry ++ bytes.drop (cursor + indexEntryBytes) ∧
      bytes.drop (cursor + indexEntryBytes) = listingBytes rest := by
  have hlength := length_encodeEntry digest entry
  rw [listingBytes, List.flatMap_cons, drop_eq_append_iff hlength, drop_eq_append_iff hlength]
  simp [listingBytes]

/-- **The loop reads the entries that are written, each digest once, in any order.** -/
theorem decodeEntries_spec {bytes : Bytes} (hlength : bytes.length < usizeLimit) (count : ℕ)
    {cursor : ℕ} (h : cursor + count * indexEntryBytes = bytes.length) (entries : ReplayIndex) :
    ∃ result, decodeEntries bytes count cursor entries = some result ∧
      ∀ index, result = .ok index ↔ ∃ listing : List (Digest × ReplayIndexEntry),
        listing.length = count ∧ bytes.drop cursor = listingBytes listing ∧
        (∀ item ∈ listing, Recordable item.2) ∧
        index.entries.Perm (entries.entries ++ listing) := by
  induction count generalizing cursor entries with
  | zero =>
      have hdone : bytes.drop cursor = [] := List.drop_of_length_le (by omega)
      refine ⟨_, rfl, fun index => ⟨fun hindex => ?_, ?_⟩⟩
      · refine ⟨[], rfl, hdone, nofun, ?_⟩
        rw [← Except.ok.inj hindex, List.append_nil]
      · rintro ⟨listing, hcount, -, -, hperm⟩
        rw [List.length_eq_zero_iff.mp hcount, List.append_nil] at hperm
        rw [SortedMap.eq_of_perm hperm]
  | succ count ih =>
      have hsize : indexEntryBytes = 56 := rfl
      have hnext : cursor + indexEntryBytes + count * indexEntryBytes = bytes.length := by
        rw [← h, Nat.succ_mul]
        omega
      have hin : cursor + 56 ≤ bytes.length := by omega
      obtain ⟨read, hread, hiff⟩ := readEntry_spec hlength hin
      have hcursor : addOrPanic cursor indexEntryBytes = some (cursor + indexEntryBytes) :=
        addOrPanic_eq hlength (by omega)
      unfold decodeEntries
      simp only [Option.bind_eq_bind, hread, Option.bind_some]
      cases read with
      | error code =>
          refine ⟨_, rfl, fun index => ⟨nofun, ?_⟩⟩
          rintro ⟨_ | ⟨⟨digest, entry⟩, listing⟩, hcount, hbytes, hrecordable, -⟩
          · cases hcount
          · rw [drop_eq_listingBytes_cons] at hbytes
            have hread := (hiff digest entry).mpr ⟨hrecordable _ List.mem_cons_self, hbytes.1⟩
            cases hread
      | ok item =>
          obtain ⟨digest, entry⟩ := item
          obtain ⟨hrecordable, hentry⟩ := (hiff digest entry).mp rfl
          have hsame : ∀ digest' entry', Recordable entry' →
              bytes.drop cursor = encodeEntry digest' entry' ++ bytes.drop (cursor + 56) →
              (digest', entry') = (digest, entry) := fun digest' entry' hrecordable' hentry' =>
            (Except.ok.inj ((hiff digest' entry').mpr ⟨hrecordable', hentry'⟩)).symm
          simp only
          cases hfresh : entries.contains digest with
          | true =>
              refine ⟨_, rfl, fun index => ⟨nofun, ?_⟩⟩
              rintro ⟨_ | ⟨⟨digest', entry'⟩, listing⟩, hcount, hbytes, hall, hperm⟩
              · cases hcount
              · rw [drop_eq_listingBytes_cons] at hbytes
                have heq := hsame digest' entry' (hall _ List.mem_cons_self) hbytes.1
                rw [heq] at hperm
                have hfresh' := fresh_of_perm hperm
                rw [hfresh] at hfresh'
                cases hfresh'
          | false =>
              obtain ⟨result, hresult, hindex⟩ := ih hnext (entries.insert digest entry)
              have hinsert := SortedMap.insert_perm hfresh entry
              have hmoved : ∀ listing : List (Digest × ReplayIndexEntry),
                  ((entries.insert digest entry).entries ++ listing).Perm
                    (entries.entries ++ (digest, entry) :: listing) := fun listing =>
                (hinsert.append_right listing).trans List.perm_middle.symm
              refine ⟨result, ?_, fun index => ?_⟩
              · simpa only [Bool.false_eq_true, if_false, hcursor, Option.bind_some] using hresult
              · rw [hindex index]
                constructor
                · rintro ⟨listing, hcount, hbytes, hall, hperm⟩
                  refine ⟨(digest, entry) :: listing, congrArg Nat.succ hcount,
                    drop_eq_listingBytes_cons.mpr ⟨hentry, hbytes⟩, ?_,
                    hperm.trans (hmoved listing)⟩
                  exact List.forall_mem_cons.mpr ⟨hrecordable, hall⟩
                · rintro ⟨_ | ⟨⟨digest', entry'⟩, listing⟩, hcount, hbytes, hall, hperm⟩
                  · cases hcount
                  · rw [drop_eq_listingBytes_cons] at hbytes
                    rw [hsame digest' entry' (hall _ List.mem_cons_self) hbytes.1] at hperm
                    exact ⟨listing, Nat.succ.inj hcount, hbytes.2,
                      fun item hmem => hall item (List.mem_cons_of_mem _ hmem),
                      hperm.trans (hmoved listing).symm⟩

/-! ### The index -/

theorem indexHeaderMatches_iff {bytes : Bytes} (hlength : bytes.length < usizeLimit) :
    indexHeaderMatches bytes = true ↔ 16 ≤ bytes.length ∧ slice bytes 0 8 = indexMagic ∧
      readBe bytes 8 2 = indexFormatVersion ∧ readBe bytes 10 2 = indexHeaderBytes := by
  have hmagic : slice bytes 0 8 = bytes.take 8 := rfl
  unfold indexHeaderMatches
  by_cases hshort : bytes.length < indexHeaderBytes
  · have : ¬ 16 ≤ bytes.length := Nat.not_le.mpr hshort
    simp [hshort, this]
  · have hlong : 16 ≤ bytes.length := Nat.not_lt.mp hshort
    have hversion : readNumber 2 bytes 8 = some (readBe bytes 8 2) :=
      readNumber_eq hlength (by omega)
    have hheader : readNumber 2 bytes 10 = some (readBe bytes 10 2) :=
      readNumber_eq hlength (by omega)
    rw [hversion, hheader, hmagic]
    simp [hshort, hlong, and_assoc]

theorem length_indexMagic : indexMagic.length = 8 := by decide

theorem length_indexHeader (count : ℕ) : (indexHeader count).length = 16 := by
  simp only [indexHeader, List.length_append, length_beBytes, length_indexMagic]

/-- The header of an index is read where it is written. -/
theorem eq_indexHeader_iff {bytes rest : Bytes} {count : ℕ} (hlength : bytes.length < usizeLimit)
    (hcount : count < 2 ^ 32) :
    bytes = indexHeader count ++ rest ↔
      indexHeaderMatches bytes = true ∧ readBe bytes 12 4 = count ∧ bytes.drop 16 = rest := by
  have hsplit : ∀ hlong : 16 ≤ bytes.length, bytes.drop 0 = indexHeader count ++ rest ↔
      slice bytes 0 8 = indexMagic ∧ readBe bytes 8 2 = indexFormatVersion ∧
        readBe bytes 10 2 = indexHeaderBytes ∧ readBe bytes 12 4 = count ∧
        bytes.drop 16 = rest := by
    intro hlong
    unfold indexHeader
    simp only [List.append_assoc]
    rw [drop_eq_append_iff length_indexMagic, drop_eq_append_iff (length_beBytes 2 _),
      drop_eq_append_iff (length_beBytes 2 _), drop_eq_append_iff (length_beBytes 4 _),
      slice_eq_beBytes_iff (by omega) (by decide), slice_eq_beBytes_iff (by omega) (by decide),
      slice_eq_beBytes_iff (by omega) hcount]
  rw [indexHeaderMatches_iff hlength]
  constructor
  · intro h
    have hlong : 16 ≤ bytes.length := by
      rw [h, List.length_append, length_indexHeader]
      exact Nat.le_add_right _ _
    have hfields := (hsplit hlong).mp h
    exact ⟨⟨hlong, hfields.1, hfields.2.1, hfields.2.2.1⟩, hfields.2.2.2⟩
  · rintro ⟨⟨hlong, hmagic, hversion, hheader⟩, hrest⟩
    exact (hsplit hlong).mpr ⟨hmagic, hversion, hheader, hrest⟩

theorem privateKey_lt (bundle : SshSecretBundle) : bundle.privateKey.length < usizeLimit :=
  bundle.valid.privateKey_le.trans_lt (by decide)

/-- What a bundle of an index is, with its entries as they are listed. -/
structure HoldsListing (bundle : SshSecretBundle) (listing : List (Digest × ReplayIndexEntry)) :
    Prop where
  only : hasOnlyPrivateKey bundle = true
  count : listing.length ≤ maxConnectionLogRecords
  recordable : ∀ item ∈ listing, Recordable item.2
  bytes : bundle.privateKey = indexHeader listing.length ++ listingBytes listing

/-- **A bundle is decoded where it lists the entries of the index, in whatever order.** -/
theorem decodeIndexBundle_spec (bundle : SshSecretBundle) :
    ∃ result, decodeIndexBundle bundle = some result ∧
      ∀ index, result = .ok index ↔
        ∃ listing, HoldsListing bundle listing ∧ index.entries.Perm listing := by
  have hlength := privateKey_lt bundle
  have hrefused : ∀ code : ConnectionLogReplayStoreErrorCode,
      (∀ listing, ¬ HoldsListing bundle listing) →
      ∀ index : ReplayIndex, (.error code : Fallible ReplayIndex) = .ok index ↔
        ∃ listing, HoldsListing bundle listing ∧ index.entries.Perm listing :=
    fun code hnone index => ⟨nofun, fun ⟨listing, hlisting, _⟩ => absurd hlisting (hnone listing)⟩
  have hmax : maxConnectionLogRecords < 2 ^ 32 := by decide
  unfold decodeIndexBundle
  split_ifs with hguard
  · refine ⟨_, rfl, hrefused _ fun listing hlisting => ?_⟩
    have hmatches := ((eq_indexHeader_iff hlength (hlisting.count.trans_lt hmax)).mp
      hlisting.bytes).1
    rw [hlisting.only, hmatches] at hguard
    cases hguard
  · rw [Bool.or_eq_true, Bool.not_eq_true', Bool.not_eq_true', not_or, Bool.not_eq_false,
      Bool.not_eq_false] at hguard
    obtain ⟨honly, hmatches⟩ := hguard
    have hlong := ((indexHeaderMatches_iff hlength).mp hmatches).1
    have hcount : readNumber 4 bundle.privateKey 12 = some (readBe bundle.privateKey 12 4) :=
      readNumber_eq hlength (by omega)
    rw [hcount]
    simp only
    split_ifs with hbad
    · refine ⟨_, rfl, hrefused _ fun listing hlisting => ?_⟩
      have hread := ((eq_indexHeader_iff hlength (hlisting.count.trans_lt hmax)).mp
        hlisting.bytes).2.1
      have htotal := congrArg List.length hlisting.bytes
      rw [List.length_append, length_indexHeader, length_listingBytes] at htotal
      have hcount := hlisting.count
      rw [hread] at hbad
      simp only [maxConnectionLogRecords, indexHeaderBytes, indexEntryBytes, usizeLimit]
        at hbad htotal hcount
      omega
    · simp only [not_or, not_lt, not_not] at hbad
      obtain ⟨hbound, -, -, htotal⟩ := hbad
      obtain ⟨result, hresult, hindex⟩ := decodeEntries_spec hlength _ htotal .empty
      refine ⟨result, hresult, fun index => ?_⟩
      rw [hindex index]
      constructor
      · rintro ⟨listing, hlisted, hbytes, hall, hperm⟩
        refine ⟨listing, ⟨honly, hlisted ▸ hbound, hall, ?_⟩, hperm⟩
        rw [eq_indexHeader_iff hlength (by rw [hlisted]; exact hbound.trans_lt hmax)]
        exact ⟨hmatches, hlisted.symm, hbytes⟩
      · rintro ⟨listing, hlisting, hperm⟩
        obtain ⟨-, hread, hbytes⟩ :=
          (eq_indexHeader_iff hlength (hlisting.count.trans_lt hmax)).mp hlisting.bytes
        exact ⟨listing, hread.symm, hbytes, hlisting.recordable, hperm⟩

theorem encodeEntries_ok_iff {listing : List (Digest × ReplayIndexEntry)} {encoded : Bytes} :
    encodeEntries listing = .ok encoded ↔
      (∀ item ∈ listing, Recordable item.2) ∧ encoded = listingBytes listing := by
  induction listing generalizing encoded with
  | nil => simp [encodeEntries, listingBytes, eq_comm]
  | cons item rest ih =>
      obtain ⟨digest, entry⟩ := item
      unfold encodeEntries
      split_ifs with hbad
      · refine ⟨nofun, fun h => ?_⟩
        have hentry := h.1 _ List.mem_cons_self
        exact absurd hbad (not_or.mpr hentry)
      · rw [not_or] at hbad
        constructor
        · intro h
          cases hrest : encodeEntries rest with
          | error code => rw [hrest] at h; cases h
          | ok tail =>
              rw [hrest] at h
              obtain ⟨hall, rfl⟩ := ih.mp hrest
              obtain rfl := Except.ok.inj h
              exact ⟨List.forall_mem_cons.mpr ⟨hbad, hall⟩, rfl⟩
        · rintro ⟨hall, rfl⟩
          rw [ih.mpr ⟨(List.forall_mem_cons.mp hall).2, rfl⟩]
          rfl

/-- An index is encoded as the listing of its entries. -/
theorem encodeIndexBundle_ok_iff {index : ReplayIndex} {bundle : SshSecretBundle} :
    encodeIndexBundle index = .ok bundle ↔ HoldsListing bundle index.entries := by
  unfold encodeIndexBundle
  split_ifs with hmany
  · exact ⟨nofun, fun h => absurd h.count (Nat.not_le.mpr hmany)⟩
  · constructor
    · intro h
      cases hencoded : encodeEntries index.entries with
      | error code => rw [hencoded] at h; cases h
      | ok encoded =>
          rw [hencoded] at h
          obtain ⟨hall, rfl⟩ := encodeEntries_ok_iff.mp hencoded
          obtain ⟨hbytes, honly⟩ := bundleOf_ok_iff.mp h
          exact ⟨honly, Nat.not_lt.mp hmany, hall, hbytes⟩
    · intro h
      rw [encodeEntries_ok_iff.mpr ⟨h.recordable, rfl⟩]
      exact bundleOf_ok_iff.mpr ⟨h.bytes, h.only⟩

/-- A bundle for what fits into a private key. -/
theorem exists_bundleOf {encoded : Bytes} (hne : encoded ≠ [])
    (hle : encoded.length ≤ Secret.maxPrivateKeyBytes) : ∃ bundle, bundleOf encoded = .ok bundle :=
  ⟨⟨encoded, none, none, none, hne, hle, nofun, nofun, nofun⟩, bundleOf_ok_iff.mpr ⟨rfl, rfl⟩⟩

theorem exists_encodeIndexBundle {index : ReplayIndex}
    (hcount : index.entries.length ≤ maxConnectionLogRecords)
    (hall : ∀ item ∈ index.entries, Recordable item.2) :
    ∃ bundle, encodeIndexBundle index = .ok bundle := by
  have hlength := length_indexHeader index.entries.length
  obtain ⟨bundle, hbundle⟩ : ∃ bundle, bundleOf
      (indexHeader index.entries.length ++ listingBytes index.entries) = .ok bundle := by
    apply exists_bundleOf
    · intro hnil
      rw [(List.append_eq_nil_iff.mp hnil).1] at hlength
      cases hlength
    · rw [List.length_append, hlength, length_listingBytes]
      simp only [maxConnectionLogRecords, indexEntryBytes, Secret.maxPrivateKeyBytes] at hcount ⊢
      omega
  obtain ⟨hbytes, honly⟩ := bundleOf_ok_iff.mp hbundle
  exact ⟨bundle, encodeIndexBundle_ok_iff.mpr ⟨honly, hcount, hall, hbytes⟩⟩

/-! ### Replays -/

theorem length_encodeUtf8 (text : Text) : (encodeUtf8 text).length = utf8Len text := by
  induction text with
  | nil => rfl
  | cons c text ih =>
      have hcons : utf8Len (c :: text) = c.utf8Size + utf8Len text := by simp [utf8Len]
      have hbytes : encodeUtf8 (c :: text) = String.utf8EncodeChar c ++ encodeUtf8 text := rfl
      rw [hbytes, hcons, List.length_append, String.length_utf8EncodeChar, ih]

theorem decodeUtf8_eq_some_iff {bytes : Bytes} {text : Text} :
    decodeUtf8 bytes = some text ↔ bytes = encodeUtf8 text :=
  ⟨fun h => (Serial.encodeUtf8_of_decodeUtf8 h).symm,
    fun h => h ▸ Serial.decodeUtf8_encodeUtf8 text⟩

theorem length_replayMagic : replayMagic.length = 8 := by decide

theorem length_replayHeader (digest : Digest) (length : ℕ) :
    (replayHeader digest length).length = 48 := by
  simp only [replayHeader, List.length_append, length_beBytes, length_replayMagic,
    digest.length_eq]

/-- The header of a replay, without its length. -/
def HasReplayHeader (bytes : Bytes) (digest : Digest) : Prop :=
  48 ≤ bytes.length ∧ slice bytes 0 8 = replayMagic ∧ readBe bytes 8 2 = replayFormatVersion ∧
    readBe bytes 10 2 = replayHeaderBytes ∧ slice bytes 12 32 = digest.bytes

theorem replayHeaderMatches_spec {bytes : Bytes} (hlength : bytes.length < usizeLimit)
    (digest : Digest) :
    ∃ isMatch, replayHeaderMatches bytes digest = some isMatch ∧
      (isMatch = true ↔ HasReplayHeader bytes digest) := by
  have hmagic : slice bytes 0 8 = bytes.take 8 := rfl
  unfold replayHeaderMatches HasReplayHeader
  by_cases hshort : bytes.length < replayHeaderBytes
  · have : ¬ 48 ≤ bytes.length := Nat.not_le.mpr hshort
    exact ⟨false, by simp [hshort], by simp [this]⟩
  · have hlong : 48 ≤ bytes.length := Nat.not_lt.mp hshort
    have hversion : readNumber 2 bytes 8 = some (readBe bytes 8 2) :=
      readNumber_eq hlength (by omega)
    have hheader : readNumber 2 bytes 10 = some (readBe bytes 10 2) :=
      readNumber_eq hlength (by omega)
    have hdigest : sliceOrPanic bytes 12 44 = some (slice bytes 12 32) :=
      if_pos ⟨by decide, by omega⟩
    rw [hversion, hheader, hdigest, hmagic]
    split_ifs with hbad
    · refine ⟨false, rfl, nofun, fun h => ?_⟩
      simp [hshort, h.2.1, h.2.2.1, h.2.2.2.1] at hbad
    · refine ⟨_, rfl, ?_⟩
      simp only [hshort, decide_false, Bool.false_or, Bool.or_eq_true, decide_eq_true_eq, not_or,
        not_not, Option.some.injEq] at hbad
      simp [hlong, hbad]

theorem eq_replayHeader_iff {bytes rest : Bytes} {digest : Digest} {length : ℕ}
    (hlength : length < 2 ^ 32) :
    bytes = replayHeader digest length ++ rest ↔
      HasReplayHeader bytes digest ∧ readBe bytes 44 4 = length ∧ bytes.drop 48 = rest := by
  have hsplit : ∀ hlong : 48 ≤ bytes.length, bytes.drop 0 = replayHeader digest length ++ rest ↔
      slice bytes 0 8 = replayMagic ∧ readBe bytes 8 2 = replayFormatVersion ∧
        readBe bytes 10 2 = replayHeaderBytes ∧ slice bytes 12 32 = digest.bytes ∧
        readBe bytes 44 4 = length ∧ bytes.drop 48 = rest := by
    intro hlong
    unfold replayHeader
    simp only [List.append_assoc]
    rw [drop_eq_append_iff length_replayMagic, drop_eq_append_iff (length_beBytes 2 _),
      drop_eq_append_iff (length_beBytes 2 _), drop_eq_append_iff digest.length_eq,
      drop_eq_append_iff (length_beBytes 4 _), slice_eq_beBytes_iff (by omega) (by decide),
      slice_eq_beBytes_iff (by omega) (by decide), slice_eq_beBytes_iff (by omega) hlength]
  constructor
  · intro h
    have hlong : 48 ≤ bytes.length := by
      rw [h, List.length_append, length_replayHeader]
      exact Nat.le_add_right _ _
    obtain ⟨hmagic, hversion, hheader, hdigest, hrest⟩ := (hsplit hlong).mp h
    exact ⟨⟨hlong, hmagic, hversion, hheader, hdigest⟩, hrest⟩
  · rintro ⟨⟨hlong, hmagic, hversion, hheader, hdigest⟩, hrest⟩
    exact (hsplit hlong).mpr ⟨hmagic, hversion, hheader, hdigest, hrest⟩

theorem decodeReplayText_spec {bytes : Bytes} (hlength : bytes.length < usizeLimit)
    (hlong : 48 ≤ bytes.length) :
    ∃ result, decodeReplayText bytes = some result ∧
      ∀ text, result = .ok text ↔ utf8Len text ≤ maxConnectionLogReplayBytes ∧
        readBe bytes 44 4 = utf8Len text ∧ bytes.drop 48 = encodeUtf8 text := by
  have hread : readNumber 4 bytes 44 = some (readBe bytes 44 4) := readNumber_eq hlength (by omega)
  have hrest : (bytes.drop 48).length = bytes.length - 48 := List.length_drop
  unfold decodeReplayText
  rw [hread]
  simp only
  split_ifs with hbad
  · refine ⟨_, rfl, fun text => ⟨nofun, ?_⟩⟩
    rintro ⟨hfits, hcount, htext⟩
    rw [htext, length_encodeUtf8] at hrest
    rw [hcount] at hbad
    simp only [maxConnectionLogReplayBytes, replayHeaderBytes, usizeLimit] at hbad hfits
    omega
  · simp only [not_or, not_lt, not_le, not_not] at hbad
    have hslice : sliceOrPanic bytes replayHeaderBytes bytes.length = some (bytes.drop 48) := by
      rw [sliceOrPanic, if_pos ⟨hlong, le_rfl⟩, slice, List.take_of_length_le]
      · rfl
      · exact hrest.le
    rw [hslice]
    refine ⟨_, rfl, fun text => ?_⟩
    rw [← decodeUtf8_eq_some_iff]
    constructor
    · intro hok
      cases hdecoded : decodeUtf8 (bytes.drop 48) with
      | none => rw [hdecoded] at hok; cases hok
      | some text' =>
          rw [hdecoded] at hok
          obtain rfl := Except.ok.inj hok
          rw [decodeUtf8_eq_some_iff.mp hdecoded, length_encodeUtf8] at hrest
          simp only [replayHeaderBytes] at hbad
          exact ⟨by omega, by omega, rfl⟩
    · rintro ⟨-, -, hdecoded⟩
      rw [hdecoded]
      rfl

/-- What a bundle of a replay is. -/
structure HoldsReplay (bundle : SshSecretBundle) (digest : Digest) (text : Text) : Prop where
  only : hasOnlyPrivateKey bundle = true
  fits : utf8Len text ≤ maxConnectionLogReplayBytes
  bytes : bundle.privateKey = replayHeader digest (utf8Len text) ++ encodeUtf8 text

theorem lt_of_fits {length : ℕ} (h : length ≤ maxConnectionLogReplayBytes) : length < 2 ^ 32 :=
  h.trans_lt (by decide)

/-- **A replay is decoded where it is encoded.** -/
theorem decodeReplayBundle_spec (bundle : SshSecretBundle) (digest : Digest) :
    ∃ result, decodeReplayBundle bundle digest = some result ∧
      ∀ text, result = .ok text ↔ HoldsReplay bundle digest text := by
  have hlength := privateKey_lt bundle
  obtain ⟨isMatch, hmatches, hiff⟩ := replayHeaderMatches_spec hlength digest
  unfold decodeReplayBundle
  split_ifs with honly
  · refine ⟨_, rfl, fun text => ⟨nofun, fun h => ?_⟩⟩
    rw [h.only] at honly
    cases honly
  · rw [Bool.not_eq_true', Bool.not_eq_false] at honly
    rw [hmatches]
    simp only [Option.bind_eq_bind, Option.bind_some]
    cases isMatch with
    | false =>
        refine ⟨_, rfl, fun text => ⟨nofun, fun h => ?_⟩⟩
        have hheader := ((eq_replayHeader_iff (lt_of_fits h.fits)).mp h.bytes).1
        cases hiff.mpr hheader
    | true =>
        have hheader := hiff.mp rfl
        obtain ⟨result, hresult, htext⟩ := decodeReplayText_spec hlength hheader.1
        refine ⟨result, hresult, fun text => ?_⟩
        rw [htext text]
        constructor
        · rintro ⟨hfits, hcount, hrest⟩
          exact ⟨honly, hfits,
            (eq_replayHeader_iff (lt_of_fits hfits)).mpr ⟨hheader, hcount, hrest⟩⟩
        · intro h
          exact ⟨h.fits, ((eq_replayHeader_iff (lt_of_fits h.fits)).mp h.bytes).2⟩

theorem newestUtf8Suffix_eq {maxBytes : ℕ} {text : Text} (h : utf8Len text ≤ maxBytes) :
    newestUtf8Suffix maxBytes text = text := by
  cases text with
  | nil => rfl
  | cons c rest => exact if_pos h

theorem encodeReplayBundle_ok_iff {digest : Digest} {text : Text} {bundle : SshSecretBundle}
    (hfits : utf8Len text ≤ maxConnectionLogReplayBytes) :
    encodeReplayBundle digest text = .ok bundle ↔ HoldsReplay bundle digest text := by
  have hreplay : SavedConnectionLogReplay.new "validated-placeholder".toList text =
      some ⟨"validated-placeholder".toList, text⟩ := by
    have hid : ¬ ("validated-placeholder".toList.isEmpty ||
        maxIdBytes < utf8Len "validated-placeholder".toList ||
        "validated-placeholder".toList.any Serial.isControl) = true := by decide
    rw [SavedConnectionLogReplay.new, if_neg hid, newestUtf8Suffix_eq hfits]
  unfold encodeReplayBundle
  rw [hreplay]
  simp only
  rw [length_encodeUtf8, if_pos (lt_of_fits hfits), bundleOf_ok_iff]
  exact ⟨fun h => ⟨h.2, hfits, h.1⟩, fun h => ⟨h.bytes, h.only⟩⟩

/-! ### One encoding -/

theorem beBytes_toNat_inj {n n' : UInt64} (h : beBytes 8 n.toNat = beBytes 8 n'.toNat) :
    n = n' := by
  have hvalue := congrArg beValue h
  rw [beValue_beBytes n.toNat_lt, beValue_beBytes n'.toNat_lt] at hvalue
  exact UInt64.toNat_inj.mp hvalue

theorem encodeEntry_inj {digest digest' : Digest} {entry entry' : ReplayIndexEntry}
    (h : encodeEntry digest entry = encodeEntry digest' entry') :
    (digest, entry) = (digest', entry') := by
  have hfields : (encodeEntry digest entry).drop 0 = encodeEntry digest entry ++ [] :=
    (List.append_nil _).symm
  have hfields' : (encodeEntry digest entry).drop 0 = encodeEntry digest' entry' ++ [] := by
    rw [← h, List.append_nil]
    rfl
  rw [drop_eq_encodeEntry_iff] at hfields hfields'
  obtain ⟨hdigest, hrevision, hstart, hsaved, -, -⟩ := hfields
  obtain ⟨hdigest', hrevision', hstart', hsaved', -, -⟩ := hfields'
  obtain ⟨revision, startTime, saved⟩ := entry
  obtain ⟨revision', startTime', saved'⟩ := entry'
  obtain rfl : revision = revision' := beBytes_toNat_inj (hrevision.symm.trans hrevision')
  obtain rfl : startTime = startTime' := beBytes_toNat_inj (hstart.symm.trans hstart')
  obtain rfl : saved = saved' := by
    have hflag := hsaved.symm.trans hsaved'
    cases saved <;> cases saved' <;> simp at hflag ⊢
  cases digest
  cases digest'
  cases hdigest.symm.trans hdigest'
  rfl

theorem listingBytes_inj {listing listing' : List (Digest × ReplayIndexEntry)}
    (h : listingBytes listing = listingBytes listing') (hcount : listing.length = listing'.length) :
    listing = listing' := by
  induction listing generalizing listing' with
  | nil => exact (List.length_eq_zero_iff.mp hcount.symm).symm
  | cons item rest ih =>
      cases listing' with
      | nil => cases hcount
      | cons item' rest' =>
          have hlength :
              (encodeEntry item.1 item.2).length = (encodeEntry item'.1 item'.2).length := by
            rw [length_encodeEntry, length_encodeEntry]
          obtain ⟨hitem, hrest⟩ := List.append_inj h hlength
          have hsame : item = item' := encodeEntry_inj hitem
          rw [hsame, ih hrest (Nat.succ.inj hcount)]

/-- A bundle lists its entries in one order only. -/
theorem HoldsListing.unique {bundle : SshSecretBundle}
    {listing listing' : List (Digest × ReplayIndexEntry)} (h : HoldsListing bundle listing)
    (h' : HoldsListing bundle listing') (hcount : listing.length = listing'.length) :
    listing = listing' := by
  have hbytes := h.bytes.symm.trans h'.bytes
  rw [hcount] at hbytes
  exact listingBytes_inj (List.append_cancel_left hbytes) hcount

/-- A listing is that of the encoder where it is in the order of the digests. -/
theorem HoldsListing.encoded_iff {bundle : SshSecretBundle} {index : ReplayIndex}
    {listing : List (Digest × ReplayIndexEntry)} (h : HoldsListing bundle listing)
    (hperm : index.entries.Perm listing) :
    encodeIndexBundle index = .ok bundle ↔ listing.Pairwise fun item item' => item.1 < item'.1 := by
  rw [encodeIndexBundle_ok_iff]
  constructor
  · intro hencoded
    rw [← hencoded.unique h hperm.length_eq]
    exact index.sorted
  · intro hsorted
    obtain rfl : index = ⟨listing, hsorted⟩ := SortedMap.eq_of_perm hperm
    exact h

/-- **The codecs of the store.**  What is encoded is decoded to itself.  A bundle of an index is
decoded where it lists the entries of the index as they are encoded, each once; it is the encoding
of the index where it lists them in the order of their digests.  A replay has one encoding.  No
bundle makes a decoder panic. -/
theorem bundles_decoded :
    (∀ index : ReplayIndex, index.entries.length ≤ maxConnectionLogRecords →
      (∀ item ∈ index.entries, Recordable item.2) →
      ∃ bundle, encodeIndexBundle index = .ok bundle ∧
        decodeIndexBundle bundle = some (.ok index)) ∧
    (∀ bundle index, decodeIndexBundle bundle = some (.ok index) ↔
      ∃ listing, HoldsListing bundle listing ∧ index.entries.Perm listing) ∧
    (∀ bundle index listing, HoldsListing bundle listing → index.entries.Perm listing →
      (∃ canonical, encodeIndexBundle index = .ok canonical) ∧
        (encodeIndexBundle index = .ok bundle ↔
          listing.Pairwise fun item item' => item.1 < item'.1)) ∧
    (∀ bundle digest text, decodeReplayBundle bundle digest = some (.ok text) ↔
      utf8Len text ≤ maxConnectionLogReplayBytes ∧
        encodeReplayBundle digest text = .ok bundle) ∧
    (∀ bundle, decodeIndexBundle bundle ≠ none) ∧
    ∀ bundle digest, decodeReplayBundle bundle digest ≠ none := by
  have hindex : ∀ bundle index, decodeIndexBundle bundle = some (.ok index) ↔
      ∃ listing, HoldsListing bundle listing ∧ index.entries.Perm listing := by
    intro bundle index
    obtain ⟨result, hresult, hiff⟩ := decodeIndexBundle_spec bundle
    rw [hresult, Option.some.injEq, hiff]
  refine ⟨fun index hcount hall => ?_, hindex, fun bundle index listing h hperm => ?_,
    fun bundle digest text => ?_, fun bundle hpanic => ?_, fun bundle digest hpanic => ?_⟩
  · obtain ⟨bundle, hbundle⟩ := exists_encodeIndexBundle hcount hall
    exact ⟨bundle, hbundle,
      (hindex bundle index).mpr ⟨_, encodeIndexBundle_ok_iff.mp hbundle, List.Perm.refl _⟩⟩
  · refine ⟨exists_encodeIndexBundle ?_ fun item hmem => ?_, h.encoded_iff hperm⟩
    · rw [hperm.length_eq]
      exact h.count
    · exact h.recordable item (hperm.mem_iff.mp hmem)
  · obtain ⟨result, hresult, hiff⟩ := decodeReplayBundle_spec bundle digest
    rw [hresult, Option.some.injEq, hiff]
    constructor
    · exact fun h => ⟨h.fits, (encodeReplayBundle_ok_iff h.fits).mpr h⟩
    · exact fun h => (encodeReplayBundle_ok_iff h.1).mp h.2
  · obtain ⟨result, hresult, -⟩ := decodeIndexBundle_spec bundle
    rw [hresult] at hpanic
    cases hpanic
  · obtain ⟨result, hresult, -⟩ := decodeReplayBundle_spec bundle digest
    rw [hresult] at hpanic
    cases hpanic

/-! ### Entries out of order -/

def repeatedDigest (byte : UInt8) : Digest := ⟨List.replicate 32 byte, List.length_replicate⟩

def swappedListing : List (Digest × ReplayIndexEntry) :=
  [(repeatedDigest 1, ⟨1, 1, false⟩), (repeatedDigest 0, ⟨1, 1, false⟩)]

/-- A bundle that lists its two entries in descending order. -/
def swappedBundle : SshSecretBundle :=
  ⟨indexHeader 2 ++ listingBytes swappedListing, none, none, none,
    by decide, by decide, nofun, nofun, nofun⟩

def swappedIndex : ReplayIndex :=
  ⟨swappedListing.reverse, List.pairwise_cons.mpr
    ⟨fun item hmem => by rw [List.mem_singleton.mp hmem]; decide,
      List.pairwise_singleton _ _⟩⟩

theorem swappedBundle_holds : HoldsListing swappedBundle swappedListing where
  only := rfl
  count := by decide
  recordable := List.forall_mem_cons.mpr
    ⟨⟨by decide, by decide⟩, List.forall_mem_cons.mpr ⟨⟨by decide, by decide⟩, nofun⟩⟩
  bytes := rfl

/-- **A bundle whose entries are out of order is decoded, and is not encoded.** -/
theorem swappedBundle_not_canonical :
    decodeIndexBundle swappedBundle = some (.ok swappedIndex) ∧
      encodeIndexBundle swappedIndex ≠ .ok swappedBundle := by
  have hperm : swappedIndex.entries.Perm swappedListing := List.reverse_perm _
  obtain ⟨result, hresult, hiff⟩ := decodeIndexBundle_spec swappedBundle
  refine ⟨?_, fun hencoded => ?_⟩
  · rw [hresult, (hiff swappedIndex).mpr ⟨swappedListing, swappedBundle_holds, hperm⟩]
  · have hsorted := (swappedBundle_holds.encoded_iff hperm).mp hencoded
    have hlt := (List.pairwise_cons.mp hsorted).1 _ List.mem_cons_self
    exact absurd hlt (by decide)

end Netcatty.ReplayStore
