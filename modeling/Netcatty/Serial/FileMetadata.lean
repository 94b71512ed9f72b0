import Netcatty.Serial.Ymodem.Header

/-! # File metadata of both protocols

A file offered over YMODEM or ZMODEM arrives under the name and with the size that it was offered
with (`metadata_read_back`). -/

namespace Netcatty.Serial

/-- A name that stays within the download directory. -/
def StaysInside (name : List Char) : Prop :=
  name ≠ [] ∧ name ≠ ['.'] ∧ name ≠ ['.', '.'] ∧
    ∀ c ∈ name, c ≠ '/' ∧ c ≠ '\\' ∧ c ≠ ':' ∧ isControl c = false

theorem CleanName.staysInside {name : List Char} (h : CleanName name) : StaysInside name := by
  obtain ⟨h₁, h₂, h₃⟩ := h.not_dots
  refine ⟨h₁, h₂, h₃, fun c hc => ?_⟩
  obtain ⟨hcontrol, hreserved⟩ := h.no_special c hc
  refine ⟨?_, ?_, ?_, hcontrol⟩ <;> (rintro rfl; exact absurd hreserved (by decide))

namespace Zmodem

theorem FileMetadata.new_ok {fileName : List Char} {totalBytes : ℕ} {modifiedTime : UInt64}
    {mode : UInt32} {m : FileMetadata} (h : new fileName totalBytes modifiedTime mode = .ok m) :
    sanitizeZmodemFilename fileName = .ok m.fileName ∧ m.totalBytes = totalBytes ∧
      m.modifiedTime = modifiedTime ∧ m.mode = mode := by
  unfold new at h
  split at h
  · cases h
  · split at h
    · cases h
    · rename_i name hname
      obtain rfl := Except.ok.inj h
      exact ⟨hname, rfl, rfl, rfl⟩

/-- The wire keeps the permission bits. -/
theorem wireMode_and (m : FileMetadata) : wireMode m &&& 0o7777 = m.mode &&& 0o7777 := by
  have key : ∀ bits : BitVec 32,
      (0o100000#32 ||| (bits &&& 0o7777#32)) &&& 0o7777#32 = bits &&& 0o7777#32 := by
    intro bits
    rw [BitVec.and_or_distrib_right, BitVec.and_assoc, BitVec.and_self]
    have hkind : 0o100000#32 &&& 0o7777#32 = 0#32 := by decide
    rw [hkind, BitVec.zero_or]
  exact UInt32.toBitVec_inj.mp (key m.mode.toBitVec)

end Zmodem

/-- **Metadata survives the wire.**  Encoding it never fails, parsing it gives back the name and the
size, for ZMODEM also the time, the permission bits and what is left of the batch, and no YMODEM
header ends the batch.  Sanitizing twice is sanitizing once, and gives a name that stays within the
download directory. -/
theorem metadata_read_back :
    (∀ fileName totalBytes modifiedTime mode m filesRemaining bytesRemaining,
      Zmodem.FileMetadata.new fileName totalBytes modifiedTime mode = .ok m →
      filesRemaining ≤ Zmodem.maxBatchFiles →
      bytesRemaining ≤ Zmodem.maxFileBytes * Zmodem.maxBatchFiles →
      ∃ bytes read, Zmodem.encodeFileMetadata m filesRemaining bytesRemaining = .ok bytes ∧
        Zmodem.parseFileMetadata bytes = .ok read ∧
        Zmodem.sanitizeZmodemFilename fileName = .ok read.fileName ∧
        read.fileName = m.fileName ∧ read.totalBytes = totalBytes ∧
        read.modifiedTime = modifiedTime ∧ read.mode &&& 0o7777 = mode &&& 0o7777 ∧
        read.filesRemaining = some filesRemaining ∧ read.bytesRemaining = some bytesRemaining) ∧
    (∀ fileName totalBytes modifiedTime mode m,
      Ymodem.FileMetadata.new fileName totalBytes modifiedTime mode = .ok m →
      (∃ packet read, Ymodem.createFileHeader m = .ok packet ∧
        Ymodem.parseFileHeader (Ymodem.packetPayload packet) = .ok (some read) ∧
        Ymodem.sanitizeYmodemFilename fileName = .ok read.fileName ∧
        read.fileName = m.fileName ∧ read.totalBytes = totalBytes) ∧
      ∀ packetSize, (Ymodem.headerText m).length ≤ packetSize.payloadBytes →
        ∃ read, Ymodem.parseFileHeader (Ymodem.padded packetSize (Ymodem.headerText m)) =
            .ok (some read) ∧
          read.fileName = m.fileName ∧ read.totalBytes = totalBytes) ∧
    (∀ value name, Zmodem.sanitizeZmodemFilename value = .ok name →
      Zmodem.sanitizeZmodemFilename name = .ok name ∧ StaysInside name) ∧
    (∀ value name, Ymodem.sanitizeYmodemFilename value = .ok name →
      Ymodem.sanitizeYmodemFilename name = .ok name ∧ StaysInside name) := by
  refine ⟨?zmodem, ?ymodem, ?zmodemNames, ?ymodemNames⟩
  case zmodem =>
    intro fileName totalBytes modifiedTime mode m filesRemaining bytesRemaining hnew hfiles hbytes
    obtain ⟨hname, htotal, htime, hmode⟩ := Zmodem.FileMetadata.new_ok hnew
    obtain ⟨bytes, hencode, -⟩ := Zmodem.encodeFileMetadata_ok m hfiles hbytes
    have hparse := Zmodem.parseFileMetadata_encodeFileMetadata hencode hfiles hbytes
    refine ⟨bytes, _, hencode, hparse, hname, rfl, htotal, htime, ?_, rfl, rfl⟩
    exact (Zmodem.wireMode_and m).trans (congrArg (· &&& 0o7777) hmode)
  case ymodem =>
    intro fileName totalBytes modifiedTime mode m hnew
    obtain ⟨hname, htotal, -, -⟩ := Ymodem.FileMetadata.new_ok hnew
    refine ⟨?_, fun packetSize hfits => ⟨_, Ymodem.parseFileHeader_padded m hfits, rfl, htotal⟩⟩
    obtain ⟨packetSize, packet, hpacket, hfits, hpayload⟩ := Ymodem.createFileHeader_ok m
    have hparse := Ymodem.parseFileHeader_padded m hfits
    rw [← hpayload] at hparse
    exact ⟨packet, _, hpacket, hparse, hname, rfl, htotal⟩
  case zmodemNames =>
    intro value name h
    obtain ⟨hclean, hlen⟩ := Zmodem.sanitizeZmodemFilename_ok h
    exact ⟨Zmodem.sanitizeZmodemFilename_clean hclean hlen, hclean.staysInside⟩
  case ymodemNames =>
    intro value name h
    obtain ⟨hclean, hlen⟩ := Ymodem.sanitizeYmodemFilename_ok h
    exact ⟨Ymodem.sanitizeYmodemFilename_clean hclean hlen, hclean.staysInside⟩

end Netcatty.Serial
