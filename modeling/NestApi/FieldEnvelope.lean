import Mathlib.Data.List.Basic

namespace NestApi.Crypto

def ivBytes : Nat := 12

def tagBytes : Nat := 16

def envelopeFormatVersion : UInt8 := 1

/-- Everything before the wrapped key: version, wrapped-key length, IV, tag. -/
def headerBytes : Nat := 1 + 2 + ivBytes + tagBytes

structure ParsedEnvelope where
  wrappedKey : List UInt8
  iv : List UInt8
  tag : List UInt8
  ciphertext : List UInt8
  deriving DecidableEq

structure EnvelopeFormatError where
  message : String
  deriving DecidableEq

def notAnEnvelope (reason : String) : EnvelopeFormatError :=
  ⟨"Not a field-encryption envelope: " ++ reason⟩

/-- `source.copy(target, start)`: what does not fit is left out. -/
def copyTo (target : List UInt8) (start : Nat) (source : List UInt8) : List UInt8 :=
  target.take start ++ source.take (target.length - start) ++ target.drop (start + source.length)

/-- The wire form: `version | wrappedKeyLength | iv | tag | wrappedKey | ciphertext`. -/
def serialiseEnvelope (envelope : ParsedEnvelope) : Except EnvelopeFormatError (List UInt8) :=
  let size := envelope.wrappedKey.length
  if size = 0 ∨ 0xffff < size then
    .error (notAnEnvelope (s!"a wrapped data key of {size} bytes does not fit the format, " ++
      "which stores the length as a uint16"))
  else
    let header := List.replicate headerBytes 0
    let header := copyTo header 0 [envelopeFormatVersion]
    let header := copyTo header 1 [UInt8.ofNat (size / 256), UInt8.ofNat size]
    let header := copyTo header 3 envelope.iv
    let header := copyTo header (3 + ivBytes) envelope.tag
    .ok (header ++ envelope.wrappedKey ++ envelope.ciphertext)

def parseEnvelope (bytes : List UInt8) : Except EnvelopeFormatError ParsedEnvelope :=
  let size := bytes.length
  let version := bytes.getD 0 0
  let wrappedKeyLength := (bytes.getD 1 0).toNat * 256 + (bytes.getD 2 0).toNat
  if size < headerBytes then
    .error (notAnEnvelope s!"{size} bytes is shorter than the {headerBytes}-byte header")
  else if version ≠ envelopeFormatVersion then
    .error (notAnEnvelope (s!"format version {version} is not {envelopeFormatVersion}, " ++
      "which is the only one this build can read"))
  else if wrappedKeyLength = 0 then
    .error (notAnEnvelope "the wrapped data key is empty")
  else if size < headerBytes + wrappedKeyLength then
    .error (notAnEnvelope (s!"the header claims a {wrappedKeyLength}-byte wrapped data key, " ++
      s!"which overruns the {size} bytes stored"))
  else
    .ok { iv := (bytes.drop 3).take ivBytes
          tag := (bytes.drop (3 + ivBytes)).take tagBytes
          wrappedKey := (bytes.drop headerBytes).take wrappedKeyLength
          ciphertext := bytes.drop (headerBytes + wrappedKeyLength) }

/-- The parts have the sizes that the format has room for. -/
structure ParsedEnvelope.Fits (envelope : ParsedEnvelope) : Prop where
  iv : envelope.iv.length = ivBytes
  tag : envelope.tag.length = tagBytes
  wrapped : 0 < envelope.wrappedKey.length
  short : envelope.wrappedKey.length ≤ 0xffff

def ParsedEnvelope.wire (envelope : ParsedEnvelope) : List UInt8 :=
  envelopeFormatVersion :: UInt8.ofNat (envelope.wrappedKey.length / 256) ::
    UInt8.ofNat envelope.wrappedKey.length ::
    (envelope.iv ++ (envelope.tag ++ (envelope.wrappedKey ++ envelope.ciphertext)))

variable {envelope : ParsedEnvelope} {bytes : List UInt8}

theorem copyTo_append {before old new rest : List UInt8} {start : Nat}
    (here : before.length = start) (same : new.length = old.length) :
    copyTo (before ++ (old ++ rest)) start new = before ++ new ++ rest := by
  subst here
  have room : new.length ≤ (before ++ (old ++ rest)).length - before.length := by
    simp only [List.length_append]
    omega
  rw [copyTo, List.take_left, List.take_of_length_le room, same, ← List.drop_drop, List.drop_left,
    List.drop_left]

theorem serialiseEnvelope_of_fits (fits : envelope.Fits) :
    serialiseEnvelope envelope = .ok envelope.wire := by
  have wrapped : ¬ (envelope.wrappedKey.length = 0 ∨ 0xffff < envelope.wrappedKey.length) := by
    have positive := fits.wrapped
    have bound := fits.short
    omega
  have start (high low : UInt8) : copyTo (copyTo (List.replicate headerBytes 0) 0
      [envelopeFormatVersion]) 1 [high, low] = [envelopeFormatVersion, high, low] ++
        (List.replicate ivBytes 0 ++ (List.replicate tagBytes 0 ++ [])) := rfl
  simp only [serialiseEnvelope, wrapped, if_false]
  rw [start, copyTo_append (show [_, _, _].length = 3 from rfl)
      (by rw [fits.iv, List.length_replicate]),
    copyTo_append (by rw [List.length_append, fits.iv]; rfl)
      (by rw [fits.tag, List.length_replicate])]
  simp [ParsedEnvelope.wire]

theorem parseEnvelope_wire (fits : envelope.Fits) :
    parseEnvelope envelope.wire = .ok envelope := by
  obtain ⟨iv, tag, positive, bound⟩ := fits
  have read : (UInt8.ofNat (envelope.wrappedKey.length / 256)).toNat * 256 +
      (UInt8.ofNat envelope.wrappedKey.length).toNat = envelope.wrappedKey.length := by
    simp only [UInt8.toNat_ofNat']
    omega
  have size : envelope.wire.length =
      headerBytes + envelope.wrappedKey.length + envelope.ciphertext.length := by
    simp [ParsedEnvelope.wire, headerBytes, iv, tag]
    omega
  have first : envelope.wire.drop 3 =
      envelope.iv ++ (envelope.tag ++ (envelope.wrappedKey ++ envelope.ciphertext)) := rfl
  have second : envelope.wire.drop (3 + ivBytes) =
      envelope.tag ++ (envelope.wrappedKey ++ envelope.ciphertext) := by
    rw [← List.drop_drop, first, List.drop_left' iv]
  have third : envelope.wire.drop headerBytes = envelope.wrappedKey ++ envelope.ciphertext := by
    rw [show headerBytes = 3 + ivBytes + tagBytes from rfl, ← List.drop_drop, second,
      List.drop_left' tag]
  have last : envelope.wire.drop (headerBytes + envelope.wrappedKey.length) =
      envelope.ciphertext := by
    rw [← List.drop_drop, third, List.drop_left]
  have version : envelope.wire.getD 0 0 = envelopeFormatVersion := rfl
  have length : (envelope.wire.getD 1 0).toNat * 256 + (envelope.wire.getD 2 0).toNat =
      envelope.wrappedKey.length := read
  rw [parseEnvelope, length, size, if_neg (by omega), if_neg (not_not.mpr version),
    if_neg (by omega), if_neg (by omega), first, second, third, last, List.take_left' iv,
    List.take_left' tag, List.take_left]

theorem take_drop_append (start size : Nat) :
    (bytes.drop start).take size ++ bytes.drop (start + size) = bytes.drop start := by
  rw [← List.drop_drop, List.take_append_drop]

theorem fits_of_parseEnvelope (parsed : parseEnvelope bytes = .ok envelope) :
    envelope.Fits ∧ bytes = envelope.wire := by
  unfold parseEnvelope at parsed
  dsimp only at parsed
  split_ifs at parsed with short other empty overrun
  cases parsed
  obtain ⟨version, high, low, rest, rfl⟩ : ∃ version high low rest,
      bytes = version :: high :: low :: rest := by
    rcases bytes with _ | ⟨version, _ | ⟨high, _ | ⟨low, rest⟩⟩⟩
    · exact absurd (show 0 < headerBytes by decide) short
    · exact absurd (show 1 < headerBytes by decide) short
    · exact absurd (show 2 < headerBytes by decide) short
    · exact ⟨version, high, low, rest, rfl⟩
  have same : version = envelopeFormatVersion := not_not.mp other
  subst same
  simp only [List.getD_cons_succ, List.getD_cons_zero] at *
  have less : low.toNat < 256 := low.toNat_lt
  have less' : high.toNat < 256 := high.toNat_lt
  have key : (List.take (high.toNat * 256 + low.toNat)
      (List.drop headerBytes (envelopeFormatVersion :: high :: low :: rest))).length =
        high.toNat * 256 + low.toNat := by
    rw [List.length_take, List.length_drop]
    omega
  refine ⟨⟨?_, ?_, ?_, ?_⟩, ?_⟩
  · rw [List.length_take, List.length_drop]
    simp only [headerBytes, ivBytes, tagBytes] at short ⊢
    omega
  · rw [List.length_take, List.length_drop]
    simp only [headerBytes, ivBytes, tagBytes] at short ⊢
    omega
  · rw [key]
    omega
  · rw [key]
    omega
  · have high' : UInt8.ofNat ((high.toNat * 256 + low.toNat) / 256) = high := by
      rw [show (high.toNat * 256 + low.toNat) / 256 = high.toNat by omega, UInt8.ofNat_toNat]
    have low' : UInt8.ofNat (high.toNat * 256 + low.toNat) = low := by
      apply UInt8.toNat_inj.mp
      rw [UInt8.toNat_ofNat']
      omega
    dsimp only [ParsedEnvelope.wire]
    rw [key, high', low', take_drop_append,
      show headerBytes = 3 + ivBytes + tagBytes from rfl, take_drop_append, take_drop_append]
    rfl

/-- Serialising and parsing are inverse, and what is parsed is what can be serialised. -/
theorem envelope_codec :
    (∀ envelope : ParsedEnvelope, envelope.Fits → ∃ bytes,
      serialiseEnvelope envelope = .ok bytes ∧ parseEnvelope bytes = .ok envelope) ∧
    (∀ bytes envelope, parseEnvelope bytes = .ok envelope →
      envelope.Fits ∧ serialiseEnvelope envelope = .ok bytes) ∧
    ∀ bytes, (∃ error, parseEnvelope bytes = .error error) ↔
      ¬ ∃ envelope : ParsedEnvelope, envelope.Fits ∧ serialiseEnvelope envelope = .ok bytes := by
  refine ⟨?_, ?_, ?_⟩
  · intro envelope fits
    exact ⟨_, serialiseEnvelope_of_fits fits, parseEnvelope_wire fits⟩
  · intro bytes envelope parsed
    obtain ⟨fits, rfl⟩ := fits_of_parseEnvelope parsed
    exact ⟨fits, serialiseEnvelope_of_fits fits⟩
  · intro bytes
    constructor
    · rintro ⟨error, refused⟩ ⟨envelope, fits, serialised⟩
      rw [serialiseEnvelope_of_fits fits] at serialised
      cases serialised
      rw [parseEnvelope_wire fits] at refused
      cases refused
    · intro none
      cases parsed : parseEnvelope bytes with
      | error error => exact ⟨error, rfl⟩
      | ok envelope =>
        obtain ⟨fits, rfl⟩ := fits_of_parseEnvelope parsed
        exact absurd ⟨envelope, fits, serialiseEnvelope_of_fits fits⟩ none

end NestApi.Crypto
