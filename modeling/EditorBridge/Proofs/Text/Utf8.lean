import EditorBridge.Text.Utf8
import Mathlib.Tactic.SplitIfs
/-!
# Text read back from its bytes

The bytes of a text are well formed, and reading them gives the text. Each
character is read back by itself whatever follows it.
-/

namespace EditorBridge.Text

@[simp] theorem encodeChars_nil : encodeChars [] = [] := rfl

@[simp] theorem encodeChars_cons (c : Char) (cs : List Char) :
    encodeChars (c :: cs) = String.utf8EncodeChar c ++ encodeChars cs := rfl

/-! ## One character -/

/-- A byte below a power of two keeps its number. -/
theorem toNat_ofNat_byte {n : Nat} (h : n < 256) : (UInt8.ofNat n).toNat = n := by
  simpa using Nat.mod_eq_of_lt h

theorem scalar?_toNat {least : Nat} {c : Char} (h : least ≤ c.toNat) :
    scalar? least c.toNat = some c := by
  have hv : c.toNat.isValidChar := c.valid
  simp [scalar?, h, hv, Char.ofNat_toNat]

/-- A byte that carries six bits of a code point. -/
theorem isContinuation_ofNat {n : Nat} (h : n < 64) :
    isContinuation (UInt8.ofNat (n + 128)) = true ∧ payload (UInt8.ofNat (n + 128)) = n := by
  have hb : (UInt8.ofNat (n + 128)).toNat = n + 128 := toNat_ofNat_byte (by omega)
  constructor
  · simp only [isContinuation, Bool.and_eq_true, decide_eq_true_eq, UInt8.le_iff_toNat_le,
      UInt8.lt_iff_toNat_lt, hb]
    refine ⟨?_, ?_⟩
    · show 128 ≤ n + 128
      omega
    · show n + 128 < 192
      omega
  · rw [payload, hb]
    omega

theorem decodeChar_one {n : Nat} (h : n < 128) (rest : Bytes) :
    decodeChar (UInt8.ofNat n :: rest) = some (Char.ofNat n, rest) := by
  have hb : (UInt8.ofNat n).toNat = n := toNat_ofNat_byte (by omega)
  simp [decodeChar, UInt8.lt_iff_toNat_lt, hb, h]

theorem decodeChar_two {a b : Nat} (ha : a < 32) (hb : b < 64) (rest : Bytes) :
    decodeChar (UInt8.ofNat (a + 192) :: UInt8.ofNat (b + 128) :: rest) =
      (scalar? 0x80 (a * 64 + b)).map fun c => (c, rest) := by
  have hlead : (UInt8.ofNat (a + 192)).toNat = a + 192 := toNat_ofNat_byte (by omega)
  obtain ⟨hcont, hpayload⟩ := isContinuation_ofNat hb
  simp only [decodeChar, UInt8.lt_iff_toNat_lt, hlead, hcont, hpayload, UInt8.toNat_ofNat]
  rw [if_neg (by omega), if_neg (by omega), if_pos (by omega), if_pos trivial,
    show (a + 192) % 32 = a by omega]

theorem decodeChar_three {a b c : Nat} (ha : a < 16) (hb : b < 64) (hc : c < 64) (rest : Bytes) :
    decodeChar
        (UInt8.ofNat (a + 224) :: UInt8.ofNat (b + 128) :: UInt8.ofNat (c + 128) :: rest) =
      (scalar? 0x800 ((a * 64 + b) * 64 + c)).map fun c => (c, rest) := by
  have hlead : (UInt8.ofNat (a + 224)).toNat = a + 224 := toNat_ofNat_byte (by omega)
  obtain ⟨hcont, hpayload⟩ := isContinuation_ofNat hb
  obtain ⟨hcont', hpayload'⟩ := isContinuation_ofNat hc
  simp only [decodeChar, UInt8.lt_iff_toNat_lt, hlead, hcont, hpayload, hcont', hpayload',
    UInt8.toNat_ofNat, Bool.and_self]
  rw [if_neg (by omega), if_neg (by omega), if_neg (by omega), if_pos (by omega),
    if_pos trivial, show (a + 224) % 16 = a by omega]

theorem decodeChar_four {a b c d : Nat} (ha : a < 8) (hb : b < 64) (hc : c < 64) (hd : d < 64)
    (rest : Bytes) :
    decodeChar (UInt8.ofNat (a + 240) :: UInt8.ofNat (b + 128) :: UInt8.ofNat (c + 128) ::
        UInt8.ofNat (d + 128) :: rest) =
      (scalar? 0x10000 (((a * 64 + b) * 64 + c) * 64 + d)).map fun c => (c, rest) := by
  have hlead : (UInt8.ofNat (a + 240)).toNat = a + 240 := toNat_ofNat_byte (by omega)
  obtain ⟨hcont, hpayload⟩ := isContinuation_ofNat hb
  obtain ⟨hcont', hpayload'⟩ := isContinuation_ofNat hc
  obtain ⟨hcont'', hpayload''⟩ := isContinuation_ofNat hd
  simp only [decodeChar, UInt8.lt_iff_toNat_lt, hlead, hcont, hpayload, hcont', hpayload',
    hcont'', hpayload'', UInt8.toNat_ofNat, Bool.and_self]
  rw [if_neg (by omega), if_neg (by omega), if_neg (by omega), if_neg (by omega),
    if_pos (by omega), if_pos trivial, show (a + 240) % 8 = a by omega]

/-- The bytes of a character, by its code point. -/
theorem encodeChar_eq (c : Char) : String.utf8EncodeChar c =
    if c.toNat ≤ 127 then [UInt8.ofNat c.toNat]
    else if c.toNat ≤ 2047 then
      [UInt8.ofNat (c.toNat / 64 % 32 + 192), UInt8.ofNat (c.toNat % 64 + 128)]
    else if c.toNat ≤ 65535 then
      [UInt8.ofNat (c.toNat / 4096 % 16 + 224), UInt8.ofNat (c.toNat / 64 % 64 + 128),
        UInt8.ofNat (c.toNat % 64 + 128)]
    else
      [UInt8.ofNat (c.toNat / 262144 % 8 + 240), UInt8.ofNat (c.toNat / 4096 % 64 + 128),
        UInt8.ofNat (c.toNat / 64 % 64 + 128), UInt8.ofNat (c.toNat % 64 + 128)] := rfl

/-- A character is read back from its bytes, whatever follows. -/
theorem decodeChar_encodeChar (c : Char) (rest : Bytes) :
    decodeChar (String.utf8EncodeChar c ++ rest) = some (c, rest) := by
  have read {least n : Nat} (h : least ≤ c.toNat) (hn : n = c.toNat) :
      (scalar? least n).map (fun c => (c, rest)) = some (c, rest) := by
    rw [hn, scalar?_toNat h]
    rfl
  have hmax : c.toNat < 0x110000 := by
    have h : c.toNat.isValidChar := c.valid
    unfold Nat.isValidChar at h
    omega
  rw [encodeChar_eq]
  split_ifs
  · rw [List.singleton_append, decodeChar_one (by omega), Char.ofNat_toNat]
  · exact (decodeChar_two (by omega) (by omega) rest).trans (read (by omega) (by omega))
  · exact (decodeChar_three (by omega) (by omega) (by omega) rest).trans
      (read (by omega) (by omega))
  · exact (decodeChar_four (by omega) (by omega) (by omega) (by omega) rest).trans
      (read (by omega) (by omega))

/-! ## Texts -/

theorem decodeFrom_encodeChars (cs done : List Char) :
    decodeFrom done (encodeChars cs) = some (done.reverse ++ cs) := by
  induction cs generalizing done with
  | nil => simp [decodeFrom]
  | cons c cs ih =>
    have hne : String.utf8EncodeChar c ++ encodeChars cs ≠ [] := by
      intro h
      have := decodeChar_encodeChar c (encodeChars cs)
      rw [h] at this
      cases this
    rw [encodeChars_cons, decodeFrom, if_neg hne]
    split
    · next d rest h =>
      obtain ⟨rfl, rfl⟩ : c = d ∧ encodeChars cs = rest := by
        simpa [decodeChar_encodeChar] using h
      rw [ih]
      simp
    · next h =>
      rw [decodeChar_encodeChar] at h
      cases h

/-- Reading the bytes of a text gives the text. -/
theorem decode?_encode (s : String) : decode? (encode s) = some s := by
  simp [decode?, encode, decodeFrom_encodeChars]

end EditorBridge.Text
