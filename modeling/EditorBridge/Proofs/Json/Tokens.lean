import EditorBridge.Json.Printer
import EditorBridge.Proofs.Json.Reader
import EditorBridge.Proofs.Text.Utf8
/-!
# Strings and integers read back

A string in quotes and the digits of an integer are read back from what has been
written, whatever follows them. A number goes on as long as its bytes do, so what
follows one has to stop it.
-/

namespace EditorBridge.Json

open Text (Bytes encodeChars)

namespace Scan

/-! ## Bytes of ASCII characters -/

theorem toNat_byte {c : Char} (h : c.toNat < 128) : (byte c).toNat = c.toNat := by
  show c.toNat % 256 = c.toNat
  omega

theorem encodeChar_ascii {c : Char} (h : c.toNat < 128) : String.utf8EncodeChar c = [byte c] := by
  rw [Text.encodeChar_eq, if_pos (by omega)]
  rfl

theorem encodeChars_append (cs ds : List Char) :
    encodeChars (cs ++ ds) = encodeChars cs ++ encodeChars ds :=
  List.flatMap_append

theorem encodeChars_ascii {cs : List Char} (h : ∀ c ∈ cs, c.toNat < 128) :
    encodeChars cs = cs.map byte := by
  induction cs with
  | nil => rfl
  | cons c cs ih =>
    obtain ⟨hc, hcs⟩ := List.forall_mem_cons.1 h
    rw [Text.encodeChars_cons, encodeChar_ascii hc, ih hcs]
    rfl

theorem length_le_encodeChars (cs : List Char) : cs.length ≤ (encodeChars cs).length := by
  induction cs with
  | nil => exact Nat.le_refl _
  | cons c cs ih =>
    have hpos : 0 < (String.utf8EncodeChar c).length := by
      rw [Text.encodeChar_eq]
      split_ifs <;> simp
    rw [Text.encodeChars_cons, List.length_append, List.length_cons]
    omega

/-! ## Strings -/

section Strings

variable {done : List Char} {bs rest : Bytes} {b : UInt8} {c : Char}

theorem stringBody_quote :
    stringBody done none (byte '"' :: rest) = .ok (String.ofList done.reverse, rest) := by
  rw [stringBody, if_pos rfl]

theorem stringBody_escaped (h : escaped bs = .ok (c, rest)) :
    stringBody done none (byte '\\' :: bs) = stringBody (c :: done) none rest := by
  rw [stringBody, if_neg (by decide), if_pos rfl]
  split
  · next hs =>
    cases h.symm.trans hs
    rfl
  · next hs => cases h.symm.trans hs

theorem stringBody_plain (hq : b ≠ byte '"') (hs : b ≠ byte '\\') (hb : ¬ b < 0x20)
    (h : Text.decodeChar (b :: bs) = some (c, rest)) :
    stringBody done none (b :: bs) = stringBody (c :: done) none rest := by
  rw [stringBody, if_neg hq, if_neg hs, if_neg hb]
  split
  · next hd =>
    cases h.symm.trans hd
    rfl
  · next hd => cases h.symm.trans hd

/-- The first byte of a character is the character itself or none of ASCII. -/
theorem encodeChar_head (c : Char) : ∃ b bs, String.utf8EncodeChar c = b :: bs ∧
    (b.toNat = c.toNat ∨ 128 ≤ b.toNat) := by
  rw [Text.encodeChar_eq]
  split_ifs
  · exact ⟨_, _, rfl, .inl (Text.toNat_ofNat_byte (by omega))⟩
  all_goals
    refine ⟨_, _, rfl, .inr ?_⟩
    rw [Text.toNat_ofNat_byte (by omega)]
    omega

theorem hexValue?_hexDigit : ∀ n < 16, hexValue? (byte (hexDigit n)) = some n := by decide

theorem hexDigit_ascii : ∀ n < 16, (hexDigit n).toNat < 128 := by decide

theorem escaped_control (h : c.toNat < 0x20) :
    escaped (byte 'u' :: byte '0' :: byte '0' :: byte (hexDigit (c.toNat / 16)) ::
      byte (hexDigit (c.toNat % 16)) :: rest) = .ok (c, rest) := by
  have hhigh := hexValue?_hexDigit (c.toNat / 16) (by omega)
  have hlow := hexValue?_hexDigit (c.toNat % 16) (by omega)
  have hzero : hexValue? (byte '0') = some 0 := by decide
  have hcode : c.toNat / 16 * 16 + c.toNat % 16 = c.toNat := by omega
  have hhex : hexEscape (byte '0' :: byte '0' :: byte (hexDigit (c.toNat / 16)) ::
      byte (hexDigit (c.toNat % 16)) :: rest) = .ok (c.toNat, rest) := by
    simp [hexEscape, hzero, hhigh, hlow, hcode]
  rw [escaped, if_pos rfl, unicodeEscape, bind_of_ok hhex]
  dsimp only
  rw [if_neg (by omega), if_neg (by omega), Char.ofNat_toNat]

/-- A character between quotes is read back as itself. -/
theorem stringBody_escapeChar (c : Char) (rest : Bytes) :
    stringBody done none (encodeChars (escapeChar c) ++ rest) =
      stringBody (c :: done) none rest := by
  unfold escapeChar
  split_ifs with hq hs _ _ _ _ _ hc
  iterate 7
    subst c
    exact stringBody_escaped rfl
  · have hascii : ∀ d ∈ ['\\', 'u', '0', '0', hexDigit (c.toNat / 16), hexDigit (c.toNat % 16)],
        d.toNat < 128 := by
      simp [hexDigit_ascii (c.toNat / 16) (by omega), hexDigit_ascii (c.toNat % 16) (by omega)]
    rw [encodeChars_ascii hascii]
    exact stringBody_escaped (escaped_control hc)
  · obtain ⟨b, bs, he, hb⟩ := encodeChar_head c
    have hne {d : Char} (hd : d.toNat < 128) (h : c ≠ d) : b ≠ byte d := by
      rintro rfl
      rw [toNat_byte hd] at hb
      rcases hb with hb | hb
      · exact h (Char.toNat_inj.1 hb.symm)
      · omega
    have hlow : ¬ b < 0x20 := by
      rw [UInt8.lt_iff_toNat_lt]
      show ¬ b.toNat < 32
      omega
    have hdecode := Text.decodeChar_encodeChar c rest
    rw [he] at hdecode
    rw [Text.encodeChars_cons, Text.encodeChars_nil, List.append_nil, he]
    exact stringBody_plain (hne (by decide) hq) (hne (by decide) hs) hlow hdecode

theorem stringBody_escape (cs : List Char) (done : List Char) (rest : Bytes) :
    stringBody done none (encodeChars (escape cs) ++ byte '"' :: rest) =
      .ok (String.ofList (done.reverse ++ cs), rest) := by
  induction cs generalizing done with
  | nil => simp [escape, stringBody_quote]
  | cons c cs ih =>
    rw [escape, encodeChars_append, List.append_assoc, stringBody_escapeChar, ih]
    simp

/-- A text in quotes is read back, its opening quote being read already. -/
theorem string_escape (s : String) (rest : Bytes) :
    string (encodeChars (escape s.toList) ++ byte '"' :: rest) = .ok (s, rest) := by
  rw [string, stringBody_escape]
  simp

theorem encodeChars_quote (s : String) :
    encodeChars (quote s) = byte '"' :: (encodeChars (escape s.toList) ++ [byte '"']) := by
  rw [quote, List.cons_append, Text.encodeChars_cons, encodeChars_append]
  rfl

end Strings

/-! ## Numbers -/

/-- Bytes that do not go on with a number. -/
def Stops (bs : Bytes) : Prop :=
  ∀ b ∈ bs.head?, isDigit b = false ∧ b ≠ byte '.' ∧ isExponentMark b = false

theorem stops_nil : Stops [] := nofun

theorem stops_cons {b : UInt8} {bs : Bytes}
    (h : isDigit b = false ∧ b ≠ byte '.' ∧ isExponentMark b = false) : Stops (b :: bs) := by
  rintro _ ⟨⟩
  exact h

section Numbers

variable {negative : Bool} {rest : Bytes} {c : Char}

theorem isDigit_ascii (h : c.isDigit) : 48 ≤ c.toNat ∧ c.toNat ≤ 57 := by
  simp only [Char.isDigit, Bool.and_eq_true, decide_eq_true_eq, UInt32.le_iff_toNat_le] at h
  exact h

theorem isDigit_byte (h : c.isDigit) : isDigit (byte c) = true := by
  have hc := isDigit_ascii h
  have hb := toNat_byte (c := c) (by omega)
  simp only [isDigit, Bool.and_eq_true, decide_eq_true_eq, UInt8.le_iff_toNat_le, hb]
  exact hc

theorem digitsValue_map {cs : List Char} (h : ∀ c ∈ cs, c.isDigit) :
    digitsValue (cs.map byte) = Nat.ofDigitChars 10 cs 0 := by
  have hfold (n : Nat) : (cs.map byte).foldl (fun n d => 10 * n + digitValue d) n =
      cs.foldl (fun n c => 10 * n + (c.toNat - '0'.toNat)) n := by
    induction cs generalizing n with
    | nil => rfl
    | cons c cs ih =>
      obtain ⟨hc, hcs⟩ := List.forall_mem_cons.1 h
      have hvalue : digitValue (byte c) = c.toNat - '0'.toNat := by
        rw [digitValue, toNat_byte (by have := isDigit_ascii hc; omega)]
        rfl
      rw [List.map_cons, List.foldl_cons, List.foldl_cons, hvalue, ih hcs]
  exact hfold 0

/-- Only zero is written with a zero in front. -/
theorem toDigits_head {n : Nat} (h : 0 < n) : ∃ c cs, Nat.toDigits 10 n = c :: cs ∧ c ≠ '0' := by
  induction n using Nat.strongRecOn with
  | ind n ih =>
    rw [Nat.toDigits_eq_if (by decide)]
    split
    · next hlt =>
      have hone : ∀ m < 10, 0 < m → Nat.digitChar m ≠ '0' := by decide
      exact ⟨_, _, rfl, hone n hlt h⟩
    · next hge =>
      obtain ⟨c, cs, he, hc⟩ := ih (n / 10) (by omega) (by omega)
      exact ⟨c, cs ++ [Nat.digitChar (n % 10)], by rw [he, List.cons_append], hc⟩

theorem afterWhole_stops {digits : Nat} (h : Stops rest) :
    afterWhole negative digits rest = afterWhole.whole negative digits rest := by
  unfold afterWhole
  cases rest with
  | nil => rfl
  | cons b rest =>
    obtain ⟨-, hpoint, hmark⟩ := h b rfl
    simp [hpoint, hmark]

/-- The digits of a number are read to their end. -/
theorem unsigned_toDigits (n : Nat) (h : Stops rest) :
    unsigned negative (encodeChars (Nat.toDigits 10 n) ++ rest) =
      afterWhole.whole negative n rest := by
  have hstop : rest.takeWhile isDigit = [] ∧ rest.dropWhile isDigit = rest := by
    cases rest with
    | nil => exact ⟨rfl, rfl⟩
    | cons b rest => simp [(h b rfl).1]
  have hdigits : ∀ c ∈ Nat.toDigits 10 n, c.isDigit := fun c =>
    Nat.isDigit_of_mem_toDigits (by decide) (by decide)
  rw [encodeChars_ascii fun c hc => by have := isDigit_ascii (hdigits c hc); omega]
  rcases Nat.eq_zero_or_pos n with rfl | hn
  · have hhead : (rest.head?.map isDigit).getD false = false := by
      cases rest with
      | nil => rfl
      | cons b rest => exact (h b rfl).1
    rw [Nat.toDigits_zero]
    show unsigned negative (0x30 :: rest) = _
    rw [unsigned, if_pos rfl, hhead, if_neg (by decide), afterWhole_stops h]
  · obtain ⟨c, cs, he, hc⟩ := toDigits_head hn
    rw [he] at hdigits
    obtain ⟨hfirst, htail⟩ := List.forall_mem_cons.1 hdigits
    have hall : ∀ b ∈ cs.map byte, isDigit b = true :=
      List.forall_mem_map.2 fun c hc => isDigit_byte (htail c hc)
    have hzero : byte c ≠ 0x30 := by
      intro hb
      have := isDigit_ascii hfirst
      have hnat : c.toNat = '0'.toNat :=
        (toNat_byte (by omega)).symm.trans (congrArg UInt8.toNat hb)
      exact hc (Char.toNat_inj.1 hnat)
    have hvalue : digitsValue (byte c :: cs.map byte) = n := by
      rw [← List.map_cons, digitsValue_map hdigits, ← he, Nat.ofDigitChars_ten_toDigits]
    rw [he, List.map_cons, List.cons_append, unsigned, if_neg hzero, if_pos (isDigit_byte hfirst),
      List.takeWhile_append_of_pos hall, List.dropWhile_append_of_pos hall, hstop.1, hstop.2,
      List.append_nil]
    dsimp only
    rw [hvalue, afterWhole_stops h]

theorem whole_ok {n : Nat} {j : Json} (h : ofInteger? negative n = some j) :
    afterWhole.whole negative n rest = .ok (j, rest) := by
  rw [afterWhole.whole, h]

theorem toDigits_begin (n : Nat) :
    ∃ b bs, encodeChars (Nat.toDigits 10 n) = b :: bs ∧ isDigit b = true := by
  cases he : Nat.toDigits 10 n with
  | nil => exact absurd he Nat.toDigits_ne_nil
  | cons c cs =>
    have hc : c.isDigit :=
      Nat.isDigit_of_mem_toDigits (by decide) (by decide) (he ▸ List.mem_cons_self)
    have hascii := isDigit_ascii hc
    rw [Text.encodeChars_cons, encodeChar_ascii (by omega)]
    exact ⟨_, _, rfl, isDigit_byte hc⟩

theorem chars_ofNat (n : Nat) : chars (.int n) = Nat.toDigits 10 n := by
  show (toString n).toList = _
  rw [Nat.toString_eq_ofList_toDigits, String.toList_ofList]

theorem chars_negSucc (n : Nat) : chars (.int (.negSucc n)) = '-' :: Nat.toDigits 10 (n + 1) := by
  show ("-" ++ toString (n + 1)).toList = _
  simp

/-- A byte that a number can begin with. -/
def OfNumber (b : UInt8) : Prop := b = byte '-' ∨ isDigit b = true

theorem chars_int_begin (n : Int) :
    ∃ b bs, encodeChars (chars (.int n)) = b :: bs ∧ OfNumber b := by
  cases n with
  | ofNat n =>
    obtain ⟨b, bs, he, hb⟩ := toDigits_begin n
    exact ⟨b, bs, (congrArg encodeChars (chars_ofNat n)).trans he, .inr hb⟩
  | negSucc n =>
    rw [chars_negSucc]
    exact ⟨_, _, rfl, .inl rfl⟩

theorem OfNumber.ne {b : UInt8} (h : OfNumber b) {d : UInt8} (hd : d ≠ byte '-')
    (hdigit : isDigit d = false) : b ≠ d := by
  rintro rfl
  rcases h with h | h
  · exact hd h
  · cases h.symm.trans hdigit

theorem OfNumber.isSpace {b : UInt8} (h : OfNumber b) : isSpace b = false := by
  cases hs : Scan.isSpace b with
  | false => rfl
  | true =>
    simp only [Scan.isSpace, Bool.or_eq_true, beq_iff_eq] at hs
    rcases hs with ((rfl | rfl) | rfl) | rfl <;> exact absurd rfl (h.ne (by decide) (by decide))

/-- An integer of 64 bits is read back. -/
theorem number_chars {n : Int} (hn : InWord n) (h : Stops rest) :
    number (encodeChars (chars (.int n)) ++ rest) = .ok (.int n, rest) := by
  cases n with
  | ofNat n =>
    have hfit : ofInteger? false n = some (.int n) := by
      have : n < Nat.pow 2 64 := by
        have : (n : Int) < 2 ^ 64 := hn.2
        show n < 2 ^ 64
        omega
      rw [ofInteger?, if_neg (by decide), if_pos this]
    have hplain : number (encodeChars (Nat.toDigits 10 n) ++ rest) =
        unsigned false (encodeChars (Nat.toDigits 10 n) ++ rest) := by
      obtain ⟨b, bs, he, hb⟩ := toDigits_begin n
      rw [he, List.cons_append, number]
      rintro - ⟨rfl, -⟩
      exact absurd hb (by decide)
    show number (encodeChars (chars (.int n)) ++ rest) = _
    rw [chars_ofNat, hplain, unsigned_toDigits n h, whole_ok hfit]
    rfl
  | negSucc n =>
    have hfit : ofInteger? true (n + 1) = some (.int (.negSucc n)) := by
      have : ¬ (n + 1 = 0 ∨ Nat.pow 2 63 < n + 1) := by
        have := hn.1
        show ¬ (n + 1 = 0 ∨ 2 ^ 63 < n + 1)
        omega
      rw [ofInteger?, if_pos rfl, if_neg this]
      rfl
    rw [chars_negSucc]
    show unsigned true (encodeChars (Nat.toDigits 10 (n + 1)) ++ rest) = _
    rw [unsigned_toDigits _ h, whole_ok hfit]

end Numbers

end Scan

end EditorBridge.Json
