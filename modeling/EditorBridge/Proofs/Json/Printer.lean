import EditorBridge.Json.Printer
import Mathlib.Tactic.SplitIfs
/-!
# The compact text of a JSON value is one line

Strings are escaped, so none of their control characters reaches the text, and
nothing else that is written is one. Without line feeds and carriage returns a
text stays one line wherever it is put.
-/

namespace EditorBridge

/-- No character is a control character. -/
def ControlFree (cs : List Char) : Prop := ∀ c ∈ cs, 0x20 ≤ c.toNat

namespace ControlFree

variable {c : Char} {cs ds : List Char}

@[simp] theorem nil : ControlFree [] := nofun

@[simp] theorem cons_iff : ControlFree (c :: cs) ↔ 0x20 ≤ c.toNat ∧ ControlFree cs := by
  simp [ControlFree]

@[simp] theorem append_iff : ControlFree (cs ++ ds) ↔ ControlFree cs ∧ ControlFree ds := by
  simp [ControlFree, or_imp, forall_and]

theorem sublist (h : ControlFree cs) (hs : ds.Sublist cs) : ControlFree ds :=
  fun c hc => h c (hs.subset hc)

theorem ne_lineFeed (h : ControlFree cs) (hc : c ∈ cs) : c ≠ '\n' := by
  rintro rfl
  exact absurd (h _ hc) (by decide)

theorem ne_carriageReturn (h : ControlFree cs) (hc : c ∈ cs) : c ≠ '\r' := by
  rintro rfl
  exact absurd (h _ hc) (by decide)

end ControlFree

/-! ## Numbers -/

/-- A character that has no meaning of its own in a text: no blank, quote, comma, colon or bracket. -/
def Plain (c : Char) : Prop :=
  0x20 < c.toNat ∧ c ∉ ['"', ',', ':', '[', ']', '\x7b', '\x7d']

instance : DecidablePred Plain := fun c =>
  inferInstanceAs (Decidable (0x20 < c.toNat ∧ c ∉ ['"', ',', ':', '[', ']', '\x7b', '\x7d']))

theorem plain_of_isDigit {c : Char} (h : c.isDigit = true) : Plain c := by
  constructor
  · simp only [Char.isDigit, Bool.and_eq_true, decide_eq_true_eq] at h
    have hlow : (48 : UInt32).toNat ≤ c.val.toNat := UInt32.le_iff_toNat_le.1 h.1
    exact Nat.lt_of_lt_of_le (by decide) hlow
  · intro hm
    simp only [List.mem_cons, List.not_mem_nil, or_false] at hm
    rcases hm with rfl | rfl | rfl | rfl | rfl | rfl | rfl <;> exact absurd h (by decide)

/-- The characters of a number or a word. -/
def Wordy (cs : List Char) : Prop := ∀ c ∈ cs, Plain c

namespace Wordy

variable {c : Char} {cs ds : List Char}

@[simp] theorem nil : Wordy [] := nofun

@[simp] theorem cons_iff : Wordy (c :: cs) ↔ Plain c ∧ Wordy cs := by simp [Wordy]

@[simp] theorem append_iff : Wordy (cs ++ ds) ↔ Wordy cs ∧ Wordy ds := by
  simp [Wordy, or_imp, forall_and]

theorem sublist (h : Wordy cs) (hs : ds.Sublist cs) : Wordy ds := fun c hc => h c (hs.subset hc)

theorem controlFree (h : Wordy cs) : ControlFree cs := fun c hc => Nat.le_of_lt (h c hc).1

end Wordy

theorem wordy_toDigits (n : Nat) : Wordy (Nat.toDigits 10 n) := fun _ hc =>
  plain_of_isDigit (Nat.isDigit_of_mem_toDigits (by decide) (by decide) hc)

theorem wordy_zeros (n : Nat) : Wordy (List.replicate n '0') := by
  intro c hc
  rw [(List.mem_replicate.1 hc).2]
  decide

theorem wordy_int (n : Int) : Wordy (toString n).toList := by
  cases n with
  | ofNat n =>
    show Wordy (toString n).toList
    rw [Nat.toString_eq_ofList_toDigits, String.toList_ofList]
    exact wordy_toDigits n
  | negSucc n =>
    show Wordy ("-" ++ toString (n + 1)).toList
    rw [Nat.toString_eq_ofList_toDigits, String.toList_append, String.toList_ofList]
    exact Wordy.append_iff.2 ⟨Wordy.cons_iff.2 ⟨by decide, .nil⟩, by simp [wordy_toDigits]⟩

theorem int_ne_nil (n : Int) : (toString n).toList ≠ [] := by
  cases n with
  | ofNat n =>
    show (toString n).toList ≠ []
    rw [Nat.toString_eq_ofList_toDigits, String.toList_ofList]
    exact Nat.toDigits_ne_nil
  | negSucc n =>
    show ("-" ++ toString (n + 1)).toList ≠ []
    simp

namespace Binary64

theorem wordy_decimalText (d : Decimal) : Wordy (decimalText d) := by
  have hdigits := wordy_toDigits d.digits
  have htake (n : Nat) := hdigits.sublist (List.take_sublist n _)
  have hdrop (n : Nat) := hdigits.sublist (List.drop_sublist n _)
  have htail := hdigits.sublist (List.tail_sublist _)
  unfold decimalText
  dsimp only
  split_ifs <;> simp [Plain, hdigits, wordy_zeros, htake, hdrop, htail, wordy_toDigits]

/-- The text of a number. -/
theorem wordy_text (x : Binary64) : Wordy x.text := by
  unfold text
  dsimp only
  split_ifs <;> simp [Plain, wordy_decimalText]

theorem decimalText_ne_nil (d : Decimal) : decimalText d ≠ [] := by
  unfold decimalText
  dsimp only
  split_ifs <;> simp

theorem text_ne_nil (x : Binary64) : x.text ≠ [] := by
  unfold text
  dsimp only
  split_ifs <;> simp [decimalText_ne_nil]

end Binary64

/-! ## Values -/

namespace Json

theorem controlFree_hexDigit : ∀ n < 16, 0x20 ≤ (hexDigit n).toNat := by decide

theorem controlFree_escapeChar (c : Char) : ControlFree (escapeChar c) := by
  unfold escapeChar
  split_ifs with _ _ _ _ _ _ _ hc
  iterate 7 simp
  · have hhigh := controlFree_hexDigit (c.toNat / 16) (by omega)
    have hlow := controlFree_hexDigit (c.toNat % 16) (by omega)
    simp [hhigh, hlow]
  · simpa using Nat.not_lt.1 hc

theorem controlFree_escape (cs : List Char) : ControlFree (escape cs) := by
  induction cs with
  | nil => simp [escape]
  | cons c cs ih => simp [escape, controlFree_escapeChar, ih]

theorem controlFree_quote (s : String) : ControlFree (quote s) := by
  simp [quote, controlFree_escape]

mutual

/-- The compact text of a value has no control characters, whatever its strings hold. -/
theorem controlFree_chars : (j : Json) → ControlFree j.chars
  | .null => by simp [chars]
  | .bool true => by simp [chars]
  | .bool false => by simp [chars]
  | .int n => (wordy_int n).controlFree
  | .float x => x.wordy_text.controlFree
  | .str s => controlFree_quote s
  | .arr items => by simp [chars, controlFree_itemChars items]
  | .obj members => by simp [chars, controlFree_memberChars members]

theorem controlFree_itemChars : (items : List Json) → ControlFree (itemChars items)
  | [] => by simp [itemChars]
  | [x] => controlFree_chars x
  | x :: y :: rest => by
    simp [itemChars, controlFree_chars x, controlFree_itemChars (y :: rest)]

theorem controlFree_memberChars :
    (members : List (String × Json)) → ControlFree (memberChars members)
  | [] => by simp [memberChars]
  | [(k, v)] => by simp [memberChars, controlFree_quote, controlFree_chars v]
  | (k, v) :: m :: rest => by
    simp [memberChars, controlFree_quote, controlFree_chars v, controlFree_memberChars (m :: rest)]

end

end Json

end EditorBridge
