import EditorBridge.Proofs.Json.Printer
/-!
# The indented text of a value

It is the compact text laid out in lines: a line ends after every opening
bracket and every comma, and before every closing bracket, and it is indented by
two blanks for every bracket that is open. Empty brackets stay together, a blank
follows every colon, and strings are left alone.
-/

namespace EditorBridge.Json

mutual

/-- Lays out a text, so many brackets being open. -/
def layOut (level : Nat) : List Char → List Char
  | [] => []
  | '"' :: rest => '"' :: layOutString level rest
  | ':' :: rest => ':' :: ' ' :: layOut level rest
  | ',' :: rest => ',' :: newLine level ++ layOut level rest
  | '[' :: ']' :: rest => '[' :: ']' :: layOut level rest
  | '\x7b' :: '\x7d' :: rest => '\x7b' :: '\x7d' :: layOut level rest
  | '[' :: rest => '[' :: newLine (level + 1) ++ layOut (level + 1) rest
  | '\x7b' :: rest => '\x7b' :: newLine (level + 1) ++ layOut (level + 1) rest
  | ']' :: rest => newLine (level - 1) ++ ']' :: layOut (level - 1) rest
  | '\x7d' :: rest => newLine (level - 1) ++ '\x7d' :: layOut (level - 1) rest
  | c :: rest => c :: layOut level rest

/-- Goes on after the opening quote of a string. -/
def layOutString (level : Nat) : List Char → List Char
  | [] => []
  | '"' :: rest => '"' :: layOut level rest
  | '\\' :: c :: rest => '\\' :: c :: layOutString level rest
  | c :: rest => c :: layOutString level rest

end

/-- The compact text of a value, laid out in lines. -/
def laidOut (j : Json) : String := String.ofList (layOut 0 j.compact.toList)

variable {level : Nat} {c : Char} {cs rest : List Char}

/-! ## Words and strings -/

theorem layOut_plain (h : Plain c) : layOut level (c :: rest) = c :: layOut level rest := by
  obtain ⟨-, h⟩ := h
  simp only [List.mem_cons, List.not_mem_nil, or_false, not_or] at h
  rw [layOut] <;> simp_all

theorem layOut_wordy (h : Wordy cs) : layOut level (cs ++ rest) = cs ++ layOut level rest := by
  induction cs with
  | nil => rfl
  | cons c cs ih =>
    rw [Wordy.cons_iff] at h
    rw [List.cons_append, layOut_plain h.1, ih h.2, List.cons_append]

theorem layOutString_char (hq : c ≠ '"') (hs : c ≠ '\\') :
    layOutString level (c :: rest) = c :: layOutString level rest := by
  rw [layOutString] <;> simp_all

theorem hexDigit_ne : ∀ n < 16, hexDigit n ≠ '"' ∧ hexDigit n ≠ '\\' := by decide

/-- What stands for a character in a string is left alone. -/
theorem layOutString_escapeChar (c : Char) : layOutString level (escapeChar c ++ rest) =
    escapeChar c ++ layOutString level rest := by
  unfold escapeChar
  split_ifs with hq hs _ _ _ _ _ hc
  iterate 7 rfl
  · obtain ⟨hquote, hslash⟩ := hexDigit_ne (c.toNat / 16) (by omega)
    obtain ⟨hquote', hslash'⟩ := hexDigit_ne (c.toNat % 16) (by omega)
    show '\\' :: 'u' :: layOutString level ('0' :: '0' :: _ :: _ :: rest) = _
    rw [layOutString_char (by decide) (by decide), layOutString_char (by decide) (by decide),
      layOutString_char hquote hslash, layOutString_char hquote' hslash']
    rfl
  · exact layOutString_char hq hs

theorem layOutString_escape (cs rest : List Char) :
    layOutString level (escape cs ++ rest) = escape cs ++ layOutString level rest := by
  induction cs with
  | nil => rfl
  | cons c cs ih =>
    rw [escape, List.append_assoc, layOutString_escapeChar, ih, List.append_assoc]

theorem layOut_quote (s : String) :
    layOut level (quote s ++ rest) = quote s ++ layOut level rest := by
  have hstring : layOutString level (escape s.toList ++ '"' :: rest) =
      escape s.toList ++ '"' :: layOut level rest := by
    rw [layOutString_escape, layOutString]
  simp [quote, layOut, hstring]

/-! ## Lists and objects -/

theorem head?_wordy (h : Wordy cs) (hne : cs ≠ []) : (cs ++ rest).head? ≠ some ']' := by
  obtain ⟨c, cs, rfl⟩ := List.exists_cons_of_ne_nil hne
  intro he
  cases he
  exact absurd (Wordy.cons_iff.1 h).1 (by decide)

/-- No text of a value begins like the end of a list. -/
theorem head?_chars (j : Json) : (j.chars ++ rest).head? ≠ some ']' := by
  cases j with
  | int n => exact head?_wordy (wordy_int n) (int_ne_nil n)
  | float x => exact head?_wordy x.wordy_text x.text_ne_nil
  | bool b => cases b <;> simp [chars]
  | _ => simp [chars, quote]

theorem head?_itemChars (x : Json) (items : List Json) :
    (itemChars (x :: items) ++ rest).head? ≠ some ']' := by
  cases items with
  | nil => exact head?_chars x
  | cons y items =>
    rw [itemChars, List.append_assoc]
    · exact head?_chars x
    · exact List.cons_ne_nil _ _

theorem head?_memberChars (m : String × Json) (members : List (String × Json)) :
    (memberChars (m :: members) ++ rest).head? ≠ some '\x7d' := by
  obtain ⟨k, v⟩ := m
  cases members <;> simp [memberChars, quote]

theorem layOut_list (h : cs.head? ≠ some ']') : layOut level ('[' :: cs) =
    '[' :: newLine (level + 1) ++ layOut (level + 1) cs := by
  cases cs with
  | nil => rfl
  | cons c cs =>
    rw [layOut]
    rintro rest ⟨⟩
    exact h rfl

theorem layOut_object (h : cs.head? ≠ some '\x7d') : layOut level ('\x7b' :: cs) =
    '\x7b' :: newLine (level + 1) ++ layOut (level + 1) cs := by
  cases cs with
  | nil => rfl
  | cons c cs =>
    rw [layOut]
    rintro rest ⟨⟩
    exact h rfl

/-- The compact text of a value is laid out as the indented one, whatever may follow it. -/
def LaysOut (j : Json) : Prop := ∀ level rest,
  layOut level (j.chars ++ rest) = j.indentedChars level ++ layOut level rest

/-- Items are laid out on lines of their own. -/
theorem layOut_itemChars (x : Json) (items : List Json) (h : ∀ y ∈ x :: items, y.LaysOut) :
    newLine level ++ layOut level (itemChars (x :: items) ++ rest) =
      indentedItems level (x :: items) ++ layOut level rest := by
  have hx : x.LaysOut := h x List.mem_cons_self
  induction items generalizing x with
  | nil => rw [itemChars, hx, indentedItems, List.append_assoc]
  | cons y items ih =>
    have hy : ∀ z ∈ y :: items, z.LaysOut := fun z hz => h z (List.mem_cons_of_mem _ hz)
    have hrest := ih y hy (hy y List.mem_cons_self)
    simp only [itemChars, indentedItems, List.append_assoc, List.cons_append]
    rw [hx, layOut, List.cons_append, hrest]

/-- Members are laid out on lines of their own. -/
theorem layOut_memberChars (m : String × Json) (members : List (String × Json))
    (h : ∀ n ∈ m :: members, n.2.LaysOut) :
    newLine level ++ layOut level (memberChars (m :: members) ++ rest) =
      indentedMembers level (m :: members) ++ layOut level rest := by
  obtain ⟨k, v⟩ := m
  have hv : v.LaysOut := h (k, v) List.mem_cons_self
  induction members generalizing k v with
  | nil =>
    simp only [memberChars, indentedMembers, List.append_assoc, List.cons_append]
    rw [layOut_quote, layOut, hv]
  | cons n members ih =>
    have hn : ∀ l ∈ n :: members, l.2.LaysOut := fun l hl => h l (List.mem_cons_of_mem _ hl)
    have hrest : newLine level ++ layOut level (memberChars (n :: members) ++ rest) = _ :=
      ih n.1 n.2 hn (hn n List.mem_cons_self)
    simp only [memberChars, indentedMembers, List.append_assoc, List.cons_append]
    rw [layOut_quote, layOut, hv, layOut, List.cons_append, hrest]

mutual

theorem laysOut : (j : Json) → j.LaysOut
  | .null => fun _ _ => layOut_wordy (by simp [chars, Plain])
  | .bool true => fun _ _ => layOut_wordy (by simp [chars, Plain])
  | .bool false => fun _ _ => layOut_wordy (by simp [chars, Plain])
  | .int n => fun _ _ => layOut_wordy (wordy_int n)
  | .float x => fun _ _ => layOut_wordy x.wordy_text
  | .str s => fun _ _ => layOut_quote s
  | .arr [] => fun _ _ => rfl
  | .arr (x :: items) => fun level rest => by
    have hitems : newLine (level + 1) ++
        layOut (level + 1) (itemChars (x :: items) ++ ']' :: rest) = _ :=
      layOut_itemChars x items (laysOut_items (x :: items))
    simp only [chars, indentedChars, List.cons_append, List.append_assoc, List.nil_append]
    rw [layOut_list (head?_itemChars x items), List.cons_append, hitems, layOut]
    rfl
  | .obj [] => fun _ _ => rfl
  | .obj (m :: members) => fun level rest => by
    have hmembers : newLine (level + 1) ++
        layOut (level + 1) (memberChars (m :: members) ++ '\x7d' :: rest) = _ :=
      layOut_memberChars m members (laysOut_members (m :: members))
    simp only [chars, indentedChars, List.cons_append, List.append_assoc, List.nil_append]
    rw [layOut_object (head?_memberChars m members), List.cons_append, hmembers, layOut]
    rfl

theorem laysOut_items : (items : List Json) → ∀ x ∈ items, x.LaysOut
  | [] => List.forall_mem_nil _
  | x :: rest => List.forall_mem_cons.2 ⟨laysOut x, laysOut_items rest⟩

theorem laysOut_members : (members : List (String × Json)) → ∀ m ∈ members, m.2.LaysOut
  | [] => List.forall_mem_nil _
  | (_, v) :: rest => List.forall_mem_cons.2 ⟨laysOut v, laysOut_members rest⟩

end

/-- The indented text is the compact one, laid out in lines. -/
theorem indented_eq_laidOut (j : Json) : j.indented = j.laidOut := by
  have h := laysOut j 0 []
  rw [List.append_nil, layOut, List.append_nil] at h
  rw [laidOut, compact, String.toList_ofList, h, indented]

example : laidOut (.obj [("a", .arr [.int 1, .obj []])]) =
    "\x7b\n  \"a\": [\n    1,\n    \x7b\x7d\n  ]\n\x7d" := by decide +kernel

end EditorBridge.Json
