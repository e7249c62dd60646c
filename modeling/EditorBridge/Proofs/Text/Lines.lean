import EditorBridge.Text.LineEnds
import Mathlib.Data.List.Infix
/-!
# Texts line by line

A text is empty, or a line without an end, or a line with a line feed behind it
and another text after that: `lines_induction`. What is done line by line can be
compared along this with what is done character by character.
-/

namespace EditorBridge.Text

variable {line rest cs : List Char}

/-! ## One line end for all -/

theorem unified_cons {c : Char} (h : c ≠ '\r') : unified (c :: cs) = c :: unified cs := by
  rw [unified] <;> simp [h]

theorem unified_return (h : rest.head? ≠ some '\n') :
    unified ('\r' :: rest) = '\n' :: unified rest := by
  rw [unified]
  rintro rest rfl
  exact h rfl

/-- Line ends are unified on both sides of a place that is not within one. -/
theorem unified_append (h : line.getLast? = some '\r' → rest.head? ≠ some '\n') :
    unified (line ++ rest) = unified line ++ unified rest := by
  induction line using unified.induct with
  | case1 => rfl
  | case2 line ih =>
    have hline : line.getLast? = some '\r' → rest.head? ≠ some '\n' := fun hl =>
      h (by rw [List.getLast?_cons_cons]; cases line <;> simp_all)
    simp [unified, ih hline]
  | case3 line hne ih =>
    cases line with
    | nil => simp [unified_return (h rfl), unified]
    | cons d line =>
      have hd : (d :: line).head? ≠ some '\n' := by
        rintro ⟨⟩
        exact hne line rfl
      rw [unified_return hd, List.cons_append, unified_return (by exact hd),
        ih (by rwa [List.getLast?_cons_cons] at h), List.cons_append]
  | case4 c line _ hc ih =>
    have hline : line.getLast? = some '\r' → rest.head? ≠ some '\n' := fun hl =>
      h (by cases line <;> simp_all)
    rw [unified_cons hc, List.cons_append, unified_cons hc, ih hline, List.cons_append]

/-- A line feed ends a line whatever stands before it. -/
theorem unified_append_lineFeed (line rest : List Char) :
    unified (line ++ '\n' :: rest) = unified (line ++ ['\n']) ++ unified rest := by
  rw [← unified_append (by simp), List.append_assoc, List.singleton_append]

theorem unified_of_oneLine (h : OneLine cs) : unified cs = cs := by
  induction cs with
  | nil => rfl
  | cons c cs ih =>
    obtain ⟨hreturn, hfeed⟩ := h
    rw [List.mem_cons, not_or] at hreturn hfeed
    rw [unified_cons (Ne.symm hreturn.1), ih ⟨hreturn.2, hfeed.2⟩]

/-- Without line feeds every line end is one character. -/
theorem length_unified (h : '\n' ∉ cs) : (unified cs).length = cs.length := by
  induction cs with
  | nil => rfl
  | cons c cs ih =>
    rw [List.mem_cons, not_or] at h
    by_cases hc : c = '\r'
    · have hhead : cs.head? ≠ some '\n' := fun he => h.2 (List.mem_of_head? he)
      rw [hc, unified_return hhead, List.length_cons, List.length_cons, ih h.2]
    · rw [unified_cons hc, List.length_cons, List.length_cons, ih h.2]

theorem unified_ne_nil (h : cs ≠ []) : unified cs ≠ [] := by
  cases cs with
  | nil => exact absurd rfl h
  | cons c cs => unfold unified; split <;> simp_all

/-! ## The end of a line -/

/-- A line without the carriage return at its end, if there is one. -/
def chomp (line : List Char) : List Char :=
  if line.getLast? = some '\r' then line.dropLast else line

/-- A line as it is, or the line that remains with a carriage return behind it. -/
theorem chomp_cases (line : List Char) :
    (line.getLast? ≠ some '\r' ∧ chomp line = line) ∨ line = chomp line ++ ['\r'] := by
  unfold chomp
  split
  · next h => exact .inr (List.dropLast_append_getLast? _ h).symm
  · next h => exact .inl ⟨h, rfl⟩

theorem chomp_append_return (line : List Char) : chomp (line ++ ['\r']) = line := by
  simp [chomp]

theorem mem_of_mem_chomp {c : Char} (h : c ∈ chomp line) : c ∈ line := by
  unfold chomp at h
  split at h
  · exact List.mem_of_mem_dropLast h
  · exact h

theorem length_chomp_le (line : List Char) : (chomp line).length ≤ line.length := by
  rcases chomp_cases line with ⟨-, he⟩ | he
  · rw [he]
  · conv_rhs => rw [he]
    simp

theorem chomp_cons {c : Char} (h : ¬ (c = '\r' ∧ line = [])) :
    chomp (c :: line) = c :: chomp line := by
  cases line with
  | nil =>
    have hc : c ≠ '\r' := fun hc => h ⟨hc, rfl⟩
    simp [chomp, hc]
  | cons d line =>
    simp only [chomp, List.getLast?_cons_cons]
    split <;> rfl

theorem chomp_append (h : rest ≠ []) : chomp (line ++ rest) = line ++ chomp rest := by
  induction line with
  | nil => rfl
  | cons c line ih => rw [List.cons_append, chomp_cons (by simp [h]), ih, List.cons_append]

theorem chomp_of_notMem (h : '\r' ∉ line) : chomp line = line := by
  rw [chomp, if_neg fun hlast => h (List.mem_of_getLast? hlast)]

/-- Whether or not a carriage return stands before its line feed, a line has one end. -/
theorem unified_line (line : List Char) :
    unified (line ++ ['\n']) = unified (chomp line) ++ ['\n'] := by
  rcases chomp_cases line with ⟨hlast, he⟩ | he
  · rw [he, unified_append fun h => absurd h hlast]
    rfl
  · conv_lhs => rw [he]
    rw [List.append_assoc, unified_append (by simp)]
    rfl

/-! ## Lines -/

theorem lines_cons {c : Char} (h : c ≠ '\n') (hreturn : c = '\r' → rest.head? ≠ some '\n') :
    lines (c :: rest) =
      match lines rest with
      | [] => [[c]]
      | line :: more => (c :: line) :: more := by
  refine lines.eq_4 c rest h fun more hc he => ?_
  exact hreturn hc (by rw [he, List.head?_cons])

theorem lines_of_notMem (h : '\n' ∉ line) (hne : line ≠ []) : lines line = [line] := by
  induction line with
  | nil => exact absurd rfl hne
  | cons c line ih =>
    rw [List.mem_cons, not_or] at h
    rw [lines_cons (Ne.symm h.1) fun _ he => h.2 (List.mem_of_head? he)]
    cases line with
    | nil => rfl
    | cons d line => rw [ih h.2 (by simp)]

/-- A line ends at its line feed. The carriage return before that is not in it. -/
theorem lines_append_lineFeed (h : '\n' ∉ line) (rest : List Char) :
    lines (line ++ '\n' :: rest) = chomp line :: lines rest := by
  induction line with
  | nil => rfl
  | cons c line ih =>
    rw [List.mem_cons, not_or] at h
    by_cases hend : c = '\r' ∧ line = []
    · obtain ⟨rfl, rfl⟩ := hend
      rfl
    · have hhead : c = '\r' → (line ++ '\n' :: rest).head? ≠ some '\n' := by
        intro hc he
        cases line with
        | nil => exact hend ⟨hc, rfl⟩
        | cons d line => exact h.2 (by simpa using Or.inl (Option.some.inj he).symm)
      rw [List.cons_append, lines_cons (Ne.symm h.1) hhead, ih h.2, chomp_cons hend]

/-- Induction over the lines of a text. -/
theorem lines_induction {P : List Char → Prop} (nil : P [])
    (last : ∀ line, '\n' ∉ line → line ≠ [] → P line)
    (more : ∀ line rest, '\n' ∉ line → P rest → P (line ++ '\n' :: rest)) (cs : List Char) :
    P cs := by
  induction hn : cs.length using Nat.strong_induction_on generalizing cs with
  | _ n ih =>
    by_cases hfeed : '\n' ∈ cs
    · obtain ⟨line, rest, rfl, hline⟩ := List.eq_append_cons_of_mem hfeed
      refine more line rest hline (ih rest.length ?_ rest rfl)
      simp at hn
      omega
    · cases cs with
      | nil => exact nil
      | cons c cs => exact last _ hfeed (by simp)

/-! ## Stray carriage returns -/

theorem not_strayReturn_nil : ¬ StrayReturn [] := by
  rintro ⟨c, -, hinfix⟩
  exact absurd (List.infix_nil.1 hinfix) (by simp)

theorem strayReturn_cons {c : Char} : StrayReturn (c :: cs) ↔
    (c = '\r' ∧ ∃ d ∈ cs.head?, d ≠ '\n') ∨ StrayReturn cs := by
  have hfirst (d : Char) : ['\r', d] <+: c :: cs ↔ c = '\r' ∧ cs.head? = some d := by
    cases cs <;> simp [List.cons_prefix_cons, eq_comm]
  simp only [StrayReturn, List.infix_cons_iff, hfirst]
  constructor
  · rintro ⟨d, hd, ⟨hc, hhead⟩ | hinfix⟩
    · exact .inl ⟨hc, d, hhead, hd⟩
    · exact .inr ⟨d, hd, hinfix⟩
  · rintro (⟨hc, d, hhead, hd⟩ | ⟨d, hd, hinfix⟩)
    · exact ⟨d, hd, .inl ⟨hc, hhead⟩⟩
    · exact ⟨d, hd, .inr hinfix⟩

instance decidableStrayReturn : (cs : List Char) → Decidable (StrayReturn cs)
  | [] => isFalse not_strayReturn_nil
  | _ :: cs =>
    have := decidableStrayReturn cs
    have : Decidable (∃ d ∈ cs.head?, d ≠ '\n') := Option.decidableExistsMem _
    decidable_of_iff' _ strayReturn_cons

example : StrayReturn ['a', '\r', 'b'] ∧ ¬ StrayReturn ['\r', '\n', 'b', '\r'] := by decide

/-- A line feed parts what stands on its two sides. -/
theorem strayReturn_append_lineFeed (line rest : List Char) :
    StrayReturn (line ++ '\n' :: rest) ↔ StrayReturn line ∨ StrayReturn rest := by
  induction line with
  | nil => simp [strayReturn_cons, not_strayReturn_nil]
  | cons c line ih =>
    have hhead : (∃ d ∈ (line ++ '\n' :: rest).head?, d ≠ '\n') ↔
        ∃ d ∈ line.head?, d ≠ '\n' := by
      cases line <;> simp
    rw [List.cons_append, strayReturn_cons, strayReturn_cons, hhead, ih, or_assoc]

/-- A line has a stray carriage return if it has another one than at its end. -/
theorem strayReturn_iff (h : '\n' ∉ line) : StrayReturn line ↔ '\r' ∈ chomp line := by
  induction line with
  | nil => exact iff_of_false not_strayReturn_nil List.not_mem_nil
  | cons c line ih =>
    rw [List.mem_cons, not_or] at h
    rw [strayReturn_cons, ih h.2]
    by_cases hend : c = '\r' ∧ line = []
    · simp [hend, chomp]
    · rw [chomp_cons hend, List.mem_cons]
      refine or_congr_left ⟨fun hc => hc.1.symm, fun hc => ⟨hc.symm, ?_⟩⟩
      cases line with
      | nil => exact absurd ⟨hc.symm, rfl⟩ hend
      | cons d line => exact ⟨d, rfl, fun hd => h.2 (by simp [hd])⟩

/-- What a line without line feeds keeps without a stray carriage return is all on one line. -/
theorem oneLine_chomp (hfeed : '\n' ∉ line) (h : ¬ StrayReturn line) : OneLine (chomp line) :=
  ⟨fun hc => h ((strayReturn_iff hfeed).2 hc), fun hc => hfeed (mem_of_mem_chomp hc)⟩

theorem not_strayReturn_of_oneLine (h : OneLine line) : ¬ StrayReturn line := fun hs =>
  h.1 (mem_of_mem_chomp ((strayReturn_iff h.2).1 hs))

/-! ## The data of a text -/

theorem withoutLastFeed_append (line rest : List Char) :
    withoutLastFeed (line ++ '\n' :: rest) =
      if rest = [] then line else line ++ '\n' :: withoutLastFeed rest := by
  cases rest with
  | nil => simp [withoutLastFeed]
  | cons c rest =>
    have hlast : (line ++ '\n' :: c :: rest).getLast? = (c :: rest).getLast? := by
      rw [List.getLast?_append, List.getLast?_cons_cons, List.getLast?_cons]
      rfl
    rw [if_neg (by simp), withoutLastFeed, withoutLastFeed, hlast]
    split <;> simp [List.dropLast_append_of_ne_nil]

/-- A line loses the line end that stands for its last carriage return. -/
theorem withoutLastFeed_line (hfeed : '\n' ∉ line) :
    withoutLastFeed (unified line) = unified (chomp line) := by
  rcases chomp_cases line with ⟨hlast, he⟩ | he
  · rw [he, withoutLastFeed, if_neg]
    rcases List.eq_nil_or_concat' line with rfl | ⟨before, c, rfl⟩
    · simp [unified]
    · rw [List.getLast?_concat] at hlast
      have hreturn : c ≠ '\r' := fun hc => hlast (by rw [hc])
      have hc : c ≠ '\n' := fun hc => hfeed (by simp [hc])
      rw [unified_append fun _ => by simpa using hc, unified_cons hreturn]
      simpa [unified] using hc
  · conv_lhs => rw [he]
    rw [unified_append (by simp)]
    simp [unified, withoutLastFeed]

end EditorBridge.Text
