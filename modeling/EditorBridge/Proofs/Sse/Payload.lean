import EditorBridge.Proofs.Sse
import EditorBridge.Proofs.Text.Lines
/-!
# Frames of any text

The writer of an event divides its data where a line feed stands; a reader ends
a line at a carriage return too. An event is read as it was meant exactly if its
data has no carriage return but before a line feed or at its end: after any
other one a part of the data is read as a field of its own, and less data
arrives than was written. A comment is not divided at all, so it stays without
an event exactly if none of its further lines is a field of data.
-/

namespace EditorBridge.Sse

open Text (OneLine StrayReturn chomp unified withoutLastFeed)

variable {line text rest data : List Char}

/-- The data that a reader should get of a text. -/
def received (data : String) : String :=
  String.ofList (withoutLastFeed (unified data.toList))

/-- The lines of a text as a reader of a stream tells them. -/
def linesOf (text : List Char) : List (List Char) := endedLines [] (text ++ ['\n'])

/-- Whether a line is a field of data. -/
def IsData (line : List Char) : Prop := (field line).1 = "data".toList

/-! ## The lines of a reader -/

theorem endedLines_return (part : List Char) (h : rest.head? ≠ some '\n') :
    endedLines part ('\r' :: rest) = part :: endedLines [] rest := by
  rw [endedLines]
  rintro rest rfl
  exact h rfl

theorem endedLines_char {c : Char} (hreturn : c ≠ '\r') (hfeed : c ≠ '\n') (part : List Char) :
    endedLines part (c :: rest) = endedLines (part ++ [c]) rest := by
  rw [endedLines] <;> simp [hreturn, hfeed]

/-- What has been read of a line stands at its beginning. -/
theorem endedLines_part (part text : List Char) :
    endedLines part text = (endedLines [] text).modifyHead (part ++ ·) := by
  induction text generalizing part with
  | nil => rfl
  | cons c text ih =>
    by_cases hreturn : c = '\r'
    · subst hreturn
      by_cases hhead : text.head? = some '\n'
      · obtain ⟨rest, rfl⟩ := List.head?_eq_some_iff.1 hhead
        simp [endedLines]
      · simp [endedLines_return _ hhead]
    · by_cases hfeed : c = '\n'
      · simp [hfeed, endedLines]
      · rw [endedLines_char hreturn hfeed, endedLines_char hreturn hfeed, ih, ih ([] ++ [c])]
        simp [List.modifyHead_modifyHead, Function.comp_def]

theorem endedLines_append_lineFeed (part text rest : List Char) :
    endedLines part (text ++ '\n' :: rest) =
      endedLines part (text ++ ['\n']) ++ endedLines [] rest := by
  induction part, text using endedLines.induct with
  | case1 part => rfl
  | case2 part text ih => simp [endedLines, ih]
  | case3 part text hne ih =>
    cases text with
    | nil => rfl
    | cons c text =>
      have hc : c ≠ '\n' := fun hc => hne text (by rw [hc])
      have hhead (rest : List Char) : (c :: (text ++ rest)).head? ≠ some '\n' := by simpa using hc
      rw [List.cons_append, List.cons_append, List.cons_append, List.cons_append,
        endedLines_return _ (hhead _), endedLines_return _ (hhead _)]
      exact congrArg (part :: ·) ih
  | case4 part text ih => simp [endedLines, ih]
  | case5 part c text _ hreturn hfeed ih =>
    rw [List.cons_append, List.cons_append, endedLines_char hreturn hfeed,
      endedLines_char hreturn hfeed, ih]

/-- A reader tells the lines of a text as they are with one line end for all. -/
theorem flatMap_endedLines (part text : List Char) :
    (endedLines part (text ++ ['\n'])).flatMap (· ++ ['\n']) =
      part ++ unified (text ++ ['\n']) := by
  induction part, text using endedLines.induct with
  | case1 part => simp [endedLines, unified]
  | case2 part text ih => simp [endedLines, unified, ih]
  | case3 part text hne ih =>
    cases text with
    | nil => simp [endedLines, unified]
    | cons c text =>
      have hc : c ≠ '\n' := fun hc => hne text (by rw [hc])
      have hhead : (c :: (text ++ ['\n'])).head? ≠ some '\n' := by simpa using hc
      rw [List.nil_append, List.cons_append] at ih
      rw [List.cons_append, List.cons_append, endedLines_return _ hhead,
        Text.unified_return hhead, List.flatMap_cons, ih]
      simp
  | case4 part text ih => simp [endedLines, unified, ih]
  | case5 part c text _ hreturn hfeed ih =>
    rw [List.cons_append, endedLines_char hreturn hfeed, ih, Text.unified_cons hreturn]
    simp

/-- A word without a line end goes on with the line that is being read. -/
theorem endedLines_word {word : List Char} (h : OneLine word) (part rest : List Char) :
    endedLines part (word ++ rest) = endedLines (part ++ word) rest := by
  induction word generalizing part with
  | nil => simp
  | cons c word ih =>
    obtain ⟨hreturn, hfeed⟩ := h
    rw [List.mem_cons, not_or] at hreturn hfeed
    rw [List.cons_append, endedLines_char (Ne.symm hreturn.1) (Ne.symm hfeed.1),
      ih ⟨hreturn.2, hfeed.2⟩]
    simp

/-- A line without stray carriage returns is one line for a reader too. -/
theorem endedLines_line (hfeed : '\n' ∉ line) (h : ¬ StrayReturn line) (part rest : List Char) :
    endedLines part (line ++ '\n' :: rest) = (part ++ chomp line) :: endedLines [] rest := by
  have hone := Text.oneLine_chomp hfeed h
  rcases Text.chomp_cases line with ⟨-, he⟩ | he
  · rw [he] at hone ⊢
    rw [endedLines_word hone]
    rfl
  · conv_lhs => rw [he]
    rw [List.append_assoc, endedLines_word hone]
    rfl

/-! ## What a line brings -/

/-- What a line adds to the data of an event. -/
def dataOf (line : List Char) : List Char := (Draft.empty.add line).data

theorem Draft.data_add (d : Draft) (line : List Char) :
    (d.add line).data = d.data ++ dataOf line := by
  simp only [dataOf, Draft.add, Draft.empty]
  split_ifs <;> simp

theorem dataOf_eq_nil_iff : dataOf line = [] ↔ ¬ IsData line := by
  simp only [dataOf, Draft.add, Draft.empty, IsData]
  split_ifs with h h' <;> simp_all

theorem length_field_le (line : List Char) :
    (field line).1.length + (field line).2.length ≤ line.length := by
  have hparts := congrArg List.length (List.takeWhile_append_dropWhile (p := (· ≠ ':')) (l := line))
  rw [List.length_append] at hparts
  unfold field
  split
  · simp
  · next h =>
    rw [h] at hparts
    simp only [List.length_cons] at hparts ⊢
    omega
  · next h =>
    rw [h] at hparts
    simp only [List.length_cons] at hparts ⊢
    omega

theorem length_dataOf_le (line : List Char) : (dataOf line).length ≤ line.length := by
  have hle := length_field_le line
  simp only [dataOf, Draft.add, Draft.empty]
  split_ifs with h h'
  · simp
  · rw [h'] at hle
    simp at hle ⊢
    omega
  · simp

theorem dataOf_dataLine (value : List Char) :
    dataOf ("data: ".toList ++ value) = value ++ ['\n'] := by
  rw [dataOf, Draft.add_data]
  rfl

theorem dataOf_typeLine (value : List Char) : dataOf ("event: ".toList ++ value) = [] := by
  rw [dataOf, Draft.add_type]
  rfl

/-- All that the lines of a text bring. -/
def dataIn (text : List Char) : List Char := (endedLines [] text).flatMap dataOf

/-- With the line end of each, lines are longer than what they bring. -/
theorem length_flatMap_dataOf_le (lines : List (List Char)) :
    (lines.flatMap dataOf).length + lines.length ≤ (lines.flatMap (· ++ ['\n'])).length := by
  induction lines with
  | nil => rfl
  | cons line lines ih =>
    have hle := length_dataOf_le line
    simp only [List.flatMap_cons, List.length_append, List.length_cons, List.length_nil] at ih ⊢
    omega

/-- The length that data has in events, each with one line feed more. -/
def arrived (events : List Event) : Nat :=
  (events.flatMap fun e => e.data.toList ++ ['\n']).length

theorem arrived_append (events more : List Event) :
    arrived (events ++ more) = arrived events + arrived more := by
  rw [arrived, List.flatMap_append, List.length_append]
  rfl

/-- No more arrives than the lines bring. -/
theorem arrived_le (d : Draft) (lines : List (List Char)) :
    arrived (eventsFrom d lines) ≤ (d.data ++ lines.flatMap dataOf).length := by
  induction lines generalizing d with
  | nil => simp [eventsFrom, arrived]
  | cons line lines ih =>
    cases line with
    | nil =>
      have hrest := ih .empty
      have hevent : arrived d.event?.toList ≤ d.data.length := by
        unfold Draft.event?
        split
        · simp [arrived]
        · next h =>
          have hpos := List.length_pos_iff.2 h
          simp [arrived]
          omega
      have hempty : Draft.empty.data.length = 0 := rfl
      rw [List.length_append] at hrest
      rw [eventsFrom, arrived_append, List.flatMap_cons, List.length_append, List.length_append]
      omega
    | cons c line =>
      have hrest := ih (d.add (c :: line))
      rw [Draft.data_add] at hrest
      rw [eventsFrom_line d (by simp)]
      simpa using hrest

/-! ## Lines of data -/

/-- A line of data in front of other text. -/
theorem dataLine_append (line rest : List Char) :
    dataLine line ++ rest = "data: ".toList ++ (line ++ '\n' :: rest) := by
  show ("data: ".toList ++ line ++ ['\n']) ++ rest = _
  rw [List.append_assoc, List.append_assoc]
  rfl

theorem dataLine_append_nil (line : List Char) :
    dataLine line = "data: ".toList ++ (line ++ ['\n']) := by
  rw [← dataLine_append, List.append_nil]

theorem dataIn_dataLine_append (line rest : List Char) :
    dataIn (dataLine line ++ rest) = dataIn (dataLine line) ++ dataIn rest := by
  rw [dataIn, dataLine_append, ← List.append_assoc, endedLines_append_lineFeed,
    List.flatMap_append, List.append_assoc, ← dataLine_append_nil]
  rfl

theorem oneLine_data : OneLine "data: ".toList := by
  constructor <;> decide

/-- A line of data without stray carriage returns brings its text. -/
theorem dataIn_dataLine (hfeed : '\n' ∉ line) (h : ¬ StrayReturn line) :
    dataIn (dataLine line) = chomp line ++ ['\n'] := by
  rw [dataIn, dataLine_append_nil, endedLines_word oneLine_data, endedLines_line hfeed h,
    List.nil_append, List.flatMap_cons, dataOf_dataLine]
  exact List.append_nil _

/-- A line of data with a stray carriage return brings less. -/
theorem length_dataIn_dataLine_le (hfeed : '\n' ∉ line) (h : StrayReturn line) :
    (dataIn (dataLine line)).length ≤ (chomp line).length := by
  have hreturn := (Text.strayReturn_iff hfeed).1 h
  obtain ⟨first, rest, rfl, hfirst⟩ := List.eq_append_cons_of_mem (Text.mem_of_mem_chomp hreturn)
  rw [List.mem_append, List.mem_cons, not_or, not_or] at hfeed
  obtain ⟨hfeed, -, hrest⟩ := hfeed
  have hne : rest ≠ [] := by
    rintro rfl
    rw [Text.chomp_append_return] at hreturn
    exact hfirst hreturn
  have hhead : (rest ++ ['\n']).head? ≠ some '\n' := by
    cases rest with
    | nil => exact absurd rfl hne
    | cons c rest => exact fun hc => hrest (by simpa using Or.inl (Option.some.inj hc).symm)
  have hsplit : dataIn (dataLine (first ++ '\r' :: rest)) =
      first ++ '\n' :: dataIn (rest ++ ['\n']) := by
    rw [dataIn, dataLine_append_nil, endedLines_word oneLine_data, List.append_assoc,
      endedLines_word ⟨hfirst, hfeed⟩, List.cons_append, endedLines_return _ hhead,
      List.nil_append, List.flatMap_cons, dataOf_dataLine]
    simp [dataIn]
  have hbrought := length_flatMap_dataOf_le (linesOf rest)
  rw [linesOf, flatMap_endedLines, List.nil_append, Text.unified_line] at hbrought
  have hlength : (unified (chomp rest)).length = (chomp rest).length :=
    Text.length_unified fun hc => hrest (Text.mem_of_mem_chomp hc)
  have hlines : (endedLines [] (rest ++ ['\n'])).length ≠ 0 := by
    intro hnone
    have hall := flatMap_endedLines [] rest
    rw [List.length_eq_zero_iff.1 hnone] at hall
    exact Text.unified_ne_nil (by simp) hall.symm
  have hchomp : chomp (first ++ '\r' :: rest) = first ++ '\r' :: chomp rest := by
    rw [Text.chomp_append (by simp), Text.chomp_cons (by simp [hne])]
  rw [hsplit, hchomp]
  simp only [dataIn, List.length_append, List.length_cons, List.length_nil] at hbrought ⊢
  omega

/-! ## Texts as data -/

/-- What the lines of a text should bring: there is none in an empty text. -/
def due (data : List Char) : List Char :=
  if data = [] then [] else withoutLastFeed (unified data) ++ ['\n']

theorem due_line (hfeed : '\n' ∉ line) (hne : line ≠ []) :
    due line = unified (chomp line) ++ ['\n'] := by
  rw [due, if_neg hne, Text.withoutLastFeed_line hfeed]

theorem due_append (line rest : List Char) :
    due (line ++ '\n' :: rest) = unified (chomp line) ++ '\n' :: due rest := by
  have hunified : unified (line ++ '\n' :: rest) =
      unified (chomp line) ++ '\n' :: unified rest := by
    rw [Text.unified_append_lineFeed, Text.unified_line, List.append_assoc]
    rfl
  rw [due, if_neg (by simp), hunified, Text.withoutLastFeed_append]
  by_cases hrest : rest = []
  · simp [hrest, due, unified]
  · simp [hrest, due, Text.unified_ne_nil hrest]

/-- A line of data without stray carriage returns is read as it was meant. -/
theorem eventsFrom_dataLine (d : Draft) (hfeed : '\n' ∉ line) (h : ¬ StrayReturn line)
    (rest : List Char) :
    eventsFrom d (endedLines [] (dataLine line ++ rest)) =
      eventsFrom { d with data := d.data ++ chomp line ++ ['\n'] } (endedLines [] rest) := by
  rw [dataLine_append, endedLines_word oneLine_data, endedLines_line hfeed h, List.nil_append,
    eventsFrom_line d (by simp), Draft.add_data]

/-- Without stray carriage returns the lines of a text are read as they were meant. -/
theorem eventsFrom_lines (h : ¬ StrayReturn data) (d : Draft) (rest : List Char) :
    eventsFrom d (endedLines [] ((Text.lines data).flatMap dataLine ++ rest)) =
      eventsFrom { d with data := d.data ++ due data } (endedLines [] rest) := by
  induction data using Text.lines_induction generalizing d with
  | nil => simp [Text.lines, due]
  | last line hfeed hne =>
    have hone := Text.oneLine_chomp hfeed h
    rw [Text.lines_of_notMem hfeed hne, List.flatMap_singleton, eventsFrom_dataLine d hfeed h,
      due_line hfeed hne, Text.unified_of_oneLine hone, List.append_assoc]
  | more line data hfeed ih =>
    rw [Text.strayReturn_append_lineFeed, not_or] at h
    have hone := Text.oneLine_chomp hfeed h.1
    rw [Text.lines_append_lineFeed hfeed, List.flatMap_cons, List.append_assoc,
      eventsFrom_dataLine d hone.2 (Text.not_strayReturn_of_oneLine hone), ih h.2, due_append,
      Text.unified_of_oneLine hone, Text.chomp_of_notMem hone.1]
    simp

/-- What is written of an ended line brings no more than the line has, and less if a carriage
return in it is stray. -/
theorem length_dataIn_chomp (hfeed : '\n' ∉ line) :
    (dataIn (dataLine (chomp line))).length ≤ (chomp line).length + 1 ∧
      (StrayReturn line → (dataIn (dataLine (chomp line))).length ≤ (chomp line).length) := by
  have hfeed' : '\n' ∉ chomp line := fun hc => hfeed (Text.mem_of_mem_chomp hc)
  by_cases hs : StrayReturn (chomp line)
  · have hle := length_dataIn_dataLine_le hfeed' hs
    have hchomp := Text.length_chomp_le (chomp line)
    omega
  · rw [dataIn_dataLine hfeed' hs, List.length_append, List.length_singleton]
    rcases Text.chomp_cases (chomp line) with ⟨-, he⟩ | he
    · rw [he]
      refine ⟨Nat.le_refl _, fun hline => absurd ?_ hs⟩
      rw [Text.strayReturn_iff hfeed', he]
      exact (Text.strayReturn_iff hfeed).1 hline
    · have hlength := congrArg List.length he
      rw [List.length_append, List.length_singleton] at hlength
      omega

/-- The lines of a text bring no more than they should, and less if a carriage return is stray. -/
theorem length_dataIn_lines (data : List Char) :
    (dataIn ((Text.lines data).flatMap dataLine)).length ≤ (due data).length ∧
      (StrayReturn data →
        (dataIn ((Text.lines data).flatMap dataLine)).length < (due data).length) := by
  have hunified {line : List Char} (hfeed : '\n' ∉ line) :
      (unified (chomp line)).length = (chomp line).length :=
    Text.length_unified fun hc => hfeed (Text.mem_of_mem_chomp hc)
  induction data using Text.lines_induction with
  | nil =>
    exact ⟨by simp [Text.lines, dataIn, endedLines], fun h => absurd h Text.not_strayReturn_nil⟩
  | last line hfeed hne =>
    rw [Text.lines_of_notMem hfeed hne, List.flatMap_singleton, due_line hfeed hne,
      List.length_append, List.length_singleton, hunified hfeed]
    by_cases hs : StrayReturn line
    · have hle := length_dataIn_dataLine_le hfeed hs
      omega
    · rw [dataIn_dataLine hfeed hs]
      exact ⟨by simp, fun h => absurd h hs⟩
  | more line data hfeed ih =>
    have hline := length_dataIn_chomp hfeed
    rw [Text.lines_append_lineFeed hfeed, List.flatMap_cons, dataIn_dataLine_append, due_append,
      Text.strayReturn_append_lineFeed, List.length_append, List.length_append, List.length_cons,
      hunified hfeed]
    constructor
    · omega
    · rintro (hs | hs)
      · have := hline.2 hs
        omega
      · have := ih.2 hs
        omega

/-! ## Frames -/

theorem received_append (data : List Char) :
    withoutLastFeed (unified data) ++ ['\n'] = if data = [] then ['\n'] else due data := by
  split
  · next h => simp [h, unified, withoutLastFeed]
  · next h => rw [due, if_neg h]

theorem eventsFrom_dataLines (h : ¬ StrayReturn data) (d : Draft) (rest : List Char) :
    eventsFrom d (endedLines [] (dataLines data ++ rest)) =
      eventsFrom { d with data := d.data ++ (withoutLastFeed (unified data) ++ ['\n']) }
        (endedLines [] rest) := by
  rw [received_append, dataLines]
  split
  · have hline := eventsFrom_dataLine d List.not_mem_nil Text.not_strayReturn_nil rest
    simpa [chomp] using hline
  · exact eventsFrom_lines h d rest

theorem eventChars_append (name data rest : List Char) :
    eventChars name data ++ rest =
      "event: ".toList ++ (name ++ '\n' :: (dataLines data ++ '\n' :: rest)) := by
  unfold eventChars
  generalize "event: ".toList = word
  simp

theorem oneLine_event : OneLine "event: ".toList := by
  constructor <;> decide

theorem endedLines_event {name : List Char} (hname : OneLine name) (data rest : List Char) :
    endedLines [] (eventChars name data ++ rest) =
      ("event: ".toList ++ name) :: endedLines [] (dataLines data ++ '\n' :: rest) := by
  rw [eventChars_append, endedLines_word oneLine_event, endedLines_word hname, List.nil_append]
  rfl

/-- An event without stray carriage returns is read as it was meant, whatever follows it. -/
theorem eventsOf_event_of_not_stray {name : List Char} (hname : OneLine name) (hne : name ≠ [])
    (h : ¬ StrayReturn data) (rest : List Char) :
    eventsOf (eventChars name data ++ rest) =
      ⟨String.ofList name, String.ofList (withoutLastFeed (unified data))⟩ :: eventsOf rest := by
  rw [eventsOf, endedLines_event hname, eventsFrom_line _ (by simp), Draft.add_type,
    eventsFrom_dataLines h, endedLines_empty, eventsFrom]
  simp [Draft.event?, Draft.empty, hne, eventsOf]

theorem dataIn_lines_append (lines : List (List Char)) (rest : List Char) :
    dataIn (lines.flatMap dataLine ++ rest) = dataIn (lines.flatMap dataLine) ++ dataIn rest := by
  induction lines with
  | nil => rfl
  | cons line lines ih =>
    rw [List.flatMap_cons, List.append_assoc, dataIn_dataLine_append, ih, dataIn_dataLine_append,
      List.append_assoc]

/-- If a carriage return is stray, less data arrives than was meant. -/
theorem arrived_event_lt {name : List Char} (hname : OneLine name) (h : StrayReturn data) :
    arrived (eventsOf (eventChars name data)) < (withoutLastFeed (unified data)).length + 1 := by
  have hne : data ≠ [] := by
    rintro rfl
    exact Text.not_strayReturn_nil h
  have hlines : endedLines [] (eventChars name data) =
      ("event: ".toList ++ name) :: endedLines [] (dataLines data ++ ['\n']) := by
    have hall := endedLines_event hname data []
    rwa [List.append_nil] at hall
  have hend : dataIn ['\n'] = [] := rfl
  have hdata : (endedLines [] (eventChars name data)).flatMap dataOf =
      dataIn ((Text.lines data).flatMap dataLine) := by
    rw [hlines, List.flatMap_cons, dataOf_typeLine, List.nil_append, dataLines, if_neg hne]
    exact (dataIn_lines_append _ ['\n']).trans (by rw [hend, List.append_nil])
  calc arrived (eventsOf (eventChars name data))
      ≤ (dataIn ((Text.lines data).flatMap dataLine)).length := by
        rw [← hdata]
        exact arrived_le .empty _
    _ < (due data).length := (length_dataIn_lines data).2 h
    _ = (withoutLastFeed (unified data)).length + 1 := by simp [due, hne]

/-- Every event that is read has a type. -/
theorem type_ne_empty {d : Draft} {lines : List (List Char)} {e : Event}
    (h : e ∈ eventsFrom d lines) : e.type ≠ "" := by
  induction lines generalizing d with
  | nil => cases h
  | cons line lines ih =>
    cases line with
    | nil =>
      rw [eventsFrom, List.mem_append, Option.mem_toList] at h
      rcases h with h | h
      · unfold Draft.event? at h
        split at h
        · cases h
        · cases h
          show (if d.type = [] then messageEvent else String.ofList d.type) ≠ ""
          split
          · decide
          · next hne => simpa using hne
      · exact ih h
    | cons c line =>
      rw [eventsFrom_line d (by simp)] at h
      exact ih h

/-- An event is read as it was meant exactly if its type has a name and no carriage return in its
data is stray. -/
theorem events_event_iff (name data : String) (hname : OneLine name.toList) :
    events (event name data) = [⟨name, received data⟩] ↔
      name ≠ "" ∧ ¬ StrayReturn data.toList := by
  have hread : events (event name data) = eventsOf (eventChars name.toList data.toList) := by
    simp [events, event, eventsOf]
  rw [hread]
  constructor
  · intro h
    refine ⟨?_, fun hs => ?_⟩
    · exact type_ne_empty (e := ⟨name, received data⟩) (by rw [← eventsOf, h]; simp)
    · have hlt := arrived_event_lt hname hs
      rw [h] at hlt
      simp [arrived, received] at hlt
  · rintro ⟨hne, hs⟩
    have hne : name.toList ≠ [] := by simpa using hne
    have hevent := eventsOf_event_of_not_stray hname hne hs []
    rw [List.append_nil] at hevent
    rw [hevent]
    simp [received, eventsOf, endedLines, eventsFrom]

theorem event?_eq_none_iff (d : Draft) : d.event? = none ↔ d.data = [] := by
  simp [Draft.event?]

/-- Lines with an empty one at their end give no event exactly if there is no data. -/
theorem eventsFrom_eq_nil_iff (d : Draft) (lines : List (List Char)) :
    eventsFrom d (lines ++ [[]]) = [] ↔ d.data = [] ∧ ∀ line ∈ lines, ¬ IsData line := by
  induction lines generalizing d with
  | nil => simp [eventsFrom, event?_eq_none_iff]
  | cons line lines ih =>
    rw [List.cons_append, List.forall_mem_cons]
    cases line with
    | nil =>
      have hempty : ¬ IsData [] := dataOf_eq_nil_iff.1 rfl
      rw [eventsFrom, List.append_eq_nil_iff, Option.toList_eq_nil_iff, event?_eq_none_iff, ih]
      simp [hempty, Draft.empty]
    | cons c line =>
      rw [eventsFrom_line d (by simp), ih, Draft.data_add, List.append_eq_nil_iff,
        dataOf_eq_nil_iff, and_assoc]

theorem not_isData_comment (text : List Char) : ¬ IsData (':' :: ' ' :: text) := by
  rw [← dataOf_eq_nil_iff, dataOf, Draft.add_comment]
  rfl

/-- A comment gives no event exactly if none of its further lines is a field of data. -/
theorem events_comment_iff (text : String) :
    events (comment text) = [] ↔ ∀ line ∈ (linesOf text.toList).tail, ¬ IsData line := by
  have hlines : endedLines [] (commentChars text.toList) =
      (linesOf text.toList).modifyHead ([':', ' '] ++ ·) ++ [[]] := by
    have hone : OneLine [':', ' '] := by constructor <;> decide
    have hframe : commentChars text.toList = ([':', ' '] ++ text.toList) ++ '\n' :: ['\n'] := rfl
    rw [hframe, endedLines_append_lineFeed, List.append_assoc, endedLines_word hone,
      endedLines_part, linesOf]
    rfl
  rw [events, comment, String.toList_ofList, hlines, eventsFrom_eq_nil_iff]
  cases linesOf text.toList with
  | nil => simp [Draft.empty]
  | cons line lines => simp [Draft.empty, not_isData_comment]

/-! ## Payload -/

/-- When the text of a frame reaches its reader as it was meant: of an event, as one event of its
type with its data; of a comment, as no event. -/
theorem payload_read_iff (name data text : String) :
    (OneLine name.toList →
      (events (event name data) = [⟨name, received data⟩] ↔
        name ≠ "" ∧ ¬ StrayReturn data.toList)) ∧
    (events (comment text) = [] ↔ ∀ line ∈ (linesOf text.toList).tail, ¬ IsData line) :=
  ⟨events_event_iff name data, events_comment_iff text⟩

/-- Line ends of three kinds and a field inside the data, and a field inside a comment. -/
theorem payload_read_iff_endings :
    OneLine "note".toList ∧
      events (event "note" "a\r\n\nevent: b\r") = [⟨"note", "a\n\nevent: b"⟩] ∧
      events (comment "a\revent: b") = [] := by
  have hstray : ¬ StrayReturn "a\r\n\nevent: b\r".toList := by
    simp [Text.strayReturn_cons, Text.not_strayReturn_nil]
  have hreceived : received "a\r\n\nevent: b\r" = "a\n\nevent: b" := by
    simp [received, unified, withoutLastFeed]
  have hlines : ∀ line ∈ (linesOf "a\revent: b".toList).tail, ¬ IsData line := by
    simp [linesOf, endedLines, IsData, field]
  have hname : OneLine "note".toList := by decide
  obtain ⟨hevent, hcomment⟩ := payload_read_iff "note" "a\r\n\nevent: b\r" "a\revent: b"
  have hread := (hevent hname).2 ⟨by decide, hstray⟩
  exact ⟨hname, hreceived ▸ hread, hcomment.2 hlines⟩

/-- A stray carriage return lets data name another type or begin another event, and a line feed lets
a comment be one. -/
theorem payload_forged :
    events (event "note" "a\revent: alarm") = [⟨"alarm", "a"⟩] ∧
    events (event "note" "a\r\rdata: b") = [⟨"note", "a"⟩, ⟨"message", "b"⟩] ∧
    received "a\revent: alarm" = "a\nevent: alarm" ∧
    events (comment "a\ndata: b") = [⟨"message", "b"⟩] := by
  refine ⟨?_, ?_, ?_, ?_⟩ <;> decide +kernel

end EditorBridge.Sse
