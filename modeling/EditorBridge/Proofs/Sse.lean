import EditorBridge.Proofs.Json.Printer
import EditorBridge.Proofs.Text.Utf8
import EditorBridge.Sse.Event
/-!
# Frames read back

Every frame ends with an empty line, so a reader starts afresh after it. A
comment on one line says nothing, and an event whose type and data are one line
each is read as it was written.
-/

namespace EditorBridge.Sse

/-! ## Lines -/

/-- A line feed ends the line that has been read. -/
theorem endedLines_append {line : List Char} (h : ControlFree line) (part rest : List Char) :
    endedLines part (line ++ '\n' :: rest) = (part ++ line) :: endedLines [] rest := by
  induction line generalizing part with
  | nil => simp [endedLines]
  | cons c line ih =>
    have hfeed : c ≠ '\n' := h.ne_lineFeed List.mem_cons_self
    have hreturn : c ≠ '\r' := h.ne_carriageReturn List.mem_cons_self
    rw [List.cons_append, endedLines, ih (ControlFree.cons_iff.1 h).2]
    · simp
    all_goals simp_all

/-- Text without line ends is one line. -/
theorem lines_of_controlFree {c : Char} {cs : List Char} (h : ControlFree (c :: cs)) :
    Text.lines (c :: cs) = [c :: cs] := by
  induction cs generalizing c with
  | nil =>
    have hfeed : c ≠ '\n' := h.ne_lineFeed List.mem_cons_self
    simp [Text.lines]
  | cons d cs ih =>
    have hfeed : c ≠ '\n' := h.ne_lineFeed List.mem_cons_self
    have hreturn : c ≠ '\r' := h.ne_carriageReturn List.mem_cons_self
    simp [Text.lines, hreturn, ih (ControlFree.cons_iff.1 h).2]

theorem dataLines_of_controlFree {data : List Char} (h : ControlFree data) :
    dataLines data = dataLine data := by
  cases data with
  | nil => rfl
  | cons c cs => simp [dataLines, lines_of_controlFree h]

/-! ## Fields -/

theorem field_append {name : List Char} (h : ':' ∉ name) (value : List Char) :
    field (name ++ ':' :: ' ' :: value) = (name, value) := by
  have hname : ∀ c ∈ name, c ≠ ':' := fun c hc he => h (he ▸ hc)
  have hdrop : (name ++ ':' :: ' ' :: value).dropWhile (· ≠ ':') = ':' :: ' ' :: value := by
    rw [List.dropWhile_append_of_pos (by simpa using hname)]
    simp
  have htake : (name ++ ':' :: ' ' :: value).takeWhile (· ≠ ':') = name := by
    rw [List.takeWhile_append_of_pos (by simpa using hname)]
    simp
  simp only [field, hdrop, htake]

namespace Draft

/-- A line that starts with a colon says nothing. -/
theorem add_comment (d : Draft) (text : List Char) : d.add (':' :: ' ' :: text) = d := by
  have hf : field (':' :: ' ' :: text) = ([], text) := field_append List.not_mem_nil text
  rw [add, hf]
  rfl

theorem add_type (d : Draft) (value : List Char) :
    d.add ("event: ".toList ++ value) = { d with type := value } := by
  show d.add ("event".toList ++ ':' :: ' ' :: value) = _
  rw [add, field_append (by decide)]
  rfl

theorem add_data (d : Draft) (value : List Char) :
    d.add ("data: ".toList ++ value) = { d with data := d.data ++ value ++ ['\n'] } := by
  show d.add ("data".toList ++ ':' :: ' ' :: value) = _
  rw [add, field_append (by decide)]
  rfl

end Draft

/-! ## Frames -/

theorem eventsFrom_line (d : Draft) {line : List Char} (h : line ≠ []) (rest : List (List Char)) :
    eventsFrom d (line :: rest) = eventsFrom (d.add line) rest := by
  cases line with
  | nil => exact absurd rfl h
  | cons c line => rfl

theorem endedLines_empty (rest : List Char) :
    endedLines [] ('\n' :: rest) = [] :: endedLines [] rest := endedLines_append .nil [] rest

/-- Two lines and an empty one. -/
theorem endedLines_two {first second : List Char} (h : ControlFree first)
    (h' : ControlFree second) (rest : List Char) :
    endedLines [] (first ++ '\n' :: (second ++ '\n' :: '\n' :: rest)) =
      first :: second :: [] :: endedLines [] rest := by
  rw [endedLines_append h, endedLines_append h', endedLines_empty]
  rfl

/-- The events of a stream, character by character. -/
def eventsOf (stream : List Char) : List Event := eventsFrom .empty (endedLines [] stream)

/-- A comment on one line says nothing. -/
theorem eventsOf_comment {text : List Char} (h : ControlFree text) (rest : List Char) :
    eventsOf (commentChars text ++ rest) = eventsOf rest := by
  have hline : ControlFree (':' :: ' ' :: text) := by simp [h]
  have hframe : commentChars text ++ rest = (':' :: ' ' :: text) ++ '\n' :: '\n' :: rest := by
    simp [commentChars]
  rw [eventsOf, hframe, endedLines_append hline, endedLines_empty, List.nil_append,
    eventsFrom_line _ (by simp), Draft.add_comment]
  rfl

/-- The frame of an event with one line of data. -/
theorem eventChars_eq {data : List Char} (h : ControlFree data) (name rest : List Char) :
    eventChars name data ++ rest = ("event: ".toList ++ name) ++
      '\n' :: (("data: ".toList ++ data) ++ '\n' :: '\n' :: rest) := by
  have hdata : dataLines data = "data: ".toList ++ data ++ ['\n'] := dataLines_of_controlFree h
  show ("event: ".toList ++ name ++ '\n' :: dataLines data ++ ['\n']) ++ rest = _
  generalize "event: ".toList = event
  generalize "data: ".toList = field at hdata ⊢
  simp [hdata]

/-- An event whose type and data are one line each is read as it was written. -/
theorem eventsOf_event {name data : List Char} (hn : ControlFree name) (hne : name ≠ [])
    (hd : ControlFree data) (rest : List Char) :
    eventsOf (eventChars name data ++ rest) =
      ⟨String.ofList name, String.ofList data⟩ :: eventsOf rest := by
  have htype : ControlFree ("event: ".toList ++ name) := by simp [hn]
  have hdata : ControlFree ("data: ".toList ++ data) := by simp [hd]
  have hlines : eventsOf (eventChars name data ++ rest) = eventsFrom .empty
      (("event: ".toList ++ name) :: ("data: ".toList ++ data) :: [] :: endedLines [] rest) := by
    rw [eventChars_eq hd]
    exact congrArg (eventsFrom .empty) (endedLines_two htype hdata rest)
  rw [hlines, eventsFrom_line _ (by simp), Draft.add_type, eventsFrom_line _ (by simp),
    Draft.add_data]
  simp [eventsFrom, Draft.event?, Draft.empty, hne, eventsOf]

end EditorBridge.Sse
