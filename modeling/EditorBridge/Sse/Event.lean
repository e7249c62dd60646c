import EditorBridge.Sse.Frame
/-!
# Events of an event stream

What a reader makes of a stream. A line ends at a line feed, at a carriage
return, or at both together. A line that starts with a colon says nothing; every
other one names a field and, after a colon and at most one blank, its value. An
empty line ends an event, which counts only if it has data. What is left without
an empty line at the end of the stream is no event.
-/

namespace EditorBridge.Sse

/-- An event as a reader gets it. -/
structure Event where
  type : String
  data : String
  deriving DecidableEq, Repr

/-- The ended lines of a stream of which a part of a line has been read. -/
def endedLines (part : List Char) : List Char → List (List Char)
  | [] => []
  | '\r' :: '\n' :: rest => part :: endedLines [] rest
  | '\r' :: rest => part :: endedLines [] rest
  | '\n' :: rest => part :: endedLines [] rest
  | c :: rest => endedLines (part ++ [c]) rest

/-- The name of a line's field and its value. -/
def field (line : List Char) : List Char × List Char :=
  match line.dropWhile (· ≠ ':') with
  | [] => (line, [])
  | _ :: ' ' :: value | _ :: value => (line.takeWhile (· ≠ ':'), value)

/-- An event that is being read: its type, and its data with a line feed after every line. -/
structure Draft where
  type : List Char
  data : List Char
  deriving DecidableEq, Repr

namespace Draft

/-- Nothing of an event. -/
def empty : Draft := ⟨[], []⟩

/-- The event at an empty line, if there is data. An event without a type has the usual one. -/
def event? (d : Draft) : Option Event :=
  if d.data = [] then none
  else
    some ⟨if d.type = [] then messageEvent else String.ofList d.type,
      String.ofList d.data.dropLast⟩

/-- A draft after a line that is not empty. Fields other than the type and the data are skipped. -/
def add (d : Draft) (line : List Char) : Draft :=
  match field line with
  | (name, value) =>
    if name = "event".toList then { d with type := value }
    else if name = "data".toList then { d with data := d.data ++ value ++ ['\n'] }
    else d

end Draft

/-- The events in the lines that follow a draft. -/
def eventsFrom (d : Draft) : List (List Char) → List Event
  | [] => []
  | [] :: rest => d.event?.toList ++ eventsFrom .empty rest
  | line :: rest => eventsFrom (d.add line) rest

/-- The events of a stream. -/
def events (stream : String) : List Event := eventsFrom .empty (endedLines [] stream.toList)

example : events (comment "connected" ++ event "message" "a\nb" ++ event "x" "") =
    [⟨"message", "a\nb"⟩, ⟨"x", ""⟩] := by decide +kernel

end EditorBridge.Sse
