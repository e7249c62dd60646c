import EditorBridge.Text.Lines
/-!
# Frames of an event stream

A comment is one line after a colon. An event names its type and then gives its
data line by line; data without a line is one empty line.
-/

namespace EditorBridge.Sse

/-- The text of a comment. -/
def commentChars (text : List Char) : List Char := ':' :: ' ' :: text ++ ['\n', '\n']

/-- A line of data. -/
def dataLine (line : List Char) : List Char := "data: ".toList ++ line ++ ['\n']

/-- The lines of data; there is at least one. -/
def dataLines (data : List Char) : List Char :=
  if data = [] then dataLine [] else (Text.lines data).flatMap dataLine

/-- The text of an event. -/
def eventChars (event data : List Char) : List Char :=
  "event: ".toList ++ event ++ '\n' :: dataLines data ++ ['\n']

/-- A comment as it goes over the stream. -/
def comment (text : String) : String := String.ofList (commentChars text.toList)

/-- An event as it goes over the stream. -/
def event (name data : String) : String := String.ofList (eventChars name.toList data.toList)

/-- The type of the events that carry messages. -/
def messageEvent : String := "message"

end EditorBridge.Sse
