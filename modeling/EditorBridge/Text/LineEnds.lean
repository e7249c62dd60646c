import EditorBridge.Text.Lines
/-!
# Line ends

Texts end their lines in three ways: by a carriage return, by a line feed, and
by both together. `Text.lines` knows the last two of them only.
-/

namespace EditorBridge.Text

/-- A text with a line feed for each of its line ends. -/
def unified : List Char → List Char
  | [] => []
  | '\r' :: '\n' :: rest => '\n' :: unified rest
  | '\r' :: rest => '\n' :: unified rest
  | c :: rest => c :: unified rest

/-- A text without the line feed at its end, if there is one. -/
def withoutLastFeed (cs : List Char) : List Char :=
  if cs.getLast? = some '\n' then cs.dropLast else cs

/-- All on one line. -/
def OneLine (cs : List Char) : Prop := '\r' ∉ cs ∧ '\n' ∉ cs

instance (cs : List Char) : Decidable (OneLine cs) := inferInstanceAs (Decidable (_ ∧ _))

/-- Somewhere a carriage return stands before another character than a line feed. -/
def StrayReturn (cs : List Char) : Prop := ∃ c, c ≠ '\n' ∧ ['\r', c] <:+: cs

example : withoutLastFeed (unified "a\r\nb\rc\n".toList) = "a\nb\nc".toList := by decide

end EditorBridge.Text
