/-!
# Lines

A line ends at a line feed, or at a carriage return directly before one. The
last line may end without either; nothing follows a final line end.
-/

namespace EditorBridge.Text

/-- The lines of a text, without their ends. -/
def lines : List Char → List (List Char)
  | [] => []
  | '\n' :: rest => [] :: lines rest
  | '\r' :: '\n' :: rest => [] :: lines rest
  | c :: rest =>
    match lines rest with
    | [] => [[c]]
    | line :: more => (c :: line) :: more

example : lines "a\r\n\nb\r".toList = ["a".toList, [], "b\r".toList] := by decide

end EditorBridge.Text
