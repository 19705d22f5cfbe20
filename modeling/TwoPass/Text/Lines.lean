/-!
Lines: a line ends with a line feed, which may have one carriage return before it. The last line
may lack its end, and an end of text directly after a line feed starts no line.
-/

namespace TwoPass.Text

/-- Reads one more character to the left of a text: what the text has before its first line feed,
and the pieces between and after the line feeds. -/
def extendPieces (c : Char) (text : List Char × List (List Char)) :
    List Char × List (List Char) :=
  if c == '\n' then ([], text.1 :: text.2) else (c :: text.1, text.2)

def pieces (text : List Char) : List (List Char) :=
  let split := text.foldr extendPieces ([], [])
  split.1 :: split.2

def dropReturn (line : List Char) : List Char :=
  if line.getLast? = some '\r' then line.dropLast else line

def lines (text : List Char) : List (List Char) :=
  let all := pieces text
  all.dropLast.map dropReturn ++ all.getLast?.toList.filter fun last => !last.isEmpty

theorem pieces_append_newline (left right : List Char) :
    pieces (left ++ '\n' :: right) = pieces left ++ pieces right := by
  have split : (left ++ '\n' :: right).foldr extendPieces ([], []) =
      ((left.foldr extendPieces ([], [])).1,
        (left.foldr extendPieces ([], [])).2 ++ pieces right) := by
    induction left with
    | nil => simp [extendPieces, pieces]
    | cons head tail ih =>
        simp only [List.cons_append, List.foldr_cons, ih]
        by_cases newline : head = '\n'
        · simp [extendPieces, newline]
        · simp [extendPieces, newline]
  simp only [pieces, split, List.cons_append]

theorem pieces_of_no_newline (text : List Char) (inside : '\n' ∉ text) : pieces text = [text] := by
  have split : text.foldr extendPieces ([], []) = (text, []) := by
    induction text with
    | nil => rfl
    | cons head tail ih =>
        simp only [List.mem_cons, not_or] at inside
        simp [ih inside.2, extendPieces, Ne.symm inside.1]
  simp [pieces, split]

end TwoPass.Text
