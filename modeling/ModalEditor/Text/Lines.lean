import ModalEditor.Text.Basic

/-! # Lines of a text

Seven characters end a line, and so does a carriage return with the line feed after it as one
break. A text has one line more than it has breaks; the last line has none.
-/

namespace ModalEditor.Text

def isBreak (c : Char) : Bool :=
  c ∈ ['\n', '\x0b', '\x0c', '\r', '\u0085', '\u2028', '\u2029']

def lines : Text → List Text
  | [] => [[]]
  | '\r' :: '\n' :: rest => ['\r', '\n'] :: lines rest
  | c :: rest =>
    if isBreak c then [c] :: lines rest
    else match lines rest with
      | [] => [[c]]
      | line :: later => (c :: line) :: later

def dropFeed (line : Text) : Text :=
  if line.getLast? = some '\n' then line.dropLast else line

def dropReturns (line : Text) : Text :=
  (line.reverse.dropWhile fun c => c == '\n' || c == '\r').reverse

@[simp] theorem flatten_lines (text : Text) : (lines text).flatten = text := by
  fun_induction lines text <;> simp_all

theorem lines_ne_nil (text : Text) : lines text ≠ [] := by
  fun_induction lines text <;> simp_all

theorem length_lines_pos (text : Text) : 0 < (lines text).length :=
  List.length_pos_iff.mpr (lines_ne_nil text)

end ModalEditor.Text
