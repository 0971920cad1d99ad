import FlipperBlocks.Proofs.Text.Rows
import Mathlib.Data.List.Forall2

/-! Indentation goes line by line. -/
namespace FlipperBlocks.Text

private theorem linesFrom_append {line a : List Char}
    (ended : a = [] ∧ line = [] ∨ a.getLast? = some '\n') (b : List Char) :
    linesFrom line (a ++ b) = linesFrom line a ++ lines b := by
  induction a generalizing line with
  | nil =>
    obtain ⟨_, rfl⟩ : [] = [] ∧ line = [] := ended.resolve_right (by simp)
    rfl
  | cons c cs ih =>
    have tail := Ended.tail (.inr (ended.resolve_left (by simp)))
    rw [List.cons_append, linesFrom, linesFrom]
    split
    · rw [ih (tail.imp_left fun empty => ⟨empty.1, rfl⟩), List.cons_append]
    · rename_i other
      exact ih (.inr (tail.resolve_left fun last => other last.2))

theorem indent_append {a : String} (ended : Ended a.toList) (b : String) :
    indent (a ++ b) = indent a ++ indent b := by
  apply String.ext
  rw [indent, String.toList_append, indentChars, lines,
    linesFrom_append (ended.imp_left fun empty => ⟨empty, rfl⟩), List.flatMap_append]
  simp [indent, indentChars, lines]

/-- A row and the line in it. A line feed ends the row and takes a carriage return along, or the row
ends with the text. -/
structure IsRowOf (line row : List Char) : Prop where
  inside : '\n' ∉ line
  ending : row = line ++ ['\r', '\n'] ∨ row = line ++ ['\n'] ∧ line.getLast? ≠ some '\r' ∨
    row = line ∧ line ≠ []

private theorem isRowOf_dropReturn {line : List Char} (inside : '\n' ∉ line) :
    IsRowOf (dropReturn line).reverse ('\n' :: line).reverse := by
  unfold dropReturn
  split
  case h_1 line =>
    rw [List.mem_cons, not_or] at inside
    exact ⟨by simpa using inside.2, .inl (by simp)⟩
  case h_2 other =>
    refine ⟨by simpa using inside, .inr (.inl ⟨by simp, ?_⟩)⟩
    rw [List.getLast?_reverse]
    cases line with
    | nil => simp
    | cons c rest => exact fun last => other rest (by rw [Option.some.inj last])

private theorem rowsFrom_linesFrom {line cs : List Char} (inside : '\n' ∉ line) :
    List.Forall₂ IsRowOf (linesFrom line cs) (rowsFrom line cs) := by
  induction cs generalizing line with
  | nil =>
    rw [linesFrom, rowsFrom]
    split
    · exact .nil
    · rename_i some
      exact .cons ⟨by simpa using inside, .inr (.inr ⟨rfl, by simpa using some⟩)⟩ .nil
  | cons c cs ih =>
    rw [linesFrom, rowsFrom]
    split
    · rename_i feed
      exact .cons (feed ▸ isRowOf_dropReturn inside) (ih (by simp))
    · rename_i other
      exact ih (by simp [Ne.symm other, inside])

theorem rows_indent (text : String) : rows (indent text).toList = (lines text.toList).map indentLine := by
  rw [indent, String.toList_ofList]
  refine rows_flatMap fun line member => ?_
  unfold indentLine
  split
  · exact ⟨[], by simp, rfl⟩
  · have inside := lineFeed_not_mem_linesFrom (by simp) line member
    exact ⟨' ' :: ' ' :: ' ' :: ' ' :: line, by simpa using inside, rfl⟩

theorem length_rows_indent (text : String) :
    (rows (indent text).toList).length = (rows text.toList).length := by
  rw [rows_indent, List.length_map]
  exact (rowsFrom_linesFrom (by simp)).length_eq

/-- Texts that end with a line are indented one after the other. Every row is indented for itself: a
blank line is emptied, and any other one comes after four spaces. -/
theorem indent_linewise : (∀ a b : String, Ended a.toList → indent (a ++ b) = indent a ++ indent b) ∧
    ∀ text : String, Ended (indent text).toList ∧ (rows text.toList).flatten = text.toList ∧
      List.Forall₂ (fun row moved => ∃ line, IsRowOf line row ∧ (line.all isBlank = true ∧ moved = ['\n'] ∨
            line.all isBlank = false ∧ moved = "    ".toList ++ line ++ ['\n']))
        (rows text.toList) (rows (indent text).toList) := by
  refine ⟨fun a b ended => indent_append ended b, fun text => ⟨(undashed_indent text).ended,
    flatten_rows _, ?_⟩⟩
  rw [rows_indent, List.forall₂_map_right_iff]
  refine (rowsFrom_linesFrom (by simp)).flip.imp fun row line isRow => ⟨line, isRow, ?_⟩
  unfold indentLine
  split
  case isTrue blank => exact .inl ⟨blank, rfl⟩
  case isFalse visible => exact .inr ⟨Bool.eq_false_iff.2 visible, rfl⟩

theorem indent_linewise_returns : Ended "a;\r\n".toList ∧
    indent ("a;\r\n" ++ "\u3000\n b\r") = "    a;\n" ++ "\n     b\r\n" :=
  ⟨.inr (by decide), (indent_linewise.1 "a;\r\n" "\u3000\n b\r" (.inr (by decide))).trans (by decide)⟩

private theorem all_linesFrom (line cs : List Char) :
    (linesFrom line cs).all (·.all isBlank) = (line.all isBlank && cs.all isBlank) := by
  induction cs generalizing line with
  | nil => cases line <;> simp [linesFrom, Bool.and_comm]
  | cons c cs ih =>
    rw [linesFrom]
    split
    case isTrue feed =>
      have dropped : (dropReturn line).all isBlank = line.all isBlank := by
        unfold dropReturn
        split
        · rfl
        · rfl
      rw [List.all_cons, ih, List.all_reverse, dropped, feed]
      rfl
    case isFalse => rw [ih, List.all_cons, List.all_cons, Bool.and_assoc, Bool.and_left_comm]

theorem allBlank_indent (s : String) : allBlank (indent s) = allBlank s := by
  have line (line : List Char) : (indentLine line).all isBlank = line.all isBlank := by
    unfold indentLine
    split
    case isTrue blank =>
      rw [blank]
      rfl
    case isFalse => simp [isBlank]
  rw [allBlank, indent, String.toList_ofList, indentChars, List.all_flatMap]
  simp only [line]
  exact all_linesFrom [] s.toList

theorem allBlank_append (a b : String) : allBlank (a ++ b) = (allBlank a && allBlank b) := by simp [allBlank]

end FlipperBlocks.Text
