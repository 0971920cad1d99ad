import FlipperBlocks.Proofs.C.Scan
import FlipperBlocks.Text.Lines

/-! Indentation does not change what a scanner finds.

Indenting adds blanks at the start of a line, drops them from blank lines, and drops a carriage
return before a line feed. At the start of a line a scanner is in code or in a block comment, where
none of this is seen. -/
namespace FlipperBlocks.C

theorem Identifier.isAlpha_iff (c : Char) :
    c.isAlpha = true ↔ (65 ≤ c.toNat ∧ c.toNat ≤ 90) ∨ (97 ≤ c.toNat ∧ c.toNat ≤ 122) := by
  have ranges : c.isAlpha = (decide (c.val ≥ 65 ∧ c.val ≤ 90) ||
    (decide (c.val ≥ 97) && decide (c.val ≤ 122))) := rfl
  simp only [ranges, Bool.or_eq_true, Bool.and_eq_true, decide_eq_true_eq, UInt32.le_iff_toNat_le, ge_iff_le]
  exact Iff.rfl

theorem Identifier.isPart_iff (c : Char) : Identifier.isPart c = true ↔
      (65 ≤ c.toNat ∧ c.toNat ≤ 90) ∨ (97 ≤ c.toNat ∧ c.toNat ≤ 122) ∨
        (48 ≤ c.toNat ∧ c.toNat ≤ 57) ∨ c.toNat = 95 := by
  have underscore : c = '_' ↔ c.toNat = 95 := by
    rw [← Char.toNat_inj]
    rfl
  simp only [Identifier.isPart, Char.isAlphanum, isAlpha_iff, Char.isDigit, Bool.or_eq_true,
    Bool.and_eq_true, decide_eq_true_eq, beq_iff_eq, underscore, UInt32.le_iff_toNat_le, ge_iff_le]
  change (((65 ≤ c.toNat ∧ c.toNat ≤ 90) ∨ (97 ≤ c.toNat ∧ c.toNat ≤ 122)) ∨
    (48 ≤ c.toNat ∧ c.toNat ≤ 57)) ∨ c.toNat = 95 ↔ _
  omega

namespace Scan

variable {c : Char} {mode : Mode} {cs line : List Char}

theorem isPart_of_blank (blank : Text.isBlank c = true) : Identifier.isPart c = false := by
  rw [← Bool.not_eq_true, Identifier.isPart_iff]
  simp only [Text.isBlank, Bool.or_eq_true, Bool.and_eq_true, decide_eq_true_eq, beq_iff_eq] at blank
  omega

private theorem ne_of_blank {d : Char} (blank : Text.isBlank c = true)
    (visible : Text.isBlank d = false) : c ≠ d := by
  intro same
  rw [same, visible] at blank
  contradiction

private theorem start_blank (blank : Text.isBlank c = true) : start c = ([], .code) := by
  have notOperator : c ∉ operatorStarts := by
    intro member
    have visible : ∀ d ∈ operatorStarts, Text.isBlank d = false := by simp [operatorStarts, Text.isBlank]
    exact ne_of_blank blank (visible c member) rfl
  have notQuote : c ≠ '"' := ne_of_blank blank (by decide)
  have notApostrophe : c ≠ '\'' := ne_of_blank blank (by decide)
  simp [start, isPart_of_blank blank, notOperator, notQuote, notApostrophe, blank]

def AtLineStart (mode : Mode) : Prop := mode = .code ∨ mode = .blockComment

private theorem step_blank (atStart : AtLineStart mode)
    (blank : Text.isBlank c = true) : step mode c = ([], mode) := by
  rcases atStart with inCode | inComment
  · rw [inCode]
    exact start_blank blank
  · have notStar : c ≠ '*' := ne_of_blank blank (by decide)
    simp [inComment, step, notStar]

theorem run_blanks (atStart : AtLineStart mode)
    (blank : cs.all Text.isBlank = true) : run mode cs = ([], mode) := by
  induction cs with
  | nil => rfl
  | cons c rest ih =>
    simp only [List.all_cons, Bool.and_eq_true] at blank
    rw [run_cons, step_blank atStart blank.1, ih blank.2]
    simp

theorem joinsWord_blank (read : List Char) (blank : Text.isBlank c = true) : joinsWord read c = false := by
  have noPoint : c ≠ '.' := ne_of_blank blank (by decide)
  have noPlus : c ≠ '+' := ne_of_blank blank (by decide)
  have noMinus : c ≠ '-' := ne_of_blank blank (by decide)
  simp [joinsWord, isSign, isPart_of_blank blank, noPoint, noPlus, noMinus]

theorem joinsOperator_blank (read : List Char) (blank : Text.isBlank c = true) :
    joinsOperator read c = false := by
  have visible : ∀ op ∈ longOperators, op.getLast?.all (fun d => !Text.isBlank d) = true := by decide
  rw [joinsOperator, ← Bool.not_eq_true, List.contains_iff_mem]
  intro member
  have last := visible _ member
  simp [blank] at last

/-- A blank ends whatever is being read, unless that is a literal or a comment. -/
theorem step_word_blank (read : List Char) (blank : Text.isBlank c = true) :
    step (.word read) c = ([.word read.reverse], .code) := by
  have noParenthesis : c ≠ '(' := ne_of_blank blank (by decide)
  simp [step, joinsWord_blank read blank, after, finishedWord, noParenthesis, start_blank blank]

theorem step_operator_blank (read : List Char) (blank : Text.isBlank c = true) :
    step (.operator read) c = ([.mark read.reverse], .code) := by
  have noSlash : c ≠ '/' := ne_of_blank blank (by decide)
  have noStar : c ≠ '*' := ne_of_blank blank (by decide)
  simp [step, joinsOperator_blank read blank, after, noSlash, noStar, start_blank blank]

theorem step_lineFeed (mode : Mode) : AtLineStart (step mode '\n').2 ∨ (step mode '\n').2 = .broken := by
  unfold AtLineStart
  cases mode with
  | word read => simp [step_word_blank read (c := '\n') rfl]
  | operator read => simp [step_operator_blank read (c := '\n') rfl]
  | _ => decide

/-- A carriage return before a line feed is not seen, unless it stands in a literal. -/
theorem run_return_lineFeed (mode : Mode) (whole : (run mode ['\r', '\n']).2 ≠ .broken) :
    run mode ['\n'] = run mode ['\r', '\n'] := by
  cases mode with
  | word read =>
    rw [run_cons, run_cons, step_word_blank read rfl, step_word_blank read rfl]
    rfl
  | operator read =>
    rw [run_cons, run_cons, step_operator_blank read rfl, step_operator_blank read rfl]
    rfl
  | string | stringEscape | character | characterEscape => exact absurd rfl whole
  | _ => rfl

private theorem run_dropReturn (mode : Mode) (line : List Char)
    (whole : (run mode (line.reverse ++ ['\n'])).2 ≠ .broken) :
    run mode ((Text.dropReturn line).reverse ++ ['\n']) = run mode (line.reverse ++ ['\n']) := by
  unfold Text.dropReturn
  split
  · rename_i shorter
    have split : ('\r' :: shorter).reverse ++ ['\n'] = shorter.reverse ++ ['\r', '\n'] := by simp
    rw [split, run_append] at whole
    rw [split, run_append, run_append, run_return_lineFeed _ whole]
  · rfl

private theorem run_indentLine (atStart : AtLineStart mode) (line : List Char) :
    run mode (Text.indentLine line) = run mode (line ++ ['\n']) := by
  unfold Text.indentLine
  split
  · rename_i blank
    have ended : (line ++ ['\n']).all Text.isBlank = true := by
      rw [List.all_append, blank]
      rfl
    rw [run_blanks atStart ended, run_blanks atStart rfl]
  · have margin : run mode [' ', ' ', ' ', ' '] = ([], mode) := run_blanks atStart rfl
    have moved := run_append mode [' ', ' ', ' ', ' '] (line ++ ['\n'])
    rw [margin] at moved
    simpa using moved

private theorem indentLines_ended (lines : List (List Char)) : lines.flatMap Text.indentLine = [] ∨
      (lines.flatMap Text.indentLine).getLast? = some '\n' := by
  induction lines with
  | nil => exact .inl rfl
  | cons line rest ih =>
    have last : (Text.indentLine line).getLast? = some '\n' := by
      unfold Text.indentLine
      split
      · rfl
      · change ((' ' :: ' ' :: ' ' :: ' ' :: line) ++ ['\n']).getLast? = some '\n'
        exact List.getLast?_concat
    right
    rw [List.flatMap_cons]
    rcases ih with empty | ended
    · rw [empty, List.append_nil, last]
    · simp [List.getLast?_append, ended]

private def EndsLine (line cs : List Char) : Prop := (cs = [] ∧ line = []) ∨ cs.getLast? = some '\n'

private theorem endsLine_rest (other : c ≠ '\n')
    (ends : EndsLine line (c :: cs)) : EndsLine (c :: line) cs := by
  rcases ends with ⟨empty, _⟩ | last
  · contradiction
  · cases cs with
    | nil => simp [other] at last
    | cons d rest => exact .inr (by simpa using last)

private theorem endsLine_next (ends : EndsLine line ('\n' :: cs)) : EndsLine [] cs := by
  rcases ends with ⟨empty, _⟩ | last
  · contradiction
  · cases cs with
    | nil => exact .inl ⟨rfl, rfl⟩
    | cons d rest => exact .inr (by simpa using last)

private theorem run_indentLines (atStart : AtLineStart mode) (line cs : List Char)
    (ends : EndsLine line cs) (whole : (run mode (line.reverse ++ cs)).2 ≠ .broken) :
    run mode ((Text.linesFrom line cs).flatMap Text.indentLine) = run mode (line.reverse ++ cs) := by
  -- The line read so far is scanned again from its start, so the mode there is what is kept.
  induction cs generalizing mode line with
  | nil =>
    rcases ends with ⟨_, empty⟩ | last
    · subst empty
      rfl
    · simp at last
  | cons c rest ih =>
    rw [Text.linesFrom]
    split
    · rename_i lineFeed
      subst lineFeed
      have split : line.reverse ++ '\n' :: rest = (line.reverse ++ ['\n']) ++ rest := by simp
      rw [split, run_append] at whole
      rw [split, run_append]
      have unbroken : (run mode (line.reverse ++ ['\n'])).2 ≠ .broken := by
        intro broken
        rw [broken] at whole
        simp at whole
      have atNext : AtLineStart (run mode (line.reverse ++ ['\n'])).2 := by
        have reached := step_lineFeed (run mode line.reverse).2
        rw [run_append] at unbroken ⊢
        exact reached.resolve_right unbroken
      rw [List.flatMap_cons, run_append, run_indentLine atStart, run_dropReturn mode line unbroken,
        ih atNext [] (endsLine_next ends) whole]
      rfl
    · rename_i other
      have moved : line.reverse ++ c :: rest = (c :: line).reverse ++ rest := by simp
      rw [moved] at whole ⊢
      exact ih atStart (c :: line) (endsLine_rest other ends) whole

end Scan

structure Rows (text : String) (found : List Token) : Prop where
  scan : Scan.run .code text.toList = (found, .code)
  ended : text.toList = [] ∨ text.toList.getLast? = some '\n'

namespace Rows

variable {a b text : String} {first second found : List Token}

theorem nil : Rows "" [] := ⟨rfl, .inl rfl⟩

theorem append (left : Rows a first) (right : Rows b second) : Rows (a ++ b) (first ++ second) := by
  refine ⟨?_, ?_⟩
  · rw [String.toList_append]
    exact Scan.run_append_of_eq left.scan right.scan
  · rw [String.toList_append]
    rcases right.ended with empty | last
    · rw [empty, List.append_nil]
      exact left.ended
    · exact .inr (by simp [List.getLast?_append, last])

theorem margin (rows : Rows text found) (nonempty : text.toList ≠ []) (steps : Nat) :
    Rows (Text.margin steps ++ text) found := by
  have blank : (List.replicate (4 * steps) ' ').all Text.isBlank = true := by
    simp [List.all_replicate, Text.isBlank]
  refine ⟨?_, ?_⟩
  · rw [String.toList_append, Text.margin, String.toList_ofList]
    have scanned := Scan.run_append_of_eq (Scan.run_blanks (.inl rfl) blank) rows.scan
    simpa using scanned
  · have last := rows.ended.resolve_left nonempty
    exact .inr (by simp [List.getLast?_append, last])

theorem indent (rows : Rows text found) : Rows (Text.indent text) found := by
  have unbroken : (Scan.run .code (([] : List Char).reverse ++ text.toList)).2 ≠ .broken := by
    simp [rows.scan]
  have ends : Scan.EndsLine [] text.toList := rows.ended.imp_left fun empty => ⟨empty, rfl⟩
  have same := Scan.run_indentLines (.inl rfl) [] text.toList ends unbroken
  refine ⟨?_, ?_⟩
  · rw [Text.indent, String.toList_ofList]
    exact same.trans rows.scan
  · rw [Text.indent, String.toList_ofList]
    exact Scan.indentLines_ended (Text.lines text.toList)

theorem indentBy (rows : Rows text found) (depth : Nat) : Rows (Text.indentBy depth text) found := by
  induction depth with
  | zero => exact rows
  | succ depth ih => exact ih.indent

theorem selfContained (rows : Rows text found) (nested : Nested found) : SelfContained text := by
  have scanned : tokens text = found := by simp [tokens, rows.scan, Scan.pending]
  refine ⟨?_, ?_⟩
  · simp [endMode, rows.scan, Scan.settled]
  · rw [scanned]
    exact nested

end Rows

end FlipperBlocks.C
