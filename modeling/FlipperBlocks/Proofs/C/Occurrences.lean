import FlipperBlocks.Proofs.C.Calls
import Mathlib.Algebra.BigOperators.Group.Multiset.Basic
import Mathlib.Algebra.Order.BigOperators.Group.Multiset
import Mathlib.Algebra.Order.Group.Nat
import Mathlib.Data.List.Infix

/-! How often a run of tokens stands in a piece of code.

A run that has no end of a line inside of it stands within a line wherever it stands, so that the runs of
a piece of code are counted line by line. Two runs are of interest: the call that starts an output, and
the end of the call that hands over what a button does. -/
namespace FlipperBlocks.C

open Token (word call mark)

def occurrences (run : List Token) : List Token → Nat
  | [] => 0
  | token :: rest => (if run <+: token :: rest then 1 else 0) + occurrences run rest

def occurrencesIn (run text : String) : Nat := occurrences (tokens run) (tokens text)

section

variable {run a b : List Token} {last : Token}

theorem occurrences_eq_zero (absent : ∀ before after, a = before ++ after → after ≠ [] →
    ¬ run <+: after) : occurrences run a = 0 := by
  induction a with
  | nil => rfl
  | cons token rest ih =>
    have here : ¬ run <+: token :: rest := absent [] _ rfl (List.cons_ne_nil _ _)
    rw [occurrences, if_neg here, Nat.zero_add]
    apply ih
    intro before after split
    exact absent (token :: before) after (by rw [split, List.cons_append])

theorem occurrences_of_not_mem {token : Token} (part : token ∈ run) (absent : token ∉ a) :
    occurrences run a = 0 := by
  apply occurrences_eq_zero
  rintro before after rfl _ starts
  exact absent (List.mem_append_right _ (starts.subset part))

theorem occurrences_pos (starts : run <+: b) (nonempty : b ≠ []) : 0 < occurrences run (a ++ b) := by
  induction a with
  | nil =>
    obtain ⟨token, rest, rfl⟩ := List.exists_cons_of_ne_nil nonempty
    rw [List.nil_append, occurrences, if_pos starts]
    omega
  | cons token rest ih =>
    rw [List.cons_append, occurrences]
    omega

/-- Where no run starts in the first part and ends in the second, only the second part counts. -/
theorem occurrences_append_of_free (free : ∀ before after, a = before ++ after → after ≠ [] →
    ¬ run <+: after ++ b) : occurrences run (a ++ b) = occurrences run b := by
  induction a with
  | nil => rfl
  | cons token rest ih =>
    have here : ¬ run <+: token :: rest ++ b := free [] _ rfl (List.cons_ne_nil _ _)
    rw [List.cons_append] at here ⊢
    rw [occurrences, if_neg here, Nat.zero_add]
    apply ih
    intro before after split
    exact free (token :: before) after (by rw [split, List.cons_append])

/-- A run does not go on behind a token that can be its last one only. -/
private theorem prefix_append_iff (ends : last ∉ run.dropLast) :
    run <+: a ++ [last] ++ b ↔ run <+: a ++ [last] := by
  refine ⟨fun starts => ?_, fun starts => starts.trans (List.prefix_append _ _)⟩
  rcases Nat.lt_or_ge (a ++ [last]).length run.length with longer | shorter
  · obtain ⟨more, rfl⟩ :=
      List.prefix_of_prefix_length_le (List.prefix_append _ b) starts (Nat.le_of_lt longer)
    have goesOn : more ≠ [] := by
      rintro rfl
      simp at longer
    refine absurd ?_ ends
    rw [List.dropLast_append_of_ne_nil goesOn]
    simp
  · exact List.prefix_of_prefix_length_le starts (List.prefix_append _ _) shorter

theorem occurrences_append (ends : last ∉ run.dropLast) :
    occurrences run (a ++ [last] ++ b) = occurrences run (a ++ [last]) + occurrences run b := by
  induction a with
  | nil =>
    have same := @prefix_append_iff run [] b last ends
    simp only [List.nil_append, List.cons_append] at same ⊢
    simp only [occurrences, same]
    omega
  | cons token rest ih =>
    have same := @prefix_append_iff run (token :: rest) b last ends
    simp only [List.cons_append] at same ih ⊢
    simp only [occurrences, same, ih]
    omega

end

/-! Line by line. -/

def lineEnds : List Token := [mark [';'], mark ['{'], mark ['}'], .comment]

theorem Line.exists_end {line : Line} {ok : Atom → Prop} (holds : line.Holds ok) :
    ∃ front, ∃ last ∈ lineEnds, line.tokens = front ++ [last] := by
  cases line with
  | run action => exact ⟨_, mark [';'], by simp [lineEnds], rfl⟩
  | guarded test action =>
    exact ⟨call ['i', 'f'] :: mark ['('] :: (test.tokens ++ mark [')'] :: action.tokens), mark [';'],
      by simp [lineEnds], by simp [tokens]⟩
  | reserve type name =>
    exact ⟨Expr.typeTokens type ++ [word name.toList], mark [';'], by simp [lineEnds],
      by simp [tokens]⟩
  | comment | placeholder => exact ⟨[], .comment, by simp [lineEnds], rfl⟩
  | openBlock => exact ⟨[], mark ['{'], by simp [lineEnds], rfl⟩
  | openIf test =>
    exact ⟨call ['i', 'f'] :: mark ['('] :: (test.tokens ++ [mark [')']]), mark ['{'],
      by simp [lineEnds], by simp [tokens, testTokens]⟩
  | openBranch test =>
    exact ⟨word ['i', 'f'] :: mark ['('] :: (test.tokens ++ [mark [')']]), mark ['{'],
      by simp [lineEnds], by simp [tokens, testTokens]⟩
  | nextBranch test =>
    exact ⟨mark ['}'] :: word ['e', 'l', 's', 'e'] :: word ['i', 'f'] :: mark ['('] ::
      (test.tokens ++ [mark [')']]), mark ['{'], by simp [lineEnds], by simp [tokens, testTokens]⟩
  | lastBranch => exact ⟨[mark ['}'], word ['e', 'l', 's', 'e']], mark ['{'], by simp [lineEnds], rfl⟩
  | openWhile test =>
    exact ⟨call ['w', 'h', 'i', 'l', 'e'] :: mark ['('] :: (test.tokens ++ [mark [')']]), mark ['{'],
      by simp [lineEnds], by simp [tokens, testTokens]⟩
  | openFor counter bound =>
    exact ⟨call ['f', 'o', 'r'] :: mark ['('] :: word ['i', 'n', 't'] :: word counter.toList ::
      mark ['='] :: word ['0'] :: mark [';'] :: word counter.toList :: mark ['<'] ::
      (bound.tokens ++ [mark [';'], word counter.toList, mark ['+', '+'], mark [')']]), mark ['{'],
      by simp [lineEnds], by simp [tokens]⟩
  | close => exact ⟨[], mark ['}'], by simp [lineEnds], rfl⟩
  | verbatim text => exact holds.elim

namespace Code

def lines (code : Code) : Multiset Line := (code.map PlacedLine.line : List Line)

section

variable {a b code : Code} {line : Line}

@[simp] theorem lines_nil : lines [] = 0 := rfl

@[simp] theorem lines_append : lines (a ++ b) = lines a + lines b := by
  rw [lines, List.map_append, ← Multiset.coe_add, lines, lines]

@[simp] theorem lines_line : lines (Code.line line) = {line} := rfl

@[simp] theorem lines_run (action : Expr) : lines (Code.run action) = {.run action} := rfl

@[simp] theorem lines_ofLines (list : List Line) : lines (ofLines list) = list := by
  have same : (PlacedLine.line ∘ PlacedLine.mk 0 0) = id := rfl
  rw [lines, ofLines, List.map_map, same, List.map_id]

@[simp] theorem lines_indent : lines code.indent = lines code := by
  rw [lines, indent, List.map_map]
  rfl

@[simp] theorem lines_inset : lines code.inset = lines code := by
  rw [lines, inset, List.map_map]
  rfl

@[simp] theorem lines_framed : lines (framed line code) = {line} + lines code + {.close} := by simp [framed]

@[simp] theorem lines_braced : lines (braced line code) = {line} + lines code + {.close} := by simp [braced]

end

theorem occurrences_tokens {code : Code} {ok : Atom → Prop} {run : List Token}
    (within : ∀ last ∈ lineEnds, last ∉ run.dropLast) (holds : code.Holds ok) : occurrences run code.tokens =
      (code.lines.map fun line => occurrences run line.tokens).sum := by
  induction code with
  | nil => rfl
  | cons placed rest ih =>
    obtain ⟨here, later⟩ := List.forall_mem_cons.1 holds
    obtain ⟨front, last, isEnd, split⟩ := placed.line.exists_end here
    have parts : tokens (placed :: rest) = front ++ [last] ++ tokens rest := by simp [tokens, split]
    have whole : lines (placed :: rest) = {placed.line} + lines rest := rfl
    rw [parts, occurrences_append (within last isEnd), ih later, whole, Multiset.map_add,
      Multiset.sum_add, Multiset.map_singleton, Multiset.sum_singleton, split]

theorem occurrences_tokens_pos {code : Code} {ok : Atom → Prop} {run : List Token}
    (within : ∀ last ∈ lineEnds, last ∉ run.dropLast) (holds : code.Holds ok) :
    0 < occurrences run code.tokens ↔ ∃ line ∈ code.lines, 0 < occurrences run line.tokens := by
  rw [occurrences_tokens within holds, Nat.pos_iff_ne_zero, Ne, Multiset.sum_eq_zero_iff]
  simp [Nat.pos_iff_ne_zero]

end Code

end FlipperBlocks.C
