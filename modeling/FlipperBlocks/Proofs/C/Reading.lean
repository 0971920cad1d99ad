import FlipperBlocks.C.Quoted
import FlipperBlocks.Proofs.C.Indented

/-! Texts that read as known tokens.

A word or an operator ends only at the character after it. So a text is said to read as some tokens
if it does so before every character that may follow an expression, and to close if it does so
before anything at all. Texts put together read as their tokens put together. -/
namespace FlipperBlocks.C

open Identifier Scan

namespace Scan

def breaks : List Char := [' ', ')', ']', ',', ';', '\n']

def found (before : List Token) (rest : List Token × Mode) : List Token × Mode := (before ++ rest.1, rest.2)

@[simp] theorem found_found (a b : List Token) (rest : List Token × Mode) :
    found a (found b rest) = found (a ++ b) rest := by
  simp [found]

theorem run_append_closed {a b : List Char} {first : List Token}
    (left : run .code a = (first, .code)) : run .code (a ++ b) = found first (run .code b) := by
  rw [run_append, left]
  rfl

end Scan

/-- A text that reads as the given tokens wherever a break follows it. -/
def Reads (text : String) (expected : List Token) : Prop :=
  ∀ c ∈ breaks, ∀ rest, run .code (text.toList ++ c :: rest) = found expected (run .code (c :: rest))

/-- A text that reads as the given tokens whatever follows it. -/
def Closes (text : String) (expected : List Token) : Prop := run .code text.toList = (expected, .code)

instance (text : String) (expected : List Token) : Decidable (Closes text expected) :=
  inferInstanceAs (Decidable (_ = _))

def StartsWithBreak (text : String) : Prop := ∃ c ∈ Scan.breaks, text.toList.head? = some c

section Texts

variable {a b text : String} {first second : List Token}

theorem Closes.append (left : Closes a first) (right : Closes b second) :
    Closes (a ++ b) (first ++ second) := by
  unfold Closes
  rw [String.toList_append]
  exact run_append_of_eq left right

theorem Closes.reads (closes : Closes a first) : Reads a first := by
  intro c _ rest
  exact Scan.run_append_closed closes

theorem Closes.append_reads (left : Closes a first) (right : Reads b second) :
    Reads (a ++ b) (first ++ second) := by
  intro c isBreak rest
  rw [String.toList_append, List.append_assoc, Scan.run_append_closed left, right c isBreak rest,
    Scan.found_found]

theorem Reads.append_closes (left : Reads a first) (broken : StartsWithBreak b)
    (right : Closes b second) : Closes (a ++ b) (first ++ second) := by
  obtain ⟨c, isBreak, head⟩ := broken
  obtain ⟨rest, split⟩ := List.head?_eq_some_iff.1 head
  unfold Closes at right ⊢
  rw [String.toList_append, split, left c isBreak rest, ← split, right]
  rfl

theorem Reads.tokens_eq (reads : Reads a first) : tokens a = first := by
  have scanned := reads ' ' (by decide) []
  rw [run_append] at scanned
  have blank : run .code [' '] = ([], .code) := rfl
  rw [blank] at scanned
  generalize state : run .code a.toList = reached at scanned
  obtain ⟨found, mode⟩ := reached
  simp only [run_cons, run_nil, Scan.found, List.append_nil, Prod.mk.injEq] at scanned
  have pending : (step mode ' ').1 = pending mode := by
    cases mode with
    | word read => rw [step_word_blank read rfl, pending]
    | operator read => rw [step_operator_blank read rfl, pending]
    | code => rfl
    | _ => exact absurd scanned.2 (by decide)
  rw [pending] at scanned
  rw [tokens, state]
  exact scanned.1

end Texts

namespace Scan

theorem run_word_ends {read : List Char} {c : Char} (ends : joinsWord read c = false) (rest : List Char) :
    run (.word read) (c :: rest) = found [finishedWord read c] (run .code (c :: rest)) := by
  rw [run_cons, run_cons]
  simp [step, ends, after, found]

theorem run_operator_ends {read : List Char} {c : Char} (ends : joinsOperator read c = false)
    (noComment : read = ['/'] → c ≠ '/' ∧ c ≠ '*') (rest : List Char) :
    run (.operator read) (c :: rest) = found [.mark read.reverse] (run .code (c :: rest)) := by
  have noLine : ¬(read = ['/'] ∧ c = '/') := fun both => (noComment both.1).1 both.2
  have noBlock : ¬(read = ['/'] ∧ c = '*') := fun both => (noComment both.1).2 both.2
  rw [run_cons, run_cons]
  simp [step, noLine, noBlock, ends, after, found]

def wordGoesOn (first : Char) (cs : List Char) : Bool :=
  cs.all fun c => isPart c || (first.isDigit && c == '.')

theorem run_wordChars {first : Char} {cs : List Char} (goesOn : wordGoesOn first cs = true)
    (read rest : List Char) (starts : read.getLast? = some first) :
    run (.word read) (cs ++ rest) = run (.word (cs.reverse ++ read)) rest := by
  induction cs generalizing read with
  | nil => rfl
  | cons c cs ih =>
    simp only [wordGoesOn, List.all_cons, Bool.and_eq_true, Bool.or_eq_true, beq_iff_eq] at goesOn
    have joins : joinsWord read c = true := by
      simp only [joinsWord, starts, Option.any_some, Bool.or_eq_true, Bool.and_eq_true, beq_iff_eq]
      exact goesOn.1.imp_right fun both => ⟨both.1, .inl both.2⟩
    have next : (c :: read).getLast? = some first := by
      rw [List.getLast?_cons, starts]
      rfl
    rw [List.cons_append, run_cons, step, if_pos joins]
    rw [List.nil_append]
    rw [show ((c :: cs).reverse ++ read) = cs.reverse ++ (c :: read) by simp]
    exact ih goesOn.2 (c :: read) next

/-- A word: an identifier, or a number, which may have points. -/
def isWord : List Char → Bool
  | first :: rest => isPart first && wordGoesOn first rest
  | [] => false

theorem run_word {word : List Char} (isWord : isWord word = true) (rest : List Char) :
    run .code (word ++ rest) = run (.word word.reverse) rest := by
  cases word with
  | nil => contradiction
  | cons first more =>
    simp only [Scan.isWord, Bool.and_eq_true] at isWord
    rw [List.cons_append, run_cons, step, start, if_pos isWord.1, List.nil_append,
      run_wordChars isWord.2 [first] rest rfl, List.reverse_cons]

theorem breaks_plain : ∀ c ∈ breaks, isPart c = false ∧ c ≠ '.' ∧ isSign c = false ∧ c ≠ '(' := by
  simp [breaks, isPart, isSign]

theorem joinsWord_break (read : List Char) {c : Char} (isBreak : c ∈ breaks) : joinsWord read c = false := by
  obtain ⟨notPart, notPoint, notSign, _⟩ := breaks_plain c isBreak
  simp [joinsWord, notPart, notPoint, notSign]

theorem finishedWord_break (read : List Char) {c : Char} (isBreak : c ∈ breaks) :
    finishedWord read c = .word read.reverse := by
  obtain ⟨_, _, _, noCall⟩ := breaks_plain c isBreak
  simp [finishedWord, noCall]

theorem joinsWord_name {read : List Char} {c first : Char} (starts : read.getLast? = some first)
    (noDigit : first.isDigit = false) (notPart : isPart c = false) : joinsWord read c = false := by
  simp [joinsWord, starts, noDigit, notPart]

end Scan

theorem Reads.word {text : String} (isWord : Scan.isWord text.toList = true) :
    Reads text [.word text.toList] := by
  intro c isBreak rest
  rw [Scan.run_word isWord, Scan.run_word_ends (Scan.joinsWord_break _ isBreak),
    Scan.finishedWord_break _ isBreak, List.reverse_reverse]

theorem Identifier.split {name : String} (ok : isIdentifier name = true) : Scan.isWord name.toList = true ∧
      ∃ first rest, name.toList = first :: rest ∧ first.isDigit = false ∧ isPart first = true := by
  unfold isIdentifier at ok
  split at ok
  · rename_i first rest letters
    rw [letters]
    simp only [Bool.and_eq_true, List.all_eq_true] at ok
    have part : isPart first = true := by
      have start := ok.1
      simp only [isStart, isPart, Char.isAlphanum, Bool.or_eq_true] at start ⊢
      exact start.imp_left .inl
    have noDigit : first.isDigit = false := by
      have start := ok.1
      rw [← Bool.not_eq_true]
      intro digit
      simp only [isStart, isAlpha_iff, Bool.or_eq_true, Bool.and_eq_true, decide_eq_true_eq,
        beq_iff_eq, Char.isDigit, UInt32.le_iff_toNat_le, ge_iff_le] at start digit
      change (48 ≤ first.toNat ∧ first.toNat ≤ 57) at digit
      rcases start with letter | underscore
      · omega
      · have code : first.toNat = 95 := by rw [underscore]; rfl
        omega
    refine ⟨?_, first, rest, rfl, noDigit, part⟩
    simp only [Scan.isWord, part, Scan.wordGoesOn, Bool.true_and, List.all_eq_true, Bool.or_eq_true]
    exact fun c member => .inl (ok.2 c member)
  · contradiction

theorem Reads.name {text : String} (ok : isIdentifier text = true) : Reads text [.word text.toList] :=
  .word (Identifier.split ok).1

namespace Scan

theorem joinsOperator_part (read : List Char) {c : Char} (part : isPart c = true) :
    joinsOperator read c = false := by
  have marks : ∀ op ∈ longOperators, op.getLast?.all (fun d => !isPart d) = true := by decide
  rw [joinsOperator, ← Bool.not_eq_true, List.contains_iff_mem]
  intro member
  have last := marks _ member
  simp [part] at last

theorem run_operator_part (read : List Char) {c : Char} (part : isPart c = true) (rest : List Char) :
    run (.operator read) (c :: rest) = found [.mark read.reverse] (run .code (c :: rest)) := by
  refine run_operator_ends (joinsOperator_part read part) (fun _ => ⟨?_, ?_⟩) rest
  · intro slash
    rw [slash] at part
    contradiction
  · intro star
    rw [star] at part
    contradiction

theorem run_operator_word (read : List Char) {word : List Char} (isWord : isWord word = true)
    (rest : List Char) : run (.operator read) (word ++ rest) =
      found [.mark read.reverse] (run .code (word ++ rest)) := by
  cases word with
  | nil => contradiction
  | cons first more =>
    simp only [Scan.isWord, Bool.and_eq_true] at isWord
    exact run_operator_part read isWord.1 (more ++ rest)

theorem run_name {name : String} (ok : isIdentifier name = true) {c : Char}
    (notPart : isPart c = false) (rest : List Char) : run .code (name.toList ++ c :: rest) =
      found [finishedWord name.toList.reverse c] (run .code (c :: rest)) := by
  obtain ⟨isWord, first, more, letters, noDigit, _⟩ := Identifier.split ok
  have starts : name.toList.reverse.getLast? = some first := by simp [letters]
  rw [run_word isWord, run_word_ends (joinsWord_name starts noDigit notPart)]

end Scan

def unsigned : List Char → List Char
  | '-' :: digits => digits
  | digits => digits

def isNumeral (cs : List Char) : Bool := Scan.isWord (unsigned cs) && (unsigned cs).head?.any Char.isDigit

def numberTokens : List Char → List Token
  | '-' :: digits => [.mark ['-'], .word digits]
  | digits => [.word digits]

theorem Reads.number {digits : String} (ok : isNumeral digits.toList = true) :
    Reads digits (numberTokens digits.toList) := by
  simp only [isNumeral, Bool.and_eq_true] at ok
  have isWord := ok.1
  unfold numberTokens
  unfold unsigned at isWord
  split at isWord
  · rename_i magnitude signed
    intro c isBreak rest
    have scanned : run .code ('-' :: (magnitude ++ c :: rest)) =
        run (.operator ['-']) (magnitude ++ c :: rest) := rfl
    rw [signed, List.cons_append, scanned, Scan.run_operator_word _ isWord, Scan.run_word isWord,
      Scan.run_word_ends (Scan.joinsWord_break _ isBreak), Scan.finishedWord_break _ isBreak,
      List.reverse_reverse, Scan.found_found]
    rfl
  · exact .word isWord

theorem Scan.run_member {object field : String} (first : isIdentifier object = true)
    (second : isIdentifier field = true) {c : Char}
    (notPart : isPart c = false) (noCall : c ≠ '(') (rest : List Char) :
    run .code ((object ++ "->" ++ field).toList ++ c :: rest) =
      found [.word object.toList, .mark ['-', '>'], .word field.toList] (run .code (c :: rest)) := by
  have arrow (cs : List Char) : run .code ('-' :: '>' :: cs) = run (.operator ['>', '-']) cs := rfl
  have split : (object ++ "->" ++ field).toList ++ c :: rest =
      object.toList ++ '-' :: '>' :: (field.toList ++ c :: rest) := by simp
  rw [split, run_name first rfl, arrow, run_operator_word _ (Identifier.split second).1,
    run_name second notPart, found_found, found_found]
  simp [finishedWord, noCall]

theorem Closes.name_parenthesis {name : String} (ok : isIdentifier name = true) :
    Closes (name ++ "(") [.call name.toList, .mark ['(']] := by
  unfold Closes
  rw [String.toList_append]
  refine (Scan.run_name ok rfl []).trans ?_
  simp [finishedWord, Scan.found, run_cons, step]
  decide

theorem Closes.name_bracket {name : String} (ok : isIdentifier name = true) :
    Closes (name ++ "[") [.word name.toList, .mark ['[']] := by
  unfold Closes
  rw [String.toList_append]
  refine (Scan.run_name ok rfl []).trans ?_
  simp [finishedWord, Scan.found, run_cons, step]
  decide

namespace Scan

theorem hexDigit_plain {n : Nat} (small : n < 16) :
    hexDigit n ≠ '"' ∧ hexDigit n ≠ '\\' ∧ hexDigit n ≠ '\n' := by
  have all : ∀ n < 16, hexDigit n ≠ '"' ∧ hexDigit n ≠ '\\' ∧ hexDigit n ≠ '\n' := by decide
  exact all n small

theorem run_string_plain {c : Char} (plain : c ≠ '"' ∧ c ≠ '\\' ∧ c ≠ '\n') (rest : List Char) :
    run .string (c :: rest) = run .string rest := by
  rw [run_cons]
  simp [step, literalStep, plain]

theorem run_escape (c : Char) (rest : List Char) : run .string (escape c ++ rest) = run .string rest := by
  unfold escape
  split
  · rfl
  split
  · rfl
  split
  · rfl
  split
  · rfl
  split
  · rfl
  split
  · rename_i control
    have high : c.toNat / 16 < 16 := by omega
    have low : c.toNat % 16 < 16 := by omega
    have opened (cs : List Char) : run .string ('\\' :: 'x' :: cs) = run .string cs := rfl
    simp only [List.cons_append, List.nil_append]
    rw [opened, run_string_plain (hexDigit_plain high), run_string_plain (hexDigit_plain low)]
  · rename_i notBackslash notQuote notFeed _ _ _
    exact run_string_plain ⟨notQuote, notBackslash, notFeed⟩ rest

theorem run_escapes (cs rest : List Char) : run .string (cs.flatMap escape ++ rest) = run .string rest := by
  induction cs with
  | nil => rfl
  | cons c cs ih => rw [List.flatMap_cons, List.append_assoc, run_escape, ih]

end Scan

theorem Closes.quoted (contents : String) : Closes (C.quoted contents) [.string] := by
  unfold Closes C.quoted
  rw [String.toList_ofList]
  exact Scan.run_escapes contents.toList ['"']

theorem Scan.run_blockComment {cs : List Char} (noStar : '*' ∉ cs) (rest : List Char) :
    run .blockComment (cs ++ rest) = run .blockComment rest := by
  induction cs with
  | nil => rfl
  | cons c cs ih =>
    simp only [List.mem_cons, not_or] at noStar
    rw [List.cons_append, run_cons]
    simp [step, Ne.symm noStar.1, ih noStar.2]

theorem Closes.remark {text : String} (noStar : '*' ∉ text.toList) :
    Closes ("/* " ++ text ++ " */ ") [.comment] := by
  unfold Closes
  rw [String.toList_append, String.toList_append, List.append_assoc]
  exact Scan.run_blockComment noStar " */ ".toList

/-- A text whose comment ends are pulled apart stays inside the comment, also behind a star if it
does not start with a slash, as long as neither a star nor a slash comes after it. -/
theorem Scan.run_splitCommentEnds {next : Char} (noStar : next ≠ '*') (noSlash : next ≠ '/')
    (cs rest : List Char) : run .blockComment (splitCommentEnds cs ++ next :: rest) = run .blockComment rest ∧
      (cs.head? ≠ some '/' →
        run .blockCommentStar (splitCommentEnds cs ++ next :: rest) = run .blockComment rest) := by
  have star (ds : List Char) : run .blockComment ('*' :: ds) = run .blockCommentStar ds := rfl
  have stars (ds : List Char) : run .blockCommentStar ('*' :: ds) = run .blockCommentStar ds := rfl
  fun_induction splitCommentEnds cs with
  | case1 cs ih => exact ⟨ih.1, fun _ => ih.1⟩
  | case2 c cs noEnd ih =>
    by_cases isStar : c = '*'
    · subst isStar
      have other : cs.head? ≠ some '/' := by
        intro slash
        obtain ⟨more, split⟩ := List.head?_eq_some_iff.1 slash
        exact noEnd more rfl split
      exact ⟨(star _).trans (ih.2 other), fun _ => (stars _).trans (ih.2 other)⟩
    · refine ⟨?_, fun start => ?_⟩
      · rw [List.cons_append, run_cons]
        simp [step, isStar, ih.1]
      · have other : c ≠ '/' := by simpa using start
        rw [List.cons_append, run_cons]
        simp [step, isStar, other, ih.1]
  | case3 =>
    rw [List.nil_append, run_cons, run_cons]
    simp [step, noStar, noSlash]

theorem Closes.placeholder (kind : String) :
    Closes ("/* unsupported block: " ++ inComment kind ++ " */") [.comment] := by
  have letters : (inComment kind).toList = splitCommentEnds kind.toList := String.toList_ofList
  have opened : run .code "/* unsupported block: ".toList = ([], .blockComment) := by decide
  have ended : run .blockComment "*/".toList = ([.comment], .code) := by decide
  unfold Closes
  rw [String.toList_append, String.toList_append, List.append_assoc, run_append, opened, letters]
  have inside : run .blockComment (splitCommentEnds kind.toList ++ ' ' :: "*/".toList) = _ :=
    (Scan.run_splitCommentEnds (by decide) (by decide) kind.toList "*/".toList).1
  refine (congrArg (Scan.found []) inside).trans ?_
  rw [ended]
  rfl

private theorem Scan.run_lineComment {cs : List Char} (noFeed : '\n' ∉ cs) :
    run .lineComment (cs ++ ['\n']) = ([.comment], .code) := by
  induction cs with
  | nil => rfl
  | cons c cs ih =>
    simp only [List.mem_cons, not_or] at noFeed
    rw [List.cons_append, run_cons]
    simp [step, Ne.symm noFeed.1, ih noFeed.2]

theorem Closes.comment (text : String) : Closes ("// " ++ Text.oneLine text ++ "\n") [.comment] := by
  have noFeed : '\n' ∉ (Text.oneLine text).toList := by
    rw [Text.oneLine, String.toList_ofList, List.mem_map]
    rintro ⟨c, _, same⟩
    split at same
    · contradiction
    · rename_i other
      simp [same] at other
  have opened : run .code "// ".toList = ([], .lineComment) := by decide
  unfold Closes
  rw [String.toList_append, String.toList_append, List.append_assoc, run_append, opened]
  exact congrArg (Scan.found []) (Scan.run_lineComment noFeed)

end FlipperBlocks.C
