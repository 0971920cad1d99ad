import FlipperBlocks.C.Code
import FlipperBlocks.Proofs.C.Reading

/-! What a scanner finds in the text of an expression and of a piece of code.

The words in an expression (its atoms) come from many places. If each of them is spelled as a word of
its sort, the text reads token by token as the expression is built, and its brackets are nested
whatever the atoms are. -/
namespace FlipperBlocks.C

open Identifier Scan

inductive Atom where
  | number (digits : String)
  | name (text : String)
  | member (object field : String)
  | type (text : String)
  | call (function : String)
  | counter (text : String)
  | remark (text : String)

namespace Expr

def isPlace : Expr → Bool
  | name _ | member .. => true
  | _ => false

mutual

def Holds (ok : Atom → Prop) : Expr → Prop
  | number digits => ok (.number digits)
  | quoted _ | truth _ | nul => True
  | name text => ok (.name text)
  | member object field => ok (.member object field)
  | unary op operand => (op = .address → operand.isPlace = true) ∧ operand.Holds ok
  | binary _ left right => left.Holds ok ∧ right.Holds ok
  | conditional test yes no => test.Holds ok ∧ yes.Holds ok ∧ no.Holds ok
  | group inner => inner.Holds ok
  | call function arguments => ok (.call function) ∧ HoldAll ok arguments
  | cast type operand => ok (.type type) ∧ operand.Holds ok
  | index array position => ok (.name array) ∧ position.Holds ok
  | assign _ place value => place.Holds ok ∧ value.Holds ok
  | increment place => place.isPlace = true ∧ place.Holds ok
  | sequence first second => first.Holds ok ∧ second.Holds ok
  | declare type label value => ok (.type type) ∧ ok (.name label) ∧ value.Holds ok
  | steps list => HoldAll ok list
  | remark text inner => ok (.remark text) ∧ inner.Holds ok
  | verbatim .. => False

def HoldAll (ok : Atom → Prop) : List Expr → Prop
  | [] => True
  | first :: rest => first.Holds ok ∧ HoldAll ok rest

end

section

variable {ok better : Atom → Prop}

mutual

theorem Holds.imp (imp : ∀ atom, ok atom → better atom) : ∀ e : Expr, e.Holds ok → e.Holds better
  | number _, holds | name _, holds | member .., holds => imp _ holds
  | quoted _, _ | truth _, _ | nul, _ => trivial
  | unary _ operand, holds => ⟨holds.1, Holds.imp imp operand holds.2⟩
  | binary _ left right, holds | assign _ left right, holds | sequence left right, holds =>
    ⟨Holds.imp imp left holds.1, Holds.imp imp right holds.2⟩
  | conditional test yes no, holds =>
    ⟨Holds.imp imp test holds.1, Holds.imp imp yes holds.2.1, Holds.imp imp no holds.2.2⟩
  | group inner, holds => Holds.imp imp inner holds
  | call _ arguments, holds => ⟨imp _ holds.1, HoldAll.imp imp arguments holds.2⟩
  | cast _ inner, holds | index _ inner, holds | remark _ inner, holds =>
    ⟨imp _ holds.1, Holds.imp imp inner holds.2⟩
  | increment place, holds => ⟨holds.1, Holds.imp imp place holds.2⟩
  | declare _ _ value, holds => ⟨imp _ holds.1, imp _ holds.2.1, Holds.imp imp value holds.2.2⟩
  | steps list, holds => HoldAll.imp imp list holds
  | verbatim .., holds => holds.elim

theorem HoldAll.imp (imp : ∀ atom, ok atom → better atom) :
    ∀ list : List Expr, HoldAll ok list → HoldAll better list
  | [], _ => trivial
  | first :: rest, holds => ⟨Holds.imp imp first holds.1, HoldAll.imp imp rest holds.2⟩

end

end

theorem holdAll_append {ok : Atom → Prop} {list more : List Expr} :
    HoldAll ok (list ++ more) ↔ HoldAll ok list ∧ HoldAll ok more := by
  induction list with
  | nil => exact ⟨fun holds => ⟨trivial, holds⟩, And.right⟩
  | cons first rest ih => simp only [List.cons_append, HoldAll, ih, and_assoc]

theorem holds_operand {e : Expr} {ok : Atom → Prop} (context : Level) (holds : e.Holds ok) :
    (e.operand context).Holds ok := by
  unfold Expr.operand
  split
  · exact holds
  · exact holds

theorem holds_rightOperand {e : Expr} {ok : Atom → Prop} (context : Level) (holds : e.Holds ok) :
    (e.rightOperand context).Holds ok := by
  unfold Expr.rightOperand
  split
  · exact holds
  · exact holds

def typeTokens (type : String) : List Token :=
  if type = "void*" then [.word ['v', 'o', 'i', 'd'], .mark ['*']] else [.word type.toList]

mutual

def tokens : Expr → List Token
  | number digits => numberTokens digits.toList
  | quoted _ => [.string]
  | truth true => [.word ['t', 'r', 'u', 'e']]
  | truth false => [.word ['f', 'a', 'l', 's', 'e']]
  | nul => [.character]
  | name text => [.word text.toList]
  | member object field => [.word object.toList, .mark ['-', '>'], .word field.toList]
  | unary op operand => .mark op.symbol.toList :: operand.tokens
  | binary op left right => left.tokens ++ .mark op.symbol.toList :: right.tokens
  | conditional test yes no => test.tokens ++ .mark ['?'] :: (yes.tokens ++ .mark [':'] :: no.tokens)
  | group inner => .mark ['('] :: (inner.tokens ++ [.mark [')']])
  | call function arguments => .call function.toList :: .mark ['('] :: (listTokens arguments ++ [.mark [')']])
  | cast type operand => .mark ['('] :: (typeTokens type ++ .mark [')'] :: operand.tokens)
  | index array position => .word array.toList :: .mark ['['] :: (position.tokens ++ [.mark [']']])
  | assign op place value => place.tokens ++ .mark op.symbol.toList :: value.tokens
  | increment place => place.tokens ++ [.mark ['+', '+']]
  | sequence first second => first.tokens ++ .mark [','] :: second.tokens
  | declare type label value => typeTokens type ++ .word label.toList :: .mark ['='] :: value.tokens
  | steps list => .mark ['('] :: .mark ['{'] :: (stepTokens list ++ [.mark ['}'], .mark [')']])
  | remark _ inner => .comment :: inner.tokens
  | verbatim .. => []

def listTokens : List Expr → List Token
  | [] => []
  | [last] => last.tokens
  | first :: rest => first.tokens ++ .mark [','] :: listTokens rest

def stepTokens : List Expr → List Token
  | [] => []
  | first :: rest => first.tokens ++ .mark [';'] :: stepTokens rest

end

end Expr

def Atom.Spelled : Atom → Prop
  | number digits => isNumeral digits.toList = true
  | name text => isIdentifier text = true
  | member object field => isIdentifier object = true ∧ isIdentifier field = true
  | type text => isIdentifier text = true ∨ text = "void*"
  | call function => isIdentifier function = true
  | counter text => isIdentifier text = true
  | remark text => '*' ∉ text.toList ∧ '\n' ∉ text.toList ∧ '\r' ∉ text.toList

namespace Expr

/-- A text that starts with anything but an equals sign, so that `!` before it is an operator. -/
def StartsPlain (text : String) : Prop := ∃ c rest, text.toList = c :: rest ∧ c ≠ '='

theorem StartsPlain.append {a : String} (start : StartsPlain a) (b : String) : StartsPlain (a ++ b) := by
  obtain ⟨c, rest, letters, other⟩ := start
  exact ⟨c, rest ++ b.toList, by simp [letters], other⟩

private theorem startsPlain_identifier {text : String}
    (ok : isIdentifier text = true) : StartsPlain text := by
  obtain ⟨_, first, rest, letters, _, part⟩ := split ok
  refine ⟨first, rest, letters, ?_⟩
  intro same
  simp [same, isPart] at part

private theorem startsPlain_numeral {digits : String} (ok : isNumeral digits.toList = true) :
    StartsPlain digits := by
  simp only [isNumeral, Bool.and_eq_true] at ok
  have digit := ok.2
  unfold unsigned at digit
  split at digit
  · rename_i magnitude signed
    exact ⟨'-', magnitude, signed, by decide⟩
  · cases letters : digits.toList with
    | nil => simp [letters] at digit
    | cons c rest =>
      refine ⟨c, rest, letters, ?_⟩
      intro same
      simp [letters, same] at digit

private theorem startsPlain_type {type : String} (ok : Atom.Spelled (.type type)) : StartsPlain type := by
  rcases ok with identifier | pointer
  · exact startsPlain_identifier identifier
  · rw [pointer]
    exact ⟨'v', ['o', 'i', 'd', '*'], rfl, by decide⟩

theorem startsPlain : ∀ {e : Expr}, e.Holds Atom.Spelled → StartsPlain e.code
  | number _, spelled => startsPlain_numeral spelled
  | quoted contents, _ => ⟨'"', contents.toList.flatMap escape ++ ['"'], String.toList_ofList, by decide⟩
  | truth true, _ => ⟨'t', _, rfl, by decide⟩
  | truth false, _ => ⟨'f', _, rfl, by decide⟩
  | nul, _ => ⟨'\'', _, rfl, by decide⟩
  | name _, spelled => startsPlain_identifier spelled
  | member _ _, spelled => ((startsPlain_identifier spelled.1).append _).append _
  | unary op _, _ => by
    cases op
    · exact StartsPlain.append ⟨'!', [], rfl, by decide⟩ _
    · exact StartsPlain.append ⟨'~', [], rfl, by decide⟩ _
    · exact StartsPlain.append ⟨'&', [], rfl, by decide⟩ _
  | binary _ _ _, spelled => ((((startsPlain spelled.1).append _).append _).append _).append _
  | conditional _ _ _, spelled => ((((startsPlain spelled.1).append _).append _).append _).append _
  | group _, _ => (StartsPlain.append ⟨'(', [], rfl, by decide⟩ _).append _
  | call _ _, spelled => (((startsPlain_identifier spelled.1).append _).append _).append _
  | cast _ _, _ => ((StartsPlain.append ⟨'(', [], rfl, by decide⟩ _).append _).append _
  | index _ _, spelled => (((startsPlain_identifier spelled.1).append _).append _).append _
  | assign _ _ _, spelled => ((((startsPlain spelled.1).append _).append _).append _).append _
  | increment _, spelled => (startsPlain spelled.2).append _
  | sequence _ _, spelled => ((startsPlain spelled.1).append _).append _
  | declare _ _ _, spelled => ((((startsPlain_type spelled.1).append _).append _).append _).append _
  | steps _, _ => (StartsPlain.append ⟨'(', _, rfl, by decide⟩ _).append _
  | remark _ _, _ => ((StartsPlain.append ⟨'/', _, rfl, by decide⟩ _).append _).append _
  | verbatim .., spelled => spelled.elim

private theorem run_place {place : Expr} (isPlace : place.isPlace = true)
    (spelled : place.Holds Atom.Spelled) {c : Char} (notPart : isPart c = false)
    (noCall : c ≠ '(') (rest : List Char) : run .code (place.code.toList ++ c :: rest) =
      found place.tokens (run .code (c :: rest)) := by
  cases place with
  | name text =>
    have scanned := run_name spelled notPart rest
    simpa [finishedWord, noCall, code, tokens] using scanned
  | member object field => exact run_member spelled.1 spelled.2 notPart noCall rest
  | _ => exact absurd isPlace Bool.false_ne_true

private theorem reads_not {text : String} {expected : List Token} (start : StartsPlain text)
    (reads : Reads text expected) : Reads ("!" ++ text) (.mark ['!'] :: expected) := by
  intro c isBreak rest
  obtain ⟨first, more, letters, other⟩ := start
  have opened (cs : List Char) : run .code ('!' :: cs) = run (.operator ['!']) cs := rfl
  have ends : joinsOperator ['!'] first = false := by simp [joinsOperator, longOperators, other]
  have scanned := reads c isBreak rest
  rw [letters] at scanned
  have split : ("!" ++ text).toList ++ c :: rest = '!' :: first :: (more ++ c :: rest) := by simp [letters]
  rw [split, opened, run_operator_ends ends (fun slash => absurd slash (by decide)),
    ← List.cons_append, scanned, found_found]
  rfl

private theorem reads_address {place : Expr} (isPlace : place.isPlace = true)
    (spelled : place.Holds Atom.Spelled) : Reads ("&" ++ place.code) (.mark ['&'] :: place.tokens) := by
  intro c isBreak rest
  obtain ⟨notPart, _, _, noCall⟩ := breaks_plain c isBreak
  have scanned := run_place isPlace spelled notPart noCall rest
  have opened (cs : List Char) : run .code ('&' :: cs) = run (.operator ['&']) cs := rfl
  have starts : ∃ first more, place.code.toList = first :: more ∧
      isPart first = true := by
    cases place with
    | name text =>
      obtain ⟨_, first, more, letters, _, part⟩ := split spelled
      exact ⟨first, more, letters, part⟩
    | member object field =>
      obtain ⟨_, first, more, letters, _, part⟩ := split spelled.1
      exact ⟨first, more ++ "->".toList ++ field.toList, by simp [code, letters], part⟩
    | _ => exact absurd isPlace Bool.false_ne_true
  obtain ⟨first, more, letters, part⟩ := starts
  have split : ("&" ++ place.code).toList ++ c :: rest = '&' :: first :: (more ++ c :: rest) := by
    simp [letters]
  rw [letters] at scanned
  rw [split, opened, run_operator_part _ part, ← List.cons_append, scanned, found_found]
  rfl

theorem reads_increment {e : Expr} (isPlace : e.isPlace = true) (spelled : e.Holds Atom.Spelled) :
    Reads (e.code ++ "++") (e.tokens ++ [.mark ['+', '+']]) := by
  intro c isBreak rest
  have opened (cs : List Char) : run .code ('+' :: '+' :: cs) = run (.operator ['+', '+']) cs := rfl
  have ends : ∀ d ∈ breaks, joinsOperator ['+', '+'] d = false := by
    simp [breaks, joinsOperator, longOperators]
  have split : (e.code ++ "++").toList ++ c :: rest = e.code.toList ++ '+' :: '+' :: c :: rest := by simp
  rw [split, run_place isPlace spelled (by decide) (by decide), opened,
    run_operator_ends (ends c isBreak) (fun slash => absurd slash (by decide)), found_found]
  rfl

private theorem closes_symbol (op : BinaryOp) :
    Closes (" " ++ op.symbol ++ " ") [.mark op.symbol.toList] := by
  cases op <;> decide

private theorem closes_assignSymbol (op : AssignOp) :
    Closes (" " ++ op.symbol ++ " ") [.mark op.symbol.toList] := by
  cases op <;> decide

theorem reads_type {type : String} (spelled : Atom.Spelled (.type type)) : Reads type (typeTokens type) := by
  unfold typeTokens
  split
  · rename_i pointer
    rw [pointer]
    intro c isBreak rest
    have ends : ∀ d ∈ breaks, joinsOperator ['*'] d = false := by simp [breaks, joinsOperator, longOperators]
    have opened : run .code ("void*".toList ++ c :: rest) =
        found [.word ['v', 'o', 'i', 'd']] (run (.operator ['*']) (c :: rest)) := rfl
    rw [opened, run_operator_ends (ends c isBreak) (fun slash => absurd slash (by decide)),
      found_found]
    rfl
  · rename_i other
    exact .name (spelled.resolve_right other)

private theorem reads_joined {a b between : String} {first second marks : List Token}
    (left : Reads a first) (broken : StartsWithBreak between) (middle : Closes between marks)
    (right : Reads b second) : Reads (a ++ between ++ b) (first ++ marks ++ second) :=
  (left.append_closes broken middle).append_reads right

private theorem reads_infixed {a b symbol : String} {first second : List Token} {mark : Token}
    (left : Reads a first) (between : Closes (" " ++ symbol ++ " ") [mark])
    (right : Reads b second) : Reads (a ++ " " ++ symbol ++ " " ++ b) (first ++ mark :: second) := by
  have broken : StartsWithBreak (" " ++ symbol ++ " ") := ⟨' ', by decide, by simp⟩
  have joined := reads_joined left broken between right
  simpa [String.append_assoc] using joined

private theorem closes_open : Closes "(" [.mark ['(']] := by decide

private theorem closes_close : Closes ")" [.mark [')']] := by decide

private theorem startsWithBreak_close : StartsWithBreak ")" := ⟨')', by decide, rfl⟩

private theorem closes_comma : Closes ", " [.mark [',']] := by decide

private theorem startsWithBreak_comma : StartsWithBreak ", " := ⟨',', by decide, rfl⟩

private theorem closes_bracketed {a b closing : String} {first second : List Token} {mark : Token}
    (opened : Closes a first) (inside : Reads b second) (broken : StartsWithBreak closing)
    (closed : Closes closing [mark]) : Closes (a ++ b ++ closing) (first ++ (second ++ [mark])) := by
  rw [← List.append_assoc]
  exact (opened.append_reads inside).append_closes broken closed

mutual

theorem reads : ∀ (e : Expr), e.Holds Atom.Spelled → Reads e.code e.tokens
  | number _, spelled => .number spelled
  | quoted contents, _ => (Closes.quoted contents).reads
  | truth true, _ => .name (by decide)
  | truth false, _ => .name (by decide)
  | nul, _ => Closes.reads (by decide)
  | name _, spelled => .name spelled
  | member _ _, spelled => by
    intro c isBreak rest
    obtain ⟨notPart, _, _, noCall⟩ := breaks_plain c isBreak
    exact run_member spelled.1 spelled.2 notPart noCall rest
  | unary .not operand, spelled => reads_not (startsPlain spelled.2) (reads operand spelled.2)
  | unary .complement operand, spelled => by
    have opened : Closes "~" [.mark ['~']] := by decide
    exact opened.append_reads (reads operand spelled.2)
  | unary .address _, spelled => reads_address (spelled.1 rfl) spelled.2
  | binary op left right, spelled =>
    reads_infixed (reads left spelled.1) (closes_symbol op) (reads right spelled.2)
  | conditional test yes no, spelled => by
    have colon : Closes (" " ++ ":" ++ " ") [.mark [':']] := by decide
    have question : Closes (" " ++ "?" ++ " ") [.mark ['?']] := by decide
    have chosen := reads_infixed (reads yes spelled.2.1) colon (reads no spelled.2.2)
    have whole := reads_infixed (reads test spelled.1) question chosen
    simpa [code, tokens, String.append_assoc] using whole
  | group inner, spelled =>
    (closes_bracketed closes_open (reads inner spelled) startsWithBreak_close closes_close).reads
  | call _ arguments, spelled =>
    (closes_bracketed (Closes.name_parenthesis spelled.1) (reads_list arguments spelled.2)
      startsWithBreak_close closes_close).reads
  | cast _ operand, spelled => by
    have opened := closes_bracketed closes_open (reads_type spelled.1) startsWithBreak_close closes_close
    have whole := opened.append_reads (reads operand spelled.2)
    simpa [code, tokens] using whole
  | index _ position, spelled =>
    (closes_bracketed (Closes.name_bracket spelled.1) (reads position spelled.2)
      ⟨']', by decide, rfl⟩ (by decide)).reads
  | assign op place value, spelled =>
    reads_infixed (reads place spelled.1) (closes_assignSymbol op) (reads value spelled.2)
  | increment _, spelled => reads_increment spelled.1 spelled.2
  | sequence first second, spelled => by
    have joined := reads_joined (reads first spelled.1) startsWithBreak_comma closes_comma
      (reads second spelled.2)
    simpa [code, tokens] using joined
  | declare _ _ value, spelled => by
    have blank : Closes " " [] := by decide
    have equals : Closes (" " ++ "=" ++ " ") [.mark ['=']] := by decide
    have labelled := reads_joined (reads_type spelled.1) ⟨' ', by decide, rfl⟩ blank
      (.name spelled.2.1)
    have whole := reads_infixed labelled equals (reads value spelled.2.2)
    simpa [code, tokens, String.append_assoc] using whole
  | steps list, spelled => by
    have opening : Closes "(\x7b " [.mark ['('], .mark ['{']] := by decide
    have closing : Closes "\x7d)" [.mark ['}'], .mark [')']] := by decide
    have whole := (opening.append (closes_steps list spelled)).append closing
    simpa [code, tokens] using whole.reads
  | remark _ inner, spelled => (Closes.remark spelled.1.1).append_reads (reads inner spelled.2)
  | verbatim .., spelled => spelled.elim

theorem reads_list : ∀ (list : List Expr), HoldAll Atom.Spelled list → Reads (listed list) (listTokens list)
  | [], _ => Closes.reads rfl
  | [last], spelled => reads last spelled.1
  | first :: second :: rest, spelled => by
    have joined := reads_joined (reads first spelled.1) startsWithBreak_comma closes_comma
      (reads_list (second :: rest) spelled.2)
    simpa [listed, listTokens] using joined

theorem closes_steps : ∀ (list : List Expr), HoldAll Atom.Spelled list →
    Closes (stepped list) (stepTokens list)
  | [], _ => rfl
  | first :: rest, spelled => by
    have semicolon : Closes "; " [.mark [';']] := by decide
    have ended := (reads first spelled.1).append_closes ⟨';', by decide, rfl⟩ semicolon
    have whole := ended.append (closes_steps rest spelled.2)
    simpa [stepped, stepTokens] using whole

end

theorem nest_typeTokens (opened : List Char) (type : String) (rest : List Token) :
    nest opened (typeTokens type ++ rest) = nest opened rest := by
  unfold typeTokens
  split <;> simp [nest, isOpener, opener?]

private theorem nest_numberTokens (opened : List Char) (digits : List Char) (rest : List Token) :
    nest opened (numberTokens digits ++ rest) = nest opened rest := by
  unfold numberTokens
  split <;> simp [nest, isOpener, opener?]

private theorem nest_binary (opened : List Char) (op : BinaryOp) (rest : List Token) :
    nest opened (.mark op.symbol.toList :: rest) = nest opened rest := by
  cases op <;> rfl

private theorem nest_assign (opened : List Char) (op : AssignOp) (rest : List Token) :
    nest opened (.mark op.symbol.toList :: rest) = nest opened rest := by
  cases op <;> rfl

private theorem nest_unary (opened : List Char) (op : UnaryOp) (rest : List Token) :
    nest opened (.mark op.symbol.toList :: rest) = nest opened rest := by
  cases op <;> rfl

mutual

theorem nest_tokens : ∀ (e : Expr) (opened : List Char) (rest : List Token),
    nest opened (e.tokens ++ rest) = nest opened rest
  | number digits, opened, rest => nest_numberTokens opened digits.toList rest
  | quoted _, _, _ | truth true, _, _ | truth false, _, _ | nul, _, _ | name _, _, _ => rfl
  | member .., opened, rest => by simp [tokens, nest]
  | unary op operand, opened, rest => by
    simp [tokens, nest_unary, nest_tokens operand]
  | binary op left right, opened, rest => by
    simp [tokens, nest_binary, nest_tokens left, nest_tokens right]
  | conditional test yes no, opened, rest => by
    simp [tokens, nest, isOpener, opener?, nest_tokens test, nest_tokens yes, nest_tokens no]
  | group inner, opened, rest => by
    simp [tokens, nest, isOpener, opener?, nest_tokens inner]
  | call _ arguments, opened, rest => by
    simp [tokens, nest, isOpener, opener?, nest_listTokens arguments]
  | cast type operand, opened, rest => by
    simp [tokens, nest, isOpener, opener?, nest_typeTokens, nest_tokens operand]
  | index _ position, opened, rest => by
    simp [tokens, nest, isOpener, opener?, nest_tokens position]
  | assign op place value, opened, rest => by
    simp [tokens, nest_assign, nest_tokens place, nest_tokens value]
  | increment place, opened, rest => by
    simp [tokens, nest, nest_tokens place]
  | sequence first second, opened, rest => by
    simp [tokens, nest, isOpener, opener?, nest_tokens first, nest_tokens second]
  | declare type _ value, opened, rest => by
    simp [tokens, nest, isOpener, opener?, nest_typeTokens, nest_tokens value]
  | steps list, opened, rest => by
    simp [tokens, nest, isOpener, opener?, nest_stepTokens list]
  | remark _ inner, opened, rest => by
    simp [tokens, nest, nest_tokens inner]
  | verbatim .., _, _ => rfl

theorem nest_listTokens : ∀ (list : List Expr) (opened : List Char) (rest : List Token),
    nest opened (listTokens list ++ rest) = nest opened rest
  | [], _, _ => rfl
  | [last], opened, rest => nest_tokens last opened rest
  | first :: second :: more, opened, rest => by
    simp [listTokens, nest, isOpener, opener?, nest_tokens first, nest_listTokens (second :: more)]

theorem nest_stepTokens : ∀ (list : List Expr) (opened : List Char) (rest : List Token),
    nest opened (stepTokens list ++ rest) = nest opened rest
  | [], _, _ => rfl
  | first :: more, opened, rest => by
    simp [stepTokens, nest, isOpener, opener?, nest_tokens first, nest_stepTokens more]

end

end Expr

end FlipperBlocks.C
