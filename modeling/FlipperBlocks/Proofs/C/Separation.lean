import FlipperBlocks.Proofs.C.Spelling

/-! Where an expression ends in a text.

An expression in parentheses ends where they close, since its own brackets are closed in it. One that is
followed by a colon ends there, since each colon of its own answers a question mark. -/
namespace FlipperBlocks.C

open Scan

private theorem eq_of_marked {α : Type} {mark : α} {a b first second : List α}
    (notLonger : ∀ more, a ≠ b ++ mark :: more) (notShorter : ∀ more, b ≠ a ++ mark :: more)
    (same : a ++ mark :: first = b ++ mark :: second) : a = b ∧ first = second := by
  rcases List.append_eq_append_iff.1 same with ⟨more, longer, rest⟩ | ⟨more, longer, rest⟩
  · cases more with
    | nil => exact ⟨by rw [longer, List.append_nil], (List.cons.inj rest).2⟩
    | cons token more =>
      rw [(List.cons.inj rest).1] at notShorter
      exact absurd longer (notShorter more)
  · cases more with
    | nil => exact ⟨by rw [longer, List.append_nil], (List.cons.inj rest).2.symm⟩
    | cons token more =>
      rw [(List.cons.inj rest).1] at notLonger
      exact absurd longer (notLonger more)

/-! Parentheses. -/

private theorem not_closed (a b : Expr) (more : List Token) : a.tokens ≠ b.tokens ++ .mark [')'] :: more := by
  intro longer
  have closed := a.nest_tokens [] []
  rw [longer, List.append_assoc, b.nest_tokens] at closed
  contradiction

theorem Expr.eq_of_closed {a b : Expr} {first second : List Token}
    (same : a.tokens ++ .mark [')'] :: first = b.tokens ++ .mark [')'] :: second) :
    a.tokens = b.tokens ∧ first = second :=
  eq_of_marked (not_closed a b) (not_closed b a) same

/-! Colons. -/

/-- The number of question marks without an answer after some tokens, given that before them. There is
none if a colon answers no question mark. -/
def asked : Nat → List Token → Option Nat
  | questions, [] => some questions
  | questions, .mark ['?'] :: rest => asked (questions + 1) rest
  | 0, .mark [':'] :: _ => none
  | questions + 1, .mark [':'] :: rest => asked questions rest
  | questions, _ :: rest => asked questions rest

namespace Expr

variable (questions : Nat) (rest : List Token)

private theorem asked_numberTokens (digits : List Char) :
    asked questions (numberTokens digits ++ rest) = asked questions rest := by
  unfold numberTokens
  split <;> cases questions <;> rfl

private theorem asked_typeTokens (type : String) :
    asked questions (typeTokens type ++ rest) = asked questions rest := by
  unfold typeTokens
  split <;> cases questions <;> rfl

private theorem asked_unary (op : UnaryOp) :
    asked questions (.mark op.symbol.toList :: rest) = asked questions rest := by
  cases op <;> cases questions <;> rfl

private theorem asked_binary (op : BinaryOp) :
    asked questions (.mark op.symbol.toList :: rest) = asked questions rest := by
  cases op <;> cases questions <;> rfl

private theorem asked_assign (op : AssignOp) :
    asked questions (.mark op.symbol.toList :: rest) = asked questions rest := by
  cases op <;> cases questions <;> rfl

mutual

theorem asked_tokens : ∀ (e : Expr) (questions : Nat) (rest : List Token),
    asked questions (e.tokens ++ rest) = asked questions rest
  | number digits, questions, rest => asked_numberTokens questions rest digits.toList
  | quoted _, _, _ | truth true, _, _ | truth false, _, _ | nul, _, _ | name _, _, _ => by
    simp [tokens, asked]
  | member .., _, _ => by simp [tokens, asked]
  | unary op operand, _, _ => by simp [tokens, asked_unary, asked_tokens operand]
  | binary op left right, _, _ => by
    simp [tokens, asked_binary, asked_tokens left, asked_tokens right]
  | conditional test yes no, _, _ => by
    simp [tokens, asked, asked_tokens test, asked_tokens yes, asked_tokens no]
  | group inner, _, _ => by simp [tokens, asked, asked_tokens inner]
  | call _ arguments, _, _ => by simp [tokens, asked, asked_listTokens arguments]
  | cast type operand, _, _ => by simp [tokens, asked, asked_typeTokens, asked_tokens operand]
  | index _ position, _, _ => by simp [tokens, asked, asked_tokens position]
  | assign op place value, _, _ => by
    simp [tokens, asked_assign, asked_tokens place, asked_tokens value]
  | increment place, _, _ => by simp [tokens, asked, asked_tokens place]
  | sequence first second, _, _ => by
    simp [tokens, asked, asked_tokens first, asked_tokens second]
  | declare type _ value, _, _ => by
    simp [tokens, asked, asked_typeTokens, asked_tokens value]
  | steps list, _, _ => by simp [tokens, asked, asked_stepTokens list]
  | remark _ inner, _, _ => by simp [tokens, asked, asked_tokens inner]
  | verbatim .., _, _ => rfl

private theorem asked_listTokens : ∀ (list : List Expr) (questions : Nat) (rest : List Token),
    asked questions (listTokens list ++ rest) = asked questions rest
  | [], _, _ => rfl
  | [last], questions, rest => asked_tokens last questions rest
  | first :: second :: more, _, _ => by
    simp [listTokens, asked, asked_tokens first, asked_listTokens (second :: more)]

private theorem asked_stepTokens : ∀ (list : List Expr) (questions : Nat) (rest : List Token),
    asked questions (stepTokens list ++ rest) = asked questions rest
  | [], _, _ => rfl
  | first :: more, _, _ => by
    simp [stepTokens, asked, asked_tokens first, asked_stepTokens more]

end

end Expr

private theorem step_colon {mode : Mode} (ends : (step mode ' ').2 = .code) :
    step mode ':' = (pending mode ++ [.mark [':']], .code) := by
  cases mode with
  | code => rfl
  | word read =>
    have joins : joinsWord read ':' = false := by simp [joinsWord, isSign, Identifier.isPart]
    simp [step, joins, after, finishedWord, pending, start, operatorStarts, Identifier.isPart, Text.isBlank]
  | operator read =>
    have joins : joinsOperator read ':' = false := by
      have other : ∀ op ∈ longOperators, op.getLast? ≠ some ':' := by decide
      rw [joinsOperator, ← Bool.not_eq_true, List.contains_iff_mem]
      exact fun member => other _ member (by simp)
    simp [step, joins, after, pending, start, operatorStarts, Identifier.isPart, Text.isBlank]
  | _ => exact absurd ends (by decide)

private theorem Reads.tokens_colon {a : String} {first : List Token} (reads : Reads a first)
    (rest : List Char) : tokens (String.ofList (a.toList ++ ':' :: rest)) =
      first ++ .mark [':'] :: tokens (String.ofList rest) := by
  have whole : (run .code a.toList).1 ++ pending (run .code a.toList).2 = first := reads.tokens_eq
  have ends : (step (run .code a.toList).2 ' ').2 = .code := by
    have scanned := congrArg Prod.snd (reads ' ' (by decide) [])
    rw [run_append] at scanned
    exact scanned
  rw [tokens, tokens, String.toList_ofList, String.toList_ofList, run_append, run_cons,
    step_colon ends, ← whole]
  simp

private theorem not_colon {a b : Expr} (spelled : a.Holds Atom.Spelled)
    (shorter : b.Holds Atom.Spelled) (more : List Char) : a.code.toList ≠ b.code.toList ++ ':' :: more := by
  intro longer
  have scanned := (b.reads shorter).tokens_colon more
  rw [← longer, String.ofList_toList, (a.reads spelled).tokens_eq] at scanned
  have answered := a.asked_tokens 0 []
  rw [List.append_nil, scanned, b.asked_tokens] at answered
  contradiction

theorem Expr.eq_of_colon {a b : Expr} (first : a.Holds Atom.Spelled) (second : b.Holds Atom.Spelled)
    {rest more : String} (same : a.code ++ ":" ++ rest = b.code ++ ":" ++ more) :
    a.code = b.code ∧ rest = more := by
  have letters := congrArg String.toList same
  simp only [String.toList_append, List.append_assoc] at letters
  obtain ⟨codes, rests⟩ := eq_of_marked (not_colon first second) (not_colon second first) letters
  exact ⟨String.toList_inj.1 codes, String.toList_inj.1 rests⟩

end FlipperBlocks.C
