import FlipperBlocks.Proofs.C.Spelling

/-! The grammar of C's operators, and that it gives every text at most one reading.

Phrases are graded as in the language's definition: primary expressions, selections of members, unary
expressions, and a grade of binary expressions for each row of operators, from products to
disjunctions. A left operand may be of the operator's own grade and a right operand is of a tighter
one. A parser with a stack of operators that wait for their right operand finds every derivation,
so there is no more than one. -/
namespace FlipperBlocks.C

inductive Tree where
  | word (text : List Char)
  | member (object : Tree) (field : List Char)
  | unary (op : List Char) (operand : Tree)
  | binary (op : List Char) (left right : Tree)

inductive Phrase where
  | primary
  | selection
  | unary
  /-- A binary expression with operators of this grade at the most; without any at grade zero. -/
  | binary (grade : Nat)
  deriving DecidableEq

namespace Grammar

def unaryOperators : List (List Char) := [['&'], ['*'], ['+'], ['-'], ['~'], ['!']]

def grade? : List Char → Option Nat
  | ['*'] | ['/'] | ['%'] => some 1
  | ['+'] | ['-'] => some 2
  | ['<', '<'] | ['>', '>'] => some 3
  | ['<'] | ['>'] | ['<', '='] | ['>', '='] => some 4
  | ['=', '='] | ['!', '='] => some 5
  | ['&'] => some 6
  | ['^'] => some 7
  | ['|'] => some 8
  | ['&', '&'] => some 9
  | ['|', '|'] => some 10
  | _ => none

def loosest : Nat := 10

/-- Tokens that make a phrase, with its tree. -/
inductive Derives : Phrase → List Token → Tree → Prop
  | word (text : List Char) : Derives .primary [.word text] (.word text)
  | parentheses {tokens tree} : Derives (.binary loosest) tokens tree →
    Derives .primary (.mark ['('] :: (tokens ++ [.mark [')']])) tree
  | primary {tokens tree} : Derives .primary tokens tree → Derives .selection tokens tree
  | member {tokens tree} (field : List Char) : Derives .selection tokens tree →
    Derives .selection (tokens ++ [.mark ['-', '>'], .word field]) (.member tree field)
  | selection {tokens tree} : Derives .selection tokens tree → Derives .unary tokens tree
  | operator {op tokens tree} : op ∈ unaryOperators → Derives .unary tokens tree →
    Derives .unary (.mark op :: tokens) (.unary op tree)
  | unary {tokens tree} : Derives .unary tokens tree → Derives (.binary 0) tokens tree
  | tighter {grade tokens tree} : Derives (.binary grade) tokens tree →
    Derives (.binary (grade + 1)) tokens tree
  | binary {op grade before after left right} : grade? op = some (grade + 1) →
    Derives (.binary (grade + 1)) before left → Derives (.binary grade) after right →
    Derives (.binary (grade + 1)) (before ++ .mark op :: after) (.binary op left right)

inductive Frame where
  | parenthesis
  | unary (op : List Char)
  | binary (left : Tree) (op : List Char)

def within (grade : Nat) (op : List Char) : Bool := (grade? op).any (· ≤ grade)

/-- An operand joined with the waiting operators that bind at least as tightly as those of the
grade. -/
def settle (grade : Nat) : Tree → List Frame → Tree × List Frame
  | tree, .unary op :: frames => settle grade (.unary op tree) frames
  | tree, .binary left op :: frames =>
    if within grade op then settle grade (.binary op left tree) frames
    else (tree, .binary left op :: frames)
  | tree, frames => (tree, frames)

/-- Reads tokens with operators waiting, after an operand or before one. -/
def read : Option Tree → List Frame → List Token → Option Tree
  | none, frames, .word text :: rest => read (some (.word text)) frames rest
  | none, frames, .mark op :: rest =>
    if op = ['('] then read none (.parenthesis :: frames) rest
    else if op ∈ unaryOperators then read none (.unary op :: frames) rest
    else none
  | some tree, frames, .mark ['-', '>'] :: .word field :: rest => read (some (.member tree field)) frames rest
  | some tree, frames, .mark op :: rest =>
    if op = [')'] then
      match settle loosest tree frames with
      | (inner, .parenthesis :: outer) => read (some inner) outer rest
      | _ => none
    else
      match grade? op with
      | some grade =>
        match settle grade tree frames with
        | (left, waiting) => read none (.binary left op :: waiting) rest
      | none => none
  | some tree, frames, [] =>
    match settle loosest tree frames with
    | (whole, []) => some whole
    | _ => none
  | _, _, _ => none

def parse (tokens : List Token) : Option Tree := read none [] tokens

theorem grade?_le {op : List Char} {grade : Nat} (graded : grade? op = some grade) : grade ≤ loosest := by
  unfold grade? at graded
  split at graded
  all_goals first
    | contradiction
    | (injection graded with same; rw [← same]; decide)

private def Clear (grade : Nat) : List Frame → Prop
  | .unary _ :: _ => False
  | .binary _ op :: _ => within grade op = false
  | _ => True

private def Ends (grade : Nat) : List Token → Prop
  | .mark op :: _ => op ≠ ['-', '>'] ∧ ∀ other, grade? op = some other → grade ≤ other
  | _ => True

private theorem settle_clear {grade : Nat} {frames : List Frame} (clear : Clear grade frames)
    (tree : Tree) : settle grade tree frames = (tree, frames) := by
  unfold Clear at clear
  split at clear
  · exact clear.elim
  · rw [settle, clear]
    rfl
  · rename_i noUnary noBinary
    unfold settle
    split
    · exact absurd rfl (noUnary _ _)
    · exact absurd rfl (noBinary _ _ _)
    · rfl

private theorem within_mono {grade more : Nat} {op : List Char} (le : grade ≤ more)
    (outside : within more op = false) : within grade op = false := by
  unfold within at outside ⊢
  cases graded : grade? op with
  | none => rfl
  | some other =>
    rw [graded] at outside
    simp only [Option.any_some, decide_eq_false_iff_not] at outside ⊢
    omega

private theorem clear_mono {grade more : Nat} {frames : List Frame} (le : grade ≤ more)
    (clear : Clear more frames) : Clear grade frames := by
  unfold Clear at clear ⊢
  split at clear
  · exact clear.elim
  · exact within_mono le clear
  · trivial

private theorem ends_mono {grade more : Nat} {rest : List Token} (le : grade ≤ more)
    (ends : Ends more rest) : Ends grade rest := by
  unfold Ends at ends ⊢
  split at ends
  · exact ⟨ends.1, fun other graded => Nat.le_trans le (ends.2 other graded)⟩
  · trivial

private theorem read_operator {op : List Char} (noArrow : op ≠ ['-', '>']) (tree : Tree)
    (frames : List Frame) (rest : List Token) : read (some tree) frames (.mark op :: rest) =
      if op = [')'] then match settle loosest tree frames with
        | (inner, .parenthesis :: outer) => read (some inner) outer rest
        | _ => none
      else
        match grade? op with
        | some grade =>
          read none (.binary (settle grade tree frames).1 op :: (settle grade tree frames).2) rest
        | none => none := by
  rw [read.eq_def]
  split
  all_goals simp_all

/-- If whatever may follow joins an operand with what waits in front of it, they may as well be
joined before it is read. -/
private theorem read_joined {tree joined : Tree} {frames outer : List Frame} {grade : Nat}
    {rest : List Token} (ends : Ends grade rest) (le : grade ≤ loosest)
    (joins : ∀ limit, grade ≤ limit → settle limit tree frames = settle limit joined outer) :
    read (some tree) frames rest = read (some joined) outer rest := by
  cases rest with
  | nil => simp only [read, joins loosest le]
  | cons token rest =>
    cases token with
    | mark op =>
      rw [read_operator ends.1, read_operator ends.1, joins loosest le]
      cases graded : grade? op with
      | none => rfl
      | some limit => simp only [joins limit (ends.2 limit graded)]
    | _ => rfl

private def Fits : Phrase → List Frame → List Token → Prop
  | .primary, _, _ | .selection, _, _ => True
  | .unary, _, rest => Ends 0 rest
  | .binary grade, frames, rest => Clear grade frames ∧ Ends grade rest

private theorem within_of_grade {op : List Char} {grade limit : Nat}
    (graded : grade? op = some grade) (le : grade ≤ limit) : within limit op = true := by
  simp [within, graded, le]

private theorem read_derives {phrase : Phrase} {tokens : List Token} {tree : Tree}
    (derives : Derives phrase tokens tree) (frames : List Frame) (rest : List Token)
    (fits : Fits phrase frames rest) : read none frames (tokens ++ rest) = read (some tree) frames rest := by
  induction derives generalizing frames rest with
  | word text => rfl
  | @parentheses tokens tree inner ih =>
    have inside := ih (.parenthesis :: frames) (.mark [')'] :: rest)
      ⟨trivial, by decide, fun other graded => by contradiction⟩
    have opened : read none frames (.mark ['('] :: (tokens ++ [.mark [')']]) ++ rest) =
        read none (.parenthesis :: frames) (tokens ++ .mark [')'] :: rest) := by
      simp [read]
    rw [opened, inside, read_operator (by decide)]
    rfl
  | primary inner ih => exact ih frames rest trivial
  | member field inner ih =>
    rw [List.append_assoc, ih frames _ trivial]
    rfl
  | selection inner ih => exact ih frames rest trivial
  | @operator op tokens tree isUnary inner ih =>
    have noParenthesis : op ≠ ['('] := by
      intro same
      rw [same] at isUnary
      contradiction
    have opened : read none frames (.mark op :: tokens ++ rest) =
        read none (.unary op :: frames) (tokens ++ rest) := by
      simp [read, noParenthesis, isUnary]
    rw [opened, ih (.unary op :: frames) rest fits]
    exact read_joined fits (Nat.zero_le _) fun limit _ => by rw [settle]
  | unary inner ih => exact ih frames rest fits.2
  | tighter inner ih =>
    exact ih frames rest ⟨clear_mono (Nat.le_succ _) fits.1, ends_mono (Nat.le_succ _) fits.2⟩
  | @binary op grade before after left right graded first second ihFirst ihSecond =>
    have noArrow : op ≠ ['-', '>'] := by
      intro same
      rw [same] at graded
      contradiction
    have noParenthesis : op ≠ [')'] := by
      intro same
      rw [same] at graded
      contradiction
    have endsFirst : Ends (grade + 1) (.mark op :: (after ++ rest)) := by
      refine ⟨noArrow, fun other again => ?_⟩
      rw [graded] at again
      injection again with same
      omega
    have waiting : Clear grade (.binary left op :: frames) := by
      change within grade op = false
      simp [within, graded]
    -- Nothing that waits takes the left operand away, and the operator then waits for the right one.
    rw [List.append_assoc, List.cons_append, ihFirst frames _ ⟨fits.1, endsFirst⟩,
      read_operator noArrow, if_neg noParenthesis, graded]
    simp only [settle_clear fits.1]
    rw [ihSecond (.binary left op :: frames) rest ⟨waiting, ends_mono (Nat.le_succ _) fits.2⟩]
    refine read_joined fits.2 (grade?_le graded) fun limit le => ?_
    rw [settle, if_pos (within_of_grade graded le)]

theorem parse_derives {tokens : List Token} {tree : Tree}
    (derives : Derives (.binary loosest) tokens tree) : parse tokens = some tree := by
  have whole := read_derives derives [] [] ⟨trivial, trivial⟩
  rw [List.append_nil] at whole
  exact whole

/-- No tokens derive two trees. -/
theorem derives_unique {tokens : List Token} {tree other : Tree}
    (derives : Derives (.binary loosest) tokens tree)
    (again : Derives (.binary loosest) tokens other) : other = tree := by
  have first := parse_derives derives
  rw [parse_derives again] at first
  injection first

theorem Derives.loosen {grade more : Nat} {tokens : List Token} {tree : Tree}
    (derives : Derives (.binary grade) tokens tree) (le : grade ≤ more) :
    Derives (.binary more) tokens tree := by
  induction le with
  | refl => exact derives
  | step _ ih => exact ih.tighter

end Grammar

def Parses (text : String) (tree : Tree) : Prop :=
  Grammar.Derives (.binary Grammar.loosest) (tokens text) tree ∧
    ∀ other, Grammar.Derives (.binary Grammar.loosest) (tokens text) other → other = tree

theorem Parses.of_derives {text : String} {tree : Tree}
    (derives : Grammar.Derives (.binary Grammar.loosest) (tokens text) tree) : Parses text tree :=
  ⟨derives, fun _ again => Grammar.derives_unique derives again⟩

end FlipperBlocks.C
