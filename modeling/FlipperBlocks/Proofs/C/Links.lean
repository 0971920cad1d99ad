import FlipperBlocks.Proofs.C.Code
import FlipperBlocks.Proofs.C.Names

/-! The members that a text reaches through an object.

An arrow stands between the name of the object and the name of the member. In the code of a program it
is never anywhere else. -/
namespace FlipperBlocks.C

def arrow : Token := .mark ['-', '>']

/-- Every arrow stands between two words, and every member of the application is of a kind. -/
def Linked (ok : List Char → Prop) (tokens : List Token) : Prop :=
  ∀ before after, tokens = before ++ arrow :: after →
    ∃ front object field rest, before = front ++ [.word object] ∧ after = .word field :: rest ∧
      (object = ['a', 'p', 'p'] → ok field)

/-- Every arrow stands between two words, an object and a member that go together. -/
def LinkedBy (ok : List Char → List Char → Prop) (tokens : List Token) : Prop :=
  ∀ before after, tokens = before ++ arrow :: after →
    ∃ front object field rest, before = front ++ [.word object] ∧ after = .word field :: rest ∧
      ok object field

namespace LinkedBy

variable {ok : List Char → List Char → Prop} {a b : List Token} {token : Token}

theorem of_not_mem (none : arrow ∉ a) : LinkedBy ok a := by
  rintro before after rfl
  exact absurd (by simp) none

theorem append (first : LinkedBy ok a) (second : LinkedBy ok b) : LinkedBy ok (a ++ b) := by
  intro before after same
  rcases List.append_eq_append_iff.1 same with ⟨middle, rfl, inSecond⟩ | ⟨middle, inFirst, rest⟩
  · obtain ⟨front, object, field, rest, rfl, rfl, reached⟩ := second middle after inSecond
    exact ⟨a ++ front, object, field, rest, by simp, rfl, reached⟩
  · cases middle with
    | nil =>
      obtain ⟨front, object, field, rest, standing, _, _⟩ := second [] after rest.symm
      simp at standing
    | cons next more =>
      rw [List.cons_append, List.cons.injEq] at rest
      obtain ⟨rfl, rfl⟩ := rest
      obtain ⟨front, object, field, rest, rfl, rfl, reached⟩ := first before more inFirst
      exact ⟨front, object, field, rest ++ b, rfl, rfl, reached⟩

theorem nil : LinkedBy ok [] := of_not_mem (by simp)

theorem imp {better : List Char → List Char → Prop} (linked : LinkedBy ok a)
    (imp : ∀ object field, ok object field → better object field) : LinkedBy better a := by
  intro before after same
  obtain ⟨front, object, field, rest, first, second, reached⟩ := linked before after same
  exact ⟨front, object, field, rest, first, second, imp object field reached⟩

theorem cons (other : token ≠ arrow) (rest : LinkedBy ok a) : LinkedBy ok (token :: a) := by
  have single : LinkedBy ok [token] := of_not_mem (by simpa using Ne.symm other)
  exact single.append rest

theorem word {text : List Char} (rest : LinkedBy ok a) : LinkedBy ok (.word text :: a) :=
  .cons (by simp [arrow]) rest

theorem call {name : List Char} (rest : LinkedBy ok a) : LinkedBy ok (.call name :: a) :=
  .cons (by simp [arrow]) rest

theorem mark {text : List Char} (other : text ≠ ['-', '>']) (rest : LinkedBy ok a) :
    LinkedBy ok (.mark text :: a) :=
  .cons (by simpa [arrow] using other) rest

theorem link {object field : List Char} (reached : ok object field) :
    LinkedBy ok [.word object, arrow, .word field] := by
  intro before after same
  rcases before with _ | ⟨first, _ | ⟨second, _ | ⟨third, more⟩⟩⟩
  · simp [arrow] at same
  · simp only [List.cons_append, List.nil_append, List.cons.injEq, true_and] at same
    obtain ⟨rfl, rfl⟩ := same
    exact ⟨[], object, field, [], rfl, rfl, reached⟩
  · simp [arrow] at same
  · simp at same

theorem object_of_infix (linked : LinkedBy ok a) {object : List Char}
    (reached : [.word object, arrow] <:+: a) : ∃ field, ok object field := by
  obtain ⟨before, after, rfl⟩ := reached
  obtain ⟨front, other, field, rest, standing, _, together⟩ :=
    linked (before ++ [.word object]) after (by simp)
  obtain ⟨_, same⟩ := List.append_inj' standing rfl
  simp only [List.cons.injEq, Token.word.injEq, and_true] at same
  exact ⟨field, same ▸ together⟩

end LinkedBy

namespace Linked

variable {ok : List Char → Prop} {a b : List Token}

theorem iff_linkedBy : Linked ok a ↔ LinkedBy (fun object field => object = ['a', 'p', 'p'] → ok field) a :=
  Iff.rfl

theorem of_not_mem (none : arrow ∉ a) : Linked ok a := iff_linkedBy.2 (.of_not_mem none)

theorem nil : Linked ok [] := iff_linkedBy.2 .nil

theorem append (first : Linked ok a) (second : Linked ok b) : Linked ok (a ++ b) :=
  iff_linkedBy.2 ((iff_linkedBy.1 first).append (iff_linkedBy.1 second))

theorem imp {better : List Char → Prop} (linked : Linked ok a)
    (imp : ∀ field, ok field → better field) : Linked better a :=
  iff_linkedBy.2 ((iff_linkedBy.1 linked).imp fun _ field reached app => imp field (reached app))

end Linked

def isLink (ok : List Char → Bool) : Token → Token → Bool
  | .word object, .word field => object != ['a', 'p', 'p'] || ok field
  | _, _ => false

def isLinked (ok : List Char → Bool) : List Token → Bool
  | [] => true
  | [a] => a != arrow
  | [a, b] => a != arrow && b != arrow
  | a :: b :: c :: rest =>
    if b = arrow then isLink ok a c && isLinked ok rest else a != arrow && isLinked ok (b :: c :: rest)

theorem linked_of_isLinked {ok : List Char → Bool} {tokens : List Token}
    (linked : isLinked ok tokens = true) : Linked (fun field => ok field = true) tokens := by
  rw [Linked.iff_linkedBy]
  fun_induction isLinked ok tokens with
  | case1 => exact .nil
  | case2 a => exact .cons (by simpa using linked) .nil
  | case3 a b =>
    rw [Bool.and_eq_true] at linked
    exact .cons (by simpa using linked.1) (.cons (by simpa using linked.2) .nil)
  | case4 a c rest ih =>
    rw [Bool.and_eq_true] at linked
    obtain ⟨pair, later⟩ := linked
    unfold isLink at pair
    split at pair
    · rename_i object field
      have reached : object = ['a', 'p', 'p'] → ok field = true := by
        intro same
        simpa [same] using pair
      exact (LinkedBy.link reached).append (ih later)
    · contradiction
  | case5 a b c rest other ih =>
    rw [Bool.and_eq_true] at linked
    exact .cons (by simpa using linked.1) (ih linked.2)

def Atom.links (allowed : Atom → Prop) (object field : List Char) : Prop :=
  allowed (.member (String.ofList object) (String.ofList field))

def Atom.reachable (allowed : Atom → Prop) (field : List Char) : Prop :=
  allowed (.member "app" (String.ofList field))

namespace Expr

variable {allowed : Atom → Prop} {ok : List Char → List Char → Prop}

private theorem unary_ne_arrow (op : UnaryOp) : op.symbol.toList ≠ ['-', '>'] := by cases op <;> decide

private theorem binary_ne_arrow (op : BinaryOp) : op.symbol.toList ≠ ['-', '>'] := by cases op <;> decide

private theorem assign_ne_arrow (op : AssignOp) : op.symbol.toList ≠ ['-', '>'] := by cases op <;> decide

private theorem linkedBy_number (digits : List Char) : LinkedBy ok (numberTokens digits) := by
  unfold numberTokens
  split
  · exact .mark (by decide) (.word .nil)
  · exact .word .nil

theorem linkedBy_type (type : String) : LinkedBy ok (typeTokens type) := by
  unfold typeTokens
  split
  · exact .word (.mark (by decide) .nil)
  · exact .word .nil

mutual

theorem linkedBy_tokens : ∀ e : Expr, e.Holds allowed → LinkedBy (Atom.links allowed) e.tokens
  | number _, _ => linkedBy_number _
  | quoted _, _ | nul, _ => .cons (by simp [arrow]) .nil
  | name _, _ => .word .nil
  | truth value, _ => by cases value <;> exact .word .nil
  | member object field, holds => by
    refine .link ?_
    rw [Atom.links, String.ofList_toList, String.ofList_toList]
    exact holds
  | unary op operand, holds => .mark (unary_ne_arrow op) (linkedBy_tokens operand holds.2)
  | binary op left right, holds =>
    (linkedBy_tokens left holds.1).append (.mark (binary_ne_arrow op) (linkedBy_tokens right holds.2))
  | conditional test yes no, holds =>
    (linkedBy_tokens test holds.1).append (.mark (by decide)
      ((linkedBy_tokens yes holds.2.1).append (.mark (by decide) (linkedBy_tokens no holds.2.2))))
  | group inner, holds => .mark (by decide) ((linkedBy_tokens inner holds).append (.mark (by decide) .nil))
  | call _ arguments, holds =>
    .call (.mark (by decide)
      ((linkedBy_listTokens arguments holds.2).append (.mark (by decide) .nil)))
  | cast type operand, holds =>
    .mark (by decide) ((linkedBy_type type).append (.mark (by decide) (linkedBy_tokens operand holds.2)))
  | index _ position, holds =>
    .word (.mark (by decide) ((linkedBy_tokens position holds.2).append (.mark (by decide) .nil)))
  | assign op place value, holds =>
    (linkedBy_tokens place holds.1).append (.mark (assign_ne_arrow op) (linkedBy_tokens value holds.2))
  | increment place, holds => (linkedBy_tokens place holds.2).append (.mark (by decide) .nil)
  | sequence first second, holds =>
    (linkedBy_tokens first holds.1).append (.mark (by decide) (linkedBy_tokens second holds.2))
  | declare type _ value, holds =>
    (linkedBy_type type).append (.word (.mark (by decide) (linkedBy_tokens value holds.2.2)))
  | steps list, holds =>
    .mark (by decide) (.mark (by decide)
      ((linkedBy_stepTokens list holds).append (.mark (by decide) (.mark (by decide) .nil))))
  | remark _ inner, holds => .cons (by simp [arrow]) (linkedBy_tokens inner holds.2)
  | verbatim .., holds => holds.elim

theorem linkedBy_listTokens : ∀ list : List Expr, HoldAll allowed list →
    LinkedBy (Atom.links allowed) (listTokens list)
  | [], _ => .nil
  | [last], holds => linkedBy_tokens last holds.1
  | first :: second :: rest, holds =>
    (linkedBy_tokens first holds.1).append
      (.mark (by decide) (linkedBy_listTokens (second :: rest) holds.2))

theorem linkedBy_stepTokens : ∀ list : List Expr, HoldAll allowed list →
    LinkedBy (Atom.links allowed) (stepTokens list)
  | [], _ => .nil
  | first :: rest, holds =>
    (linkedBy_tokens first holds.1).append (.mark (by decide) (linkedBy_stepTokens rest holds.2))

end

end Expr

namespace Line

variable {allowed : Atom → Prop}

private theorem linkedBy_test {test : Expr} (holds : test.Holds allowed) :
    LinkedBy (Atom.links allowed) (testTokens test) :=
  .mark (by decide) ((Expr.linkedBy_tokens test holds).append
    (.mark (by decide) (.mark (by decide) .nil)))

theorem linkedBy_tokens {line : Line} (holds : line.Holds allowed) :
    LinkedBy (Atom.links allowed) line.tokens := by
  cases line with
  | run action => exact (Expr.linkedBy_tokens action holds).append (.mark (by decide) .nil)
  | guarded test action =>
    exact .call (.mark (by decide) ((Expr.linkedBy_tokens test holds.1).append (.mark (by decide)
      ((Expr.linkedBy_tokens action holds.2).append (.mark (by decide) .nil)))))
  | reserve type name => exact (Expr.linkedBy_type type).append (.word (.mark (by decide) .nil))
  | comment | placeholder => exact .cons (by simp [arrow]) .nil
  | openBlock | close => exact .mark (by decide) .nil
  | openIf test => exact .call (linkedBy_test holds)
  | openBranch test => exact .word (linkedBy_test holds)
  | nextBranch test => exact .mark (by decide) (.word (.word (linkedBy_test holds)))
  | lastBranch => exact .mark (by decide) (.word (.mark (by decide) .nil))
  | openWhile test => exact .call (linkedBy_test holds)
  | openFor counter bound =>
    refine .call (.mark (by decide) (.word (.word (.mark (by decide) (.word (.mark (by decide)
      (.word (.mark (by decide) ((Expr.linkedBy_tokens bound holds.2).append ?_)))))))))
    exact .mark (by decide) (.word (.mark (by decide) (.mark (by decide) (.mark (by decide) .nil))))
  | verbatim _ => exact holds.elim

end Line

theorem Code.linkedBy_tokens {allowed : Atom → Prop} {code : Code} (holds : code.Holds allowed) :
    LinkedBy (Atom.links allowed) code.tokens := by
  induction code with
  | nil => exact .nil
  | cons placed rest ih =>
    obtain ⟨here, later⟩ := List.forall_mem_cons.1 holds
    exact (Line.linkedBy_tokens here).append (ih later)

theorem LinkedBy.linked {allowed : Atom → Prop} {tokens : List Token}
    (linked : LinkedBy (Atom.links allowed) tokens) : Linked (Atom.reachable allowed) tokens := by
  refine Linked.iff_linkedBy.2 (linked.imp ?_)
  rintro _ field reached rfl
  exact reached

theorem Line.linked_tokens {allowed : Atom → Prop} {line : Line} (holds : line.Holds allowed) :
    Linked (Atom.reachable allowed) line.tokens :=
  (Line.linkedBy_tokens holds).linked

theorem Code.linked_tokens {allowed : Atom → Prop} {code : Code} (holds : code.Holds allowed) :
    Linked (Atom.reachable allowed) code.tokens :=
  (Code.linkedBy_tokens holds).linked

/-! Texts without arrows. -/

/-- Characters that start no literal and no comment, and that no arrow has. -/
def isPlain (c : Char) : Bool := c != '-' && c != '/' && c != '"' && c != '\''

def Plain (text : String) : Prop := ∀ c ∈ text.toList, isPlain c = true

instance (text : String) : Decidable (Plain text) :=
  decidable_of_iff (text.toList.all isPlain = true) List.all_eq_true

namespace Plain

theorem append {a b : String} (first : Plain a) (second : Plain b) : Plain (a ++ b) := by
  unfold Plain
  rw [String.toList_append, List.forall_mem_append]
  exact ⟨first, second⟩

private theorem of_isPart {c : Char} (part : Identifier.isPart c = true) : isPlain c = true := by
  simp only [isPlain, Bool.and_eq_true, bne_iff_ne]
  refine ⟨⟨⟨?_, ?_⟩, ?_⟩, ?_⟩
  all_goals
    rintro rfl
    contradiction

theorem identifier {name : String} (ok : Identifier.isIdentifier name = true) : Plain name :=
  fun c member => of_isPart (Identifier.isPart_of_mem ok c member)

theorem natural (n : Nat) : Plain (toString n) := fun c member =>
  of_isPart (Identifier.isPart_toString n c member)

theorem intercalate {separator : String} (between : Plain separator) {list : List String}
    (each : ∀ text ∈ list, Plain text) : Plain (separator.intercalate list) := by
  induction list with
  | nil => exact nofun
  | cons first rest ih =>
    obtain ⟨here, later⟩ := List.forall_mem_cons.1 each
    cases rest with
    | nil => simpa using here
    | cons second rest =>
      rw [String.intercalate_cons_cons]
      exact (here.append between).append (ih later)

end Plain

namespace Scan

def Calm : Mode → Prop
  | .code | .word _ => True
  | .operator read => '-' ∉ read ∧ '/' ∉ read
  | _ => False

private theorem start_plain {c : Char} (plain : isPlain c = true) :
    arrow ∉ (start c).1 ∧ Calm (start c).2 := by
  simp only [isPlain, Bool.and_eq_true, bne_iff_ne] at plain
  obtain ⟨⟨⟨noDash, noSlash⟩, noQuote⟩, noApostrophe⟩ := plain
  unfold start
  split
  · simp [Calm]
  split
  · simp [Calm, Ne.symm noDash, Ne.symm noSlash]
  split <;> simp [Calm, arrow]

private theorem step_plain {mode : Mode} (calm : Calm mode) {c : Char} (plain : isPlain c = true) :
    arrow ∉ (step mode c).1 ∧ Calm (step mode c).2 := by
  obtain ⟨noArrow, calmOn⟩ := start_plain plain
  cases mode with
  | code => exact ⟨noArrow, calmOn⟩
  | word read =>
    rw [step]
    split
    · simp [Calm]
    · refine ⟨?_, calmOn⟩
      unfold after finishedWord
      split <;> simpa [arrow] using noArrow
  | operator read =>
    obtain ⟨noDash, noSlash⟩ := calm
    have different : read ≠ ['/'] := by
      rintro rfl
      simp at noSlash
    rw [step]
    simp only [different, false_and, if_false]
    split
    · simp only [isPlain, Bool.and_eq_true, bne_iff_ne] at plain
      simp [Calm, noDash, noSlash, Ne.symm plain.1.1.1, Ne.symm plain.1.1.2]
    · refine ⟨?_, calmOn⟩
      have other : arrow ≠ .mark read.reverse := by
        intro same
        injection same with same
        have dash : '-' ∈ read.reverse := by simp [← same]
        exact noDash (List.mem_reverse.1 dash)
      simpa [after, other] using noArrow
  | _ => exact calm.elim

private theorem run_plain {mode : Mode} (calm : Calm mode) {cs : List Char}
    (plain : ∀ c ∈ cs, isPlain c = true) : arrow ∉ (run mode cs).1 ∧ Calm (run mode cs).2 := by
  induction cs generalizing mode with
  | nil => exact ⟨by simp, calm⟩
  | cons c cs ih =>
    obtain ⟨here, later⟩ := List.forall_mem_cons.1 plain
    obtain ⟨noArrow, calmOn⟩ := step_plain calm here
    obtain ⟨noneLater, calmLater⟩ := ih calmOn later
    rw [run_cons]
    exact ⟨by simp [noArrow, noneLater], calmLater⟩

end Scan

theorem Plain.rows {text : String} (plain : Plain text) :
    ∃ found, Rows (text ++ "\n") found ∧ arrow ∉ found := by
  have whole : Plain (text ++ "\n") := plain.append (by decide)
  obtain ⟨noArrow, calm⟩ := @Scan.run_plain .code trivial _ whole
  have ends : (Scan.run .code (text ++ "\n").toList).2 =
      (Scan.step (Scan.run .code text.toList).2 '\n').2 := by
    rw [String.toList_append, Scan.run_append]
    rfl
  refine ⟨_, ⟨Prod.ext rfl ?_, .inr (by simp)⟩, noArrow⟩
  rw [ends] at calm ⊢
  rcases Scan.step_lineFeed (Scan.run .code text.toList).2 with (code | comment) | broken
  · exact code
  · exact (comment ▸ calm : Scan.Calm .blockComment).elim
  · exact (broken ▸ calm : Scan.Calm .broken).elim

end FlipperBlocks.C
