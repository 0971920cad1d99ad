import FlipperBlocks.Proofs.C.Spelling

/-! What a scanner finds in a piece of code.

A line is read from code back to code, wherever it has been placed. So the tokens of a piece of code
are those of its lines one after another, and indentation does not show in them. -/
namespace FlipperBlocks.C

namespace Line

def Holds (ok : Atom → Prop) : Line → Prop
  | run action => action.Holds ok
  | guarded test action => test.Holds ok ∧ action.Holds ok
  | reserve type name => ok (.type type) ∧ ok (.name name)
  | comment _ | placeholder _ | openBlock | lastBranch | close => True
  | openIf test | openBranch test | nextBranch test | openWhile test => test.Holds ok
  | openFor counter bound => ok (.counter counter) ∧ bound.Holds ok
  | verbatim _ => False

theorem Holds.imp {ok better : Atom → Prop} (imp : ∀ atom, ok atom → better atom) {line : Line}
    (holds : line.Holds ok) : line.Holds better := by
  cases line with
  | run action => exact Expr.Holds.imp imp action holds
  | guarded test action => exact ⟨Expr.Holds.imp imp test holds.1, Expr.Holds.imp imp action holds.2⟩
  | reserve type name => exact ⟨imp _ holds.1, imp _ holds.2⟩
  | openIf test | openBranch test | nextBranch test | openWhile test => exact Expr.Holds.imp imp test holds
  | openFor counter bound => exact ⟨imp _ holds.1, Expr.Holds.imp imp bound holds.2⟩
  | comment | placeholder | openBlock | lastBranch | close => trivial
  | verbatim _ => exact holds.elim

def testTokens (test : Expr) : List Token := .mark ['('] :: (test.tokens ++ [.mark [')'], .mark ['{']])

def tokens : Line → List Token
  | run action => action.tokens ++ [.mark [';']]
  | guarded test action =>
    .call ['i', 'f'] :: .mark ['('] :: (test.tokens ++ .mark [')'] :: (action.tokens ++ [.mark [';']]))
  | reserve type name => Expr.typeTokens type ++ [.word name.toList, .mark [';']]
  | comment _ | placeholder _ => [.comment]
  | openBlock => [.mark ['{']]
  | openIf test => .call ['i', 'f'] :: testTokens test
  | openBranch test => .word ['i', 'f'] :: testTokens test
  | nextBranch test => .mark ['}'] :: .word ['e', 'l', 's', 'e'] :: .word ['i', 'f'] :: testTokens test
  | lastBranch => [.mark ['}'], .word ['e', 'l', 's', 'e'], .mark ['{']]
  | openWhile test => .call ['w', 'h', 'i', 'l', 'e'] :: testTokens test
  | openFor counter bound =>
    .call ['f', 'o', 'r'] :: .mark ['('] :: .word ['i', 'n', 't'] :: .word counter.toList ::
      .mark ['='] :: .word ['0'] :: .mark [';'] :: .word counter.toList :: .mark ['<'] ::
      (bound.tokens ++ [.mark [';'], .word counter.toList, .mark ['+', '+'], .mark [')'], .mark ['{']])
  | close => [.mark ['}']]
  | verbatim _ => []

private theorem closes_opening {opening : String} {first : List Token} {test : Expr}
    (opened : Closes opening first) (spelled : test.Holds Atom.Spelled) :
    Closes (opening ++ test.code ++ ") \x7b" ++ "\n")
      (first ++ (test.tokens ++ [.mark [')'], .mark ['{']])) := by
  have closing : Closes (") \x7b" ++ "\n") [.mark [')'], .mark ['{']] := by decide
  have whole := (opened.append_reads (test.reads spelled)).append_closes ⟨')', by decide, rfl⟩ closing
  rw [List.append_assoc] at whole
  rw [String.append_assoc]
  exact whole

private theorem closes_statement {a : String} {first : List Token} (reads : Reads a first) :
    Closes (a ++ ";" ++ "\n") (first ++ [.mark [';']]) := by
  have semicolon : Closes (";" ++ "\n") [.mark [';']] := by decide
  rw [String.append_assoc]
  exact reads.append_closes ⟨';', by decide, rfl⟩ semicolon

private theorem closes_guarded {test action : Expr} (first : test.Holds Atom.Spelled)
    (second : action.Holds Atom.Spelled) :
    Closes (guarded test action).ended (guarded test action).tokens := by
  have opening : Closes "if(" [.call ['i', 'f'], .mark ['(']] := by decide
  have closing : Closes ") " [.mark [')']] := by decide
  have tested := (opening.append_reads (test.reads first)).append_closes ⟨')', by decide, rfl⟩ closing
  have whole := closes_statement (tested.append_reads (action.reads second))
  simp only [List.append_assoc, List.cons_append, List.nil_append] at whole
  exact whole

private theorem closes_reserve {type name : String} (first : Atom.Spelled (.type type))
    (second : Atom.Spelled (.name name)) : Closes (reserve type name).ended (reserve type name).tokens := by
  have blank : Closes " " [] := by decide
  have typed := (Expr.reads_type first).append_closes ⟨' ', by decide, rfl⟩ blank
  have whole := closes_statement (typed.append_reads (.name second))
  simp only [List.append_assoc, List.nil_append] at whole
  exact whole

private theorem closes_openFor {counter : String} {bound : Expr}
    (first : Atom.Spelled (.counter counter)) (second : bound.Holds Atom.Spelled) :
    Closes (openFor counter bound).ended (openFor counter bound).tokens := by
  have opening : Closes "for(int " [.call ['f', 'o', 'r'], .mark ['('], .word ['i', 'n', 't']] := by decide
  have zero : Closes " = 0; " [.mark ['='], .word ['0'], .mark [';']] := by decide
  have less : Closes " < " [.mark ['<']] := by decide
  have semicolon : Closes "; " [.mark [';']] := by decide
  have closing : Closes (") \x7b" ++ "\n") [.mark [')'], .mark ['{']] := by decide
  have name : Reads counter [.word counter.toList] := .name first
  have increment : Reads (counter ++ "++") [.word counter.toList, .mark ['+', '+']] :=
    Expr.reads_increment (e := .name counter) rfl first
  have started := (opening.append_reads name).append_closes ⟨' ', by decide, rfl⟩ zero
  have compared := (started.append_reads name).append_closes ⟨' ', by decide, rfl⟩ less
  have bounded := (compared.append_reads (bound.reads second)).append_closes ⟨';', by decide, rfl⟩
    semicolon
  have whole := (bounded.append_reads increment).append_closes ⟨')', by decide, rfl⟩ closing
  have same : (openFor counter bound).ended = "for(int " ++ counter ++ " = 0; " ++ counter ++
      " < " ++ bound.code ++ "; " ++ (counter ++ "++") ++ (") \x7b" ++ "\n") := by
    change "for(int " ++ counter ++ " = 0; " ++ counter ++ " < " ++ bound.code ++ "; " ++ counter ++
      "++) \x7b" ++ "\n" = _
    simp [String.append_assoc]
  rw [same]
  simpa [tokens] using whole

theorem closes {line : Line} (spelled : line.Holds Atom.Spelled) : Closes line.ended line.tokens := by
  cases line with
  | run action => exact closes_statement (action.reads spelled)
  | guarded test action => exact closes_guarded spelled.1 spelled.2
  | reserve type name => exact closes_reserve spelled.1 spelled.2
  | comment text => exact Closes.comment text
  | placeholder kind =>
    have feed : Closes "\n" [] := by decide
    exact (Closes.placeholder kind).append feed
  | openIf test =>
    have opening : Closes "if(" [.call ['i', 'f'], .mark ['(']] := by decide
    exact closes_opening opening spelled
  | openBranch test =>
    have opening : Closes "if (" [.word ['i', 'f'], .mark ['(']] := by decide
    exact closes_opening opening spelled
  | nextBranch test =>
    have opening : Closes "\x7d else if (" [.mark ['}'], .word ['e', 'l', 's', 'e'],
        .word ['i', 'f'], .mark ['(']] := by decide
    exact closes_opening opening spelled
  | openWhile test =>
    have opening : Closes "while(" [.call ['w', 'h', 'i', 'l', 'e'], .mark ['(']] := by decide
    exact closes_opening opening spelled
  | openFor counter bound => exact closes_openFor spelled.1 spelled.2
  | openBlock => decide
  | lastBranch => decide
  | close => decide
  | verbatim _ => exact spelled.elim

def isOpening : Line → Bool
  | openBlock | openIf _ | openBranch _ | openWhile _ | openFor .. => true
  | _ => false

def isWhole : Line → Bool
  | run _ | guarded .. | reserve .. | comment _ | placeholder _ => true
  | _ => false

theorem nest_whole {line : Line} (whole : line.isWhole = true) (opened : List Char)
    (rest : List Token) : nest opened (line.tokens ++ rest) = nest opened rest := by
  cases line with
  | run _ | guarded _ _ => simp [tokens, nest, isOpener, opener?, Expr.nest_tokens]
  | reserve type name => simp [tokens, nest, isOpener, opener?, Expr.nest_typeTokens]
  | comment text => rfl
  | placeholder kind => rfl
  | _ => contradiction

theorem nest_opening {line : Line} (opening : line.isOpening = true) (opened : List Char)
    (rest : List Token) : nest opened (line.tokens ++ rest) = nest ('{' :: opened) rest := by
  cases line with
  | openBlock => rfl
  | openIf _ | openBranch _ | openWhile _ => simp [tokens, testTokens, nest, isOpener, opener?, Expr.nest_tokens]
  | openFor counter bound => simp [tokens, nest, isOpener, opener?, Expr.nest_tokens]
  | _ => contradiction

theorem nest_nextBranch (test : Expr) (opened : List Char) (rest : List Token) :
    nest ('{' :: opened) ((nextBranch test).tokens ++ rest) = nest ('{' :: opened) rest := by
  simp [tokens, testTokens, nest, isOpener, opener?, Expr.nest_tokens]

theorem nest_lastBranch (opened : List Char) (rest : List Token) :
    nest ('{' :: opened) (lastBranch.tokens ++ rest) = nest ('{' :: opened) rest := rfl

theorem nest_close (opened : List Char) (rest : List Token) :
    nest ('{' :: opened) (close.tokens ++ rest) = nest opened rest := rfl

theorem ended_eq {line : Line} {ok : Atom → Prop} (spelled : line.Holds ok) :
    line.ended = line.text ++ "\n" := by
  cases line with
  | verbatim _ => exact spelled.elim
  | _ => rfl

theorem ended_openWhile (test : Expr) : (openWhile test).ended = "while(" ++ test.code ++ ") \x7b\n" := by
  have ended : (openWhile test).ended = "while(" ++ test.code ++ ") \x7b" ++ "\n" := rfl
  have joined : ") \x7b" ++ "\n" = ") \x7b\n" := rfl
  rw [ended, String.append_assoc, joined]

theorem ended_openFor (counter : String) (limit : Expr) : (openFor counter limit).ended =
      "for(int " ++ counter ++ " = 0; " ++ counter ++ " < " ++ limit.code ++ "; " ++ counter ++
        "++) \x7b\n" := by
  have ended : (openFor counter limit).ended = "for(int " ++ counter ++ " = 0; " ++ counter ++
      " < " ++ limit.code ++ "; " ++ counter ++ "++) \x7b" ++ "\n" := rfl
  have joined : "++) \x7b" ++ "\n" = "++) \x7b\n" := rfl
  rw [ended, String.append_assoc, joined]

theorem rows {line : Line} (spelled : line.Holds Atom.Spelled) : Rows line.ended line.tokens := by
  refine ⟨closes spelled, .inr ?_⟩
  rw [ended_eq spelled, String.toList_append]
  exact List.getLast?_concat

end Line

theorem PlacedLine.rows (placed : PlacedLine) (spelled : placed.line.Holds Atom.Spelled) :
    Rows placed.text placed.line.tokens := by
  have nonempty : placed.line.ended.toList ≠ [] := by
    rw [Line.ended_eq spelled, String.toList_append]
    simp
  exact (((Line.rows spelled).margin nonempty placed.margin).indentBy placed.depth)

namespace Code

def Holds (ok : Atom → Prop) (code : Code) : Prop := ∀ placed ∈ code, placed.line.Holds ok

theorem Holds.imp {ok better : Atom → Prop} (imp : ∀ atom, ok atom → better atom) {code : Code}
    (holds : code.Holds ok) : code.Holds better :=
  fun placed member => (holds placed member).imp imp

def tokens (code : Code) : List Token := code.flatMap fun placed => placed.line.tokens

def Balanced (code : Code) : Prop := ∀ opened rest, nest opened (code.tokens ++ rest) = nest opened rest

section

variable {ok : Atom → Prop} {a b code : Code} {line : Line}

@[simp] theorem holds_nil : Holds ok [] := by simp [Holds]

@[simp] theorem holds_append : Holds ok (a ++ b) ↔ Holds ok a ∧ Holds ok b := by
  simp only [Holds, List.mem_append, or_imp, forall_and]

@[simp] theorem holds_line : Holds ok (Code.line line) ↔ line.Holds ok := by simp [Holds, Code.line]

@[simp] theorem holds_indent : Holds ok code.indent ↔ Holds ok code := by simp [Holds, Code.indent]

@[simp] theorem holds_inset : Holds ok code.inset ↔ Holds ok code := by simp [Holds, Code.inset]

@[simp] theorem tokens_nil : tokens [] = [] := rfl

@[simp] theorem tokens_append : tokens (a ++ b) = tokens a ++ tokens b := by simp [tokens]

@[simp] theorem tokens_line : tokens (Code.line line) = line.tokens := by simp [tokens, Code.line]

@[simp] theorem tokens_indent : tokens code.indent = tokens code := by
  simp [tokens, Code.indent, List.flatMap_map]

@[simp] theorem tokens_inset : tokens code.inset = tokens code := by
  simp [tokens, Code.inset, List.flatMap_map]

end

theorem rows {code : Code} (spelled : code.Holds Atom.Spelled) : Rows code.text code.tokens := by
  induction code with
  | nil => exact Rows.nil
  | cons placed rest ih =>
    have first := placed.rows (spelled placed List.mem_cons_self)
    have others := ih fun other member => spelled other (List.mem_cons_of_mem _ member)
    exact first.append others

theorem text_line (line : Line) : (Code.line line).text = line.ended := by
  have margin : Text.margin 0 = "" := rfl
  rw [Code.line, text_cons, text_nil, PlacedLine.text, margin, Text.indentBy, String.empty_append,
    String.append_empty]

theorem text_braced (opening : Line) (body : Code) :
    (braced opening body).text = opening.ended ++ body.indent.text ++ "\x7d\n" := by
  rw [braced, text_append, text_append, text_line, text_line]
  rfl

theorem Balanced.nested {code : Code} (balanced : code.Balanced) : Nested code.tokens := by
  have whole := balanced [] []
  rw [List.append_nil] at whole
  exact whole

theorem Balanced.nil : Balanced [] := fun _ _ => rfl

theorem Balanced.append {a b : Code} (first : a.Balanced) (second : b.Balanced) : (a ++ b).Balanced := by
  intro opened rest
  rw [tokens_append, List.append_assoc, first, second]

theorem Balanced.line {line : Line} (whole : line.isWhole = true) : (Code.line line).Balanced := by
  intro opened rest
  rw [tokens_line, line.nest_whole whole]

theorem Balanced.indent {code : Code} (balanced : code.Balanced) : code.indent.Balanced := by
  intro opened rest
  rw [tokens_indent, balanced]

theorem Balanced.inset {code : Code} (balanced : code.Balanced) : code.inset.Balanced := by
  intro opened rest
  rw [tokens_inset, balanced]

theorem Balanced.braced {opening : Line} {body : Code} (opens : opening.isOpening = true)
    (balanced : body.Balanced) : (Code.braced opening body).Balanced := by
  intro opened rest
  unfold Code.braced
  rw [tokens_append, tokens_append, tokens_line, tokens_indent, tokens_line, List.append_assoc,
    List.append_assoc, opening.nest_opening opens, balanced, Line.nest_close]

theorem Balanced.framed {opening : Line} {body : Code} (opens : opening.isOpening = true)
    (balanced : body.Balanced) : (Code.framed opening body).Balanced := by
  intro opened rest
  unfold Code.framed
  rw [tokens_append, tokens_append, tokens_line, tokens_inset, tokens_line, List.append_assoc,
    List.append_assoc, opening.nest_opening opens, balanced, Line.nest_close]

end Code

end FlipperBlocks.C
