import FlipperBlocks.Proofs.C.Printf
import FlipperBlocks.Proofs.Lowering.Tags

/-! What blocks write to the log.

A message becomes a format and the arguments for it, by its kind alone. A format takes what it is given, since
values are what their kinds say, unless a number in the literal of a text comes to a percent sign. -/
namespace FlipperBlocks

open C (Code Expr Literal.read Literal.encoded stringBytes hidesPercent)
open C.Printf (pieces directives)
open Lowering

/-- What a block that writes to the log prints before its message. -/
def BlockKind.lead? : BlockKind → Option String
  | log => some ""
  | print => some "Print: "
  | _ => none

def Site.message (site : Site) : Lowering Value :=
  match site.kind with
  | .log => do
    let _ ← site.shown "TAG" "APP"
    site.text "MSG" ""
  | _ => site.text "TEXT" ""

/-- The directive for a message that is no text literal, and the argument for it. If the draft with the message
is kept until the last one, a text is in a buffer that is declared there, and bytes are in an array. -/
inductive Directive (draft last : Draft) (message : Value) : Char → Expr → Prop
  | text {buffer : String} : message.kind = .text → message.Denotes buffer →
    (draft.Settles last → ∃ size, last.lookup? buffer = some ⟨buffer, .text size⟩) →
      Directive draft last message 's' message.expr
  | number : message.kind = .number ∨ message.kind = .truth →
    Directive draft last message 'd' (.castGroup "int" message.expr)
  | bytes {array : String} : message.kind = .bytes → message.Denotes array →
    (draft.Settles last → ∃ length initial, last.lookup? array = some ⟨array, .bytes length initial⟩) →
      Directive draft last message 'p' (.cast "void*" message.expr)

/-- A format and the arguments behind it print a message after a lead. -/
structure Formats (draft last : Draft) (lead : String) (message : Value) (format : String)
    (arguments : List Expr) : Prop where
  /-- A text literal is put between the quotes of the format, with its percent signs doubled. What is printed
  is the string that it stands for just where no number in it comes to a percent sign. -/
  literal : ∀ contents, message.kind = .text → message.expr = .quoted contents → arguments = [] ∧
    (∃ inner, message.code = "\"" ++ inner ++ "\"" ∧
      C.quoted format = "\"" ++ lead ++ doublePercent inner ++ "\"") ∧
    ∀ bytes, Literal.read .before message.code.toList = some bytes →
      ∃ printed, Literal.read .before (C.quoted format).toList = some printed ∧
        (pieces .text printed = (Literal.encoded lead.toList ++ stringBytes bytes).map .byte ↔
          hidesPercent contents.toList = false) ∧
        (hidesPercent contents.toList = false → directives printed = arguments.length)
  /-- Any other message is printed by one directive. -/
  other : (message.kind = .text → ∀ contents, message.expr ≠ .quoted contents) →
    ∃ letter argument, arguments = [argument] ∧ Directive draft last message letter argument ∧
      ∃ printed, Literal.read .before (C.quoted format).toList = some printed ∧
        pieces .text printed =
          (Literal.encoded lead.toList).map .byte ++ [.directive letter.toUInt8] ∧
        directives printed = arguments.length

namespace Formats

variable {draft last : Draft} {lead : String} {message : Value}

private theorem of_literal (plain : ∀ c ∈ lead.toList, C.isNumbered c = false ∧ c ≠ '%')
    (itself : lead.toList.flatMap C.escape = lead.toList) {contents : String}
    (same : message.expr = .quoted contents) (isText : message.kind = .text) :
    Formats draft last lead message (lead ++ doublePercent contents) [] where
  literal other _ again := by
    obtain rfl : contents = other := by
      rw [same] at again
      injection again
    have code : message.code = C.quoted contents := by
      rw [Value.code, same]
      rfl
    rw [code]
    refine ⟨rfl, C.Literal.quoted_doublePercent itself contents, fun bytes reads => ?_⟩
    obtain ⟨printed, formatted, iff⟩ := C.Literal.printed_iff plain reads
    refine ⟨printed, formatted, iff, fun shows => ?_⟩
    exact @C.Printf.directives_eq _ _ [] ((iff.2 shows).trans (List.append_nil _).symm)
  other notLiteral := absurd same (notLiteral isText contents)

private theorem of_directive (plain : ∀ c ∈ lead.toList, C.isNumbered c = false ∧ c ≠ '%')
    {letter : Char} {argument : Expr} (known : letter ∈ ['s', 'd', 'p'])
    (directive : Directive draft last message letter argument)
    (notLiteral : message.kind = .text → ∀ contents, message.expr ≠ .quoted contents) :
    Formats draft last lead message (lead ++ String.ofList ['%', letter]) [argument] where
  literal contents isText same := absurd same (notLiteral isText contents)
  other _ := by
    obtain ⟨printed, formatted, shows⟩ := C.Literal.pieces_directive plain known
    exact ⟨letter, argument, rfl, directive, printed, formatted, shows,
      @C.Printf.directives_eq _ _ [letter.toUInt8] shows⟩

end Formats

private theorem Value.Denotes.not_quoted {value : Value} {array : String} (denotes : value.Denotes array)
    (contents : String) : value.expr ≠ .quoted contents := by
  rcases denotes with same | ⟨read, same⟩ <;> rw [same] <;> exact nofun

theorem Value.Tagged.formats {names : GivenNames} {draft last : Draft} {message : Value} {lead : String}
    (tagged : message.Tagged draft) (supplied : last.Supplied names)
    (plain : ∀ c ∈ lead.toList, C.isNumbered c = false ∧ c ≠ '%')
    (itself : lead.toList.flatMap C.escape = lead.toList) :
    ∃ format arguments, formatArguments lead message = .quoted format :: arguments ∧
      Formats draft last lead message format arguments := by
  obtain ⟨expr, kind, array⟩ := message
  cases kind with
  | text =>
    rcases tagged.text rfl with ⟨contents, same⟩ | ⟨buffer, denotes, has⟩
    · obtain rfl : expr = .quoted contents := same
      exact ⟨_, _, rfl, .of_literal plain itself rfl rfl⟩
    · have directive : Directive draft last ⟨expr, .text, array⟩ 's' expr :=
        .text rfl denotes fun kept => supplied.lookup?_of_hasText (kept.hasText has)
      refine ⟨_, _, ?_, .of_directive plain (by simp) directive fun _ => denotes.not_quoted⟩
      rcases denotes with same | ⟨read, same⟩
      · obtain rfl : expr = _ := same
        rfl
      · obtain rfl : expr = _ := same
        rfl
  | bytes =>
    obtain ⟨name, same, denotes⟩ := tagged.bytes rfl
    have directive : Directive draft last ⟨expr, .bytes, array⟩ 'p' (.cast "void*" expr) :=
      .bytes rfl denotes fun kept => supplied.lookup?_of_hasArray (kept.hasArray (tagged.array name same))
    exact ⟨_, _, rfl, .of_directive plain (by simp) directive nofun⟩
  | number => exact ⟨_, _, rfl, .of_directive plain (by simp) (.number (.inl rfl)) nofun⟩
  | truth => exact ⟨_, _, rfl, .of_directive plain (by simp) (.number (.inr rfl)) nofun⟩

/-! The blocks that write to the log. -/

theorem BlockKind.lead?_cases {kind : BlockKind} {lead : String} (logs : kind.lead? = some lead) :
    kind = .log ∧ lead = "" ∨ kind = .print ∧ lead = "Print: " := by
  cases kind with
  | log => exact .inl ⟨rfl, (Option.some.inj logs).symm⟩
  | print => exact .inr ⟨rfl, (Option.some.inj logs).symm⟩
  | _ => contradiction

theorem BlockKind.plain_lead {kind : BlockKind} {lead : String} (logs : kind.lead? = some lead) :
    (∀ c ∈ lead.toList, C.isNumbered c = false ∧ c ≠ '%') ∧ lead.toList.flatMap C.escape = lead.toList := by
  rcases lead?_cases logs with ⟨_, rfl⟩ | ⟨_, rfl⟩
  · simp
  · exact ⟨by simp [C.isNumbered], by simp [C.escape]⟩

namespace Block

theorem tags_message (block : Block) : Tags block.site.message := by
  unfold Site.message
  split
  · exact .bind fun _ => block.inputsTag.value "MSG" (.text "")
  · exact block.inputsTag.value "TEXT" (.text "")

theorem exists_run_of_lead? {block : Block} {lead : String} (logs : block.head.kind.lead? = some lead)
    (c : Compilation) : ∃ function tag, (block.meaning.statement c).1 =
      Code.run (.call function (tag :: formatArguments lead (block.site.message c).1)) ∧
        (block.meaning.statement c).2 = (block.site.message c).2 := by
  rw [statement_eq]
  have same : block.site.kind = block.head.kind := rfl
  rcases BlockKind.lead?_cases logs with ⟨kind, rfl⟩ | ⟨kind, rfl⟩
  all_goals
    rw [Site.asStatement, Site.message, same, kind]
    exact ⟨_, _, rfl, rfl⟩

end Block

namespace Program

/-- Every block that writes to the log, in whatever state it is lowered, gives a call with a format that prints its
message, and with the arguments for it. -/
theorem log_formats (program : Program) {block : Block} {lead : String}
    (logs : block.head.kind.lead? = some lead) (c : Compilation) : ∃ function tag format arguments,
      (block.meaning.statement c).1 = Code.run (.call function (tag :: .quoted format :: arguments)) ∧
      Formats (block.meaning.statement c).2.draft program.lowered.draft lead (block.site.message c).1
        format arguments := by
  obtain ⟨plain, itself⟩ := BlockKind.plain_lead logs
  obtain ⟨function, tag, code, rest⟩ := Block.exists_run_of_lead? logs c
  obtain ⟨format, arguments, same, formats⟩ :=
    (block.tags_message c).formats program.supplied_lowered plain itself
  rw [rest]
  exact ⟨function, tag, format, arguments, same ▸ code, formats⟩

def printing (contents : String) : Block :=
  .mk { kind := .print }
    [("TEXT", [.mk { kind := .text, fields := [("TEXT", .text contents)] } [] []])] []

theorem log_formats_percent : ((printing "100%").meaning.statement {}).1 =
        Code.run (.call "FURI_LOG_I" [.quoted "APP", .quoted "Print: 100%%"]) ∧
      ∃ function tag format arguments, ((printing "100%").meaning.statement {}).1 =
          Code.run (.call function (tag :: .quoted format :: arguments)) ∧
        Formats ((printing "100%").meaning.statement {}).2.draft
          (ofSection "LOOP" [printing "100%"]).lowered.draft "Print: "
          ((printing "100%").site.message {}).1 format arguments :=
  ⟨rfl, (ofSection "LOOP" [printing "100%"]).log_formats rfl {}⟩

/-- A number in the literal of a text takes the digit behind it, and comes to a percent sign. -/
theorem directive_without_argument : ((printing "\x025s").meaning.statement {}).1 =
        Code.run (.call "FURI_LOG_I" [.quoted "APP", .quoted "Print: \x025s"]) ∧
      ∃ printed, Literal.read .before (C.quoted "Print: \x025s").toList = some printed ∧
        pieces .text printed = (Literal.encoded "Print: ".toList).map .byte ++ [.directive 's'.toUInt8] ∧
        directives printed = 1 :=
  ⟨rfl, _, rfl, by decide, by decide⟩

end Program

end FlipperBlocks
