import FlipperBlocks.Proofs.Application.Fragments
import FlipperBlocks.Proofs.Application.Writing
import FlipperBlocks.Proofs.CommandLine.StrictRuns
import FlipperBlocks.Proofs.Lowering.CongruentPrograms
import FlipperBlocks.Proofs.Lowering.Rejection

/-! Programs without degradations.

Wherever a comment stands for something that the program cannot say, a degradation is recorded too. So a
program about which nothing is recorded has no comments in the code of its blocks. -/
namespace FlipperBlocks

open Application Lowering
open C (Code)

/-- A step of lowering that adds to the diagnostics. If it adds none, and what has to be known about the
steps before it is known, its result has the property and no comment gets into the draft. -/
def Lowering.Spotless {α : Type} (known : Prop) (post : α → Prop) (action : Lowering α) : Prop :=
  ∀ c : Compilation, ∃ added, (action c).2.diagnostics = c.diagnostics ++ added ∧
    (known → added = [] → post (action c).1 ∧ (c.draft.Uncommented → (action c).2.draft.Uncommented))

namespace Lowering.Spotless

variable {α β : Type} {known : Prop} {post : α → Prop} {action : Lowering α}

theorem of_silent (silent : ∀ c, (action c).2.diagnostics = c.diagnostics)
    (holds : known → ∀ c, post (action c).1)
    (clear : known → ∀ c : Compilation, c.draft.Uncommented → (action c).2.draft.Uncommented) :
    Spotless known post action :=
  fun c => ⟨[], by rw [silent, List.append_nil], fun told _ => ⟨holds told c, clear told c⟩⟩

/-- If both steps together record nothing, then the first one does not, and its result is as the second one
has to know it. -/
theorem bind {after : β → Prop} {next : α → Lowering β} (first : Spotless known post action)
    (second : ∀ x, Spotless (known ∧ post x) after (next x)) : Spotless known after (action >>= next) := by
  intro c
  obtain ⟨added, record, clear⟩ := first c
  obtain ⟨more, recordOn, clearOn⟩ := second (action c).1 (action c).2
  refine ⟨added ++ more, ?_, fun told none => ?_⟩
  · change (next (action c).1 (action c).2).2.diagnostics = _
    rw [recordOn, record, List.append_assoc]
  · obtain ⟨holds, kept⟩ := clear told (List.append_eq_nil_iff.1 none).1
    obtain ⟨holdsOn, keptOn⟩ := clearOn ⟨told, holds⟩ (List.append_eq_nil_iff.1 none).2
    exact ⟨holdsOn, fun before => keptOn (kept before)⟩

theorem degrade (degradation : Degradation) :
    Spotless known (fun _ => False) (Lowering.degrade degradation) :=
  fun c => ⟨[⟨degradation, c.location⟩], rfl, fun _ none => absurd none (List.cons_ne_nil _ _)⟩

theorem within (step : Step) (spotless : Spotless known post action) :
    Spotless known post (Lowering.within step action) := by
  intro c
  rw [run_within]
  exact spotless { c with steps := step :: c.steps }

theorem inPhase (phase : Phase) (spotless : Spotless known post action) :
    Spotless known post (Lowering.inPhase phase action) := by
  intro c
  rw [run_inPhase]
  exact spotless { c with phase := phase }

theorem tentatively {post : Option α → Prop} {action : Lowering (Option α)}
    (spotless : Spotless known post action) : Spotless known post (Lowering.tentatively action) := by
  intro c
  obtain ⟨added, record, clear⟩ := spotless c
  rw [run_tentatively]
  refine ⟨added, ?_, fun told none => ⟨(clear told none).1, fun before => ?_⟩⟩
  · dsimp only
    split <;> exact record
  · dsimp only
    split
    · exact before
    · exact (clear told none).2 before

theorem post_of_silent (spotless : Spotless True post action) {c : Compilation}
    (silent : (action c).2.diagnostics = c.diagnostics) : post (action c).1 := by
  obtain ⟨added, record, clear⟩ := spotless c
  rw [silent] at record
  exact (clear trivial (List.self_eq_append_right.1 record)).1

end Lowering.Spotless

def Congruence.spotless : Congruence where
  holds known _ post a _ := Spotless known post a
  given weaker spotless c := (spotless c).imp fun _ found => ⟨found.1, fun told => found.2 (weaker told)⟩
  pure holds := .of_silent (fun _ => rfl) (fun told _ => holds told) fun _ _ clear => clear
  bind := .bind
  getDraft := .of_silent (fun _ => rfl) (fun _ _ => trivial) fun _ _ clear => clear
  phase := .of_silent (fun _ => rfl) (fun _ _ => trivial) fun _ _ clear => clear
  modifyDraft change := .of_silent (fun _ => rfl) (fun _ _ => trivial) fun told c =>
    (change c.draft).uncommented told
  degrade _ := .degrade _
  within _ _ := .within _
  inPhase := .inPhase
  tentatively := .tentatively

theorem Compilation.Reports.diagnostics_ne {before after : Compilation} {degradation : Degradation}
    (reports : before.Reports degradation after) : after.diagnostics ≠ before.diagnostics := by
  obtain ⟨noted, rfl⟩ := reports
  simp [Compilation.noting]

namespace Block

variable {block : Block} {c : Compilation}

theorem uncommented_statement (silent : (block.meaning.statement c).2.diagnostics = c.diagnostics) :
    (block.meaning.statement c).1.Uncommented := by
  have spotless : Spotless True Code.Clean block.meaning.statement :=
    (Congruence.spotless.relates block).statement []
  exact (spotless.post_of_silent silent).clear trivial

theorem uncommented_value {wantsText : Bool}
    (silent : (block.meaning.value wantsText c).2.diagnostics = c.diagnostics) :
    (block.meaning.value wantsText c).1.expr.Uncommented := by
  have spotless : Spotless True (Value.Lax True) (block.meaning.value wantsText) :=
    (Congruence.spotless.relates block).value [] wantsText
  exact (spotless.post_of_silent silent).expr.clear trivial

theorem not_rejectedAsStatement
    (silent : (block.meaning.statement c).2.diagnostics = c.diagnostics) (degradation : Degradation) :
    ¬ block.site.RejectedAsStatement c degradation := by
  intro rejected
  rw [block.statement_eq] at silent
  exact (rejected.run block.local_value).2.diagnostics_ne silent

theorem not_rejectedAsValue {wantsText : Bool}
    (silent : (block.meaning.value wantsText c).2.diagnostics = c.diagnostics)
    (degradation : Degradation) : ¬ block.site.RejectedAsValue c degradation := by
  intro rejected
  rw [block.meaning_eq] at silent
  exact (rejected.run block.local_value wantsText).2.diagnostics_ne silent

end Block

namespace Program

theorem uncommented_draft {program : Program}
    (clean : program.compile.diagnostics.isClean = true) : program.lowered.draft.Uncommented := by
  obtain ⟨added, record, clear⟩ := Congruence.spotless.lower program {}
  have recorded : program.lowered.diagnostics = added := record
  rw [diagnostics_compile] at clean
  have silent : program.lowered.diagnostics = [] := List.isEmpty_iff.1 clean
  have empty : ({} : Draft).Uncommented := by simp [Draft.Uncommented, Draft.kept]
  exact (clear trivial (recorded.symm.trans silent)).2 empty

theorem uncommented_fragments {program : Program} (clean : program.compile.diagnostics.isClean = true) :
    ∀ fragment ∈ fragments program.lowered.draft, C.Token.comment ∉ C.tokens fragment := by
  intro fragment member
  obtain ⟨code, kept, rows⟩ := exists_kept_of_fragment program.lowered_sound member
  rw [tokens_of_rows rows]
  exact uncommented_draft clean code kept

open CommandLine in
/-- The code of a program has no comments if nothing is recorded about it. A block that is lowered without a
record is not rejected, and its code has none either. So there are none in a program that the command ends
well with in a strict run, whatever it runs on. -/
theorem clean_without_comments : (∀ program : Program, program.compile.diagnostics.isClean = true →
      ∀ fragment ∈ fragments program.lowered.draft, C.Token.comment ∉ C.tokens fragment) ∧
    (∀ (block : Block) (c : Compilation), ((block.meaning.statement c).2.diagnostics = c.diagnostics →
        (∀ degradation, ¬ block.site.RejectedAsStatement c degradation) ∧
          C.Token.comment ∉ (block.meaning.statement c).1.tokens) ∧
      ∀ wantsText, (block.meaning.value wantsText c).2.diagnostics = c.diagnostics →
        (∀ degradation, ¬ block.site.RejectedAsValue c degradation) ∧
          C.Token.comment ∉ (block.meaning.value wantsText c).1.expr.tokens) ∧
    ∀ {σ : Type} (host : Host (StateM σ)) (before : σ) (arguments : List String)
      (options : Options), Request.ofArguments arguments = .compile options →
        options.strict = true → (run host arguments before).1 = 0 → ∃ document program,
          ((readDocument host options.input).run before).1 = .ok document ∧
            Program.ofText document = .ok program ∧ ∀ fragment ∈ fragments program.lowered.draft,
              C.Token.comment ∉ C.tokens fragment := by
  refine ⟨fun program => uncommented_fragments, fun block c => ⟨fun silent => ?_,
    fun wantsText silent => ?_⟩, fun host before arguments options asked strict ends => ?_⟩
  · exact ⟨Block.not_rejectedAsStatement silent, Block.uncommented_statement silent⟩
  · exact ⟨Block.not_rejectedAsValue silent, Block.uncommented_value silent⟩
  · obtain ⟨document, program, read, loaded, clean⟩ := clean_of_run asked strict ends
    exact ⟨document, program, read, loaded, uncommented_fragments clean⟩

def quotedComment : Block := .mk { kind := .text, fields := [("TEXT", .text "/* a */")] } [] []

def commentPrint : Block := .mk { kind := .print } [("TEXT", [quotedComment])] []

def quoting : Program := ⟨[[.mk { kind := .app } [] [("LOOP", [commentPrint])]]]⟩

def quotingLoop : String := "    FURI_LOG_I(\"APP\", \"Print: /* a */\");\n"

def quotingDocument : String :=
  "\x7b\"blocks\":\x7b\"blocks\":[\x7b\"type\":\"flipper_app\",\"inputs\":\x7b\"LOOP\":\x7b\"block\":" ++
    "\x7b\"type\":\"text_print\",\"inputs\":\x7b\"TEXT\":\x7b\"block\":\x7b\"type\":\"text\"," ++
    "\"fields\":\x7b\"TEXT\":\"/* a */\"\x7d\x7d\x7d\x7d\x7d\x7d\x7d\x7d]\x7d\x7d"

def inputOnly : CommandLine.Host (StateM String) where
  readInput := do return .ok (← get)
  readFile _ := return .error .missing
  writeFile _ _ := return .error (.opening .missing)
  print _ := return
  report _ := return

open CommandLine in
theorem quoting_without_comments : (quoting.compile.diagnostics.isClean = true ∧
      quotingLoop ∈ fragments quoting.lowered.draft ∧ C.Token.comment ∉ C.tokens quotingLoop) ∧
    ((commentPrint.meaning.statement {}).2.diagnostics = [] ∧
      C.Token.comment ∉ (commentPrint.meaning.statement {}).1.tokens) ∧
    ((quotedComment.meaning.value true {}).2.diagnostics = [] ∧
      C.Token.comment ∉ (quotedComment.meaning.value true {}).1.expr.tokens) ∧
    ((run inputOnly ["--strict"] quotingDocument).1 = 0 ∧
      ∃ program, Program.ofText quotingDocument = .ok program ∧
        ∀ fragment ∈ fragments program.lowered.draft,
          C.Token.comment ∉ C.tokens fragment) := by
  have clean : quoting.compile.diagnostics.isClean = true := by
    rw [diagnostics_compile]
    decide +kernel
  have member : quotingLoop ∈ fragments quoting.lowered.draft := by decide +kernel
  have silent : (commentPrint.meaning.statement {}).2.diagnostics = [] := rfl
  have quiet : (quotedComment.meaning.value true {}).2.diagnostics = [] := rfl
  have ends : (run inputOnly ["--strict"] quotingDocument).1 = 0 := by decide +kernel
  obtain ⟨programs, blocks, runs⟩ := clean_without_comments
  obtain ⟨document, program, read, loaded, without⟩ :=
    runs inputOnly quotingDocument ["--strict"] { strict := true } rfl rfl ends
  obtain rfl : quotingDocument = document := Except.ok.inj read
  exact ⟨⟨clean, member, programs quoting clean quotingLoop member⟩,
    ⟨silent, ((blocks commentPrint {}).1 silent).2⟩,
    ⟨quiet, ((blocks quotedComment {}).2 true quiet).2⟩, ends, program, loaded, without⟩

end Program

end FlipperBlocks
