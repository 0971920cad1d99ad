import FlipperBlocks.Proofs.Lowering.CongruentPrograms
import FlipperBlocks.Proofs.Lowering.Pruning

/-! The sections of an application.

A section is made of the statements in an input of the applications at top level, one after another. Nothing
else gets there: not the code of other blocks, not that of timers and buttons, and no reads that are done
before drawing. -/
namespace FlipperBlocks

open C (Code)
open Lowering

/-! Blocks without applications. -/

def Block.AppFree (block : Block) : Prop := ∀ part ∈ block.parts, part.head.kind ≠ .app

def Block.HoldsNoApps (block : Block) : Prop :=
  ∀ entry ∈ block.values ++ block.bodies, ∀ inner ∈ entry.2, inner.AppFree

theorem Block.appFree_iff {block : Block} : block.AppFree ↔ block.head.kind ≠ .app ∧ block.HoldsNoApps := by
  obtain ⟨head, values, bodies⟩ := block
  constructor
  · intro free
    refine ⟨free _ (mem_parts_mk.2 (.inl rfl)), fun entry there inner member part among => ?_⟩
    exact free part (mem_parts_mk.2 (.inr ⟨entry, there, inner, member, among⟩))
  · rintro ⟨other, inside⟩ part among
    rcases mem_parts_mk.1 among with rfl | ⟨entry, there, inner, member, among⟩
    · exact other
    · exact inside entry there inner member part among

private theorem exists_entry_of_held {inputs : Entries Chain} {input : String} {inner : Block}
    (member : inner ∈ (inputs.get? input).getD []) : ∃ entry ∈ inputs, inner ∈ entry.2 := by
  cases found : inputs.get? input with
  | none => simp [found] at member
  | some chain =>
    rw [found] at member
    exact ⟨(input, chain), Entries.mem_of_get? found, member⟩

theorem Block.HoldsNoApps.held {block : Block} (inside : block.HoldsNoApps) (input : String) :
    ∀ inner ∈ block.held input, inner.AppFree := by
  intro inner member
  unfold Block.held at member
  split at member
  · obtain ⟨entry, there, member⟩ := exists_entry_of_held member
    exact inside entry (List.mem_append_right _ there) inner member
  · obtain ⟨entry, there, member⟩ := exists_entry_of_held member
    exact inside entry (List.mem_append_left _ there) inner member

def Place.AppFree : Place → Prop
  | top _ => False
  | here block rest => ∀ other ∈ block :: rest, other.AppFree

theorem Place.AppFree.onward {place : Place} (free : place.AppFree) {segment : String} {inner : Block}
    {others : List Block} (leads : place.onward segment = inner :: others) :
    (Place.here inner others).AppFree := by
  cases place with
  | top roots => exact free.elim
  | here block rest =>
    rw [Place.onward] at leads
    intro other member
    rw [← leads] at member
    split at member
    · exact free other (List.mem_cons_of_mem _ member)
    · have here := Block.appFree_iff.1 (free block List.mem_cons_self)
      exact here.2.held segment other member

def Lowering.KeepsSections {α : Type} (action : Lowering α) : Prop :=
  ∀ c : Compilation, (action c).2.draft.sections = c.draft.sections

theorem Lowering.KeepsSections.tentatively {α : Type} {action : Lowering (Option α)}
    (keeps : KeepsSections action) : KeepsSections (Lowering.tentatively action) := by
  intro c
  rw [run_tentatively]
  dsimp only
  split
  · rfl
  · exact keeps c

def Congruence.keepsSections : Congruence where
  holds _ place _ a _ := place.AppFree → KeepsSections a
  given _ := id
  pure _ _ _ := rfl
  bind first second free c := (second _ free _).trans (first free c)
  getDraft _ _ := rfl
  phase _ _ := rfl
  modifyDraft change free c :=
    (change c.draft).sections.resolve_left (Block.appFree_iff.1 (free _ List.mem_cons_self)).1
  degrade _ _ _ := rfl
  within _ leads keeps free _ := keeps (free.onward leads) _
  inPhase _ keeps free _ := keeps free _
  tentatively keeps free := (keeps free).tentatively

namespace Block

variable {block : Block} (free : block.AppFree)

include free

private theorem appFree_here : (Place.here block []).AppFree := List.forall_mem_singleton.2 free

theorem keepsSections_statement : KeepsSections block.meaning.statement :=
  @Congruence.Relates.statement .keepsSections block (Congruence.relates _ block) True []
    (appFree_here free)

theorem keepsSections_loose : KeepsSections block.meaning.loose :=
  @Congruence.loose .keepsSections True block [] (appFree_here free)

end Block

/-! Codes of statements. -/

/-- Lowers the statements of a chain, a step of the given name into it, and gives the code of every statement
by itself. -/
def chainCodes (segment : String) : List Block → Lowering (List Code)
  | [] => return []
  | first :: rest =>
    within ⟨segment, first.head.id⟩ do
      let code ← first.meaning.statement
      return code :: (← chainCodes "next" rest)

def Block.statementsIn (block : Block) (input : String) : List Block := (block.bodies.get? input).getD []

theorem following_eq_flatten (chain : List Block) :
    Meaning.following (chain.map Block.meaning) = List.flatten <$> chainCodes "next" chain := by
  induction chain with
  | nil => rfl
  | cons next rest ih =>
    rw [List.map_cons, Meaning.following, ih, next.id_meaning]
    rfl

theorem Block.statements_eq_flatten (block : Block) (input : String) :
    block.site.statements input = List.flatten <$> chainCodes input (block.statementsIn input) := by
  unfold Site.statements statementsIn
  rw [block.get?_bodies]
  cases block.bodies.get? input with
  | none => rfl
  | some chain =>
    cases chain with
    | nil => rfl
    | cons first rest =>
      rw [Option.map_some, List.map_cons]
      dsimp only
      rw [Meaning.chain, following_eq_flatten, first.id_meaning]
      rfl

theorem length_chainCodes (segment : String) (chain : List Block) (c : Compilation) :
    (chainCodes segment chain c).1.length = chain.length := by
  induction chain generalizing segment c with
  | nil => rfl
  | cons first rest ih => exact congrArg (· + 1) (ih _ _)

theorem keepsSections_chainCodes {chain : List Block} (free : ∀ block ∈ chain, block.AppFree)
    (segment : String) : KeepsSections (chainCodes segment chain) := by
  induction chain generalizing segment with
  | nil => exact fun _ => rfl
  | cons first rest ih =>
    obtain ⟨here, later⟩ := List.forall_mem_cons.1 free
    exact fun c => (ih later "next" _).trans (first.keepsSections_statement here _)

/-! Applications. -/

/-- What an application that lowering comes to puts into the sections: the codes of the statements in its
inputs. -/
structure Visit where
  application : Block
  setup : List Code
  draw : List Code
  input : List Code
  loop : List Code

def Visit.sections (visits : List Visit) : List Code :=
  [visits.flatMap setup, visits.flatMap draw, visits.flatMap input, visits.flatMap loop].map
    List.flatten

structure Visit.Complete (visit : Visit) : Prop where
  setup : visit.setup.length = (visit.application.statementsIn "SETUP").length
  draw : visit.draw.length = (visit.application.statementsIn "DRAW").length
  input : visit.input.length = (visit.application.statementsIn "INPUT").length
  loop : visit.loop.length = (visit.application.statementsIn "LOOP").length

namespace Block

def filling (block : Block) (input : String) (phase : Phase) : Lowering (List Code) := do
  let codes ← inPhase phase (chainCodes input (block.statementsIn input))
  modifyDraft (Draft.append phase codes.flatten)
  return codes

def visited (block : Block) : Lowering Visit := do
  let setup ← block.filling "SETUP" .setup
  let draw ← block.filling "DRAW" .draw
  let input ← block.filling "INPUT" .input
  let loop ← block.filling "LOOP" .loop
  return { application := block, setup, draw, input, loop }

theorem fillSection_eq (block : Block) (input : String) (phase : Phase) :
    fillSection block.site (input, phase) = (fun _ => ()) <$> block.filling input phase := by
  unfold fillSection
  rw [block.statements_eq_flatten]
  rfl

theorem run_application {block : Block} (kind : block.head.kind = .app) (c : Compilation) :
    block.meaning.statement c = ([], (block.visited c).2) := by
  have lowered : block.site.asStatement = application block.site := by
    unfold Site.asStatement Site.kind
    rw [show block.site.head.kind = .app from kind]
  rw [block.statement_eq, lowered]
  simp only [application, sections, fillSections, fillSection_eq]
  rfl

theorem loose_application {block : Block} (kind : block.head.kind = .app) (c : Compilation) :
    (block.meaning.loose c).2 = (block.visited c).2 := by
  have kept : (block.isDiscarded c).1 = false := by
    unfold isDiscarded
    rw [run_application kind]
    rfl
  rw [block.loose_eq, kept, run_application kind]
  rfl

end Block

private theorem sections_append {a b : Draft} (same : a.sections = b.sections) (phase : Phase)
    (code : Code) : (a.append phase code).sections = (b.append phase code).sections := by
  simp only [Draft.sections, List.cons.injEq, and_true] at same
  cases phase <;> simp [Draft.sections, Draft.append, same]

/-- What lowering comes to between two drafts: which applications it visits, each with all its statements,
and that their codes and nothing else are put into the sections. -/
structure Visit.Routes (applications : List Block) (visits : List Visit) (before after : Draft) : Prop where
  applications : visits.map Visit.application = applications
  complete : ∀ visit ∈ visits, visit.Complete
  sections : after.sections = List.zipWith (· ++ ·) before.sections (Visit.sections visits)

namespace Visit.Routes

variable {before between after : Draft}

theorem nil (same : after.sections = before.sections) : Routes [] [] before after where
  applications := rfl
  complete := List.forall_mem_nil _
  sections := by
    rw [same]
    simp [Draft.sections, Visit.sections]

theorem append {apps more : List Block} {visits others : List Visit}
    (first : Routes apps visits before between) (second : Routes more others between after) :
    Routes (apps ++ more) (visits ++ others) before after where
  applications := by rw [List.map_append, first.applications, second.applications]
  complete := List.forall_mem_append.2 ⟨first.complete, second.complete⟩
  sections := by
    rw [second.sections, first.sections]
    simp [Draft.sections, Visit.sections]

end Visit.Routes

namespace Block

variable {block : Block} (inside : block.HoldsNoApps)

include inside

theorem sections_filling (input : String) (phase : Phase) (c : Compilation) :
    (block.filling input phase c).2.draft.sections =
      (c.draft.append phase (block.filling input phase c).1.flatten).sections := by
  have free : ∀ inner ∈ block.statementsIn input, inner.AppFree := fun inner member => by
    obtain ⟨entry, there, member⟩ := exists_entry_of_held member
    exact inside entry (List.mem_append_right _ there) inner member
  exact sections_append (keepsSections_chainCodes free input _) phase _

theorem routes_visited (c : Compilation) :
    Visit.Routes [block] [(block.visited c).1] c.draft (block.visited c).2.draft where
  applications := rfl
  complete := List.forall_mem_singleton.2
    ⟨length_chainCodes .., length_chainCodes .., length_chainCodes .., length_chainCodes ..⟩
  sections := by
    let first := block.filling "SETUP" .setup c
    let second := block.filling "DRAW" .draw first.2
    let third := block.filling "INPUT" .input second.2
    let last := block.filling "LOOP" .loop third.2
    calc last.2.draft.sections
      _ = (third.2.draft.append .loop last.1.flatten).sections := sections_filling inside "LOOP" .loop _
      _ = ((second.2.draft.append .input third.1.flatten).append .loop last.1.flatten).sections :=
        sections_append (sections_filling inside "INPUT" .input _) _ _
      _ = (((first.2.draft.append .draw second.1.flatten).append .input third.1.flatten).append .loop
          last.1.flatten).sections :=
        sections_append (sections_append (sections_filling inside "DRAW" .draw _) _ _) _ _
      _ = ((((c.draft.append .setup first.1.flatten).append .draw second.1.flatten).append .input
          third.1.flatten).append .loop last.1.flatten).sections :=
        sections_append (sections_append (sections_append
          (sections_filling inside "SETUP" .setup _) _ _) _ _) _ _
      _ = _ := by
        simp only [Draft.sections, Draft.append, Visit.sections, List.flatMap_singleton]
        rfl

end Block

/-! Chains at top level. -/

def Block.isApplication (block : Block) : Bool := block.head.kind = .app

def Block.visiting (block : Block) (rest : Lowering (List Visit)) : Lowering (List Visit) :=
  if block.isApplication then do
    let visit ← block.visited
    return visit :: (← rest)
  else do
    block.meaning.loose
    rest

def visitsFollowing : List Block → Lowering (List Visit)
  | [] => return []
  | next :: rest => within ⟨"next", next.head.id⟩ (next.visiting (visitsFollowing rest))

def visitsChain (index : Nat) : List Block → Lowering (List Visit)
  | [] => return []
  | first :: rest =>
    within ⟨"blocks[" ++ toString index ++ "]", first.head.id⟩ do
      if first.head.kind.producesValue then
        degrade (.detached first.head.kind.name)
        return []
      else
        inPhase .detached (first.visiting (visitsFollowing rest))

def Program.visitsFrom (index : Nat) : List Chain → Lowering (List Visit)
  | [] => return []
  | root :: rest => do
    let visits ← visitsChain index root
    return visits ++ (← visitsFrom (index + 1) rest)

/-! Telling the visits changes nothing. -/

theorem Block.visiting_run (block : Block) (rest : Lowering (List Visit)) (c : Compilation) :
    (block.visiting rest c).2 = (rest (block.meaning.loose c).2).2 := by
  unfold visiting
  split
  · rename_i application
    rw [loose_application (of_decide_eq_true application)]
    rfl
  · rfl

theorem visitsFollowing_run (chain : List Block) (c : Compilation) :
    (visitsFollowing chain c).2 = (Meaning.followingLoose (chainMeanings chain) c).2 := by
  induction chain generalizing c with
  | nil => rfl
  | cons next rest ih =>
    rw [chainMeanings, visitsFollowing, Meaning.followingLoose, run_within, run_within,
      next.visiting_run, ih, next.id_meaning]
    rfl

theorem visitsChain_run (index : Nat) (chain : List Block) (c : Compilation) :
    (visitsChain index chain c).2 = (Meaning.looseChain index (chainMeanings chain) c).2 := by
  cases chain with
  | nil => rfl
  | cons first rest =>
    rw [chainMeanings, visitsChain, Meaning.looseChain, first.id_meaning, first.kind_meaning]
    split
    · rfl
    · rw [run_within, run_within, run_inPhase, run_inPhase, first.visiting_run, visitsFollowing_run]
      rfl

theorem Program.visitsFrom_run (index : Nat) (roots : List Chain) (c : Compilation) :
    (visitsFrom index roots c).2 = (lowerFrom index roots c).2 := by
  induction roots generalizing index c with
  | nil => rfl
  | cons root rest ih =>
    change (visitsFrom (index + 1) rest (visitsChain index root c).2).2 =
      (lowerFrom (index + 1) rest (Meaning.looseChain index (chainMeanings root) c).2).2
    rw [visitsChain_run, ih]

/-! Where the codes of the statements go. -/

theorem Block.routes_visiting {block : Block} (inside : block.HoldsNoApps) {chain : List Block}
    {rest : Lowering (List Visit)} (later : ∀ c : Compilation,
      Visit.Routes (chain.filter isApplication) (rest c).1 c.draft (rest c).2.draft) (c : Compilation) :
    Visit.Routes ((block :: chain).filter isApplication) (block.visiting rest c).1 c.draft
      (block.visiting rest c).2.draft := by
  unfold visiting
  split
  · rename_i application
    rw [List.filter_cons_of_pos application]
    exact (routes_visited inside c).append (later (block.visited c).2)
  · rename_i other
    rw [List.filter_cons_of_neg other]
    have free : block.AppFree := appFree_iff.2 ⟨fun kind => other (decide_eq_true kind), inside⟩
    exact (Visit.Routes.nil (keepsSections_loose free c)).append (later (block.meaning.loose c).2)

theorem routes_visitsFollowing {chain : List Block} (inside : ∀ block ∈ chain, block.HoldsNoApps)
    (c : Compilation) : Visit.Routes (chain.filter Block.isApplication) (visitsFollowing chain c).1 c.draft
      (visitsFollowing chain c).2.draft := by
  induction chain generalizing c with
  | nil => exact .nil rfl
  | cons next rest ih =>
    obtain ⟨here, later⟩ := List.forall_mem_cons.1 inside
    exact Block.routes_visiting here (ih later) _

def Chain.applications : Chain → List Block
  | [] => []
  | first :: rest =>
    if first.head.kind.producesValue then [] else (first :: rest).filter Block.isApplication

theorem routes_visitsChain {chain : Chain} (inside : ∀ block ∈ (chain : List Block), block.HoldsNoApps)
    (index : Nat) (c : Compilation) : Visit.Routes chain.applications (visitsChain index chain c).1 c.draft
      (visitsChain index chain c).2.draft := by
  cases chain with
  | nil => exact .nil rfl
  | cons first rest =>
    obtain ⟨here, later⟩ := List.forall_mem_cons.1 inside
    rw [visitsChain, Chain.applications]
    split
    · exact .nil rfl
    · exact Block.routes_visiting here (routes_visitsFollowing later) _

namespace Program

def AppsOnTop (program : Program) : Prop :=
  ∀ root ∈ program.roots, ∀ block ∈ (root : List Block), block.HoldsNoApps

theorem routes_visitsFrom {roots : List Chain}
    (inside : ∀ root ∈ roots, ∀ block ∈ (root : List Block), block.HoldsNoApps) (index : Nat)
    (c : Compilation) : Visit.Routes (roots.flatMap Chain.applications) (visitsFrom index roots c).1 c.draft
      (visitsFrom index roots c).2.draft := by
  induction roots generalizing index c with
  | nil => exact .nil rfl
  | cons root rest ih =>
    obtain ⟨here, later⟩ := List.forall_mem_cons.1 inside
    exact (routes_visitsChain here index c).append (ih later (index + 1) _)

/-- If there are applications at top level only, then the sections hold the codes of the statements in the
inputs of those that are visited, in order, with one code for every statement, and nothing else. The visits
are those of lowering the program: telling them leaves the compilation as it is. -/
theorem sections_hold_statements (program : Program) (apart : program.AppsOnTop) :
    ∃ visits : List Visit, visitsFrom 0 program.roots {} = (visits, program.lowered) ∧
      visits.map Visit.application = program.roots.flatMap Chain.applications ∧
      (∀ visit ∈ visits, visit.Complete) ∧ program.lowered.draft.sections =
        [visits.flatMap Visit.setup, visits.flatMap Visit.draw, visits.flatMap Visit.input,
          visits.flatMap Visit.loop].map List.flatten := by
  have same : (visitsFrom 0 program.roots {}).2 = program.lowered := visitsFrom_run 0 program.roots {}
  have routes := routes_visitsFrom apart 0 {}
  rw [same] at routes
  refine ⟨_, Prod.ext rfl same, routes.applications, routes.complete, ?_⟩
  rw [routes.sections]
  simp [Draft.sections, Visit.sections]

private def pause : Block := .mk { kind := .sleep } [] []

def paused : Program :=
  ⟨[[.mk { kind := .manifest } [] [], .mk { kind := .app } [] [("SETUP", [pause]),
        ("LOOP", [.mk { kind := .redraw } [] [], .mk { kind := .timer } [] [("DO", [pause])],
          .mk { kind := .repeated } [] [("DO", [pause, pause])]])]],
    [pause, .mk { kind := .app } [] [("LOOP", [pause])]],
    [.mk { kind := .number } [] [], .mk { kind := .app } [] [("LOOP", [pause])]]]⟩

theorem paused_holds_statements : paused.AppsOnTop ∧ ∃ visits : List Visit,
      visits.map (fun visit => visit.loop.length) = [3, 1] ∧
        paused.lowered.draft.loop = (visits.flatMap Visit.loop).flatten := by
  have apart : paused.AppsOnTop := by
    unfold AppsOnTop Block.HoldsNoApps Block.AppFree
    decide +kernel
  obtain ⟨visits, _, applications, complete, sections⟩ := paused.sections_hold_statements apart
  simp only [Draft.sections, List.map_cons, List.cons.injEq] at sections
  refine ⟨apart, visits, ?_, sections.2.2.2.1⟩
  calc visits.map (fun visit => visit.loop.length)
    _ = visits.map fun visit => (visit.application.statementsIn "LOOP").length :=
      List.map_congr_left fun visit member => (complete visit member).loop
    _ = (visits.map Visit.application).map fun block => (block.statementsIn "LOOP").length := by
      rw [List.map_map]
      rfl
    _ = [3, 1] := by
      rw [applications]
      rfl

end Program

end FlipperBlocks
