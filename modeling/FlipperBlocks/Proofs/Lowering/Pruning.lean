import FlipperBlocks.Proofs.Application.Manifests
import FlipperBlocks.Proofs.Lowering.Rejection

/-! Programs without the blocks that are discarded.

A block at top level that gives code of its own is discarded, and a chain that starts with a value is
discarded whole. Which blocks these are may depend on the ones before them. The blocks that stay make a
program by themselves, the text of which is the same. -/
namespace FlipperBlocks

open Lowering

namespace Block

/-- Tells whether a block at top level is discarded, without lowering it for good. -/
def isDiscarded (block : Block) : Lowering Bool := fun c => (!(block.meaning.statement c).1.isEmpty, c)

/-- Lowers a block at top level, and gives it back in front of those that stay of the rest, unless it is
discarded. -/
def keeping (block : Block) (rest : Lowering (List Block)) : Lowering (List Block) := do
  let discarded ← block.isDiscarded
  block.meaning.loose
  let kept ← rest
  return if discarded then kept else block :: kept

end Block

def keptFollowing : List Block → Lowering (List Block)
  | [] => return []
  | next :: rest => within ⟨"next", next.meaning.id⟩ (next.keeping (keptFollowing rest))

def keptChain (index : Nat) : List Block → Lowering (List Block)
  | [] => return []
  | first :: rest =>
    within ⟨"blocks[" ++ toString index ++ "]", first.meaning.id⟩ do
      if first.meaning.kind.producesValue then
        degrade (.detached first.meaning.kind.name)
        return []
      else
        inPhase .detached (first.keeping (keptFollowing rest))

namespace Program

def keptFrom (index : Nat) : List Chain → Lowering (List Chain)
  | [] => return []
  | root :: rest => do
    let kept ← keptChain index root
    let others ← keptFrom (index + 1) rest
    return if kept.isEmpty then others else kept :: others

def pruned (program : Program) : Program := ⟨(keptFrom 0 program.roots {}).1⟩

end Program

/-! Keeping track of the blocks that stay changes nothing. -/

variable {c d : Compilation}

theorem keptFollowing_run (chain : List Block) (c : Compilation) :
    (keptFollowing chain c).2 = (Meaning.followingLoose (chainMeanings chain) c).2 := by
  induction chain generalizing c with
  | nil => rfl
  | cons next rest ih =>
    rw [chainMeanings]
    exact congrArg (fun after => (leave after).2) (ih _)

theorem keptChain_run (index : Nat) (chain : List Block) (c : Compilation) :
    (keptChain index chain c).2 = (Meaning.looseChain index (chainMeanings chain) c).2 := by
  cases chain with
  | nil => rfl
  | cons first rest =>
    rw [chainMeanings, keptChain, Meaning.looseChain]
    split
    · rfl
    · exact congrArg (fun after => (leave { after with phase := c.phase }).2)
        (keptFollowing_run rest _)

theorem Program.keptFrom_run (index : Nat) (roots : List Chain) (c : Compilation) :
    (keptFrom index roots c).2 = (lowerFrom index roots c).2 := by
  induction roots generalizing index c with
  | nil => rfl
  | cons root rest ih =>
    have first := keptChain_run index root c
    change (keptFrom (index + 1) rest (keptChain index root c).2).2 =
      (lowerFrom (index + 1) rest (Meaning.looseChain index (chainMeanings root) c).2).2
    rw [first, ih]

/-! What a block at top level does. -/

namespace Block

variable (block : Block)

theorem local_statement : Local block.meaning.statement :=
  ((block.agree_still (List.Subset.refl _)).statement .detached (.of True)).isLocal

theorem local_loose : Local block.meaning.loose :=
  (@Meaning.Related.loose _ _ .detached (.of True) _ _ (block.agree_still (List.Subset.refl _))).isLocal

theorem local_isDiscarded : Local block.isDiscarded := by
  intro draft phase
  obtain ⟨code, after, notes, runs⟩ := block.local_statement draft phase
  refine ⟨!code.isEmpty, draft, [], fun steps diagnostics => ?_⟩
  unfold isDiscarded
  rw [runs, List.map_nil, List.append_nil]

theorem local_keeping {rest : Lowering (List Block)} (isLocal : Local rest) : Local (block.keeping rest) :=
  .bind block.local_isDiscarded fun _ => .bind block.local_loose fun _ => .bind isLocal fun _ => .pure _

section

variable {block} {rest : Lowering (List Block)} {c : Compilation}

private theorem keeping_eq : block.keeping rest c =
    (if (block.isDiscarded c).1 then (rest (block.meaning.loose c).2).1
      else block :: (rest (block.meaning.loose c).2).1, (rest (block.meaning.loose c).2).2) := rfl

theorem keeping_of_discarded (discarded : (block.isDiscarded c).1 = true) :
    block.keeping rest c = rest (block.meaning.loose c).2 := by
  rw [keeping_eq, discarded]
  rfl

theorem keeping_of_kept (kept : (block.isDiscarded c).1 = false) : block.keeping rest c =
      (block :: (rest (block.meaning.loose c).2).1, (rest (block.meaning.loose c).2).2) := by
  rw [keeping_eq, kept]
  rfl

end

/-- A block that is discarded is on record as detached and has no other effect, and a block that stays
does at top level what it does anywhere. -/
theorem loose_eq (c : Compilation) : (block.meaning.loose c).2 = if (block.isDiscarded c).1 then
      { c with diagnostics := (block.meaning.statement c).2.diagnostics ++
          [⟨.detached block.head.kind.name, c.location⟩] }
    else (block.meaning.statement c).2 := by
  obtain ⟨code, after, notes, runs⟩ := block.local_statement c.draft c.phase
  have run : block.meaning.statement c = _ := runs c.steps c.diagnostics
  have tried := tentatively_of_run (bind_of_run run :
    (do let code ← block.meaning.statement; return if code.isEmpty then some () else none) c = _)
  unfold isDiscarded Meaning.loose
  rw [bind_of_run tried, run, block.kind_meaning]
  cases code with
  | nil => rfl
  | cons _ _ => rfl

theorem isDiscarded_of_value (produces : block.head.kind.producesValue = true) (c : Compilation) :
    (block.isDiscarded c).1 = true := by
  have comment := Site.asStatement_of_value (show block.site.kind.producesValue = true from produces)
  unfold isDiscarded
  rw [block.statement_eq, comment]
  rfl

end Block

theorem local_keptFollowing (chain : List Block) : Local (keptFollowing chain) := by
  induction chain with
  | nil => exact .pure _
  | cons next rest ih => exact .within _ (next.local_keeping ih)

/-! Lowering only the blocks that stay. -/

/-- Blocks that all stay if they are lowered alone, which comes to the same program as the given one. -/
structure Stay (kept : List Block) (after d : Compilation) : Prop where
  all : (keptFollowing kept d).1 = kept
  alike : after.Alike (keptFollowing kept d).2

/-- If a block is discarded the other run does not see it, and otherwise both runs keep it. -/
theorem Block.stay_keeping (block : Block) {rest : Lowering (List Block)}
    (later : ∀ c d : Compilation, c.Alike d → Stay (rest c).1 (rest c).2 d) (same : c.Alike d) :
    Stay (block.keeping rest c).1 (block.keeping rest c).2 d := by
  cases discarded : (block.isDiscarded c).1 with
  | true =>
    rw [keeping_of_discarded discarded]
    have undone : (block.meaning.loose c).2.Alike d := by
      rw [block.loose_eq, discarded]
      exact ⟨same.draft, same.phase⟩
    exact later _ d undone
  | false =>
    let inner : Compilation := { d with steps := ⟨"next", block.meaning.id⟩ :: d.steps }
    have entered : c.Alike inner := ⟨same.draft, same.phase⟩
    have kept : (block.isDiscarded inner).1 = false :=
      (block.local_isDiscarded.alike entered).1.symm.trans discarded
    have next := later _ _ (block.local_loose.alike entered).2
    have other (chain : List Block) : keptFollowing (block :: chain) d =
        ((block.keeping (keptFollowing chain) inner).1,
          (leave (block.keeping (keptFollowing chain) inner).2).2) := rfl
    rw [keeping_of_kept discarded]
    constructor
    · rw [other, keeping_of_kept kept]
      exact congrArg (List.cons block) next.all
    · rw [other, keeping_of_kept kept]
      exact ⟨next.alike.draft, next.alike.phase⟩

theorem stay_keptFollowing (chain : List Block) (c d : Compilation) (same : c.Alike d) :
    Stay (keptFollowing chain c).1 (keptFollowing chain c).2 d := by
  induction chain generalizing c d with
  | nil => exact ⟨rfl, same⟩
  | cons next rest ih =>
    let inner : Compilation := { c with steps := ⟨"next", next.meaning.id⟩ :: c.steps }
    have stay := next.stay_keeping (c := inner) ih ⟨same.draft, same.phase⟩
    exact ⟨stay.all, stay.alike.draft, stay.alike.phase⟩

theorem stay_keptChain (index : Nat) (chain : List Block) (detached : c.phase = .detached)
    (same : c.Alike d) : Stay (keptChain index chain c).1 (keptChain index chain c).2 d := by
  cases chain with
  | nil => exact ⟨rfl, same⟩
  | cons first rest =>
    rw [keptChain]
    split
    · exact ⟨rfl, same.draft, same.phase⟩
    · let inner : Compilation :=
        { c with
          steps := ⟨"blocks[" ++ toString index ++ "]", first.meaning.id⟩ :: c.steps
          phase := .detached }
      have entered : inner.Alike d := ⟨same.draft, detached.symm.trans same.phase⟩
      have stay := first.stay_keeping (stay_keptFollowing rest) entered
      refine ⟨stay.all, stay.alike.draft, ?_⟩
      rw [(local_keptFollowing _).phase_eq, ← same.phase]
      rfl

/-! What stays can be lowered in place of the whole. -/

def Plain (chain : List Block) : Prop := ∀ block ∈ chain, block.head.kind.producesValue = false

theorem Block.plain_keeping (block : Block) {rest : Lowering (List Block)}
    (later : ∀ c, Plain (rest c).1) (c : Compilation) : Plain (block.keeping rest c).1 := by
  cases discarded : (block.isDiscarded c).1 with
  | true =>
    rw [keeping_of_discarded discarded]
    exact later _
  | false =>
    rw [keeping_of_kept discarded]
    refine List.forall_mem_cons.2 ⟨?_, later _⟩
    by_contra value
    rw [block.isDiscarded_of_value (eq_true_of_ne_false value)] at discarded
    contradiction

theorem plain_keptFollowing (chain : List Block) (c : Compilation) : Plain (keptFollowing chain c).1 := by
  induction chain generalizing c with
  | nil => exact nofun
  | cons next rest ih => exact next.plain_keeping ih _

theorem plain_keptChain (index : Nat) (chain : List Block) (c : Compilation) :
    Plain (keptChain index chain c).1 := by
  cases chain with
  | nil => exact nofun
  | cons first rest =>
    rw [keptChain]
    split
    · exact nofun
    · exact first.plain_keeping (plain_keptFollowing rest) _

theorem Stay.root {kept : List Block} {after : Compilation} (stay : Stay kept after d)
    (plain : Plain kept) (detached : d.phase = .detached) (index : Nat) :
    (keptChain index kept d).1 = kept ∧ after.Alike (keptChain index kept d).2 := by
  cases kept with
  | nil => exact ⟨rfl, stay.alike⟩
  | cons first rest =>
    let inner : Compilation := { d with steps := ⟨"next", first.meaning.id⟩ :: d.steps }
    let top : Compilation :=
      { d with
        steps := ⟨"blocks[" ++ toString index ++ "]", first.meaning.id⟩ :: d.steps
        phase := .detached }
    have entered : inner.Alike top := ⟨rfl, detached⟩
    obtain ⟨same, alike⟩ := (first.local_keeping (local_keptFollowing rest)).alike entered
    have statement : first.meaning.kind.producesValue = false := by
      rw [first.kind_meaning]
      exact plain first List.mem_cons_self
    have run : keptChain index (first :: rest) d =
        ((first.keeping (keptFollowing rest) top).1,
          (leave { (first.keeping (keptFollowing rest) top).2 with phase := d.phase }).2) := by
      rw [keptChain, statement]
      rfl
    rw [run]
    refine ⟨same.symm.trans stay.all, stay.alike.draft.trans alike.draft, ?_⟩
    rw [stay.alike.phase, (local_keptFollowing _).phase_eq]
    rfl

namespace Program

section

variable {index : Nat} {root : Chain} {rest : List Chain}

private theorem keptFrom_cons : keptFrom index (root :: rest) c = (if (keptChain index root c).1.isEmpty then
        (keptFrom (index + 1) rest (keptChain index root c).2).1
      else (keptChain index root c).1 :: (keptFrom (index + 1) rest (keptChain index root c).2).1,
      (keptFrom (index + 1) rest (keptChain index root c).2).2) := rfl

private theorem keptFrom_of_none (kept : (keptChain index root c).1 = []) :
    keptFrom index (root :: rest) c = keptFrom (index + 1) rest (keptChain index root c).2 := by
  rw [keptFrom_cons, kept]
  rfl

private theorem keptFrom_of_some {first : Block} {more : List Block}
    (kept : (keptChain index root c).1 = first :: more) : keptFrom index (root :: rest) c =
      ((first :: more) :: (keptFrom (index + 1) rest (keptChain index root c).2).1,
        (keptFrom (index + 1) rest (keptChain index root c).2).2) := by
  rw [keptFrom_cons, kept]
  rfl

end

/-- What stays of a program stays if it is lowered alone, and comes to the same program. -/
theorem keptFrom_keptFrom (roots : List Chain) (i j : Nat) (detached : c.phase = .detached)
    (same : c.Alike d) : (keptFrom j (keptFrom i roots c).1 d).1 = (keptFrom i roots c).1 ∧
      (keptFrom i roots c).2.Alike (keptFrom j (keptFrom i roots c).1 d).2 := by
  induction roots generalizing i j c d with
  | nil => exact ⟨rfl, same⟩
  | cons root rest ih =>
    have stay := stay_keptChain i root detached same
    have plain := plain_keptChain i root c
    have still : (keptChain i root c).2.phase = .detached := by
      rw [stay.alike.phase, (local_keptFollowing _).phase_eq, ← same.phase, detached]
    cases kept : (keptChain i root c).1 with
    | nil =>
      -- A root that is discarded whole is not there in the other run, which stays where it is.
      rw [kept] at stay
      rw [keptFrom_of_none kept]
      exact ih (i + 1) j still stay.alike
    | cons first more =>
      rw [kept] at stay plain
      obtain ⟨all, alike⟩ := stay.root plain (same.phase.symm.trans detached) j
      obtain ⟨others, last⟩ := ih (i + 1) (j + 1) still alike
      rw [keptFrom_of_some kept, keptFrom_of_some all]
      exact ⟨congrArg (List.cons _) others, last⟩

/-- Discarded blocks have no influence on a program: without them its text is the same, and nothing is
discarded any more. What is discarded shows while the program is lowered: it is what is recorded as
detached at top level. -/
theorem compile_pruned (program : Program) :
    program.pruned.compile.text = program.compile.text ∧ program.pruned.pruned = program.pruned ∧
      keptFrom 0 program.roots {} = (program.pruned.roots, program.lowered) ∧
      ∀ (block : Block) (c : Compilation), (block.meaning.loose c).2 = if (block.isDiscarded c).1 then
          { c with diagnostics := (block.meaning.statement c).2.diagnostics ++
              [⟨.detached block.head.kind.name, c.location⟩] }
        else (block.meaning.statement c).2 := by
  have start : Compilation.Alike {} {} := ⟨rfl, rfl⟩
  obtain ⟨all, alike⟩ := keptFrom_keptFrom program.roots 0 0 rfl start
  have run : keptFrom 0 program.roots {} = (program.pruned.roots, program.lowered) :=
    Prod.ext rfl (keptFrom_run 0 program.roots {})
  refine ⟨?_, congrArg Program.mk all, run, Block.loose_eq⟩
  have same : program.lowered.draft = program.pruned.lowered.draft := by
    have draft := alike.draft
    rw [keptFrom_run, keptFrom_run] at draft
    exact draft
  rw [text_compile, text_compile, same]

example : (pruned ⟨[[.mk { kind := .number } [] []],
    [.mk { kind := .log } [] [], .mk { kind := .timer } [] [], .mk { kind := .log } [] []]]⟩).roots.map
      (List.map fun block => block.head.kind) = [[.timer]] := by decide +kernel

end Program

end FlipperBlocks
