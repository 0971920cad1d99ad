import FlipperBlocks.Proofs.Block.Loading
import FlipperBlocks.Proofs.Lowering.ComposedCode
import Mathlib.Data.List.Perm.Subperm
import Mathlib.Order.Bounds.Basic

/-! The branches of a conditional.

The branches of a saved conditional are numbered from zero on without a gap. They are lowered in their order,
each condition before its body, and what stands in the input for all other cases comes last. -/
namespace FlipperBlocks

open C (Code Expr Line)
open Document Lowering

theorem Returns.bind_congr {α β : Type} {post : α → Prop} {action : Lowering α} {f g : α → Lowering β}
    (returns : Returns action post) (same : ∀ a, post a → f a = g a) : action >>= f = action >>= g := by
  ext c
  · exact congrArg Prod.fst (congrFun (same _ (returns c)) _)
  · exact congrArg Prod.snd (congrFun (same _ (returns c)) _)

/-! The search for the first number without a branch. -/

namespace Lowering

variable {site : Site}

private theorem branchEnd_le (fuel number : Nat) :
    number ≤ branchEnd site fuel number ∧ branchEnd site fuel number ≤ number + fuel := by
  induction fuel generalizing number with
  | zero => exact ⟨le_rfl, le_rfl⟩
  | succ fuel ih =>
    have next := ih (number + 1)
    rw [branchEnd]
    split <;> omega

private theorem hasBranch_of_lt_branchEnd {fuel number other : Nat} (start : number ≤ other)
    (before : other < branchEnd site fuel number) : hasBranch site other = true := by
  induction fuel generalizing number with
  | zero => exact absurd before (by simpa [branchEnd] using start)
  | succ fuel ih =>
    rw [branchEnd] at before
    split at before
    · rename_i here
      rcases Nat.eq_or_lt_of_le start with rfl | later
      · exact here
      · exact ih later before
    · omega

private theorem not_hasBranch_branchEnd {fuel number : Nat}
    (found : branchEnd site fuel number < number + fuel) :
    hasBranch site (branchEnd site fuel number) = false := by
  induction fuel generalizing number with
  | zero => exact absurd found (by simp [branchEnd])
  | succ fuel ih =>
    rw [branchEnd] at found ⊢
    split
    · rename_i here
      rw [if_pos here] at found
      apply ih
      omega
    · rename_i here
      simpa using here

private def branchName (site : Site) (number : Nat) : String :=
  if site.hasInput ("IF" ++ toString number) then "IF" ++ toString number else "DO" ++ toString number

private theorem branchName_injective (site : Site) : Function.Injective (branchName site) := by
  intro n m same
  have stem (number : Nat) : ∃ stem : String, stem.toList.length = 2 ∧
      branchName site number = stem ++ toString number := by
    unfold branchName
    split
    · exact ⟨"IF", rfl, rfl⟩
    · exact ⟨"DO", rfl, rfl⟩
  obtain ⟨front, long, first⟩ := stem n
  obtain ⟨back, longToo, second⟩ := stem m
  have letters : front.toList ++ (toString n).toList = back.toList ++ (toString m).toList := by
    rw [← String.toList_append, ← String.toList_append, ← first, ← second, same]
  have digits : toString n = toString m :=
    String.toList_inj.1 (List.append_inj letters (long.trans longToo.symm)).2
  apply @Draft.numbered_inj "" n m
  rw [Draft.numbered, Draft.numbered, digits]

private theorem mem_inputs_of_hasBranch {number : Nat} (has : hasBranch site number = true) :
    branchName site number ∈ site.values.map Prod.fst ++ site.bodies.map Prod.fst := by
  have listed {input : String} (has : site.hasInput input = true) :
      input ∈ site.values.map Prod.fst ++ site.bodies.map Prod.fst := by
    have among {entries : Entries (List Meaning)} (has : entries.has input = true) :
        input ∈ entries.map Prod.fst := by
      obtain ⟨chain, found⟩ := Option.isSome_iff_exists.1 has
      exact List.mem_map_of_mem (f := Prod.fst) (Entries.mem_of_get? found)
    rw [Site.hasInput, Bool.or_eq_true] at has
    rw [List.mem_append]
    exact has.imp among among
  rw [hasBranch, Bool.or_eq_true] at has
  unfold branchName
  split
  · exact listed ‹_›
  · exact listed (has.resolve_left ‹_›)

/-- There are not as many inputs as it would take to have a branch for each of the numbers. -/
private theorem exists_not_hasBranch (site : Site) : ∃ number,
    1 ≤ number ∧ number ≤ site.values.length + site.bodies.length + 1 ∧ hasBranch site number = false := by
  by_contra none
  push Not at none
  let numbers := List.range' 1 (site.values.length + site.bodies.length + 1)
  have distinct : (numbers.map (branchName site)).Nodup :=
    List.Nodup.map (branchName_injective site) List.nodup_range'
  have among : numbers.map (branchName site) ⊆
      site.values.map Prod.fst ++ site.bodies.map Prod.fst := by
    intro name member
    obtain ⟨number, listed, rfl⟩ := List.mem_map.1 member
    obtain ⟨least, below⟩ := List.mem_range'_1.1 listed
    apply mem_inputs_of_hasBranch
    simpa using none number least (by omega)
  have bound := (List.subperm_of_subset distinct among).length_le
  simp [numbers] at bound

theorem isLeast_branchCount (site : Site) :
    IsLeast {number | 1 ≤ number ∧ hasBranch site number = false} (branchCount site) := by
  constructor
  · obtain ⟨lower, upper⟩ := @branchEnd_le site (site.values.length + site.bodies.length) 1
    refine ⟨lower, ?_⟩
    rcases Nat.eq_or_lt_of_le upper with last | early
    · -- All numbers before the last one have a branch, and so the last one has none.
      obtain ⟨number, least, most, lacks⟩ := exists_not_hasBranch site
      rcases Nat.lt_or_ge number (branchCount site) with inner | outer
      · rw [hasBranch_of_lt_branchEnd least inner] at lacks
        contradiction
      · have same : branchCount site = number := by
          unfold branchCount at outer ⊢
          omega
        rwa [same]
    · exact not_hasBranch_branchEnd early
  · rintro number ⟨least, lacks⟩
    by_contra early
    rw [Nat.not_le] at early
    rw [hasBranch_of_lt_branchEnd least early] at lacks
    contradiction

end Lowering

namespace Document

namespace SavedBlock

def id : SavedBlock → Option String
  | .mk _ id _ _ _ => id

variable (names : Entries String)

theorem head_toBlock (saved : SavedBlock) : (saved.toBlock names).meaning.id = saved.id := by
  rw [Block.id_meaning]
  obtain ⟨kind, id, fields, inputs, next⟩ := saved
  rfl

def condition (inputs : List (String × SavedInput)) (number : Nat) : Lowering Value :=
  match held? inputs ("IF" ++ toString number) with
  | some saved => within ⟨"IF" ++ toString number, saved.id⟩ ((saved.toBlock names).meaning.value false)
  | none => return .truth false

def code (inputs : List (String × SavedInput)) (input : String) : Lowering Code :=
  match held? inputs input with
  | some saved => within ⟨input, saved.id⟩ (Chain.lower (saved.toChain names))
  | none => return []

private def conditionalSite (id : Option String) (fields : Entries Json)
    (inputs : List (String × SavedInput)) (next : Option SavedInput) : Site :=
  ((SavedBlock.mk "controls_if" id fields inputs next).toBlock names).site

variable (id : Option String) (fields : Entries Json) (inputs : List (String × SavedInput))
  (next : Option SavedInput)

private theorem get?_values (input : String) :
    (conditionalSite names id fields inputs next).values.get? input =
      if BlockKind.takesStatements .conditional input then none
      else (held? inputs input).map fun saved => (saved.toChain names).map Block.meaning := by
  have kept := get?_values_toBlock names "controls_if" id fields inputs next input
  refine (Block.get?_values _ _).trans ((congrArg (Option.map (List.map Block.meaning)) kept).trans ?_)
  change Option.map _ (if BlockKind.takesStatements .conditional input then _ else _) = _
  cases BlockKind.takesStatements .conditional input <;> simp [Function.comp_def]

private theorem get?_bodies (input : String) :
    (conditionalSite names id fields inputs next).bodies.get? input =
      if BlockKind.takesStatements .conditional input then
        (held? inputs input).map fun saved => (saved.toChain names).map Block.meaning else none := by
  have kept := get?_bodies_toBlock names "controls_if" id fields inputs next input
  refine (Block.get?_bodies _ _).trans ((congrArg (Option.map (List.map Block.meaning)) kept).trans ?_)
  change Option.map _ (if BlockKind.takesStatements .conditional input then _ else _) = _
  cases BlockKind.takesStatements .conditional input <;> simp [Function.comp_def]

private theorem hasInput_eq (input : String) :
    (conditionalSite names id fields inputs next).hasInput input = (held? inputs input).isSome := by
  rw [Site.hasInput, Entries.has, Entries.has, get?_values, get?_bodies]
  cases BlockKind.takesStatements .conditional input <;> simp

private theorem truth_eq (number : Nat) :
    (conditionalSite names id fields inputs next).truth ("IF" ++ toString number) false =
      condition names inputs number := by
  have tested := takesStatements_of_namesValue (namesValue_test number) .conditional
  have other : "IF" ++ toString number ≠ "STRING" := by
    intro same
    have letters := congrArg (List.take 2 ∘ String.toList) same
    simp [String.toList_append] at letters
  have plain : (conditionalSite names id fields inputs next).kind.takesText
      ("IF" ++ toString number) = false := by
    rw [BlockKind.takesText, beq_false_of_ne other]
    rfl
  rw [Site.truth, Site.value, get?_values, tested, if_neg Bool.false_ne_true, condition, plain]
  cases held? inputs ("IF" ++ toString number) with
  | none => rfl
  | some saved =>
    obtain ⟨rest, chain⟩ := saved.exists_toChain names
    rw [Option.map_some, chain, List.map_cons]
    dsimp only
    rw [head_toBlock]

private theorem statements_eq {input : String} (taken : BlockKind.takesStatements .conditional input = true) :
    (conditionalSite names id fields inputs next).statements input = code names inputs input := by
  rw [Site.statements, get?_bodies, taken, if_pos rfl, code]
  cases held? inputs input with
  | none => rfl
  | some saved =>
    obtain ⟨rest, chain⟩ := saved.exists_toChain names
    have lowered : Chain.lower (saved.toChain names) =
        Meaning.chain ((saved.toBlock names).meaning :: rest.map Block.meaning) := by
      unfold Chain.lower
      rw [chainMeanings_eq_map, chain, List.map_cons]
    rw [Option.map_some, chain, List.map_cons]
    dsimp only
    rw [lowered, head_toBlock]

private theorem composes_code (input : String) : Composes (code names inputs input) := by
  unfold code
  split
  · exact fun _ => Chain.composes _ _
  · exact .pure C.Code.composed_nil

/-! The text of a conditional. -/

def branchText (number : Nat) (condition body : String) : String :=
  (if number = 0 then "if" else "\x7d else if") ++ " (" ++ condition ++ ") \x7b\n" ++ Text.indent body

def conditionalText (branches : List String) (otherwise : String) : String :=
  String.join branches ++
    (if Text.allBlank otherwise then "" else "\x7d else \x7b\n" ++ Text.indent otherwise) ++ "\x7d\n"

private theorem ended_opening (number : Nat) (test : Expr) :
    (if number = 0 then Line.openBranch test else .nextBranch test).ended =
      (if number = 0 then "if" else "\x7d else if") ++ " (" ++ test.code ++ ") \x7b\n" := by
  have first : (Line.openBranch test).ended = "if (" ++ test.code ++ ") \x7b" ++ "\n" := rfl
  have later : (Line.nextBranch test).ended = "\x7d else if (" ++ test.code ++ ") \x7b" ++ "\n" := rfl
  have ends : ") \x7b" ++ "\n" = ") \x7b\n" := rfl
  have starts : "if" ++ " (" = "if (" ∧ "\x7d else if" ++ " (" = "\x7d else if (" := ⟨rfl, rfl⟩
  split
  · rw [first, String.append_assoc, ends, starts.1]
  · rw [later, String.append_assoc, ends, starts.2]

private theorem text_branch (number : Nat) :
    Code.text <$> branch (conditionalSite names id fields inputs next) number = do
      let test ← condition names inputs number
      let body ← code names inputs ("DO" ++ toString number)
      return branchText number test.expr.code body.text := by
  rw [← truth_eq names id fields inputs next,
    branch, statements_eq names id fields inputs next (BlockKind.takesStatements_body number), map_bind]
  apply bind_congr
  intro test
  rw [map_bind]
  apply (composes_code names inputs _).bind_congr
  intro body composed
  rw [map_pure, Code.text_append, Code.text_line, Code.text_indent composed, ended_opening, branchText]

private theorem text_branches (site : Site) (numbers : List Nat) : Code.text <$> branches site numbers =
      String.join <$> numbers.mapM fun number => Code.text <$> branch site number := by
  induction numbers with
  | nil => rw [branches, List.mapM_nil, map_pure, map_pure, Code.text_nil, String.join_nil]
  | cons number rest ih =>
    have later (code : Code) : (do return (code ++ (← branches site rest)).text) =
        (fun texts => code.text ++ String.join texts) <$>
          rest.mapM fun number => Code.text <$> branch site number := by
      calc (do return (code ++ (← branches site rest)).text)
        _ = (code.text ++ ·) <$> (Code.text <$> branches site rest) := by
          simp only [Code.text_append, map_eq_pure_bind, bind_assoc, pure_bind]
        _ = _ := by rw [ih, Functor.map_map]
    rw [branches, List.mapM_cons, map_bind, map_bind, bind_map_left]
    apply bind_congr
    intro code
    rw [map_bind, map_bind]
    simpa only [String.join_cons, map_eq_pure_bind, pure_bind] using later code

private theorem text_last {otherwise : Code} (composed : otherwise.Composed) :
    Code.text (if otherwise.isEmpty then [] else Code.line .lastBranch ++ otherwise.indent) =
      if Text.allBlank otherwise.text then "" else "\x7d else \x7b\n" ++ Text.indent otherwise.text := by
  rw [Code.allBlank_text composed]
  split
  · rfl
  · rw [Code.text_append, Code.text_line, Code.text_indent composed]
    rfl

private theorem text_conditional : Code.text <$> conditional (conditionalSite names id fields inputs next) =
      (Code.text <$> branches (conditionalSite names id fields inputs next)
        (List.range (branchCount (conditionalSite names id fields inputs next)))) >>= fun front => do
          let otherwise ← code names inputs "ELSE"
          return front ++ (if Text.allBlank otherwise.text then "" else
            "\x7d else \x7b\n" ++ Text.indent otherwise.text) ++ "\x7d\n" := by
  rw [conditional, statements_eq names id fields inputs next rfl, map_bind, bind_map_left]
  apply bind_congr
  intro front
  rw [map_bind]
  apply (composes_code names inputs "ELSE").bind_congr
  intro otherwise composed
  rw [map_pure, Code.text_append, Code.text_append, text_last composed, Code.text_line]
  rfl

/-- The branches of a saved conditional are those before the first number without any, each one lowered once
and in their order. A last one follows if the code in the input for it is not blank. -/
theorem conditional_branches : (SavedBlock.mk "controls_if" id fields inputs next).toChain names =
      (SavedBlock.mk "controls_if" id fields inputs next).toBlock names :: nextChain names next ∧
    ∃ count, IsLeast {number | 1 ≤ number ∧ held? inputs ("IF" ++ toString number) = none ∧
        held? inputs ("DO" ++ toString number) = none} count ∧
      Code.text <$> ((SavedBlock.mk "controls_if" id fields inputs next).toBlock names).meaning.statement =
        do
          let branches ← (List.range count).mapM fun number => do
            let test ← condition names inputs number
            let body ← code names inputs ("DO" ++ toString number)
            return branchText number test.expr.code body.text
          let otherwise ← code names inputs "ELSE"
          return conditionalText branches otherwise.text := by
  let site := conditionalSite names id fields inputs next
  have lowered : ((SavedBlock.mk "controls_if" id fields inputs next).toBlock names).meaning.statement =
      conditional site := by
    rw [Block.statement_eq]
    rfl
  refine ⟨by rw [toChain]; rfl, branchCount site, ?_, ?_⟩
  · have numbers : {number | 1 ≤ number ∧ held? inputs ("IF" ++ toString number) = none ∧
        held? inputs ("DO" ++ toString number) = none} =
        {number | 1 ≤ number ∧ hasBranch site number = false} := by
      ext number
      simp [hasBranch, site, hasInput_eq]
    rw [numbers]
    exact isLeast_branchCount site
  · rw [lowered, text_conditional, text_branches, bind_map_left]
    simp only [text_branch]
    rfl

end SavedBlock

end Document

end FlipperBlocks
