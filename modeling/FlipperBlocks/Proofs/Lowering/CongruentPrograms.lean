import FlipperBlocks.Proofs.Lowering.Congruence

/-! Programs under a relation that is handed on. -/
namespace FlipperBlocks

open C (Code Expr)
open Lowering

mutual

def Block.anonymous : Block → Block
  | .mk head values bodies => .mk { head with id := none } (anonymousInputs values) (anonymousInputs bodies)

def anonymousChain : List Block → List Block
  | [] => []
  | block :: rest => block.anonymous :: anonymousChain rest

def anonymousInputs : List (String × List Block) → List (String × List Block)
  | [] => []
  | (name, chain) :: rest => (name, anonymousChain chain) :: anonymousInputs rest

end

def Program.anonymous (program : Program) : Program := ⟨program.roots.map anonymousChain⟩

theorem anonymousChain_eq_map (chain : List Block) : anonymousChain chain = chain.map Block.anonymous := by
  induction chain with
  | nil => rw [anonymousChain, List.map_nil]
  | cons block rest ih => rw [anonymousChain, ih, List.map_cons]

theorem anonymousInputs_eq_map (inputs : List (String × List Block)) :
    anonymousInputs inputs = inputs.map fun entry => (entry.1, entry.2.map Block.anonymous) := by
  induction inputs with
  | nil => rw [anonymousInputs, List.map_nil]
  | cons entry rest ih => rw [anonymousInputs, ih, anonymousChain_eq_map, List.map_cons]

namespace Block

theorem head_anonymous (block : Block) : block.anonymous.head = { block.head with id := none } := by
  obtain ⟨head, values, bodies⟩ := block
  rw [anonymous]
  rfl

theorem site_anonymous (block : Block) : block.anonymous.site =
    ⟨{ block.head with id := none }, block.anonymous.site.values, block.anonymous.site.bodies⟩ := by
  rw [← head_anonymous]
  rfl

theorem get?_anonymous_values (block : Block) (input : String) : block.anonymous.values.get? input =
      (block.values.get? input).map (List.map Block.anonymous) := by
  obtain ⟨head, values, bodies⟩ := block
  rw [anonymous, anonymousInputs_eq_map]
  exact Entries.get?_map _ values input

theorem get?_anonymous_bodies (block : Block) (input : String) : block.anonymous.bodies.get? input =
      (block.bodies.get? input).map (List.map Block.anonymous) := by
  obtain ⟨head, values, bodies⟩ := block
  rw [anonymous, anonymousInputs_eq_map bodies]
  exact Entries.get?_map _ bodies input

theorem length_anonymous_inputs (block : Block) : block.site.values.length + block.site.bodies.length =
      block.anonymous.site.values.length + block.anonymous.site.bodies.length := by
  obtain ⟨head, values, bodies⟩ := block
  simp [site, anonymous, anonymousInputs_eq_map, inputMeanings_eq_map, Block.values, Block.bodies]

end Block

namespace Congruence

variable (R : Congruence)

structure Relates (block : Block) : Prop where
  value {known : Prop} (rest : List Block) (wantsText : Bool) :
    R.holds known (.here block rest) (Value.Lax True)
      (block.meaning.value wantsText) (block.anonymous.meaning.value wantsText)
  statement {known : Prop} (rest : List Block) : R.holds known (.here block rest) Code.Clean
    block.meaning.statement block.anonymous.meaning.statement

variable {R} {known : Prop}

theorem Relates.following {chain : List Block} (relates : ∀ block ∈ chain, R.Relates block) (block : Block) :
    R.holds known (.here block chain) Code.Clean (Meaning.following (chain.map Block.meaning))
      (Meaning.following ((chain.map Block.anonymous).map Block.meaning)) := by
  induction chain generalizing block known with
  | nil => exact R.pure fun _ => Code.meets_nil
  | cons next rest ih =>
    have first := relates next List.mem_cons_self
    have others (other : Block) (member : other ∈ rest) : R.Relates other :=
      relates other (List.mem_cons_of_mem _ member)
    simp only [List.map_cons, Meaning.following, next.id_meaning]
    refine R.within (by decide) rfl (R.bind (first.statement rest) fun _ =>
      R.bind (ih others next) fun _ => R.pure fun told => ?_)
    exact Code.meets_append.2 ⟨told.1.2, told.2⟩

theorem Relates.chain {block : Block} {rest : List Block} (first : R.Relates block)
    (others : ∀ other ∈ rest, R.Relates other) : R.holds known (.here block rest) Code.Clean
      (Meaning.chain ((block :: rest).map Block.meaning))
      (Meaning.chain (((block :: rest).map Block.anonymous).map Block.meaning)) :=
  R.bind (first.statement rest) fun _ => R.bind (Relates.following others block) fun _ =>
    R.pure fun told => Code.meets_append.2 ⟨told.1.2, told.2⟩

section

variable {block : Block}
  (values : ∀ entry ∈ block.values, ∀ inner ∈ entry.2, R.Relates inner)
  (bodies : ∀ entry ∈ block.bodies, ∀ inner ∈ entry.2, R.Relates inner)

include values in
private theorem Relates.input_value (rest : List Block) {input : String} {default : Value}
    (names : namesValue input = true) (clear : known → default.Lax True) :
    R.holds known (.here block rest) (Value.Lax True)
      (Site.value ⟨block.head, block.site.values, block.site.bodies⟩ input default)
      (Site.value ⟨{ block.head with id := none }, block.anonymous.site.values,
        block.anonymous.site.bodies⟩ input default) := by
  unfold Site.value
  dsimp only
  rw [block.get?_values, block.anonymous.get?_values, block.get?_anonymous_values]
  cases found : block.values.get? input with
  | none => exact R.pure clear
  | some chain =>
    cases chain with
    | nil => exact R.pure clear
    | cons inner others =>
      have named := namesInput_of_namesValue names
      have leads : (Place.here block rest).onward input = inner :: others := by
        rw [Place.onward, if_neg named.1, Block.held, takesStatements_of_namesValue names,
          if_neg Bool.false_ne_true, found, Option.getD_some]
      have relates := values _ (Entries.mem_of_get? found) inner List.mem_cons_self
      simp only [Option.map_some, List.map_cons, inner.id_meaning]
      exact R.within named.2 leads (relates.value others _)

include bodies in
private theorem Relates.input_statements (rest : List Block) {input : String}
    (takes : block.head.kind.takesStatements input = true) : R.holds known (.here block rest) Code.Clean
      (Site.statements ⟨block.head, block.site.values, block.site.bodies⟩ input)
      (Site.statements ⟨{ block.head with id := none }, block.anonymous.site.values,
        block.anonymous.site.bodies⟩ input) := by
  unfold Site.statements
  dsimp only
  rw [block.get?_bodies, block.anonymous.get?_bodies, block.get?_anonymous_bodies]
  cases found : block.bodies.get? input with
  | none => exact R.pure fun _ => Code.meets_nil
  | some chain =>
    cases chain with
    | nil => exact R.pure fun _ => Code.meets_nil
    | cons inner others =>
      have named := BlockKind.namesInput_of_takesStatements takes
      have leads : (Place.here block rest).onward input = inner :: others := by
        rw [Place.onward, if_neg named.1, Block.held, if_pos takes, found, Option.getD_some]
      have relates := bodies _ (Entries.mem_of_get? found)
      simp only [Option.map_some, List.map_cons, inner.id_meaning]
      exact R.within named.2 leads ((relates inner List.mem_cons_self).chain fun other member =>
        relates other (List.mem_cons_of_mem _ member))

private def counterparts (rest : List Block) : CodeCounterparts (R.concord block rest) where
  id := none
  values := block.site.values
  bodies := block.site.bodies
  values' := block.anonymous.site.values
  bodies' := block.anonymous.site.bodies
  listed _ _ := trivial
  written _ _ := trivial
  value names clear := Relates.input_value values rest names (clear {})
  statements takes := Relates.input_statements bodies rest takes
  hasInput name := by
    unfold Site.hasInput Entries.has
    dsimp only
    rw [block.get?_values, block.get?_bodies, block.anonymous.get?_values,
      block.anonymous.get?_bodies, block.get?_anonymous_values, block.get?_anonymous_bodies]
    simp
  size := block.length_anonymous_inputs

include values bodies in
private theorem Relates.of_inputs : R.Relates block where
  value {known} rest wantsText := by
    rw [block.meaning_eq, block.anonymous.meaning_eq, block.site_anonymous]
    exact @Counterparts.asValue _ _ _ (counterparts values bodies rest).toCounterparts .detached (.of known) wantsText
  statement {known} rest := by
    rw [block.statement_eq, block.anonymous.statement_eq, block.site_anonymous]
    exact @CodeCounterparts.asStatement _ _ _ .detached (counterparts values bodies rest) (.of known)

end

theorem relates (R : Congruence) (block : Block) : R.Relates block :=
  block.induction fun head values bodies first second =>
    @Relates.of_inputs R (.mk head values bodies) first second

/-! Chains at top level. -/

variable (R)

theorem loose (block : Block) (rest : List Block) :
    R.holds known (.here block rest) (fun _ => True) block.meaning.loose block.anonymous.meaning.loose := by
  have tried : R.holds known (.here block rest) (fun _ => True) (Lowering.tentatively do
      let code ← block.meaning.statement
      return if code.isEmpty then some () else none) (Lowering.tentatively do
      let code ← block.anonymous.meaning.statement
      return if code.isEmpty then some () else none) :=
    R.tentatively (R.bind ((R.relates block).statement rest) fun _ => R.pure fun _ => trivial)
  unfold Meaning.loose
  rw [block.kind_meaning, block.anonymous.kind_meaning, block.head_anonymous]
  refine R.next tried fun kept => ?_
  split
  · exact R.imp (R.degrade (.inr rfl)) fun _ _ => trivial
  · exact R.pure fun _ => trivial

theorem followingLoose (block : Block) (chain : List Block) :
    R.holds known (.here block chain) (fun _ => True) (Meaning.followingLoose (chain.map Block.meaning))
      (Meaning.followingLoose ((chain.map Block.anonymous).map Block.meaning)) := by
  induction chain generalizing block with
  | nil => exact R.pure fun _ => trivial
  | cons next rest ih =>
    simp only [List.map_cons, Meaning.followingLoose, next.id_meaning]
    exact R.within (by decide) rfl (R.next (R.loose next rest) fun _ => ih next)

theorem looseChain {roots : List Chain} {index : Nat} {chain : Chain}
    (leads : (Place.top roots).onward ("blocks[" ++ toString index ++ "]") = chain) :
    R.holds known (.top roots) (fun _ => True) (Meaning.looseChain index (chainMeanings chain))
      (Meaning.looseChain index (chainMeanings (anonymousChain chain))) := by
  rw [chainMeanings_eq_map, chainMeanings_eq_map, anonymousChain_eq_map]
  cases chain with
  | nil => exact R.pure fun _ => trivial
  | cons first rest =>
    have plain : '>' ∉ ("blocks[" ++ toString index ++ "]").toList := by
      simpa using angle_not_mem_toString index
    simp only [List.map_cons, Meaning.looseChain, first.id_meaning, first.kind_meaning,
      first.anonymous.kind_meaning, first.head_anonymous]
    refine R.within plain leads ?_
    split
    · exact R.imp (R.degrade (.inr rfl)) fun _ _ => trivial
    · exact R.inPhase _ (R.next (R.loose first rest) fun _ => R.followingLoose first rest)

end Congruence

private theorem segment_inj {n m : Nat}
    (same : "blocks[" ++ toString n ++ "]" = "blocks[" ++ toString m ++ "]") : n = m := by
  have letters := congrArg String.toList same
  simp only [String.toList_append, List.append_cancel_right_eq, List.append_cancel_left_eq] at letters
  have digits : toString n = toString m := String.toList_inj.1 letters
  exact @Draft.numbered_inj "" n m (by rw [Draft.numbered, Draft.numbered, digits])

theorem rootNamed_append (before : List Chain) (root : Chain) (rest : List Chain) (index : Nat) :
    rootNamed ("blocks[" ++ toString (index + before.length) ++ "]") index (before ++ root :: rest) =
      root := by
  induction before generalizing index with
  | nil => simp [rootNamed]
  | cons other before ih =>
    have later : ¬ "blocks[" ++ toString (index + (other :: before).length) ++ "]" =
        "blocks[" ++ toString index ++ "]" := fun same => by
      have := segment_inj same
      simp at this
    rw [List.cons_append, rootNamed, if_neg later, List.length_cons, Nat.add_comm before.length,
      ← Nat.add_assoc, ih]

namespace Congruence

variable (R : Congruence) {known : Prop}

private theorem lowerFrom (before roots : List Chain) :
    R.holds known (.top (before ++ roots)) (fun _ => True) (Program.lowerFrom before.length roots)
      (Program.lowerFrom before.length (roots.map anonymousChain)) := by
  induction roots generalizing before with
  | nil => exact R.pure fun _ => trivial
  | cons root rest ih =>
    have leads := rootNamed_append before root rest 0
    rw [Nat.zero_add] at leads
    have others := ih (before ++ [root])
    rw [List.append_assoc, List.singleton_append, List.length_append, List.length_singleton] at others
    exact R.next (R.looseChain leads) fun _ => others

theorem lower (program : Program) :
    R.holds True (.top program.roots) (fun _ => True) program.lower program.anonymous.lower :=
  R.lowerFrom [] program.roots

end Congruence

end FlipperBlocks
