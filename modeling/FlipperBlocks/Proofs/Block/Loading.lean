import FlipperBlocks.Block.Load
import Mathlib.Data.List.Perm.Basic

/-! The blocks of a loaded chain.

A chain can also be made by direct recursion along the links and through the inputs. The loops of loading
make the same one. So a chain holds the blocks that the links lead to, in their order, and each of them the
chains of its inputs, among its values or its statements as its kind has it. -/
namespace FlipperBlocks

open Document

mutual

/-- The chain that starts with a saved block, by direct recursion. -/
def Document.SavedBlock.toChain (names : Entries String) : SavedBlock → Chain
  | .mk kind id fields inputs next =>
    let head := BlockHead.ofSaved names kind id fields
    let inputs := SavedBlock.inputChains names inputs
    .mk head (inputs.filter fun input => !head.kind.takesStatements input.1)
        (inputs.filter fun input => head.kind.takesStatements input.1)
      :: SavedBlock.nextChain names next

def Document.SavedInput.toChain (names : Entries String) : SavedInput → Chain
  | .mk (some block) _ => block.toChain names
  | .mk none (some shadow) => shadow.toChain names
  | .mk none none => []

def Document.SavedBlock.inputChains (names : Entries String) :
    List (String × SavedInput) → List (String × Chain)
  | [] => []
  | (name, input) :: rest =>
    match input.toChain names with
    | [] => SavedBlock.inputChains names rest
    | chain => (name, chain) :: SavedBlock.inputChains names rest

def Document.SavedBlock.nextChain (names : Entries String) : Option SavedInput → Chain
  | some input => input.toChain names
  | none => []

end

namespace Document

def SavedInput.held? : SavedInput → Option SavedBlock
  | .mk block shadow => block.or shadow

namespace SavedBlock

def held? (inputs : List (String × SavedInput)) (name : String) : Option SavedBlock :=
  inputs.findSome? fun entry => if entry.1 = name then entry.2.held? else none

/-- The inputs that hold something, with what they hold. -/
def heldInputs (inputs : List (String × SavedInput)) : Entries SavedBlock :=
  inputs.filterMap fun entry => entry.2.held?.map (entry.1, ·)

/-- The block that a saved block stands for, without those after it. -/
def toBlock (names : Entries String) : SavedBlock → Block
  | .mk kind id fields inputs _ =>
    let head := BlockHead.ofSaved names kind id fields
    .mk head ((inputChains names inputs).filter fun input => !head.kind.takesStatements input.1)
      ((inputChains names inputs).filter fun input => head.kind.takesStatements input.1)

/-- The block that the link of a block leads to. -/
def next? : SavedBlock → Option SavedBlock
  | .mk _ _ _ _ next => next.bind SavedInput.held?

/-- The block that so many links lead to. -/
def after? : Nat → SavedBlock → Option SavedBlock
  | 0, saved => some saved
  | count + 1, saved => saved.next?.bind (after? count)

variable (names : Entries String)

/-! The direct recursion. -/

theorem exists_toChain (saved : SavedBlock) : ∃ rest, saved.toChain names = saved.toBlock names :: rest := by
  obtain ⟨kind, id, fields, inputs, next⟩ := saved
  rw [toChain]
  exact ⟨_, rfl⟩

private theorem toChain_input (input : SavedInput) :
    input.toChain names = (input.held?.map (toChain names)).getD [] := by
  obtain ⟨block, shadow⟩ := input
  cases block <;> cases shadow <;> simp [SavedInput.toChain, SavedInput.held?]

theorem toChain_eq_cons (saved : SavedBlock) :
    saved.toChain names = saved.toBlock names :: (saved.next?.map (toChain names)).getD [] := by
  obtain ⟨kind, id, fields, inputs, next⟩ := saved
  rw [toChain, next?]
  cases next with
  | none => rw [nextChain]; rfl
  | some input => rw [nextChain, toChain_input]; rfl

theorem getElem?_toChain (count : Nat) (saved : SavedBlock) :
    (saved.toChain names)[count]? = (saved.after? count).map (toBlock names) := by
  induction count generalizing saved with
  | zero => rw [toChain_eq_cons, List.getElem?_cons_zero, after?, Option.map_some]
  | succ count ih =>
    rw [toChain_eq_cons, List.getElem?_cons_succ, after?]
    cases saved.next? with
    | none => rfl
    | some follower => exact ih follower

theorem inputChains_eq_map (inputs : List (String × SavedInput)) : inputChains names inputs =
      (heldInputs inputs).map fun entry => (entry.1, entry.2.toChain names) := by
  induction inputs with
  | nil => rw [inputChains]; rfl
  | cons entry rest ih =>
    obtain ⟨name, input⟩ := entry
    have chain := toChain_input names input
    rw [inputChains, heldInputs, List.filterMap_cons]
    cases found : input.held? with
    | none =>
      rw [found] at chain
      rw [chain]
      exact ih
    | some saved =>
      obtain ⟨more, nonempty⟩ := saved.exists_toChain names
      rw [found, Option.map_some, Option.getD_some, nonempty] at chain
      rw [chain]
      simp only [Option.map_some, List.map_cons, nonempty]
      rw [ih]
      rfl

private theorem get?_heldInputs (inputs : List (String × SavedInput)) (name : String) :
    (heldInputs inputs).get? name = held? inputs name := by
  induction inputs with
  | nil => rfl
  | cons entry rest ih =>
    obtain ⟨key, input⟩ := entry
    rw [held?, List.findSome?_cons, heldInputs, List.filterMap_cons]
    cases input.held? with
    | none =>
      rw [ite_self]
      exact ih
    | some saved =>
      rw [Option.map_some, Entries.get?_cons]
      by_cases same : name = key
      · rw [if_pos same, if_pos same.symm]
      · rw [if_neg same, if_neg (Ne.symm same)]
        exact ih

private theorem get?_inputChains (inputs : List (String × SavedInput)) (name : String) :
    Entries.get? (inputChains names inputs) name = (held? inputs name).map (toChain names) := by
  rw [inputChains_eq_map, Entries.get?_map, get?_heldInputs]

section

variable (kind : String) (id : Option String) (fields : Entries Json)
  (inputs : List (String × SavedInput)) (next : Option SavedInput)

theorem get?_values_toBlock (name : String) :
    ((mk kind id fields inputs next).toBlock names).values.get? name =
      if (BlockKind.ofName kind).takesStatements name then none
      else (held? inputs name).map (toChain names) := by
  have kept := Entries.get?_filter (fun name => !(BlockKind.ofName kind).takesStatements name)
    (inputChains names inputs) name
  refine kept.trans ?_
  rw [get?_inputChains]
  cases (BlockKind.ofName kind).takesStatements name <;> rfl

theorem get?_bodies_toBlock (name : String) :
    ((mk kind id fields inputs next).toBlock names).bodies.get? name =
      if (BlockKind.ofName kind).takesStatements name then (held? inputs name).map (toChain names)
      else none := by
  have kept := Entries.get?_filter (BlockKind.ofName kind).takesStatements (inputChains names inputs) name
  rw [get?_inputChains] at kept
  exact kept

private theorem inputs_toBlock_perm : (((mk kind id fields inputs next).toBlock names).values ++
        ((mk kind id fields inputs next).toBlock names).bodies).Perm
      ((heldInputs inputs).map fun entry => (entry.1, entry.2.toChain names)) := by
  rw [← inputChains_eq_map]
  exact List.perm_append_comm.trans
    (List.filter_append_perm (fun input : String × Chain => (BlockKind.ofName kind).takesStatements input.1)
      (inputChains names inputs))

end

/-! The loops call one another, since an input holds a chain with links and inputs of its own. What each of
them makes is stated for whatever it has made before. -/

private def placeAll (block : Block) (inputs : Entries Chain) : Block :=
  inputs.foldl (fun block input => block.place input.1 input.2) block

private theorem placeAll_mk (head : BlockHead) (values bodies inputs : Entries Chain) :
    placeAll (.mk head values bodies) inputs =
      .mk head (values ++ inputs.filter fun input => !head.kind.takesStatements input.1)
        (bodies ++ inputs.filter fun input => head.kind.takesStatements input.1) := by
  induction inputs generalizing values bodies with
  | nil => simp [placeAll]
  | cons input rest ih =>
    rw [placeAll, List.foldl_cons, Block.place]
    cases taken : head.kind.takesStatements input.1
    · refine (ih (values ++ [input]) bodies).trans ?_
      simp [taken]
    · refine (ih values (bodies ++ [input])).trans ?_
      simp [taken]

mutual

/-- The loops of loading make the chain of the direct recursion. -/
theorem load_eq_toChain : (saved : SavedBlock) → saved.load names = saved.toChain names
  | .mk kind id fields inputs next => by
    -- Putting the collected blocks together from the last one on restores their order.
    rw [load, fill_eq_placeAll _ inputs, placeAll_mk, ← Array.foldr_toList, List.foldr_cons_nil,
      toList_follow #[] next, toChain]
    rfl

/-- The loop along the links adds the blocks of the chain that they lead to, in their order. -/
private theorem toList_follow (before : Array Block) : (next : Option SavedInput) →
    (follow names before next).toList = before.toList ++ nextChain names next
  | some (.mk (some (.mk kind id fields inputs next)) _)
  | some (.mk none (some (.mk kind id fields inputs next))) => by
    rw [follow, toList_follow _ next, fill_eq_placeAll _ inputs, placeAll_mk, Array.toList_push,
      List.append_assoc, nextChain, SavedInput.toChain, toChain]
    rfl
  | some (.mk none none) => by
    rw [follow, nextChain, SavedInput.toChain, List.append_nil]
  | none => by
    rw [follow, nextChain, List.append_nil]

private theorem fill_eq_placeAll (block : Block) : (inputs : List (String × SavedInput)) →
    fill names block inputs = placeAll block (inputChains names inputs)
  | [] => by
    rw [fill, inputChains]
    rfl
  | (name, input) :: rest => by
    rw [fill, load?_eq_map input, inputChains_eq_map, heldInputs, List.filterMap_cons]
    cases input.held? with
    | none =>
      dsimp only [Option.map_none]
      rw [fill_eq_placeAll block rest, inputChains_eq_map]
      rfl
    | some saved =>
      dsimp only [Option.map_some]
      rw [fill_eq_placeAll _ rest, inputChains_eq_map]
      rfl

private theorem load?_eq_map : (input : SavedInput) → input.load? names = input.held?.map (toChain names)
  | .mk (some block) _ => by rw [SavedInput.load?, load_eq_toChain block]; rfl
  | .mk none (some shadow) => by rw [SavedInput.load?, load_eq_toChain shadow]; rfl
  | .mk none none => by rw [SavedInput.load?]; rfl

end

/-- The chains of what saved inputs hold are the inputs of a block, each under its name and in the one of
the two places that the kind has for it. -/
structure Keeps (kind : BlockKind) (inputs : List (String × SavedInput)) (block : Block) : Prop where
  together : (block.values ++ block.bodies).Perm
    ((heldInputs inputs).map fun entry => (entry.1, entry.2.toChain names))
  values (name : String) : block.values.get? name =
    if kind.takesStatements name then none else (held? inputs name).map (toChain names)
  bodies (name : String) : block.bodies.get? name =
    if kind.takesStatements name then (held? inputs name).map (toChain names) else none

/-- Loading makes the chain of the direct recursion. Its blocks stand for those that the links lead to,
one for each link and in their order, and each keeps what its inputs hold. -/
theorem loaded_in_place (saved : SavedBlock) : saved.load names = saved.toChain names ∧
    (∀ count, (saved.load names)[count]? = (saved.after? count).map (toBlock names)) ∧
    ∀ kind id fields inputs next,
      Keeps names (.ofName kind) inputs ((mk kind id fields inputs next).toBlock names) := by
  refine ⟨load_eq_toChain names saved, fun count => ?_, fun kind id fields inputs next => ?_⟩
  · rw [load_eq_toChain, getElem?_toChain]
  · exact ⟨inputs_toBlock_perm names kind id fields inputs next,
      get?_values_toBlock names kind id fields inputs next,
      get?_bodies_toBlock names kind id fields inputs next⟩

end SavedBlock

end Document

end FlipperBlocks
