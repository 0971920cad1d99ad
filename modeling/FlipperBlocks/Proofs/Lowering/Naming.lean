import FlipperBlocks.Proofs.Lowering.ProgramOutcomes

/-! Names that a program and lowering both want.

Lowering looks for a free name when it makes a buffer, an array or a counter, but a variable takes what
is there under its name. So a variable meets storage of lowering's own only where that comes first. -/
namespace FlipperBlocks

open Lowering

namespace Draft

def Owns (draft : Draft) (name : String) : Prop :=
  ∃ storage ∈ draft.storage, storage.name = name ∧ draft.Made storage

def loopCounters (draft : Draft) : List String :=
  draft.kept.flatMap fun code => code.filterMap fun placed =>
    match placed.line with
    | .openFor counter _ => some counter
    | _ => none

variable {names : List String} {draft : Draft}

private theorem Tabled.owns_iff (tabled : draft.Tabled) {storage : Storage}
    (declared : storage ∈ draft.storage) : draft.Owns storage.name ↔ draft.Made storage := by
  constructor
  · rintro ⟨other, member, same, made⟩
    have first := (tabled.lookup storage.name other).2 ⟨member, same⟩
    have second := (tabled.lookup storage.name storage).2 ⟨declared, rfl⟩
    rw [first] at second
    injection second with equal
    exact equal ▸ made
  · exact fun made => ⟨storage, declared, rfl, made⟩

theorem Moves.generatedName_of_owns (moves : Moves names {} draft) {name : String}
    (owns : draft.Owns name) : GeneratedName name := by
  obtain ⟨storage, declared, rfl, made⟩ := owns
  exact moves.sorted.made storage declared made

/-- What is declared under the name of a variable is lowering's own if it was so before. -/
theorem Tabled.made_declare_iff (tabled : draft.Tabled) {storage : Storage}
    (usual : storage.type.isVariable = true) :
    (draft.declare storage).Made (((draft.declare storage).lookup? storage.name).getD storage) ↔
      draft.Owns storage.name := by
  cases found : draft.lookup? storage.name with
  | some old =>
    obtain ⟨declared, same⟩ := (tabled.lookup _ _).1 found
    rw [declare_of_declared found, found, Option.getD_some, ← same, tabled.owns_iff declared]
  | none =>
    have absent := tabled.lookup?_eq_none_iff.1 found
    have slots : (draft.declare storage).slots = draft.slots := by rw [declare_of_free found]
    rw [lookup?_declare, found, if_pos rfl, Option.none_or, Option.getD_some]
    refine iff_of_false ?_ ?_
    · rintro (other | told)
      · rw [usual] at other
        contradiction
      · rw [slots] at told
        obtain ⟨entry, member, same⟩ := List.mem_map.1 told
        exact absent (same ▸ tabled.slots entry member)
    · rintro ⟨other, member, same, _⟩
      exact absent (same ▸ List.mem_map_of_mem member)

theorem Sound.numbered_of_mem_loopCounters {last : Draft} (sound : draft.Sound last)
    {counter : String} (member : counter ∈ draft.loopCounters) : ∃ number, counter = numbered "i" number := by
  obtain ⟨code, kept, inside⟩ := List.mem_flatMap.1 member
  obtain ⟨placed, among, counts⟩ := List.mem_filterMap.1 inside
  have holds := (sound.kept code kept).holds placed among
  split at counts
  · rename_i counter' bound opening
    injection counts with same
    rw [opening] at holds
    exact same ▸ holds.1
  · contradiction

end Draft

theorem GeneratedName.ne_counter {name : String} (generated : GeneratedName name) (number : Nat) :
    name ≠ Draft.numbered "i" number := by
  have start : (Draft.numbered "i" number).toList.take 2 = ['i', '_'] := by simp [Draft.numbered]
  have other : name.toList.take 2 ≠ ['i', '_'] := by
    cases generated with
    | buffer shared =>
      have each : ∀ name ∈ ["display_buffer", "storage_buffer"], name.toList.take 2 ≠ ['i', '_'] := by decide
      exact each name shared
    | @numbered stem listed number =>
      have each : ∀ stem ∈ generatedStems, 2 ≤ stem.toList.length ∧
          stem.toList.take 2 ≠ ['i', '_'] := by decide
      obtain ⟨long, differs⟩ := each stem listed
      rw [Draft.numbered, String.append_assoc, String.toList_append, List.take_append_of_le_length long]
      exact differs
    | @state output storage remembered =>
      rcases List.mem_pair.1 remembered with rfl | rfl <;> cases output <;> decide
  rintro rfl
  exact other start

theorem Lowering.made_resolve_iff {names : List String} {c : Compilation}
    (reached : Draft.Moves names {} c.draft) (site : Site) (asText : Bool) :
    (resolve site asText c).2.draft.Made (resolve site asText c).1 ↔ c.draft.Owns (variableName site) := by
  unfold resolve
  generalize variableName site = name
  refine @Draft.Tabled.made_declare_iff c.draft reached.tabled ⟨name, _⟩ ?_
  cases asText <;> rfl

theorem Block.counter_undeclared (block : Block) (loop : block.head.kind = .repeated)
    (before : Compilation) : ∃ counter bound body,
      (block.meaning.statement before).1 = C.Code.braced (.openFor counter bound) body ∧
        before.draft.lookup? counter = none := by
  have place : block.site.kind = .repeated := loop
  have statement : block.meaning.statement = Lowering.repeated block.site := by
    rw [block.statement_eq, Site.asStatement, place]
  let outcome : Outcome := ⟨{}, fun _ => True⟩
  have fits : block.site.Fits outcome before.phase := block.site_fits (fun _ => trivial) _
  let times := block.site.numeric "TIMES" "1" before
  have grown : before.draft.Extends times.2.draft := (fits.numeric "TIMES" (by decide) True [] before rfl).1
  refine ⟨Draft.numbered "i" (times.2.draft.freshNumber "i"), _, _, by rw [statement]; rfl, ?_⟩
  exact grown.lookup_none (times.2.draft.lookup?_freshNumber "i")

namespace Program

/-- Where the variables of a program meet names that lowering makes. -/
structure NamesInOrder (program : Program) : Prop where
  passages : program.Throughout (.moves program.variableNames)
  /-- A variable resolves to lowering's own storage just where that has its name already. -/
  resolved : ∀ c : Compilation, Draft.Moves program.variableNames {} c.draft → ∀ site asText,
    (resolve site asText c).2.draft.Made (resolve site asText c).1 ↔
      c.draft.Owns (variableName site)
  generated : ∀ c : Compilation, Draft.Moves program.variableNames {} c.draft →
    ∀ name, c.draft.Owns name → GeneratedName name
  /-- Storage stays what it is, lowering's own or a variable's. -/
  settled : program.Throughout fun _ before after => ∀ storage ∈ before.draft.storage,
    after.draft.Made storage ↔ before.draft.Made storage
  fresh : ∀ (c : Compilation) (stem : String), c.draft.lookup? (Lowering.fresh stem c).1 = none
  loops : ∀ block : Block, block.head.kind = .repeated → ∀ c : Compilation, ∃ counter bound body,
    (block.meaning.statement c).1 = C.Code.braced (.openFor counter bound) body ∧
      c.draft.lookup? counter = none
  /-- A counter that names a global in the end names a variable of the program. -/
  counters : ∀ counter ∈ program.lowered.draft.loopCounters,
    ∀ storage ∈ program.lowered.draft.storage, storage.scope = .program → storage.name = counter →
      ¬ program.lowered.draft.Made storage ∧ counter ∈ program.variableNames

theorem names_meet_in_order (program : Program) : program.NamesInOrder where
  passages := program.throughout_moves
  resolved _ reached := made_resolve_iff reached
  generated _ reached _ owns := reached.generatedName_of_owns owns
  settled := program.throughout_moves.imp fun _ _ _ passed _ declared => passed.1.made_iff passed.2 declared
  fresh c stem := c.draft.lookup?_freshNumber stem
  loops block loop c := block.counter_undeclared loop c
  counters := by
    rintro counter member storage declared _ rfl
    have sorted := program.moves_lowered.sorted
    obtain ⟨number, same⟩ := program.lowered_sound.numbered_of_mem_loopCounters member
    have unmade : ¬ program.lowered.draft.Made storage := fun made =>
      (sorted.made storage declared made).ne_counter number same
    exact ⟨unmade, sorted.unmade storage declared unmade⟩

private def looped (chain : Chain) : Program := ⟨[[.mk { kind := .app } [] [("LOOP", chain)]]]⟩

private def variableHead (kind : BlockKind) (name : String) : BlockHead where
  kind := kind
  fields := [("VAR", .text name)]

def bufferBeforeVariable : Program := looped
  [.mk { kind := .print } [("TEXT", [.mk { kind := .numberToText }
      [("NUMBER", [.mk (variableHead .getVariable "count") [] []])] []])] [],
    .mk (variableHead .setVariable "num_str_0") [] []]

def loopBeforeText : Program := looped
  [.mk { kind := .repeated } [] [],
    .mk (variableHead .setVariable "i_0") [("VALUE", [.mk { kind := .text } [] []])] []]

private theorem owns_buffer : bufferBeforeVariable.lowered.draft.Owns "num_str_0" :=
  ⟨⟨"num_str_0", .text 32⟩, by decide +kernel, rfl, .inl rfl⟩

theorem bufferBeforeVariable_meets : (resolve ⟨variableHead .setVariable "num_str_0", [], []⟩ false
        bufferBeforeVariable.lowered).2.draft.Made
      (resolve ⟨variableHead .setVariable "num_str_0", [], []⟩ false bufferBeforeVariable.lowered).1 ∧
      GeneratedName "num_str_0" ∧ "i_0" ∈ loopBeforeText.variableNames := by
  have order := bufferBeforeVariable.names_meet_in_order
  have reached := bufferBeforeVariable.moves_lowered
  have named : variableName ⟨variableHead .setVariable "num_str_0", [], []⟩ = "num_str_0" := by decide +kernel
  refine ⟨(order.resolved _ reached _ _).2 (named ▸ owns_buffer), order.generated _ reached _ owns_buffer, ?_⟩
  exact (loopBeforeText.names_meet_in_order.counters "i_0" (by decide +kernel) ⟨"i_0", .text 256⟩
    (by decide +kernel) rfl rfl).2

/-- What a variable resolves to may be lowering's own, and a counter may be the name of a global. -/
theorem names_met : ("num_str_0" ∈ bufferBeforeVariable.variableNames ∧
      bufferBeforeVariable.lowered.draft.Owns "num_str_0") ∧
    "i_0" ∈ loopBeforeText.lowered.draft.loopCounters ∧ ∃ storage ∈ loopBeforeText.lowered.draft.storage,
        storage.scope = .program ∧ storage.name = "i_0" :=
  ⟨⟨by decide +kernel, owns_buffer⟩, by decide +kernel, ⟨"i_0", .text 256⟩, by decide +kernel,
    rfl, rfl⟩

end Program

end FlipperBlocks
