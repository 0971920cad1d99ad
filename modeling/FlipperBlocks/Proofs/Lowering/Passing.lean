import FlipperBlocks.Proofs.Lowering.Locality

/-! Values passed through something before a block takes them from an input.

What a block makes of an input shows in how the block changes when the value in the input is changed. -/
namespace FlipperBlocks

open Lowering

def Meaning.passing (step : Value → Lowering Value) (meaning : Meaning) : Meaning :=
  { meaning with value := fun wantsText => meaning.value wantsText >>= step }

def Site.passing (site : Site) (input : String) (step : Value → Lowering Value) : Site :=
  { site with values := site.values.map fun entry =>
      (entry.1, if entry.1 = input then entry.2.map (Meaning.passing step) else entry.2) }

def Placeless (step : Value → Lowering Value) : Prop :=
  ∀ (value : Value) (c : Compilation) (steps : List Step),
    step value { c with steps } = ((step value c).1, { (step value c).2 with steps })

namespace Site

variable (site : Site) (input : String) (step : Value → Lowering Value)

private theorem get?_passing (entries : Entries (List Meaning)) (name : String) :
    Entries.get? (entries.map fun entry =>
        (entry.1, if entry.1 = input then entry.2.map (Meaning.passing step) else entry.2)) name =
      (entries.get? name).map fun chain =>
        if name = input then chain.map (Meaning.passing step) else chain := by
  induction entries with
  | nil => rfl
  | cons entry rest ih =>
    rw [List.map_cons, Entries.get?_cons, Entries.get?_cons, ih]
    by_cases same : name = entry.1
    · rw [if_pos same, if_pos same, same]
      rfl
    · rw [if_neg same, if_neg same]

theorem hasInput_passing (name : String) : (site.passing input step).hasInput name = site.hasInput name := by
  unfold hasInput Entries.has passing
  rw [get?_passing]
  cases site.values.get? name <;> rfl

variable {site input step}

theorem get?_passing_of_held {first : Meaning} {rest : List Meaning}
    (held : site.values.get? input = some (first :: rest)) : (site.passing input step).values.get? input =
      some (first.passing step :: rest.map (Meaning.passing step)) := by
  unfold passing
  rw [get?_passing, held, Option.map_some, if_pos rfl, List.map_cons]

theorem passing_pure : site.passing input pure = site := by
  have same : Meaning.passing pure = id := funext fun meaning =>
    congrArg (fun value => { meaning with value }) (funext fun _ => bind_pure _)
  simp [passing, same]

theorem passing_passing (next : Value → Lowering Value) :
    (site.passing input step).passing input next = site.passing input fun value => step value >>= next := by
  have same : Meaning.passing next ∘ Meaning.passing step = Meaning.passing fun value => step value >>= next :=
    funext fun meaning => congrArg (fun value => { meaning with value }) (funext fun _ => bind_assoc ..)
  unfold passing
  rw [List.map_map, ← same]
  congr 2
  funext entry
  by_cases here : entry.1 = input <;> simp [here]

theorem value_passing_of_ne {other : String} (differs : other ≠ input) (default : Value) :
    (site.passing input step).value other default = site.value other default := by
  unfold value passing
  rw [get?_passing]
  cases site.values.get? other with
  | none => rfl
  | some chain =>
    rw [Option.map_some, if_neg differs]
    rfl

private theorem within_bind (placeless : Placeless step) (way : Step) (action : Lowering Value) :
    within way (action >>= step) = within way action >>= step := by
  funext c
  let run := action { c with steps := way :: c.steps }
  change ((step run.1 run.2).1, { (step run.1 run.2).2 with steps := (step run.1 run.2).2.steps.tail }) =
    step run.1 { run.2 with steps := run.2.steps.tail }
  have here := placeless run.1 run.2 run.2.steps
  rw [placeless run.1 run.2 run.2.steps.tail]
  have kept : (step run.1 run.2).2.steps = run.2.steps := congrArg (fun run => run.2.steps) here
  rw [kept]

theorem value_passing_of_held (placeless : Placeless step) {first : Meaning} {rest : List Meaning}
    (held : site.values.get? input = some (first :: rest)) (default : Value) :
    (site.passing input step).value input default = site.value input default >>= step := by
  unfold value passing
  rw [get?_passing, held, Option.map_some, if_pos rfl]
  exact within_bind placeless _ _

theorem value_passing {β : Type} (placeless : Placeless step) {default : Value}
    {next : Value → Lowering β} (kept : step default >>= next = next default) :
    (site.passing input step).value input default >>= next =
      site.value input default >>= fun value => step value >>= next := by
  cases held : site.values.get? input with
  | none =>
    unfold value passing
    rw [get?_passing, held]
    exact kept.symm
  | some chain =>
    cases chain with
    | nil =>
      unfold value passing
      rw [get?_passing, held, Option.map_some, if_pos rfl]
      exact kept.symm
    | cons first rest => rw [value_passing_of_held placeless held, bind_assoc]

end Site

end FlipperBlocks
