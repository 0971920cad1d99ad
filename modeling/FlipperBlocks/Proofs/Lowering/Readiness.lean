import FlipperBlocks.Proofs.Lowering.Supplying

/-! Blocks keep drafts supplied, and give expressions that are ready. -/
namespace FlipperBlocks

open C (Code Expr)

namespace Supplies

variable {names : GivenNames} {phase : Phase} {known : Fact (.ready names)}

/-- While drawing, a read is put before the drawing, so that its storage may be read from then on;
elsewhere the read is part of the result. -/
private theorem deferred {read : Read} {slot : String} {result : Value} (isDeferred : read.isDeferred = true)
    (ready : ∀ draft : Draft, known.holds draft → draft.slots.get? read.key = some slot ∧
      ∀ e ∈ read.inputs, e.Ready names phase draft)
    (place : result.expr = .name slot ∨ result.expr = .member "app" slot)
    (array : ∀ array, result.array = some array → array = slot ∧
      ∃ transfer memory length, read = .block transfer memory length) :
    Supplies names phase known (Lowering.deferred (read.action slot) result) (Fact.value phase) := by
  refine of_agree (.deferred _ _) fun c inPhase supplied facts _ => ?_
  obtain ⟨told, inputs⟩ := ready c.draft facts
  have named := (supplied.reached.generated_of_told told).usable.1
  -- The result is ready as soon as the slot may be read, wherever the read itself goes.
  have reached (draft : Draft) (after : draft.Supplied names) (told : draft.slots.get? read.key = some slot)
      (permitted : draft.Permits names phase (.read slot)) :
      result.expr.Ready names phase draft ∧ ∀ array, result.array = some array →
        (Expr.name array).Ready names phase draft ∧ draft.Permits names phase (.size array) := by
    refine ⟨?_, fun name found => ?_⟩
    · rcases place with same | same <;> rw [same]
      · exact Expr.meets_name.2 ⟨named, permitted⟩
      · exact Expr.meets_member.2 ⟨⟨by decide, named⟩, permitted⟩
    · obtain ⟨rfl, transfer, memory, length, rfl⟩ := array name found
      have declared := after.lookup?_of_block told fun e member => (inputs e member).atoms
      exact ⟨Expr.meets_name.2 ⟨named, permitted⟩, length, none, declared.1⟩
  have run : Lowering.deferred (read.action slot) result c =
      (if c.phase = .draw then Lowering.hoist (.run (read.action slot)) >>= fun _ => Pure.pure result
        else Pure.pure { result with expr := Lowering.doing (read.action slot) result.expr } :
          Lowering Value) c := rfl
  rw [run, inPhase]
  by_cases drawing : phase = .draw
  · subst drawing
    obtain ⟨after, filled⟩ := supplied.hoist isDeferred told inputs
    have kept : (c.draft.hoist (.run (read.action slot))).slots = c.draft.slots := by
      unfold Draft.hoist
      split <;> rfl
    obtain ⟨expr, array⟩ := reached (c.draft.hoist (.run (read.action slot))) after (kept ▸ told)
      fun _ _ => .inr filled
    exact ⟨after, expr, array⟩
  · rw [if_neg drawing]
    obtain ⟨expr, array⟩ := reached c.draft supplied told fun same => absurd same drawing
    have whole := supplied.ready_action told inputs
    exact ⟨supplied, Expr.meets_group.2 (Expr.meets_sequence.2 ⟨whole, expr⟩), array⟩

/-- The buffer for numbers to be shown is no slot of a read that is put off. -/
private theorem not_slotName_of_told {draft : Draft} (supplied : draft.Supplied names) {value : Expr}
    {buffer : String} (told : draft.slots.get? (Read.shown value).key = some buffer) : ¬ SlotName buffer := by
  obtain ⟨read, same, _, named, _⟩ := supplied.slots _ _ told
  have stem := (Read.sort_eq_of_key same).1
  have start : buffer.toList.take 2 = ['d', 'i'] := by
    rcases named with ⟨number, rfl⟩ | ⟨_, rfl⟩
    · rw [stem, Draft.take_numbered (by simp [Read.stem])]
      simp [Read.stem]
    · rw [stem]
      simp [Read.stem]
  intro slot
  have other := slot.start
  rw [start] at other
  exact absurd other (by decide)

private theorem fetch (read : Read)
    (ready : ∀ draft, known.holds draft → ∀ e ∈ read.inputs, e.Ready names phase draft)
    (sized : ∀ length, read.type = .bytes length none → 1 ≤ length ∧ length ≤ 64) :
    Supplies names phase known read.fetch (Fact.value phase) := by
  have proper (draft : Draft) (facts : known.holds draft) : read.Proper :=
    ⟨fun e member => (ready draft facts e member).atoms, sized⟩
  cases read with
  | number value =>
    exact .bind (.namedSlot proper) fun buffer => deferred rfl
      (fun draft facts => ⟨facts.2, ready draft facts.1⟩) (.inl rfl) nofun
  | shown value =>
    refine .bind (@sharedBuffer _ _ _ (.shown value) rfl 64 proper rfl rfl) fun buffer =>
      .pure fun draft supplied facts => .of_expr ?_
    have named := (supplied.reached.generated_of_told facts.2).usable.1
    have other := not_slotName_of_told supplied facts.2
    exact Expr.meets_group.2 (Expr.meets_sequence.2 ⟨supplied.ready_action facts.2 (ready draft facts.1),
      Expr.meets_name.2 ⟨named, fun _ slot => absurd slot other⟩⟩)
  | file path =>
    exact .bind (@sharedBuffer _ _ _ (.file path) rfl 1024 proper rfl rfl) fun buffer => deferred rfl
      (fun draft facts => ⟨facts.2, ready draft facts.1⟩) (.inl rfl) nofun
  | climate quantity measured pin =>
    refine .bind (.readSlot proper) fun storage => .assuming (fun _ facts => facts.2.2) fun place => ?_
    rw [place]
    exact @deferred _ _ _ (.climate quantity measured pin) _ _ rfl
      (fun draft facts => ⟨facts.2.1, ready draft facts.1⟩) (.inr rfl) nofun
  | register width transfer index =>
    refine .bind (.readSlot proper) fun storage => .assuming (fun _ facts => facts.2.2) fun place => ?_
    have member : storage.place = .member "app" storage.name := by
      rw [place]
      cases width <;> rfl
    rw [member]
    exact @deferred _ _ _ (.register width transfer index) _ _ rfl
      (fun draft facts => ⟨facts.2.1, ready draft facts.1⟩) (.inr rfl) nofun
  | block transfer memory length =>
    exact .bind (.namedSlot proper) fun array => deferred rfl
      (fun draft facts => ⟨facts.2, ready draft facts.1⟩) (.inl rfl) fun _ same =>
        ⟨(Option.some.inj same).symm, _, _, _, rfl⟩

end Supplies

/-- Two steps of which the first one keeps drafts supplied, and that cannot be told apart in such drafts. -/
structure SuppliesAlike {α : Type} (names : GivenNames) (phase : Phase) (known : Fact (.ready names))
    (post : α → Fact (.ready names)) (a b : Lowering α) : Prop where
  supplies : Supplies names phase known a post
  same : ∀ c : Compilation, c.phase = phase → c.draft.Supplied names → known.holds c.draft → b c = a c

namespace SuppliesAlike

variable {α β : Type} {names : GivenNames} {phase inner : Phase} {known : Fact (.ready names)}
  {post : α → Fact (.ready names)} {a b : Lowering α}

theorem of_supplies (supplies : Supplies names phase known a post) : SuppliesAlike names phase known post a a :=
  ⟨supplies, fun _ _ _ _ => rfl⟩

theorem bind {mid : β → Fact (.ready names)} {a b : Lowering β} {f g : β → Lowering α}
    (first : SuppliesAlike names phase known mid a b)
    (second : ∀ x, SuppliesAlike names phase (known.and (mid x)) post (f x) (g x)) :
    SuppliesAlike names phase known post (a >>= f) (b >>= g) where
  supplies := .bind first.supplies fun x => (second x).supplies
  same c inPhase supplied facts := by
    have leaves := first.supplies c inPhase supplied facts
    change g (b c).1 (b c).2 = f (a c).1 (a c).2
    rw [first.same c inPhase supplied facts]
    exact (second _).same _ leaves.phase leaves.supplied ⟨known.stays leaves.moves facts, leaves.post⟩

theorem tentatively {a b : Lowering (Option α)} (alike : SuppliesAlike names phase known (Fact.ofSome post) a b) :
    SuppliesAlike names phase known (Fact.ofSome post) (Lowering.tentatively a) (Lowering.tentatively b) where
  supplies := .tentatively alike.supplies
  same c inPhase supplied facts := by
    rw [Lowering.run_tentatively, Lowering.run_tentatively, alike.same c inPhase supplied facts]

theorem inPhase (alike : SuppliesAlike names inner known post a b) :
    SuppliesAlike names phase known post (Lowering.inPhase inner a) (Lowering.inPhase inner b) where
  supplies := .inPhase alike.supplies
  same c _ supplied facts := by
    have same := alike.same { c with phase := inner } rfl supplied facts
    exact congrArg (fun run : α × Compilation => (run.1, { run.2 with phase := c.phase })) same

theorem within (step : Step) (alike : SuppliesAlike names phase known post a b) :
    SuppliesAlike names phase known post (Lowering.within step a) (Lowering.within step b) where
  supplies := alike.supplies.within step
  same c inPhase supplied facts := by
    have same := alike.same { c with steps := step :: c.steps } inPhase supplied facts
    exact congrArg (fun run : α × Compilation => (run.1, { run.2 with steps := run.2.steps.tail })) same

end SuppliesAlike

structure BlockHead.Listed (names : GivenNames) (head : BlockHead) : Prop where
  variableNames : head.variableNames ⊆ names.ofVariables
  symbolNames : head.symbolNames ⊆ names.ofSymbols

namespace Supplies

open SuppliesAlike (of_supplies)

def concord {names : GivenNames} {head : BlockHead} (listed : head.Listed names) :
    CodeConcord (.ready names) head where
  holds := SuppliesAlike names
  given gives alike := ⟨.given gives alike.supplies, fun c inPhase supplied facts =>
    alike.same c inPhase supplied (gives _ facts)⟩
  pure gives := of_supplies (.pure fun draft _ => gives draft)
  bind := .bind
  tentatively := .tentatively
  degrade _ _ := of_supplies (imp (.degrade _) fun _ _ _ _ => id)
  enable features := of_supplies (.enable features)
  configurePin _ _ := of_supplies (.configurePin _)
  resolve usable named asText := of_supplies (.declare (.resolve usable (listed.variableNames named) asText))
  state remembered := of_supplies (imp (.declare (.state remembered)) fun _ _ _ facts => facts.2.1)
  byteStream site := of_supplies (.byteStream site)
  fetch read ready sized := of_supplies (.fetch read ready sized)
  currentPhase := of_supplies (imp .currentPhase fun _ _ _ _ => trivial)
  inPhase := .inPhase
  usePwm output := of_supplies (.usePwm output)
  usePin pin mode := of_supplies (.usePin pin mode)
  count stem := of_supplies (imp (.fresh stem) fun _ _ _ _ => trivial)
  addTimer meets := of_supplies (.addTimer fun draft facts => (meets draft facts).uses)
  addButton meets := of_supplies (.addButton fun draft facts => (meets draft facts).uses)
  addManifest source := of_supplies (.addManifest source)
  append _ meets := of_supplies (.append fun draft facts => (meets draft facts).uses)

def accord (names : GivenNames) : Accord (.ready names) where
  holds := SuppliesAlike names
  pure gives := of_supplies (.pure fun draft _ => gives draft)
  bind := .bind
  tentatively := .tentatively
  degrade degradation := of_supplies (.degrade degradation)
  inPhase := .inPhase
  within := .within
  Listed := BlockHead.Listed names
  listed listed := listed.variableNames
  written listed := listed.symbolNames
  concord := concord
  same _ := rfl

end Supplies

end FlipperBlocks
