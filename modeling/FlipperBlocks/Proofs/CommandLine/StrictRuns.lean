import FlipperBlocks.CommandLine.Run

/-! Strict runs of the command.

The host may be any machine with a state: it reads and writes what it likes. -/
namespace FlipperBlocks.CommandLine

variable {σ α β : Type}

theorem ok_of_bind {first : ExceptT Failure (StateM σ) α} {next : α → ExceptT Failure (StateM σ) β}
    {before : σ} {result : β} (ends : ((first >>= next).run before).1 = .ok result) :
    ∃ value between, first.run before = (.ok value, between) ∧ ((next value).run between).1 = .ok result := by
  have run : (first >>= next).run before =
      ExceptT.bindCont next (first.run before).1 (first.run before).2 := rfl
  rw [run] at ends
  cases outcome : first.run before with
  | mk told between =>
    rw [outcome] at ends
    cases told with
    | ok value => exact ⟨value, between, rfl, ends⟩
    | error failure =>
      have failed : Except.error failure = Except.ok result := ends
      contradiction

variable {host : Host (StateM σ)} {options : Options} {before : σ}

private theorem ofText_of_loadProgram {document : String} {program : Program} {after : σ}
    (loaded : (loadProgram document : ExceptT Failure (StateM σ) Program).run before =
      (.ok program, after)) : Program.ofText document = .ok program := by
  unfold loadProgram at loaded
  split at loaded
  · rename_i found read
    have same : (Except.ok found, before) = (Except.ok program, after) := loaded
    simp only [Prod.mk.injEq, Except.ok.injEq] at same
    rw [read, same.1]
  · have same : (Except.error _, before) = (Except.ok program, after) := loaded
    simp at same

theorem clean_of_compileDocument (strict : options.strict = true)
    (ends : ((compileDocument host options).run before).1 = .ok 0) :
    ∃ document program, ((readDocument host options.input).run before).1 = .ok document ∧
      Program.ofText document = .ok program ∧ program.compile.diagnostics.isClean = true := by
  obtain ⟨document, _, read, ends⟩ := ok_of_bind ends
  obtain ⟨program, _, loaded, ends⟩ := ok_of_bind ends
  obtain ⟨_, _, _, ends⟩ := ok_of_bind ends
  obtain ⟨_, _, _, ends⟩ := ok_of_bind ends
  refine ⟨document, program, by rw [read], ofText_of_loadProgram loaded, ?_⟩
  cases clean : program.compile.diagnostics.isClean with
  | true => rfl
  | false =>
    rw [strict, clean] at ends
    obtain ⟨_, _, _, ends⟩ := ok_of_bind ends
    have one : Except.ok 1 = (Except.ok 0 : Except Failure Nat) := ends
    simp at one

theorem clean_of_run {arguments : List String} (asked : Request.ofArguments arguments = .compile options)
    (strict : options.strict = true) (ends : (run host arguments before).1 = 0) :
    ∃ document program, ((readDocument host options.input).run before).1 = .ok document ∧
      Program.ofText document = .ok program ∧ program.compile.diagnostics.isClean = true := by
  unfold run at ends
  rw [asked] at ends
  refine clean_of_compileDocument strict ?_
  have step {next : Except Failure Nat → StateM σ Nat} :
      ((compileDocument host options).run >>= next) before =
        next ((compileDocument host options).run before).1
          ((compileDocument host options).run before).2 := rfl
  dsimp only at ends
  rw [CommandLine.compile, step] at ends
  cases told : ((compileDocument host options).run before).1 with
  | ok code =>
    rw [told] at ends
    exact congrArg Except.ok ends
  | error failure =>
    rw [told] at ends
    exact absurd ends Nat.one_ne_zero

end FlipperBlocks.CommandLine
