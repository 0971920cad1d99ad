import FlipperBlocks.Proofs.Lowering.Naming
import FlipperBlocks.Proofs.Lowering.OrderlyCode

/-! The counters of loops.

A loop takes its number when its bound has been lowered, and what is in it is lowered after that. No number is
taken again unless the draft with the loop has been given up. -/
namespace FlipperBlocks

open C (Code Line)

def countersIn (lines : Multiset Line) : Multiset String := lines.filterMap Line.counter?

theorem countersIn_add_of_none {line : Line} {lines : Multiset Line} (none : line.counter? = none) :
    countersIn ({line} + lines) = countersIn lines := by
  rw [Multiset.singleton_add, countersIn, Multiset.filterMap_cons_none _ _ none, countersIn]

structure Draft.CountsLoops (draft : Draft) (lines : Multiset Line) : Prop where
  distinct : (countersIn lines).Nodup
  passed : ∀ counter ∈ countersIn lines,
    ∃ number < (draft.counters.get? "i").getD 0, counter = Draft.numbered "i" number

namespace Draft.CountsLoops

variable {a b draft : Draft} {lines more : Multiset Line}

theorem of_same (counts : a.CountsLoops lines) (loops : b.counters.get? "i" = a.counters.get? "i")
    (same : countersIn more = countersIn lines) : b.CountsLoops more := by
  obtain ⟨distinct, passed⟩ := counts
  exact ⟨same ▸ distinct, by rw [same, loops]; exact passed⟩

theorem loop (counts : draft.CountsLoops lines) (bound : C.Expr) :
    (draft.advance "i" (draft.freshNumber "i")).CountsLoops
      ({.openFor (Draft.numbered "i" (draft.freshNumber "i")) bound} + lines) := by
  have least := (draft.isLeast_freshNumber "i").1.1
  have next : ((draft.advance "i" (draft.freshNumber "i")).counters.get? "i").getD 0 =
      draft.freshNumber "i" + 1 := by
    rw [Draft.advance, Entries.get?_put, if_pos rfl, Option.getD_some]
  generalize draft.freshNumber "i" = number at least next
  have more : countersIn ({.openFor (Draft.numbered "i" number) bound} + lines) =
      Draft.numbered "i" number ::ₘ countersIn lines := by
    exact Multiset.filterMap_cons_some Line.counter? _ _ rfl
  constructor
  · rw [more, Multiset.nodup_cons]
    refine ⟨fun taken => ?_, counts.distinct⟩
    obtain ⟨other, below, same⟩ := counts.passed _ taken
    rw [Draft.numbered_inj same] at least
    exact absurd below (Nat.not_lt.2 least)
  · rw [more, next]
    intro counter member
    rcases Multiset.mem_cons.1 member with rfl | old
    · exact ⟨number, Nat.lt_succ_self _, rfl⟩
    · obtain ⟨other, below, same⟩ := counts.passed counter old
      exact ⟨other, by omega, same⟩

end Draft.CountsLoops

def loopLedger (names : List String) (known : Site → Prop) : DraftLedger names known where
  holds := Draft.CountsLoops
  quiet grown counts := counts.of_same grown.loops rfl
  inert inert counts := counts.of_same rfl (countersIn_add_of_none inert.once)
  start output _ _ counts := by
    refine counts.of_same ?_ (countersIn_add_of_none rfl)
    unfold Draft.usePwm
    split <;> rfl
  loop _ counts := counts.loop _
  register _ _ _ counts := counts.of_same rfl (countersIn_add_of_none rfl)

namespace Draft

private theorem countersIn_lines (draft : Draft) : countersIn draft.lines =
    (draft.codes.flatMap fun code => code.filterMap fun placed => placed.line.counter? : List String) := by
  rw [lines]
  induction draft.codes with
  | nil => rfl
  | cons code rest ih =>
    have own : countersIn code.lines = (code.filterMap fun placed => placed.line.counter? : List String) := by
      rw [countersIn, Code.lines, Multiset.filterMap_coe, List.filterMap_map]
      rfl
    rw [List.map_cons, List.sum_cons, countersIn, Multiset.filterMap_add, List.flatMap_cons, ← Multiset.coe_add,
      ← ih, ← own]
    rfl

/-- What is done when the application starts or before it draws opens no loop. -/
private theorem loopCounters_eq {names : List String} {draft : Draft} (orderly : draft.Orderly names) :
    (draft.loopCounters : Multiset String) = countersIn draft.lines := by
  let counters (code : Code) : List String := code.filterMap fun placed => placed.line.counter?
  have starting : (draft.setups.map fun setup => Code.line setup.line).flatMap counters = [] := by
    simp [counters, Code.line, PinSetup.line, Line.counter?]
  have before : (draft.beforeDraw.map Code.line).flatMap counters = [] := by
    simp only [List.flatMap_eq_nil_iff, List.forall_mem_map]
    intro line member
    simp [counters, Code.line, (orderly.beforeDraw line member).once]
  have split : draft.loopCounters = (draft.setups.map fun setup => Code.line setup.line).flatMap counters ++
      ((draft.beforeDraw.map Code.line).flatMap counters ++ draft.codes.flatMap counters) := by
    rw [← List.flatMap_append, ← List.flatMap_append]
    rfl
  rw [countersIn_lines, split, starting, before]
  rfl

end Draft

theorem Lowering.run_fresh (stem : String) (c : Compilation) : Lowering.fresh stem c =
    (Draft.numbered stem (c.draft.freshNumber stem),
      { c with draft := c.draft.advance stem (c.draft.freshNumber stem) }) := rfl

theorem Block.counter_fresh {block : Block} (loop : block.head.kind = .repeated) (c : Compilation) :
    ∃ bound body, (block.meaning.statement c).1 =
      Code.braced (.openFor (Lowering.fresh "i" (block.site.numeric "TIMES" "1" c).2).1 bound) body := by
  have place : block.site.kind = .repeated := loop
  rw [block.statement_eq, Site.asStatement, place]
  exact ⟨_, _, rfl⟩

namespace Program

/-- New names are new, and so are the counters of loops. -/
structure NamesAnew (program : Program) : Prop where
  /-- A new name has the least number from the counter of its stem on that names no storage, at most as many
  numbers further on as there is storage. The counter moves behind it, and all else stays. -/
  fresh : ∀ (c : Compilation) (stem : String), ∃ number,
    IsLeast {n | (c.draft.counters.get? stem).getD 0 ≤ n ∧ c.draft.lookup? (Draft.numbered stem n) = none}
      number ∧
    number ≤ (c.draft.counters.get? stem).getD 0 + c.draft.storage.length ∧
    ∃ counters : Entries Nat, Lowering.fresh stem c =
        (Draft.numbered stem number, { c with draft := { c.draft with counters := counters } }) ∧
      ∀ other, counters.get? other = if other = stem then some (number + 1) else c.draft.counters.get? other
  /-- A loop is counted by a new name. -/
  counted : ∀ block : Block, block.head.kind = .repeated → ∀ c : Compilation, ∃ bound body,
    (block.meaning.statement c).1 =
      Code.braced (.openFor (Lowering.fresh "i" (block.site.numeric "TIMES" "1" c).2).1 bound) body
  /-- No two loops of the program, in whatever section, timer or button, have the same counter. -/
  loops : program.lowered.draft.loopCounters.Nodup

theorem names_anew (program : Program) : program.NamesAnew where
  fresh c stem := ⟨c.draft.freshNumber stem, c.draft.isLeast_freshNumber stem, c.draft.freshNumber_le stem,
    _, Lowering.run_fresh stem c, fun other => Entries.get?_put ..⟩
  counted block loop c := block.counter_fresh loop c
  loops := by
    rw [← Multiset.coe_nodup, Draft.loopCounters_eq program.orderly_lowered]
    exact (holds_lowered (loopLedger _ _).ledger ⟨by simp [countersIn], by simp [countersIn]⟩).distinct

private def loops : Program :=
  ⟨[[.mk { kind := .repeated } [] []], [.mk { kind := .app } []
    [("LOOP", [.mk { kind := .repeated } [] [("DO", [.mk { kind := .repeated } [] []])],
      .mk { kind := .timer } [] [("DO", [.mk { kind := .repeated } [] []])]])]]]⟩

example : loops.lowered.draft.loopCounters = ["i_0", "i_1", "i_2"] := by decide +kernel

end Program

end FlipperBlocks
