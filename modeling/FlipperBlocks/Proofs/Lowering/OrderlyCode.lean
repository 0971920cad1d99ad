import FlipperBlocks.Proofs.Lowering.EnteredPrograms

/-! The code of every program is orderly: it sets up pins by lines of their own, and reaches only into what is
at hand in its phase. -/
namespace FlipperBlocks

open C (Expr)

namespace Draft

structure Orderly (names : List String) (draft : Draft) : Prop where
  bodies : ∀ body ∈ draft.bodies, body.2.Orderly body.1.objects
  beforeDraw : ∀ line ∈ draft.beforeDraw, line.Plain names .draw

variable {names : List String} {a b : Draft}

theorem Orderly.of_same (orderly : a.Orderly names) (bodies : b.bodies = a.bodies)
    (beforeDraw : b.beforeDraw = a.beforeDraw) : b.Orderly names where
  bodies := bodies ▸ orderly.bodies
  beforeDraw := beforeDraw ▸ orderly.beforeDraw

theorem Orderly.gain (orderly : a.Orderly names) {part : Phase} {code : C.Code}
    (gains : Gains part code a b) (own : code.Orderly part.objects) : b.Orderly names where
  bodies := gains.orderly orderly.bodies own
  beforeDraw := gains.beforeDraw ▸ orderly.beforeDraw

theorem Orderly.hoist (orderly : a.Orderly names) {read : Expr} (plain : read.Plain names) :
    (a.hoist (.run read)).Orderly names := by
  unfold Draft.hoist
  split
  · exact orderly
  · refine ⟨orderly.bodies, fun line member => ?_⟩
    rcases List.mem_append.1 member with old | new
    · exact orderly.beforeDraw line old
    · rw [List.mem_singleton.1 new]
      exact C.Line.plain_run plain

end Draft

def orderlyLedger (names : List String) (known : Site → Prop) : Ledger names known where
  holds c _ := c.draft.Orderly names
  pins := True
  asks := @Ledger.asks_any known
  still same _ orderly := orderly.of_same same.bodies same.beforeDraw
  degrade _ orderly := orderly
  undo _ orderly _ := orderly
  hoist plain orderly := orderly.hoist plain
  configure _ _ orderly := by
    rw [Lowering.run_configurePin]
    split
    · exact orderly.of_same rfl rfl
    · exact orderly
  setUp {c _} setup _ orderly := by
    cases used : c.draft.mode? setup.pin with
    | none =>
      rw [Agree.run_usePin used]
      exact orderly.of_same rfl rfl
    | some previous =>
      rw [Lowering.run_usePin_busy used]
      exact orderly
  take takes _ own orderly := orderly.gain takes.toGains own
  plain _ orderly := orderly
  start output _ _ orderly := by
    unfold Draft.usePwm
    split <;> exact orderly.of_same rfl rfl
  loop _ orderly := orderly.of_same rfl rfl
  register _ _ _ own orderly := orderly.gain (Draft.gains_addButton _) own

theorem Program.orderly_lowered (program : Program) : program.lowered.draft.Orderly program.variableNames :=
  holds_lowered (orderlyLedger _ _) ⟨by simp [Draft.bodies], by simp⟩

end FlipperBlocks
