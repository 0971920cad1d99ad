import FlipperBlocks.Proofs.C.Seals
import FlipperBlocks.Proofs.Lowering.Watching

/-! What blocks give, whatever state lowering is in: values without seals, and code of whole lines. -/
namespace FlipperBlocks

open C (Atom Expr)
open Lowering

namespace C.Expr

variable {ok : Atom → Prop}

mutual

theorem Holds.seals : ∀ e : Expr, e.Holds ok → e.seals = 0
  | number _, _ | quoted _, _ | truth _, _ | nul, _ | name _, _ | member .., _ => rfl
  | unary _ inner, holds | cast _ inner, holds | index _ inner, holds | increment inner, holds
  | remark _ inner, holds => Holds.seals inner holds.2
  | group inner, holds => Holds.seals inner holds
  | declare _ _ inner, holds => Holds.seals inner holds.2.2
  | binary _ first second, holds | assign _ first second, holds | sequence first second, holds => by
    rw [seals, Holds.seals first holds.1, Holds.seals second holds.2]
  | conditional test yes no, holds => by
    rw [seals, Holds.seals test holds.1, Holds.seals yes holds.2.1, Holds.seals no holds.2.2]
  | call _ list, holds => HoldAll.sealsIn list holds.2
  | steps list, holds => HoldAll.sealsIn list holds
  | verbatim .., holds => holds.elim

theorem HoldAll.sealsIn : ∀ list : List Expr, HoldAll ok list → sealsIn list = 0
  | [], _ => rfl
  | first :: rest, holds => by
    rw [Expr.sealsIn, Holds.seals first holds.1, HoldAll.sealsIn rest holds.2]

end

end C.Expr

/-- Whatever state it starts in, the step gives a result as described. -/
def Returns {α : Type} (action : Lowering α) (post : α → Prop) : Prop := ∀ c, post (action c).1

namespace Returns

variable {α β : Type} {post : α → Prop}

theorem pure {a : α} (given : post a) : Returns (Pure.pure a) post := fun _ => given

theorem bind {action : Lowering β} {next : β → Lowering α} {mid : β → Prop}
    (first : Returns action mid) (second : ∀ b, mid b → Returns (next b) post) :
    Returns (action >>= next) post :=
  fun c => second _ (first c) _

theorem step {action : Lowering β} {next : β → Lowering α} (second : ∀ b, Returns (next b) post) :
    Returns (action >>= next) post :=
  fun _ => second _ _

private theorem deferred {read : Expr} {value : Value} (first : read.Lax False) (second : value.Lax False) :
    Returns (Lowering.deferred read value) (Value.Lax False) := by
  refine .step fun phase => ?_
  split
  · exact .step fun _ => .pure second
  · exact .pure ⟨Expr.meets_group.2 (Expr.meets_sequence.2 ⟨first, second.expr⟩), second.array⟩

def bond : Bond (.lax False) where
  holds _ known post a _ := known.holds {} → Returns a fun x => (post x).holds {}
  pure gives facts := .pure (gives {} facts)
  bind first second facts := .bind (first facts) fun x told => second x ⟨facts, told⟩
  tentatively returns facts c := by
    rw [run_tentatively]
    exact returns facts c

theorem slots (phase : Phase) : bond.Slots phase where
  permitted _ := trivial
  named _ _ _ := ⟨trivial, trivial⟩
  shared _ _ _ _ := ⟨trivial, trivial⟩
  read _ _ _ := ⟨trivial, trivial⟩
  deferred given facts := deferred (given {} facts).1 (given {} facts).2

def concord (head : BlockHead) : CodeConcord (.lax False) head where
  toBond := bond
  given imp returns facts := returns (imp {} facts)
  degrade _ _ _ _ := id
  enable _ _ _ := trivial
  configurePin _ _ _ _ := trivial
  resolve _ _ _ _ _ := ⟨Draft.name_getD_lookup? _ ⟨_, _⟩, fun _ _ => trivial⟩
  state _ _ _ := Draft.name_getD_lookup? _ _
  byteStream _ _ _ := ⟨⟨_, rfl⟩, fun _ _ => trivial⟩
  fetch read meets _ := (slots _).fetch read meets
  currentPhase _ _ := trivial
  inPhase returns facts _ := returns facts _
  usePwm _ _ _ := trivial
  usePin _ _ _ _ := trivial
  count _ _ _ := trivial
  addTimer _ _ _ := trivial
  addButton _ _ _ := trivial
  addManifest _ _ _ := trivial
  append _ _ _ _ := trivial

def accord : Accord (.lax False) where
  toBond := bond
  degrade _ _ _ := trivial
  inPhase returns facts _ := returns facts _
  within _ returns facts _ := returns facts _
  Listed _ := True
  listed _ _ _ := trivial
  written _ _ _ := trivial
  concord {head} _ := concord head
  same _ := rfl

theorem admits : accord.Admits fun _ meaning => meaning := fun _ _ _ _ _ => Accord.meaning

end Returns

namespace Block

theorem lax (block : Block) : block.meaning.Related Returns.accord (block.watched fun _ meaning => meaning) :=
  Accord.watched Returns.admits block fun _ _ => trivial

theorem unsealed (block : Block) (input : String) (first : Meaning) (rest : List Meaning)
    (found : block.site.values.get? input = some (first :: rest)) (wantsText : Bool) (c : Compilation) :
    (first.value wantsText c).1.expr.seals = 0 := by
  obtain ⟨inner, _, _, rfl⟩ := exists_of_get?_values found
  exact Expr.Holds.seals _ (inner.lax.value wantsText .detached (.of True) trivial c).expr.atoms

end Block

end FlipperBlocks
