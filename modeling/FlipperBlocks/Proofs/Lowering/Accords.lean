import FlipperBlocks.Lowering.Program
import FlipperBlocks.Proofs.Lowering.CongruentCode
import Mathlib.Data.List.Forall2

/-! Blocks whose inputs are in accord.

A block makes nothing of its inputs but what their meanings do. So a relation that every block hands on from
its inputs to itself holds of blocks, of chains and of programs, however the meanings in the inputs of blocks
are exchanged for ones that are related to them. -/
namespace FlipperBlocks

open Lowering

/-- A relation between steps of lowering that blocks with certain heads hand on. -/
structure Accord (rules : Rules) extends Bond rules where
  degrade {phase known} (degradation : Degradation) :
    holds phase known (fun _ => .of True) (Lowering.degrade degradation) (Lowering.degrade degradation)
  inPhase {α : Type} {phase inner : Phase} {known : Fact rules} {post : α → Fact rules} {a b : Lowering α} :
    holds inner known post a b → holds phase known post (Lowering.inPhase inner a) (Lowering.inPhase inner b)
  within {α : Type} {phase known} {post : α → Fact rules} {a b : Lowering α} (step : Step) :
    holds phase known post a b → holds phase known post (Lowering.within step a) (Lowering.within step b)
  Listed : BlockHead → Prop
  listed {head : BlockHead} : Listed head → ∀ name ∈ head.variableNames, rules.isVariable name
  written {head : BlockHead} : Listed head → ∀ name ∈ head.symbolNames, rules.isSymbol name
  concord {head : BlockHead} : Listed head → CodeConcord rules head
  same {head : BlockHead} (listed : Listed head) : @(concord listed).holds = @holds

variable {rules : Rules} {A : Accord rules} {phase : Phase} {known : Fact rules}

structure Meaning.Related (A : Accord rules) (a b : Meaning) : Prop where
  kind : a.kind = b.kind
  id : a.id = b.id
  value : ∀ wantsText phase known, A.holds phase known (Fact.value phase) (a.value wantsText) (b.value wantsText)
  statement : ∀ phase known, A.holds phase known (Fact.code phase) a.statement b.statement

/-- Inputs of the same names with chains of related meanings. -/
def InputsRelated (A : Accord rules) (a b : Entries (List Meaning)) : Prop :=
  List.Forall₂ (fun x y => x.1 = y.1 ∧ List.Forall₂ (Meaning.Related A) x.2 y.2) a b

namespace InputsRelated

variable {a b : Entries (List Meaning)} (inputs : InputsRelated A a b) (name : String)

include inputs

theorem get? : Option.Rel (List.Forall₂ (Meaning.Related A)) (a.get? name) (b.get? name) := by
  induction inputs with
  | nil => exact .none
  | cons first rest ih =>
    rename_i x y _ _
    obtain ⟨key, chain⟩ := x
    obtain ⟨same, chains⟩ := first
    obtain rfl : key = y.1 := same
    rw [Entries.get?_cons, show y = (y.1, y.2) from rfl, Entries.get?_cons]
    split
    · exact .some chains
    · exact ih

theorem has : a.has name = b.has name := by
  have held := inputs.get? name
  unfold Entries.has
  generalize a.get? name = chain, b.get? name = chain' at held
  cases held <;> rfl

end InputsRelated

namespace Meaning

variable {a b : List Meaning}

theorem related_following (related : List.Forall₂ (Related A) a b) :
    A.holds phase known (Fact.code phase) (following a) (following b) := by
  induction related generalizing known with
  | nil => exact A.pure fun _ _ => C.Code.meets_nil
  | cons next _ ih =>
    unfold following
    rw [next.id]
    exact A.within _ (A.bind (next.statement _ _) fun _ => A.bind ih fun _ =>
      A.pure fun _ facts => C.Code.meets_append.2 ⟨facts.1.2, facts.2⟩)

theorem related_chain (related : List.Forall₂ (Related A) a b) :
    A.holds phase known (Fact.code phase) (chain a) (chain b) := by
  cases related with
  | nil => exact A.pure fun _ _ => C.Code.meets_nil
  | cons first rest =>
    exact A.bind (first.statement _ _) fun _ => A.bind (related_following rest) fun _ =>
      A.pure fun _ facts => C.Code.meets_append.2 ⟨facts.1.2, facts.2⟩

end Meaning

namespace Accord

variable {head : BlockHead} {values values' bodies bodies' : Entries (List Meaning)}

theorem value (related : InputsRelated A values values') (input : String) {default : Value}
    (usable : ∀ draft, known.holds draft → default.Meets (rules.value phase draft)) :
    A.holds phase known (Fact.value phase) (Site.value ⟨head, values, bodies⟩ input default)
      (Site.value ⟨head, values', bodies'⟩ input default) := by
  have held := related.get? input
  unfold Site.value
  dsimp only
  generalize values.get? input = chain, values'.get? input = chain' at held
  cases held with
  | none => exact A.pure usable
  | some chains =>
    cases chains with
    | nil => exact A.pure usable
    | cons first _ =>
      dsimp only
      rw [first.id]
      exact A.within _ (first.value _ _ _)

theorem statements (related : InputsRelated A bodies bodies') (input : String) :
    A.holds phase known (Fact.code phase) (Site.statements ⟨head, values, bodies⟩ input)
      (Site.statements ⟨head, values', bodies'⟩ input) := by
  have held := related.get? input
  unfold Site.statements
  dsimp only
  generalize bodies.get? input = chain, bodies'.get? input = chain' at held
  cases held with
  | none => exact A.pure fun _ _ => C.Code.meets_nil
  | some chains =>
    cases chains with
    | nil => exact A.pure fun _ _ => C.Code.meets_nil
    | cons first rest =>
      dsimp only
      rw [first.id]
      exact A.within _ (Meaning.related_chain (.cons first rest))

variable (listed : A.Listed head) (first : InputsRelated A values values')
  (second : InputsRelated A bodies bodies')

private def counterparts : CodeCounterparts (A.concord listed) where
  id := head.id
  values := values
  bodies := bodies
  values' := values'
  bodies' := bodies'
  listed := A.listed listed
  written := A.written listed
  value _ usable := A.same listed ▸ value first _ usable
  statements _ := A.same listed ▸ statements second _
  hasInput name := by
    unfold Site.hasInput
    rw [first.has, second.has]
  size := congrArg₂ (· + ·) first.length_eq second.length_eq

include listed first second in
/-- A block hands the relation on from its inputs. -/
theorem meaning : Meaning.Related A (Site.meaning ⟨head, values, bodies⟩) (Site.meaning ⟨head, values', bodies'⟩) where
  kind := rfl
  id := rfl
  value wantsText _ _ := by
    rw [← A.same listed]
    exact (counterparts listed first second).asValue wantsText
  statement _ _ := by
    rw [← A.same listed]
    exact (counterparts listed first second).asStatement

end Accord

/-! Chains at top level. -/

namespace Meaning

theorem Related.loose {a b : Meaning} (related : a.Related A b) :
    A.holds phase known (fun _ => .of True) a.loose b.loose := by
  unfold Meaning.loose
  rw [related.kind]
  refine A.bind (@Bond.tentatively _ A.toBond _ _ _ (fun _ => .of True) _ _
    (A.bind (related.statement _ _) fun code => A.pure fun _ _ => ?_)) fun kept => ?_
  · split <;> trivial
  · split
    · exact A.degrade _
    · exact A.pure fun _ _ => trivial

variable {a b : List Meaning}

theorem related_followingLoose (related : List.Forall₂ (Related A) a b) :
    A.holds phase known (fun _ => .of True) (followingLoose a) (followingLoose b) := by
  induction related generalizing known with
  | nil => exact A.pure fun _ _ => trivial
  | cons next _ ih =>
    unfold followingLoose
    rw [next.id]
    exact A.within _ (A.bind next.loose fun _ => ih)

theorem related_looseChain (index : Nat) (related : List.Forall₂ (Related A) a b) :
    A.holds phase known (fun _ => .of True) (looseChain index a) (looseChain index b) := by
  cases related with
  | nil => exact A.pure fun _ _ => trivial
  | cons first rest =>
    unfold looseChain
    dsimp only
    rw [first.id, first.kind]
    refine A.within _ ?_
    split
    · exact A.degrade _
    · exact A.inPhase (A.bind first.loose fun _ => related_followingLoose rest)

end Meaning

end FlipperBlocks
