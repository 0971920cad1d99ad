import FlipperBlocks.Proofs.C.Seals
import FlipperBlocks.Proofs.Lowering.NumericInputs

/-! Blocks with a sealed value in an input.

The expression in an input is sealed, and the block is lowered once more. Nothing changes in what can
be read, and every copy of the expression has left a seal. -/
namespace FlipperBlocks

open C (Code Expr)
open Lowering

def Value.sealed (value : Value) : Value := { value with expr := value.expr.sealed }

def Site.changing (site : Site) (input : String) (change : Value → Value) : Site :=
  site.passing input (pure ∘ change)

def Site.sealing (site : Site) (input : String) : Site := site.changing input Value.sealed

structure Value.Marked (input : String) (names : List String) (value value' : Value) : Prop where
  expr : value.expr.Marked input names value'.expr
  kind : value'.kind = value.kind
  array : value'.array = value.array

/-- Two results in the same state that are related. -/
structure Alongside {α : Type} (related : α → α → Prop) (run run' : α × Compilation) : Prop where
  state : run'.2 = run.2
  result : related run.1 run'.1

def Site.Copies (site : Site) (input : String) (c : Compilation) (names : List String)
    (lower : Site → Lowering Value) : Prop :=
  Alongside (Value.Marked input names) (lower site c) (lower (site.sealing input) c)

def Site.Splices (site : Site) (input : String) (c : Compilation) (names : List String)
    (lower : Site → Lowering Code) : Prop :=
  Alongside (Code.Marked input names) (lower site c) (lower (site.sealing input) c)

/-- The value of a block and the read that has been put before the drawing for it. One of the two is
marked. -/
inductive Emits (input : String) (names : List String) : Value × Compilation → Value × Compilation → Prop
  | inPlace {value value' : Value} {c : Compilation} (marked : value.Marked input names value') :
      Emits input names (value, c) (value', c)
  | before {value : Value} {c : Compilation} {read read' : Expr} (marked : read.Marked input names read') :
      Emits input names (value, (hoist (.run read) c).2) (value, (hoist (.run read') c).2)

section

variable {α β : Type} {related : α → α → Prop} {c : Compilation} {input : String} {names : List String}

theorem Alongside.of_eq {run run' : α × Compilation} (same : run' = run) (given : related run.1 run.1) :
    Alongside related run run' := by
  rw [same]
  exact ⟨rfl, given⟩

variable {after : β × Compilation → β × Compilation → Prop} {first : Lowering α}
  {next next' : α → Lowering β}

theorem Alongside.bind {second : Lowering α} (alongside : Alongside related (first c) (second c))
    (on : ∀ a b, related a b → after (next a (first c).2) (next' b (first c).2)) :
    after ((first >>= next) c) ((second >>= next') c) := by
  change after (next (first c).1 (first c).2) (next' (second c).1 (second c).2)
  rw [alongside.state]
  exact on _ _ alongside.result

theorem Alongside.step (on : ∀ a, after (next a (first c).2) (next' a (first c).2)) :
    after ((first >>= next) c) ((first >>= next') c) :=
  on (first c).1

theorem Emits.of_alongside {run run' : Value × Compilation}
    (alongside : Alongside (Value.Marked input names) run run') : Emits input names run run' := by
  obtain ⟨value, d⟩ := run
  obtain ⟨value', d'⟩ := run'
  obtain ⟨rfl, marked⟩ := alongside
  exact .inPlace marked

end

theorem Value.isLiteral_of_integer? (value : Value) {n : Int} (spelled : value.integer? = some n) :
    value.isLiteral = true := by
  obtain ⟨expr, kind, array⟩ := value
  cases expr <;> first | rfl | cases spelled

namespace Value.Marked

variable {input : String} {names : List String} {value value' : Value} {c : Compilation}

theorem of_absent (absent : input ∉ names) (value : Value) : Marked input names value value :=
  ⟨.of_absent absent _, rfl, rfl⟩

theorem of_expr {e e' : Expr} (marked : e.Marked input names e') (kind : ValueKind) :
    Marked input names ⟨e, kind, none⟩ ⟨e', kind, none⟩ :=
  ⟨marked, rfl, rfl⟩

variable (marked : Marked input names value value')

include marked

theorem code : value'.code = value.code := marked.expr.code

theorem isLiteral : value'.isLiteral = value.isLiteral := marked.expr.isLiteral

theorem eq_of_literal (literal : value.isLiteral = true) : value' = value ∧ input ∉ names := by
  obtain ⟨expr, kind, array⟩ := value
  obtain ⟨expr', kind', array'⟩ := value'
  obtain ⟨same, absent⟩ := marked.expr.eq_of_literal literal
  have sameKind := marked.kind
  have sameArray := marked.array
  dsimp only at same sameKind sameArray
  rw [same, sameKind, sameArray]
  exact ⟨rfl, List.count_eq_zero.1 absent⟩

theorem integer? : value'.integer? = value.integer? := by
  cases spelled : value.integer? with
  | some n => rw [(marked.eq_of_literal (value.isLiteral_of_integer? spelled)).1, spelled]
  | none =>
    cases spelled' : value'.integer? with
    | none => rfl
    | some n =>
      have literal := marked.isLiteral.symm.trans (value'.isLiteral_of_integer? spelled')
      rw [(marked.eq_of_literal literal).1, spelled] at spelled'
      cases spelled'

theorem toNumber (c : Compilation) :
    Alongside (Marked input names) (Lowering.toNumber value c) (Lowering.toNumber value' c) := by
  unfold Lowering.toNumber
  rw [marked.kind]
  split
  · exact ⟨rfl, .of_expr (.call _ (.single marked.expr)) _⟩
  · exact ⟨rfl, marked⟩

end Value.Marked

section

variable {input : String} {names : List String} {read read' : Expr}

theorem C.Expr.Marked.printInto (marked : read.Marked input names read') (buffer format type : String) :
    (Lowering.printInto buffer format type read).Marked input names
      (Lowering.printInto buffer format type read') :=
  .call _ (.cons (.refl _) (.cons (.refl _) (.cons (.refl _) (.single (marked.castGroup type)))))

theorem C.Expr.Marked.doing (marked : read.Marked input names read') (result : Expr) :
    (Lowering.doing read result).Marked input names (Lowering.doing read' result) :=
  (marked.before result).group

theorem Emits.deferred (marked : read.Marked input names read') (result : Value) (c : Compilation) :
    Emits input names (Lowering.deferred read result c) (Lowering.deferred read' result c) := by
  unfold Lowering.deferred
  refine Alongside.step fun phase => ?_
  split
  · exact .before marked
  · exact .inPlace ⟨marked.doing _, rfl, rfl⟩

theorem Value.Marked.toText {value value' : Value} (marked : value.Marked input names value')
    (c : Compilation) :
    Alongside (Value.Marked input names) (Lowering.toText value c) (Lowering.toText value' c) := by
  unfold Lowering.toText
  rw [marked.kind, marked.isLiteral, marked.code]
  split
  · exact ⟨rfl, marked⟩
  · split
    · rename_i literal
      exact ⟨rfl, .of_absent (marked.eq_of_literal literal).2 _⟩
    · refine Alongside.step fun buffer => ⟨rfl, .of_expr ?_ _⟩
      exact (marked.expr.printInto _ _ _).doing _

end

def BlockKind.shownInputs : BlockKind → List String
  | drawText | drawAlignedText | textBox | scrollingText => ["TEXT"]
  | button => ["LABEL"]
  | log => ["TAG"]
  | textLength => ["STRING"]
  | readFile | fileExists | createFile | deleteFile => ["PATH"]
  | writeFile => ["PATH", "DATA"]
  | _ => []

def BlockKind.streamInputs : BlockKind → List String
  | streamByte => ["STREAM"]
  | writeBytes => ["DATA"]
  | _ => []

/-- A value that a block splices if it is in an input: it is no literal, it is not refused as a text,
and it has code besides the name of an array. -/
structure BlockKind.Takes (kind : BlockKind) (input : String) (value : Value) : Prop where
  changing : value.isLiteral = false
  shown : input ∈ kind.shownInputs → value.kind ≠ .bytes
  streamed : input ∈ kind.streamInputs → value.array ≠ some value.code

namespace Site

structure Holding (site : Site) (input : String) (first : Meaning) (rest : List Meaning) : Prop where
  held : site.values.get? input = some (first :: rest)
  takes : ∀ c, site.kind.Takes input (first.value (site.kind.takesText input) c).1
  unsealed : ∀ c, (first.value (site.kind.takesText input) c).1.expr.seals = 0

theorem head_sealing (site : Site) (input : String) : (site.sealing input).head = site.head := rfl

namespace Holding

variable {site : Site} {input : String} {first : Meaning} {rest : List Meaning}
  (holding : site.Holding input first rest)

include holding

theorem takes_value (default : Value) (c : Compilation) :
    site.kind.Takes input (site.value input default c).1 ∧ (site.value input default c).1.expr.seals = 0 := by
  unfold Site.value
  rw [holding.held]
  exact ⟨holding.takes _, holding.unsealed _⟩

theorem value (name : String) (default : Value) (c : Compilation) :
    Alongside (Value.Marked input [name]) (site.value name default c)
      ((site.sealing input).value name default c) := by
  by_cases same : name = input
  · obtain ⟨takes, unsealed⟩ := holding.takes_value default c
    unfold sealing changing
    rw [same, value_passing_of_held (fun _ _ _ => rfl) holding.held]
    exact ⟨rfl, .sealed unsealed takes.changing, rfl, rfl⟩
  · refine .of_eq ?_ (.of_absent (by simpa using Ne.symm same) _)
    unfold sealing changing
    rw [value_passing_of_ne same]

theorem numeric (name default : String) (c : Compilation) :
    Alongside (Value.Marked input [name]) (site.numeric name default c)
      ((site.sealing input).numeric name default c) :=
  (holding.value name (.number default) c).bind fun _ _ marked => marked.toNumber _

theorem scalar? {name : String} {default : Value} {c : Compilation}
    (proper : (site.value name default c).1.kind ≠ .bytes) :
    ∃ value value' d, site.scalar? name default c = (some value, d) ∧
      (site.sealing input).scalar? name default c = (some value', d) ∧ value.Marked input [name] value' := by
  have marked := holding.value name default c
  rcases here : site.value name default c with ⟨value, d⟩
  rcases there : (site.sealing input).value name default c with ⟨value', d'⟩
  rw [here, there] at marked
  rw [here] at proper
  obtain ⟨rfl, marked⟩ := marked
  refine ⟨value, value', d', ?_, ?_, marked⟩
  · rw [scalar?_of_run here, if_neg proper]
  · rw [scalar?_of_run there, if_neg (by rw [marked.kind]; exact proper)]

theorem shown {name : String} (listed : name ∈ site.kind.shownInputs) (default : String) (c : Compilation) :
    Alongside (Value.Marked input [name]) (site.shown name default c)
      ((site.sealing input).shown name default c) := by
  by_cases same : name = input
  · have proper := (holding.takes_value (.text default) c).1.shown (same ▸ listed)
    obtain ⟨value, value', d, here, there, marked⟩ := holding.scalar? proper
    unfold Site.shown
    rw [same, bind_of_run here, bind_of_run there]
    exact marked.toText d
  · refine .of_eq ?_ (.of_absent (by simpa using Ne.symm same) _)
    unfold Site.shown Site.scalar? sealing changing
    rw [value_passing_of_ne same]

theorem streamIn? {name : String} {c : Compilation} (found : (site.number name "0" c).1.array ≠ none) :
    ∃ (stream stream' : Stream) (d : Compilation) (names : List String),
      Lowering.streamIn? site name c = (some stream, d) ∧
        Lowering.streamIn? (site.sealing input) name c = (some stream', d) ∧ stream'.array = stream.array ∧
            Expr.AllMarked input names stream.read.toList stream'.read.toList ∧
              (name ∈ site.kind.streamInputs → names.count input = [name].count input) := by
  obtain ⟨state, marked⟩ := holding.value name (.number "0") c
  obtain ⟨array, isArray⟩ := Option.ne_none_iff_exists'.1 found
  have isArray' : ((site.sealing input).number name "0" c).1.array = some array := marked.array.trans isArray
  have run (site : Site) (isArray : (site.number name "0" c).1.array = some array) :
      Lowering.streamIn? site name c = (some ⟨array, if (site.number name "0" c).1.code = array then none
        else some (site.number name "0" c).1.expr⟩, (site.number name "0" c).2) := by
    obtain ⟨value, kept⟩ := run_streamIn? site name c
    unfold Stream.ofValue? at value
    rw [isArray] at value
    exact Prod.ext value (kept _ value)
  have code : ((site.sealing input).number name "0" c).1.code = (site.number name "0" c).1.code := marked.code
  by_cases bare : (site.number name "0" c).1.code = array
  · refine ⟨_, _, _, [], run site isArray, (run _ isArray').trans (Prod.ext rfl state), rfl, ?_, ?_⟩
    · rw [code, if_pos bare, if_pos bare]
      exact .nil
    · intro listed
      -- A bare array is not spliced, so that the input is another one.
      have other : input ≠ name := by
        intro same
        have takes := (holding.takes_value (.number "0") c).1
        rw [same] at takes
        exact takes.streamed listed (isArray.trans (congrArg some bare.symm))
      exact (List.count_eq_zero.2 (by simpa using other)).symm
  · refine ⟨_, _, _, [name], run site isArray, (run _ isArray').trans (Prod.ext rfl state), rfl, ?_,
      fun _ => rfl⟩
    rw [code, if_neg bare, if_neg bare]
    exact .single marked.expr

end Holding

end Site

end FlipperBlocks
