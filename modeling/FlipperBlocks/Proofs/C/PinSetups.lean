import FlipperBlocks.Proofs.C.Calls
import FlipperBlocks.Proofs.C.Links

/-! The pins that code sets up, and the objects that it reaches into.

A pin is set up by a line of its own, from which the pin and its mode can be read back. All other code
is ordinary: it never calls what sets pins up, and it reaches only into the objects that are at hand. -/
namespace FlipperBlocks

def Phase.objects : Phase → List String
  | input => ["app", "event"]
  | _ => ["app"]

@[simp] theorem Phase.app_mem_objects (phase : Phase) : "app" ∈ phase.objects := by
  cases phase <;> simp [objects]

def PinSetup.written (setup : PinSetup) : String × String := (setup.pin.object, setup.mode.symbol)

namespace C

def setupAfter? : List Token → Option (String × String)
  | .mark ['('] :: .mark ['&'] :: .word pin :: .mark [','] :: .word mode :: _ =>
    some (String.ofList pin, String.ofList mode)
  | _ => none

def setupsIn : List Token → List (String × String)
  | [] => []
  | .call function :: rest =>
    if String.ofList function = "furi_hal_gpio_init" then
      (setupAfter? rest).toList ++ setupsIn rest
    else setupsIn rest
  | _ :: rest => setupsIn rest

/-- The pins that a text sets up, each with the mode it is given, outside of literals and comments. -/
def pinSetups (text : String) : List (String × String) := setupsIn (tokens text)

theorem setupsIn_append {a : List Token} (plain : "furi_hal_gpio_init" ∉ callsIn a) (b : List Token) :
    setupsIn (a ++ b) = setupsIn b := by
  induction a with
  | nil => rfl
  | cons token rest ih =>
    cases token with
    | call function =>
      have split : callsIn (.call function :: rest) = String.ofList function :: callsIn rest := rfl
      rw [split, List.mem_cons, not_or] at plain
      rw [List.cons_append, setupsIn, if_neg (Ne.symm plain.1)]
      exact ih plain.2
    | _ => exact ih plain

theorem setupsIn_line (setup : PinSetup) (rest : List Token) :
    setupsIn (setup.line.tokens ++ rest) = setup.written :: setupsIn rest := by
  simp [PinSetup.line, PinSetup.written, Pin.symbol, Line.tokens, Expr.tokens, Expr.listTokens,
    UnaryOp.symbol, setupsIn, setupAfter?]

def Atom.Ordinary (objects : List String) : Atom → Prop
  | call function => function ≠ "furi_hal_gpio_init"
  | member object _ => object ∈ objects
  | _ => True

namespace Expr

def Ordinary (objects : List String) (e : Expr) : Prop := e.Holds (Atom.Ordinary objects)

section

variable {objects : List String} {e left right : Expr} {list : List Expr}

private theorem holdAll_ordinary : HoldAll (Atom.Ordinary objects) list ↔ ∀ e ∈ list, e.Ordinary objects := by
  induction list with
  | nil => simp [HoldAll]
  | cons first rest ih => simp only [HoldAll, ih, List.forall_mem_cons, Ordinary]

@[simp] theorem ordinary_name (text : String) : (name text).Ordinary objects := trivial

@[simp] theorem ordinary_member (object field : String) :
    (member object field).Ordinary objects ↔ object ∈ objects := Iff.rfl

@[simp] theorem ordinary_address :
    (unary .address e).Ordinary objects ↔ e.isPlace = true ∧ e.Ordinary objects :=
  ⟨fun ordinary => ⟨ordinary.1 rfl, ordinary.2⟩, fun both => ⟨fun _ => both.1, both.2⟩⟩

@[simp] theorem ordinary_binary (op : BinaryOp) :
    (binary op left right).Ordinary objects ↔ left.Ordinary objects ∧ right.Ordinary objects :=
  Iff.rfl

@[simp] theorem ordinary_call (function : String) : (call function list).Ordinary objects ↔
    function ≠ "furi_hal_gpio_init" ∧ ∀ e ∈ list, e.Ordinary objects :=
  and_congr_right fun _ => holdAll_ordinary

end

end Expr

namespace Line

def Ordinary (objects : List String) (line : Line) : Prop := line.Holds (Atom.Ordinary objects)

def Orderly (objects : List String) (line : Line) : Prop :=
  (∃ setup : PinSetup, line = setup.line) ∨ line.Ordinary objects

def settings (line : Line) : List (String × String) := setupsIn line.tokens

section

variable {objects : List String} {test action : Expr}

@[simp] theorem ordinary_run : (run action).Ordinary objects ↔ action.Ordinary objects := Iff.rfl

@[simp] theorem ordinary_openIf : (openIf test).Ordinary objects ↔ test.Ordinary objects := Iff.rfl

@[simp] theorem ordinary_openFor (counter : String) :
    (openFor counter test).Ordinary objects ↔ test.Ordinary objects := iff_of_eq (true_and _)

end

variable {objects : List String} {line : Line}

theorem Ordinary.not_mem_calls (ordinary : line.Ordinary objects) : "furi_hal_gpio_init" ∉ line.calls := by
  intro called
  rcases Holds.call ordinary called with keyword | call
  · exact absurd keyword (by decide)
  · exact call rfl

theorem Ordinary.settings_eq (ordinary : line.Ordinary objects) : line.settings = [] := by
  have none := setupsIn_append ordinary.not_mem_calls []
  rw [List.append_nil] at none
  exact none

end Line

theorem settings_setup (setup : PinSetup) : setup.line.settings = [setup.written] := by
  have read := setupsIn_line setup []
  rw [List.append_nil] at read
  exact read

namespace Code

def settings (code : Code) : List (String × String) := code.flatMap fun placed => placed.line.settings

def Ordinary (objects : List String) (code : Code) : Prop := ∀ placed ∈ code, placed.line.Ordinary objects

def Orderly (objects : List String) (code : Code) : Prop := ∀ placed ∈ code, placed.line.Orderly objects

section

variable {objects : List String} {a b code : Code} {line : Line} {action : Expr}

@[simp] theorem settings_line : settings (Code.line line) = line.settings := by simp [settings, Code.line]

@[simp] theorem ordinary_line : Ordinary objects (Code.line line) ↔ line.Ordinary objects := holds_line

@[simp] theorem ordinary_comment (text : String) : Ordinary objects (Code.comment text) :=
  ordinary_line.2 trivial

theorem Ordinary.settings_eq (ordinary : Ordinary objects code) : code.settings = [] := by
  rw [settings, List.flatMap_eq_nil_iff]
  exact fun placed member => (ordinary placed member).settings_eq

theorem Ordinary.orderly (ordinary : Ordinary objects code) : code.Orderly objects :=
  fun placed member => .inr (ordinary placed member)

@[simp] theorem orderly_nil : Orderly objects [] := by simp [Orderly]

@[simp] theorem orderly_append :
    Orderly objects (a ++ b) ↔ Orderly objects a ∧ Orderly objects b := List.forall_mem_append

theorem orderly_setup (setup : PinSetup) : Orderly objects (Code.line setup.line) := by
  intro placed member
  rw [List.mem_singleton.1 member]
  exact .inl ⟨setup, rfl⟩

theorem Orderly.setupsIn_tokens (orderly : code.Orderly objects) : setupsIn code.tokens = code.settings := by
  induction code with
  | nil => rfl
  | cons placed rest ih =>
    obtain ⟨here, later⟩ := List.forall_mem_cons.1 orderly
    have split : tokens (placed :: rest) = placed.line.tokens ++ tokens rest := by simp [tokens]
    have parts : settings (placed :: rest) = placed.line.settings ++ settings rest := by simp [settings]
    rw [split, parts, ← ih later]
    rcases here with ⟨setup, same⟩ | ordinary
    · rw [same, setupsIn_line, settings_setup]
      rfl
    · rw [setupsIn_append ordinary.not_mem_calls, ordinary.settings_eq]
      rfl

theorem Orderly.count_calls (orderly : code.Orderly objects) :
    code.calls.count "furi_hal_gpio_init" = code.settings.length := by
  induction code with
  | nil => rfl
  | cons placed rest ih =>
    obtain ⟨here, later⟩ := List.forall_mem_cons.1 orderly
    have split : calls (placed :: rest) = placed.line.calls ++ calls rest := by
      simp [calls, tokens, Line.calls]
    have parts : settings (placed :: rest) = placed.line.settings ++ settings rest := by simp [settings]
    rw [split, parts, List.count_append, List.length_append, ih later]
    rcases here with ⟨setup, same⟩ | ordinary
    · rw [same, settings_setup]
      simp [PinSetup.line, Pin.symbol]
    · rw [List.count_eq_zero.2 ordinary.not_mem_calls, ordinary.settings_eq]
      rfl

theorem Orderly.linkedBy_tokens (orderly : code.Orderly objects) :
    LinkedBy (fun object _ => String.ofList object ∈ objects) code.tokens := by
  let reaching (atom : Atom) : Prop := ∀ object field, atom = .member object field → object ∈ objects
  have holds : code.Holds reaching := by
    intro placed member
    rcases orderly placed member with ⟨setup, same⟩ | ordinary
    · rw [same]
      simp [PinSetup.line, Pin.symbol, Line.Holds, Expr.Holds, Expr.HoldAll, Expr.isPlace, reaching]
    · refine ordinary.imp ?_
      rintro _ reached object field rfl
      exact reached
  exact (Code.linkedBy_tokens holds).imp fun object field reached => reached _ _ rfl

end

end Code

end C

end FlipperBlocks
