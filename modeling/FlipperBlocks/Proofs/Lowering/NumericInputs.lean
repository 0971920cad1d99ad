import FlipperBlocks.Proofs.Lowering.DeferredReads
import FlipperBlocks.Proofs.Lowering.Passing

/-! Numbers in the inputs that expect them.

A block that converts what it finds in an input does the same whether the value is converted before or
not. Texts are converted by a call, but byte arrays are left as they are, and elements of the screen
convert nothing. -/
namespace FlipperBlocks

open C (Code Expr)
open Lowering

/-- The inputs of which a block makes a number, whatever they hold. -/
def BlockKind.numericInputs : BlockKind → List String
  | sleep => ["MS"]
  | repeated => ["TIMES"]
  | arithmetic | bitAnd | bitOr | bitXor => ["A", "B"]
  | bitNot => ["A"]
  | randomNumber => ["MIN", "MAX"]
  | changeVariable => ["DELTA"]
  | startPwm | setPwm => ["FREQ", "DUTY"]
  | servo => ["ANGLE"]
  | deviceReady => ["ADDR", "TIMEOUT"]
  | readRegister8 | readRegister16 => ["ADDR", "TIMEOUT", "REG"]
  | writeRegister8 | writeRegister16 => ["ADDR", "TIMEOUT", "REG", "VALUE"]
  | readBytes | writeBytes => ["ADDR", "TIMEOUT", "MEM"]
  | updateBits => ["ADDR", "TIMEOUT", "REG", "MASK", "VALUE"]
  | streamByte => ["INDEX"]
  | _ => []

def BlockKind.measures : BlockKind → List String
  | drawText | drawAlignedText | drawDot => ["X", "Y"]
  | drawBox | drawFrame | textBox | scrollingText => ["X", "Y", "W", "H"]
  | drawRoundedBox | drawRoundedFrame => ["X", "Y", "W", "H", "R"]
  | drawLine => ["X1", "Y1", "X2", "Y2"]
  | drawCircle | drawDisc => ["X", "Y", "R"]
  | _ => []

namespace Lowering

theorem toNumber_of_text {value : Value} (text : value.kind = .text) (c : Compilation) :
    toNumber value c = (⟨.call "extract_number_from_string" [value.expr], .number, none⟩,
      (enable [.textToNumber] c).2) := by
  unfold toNumber
  rw [if_pos text]
  rfl

theorem toNumber_of_ne {value : Value} (other : value.kind ≠ .text) : toNumber value = pure value := by
  unfold toNumber
  rw [if_neg other]

theorem kind_toNumber (value : Value) (c : Compilation) : (toNumber value c).1.kind ≠ .text := by
  by_cases text : value.kind = .text
  · rw [toNumber_of_text text]
    exact ValueKind.noConfusion
  · rw [toNumber_of_ne text]
    exact text

theorem placeless_toNumber : Placeless toNumber := by
  intro value c steps
  by_cases text : value.kind = .text
  · rw [toNumber_of_text text, toNumber_of_text text]
    rfl
  · rw [toNumber_of_ne text]
    rfl

theorem toNumber_toNumber (value : Value) : toNumber value >>= toNumber = toNumber value := by
  funext c
  change toNumber (toNumber value c).1 (toNumber value c).2 = toNumber value c
  rw [toNumber_of_ne (kind_toNumber value c)]
  rfl

end Lowering

namespace Site

variable (site : Site) (input : String)

theorem numeric_passing (name default : String) :
    (site.passing input toNumber).numeric name default = site.numeric name default := by
  unfold numeric number
  by_cases same : name = input
  · rw [same, value_passing placeless_toNumber (toNumber_toNumber _)]
    exact bind_congr toNumber_toNumber
  · rw [value_passing_of_ne same]

theorem streamIn?_passing {name : String} (other : name ≠ input) :
    streamIn? (site.passing input toNumber) name = streamIn? site name := by
  unfold streamIn? number
  rw [value_passing_of_ne other]

theorem transfer_passing : Transfer.ofSite (site.passing input toNumber) = Transfer.ofSite site := by
  unfold Transfer.ofSite
  rw [numeric_passing, numeric_passing]
  rfl

variable {site input}

private theorem ne_of_numeric {kind : BlockKind} {name : String} (of_kind : site.kind = kind)
    (numeric : input ∈ site.kind.numericInputs) (other : name ∉ kind.numericInputs) : name ≠ input :=
  fun same => other (by rw [same, ← of_kind]; exact numeric)

theorem asValue_passing (numeric : input ∈ site.kind.numericInputs) (wantsText : Bool) :
    (site.passing input toNumber).asValue wantsText = site.asValue wantsText := by
  have kept : (site.passing input toNumber).kind = site.kind := rfl
  unfold asValue
  rw [kept]
  cases kind : site.kind with
  | arithmetic =>
    simp only [arithmetic, numeric_passing]
    rfl
  | bitAnd | bitOr | bitXor | bitNot | randomNumber | deviceReady | readRegister8 | readRegister16 =>
    simp only [bitwise, complement, randomNumber, deviceReady, readRegister, numeric_passing,
      transfer_passing]
  | readBytes =>
    have other : "LEN" ≠ input := ne_of_numeric kind numeric (by decide)
    simp only [readBytes, number, transfer_passing, numeric_passing, value_passing_of_ne other]
  | streamByte =>
    have other : "STREAM" ≠ input := ne_of_numeric kind numeric (by decide)
    simp only [streamByte, streamIn?_passing site input other, numeric_passing]
  | _ =>
    -- The other kinds are no values, or they have no such input.
    first
    | exact absurd (kind ▸ numeric) List.not_mem_nil
    | rfl

theorem asStatement_passing (numeric : input ∈ site.kind.numericInputs) :
    (site.passing input toNumber).asStatement = site.asStatement := by
  have kept : (site.passing input toNumber).kind = site.kind := rfl
  unfold asStatement
  rw [kept]
  cases kind : site.kind with
  | sleep | writeRegister8 | writeRegister16 | updateBits =>
    simp only [sleep, writeRegister, updateBits, numeric_passing, transfer_passing]
  | repeated | changeVariable | startPwm | setPwm | servo =>
    simp only [repeated, changeVariable, startPwm, servo, numeric_passing]
    rfl
  | writeBytes =>
    have other : "DATA" ≠ input := ne_of_numeric kind numeric (by decide)
    simp only [writeBytes, streamIn?_passing site input other, transfer_passing, numeric_passing]
  | _ =>
    -- The other kinds are no statements, or they have no such input.
    first
    | exact absurd (kind ▸ numeric) List.not_mem_nil
    | rfl

section

variable {change : Value → Value} (unchanged : ∀ value, (change value).expr = value.expr)

include unchanged

theorem measure_passing (name default : String) :
    measure (site.passing input (pure ∘ change)) name default = measure site name default := by
  have spliced : ∀ value, (pure (change value) >>= fun value => pure value.expr : Lowering Expr) =
      pure value.expr := fun value => by rw [pure_bind, unchanged]
  unfold Lowering.measure number
  by_cases same : name = input
  · rw [same, value_passing (fun _ _ _ => rfl) (spliced _)]
    exact bind_congr spliced
  · rw [value_passing_of_ne same]

theorem coordinate_passing (name : String) :
    coordinate (site.passing input (pure ∘ change)) name = coordinate site name :=
  measure_passing unchanged name "0"

theorem drawing_passing (other : "TEXT" ≠ input) :
    drawing (site.passing input (pure ∘ change)) = drawing site := by
  have shown (default : String) : (site.passing input (pure ∘ change)).shown "TEXT" default =
      site.shown "TEXT" default := by
    unfold Site.shown scalar?
    rw [value_passing_of_ne other]
  unfold drawing drawText drawAlignedText drawRectangle drawLine drawCircle textBox scrollingText
  simp only [coordinate_passing unchanged, measure_passing unchanged, shown]
  rfl

theorem meaning_passing_measure (drawn : input ∈ site.kind.measures) :
    (site.passing input (pure ∘ change)).meaning = site.meaning := by
  have other : "TEXT" ∉ site.kind.measures := by cases site.kind <;> simp [BlockKind.measures]
  have same : drawing (site.passing input (pure ∘ change)) = drawing site :=
    drawing_passing unchanged fun text => other (text ▸ drawn)
  have kept : (site.passing input (pure ∘ change)).kind = site.kind := rfl
  unfold meaning asValue asStatement
  rw [kept]
  cases kind : site.kind with
  | drawText | drawAlignedText | drawBox | drawFrame | drawRoundedBox | drawRoundedFrame | drawLine
  | drawCircle | drawDisc | drawDot | textBox | scrollingText => exact congrArg (Meaning.mk _ _ _) same
  | _ => exact absurd (kind ▸ drawn) List.not_mem_nil

end

theorem comparison_run {c d e : Compilation} {a b : Value} (first : site.number "A" "0" c = (a, d))
    (second : site.number "B" "0" d = (b, e)) (mixed : ¬ (a.kind = .text ∧ b.kind = .text)) :
    comparison site c = (toNumber a >>= fun a => toNumber b >>= fun b =>
      return operation (comparisonOf (site.head.field? "OP")) (a.expr.operand .additive)
        (b.expr.operand .additive) .truth : Lowering Value) e := by
  unfold comparison
  rw [bind_of_run first, bind_of_run second, if_neg mixed]

theorem setVariable_run_of_bytes {c d : Compilation} {value : Value}
    (found : site.value "VALUE" (.number "0") c = (value, d)) (bytes : value.kind = .bytes) :
    setVariable site c = (Code.comment ("cannot assign a byte stream to " ++ variableName site),
      (degrade (.bytesAsValue (variableName site)) { d with draft := c.draft }).2) := by
  have none : site.scalar? "VALUE" (.number "0") c = (none, { d with draft := c.draft }) := by
    rw [scalar?_of_run found, if_pos bytes]
  unfold setVariable
  rw [bind_of_run none]
  rfl

theorem setVariable_run_of_number {c d e : Compilation} {value : Value} {storage : Storage}
    (found : site.value "VALUE" (.number "0") c = (value, d)) (other : value.kind ≠ .bytes)
    (resolved : resolve site (value.kind = .text) d = (storage, e)) (number : storage.kind ≠ .text) :
    setVariable site c = (toNumber value >>= fun value =>
      return Code.run (.assign .set storage.place value.expr) : Lowering Code) e := by
  have some : site.scalar? "VALUE" (.number "0") c = (some value, d) := by
    rw [scalar?_of_run found, if_neg other]
  unfold setVariable
  rw [bind_of_run some]
  refine (bind_of_run resolved).trans ?_
  unfold store
  rw [if_neg number]

structure NumbersConverted (site : Site) : Prop where
  /-- The block converts what its numeric inputs hold: a conversion before it does so changes nothing. -/
  inputs : ∀ input ∈ site.kind.numericInputs, (site.passing input toNumber).meaning = site.meaning
  /-- Elements of the screen take places and sizes as they are, whatever kind of value they find. -/
  drawn : ∀ input ∈ site.kind.measures, ∀ change : Value → Value,
    (∀ value, (change value).expr = value.expr) →
      (site.passing input (pure ∘ change)).meaning = site.meaning
  /-- Unless both sides of a comparison are texts, both are converted. -/
  compared : site.kind = .compare → ∀ wantsText a b c d e, site.number "A" "0" c = (a, d) →
    site.number "B" "0" d = (b, e) → ¬ (a.kind = .text ∧ b.kind = .text) →
      site.asValue wantsText c = (toNumber a >>= fun a => toNumber b >>= fun b =>
        return operation (comparisonOf (site.head.field? "OP")) (a.expr.operand .additive)
          (b.expr.operand .additive) .truth : Lowering Value) e
  /-- No byte array is stored in a variable. -/
  refused : site.kind = .setVariable → ∀ value c d, site.value "VALUE" (.number "0") c = (value, d) →
    value.kind = .bytes →
      site.asStatement c = (Code.comment ("cannot assign a byte stream to " ++ variableName site),
        (degrade (.bytesAsValue (variableName site)) { d with draft := c.draft }).2)
  /-- What is stored in a variable for numbers has been converted. -/
  assigned : site.kind = .setVariable → ∀ value storage c d e,
    site.value "VALUE" (.number "0") c = (value, d) → value.kind ≠ .bytes →
      resolve site (value.kind = .text) d = (storage, e) → storage.kind ≠ .text →
        site.asStatement c = (toNumber value >>= fun value =>
          return Code.run (.assign .set storage.place value.expr) : Lowering Code) e

end Site

/-- What a value is after the conversion to a number: a number or a truth value, which for a text is
the result of a call, but a byte array if it has been one before. -/
structure Value.Converted (value : Value) (c : Compilation) : Prop where
  kind : (toNumber value c).1.kind = .number ∨ (toNumber value c).1.kind = .truth ∨
    value.kind = .bytes
  ofText : value.kind = .text → toNumber value c =
    (⟨.call "extract_number_from_string" [value.expr], .number, none⟩, (enable [.textToNumber] c).2)
  ofOther : value.kind ≠ .text → toNumber value c = (value, c)

theorem Value.converted (value : Value) (c : Compilation) : value.Converted c where
  kind := by
    by_cases text : value.kind = .text
    · rw [toNumber_of_text text]
      exact .inl rfl
    · rw [toNumber_of_ne text]
      change value.kind = .number ∨ value.kind = .truth ∨ value.kind = .bytes
      cases kind : value.kind with
      | number => exact .inl rfl
      | text => exact absurd kind text
      | truth => exact .inr (.inl rfl)
      | bytes => exact .inr (.inr rfl)
  ofText text := toNumber_of_text text c
  ofOther other := by
    rw [toNumber_of_ne other]
    rfl

/-- Wherever a block makes a number of a value, apart from the elements of the screen, texts are
converted by a call, and all that stays unconverted are byte arrays. -/
theorem Site.numbers_converted (site : Site) :
    site.NumbersConverted ∧ ∀ value c, Value.Converted value c := by
  refine ⟨⟨?inputs, ?drawn, ?compared, ?refused, ?assigned⟩, Value.converted⟩
  case inputs =>
    intro input numeric
    have value := funext (asValue_passing numeric)
    have statement := asStatement_passing numeric
    unfold meaning
    rw [value, statement]
    rfl
  case drawn =>
    intro input drawn change unchanged
    exact meaning_passing_measure unchanged drawn
  case compared =>
    intro kind wantsText a b c d e first second mixed
    unfold asValue
    rw [kind]
    exact comparison_run first second mixed
  case refused =>
    intro kind value c d found bytes
    unfold asStatement
    rw [kind]
    exact setVariable_run_of_bytes found bytes
  case assigned =>
    intro kind value storage c d e found other resolved number
    unfold asStatement
    rw [kind]
    exact setVariable_run_of_number found other resolved number

namespace Program

def boxAtText : Program := ofSection "DRAW"
  [.mk { kind := .drawBox }
    [("X", [.mk { kind := .text, fields := [("TEXT", .text "12")] } [] []])] []]

def pauseOfBytes : Program := ofSection "LOOP"
  [.mk { kind := .sleep } [("MS", [.mk { kind := .byteStream } [] []])] []]

/-- A text stands for a coordinate and a byte array for a time, and neither is reported. -/
theorem text_and_bytes_for_numbers : (C.Code.text boxAtText.lowered.draft.draw =
        "widget_add_rect_element(app->widget, \"12\", 0, 0, 0, 0, true);\n" ∧
      boxAtText.lowered.diagnostics = []) ∧
    C.Code.text pauseOfBytes.lowered.draft.loop = "furi_delay_ms(byte_stream_0);\n" ∧
      pauseOfBytes.lowered.diagnostics = [] := by
  decide +kernel

end Program

end FlipperBlocks
