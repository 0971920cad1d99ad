import FlipperBlocks.Proofs.Application.BodyFragments
import FlipperBlocks.Proofs.Application.Clashes

/-! Buttons and their functions.

A button that does something has a function with a number, and a line of the program hands over that function
for it. Each function is handed over once, unless both its name and that of the application are variables. -/
namespace FlipperBlocks

open C (Code Line Silent callback occurrences occurrencesIn registrationRun)

/-! Buttons on record. -/

def handedOver (number : Nat) (lines : Multiset Line) : Nat :=
  (lines.map fun line => occurrences (registrationRun number) line.tokens).sum

theorem handedOver_add (number : Nat) (line : Line) (lines : Multiset Line) :
    handedOver number ({line} + lines) =
      occurrences (registrationRun number) line.tokens + handedOver number lines := by
  simp [handedOver]

theorem handedOver_pos {number : Nat} {line : Line} {lines : Multiset Line} (member : line ∈ lines)
    (hands : 0 < occurrences (registrationRun number) line.tokens) : 0 < handedOver number lines := by
  obtain ⟨others, rfl⟩ := Multiset.exists_cons_of_mem member
  rw [← Multiset.singleton_add, handedOver_add]
  omega

/-- Every button on record is that of a known block, which has given the line that hands over its function; and
unless variables have both its name and that of the application, no other line hands over the function. -/
structure ButtonsRecorded (names : List String) (known : Site → Prop) (draft : Draft)
    (lines : Multiset Line) : Prop where
  once : ∀ number, ("app" ∈ names → callback number ∉ names) →
    handedOver number lines = if number < draft.buttons.length then 1 else 0
  traced : ∀ number body, draft.buttons[number]? = some body → ∃ site before line, known site ∧
    site.Registers before line number body draft ∧ line ∈ lines

namespace ButtonsRecorded

variable {names : List String} {known : Site → Prop} {a b draft : Draft} {line : Line}
  {lines : Multiset Line}

theorem quiet (recorded : ButtonsRecorded names known a lines) (grown : a.Extends b)
    (same : b.buttons = a.buttons) : ButtonsRecorded names known b lines where
  once := same ▸ recorded.once
  traced number body found := by
    rw [same] at found
    obtain ⟨site, before, line, among, registers, member⟩ := recorded.traced number body found
    exact ⟨site, before, line, among, registers.grow grown, member⟩

theorem silent (recorded : ButtonsRecorded names known draft lines)
    (silent : ∀ number, Silent names number line.tokens) :
    ButtonsRecorded names known draft ({line} + lines) where
  once number distinct := by
    rw [handedOver_add, (silent number).occurrences_eq distinct, Nat.zero_add]
    exact recorded.once number distinct
  traced number body found := by
    obtain ⟨site, before, other, among, registers, member⟩ := recorded.traced number body found
    exact ⟨site, before, other, among, registers, Multiset.mem_add.2 (.inr member)⟩

theorem register {site : Site} {before : Compilation} {type : String} {label : C.Expr} {body : Code}
    (recorded : ButtonsRecorded names known draft lines) (among : known site)
    (registers : site.Registers before (.registering type label draft.buttons.length)
      draft.buttons.length body (draft.addButton body)) (plain : label.Plain names) :
    ButtonsRecorded names known (draft.addButton body)
      ({.registering type label draft.buttons.length} + lines) where
  once number distinct := by
    have longer : (draft.addButton body).buttons.length = draft.buttons.length + 1 := by
      simp [Draft.addButton]
    rw [handedOver_add, Line.occurrences_registering plain _ _ _ distinct, recorded.once number distinct,
      longer]
    split <;> split <;> split <;> omega
  traced number other found := by
    rcases Nat.lt_trichotomy number draft.buttons.length with old | rfl | beyond
    · have there : draft.buttons[number]? = some other := by
        rw [← found, Draft.addButton, List.getElem?_append_left old]
      obtain ⟨site, before, line, among, registers, member⟩ := recorded.traced number other there
      exact ⟨site, before, line, among, registers.grow (draft.extends_addButton body),
        Multiset.mem_add.2 (.inr member)⟩
    · obtain rfl : body = other := by simpa [Draft.addButton] using found
      exact ⟨site, before, _, among, registers, Multiset.mem_add.2 (.inl (Multiset.mem_singleton_self _))⟩
    · have short : (draft.addButton body).buttons.length ≤ number := by
        simp only [Draft.addButton, List.length_append, List.length_singleton]
        omega
      rw [List.getElem?_eq_none short] at found
      contradiction

end ButtonsRecorded

theorem buttons_usePwm (draft : Draft) (output : PwmOutput) :
    (draft.usePwm output).buttons = draft.buttons := by
  unfold Draft.usePwm
  split <;> rfl

def buttonLedger (names : List String) (known : Site → Prop) : DraftLedger names known where
  holds := ButtonsRecorded names known
  quiet grown recorded := recorded.quiet grown.grown grown.buttons
  inert inert recorded := recorded.silent inert.silent
  start output first second recorded := by
    refine ButtonsRecorded.silent (recorded.quiet (Draft.extends_usePwm _ _) (buttons_usePwm _ _)) ?_
    exact fun _ => Line.silent_starting first second output
  loop plain recorded := by
    refine ButtonsRecorded.silent (recorded.quiet (Draft.extends_advance _ _ _) rfl) ?_
    exact fun _ => Line.silent_openFor plain (Draft.free_numbered (by decide) (by decide) _)
  register among registers plain recorded := recorded.register among registers plain

namespace Application

/-! Functions of buttons in the text. -/

def registrations (draft : Draft) (number : Nat) : Nat :=
  ((bodyFragments draft).map (occurrencesIn (callback number ++ ", app);"))).sum

theorem registrations_eq {draft last : Draft} (sound : draft.Sound last) (number : Nat) :
    registrations draft number = handedOver number draft.lines := by
  have within : ∀ last ∈ C.lineEnds, last ∉ (registrationRun number).dropLast := by
    simp [C.lineEnds, registrationRun]
  rw [← C.tokens_registration] at within
  rw [registrations, occurrences_bodyFragments sound within, C.tokens_registration, handedOver]

def announcement (number : Nat) : String := row (buttonHeading number ++ ";")

theorem announcement_eq (number : Nat) : announcement number = "static void app_button_cb_" ++
    (toString number ++ ("(GuiButtonType result, InputType type, void* context)" ++ (";" ++ "\n"))) := by
  unfold announcement row buttonHeading
  rw [String.append_assoc, String.append_assoc, String.append_assoc]

theorem announcement_injective : Function.Injective announcement := by
  intro n m same
  rw [announcement_eq, announcement_eq, ← String.toList_inj] at same
  simp only [String.toList_append, List.append_cancel_left_eq, List.append_cancel_right_eq,
    String.toList_inj] at same
  exact @Draft.numbered_inj "" n m (by rw [Draft.numbered, Draft.numbered, same])

theorem take_start {start : String} (long : 17 ≤ start.toList.length) (rest : String) :
    (start ++ rest).toList.take 17 = start.toList.take 17 := by
  rw [String.toList_append, List.take_append_of_le_length long]

theorem take_announcement (number : Nat) :
    (announcement number).toList.take 17 = "static void app_b".toList := by
  have long : 17 ≤ "static void app_button_cb_".toList.length := by decide
  rw [announcement_eq, take_start long]
  decide

theorem take_timerRow (number : Nat) :
    (row (timerHeading number ++ ";")).toList.take 17 = "static void app_t".toList := by
  have long : 17 ≤ "static void app_timer_callback_".toList.length := by decide
  unfold row timerHeading
  rw [String.append_assoc, String.append_assoc, String.append_assoc, take_start long]
  decide

theorem count_announcement (draft : Draft) (number : Nat) :
    (announcementPieces draft).count (announcement number) =
      if number < draft.buttons.length then 1 else 0 := by
  have timers : announcement number ∉
      (timerNumbers draft).map fun number => row (timerHeading number ++ ";") := by
    intro member
    obtain ⟨other, _, same⟩ := List.mem_map.1 member
    have letters := take_announcement number
    rw [← same, take_timerRow] at letters
    exact absurd letters (by decide)
  have blank : announcement number ∉ [emptyRow] := by
    intro member
    have letters := take_announcement number
    rw [List.mem_singleton.1 member] at letters
    exact absurd letters (by decide)
  have buttons : ((buttonNumbers draft).map announcement).count (announcement number) =
      if number < draft.buttons.length then 1 else 0 := by
    rw [List.count_map_of_injective _ _ announcement_injective, buttonNumbers, List.nodup_range.count]
    simp only [List.mem_range]
  unfold announcementPieces
  split
  · rename_i empty
    have none : draft.buttons = [] := by simp_all
    simp [none]
  · change (_ ++ (buttonNumbers draft).map announcement ++ [emptyRow]).count _ = _
    rw [List.count_append, List.count_append, List.count_eq_zero.2 timers, List.count_eq_zero.2 blank,
      buttons, Nat.zero_add, Nat.add_zero]

theorem count_functionNames (draft : Draft) (number : Nat) : (functionNames draft).count (callback number) =
      if number < draft.buttons.length then 1 else 0 := by
  rw [functionNames_eq, draft.nodup_functions.count]
  simp only [callback, Draft.mem_functions_button]

theorem infix_eachNumbered {α : Type} {pieces : Nat → α → List String} {items : List α} {index : Nat}
    {item : α} (found : items[index]? = some item) (start : Nat) :
    pieces (start + index) item <:+: eachNumbered pieces start items := by
  induction items generalizing start index with
  | nil => contradiction
  | cons first rest ih =>
    rw [eachNumbered]
    cases index with
    | zero =>
      obtain rfl : first = item := by simpa using found
      exact ⟨[], eachNumbered pieces (start + 1) rest, by simp⟩
    | succ index =>
      have later := ih (by simpa using found) (start + 1)
      rw [Nat.add_right_comm, Nat.add_assoc] at later
      exact later.trans (List.infix_append_right ..)

end Application

namespace Program

open Application

structure ButtonsMatch (program : Program) : Prop where
  /-- Every function is handed over. -/
  handed : ∀ number < program.lowered.draft.buttons.length,
    0 < registrations program.lowered.draft number
  /-- It is handed over once, and no other one is, unless variables have both names that are handed over. -/
  once : ∀ number, ("app" ∈ program.variableNames → callback number ∉ program.variableNames) →
    registrations program.lowered.draft number =
      if number < program.lowered.draft.buttons.length then 1 else 0
  announced : ∀ number, (announcementPieces program.lowered.draft).count (announcement number) =
    if number < program.lowered.draft.buttons.length then 1 else 0
  defined : ∀ number, (functionNames program.lowered.draft).count (callback number) =
    if number < program.lowered.draft.buttons.length then 1 else 0
  /-- A function does what has been lowered from the input of the block that gave the line. -/
  traced : ∀ number body, program.lowered.draft.buttons[number]? = some body →
    buttonPieces number body <:+: callbackPieces program.lowered.draft ∧
      ∃ block ∈ program.parts, ∃ before line,
        block.site.Registers before line number body program.lowered.draft ∧
          ∃ code ∈ program.lowered.draft.codes, line ∈ code.lines

theorem buttons_match (program : Program) : program.ButtonsMatch := by
  have sound := program.lowered_sound
  have recorded := holds_lowered
    (buttonLedger program.variableNames program.HasSite).ledger ⟨by simp [handedOver], by simp⟩
  refine ⟨fun number small => ?_, fun number distinct => ?_, count_announcement _, count_functionNames _,
    fun number body found => ⟨?_, ?_⟩⟩
  · obtain ⟨_, _, line, _, registers, member⟩ :=
      recorded.traced number _ (List.getElem?_eq_getElem small)
    obtain ⟨type, label, rfl⟩ := registers.handsOver
    rw [registrations_eq sound]
    exact handedOver_pos member (Line.occurrences_registering_pos _ _ label)
  · rw [registrations_eq sound]
    exact recorded.once number distinct
  · have own := @infix_eachNumbered _ buttonPieces _ _ _ found 0
    rw [Nat.zero_add] at own
    exact own.trans (List.infix_append_right ..)
  · obtain ⟨_, before, line, ⟨block, among, rfl⟩, registers, member⟩ :=
      recorded.traced number body found
    exact ⟨block, among, before, line, registers, Draft.mem_lines.1 member⟩

def nestedButtons : Program :=
  ⟨[[.mk { kind := .app } [] [("DRAW", [.mk { kind := .button } [] [("DO", [.mk { kind := .button } [] [("DO",
      [.mk { kind := .changeVariable, fields := [("VAR", .text "app")] } [] []])],
      .mk { kind := .redraw } [] []])]])]]]⟩

theorem nestedButtons_handed : nestedButtons.variableNames = ["app"] ∧
    nestedButtons.lowered.draft.buttons.length = 2 ∧ (registrations nestedButtons.lowered.draft 0 = 1 ∧
        registrations nestedButtons.lowered.draft 1 = 1) ∧
          registrations nestedButtons.lowered.draft 2 = 0 := by
  have names : nestedButtons.variableNames = ["app"] := by decide +kernel
  have two : nestedButtons.lowered.draft.buttons.length = 2 := by decide +kernel
  have distinct (number : Nat) : "app" ∈ nestedButtons.variableNames →
      callback number ∉ nestedButtons.variableNames := by
    simp [names, callback, ← String.toList_inj]
  have once (number : Nat) := nestedButtons.buttons_match.once number (distinct number)
  simp only [two] at once
  exact ⟨names, two, ⟨once 0, once 1⟩, once 2⟩

def borrowedNames : Program :=
  ⟨[[.mk { kind := .app } [] [("LOOP", [.mk { kind := .writeFile }
    [("PATH", [.mk { kind := .getVariable, fields := [("VAR", .text "app_button_cb_0")] } [] []]),
      ("DATA", [.mk { kind := .getVariable, fields := [("VAR", .text "app")] } [] []])] []])]]]⟩

/-- Where a variable has the name of the application, a function may be handed over that no button has. -/
theorem borrowedNames_handed : borrowedNames.lowered.draft.buttons.length = 0 ∧
    registrations borrowedNames.lowered.draft 0 = 1 := by
  decide +kernel

end Program

end FlipperBlocks
