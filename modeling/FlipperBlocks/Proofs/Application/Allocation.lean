import FlipperBlocks.Proofs.Application.Fragments

/-! What the function that allocates the application calls.

Its rows are fixed ones, resets of storage, setups of pins, the code of the setup section, and rows
for the timers. -/
namespace FlipperBlocks.Application

open C (Code Expr Line)
open C.Identifier (isIdentifier)

def Served (features : Features) (function : String) : Prop :=
  ∀ routine ∈ routines, function ∈ routine.functions →
    isWanted routine.wantedBy features = true

variable {features : Features} {ok : String → Prop} {names : List (List Char)} {text : String}

theorem served_of_foreign {function : String} (foreign : function ∉ driverNames) : Served features function :=
  fun _ member defined => absurd (mem_driverNames member defined) foreign

def plainNames : List String :=
  Line.keywords ++ ["furi_timer_alloc", "furi_timer_start", "furi_ms_to_ticks", "furi_delay_ms"]

theorem plainNames_foreign : ∀ name ∈ plainNames, name ∉ driverNames := by decide +kernel

theorem served_of_fits {last : Draft} {code : Code} (fits : code.Fits last)
    {function : String} (called : function ∈ code.calls) : Served last.features function := by
  rcases fits.holds.call called with keyword | allowed
  · exact served_of_foreign (plainNames_foreign function (List.mem_append_left _ keyword))
  · exact fun _ member defined => isWanted_of_allowed allowed member defined

def RowsCall (ok : String → Prop) (text : String) : Prop :=
  ∃ found, C.Rows text found ∧ ∀ function ∈ C.callsIn found, ok function

theorem RowsCall.imp {ok better : String → Prop} {text : String} (rows : RowsCall ok text)
    (imp : ∀ function, ok function → better function) : RowsCall better text := by
  obtain ⟨found, scanned, calls⟩ := rows
  exact ⟨found, scanned, fun function called => imp function (calls function called)⟩

theorem scan_joined {ok : String → Prop} : ∀ {pieces : List String},
    (∀ piece ∈ pieces, RowsCall ok piece) →
      ∃ found, C.Scan.run .code (pieces.flatMap String.toList) = (found, .code) ∧
        ∀ function ∈ C.callsIn found, ok function
  | [], _ => ⟨[], rfl, nofun⟩
  | piece :: rest, each => by
    obtain ⟨first, rows, calls⟩ := each piece List.mem_cons_self
    obtain ⟨second, scanned, callsOn⟩ := scan_joined fun other member =>
      each other (List.mem_cons_of_mem _ member)
    refine ⟨first ++ second, C.Scan.run_append_of_eq rows.scan scanned, fun function called => ?_⟩
    rw [C.callsIn_append, List.mem_append] at called
    exact called.elim (calls function) (callsOn function)

theorem calls_joined {pieces : List String} (each : ∀ piece ∈ pieces, RowsCall ok piece) :
    ∀ function ∈ C.calls ("".intercalate pieces), ok function := by
  obtain ⟨found, scanned, calls⟩ := scan_joined each
  rw [← toList_joined] at scanned
  have same : C.calls ("".intercalate pieces) = C.callsIn found := by
    rw [C.calls, C.tokens, scanned]
    exact congrArg C.callsIn (List.append_nil found)
  rw [same]
  exact calls

def fixedPieces : List String :=
  [row "static App* app_alloc(void) \x7b",
    bodyRow "App* app = malloc(sizeof(App));",
    bodyRow "furi_assert(app);",
    emptyRow,
    bodyRow "Gui* gui = furi_record_open(RECORD_GUI);",
    bodyRow "app->notif = furi_record_open(RECORD_NOTIFICATION);",
    bodyRow "return app;",
    row "\x7d"] ++ viewPieces

def isPlain (names : List (List Char)) (cs : List Char) : Bool :=
  match C.Scan.run .code cs with
  | (found, mode) => mode == .code && cs.getLast? == some '\n' && found.all fun
    | .call name => !names.contains name
    | _ => true

theorem rowsCall_of_isPlain (drivers : Letters driverNames names) (plain : isPlain names text.toList = true) :
    RowsCall (· ∉ driverNames) text := by
  unfold isPlain at plain
  split at plain
  rename_i found mode scanned
  simp only [Bool.and_eq_true, beq_iff_eq, List.all_eq_true] at plain
  obtain ⟨⟨ends, last⟩, foreign⟩ := plain
  refine ⟨found, ⟨ends ▸ scanned, .inr last⟩, fun function called driver => ?_⟩
  simp only [C.callsIn, List.mem_filterMap] at called
  obtain ⟨token, member, same⟩ := called
  have other := foreign token member
  cases token with
  | call name =>
    injection same with same
    have letters : name ∈ names := by
      rw [← drivers.toList_eq, ← String.toList_ofList (l := name), same]
      exact List.mem_map_of_mem driver
    simp [letters] at other
  | _ => contradiction

theorem rowsCall_of_letters {css : List (List Char)} {texts : List String}
    (drivers : Letters driverNames names) (letters : Letters texts css)
    (plain : css.all (isPlain names) = true) : ∀ text ∈ texts, RowsCall (· ∉ driverNames) text := by
  intro text member
  refine rowsCall_of_isPlain drivers (List.all_eq_true.1 plain _ ?_)
  rw [← letters.toList_eq]
  exact List.mem_map_of_mem member

theorem rowsCall_fixed : ∀ piece ∈ fixedPieces, RowsCall (· ∉ driverNames) piece := by
  apply rowsCall_of_letters
  · repeat constructor
  · repeat (first | apply Spells.append | constructor)
  · decide +kernel

theorem rowsCall_line {line : Line} (spelled : line.Holds C.Atom.Spelled) :
    RowsCall (· ∈ line.calls) (bodyRow line.text) := by
  have rows := rows_bodyRow (Code.holds_line.2 spelled)
  refine ⟨_, rows, fun function called => ?_⟩
  rw [← Code.calls_line]
  exact called

theorem rowsCall_foreign {action : Expr}
    (same : (Line.run action).text = text) (spelled : action.Holds C.Atom.Spelled)
    (plain : ∀ function ∈ action.calls, function ∈ plainNames) :
    RowsCall (Served features) (bodyRow text) := by
  have rows : RowsCall (· ∈ (Line.run action).calls) (bodyRow (Line.run action).text) := rowsCall_line spelled
  rw [same] at rows
  refine rows.imp fun function called => served_of_foreign ?_
  rw [Line.calls_run] at called
  exact plainNames_foreign function (plain function called)

theorem spelled_call (named : isIdentifier text = true) : C.Atom.Spelled (.call text) := named

theorem spelled_name (named : isIdentifier text = true) : C.Atom.Spelled (.name text) := named

theorem isIdentifier_numberedName {stem : String} (named : isIdentifier stem = true)
    (number : Nat) : isIdentifier (stem ++ toString number) = true :=
  C.Identifier.isIdentifier_append named (C.Identifier.isPart_toString number)

theorem timerAllocation_eq (number : Nat) : timerAllocation number =
    bodyRow (Line.run (.assign .set (.member "app" ("timer_" ++ toString number))
      (.call "furi_timer_alloc" [.name ("app_timer_callback_" ++ toString number),
        .name "FuriTimerTypePeriodic", .name "app"]))).text := by
  change _ = bodyRow (("app" ++ "->" ++ ("timer_" ++ toString number)) ++ " " ++ "=" ++ " " ++
    ("furi_timer_alloc" ++ "(" ++ (("app_timer_callback_" ++ toString number) ++ ", " ++
      ("FuriTimerTypePeriodic" ++ ", " ++ "app")) ++ ")") ++ ";")
  simp [timerAllocation, bodyRow, ← String.toList_inj]

theorem rowsCall_timerAllocation (number : Nat) :
    RowsCall (Served features) (timerAllocation number) := by
  rw [timerAllocation_eq]
  refine rowsCall_foreign rfl ⟨⟨by decide, isIdentifier_numberedName (by decide) number⟩, ?_⟩ ?_
  · exact ⟨spelled_call (by decide), isIdentifier_numberedName (by decide) number,
      spelled_name (by decide), spelled_name (by decide), trivial⟩
  · simp [plainNames]

theorem timerStart_eq (draft : Draft) (number : Nat) (timer : Timer) : timerStart draft number timer =
      [bodyRow (Line.run (.call "furi_timer_start" [.member "app" ("timer_" ++ toString number),
        .call "furi_ms_to_ticks" [.number (toString (interval draft timer))]])).text] := by
  change _ = [bodyRow (("furi_timer_start" ++ "(" ++ (("app" ++ "->" ++ ("timer_" ++
    toString number)) ++ ", " ++ ("furi_ms_to_ticks" ++ "(" ++ toString (interval draft timer) ++
      ")")) ++ ")") ++ ";")]
  simp [timerStart, bodyRow, ← String.toList_inj]

theorem rowsCall_timerStart {draft : Draft} (number : Nat)
    (timer : Timer) : ∀ piece ∈ timerStart draft number timer, RowsCall (Served features) piece := by
  rw [timerStart_eq]
  refine List.forall_mem_singleton.2 (rowsCall_foreign rfl ⟨spelled_call (by decide),
    ⟨by decide, isIdentifier_numberedName (by decide) number⟩,
    ⟨spelled_call (by decide), C.isNumeral_toString _, trivial⟩, trivial⟩ ?_)
  simp [plainNames]

theorem rowsCall_warmUp :
    RowsCall (Served features) (bodyRow ("furi_delay_ms(" ++ toString climateWarmUp ++ ");")) := by
  have text : (Line.run (.call "furi_delay_ms" [.number (toString climateWarmUp)])).text =
      "furi_delay_ms(" ++ toString climateWarmUp ++ ");" := by
    change ("furi_delay_ms" ++ "(" ++ toString climateWarmUp ++ ")") ++ ";" = _
    simp [← String.toList_inj]
  refine rowsCall_foreign text ⟨spelled_call (by decide), C.isNumeral_toString _, trivial⟩ ?_
  simp [plainNames]

theorem rowsCall_paragraph {rows : List String}
    (blank : RowsCall ok emptyRow) (each : ∀ piece ∈ rows, RowsCall ok piece) :
    ∀ piece ∈ paragraph rows, RowsCall ok piece := by
  unfold paragraph
  split
  · exact nofun
  · exact List.forall_mem_cons.2 ⟨blank, each⟩

theorem mem_eachNumbered {α : Type} {pieces : Nat → α → List String} {number : Nat}
    {items : List α} {piece : String} (member : piece ∈ eachNumbered pieces number items) :
    ∃ index < items.length, ∃ item ∈ items, piece ∈ pieces (number + index) item := by
  induction items generalizing number with
  | nil => contradiction
  | cons item rest ih =>
    rcases List.mem_append.1 member with here | later
    · exact ⟨0, by simp, item, List.mem_cons_self, here⟩
    · obtain ⟨index, small, found, among, there⟩ := ih later
      refine ⟨index + 1, by simpa using small, found, List.mem_cons_of_mem _ among, ?_⟩
      rwa [Nat.add_right_comm, Nat.add_assoc] at there

theorem rowsCall_timerRows (draft : Draft) :
    ∀ piece ∈ timerRows draft, RowsCall (Served features) piece := by
  unfold timerRows
  split
  · exact nofun
  · simp only [List.forall_mem_append]
    refine ⟨⟨?_, ?_⟩, ?_⟩
    · exact List.forall_mem_map.2 fun number _ => rowsCall_timerAllocation number
    · split
      · exact List.forall_mem_singleton.2 rowsCall_warmUp
      · exact nofun
    · intro piece member
      obtain ⟨_, _, timer, _, there⟩ := mem_eachNumbered member
      exact rowsCall_timerStart _ timer piece there

variable {draft : Draft}

theorem rowsCall_reset {storage : Storage} (fits : storage.Fits draft) {line : Line}
    (reset : storage.reset? = some line) : RowsCall (Served draft.features) (bodyRow line.text) := by
  unfold Storage.reset? at reset
  split at reset
  · injection reset with reset
    subst reset
    have holds := Lowering.holds_place fits
    refine rowsCall_foreign rfl ⟨Expr.Holds.imp (fun _ => Allowed.spelled) _ holds, ?_⟩ ?_
    · change C.isNumeral "0".toList = true
      decide
    · simp [Lowering.calls_place]
  · contradiction

theorem rowsCall_power : RowsCall (· = "power_ensure_5v") (bodyRow "power_ensure_5v();") := by
  have spelled : (Expr.call "power_ensure_5v" []).Holds C.Atom.Spelled := ⟨spelled_call (by decide), trivial⟩
  have rows : RowsCall (· ∈ (Line.run (.call "power_ensure_5v" [])).calls)
    (bodyRow (Line.run (.call "power_ensure_5v" [])).text) := rowsCall_line spelled
  have text : (Line.run (.call "power_ensure_5v" [])).text = "power_ensure_5v();" := by decide
  rw [text] at rows
  exact rows.imp fun function called => by simpa using called

theorem power_wantedBy : ∀ described ∈ catalogue, "power_ensure_5v" ∈ described.2.1 →
    described.1.wantedBy = Feature.powered := by
  decide +kernel

theorem served_power {features : Features} (powered : features.hasAny Feature.powered = true) :
    Served features "power_ensure_5v" := by
  intro routine member defined
  obtain ⟨profile, paired, describes⟩ := exists_profile routine member
  rw [describes.functions] at defined
  have wantedBy := power_wantedBy _ paired defined
  rw [isWanted, wantedBy, powered, Bool.or_true]

theorem rowsCall_allocation (sound : draft.Sound draft) :
    ∀ piece ∈ allocationPieces draft, RowsCall (Served draft.features) piece := by
  have fixed {pieces : List String} (among : ∀ piece ∈ pieces, piece ∈ fixedPieces) :
      ∀ piece ∈ pieces, RowsCall (Served draft.features) piece := fun piece member =>
    (rowsCall_fixed piece (among piece member)).imp fun _ => served_of_foreign
  have blank : RowsCall (Served draft.features) emptyRow :=
    fixed (by simp [fixedPieces]) emptyRow (List.mem_singleton_self _)
  have nothing : ∀ piece ∈ ([] : List String), RowsCall (Served draft.features) piece := nofun
  unfold allocationPieces function
  simp only [List.forall_mem_append]
  refine ⟨⟨fixed (by simp [fixedPieces]),
    ⟨⟨⟨⟨⟨⟨⟨⟨fixed (by simp [fixedPieces]), ?notifications⟩,
      fixed fun _ => List.mem_append_right _⟩, rowsCall_paragraph blank ?resets⟩, ?power⟩,
        rowsCall_paragraph blank ?setups⟩, ?code⟩,
          rowsCall_paragraph blank (rowsCall_timerRows draft)⟩, fixed (by simp [fixedPieces])⟩⟩,
    fixed (by simp [fixedPieces])⟩
  case notifications =>
    split
    · exact fixed (by simp [fixedPieces])
    · exact nothing
  case resets =>
    intro piece member
    obtain ⟨storage, declared, reset⟩ := List.mem_filterMap.1 member
    obtain ⟨line, found, rfl⟩ := Option.map_eq_some_iff.1 reset
    exact rowsCall_reset ⟨sound.storage storage declared, declared⟩ found
  case power =>
    split
    · rename_i powered
      exact List.forall_mem_cons.2 ⟨blank, List.forall_mem_singleton.2
        (rowsCall_power.imp fun _ same => same ▸ served_power powered)⟩
    · exact nothing
  case setups =>
    intro piece member
    obtain ⟨setup, _, rfl⟩ := List.mem_map.1 member
    have fits := setup.fits draft
    refine (rowsCall_line (Code.holds_line.1 fits.spelled)).imp fun function called => ?_
    exact served_of_fits fits (by rwa [Code.calls_line])
  case code =>
    split
    · exact nothing
    · refine List.forall_mem_cons.2 ⟨blank, List.forall_mem_singleton.2 ?_⟩
      exact ⟨_, (Code.rows sound.setup.spelled).indent, fun _ => served_of_fits sound.setup⟩

theorem served_allocation (sound : draft.Sound draft) :
    ∀ function ∈ C.calls ("".intercalate (allocationPieces draft)), Served draft.features function :=
  calls_joined (rowsCall_allocation sound)

end FlipperBlocks.Application
