import FlipperBlocks.CommandLine.Desk
import FlipperBlocks.Proofs.Application.ManifestFields

/-! What a run of the command leaves behind: its exit code, what it has printed, and its files. -/
namespace FlipperBlocks

namespace Text

/-- The texts between the blank lines of a text. -/
def paragraphs (cs : List Char) : List (List Char) :=
  ((cs.splitOn '\n').splitOnP (·.all isBlank)).map ['\n'].intercalate

theorem paragraphs_intercalate {texts : List (List Char)} (some : texts ≠ [])
    (solid : ∀ text ∈ texts, ∀ line ∈ text.splitOn '\n', line.all isBlank = false) :
    paragraphs (['\n', '\n'].intercalate texts) = texts := by
  induction texts with
  | nil => contradiction
  | cons text rest ih =>
    obtain ⟨here, later⟩ := List.forall_mem_cons.1 solid
    cases rest with
    | nil =>
      rw [List.intercalate_singleton, paragraphs, List.splitOnP_eq_singleton here, List.map_singleton,
        List.intercalate_splitOn]
    | cons next rest =>
      have split (cs : List Char) :
          (text ++ ['\n', '\n'] ++ cs).splitOn '\n' = text.splitOn '\n' ++ [] :: cs.splitOn '\n' := by
        rw [List.append_assoc, List.cons_append, List.singleton_append, List.splitOn_append_cons_self]
        exact congrArg _ (List.splitOn_append_cons_self [] cs)
      rw [List.intercalate_cons_cons, paragraphs, split, List.splitOnP_append_cons_of_forall_mem here _ rfl,
        List.map_cons, List.intercalate_splitOn]
      exact congrArg _ (ih (by simp) later)

end Text

theorem Manifest.solid_text (head : BlockHead) :
    ∀ line ∈ (ofHead head).text.toList.splitOn '\n', line.all Text.isBlank = false := by
  have rows (fields : List (String × String)) (each : ∀ field ∈ fields, Harmless field.1 ∧ Harmless field.2) :
      ∀ line ∈ (fields.flatMap (fun field => (fieldLine field).toList) ++ [')']).splitOn '\n',
        line.all Text.isBlank = false := by
    induction fields with
    | nil =>
      rw [List.flatMap_nil, List.nil_append, List.splitOn_eq_singleton (by decide)]
      exact List.forall_mem_singleton.2 rfl
    | cons field fields ih =>
      obtain ⟨⟨key, value⟩, later⟩ := List.forall_mem_cons.1 each
      have oneRow : '\n' ∉ fieldRow field := by simpa [fieldRow] using ⟨key.oneRow, value.oneRow⟩
      have visible : (fieldRow field).all Text.isBlank = false :=
        List.all_eq_false.2 ⟨'=', by simp [fieldRow], by decide⟩
      rw [List.flatMap_cons, toList_fieldLine, List.append_assoc, List.append_assoc,
        List.singleton_append, List.splitOn_append_cons_self_of_not_mem oneRow]
      exact List.forall_mem_cons.2 ⟨visible, ih later⟩
  have opening : "App(\n".toList = "App(".toList ++ ['\n'] := by decide
  rw [toList_text, opening, List.append_assoc, List.append_assoc, List.singleton_append,
    List.splitOn_append_cons_self_of_not_mem (by decide)]
  exact List.forall_mem_cons.2 ⟨by decide, rows _ (harmless_fields head)⟩

theorem Program.paragraphs_manifestFile (program : Program) (some : program.compile.manifests ≠ []) :
    Text.paragraphs (CommandLine.manifestFile program.compile.manifests).toList.dropLast =
      program.compile.manifests.map String.toList := by
  have body : (CommandLine.manifestFile program.compile.manifests).toList.dropLast =
      ['\n', '\n'].intercalate (program.compile.manifests.map String.toList) := by
    rw [CommandLine.manifestFile, String.toList_append, String.toList_intercalate]
    exact List.dropLast_concat
  rw [body]
  refine Text.paragraphs_intercalate (by simpa using some) fun text member => ?_
  rw [program.manifests_compile, List.map_map] at member
  obtain ⟨manifest, among, rfl⟩ := List.mem_map.1 member
  obtain ⟨head, rfl⟩ := program.moves_lowered.manifests manifest among
  exact Manifest.solid_text head

namespace CommandLine

/-! Hosts that keep what they are given. -/

/-- What becomes of a text that comes to a place. -/
inductive Keeping where
  /-- It replaces what the place holds, as in a file. -/
  | replacing
  /-- It goes behind what the place holds, as on a terminal. -/
  | appending
  | dropping

def Keeping.after (held : Option String) (text : String) : Keeping → Option String
  | replacing => some text
  | appending => some (held.getD "" ++ text)
  | dropping => held

/-- What the state of a host tells: what can be read, and what its places hold. A path may lead to a place to
write to, and the terminal and the log are the places of what is printed and reported. -/
structure View (σ τ : Type) where
  input : σ → Except Trouble String
  file : σ → String → Except Trouble String
  held : σ → τ → Option String
  keeping : τ → Keeping
  leads : String → τ → Prop
  terminal : τ
  log : τ

namespace View

variable {σ τ : Type} (view : View σ τ)

def document (state : σ) : Option String → Except Trouble String
  | none | some "-" => view.input state
  | some path => view.file state path

/-- The program in the document that a run reads, if there is one. -/
def program? (state : σ) (input : Option String) : Option Program :=
  (view.document state input).toOption.bind fun text => (Program.ofText text).toOption

/-- The place of what a run gives out. -/
def Outputs (place : τ) : Option String → Prop
  | none | some "-" => place = view.terminal
  | some path => view.leads path place

/-- The text has come to the place, and to no other. -/
def Comes [DecidableEq τ] (text : String) (place : τ) (before after : σ) : Prop :=
  ∀ other, view.held after other =
    if other = place then (view.keeping place).after (view.held before place) text else view.held before other

end View

/-- The host does what its view tells, and a text comes to any place that a path leads to. -/
structure Host.Keeps {σ τ : Type} [DecidableEq τ] (host : Host (StateM σ)) (view : View σ τ) : Prop where
  readInput : ∀ state, host.readInput state = (view.input state, state)
  readFile : ∀ path state, host.readFile path state = (view.file state path, state)
  print : ∀ text state, view.Comes text view.terminal state (host.print text state).2
  report : ∀ text state, view.Comes text view.log state (host.report text state).2
  writeFile : ∀ {path place}, view.leads path place → ∀ text state,
    (host.writeFile path text state).1 = .ok () ∧
      view.Comes text place state (host.writeFile path text state).2

/-! Runs on a host. -/

section

variable {σ α β : Type} {first : ExceptT Failure (StateM σ) α}
  {next : α → ExceptT Failure (StateM σ) β} {before between : σ}

private theorem run_bind : (first >>= next).run before =
    ExceptT.bindCont next (first.run before).1 (first.run before).2 := rfl

private theorem run_bind_ok {value : α} (run : first.run before = (.ok value, between)) :
    (first >>= next).run before = (next value).run between := by
  rw [run_bind, run]
  rfl

private theorem run_bind_error {failure : Failure} (run : first.run before = (.error failure, between)) :
    (first >>= next).run before = (.error failure, between) := by
  rw [run_bind, run]
  rfl

private theorem run_orFail {ε : Type} (failure : ε → Failure) (result : StateM σ (Except ε α))
    (state : σ) : (orFail failure result).run state =
      ((result state).1.mapError failure, (result state).2) := by
  have lifted : (liftM result : ExceptT Failure (StateM σ) _).run state =
      (.ok (result state).1, (result state).2) := rfl
  rw [orFail, run_bind_ok lifted]
  cases (result state).1 <;> rfl

end

section

variable {σ τ : Type} [DecidableEq τ] {host : Host (StateM σ)} {view : View σ τ} (keeps : host.Keeps view)
  {options : Options} {state : σ} {target : Option String} {output : τ} {manifest : Option τ}

include keeps

private theorem run_readDocument (input : Option String) : ∃ failure,
    (readDocument host input).run state = ((view.document state input).mapError failure, state) := by
  unfold readDocument
  split
  · exact ⟨_, (run_orFail ..).trans (by rw [keeps.readInput]; rfl)⟩
  · exact ⟨_, (run_orFail ..).trans (by rw [keeps.readInput]; rfl)⟩
  · rw [View.document]
    · exact ⟨_, (run_orFail ..).trans (by rw [keeps.readFile])⟩
    · assumption

private theorem run_load (input : Option String) : ∃ failure,
    (readDocument host input >>= loadProgram).run state =
      ((view.program? state input).elim (.error failure) .ok, state) := by
  obtain ⟨failure, read⟩ := @run_readDocument _ _ _ _ _ keeps state input
  unfold View.program?
  cases document : view.document state input with
  | error trouble => exact ⟨_, run_bind_error (document ▸ read)⟩
  | ok text =>
    rw [document] at read
    rw [run_bind_ok read, loadProgram]
    cases loaded : Program.ofText text with
    | error fault => exact ⟨.ofLoadError fault, by simp [Except.toOption, loaded]; rfl⟩
    | ok program => exact ⟨.noManifest, by simp [Except.toOption, loaded]; rfl⟩

private theorem run_writeFile {failure : WriteTrouble → Failure} {path : String} {place : τ}
    (leads : view.leads path place) (text : String) : ∃ after,
    (orFail failure (host.writeFile path text)).run state = (.ok (), after) ∧
      view.Comes text place state after := by
  obtain ⟨written, comes⟩ := keeps.writeFile leads text state
  exact ⟨_, (run_orFail ..).trans (by rw [written]; rfl), comes⟩

private theorem run_writeProgram (outputs : view.Outputs output target) (artifact : Artifact) : ∃ after,
    (writeProgram host artifact target).run state = (.ok (), after) ∧
      view.Comes artifact.text output state after := by
  unfold writeProgram
  split
  iterate 2
    · obtain rfl : output = view.terminal := outputs
      exact ⟨_, rfl, keeps.print _ _⟩
  · rw [View.Outputs] at outputs
    · exact run_writeFile keeps outputs _
    · assumption

private theorem run_writeManifests (leads : Option.Rel view.leads target manifest) (artifact : Artifact) :
    ∃ after, (writeManifests host artifact target).run state =
        (if target ≠ none ∧ artifact.manifests = [] then .error .noManifest else .ok (), after) ∧
      ∀ place, view.held after place = if manifest = some place ∧ artifact.manifests ≠ [] then
        (view.keeping place).after (view.held state place) (manifestFile artifact.manifests)
          else view.held state place := by
  cases leads with
  | none => exact ⟨state, rfl, fun place => by simp⟩
  | some leads =>
    rw [writeManifests]
    split
    case h_1 empty => exact ⟨state, by simp [empty]; rfl, fun place => by simp [empty]⟩
    case h_2 other =>
      obtain ⟨after, run, comes⟩ := @run_writeFile _ _ _ _ _ keeps state (.ofManifests _) _ _ leads
        (manifestFile artifact.manifests)
      refine ⟨after, by rw [run, if_neg fun failing => other failing.2], fun place => ?_⟩
      rw [comes]
      grind

end

/-- What becomes of a program that is loaded: its text comes to the place for it, and so do its manifests
if they are asked for and there are any. -/
structure Delivered {σ τ : Type} [DecidableEq τ] (view : View σ τ) (program : Program) (options : Options)
    (output : τ) (manifest : Option τ) (before after : σ) (code : Nat) : Prop where
  places : ∀ place, place ≠ view.log → view.held after place =
    if place = output then (view.keeping place).after (view.held before place) program.compile.text
    else if manifest = some place ∧ program.compile.manifests ≠ [] then
      (view.keeping place).after (view.held before place) (manifestFile program.compile.manifests)
    else view.held before place
  succeeds : code = 0 ↔ (options.manifest = none ∨ program.compile.manifests ≠ []) ∧
    (options.strict = false ∨ program.compile.diagnostics.isClean = true)

section

variable {σ τ : Type} [DecidableEq τ] {host : Host (StateM σ)} {view : View σ τ}
  {options : Options} {before : σ} {output : τ} {manifest : Option τ}

private theorem run_compileDocument (keeps : host.Keeps view) (first : view.Outputs output options.output)
    (second : Option.Rel view.leads options.manifest manifest) (distinct : manifest ≠ some output)
    {program : Program} (loaded : view.program? before options.input = some program) :
    ∃ told after, (compileDocument host options).run before = (told, after) ∧
      Delivered view program options output manifest before after (told.toOption.getD 1) := by
  obtain ⟨_, load⟩ := @run_load _ _ _ _ _ keeps before options.input
  obtain ⟨between, wrote, comes⟩ := @run_writeProgram _ _ _ _ _ keeps before _ _ first program.compile
  obtain ⟨last, added, places⟩ := @run_writeManifests _ _ _ _ _ keeps between _ _ second program.compile
  rw [loaded] at load
  rw [compileDocument, ← bind_assoc, run_bind_ok load, run_bind_ok wrote]
  split_ifs at added with failing
  · refine ⟨_, last, run_bind_error added, fun place _ => by rw [places, comes]; grind, ?_⟩
    simp [Except.toOption, failing.1, failing.2]
  · rw [run_bind_ok added]
    split
    case isTrue strict =>
      refine ⟨.ok 1, _, rfl, fun place other => ?_, by simp [Except.toOption]; grind⟩
      rw [keeps.report, if_neg other, places, comes]
      grind
    case isFalse lax =>
      refine ⟨.ok 0, last, rfl, fun place _ => ?_, by simp [Except.toOption]; grind⟩
      rw [places, comes]
      grind

private theorem run_compile (keeps : host.Keeps view) {told : Except Failure Nat} {after : σ}
    (run : (compileDocument host options).run before = (told, after)) :
    ∃ last, compile host options before = (told.toOption.getD 1, last) ∧
      (∀ failure, told = .error failure → last = (host.report failure.text after).2) ∧
      ∀ place, place ≠ view.log → view.held last place = view.held after place := by
  have step (next : Except Failure Nat → StateM σ Nat) :
      ((compileDocument host options).run >>= next) before = next told after :=
    congrArg (fun ran : Except Failure Nat × σ => next ran.1 ran.2) run
  rw [compile, step]
  cases told with
  | ok code => exact ⟨after, rfl, nofun, fun _ _ => rfl⟩
  | error failure =>
    refine ⟨_, rfl, fun _ same => by rw [Except.error.inj same], fun place other => ?_⟩
    exact (keeps.report failure.text after place).trans (if_neg other)

/-- A run with places of its own to write to, on any host that keeps what it is given. If its document does
not load, it fails and does nothing but report. Otherwise the text of the program comes to the place for it
and, where they are asked for and there are any, so do the manifests, which are the paragraphs of their file.
It succeeds if there are manifests where they are asked for, and nothing to report where it is strict. -/
theorem run_outcome (keeps : host.Keeps view) {arguments : List String}
    (asked : Request.ofArguments arguments = .compile options) (first : view.Outputs output options.output)
    (second : Option.Rel view.leads options.manifest manifest) (distinct : manifest ≠ some output)
    (before : σ) : ∃ code after, run host arguments before = (code, after) ∧
      (view.program? before options.input = none → code ≠ 0 ∧ (∃ text, after = (host.report text before).2) ∧
        ∀ place, place ≠ view.log → view.held after place = view.held before place) ∧
      ∀ program, view.program? before options.input = some program →
        Delivered view program options output manifest before after code ∧
        program.compile.manifests = program.lowered.draft.manifests.map Manifest.text ∧
        (program.compile.manifests ≠ [] →
          Text.paragraphs (manifestFile program.compile.manifests).toList.dropLast =
            program.compile.manifests.map String.toList) := by
  have compiled : run host arguments before = compile host options before := by rw [run, asked]
  rw [compiled]
  cases loaded : view.program? before options.input with
  | none =>
    obtain ⟨failure, load⟩ := @run_load _ _ _ _ _ keeps before options.input
    rw [loaded] at load
    have failed : (compileDocument host options).run before = (.error failure, before) := by
      rw [compileDocument, ← bind_assoc, run_bind_error load]
    obtain ⟨last, ends, told, same⟩ := run_compile keeps failed
    exact ⟨1, last, ends, fun _ => ⟨Nat.one_ne_zero, ⟨_, told _ rfl⟩, same⟩,
      fun _ found => absurd found (by simp)⟩
  | some program =>
    obtain ⟨told, after, finished, delivered⟩ := run_compileDocument keeps first second distinct loaded
    obtain ⟨last, ends, _, kept⟩ := run_compile keeps finished
    refine ⟨_, last, ends, fun missing => absurd missing (by simp), fun other same => ?_⟩
    obtain rfl := Option.some.inj same
    exact ⟨⟨fun place other => (kept place other).trans (delivered.places place other), delivered.succeeds⟩,
      program.manifests_compile, program.paragraphs_manifestFile⟩

end

/-! The desk as a host. -/

/-- Where on a desk a text may come to. -/
inductive Spot where
  | file (name : String)
  | terminal
  | log
  | outside (place : Place) (name : String)
  deriving DecidableEq

/-- The spot of a name outside of home, unless it is one of a directory or of a device that takes nothing. -/
def Spot.of? (place : Place) (name : String) : Entry → Option Spot
  | .device .output => some .terminal
  | .device .report => some .log
  | .device .null | .device .input | .absent => some (.outside place name)
  | _ => none

/-- The spot of a name in a directory. -/
def Place.spot? (name : String) : Place → Option Spot
  | home => some (.file name)
  | place => Spot.of? place name (place.entry (fun _ => false) name)

namespace Desk

def view : View Desk Spot where
  input desk := decode desk.input
  file := readFile
  held desk
    | .file name => desk.files.get? name
    | .terminal => some desk.printed
    | .log => some desk.reported
    | .outside .. => none
  keeping
    | .file _ => .replacing
    | .terminal | .log => .appending
    | .outside .. => .dropping
  leads path spot := ∃ place name, Destination.ofPath (fun _ => false) path = .ok (.named place name false) ∧
    name.utf8ByteSize ≤ 255 ∧ place.spot? name = some spot
  terminal := .terminal
  log := .log

private theorem follow_ok {known other : String → Bool} {place : Place} {parts : List (List Char)}
    {destination : Destination} (found : follow known place parts = .ok destination) :
    follow other place parts = .ok destination := by
  induction parts generalizing place with
  | nil => exact found
  | cons part rest ih =>
    unfold follow at found ⊢
    dsimp only at found ⊢
    split_ifs at found ⊢
    · exact ih found
    · exact ih found
    · exact found
    · -- The files at home are no directories, so that no path leads on from one of them.
      obtain ⟨inner, checked, entry, found⟩ : ∃ inner, checkName (.ofList part) = .ok () ∧
          place.entry known (.ofList part) = .directory inner ∧
          follow known inner rest = .ok destination := by
        split at found
        · contradiction
        · exact ⟨_, by assumption, by assumption, found⟩
        · contradiction
        · contradiction
      have same : place.entry other (.ofList part) = .directory inner := by
        cases place with
        | home =>
          rw [Place.entry] at entry
          split at entry <;> contradiction
        | system parts => exact entry
        | above => contradiction
      rw [checked, same]
      exact ih found

private theorem comes_print (desk : Desk) (text : String) :
    view.Comes text .terminal desk (desk.print text) :=
  fun place => by cases place <;> simp [view, Keeping.after, print]

private theorem comes_report (desk : Desk) (text : String) : view.Comes text .log desk (desk.report text) :=
  fun place => by cases place <;> simp [view, Keeping.after, report]

private theorem writes {path : String} {spot : Spot} (leads : view.leads path spot) (desk : Desk)
    (text : String) : ∃ after, desk.writeFile path text = .ok after ∧ view.Comes text spot desk after := by
  obtain ⟨place, name, found, short, spots⟩ := leads
  have reached : desk.destination path = .ok (.named place name false) := by
    unfold Destination.ofPath at found
    unfold Desk.destination Destination.ofPath
    split_ifs at found ⊢ <;> exact follow_ok found
  have target {entry : Entry} (here : place.entry desk.files.has name = entry)
      (fits : ∀ inner, entry ≠ .directory inner) : desk.target path = .ok (place, name, entry) := by
    have checked : checkName name = .ok () := if_pos short
    simp only [Desk.target, reached, bind, Except.bind, checked, here]
    cases entry with
    | directory inner => exact absurd rfl (fits inner)
    | _ => rfl
  cases place with
  | home =>
    obtain rfl := Option.some.inj spots
    refine ⟨{ desk with files := desk.files.put name text }, ?_, fun other => ?_⟩
    · cases here : desk.files.has name with
      | false => rw [writeFile, @target .absent (by simp [Place.entry, here]) nofun]; rfl
      | true => rw [writeFile, @target .file (by simp [Place.entry, here]) nofun]; rfl
    · cases other <;> simp [view, Keeping.after, Entries.get?_put]
  | system parts =>
    change Spot.of? _ name (Place.entry (fun _ => false) name _) = some spot at spots
    -- Outside of home, what stands under a name is not for the files of the desk to say.
    generalize here : Place.entry (fun _ => false) name _ = entry at spots
    have nowhere : view.Comes text (.outside (.system parts) name) desk desk := fun place => by
      cases place <;> simp [view, Keeping.after]
    unfold Spot.of? at spots
    split at spots
    all_goals first
      | contradiction
      | obtain rfl := Option.some.inj spots
        refine ⟨_, by rw [writeFile, target here nofun]; rfl, ?_⟩
        first | exact nowhere | exact desk.comes_print text | exact desk.comes_report text
  | above =>
    obtain rfl := Option.some.inj spots
    refine ⟨desk, by rw [writeFile, @target .absent rfl nofun]; rfl, fun other => ?_⟩
    cases other <;> simp [view, Keeping.after]

end Desk

theorem Host.desk_keeps : Host.desk.Keeps Desk.view where
  readInput _ := rfl
  readFile _ _ := rfl
  print text desk := desk.comes_print text
  report text desk := desk.comes_report text
  writeFile {path _} leads text desk := by
    obtain ⟨after, written, comes⟩ := Desk.writes leads desk text
    have run : Host.desk.writeFile path text desk = (.ok (), after) := by
      have read {α : Type} (next : Desk → StateM Desk α) : (get >>= next) desk = next desk desk := rfl
      dsimp only [Host.desk]
      rw [read, written]
      rfl
    rw [run]
    exact ⟨rfl, comes⟩

/-- A desk with a document of two blocks: one declares a manifest, the other is of no known kind. -/
def Desk.declaring : Desk where
  files := [("in", "\x7b\"blocks\":\x7b\"blocks\":[" ++
    "\x7b\"type\":\"flipper_manifest\"\x7d,\x7b\"type\":\"x\"\x7d]\x7d\x7d")]

theorem run_outcome_apart : ∃ program code after,
    run Host.desk ["in", "--strict", "-o", "./a.c", "--manifest=b"] Desk.declaring = (code, after) ∧
      code ≠ 0 ∧ after.files.get? "a.c" = some (Program.compile program).text ∧
      program.compile.manifests.length = 1 ∧
      after.files.get? "b" = some (manifestFile program.compile.manifests) := by
  have first : Desk.view.Outputs (.file "a.c") (some "./a.c") := by
    rw [View.Outputs]
    · exact ⟨.home, "a.c", rfl, by decide, rfl⟩
    · decide
  have second : Desk.view.leads "b" (.file "b") := ⟨.home, "b", rfl, by decide, rfl⟩
  have lowers : (Desk.view.program? Desk.declaring (some "in")).any (fun program =>
      program.lowered.draft.manifests.length == 1 && !program.lowered.diagnostics.isEmpty) = true := by
    decide +kernel
  obtain ⟨program, loaded, facts⟩ := (Option.any_eq_true ..).1 lowers
  rw [Bool.and_eq_true_iff] at facts
  obtain ⟨code, after, run, _, delivered⟩ := @run_outcome _ _ _ _ _
    ⟨some "in", some "./a.c", some "b", true, false⟩ (.file "a.c") (some (.file "b")) Host.desk_keeps
    ["in", "--strict", "-o", "./a.c", "--manifest=b"] (by decide) first (.some second) (by decide)
    Desk.declaring
  obtain ⟨⟨places, succeeds⟩, manifests, _⟩ := delivered program loaded
  have one : program.compile.manifests.length = 1 := by
    rw [manifests, List.length_map]
    exact beq_iff_eq.1 facts.1
  have told : program.compile.diagnostics.isClean = false := by
    rw [program.diagnostics_compile]
    exact Bool.not_eq_eq_eq_not.1 facts.2
  refine ⟨program, code, after, run, ?_, places (.file "a.c") nofun, one, ?_⟩
  · simp [succeeds, told]
  · refine (places (.file "b") nofun).trans ?_
    simp [List.ne_nil_of_length_pos (one ▸ Nat.one_pos), Desk.view, Keeping.after]

end CommandLine

end FlipperBlocks
