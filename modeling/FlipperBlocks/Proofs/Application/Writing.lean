import FlipperBlocks.Compile
import FlipperBlocks.Proofs.Application.Routines

/-! What the writers write.

Every writer offers a fixed list of pieces one after another, whatever the sink, and these make up the
text of its part. -/
namespace FlipperBlocks

def Sink.offerAll (pieces : List String) : Writing Unit := pieces.forM offer

/-- Writing is no more than offering some pieces, which together are the given ones. -/
def Writes (writing : Writing Unit) (pieces : List String) : Prop :=
  ∃ offered, writing = Sink.offerAll offered ∧ "".intercalate offered = "".intercalate pieces

namespace Writes

open Application
open Sink (offer offerAll)

variable {first second : Writing Unit} {before after : List String} {α : Type}

theorem nothing : Writes (pure ()) [] := ⟨[], rfl, rfl⟩

theorem of_eq (writes : Writes first before)
    (same : "".intercalate before = "".intercalate after) : Writes first after := by
  obtain ⟨offered, run, text⟩ := writes
  exact ⟨offered, run, text.trans same⟩

theorem piece (text : String) : Writes (offer text) [text] := ⟨[text], by simp [offerAll], rfl⟩

theorem append (writes : Writes first before) (later : Writes second after) :
    Writes (first >>= fun _ => second) (before ++ after) := by
  obtain ⟨offered, rfl, text⟩ := writes
  obtain ⟨rest, rfl, more⟩ := later
  refine ⟨offered ++ rest, by simp [offerAll], ?_⟩
  rw [joined_append, joined_append, text, more]

theorem cons {text : String} (writes : Writes first [text]) (later : Writes second after) :
    Writes (first >>= fun _ => second) (text :: after) :=
  append writes later

theorem rows (pieces : List String) : Writes (write pieces) pieces := of_eq (piece _) (by simp)

theorem row (text : String) : Writes (emit text) [Application.row text] := piece _

theorem bodyRow (text : String) : Writes (emitBody text) [Application.bodyRow text] :=
  of_eq (append (piece _) (row text)) (by simp [Application.row, Application.bodyRow, String.append_assoc])

theorem endLine : Writes endLine [emptyRow] := piece _

theorem provided {wanted : Bool} (writes : Writes first before) :
    Writes (provided wanted first) (if wanted then before else []) := by
  cases wanted with
  | true => exact writes
  | false => exact nothing

theorem each {write : α → Writing Unit} {pieces : α → List String}
    (writes : ∀ a, Writes (write a) (pieces a)) (list : List α) :
    Writes (list.forM write) (list.flatMap pieces) := by
  induction list with
  | nil => exact nothing
  | cons item rest ih => exact append (writes item) ih

theorem map {write : α → Writing Unit} {piece : α → String} (writes : ∀ a, Writes (write a) [piece a])
    (list : List α) : Writes (list.forM write) (list.map piece) := by
  rw [List.map_eq_flatMap]
  exact each writes list

theorem numbered {write : α → Nat → Writing Unit} {pieces : Nat → α → List String}
    (writes : ∀ a number, Writes (write a number) (pieces number a)) (list : List α) (number : Nat) :
    Writes ((list.zipIdx number).forM fun (a, number) => write a number)
      (eachNumbered pieces number list) := by
  induction list generalizing number with
  | nil => exact nothing
  | cons item rest ih => exact append (writes item number) (ih (number + 1))

theorem paragraph {write : α → Writing Unit} {piece : α → String}
    (writes : ∀ a, Writes (write a) [piece a]) (list : List α) :
    Writes (Application.provided (!list.isEmpty) do Application.endLine; list.forM write)
      (Application.paragraph (list.map piece)) := by
  cases list with
  | nil => exact nothing
  | cons item rest => exact cons endLine (map writes (item :: rest))

theorem closedParagraph {write : α → Writing Unit} {pieces : α → List String}
    (writes : ∀ a, Writes (write a) (pieces a)) (some : ∀ a, pieces a ≠ []) (list : List α) :
    Writes (Application.provided (!list.isEmpty) do list.forM write; Application.endLine)
      (Application.closedParagraph (list.flatMap pieces)) := by
  cases list with
  | nil => exact nothing
  | cons item rest =>
    have written := append (each writes (item :: rest)) endLine
    cases shape : (item :: rest).flatMap pieces with
    | nil => simp [some item] at shape
    | cons piece more => rwa [shape] at written

theorem writeHeaders (features : Features) : Writes (writeHeaders features) (headerPieces features) :=
  map (fun header => of_eq (row _) (by simp [Application.row, String.append_assoc])) _

theorem writeRoutines (features : Features) : Writes (writeRoutines features) (routinePieces features) :=
  append (provided (row _)) (each (fun _ => append (rows _) endLine) _)

theorem writeGlobals (draft : Draft) : Writes (writeGlobals draft) (globalPieces draft) := by
  unfold Application.writeGlobals globalPieces
  cases storageIn .program draft with
  | nil => exact nothing
  | cons first rest => exact cons (row _) (append (map (fun storage => row _) _) endLine)

theorem writeStructure (draft : Draft) : Writes (writeStructure draft) (structurePieces draft) := by
  unfold structurePieces
  simp only [List.append_assoc, List.cons_append, List.nil_append]
  exact cons (row _) <| cons (bodyRow _) <| cons (bodyRow _) <| append (provided (bodyRow _)) <|
    append (map (fun number => bodyRow _) _) <| append (map (fun storage => bodyRow _) _) <|
    cons (row _) endLine

theorem writeAnnouncements (draft : Draft) :
    Writes (writeAnnouncements draft) (announcementPieces draft) := by
  unfold Application.writeAnnouncements announcementPieces
  cases draft.timers.isEmpty && draft.buttons.isEmpty with
  | true => exact nothing
  | false =>
    simp only [List.append_assoc]
    exact append (map (fun number => row _) _) (append (map (fun number => row _) _) endLine)

theorem writeDraw (draft : Draft) : Writes (writeDraw draft) (drawPieces draft) := by
  have drawn : Writes (if isBlank draft.draw then emitBody drawPlaceholder else offer (bodyOf draft.draw))
      [if isBlank draft.draw then Application.bodyRow drawPlaceholder else bodyOf draft.draw] := by
    split
    · exact bodyRow _
    · exact piece _
  unfold drawPieces function
  simp only [List.append_assoc, List.cons_append, List.nil_append]
  exact cons (row _) <| cons (bodyRow _) <| cons (bodyRow _) <|
    append (map (fun line => bodyRow _) _) <| cons drawn <| cons (row _) endLine

theorem writeDispatch (draft : Draft) :
    Writes (writeDispatch draft) (customEventPieces ++ inputPieces draft ++ navigationPieces) := by
  unfold inputPieces function contextRows
  simp only [List.append_assoc, List.cons_append, List.nil_append]
  exact append (rows _) <| cons (row _) <| cons (bodyRow _) <| cons (bodyRow _) <|
    cons (bodyRow _) <| cons (bodyRow _) <| cons (bodyRow _) <| cons (piece _) <|
    cons (bodyRow _) <| cons (row _) <| cons endLine (rows _)

theorem writeTimer (timer : Timer) (number : Nat) :
    Writes (writeTimer timer number) (timerPieces number timer) :=
  cons (row _) <| cons (bodyRow _) <| cons (bodyRow _) <| cons (bodyRow _) <| cons (piece _) <|
    cons (row _) endLine

theorem writeButton (body : C.Code) (number : Nat) :
    Writes (writeButton body number) (buttonPieces number body) :=
  cons (row _) <| cons (bodyRow _) <| cons (bodyRow _) <| cons (bodyRow _) <| cons (bodyRow _) <|
    cons (bodyRow _) <| cons (piece _) <| cons (bodyRow _) <| cons (row _) endLine

theorem writeCallbacks (draft : Draft) : Writes (writeCallbacks draft) (callbackPieces draft) :=
  append (numbered writeTimer _ 0) (numbered writeButton _ 0)

theorem writeSection (code : C.Code) :
    Writes (writeSection code) (if isBlank code then [] else [emptyRow, bodyOf code]) := by
  unfold Application.writeSection
  cases isBlank code with
  | true => exact nothing
  | false => exact cons endLine (piece _)

theorem paragraph_of_ne_nil {rows : List String} (some : rows ≠ []) :
    Application.paragraph rows = emptyRow :: rows := by
  cases rows with
  | nil => contradiction
  | cons first rest => rfl

theorem writeTimerStarts (draft : Draft) :
    Writes (Application.provided (!draft.timers.isEmpty) (writeTimerStarts draft))
      (Application.paragraph (timerRows draft)) := by
  have starts : Writes (Application.writeTimerStarts draft) (emptyRow ::
      ((timerNumbers draft).map timerAllocation ++ ((if draft.features.has .dht11 then
        [Application.bodyRow ("furi_delay_ms(" ++ toString climateWarmUp ++ ");")] else []) ++
          eachNumbered (timerStart draft) 0 draft.timers))) := by
    have start (timer : Timer) (number : Nat) :
        Writes (writeTimerStart draft timer number) (timerStart draft number timer) := bodyRow _
    exact cons endLine <| append (map (fun number => bodyRow _) _) <| append (provided (bodyRow _)) <|
      numbered start _ 0
  unfold timerRows
  cases timers : draft.timers with
  | nil => exact nothing
  | cons timer rest =>
    rw [timers, ← List.append_assoc] at starts
    rwa [paragraph_of_ne_nil (by simp [eachNumbered, timerStart])]

theorem writeAllocation (draft : Draft) : Writes (writeAllocation draft) (allocationPieces draft) := by
  have reset : (draft.storage.filterMap fun storage =>
      storage.reset?.map fun line => Application.bodyRow line.text) =
        (draft.storage.filterMap Storage.reset?).map fun line => Application.bodyRow line.text :=
    List.map_filterMap.symm
  unfold allocationPieces function
  rw [reset]
  simp only [List.append_assoc, List.cons_append, List.nil_append]
  exact cons (row _) <| cons (bodyRow _) <| cons (bodyRow _) <| cons endLine <| cons (bodyRow _) <|
    append (provided (bodyRow _)) <| append (rows _) <| append (paragraph (fun line => bodyRow _) _) <|
    append (provided (cons endLine (bodyRow _))) <| append (paragraph (fun line => bodyRow _) _) <|
    append (writeSection _) <| append (writeTimerStarts draft) <| cons endLine <| cons (bodyRow _) <|
    cons (row _) endLine

theorem writeRelease (draft : Draft) : Writes (writeRelease draft) (releasePieces draft) := by
  have timers : Writes (Application.provided (!draft.timers.isEmpty) do
        (timerNumbers draft).forM writeTimerRelease
        Application.endLine)
      (Application.closedParagraph ((timerNumbers draft).flatMap timerRelease)) := by
    have same : draft.timers.isEmpty = (timerNumbers draft).isEmpty := by
      unfold timerNumbers
      cases draft.timers with
      | nil => rfl
      | cons timer rest => simp
    rw [same]
    exact closedParagraph (fun number => cons (bodyRow _) (bodyRow _)) (fun _ => List.cons_ne_nil _ _) _
  have outputs : Writes (Application.provided (!draft.pwm.isEmpty) do
        draft.pwm.forM fun output => emitBody (outputRelease output).text
        Application.endLine)
      (Application.closedParagraph (draft.pwm.map fun output =>
        Application.bodyRow (outputRelease output).text)) := by
    rw [List.map_eq_flatMap]
    exact closedParagraph (fun output => bodyRow _) (fun _ => List.cons_ne_nil _ _) _
  unfold releasePieces function
  simp only [List.append_assoc, List.cons_append, List.nil_append]
  exact cons (row _) <| cons (bodyRow _) <| cons endLine <| append timers <| append outputs <|
    cons (bodyRow _) <| cons (bodyRow _) <| cons (bodyRow _) <| cons endLine <| cons (bodyRow _) <|
    append (provided (bodyRow _)) <| append (provided (bodyRow _)) <| cons endLine <|
    cons (bodyRow _) <| cons (row _) endLine

theorem writeMain (draft : Draft) : Writes (writeMain draft) (mainPieces draft) := by
  unfold mainPieces
  simp only [List.cons_append, List.nil_append]
  exact cons (row _) <| cons (bodyRow _) <| cons (bodyRow _) <| cons endLine <| cons (bodyRow _) <|
    cons (bodyRow _) <| append (writeSection _) <| cons endLine <| cons (bodyRow _) <| cons (bodyRow _) (row _)

theorem writeManifest (manifest : Manifest) : Writes (writeManifest manifest) [manifest.text] := by
  have field (field : String × String) :
      Writes (emitBody (field.1 ++ "=" ++ field.2 ++ ",")) [Manifest.fieldLine field] :=
    of_eq (bodyRow _) (by simp [Application.bodyRow, Manifest.fieldLine, String.append_assoc])
  refine of_eq (cons (row _) (append (map field _) (piece _))) ?_
  rw [joined_cons, joined_append]
  simp [Manifest.text, Application.row, String.append_assoc]

theorem writeMarked (manifest : Manifest) : Writes (writeMarked manifest)
    [Application.row manifestStart, Application.row manifest.text, Application.row manifestEnd] := by
  refine of_eq (cons (row _) (cons (writeManifest manifest) (cons endLine (row _)))) ?_
  simp only [joined_cons, Application.row, emptyRow, String.append_assoc]

theorem writeManifests (draft : Draft) : Writes (writeManifests draft) (manifestPieces draft) := by
  unfold Application.writeManifests manifestPieces
  cases draft.manifests with
  | nil => exact nothing
  | cons manifest rest => exact cons endLine <| cons (row _) <| append (each writeMarked _) (row _)

/-- All writers together write the text of the application. -/
theorem writeText (draft : Draft) : Writes (writeText draft) (pieces draft) := by
  have whole := append (writeHeaders draft.features) <| append endLine <| append (rows typePieces) <|
    append (writeRoutines draft.features) <| append (writeGlobals draft) <| append (writeStructure draft) <|
    append (writeAnnouncements draft) <| append (writeDraw draft) <| append (writeDispatch draft) <|
    append (writeCallbacks draft) <| append (writeAllocation draft) <| append (writeRelease draft) <|
    append (writeMain draft) (writeManifests draft)
  unfold pieces sourcePieces
  simp only [List.append_assoc] at whole ⊢
  exact whole

end Writes
namespace Writing

variable {α β : Type} {first : Writing α} {sink after : Sink}

theorem run_bind_ok {a : α} (ran : first.run sink = (.ok a, after)) (next : α → Writing β) :
    (first >>= next).run sink = (next a).run after := by
  change ExceptT.bindCont next (first.run sink).1 (first.run sink).2 = _
  rw [ran]
  rfl

theorem run_bind_error {error : WriteError} (ran : first.run sink = (.error error, after))
    (next : α → Writing β) : (first >>= next).run sink = (.error error, after) := by
  change ExceptT.bindCont next (first.run sink).1 (first.run sink).2 = _
  rw [ran]
  rfl

end Writing

namespace Sink

def taking (sink : Sink) (pieces : List String) : Sink :=
  { sink with offers := sink.offers ++ pieces.map fun piece => (piece, true) }

def refusing (sink : Sink) (piece : String) : Sink := { sink with offers := sink.offers ++ [(piece, false)] }

variable (sink : Sink) (pieces : List String) (piece : String)

@[simp] theorem taking_nil : sink.taking [] = sink := by simp [taking]

theorem taking_taking (more : List String) :
    (sink.taking pieces).taking more = sink.taking (pieces ++ more) := by
  simp [taking]

@[simp] theorem written_taking : (sink.taking pieces).written = sink.written ++ pieces := by
  have all : ((pieces.map fun piece => (piece, true)).filterMap fun (offer : String × Bool) =>
      if offer.2 then some offer.1 else none) = pieces := by
    induction pieces with
    | nil => rfl
    | cons piece rest ih => exact congrArg (piece :: ·) ih
  simp only [written, taking, List.filterMap_append]
  rw [all]

@[simp] theorem written_refusing : (sink.refusing piece).written = sink.written := by simp [written, refusing]

theorem run_offer : (offer piece).run sink = if sink.fits piece then (.ok (), sink.taking [piece])
    else (.error .full, sink.refusing piece) := by
  have run : (offer piece).run sink =
      (if sink.fits piece then pure () else throw .full : Writing Unit).run
        { sink with offers := sink.offers ++ [(piece, sink.fits piece)] } := rfl
  rw [run]
  cases sink.fits piece <;> rfl

/-- A sink without a limit takes every piece. -/
theorem run_offerAll_of_unbounded {sink : Sink} (unbounded : sink.room = none) (pieces : List String) :
    (offerAll pieces).run sink = (.ok (), sink.taking pieces) := by
  induction pieces generalizing sink with
  | nil => rw [taking_nil]; rfl
  | cons piece rest ih =>
    have offered := run_offer sink piece
    rw [fits, unbounded, if_pos rfl] at offered
    have inner := @ih (sink.taking [piece]) unbounded
    rw [taking_taking] at inner
    exact (Writing.run_bind_ok offered _).trans inner

end Sink

namespace Program

variable (program : Program)

theorem compileInto_unbounded : ∃ pieces,
    "".intercalate pieces = Application.text program.lowered.draft ∧ program.compileInto { room := none } =
        (Sink.taking { room := none } pieces, .ok ⟨program.lowered.diagnostics, "warning"⟩) := by
  obtain ⟨pieces, writes, joined⟩ := Writes.writeText program.lowered.draft
  refine ⟨pieces, joined, ?_⟩
  have ran := @Sink.run_offerAll_of_unbounded { room := none } rfl pieces
  rw [compileInto, writes, Writing.run_bind_ok ran]
  rfl

theorem text_compile : program.compile.text = Application.text program.lowered.draft := by
  obtain ⟨pieces, joined, ran⟩ := program.compileInto_unbounded
  rw [compile, ran, ← joined]
  change "".intercalate (Sink.taking { room := none } pieces).written = _
  rw [Sink.written_taking]
  rfl

theorem diagnostics_compile : program.compile.diagnostics = ⟨program.lowered.diagnostics, "warning"⟩ := by
  obtain ⟨pieces, _, ran⟩ := program.compileInto_unbounded
  rw [compile, ran]
  rfl

end Program

end FlipperBlocks
