import FlipperBlocks.Proofs.Application.Writing
import Mathlib.Algebra.BigOperators.Group.List.Basic
import Mathlib.Algebra.GroupWithZero.Nat

/-! Sinks that become full.

A sink takes pieces as long as they fit. The first one that does not fit is the last one that it is
offered, so that what has been written is a start of the whole text, and all of it if nothing was
refused. -/
namespace FlipperBlocks

def volume (pieces : List String) : Nat := (pieces.map String.utf8ByteSize).sum

@[simp] theorem volume_append (first second : List String) :
    volume (first ++ second) = volume first + volume second := by
  simp [volume]

@[simp] theorem volume_cons (piece : String) (rest : List String) :
    volume (piece :: rest) = piece.utf8ByteSize + volume rest := by
  simp [volume]

theorem utf8ByteSize_joined (pieces : List String) :
    ("".intercalate pieces).utf8ByteSize = volume pieces := by
  induction pieces with
  | nil => rfl
  | cons piece rest ih => rw [Application.joined_cons, String.utf8ByteSize_append, ih, volume_cons]

namespace Sink

variable (sink : Sink) (pieces : List String) (piece : String)

theorem size_eq_volume : sink.size = volume sink.written := by
  have accumulated (start : Nat) (pieces : List String) :
      pieces.foldl (fun size piece => size + piece.utf8ByteSize) start = start + volume pieces := by
    induction pieces generalizing start with
    | nil => rfl
    | cons piece rest ih => rw [List.foldl_cons, ih, volume_cons, Nat.add_assoc]
  rw [size, accumulated, Nat.zero_add]

variable {sink} {room : Nat}

theorem fits_iff (bounded : sink.room = some room) :
    sink.fits piece = true ↔ volume sink.written + piece.utf8ByteSize ≤ room := by
  simp [fits, bounded, size_eq_volume]

/-- Pieces are offered one after another: either all of them are taken and fit together, or those
before one that does not fit. -/
theorem run_offerAll (bounded : sink.room = some room) (within : volume sink.written ≤ room) :
    (volume (sink.written ++ pieces) ≤ room ∧ (offerAll pieces).run sink = (.ok (), sink.taking pieces)) ∨
      ∃ taken refused rest, pieces = taken ++ refused :: rest ∧ volume (sink.written ++ taken) ≤ room ∧
        room < volume (sink.written ++ taken) + refused.utf8ByteSize ∧
        (offerAll pieces).run sink = (.error .full, (sink.taking taken).refusing refused) := by
  induction pieces generalizing sink with
  | nil => exact .inl ⟨by simpa using within, by rw [taking_nil]; rfl⟩
  | cons piece rest ih =>
    have offered := run_offer sink piece
    by_cases fitting : sink.fits piece = true
    · rw [if_pos fitting] at offered
      have run : (offerAll (piece :: rest)).run sink = (offerAll rest).run (sink.taking [piece]) :=
        Writing.run_bind_ok offered _
      rw [fits_iff piece bounded] at fitting
      have inner : volume (sink.taking [piece]).written ≤ room := by
        rw [written_taking, volume_append, volume_cons]
        simpa [volume] using fitting
      rcases @ih (sink.taking [piece]) bounded inner with
        ⟨total, ran⟩ | ⟨taken, refused, after, parts, total, excess, ran⟩
      · refine .inl ⟨by simpa using total, ?_⟩
        rw [run, ran, taking_taking]
        rfl
      · refine .inr ⟨piece :: taken, refused, after, by rw [parts]; rfl, by simpa using total,
          by simpa using excess, ?_⟩
        rw [run, ran, taking_taking]
        rfl
    · rw [if_neg fitting] at offered
      have run : (offerAll (piece :: rest)).run sink = (.error .full, sink.refusing piece) :=
        Writing.run_bind_error offered _
      rw [fits_iff piece bounded] at fitting
      refine .inr ⟨[], piece, rest, rfl, by simpa using within, by simpa using fitting, ?_⟩
      rw [run, taking_nil]

theorem nil_of_refused {taken : List String} {refused piece : String} {before after : List (String × Bool)}
    (equal : taken.map (fun piece => (piece, true)) ++ [(refused, false)] =
      before ++ (piece, false) :: after) : after = [] := by
  induction taken generalizing before with
  | nil => cases before with
    | nil => exact (List.cons.inj equal).2.symm
    | cons offer before => simp at equal
  | cons first taken ih => cases before with
    | nil => simp at equal
    | cons offer before => exact ih (List.cons.inj equal).2

end Sink

/-- A whole artifact was to be written to a sink with a limit. An error is told exactly if its text is
longer than the limit, which is when a piece was refused. What the sink took is a start of the text
within the limit, and nothing was offered after a refused piece. Without an error the sink has the
whole text, and the diagnostics are those of the artifact. -/
structure WrittenWithin (room : Nat) (whole : Artifact)
    (outcome : Sink × Except WriteError Diagnostics) : Prop where
  failed_iff : (∃ error, outcome.2 = .error error) ↔ room < whole.text.utf8ByteSize
  refused_iff : (∃ error, outcome.2 = .error error) ↔ ∃ piece, (piece, false) ∈ outcome.1.offers
  start : outcome.1.text.toList <+: whole.text.toList
  within : outcome.1.text.utf8ByteSize ≤ room
  ended : ∀ before piece after, outcome.1.offers = before ++ (piece, false) :: after → after = []
  complete : ∀ diagnostics, outcome.2 = .ok diagnostics →
    outcome.1.text = whole.text ∧ diagnostics = whole.diagnostics

namespace Program

variable (program : Program)

theorem run_compileInto (room : Nat) : let sink : Sink := { room := some room }
    ∃ pieces, "".intercalate pieces = program.compile.text ∧
      ((volume pieces ≤ room ∧
        program.compileInto sink = (sink.taking pieces, .ok program.compile.diagnostics)) ∨
      ∃ taken refused rest, pieces = taken ++ refused :: rest ∧
        volume taken ≤ room ∧ room < volume taken + refused.utf8ByteSize ∧
        program.compileInto sink = ((sink.taking taken).refusing refused, .error .full)) := by
  intro sink
  obtain ⟨pieces, writes, joined⟩ := Writes.writeText program.lowered.draft
  refine ⟨pieces, by rw [joined, text_compile]; rfl, ?_⟩
  have bounded : sink.room = some room := rfl
  rcases Sink.run_offerAll pieces bounded (Nat.zero_le _) with
    ⟨total, ran⟩ | ⟨taken, refused, rest, parts, total, excess, ran⟩
  · refine .inl ⟨total, ?_⟩
    rw [compileInto, writes, Writing.run_bind_ok ran, diagnostics_compile]
    rfl
  · refine .inr ⟨taken, refused, rest, parts, total, excess, ?_⟩
    rw [compileInto, writes, Writing.run_bind_error ran]

/-- A program is compiled into a sink with a limit. -/
theorem compileInto_bounded (room : Nat) :
    WrittenWithin room program.compile (program.compileInto { room := some room }) := by
  obtain ⟨pieces, whole, ⟨total, ran⟩ | ⟨taken, refused, rest, parts, total, excess, ran⟩⟩ :=
    program.run_compileInto room
  · rw [ran]
    have taken : (Sink.taking { room := some room } pieces).text = program.compile.text := by
      rw [Sink.text, Sink.written_taking, ← whole]
      rfl
    have size : program.compile.text.utf8ByteSize ≤ room := by
      rw [← whole, utf8ByteSize_joined]
      exact total
    constructor
    · simpa using size
    · simp [Sink.taking]
    · exact taken ▸ List.prefix_rfl
    · rw [taken]
      exact size
    · intro before piece after equal
      have refused : (piece, false) ∈ pieces.map fun piece => (piece, true) := by
        have member : (piece, false) ∈ before ++ (piece, false) :: after := by simp
        rw [← equal] at member
        exact member
      simp at refused
    · intro diagnostics equal
      exact ⟨taken, (Except.ok.inj equal).symm⟩
  · rw [ran]
    have start : ((Sink.taking { room := some room } taken).refusing refused).text =
        "".intercalate taken := by
      rw [Sink.text, Sink.written_refusing, Sink.written_taking]
      rfl
    constructor
    · have size : room < program.compile.text.utf8ByteSize := by
        rw [← whole, utf8ByteSize_joined, parts, volume_append, volume_cons]
        omega
      exact ⟨fun _ => size, fun _ => ⟨_, rfl⟩⟩
    · exact ⟨fun _ => ⟨refused, by simp [Sink.refusing]⟩, fun _ => ⟨_, rfl⟩⟩
    · rw [start, ← whole, parts, Application.joined_append, String.toList_append]
      exact List.prefix_append _ _
    · rw [start, utf8ByteSize_joined]
      exact total
    · intro before piece after equal
      exact Sink.nil_of_refused equal
    · intro diagnostics equal
      cases equal

end Program

end FlipperBlocks
