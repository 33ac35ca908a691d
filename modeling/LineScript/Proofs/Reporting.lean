import LineScript.Proofs.FrontEnds
import LineScript.Proofs.PrintedText

/-!
# Reports to streams that fail

A report writes each line in two pieces, its text and a line end, and stops at the first piece that
is refused. A stream that takes `n` more lines refuses the first piece behind the last of their line
ends, unless that piece is empty; then it refuses the line end behind it. In both cases it has taken
`n` whole lines and nothing else, so what a reader finds are lines of the output, one after the
other from the first one on.

That the lines can be told apart in the text rests on `quotable_of_run`: no printed line contains a
line end of its own. A fault is reported on the other stream only.
-/

namespace LineScript

/-! ## What is printed can be read back -/

/-- The pieces of a text between its line ends. -/
def pieces (text : String) : List String :=
  let cut := cutAt '\n' text.toList
  (cut.1 :: cut.2).map String.ofList

/-- Behind the last line end there is nothing. -/
theorem pieces_printedLines {lines : List String} (plain : ∀ line ∈ lines, '\n' ∉ line.toList) :
    pieces (printedLines lines) = lines ++ [""] := by
  induction lines with
  | nil => rfl
  | cons line lines ih =>
      obtain ⟨first, later⟩ := List.forall_mem_cons.mp plain
      have chars : (printedLines (line :: lines)).toList =
          line.toList ++ '\n' :: (printedLines lines).toList := by
        rw [printedLines_cons, String.toList_append, String.toList_append, List.append_assoc]
        rfl
      have rest := ih later
      dsimp only [pieces] at rest ⊢
      rw [chars, cutAt_append_mark, cutAt_of_not_mem first, List.map_cons, List.nil_append, rest,
        String.ofList_toList, List.cons_append]

theorem count_printedLines {lines : List String} (plain : ∀ line ∈ lines, '\n' ∉ line.toList) :
    (printedLines lines).toList.count '\n' = lines.length := by
  have cut := congrArg List.length (pieces_printedLines plain)
  simp only [pieces, List.length_map, List.length_cons, length_cutAt, List.length_append,
    List.length_nil] at cut
  omega

/-! ## Sinks that take some lines -/

namespace Sink

variable {sink : Sink} {line : String} {lines : List String}

theorem room?_taking (sink : Sink) (piece : String) :
    (sink.taking piece).room? = sink.room?.map fun room => room - piece.toList.count '\n' := by
  rw [room?, room?, capacity_taking, Option.map_map]
  congr 1
  funext limit
  exact Nat.sub_add_eq limit sink.lines (piece.toList.count '\n')

theorem HasRoom.taking {count : Nat} {piece : String}
    (room : sink.HasRoom (piece.toList.count '\n' + count)) :
    (sink.taking piece).HasRoom count := by
  intro left same
  rw [room?_taking, Option.map_eq_some_iff] at same
  obtain ⟨before, found, rfl⟩ := same
  have := room before found
  omega

theorem HasRoom.mono {count more : Nat} (room : sink.HasRoom more) (less : count ≤ more) :
    sink.HasRoom count :=
  fun left same => Nat.le_trans less (room left same)

theorem HasRoom.writeLine (room : sink.HasRoom 1) (plain : '\n' ∉ line.toList) :
    sink.writeLine line = (sink.taking (line ++ "\n"), none) := by
  have still : (sink.taking line).HasRoom 1 := by
    apply HasRoom.taking
    rwa [List.count_eq_zero.mpr plain]
  rw [Sink.writeLine, room.write, ← taking_taking]
  exact still.write "\n"

/-- A sink that takes no more lines refuses the text of a line, or the line end if there is no
text. -/
theorem writeLine_of_full (full : sink.room? = some 0) (line : String) :
    sink.writeLine line = (sink, some .brokenPipe) := by
  have refused {piece : String} (something : ¬ piece.isEmpty) :
      sink.write piece = (sink, some .brokenPipe) := by
    rw [write, if_neg something, if_pos (isFull_iff.mpr full)]
  rw [writeLine]
  by_cases nothing : line.isEmpty
  · rw [write, if_pos nothing]
    exact refused (by decide)
  · rw [refused nothing]

theorem HasRoom.writeLines (room : sink.HasRoom lines.length)
    (plain : ∀ line ∈ lines, '\n' ∉ line.toList) :
    sink.writeLines lines = (sink.taking (printedLines lines), none) := by
  induction lines generalizing sink with
  | nil => rw [Sink.writeLines, show printedLines [] = "" from rfl, taking_empty]
  | cons line lines ih =>
      obtain ⟨first, later⟩ := List.forall_mem_cons.mp plain
      have rest : (sink.taking (line ++ "\n")).HasRoom lines.length := by
        apply HasRoom.taking
        rw [String.toList_append, List.count_append, List.count_eq_zero.mpr first]
        exact room.mono (Nat.le_of_eq (Nat.add_comm 1 _))
      rw [Sink.writeLines, (room.mono (Nat.succ_pos _)).writeLine first]
      exact (ih rest later).trans (by rw [taking_taking, printedLines_cons])

theorem writeLines_append (front back : List String) :
    sink.writeLines (front ++ back) =
      match sink.writeLines front with
      | (after, some reason) => (after, some reason)
      | (after, none) => after.writeLines back := by
  induction front generalizing sink with
  | nil => rfl
  | cons line front ih =>
      rw [List.cons_append, writeLines, writeLines]
      cases sink.writeLine line with
      | mk after refused =>
          cases refused with
          | none => exact ih
          | some reason => rfl

/-- A sink that does not take all lines takes as many as it has room for. -/
theorem writeLines_of_room_lt {room : Nat} (limited : sink.room? = some room)
    (short : room < lines.length) (plain : ∀ line ∈ lines, '\n' ∉ line.toList) :
    sink.writeLines lines =
      (sink.taking (printedLines (lines.take room)), some .brokenPipe) := by
  have plainFront : ∀ line ∈ lines.take room, '\n' ∉ line.toList :=
    fun line mem => plain line (List.mem_of_mem_take mem)
  have count : (lines.take room).length = room := List.length_take_of_le (Nat.le_of_lt short)
  have fits : sink.HasRoom (lines.take room).length := by
    intro other same
    rw [limited] at same
    cases same
    exact Nat.le_of_eq count
  have full : (sink.taking (printedLines (lines.take room))).room? = some 0 := by
    rw [room?_taking, limited, count_printedLines plainFront, count, Option.map_some,
      Nat.sub_self]
  have split : lines = lines.take room ++ lines[room] :: lines.drop (room + 1) := by
    rw [List.getElem_cons_drop, List.take_append_drop]
  conv_lhs => rw [split]
  rw [writeLines_append, fits.writeLines plainFront]
  dsimp only
  rw [writeLines, writeLine_of_full full]

end Sink

/-! ## Reports -/

/-- Lines that can be told apart in the text of all of them, and of any number of the first ones. -/
structure Legible (lines : List String) : Prop where
  quotable : ∀ line ∈ lines, Quotable line
  readBack : ∀ front, front <+: lines → pieces (printedLines front) = front ++ [""]

/-- A report prints lines on a stream and nothing on the other one. -/
structure PrintsLines (lines : List String) (report : Sink → Report) : Prop where
  whole : ∀ out : Sink, out.HasRoom lines.length → out.refusesFlush = false →
    report out = ⟨out.taking (printedLines lines), "", .ok true⟩
  unflushed : ∀ out : Sink, out.HasRoom lines.length → out.refusesFlush = true →
    report out = ⟨out.taking (printedLines lines), "", .error .brokenPipe⟩
  /-- A stream that does not take all lines is left with the first ones. Whether it could be flushed
  does not matter. -/
  broken : ∀ (out : Sink) (room : Nat), out.room? = some room → room < lines.length →
    report out = ⟨out.taking (printedLines (lines.take room)), "", .error .brokenPipe⟩

/-- What a report makes of an outcome. -/
structure ReportsOutcome (outcome : Outcome) (report : Sink → Report) : Prop where
  legible : ∀ lines, outcome = .output lines → Legible lines
  printed : ∀ lines, outcome = .output lines → PrintsLines lines report
  /-- A fault leaves the stream of the lines alone: the report is the same for all streams, also for
  one that refuses whatever it is asked. -/
  silent : ∀ fault, outcome = .fault fault →
    ∃ err, ∀ out, report out = ⟨out, err, .ok false⟩

theorem Legible.of_quotable {lines : List String} (quotable : ∀ line ∈ lines, Quotable line) :
    Legible lines where
  quotable := quotable
  readBack _ isFront :=
    pieces_printedLines fun line mem => (quotable line (isFront.subset mem)).newline_not_mem

theorem PrintsLines.of_legible {lines : List String} (legible : Legible lines)
    (text path : String) (colored : Bool) :
    PrintsLines lines ((Outcome.output lines).report text path colored) := by
  have plain : ∀ line ∈ lines, '\n' ∉ line.toList :=
    fun line mem => (legible.quotable line mem).newline_not_mem
  constructor
  · intro out room flushes
    simp [Outcome.report, room.writeLines plain, Sink.flush, flushes]
  · intro out room stuck
    simp [Outcome.report, room.writeLines plain, Sink.flush, stuck]
  · intro out room limited short
    simp [Outcome.report, Sink.writeLines_of_room_lt limited short plain]

/-- Whatever a text does, its report to a stream can be read back as far as the stream takes it, and
if it does not take it all, the report says so. -/
theorem run_reported (config : Config) (clock : Clock) (text path : String) (colored : Bool) :
    ReportsOutcome (run config clock text) ((run config clock text).report text path colored) := by
  have legible (lines) (ran : run config clock text = .output lines) : Legible lines :=
    .of_quotable (quotable_of_run ran)
  refine ⟨legible, ?_, ?_⟩
  · intro lines ran
    have printed := PrintsLines.of_legible (legible lines ran) text path colored
    rwa [ran]
  · intro fault ran
    rw [ran]
    exact ⟨_, fun out => rfl⟩

/-- An empty line is the last one that a stream takes. The line behind it is refused with all its
text, whether or not the stream could be flushed. -/
theorem run_reported_emptyLine :
    let text := "print \"a\";\nprint \"\";\nprint \"b\";"
    run .standard .still text = .output ["a", "", "b"] ∧ ∀ refusesFlush,
      (run .standard .still text).report text "" false (.empty (some 2) refusesFlush) =
        ⟨⟨"a\n\n", 2, some 2, refusesFlush⟩, "", .error .brokenPipe⟩ := by
  intro text
  have ran : run .standard .still text = .output ["a", "", "b"] := by decide +kernel
  refine ⟨ran, fun refusesFlush => ?_⟩
  have printed := (run_reported .standard .still text "" false).printed _ ran
  exact printed.broken (.empty (some 2) refusesFlush) 2 rfl (by decide)

end LineScript
