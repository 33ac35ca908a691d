import LineScript.Proofs.ByteOrder
import LineScript.Proofs.WireRoundTrip
import LineScript.Enclosed
import LineScript.Page
import LineScript.Report

/-!
# All front ends report the same outcome

A text can be run by a service, for a page, from an input that is piped in, and by a command that
reports on two streams. Each of them words the outcome itself. `FrontEnds` says how their texts hang
together: the page shows the response line of the service, and the pipe and the report print the
lines of that response, or its message with its position counted from one.
-/

namespace LineScript

theorem fromUTF8?_utf8 (text : String) : String.fromUTF8? ⟨(utf8 text).toArray⟩ = some text := by
  rw [utf8, Array.toArray_toList, String.fromUTF8?, dif_pos text.isValidUTF8]
  rfl

theorem utf8_append (front back : String) : utf8 (front ++ back) = utf8 front ++ utf8 back := by
  simp [utf8, String.toByteArray_append]

/-! ## A request is answered with the response to its text -/

namespace Json.Cursor

theorem rest_advance (cursor : Cursor) : cursor.advance.rest = cursor.rest.tail := by
  obtain ⟨rest, place⟩ := cursor
  cases rest with
  | nil => rfl
  | cons c rest => rw [advance_cons, List.tail_cons]

theorem rest_skip (count : Nat) (cursor : Cursor) :
    (skip count cursor).rest = cursor.rest.drop count := by
  induction count generalizing cursor with
  | zero => rfl
  | succ count ih => rw [skip, ih, rest_advance, List.drop_tail]

end Json.Cursor

/-- A message is a list or an object. -/
theorem Family.bracket_of_decode {κ α : Type} {family : Family κ}
    {ofFields : κ → Fields → Except Mismatch α} {text : String} {message : α}
    (decoded : family.decode ofFields text = .ok message) :
    ∃ c ∈ text.toList, c = '[' ∨ c = '{' := by
  cases read : family.readEnvelope (text.length + 1) (.start text.toList) with
  | error reason =>
      rw [decode, read] at decoded
      cases decoded
  | ok found =>
      rw [readEnvelope, Json.Cursor.skipSpace] at read
      generalize skipped : Json.Cursor.skip _ _ = cursor at read
      have suffix : cursor.rest <:+ text.toList := by
        rw [← skipped, Json.Cursor.rest_skip]
        exact List.drop_suffix _ _
      cases head : cursor.rest.head? with
      | none =>
          rw [head] at read
          cases read
      | some c =>
          refine ⟨c, suffix.subset (List.mem_of_head? head), ?_⟩
          by_cases list : c = '['
          · exact .inl list
          by_cases object : c = '{'
          · exact .inr object
          simp only [head] at read
          cases scalar : Json.readScalar (text.length + 1) c cursor with
          | error problem =>
              rw [scalar] at read
              cases read
          | ok value =>
              rw [scalar] at read
              cases read

namespace Service

variable {config : Config} {clock : Clock} {text line : String}

theorem not_isIdle_of_decode {request : Request} (decoded : Request.decode line = .ok request) :
    ¬ isIdle line := by
  intro idle
  have blank := List.all_eq_true.mp idle
  obtain ⟨c, there, bracket⟩ := Family.bracket_of_decode decoded
  have solid : isBlank c = false := by
    obtain rfl | rfl := bracket <;> rfl
  rw [blank c there] at solid
  nomatch solid

theorem answer_of_decode (decoded : Request.decode line = .ok (.run text)) :
    answer config clock line = .ofOutcome (run config clock text) := by
  rw [answer, understand, decoded]

end Service

theorem Request.printable_encode (request : Request) : Printable request.encode.toList := by
  obtain ⟨text⟩ := request
  rw [encode_run]
  simp only [String.toList_append, printable_append, Json.printable_quote, and_true]
  decide +kernel

/-- A written request with a line end behind it is one line. -/
theorem Service.inputLines_encode (request : Request) :
    inputLines (utf8 (request.encode ++ "\n")) = [utf8 request.encode] := by
  have plain : (10 : UInt8) ∉ utf8 request.encode :=
    newline_not_mem_utf8 request.printable_encode.newline_not_mem
  have last : (utf8 request.encode).getLast? = some 125 := by
    obtain ⟨text⟩ := request
    rw [Request.encode_run, utf8_append, List.getLast?_append]
    rfl
  have cut : cutAt 10 (utf8 (request.encode ++ "\n")) = (utf8 request.encode, [[]]) := by
    rw [utf8_append, show utf8 "\n" = [10] from rfl, cutAt_append_mark, cutAt_of_not_mem plain]
    rfl
  rw [inputLines, cut]
  simp [last]

/-- A service within `config` answers every line that asks to run `text` with the line `written`,
whatever stands in front of it and behind it. -/
structure ServedAs (config : Config) (text written : String) : Prop where
  /-- The request may be written in any form, among any other lines. -/
  among : ∀ clock (sink : Sink) input front line request back, sink.TakesAll →
    Service.inputLines input = front ++ line :: back → Service.halt front = none →
    Service.textOf? line = some request → Request.decode request = .ok (.run text) →
    Service.serve config clock input sink =
      (sink.taking (Service.replies config (Service.texts front) ++ (written ++ "\n") ++
        Service.replies config (Service.texts back)), Service.halt back)
  /-- A request that stands alone is answered with that line alone. -/
  alone : ∀ clock (sink : Sink), sink.TakesAll →
    Service.serve config clock (utf8 ((Request.run text).encode ++ "\n")) sink =
      (sink.taking (written ++ "\n"), none)

/-- A service answers as a page does that runs the text within the same configuration. -/
theorem servedAs_answerWith {config : Config} (untimed : config.limits.timeoutMs = none)
    (text : String) : ServedAs config text (Page.answerWith config text) := by
  have among (clock) (sink : Sink) (input front line request back) (all : sink.TakesAll)
      (lines : Service.inputLines input = front ++ line :: back)
      (valid : Service.halt front = none) (read : Service.textOf? line = some request)
      (decoded : Request.decode request = .ok (.run text)) :
      Service.serve config clock input sink =
        (sink.taking (Service.replies config (Service.texts front) ++
          (Page.answerWith config text ++ "\n") ++
          Service.replies config (Service.texts back)), Service.halt back) := by
    have reply : Service.reply config request = Page.answerWith config text ++ "\n" := by
      rw [Service.reply, Service.answer_of_decode decoded, Page.answerWith]
    rw [Service.serve, Service.serveLines_eq untimed all, lines, Service.texts_append valid,
      Service.halt_append valid, Service.texts_cons read, Service.halt_cons read,
      Service.replies_append, Service.replies_cons (Service.not_isIdle_of_decode decoded), reply,
      ← String.append_assoc]
  refine ⟨among, fun clock sink all => ?_⟩
  have alone := among clock sink _ [] (utf8 (Request.run text).encode) _ [] all
    (Service.inputLines_encode _) rfl (fromUTF8?_utf8 _) (Request.decode_encode _)
  rw [alone, show Service.replies config (Service.texts []) = "" from rfl, String.empty_append,
    String.append_empty]
  rfl

/-! ## Lines are printed -/

/-- The text of lines, each with a line end behind it. -/
def printedLines (lines : List String) : String :=
  String.join (lines.map (· ++ "\n"))

theorem printedLines_cons (line : String) (lines : List String) :
    printedLines (line :: lines) = line ++ "\n" ++ printedLines lines := by
  rw [printedLines, List.map_cons, String.join_cons, printedLines]

namespace Sink

variable {sink after : Sink} {line : String} {lines : List String} {refused : Option StreamFault}

/-- A sink takes a piece, or it refuses it and stays as it is. -/
theorem write_cases (piece : String) :
    (∃ after, sink.write piece = (after, none) ∧ after.text = sink.text ++ piece) ∨
      ∃ reason, sink.write piece = (sink, some reason) := by
  rw [write]
  split
  · next nothing =>
    rw [String.isEmpty_iff] at nothing
    exact .inl ⟨sink, rfl, by rw [nothing, String.append_empty]⟩
  · split
    · exact .inr ⟨_, rfl⟩
    · exact .inl ⟨_, rfl, rfl⟩

/-- Of a line a sink takes all, or a beginning. -/
theorem writeLine_cases (line : String) :
    (∃ after, sink.writeLine line = (after, none) ∧ after.text = sink.text ++ (line ++ "\n")) ∨
      ∃ after reason rest, sink.writeLine line = (after, some reason) ∧
        after.text ++ rest = sink.text ++ (line ++ "\n") := by
  rw [writeLine]
  rcases sink.write_cases line with ⟨middle, written, text⟩ | ⟨reason, refused⟩
  · rw [written]
    rcases middle.write_cases "\n" with ⟨after, ended, whole⟩ | ⟨reason, refused⟩
    · exact .inl ⟨after, ended, by rw [whole, text, String.append_assoc]⟩
    · exact .inr ⟨middle, reason, "\n", refused, by rw [text, String.append_assoc]⟩
  · rw [refused]
    exact .inr ⟨sink, reason, line ++ "\n", rfl, rfl⟩

/-- Of several lines a sink takes all, or a beginning. -/
theorem writeLines_cases (lines : List String) :
    (∃ after, sink.writeLines lines = (after, none) ∧
      after.text = sink.text ++ printedLines lines) ∨
      ∃ after reason rest, sink.writeLines lines = (after, some reason) ∧
        after.text ++ rest = sink.text ++ printedLines lines := by
  induction lines generalizing sink with
  | nil => exact .inl ⟨sink, rfl, by simp [printedLines]⟩
  | cons line lines ih =>
      rw [writeLines, printedLines_cons, ← String.append_assoc]
      rcases sink.writeLine_cases line with
        ⟨after, written, text⟩ | ⟨after, reason, rest, refused, text⟩
      · rw [written, ← text]
        exact ih
      · rw [refused]
        exact .inr ⟨after, reason, rest ++ printedLines lines, rfl, by
          rw [← String.append_assoc, text]⟩

theorem TakesAll.writeLines (all : sink.TakesAll) (lines : List String) :
    sink.writeLines lines = (sink.taking (printedLines lines), none) := by
  induction lines generalizing sink with
  | nil => rw [Sink.writeLines, show printedLines [] = "" from rfl, taking_empty]
  | cons line lines ih =>
      rw [Sink.writeLines, all.writeLine]
      refine (ih (all.taking _)).trans ?_
      rw [taking_taking, printedLines_cons]

end Sink

/-! ## Faults are shown -/

@[simp] theorem Span.print_plain (colored : Bool) (text : String) :
    (Span.plain text).print colored = text := by
  cases colored <;> rfl

/-- The rows of a primary mark begin with an arrow and the location. -/
theorem Mark.join_spans {mark : Mark} (primary : mark.primary = true) (source : Option Source)
    (path : String) (colored : Bool) :
    ∃ indent sign rest, (sign = "\n" ∨ sign = ": ") ∧
      String.join ((mark.spans source (some path)).map (Span.print colored)) =
        spaces indent ++ "--> " ++ path ++ ":" ++ mark.pos.display ++ sign ++ rest := by
  rw [spans]
  split
  · next line _ =>
    refine ⟨digitCount (mark.pos.line.toNat + 1), "\n", ?_, .inl rfl, ?_⟩
    rotate_left
    · simp only [snippet, arrow, primary, if_true, location, List.map_cons, String.join_cons,
        Span.print_plain, String.append_assoc]
      rfl
  · refine ⟨2, ": ", ?_, .inr rfl, ?_⟩
    rotate_left
    · simp only [remarkRow, arrow, primary, if_true, location, List.map_cons, String.join_cons,
        Span.print_plain, String.append_assoc]
      rfl

/-- A diagnostic is shown as a header, its marks, and what else there is. -/
theorem Diagnostic.render_singleton (colored : Bool) (source : Option Source)
    (path : Option String) (diagnostic : Diagnostic) :
    ∃ rest, render colored source path [diagnostic] =
      Span.print colored ⟨diagnostic.severity.word, some diagnostic.severity.ink⟩ ++
        Span.print colored ⟨"[" ++ diagnostic.code.number ++ "]", some .bold⟩ ++ ": " ++
        diagnostic.message ++ "\n" ++
        String.join
          ((diagnostic.marks.flatMap (Mark.spans source path)).map (Span.print colored)) ++
        rest := by
  have spans_split : ∃ below, diagnostic.spans source path =
      [⟨diagnostic.severity.word, some diagnostic.severity.ink⟩,
        ⟨"[" ++ diagnostic.code.number ++ "]", some .bold⟩,
        .plain (": " ++ diagnostic.message ++ "\n")] ++
      diagnostic.marks.flatMap (Mark.spans source path) ++ below :=
    ⟨_, by rw [spans, List.append_assoc, List.append_assoc]⟩
  obtain ⟨below, split⟩ := spans_split
  refine ⟨String.join (below.map (Span.print colored)), ?_⟩
  rw [render, List.flatMap_cons, List.flatMap_nil, List.append_nil, split]
  simp [String.join_append, String.append_assoc]

/-- The lines of an output are printed by every front end. -/
structure Printed (text : String) (lines : List String) : Prop where
  page : Page.answer text = (Response.output lines).encode
  piped : Enclosure.pipe (utf8 text) = ⟨0, printedLines lines, ""⟩
  /-- A stream that takes everything is given the lines, and the report is a success. -/
  reported : ∀ path colored (out : Sink), out.TakesAll →
    (run .standard .still text).report text path colored out =
      ⟨out.taking (printedLines lines), "", .ok true⟩
  /-- Any other stream is given a beginning of them, all if the report is a success, and the report
  is never that the run failed. -/
  begun : ∀ path colored (out : Sink),
    let report := (run .standard .still text).report text path colored out
    report.err = "" ∧ report.result ≠ .ok false ∧
      (∃ rest, report.out.text ++ rest = out.text ++ printedLines lines) ∧
      (report.result = .ok true → report.out.text = out.text ++ printedLines lines)

/-- The message of an error with its code and its position, counted from one, is printed by every
front end. -/
structure Failed (text message : String) (pos : Pos) (code : Code) : Prop where
  page : Page.answer text = (Response.error message pos).encode
  piped : Enclosure.pipe (utf8 text) =
    ⟨1, "", "error[" ++ code.number ++ "]: " ++ message ++ " at " ++
      toString (pos.line.toNat + 1) ++ ":" ++ toString (pos.col.toNat + 1) ++ "\n"⟩
  /-- The stream of the lines is left alone. On the other one there is a header, which is
  `error[code]: message` apart from color, and below it the location. -/
  reported : ∀ path colored (out : Sink), ∃ err,
    (run .standard .still text).report text path colored out = ⟨out, err, .ok false⟩ ∧
      ∃ indent mark rest, (mark = "\n" ∨ mark = ": ") ∧
        err = Span.print colored ⟨"error", some .red⟩ ++
          Span.print colored ⟨"[" ++ code.number ++ "]", some .bold⟩ ++ ": " ++ message ++ "\n" ++
          spaces indent ++ "--> " ++ path ++ ":" ++ toString (pos.line.toNat + 1) ++ ":" ++
          toString (pos.col.toNat + 1) ++ mark ++ rest

/-- All front ends report the same outcome of a text within the standard configuration. -/
structure FrontEnds (text : String) : Prop where
  served : ServedAs .standard text (Page.answer text)
  printed : ∀ lines, run .standard .still text = .output lines → Printed text lines
  failed : ∀ fault, run .standard .still text = .fault fault →
    Failed text fault.message fault.pos fault.code
  /-- A report to a stream that takes everything is a success exactly if the response is none of an
  error. -/
  verdict : ∀ response, Response.decode (Page.answer text) = .ok response →
    ∀ path colored (out : Sink), out.TakesAll →
      ((run .standard .still text).report text path colored out).result = .ok !response.isError
  /-- A number of steps given to a page is the step limit of a service; zero stands for none. -/
  stepped : ∀ steps : UInt32,
    ServedAs { Config.standard with
        limits := { Limits.standard with
          maxSteps := if steps = 0 then none else some steps.toUInt64 } }
      text (Page.answerWithin steps text)

theorem Printed.of_run {text : String} {lines : List String}
    (ran : run .standard .still text = .output lines) : Printed text lines where
  page := by rw [Page.answer, Page.answerWith, ran, Response.ofOutcome]
  piped := by
    simp only [Enclosure.pipe, fromUTF8?_utf8, ran]
    rfl
  reported path colored out all := by
    rw [ran, Outcome.report, all.writeLines]
    simp [Sink.flush, all.flush]
  begun path colored out := by
    rw [ran]
    rcases out.writeLines_cases lines with ⟨after, written, text⟩ |
      ⟨after, reason, rest, refused, text⟩
    · have whole : after.text ++ "" = out.text ++ printedLines lines := by
        rw [String.append_empty, text]
      cases passed : after.flush with
      | none =>
          simp only [Outcome.report, written, passed]
          exact ⟨trivial, nofun, ⟨"", whole⟩, fun _ => text⟩
      | some reason =>
          simp only [Outcome.report, written, passed]
          exact ⟨trivial, nofun, ⟨"", whole⟩, nofun⟩
    · simp only [Outcome.report, refused]
      exact ⟨trivial, nofun, ⟨rest, text⟩, nofun⟩

theorem Failed.of_run {text : String} {fault : Fault}
    (ran : run .standard .still text = .fault fault) :
    Failed text fault.message fault.pos fault.code where
  page := by rw [Page.answer, Page.answerWith, ran, Response.ofOutcome, Response.ofFault]
  piped := by
    simp only [Enclosure.pipe, fromUTF8?_utf8, ran]
    simp [Fault.display, Pos.display, String.append_assoc]
  reported path colored out := by
    refine ⟨_, by rw [ran, Outcome.report], ?_⟩
    obtain ⟨indent, sign, below, either, rows⟩ :=
      @Mark.join_spans ⟨fault.pos, fault.cause.remark, true⟩ rfl (some (.ofText text)) path colored
    obtain ⟨rest, shown⟩ :=
      fault.diagnostic.render_singleton colored (some (.ofText text)) (some path)
    have marks : fault.diagnostic.marks.flatMap (Mark.spans (some (.ofText text)) (some path)) =
        Mark.spans (some (.ofText text)) (some path) ⟨fault.pos, fault.cause.remark, true⟩ := by
      rw [Fault.diagnostic, List.flatMap_cons, List.flatMap_nil, List.append_nil]
    rw [marks, rows] at shown
    refine ⟨indent, sign, below ++ rest, either, shown.trans ?_⟩
    simp only [Pos.display, String.append_assoc]
    rfl

/-- Whatever a text does, all front ends report it alike. -/
theorem frontEnds_agree (text : String) : FrontEnds text where
  served := servedAs_answerWith rfl text
  printed _ := .of_run
  failed _ := .of_run
  verdict response decoded path colored out all := by
    cases ran : run .standard .still text with
    | output lines =>
        rw [(Printed.of_run ran).page, Response.decode_encode] at decoded
        cases decoded
        rw [← ran, (Printed.of_run ran).reported path colored out all]
        rfl
    | fault fault =>
        rw [(Failed.of_run ran).page, Response.decode_encode] at decoded
        cases decoded
        rfl
  stepped steps := by
    have limit : (if 0 < steps then some steps.toUInt64 else none) =
        if steps = 0 then none else some steps.toUInt64 := by
      by_cases zero : steps = 0
      · rw [zero]
        rfl
      · rw [if_pos (UInt32.pos_iff_ne_zero.mpr zero), if_neg zero]
    rw [← limit]
    exact servedAs_answerWith rfl text

end LineScript
