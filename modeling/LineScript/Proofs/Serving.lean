import LineScript.Service
import LineScript.Proofs.ByteOrder
import LineScript.Proofs.StepLimit

/-!
# Serving requests

`Service.serve` writes what `Service.replies` says: for every line in front of the first one that is
not UTF-8, blank lines left out, one response with a line end behind it. A response is a function of
its line and the configuration, so it is the same whatever was asked before; and it is written on
one line, so the responses can be told apart.

This holds without a time limit, where the clock does not matter, and for a sink that takes
everything. The responses to the lines in front of a line that is not UTF-8 have been written when
the service ends there.
-/

namespace LineScript

/-! ## Responses are written on one line -/

/-- Only the newline is encoded with the byte of the newline. -/
theorem newline_of_mem_utf8EncodeChar {c : Char} (mem : (10 : UInt8) ∈ String.utf8EncodeChar c) :
    c = '\n' := by
  have same := (encodes_utf8EncodeChar c).eq_of_mem mem (by decide)
  exact Char.val_inj.mp (UInt32.toNat_inj.mp same)

/-- A text without a newline is encoded without its byte. -/
theorem newline_not_mem_utf8 {text : String} (plain : '\n' ∉ text.toList) :
    (10 : UInt8) ∉ utf8 text := by
  intro mem
  rw [utf8_eq] at mem
  obtain ⟨c, inText, encoded⟩ := List.mem_flatMap.mp mem
  rw [newline_of_mem_utf8EncodeChar encoded] at inText
  exact plain inText

/-- No character of a text is one of the control characters below U+0020. -/
def Printable (text : List Char) : Prop :=
  ∀ c ∈ text, 0x20 ≤ c.toNat

instance (text : List Char) : Decidable (Printable text) :=
  decidable_of_decidable_of_iff
    (p := (text.all fun c => decide (0x20 ≤ c.toNat)) = true) (by simp [Printable])

@[simp] theorem printable_append {front back : List Char} :
    Printable (front ++ back) ↔ Printable front ∧ Printable back :=
  List.forall_mem_append

theorem Printable.newline_not_mem {text : List Char} (plain : Printable text) : '\n' ∉ text :=
  fun mem => absurd (plain _ mem) (by decide)

theorem printable_intercalate {separator : List Char} {pieces : List (List Char)}
    (plain : Printable separator) (each : ∀ piece ∈ pieces, Printable piece) :
    Printable (separator.intercalate pieces) := by
  induction pieces with
  | nil => exact fun _ mem => absurd mem List.not_mem_nil
  | cons piece rest ih =>
      have first := each piece List.mem_cons_self
      have later := ih fun other mem => each other (List.mem_cons_of_mem piece mem)
      cases rest with
      | nil =>
          rw [List.intercalate_singleton]
          exact first
      | cons second rest =>
          rw [List.intercalate_cons_cons, printable_append, printable_append]
          exact ⟨⟨first, plain⟩, later⟩

theorem toList_number (number : Nat) : (toString number).toList = Nat.toDigits 10 number :=
  Nat.toList_repr

/-- A number is written with digits. -/
theorem isDigit_of_mem_number {number : Nat} {c : Char} (mem : c ∈ Nat.toDigits 10 number) :
    c.isDigit = true :=
  Nat.isDigit_of_mem_toDigits (by decide) (by decide) mem

theorem printable_number (number : Nat) : Printable (toString number).toList := by
  intro c mem
  have digit := isDigit_of_mem_number (toList_number number ▸ mem)
  simp only [Char.isDigit, Bool.and_eq_true, decide_eq_true_eq] at digit
  exact Nat.le_trans (by decide) (UInt32.le_iff_toNat_le.mp digit.1)

namespace Json

/-- A control character is escaped. -/
theorem printable_escape (c : Char) : Printable (escape c) := by
  by_cases control : c.toNat < 0x20
  · have all : ∀ code < 0x20, Printable (escape (Char.ofNat code)) := by decide
    have here := all c.toNat control
    rw [Char.ofNat_toNat] at here
    exact here
  · have other {d : Char} (small : d.toNat < 0x20) : c ≠ d := by
      rintro rfl
      exact control small
    rw [escape]
    split
    · decide
    · split
      · decide
      · rw [if_neg (other (by decide)), if_neg (other (by decide)), if_neg (other (by decide)),
          if_neg (other (by decide)), if_neg (other (by decide))]
        intro d mem
        rw [List.mem_singleton.mp mem]
        exact Nat.le_of_not_lt control

/-- A quoted text, as a list of characters. -/
theorem toList_quote (text : String) :
    (quote text).toList = '"' :: (text.toList.flatMap escape ++ ['"']) := by
  rw [quote, String.toList_ofList, List.cons_append]

theorem printable_quote (text : String) : Printable (quote text).toList := by
  intro c mem
  rw [toList_quote, List.mem_cons, List.mem_append, List.mem_singleton] at mem
  obtain rfl | inside | rfl := mem
  · decide
  · obtain ⟨d, -, escaped⟩ := List.mem_flatMap.mp inside
    exact printable_escape d c escaped
  · decide

end Json

namespace Response

theorem encode_output (lines : List String) :
    (output lines).encode = "\x7b\"kind\":\"output\",\"lines\":[" ++
      ",".intercalate (lines.map Json.quote) ++ "]\x7d" := (rfl)

theorem encode_error (message : String) (pos : Pos) :
    (error message pos).encode = "\x7b\"kind\":\"error\",\"message\":" ++ Json.quote message ++
      ",\"line\":" ++ toString pos.line.toNat ++ ",\"col\":" ++ toString pos.col.toNat ++
      "\x7d" := (rfl)

/-- A response is written on one line, without control characters. -/
theorem printable_encode (response : Response) : Printable response.encode.toList := by
  cases response with
  | output lines =>
      have quoted : ∀ piece ∈ (lines.map Json.quote).map String.toList, Printable piece := by
        intro piece mem
        obtain ⟨_, inLines, rfl⟩ := List.mem_map.mp mem
        obtain ⟨line, -, rfl⟩ := List.mem_map.mp inLines
        exact Json.printable_quote line
      have comma : Printable ",".toList := by decide +kernel
      have joined := printable_intercalate comma quoted
      rw [encode_output, String.toList_append, String.toList_append, String.toList_intercalate]
      simp only [printable_append, joined, and_true]
      decide +kernel
  | error message pos =>
      rw [encode_error]
      simp only [String.toList_append, printable_append, Json.printable_quote, printable_number,
        and_true]
      decide +kernel

end Response

/-! ## Sinks -/

namespace Sink

/-- The sink when it has taken a text. -/
def taking (sink : Sink) (piece : String) : Sink :=
  { sink with text := sink.text ++ piece, lines := sink.lines + piece.toList.count '\n' }

@[simp] theorem text_taking (sink : Sink) (piece : String) :
    (sink.taking piece).text = sink.text ++ piece := rfl

@[simp] theorem capacity_taking (sink : Sink) (piece : String) :
    (sink.taking piece).capacity = sink.capacity := rfl

@[simp] theorem refusesFlush_taking (sink : Sink) (piece : String) :
    (sink.taking piece).refusesFlush = sink.refusesFlush := rfl

theorem taking_empty (sink : Sink) : sink.taking "" = sink := by
  simp [taking]

theorem taking_taking (sink : Sink) (first second : String) :
    (sink.taking first).taking second = sink.taking (first ++ second) := by
  simp [taking, String.append_assoc, Nat.add_assoc]

/-- How many more lines a sink takes, if their number is limited. -/
def room? (sink : Sink) : Option Nat :=
  sink.capacity.map fun limit => limit - sink.lines

example (lines : Nat) (refusesFlush : Bool) :
    (empty (some lines) refusesFlush).room? = some lines := rfl

/-- The sink takes so many more lines. -/
def HasRoom (sink : Sink) (count : Nat) : Prop :=
  ∀ room, sink.room? = some room → count ≤ room

/-- Nothing is ever refused. -/
structure TakesAll (sink : Sink) : Prop where
  capacity : sink.capacity = none
  flush : sink.refusesFlush = false

variable {sink : Sink}

theorem isFull_iff : sink.isFull = true ↔ sink.room? = some 0 := by
  rw [isFull, room?]
  cases sink.capacity with
  | none => simp
  | some limit => simp [Nat.sub_eq_zero_iff_le]

/-- As long as a sink takes another line it takes any piece. -/
theorem HasRoom.write (room : sink.HasRoom 1) (piece : String) :
    sink.write piece = (sink.taking piece, none) := by
  have free : ¬ sink.isFull := fun full => absurd (room 0 (isFull_iff.mp full)) (by decide)
  rw [Sink.write, if_neg free]
  split
  · next nothing => rw [String.isEmpty_iff.mp nothing, taking_empty]
  · rfl

theorem TakesAll.taking (all : sink.TakesAll) (piece : String) : (sink.taking piece).TakesAll :=
  ⟨all.capacity, all.flush⟩

theorem TakesAll.hasRoom (all : sink.TakesAll) (count : Nat) : sink.HasRoom count := by
  intro room limited
  rw [room?, all.capacity] at limited
  cases limited

theorem TakesAll.write (all : sink.TakesAll) (piece : String) :
    sink.write piece = (sink.taking piece, none) :=
  (all.hasRoom 1).write piece

theorem TakesAll.writeLine (all : sink.TakesAll) (line : String) :
    sink.writeLine line = (sink.taking (line ++ "\n"), none) := by
  rw [Sink.writeLine, all.write, ← taking_taking]
  exact (all.taking line).write "\n"

end Sink

/-! ## The service -/

namespace Service

/-- The texts of the lines in front of the first one that is not UTF-8. -/
def texts (lines : List (List UInt8)) : List String :=
  (lines.takeWhile fun line => (textOf? line).isSome).filterMap textOf?

/-- How a service ends that is never refused anything: there may be a line that is not UTF-8. -/
def halt (lines : List (List UInt8)) : Option StreamFault :=
  if lines.all fun line => (textOf? line).isSome then none else some .invalidText

/-- The response to a line, with a line end behind it. -/
def reply (config : Config) (line : String) : String :=
  (answer config .still line).encode ++ "\n"

/-- The responses to lines, one for each that is not blank. -/
def replies (config : Config) (lines : List String) : String :=
  String.join ((lines.filter fun line => !isIdle line).map (reply config))

theorem replies_append (config : Config) (front back : List String) :
    replies config (front ++ back) = replies config front ++ replies config back := by
  simp only [replies, List.filter_append, List.map_append, String.join_append]

theorem replies_idle {config : Config} {line : String} {rest : List String} (idle : isIdle line) :
    replies config (line :: rest) = replies config rest := by
  rw [replies, List.filter_cons_of_neg (by simp [idle]), replies]

theorem replies_cons {config : Config} {line : String} {rest : List String}
    (asks : ¬ isIdle line) :
    replies config (line :: rest) = reply config line ++ replies config rest := by
  rw [replies, List.filter_cons_of_pos (by simp [asks]), List.map_cons, String.join_cons, replies]

variable {config : Config} {clock : Clock} {sink : Sink} {line : List UInt8}
  {rest : List (List UInt8)} {text : String}

theorem texts_cons (valid : textOf? line = some text) :
    texts (line :: rest) = text :: texts rest := by
  simp [texts, valid]

theorem texts_invalid (invalid : textOf? line = none) : texts (line :: rest) = [] := by
  simp [texts, invalid]

theorem halt_cons (valid : textOf? line = some text) : halt (line :: rest) = halt rest := by
  simp [halt, valid]

theorem halt_invalid (invalid : textOf? line = none) : halt (line :: rest) = some .invalidText := by
  simp [halt, invalid]

/-- Nothing that a service is asked depends on the clock if there is no time limit. -/
theorem answer_untimed (untimed : config.limits.timeoutMs = none) (line : String) :
    answer config clock line = answer config .still line := by
  unfold answer
  split
  · rw [run_untimed untimed]
  · rfl

theorem respond_eq (all : sink.TakesAll) (response : Response) :
    respond sink response = (sink.taking (response.encode ++ "\n"), none) := by
  rw [respond, all.writeLine]
  simp only [Sink.flush, Sink.refusesFlush_taking, all.flush, Bool.false_eq_true, if_false]

theorem serveLines_cons (config : Config) (clock : Clock) (sink : Sink) (line : List UInt8)
    (rest : List (List UInt8)) :
    serveLines config clock sink (line :: rest) =
      match textOf? line with
      | none => (sink, some .invalidText)
      | some text =>
        if isIdle text then serveLines config clock sink rest
        else
          match respond sink (answer config clock text) with
          | (after, some reason) => (after, some reason)
          | (after, none) => serveLines config clock after rest := (rfl)

/-- The service writes one response for each line, in order, and ends where the lines do or at the
first that is not UTF-8. -/
theorem serveLines_eq (untimed : config.limits.timeoutMs = none) (all : sink.TakesAll)
    (lines : List (List UInt8)) :
    serveLines config clock sink lines =
      (sink.taking (replies config (texts lines)), halt lines) := by
  induction lines generalizing sink with
  | nil =>
      have nothing : replies config (texts []) = "" := rfl
      rw [nothing, Sink.taking_empty]
      rfl
  | cons line rest ih =>
      rw [serveLines_cons]
      cases valid : textOf? line with
      | none =>
          rw [texts_invalid valid, halt_invalid valid]
          rw [show replies config [] = "" from rfl, Sink.taking_empty]
      | some text =>
          rw [texts_cons valid, halt_cons valid]
          by_cases idle : isIdle text
          · rw [replies_idle idle]
            exact (if_pos idle).trans (ih all)
          · refine (if_neg idle).trans ?_
            rw [answer_untimed untimed, respond_eq all, replies_cons idle]
            refine (ih (all.taking _)).trans ?_
            rw [Sink.taking_taking]
            rfl

/-- The lines in front of a line end are not changed by what follows it. -/
theorem inputLines_append (front back : List UInt8) :
    inputLines (front ++ 10 :: back) = inputLines (front ++ [10]) ++ inputLines back := by
  have pieces (rest : List UInt8) : (cutAt 10 (front ++ 10 :: rest)).1 ::
      (cutAt 10 (front ++ 10 :: rest)).2 =
        ((cutAt 10 front).1 :: (cutAt 10 front).2) ++ ((cutAt 10 rest).1 :: (cutAt 10 rest).2) := by
    rw [cutAt_append_mark]
    rfl
  have last (begun : List (List UInt8)) (piece : List UInt8) (rest : List (List UInt8)) :
      (begun ++ piece :: rest).getLast? = (piece :: rest).getLast? := by
    rw [List.getLast?_append, List.getLast?_cons]
    rfl
  simp only [inputLines, pieces, cutAt_nil, last]
  rw [List.dropLast_append_of_ne_nil (List.cons_ne_nil _ _),
    List.dropLast_append_of_ne_nil (List.cons_ne_nil _ _), List.map_append]
  simp

/-- Lines that are all UTF-8 are read whatever follows them. -/
theorem texts_append {front : List (List UInt8)} (valid : halt front = none)
    (back : List (List UInt8)) : texts (front ++ back) = texts front ++ texts back := by
  induction front with
  | nil => rfl
  | cons line rest ih =>
      cases text : textOf? line with
      | none =>
          rw [halt_invalid text] at valid
          cases valid
      | some read =>
          rw [halt_cons text] at valid
          rw [List.cons_append, texts_cons text, texts_cons text, ih valid, List.cons_append]

theorem halt_append {front : List (List UInt8)} (valid : halt front = none)
    (back : List (List UInt8)) : halt (front ++ back) = halt back := by
  induction front with
  | nil => rfl
  | cons line rest ih =>
      cases text : textOf? line with
      | none =>
          rw [halt_invalid text] at valid
          cases valid
      | some read =>
          rw [halt_cons text] at valid
          rw [List.cons_append, halt_cons text, ih valid]

/-- A line is answered with the outcome of the source that it asks to run, or with what is wrong
with it, at the start. -/
def Answers (config : Config) (line : String) : Prop :=
  (∃ text, Request.decode line = .ok (.run text) ∧
    answer config .still line = .ofOutcome (run config .still text)) ∨
  ∃ reason, Request.decode line = .error reason ∧
    answer config .still line = .error ("malformed request: " ++ reason.message) .start

theorem answers (config : Config) (line : String) : Answers config line := by
  cases decoded : Request.decode line with
  | error reason =>
      have understood : understand line = .error (.malformed reason.message) := by
        rw [understand, decoded]
      refine .inr ⟨reason, decoded, ?_⟩
      rw [answer, understood]
      rfl
  | ok request =>
      cases request with
      | run text =>
          have understood : understand line = .ok text := by
            rw [understand, decoded]
          refine .inl ⟨text, decoded, ?_⟩
          rw [answer, understood]

/-- A service answers every line once, in order, with a line of output that depends on nothing but
the line and the configuration. -/
structure ServesEach (config : Config) (clock : Clock) (sink : Sink) (input : List UInt8) :
    Prop where
  /-- What is written and how the service ends. -/
  served : serve config clock input sink =
    (sink.taking (replies config (texts (inputLines input))), halt (inputLines input))
  answered : ∀ line ∈ texts (inputLines input), Answers config line
  oneLine : ∀ line ∈ texts (inputLines input),
    (10 : UInt8) ∉ (answer config .still line).encode.toByteArray.data.toList
  /-- What is written for the lines behind a line end is the same whatever stands in front of it. -/
  independent : ∀ front back, input = front ++ 10 :: back →
    halt (inputLines (front ++ [10])) = none →
      serve config clock input sink =
        (sink.taking (replies config (texts (inputLines (front ++ [10]))) ++
          replies config (texts (inputLines back))), halt (inputLines back))

end Service

/-- Without a time limit, and with a sink that takes everything, every request is answered once, in
order and independently. -/
theorem serve_servesEach (config : Config) (clock : Clock) (sink : Sink) (input : List UInt8)
    (untimed : config.limits.timeoutMs = none) (all : sink.TakesAll) :
    Service.ServesEach config clock sink input := by
  have served : Service.serve config clock input sink =
      (sink.taking (Service.replies config (Service.texts (Service.inputLines input))),
        Service.halt (Service.inputLines input)) := Service.serveLines_eq untimed all _
  refine ⟨served, fun line _ => Service.answers config line, ?_, ?_⟩
  · intro line _
    exact newline_not_mem_utf8 (Response.printable_encode _).newline_not_mem
  · rintro front back rfl valid
    refine served.trans ?_
    rw [Service.inputLines_append, Service.texts_append valid, Service.halt_append valid,
      Service.replies_append]

/-- Two requests, of which the first is malformed, a blank line between them, and then a line that
is not UTF-8. -/
theorem serve_servesEach_mixed :
    let request := "\x7b\"kind\":\"run\",\"sourceText\":\"print \\\"a\\\";\"\x7d\n"
    let input := ("\x7b\n \n" ++ request).toByteArray.data.toList ++ [0xFF, 10, 0x7B]
    let written :=
      "\x7b\"kind\":\"error\",\"message\":\"malformed request: EOF while parsing an object " ++
      "at line 1 column 1\",\"line\":0,\"col\":0\x7d\n" ++
      "\x7b\"kind\":\"output\",\"lines\":[\"a\"]\x7d\n"
    Config.standard.limits.timeoutMs = none ∧ Sink.unlimited.TakesAll ∧
      Service.serve .standard .still input .unlimited =
        (⟨written, 2, none, false⟩, some .invalidText) ∧
      Service.ServesEach .standard .still .unlimited input := by
  intro request input written
  have untimed : Config.standard.limits.timeoutMs = none := rfl
  have all : Sink.unlimited.TakesAll := ⟨rfl, rfl⟩
  exact ⟨untimed, all, by decide +kernel,
    serve_servesEach .standard .still .unlimited input untimed all⟩

end LineScript
