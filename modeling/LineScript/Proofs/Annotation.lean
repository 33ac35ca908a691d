import LineScript.Proofs.RoundTrip
import LineScript.Proofs.Spread

/-!
# Comments and blank lines

A comment behind a line and a line without code do not change what a program means. Both are ways to
spread a source out, so the program that is read has the same statements but for their places, for
comments and for blanks, and it ends alike if nothing limits it: it prints the same lines, or it
fails for a reason of the same group. A run that does not end has no outcome with or without them.

There are two conditions. A line that ends in a quotation without its closing quote goes on into
what is written behind it. And the other block of a choice must be opened on the line that ends the
first block or on the next, so no line may come between.

With a limit on the steps it would not be so, because a comment is a statement and is charged.
-/

namespace LineScript

/-! ## Runs -/

/-- What an outcome says without the place and the wording of a fault. -/
def Outcome.gist : Outcome → Except Code (List String)
  | .output lines => .ok lines
  | .fault reason => .error reason.code

/-- The count of steps and the place of a fault do not belong to the gist. -/
theorem Outcome.gist_ofEnd (after : Machine) (count : Nat) {fault own : Option Fault}
    (same : own.map Fault.bare = fault.map Fault.bare) :
    (ofEnd (after.counting count, own)).gist = (ofEnd (after, fault)).gist := by
  cases fault with
  | none =>
      rw [Option.map_none, Option.map_eq_none_iff] at same
      rw [same]
      rfl
  | some reason =>
      obtain ⟨reason', rfl, bare⟩ := Option.map_eq_some_iff.mp same
      change Except.error reason'.code = Except.error reason.code
      rw [← reason'.code_bare, bare, reason.code_bare]

/-- Sources that are read alike run alike. -/
theorem Source.ReadAlike.runs {rule : EntryRule} {clock : Clock} {source other : Source}
    (alike : source.ReadAlike rule other) {charged : List Task} {after : Machine}
    {outcome : Outcome} (runs : source.Runs ⟨rule, ⟨none, none⟩⟩ clock charged after outcome) :
    ∃ charged' after' outcome',
      other.Runs ⟨rule, ⟨none, none⟩⟩ clock charged' after' outcome' ∧
        outcome'.gist = outcome.gist := by
  cases runs with
  | refused refused =>
      cases alike with
      | refused own others code =>
          cases own.symm.trans refused
          exact ⟨_, _, _, .refused others, congrArg Except.error code⟩
      | read own others bare => cases own.symm.trans refused
  | @executed program charged after fault read execution =>
      cases alike with
      | refused own others code => cases own.symm.trans read
      | @read program program' own others bare =>
          cases own.symm.trans read
          have same : Task.allBare (Task.ofBlock program'.body) =
              Task.allBare (Task.ofBlock program.body) := by
            rw [Task.allBare_ofBlock, Task.allBare_ofBlock, bare]
          obtain ⟨charged', count, own', execution', equal⟩ := execution.finishes same 0
          exact ⟨_, _, _, .executed others execution', Outcome.gist_ofEnd after count equal⟩

/-- A text that is run ends and prints these lines. -/
def Yields (config : Config) (clock : Clock) (text : String) (lines : List String) : Prop :=
  ∃ charged after, (Source.ofText text).Runs config clock charged after (.output lines)

/-- A text that is run ends with a fault of this group, or is refused with one. -/
def FailsWith (config : Config) (clock : Clock) (text : String) (code : Code) : Prop :=
  ∃ charged after fault, (Source.ofText text).Runs config clock charged after (.fault fault) ∧
    fault.code = code

/-- What `run` prints is what the run without fuel prints. -/
theorem yields_of_run {config : Config} {clock : Clock} {text : String} {lines : List String}
    (output : run config clock text = .output lines) : Yields config clock text lines := by
  rw [run] at output
  rcases Source.runs_or_budget config clock (.ofText text) with ⟨charged, after, runs⟩ | stopped
  · rw [output] at runs
    exact ⟨charged, after, runs⟩
  · obtain ⟨fault, failed, -⟩ := stopped
    cases output.symm.trans failed

/-- Texts that are read alike yield the same lines and fail with the same codes. -/
theorem Source.ReadAlike.yields {rule : EntryRule} (clock : Clock) {text other : String}
    (alike : (Source.ofText text).ReadAlike rule (.ofText other)) :
    (∀ lines, Yields ⟨rule, ⟨none, none⟩⟩ clock text lines →
        Yields ⟨rule, ⟨none, none⟩⟩ clock other lines) ∧
      ∀ code, FailsWith ⟨rule, ⟨none, none⟩⟩ clock text code →
        FailsWith ⟨rule, ⟨none, none⟩⟩ clock other code := by
  constructor
  · rintro lines ⟨charged, after, runs⟩
    obtain ⟨charged', after', outcome, runs', same⟩ := alike.runs runs
    cases outcome with
    | output lines' =>
        cases same
        exact ⟨charged', after', runs'⟩
    | fault reason => cases same
  · rintro code ⟨charged, after, reason, runs, rfl⟩
    obtain ⟨charged', after', outcome, runs', same⟩ := alike.runs runs
    cases outcome with
    | output lines => cases same
    | fault reason' => exact ⟨charged', after', reason', runs', Except.error.inj same⟩

/-! ## Sources with one change -/

/-- An aside behind one line. -/
theorem Spread.ofAside {source other : Source} {index : Nat} {tail : Line}
    (size : other.size = source.size)
    (elsewhere : ∀ line, line ≠ index → other.line line = source.line line)
    (here : other.line index = source.line index ++ tail) (aside : IsAside tail)
    (closed : endsOpen (source.line index) = false) : Spread id source other where
  rising := id
  size := size.symm
  text line := by
    by_cases same : line = index
    · subst same
      exact ⟨tail, aside, here⟩
    · exact ⟨[], isAside_nil, by rw [List.append_nil]; exact elsewhere line same⟩
  code line := by
    by_cases same : line = index
    · subst same
      rw [id_eq, here, aside.scanCode_append _ closed]
    · rw [id_eq, elsewhere line same]
  idle row missing := absurd rfl (missing row)
  apart _ _ := rfl

/-- The number of a line when a row has come before line `index`. -/
def lowered (index line : Nat) : Nat :=
  if line < index then line else line + 1

/-- A row without code between two lines, the second of which does not open the other block of a
choice. -/
theorem Spread.ofRow {source other : Source} {index : Nat} (upto : index ≤ source.size)
    (size : other.size = source.size + 1)
    (above : ∀ line < index, other.line line = source.line line)
    (row : IsIdle (other.line index))
    (below : ∀ line, index ≤ line → other.line (line + 1) = source.line line)
    (apart : opensOther (source.line index) = false) :
    Spread (lowered index) source other where
  rising := by
    intro before line earlier
    unfold lowered
    split <;> split <;> omega
  size := by
    rw [lowered, if_neg (Nat.not_lt.mpr upto), size]
  text line := by
    refine ⟨[], isAside_nil, ?_⟩
    rw [List.append_nil, lowered]
    split
    · next earlier => exact above line earlier
    · next later => exact below line (Nat.not_lt.mp later)
  code line := by
    rw [lowered]
    split
    · next earlier => rw [above line earlier]
    · next later => rw [below line (Nat.not_lt.mp later)]
  idle := by
    intro line missing
    have here : line = index := by
      apply Classical.byContradiction
      intro other
      rcases Nat.lt_or_gt_of_ne other with before | behind
      · exact missing line (if_pos before)
      · have place : lowered index (line - 1) = line := by
          rw [lowered, if_neg (by omega)]
          omega
        exact missing (line - 1) place
    rw [here]
    exact row
  apart := by
    intro line opens
    have other : line + 1 ≠ index := by
      rintro rfl
      rw [apart] at opens
      cases opens
    unfold lowered
    split <;> split <;> omega

/-! ## Lines of a text -/

/-- The characters of a comment behind its slashes: they stay on the line and have no braces. -/
structure IsPlain (c : List Char) : Prop where
  newline : '\n' ∉ c
  opening : '\x7b' ∉ c
  closing : '\x7d' ∉ c

/-- A line that is empty, blank, or a comment. -/
inductive IsFiller : Line → Prop
  | blank {row : List Char} (blank : ∀ c ∈ row, isGap c = true) : IsFiller row
  | comment {gap c : List Char} (blank : ∀ d ∈ gap, isGap d = true) (plain : IsPlain c) :
      IsFiller (gap ++ '/' :: '/' :: c)

theorem mem_of_mem_dropReturn {line : Line} {c : Char} (mem : c ∈ dropReturn line) : c ∈ line := by
  rw [dropReturn] at mem
  split at mem
  · exact List.dropLast_subset line mem
  · exact mem

/-- A carriage return is taken off a comment and nothing else. -/
theorem dropReturn_comment (front c : List Char) :
    dropReturn (front ++ '/' :: '/' :: c) = front ++ '/' :: '/' :: dropReturn c := by
  have solid : (front ++ ['/', '/']).getLast? ≠ some '\r' := by simp
  have split (rest : List Char) : front ++ '/' :: '/' :: rest = front ++ ['/', '/'] ++ rest := by
    simp
  rw [split, split (dropReturn c), Written.dropReturn_append solid]

namespace IsPlain

variable {c : List Char} (plain : IsPlain c)

include plain

theorem received : IsPlain (dropReturn c) :=
  ⟨fun mem => plain.newline (mem_of_mem_dropReturn mem),
    fun mem => plain.opening (mem_of_mem_dropReturn mem),
    fun mem => plain.closing (mem_of_mem_dropReturn mem)⟩

theorem newline_not_mem : '\n' ∉ '/' :: '/' :: c := by
  simp [plain.newline]

theorem free : ∀ d ∈ '/' :: '/' :: c, Brace.ofChar? d = none := by
  have opening := plain.opening
  have closing := plain.closing
  intro d mem
  unfold Brace.ofChar?
  rw [if_neg, if_neg]
  · rintro rfl
    simp [closing] at mem
  · rintro rfl
    simp [opening] at mem

end IsPlain

theorem IsFiller.newline_not_mem {row : Line} (filler : IsFiller row) : '\n' ∉ row := by
  have gap {front : List Char} (blank : ∀ c ∈ front, isGap c = true) : '\n' ∉ front :=
    fun mem => absurd (blank _ mem) (by decide)
  cases filler with
  | blank blank => exact gap blank
  | comment blank plain =>
      rw [List.mem_append]
      exact not_or.mpr ⟨gap blank, plain.newline_not_mem⟩

theorem IsFiller.isIdle {row : Line} (filler : IsFiller row) : IsIdle (dropReturn row) := by
  cases filler with
  | blank blank =>
      rw [← List.append_nil (dropReturn row)]
      exact isIdle_of_comment (fun c mem => blank c (mem_of_mem_dropReturn mem)) (.inl rfl)
        (by simp) (by simp)
  | @comment gap c blank plain =>
      rw [dropReturn_comment]
      exact isIdle_of_comment blank (.inr ⟨_, rfl⟩) plain.received.newline_not_mem
        plain.received.free

/-! ## Texts with one change -/

/-- `Annotates text other`: `other` is `text` with a comment behind one of its lines, or with one
more line that has no code. The line with the comment does not end in an unfinished quotation, and
the new line does not come directly before a line that opens the other block of a choice. A comment
may be written in front of a carriage return that ends the line, or behind it. Every text is that of
some lines (`exists_joinLines`), so each of its lines and each place between two can be taken. -/
inductive Annotates : String → String → Prop
  | behind (before after : List Line) (line ending c : List Char)
      (one : ∀ each ∈ before ++ (line ++ ending) :: after, '\n' ∉ each)
      (returns : ending = [] ∨ ending = ['\r'])
      (closed : endsOpen (dropReturn (line ++ ending)) = false) (plain : IsPlain c) :
      Annotates (joinLines (before ++ (line ++ ending) :: after))
        (joinLines (before ++ (line ++ (' ' :: '/' :: '/' :: c) ++ ending) :: after))
  | between (before after : List Line) (row : Line)
      (one : ∀ each ∈ before ++ after, '\n' ∉ each) (nonempty : before ++ after ≠ [])
      (filler : IsFiller row)
      (apart : ∀ next ∈ after.head?, opensOther (dropReturn next) = false) :
      Annotates (joinLines (before ++ after)) (joinLines (before ++ row :: after))

theorem Source.line_joinLines_getD {lines : List Line} (nonempty : lines ≠ [])
    (plain : ∀ line ∈ lines, '\n' ∉ line) (index : Nat) :
    (ofText (joinLines lines)).line index = dropReturn (lines[index]?.getD []) := by
  rw [line, line?_joinLines nonempty plain]
  cases lines[index]? with
  | none => rfl
  | some text => rfl

theorem blank_singleton {sign : Char} (blank : isGap sign = true) :
    ∀ c ∈ [sign], isGap c = true := by
  intro c mem
  rw [List.mem_singleton.mp mem]
  exact blank

/-- What is taken off the end of a line is a gap. -/
theorem exists_gap (line : Line) :
    ∃ gap, (∀ c ∈ gap, isGap c = true) ∧ line = dropReturn line ++ gap := by
  rw [dropReturn]
  split
  · next last =>
    obtain ⟨front, rfl⟩ := List.getLast?_eq_some_iff.mp last
    refine ⟨['\r'], blank_singleton rfl, ?_⟩
    rw [List.dropLast_concat]
  · exact ⟨[], by simp, (List.append_nil line).symm⟩

/-- A comment behind a line is an aside behind what is read of the line. -/
theorem exists_aside (line : Line) {ending c : List Char}
    (returns : ending = [] ∨ ending = ['\r']) (plain : IsPlain c) :
    ∃ tail, IsAside tail ∧ dropReturn (line ++ (' ' :: '/' :: '/' :: c) ++ ending) =
      dropReturn (line ++ ending) ++ tail := by
  rcases returns with rfl | rfl
  · obtain ⟨gap, blank, split⟩ := exists_gap line
    refine ⟨gap ++ [' '] ++ '/' :: '/' :: dropReturn c, ?_, ?_⟩
    · apply isAside_of_comment _ (by simp) (.inr ⟨_, rfl⟩) plain.received.newline_not_mem
        plain.received.free
      intro d mem
      rcases List.mem_append.mp mem with inGap | last
      · exact blank d inGap
      · exact blank_singleton rfl d last
    · have comment := dropReturn_comment (line ++ [' ']) c
      rw [List.append_nil, List.append_nil, ← List.append_assoc, ← List.append_assoc, ← split,
        ← comment, List.append_assoc]
      rfl
  · have returned (text : Line) : dropReturn (text ++ ['\r']) = text := by simp [dropReturn]
    refine ⟨[' '] ++ '/' :: '/' :: c, ?_, ?_⟩
    · exact isAside_of_comment (blank_singleton rfl) (by simp) (.inr ⟨c, rfl⟩)
        plain.newline_not_mem plain.free
    · rw [returned, returned]
      rfl

section

variable {before after : List Line}

theorem getElem?_here (text : Line) : (before ++ text :: after)[before.length]? = some text := by
  simp

theorem getElem?_elsewhere {index : Nat} (other : index ≠ before.length) (text text' : Line) :
    (before ++ text' :: after)[index]? = (before ++ text :: after)[index]? := by
  rcases Nat.lt_or_gt_of_ne other with above | below
  · rw [List.getElem?_append_left above, List.getElem?_append_left above]
  · rw [List.getElem?_append_right (Nat.le_of_lt below),
      List.getElem?_append_right (Nat.le_of_lt below),
      show index - before.length = index - before.length - 1 + 1 by omega,
      List.getElem?_cons_succ, List.getElem?_cons_succ]

/-- A comment behind a line spreads the source out. -/
theorem spread_behind {line ending c : List Char}
    (one : ∀ each ∈ before ++ (line ++ ending) :: after, '\n' ∉ each)
    (returns : ending = [] ∨ ending = ['\r'])
    (closed : endsOpen (dropReturn (line ++ ending)) = false) (plain : IsPlain c) :
    Spread id (.ofText (joinLines (before ++ (line ++ ending) :: after)))
      (.ofText (joinLines (before ++ (line ++ (' ' :: '/' :: '/' :: c) ++ ending) :: after))) := by
  have one' : ∀ each ∈ before ++ (line ++ (' ' :: '/' :: '/' :: c) ++ ending) :: after,
      '\n' ∉ each := by
    intro each mem
    have own := one (line ++ ending) (by simp)
    rcases List.mem_append.mp mem with above | mem
    · exact one each (by simp [above])
    · rcases List.mem_cons.mp mem with rfl | below
      · simp only [List.mem_append, not_or] at own ⊢
        refine ⟨⟨own.1, ?_⟩, own.2⟩
        simp [plain.newline]
      · exact one each (by simp [below])
  obtain ⟨tail, aside, same⟩ := exists_aside line returns plain
  have own := Source.line_joinLines_getD (by simp) one before.length
  rw [getElem?_here, Option.getD_some] at own
  apply Spread.ofAside _ _ _ aside
  · rw [own]
    exact closed
  · rw [Source.size_joinLines (by simp) one, Source.size_joinLines (by simp) one']
    simp
  · intro index other
    rw [Source.line_joinLines_getD (by simp) one, Source.line_joinLines_getD (by simp) one',
      getElem?_elsewhere other]
  · rw [own, Source.line_joinLines_getD (by simp) one', getElem?_here, ← same]
    rfl

/-- So does a new line without code. -/
theorem spread_between {row : Line} (one : ∀ each ∈ before ++ after, '\n' ∉ each)
    (nonempty : before ++ after ≠ []) (filler : IsFiller row)
    (apart : ∀ next ∈ after.head?, opensOther (dropReturn next) = false) :
    Spread (lowered before.length) (.ofText (joinLines (before ++ after)))
      (.ofText (joinLines (before ++ row :: after))) := by
  have one' : ∀ each ∈ before ++ row :: after, '\n' ∉ each := by
    intro each mem
    rcases List.mem_append.mp mem with above | mem
    · exact one each (by simp [above])
    · rcases List.mem_cons.mp mem with rfl | below
      · exact filler.newline_not_mem
      · exact one each (by simp [below])
  have size := Source.size_joinLines nonempty one
  rw [List.length_append] at size
  apply Spread.ofRow
  · omega
  · rw [size, Source.size_joinLines (by simp) one', List.length_append, List.length_cons]
    rfl
  · intro line above
    rw [Source.line_joinLines_getD nonempty one, Source.line_joinLines_getD (by simp) one',
      List.getElem?_append_left above, List.getElem?_append_left above]
  · rw [Source.line_joinLines_getD (by simp) one', getElem?_here]
    exact filler.isIdle
  · intro line below
    rw [Source.line_joinLines_getD nonempty one, Source.line_joinLines_getD (by simp) one',
      List.getElem?_append_right below, List.getElem?_append_right (Nat.le_succ_of_le below),
      Nat.succ_sub below, List.getElem?_cons_succ]
  · rw [Source.line_joinLines_getD nonempty one,
      List.getElem?_append_right (Nat.le_refl _), Nat.sub_self, ← List.head?_eq_getElem?]
    cases first : after.head? with
    | none => exact not_opensOther_of_quiet isIdle_nil.quiet
    | some next => exact apart next first

end

theorem Annotates.readAlike {text other : String} (annotates : Annotates text other)
    (rule : EntryRule) : (Source.ofText text).ReadAlike rule (.ofText other) := by
  cases annotates with
  | behind before after line ending c one returns closed plain =>
      exact (spread_behind one returns closed plain).readAlike rule
  | between before after row one nonempty filler apart =>
      exact (spread_between one nonempty filler apart).readAlike rule

/-- Comments and blank lines do not change the meaning of a text: without limits it yields the same
lines and fails with the same codes as with them, whatever the rule for `main` and the clock. -/
theorem runs_iff_of_annotates (rule : EntryRule) (clock : Clock) {text other : String}
    (annotates : Annotates text other) :
    (∀ lines, Yields ⟨rule, ⟨none, none⟩⟩ clock other lines ↔
        Yields ⟨rule, ⟨none, none⟩⟩ clock text lines) ∧
      ∀ code, FailsWith ⟨rule, ⟨none, none⟩⟩ clock other code ↔
        FailsWith ⟨rule, ⟨none, none⟩⟩ clock text code := by
  have alike := annotates.readAlike rule
  have ahead := alike.yields clock
  have back := alike.symm.yields clock
  exact ⟨fun lines => ⟨back.1 lines, ahead.1 lines⟩, fun code => ⟨back.2 code, ahead.2 code⟩⟩

/-- The lines of a choice in front of the brace that ends its first block, -/
def choiceAbove : List Line :=
  ["func main() \x7b", "var x = 1;", "if x > 5 \x7b", "print \"a\";"].map String.toList

/-- and those behind it. -/
def choiceBelow : List Line :=
  ["else \x7b", "print \"b\";", "\x7d", "\x7d"].map String.toList

theorem runs_iff_of_annotates_choice :
    let text := joinLines (choiceAbove ++ ['\x7d'] :: choiceBelow)
    let other := joinLines (choiceAbove ++ ('\x7d' :: " // x > 5".toList) :: choiceBelow)
    Annotates text other ∧
      run ⟨.mainRequired, ⟨none, none⟩⟩ .still text = .output ["b"] ∧
      Yields ⟨.mainRequired, ⟨none, none⟩⟩ .still other ["b"] := by
  intro text other
  have annotates : Annotates text other :=
    .behind choiceAbove choiceBelow ['\x7d'] [] " x > 5".toList (by decide +kernel) (.inl rfl)
      (by decide +kernel) ⟨by decide, by decide, by decide⟩
  have output : run ⟨.mainRequired, ⟨none, none⟩⟩ .still text = .output ["b"] := by
    decide +kernel
  refine ⟨annotates, output, ?_⟩
  exact ((runs_iff_of_annotates .mainRequired .still annotates).1 ["b"]).mpr (yields_of_run output)

/-- A line between the two blocks of a choice makes them a branch and a line of no known form. -/
example :
    run ⟨.wholeSource, ⟨none, none⟩⟩ .still "var x = 1;\nif x > 5 \x7b\n\x7d\nelse \x7b\n\x7d" =
        .output [] ∧
      run ⟨.wholeSource, ⟨none, none⟩⟩ .still
          "var x = 1;\nif x > 5 \x7b\n\x7d\n\nelse \x7b\n\x7d" =
        .fault ⟨.unknownForm "else \x7b", ⟨4, 0⟩⟩ := by decide +kernel

/-- A comment behind an unfinished quotation may finish it. -/
example :
    run ⟨.wholeSource, ⟨none, none⟩⟩ .still "print \"a" = .fault ⟨.unterminated, ⟨0, 8⟩⟩ ∧
      run ⟨.wholeSource, ⟨none, none⟩⟩ .still "print \"a //\";" = .output ["a //"] := by
  decide +kernel

end LineScript
