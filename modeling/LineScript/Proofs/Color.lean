import LineScript.Proofs.Annotation
import LineScript.Proofs.Snippet
import Mathlib.Data.List.Forall2

/-!
# Color adds escape sequences and nothing else

A terminal does not display an escape sequence. `displayed` says what it does display of a text:
the characters, and of each whether a color is on. Read in this way a rendering in color consists of
its spans, each wholly in color or not at all, because a span switches its color on and off itself.
So without the sequences it is the rendering without color, provided that no text in it brings an
escape character along.

A remark may contain newlines, and these are displayed in color. The newlines that a rendering
writes itself are those that remain when the texts have none. To find them the rendering is compared
with that of `Diagnostic.unbroken`, which has a blank for every newline in the texts: the two are
mirrored span by span, and where the second one has a newline the first has one without color.
-/

namespace LineScript

/-! ## What is displayed of a text -/

/-- What stands between the bracket and the next `m`, in a text that begins with an escape
sequence. -/
def parameters? : List Char → Option (List Char)
  | first :: second :: rest =>
    if first = '\x1b' ∧ second = '[' ∧ 'm' ∈ rest then some (rest.takeWhile (· ≠ 'm')) else none
  | _ => none

/-- The characters that are displayed of a text behind its first `skip` ones, each with whether a
color is on. An escape sequence is not displayed. With the parameter `0` it switches the color off,
and with others on. -/
def displayed : Nat → Bool → List Char → List (Char × Bool)
  | _, _, [] => []
  | skip + 1, lit, _ :: rest => displayed skip lit rest
  | 0, lit, c :: rest =>
    match parameters? (c :: rest) with
    | some parameters => displayed (parameters.length + 2) (parameters ≠ ['0']) rest
    | none => (c, lit) :: displayed 0 lit rest

/-- The text without its escape sequences. -/
def withoutEscapes (text : String) : String :=
  String.ofList ((displayed 0 false text.toList).map Prod.fst)

theorem displayed_skip (front rest : List Char) (lit : Bool) :
    displayed front.length lit (front ++ rest) = displayed 0 lit rest := by
  induction front with
  | nil => rfl
  | cons c front ih => exact ih

theorem displayed_cons {c : Char} (plain : c ≠ '\x1b') (rest : List Char) (lit : Bool) :
    displayed 0 lit (c :: rest) = (c, lit) :: displayed 0 lit rest := by
  have none : parameters? (c :: rest) = none := by
    cases rest with
    | nil => rfl
    | cons second rest => exact if_neg fun starts => plain starts.1
  rw [displayed, none]

/-- A text without escape characters is displayed as it is. -/
theorem displayed_append {text : List Char} (free : '\x1b' ∉ text) (rest : List Char) (lit : Bool) :
    displayed 0 lit (text ++ rest) = text.map (fun c => (c, lit)) ++ displayed 0 lit rest := by
  induction text with
  | nil => rfl
  | cons c text ih =>
      obtain ⟨plain, later⟩ := not_or.mp (mt List.mem_cons.mpr free)
      rw [List.cons_append, displayed_cons (Ne.symm plain), ih later]
      rfl

theorem displayed_sequence {parameters : List Char} (inside : 'm' ∉ parameters) (rest : List Char)
    (lit : Bool) :
    displayed 0 lit ('\x1b' :: '[' :: (parameters ++ 'm' :: rest)) =
      displayed 0 (parameters ≠ ['0']) rest := by
  have found : parameters? ('\x1b' :: '[' :: (parameters ++ 'm' :: rest)) = some parameters := by
    have before : ∀ c ∈ parameters, decide (c ≠ 'm') = true := by
      intro c mem
      exact decide_eq_true fun same => inside (same ▸ mem)
    rw [parameters?, if_pos ⟨rfl, rfl, by simp⟩, List.takeWhile_append_of_pos before]
    simp
  have front : parameters.length + 2 = ('[' :: (parameters ++ ['m'])).length := by simp
  rw [displayed, found]
  dsimp only
  rw [front, show '[' :: (parameters ++ 'm' :: rest) = '[' :: (parameters ++ ['m']) ++ rest by simp,
    displayed_skip]

/-- The first of two letters is in bold. -/
example : displayed 0 false "\x1b[1ma\x1b[0mb".toList = [('a', true), ('b', false)] := by decide

/-! ## Spans -/

/-- An ink is switched on by an escape sequence with a parameter other than `0`. -/
theorem Ink.exists_parameters (ink : Ink) :
    ∃ parameters, ink.escape.toList = '\x1b' :: '[' :: (parameters ++ ['m']) ∧
      'm' ∉ parameters ∧ parameters ≠ ['0'] := by
  cases ink with
  | red => exact ⟨"1;31".toList, by decide⟩
  | yellow => exact ⟨"1;33".toList, by decide⟩
  | cyan => exact ⟨"1;36".toList, by decide⟩
  | green => exact ⟨"1;32".toList, by decide⟩
  | blue => exact ⟨"1;34".toList, by decide⟩
  | bold => exact ⟨"1".toList, by decide⟩

theorem displayed_escape (ink : Ink) (rest : List Char) (lit : Bool) :
    displayed 0 lit (ink.escape.toList ++ rest) = displayed 0 true rest := by
  obtain ⟨parameters, escape, inside, on⟩ := ink.exists_parameters
  rw [escape, List.cons_append, List.cons_append, List.append_assoc, List.singleton_append,
    displayed_sequence inside, decide_eq_true on]

theorem displayed_inkOff (rest : List Char) (lit : Bool) :
    displayed 0 lit (inkOff.toList ++ rest) = displayed 0 false rest :=
  @displayed_sequence ['0'] (by decide) rest lit

namespace Span

/-- What is displayed of a span in color. -/
def cells (span : Span) : List (Char × Bool) :=
  span.text.toList.map fun c => (c, span.ink.isSome)

/-- A span leaves the color as it found it, off. -/
theorem displayed_print {span : Span} (free : '\x1b' ∉ span.text.toList) (rest : List Char) :
    displayed 0 false ((span.print true).toList ++ rest) =
      span.cells ++ displayed 0 false rest := by
  obtain ⟨text, ink⟩ := span
  cases ink with
  | none => exact displayed_append free rest false
  | some ink =>
      have printed : print true ⟨text, some ink⟩ = ink.escape ++ text ++ inkOff := rfl
      rw [printed, String.toList_append, String.toList_append, List.append_assoc, List.append_assoc,
        displayed_escape, displayed_append free, displayed_inkOff]
      rfl

theorem displayed_printAll {spans : List Span} (free : ∀ span ∈ spans, '\x1b' ∉ span.text.toList) :
    displayed 0 false (printAll true spans).toList = spans.flatMap cells := by
  induction spans with
  | nil => rfl
  | cons span spans ih =>
      obtain ⟨first, later⟩ := List.forall_mem_cons.mp free
      rw [printAll_cons, String.toList_append, displayed_print first, ih later, List.flatMap_cons]

theorem toList_printAll (spans : List Span) :
    (printAll false spans).toList = spans.flatMap fun span => span.text.toList := by
  rw [printAll, String.toList_join, List.flatMap_map]
  rfl

theorem map_fst_cells (spans : List Span) :
    (spans.flatMap cells).map Prod.fst = (printAll false spans).toList := by
  rw [toList_printAll, List.map_flatMap]
  congr 1
  funext span
  simp [cells, Function.comp_def]

end Span

/-! ## Texts that mirror each other -/

/-- The text with a blank for every newline. -/
def unbroken (text : String) : String :=
  String.ofList (text.toList.map fun c => if c = '\n' then ' ' else c)

theorem newline_not_mem_unbroken (text : String) : '\n' ∉ (unbroken text).toList := by
  rw [unbroken, String.toList_ofList]
  intro mem
  obtain ⟨c, -, same⟩ := List.mem_map.mp mem
  split at same
  · cases same
  · next other => exact other same

/-- The first text has no escape character, and a newline wherever the second one has. -/
structure Mirrors (text other : String) : Prop where
  free : '\x1b' ∉ text.toList
  newlines : List.Forall₂ (fun c d => d = '\n' → c = '\n') text.toList other.toList

namespace Mirrors

theorem own (text : String) (free : '\x1b' ∉ text.toList) : Mirrors text text :=
  ⟨free, List.forall₂_same.mpr fun _ _ => id⟩

theorem unbroken {text : String} (free : '\x1b' ∉ text.toList) :
    Mirrors text (unbroken text) := by
  refine ⟨free, ?_⟩
  rw [LineScript.unbroken, String.toList_ofList, List.forall₂_map_right_iff, List.forall₂_same]
  intro c _ same
  split at same
  · cases same
  · exact same

theorem append {front other back later : String} (first : Mirrors front other)
    (second : Mirrors back later) : Mirrors (front ++ back) (other ++ later) := by
  constructor
  · rw [String.toList_append, List.mem_append, not_or]
    exact ⟨first.free, second.free⟩
  · rw [String.toList_append, String.toList_append]
    exact List.rel_append first.newlines second.newlines

end Mirrors

/-- The spans have the same ink and mirror each other, and in ink the second one has no newline. -/
inductive Span.Mirrors : Span → Span → Prop
  | plain {text other : String} (same : LineScript.Mirrors text other) :
      Span.Mirrors (.plain text) (.plain other)
  | inked {text other : String} (ink : Ink) (same : LineScript.Mirrors text other)
      (oneRow : '\n' ∉ other.toList) : Span.Mirrors ⟨text, some ink⟩ ⟨other, some ink⟩

namespace Span

variable {span other : Span}

theorem Mirrors.free (same : span.Mirrors other) : '\x1b' ∉ span.text.toList := by
  cases same with
  | plain same => exact same.free
  | inked ink same oneRow => exact same.free

/-- Where the second span has a newline, the first one has a newline that is not in color. -/
theorem Mirrors.cells (same : span.Mirrors other) :
    List.Forall₂ (fun cell d => d = '\n' → cell = ('\n', false)) span.cells other.text.toList := by
  cases same with
  | @plain text other same =>
      rw [Span.cells, List.forall₂_map_left_iff]
      refine same.newlines.imp fun c d here newline => ?_
      rw [here newline]
      rfl
  | @inked text other ink same oneRow =>
      rw [Span.cells, List.forall₂_map_left_iff]
      refine List.forall₂_iff_get.mpr ⟨same.newlines.length_eq, fun index _ inside newline => ?_⟩
      exact absurd (newline ▸ List.get_mem other.toList ⟨index, inside⟩) oneRow

theorem free_of_mirrors {spans others : List Span} (mirrored : List.Forall₂ Mirrors spans others) :
    ∀ span ∈ spans, '\x1b' ∉ span.text.toList := by
  induction mirrored with
  | nil => exact fun _ mem => absurd mem List.not_mem_nil
  | cons first _ ih => exact List.forall_mem_cons.mpr ⟨first.free, ih⟩

/-- Where the second rendering has a newline, the first one displays a newline without color. -/
theorem displayed_newline {spans others : List Span} (mirrored : List.Forall₂ Mirrors spans others)
    {index : Nat} (newline : (printAll false others).toList[index]? = some '\n') :
    (displayed 0 false (printAll true spans).toList)[index]? = some ('\n', false) := by
  have cells := List.rel_flatMap mirrored fun _ _ same => Mirrors.cells same
  rw [toList_printAll, List.getElem?_eq_some_iff] at newline
  obtain ⟨inside, newline⟩ := newline
  obtain ⟨length, each⟩ := List.forall₂_iff_get.mp cells
  have here := each index (Nat.lt_of_lt_of_eq inside length.symm) inside newline
  rw [displayed_printAll (free_of_mirrors mirrored), ← here]
  exact List.getElem?_eq_getElem _

end Span

/-! ## Renderings -/

/-- No text of the diagnostic has an escape character. -/
structure Diagnostic.EscapeFree (diagnostic : Diagnostic) : Prop where
  message : '\x1b' ∉ diagnostic.message.toList
  remarks : ∀ mark ∈ diagnostic.marks, '\x1b' ∉ mark.remark.toList
  notes : ∀ note ∈ diagnostic.notes, '\x1b' ∉ note.toList
  hints : ∀ hint ∈ diagnostic.hints, '\x1b' ∉ hint.toList

/-- The mark with a blank for every newline in its remark. -/
def Mark.unbroken (mark : Mark) : Mark :=
  { mark with remark := LineScript.unbroken mark.remark }

/-- The diagnostic with a blank for every newline in its texts. -/
def Diagnostic.unbroken (diagnostic : Diagnostic) : Diagnostic :=
  { diagnostic with
    message := LineScript.unbroken diagnostic.message
    marks := diagnostic.marks.map Mark.unbroken
    notes := diagnostic.notes.map LineScript.unbroken
    hints := diagnostic.hints.map LineScript.unbroken }

theorem escape_not_mem_spaces (count : Nat) : '\x1b' ∉ (spaces count).toList := by
  rw [toList_spaces]
  exact fun mem => absurd (List.eq_of_mem_replicate mem) (by decide)

theorem escape_not_mem_caretPad (line : Line) (col : Nat) :
    '\x1b' ∉ (caretPad line col).toList := by
  rw [caretPad, String.toList_ofList, List.mem_append, not_or]
  constructor
  · intro mem
    obtain ⟨c, -, same⟩ := List.mem_map.mp mem
    split at same <;> cases same
  · exact fun mem => absurd (List.eq_of_mem_replicate mem) (by decide)

theorem mirrors_number (number : Nat) : Mirrors (toString number) (toString number) :=
  .own _ (not_mem_number (by decide) number)

theorem mirrors_spaces (count : Nat) : Mirrors (spaces count) (spaces count) :=
  .own _ (escape_not_mem_spaces count)

theorem Pos.mirrors_display (pos : Pos) : Mirrors pos.display pos.display :=
  ((mirrors_number _).append (.own ":" (by decide))).append (mirrors_number _)

theorem Mark.mirrors_arrow (mark : Mark) : Mirrors mark.arrow mark.arrow := by
  rw [arrow]
  split <;> exact .own _ (by decide)

theorem Mark.mirrors_location {path : Option String} (mark : Mark)
    (named : ∀ name, path = some name → '\x1b' ∉ name.toList) :
    Mirrors (mark.location path) (mark.unbroken.location (path.map LineScript.unbroken)) := by
  cases path with
  | none => exact mark.pos.mirrors_display
  | some name =>
      exact ((Mirrors.unbroken (named name rfl)).append (.own ":" (by decide))).append
        mark.pos.mirrors_display

section Marks

variable {path : Option String} {mark : Mark}
variable (named : ∀ name, path = some name → '\x1b' ∉ name.toList)
variable (remark : '\x1b' ∉ mark.remark.toList)

include remark

theorem Mark.mirrors_remark :
    Span.Mirrors ⟨mark.remark, some mark.ink⟩ ⟨mark.unbroken.remark, some mark.ink⟩ :=
  .inked mark.ink (.unbroken remark) (newline_not_mem_unbroken _)

include named

theorem Mark.mirrors_remarkRow :
    List.Forall₂ Span.Mirrors (mark.remarkRow path)
      (mark.unbroken.remarkRow (path.map LineScript.unbroken)) := by
  have indent : Mirrors ("  " ++ mark.arrow ++ " ") ("  " ++ mark.arrow ++ " ") :=
    ((Mirrors.own "  " (by decide)).append mark.mirrors_arrow).append (.own " " (by decide))
  have front := (indent.append (mark.mirrors_location named)).append (.own ": " (by decide))
  exact .cons (.plain front) (.cons (mirrors_remark remark)
    (.cons (.plain (.own "\n" (by decide))) .nil))

theorem Mark.mirrors_snippet {line : Line} (free : '\x1b' ∉ line) :
    List.Forall₂ Span.Mirrors (mark.snippet path line)
      (mark.unbroken.snippet (path.map LineScript.unbroken) line) := by
  have gutter := mirrors_spaces (digitCount (mark.pos.line.toNat + 1))
  have newline : Mirrors "\n" "\n" := .own "\n" (by decide)
  have divided : Mirrors " | " " | " := .own " | " (by decide)
  have arrow := (((gutter.append mark.mirrors_arrow).append (.own " " (by decide))).append
    (mark.mirrors_location named)).append newline
  have empty := gutter.append (.own " |\n" (by decide))
  have text : Mirrors (String.ofList line) (String.ofList line) :=
    .own _ (by rwa [String.toList_ofList])
  have row := (((mirrors_number (mark.pos.line.toNat + 1)).append divided).append text).append
    newline
  have pad := (gutter.append divided).append
    (.own _ (escape_not_mem_caretPad line mark.pos.col.toNat))
  have caret : Span.Mirrors ⟨"^", some mark.ink⟩ ⟨"^", some mark.ink⟩ :=
    .inked mark.ink (.own "^" (by decide)) (by decide)
  exact .cons (.plain arrow) (.cons (.plain empty) (.cons (.plain row) (.cons (.plain pad)
    (.cons caret (.cons (.plain (.own " " (by decide))) (.cons (mirrors_remark remark)
    (.cons (.plain newline) .nil)))))))

/-- The rows of a mark mirror those of the mark without newlines in its remark. -/
theorem Mark.mirrors_spans {source : Option Source}
    (lines : ∀ text, source = some text → ∀ line ∈ text.lines, '\x1b' ∉ line) :
    List.Forall₂ Span.Mirrors (mark.spans source path)
      (mark.unbroken.spans source (path.map LineScript.unbroken)) := by
  rw [Mark.spans, Mark.spans]
  split
  · next line found =>
    obtain ⟨text, given, there⟩ := Option.bind_eq_some_iff.mp found
    have free := lines text given line (Array.mem_of_getElem? there)
    have found' : (source.bind fun text => text.line? mark.unbroken.pos.line.toNat) = some line :=
      found
    rw [found']
    exact mirrors_snippet named remark free
  · next found =>
    have found' : (source.bind fun text => text.line? mark.unbroken.pos.line.toNat) = none :=
      found
    rw [found']
    exact mirrors_remarkRow named remark

end Marks

/-- Lists of pieces are related if the pieces of each item and of its image are. -/
theorem forall₂_flatMap_map {α β γ : Type} {R : γ → γ → Prop} {items : List α} {image : α → β}
    {pieces : α → List γ} {others : β → List γ}
    (each : ∀ item ∈ items, List.Forall₂ R (pieces item) (others (image item))) :
    List.Forall₂ R (items.flatMap pieces) ((items.map image).flatMap others) := by
  induction items with
  | nil => exact .nil
  | cons item items ih =>
      obtain ⟨first, later⟩ := List.forall_mem_cons.mp each
      exact List.rel_append first (ih later)

/-- A row below the marks has a word in ink and a text. -/
theorem mirrors_remarks {word : String} (ink : Ink) (free : '\x1b' ∉ word.toList)
    (oneRow : '\n' ∉ word.toList) {texts : List String}
    (each : ∀ text ∈ texts, '\x1b' ∉ text.toList) :
    List.Forall₂ Span.Mirrors
      (texts.flatMap fun text => [.plain "  = ", ⟨word, some ink⟩, .plain (": " ++ text ++ "\n")])
      ((texts.map unbroken).flatMap fun text =>
        [.plain "  = ", ⟨word, some ink⟩, .plain (": " ++ text ++ "\n")]) := by
  refine forall₂_flatMap_map fun text mem => ?_
  have said : Mirrors (": " ++ text ++ "\n") (": " ++ unbroken text ++ "\n") :=
    ((Mirrors.own ": " (by decide)).append (.unbroken (each text mem))).append
      (.own "\n" (by decide))
  exact .cons (.plain (.own "  = " (by decide))) (.cons (.inked ink (.own word free) oneRow)
    (.cons (.plain said) .nil))

namespace Diagnostic

variable {diagnostic : Diagnostic} (clean : diagnostic.EscapeFree)

include clean

theorem mirrors_heading :
    List.Forall₂ Span.Mirrors diagnostic.heading diagnostic.unbroken.heading := by
  have severity : Span.Mirrors ⟨diagnostic.severity.word, some diagnostic.severity.ink⟩
      ⟨diagnostic.severity.word, some diagnostic.severity.ink⟩ := by
    cases diagnostic.severity <;> exact .inked _ (.own _ (by decide)) (by decide)
  have code : Span.Mirrors ⟨"[" ++ diagnostic.code.number ++ "]", some .bold⟩
      ⟨"[" ++ diagnostic.code.number ++ "]", some .bold⟩ := by
    cases diagnostic.code <;> exact .inked _ (.own _ (by decide)) (by decide)
  have message : Mirrors (": " ++ diagnostic.message ++ "\n")
      (": " ++ diagnostic.unbroken.message ++ "\n") :=
    ((Mirrors.own ": " (by decide)).append (.unbroken clean.message)).append
      (.own "\n" (by decide))
  exact .cons severity (.cons code (.cons (.plain message) .nil))

theorem mirrors_footing :
    List.Forall₂ Span.Mirrors diagnostic.footing diagnostic.unbroken.footing := by
  have notes := mirrors_remarks .bold (show '\x1b' ∉ "note".toList by decide) (by decide)
    clean.notes
  have hints := mirrors_remarks .green (show '\x1b' ∉ "help".toList by decide) (by decide)
    clean.hints
  have last : Span.Mirrors (.plain "\n") (.plain "\n") := .plain (.own "\n" (by decide))
  exact List.rel_append (List.rel_append notes hints) (.cons last .nil)

/-- The rows of a diagnostic mirror those of the diagnostic without newlines in its texts. -/
theorem mirrors_spans {source : Option Source} {path : Option String}
    (lines : ∀ text, source = some text → ∀ line ∈ text.lines, '\x1b' ∉ line)
    (named : ∀ name, path = some name → '\x1b' ∉ name.toList) :
    List.Forall₂ Span.Mirrors (diagnostic.spans source path)
      (diagnostic.unbroken.spans source (path.map LineScript.unbroken)) := by
  have marks := forall₂_flatMap_map (R := Span.Mirrors) fun mark mem =>
    Mark.mirrors_spans named (clean.remarks mark mem) lines
  rw [spans_eq, spans_eq]
  exact List.rel_append (List.rel_append (mirrors_heading clean) marks) (mirrors_footing clean)

end Diagnostic

/-! ## Sources -/

/-- The characters of a piece are characters of the text. -/
theorem mem_of_mem_cutAt {α : Type} [DecidableEq α] {mark x : α} {items piece : List α}
    (mem : piece ∈ (cutAt mark items).1 :: (cutAt mark items).2) (inside : x ∈ piece) :
    x ∈ items := by
  induction items generalizing piece with
  | nil =>
      rw [cutAt_nil, List.mem_singleton] at mem
      rwa [mem] at inside
  | cons y rest ih =>
      by_cases same : y = mark
      · rw [same, cutAt_mark] at mem
        rcases List.mem_cons.mp mem with rfl | mem
        · cases inside
        · exact List.mem_cons_of_mem y (ih mem inside)
      · rw [cutAt_cons same] at mem
        rcases List.mem_cons.mp mem with rfl | mem
        · rcases List.mem_cons.mp inside with rfl | inside
          · exact List.mem_cons_self
          · exact List.mem_cons_of_mem y (ih List.mem_cons_self inside)
        · exact List.mem_cons_of_mem y (ih (List.mem_cons_of_mem _ mem) inside)

theorem Source.mem_of_mem_lines {text : String} {line : Line} {c : Char}
    (mem : line ∈ (ofText text).lines) (inside : c ∈ line) : c ∈ text.toList := by
  rw [← Array.mem_toList_iff] at mem
  obtain ⟨piece, there, rfl⟩ := List.mem_map.mp mem
  exact mem_of_mem_cutAt there (mem_of_mem_dropReturn inside)

/-- The rendering in color of some diagnostics is the one without color, in which ink is switched on
and off. -/
structure OnlyInks (source path : Option String) (diagnostics : List Diagnostic) : Prop where
  removed : withoutEscapes
      (Diagnostic.render true (source.map Source.ofText) path diagnostics) =
    Diagnostic.render false (source.map Source.ofText) path diagnostics
  /-- The newlines that the rendering writes itself are there also if the texts have none. No color
  is on at any of them. -/
  reset : ∀ index : Nat,
    (Diagnostic.render false (source.map Source.ofText) (path.map unbroken)
      (diagnostics.map Diagnostic.unbroken)).toList[index]? = some '\n' →
    (displayed 0 false (Diagnostic.render true (source.map Source.ofText) path
      diagnostics).toList)[index]? = some ('\n', false)
  plain : '\x1b' ∉ (Diagnostic.render false (source.map Source.ofText) path diagnostics).toList

/-- Color adds escape sequences to the rendering of texts that have none. -/
theorem render_onlyInks {source path : Option String} {diagnostics : List Diagnostic}
    (given : ∀ text, source = some text → '\x1b' ∉ text.toList)
    (named : ∀ name, path = some name → '\x1b' ∉ name.toList)
    (clean : ∀ diagnostic ∈ diagnostics, diagnostic.EscapeFree) :
    OnlyInks source path diagnostics := by
  have lines : ∀ text, source.map Source.ofText = some text → ∀ line ∈ text.lines,
      '\x1b' ∉ line := by
    intro text same line mem inside
    obtain ⟨chars, there, rfl⟩ := Option.map_eq_some_iff.mp same
    exact given chars there (Source.mem_of_mem_lines mem inside)
  have mirrored : List.Forall₂ Span.Mirrors
      (diagnostics.flatMap (Diagnostic.spans (source.map Source.ofText) path))
      ((diagnostics.map Diagnostic.unbroken).flatMap
        (Diagnostic.spans (source.map Source.ofText) (path.map unbroken))) :=
    forall₂_flatMap_map fun diagnostic mem =>
      Diagnostic.mirrors_spans (clean diagnostic mem) lines named
  have free := Span.free_of_mirrors mirrored
  constructor
  case removed =>
    change String.ofList ((displayed 0 false (Span.printAll true _).toList).map Prod.fst) =
      Span.printAll false _
    rw [Span.displayed_printAll free, Span.map_fst_cells, String.ofList_toList]
  case reset =>
    exact fun index newline => Span.displayed_newline mirrored newline
  case plain =>
    change '\x1b' ∉ (Span.printAll false _).toList
    rw [Span.toList_printAll]
    intro mem
    obtain ⟨span, there, inside⟩ := List.mem_flatMap.mp mem
    exact free span there inside

/-- Two marks, one on a line of the source and with a newline in its remark, the other on none. -/
def brokenRemark : Diagnostic :=
  ⟨.undeclared, .warning, "unknown", [⟨⟨0, 4⟩, "not\ndeclared", true⟩, ⟨⟨7, 0⟩, "seen", false⟩],
    ["a\nnote"], ["a hint"]⟩

theorem render_onlyInks_brokenRemark :
    '\x1b' ∉ "\tx = y;".toList ∧ '\x1b' ∉ "a.cr".toList ∧ brokenRemark.EscapeFree ∧
      OnlyInks (some "\tx = y;") (some "a.cr") [brokenRemark] := by
  have given : '\x1b' ∉ "\tx = y;".toList := by decide
  have named : '\x1b' ∉ "a.cr".toList := by decide
  have clean : brokenRemark.EscapeFree := ⟨by decide, by decide, by decide, by decide⟩
  refine ⟨given, named, clean, render_onlyInks ?_ ?_ ?_⟩
  · intro text same
    cases same
    exact given
  · intro name same
    cases same
    exact named
  · intro diagnostic mem
    cases List.mem_singleton.mp mem
    exact clean

end LineScript
