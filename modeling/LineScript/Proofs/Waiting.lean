import LineScript.Braces

/-!
# Waiting braces

The braces of a source are paired from the end of the text. What the lines behind a line hand to
it is the stack of the closing braces that still wait for a partner, `Source.waiting`. A line
takes from the top of the stack as many as it leaves open, and then puts on it those of its own
that nothing on it has opened.

Everything else follows from the stack. Its members are in reading order, so the block that is
opened further inside closes first; and the brace that ends a block, `Pairing.closeOf`, is the
last one that the rest of the line takes from it.
-/

namespace LineScript

/-- A spot stands in front of another one. -/
def Spot.Before (spot mark : Spot) : Prop :=
  spot.line < mark.line ∨ spot.line = mark.line ∧ spot.col < mark.col

/-- The braces of a text that begins in column `col`. -/
def bracesAt (col : Nat) (text : Line) : List (Nat × Brace) :=
  (text.zipIdx col).filterMap fun (c, col) => (Brace.ofChar? c).map fun brace => (col, brace)

@[simp] theorem bracesAt_nil (col : Nat) : bracesAt col [] = [] := rfl

theorem bracesAt_cons (col : Nat) (c : Char) (rest : Line) :
    bracesAt col (c :: rest) =
      ((Brace.ofChar? c).map fun brace => (col, brace)).toList ++ bracesAt (col + 1) rest := by
  cases h : Brace.ofChar? c <;> simp [bracesAt, h]

/-- Pairs the braces of a text that begins in column `col`. -/
def pairText (line col : Nat) (text : Line) (waiting : List Spot) : List Opening × List Spot :=
  (bracesAt col text).foldr (meetBrace line) ([], waiting)

theorem pairLine_eq (line : Nat) (text : Line) (waiting : List Spot) :
    pairLine line text waiting = pairText line 0 text waiting := rfl

@[simp] theorem pairText_nil (line col : Nat) (waiting : List Spot) :
    pairText line col [] waiting = ([], waiting) := rfl

theorem pairText_cons (line col : Nat) (c : Char) (rest : Line) (waiting : List Spot) :
    pairText line col (c :: rest) waiting =
      match Brace.ofChar? c with
      | none => pairText line (col + 1) rest waiting
      | some brace => meetBrace line (col, brace) (pairText line (col + 1) rest waiting) := by
  cases h : Brace.ofChar? c <;> simp [pairText, bracesAt_cons, h]

/-- How many closing and how many opening braces of a text have no partner in the text. -/
def unmatched (text : Line) : Nat × Nat :=
  text.foldr (fun c left =>
    match Brace.ofChar? c with
    | none => left
    | some .closing => (left.1 + 1, left.2)
    | some .opening => if left.1 = 0 then (0, left.2 + 1) else (left.1 - 1, left.2)) (0, 0)

/-- How many blocks a text leaves open: the opening braces that it does not close itself. -/
def leftOpen (text : Line) : Nat :=
  (unmatched text).2

@[simp] theorem unmatched_nil : unmatched [] = (0, 0) := rfl

theorem unmatched_cons (c : Char) (rest : Line) :
    unmatched (c :: rest) =
      match Brace.ofChar? c with
      | none => unmatched rest
      | some .closing => ((unmatched rest).1 + 1, (unmatched rest).2)
      | some .opening =>
        if (unmatched rest).1 = 0 then (0, (unmatched rest).2 + 1)
        else ((unmatched rest).1 - 1, (unmatched rest).2) := rfl

/-- The change in depth is what is left open less what is closed for others. -/
theorem depthChange_eq (text : Line) :
    depthChange text = ((unmatched text).2 : Int) - (unmatched text).1 := by
  have key : ∀ col, (bracesAt col text).foldr (fun brace depth => brace.2.weight + depth) 0 =
      ((unmatched text).2 : Int) - (unmatched text).1 := by
    induction text with
    | nil => intro col; rfl
    | cons c rest ih =>
        intro col
        rw [bracesAt_cons, unmatched_cons, List.foldr_append, ih]
        cases Brace.ofChar? c with
        | none => rfl
        | some brace =>
            cases brace with
            | closing =>
                simp only [Option.map_some, Option.toList_some, List.foldr_cons, List.foldr_nil,
                  Brace.weight]
                omega
            | opening =>
                simp only [Option.map_some, Option.toList_some, List.foldr_cons, List.foldr_nil,
                  Brace.weight]
                split
                · dsimp only
                  omega
                · dsimp only
                  omega
  exact key 0

/-- What two texts leave unmatched, less what the second closes of the first. -/
theorem unmatched_append (left right : Line) :
    unmatched (left ++ right) =
      ((unmatched left).1 + ((unmatched right).1 - (unmatched left).2),
        (unmatched right).2 + ((unmatched left).2 - (unmatched right).1)) := by
  induction left with
  | nil => simp
  | cons c rest ih =>
      rw [List.cons_append, unmatched_cons, unmatched_cons, ih]
      cases Brace.ofChar? c with
      | none => rfl
      | some brace =>
          cases brace with
          | closing =>
              simp only [Prod.mk.injEq, and_true]
              omega
          | opening =>
              dsimp only
              by_cases own : (unmatched rest).1 = 0
              · by_cases far : (unmatched right).1 ≤ (unmatched rest).2
                · rw [if_pos (by omega), if_pos own, Prod.mk.injEq]
                  omega
                · rw [if_neg (by omega), if_pos own, Prod.mk.injEq]
                  omega
              · rw [if_neg (by omega), if_neg own, Prod.mk.injEq]
                omega

theorem depthChange_cons (c : Char) (rest : Line) :
    depthChange (c :: rest) =
      (match Brace.ofChar? c with
        | none => 0
        | some brace => brace.weight) + depthChange rest := by
  rw [depthChange_eq, depthChange_eq, unmatched_cons]
  cases Brace.ofChar? c with
  | none => exact (Int.zero_add _).symm
  | some brace =>
      cases brace with
      | closing =>
          dsimp only [Brace.weight]
          omega
      | opening =>
          dsimp only [Brace.weight]
          split
          · dsimp only
            omega
          · dsimp only
            omega

/-- Some prefix of a text is as deep below its start as the text has closing braces too many. -/
theorem exists_depthChange_take (text : Line) :
    ∃ count ≤ text.length, depthChange (text.take count) = -(unmatched text).1 := by
  induction text with
  | nil => exact ⟨0, Nat.zero_le _, rfl⟩
  | cons c rest ih =>
      obtain ⟨count, inside, deep⟩ := ih
      have longer := depthChange_cons c (rest.take count)
      rw [unmatched_cons]
      cases found : Brace.ofChar? c with
      | none =>
          refine ⟨count + 1, Nat.succ_le_succ inside, ?_⟩
          rw [List.take_succ_cons, longer, deep, found]
          exact Int.zero_add _
      | some brace =>
          cases brace with
          | closing =>
              refine ⟨count + 1, Nat.succ_le_succ inside, ?_⟩
              rw [List.take_succ_cons, longer, deep, found]
              dsimp only [Brace.weight]
              omega
          | opening =>
              dsimp only
              split
              · exact ⟨0, Nat.zero_le _, rfl⟩
              · refine ⟨count + 1, Nat.succ_le_succ inside, ?_⟩
                rw [List.take_succ_cons, longer, deep, found]
                dsimp only [Brace.weight]
                omega

/-- A text closes no brace that another text has opened exactly if the depth never falls below where
it was at the start. -/
theorem unmatched_fst_eq_zero_iff (text : Line) :
    (unmatched text).1 = 0 ↔ ∀ count, 0 ≤ depthChange (text.take count) := by
  constructor
  · intro none_closed count
    have whole := congrArg Prod.fst (unmatched_append (text.take count) (text.drop count))
    rw [List.take_append_drop] at whole
    rw [depthChange_eq]
    omega
  · intro above
    obtain ⟨count, -, deep⟩ := exists_depthChange_take text
    have := above count
    omega

/-- A text takes what it leaves open from the stack and puts its own closing braces on it. -/
theorem pairText_waiting (line col : Nat) (text : Line) (waiting : List Spot) :
    ∃ own : List Spot, own.length = (unmatched text).1 ∧ (∀ close ∈ own, close.line = line) ∧
      (pairText line col text waiting).2 = own ++ waiting.drop (leftOpen text) := by
  induction text generalizing col with
  | nil => exact ⟨[], rfl, by simp, by simp [leftOpen]⟩
  | cons c rest ih =>
      obtain ⟨own, count, here, stack⟩ := ih (col + 1)
      rw [pairText_cons, leftOpen, unmatched_cons]
      cases Brace.ofChar? c with
      | none => exact ⟨own, count, here, stack⟩
      | some brace =>
          cases brace with
          | closing =>
              refine ⟨⟨line, col⟩ :: own, by simp [count], ?_, ?_⟩
              · intro close h
                rcases List.mem_cons.mp h with rfl | h
                · rfl
                · exact here close h
              · simp [meetBrace, stack, leftOpen]
          | opening =>
              cases own with
              | nil =>
                  have none_left : (unmatched rest).1 = 0 := count.symm
                  refine ⟨[], by simp [none_left], by simp, ?_⟩
                  simp [meetBrace, stack, leftOpen, none_left]
              | cons close own =>
                  have some_left : (unmatched rest).1 = own.length + 1 := count.symm
                  refine ⟨own, by simp [some_left], fun other h => here other (by simp [h]), ?_⟩
                  simp [meetBrace, stack, leftOpen, some_left]

/-- What a text puts on the stack does not depend on the stack. -/
theorem pairText_stack (line col : Nat) (text : Line) (waiting : List Spot) :
    (pairText line col text waiting).2 =
      (pairText line col text []).2 ++ waiting.drop (leftOpen text) := by
  induction text generalizing col with
  | nil => rfl
  | cons c rest ih =>
      obtain ⟨own, count, -, stack⟩ := pairText_waiting line (col + 1) rest []
      rw [List.drop_nil, List.append_nil] at stack
      rw [pairText_cons, pairText_cons, leftOpen, unmatched_cons]
      cases Brace.ofChar? c with
      | none => exact ih (col + 1)
      | some brace =>
          cases brace with
          | closing =>
              simp only [meetBrace, ih (col + 1), List.cons_append]
              rfl
          | opening =>
              simp only [meetBrace, ih (col + 1), stack, ← count]
              cases own with
              | nil => simp [leftOpen]
              | cons close own => rfl

/-- A spot whose line has another number. -/
def Spot.move (place : Nat → Nat) (spot : Spot) : Spot :=
  ⟨place spot.line, spot.col⟩

theorem pairText_move (place : Nat → Nat) (line col : Nat) (text : Line) :
    (pairText (place line) col text []).2 =
      ((pairText line col text []).2).map (Spot.move place) := by
  induction text generalizing col with
  | nil => rfl
  | cons c rest ih =>
      rw [pairText_cons, pairText_cons]
      cases Brace.ofChar? c with
      | none => exact ih (col + 1)
      | some brace =>
          cases brace with
          | closing =>
              simp only [meetBrace, ih (col + 1), List.map_cons]
              rfl
          | opening => simp only [meetBrace, ih (col + 1), List.map_tail]

/-- A text that gets another number gives it to what it puts on the stack. -/
theorem pairText_map_move (place : Nat → Nat) (line col : Nat) (text : Line)
    (waiting : List Spot) :
    (pairText (place line) col text (waiting.map (Spot.move place))).2 =
      ((pairText line col text waiting).2).map (Spot.move place) := by
  rw [pairText_stack, pairText_stack line col text waiting, pairText_move, List.map_append,
    List.map_drop]

/-- The stack before a text that is put together of two. -/
theorem pairText_append (line col : Nat) (front back : Line) (waiting : List Spot) :
    (pairText line col (front ++ back) waiting).2 =
      (pairText line col front (pairText line (col + front.length) back waiting).2).2 := by
  induction front generalizing col with
  | nil => rfl
  | cons c rest ih =>
      rw [List.cons_append, pairText_cons, pairText_cons, List.length_cons,
        show col + (rest.length + 1) = col + 1 + rest.length by omega]
      cases Brace.ofChar? c with
      | none => exact ih (col + 1)
      | some brace =>
          cases brace with
          | closing => simp only [meetBrace, ih (col + 1)]
          | opening => simp only [meetBrace, ih (col + 1)]

theorem eq_of_ofChar?_closing {c : Char} (h : Brace.ofChar? c = some .closing) : c = '\x7d' := by
  unfold Brace.ofChar? at h
  split at h
  · cases h
  · split at h
    · assumption
    · cases h

/-- What waits before a text has waited behind it or is a closing brace of the text. -/
theorem mem_pairText_waiting {line col : Nat} {text : Line} {waiting : List Spot} {close : Spot}
    (h : close ∈ (pairText line col text waiting).2) :
    close ∈ waiting ∨
      close.line = line ∧ col ≤ close.col ∧ text[close.col - col]? = some '\x7d' := by
  induction text generalizing col with
  | nil => exact .inl h
  | cons c rest ih =>
      have later (mem : close ∈ (pairText line (col + 1) rest waiting).2) :
          close ∈ waiting ∨
            close.line = line ∧ col ≤ close.col ∧ (c :: rest)[close.col - col]? = some '\x7d' := by
        obtain behind | ⟨here, after, brace⟩ := ih mem
        · exact .inl behind
        · refine .inr ⟨here, by omega, ?_⟩
          rw [show close.col - col = close.col - (col + 1) + 1 by omega, List.getElem?_cons_succ]
          exact brace
      rw [pairText_cons] at h
      cases found : Brace.ofChar? c with
      | none =>
          rw [found] at h
          exact later h
      | some brace =>
          rw [found] at h
          cases brace with
          | closing =>
              rcases List.mem_cons.mp h with rfl | mem
              · refine .inr ⟨rfl, Nat.le_refl col, ?_⟩
                rw [Nat.sub_self, List.getElem?_cons_zero, eq_of_ofChar?_closing found]
              · exact later mem
          | opening => exact later (List.mem_of_mem_tail h)

/-- The opening braces of a text have partners exactly if the stack holds as many as the text leaves
open. -/
theorem partners_iff {line col : Nat} {text : Line} {waiting : List Spot} :
    (∀ brace ∈ (pairText line col text waiting).1, brace.partner.isSome) ↔
      leftOpen text ≤ waiting.length := by
  induction text generalizing col with
  | nil => simp [leftOpen]
  | cons c rest ih =>
      obtain ⟨own, count, -, stack⟩ := pairText_waiting line (col + 1) rest waiting
      rw [pairText_cons, leftOpen, unmatched_cons]
      cases Brace.ofChar? c with
      | none => exact ih
      | some brace =>
          cases brace with
          | closing => exact ih
          | opening =>
              dsimp only [meetBrace]
              rw [List.forall_mem_cons, ih, stack, ← count]
              cases own with
              | nil =>
                  simp only [List.nil_append, List.head?_drop, List.length_nil, if_true,
                    isSome_getElem?, leftOpen]
                  omega
              | cons close own =>
                  simp [leftOpen]

/-- Whether an opening brace is closed elsewhere than on the line, or not at all. -/
def Opening.leaves (line : Nat) (brace : Opening) : Bool :=
  brace.partner.map Spot.line ≠ some line

/-- The first opening brace that the line leaves open has the last partner that the text takes
from the stack. -/
theorem pairText_find (line col : Nat) (text : Line) {waiting : List Spot}
    (elsewhere : ∀ close ∈ waiting, close.line ≠ line) :
    ((pairText line col text waiting).1.find? (Opening.leaves line)).map Opening.partner =
      if leftOpen text = 0 then none else some waiting[leftOpen text - 1]? := by
  induction text generalizing col with
  | nil => rfl
  | cons c rest ih =>
      have rest_find := ih (col + 1)
      obtain ⟨own, count, here, stack⟩ := pairText_waiting line (col + 1) rest waiting
      rw [pairText_cons, leftOpen, unmatched_cons]
      cases Brace.ofChar? c with
      | none => exact rest_find
      | some brace =>
          cases brace with
          | closing => exact rest_find
          | opening =>
              cases own with
              | nil =>
                  have none_left : (unmatched rest).1 = 0 := count.symm
                  have partner : (pairText line (col + 1) rest waiting).2.head? =
                      waiting[leftOpen rest]? := by
                    rw [stack, List.nil_append, List.head?_drop]
                  have leaves : Opening.leaves line ⟨col, waiting[leftOpen rest]?⟩ = true := by
                    cases found : waiting[leftOpen rest]? with
                    | none => rfl
                    | some close =>
                        have := elsewhere close (List.mem_of_getElem? found)
                        simpa [Opening.leaves] using this
                  simp only [meetBrace, none_left, partner, if_true]
                  rw [List.find?_cons_of_pos leaves]
                  simp [leftOpen]
              | cons close own =>
                  have some_left : (unmatched rest).1 = own.length + 1 := count.symm
                  have closed : close.line = line := here close (by simp)
                  have stays : Opening.leaves line ⟨col, some close⟩ = false := by
                    simp [Opening.leaves, closed]
                  have nonzero : ¬ (unmatched rest).1 = 0 := by omega
                  simp only [meetBrace, stack, List.cons_append, List.head?_cons, nonzero, if_false]
                  rw [List.find?_cons_of_neg (by simp [stays])]
                  exact rest_find

/-- The openings of a text stand in it. -/
theorem le_col_of_mem_pairText {line col : Nat} {text : Line} {waiting : List Spot}
    {brace : Opening} (mem : brace ∈ (pairText line col text waiting).1) : col ≤ brace.col := by
  induction text generalizing col with
  | nil => cases mem
  | cons c rest ih =>
      rw [pairText_cons] at mem
      cases found : Brace.ofChar? c with
      | none =>
          rw [found] at mem
          have := ih mem
          omega
      | some kind =>
          rw [found] at mem
          cases kind with
          | closing =>
              have := ih mem
              omega
          | opening =>
              rcases List.mem_cons.mp mem with rfl | mem
              · exact Nat.le_refl _
              · have := ih mem
                omega

/-- The openings at or after a column are those of the rest of the text. -/
theorem filter_pairText (line : Nat) {col fromCol : Nat} (text : Line) (waiting : List Spot)
    (le : col ≤ fromCol) :
    (pairText line col text waiting).1.filter (fun brace => fromCol ≤ brace.col) =
      (pairText line fromCol (text.drop (fromCol - col)) waiting).1 := by
  induction text generalizing col with
  | nil => simp
  | cons c rest ih =>
      rcases Nat.eq_or_lt_of_le le with rfl | lt
      · rw [Nat.sub_self, List.drop_zero]
        exact List.filter_eq_self.mpr fun brace mem => decide_eq_true (le_col_of_mem_pairText mem)
      · rw [show fromCol - col = fromCol - (col + 1) + 1 by omega, List.drop_succ_cons, ← ih lt,
          pairText_cons]
        cases Brace.ofChar? c with
        | none => rfl
        | some brace =>
            cases brace with
            | closing => rfl
            | opening =>
                have skipped : ¬ fromCol ≤ col := by omega
                simp [meetBrace, skipped]

namespace Source

/-- The closing braces that wait for a partner before line `line`, nearest first. -/
def waiting (source : Source) (line : Nat) : List Spot :=
  (pairLines (source.lines.toList.zipIdx.drop line)).2

theorem waiting_of_size_le {source : Source} {line : Nat} (h : source.size ≤ line) :
    source.waiting line = [] := by
  have : source.lines.toList.zipIdx.drop line = [] := by
    rw [List.drop_eq_nil_iff]
    simpa [size] using h
  simp [waiting, this, pairLines]

theorem drop_zipIdx {source : Source} {line : Nat} (h : line < source.size) :
    source.lines.toList.zipIdx.drop line =
      (source.line line, line) :: source.lines.toList.zipIdx.drop (line + 1) := by
  have bound : line < source.lines.toList.zipIdx.length := by simpa [size] using h
  have here : source.lines[line]? = some source.lines.toList[line] := Array.getElem?_eq_getElem h
  rw [List.drop_eq_getElem_cons bound, List.getElem_zipIdx, Nat.zero_add, Source.line,
    Source.line?, here, Option.getD_some]
  rfl

/-- A line pairs its braces against the stack behind it and leaves a stack for the line before. -/
theorem waiting_eq (source : Source) (line : Nat) :
    source.waiting line =
      (pairText line 0 (source.line line) (source.waiting (line + 1))).2 := by
  by_cases h : line < source.size
  · rw [waiting, drop_zipIdx h]
    rfl
  · have past : source.size ≤ line := Nat.le_of_not_lt h
    rw [waiting_of_size_le past, waiting_of_size_le (by omega), line_of_size_le past]
    rfl

theorem strays_pairing (source : Source) : source.pairing.strays = source.waiting 0 := by
  simp [pairing, waiting]

private theorem getElem?_pairLines (lines : List (Line × Nat)) (index : Nat) :
    (pairLines lines).1[index]? = lines[index]?.map fun line =>
      (pairLine line.2 line.1 (pairLines (lines.drop (index + 1))).2).1 := by
  induction lines generalizing index with
  | nil => simp [pairLines]
  | cons line rest ih =>
      cases index with
      | zero => simp [pairLines]
      | succ index =>
          simp only [List.getElem?_cons_succ, List.drop_succ_cons]
          rw [← ih index]
          rfl

theorem openingsOf_pairing (source : Source) (line : Nat) :
    source.pairing.openingsOf line =
      (pairText line 0 (source.line line) (source.waiting (line + 1))).1 := by
  simp only [Pairing.openingsOf, pairing, List.getElem?_toArray, getElem?_pairLines]
  by_cases h : line < source.size
  · have : source.lines[line]? = some source.lines[line] := Array.getElem?_eq_getElem h
    simp [List.getElem?_zipIdx, this, waiting, Source.line, Source.line?, pairLine_eq]
  · have : source.lines[line]? = none := Array.getElem?_eq_none (Nat.le_of_not_lt h)
    simp [List.getElem?_zipIdx, this, line_of_size_le (Nat.le_of_not_lt h)]

/-- The braces that wait before a line are on that line or behind it. -/
theorem le_line_of_mem_waiting {source : Source} {line : Nat} {close : Spot}
    (h : close ∈ source.waiting line) : line ≤ close.line ∧ close.line < source.size := by
  induction left : source.size - line using Nat.strongRecOn generalizing line with
  | ind n ih =>
      by_cases inside : line < source.size
      · obtain ⟨own, -, here, stack⟩ :=
          pairText_waiting line 0 (source.line line) (source.waiting (line + 1))
        rw [waiting_eq, stack, List.mem_append] at h
        rcases h with mine | behind
        · rw [here close mine]
          exact ⟨Nat.le_refl line, inside⟩
        · have := ih (source.size - (line + 1)) (by omega) (List.mem_of_mem_drop behind) rfl
          omega
      · rw [waiting_of_size_le (Nat.le_of_not_lt inside)] at h
        cases h

/-- What waits is a closing brace of the source. -/
theorem brace_of_mem_waiting {source : Source} {line : Nat} {close : Spot}
    (h : close ∈ source.waiting line) :
    (source.line close.line)[close.col]? = some '\x7d' := by
  induction left : source.size - line using Nat.strongRecOn generalizing line with
  | ind n ih =>
      by_cases inside : line < source.size
      · rw [waiting_eq] at h
        obtain behind | ⟨here, -, brace⟩ := mem_pairText_waiting h
        · exact ih (source.size - (line + 1)) (by omega) behind rfl
        · rw [here]
          exact brace
      · rw [waiting_of_size_le (Nat.le_of_not_lt inside)] at h
        cases h

theorem waiting_elsewhere (source : Source) (line : Nat) :
    ∀ close ∈ source.waiting (line + 1), close.line ≠ line := by
  intro close h
  have := le_line_of_mem_waiting h
  omega

/-- The stack is in reading order. -/
theorem waiting_sorted (source : Source) (line : Nat) :
    (source.waiting line).Pairwise fun near far => near.line ≤ far.line := by
  induction left : source.size - line using Nat.strongRecOn generalizing line with
  | ind n ih =>
      by_cases inside : line < source.size
      · obtain ⟨own, -, here, stack⟩ :=
          pairText_waiting line 0 (source.line line) (source.waiting (line + 1))
        rw [waiting_eq, stack, List.pairwise_append]
        refine ⟨?_, ?_, ?_⟩
        · refine List.Pairwise.imp_of_mem ?_ (List.pairwise_of_forall fun _ _ => trivial)
          intro near far mine mine' _
          exact Nat.le_of_eq ((here near mine).trans (here far mine').symm)
        · exact (ih (source.size - (line + 1)) (by omega) (line + 1) rfl).sublist
            (List.drop_sublist _ _)
        · intro near mine far behind
          have := le_line_of_mem_waiting (List.mem_of_mem_drop behind)
          rw [here near mine]
          omega
      · rw [waiting_of_size_le (Nat.le_of_not_lt inside)]
        exact .nil

/-- A brace waits until its own line is reached. -/
theorem mem_waiting_of_le {source : Source} {line later : Nat} {close : Spot}
    (h : close ∈ source.waiting line) (le : line ≤ later) (upto : later ≤ close.line) :
    close ∈ source.waiting later := by
  induction le with
  | refl => exact h
  | @step later _ ih =>
      have before := ih (by omega)
      obtain ⟨own, -, here, stack⟩ :=
        pairText_waiting later 0 (source.line later) (source.waiting (later + 1))
      rw [waiting_eq, stack, List.mem_append] at before
      rcases before with mine | behind
      · have := here close mine
        omega
      · exact List.mem_of_mem_drop behind

/-- The end of a block is the partner of the first opening brace that the line leaves open. -/
theorem closeOf_eq_bind (pairing : Pairing) (line fromCol limit : Nat) :
    pairing.closeOf line fromCol limit =
      (((pairing.openingsOf line).filter fun brace => fromCol ≤ brace.col).find?
        (Opening.leaves line)).bind fun brace =>
          brace.partner.filter fun close => line < close.line && close.line < limit := by
  have leaves : (fun brace : Opening => decide (brace.partner.map Spot.line ≠ some line)) =
      Opening.leaves line := rfl
  rw [Pairing.closeOf, leaves]
  cases ((pairing.openingsOf line).filter fun brace => fromCol ≤ brace.col).find?
      (Opening.leaves line) with
  | none => rfl
  | some brace => rfl

/-- The brace that ends the block which a line opens at or after a column is the last one that
the rest of the line takes from the stack. -/
theorem closeOf_pairing (source : Source) (line fromCol limit : Nat) :
    source.pairing.closeOf line fromCol limit =
      if leftOpen ((source.line line).drop fromCol) = 0 then none
      else
        (source.waiting (line + 1))[leftOpen ((source.line line).drop fromCol) - 1]?.filter
          fun close => close.line < limit := by
  have found := pairText_find line fromCol ((source.line line).drop fromCol)
    (waiting_elsewhere source line)
  rw [closeOf_eq_bind, openingsOf_pairing, filter_pairText line _ _ (Nat.zero_le fromCol),
    Nat.sub_zero]
  split at found
  · next closed =>
    rw [Option.map_eq_none_iff] at found
    simp [found, closed]
  · next opened =>
    obtain ⟨brace, first, partner⟩ := Option.map_eq_some_iff.mp found
    rw [first, if_neg opened, Option.bind_some, partner]
    cases last : (source.waiting (line + 1))[leftOpen ((source.line line).drop fromCol) - 1]? with
    | none => rfl
    | some close =>
        have := le_line_of_mem_waiting (List.mem_of_getElem? last)
        have later : line < close.line := by omega
        simp [Option.filter, later]

/-- The brace that ends a block waits behind the line that opens the block. -/
theorem mem_waiting_of_closeOf {source : Source} {line fromCol limit : Nat} {close : Spot}
    (found : source.pairing.closeOf line fromCol limit = some close) :
    close ∈ source.waiting (line + 1) := by
  rw [closeOf_pairing] at found
  split at found
  · cases found
  · rw [Option.filter_eq_some_iff] at found
    exact List.mem_of_getElem? found.1

end Source

end LineScript
