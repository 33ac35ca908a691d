import LineScript.Proofs.Waiting

/-!
# Pairs of braces and the depth of a text

The braces of a source are paired with a stack. `Source.Closes` says what the pairs are without
one: the brace that closes an opening brace is the first closing brace behind it at which as many
braces have been closed since that opening brace as were opened. `Source.pairsAsScanned` proves that
these are the pairs on record, whether the source is balanced or not, and reads off the end of a
block.

Both are compared on the list of all characters of the source in reading order, `Source.places`.
What is left of a list when its pairs are taken out is `unclosed`, and it is the stack that the
lines behind hand to a line. The brace at depth `n` of that stack is the first one at which the text
has closed `n` braces more than it opened, which is proved once, for all depths.
-/

namespace LineScript

namespace Spot

variable {a b c : Spot}

theorem Before.trans (first : a.Before b) (second : b.Before c) : a.Before c := by
  unfold Before at *
  omega

theorem Before.irrefl (a : Spot) : ¬ a.Before a := by
  unfold Before
  omega

/-- Of two places one comes first. -/
theorem before_or_eq_or_before (a b : Spot) : a.Before b ∨ a = b ∨ b.Before a := by
  obtain ⟨line, col⟩ := a
  obtain ⟨line', col'⟩ := b
  simp only [Before, mk.injEq]
  omega

end Spot

/-- The characters of a text that begins in column `col`, with their places. -/
def placesAt (line col : Nat) (text : Line) : List (Spot × Char) :=
  (text.zipIdx col).map fun (c, col) => (⟨line, col⟩, c)

/-- The characters of lines with their places, in reading order. -/
def placesOf (lines : List (Line × Nat)) : List (Spot × Char) :=
  lines.flatMap fun line => placesAt line.2 0 line.1

/-- All characters of a source with their places, in reading order. -/
def Source.places (source : Source) : List (Spot × Char) :=
  placesOf source.lines.toList.zipIdx

/-- How many braces a text opens. -/
def opened (text : List (Spot × Char)) : Nat :=
  text.countP fun place => place.2 = '{'

/-- How many braces a text closes. -/
def closed (text : List (Spot × Char)) : Nat :=
  text.countP fun place => place.2 = '}'

/-- From the character with the number `first` up to the one with the number `last`, both included,
as many braces are closed as opened. -/
def Source.Level (source : Source) (first last : Nat) : Prop :=
  closed ((source.places.take (last + 1)).drop first) =
    opened ((source.places.take (last + 1)).drop first)

/-- `source.Closes opening closing`: there is an opening brace at `opening`, and the first closing
brace behind it at which the text since then is level stands at `closing`. -/
def Source.Closes (source : Source) (opening closing : Spot) : Prop :=
  ∃ first last, source.places[first]? = some (opening, '{') ∧
    source.places[last]? = some (closing, '}') ∧ first < last ∧ source.Level first last ∧
    ∀ between spot, first < between → between < last →
      source.places[between]? = some (spot, '}') → ¬ source.Level first between

/-- The closing braces of a text that nothing in it opens, in reading order. -/
def unclosed (text : List (Spot × Char)) : List Spot :=
  text.foldr (fun place stack =>
    match Brace.ofChar? place.2 with
    | none => stack
    | some .closing => place.1 :: stack
    | some .opening => stack.tail) []

/-! ## The stack of a text -/

@[simp] theorem placesAt_nil (line col : Nat) : placesAt line col [] = [] := rfl

theorem placesAt_cons (line col : Nat) (c : Char) (rest : Line) :
    placesAt line col (c :: rest) = (⟨line, col⟩, c) :: placesAt line (col + 1) rest := rfl

@[simp] theorem unclosed_nil : unclosed [] = [] := rfl

theorem unclosed_cons (spot : Spot) (c : Char) (rest : List (Spot × Char)) :
    unclosed ((spot, c) :: rest) =
      match Brace.ofChar? c with
      | none => unclosed rest
      | some .closing => spot :: unclosed rest
      | some .opening => (unclosed rest).tail := rfl

theorem unclosed_opening (spot : Spot) (rest : List (Spot × Char)) :
    unclosed ((spot, '{') :: rest) = (unclosed rest).tail := rfl

theorem unclosed_closing (spot : Spot) (rest : List (Spot × Char)) :
    unclosed ((spot, '}') :: rest) = spot :: unclosed rest := rfl

theorem unclosed_other {c : Char} (open_ne : c ≠ '{') (close_ne : c ≠ '}') (spot : Spot)
    (rest : List (Spot × Char)) : unclosed ((spot, c) :: rest) = unclosed rest := by
  rw [unclosed_cons, Brace.ofChar?, if_neg open_ne, if_neg close_ne]

theorem opened_cons (spot : Spot) (c : Char) (rest : List (Spot × Char)) :
    opened ((spot, c) :: rest) = opened rest + if c = '{' then 1 else 0 := by
  simp [opened, List.countP_cons]

theorem closed_cons (spot : Spot) (c : Char) (rest : List (Spot × Char)) :
    closed ((spot, c) :: rest) = closed rest + if c = '}' then 1 else 0 := by
  simp [closed, List.countP_cons]

/-- `FirstAbove depth text spot`: the first closing brace of the text in front of which `depth`
braces more have been closed than opened stands at `spot`. -/
def FirstAbove (depth : Nat) (text : List (Spot × Char)) (spot : Spot) : Prop :=
  ∃ index, text[index]? = some (spot, '}') ∧
    closed (text.take index) = opened (text.take index) + depth ∧
    ∀ earlier other, earlier < index → text[earlier]? = some (other, '}') →
      closed (text.take earlier) ≠ opened (text.take earlier) + depth

/-- The first such brace of a text without its first character, which is not the one looked for. -/
theorem firstAbove_cons {depth below : Nat} {first spot : Spot} {c : Char}
    {rest : List (Spot × Char)} (passed : ¬ (c = '}' ∧ depth = 0))
    (shift : ∀ more fewer : Nat, more + (if c = '}' then 1 else 0) =
      fewer + (if c = '{' then 1 else 0) + depth ↔ more = fewer + below) :
    FirstAbove depth ((first, c) :: rest) spot ↔ FirstAbove below rest spot := by
  have level (index : Nat) :
      closed (((first, c) :: rest).take (index + 1)) =
        opened (((first, c) :: rest).take (index + 1)) + depth ↔
      closed (rest.take index) = opened (rest.take index) + below := by
    rw [List.take_succ_cons, closed_cons, opened_cons]
    exact shift _ _
  constructor
  · rintro ⟨index, here, equal, least⟩
    cases index with
    | zero =>
        cases here
        refine absurd ⟨rfl, ?_⟩ passed
        simpa [closed, opened] using equal.symm
    | succ index =>
        refine ⟨index, here, (level index).mp equal, fun earlier other lt there same => ?_⟩
        exact least (earlier + 1) other (by omega) there ((level earlier).mpr same)
  · rintro ⟨index, here, equal, least⟩
    refine ⟨index + 1, here, (level index).mpr equal, fun earlier other lt there same => ?_⟩
    cases earlier with
    | zero =>
        cases there
        refine passed ⟨rfl, ?_⟩
        simpa [closed, opened] using same.symm
    | succ earlier =>
        exact least earlier other (by omega) there ((level earlier).mp same)

/-- The stack holds, at each depth, the first closing brace that rises above it. -/
theorem unclosed_getElem?_iff (text : List (Spot × Char)) (depth : Nat) (spot : Spot) :
    (unclosed text)[depth]? = some spot ↔ FirstAbove depth text spot := by
  induction text generalizing depth with
  | nil => simp [FirstAbove]
  | cons place rest ih =>
      obtain ⟨first, c⟩ := place
      by_cases closing : c = '}'
      · subst closing
        rw [unclosed_closing]
        cases depth with
        | zero =>
            rw [List.getElem?_cons_zero]
            constructor
            · intro same
              cases same
              exact ⟨0, rfl, rfl, fun earlier _ lt => absurd lt (Nat.not_lt_zero earlier)⟩
            · rintro ⟨index, here, -, least⟩
              cases index with
              | zero =>
                  cases here
                  rfl
              | succ index => exact absurd rfl (least 0 first (Nat.succ_pos index) rfl)
        | succ depth =>
            rw [List.getElem?_cons_succ, ih]
            refine (firstAbove_cons (by simp) fun more fewer => ?_).symm
            simp only [if_true, show ('}' : Char) ≠ '{' by decide, if_false]
            omega
      · by_cases opening : c = '{'
        · subst opening
          rw [unclosed_opening, List.getElem?_tail, ih]
          refine (firstAbove_cons (fun both => closing both.1) fun more fewer => ?_).symm
          simp only [if_true, closing, if_false]
          omega
        · rw [unclosed_other opening closing, ih]
          refine (firstAbove_cons (fun both => closing both.1) fun more fewer => ?_).symm
          simp only [closing, opening, if_false]
          omega

/-! ## Pairs -/

/-- What splits a list at an element splits it at its head or in its tail. -/
theorem exists_split_cons {α : Type} {P : List α → Prop} {x first : α} {rest : List α} :
    (∃ front back, first :: rest = front ++ x :: back ∧ P back) ↔
      (first = x ∧ P rest) ∨ ∃ front back, rest = front ++ x :: back ∧ P back := by
  constructor
  · rintro ⟨front, back, split, holds⟩
    cases front with
    | nil =>
        obtain ⟨rfl, rfl⟩ := List.cons.inj split
        exact .inl ⟨rfl, holds⟩
    | cons other front =>
        exact .inr ⟨front, back, (List.cons.inj split).2, holds⟩
  · rintro (⟨rfl, holds⟩ | ⟨front, back, rfl, holds⟩)
    · exact ⟨[], rest, rfl, holds⟩
    · exact ⟨first :: front, back, rfl, holds⟩

/-- The two places of a pair of braces: the stack behind the opening brace begins with the closing
one. -/
def Pairs (text : List (Spot × Char)) (opening closing : Spot) : Prop :=
  ∃ front back, text = front ++ (opening, '{') :: back ∧ (unclosed back).head? = some closing

/-- The places of a text are in reading order. -/
def InOrder (text : List (Spot × Char)) : Prop :=
  text.Pairwise fun near far => near.1.Before far.1

theorem pairs_cons {place : Spot × Char} {rest : List (Spot × Char)} {opening closing : Spot} :
    Pairs (place :: rest) opening closing ↔
      (place = (opening, '{') ∧ (unclosed rest).head? = some closing) ∨
        Pairs rest opening closing :=
  exists_split_cons

/-- What waits is a closing brace of the text. -/
theorem mem_of_mem_unclosed {text : List (Spot × Char)} {spot : Spot} (mem : spot ∈ unclosed text) :
    (spot, '}') ∈ text := by
  obtain ⟨depth, here⟩ := List.mem_iff_getElem?.mp mem
  obtain ⟨index, found, -⟩ := (unclosed_getElem?_iff text depth spot).mp here
  exact List.mem_of_getElem? found

theorem unclosed_sorted {text : List (Spot × Char)} (sorted : InOrder text) :
    (unclosed text).Pairwise Spot.Before := by
  induction text with
  | nil => exact .nil
  | cons place rest ih =>
      obtain ⟨spot, c⟩ := place
      obtain ⟨first, later⟩ := List.pairwise_cons.mp sorted
      rw [unclosed_cons]
      cases Brace.ofChar? c with
      | none => exact ih later
      | some brace =>
          cases brace with
          | closing => exact .cons (fun far mem => first _ (mem_of_mem_unclosed mem)) (ih later)
          | opening => exact (ih later).tail

namespace Pairs

variable {text : List (Spot × Char)} {opening closing opening' closing' : Spot}

theorem mem_opening (pair : Pairs text opening closing) : (opening, '{') ∈ text := by
  obtain ⟨front, back, rfl, -⟩ := pair
  simp

/-- The closing brace of a pair comes behind the opening one. -/
theorem before (sorted : InOrder text) (pair : Pairs text opening closing) :
    opening.Before closing := by
  obtain ⟨front, back, rfl, partner⟩ := pair
  have behind := (List.pairwise_append.mp sorted).2.1
  exact (List.pairwise_cons.mp behind).1 _ (mem_of_mem_unclosed (List.mem_of_head? partner))

/-- Whatever waits in front of a text stands outside its pairs. -/
theorem waiting_outside (sorted : InOrder text) (pair : Pairs text opening closing) {spot : Spot}
    (mem : spot ∈ unclosed text) : spot.Before opening ∨ closing.Before spot := by
  induction text with
  | nil => cases mem
  | cons place rest ih =>
      obtain ⟨first, later⟩ := List.pairwise_cons.mp sorted
      obtain ⟨rfl, partner⟩ | inRest := pairs_cons.mp pair
      · rw [unclosed_opening] at mem
        cases stack : unclosed rest with
        | nil =>
            rw [stack] at partner
            cases partner
        | cons top below =>
            have ordered := unclosed_sorted later
            rw [stack] at partner mem ordered
            cases partner
            exact .inr ((List.pairwise_cons.mp ordered).1 spot mem)
      · obtain ⟨start, c⟩ := place
        rw [unclosed_cons] at mem
        cases kind : Brace.ofChar? c with
        | none =>
            rw [kind] at mem
            exact ih later inRest mem
        | some brace =>
            rw [kind] at mem
            cases brace with
            | closing =>
                rcases List.mem_cons.mp mem with rfl | mem
                · exact .inl (first _ inRest.mem_opening)
                · exact ih later inRest mem
            | opening => exact ih later inRest (List.mem_of_mem_tail mem)

/-- Of two pairs the one that begins later lies inside the other or behind it. -/
theorem apart (sorted : InOrder text) (pair : Pairs text opening closing)
    (pair' : Pairs text opening' closing') (order : opening.Before opening') :
    closing'.Before closing ∨ closing.Before opening' := by
  induction text with
  | nil =>
      obtain ⟨front, back, split, -⟩ := pair
      simp at split
  | cons place rest ih =>
      obtain ⟨first, later⟩ := List.pairwise_cons.mp sorted
      obtain ⟨rfl, partner⟩ | inRest := pairs_cons.mp pair
      · obtain ⟨same, -⟩ | inRest' := pairs_cons.mp pair'
        · cases same
          exact absurd order (Spot.Before.irrefl _)
        · exact (waiting_outside later inRest' (List.mem_of_head? partner)).symm
      · obtain ⟨rfl, -⟩ | inRest' := pairs_cons.mp pair'
        · exact absurd (order.trans (first _ inRest.mem_opening)) (Spot.Before.irrefl _)
        · exact ih later inRest inRest'

/-- A closing brace closes one opening brace. -/
theorem opening_unique (sorted : InOrder text) (pair : Pairs text opening closing)
    (pair' : Pairs text opening' closing) : opening = opening' := by
  have none_between {near far : Spot} (early : Pairs text near closing)
      (late : Pairs text far closing) : ¬ near.Before far := by
    intro order
    rcases apart sorted early late order with self | past
    · exact Spot.Before.irrefl _ self
    · exact Spot.Before.irrefl _ (past.trans (late.before sorted))
  rcases Spot.before_or_eq_or_before opening opening' with order | same | order
  · exact absurd order (none_between pair pair')
  · exact same
  · exact absurd order (none_between pair' pair)

end Pairs

/-! ## Openings of a line -/

/-- The stack in front of a text, where the stack behind it is that of another text. -/
theorem pairText_unclosed (line col : Nat) (text : Line) (behind : List (Spot × Char)) :
    (pairText line col text (unclosed behind)).2 =
      unclosed (placesAt line col text ++ behind) := by
  induction text generalizing col with
  | nil => rfl
  | cons c rest ih =>
      rw [pairText_cons, placesAt_cons, List.cons_append, unclosed_cons, ← ih (col + 1)]
      cases Brace.ofChar? c with
      | none => rfl
      | some brace => cases brace <;> rfl

/-- The stack in front of lines. -/
theorem pairLines_unclosed (lines : List (Line × Nat)) :
    (pairLines lines).2 = unclosed (placesOf lines) := by
  induction lines with
  | nil => rfl
  | cons line rest ih =>
      have step : (pairLines (line :: rest)).2 =
          (pairText line.2 0 line.1 (pairLines rest).2).2 := rfl
      rw [step, ih, pairText_unclosed]
      rfl

theorem eq_of_ofChar?_opening {c : Char} (h : Brace.ofChar? c = some .opening) : c = '{' := by
  unfold Brace.ofChar? at h
  split at h
  · assumption
  · split at h <;> cases h

/-- An opening on record stands where the text has an opening brace, and its partner is the nearest
closing brace that the text behind it does not open. -/
theorem mem_pairText_iff {line col : Nat} {text : Line} {behind : List (Spot × Char)}
    {brace : Opening} :
    brace ∈ (pairText line col text (unclosed behind)).1 ↔
      ∃ front back, placesAt line col text = front ++ (⟨line, brace.col⟩, '{') :: back ∧
        brace.partner = (unclosed (back ++ behind)).head? := by
  induction text generalizing col with
  | nil => simp
  | cons c rest ih =>
      rw [placesAt_cons, exists_split_cons, ← ih, pairText_cons]
      cases kind : Brace.ofChar? c with
      | none =>
          have other : c ≠ '{' := by
            rintro rfl
            cases kind
          simp [other]
      | some brace' =>
          cases brace' with
          | closing =>
              have other : c ≠ '{' := by
                rintro rfl
                cases kind
              simp [meetBrace, other]
          | opening =>
              have same := eq_of_ofChar?_opening kind
              have stack := pairText_unclosed line (col + 1) rest behind
              obtain ⟨at', partner⟩ := brace
              simp only [meetBrace, List.mem_cons, stack, same, Opening.mk.injEq, Prod.mk.injEq,
                Spot.mk.injEq, true_and, and_true, eq_comm (a := col)]

/-- The openings of a text are on record from left to right. -/
theorem pairText_sorted (line col : Nat) (text : Line) (waiting : List Spot) :
    (pairText line col text waiting).1.Pairwise fun left right => left.col < right.col := by
  induction text generalizing col with
  | nil => exact .nil
  | cons c rest ih =>
      rw [pairText_cons]
      cases Brace.ofChar? c with
      | none => exact ih (col + 1)
      | some brace =>
          cases brace with
          | closing => exact ih (col + 1)
          | opening => exact .cons (fun right mem => le_col_of_mem_pairText mem) (ih (col + 1))

/-! ## Places of a source -/

theorem mem_placesAt {line col : Nat} {text : Line} {place : Spot × Char} :
    place ∈ placesAt line col text ↔
      place.1.line = line ∧ col ≤ place.1.col ∧ text[place.1.col - col]? = some place.2 := by
  obtain ⟨⟨line', col'⟩, c⟩ := place
  simp only [placesAt, List.mem_map, Prod.exists, List.mem_zipIdx_iff_le_and_getElem?_sub,
    Prod.mk.injEq, Spot.mk.injEq]
  constructor
  · rintro ⟨c', col'', ⟨le, here⟩, ⟨rfl, rfl⟩, rfl⟩
    exact ⟨rfl, le, here⟩
  · rintro ⟨rfl, le, here⟩
    exact ⟨c, col', ⟨le, here⟩, ⟨rfl, rfl⟩, rfl⟩

theorem placesAt_sorted (line col : Nat) (text : Line) : InOrder (placesAt line col text) := by
  induction text generalizing col with
  | nil => exact .nil
  | cons c rest ih =>
      rw [placesAt_cons]
      refine .cons (fun place mem => ?_) (ih (col + 1))
      have := mem_placesAt.mp mem
      exact .inr ⟨this.1.symm, this.2.1⟩

namespace Source

variable {source : Source} {line : Nat}

/-- The places in front of a line, on it and behind it. -/
theorem places_eq (inside : line < source.size) :
    source.places = placesOf (source.lines.toList.zipIdx.take line) ++
      (placesAt line 0 (source.line line) ++
        placesOf (source.lines.toList.zipIdx.drop (line + 1))) := by
  have split := List.take_append_drop line source.lines.toList.zipIdx
  rw [drop_zipIdx inside] at split
  rw [places, ← split, placesOf, List.flatMap_append, List.flatMap_cons, split]
  rfl

theorem mem_places {place : Spot × Char} :
    place ∈ source.places ↔ (source.line place.1.line)[place.1.col]? = some place.2 := by
  have at_line (text : Line) : (text, place.1.line) ∈ source.lines.toList.zipIdx ↔
      source.lines[place.1.line]? = some text := by
    rw [List.mem_zipIdx_iff_getElem?, Array.getElem?_toList]
  simp only [places, placesOf, List.mem_flatMap, Prod.exists, mem_placesAt, Nat.zero_le, true_and,
    Nat.sub_zero]
  constructor
  · rintro ⟨text, _, mem, rfl, here⟩
    rw [line, line?, (at_line text).mp mem]
    exact here
  · intro here
    cases found : source.lines[place.1.line]? with
    | none => simp [line, line?, found] at here
    | some text =>
        rw [line, line?, found] at here
        exact ⟨text, _, (at_line text).mpr found, rfl, here⟩

/-- The places are in reading order. -/
theorem places_sorted (source : Source) : InOrder source.places := by
  rw [InOrder, places, placesOf, List.pairwise_flatMap]
  refine ⟨fun line _ => placesAt_sorted _ _ _, ?_⟩
  rw [List.pairwise_iff_getElem]
  intro first second inFirst inSecond lt near memNear far memFar
  rw [List.getElem_zipIdx] at memNear memFar
  left
  rw [(mem_placesAt.mp memNear).1, (mem_placesAt.mp memFar).1]
  omega

/-- No two places are the same. -/
theorem place_unique {first second : Nat} {spot : Spot} {c d : Char}
    (here : source.places[first]? = some (spot, c))
    (there : source.places[second]? = some (spot, d)) : first = second := by
  obtain ⟨inFirst, isFirst⟩ := List.getElem?_eq_some_iff.mp here
  obtain ⟨inSecond, isSecond⟩ := List.getElem?_eq_some_iff.mp there
  have sorted := List.pairwise_iff_getElem.mp source.places_sorted
  rcases Nat.lt_trichotomy first second with lt | eq | gt
  · have before := sorted first second inFirst inSecond lt
    rw [isFirst, isSecond] at before
    exact absurd before (Spot.Before.irrefl spot)
  · exact eq
  · have before := sorted second first inSecond inFirst gt
    rw [isFirst, isSecond] at before
    exact absurd before (Spot.Before.irrefl spot)

/-- The places are split at a spot in one way. -/
theorem split_unique {front back front' back' : List (Spot × Char)} {spot : Spot} {c d : Char}
    (split : source.places = front ++ (spot, c) :: back)
    (split' : source.places = front' ++ (spot, d) :: back') : front = front' ∧ back = back' := by
  have number : front.length = front'.length := by
    refine @place_unique source front.length front'.length spot c d ?_ ?_
    · rw [split]
      simp
    · rw [split']
      simp
  obtain ⟨fronts, rests⟩ := List.append_inj (split.symm.trans split') number
  exact ⟨fronts, (List.cons.inj rests).2⟩

/-- What is on record for an opening brace of a line. -/
theorem mem_openingsOf_iff {brace : Opening} :
    brace ∈ source.pairing.openingsOf line ↔
      ∃ front back, source.places = front ++ (⟨line, brace.col⟩, '{') :: back ∧
        brace.partner = (unclosed back).head? := by
  have stack : source.waiting (line + 1) =
      unclosed (placesOf (source.lines.toList.zipIdx.drop (line + 1))) := pairLines_unclosed _
  have whole {front back : List (Spot × Char)} (inside : line < source.size)
      (split : placesAt line 0 (source.line line) = front ++ (⟨line, brace.col⟩, '{') :: back) :
      source.places = (placesOf (source.lines.toList.zipIdx.take line) ++ front) ++
        (⟨line, brace.col⟩, '{') ::
          (back ++ placesOf (source.lines.toList.zipIdx.drop (line + 1))) := by
    rw [places_eq inside, split]
    simp
  rw [openingsOf_pairing, stack, mem_pairText_iff]
  constructor
  · rintro ⟨front, back, split, partner⟩
    by_cases inside : line < source.size
    · exact ⟨_, _, whole inside split, partner⟩
    · rw [line_of_size_le (Nat.le_of_not_lt inside)] at split
      simp at split
  · rintro ⟨front, back, split, partner⟩
    have mem : ((⟨line, brace.col⟩, '{') : Spot × Char) ∈ source.places := by
      rw [split]
      simp
    have here := mem_places.mp mem
    have inside : line < source.size := by
      refine Nat.lt_of_not_le fun past => ?_
      rw [line_of_size_le past] at here
      cases here
    have onLine : ((⟨line, brace.col⟩, '{') : Spot × Char) ∈ placesAt line 0 (source.line line) :=
      mem_placesAt.mpr ⟨rfl, Nat.zero_le _, here⟩
    obtain ⟨front', back', split'⟩ := List.append_of_mem onLine
    obtain ⟨-, rfl⟩ := split_unique split (whole inside split')
    exact ⟨front', back', split', partner⟩

/-- Behind an opening brace the text is level where it has closed as many braces as it opened. -/
theorem level_iff {front back : List (Spot × Char)} {opening spot : Spot} {index : Nat}
    (split : source.places = front ++ (opening, '{') :: back)
    (here : back[index]? = some (spot, '}')) :
    source.Level front.length (front.length + (index + 1)) ↔
      closed (back.take index) = opened (back.take index) + 0 := by
  have part : (source.places.take (front.length + (index + 1) + 1)).drop front.length =
      (opening, '{') :: (back.take index ++ [(spot, '}')]) := by
    rw [split, Nat.add_assoc, List.take_length_add_append, List.drop_left, List.take_succ_cons,
      List.take_add_one, here]
    rfl
  have ends (text : List (Spot × Char)) : closed (text ++ [(spot, '}')]) = closed text + 1 ∧
      opened (text ++ [(spot, '}')]) = opened text := by
    simp [closed, opened, List.countP_append]
  rw [Level, part, closed_cons, opened_cons, (ends _).1, (ends _).2]
  simp only [if_true, show ('{' : Char) ≠ '}' by decide, if_false]
  omega

/-- What closes a brace is the first closing brace of the text behind it that the text does not
open. -/
theorem closes_iff {front back : List (Spot × Char)} {opening closing : Spot}
    (split : source.places = front ++ (opening, '{') :: back) :
    source.Closes opening closing ↔ FirstAbove 0 back closing := by
  have here : source.places[front.length]? = some (opening, '{') := by
    rw [split]
    simp
  have behind (index : Nat) : source.places[front.length + (index + 1)]? = back[index]? := by
    rw [split, List.getElem?_append_right (by omega)]
    simp
  constructor
  · rintro ⟨first, last, isFirst, isLast, lt, level, least⟩
    obtain rfl := place_unique here isFirst
    obtain ⟨index, rfl⟩ : ∃ index, last = front.length + (index + 1) :=
      ⟨last - front.length - 1, by omega⟩
    rw [behind] at isLast
    refine ⟨index, isLast, (level_iff split isLast).mp level, fun earlier other before found => ?_⟩
    intro same
    refine least (front.length + (earlier + 1)) other (by omega) (by omega) ?_
      ((level_iff split found).mpr same)
    rw [behind, found]
  · rintro ⟨index, isLast, level, least⟩
    refine ⟨front.length, front.length + (index + 1), here, by rw [behind, isLast], by omega,
      (level_iff split isLast).mpr level, fun between spot after before found same => ?_⟩
    obtain ⟨earlier, rfl⟩ : ∃ earlier, between = front.length + (earlier + 1) :=
      ⟨between - front.length - 1, by omega⟩
    rw [behind] at found
    exact least earlier spot (by omega) found ((level_iff split found).mp same)

/-- The partner on record is the brace that closes an opening. -/
theorem partner_iff_closes {brace : Opening} (mem : brace ∈ source.pairing.openingsOf line)
    (close : Spot) : brace.partner = some close ↔ source.Closes ⟨line, brace.col⟩ close := by
  obtain ⟨front, back, split, partner⟩ := mem_openingsOf_iff.mp mem
  rw [partner, closes_iff split, ← unclosed_getElem?_iff, List.head?_eq_getElem?]

/-- Every opening brace is on record. -/
theorem recorded_iff {col : Nat} :
    (∃ brace ∈ source.pairing.openingsOf line, brace.col = col) ↔
      (source.line line)[col]? = some '{' := by
  constructor
  · rintro ⟨brace, mem, rfl⟩
    obtain ⟨front, back, split, -⟩ := mem_openingsOf_iff.mp mem
    have mem : ((⟨line, brace.col⟩, '{') : Spot × Char) ∈ source.places := by
      rw [split]
      simp
    exact mem_places.mp mem
  · intro here
    have mem : ((⟨line, col⟩, '{') : Spot × Char) ∈ source.places := mem_places.mpr here
    obtain ⟨front, back, split⟩ := List.append_of_mem mem
    exact ⟨⟨col, (unclosed back).head?⟩, mem_openingsOf_iff.mpr ⟨front, back, split, rfl⟩, rfl⟩

theorem openingsOf_sorted (source : Source) (line : Nat) :
    (source.pairing.openingsOf line).Pairwise fun left right => left.col < right.col := by
  rw [openingsOf_pairing]
  exact pairText_sorted line 0 _ _

/-- `source.Partners opening closing`: the opening brace at the one spot has the brace at the other
for its partner. -/
def Partners (source : Source) (opening closing : Spot) : Prop :=
  ∃ brace ∈ source.pairing.openingsOf opening.line,
    brace.col = opening.col ∧ brace.partner = some closing

theorem Partners.pairs {opening closing : Spot} (partners : source.Partners opening closing) :
    Pairs source.places opening closing := by
  obtain ⟨brace, mem, col, partner⟩ := partners
  obtain ⟨front, back, split, stack⟩ := mem_openingsOf_iff.mp mem
  rw [col] at split
  exact ⟨front, back, split, stack.symm.trans partner⟩

/-- A partner that does not stand on the line of its opening brace stands behind that line. -/
theorem lt_line_of_partner {brace : Opening} {close : Spot}
    (mem : brace ∈ source.pairing.openingsOf line) (partner : brace.partner = some close)
    (elsewhere : close.line ≠ line) : line < close.line := by
  have later : (⟨line, brace.col⟩ : Spot).Before close :=
    Pairs.before source.places_sorted (Partners.pairs ⟨brace, mem, rfl, partner⟩)
  rcases later with lt | ⟨same, -⟩
  · exact lt
  · exact absurd same.symm elsewhere

/-- The end of a block is the partner of the leftmost opening brace that the line does not itself
close. -/
theorem closeOf_eq_some_iff {fromCol limit : Nat} {close : Spot} :
    source.pairing.closeOf line fromCol limit = some close ↔
      close.line < limit ∧ ∃ brace ∈ source.pairing.openingsOf line,
        fromCol ≤ brace.col ∧ brace.partner = some close ∧ close.line ≠ line ∧
        ∀ other ∈ source.pairing.openingsOf line, fromCol ≤ other.col → other.col < brace.col →
          ∃ inner, other.partner = some inner ∧ inner.line = line := by
  have stays {brace : Opening} :
      (!brace.leaves line) = true ↔ ∃ inner, brace.partner = some inner ∧ inner.line = line := by
    simp [Opening.leaves]
  have sorted := (source.openingsOf_sorted line).sublist
    (List.filter_sublist (p := fun brace : Opening => decide (fromCol ≤ brace.col)))
  rw [closeOf_eq_bind]
  constructor
  · intro found
    obtain ⟨brace, first, partner⟩ := Option.bind_eq_some_iff.mp found
    obtain ⟨leaves, front, back, split, others⟩ := List.find?_eq_some_iff_append.mp first
    obtain ⟨same, within⟩ := Option.filter_eq_some_iff.mp partner
    have bounds : line < close.line ∧ close.line < limit := by simpa using within
    have mem : brace ∈
        (source.pairing.openingsOf line).filter fun brace => fromCol ≤ brace.col := by
      rw [split]
      simp
    obtain ⟨onLine, col⟩ := List.mem_filter.mp mem
    refine ⟨bounds.2, brace, onLine, of_decide_eq_true col, same, by omega, ?_⟩
    intro other mem' col' lt
    have listed : other ∈ front ++ brace :: back := by
      rw [← split]
      exact List.mem_filter.mpr ⟨mem', decide_eq_true col'⟩
    rw [split] at sorted
    rcases List.mem_append.mp listed with inFront | behind
    · exact stays.mp (others other inFront)
    · rcases List.mem_cons.mp behind with rfl | inBack
      · exact absurd lt (Nat.lt_irrefl _)
      · have := (List.pairwise_cons.mp (List.pairwise_append.mp sorted).2.1).1 other inBack
        omega
  · rintro ⟨within, brace, onLine, col, partner, elsewhere, leftmost⟩
    have behind := lt_line_of_partner onLine partner elsewhere
    obtain ⟨front, back, split⟩ := List.append_of_mem
      (List.mem_filter (p := fun brace : Opening => decide (fromCol ≤ brace.col)).mpr
        ⟨onLine, decide_eq_true col⟩)
    have first : ((source.pairing.openingsOf line).filter fun brace =>
        fromCol ≤ brace.col).find? (Opening.leaves line) = some brace := by
      refine List.find?_eq_some_iff_append.mpr ⟨?_, front, back, split, fun other inFront => ?_⟩
      · simp [Opening.leaves, partner, elsewhere]
      · have listed : other ∈ (source.pairing.openingsOf line).filter fun brace =>
            fromCol ≤ brace.col := by
          rw [split]
          exact List.mem_append_left _ inFront
        obtain ⟨mem', col'⟩ := List.mem_filter.mp listed
        rw [split] at sorted
        have lt := (List.pairwise_append.mp sorted).2.2 other inFront brace List.mem_cons_self
        exact stays.mpr (leftmost other mem' (of_decide_eq_true col') lt)
    rw [first, Option.bind_some, partner]
    simp [Option.filter, behind, within]

/-- The braces of a source are paired as a scan of its depth pairs them. -/
structure PairsAsScanned (source : Source) : Prop where
  /-- Every opening brace is on record, -/
  recorded : ∀ line col, (∃ brace ∈ source.pairing.openingsOf line, brace.col = col) ↔
    (source.line line)[col]? = some '{'
  /-- once. -/
  ascending : ∀ line, (source.pairing.openingsOf line).Pairwise
    fun left right => left.col < right.col
  /-- Its partner is the brace that closes it, so it has none if no brace does. -/
  scanned : ∀ line, ∀ brace ∈ source.pairing.openingsOf line, ∀ close,
    brace.partner = some close ↔ source.Closes ⟨line, brace.col⟩ close
  later : ∀ opening close, source.Partners opening close → opening.Before close
  distinct : ∀ opening opening' close, source.Partners opening close →
    source.Partners opening' close → opening = opening'
  /-- Of two pairs the one that begins later lies inside the other or behind it. -/
  nested : ∀ opening close opening' close', source.Partners opening close →
    source.Partners opening' close' → opening.Before opening' →
      close'.Before close ∨ close.Before opening'
  /-- A block ends at the partner of the leftmost opening brace that its line does not close. -/
  blockEnd : ∀ line fromCol limit close,
    source.pairing.closeOf line fromCol limit = some close ↔
      close.line < limit ∧ ∃ brace ∈ source.pairing.openingsOf line,
        fromCol ≤ brace.col ∧ brace.partner = some close ∧ close.line ≠ line ∧
        ∀ other ∈ source.pairing.openingsOf line, fromCol ≤ other.col → other.col < brace.col →
          ∃ inner, other.partner = some inner ∧ inner.line = line

/-- The pairs on record are those of a scan of the depth, in every source. -/
theorem pairsAsScanned (source : Source) : source.PairsAsScanned where
  recorded _ _ := recorded_iff
  ascending := source.openingsOf_sorted
  scanned _ _ mem := partner_iff_closes mem
  later _ _ partners := partners.pairs.before source.places_sorted
  distinct _ _ _ partners partners' :=
    partners.pairs.opening_unique source.places_sorted partners'.pairs
  nested _ _ _ _ partners partners' order :=
    partners.pairs.apart source.places_sorted partners'.pairs order
  blockEnd _ _ _ _ := closeOf_eq_some_iff

end Source

end LineScript
