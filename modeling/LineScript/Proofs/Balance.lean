import LineScript.Proofs.Capture
import LineScript.Proofs.DepthScan

/-!
# Balance

The braces of a source are checked by pairing them. What the check decides can be said by counting:
`Source.depthAfter` is the number of braces opened less the number closed in the first characters of
the source, and the source is refused exactly if this depth is negative somewhere or not zero at the
end. `Source.locatesImbalance` also says where the fault is reported. A closing brace that makes the
depth negative comes first, whatever follows it; the end of the source is reported only if there is
none.

The pairs of the stack and the depth are tied together twice. The first brace that the stack leaves
without an opening one is the first at which the depth becomes negative, and if there is none, every
opening brace has a partner exactly if the depth at the end is zero.
-/

namespace LineScript

/-! ## Braces without a partner -/

/-- The stack of a text is at least as long as the text closes more braces than it opens. -/
theorem closed_le (text : List (Spot × Char)) :
    closed text ≤ opened text + (unclosed text).length := by
  induction text with
  | nil => exact Nat.le_refl 0
  | cons place rest ih =>
      obtain ⟨spot, c⟩ := place
      rw [closed_cons, opened_cons]
      by_cases closing : c = '}'
      · subst closing
        rw [unclosed_closing, List.length_cons]
        simp only [if_true, show ('}' : Char) ≠ '{' by decide, if_false]
        omega
      · by_cases opening : c = '{'
        · subst opening
          rw [unclosed_opening, List.length_tail]
          simp only [if_true, closing, if_false]
          omega
        · rw [unclosed_other opening closing]
          simp only [closing, opening, if_false]
          exact ih

/-- It is longer exactly if an opening brace has no partner. -/
theorem exists_unpaired_iff (text : List (Spot × Char)) :
    (∃ opening front back, text = front ++ (opening, '{') :: back ∧ unclosed back = []) ↔
      closed text < opened text + (unclosed text).length := by
  induction text with
  | nil => simp [closed, opened]
  | cons place rest ih =>
      obtain ⟨spot, c⟩ := place
      have split : (∃ opening front back, (spot, c) :: rest = front ++ (opening, '{') :: back ∧
            unclosed back = []) ↔
          (c = '{' ∧ unclosed rest = []) ∨
            closed rest < opened rest + (unclosed rest).length := by
        rw [← ih]
        simp only [exists_split_cons, Prod.mk.injEq, exists_or, and_assoc, exists_eq_left']
      rw [split, closed_cons, opened_cons]
      by_cases closing : c = '}'
      · subst closing
        rw [unclosed_closing, List.length_cons]
        simp only [if_true, show ('}' : Char) ≠ '{' by decide, if_false, false_and, false_or]
        omega
      · by_cases opening : c = '{'
        · subst opening
          rw [unclosed_opening, List.length_tail]
          simp only [if_true, closing, if_false, true_and]
          have enough := closed_le rest
          cases stack : unclosed rest with
          | nil =>
              rw [stack, List.length_nil] at enough
              simp only [List.length_nil, true_or, true_iff]
              omega
          | cons top below =>
              simp only [List.length_cons, reduceCtorEq, false_or]
              omega
        · rw [unclosed_other opening closing]
          simp only [closing, opening, if_false, false_and, false_or]
          exact Iff.rfl

namespace Source

variable {source : Source}

/-! ## Balanced sources -/

/-- A source is balanced exactly if no closing brace is left on the stack in front of it and every
opening brace has a partner. -/
theorem braceFault?_eq_none_iff_paired :
    (Layout.ofSource source).braceFault? = none ↔
      source.waiting 0 = [] ∧
        ∀ line, ∀ brace ∈ source.pairing.openingsOf line, brace.partner.isSome := by
  constructor
  · intro balanced
    refine ⟨?_, fun line brace mem => partner_isSome balanced mem⟩
    change source.pairing.fault? source.stop = none at balanced
    rw [Pairing.fault?, strays_pairing] at balanced
    split at balanced
    · cases balanced
    · assumption
  · rintro ⟨clear, paired⟩
    change source.pairing.fault? source.stop = none
    rw [Pairing.fault?, strays_pairing, clear]
    dsimp only
    rw [if_neg]
    rw [Bool.not_eq_true, Array.any_eq_false']
    intro openings mem
    obtain ⟨line, inside, rfl⟩ := Array.mem_iff_getElem.mp mem
    have here : source.pairing.openingsOf line = source.pairing.openings[line] := by
      rw [Pairing.openingsOf, Array.getElem?_eq_getElem inside, Option.getD_some]
    rw [Bool.not_eq_true, List.any_eq_false]
    intro brace mem
    rw [← here] at mem
    simp [Option.isSome_iff_ne_none.mp (paired line brace mem)]

/-- A source is balanced exactly if each line finds the partners that it needs on the stack behind
it, and none are left on the stack in front. -/
theorem braceFault?_eq_none_iff :
    (Layout.ofSource source).braceFault? = none ↔
      source.waiting 0 = [] ∧
        ∀ line, leftOpen (source.line line) ≤ (source.waiting (line + 1)).length := by
  simp only [braceFault?_eq_none_iff_paired, openingsOf_pairing, partners_iff]

/-- The stack in front of a source is that of its text. -/
theorem waiting_zero (source : Source) : source.waiting 0 = unclosed source.places :=
  pairLines_unclosed _

/-- The fault of a source is its first closing brace without a partner, if there is one. -/
theorem braceFault?_of_stray {close : Spot} (first : (unclosed source.places).head? = some close) :
    (Layout.ofSource source).braceFault? =
      some ⟨.strayClose, .clamped close.line close.col⟩ := by
  obtain ⟨rest, stack⟩ := List.head?_eq_some_iff.mp first
  change source.pairing.fault? source.stop = _
  rw [Pairing.fault?, strays_pairing, waiting_zero, stack]

/-- All opening braces have partners exactly if the text does not open more than it closes. -/
theorem all_partners_iff :
    (∀ line, ∀ brace ∈ source.pairing.openingsOf line, brace.partner.isSome) ↔
      closed source.places = opened source.places + (unclosed source.places).length := by
  have unpaired := exists_unpaired_iff source.places
  have upto := closed_le source.places
  have none_left : (∀ line, ∀ brace ∈ source.pairing.openingsOf line, brace.partner.isSome) ↔
      ¬ ∃ opening front back, source.places = front ++ (opening, '{') :: back ∧
        unclosed back = [] := by
    constructor
    · rintro paired ⟨opening, front, back, split, bare⟩
      have recorded : (⟨opening.col, none⟩ : Opening) ∈ source.pairing.openingsOf opening.line :=
        mem_openingsOf_iff.mpr ⟨front, back, split, by rw [bare]; rfl⟩
      cases paired opening.line _ recorded
    · intro paired line brace mem
      obtain ⟨front, back, split, partner⟩ := mem_openingsOf_iff.mp mem
      rw [partner, Option.isSome_iff_ne_none, ne_eq, List.head?_eq_none_iff]
      exact fun bare => paired ⟨_, front, back, split, bare⟩
  rw [none_left, unpaired]
  omega

/-- Without such a brace the source is balanced exactly if it closes as many braces as it opens, and
else it is refused at its end. -/
theorem braceFault?_of_clear (clear : unclosed source.places = []) :
    (Layout.ofSource source).braceFault? =
      if closed source.places = opened source.places then none
      else some ⟨.missingClose, source.stop⟩ := by
  have paired : (Layout.ofSource source).braceFault? = none ↔
      closed source.places = opened source.places := by
    rw [braceFault?_eq_none_iff_paired, all_partners_iff, waiting_zero, clear]
    simp
  split
  · next level => exact paired.mpr level
  · next uneven =>
    have refused := mt paired.mp uneven
    change source.pairing.fault? source.stop ≠ none at refused
    change source.pairing.fault? source.stop = some ⟨.missingClose, source.stop⟩
    rw [Pairing.fault?, strays_pairing, waiting_zero, clear] at refused ⊢
    dsimp only at refused ⊢
    split at refused
    · next unpaired => rw [if_pos unpaired]
    · exact absurd rfl refused

/-! ## Depth -/

/-- The places of a source lie on its lines. -/
theorem bounds_of_mem_places {place : Spot × Char} (mem : place ∈ source.places) :
    place.1.line < source.size ∧ place.1.col < (source.line place.1.line).length := by
  obtain ⟨onLine, -⟩ := List.getElem?_eq_some_iff.mp (mem_places.mp mem)
  refine ⟨Nat.lt_of_not_le fun past => ?_, onLine⟩
  rw [line_of_size_le past] at onLine
  exact Nat.not_lt_zero _ onLine

/-- How many braces more the first `count` characters of a source open than they close. -/
def depthAfter (source : Source) (count : Nat) : Int :=
  (opened (source.places.take count) : Int) - closed (source.places.take count)

/-- The depth behind the last character. -/
def finalDepth (source : Source) : Int :=
  source.depthAfter source.places.length

theorem depthAfter_zero (source : Source) : source.depthAfter 0 = 0 := rfl

theorem finalDepth_eq (source : Source) :
    source.finalDepth = (opened source.places : Int) - closed source.places := by
  rw [finalDepth, depthAfter, List.take_length]

/-- Each character changes the depth by its own weight. -/
theorem depthAfter_succ {index : Nat} {spot : Spot} {c : Char}
    (here : source.places[index]? = some (spot, c)) :
    source.depthAfter (index + 1) =
      source.depthAfter index + (if c = '{' then 1 else 0) - (if c = '}' then 1 else 0) := by
  have longer : source.places.take (index + 1) = source.places.take index ++ [(spot, c)] := by
    rw [List.take_add_one, here]
    rfl
  simp only [depthAfter, longer, opened, closed, List.countP_append, List.countP_singleton,
    decide_eq_true_eq]
  split <;> split <;> omega

theorem depthAfter_of_length_le {count : Nat} (past : source.places.length ≤ count) :
    source.depthAfter count = source.finalDepth := by
  rw [finalDepth, depthAfter, depthAfter, List.take_of_length_le past, List.take_length]

/-- The closing brace at `close` is the first character of the source, with the number `index`,
behind which the depth is negative. -/
structure SinksAt (source : Source) (index : Nat) (close : Spot) : Prop where
  brace : source.places[index]? = some (close, '}')
  below : source.depthAfter (index + 1) < 0
  first : ∀ count ≤ index, 0 ≤ source.depthAfter count

/-- Where the depth becomes negative, a closing brace stands. -/
theorem sinksAt_of_step {index : Nat} (above : ∀ count ≤ index, 0 ≤ source.depthAfter count)
    (below : source.depthAfter (index + 1) < 0) : ∃ close, source.SinksAt index close := by
  have inside := above index (Nat.le_refl index)
  cases here : source.places[index]? with
  | none =>
      have past := List.getElem?_eq_none_iff.mp here
      rw [depthAfter_of_length_le past] at inside
      rw [depthAfter_of_length_le (Nat.le_succ_of_le past)] at below
      omega
  | some place =>
      obtain ⟨close, c⟩ := place
      have step := depthAfter_succ here
      have closing : c = '}' := by
        apply Classical.byContradiction
        intro other
        rw [if_neg other] at step
        split at step <;> omega
      subst closing
      exact ⟨close, here, below, above⟩

/-- Up to any character the depth is never negative, or it has become so. -/
theorem above_or_sinks (source : Source) (index : Nat) :
    (∀ count ≤ index, 0 ≤ source.depthAfter count) ∨
      ∃ index close, source.SinksAt index close := by
  induction index with
  | zero =>
      left
      intro count upto
      have start : source.depthAfter count = 0 := by rw [Nat.le_zero.mp upto, depthAfter_zero]
      exact Int.le_of_eq start.symm
  | succ index ih =>
      rcases ih with above | sinks
      · rcases Int.lt_or_le (source.depthAfter (index + 1)) 0 with below | upward
        · exact .inr ⟨index, sinksAt_of_step above below⟩
        · left
          intro count upto
          rcases Nat.lt_or_ge index count with last | before
          · rw [Nat.le_antisymm upto last]
            exact upward
          · exact above count before
      · exact .inr sinks

/-- The depth becomes negative at a closing brace. -/
theorem exists_sinksAt {count : Nat} (below : source.depthAfter count < 0) :
    ∃ index close, source.SinksAt index close := by
  rcases source.above_or_sinks count with above | sinks
  · have := above count (Nat.le_refl count)
    omega
  · exact sinks

theorem depthAfter_eq_zero_iff {count : Nat} :
    closed (source.places.take count) = opened (source.places.take count) + 0 ↔
      source.depthAfter count = 0 := by
  rw [depthAfter]
  omega

/-- A closing brace takes the depth down by one. -/
theorem depthAfter_closing {index : Nat} {close : Spot}
    (here : source.places[index]? = some (close, '}')) :
    source.depthAfter (index + 1) = source.depthAfter index - 1 := by
  rw [depthAfter_succ here]
  simp

/-- The brace at which the depth becomes negative is the first without a partner. -/
theorem SinksAt.head?_unclosed {index : Nat} {close : Spot} (sinks : source.SinksAt index close) :
    (unclosed source.places).head? = some close := by
  have above := sinks.first index (Nat.le_refl index)
  have below := sinks.below
  rw [depthAfter_closing sinks.brace] at below
  rw [List.head?_eq_getElem?, unclosed_getElem?_iff]
  refine ⟨index, sinks.brace, depthAfter_eq_zero_iff.mpr (by omega), ?_⟩
  intro earlier other before there level
  have inside := sinks.first (earlier + 1) before
  rw [depthAfter_closing there, depthAfter_eq_zero_iff.mp level] at inside
  omega

/-- If the depth is never negative, every closing brace has a partner. -/
theorem unclosed_places_eq_nil (above : ∀ count, 0 ≤ source.depthAfter count) :
    unclosed source.places = [] := by
  rw [← List.head?_eq_none_iff, Option.eq_none_iff_forall_not_mem]
  intro close first
  rw [Option.mem_def, List.head?_eq_getElem?, unclosed_getElem?_iff] at first
  obtain ⟨index, here, level, -⟩ := first
  have inside := above (index + 1)
  rw [depthAfter_closing here, depthAfter_eq_zero_iff.mp level] at inside
  omega

/-- A source whose depth becomes negative is refused at the brace where it does. -/
theorem braceFault?_of_below {count : Nat} (below : source.depthAfter count < 0) :
    ∃ index close, source.SinksAt index close ∧ (Layout.ofSource source).braceFault? =
      some ⟨.strayClose, .clamped close.line close.col⟩ := by
  obtain ⟨index, close, sinks⟩ := exists_sinksAt below
  exact ⟨index, close, sinks, braceFault?_of_stray sinks.head?_unclosed⟩

/-- A source whose depth does not is refused only for the depth at its end. -/
theorem braceFault?_of_above (above : ∀ count, 0 ≤ source.depthAfter count) :
    (Layout.ofSource source).braceFault? =
      if source.finalDepth = 0 then none else some ⟨.missingClose, source.stop⟩ := by
  have level : closed source.places = opened source.places ↔ source.finalDepth = 0 := by
    rw [finalDepth_eq]
    omega
  simp only [braceFault?_of_clear (unclosed_places_eq_nil above), level]

theorem braceFault?_eq_none_iff_depth :
    (Layout.ofSource source).braceFault? = none ↔
      (∀ count, 0 ≤ source.depthAfter count) ∧ source.finalDepth = 0 := by
  constructor
  · intro balanced
    have above (count : Nat) : 0 ≤ source.depthAfter count := by
      apply Int.not_lt.mp
      intro below
      obtain ⟨_, _, _, fault⟩ := braceFault?_of_below below
      rw [balanced] at fault
      cases fault
    refine ⟨above, ?_⟩
    rw [braceFault?_of_above above] at balanced
    split at balanced
    · assumption
    · cases balanced
  · rintro ⟨above, level⟩
    rw [braceFault?_of_above above, if_pos level]

/-- The check of the braces decides whether the depth is ever negative or not zero at the end, and
reports where. -/
structure LocatesImbalance (source : Source) : Prop where
  balanced : (Layout.ofSource source).braceFault? = none ↔
    (∀ count, 0 ≤ source.depthAfter count) ∧ source.finalDepth = 0
  /-- The first closing brace that makes the depth negative is reported at its own place. -/
  stray : (∃ count, source.depthAfter count < 0) → ∃ index close fault,
    source.SinksAt index close ∧ (Layout.ofSource source).braceFault? = some fault ∧
      fault.cause = .strayClose ∧
      fault.pos.line.toNat = close.line ∧ fault.pos.col.toNat = close.col
  /-- If there is none, a brace that is still open is reported at the end of the source. -/
  missing : (∀ count, 0 ≤ source.depthAfter count) → 0 < source.finalDepth → ∃ fault,
    (Layout.ofSource source).braceFault? = some fault ∧ fault.cause = .missingClose ∧
      fault.pos.line.toNat = source.size - 1 ∧ fault.pos.col.toNat = source.last.length

/-- Every source is checked by its depth, as long as its lines and columns can be counted in 32
bits. -/
theorem locatesImbalance (source : Source) (rows : source.size < UInt32.size)
    (columns : ∀ line ∈ source.lines, line.length < UInt32.size) : source.LocatesImbalance := by
  refine ⟨braceFault?_eq_none_iff_depth, ?_, ?_⟩
  · rintro ⟨count, below⟩
    obtain ⟨index, close, sinks, fault⟩ := braceFault?_of_below below
    obtain ⟨inside, onLine⟩ := bounds_of_mem_places (List.mem_of_getElem? sinks.brace)
    have narrow := columns _ (line_mem inside)
    exact ⟨index, close, _, sinks, fault, rfl, Pos.clamped_line _ (Nat.lt_trans inside rows),
      Pos.clamped_col _ (Nat.lt_trans onLine narrow)⟩
  · intro above uneven
    have fault := braceFault?_of_above above
    rw [if_neg (Int.ne_of_gt uneven)] at fault
    have last := Nat.sub_lt source.size_pos Nat.one_pos
    have narrow := columns _ (line_mem last)
    exact ⟨_, fault, rfl, Pos.clamped_line _ (Nat.lt_trans last rows), Pos.clamped_col _ narrow⟩

/-- A closing brace too many, behind a quoted brace and a character of several bytes, and behind it
a brace that is never closed. -/
theorem locatesImbalance_both :
    let source := ofText "print \"\x7b\";\né \x7d \x7d\n\x7b"
    source.size < UInt32.size ∧ (∀ line ∈ source.lines, line.length < UInt32.size) ∧
      (Layout.ofSource source).braceFault? = some ⟨.strayClose, ⟨1, 4⟩⟩ ∧
      source.LocatesImbalance := by
  intro source
  have rows : source.size < UInt32.size := by decide +kernel
  have columns : ∀ line ∈ source.lines, line.length < UInt32.size := by decide +kernel
  exact ⟨rows, columns, by decide +kernel, source.locatesImbalance rows columns⟩

end Source

end LineScript
