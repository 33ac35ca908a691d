import LineScript.Program

/-!
# The lines that are read

A source is made a program in stages, each of which can be taken back from the result: a program
has been found in a balanced source, its region is that of the source, and its body is the block
of the region.

The region begins at the header of `main`, which is searched from the first line on.
`mainHeader?_eq_some_iff` and `mainHeader?_eq_none_iff` say what is found without the search: the
first line whose code is that of a header, or nothing because no line has it.
-/

namespace LineScript

namespace Program

variable {rule : EntryRule} {source : Source}

theorem ofSource_eq_ok {program : Program} (read : ofSource rule source = .ok program) :
    (Layout.ofSource source).braceFault? = none ∧
      (Layout.ofSource source).region rule = .ok program.region ∧
      program.body =
        (Layout.ofSource source).block program.region.first program.region.stop := by
  unfold ofSource at read
  dsimp only at read
  split at read
  · cases read
  · next balanced =>
    split at read
    · cases read
    · next region found =>
      cases read
      exact ⟨balanced, found, rfl⟩

theorem ofSource_eq_error {fault : Fault} (read : ofSource rule source = .error fault) :
    (Layout.ofSource source).braceFault? = some fault ∨
      (Layout.ofSource source).braceFault? = none ∧
        (Layout.ofSource source).region rule = .error fault := by
  unfold ofSource at read
  dsimp only at read
  split at read
  · next broken =>
    cases read
    exact .inl broken
  · next balanced =>
    split at read
    · next refused =>
      cases read
      exact .inr ⟨balanced, refused⟩
    · cases read

theorem ofSource_of_region {region : Region}
    (balanced : (Layout.ofSource source).braceFault? = none)
    (found : (Layout.ofSource source).region rule = .ok region) :
    ofSource rule source =
      .ok ⟨region, (Layout.ofSource source).block region.first region.stop⟩ := by
  simp [ofSource, balanced, found]

theorem ofSource_of_braceFault {fault : Fault}
    (broken : (Layout.ofSource source).braceFault? = some fault) :
    ofSource rule source = .error fault := by
  simp [ofSource, broken]

theorem ofSource_of_refused {fault : Fault}
    (balanced : (Layout.ofSource source).braceFault? = none)
    (refused : (Layout.ofSource source).region rule = .error fault) :
    ofSource rule source = .error fault := by
  simp [ofSource, balanced, refused]

theorem code_of_braceFault {layout : Layout} {fault : Fault}
    (broken : layout.braceFault? = some fault) : fault.code = .braces := by
  unfold Layout.braceFault? Pairing.fault? at broken
  split at broken
  · cases broken
    rfl
  · split at broken
    · cases broken
      rfl
    · cases broken

/-- A source is refused because of its braces or because of `main`. -/
theorem code_of_ofSource_eq_error {fault : Fault} (refused : ofSource rule source = .error fault) :
    fault.code = .braces ∨ fault.code = .mainOpen ∨ fault.code = .mainMissing := by
  rcases ofSource_eq_error refused with broken | ⟨-, refused⟩
  · exact .inl (code_of_braceFault broken)
  · right
    unfold Layout.region at refused
    split at refused
    · cases rule with
      | wholeSource => cases refused
      | mainRequired =>
          cases refused
          exact .inr rfl
    · split at refused
      · cases refused
      · cases refused
        exact .inl rfl

end Program

/-- The brace of a header of `main` is the last token of its line. -/
theorem mainBrace?_eq_some {tokens : List Token} {col : Nat}
    (h : mainBrace? tokens = some col) :
    ∃ token ∈ tokens, token.kind = .openBrace ∧ token.col = col := by
  unfold mainBrace? at h
  split at h
  · next word name left right brace =>
    split at h
    · next kinds =>
      cases h
      exact ⟨brace, by simp, kinds.2.2.2.2.2, rfl⟩
    · cases h
  · cases h

namespace Source

variable {source : Source} {line col : Nat}

private theorem zipIdx_getElem? (source : Source) (index : Nat) :
    source.lines.toList.zipIdx[index]? =
      if index < source.size then some (source.line index, index) else none := by
  rw [List.getElem?_zipIdx, Nat.zero_add, Array.getElem?_toList, line, line?]
  by_cases inside : index < source.size
  · rw [if_pos inside, Array.getElem?_eq_getElem inside]
    rfl
  · rw [if_neg inside, Array.getElem?_eq_none (Nat.le_of_not_lt inside)]
    rfl

/-- The brace of the header that a line may be. -/
def headerBrace? (source : Source) (line : Nat) : Option Nat :=
  mainBrace? (scanCode (source.line line))

theorem mainHeader?_eq_some_iff :
    source.mainHeader? = some (line, col) ↔
      line < source.size ∧ source.headerBrace? line = some col ∧
        ∀ before < line, source.headerBrace? before = none := by
  rw [mainHeader?, List.findSome?_eq_some_iff]
  constructor
  · rintro ⟨front, ⟨text, index⟩, rest, split, found, none_before⟩
    have here : source.lines.toList.zipIdx[front.length]? = some (text, index) := by
      rw [split, List.getElem?_append_right (Nat.le_refl _), Nat.sub_self, List.getElem?_cons_zero]
    rw [zipIdx_getElem?] at here
    split at here
    · next inside =>
      cases here
      obtain ⟨_, brace, same⟩ := Option.map_eq_some_iff.mp found
      cases same
      refine ⟨inside, brace, ?_⟩
      intro before earlier
      have there : source.lines.toList.zipIdx[before]? = front[before]? := by
        rw [split, List.getElem?_append_left earlier]
      rw [zipIdx_getElem?, if_pos (by omega)] at there
      have missing := none_before _ (List.mem_of_getElem? there.symm)
      exact Option.map_eq_none_iff.mp missing
    · cases here
  · rintro ⟨inside, found, none_before⟩
    have here := zipIdx_getElem? source line
    rw [if_pos inside] at here
    obtain ⟨bound, here⟩ := List.getElem?_eq_some_iff.mp here
    refine ⟨source.lines.toList.zipIdx.take line, (source.line line, line),
      source.lines.toList.zipIdx.drop (line + 1), ?_, ?_, ?_⟩
    · rw [← here, ← List.drop_eq_getElem_cons bound, List.take_append_drop]
    · exact Option.map_eq_some_iff.mpr ⟨col, found, rfl⟩
    · intro entry mem
      obtain ⟨before, there⟩ := List.mem_iff_getElem?.mp mem
      rw [List.getElem?_take] at there
      split at there
      · next earlier =>
        rw [zipIdx_getElem?, if_pos (by omega)] at there
        cases there
        exact Option.map_eq_none_iff.mpr (none_before before earlier)
      · cases there

theorem mainHeader?_eq_none_iff :
    source.mainHeader? = none ↔ ∀ line < source.size, source.headerBrace? line = none := by
  rw [mainHeader?, List.findSome?_eq_none_iff]
  constructor
  · intro missing line inside
    have here := zipIdx_getElem? source line
    rw [if_pos inside] at here
    exact Option.map_eq_none_iff.mp (missing _ (List.mem_of_getElem? here))
  · intro missing entry mem
    obtain ⟨line, here⟩ := List.mem_iff_getElem?.mp mem
    rw [zipIdx_getElem?] at here
    split at here
    · next inside =>
      cases here
      exact Option.map_eq_none_iff.mpr (missing line inside)
    · cases here

/-- A source without a header is executed as a whole, if that is allowed. -/
theorem region_wholeSource (missing : source.mainHeader? = none) :
    (Layout.ofSource source).region .wholeSource = .ok ⟨none, 0, source.size⟩ := by
  simp [Layout.region, Layout.ofSource, missing]

/-- If it is not allowed, the source is refused. -/
theorem region_mainRequired (missing : source.mainHeader? = none) :
    (Layout.ofSource source).region .mainRequired = .error ⟨.mainMissing, .start⟩ := by
  simp [Layout.region, Layout.ofSource, missing]

/-- The lines behind the header up to the brace that ends its block are executed. -/
theorem region_main {rule : EntryRule} (header : source.mainHeader? = some (line, col)) :
    (Layout.ofSource source).region rule =
      match source.pairing.closeOf line col source.size with
      | some close => .ok ⟨some line, line + 1, close.line⟩
      | none => .error ⟨.mainOpen, .clamped line col⟩ := by
  cases ends : source.pairing.closeOf line col source.size with
  | none => simp only [Layout.region, Layout.ofSource, header, ends]
  | some close => simp only [Layout.region, Layout.ofSource, header, ends]

end Source

end LineScript
