import LineScript.Proofs.Serving
import LineScript.Wire.Decode

/-!
# Messages are decoded as they were encoded

Whatever a message holds, decoding its written form gives it back. Readers report places, which play
no part here: `Reads` says what a reader finds and what it leaves, and each reader is shown to read
what was written for it, whatever follows.
-/

namespace LineScript

namespace Json

/-- A reader finds a value and leaves `rest`. -/
def Reads {ε α : Type} (result : Except ε (α × Cursor)) (value : α) (rest : List Char) : Prop :=
  ∃ place, result = .ok (value, ⟨rest, place⟩)

theorem Reads.map {ε α β : Type} {result : Except ε (α × Cursor)} {value : α} {rest : List Char}
    (reads : Reads result value rest) (f : α → β) :
    Reads (result.map fun (value, behind) => (f value, behind)) (f value) rest := by
  obtain ⟨place, rfl⟩ := reads
  exact ⟨place, rfl⟩

/-! ## Moving on -/

namespace Cursor

/-- The place behind a character. -/
def placeAfter (place : Place) (c : Char) : Place :=
  if c = '\n' then ⟨place.line + 1, 0⟩ else ⟨place.line, place.column + c.utf8Size⟩

@[simp] theorem advance_cons (c : Char) (rest : List Char) (place : Place) :
    (⟨c :: rest, place⟩ : Cursor).advance = ⟨rest, placeAfter place c⟩ := by
  rw [advance, placeAfter]
  split
  · next none => cases none
  · next some => cases some; rfl
  · next different some =>
    cases some
    rw [if_neg different]

theorem skip_append (front rest : List Char) (place : Place) :
    ∃ after, skip front.length ⟨front ++ rest, place⟩ = ⟨rest, after⟩ := by
  induction front generalizing place with
  | nil => exact ⟨place, rfl⟩
  | cons c front ih =>
      rw [List.length_cons, skip, List.cons_append, advance_cons]
      exact ih _

theorem skipSpace_cons {c : Char} (solid : isSpace c = false) (rest : List Char) (place : Place) :
    (⟨c :: rest, place⟩ : Cursor).skipSpace = (some c, ⟨c :: rest, place⟩) := by
  rw [skipSpace, List.takeWhile_cons, solid]
  rfl

end Cursor

open Cursor

/-! ## Texts -/

/-- A character is written as a backslash and a letter, by its number, or as it is. -/
theorem escape_cases (c : Char) :
    (∃ letter, escape c = ['\\', letter] ∧ unescape? letter = some c) ∨
      (escape c = ['\\', 'u', '0', '0', hexDigit (c.toNat / 16), hexDigit (c.toNat % 16)] ∧
        c.toNat < 0x20) ∨
      (escape c = [c] ∧ c ≠ '"' ∧ c ≠ '\\' ∧ 0x20 ≤ c.toNat) := by
  unfold escape
  by_cases quote : c = '"'
  · exact .inl ⟨'"', if_pos quote, by rw [quote]; rfl⟩
  by_cases slash : c = '\\'
  · exact .inl ⟨'\\', (if_neg quote).trans (if_pos slash), by rw [slash]; rfl⟩
  rw [if_neg quote, if_neg slash]
  iterate 5
    split
    · next same => exact .inl ⟨_, rfl, same ▸ rfl⟩
  split
  · next control => exact .inr (.inl ⟨rfl, control⟩)
  · next plain => exact .inr (.inr ⟨rfl, quote, slash, Nat.le_of_not_lt plain⟩)

theorem hexValue?_hexDigit : ∀ n < 16, hexValue? (hexDigit n) = some n := by
  decide

/-- A number below U+0020 is read from its four digits. -/
theorem readUnicode_control {code : Nat} (control : code < 0x20) (rest : List Char)
    (place : Place) :
    Reads (readUnicode ⟨'0' :: '0' :: hexDigit (code / 16) :: hexDigit (code % 16) :: rest, place⟩)
      (Char.ofNat code) rest := by
  have digits : ['0', '0', hexDigit (code / 16), hexDigit (code % 16)].mapM hexValue? =
      some [0, 0, code / 16, code % 16] := by
    simp [hexValue?_hexDigit _ (show code / 16 < 16 by omega),
      hexValue?_hexDigit _ (show code % 16 < 16 by omega), show hexValue? '0' = some 0 from rfl]
  have value : ((0 * 16 + 0) * 16 + code / 16) * 16 + code % 16 = code := by omega
  obtain ⟨after, skipped⟩ := skip_append
    ['0', '0', hexDigit (code / 16), hexDigit (code % 16)] rest place
  have read : readHex
      ⟨'0' :: '0' :: hexDigit (code / 16) :: hexDigit (code % 16) :: rest, place⟩ =
        .ok (code, ⟨rest, after⟩) := by
    simp only [readHex, List.take_succ_cons, List.take_zero, digits, value]
    exact congrArg (fun cursor => Except.ok (code, cursor)) skipped
  refine ⟨after, ?_⟩
  rw [readUnicode, read]
  simp only
  rw [if_neg (by omega), if_pos (by omega)]

/-- A character is read from what is written for it. -/
theorem readChar_escape (c : Char) (rest : List Char) (place : Place) :
    Reads (readChar ⟨escape c ++ rest, place⟩) c rest := by
  obtain ⟨letter, written, named⟩ | ⟨written, control⟩ | ⟨written, quote, slash, plain⟩ :=
    escape_cases c
  · have different : letter ≠ 'u' := by
      rintro rfl
      nomatch named
    rw [written]
    refine ⟨placeAfter (placeAfter place '\\') letter, ?_⟩
    simp only [readChar, List.cons_append, List.nil_append, advance_cons, named]
  · rw [written]
    obtain ⟨after, read⟩ := readUnicode_control control rest
      (placeAfter (placeAfter place '\\') 'u')
    rw [Char.ofNat_toNat] at read
    refine ⟨after, ?_⟩
    simpa [readChar] using read
  · rw [written]
    refine ⟨placeAfter place c, ?_⟩
    simp only [readChar, List.cons_append, List.nil_append, advance_cons,
      if_neg (Nat.not_lt.mpr plain)]

/-- What is written for a character does not begin like the end of a text. -/
theorem escape_eq_cons (c : Char) : ∃ first more, escape c = first :: more ∧ first ≠ '"' := by
  obtain ⟨letter, written, -⟩ | ⟨written, -⟩ | ⟨written, quote, -⟩ := escape_cases c
  · exact ⟨_, _, written, by decide⟩
  · exact ⟨_, _, written, by decide⟩
  · exact ⟨_, _, written, quote⟩

theorem readTextOnto_escaped (text done rest : List Char) (place : Place) {bound : Nat}
    (enough : (text.flatMap escape ++ '"' :: rest).length < bound) :
    Reads (readTextOnto bound done ⟨text.flatMap escape ++ '"' :: rest, place⟩)
      (String.ofList (done.reverse ++ text)) rest := by
  induction text generalizing done place bound with
  | nil =>
      cases bound with
      | zero => cases enough
      | succ bound =>
          rw [List.append_nil]
          exact ⟨_, rfl⟩
  | cons c text ih =>
      obtain ⟨first, more, written, unquoted⟩ := escape_eq_cons c
      rw [List.flatMap_cons, List.append_assoc] at enough ⊢
      cases bound with
      | zero => cases enough
      | succ bound =>
          obtain ⟨after, read⟩ := readChar_escape c (text.flatMap escape ++ '"' :: rest) place
          have fewer : (text.flatMap escape ++ '"' :: rest).length < bound := by
            rw [written, List.cons_append, List.length_cons, List.length_append] at enough
            omega
          have unclosed : (escape c ++ (text.flatMap escape ++ '"' :: rest)).head? ≠ some '"' := by
            rw [written]
            exact fun same => unquoted (Option.some.inj same)
          have later := ih (c :: done) after fewer
          rw [List.reverse_cons, List.append_assoc, List.singleton_append] at later
          rw [readTextOnto, if_neg unclosed, read]
          exact later

/-- A text is read from what is written for it, behind the opening quote. -/
theorem readText_escaped (text : String) (rest : List Char) (place : Place) {bound : Nat}
    (enough : (text.toList.flatMap escape ++ '"' :: rest).length < bound) :
    Reads (readText bound ⟨text.toList.flatMap escape ++ '"' :: rest, place⟩) text rest := by
  have read := readTextOnto_escaped text.toList [] rest place enough
  rwa [List.reverse_nil, List.nil_append, String.ofList_toList] at read

/-! ## Numbers -/

/-- More digits do not make a number smaller. -/
theorem le_foldl_digits (digits : List Char) (value : Nat) :
    value ≤ digits.foldl (fun value digit => 10 * value + digitValue digit) value := by
  induction digits generalizing value with
  | nil => exact Nat.le_refl value
  | cons digit digits ih =>
      rw [List.foldl_cons]
      exact Nat.le_trans (by omega) (ih _)

/-- Digits that fit in a word are all gathered. -/
theorem foldl_add (digits : List Char) (word : Nat)
    (fits : digits.foldl (fun value digit => 10 * value + digitValue digit) word < UInt64.size) :
    digits.foldl Gathered.add ⟨word, 0⟩ =
      ⟨digits.foldl (fun value digit => 10 * value + digitValue digit) word, 0⟩ := by
  induction digits generalizing word with
  | nil => rfl
  | cons digit digits ih =>
      rw [List.foldl_cons] at fits ⊢
      have next : 10 * word + digitValue digit < UInt64.size :=
        Nat.lt_of_le_of_lt (le_foldl_digits digits _) fits
      have added : Gathered.add ⟨word, 0⟩ digit = ⟨10 * word + digitValue digit, 0⟩ := by
        rw [Gathered.add, Nat.mul_comm word]
        exact if_pos ⟨rfl, next⟩
      rw [added, ih _ fits, List.foldl_cons]

/-- A positive number is written without leading zeros. -/
theorem head?_toDigits {number : Nat} (positive : 0 < number) :
    (Nat.toDigits 10 number).head? ≠ some '0' := by
  induction number using Nat.strongRecOn with
  | ind number ih =>
      by_cases single : number < 10
      · have all : ∀ digit < 10, 0 < digit → some digit.digitChar ≠ some '0' := by decide
        rw [Nat.toDigits_of_lt_base single]
        exact all number single positive
      · have front := ih (number / 10) (by omega) (by omega)
        obtain ⟨first, more, digits⟩ :=
          List.exists_cons_of_ne_nil (@Nat.toDigits_ne_nil (number / 10) 10)
        rw [Nat.toDigits_of_base_le (by decide) (Nat.le_of_not_lt single), digits]
        rw [digits] at front
        exact front

/-- What follows a value inside a message. -/
def Delimited (rest : List Char) : Prop :=
  ∃ c more, rest = c :: more ∧ (c = ',' ∨ c = ']' ∨ c = '}')

theorem readAfterInteger_delimited {rest : List Char} (delimited : Delimited rest) (word : Nat)
    (place : Place) :
    Reads (readAfterInteger true ⟨word, 0⟩ ⟨rest, place⟩) (.natural word) rest := by
  obtain ⟨c, more, rfl, rfl | rfl | rfl⟩ := delimited <;> exact ⟨place, rfl⟩

theorem digits_append {digits rest : List Char} (all : ∀ c ∈ digits, c.isDigit = true)
    (delimited : Delimited rest) (place : Place) :
    (⟨digits ++ rest, place⟩ : Cursor).digits = digits := by
  obtain ⟨c, more, rfl, sign⟩ := delimited
  have stops : c.isDigit = false := by
    obtain rfl | rfl | rfl := sign <;> rfl
  rw [Cursor.digits, List.takeWhile_append_of_pos all, List.takeWhile_cons, stops]
  simp

/-- A number is read from its digits. -/
theorem readNumber_toString {number : Nat} (fits : number < UInt64.size) {rest : List Char}
    (delimited : Delimited rest) (place : Place) :
    Reads (readNumber true ⟨(toString number).toList ++ rest, place⟩) (.natural number) rest := by
  have scanned :=
    digits_append (fun _ => @isDigit_of_mem_number number _) delimited place
  rw [toList_number]
  by_cases zero : number = 0
  · subst zero
    rw [Nat.toDigits_zero] at scanned ⊢
    have behind := readAfterInteger_delimited delimited 0 (placeAfter place '0')
    rw [readNumber, scanned]
    rw [List.singleton_append, advance_cons]
    exact behind
  · obtain ⟨first, more, digits⟩ := List.exists_cons_of_ne_nil (@Nat.toDigits_ne_nil number 10)
    have leading : first ≠ '0' := by
      have head := head?_toDigits (Nat.pos_of_ne_zero zero)
      rw [digits] at head
      exact fun same => head (congrArg some same)
    have value := @Nat.ofDigitChars_ten_toDigits number
    rw [Nat.ofDigitChars_eq_foldl] at value
    have gathered := foldl_add (Nat.toDigits 10 number) 0 (value.symm ▸ fits)
    replace gathered := gathered.trans (congrArg (Gathered.mk · 0) value)
    obtain ⟨after, skipped⟩ := skip_append (Nat.toDigits 10 number) rest place
    have behind := readAfterInteger_delimited delimited number after
    rw [digits] at scanned gathered skipped ⊢
    rw [readNumber, scanned]
    split
    · next empty => cases empty
    · next empty _ => cases empty
    · next same _ => exact absurd (List.cons.inj same).1 leading
    · rw [gathered, skipped]
      exact behind

/-! ## Values -/

/-- The characters are what is written for a value: the value is read from them where it stands
inside a message. -/
def Writes (written : List Char) (value : Value) : Prop :=
  ∀ (bound : Nat) (rest : List Char) (place : Place), Delimited rest →
    (written ++ rest).length < bound →
    Reads (readValue bound Family.innerDepth ⟨written ++ rest, place⟩) value rest

theorem readValue_scalar {c : Char} (solid : isSpace c = false) (notList : c ≠ '[')
    (notObject : c ≠ '{') (bound depth : Nat) (rest : List Char) (place : Place) :
    readValue bound depth ⟨c :: rest, place⟩ = readScalar bound c ⟨c :: rest, place⟩ := by
  rw [readValue, skipSpace_cons solid]
  exact if_neg (not_or.mpr ⟨notList, notObject⟩)

theorem readScalar_quote (text : String) (rest : List Char) (place : Place) {bound : Nat}
    (enough : ((quote text).toList ++ rest).length < bound) :
    Reads (readScalar bound '"' ⟨(quote text).toList ++ rest, place⟩) (.string text) rest := by
  rw [toList_quote, List.cons_append, List.append_assoc, List.singleton_append] at enough ⊢
  have read := readText_escaped text rest (placeAfter place '"') (Nat.lt_of_succ_lt enough)
  have scalar := read.map Value.string
  rw [← advance_cons] at scalar
  exact scalar

theorem readValue_quote (text : String) (rest : List Char) (place : Place) {bound : Nat}
    (depth : Nat) (enough : ((quote text).toList ++ rest).length < bound) :
    Reads (readValue bound depth ⟨(quote text).toList ++ rest, place⟩) (.string text) rest := by
  have read := readScalar_quote text rest place enough
  rw [toList_quote, List.cons_append] at read ⊢
  rw [readValue_scalar rfl (by decide) (by decide)]
  exact read

/-- A text is read from its quoted form. -/
theorem writes_quote (text : String) : Writes (quote text).toList (.string text) :=
  fun _ rest place _ enough => readValue_quote text rest place _ enough

theorem ne_of_isDigit {c d : Char} (digit : c.isDigit = true) (sign : d.isDigit = false) :
    c ≠ d := by
  rintro rfl
  rw [digit] at sign
  nomatch sign

theorem readScalar_digit {c : Char} (digit : c.isDigit = true) (bound : Nat) (cursor : Cursor) :
    readScalar bound c cursor =
      (readNumber true cursor).map fun (n, behind) => (.number n, behind) := by
  unfold readScalar
  split
  · exact absurd rfl (ne_of_isDigit digit (by decide))
  · exact absurd rfl (ne_of_isDigit digit (by decide))
  · exact absurd rfl (ne_of_isDigit digit (by decide))
  · exact absurd rfl (ne_of_isDigit digit (by decide))
  · exact absurd rfl (ne_of_isDigit digit (by decide))
  · exact if_pos digit

/-- A number is read from its digits. -/
theorem writes_number {number : Nat} (fits : number < UInt64.size) :
    Writes (toString number).toList (.number (.natural number)) := by
  intro bound rest place delimited _
  have read := (readNumber_toString fits delimited place).map Value.number
  rw [toList_number] at read ⊢
  obtain ⟨first, more, digits⟩ := List.exists_cons_of_ne_nil (@Nat.toDigits_ne_nil number 10)
  have digit : first.isDigit = true := by
    refine @isDigit_of_mem_number number first ?_
    rw [digits]
    exact List.mem_cons_self
  have solid : isSpace first = false := by
    simp [isSpace, ne_of_isDigit digit]
  rw [digits, List.cons_append] at read ⊢
  rw [readValue_scalar solid (ne_of_isDigit digit rfl) (ne_of_isDigit digit rfl),
    readScalar_digit digit]
  exact read

/-! ## Lists -/

/-- Texts that follow others in a list. -/
def moreItems (texts : List String) : List Char :=
  texts.flatMap fun text => ',' :: (quote text).toList

theorem toList_intercalate_quote (text : String) (texts : List String) :
    (",".intercalate ((text :: texts).map quote)).toList =
      (quote text).toList ++ moreItems texts := by
  rw [String.toList_intercalate]
  induction texts generalizing text with
  | nil => simp [moreItems]
  | cons second texts ih =>
      rw [List.map_cons, List.map_cons, List.map_cons, List.map_cons, List.intercalate_cons_cons,
        ← List.map_cons, ← List.map_cons, ih]
      simp [moreItems]

theorem nextItem_end (first : Bool) (rest : List Char) (place : Place) :
    nextItem first ⟨']' :: rest, place⟩ = .ok (false, ⟨']' :: rest, place⟩) := by
  rw [nextItem, skipSpace_cons rfl]
  rfl

theorem nextItem_first (rest : List Char) (place : Place) :
    nextItem true ⟨'"' :: rest, place⟩ = .ok (true, ⟨'"' :: rest, place⟩) := by
  rw [nextItem, skipSpace_cons rfl]
  rfl

theorem nextItem_comma (rest : List Char) (place : Place) :
    nextItem false ⟨',' :: '"' :: rest, place⟩ =
      .ok (true, ⟨'"' :: rest, placeAfter place ','⟩) := by
  have sign := @skipSpace_cons '"' rfl rest (placeAfter place ',')
  rw [nextItem, skipSpace_cons rfl]
  simp [sign]

theorem readItems_moreItems (texts : List String) (done : List Value) (rest : List Char)
    (place : Place) {itemBound bound depth : Nat}
    (enough : (moreItems texts ++ ']' :: rest).length < bound)
    (itemEnough : (moreItems texts ++ ']' :: rest).length < itemBound) :
    Reads (readItems (readValue itemBound depth) bound false done
      ⟨moreItems texts ++ ']' :: rest, place⟩) (done.reverse ++ texts.map .string) rest := by
  induction texts generalizing done place bound with
  | nil =>
      cases bound with
      | zero => cases enough
      | succ bound =>
          refine ⟨placeAfter place ']', ?_⟩
          rw [readItems, moreItems, List.flatMap_nil, List.nil_append, nextItem_end]
          simp
  | cons text texts ih =>
      cases bound with
      | zero => cases enough
      | succ bound =>
          have split : moreItems (text :: texts) ++ ']' :: rest =
              ',' :: ((quote text).toList ++ (moreItems texts ++ ']' :: rest)) := by
            simp [moreItems]
          rw [split, List.length_cons, List.length_append] at enough
          rw [split, List.length_cons] at itemEnough
          have fewer : (moreItems texts ++ ']' :: rest).length < bound := by omega
          have itemFewer : (moreItems texts ++ ']' :: rest).length < itemBound := by
            rw [List.length_append] at itemEnough
            omega
          obtain ⟨after, read⟩ := readValue_quote text (moreItems texts ++ ']' :: rest)
            (placeAfter place ',') depth (Nat.lt_of_succ_lt itemEnough)
          have later := ih (.string text :: done) after fewer itemFewer
          rw [List.reverse_cons, List.append_assoc, List.singleton_append] at later
          have next : nextItem false
              ⟨',' :: ((quote text).toList ++ (moreItems texts ++ ']' :: rest)), place⟩ =
              .ok (true, ⟨(quote text).toList ++ (moreItems texts ++ ']' :: rest),
                placeAfter place ','⟩) := by
            rw [toList_quote]
            exact nextItem_comma _ place
          rw [split, readItems, next]
          simp only [read]
          exact later

theorem readItems_texts (texts : List String) (rest : List Char) (place : Place) {bound : Nat}
    (depth : Nat)
    (enough : ((",".intercalate (texts.map quote)).toList ++ ']' :: rest).length < bound) :
    Reads (readItems (readValue bound depth) bound true []
      ⟨(",".intercalate (texts.map quote)).toList ++ ']' :: rest, place⟩)
      (texts.map .string) rest := by
  cases bound with
  | zero => cases enough
  | succ bound =>
      cases texts with
      | nil =>
          refine ⟨placeAfter place ']', ?_⟩
          have empty : (",".intercalate (([] : List String).map quote)).toList = [] := by
            rw [List.map_nil, String.toList_intercalate]
            rfl
          rw [empty, List.nil_append, readItems, nextItem_end]
          simp
      | cons text texts =>
          rw [toList_intercalate_quote, List.append_assoc] at enough ⊢
          obtain ⟨after, read⟩ :=
            readValue_quote text (moreItems texts ++ ']' :: rest) place depth enough
          have next : nextItem true
              ⟨(quote text).toList ++ (moreItems texts ++ ']' :: rest), place⟩ =
              .ok (true, ⟨(quote text).toList ++ (moreItems texts ++ ']' :: rest), place⟩) := by
            rw [toList_quote]
            exact nextItem_first _ place
          have shorter : (moreItems texts ++ ']' :: rest).length < bound := by
            rw [toList_quote, List.length_append, List.length_cons] at enough
            omega
          rw [readItems, next]
          simp only [read]
          exact readItems_moreItems texts [.string text] rest after shorter
            (Nat.lt_succ_of_lt shorter)

/-- A list of texts is read from its items. -/
theorem writes_list (texts : List String) :
    Writes ('[' :: ((",".intercalate (texts.map quote)).toList ++ [']']))
      (.list (texts.map .string)) := by
  intro bound rest place _ enough
  have depth : Family.innerDepth = Family.innerDepth - 1 + 1 := rfl
  rw [List.cons_append, List.append_assoc, List.singleton_append] at enough ⊢
  have read := (readItems_texts texts rest (placeAfter place '[') (Family.innerDepth - 1)
    (Nat.lt_of_succ_lt enough)).map Value.list
  rw [readValue, skipSpace_cons rfl, depth]
  simp only [true_or, if_true, advance_cons]
  exact read

/-! ## Members -/

/-- A key is read from its quoted form. -/
theorem readKey (key : String) (rest : List Char) (place : Place) {bound : Nat}
    (enough : ((quote key).toList ++ rest).length < bound) :
    Reads (nextKey.key bound ⟨(quote key).toList ++ rest, place⟩) (some key) rest := by
  rw [toList_quote, List.cons_append, List.append_assoc, List.singleton_append] at enough ⊢
  have read := readText_escaped key rest (placeAfter place '"') (Nat.lt_of_succ_lt enough)
  rw [nextKey.key, advance_cons]
  exact read.map some

theorem nextKey_first (key : String) (rest : List Char) (place : Place) {bound : Nat}
    (enough : ((quote key).toList ++ rest).length < bound) :
    Reads (nextKey bound true ⟨(quote key).toList ++ rest, place⟩) (some key) rest := by
  have read := readKey key rest place enough
  rw [toList_quote, List.cons_append] at read ⊢
  rw [nextKey, skipSpace_cons rfl]
  exact read

theorem nextKey_comma (key : String) (rest : List Char) (place : Place) {bound : Nat}
    (enough : ((quote key).toList ++ rest).length < bound) :
    Reads (nextKey bound false ⟨',' :: ((quote key).toList ++ rest), place⟩) (some key) rest := by
  have read := readKey key rest (placeAfter place ',') enough
  rw [toList_quote, List.cons_append] at read ⊢
  generalize key.toList.flatMap escape ++ ['"'] ++ rest = text at read ⊢
  have sign := @skipSpace_cons '"' rfl text (placeAfter place ',')
  rw [nextKey, skipSpace_cons rfl]
  simpa [sign] using read

theorem nextKey_end (bound : Nat) (first : Bool) (rest : List Char) (place : Place) :
    nextKey bound first ⟨'}' :: rest, place⟩ = .ok (none, ⟨'}' :: rest, place⟩) := by
  rw [nextKey, skipSpace_cons rfl]
  rfl

theorem readColon_cons (rest : List Char) (place : Place) :
    readColon ⟨':' :: rest, place⟩ = .ok ⟨rest, placeAfter place ':'⟩ := by
  rw [readColon, skipSpace_cons rfl]
  simp

/-- A member of a message: its key, what is written for its value, and the value. -/
structure Member where
  key : String
  written : List Char
  value : Value

/-- What is written for a member behind another one. -/
def Member.chars (member : Member) : List Char :=
  ',' :: ((quote member.key).toList ++ ':' :: member.written)

/-- The members of an object, each behind another one. -/
def moreMembers (members : List Member) : List Char :=
  members.flatMap Member.chars

/-- A member is followed by another one or by the closing brace. -/
theorem delimited_moreMembers (members : List Member) (rest : List Char) :
    Delimited (moreMembers members ++ '}' :: rest) := by
  cases members with
  | nil => exact ⟨'}', _, rfl, .inr (.inr rfl)⟩
  | cons member members => exact ⟨',', _, rfl, .inl rfl⟩

end Json

namespace Family

open Json Json.Cursor

variable {κ : Type} {family : Family κ} {kind : κ}

theorem lift_readColon {α : Type} (read : Cursor → Result α) (rest : List Char)
    (place : Json.Place) :
    (lift (readColon ⟨':' :: rest, place⟩) >>= read) = read ⟨rest, placeAfter place ':'⟩ := by
  rw [readColon_cons]
  rfl

/-- The kind is read from its quoted name. -/
theorem readKind_quote {name : String} (known : family.kinds.lookup name = some kind)
    (rest : List Char) (place : Json.Place) {bound : Nat}
    (enough : ((quote name).toList ++ rest).length < bound) :
    Reads (family.readKind bound ⟨(quote name).toList ++ rest, place⟩) kind rest := by
  obtain ⟨after, read⟩ := readScalar_quote name rest place enough
  refine ⟨after, ?_⟩
  rw [toList_quote, List.cons_append] at read ⊢
  generalize name.toList.flatMap escape ++ ['"'] ++ rest = text at read ⊢
  rw [readKind, skipSpace_cons rfl]
  simp [read, known]

/-- The members behind the kind are read one after the other, up to the closing brace. -/
theorem readNamed_moreMembers (members : List Member)
    (readable : ∀ member ∈ members, Writes member.written member.value)
    (plain : ∀ member ∈ members, member.key ≠ kindField) (done : List (String × Value))
    (place : Json.Place) {bound : Nat} (enough : (moreMembers members ++ ['}']).length < bound) :
    Reads (family.readNamed bound false (some kind) done ⟨moreMembers members ++ ['}'], place⟩)
      (kind, .named (done.reverse ++ members.map fun member => (member.key, member.value))) [] := by
  induction members generalizing done place bound with
  | nil =>
      cases bound with
      | zero => cases enough
      | succ bound =>
          refine ⟨placeAfter place '}', ?_⟩
          rw [readNamed, moreMembers, List.flatMap_nil, List.nil_append, nextKey_end]
          simp
  | cons member members ih =>
      cases bound with
      | zero => cases enough
      | succ bound =>
          have split : moreMembers (member :: members) ++ ['}'] =
              ',' :: ((quote member.key).toList ++
                ':' :: (member.written ++ (moreMembers members ++ ['}']))) := by
            simp [moreMembers, Member.chars]
          rw [split, List.length_cons] at enough
          obtain ⟨afterKey, key⟩ := nextKey_comma member.key
            (':' :: (member.written ++ (moreMembers members ++ ['}']))) place
            (Nat.lt_of_succ_lt enough)
          rw [List.length_append, List.length_cons] at enough
          obtain ⟨after, value⟩ := readable member List.mem_cons_self (bound + 1) _
            (placeAfter afterKey ':') (delimited_moreMembers members []) (by omega)
          have fewer : (moreMembers members ++ ['}']).length < bound := by
            rw [List.length_append] at enough
            omega
          have later := ih (fun other mem => readable other (List.mem_cons_of_mem _ mem))
            (fun other mem => plain other (List.mem_cons_of_mem _ mem))
            ((member.key, member.value) :: done) after fewer
          rw [List.reverse_cons, List.append_assoc, List.singleton_append] at later
          have both : (readColon ⟨':' :: (member.written ++ (moreMembers members ++ ['}'])),
              afterKey⟩ >>= readValue (bound + 1) innerDepth) =
                .ok (member.value, ⟨moreMembers members ++ ['}'], after⟩) := by
            rw [readColon_cons]
            exact value
          rw [split, readNamed, key]
          simp only [if_neg (plain member List.mem_cons_self), both]
          exact later

/-- A message is read from its kind and its members. -/
theorem readEnvelope_written {name : String} (known : family.kinds.lookup name = some kind)
    (members : List Member)
    (readable : ∀ member ∈ members, Writes member.written member.value)
    (plain : ∀ member ∈ members, member.key ≠ kindField) (place : Json.Place) {bound : Nat}
    (enough : ((quote kindField).toList ++ ':' :: ((quote name).toList ++
      (moreMembers members ++ ['}']))).length < bound) :
    Reads (family.readEnvelope bound ⟨'{' :: ((quote kindField).toList ++
      ':' :: ((quote name).toList ++ (moreMembers members ++ ['}']))), place⟩)
      (kind, .named (members.map fun member => (member.key, member.value))) [] := by
  cases bound with
  | zero => cases enough
  | succ bound =>
      obtain ⟨afterKey, key⟩ := nextKey_first kindField
        (':' :: ((quote name).toList ++ (moreMembers members ++ ['}']))) (placeAfter place '{')
        enough
      rw [List.length_append, List.length_cons] at enough
      obtain ⟨afterKind, found⟩ := readKind_quote known (moreMembers members ++ ['}'])
        (placeAfter afterKey ':') (Nat.lt_of_le_of_lt (by omega) enough)
      have fewer : (moreMembers members ++ ['}']).length < bound := by
        rw [List.length_append] at enough
        omega
      have named := @readNamed_moreMembers _ family kind members readable plain [] afterKind _ fewer
      have both : (lift (readColon ⟨':' :: ((quote name).toList ++
          (moreMembers members ++ ['}'])), afterKey⟩) >>= family.readKind (bound + 1)) =
            .ok (kind, ⟨moreMembers members ++ ['}'], afterKind⟩) := by
        rw [lift_readColon]
        exact found
      rw [readEnvelope, skipSpace_cons rfl]
      simp only [advance_cons]
      rw [readNamed, key]
      simp only [if_true, both]
      exact named

/-- A written message is decoded: an object of its kind and its members. -/
theorem decode_written {α : Type} {ofFields : κ → Fields → Except Mismatch α} {name text : String}
    {members : List Member} {message : α} (known : family.kinds.lookup name = some kind)
    (readable : ∀ member ∈ members, Writes member.written member.value)
    (plain : ∀ member ∈ members, member.key ≠ kindField)
    (fields : ofFields kind (.named (members.map fun member => (member.key, member.value))) =
      .ok message)
    (written : text.toList = '{' :: ((quote kindField).toList ++ ':' :: ((quote name).toList ++
      (moreMembers members ++ ['}'])))) :
    family.decode ofFields text = .ok message := by
  have enough : text.toList.length < text.length + 1 := by
    rw [String.length_toList]
    exact Nat.lt_succ_self _
  rw [written] at enough
  obtain ⟨after, read⟩ := readEnvelope_written known members readable plain (.mk 1 0)
    (Nat.lt_of_succ_lt enough)
  rw [decode, Cursor.start, written, read]
  simp only [fields]
  rfl

end Family

/-! ## Requests and responses -/

open Json

theorem Json.Value.asTexts_strings (texts : List String) :
    Json.Value.asTexts (.list (texts.map .string)) = .ok texts := by
  rw [Json.Value.asTexts]
  induction texts with
  | nil => rfl
  | cons text texts ih =>
      rw [List.map_cons, List.mapM_cons, ih]
      rfl

theorem Json.Value.asWord_toNat (word : UInt32) :
    Json.Value.asWord (.number (.natural word.toNat)) = .ok word := by
  rw [Json.Value.asWord, if_pos word.toNat_lt_size, UInt32.ofNat_toNat]

namespace Request

theorem encode_run (text : String) :
    (run text).encode = "\x7b\"kind\":\"run\",\"sourceText\":" ++ quote text ++ "\x7d" := (rfl)

theorem decode_encode (request : Request) : decode request.encode = .ok request := by
  obtain ⟨text⟩ := request
  let member : Member := ⟨"sourceText", (quote text).toList, .string text⟩
  have known : family.kinds.lookup "run" = some .run := by simp [family]
  have readable : ∀ other ∈ [member], Writes other.written other.value := by
    intro other mem
    cases List.mem_singleton.mp mem
    exact writes_quote text
  have plain : ∀ other ∈ [member], other.key ≠ Family.kindField := by
    intro other mem
    cases List.mem_singleton.mp mem
    simp [member, Family.kindField]
  have fields : ofFields .run (.named ([member].map fun member => (member.key, member.value))) =
      .ok (.run text) := by
    simp [member, ofFields, Fields.fill, Json.Value.asText, Fields.require, Except.map]
    rfl
  have written : (encode (.run text)).toList = '{' :: ((quote Family.kindField).toList ++
      ':' :: ((quote "run").toList ++ (moreMembers [member] ++ ['}']))) := by
    have front : "\x7b\"kind\":\"run\",\"sourceText\":".toList =
        '{' :: ((quote Family.kindField).toList ++ ':' :: ((quote "run").toList ++
          ',' :: ((quote "sourceText").toList ++ [':']))) := by decide +kernel
    have back : "\x7d".toList = ['}'] := by decide +kernel
    rw [encode_run, String.toList_append, String.toList_append, front, back]
    simp only [moreMembers, Member.chars, member, List.flatMap_cons, List.flatMap_nil,
      List.append_assoc, List.cons_append, List.nil_append]
  rw [decode]
  exact Family.decode_written known readable plain fields written

end Request

namespace Response

theorem decode_encode_output (lines : List String) :
    decode (encode (.output lines)) = .ok (.output lines) := by
  let member : Member := ⟨"lines", '[' :: ((",".intercalate (lines.map quote)).toList ++ [']']),
    .list (lines.map .string)⟩
  have known : family.kinds.lookup "output" = some .output := by simp [family]
  have readable : ∀ other ∈ [member], Writes other.written other.value := by
    intro other mem
    cases List.mem_singleton.mp mem
    exact writes_list lines
  have plain : ∀ other ∈ [member], other.key ≠ Family.kindField := by
    intro other mem
    cases List.mem_singleton.mp mem
    simp [member, Family.kindField]
  have fields : ofFields .output (.named ([member].map fun member => (member.key, member.value))) =
      .ok (.output lines) := by
    simp [member, ofFields, Fields.fill, Value.asTexts_strings, Fields.require, Except.map]
    rfl
  have written : (encode (.output lines)).toList = '{' :: ((quote Family.kindField).toList ++
      ':' :: ((quote "output").toList ++ (moreMembers [member] ++ ['}']))) := by
    have front : "\x7b\"kind\":\"output\",\"lines\":[".toList =
        '{' :: ((quote Family.kindField).toList ++ ':' :: ((quote "output").toList ++
          ',' :: ((quote "lines").toList ++ [':', '[']))) := by decide +kernel
    have back : "]\x7d".toList = [']', '}'] := by decide +kernel
    rw [encode_output, String.toList_append, String.toList_append, front, back]
    simp only [moreMembers, Member.chars, member, List.flatMap_cons, List.flatMap_nil,
      List.append_assoc, List.cons_append, List.nil_append]
  rw [decode]
  exact Family.decode_written known readable plain fields written

theorem decode_encode_error (message : String) (pos : Pos) :
    decode (encode (.error message pos)) = .ok (.error message pos) := by
  let members : List Member := [⟨"message", (quote message).toList, .string message⟩,
    ⟨"line", (toString pos.line.toNat).toList, .number (.natural pos.line.toNat)⟩,
    ⟨"col", (toString pos.col.toNat).toList, .number (.natural pos.col.toNat)⟩]
  have fits (word : UInt32) : word.toNat < UInt64.size :=
    Nat.lt_trans word.toNat_lt_size (by decide)
  have known : family.kinds.lookup "error" = some .error := by simp [family, List.lookup_cons]
  have readable : ∀ member ∈ members, Writes member.written member.value := by
    simp only [members, List.forall_mem_cons, List.not_mem_nil, false_imp_iff, implies_true,
      and_true]
    exact ⟨writes_quote message, writes_number (fits pos.line), writes_number (fits pos.col)⟩
  have plain : ∀ member ∈ members, member.key ≠ Family.kindField := by
    simp [members, Family.kindField]
  have fields : ofFields .error (.named (members.map fun member => (member.key, member.value))) =
      .ok (.error message pos) := by
    simp [members, ofFields, ErrorDraft.take, Fields.fill, Value.asText, Value.asWord_toNat,
      Fields.require, Except.map]
    rfl
  have written : (encode (.error message pos)).toList = '{' :: ((quote Family.kindField).toList ++
      ':' :: ((quote "error").toList ++ (moreMembers members ++ ['}']))) := by
    have front : "\x7b\"kind\":\"error\",\"message\":".toList =
        '{' :: ((quote Family.kindField).toList ++ ':' :: ((quote "error").toList ++
          ',' :: ((quote "message").toList ++ [':']))) := by decide +kernel
    have line : ",\"line\":".toList = ',' :: ((quote "line").toList ++ [':']) := by decide +kernel
    have col : ",\"col\":".toList = ',' :: ((quote "col").toList ++ [':']) := by decide +kernel
    have back : "\x7d".toList = ['}'] := by decide +kernel
    rw [encode_error]
    simp only [String.toList_append, front, line, col, back, moreMembers, Member.chars, members,
      List.flatMap_cons, List.flatMap_nil, List.append_assoc, List.cons_append, List.nil_append]
  rw [decode]
  exact Family.decode_written known readable plain fields written

theorem decode_encode (response : Response) : decode response.encode = .ok response := by
  cases response with
  | output lines => exact decode_encode_output lines
  | error message pos => exact decode_encode_error message pos

/-- Different responses are written differently. -/
theorem encode_injective {left right : Response} (same : left.encode = right.encode) :
    left = right := by
  have decoded := decode_encode left
  rw [same, decode_encode right] at decoded
  exact (Except.ok.inj decoded).symm

end Response

/-- Every message is decoded as it was encoded, and a response is written without control
characters, so on one line, and differently from all others. -/
theorem wire_round_trip :
    (∀ response : Response, Response.decode response.encode = .ok response ∧
      ∀ c ∈ response.encode.toList, 0x20 ≤ c.toNat) ∧
    (∀ request : Request, Request.decode request.encode = .ok request) ∧
    Function.Injective Response.encode :=
  ⟨fun response => ⟨response.decode_encode, response.printable_encode⟩, Request.decode_encode,
    fun _ _ => Response.encode_injective⟩

end LineScript
