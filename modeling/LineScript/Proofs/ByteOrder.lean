/-!
# The order of bytes

Texts are compared by their characters, and characters by their code points. Written as bytes in
UTF-8, texts compare byte by byte in the same order, whatever characters they are made of: `utf8_lt`.

A character is a first byte, which tells how many bytes follow, and then digits in base 64. Of two
characters of the same length the first digit that differs decides, by induction on the number of
digits; of two lengths the first byte does. Either way there is a byte at which the two differ, so
neither is the beginning of the other, and what stands behind them does not matter. In an encoding
of several bytes none is below 128, so such a byte is always a character of its own.
-/

namespace LineScript

/-- The bytes of a text in UTF-8. -/
def utf8 (text : String) : List UInt8 :=
  text.toByteArray.data.toList

theorem utf8_eq (text : String) : utf8 text = text.toList.flatMap String.utf8EncodeChar := by
  rw [utf8, ← String.utf8Encode_toList, List.utf8Encode, List.toList_data_toByteArray]

/-- Two sequences of bytes differ somewhere, and there the first one has the lower byte. -/
inductive Diverge : List UInt8 → List UInt8 → Prop
  | here {low high : UInt8} (lt : low < high) (left right : List UInt8) :
      Diverge (low :: left) (high :: right)
  | later (first : UInt8) {left right : List UInt8} (rest : Diverge left right) :
      Diverge (first :: left) (first :: right)

namespace Diverge

variable {left right : List UInt8}

/-- What follows does not matter. -/
theorem append (apart : Diverge left right) (behind behind' : List UInt8) :
    Diverge (left ++ behind) (right ++ behind') := by
  induction apart with
  | here lt left right => exact .here lt _ _
  | later first _ ih => exact .later first ih

theorem behind (apart : Diverge left right) (front : List UInt8) :
    Diverge (front ++ left) (front ++ right) := by
  induction front with
  | nil => exact apart
  | cons first front ih => exact .later first ih

theorem lt (apart : Diverge left right) : left < right := by
  induction apart with
  | here lt left right => exact List.Lex.rel lt
  | later first _ ih => exact List.Lex.cons ih

end Diverge

/-! ## Characters -/

theorem ofNat_lt_ofNat {low high : Nat} (lt : low < high) (small : high < 256) :
    UInt8.ofNat low < UInt8.ofNat high := by
  rw [UInt8.lt_iff_toNat_lt, UInt8.toNat_ofNat_of_lt' small,
    UInt8.toNat_ofNat_of_lt' (Nat.lt_trans lt small)]
  exact lt

/-- A number as a first byte, which is marked, and `count` digits in base 64 behind it. -/
def marked (mark : Nat) : Nat → Nat → List UInt8
  | 0, number => [.ofNat (number + mark)]
  | count + 1, number => marked mark count (number / 64) ++ [.ofNat (number % 64 + 128)]

/-- What the first byte has to hold of a number. -/
def leading : Nat → Nat → Nat
  | 0, number => number
  | count + 1, number => leading count (number / 64)

/-- Of two numbers with as many digits the bytes of the lower one come first. -/
theorem diverge_marked {mark : Nat} (count : Nat) {low high : Nat} (lt : low < high)
    (small : leading count high + mark < 256) :
    Diverge (marked mark count low) (marked mark count high) := by
  induction count generalizing low high with
  | zero => exact .here (ofNat_lt_ofNat (Nat.add_lt_add_right lt mark) small) _ _
  | succ count ih =>
      rcases Nat.lt_or_ge (low / 64) (high / 64) with front | same
      · exact (ih front small).append _ _
      · have front : low / 64 = high / 64 := by omega
        rw [marked, marked, front]
        exact Diverge.behind (.here (ofNat_lt_ofNat (by omega) (by omega)) _ _) _

/-- No byte of a number behind a high mark is low. -/
theorem le_of_mem_marked {mark : Nat} (high : 128 ≤ mark) (count : Nat) {number : Nat}
    (small : leading count number + mark < 256) {byte : UInt8}
    (mem : byte ∈ marked mark count number) : 128 ≤ byte.toNat := by
  induction count generalizing number with
  | zero =>
      rw [leading] at small
      rw [List.mem_singleton.mp mem, UInt8.toNat_ofNat_of_lt' small]
      omega
  | succ count ih =>
      rcases List.mem_append.mp mem with front | last
      · exact ih small front
      · have byte_lt : number % 64 + 128 < 256 := by omega
        rw [List.mem_singleton.mp last, UInt8.toNat_ofNat_of_lt' byte_lt]
        omega

/-- How the size of a number decides the mark of its first byte and how many bytes follow. -/
inductive Encodes (number : Nat) : List UInt8 → Prop
  | one (most : number < 0x80) : Encodes number (marked 0 0 number)
  | two (least : 0x80 ≤ number) (most : number < 0x800) : Encodes number (marked 192 1 number)
  | three (least : 0x800 ≤ number) (most : number < 0x10000) : Encodes number (marked 224 2 number)
  | four (least : 0x10000 ≤ number) (most : number < 0x110000) :
      Encodes number (marked 240 3 number)

theorem codePoint_lt (c : Char) : c.toNat < 0x110000 := by
  have valid : c.toNat < 0xd800 ∨ 0xdfff < c.toNat ∧ c.toNat < 0x110000 := c.valid
  omega

/-- Every character is encoded by its code point. -/
theorem encodes_utf8EncodeChar (c : Char) : Encodes c.toNat (String.utf8EncodeChar c) := by
  have last : c.val.toNat < 0x110000 := codePoint_lt c
  change Encodes c.val.toNat _
  unfold String.utf8EncodeChar
  dsimp only
  generalize c.val.toNat = number at last
  split
  · next most => exact .one (by omega)
  split
  · next most =>
    rw [show number / 64 % 0x20 + 0xc0 = number / 64 + 192 by omega]
    exact .two (by omega) (by omega)
  split
  · next most =>
    rw [show number / 4096 % 0x10 + 0xe0 = number / 64 / 64 + 224 by omega]
    exact .three (by omega) (by omega)
  · next least =>
    rw [show number / 262144 % 8 + 0xf0 = number / 64 / 64 / 64 + 240 by omega,
      show number / 4096 % 64 + 0x80 = number / 64 / 64 % 64 + 128 by omega]
    exact .four (by omega) (by omega)

/-- A low byte stands for itself. -/
theorem Encodes.eq_of_mem {number : Nat} {bytes : List UInt8} (encodes : Encodes number bytes)
    {byte : UInt8} (mem : byte ∈ bytes) (low : byte.toNat < 128) : number = byte.toNat := by
  cases encodes with
  | one most =>
      have byte_lt : number + 0 < 256 := by omega
      rw [List.mem_singleton.mp mem, UInt8.toNat_ofNat_of_lt' byte_lt]
      rfl
  | two least most =>
      have := le_of_mem_marked (by decide) 1 (by simp only [leading]; omega) mem
      omega
  | three least most =>
      have := le_of_mem_marked (by decide) 2 (by simp only [leading]; omega) mem
      omega
  | four least most =>
      have := le_of_mem_marked (by decide) 3 (by simp only [leading]; omega) mem
      omega

/-- The bytes of two characters differ as their code points do. -/
theorem Encodes.diverge {low high : Nat} {left right : List UInt8} (encodes : Encodes low left)
    (encodes' : Encodes high right) (lt : low < high) : Diverge left right := by
  cases encodes with
  | one most =>
      cases encodes' with
      | one most' => exact diverge_marked 0 lt (by simp only [leading]; omega)
      | two least most' => exact .here (ofNat_lt_ofNat (by omega) (by omega)) _ _
      | three least most' => exact .here (ofNat_lt_ofNat (by omega) (by omega)) _ _
      | four least most' => exact .here (ofNat_lt_ofNat (by omega) (by omega)) _ _
  | two least most =>
      cases encodes' with
      | one most' => omega
      | two least' most' => exact diverge_marked 1 lt (by simp only [leading]; omega)
      | three least' most' => exact .here (ofNat_lt_ofNat (by omega) (by omega)) _ _
      | four least' most' => exact .here (ofNat_lt_ofNat (by omega) (by omega)) _ _
  | three least most =>
      cases encodes' with
      | one most' => omega
      | two least' most' => omega
      | three least' most' => exact diverge_marked 2 lt (by simp only [leading]; omega)
      | four least' most' => exact .here (ofNat_lt_ofNat (by omega) (by omega)) _ _
  | four least most =>
      cases encodes' with
      | one most' => omega
      | two least' most' => omega
      | three least' most' => omega
      | four least' most' => exact diverge_marked 3 lt (by simp only [leading]; omega)

/-! ## Texts -/

/-- The bytes of a text come before those of a later one. -/
theorem flatMap_utf8EncodeChar_lt {left right : List Char} (lt : List.Lex (· < ·) left right) :
    left.flatMap String.utf8EncodeChar < right.flatMap String.utf8EncodeChar := by
  induction lt with
  | @nil c rest =>
      rw [List.flatMap_nil, List.flatMap_cons]
      obtain ⟨first, more, bytes⟩ := List.exists_cons_of_ne_nil (String.utf8EncodeChar_ne_nil (c := c))
      rw [bytes]
      exact List.Lex.nil
  | @rel c rest d rest' less =>
      have apart := (encodes_utf8EncodeChar c).diverge (encodes_utf8EncodeChar d) less
      rw [List.flatMap_cons, List.flatMap_cons]
      exact (apart.append _ _).lt
  | @cons c rest rest' _ ih =>
      rw [List.flatMap_cons, List.flatMap_cons]
      exact List.append_left_lt ih

/-- Texts in order are in order byte by byte. -/
theorem utf8_lt {text other : String} (lt : text < other) : utf8 text < utf8 other := by
  rw [utf8_eq, utf8_eq]
  exact flatMap_utf8EncodeChar_lt lt

end LineScript
