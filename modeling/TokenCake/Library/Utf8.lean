import Mathlib.Data.List.Infix
import Mathlib.Tactic.Common

/-!
# Texts with byte positions

A text is a list of characters that is addressed by positions in its UTF-8 encoding.  A
position is a boundary if no character straddles it.  The encoding of a text that is not
empty only occurs at boundaries.
-/

namespace TokenCake

open List

namespace Utf8

/-- The UTF-8 encoding of a text. -/
def encode (text : List Char) : List UInt8 := text.flatMap String.utf8EncodeChar

/-- Number of bytes of a text. -/
def byteLength (text : List Char) : Nat := (encode text).length

/-- Split a text at a byte position, if the position is a boundary. -/
def splitAt? : List Char → Nat → Option (List Char × List Char)
  | text, 0 => some ([], text)
  | [], _ + 1 => none
  | char :: rest, position + 1 =>
    if char.utf8Size ≤ position + 1 then
      (splitAt? rest (position + 1 - char.utf8Size)).map fun parts =>
        (char :: parts.1, parts.2)
    else none

/-- No character straddles a byte position of a text. -/
def IsBoundary (text : List Char) (position : Nat) : Prop :=
  (splitAt? text position).isSome = true

instance (text : List Char) (position : Nat) : Decidable (IsBoundary text position) :=
  inferInstanceAs (Decidable (_ = true))

/-- The last boundary that is not behind a byte position. -/
def floorCharBoundary : List Char → Nat → Nat
  | [], _ => 0
  | char :: rest, position =>
    if char.utf8Size ≤ position then
      char.utf8Size + floorCharBoundary rest (position - char.utf8Size)
    else 0

variable {text front back pattern : List Char} {char other : Char} {position : Nat}

@[simp] theorem encode_nil : encode [] = [] := rfl

@[simp] theorem encode_cons (char : Char) (rest : List Char) :
    encode (char :: rest) = String.utf8EncodeChar char ++ encode rest := rfl

@[simp] theorem encode_append (front back : List Char) :
    encode (front ++ back) = encode front ++ encode back :=
  flatMap_append

@[simp] theorem byteLength_nil : byteLength [] = 0 := rfl

@[simp] theorem byteLength_cons (char : Char) (rest : List Char) :
    byteLength (char :: rest) = char.utf8Size + byteLength rest := by
  unfold byteLength
  rw [encode_cons, length_append, String.length_utf8EncodeChar]

@[simp] theorem byteLength_append (front back : List Char) :
    byteLength (front ++ back) = byteLength front + byteLength back := by
  unfold byteLength
  rw [encode_append, length_append]

theorem byteLength_pos (nonempty : text ≠ []) : 0 < byteLength text := by
  obtain ⟨char, rest, rfl⟩ := exists_cons_of_ne_nil nonempty
  have := char.utf8Size_pos
  rw [byteLength_cons]
  omega

/-- The end of a front part is a boundary of the whole text. -/
theorem splitAt?_append (front back : List Char) :
    splitAt? (front ++ back) (byteLength front) = some (front, back) := by
  induction front with
  | nil => cases back <;> rfl
  | cons char rest ih =>
    have sized := char.utf8Size_pos
    obtain ⟨position, same⟩ : ∃ position, byteLength (char :: rest) = position + 1 :=
      ⟨byteLength (char :: rest) - 1, by rw [byteLength_cons]; omega⟩
    have measured : position + 1 - char.utf8Size = byteLength rest := by
      rw [← same, byteLength_cons, Nat.add_sub_cancel_left]
    have fits : char.utf8Size ≤ position + 1 := by
      rw [← same, byteLength_cons]
      omega
    rw [same, cons_append, splitAt?, if_pos fits, measured, ih]
    rfl

theorem splitAt?_eq_some_iff :
    splitAt? text position = some (front, back) ↔
      text = front ++ back ∧ byteLength front = position := by
  refine ⟨fun split => ?_, fun ⟨same, measured⟩ => by rw [same, ← measured, splitAt?_append]⟩
  induction text generalizing position front with
  | nil =>
    cases position with
    | zero =>
      cases split
      exact ⟨rfl, rfl⟩
    | succ position => cases split
  | cons char rest ih =>
    cases position with
    | zero =>
      cases split
      exact ⟨rfl, rfl⟩
    | succ position =>
      unfold splitAt? at split
      split at split
      · next fits =>
        obtain ⟨⟨first, others⟩, parted, same⟩ := Option.map_eq_some_iff.mp split
        cases same
        obtain ⟨rfl, measured⟩ := ih parted
        refine ⟨rfl, ?_⟩
        rw [byteLength_cons, measured]
        omega
      · cases split

theorem isBoundary_iff :
    IsBoundary text position ↔
      ∃ front back, text = front ++ back ∧ byteLength front = position := by
  unfold IsBoundary
  rw [Option.isSome_iff_exists]
  constructor
  · rintro ⟨⟨front, back⟩, split⟩
    exact ⟨front, back, splitAt?_eq_some_iff.mp split⟩
  · rintro ⟨front, back, parts⟩
    exact ⟨(front, back), splitAt?_eq_some_iff.mpr parts⟩

theorem IsBoundary.append (bounded : IsBoundary text position) (more : List Char) :
    IsBoundary (text ++ more) position := by
  obtain ⟨front, back, rfl, measured⟩ := isBoundary_iff.mp bounded
  exact isBoundary_iff.mpr ⟨front, back ++ more, by rw [append_assoc], measured⟩

theorem IsBoundary.le (bounded : IsBoundary text position) : position ≤ byteLength text := by
  obtain ⟨front, back, rfl, rfl⟩ := isBoundary_iff.mp bounded
  rw [byteLength_append]
  omega

/-- Of two front parts of a text, the one with fewer bytes is a front part of the other. -/
theorem prefix_of_byteLength_le (first : front <+: text) (second : back <+: text)
    (shorter : byteLength front ≤ byteLength back) : front <+: back := by
  rcases Nat.le_total front.length back.length with fewer | more
  · exact prefix_of_prefix_length_le first second fewer
  · obtain ⟨rest, rfl⟩ := prefix_of_prefix_length_le second first more
    have empty : rest = [] := by
      by_contra nonempty
      have := byteLength_pos nonempty
      rw [byteLength_append] at shorter
      omega
    rw [empty, append_nil]

theorem isBoundary_zero (text : List Char) : IsBoundary text 0 := by
  cases text <;> rfl

theorem isBoundary_byteLength (text : List Char) : IsBoundary text (byteLength text) :=
  isBoundary_iff.mpr ⟨text, [], by simp, rfl⟩

theorem isBoundary_floorCharBoundary (text : List Char) (position : Nat) :
    IsBoundary text (floorCharBoundary text position) := by
  induction text generalizing position with
  | nil => rfl
  | cons char rest ih =>
    unfold floorCharBoundary
    split
    · obtain ⟨front, back, same, measured⟩ :=
        isBoundary_iff.mp (ih (position - char.utf8Size))
      refine isBoundary_iff.mpr ⟨char :: front, back, by rw [same, cons_append], ?_⟩
      rw [byteLength_cons, measured]
    · exact isBoundary_zero _

theorem floorCharBoundary_append (front back : List Char) :
    floorCharBoundary (front ++ back) (byteLength front) = byteLength front := by
  induction front with
  | nil =>
    cases back with
    | nil => rfl
    | cons char rest =>
      have := char.utf8Size_pos
      rw [nil_append, floorCharBoundary, if_neg (by rw [byteLength_nil]; omega)]
      rfl
  | cons char rest ih =>
    rw [cons_append, byteLength_cons, floorCharBoundary, if_pos (by omega),
      Nat.add_sub_cancel_left, ih]

/-- No encoding of a character begins another one. -/
theorem eq_of_encodeChar_append
    (same : String.utf8EncodeChar char ++ rest = String.utf8EncodeChar other ++ more) :
    char = other ∧ rest = more := by
  have decoded := congrArg (fun bytes => bytes.toByteArray.utf8DecodeChar? 0) same
  simp only [toByteArray_append, ByteArray.utf8DecodeChar?_utf8EncodeChar_append,
    Option.some.injEq] at decoded
  subst decoded
  exact ⟨rfl, append_cancel_left same⟩

/-- Where an encoding stands at a boundary, the text itself stands. -/
theorem prefix_of_encode_prefix (starts : encode pattern <+: encode text) : pattern <+: text := by
  induction pattern generalizing text with
  | nil => exact nil_prefix
  | cons char rest ih =>
    obtain ⟨more, whole⟩ := starts
    rw [encode_cons, append_assoc] at whole
    cases text with
    | nil => simp at whole
    | cons first others =>
      rw [encode_cons] at whole
      obtain ⟨rfl, rest⟩ := eq_of_encodeChar_append whole
      exact cons_prefix_cons.mpr ⟨rfl, ih ⟨more, rest⟩⟩

theorem isBoundary_of_isUTF8FirstByte (found : (encode text)[position]? = some byte)
    (first : byte.IsUTF8FirstByte) : IsBoundary text position := by
  induction text generalizing position with
  | nil => simp at found
  | cons char rest ih =>
    rw [encode_cons] at found
    by_cases inside : position < (String.utf8EncodeChar char).length
    · rw [getElem?_append_left inside, getElem?_eq_getElem inside] at found
      cases found
      rw [UInt8.isUTF8FirstByte_getElem_utf8EncodeChar] at first
      subst first
      exact isBoundary_zero _
    · have behind : (String.utf8EncodeChar char).length ≤ position := by omega
      rw [getElem?_append_right behind] at found
      rw [String.length_utf8EncodeChar] at behind found
      obtain ⟨front, back, rfl, measured⟩ := isBoundary_iff.mp (ih found)
      refine isBoundary_iff.mpr ⟨char :: front, back, rfl, ?_⟩
      rw [byteLength_cons, measured]
      omega

/-- The encoding of a text only occurs where the text itself occurs. -/
theorem exists_parts_of_encode_prefix_drop (nonempty : pattern ≠ [])
    (occurs : encode pattern <+: (encode text).drop position) :
    ∃ front back, text = front ++ pattern ++ back ∧ byteLength front = position := by
  obtain ⟨char, rest, rfl⟩ := exists_cons_of_ne_nil nonempty
  obtain ⟨more, whole⟩ := occurs
  have sized : 0 < (String.utf8EncodeChar char).length := by
    rw [String.length_utf8EncodeChar]
    exact char.utf8Size_pos
  have found : (encode text)[position]? = some (String.utf8EncodeChar char)[0] := by
    rw [← Nat.add_zero position, ← getElem?_drop, ← whole, encode_cons, append_assoc,
      getElem?_append_left sized, getElem?_eq_getElem sized]
  have bounded := isBoundary_of_isUTF8FirstByte found
    UInt8.isUTF8FirstByte_getElem_zero_utf8EncodeChar
  obtain ⟨front, back, rfl, rfl⟩ := isBoundary_iff.mp bounded
  have starts : encode (char :: rest) <+: encode back := by
    refine ⟨more, whole.trans ?_⟩
    rw [encode_append, byteLength, drop_left]
  obtain ⟨others, rfl⟩ := prefix_of_encode_prefix starts
  exact ⟨front, others, by rw [append_assoc], rfl⟩

end Utf8

end TokenCake
