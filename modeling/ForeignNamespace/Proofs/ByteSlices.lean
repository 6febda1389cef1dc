import ForeignNamespace.Proofs.Utf8Order

namespace ForeignNamespace.Utf8

/-- The part of a text from one position in its bytes up to another; there is none unless both are
ends of characters and in order. -/
def slice? (start stop : Nat) (text : String) : Option String :=
  if h : (String.Pos.Raw.mk start).IsValid text ∧ (String.Pos.Raw.mk stop).IsValid text ∧
      start ≤ stop then
    some (text.extract (text.pos ⟨start⟩ h.1) (text.pos ⟨stop⟩ h.2.1))
  else none

theorem length_toList (text : String) : length text.toList = text.utf8ByteSize := by
  conv_rhs => rw [← String.ofList_toList (s := text), String.utf8ByteSize_ofList]
  induction text.toList with
  | nil => rfl
  | cons c cs ih => rw [length, ih, String.utf8Len_cons, Nat.add_comm]

theorem slice?_append (front part back : String) :
    slice? front.utf8ByteSize (front.utf8ByteSize + part.utf8ByteSize) (front ++ (part ++ back)) =
      some part := by
  have hstart : (String.Pos.Raw.mk front.utf8ByteSize).IsValid (front ++ (part ++ back)) :=
    String.Pos.Raw.isValid_iff_exists_append.mpr ⟨front, part ++ back, rfl, rfl⟩
  have hstop : (String.Pos.Raw.mk (front.utf8ByteSize + part.utf8ByteSize)).IsValid
      (front ++ (part ++ back)) := by
    refine String.Pos.Raw.isValid_iff_exists_append.mpr ⟨front ++ part, back, ?_, ?_⟩
    · rw [String.append_assoc]
    · rw [String.rawEndPos, String.utf8ByteSize_append]
  rw [slice?, dif_pos ⟨hstart, hstop, Nat.le_add_right _ _⟩, Option.some_inj,
    ← String.toByteArray_inj, String.toByteArray_extract, String.offset_pos, String.offset_pos,
    String.toByteArray_append, String.toByteArray_append]
  change (front.toByteArray ++ (part.toByteArray ++ back.toByteArray)).extract
    (front.toByteArray.size + 0) (front.toByteArray.size + part.toByteArray.size) =
      part.toByteArray
  rw [ByteArray.extract_append_size_add, ByteArray.extract_append_eq_left rfl]

/-- Between the ends of characters the slice is the cut that takes whole characters. -/
theorem slice?_ofList (front part back : List Char) :
    slice? (length front) (length front + length part) (String.ofList (front ++ (part ++ back))) =
      some (String.ofList part) := by
  have hslice := slice?_append (String.ofList front) (String.ofList part) (String.ofList back)
  rwa [← length_toList, ← length_toList, String.toList_ofList, String.toList_ofList,
    ← String.ofList_append, ← String.ofList_append] at hslice

/-- Inside of a character no slice ends. -/
example : slice? 1 3 "aéb" = some "é" ∧ slice? 1 2 "aéb" = none := by decide

/-- No other character has the byte of a dot among its bytes. -/
theorem dot_not_mem_encode {c : Char} (h : c ≠ '.') : '.'.toUInt8 ∉ String.utf8EncodeChar c := by
  have hcode : c.val.toNat ≠ 46 := fun heq => h (Char.ext (UInt32.toNat_inj.mp heq))
  have hmax := toNat_lt_size c
  have hdot : '.'.toUInt8.toNat = 46 := rfl
  simp only [String.utf8EncodeChar]
  generalize c.val.toNat = v at *
  -- A single byte is the code of its character, and in all longer ones the first bit is set.
  split_ifs
  all_goals
    simp (disch := omega) only [List.mem_cons, List.not_mem_nil, or_false, not_or,
      ← UInt8.toNat_inj, hdot, UInt8.toNat_ofNat', Nat.reducePow, Nat.mod_eq_of_lt]
    omega

end ForeignNamespace.Utf8
