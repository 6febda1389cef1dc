import ForeignNamespace.Text.Utf8
import Mathlib.Data.String.Basic

namespace ForeignNamespace.Utf8

def bytes (text : String) : List UInt8 := text.toList.flatMap String.utf8EncodeChar

theorem toByteArray_bytes (text : String) : (bytes text).toByteArray = text.toByteArray := by
  conv_rhs => rw [← String.ofList_toList (s := text)]
  rfl

theorem toNat_lt_size (c : Char) : c.val.toNat < 1114112 := by
  have hvalid : c.val.toNat.isValidChar := c.valid
  rw [Nat.isValidChar] at hvalid
  omega

theorem digits_lt_of_lt {v u : Nat} (h : v < u) :
    v / 262144 < u / 262144 ∨ v / 262144 = u / 262144 ∧
      (v / 4096 % 64 < u / 4096 % 64 ∨ v / 4096 % 64 = u / 4096 % 64 ∧
        (v / 64 % 64 < u / 64 % 64 ∨ v / 64 % 64 = u / 64 % 64 ∧ v % 64 < u % 64)) := by
  omega

/-- Of two characters the smaller has the smaller bytes, whatever follows them. -/
theorem encode_append_lt {c d : Char} (h : c < d) (cs ds : List UInt8) :
    String.utf8EncodeChar c ++ cs < String.utf8EncodeChar d ++ ds := by
  have hmax := toNat_lt_size d
  have hdigits := digits_lt_of_lt (show c.val.toNat < d.val.toNat from h)
  simp only [String.utf8EncodeChar]
  generalize c.val.toNat = v at *
  generalize d.val.toNat = u at *
  -- One case for each two lengths; where they differ, the first bytes decide.
  split_ifs
  all_goals
    simp (disch := omega) only [List.cons_append, List.nil_append, List.cons_lt_cons_iff,
      UInt8.lt_iff_toNat_lt, ← UInt8.toNat_inj, UInt8.toNat_ofNat', Nat.reducePow,
      Nat.mod_eq_of_lt]
    omega

theorem nil_lt_encode_append (c : Char) (cs : List UInt8) :
    [] < String.utf8EncodeChar c ++ cs := by
  obtain ⟨b, bs, hb⟩ := List.exists_cons_of_ne_nil (String.utf8EncodeChar_ne_nil (c := c))
  rw [hb, List.cons_append]
  exact List.nil_lt_cons b _

theorem bytes_lt_of_lt {s t : String} (h : s < t) : bytes s < bytes t := by
  rw [String.lt_iff_toList_lt] at h
  rw [bytes, bytes]
  generalize s.toList = cs at h ⊢
  generalize t.toList = ds at h ⊢
  induction h with
  | nil => exact nil_lt_encode_append _ _
  | rel h => exact encode_append_lt h _ _
  | cons h ih =>
      rw [List.flatMap_cons, List.flatMap_cons]
      exact List.append_left_lt ih

/-- Texts are ordered as their bytes are. -/
theorem bytes_lt_bytes_iff {s t : String} : bytes s < bytes t ↔ s < t := by
  refine ⟨fun h => ?_, bytes_lt_of_lt⟩
  rcases lt_trichotomy s t with hlt | rfl | hgt
  · exact hlt
  · exact absurd h (List.lt_irrefl _)
  · exact absurd h (List.lt_asymm (bytes_lt_of_lt hgt))

theorem compare_eq_lt_iff {s t : String} : compare s t = .lt ↔ bytes s < bytes t := by
  rw [bytes_lt_bytes_iff]
  exact compareOfLessAndEq_eq_lt

end ForeignNamespace.Utf8
