import Mathlib.Order.Basic
import Mathlib.Data.String.Basic

/-!
Texts in the order of their bytes. UTF-8 keeps the order of characters: of two characters the one with
the smaller code has the smaller byte at the first place where their bytes differ.
-/
namespace Chip8Console.Text

private def Parts : List UInt8 → List UInt8 → Prop
  | x :: a, y :: b => x < y ∨ x = y ∧ Parts a b
  | _, _ => False

private theorem Parts.append_lt {a b : List UInt8} (h : Parts a b) (c d : List UInt8) :
    a ++ c < b ++ d := by
  induction a generalizing b with
  | nil => cases b <;> exact h.elim
  | cons x a ih =>
    cases b with
    | nil => exact h.elim
    | cons y b =>
      rw [List.cons_append, List.cons_append, List.cons_lt_cons_iff]
      exact h.imp_right fun ⟨same, later⟩ => ⟨same, ih later⟩

private theorem digits_lt {m n : Nat} (h : m < n) :
    m / 262144 < n / 262144 ∨ m / 262144 = n / 262144 ∧ (m / 4096 % 64 < n / 4096 % 64 ∨
      m / 4096 % 64 = n / 4096 % 64 ∧ (m / 64 % 64 < n / 64 % 64 ∨
        m / 64 % 64 = n / 64 % 64 ∧ m % 64 < n % 64)) := by
  -- numbers compare like their digits to base 64
  omega

private theorem parts_utf8EncodeChar {c d : Char} (h : c < d) :
    Parts (String.utf8EncodeChar c) (String.utf8EncodeChar d) := by
  have less : c.val.toNat < d.val.toNat := h
  have last : d.val.toNat < 0x110000 := by
    have := d.valid
    unfold UInt32.isValidChar Nat.isValidChar at this
    omega
  unfold String.utf8EncodeChar
  generalize c.val.toNat = m at less
  generalize d.val.toNat = n at less last
  dsimp only
  have digits := digits_lt less
  -- a character that takes more bytes begins with a larger one; of two that take as many, digits decide
  repeat' split
  all_goals
    simp only [Parts, UInt8.lt_iff_toNat_lt, ← UInt8.toNat_inj, UInt8.toNat_ofNat', and_false, or_false]
    simp (disch := omega) only [Nat.mod_eq_of_lt]
    omega

private theorem flatMap_utf8EncodeChar_lt {a b : List Char} (h : a < b) :
    a.flatMap String.utf8EncodeChar < b.flatMap String.utf8EncodeChar := by
  induction a generalizing b with
  | nil =>
    cases b with
    | nil => exact absurd h (List.lt_irrefl _)
    | cons d b =>
      obtain ⟨byte, bytes, encoded⟩ := List.exists_cons_of_ne_nil (String.utf8EncodeChar_ne_nil (c := d))
      rw [List.flatMap_nil, List.flatMap_cons, encoded]
      exact List.nil_lt_cons _ _
  | cons c a ih =>
    cases b with
    | nil => exact absurd h (List.not_lt_nil _)
    | cons d b =>
      rw [List.flatMap_cons, List.flatMap_cons]
      obtain smaller | ⟨rfl, later⟩ := List.cons_lt_cons_iff.mp h
      · exact (parts_utf8EncodeChar smaller).append_lt _ _
      · exact List.append_left_lt (ih later)

/-- Of two texts the smaller has the smaller bytes. -/
theorem toUTF8_lt {a b : String} (h : a < b) : a.toUTF8.data.toList < b.toUTF8.data.toList := by
  have bytes (s : String) : s.toUTF8.data.toList = s.toList.flatMap String.utf8EncodeChar := by
    rw [String.toUTF8, ← String.utf8Encode_toList, List.utf8Encode]
    simp
  rw [bytes, bytes]
  exact flatMap_utf8EncodeChar_lt (String.lt_iff_toList_lt.mp h)

end Chip8Console.Text
