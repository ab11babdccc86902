import Mathlib.Data.List.Lex
import Mathlib.Order.Fin.Basic

/-!
# Go strings

A Go `string` is a sequence of bytes. The state store compares keys as Go compares strings:
bytewise, a proper prefix before its extensions. That is the lexicographic `LinearOrder` Mathlib
puts on `List (Fin 256)`, so the chaincode's keys live there.
-/

namespace FinNet

/-- A Go `string`: its bytes. -/
abbrev GoString := List (Fin 256)

/-- The bytes of a Go string literal; Go source text is UTF-8. -/
def goString (s : String) : GoString := s.toUTF8.data.toList.map UInt8.val

/-- `string(utf8.MaxRune)`: the UTF-8 encoding of U+10FFFF. -/
def maxRune : GoString := [0xF4, 0x8F, 0xBF, 0xBF]

example : goString (String.singleton (Char.ofNat 0x10FFFF)) = maxRune := by decide

/-! ## Bytewise order -/

theorem cons_le_cons_iff (a : Fin 256) {l l' : GoString} : a :: l ≤ a :: l' ↔ l ≤ l' := by
  simp only [le_iff_lt_or_eq, List.cons.injEq, true_and]
  exact or_congr_left List.Lex.cons_iff

theorem le_append (k r : GoString) : k ≤ k ++ r := by
  induction k with
  | nil => exact List.nil_le
  | cons a k ih => exact (cons_le_cons_iff a).2 ih

theorem append_lt_append (k : GoString) {r m : GoString} (h : r < m) : k ++ r < k ++ m :=
  List.Lex.append_left _ h k

/-- The half-open range `[k, k ++ m)` holds exactly the strings that extend `k` by a tail
below `m`. -/
theorem mem_range_iff {k x m : GoString} : k ≤ x ∧ x < k ++ m ↔ ∃ r, x = k ++ r ∧ r < m := by
  constructor
  · induction k generalizing x with
    | nil => exact fun h => ⟨x, rfl, h.2⟩
    | cons a k ih =>
      rintro ⟨hlo, hhi⟩
      match x, hlo, hhi with
      | [], hlo, _ => exact absurd hlo (not_le.2 (List.nil_lt_cons a k))
      | b :: x, hlo, hhi =>
        rcases lt_trichotomy b a with hba | rfl | hab
        · exact absurd hlo (not_le.2 (List.Lex.rel hba))
        · obtain ⟨r, rfl, hr⟩ := ih ⟨(cons_le_cons_iff b).1 hlo, List.Lex.cons_iff.1 hhi⟩
          exact ⟨r, rfl, hr⟩
        · exact absurd hhi (not_lt.2 (le_of_lt (List.Lex.rel hab)))
  · rintro ⟨r, rfl, hr⟩
    exact ⟨le_append k r, append_lt_append k hr⟩

end FinNet
