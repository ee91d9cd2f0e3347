import Mathlib.Data.List.Basic

/-!
# Names made of a base, a separator and a suffix

When the suffix cannot contain the separator, the last separator of such a
name marks where the base ends, and the name determines both parts. Decimal
numerals are suffixes of this kind for every separator that is not a digit.
-/

namespace SeparatedNames

universe u

theorem split_at_last {α : Type u} {c : α} {x y x' y' : List α}
    (hy : c ∉ y) (hy' : c ∉ y') (h : x ++ c :: y = x' ++ c :: y') : x = x' ∧ y = y' := by
  rcases List.append_eq_append_iff.mp h with ⟨a, rfl, htail⟩ | ⟨a, rfl, htail⟩
  · cases a with
    | nil => exact ⟨(List.append_nil x).symm, by simpa using htail⟩
    | cons b a =>
      have hmem : c ∈ y := by
        rw [(List.cons.inj htail).2]
        simp
      exact absurd hmem hy
  · cases a with
    | nil => exact ⟨List.append_nil x', by simpa using htail.symm⟩
    | cons b a =>
      have hmem : c ∈ y' := by
        rw [(List.cons.inj htail).2]
        simp
      exact absurd hmem hy'

theorem separated_inj {sep : Char} {b b' s s' : String}
    (hs : sep ∉ s.toList) (hs' : sep ∉ s'.toList)
    (h : b ++ String.singleton sep ++ s = b' ++ String.singleton sep ++ s') :
    b = b' ∧ s = s' := by
  have hl := congrArg String.toList h
  simp only [String.toList_append, String.toList_singleton, List.append_assoc] at hl
  obtain ⟨hb, ht⟩ := split_at_last hs hs' hl
  exact ⟨String.toList_inj.mp hb, String.toList_inj.mp ht⟩

theorem notMem_repr {sep : Char} (hsep : sep.isDigit = false) (n : Nat) :
    sep ∉ n.repr.toList := by
  intro hmem
  rw [Nat.toList_repr] at hmem
  have hd := Nat.isDigit_of_mem_toDigits (by decide) (by decide) hmem
  rw [hsep] at hd
  cases hd

theorem repr_inj {m n : Nat} (h : m.repr = n.repr) : m = n := by
  have hd := congrArg (fun s => Nat.ofDigitChars 10 s.toList 0) h
  simpa only [Nat.toList_repr, Nat.ofDigitChars_ten_toDigits] using hd

theorem toString_inj_of_nonneg {m n : Int} (hm : 0 ≤ m) (hn : 0 ≤ n)
    (h : toString m = toString n) : m = n := by
  obtain ⟨m, rfl⟩ := Int.eq_ofNat_of_zero_le hm
  obtain ⟨n, rfl⟩ := Int.eq_ofNat_of_zero_le hn
  exact congrArg Int.ofNat (repr_inj h)

end SeparatedNames
