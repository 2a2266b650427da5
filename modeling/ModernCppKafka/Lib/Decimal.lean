/-
  ModernCppKafka.Lib.Decimal — decimal numbers read as C's `strtol` reads them.

  White space is skipped, a sign may follow, then digits are read as far as they go; what comes
  after them does not matter.  Printing a number and reading it gives the number back.

  Main results:
    * `parseInt_toString` — there and back, for every integer.
-/
import Mathlib.Data.List.TakeWhile
import Mathlib.Tactic.NormNum

namespace ModernCppKafka.Lib.Decimal

/-- `isspace` in the C locale; 11 and 12 are the vertical tab and the form feed. -/
def isspace (c : Char) : Bool := c ∈ [' ', '\t', '\n', Char.ofNat 11, Char.ofNat 12, '\r']

/-- The number the digits at the front stand for, if there are any. -/
def parseDigits (cs : List Char) : Option ℕ :=
  let ds := cs.takeWhile Char.isDigit
  if ds.isEmpty then none else some (Nat.ofDigitChars 10 ds 0)

/-- The number at the front. -/
def parseInt (cs : List Char) : Option ℤ :=
  match cs.dropWhile isspace with
  | '-' :: cs => (parseDigits cs).map fun n => -(n : ℤ)
  | '+' :: cs => (parseDigits cs).map fun n => (n : ℤ)
  | cs => (parseDigits cs).map fun n => (n : ℤ)

theorem parseDigits_toDigits (n : ℕ) : parseDigits (Nat.toDigits 10 n) = some n := by
  have hall : ∀ c ∈ Nat.toDigits 10 n, c.isDigit = true :=
    fun c hc => Nat.isDigit_of_mem_toDigits (by norm_num) (by norm_num) hc
  have hne : (Nat.toDigits 10 n).isEmpty = false := by
    rw [List.isEmpty_eq_false_iff]
    exact Nat.toDigits_ne_nil
  rw [parseDigits, List.takeWhile_eq_self_iff.mpr hall]
  simp only [hne, Bool.false_eq_true, if_false, Nat.ofDigitChars_ten_toDigits]

/-- A digit is no white space and no sign. -/
theorem isDigit_not_special {c : Char} (h : c.isDigit = true) :
    isspace c = false ∧ c ≠ '-' ∧ c ≠ '+' := by
  refine ⟨?_, ?_, ?_⟩
  · by_contra hspace
    simp only [isspace, Bool.not_eq_false, decide_eq_true_eq, List.mem_cons, List.not_mem_nil,
      or_false] at hspace
    rcases hspace with rfl | rfl | rfl | rfl | rfl | rfl <;> exact absurd h (by decide)
  · rintro rfl
    exact absurd h (by decide)
  · rintro rfl
    exact absurd h (by decide)

theorem parseInt_toDigits (n : ℕ) : parseInt (Nat.toDigits 10 n) = some (n : ℤ) := by
  have hread := parseDigits_toDigits n
  obtain ⟨c, cs, hcs⟩ := List.exists_cons_of_ne_nil (Nat.toDigits_ne_nil (n := n) (b := 10))
  have hdigit : c.isDigit = true :=
    Nat.isDigit_of_mem_toDigits (by norm_num) (by norm_num) (hcs ▸ List.mem_cons_self)
  obtain ⟨hspace, hminus, hplus⟩ := isDigit_not_special hdigit
  rw [hcs] at hread ⊢
  have hdrop : (c :: cs).dropWhile isspace = c :: cs :=
    List.dropWhile_cons_of_neg (by simp [hspace])
  rw [parseInt, hdrop]
  split
  · next heq => exact absurd (List.cons.inj heq).1 hminus
  · next heq => exact absurd (List.cons.inj heq).1 hplus
  · rw [hread]
    rfl

/-- **There and back.** -/
theorem parseInt_toString (z : ℤ) : parseInt (toString z).toList = some z := by
  cases z with
  | ofNat n =>
    show parseInt (Nat.repr n).toList = _
    rw [Nat.toList_repr, parseInt_toDigits]
    rfl
  | negSucc n =>
    show parseInt ("-" ++ Nat.repr (n + 1)).toList = _
    rw [String.toList_append, Nat.toList_repr]
    show (parseDigits (Nat.toDigits 10 (n + 1))).map (fun n => -(n : ℤ)) = _
    rw [parseDigits_toDigits]
    rfl

end ModernCppKafka.Lib.Decimal
