import Mathlib.Data.List.Basic
import Mathlib.Data.Nat.Digits.Defs
import Mathlib.Tactic.IntervalCases
import StatusBoard.Text.Numeral

/-!
# Numerals read back

The shortest numeral of a number is read as that number (`numeral?_numeral`), in bases up to
sixteen.  It has no needless zero in front, and its characters are digits.  A decimal numeral may
have zeros in front, and is read as its value (`numeral?_ten_eq_some_iff`).
-/

namespace StatusBoard.Text

variable {base n d : Nat}

/-! ### Digits -/

theorem digit?_digitChar (hbase : base ≤ 16) (hd : d < base) :
    digit? base d.digitChar = some d := by
  have hvalue : digitValue? d.digitChar = some d := by
    have hd : d < 16 := by omega
    interval_cases d <;> rfl
  rw [digit?, hvalue, Option.filter_some, if_pos (decide_eq_true hd)]

/-- The decimal digits are the ASCII digits. -/
theorem digit?_ten (c : Char) :
    digit? 10 c = if c.isDigit then some (c.toNat - '0'.toNat) else none := by
  have hdigit : c.isDigit ↔ '0' ≤ c ∧ c ≤ '9' := by
    rw [Char.isDigit, Bool.and_eq_true, decide_eq_true_eq, decide_eq_true_eq]
    rfl
  unfold digit? digitValue?
  by_cases h : '0' ≤ c ∧ c ≤ '9'
  · have hlt : c.toNat - '0'.toNat < 10 := by
      have hle : c.toNat ≤ '9'.toNat := h.2
      have hbound : '9'.toNat - '0'.toNat < 10 := by decide
      omega
    rw [if_pos h, if_pos (hdigit.2 h), Option.filter_some, if_pos (decide_eq_true hlt)]
  · rw [if_neg h, if_neg fun hd => h (hdigit.1 hd)]
    split
    · simp
    · split
      · simp
      · rfl

/-- What holds of all digits holds of the characters of a numeral. -/
theorem forall_mem_numeral {p : Char → Prop} (hbase : 1 < base)
    (hp : ∀ d < base, p d.digitChar) (n : Nat) : ∀ c ∈ numeral base n, p c := by
  induction n using Nat.strong_induction_on with
  | _ n ih =>
    rw [numeral, Nat.toDigits_eq_if hbase]
    split
    · next hlt =>
      rw [List.forall_mem_singleton]
      exact hp n hlt
    · next hle =>
      rw [List.forall_mem_append, List.forall_mem_singleton]
      have hdigit : n % base < base := Nat.mod_lt n (by omega)
      exact ⟨ih (n / base) (Nat.div_lt_self (by omega) hbase), hp _ hdigit⟩

/-! ### Numerals -/

theorem numeral_ne_nil (base n : Nat) : numeral base n ≠ [] := Nat.toDigits_ne_nil

theorem length_numeral_le {k : Nat} (hk : 0 < k) (hn : n < base ^ k) :
    (numeral base n).length ≤ k := Nat.toDigits_length base n k hk hn

/-- The numeral of a positive number does not start with a zero. -/
theorem head?_numeral_ne_zero (hbase : 1 < base) (hbase' : base ≤ 16) (hn : 0 < n) :
    (numeral base n).head? ≠ some '0' := by
  induction n using Nat.strong_induction_on with
  | _ n ih =>
    rw [numeral, Nat.toDigits_eq_if hbase]
    split
    · next hlt =>
      have hlt : n < 16 := by omega
      interval_cases n <;> decide
    · next hle =>
      rw [List.head?_append_of_ne_nil _ Nat.toDigits_ne_nil]
      exact ih (n / base) (Nat.div_lt_self hn hbase) (Nat.div_pos (by omega) (by omega))

/-- A numeral is read as its number. -/
theorem numeral?_numeral (hbase : 1 < base) (hbase' : base ≤ 16) (n : Nat) :
    numeral? base (numeral base n) = some n := by
  have hread : (numeral base n).foldlM (fun n c => (digit? base c).map (n * base + ·)) 0 =
      some n := by
    induction n using Nat.strong_induction_on with
    | _ n ih =>
      rw [numeral, Nat.toDigits_eq_if hbase]
      split
      · next hlt => simp [digit?_digitChar hbase' hlt]
      · next hle =>
        -- The last digit is read after the numeral of the other digits.
        have hrest := ih (n / base) (Nat.div_lt_self (by omega) hbase)
        have hdigit : n % base < base := Nat.mod_lt n (by omega)
        rw [numeral] at hrest
        rw [List.foldlM_append, hrest]
        simp [digit?_digitChar hbase' hdigit, Nat.div_add_mod']
  rw [numeral?, if_neg (by simp [numeral_ne_nil]), hread]

theorem numeralBelow?_numeral {bound : Nat} (hbase : 1 < base) (hbase' : base ≤ 16)
    (hn : n < bound) : numeralBelow? bound base (numeral base n) = some n := by
  rw [numeralBelow?, numeral?_numeral hbase hbase', Option.filter_some, if_pos (decide_eq_true hn)]

/-! ### Decimal numerals -/

/-- A decimal numeral is read as its value, and nothing else is. -/
theorem numeral?_ten_eq_some_iff {cs : List Char} {n : Nat} : numeral? 10 cs = some n ↔
    cs ≠ [] ∧ (∀ c ∈ cs, c.isDigit) ∧ Nat.ofDigitChars 10 cs 0 = n := by
  have hread (cs : List Char) (start : Nat) :
      cs.foldlM (fun n c => (digit? 10 c).map (n * 10 + ·)) start = some n ↔
        (∀ c ∈ cs, c.isDigit) ∧ Nat.ofDigitChars 10 cs start = n := by
    induction cs generalizing start with
    | nil => simp
    | cons c cs ih =>
      rw [List.foldlM_cons, digit?_ten, List.forall_mem_cons, Nat.ofDigitChars_cons]
      by_cases hc : c.isDigit
      · rw [if_pos hc, Nat.mul_comm 10]
        simp [hc, ih]
      · simp [hc]
  rw [numeral?, ← hread cs 0]
  simp

theorem toList_toString_nat (n : Nat) : (toString n).toList = numeral 10 n := by
  rw [Nat.toString_eq_ofList_toDigits, String.toList_ofList, numeral]

theorem toList_toString_ofNat (n : Nat) : (toString (Int.ofNat n)).toList = numeral 10 n :=
  toList_toString_nat n

theorem toList_toString_negSucc (n : Nat) :
    (toString (Int.negSucc n)).toList = '-' :: numeral 10 (n + 1) := by
  have htext : toString (Int.negSucc n) = "-" ++ toString (n + 1) := rfl
  rw [htext, String.toList_append, toList_toString_nat]
  rfl

theorem isDigit_of_mem_numeral {c : Char} (hc : c ∈ numeral 10 n) : c.isDigit :=
  forall_mem_numeral (p := fun c => c.isDigit) (by decide) (by decide) n c hc

/-- The numeral of a positive number starts with a digit other than zero, and digits follow. -/
theorem exists_numeral_eq_cons (hn : 0 < n) :
    ∃ c cs, numeral 10 n = c :: cs ∧ c ≠ '0' ∧ c.isDigit ∧ ∀ d ∈ cs, d.isDigit := by
  obtain ⟨c, cs, hnumeral⟩ := List.exists_cons_of_ne_nil (numeral_ne_nil 10 n)
  have hhead : (numeral 10 n).head? ≠ some '0' :=
    head?_numeral_ne_zero (by decide) (by decide) hn
  have hdigits : ∀ d ∈ c :: cs, d.isDigit := fun d hd =>
    isDigit_of_mem_numeral (n := n) (hnumeral ▸ hd)
  rw [hnumeral] at hhead
  rw [List.forall_mem_cons] at hdigits
  exact ⟨c, cs, hnumeral, fun hc => hhead (congrArg some hc), hdigits⟩

end StatusBoard.Text
