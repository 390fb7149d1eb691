import Mathlib.Tactic.SplitIfs
import WholeMatch.Text.Quoted

/-!
# Numerals and quoted characters can be read back

Digits say which number they stand for, in either base (`Text.numberOf_toDigits`), so the numbers
that a text gives are found again between whatever parts them (`Text.numbersIn_decimal`,
`Text.numbersIn_append_cons`). An escaped character says where it ends, without its closing quote
being looked at: after a backslash the next character tells which of the forms it has, and any other
character stands for itself (`Text.unescape?_escape`). Neither form ends a line.
-/

namespace WholeMatch.Text

variable {base : Nat} {c : Char}

/-! ### Digits -/

/-- What holds of every single digit and is kept when one is put behind others holds of the digits
of every number. -/
theorem toDigits_induction {P : Nat → List Char → Prop} (two : 1 < base)
    (digit : ∀ n < base, P n [n.digitChar])
    (append : ∀ n digits, P (n / base) digits → P n (digits ++ [(n % base).digitChar])) (n : Nat) :
    P n (base.toDigits n) := by
  induction n using Nat.strongRecOn with
  | ind n ih =>
    rw [Nat.toDigits_eq_if two]
    split
    next small => exact digit n small
    next large =>
      have less : n / base < n := Nat.div_lt_self (by omega) two
      exact append n _ (ih (n / base) less)

theorem exists_digitChar_of_mem_toDigits (two : 1 < base) (n : Nat) :
    ∀ c ∈ base.toDigits n, ∃ d < base, c = d.digitChar := by
  apply toDigits_induction (P := fun _ digits => ∀ c ∈ digits, ∃ d < base, c = d.digitChar) two
  · intro n small c member
    exact ⟨n, small, List.mem_singleton.1 member⟩
  · intro n digits earlier c member
    rcases List.mem_append.1 member with member | last
    · exact earlier c member
    · exact ⟨n % base, Nat.mod_lt n (by omega), List.mem_singleton.1 last⟩

/-- The value of a digit, which may be hexadecimal. -/
def digitValue (c : Char) : Nat :=
  if c.isDigit then c.toNat - '0'.toNat else c.toNat - 'a'.toNat + 10

theorem digitValue_digitChar : ∀ d < 16, digitValue d.digitChar = d := by decide

/-- The number that some digits stand for. -/
def numberOf (base : Nat) (digits : List Char) : Nat :=
  digits.foldl (fun n c => base * n + digitValue c) 0

theorem numberOf_append_singleton (base : Nat) (digits : List Char) (c : Char) :
    numberOf base (digits ++ [c]) = base * numberOf base digits + digitValue c := by
  simp [numberOf]

theorem numberOf_toDigits (two : 1 < base) (le : base ≤ 16) (n : Nat) :
    numberOf base (base.toDigits n) = n := by
  apply toDigits_induction (P := fun n digits => numberOf base digits = n) two
  · intro n small
    have value := digitValue_digitChar n (by omega)
    simpa [numberOf] using value
  · intro n digits value
    have lt : n % base < 16 := Nat.lt_of_lt_of_le (Nat.mod_lt n (by omega)) le
    rw [numberOf_append_singleton, value, digitValue_digitChar _ lt]
    exact Nat.div_add_mod n base

theorem numberOf_decimal (n : Nat) : numberOf 10 (decimal n) = n :=
  numberOf_toDigits (by decide) (by decide) n

theorem isDigit_of_mem_decimal (h : c ∈ decimal n) : c.isDigit = true :=
  Nat.isDigit_of_mem_toDigits (by decide) (by decide) h

theorem isEmpty_decimal (n : Nat) : (decimal n).isEmpty = false :=
  List.isEmpty_eq_false_iff.2 Nat.toDigits_ne_nil

theorem not_mem_decimal (other : c.isDigit = false) (n : Nat) : c ∉ decimal n := by
  intro member
  rw [isDigit_of_mem_decimal member] at other
  cases other

/-! ### The numbers in a text -/

/-- The numbers that a text gives in decimal digits, from left to right. -/
def numbersIn (text : List Char) : List Nat :=
  ((text.splitOnP (!·.isDigit)).filter (!·.isEmpty)).map (numberOf 10)

theorem numbersIn_decimal (n : Nat) : numbersIn (decimal n) = [n] := by
  have digits : ∀ d ∈ decimal n, (!d.isDigit) = false := fun d member => by
    rw [isDigit_of_mem_decimal member, Bool.not_true]
  rw [numbersIn, List.splitOnP_eq_singleton digits]
  simp [isEmpty_decimal, numberOf_decimal]

theorem numbersIn_append_cons (before : List Char) (other : c.isDigit = false)
    (rest : List Char) :
    numbersIn (before ++ c :: rest) = numbersIn before ++ numbersIn rest := by
  have parts : (!c.isDigit) = true := by rw [other, Bool.not_false]
  have apart := List.splitOnP_append_cons (p := (!·.isDigit)) before rest parts
  simp only [numbersIn, apart, List.filter_append, List.map_append]

theorem numbersIn_decimal_cons (n : Nat) (other : c.isDigit = false) (rest : List Char) :
    numbersIn (decimal n ++ c :: rest) = n :: numbersIn rest := by
  rw [numbersIn_append_cons _ other, numbersIn_decimal, List.singleton_append]

theorem numbersIn_cons (other : c.isDigit = false) (rest : List Char) :
    numbersIn (c :: rest) = numbersIn rest :=
  numbersIn_append_cons [] other rest

/-- Words before a number do not matter. -/
theorem numbersIn_append {word : List Char} (others : ∀ c ∈ word, c.isDigit = false)
    (rest : List Char) : numbersIn (word ++ rest) = numbersIn rest := by
  induction word with
  | nil => rfl
  | cons c word ih =>
    rw [List.cons_append, numbersIn_cons (others c List.mem_cons_self)]
    exact ih fun d member => others d (List.mem_cons_of_mem c member)

/-! ### Escaped characters -/

theorem not_mem_hexadecimal (other : ∀ d < 16, c ≠ d.digitChar) (n : Nat) :
    c ∉ hexadecimal n := by
  intro member
  obtain ⟨d, lt, same⟩ := exists_digitChar_of_mem_toDigits (by decide) n c member
  exact other d lt same

/-- However a character is written in a quoted text, the line does not end there. -/
theorem newline_not_mem_escape {quote : Char} (visible : quote ≠ '\n') (c : Char) :
    '\n' ∉ escape quote c := by
  have hexadecimal := not_mem_hexadecimal (c := '\n') (by decide) c.toNat
  unfold escape codePointEscape
  split_ifs with zero tab ret newline backslash unseen
  · decide
  · decide
  · decide
  · decide
  · rcases backslash with rfl | rfl
    · decide
    · simpa using visible.symm
  · simp [hexadecimal]
  · simpa using Ne.symm newline

theorem newline_not_mem_quoted {quote : Char} (visible : quote ≠ '\n') (text : List Char) :
    '\n' ∉ quoted quote text := by
  simp [quoted, newline_not_mem_escape visible, visible.symm]

/-- Reads one character of a text in single quotes, and what follows it. -/
def unescape? : List Char → Option (Char × List Char)
  | [] => none
  | '\\' :: '0' :: rest => some ('\x00', rest)
  | '\\' :: 't' :: rest => some ('\t', rest)
  | '\\' :: 'r' :: rest => some ('\r', rest)
  | '\\' :: 'n' :: rest => some ('\n', rest)
  | '\\' :: 'u' :: '{' :: rest =>
    some (Char.ofNat (numberOf 16 (rest.takeWhile (· ≠ '}'))), (rest.dropWhile (· ≠ '}')).drop 1)
  | '\\' :: c :: rest => some (c, rest)
  | c :: rest => some (c, rest)

theorem unescape?_codePointEscape (c : Char) (rest : List Char) :
    unescape? (codePointEscape c ++ rest) = some (c, rest) := by
  -- the brace that ends the number is no digit, so the digits are all that stands before it
  have digits : ∀ d ∈ hexadecimal c.toNat, decide (d ≠ '}') = true := fun d member => by
    rw [decide_eq_true_eq]
    rintro rfl
    exact not_mem_hexadecimal (by decide) c.toNat member
  have written : codePointEscape c ++ rest =
      '\\' :: 'u' :: '{' :: (hexadecimal c.toNat ++ '}' :: rest) := by
    simp [codePointEscape]
  rw [written, unescape?, List.takeWhile_append_of_pos digits, List.dropWhile_append_of_pos digits]
  have value : numberOf 16 (hexadecimal c.toNat) = c.toNat :=
    numberOf_toDigits (by decide) (by decide) c.toNat
  simp [value]

/-- An escaped character is read back, whatever stands behind it. -/
theorem unescape?_escape (c : Char) (rest : List Char) :
    unescape? (escape '\'' c ++ rest) = some (c, rest) := by
  unfold escape
  split_ifs with zero tab ret newline backslash unseen
  · rw [zero]; rfl
  · rw [tab]; rfl
  · rw [ret]; rfl
  · rw [newline]; rfl
  · rcases backslash with rfl | rfl <;> rfl
  · exact unescape?_codePointEscape c rest
  · -- no backslash, so none of the forms that begin with one
    rw [not_or] at backslash
    rw [List.singleton_append, unescape?.eq_def]
    split <;> simp_all

end WholeMatch.Text
