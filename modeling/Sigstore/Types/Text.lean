import Mathlib.Algebra.Group.Nat.Defs
import Mathlib.Data.List.Basic
import Mathlib.Data.List.Induction

/-!
# Text

The operations of Rust's `str` that the code uses, on the characters of a string: white space,
`trim`, prefixes, splitting, lines, parsing of integers, and the debug format of error texts.
-/

namespace Sigstore

/-- The Unicode property `White_Space`. -/
def isWhitespace (c : Char) : Bool :=
  let n := c.toNat
  (9 ≤ n && n ≤ 13) || n == 0x20 || n == 0x85 || n == 0xA0 || n == 0x1680 ||
    (0x2000 ≤ n && n ≤ 0x200A) || n == 0x2028 || n == 0x2029 || n == 0x202F || n == 0x205F ||
    n == 0x3000

/-- `str::trim` on characters. -/
def trimChars (cs : List Char) : List Char :=
  ((cs.dropWhile isWhitespace).reverse.dropWhile isWhitespace).reverse

def trim (s : String) : String := String.ofList (trimChars s.toList)

/-- `str::starts_with`. -/
def startsWith (s pre : String) : Bool := pre.toList.isPrefixOf s.toList

/-- The part of a string before the first occurrence of a character: the first item of `str::split`.
-/
def splitFirst (s : String) (c : Char) : String := String.ofList (s.toList.takeWhile (· != c))

/-- The items of `str::split_inclusive` at line feeds: each line with its line feed. -/
def splitInclusive : List Char → List (List Char)
  | [] => []
  | c :: cs =>
    if c = '\n' then [c] :: splitInclusive cs
    else
      match splitInclusive cs with
      | [] => [[c]]
      | l :: ls => (c :: l) :: ls

/-- `str::strip_suffix` by a character. -/
def stripSuffix (c : Char) (l : List Char) : Option (List Char) :=
  if l.getLast? = some c then some l.dropLast else none

/-- A line without its line feed, and without the carriage return before a line feed. -/
def stripLineEnding (l : List Char) : List Char :=
  match stripSuffix '\n' l with
  | none => l
  | some l => (stripSuffix '\r' l).getD l

/-- `str::lines`. -/
def lines (s : String) : List String :=
  (splitInclusive s.toList).map fun l => String.ofList (stripLineEnding l)

/-- The items of `str::split` at two line feeds. -/
def splitBlankLine : List Char → List (List Char)
  | [] => [[]]
  | '\n' :: '\n' :: cs => [] :: splitBlankLine cs
  | c :: cs =>
    match splitBlankLine cs with
    | [] => [[c]]
    | l :: ls => (c :: l) :: ls

/-- `str::split_whitespace`. -/
def splitWhitespace (s : String) : List String :=
  ((s.toList.splitOnP isWhitespace).filter (· ≠ [])).map String.ofList

/-- `str::parse` for `u64`: ASCII digits after an optional plus sign. -/
def parseU64 (s : String) : Option UInt64 :=
  let digits : List Char := match s.toList with
    | '+' :: cs => cs
    | cs => cs
  let n := digits.foldl (fun (n : Nat) c => 10 * n + (c.toNat - 48)) 0
  if digits ≠ [] ∧ digits.all Char.isDigit ∧ n < 2 ^ 64 then some (UInt64.ofNat n) else none

/-- Whether a number has a minus sign, and the characters after its optional sign. -/
def splitSign : List Char → Bool × List Char
  | '-' :: cs => (true, cs)
  | '+' :: cs => (false, cs)
  | cs => (false, cs)

/-- `str::parse` for `i64`: ASCII digits after an optional sign. -/
def parseI64 (s : String) : Option Int64 :=
  let (negative, digits) := splitSign s.toList
  let n := digits.foldl (fun (n : Nat) c => 10 * n + (c.toNat - 48)) 0
  let z : Int := if negative then -n else n
  if digits ≠ [] ∧ digits.all Char.isDigit ∧ Int64.minValue.toInt ≤ z ∧
      z ≤ Int64.maxValue.toInt then
    some (Int64.ofInt z)
  else none

/-- The characters of an integer: its digits, after a minus sign where it is negative. Lean prints
the absolute value, with a sign before it. -/
theorem toList_toString_int (z : Int) :
    (toString z).toList = (if z < 0 then ['-'] else []) ++ Nat.toDigits 10 z.natAbs := by
  cases z with
  | ofNat m =>
    have hneg : ¬ Int.ofNat m < 0 := by simp
    rw [if_neg hneg, List.nil_append]
    exact Nat.toList_repr
  | negSucc m =>
    rw [if_pos (Int.negSucc_lt_zero m)]
    show ("-" ++ (m + 1).repr).toList = _
    rw [String.toList_append, Nat.toList_repr]
    rfl

theorem toList_toString_nat (n : Nat) : (toString n).toList = Nat.toDigits 10 n := Nat.toList_repr

/-- The decimal digits are digits. -/
theorem isDigit_of_mem_digits {n : Nat} {c : Char} (h : c ∈ Nat.toDigits 10 n) :
    c.isDigit = true :=
  Nat.isDigit_of_mem_toDigits (by decide) (by decide) h

/-- Different numbers have different digits. -/
theorem toDigits_injective {m n : Nat} (h : Nat.toDigits 10 m = Nat.toDigits 10 n) : m = n := by
  rw [← Nat.ofDigitChars_ten_toDigits (n := m), h, Nat.ofDigitChars_ten_toDigits]

/-- A digit is one byte in UTF-8. -/
theorem utf8Size_of_isDigit {c : Char} (h : c.isDigit = true) : c.utf8Size = 1 := by
  rw [Char.isDigit, Bool.and_eq_true, decide_eq_true_eq, decide_eq_true_eq] at h
  have hhigh : c.val.toNat ≤ 57 := h.2
  rw [Char.utf8Size_eq_one_iff, UInt32.le_iff_toNat_le]
  exact Nat.le_trans hhigh (by decide)

/-- The byte of a digit. -/
theorem toUInt8_of_isDigit {c : Char} (h : c.isDigit = true) :
    0x30 ≤ c.val.toUInt8 ∧ c.val.toUInt8 ≤ 0x39 := by
  rw [Char.isDigit, Bool.and_eq_true, decide_eq_true_eq, decide_eq_true_eq] at h
  have hlow : 48 ≤ c.val.toNat := h.1
  have hhigh : c.val.toNat ≤ 57 := h.2
  simp only [UInt8.le_iff_toNat_le, UInt32.toNat_toUInt8]
  constructor
  · show 48 ≤ c.val.toNat % 256
    omega
  · show c.val.toNat % 256 ≤ 57
    omega

/-- A text of digits has no sign. -/
theorem splitSign_digits {l : List Char} (h : ∀ c ∈ l, c.isDigit = true) :
    splitSign l = (false, l) := by
  unfold splitSign
  split
  · exact absurd (h '-' List.mem_cons_self) (by decide)
  · exact absurd (h '+' List.mem_cons_self) (by decide)
  · rfl

/-- An integer is written as its sign, where it is negative, and the digits of its absolute value.
-/
theorem splitSign_toString (z : Int) :
    splitSign (toString z).toList = (decide (z < 0), Nat.toDigits 10 z.natAbs) := by
  rw [toList_toString_int]
  by_cases hneg : z < 0
  · rw [if_pos hneg, decide_eq_true hneg]
    rfl
  · rw [if_neg hneg, decide_eq_false hneg, List.nil_append]
    exact splitSign_digits fun c => isDigit_of_mem_digits

/-- An integer is parsed from its text. The least number has no positive counterpart, so that the
value is compared before it is converted. -/
theorem parseI64_toString (i : Int64) : parseI64 (toString i.toInt) = some i := by
  have hdigits : (Nat.toDigits 10 i.toInt.natAbs).all Char.isDigit = true :=
    List.all_eq_true.2 fun c => isDigit_of_mem_digits
  have hparsed : (Nat.toDigits 10 i.toInt.natAbs).foldl
      (fun (n : Nat) c => 10 * n + (c.toNat - 48)) 0 = i.toInt.natAbs :=
    Nat.ofDigitChars_ten_toDigits
  have hvalue : (if decide (i.toInt < 0) = true then -(i.toInt.natAbs : Int)
      else (i.toInt.natAbs : Int)) = i.toInt := by
    split
    · next hneg => have := of_decide_eq_true hneg; omega
    · next hneg => have := of_decide_eq_false (Bool.not_eq_true _ ▸ hneg); omega
  unfold parseI64
  rw [splitSign_toString]
  dsimp only
  rw [hparsed, hvalue, if_pos ⟨Nat.toDigits_ne_nil, hdigits, i.minValue_le_toInt, i.toInt_le⟩,
    Int64.ofInt_toInt]

/-- `str::eq_ignore_ascii_case`. -/
def eqIgnoreAsciiCase (s t : String) : Bool :=
  s.toList.map Char.toLower == t.toList.map Char.toLower

/-- The debug format of a string, for the characters that it escapes by a letter. -/
def debugStr (s : String) : String :=
  "\"" ++ String.ofList (s.toList.flatMap fun c =>
    if c = '"' then ['\\', '"']
    else if c = '\\' then ['\\', '\\']
    else if c = '\n' then ['\\', 'n']
    else if c = '\r' then ['\\', 'r']
    else if c = '\t' then ['\\', 't']
    else [c]) ++ "\""

/-! ## Decimal numbers -/

/-- The text is a number as it is written: digits, and no zero before other digits. -/
def IsDecimal (s : String) : Prop :=
  s ≠ "" ∧ (∀ c ∈ s.toList, c.isDigit = true) ∧ (s.toList.head? = some '0' → s = "0")

/-- A digit is the one of its value. -/
theorem digitChar_of_isDigit {c : Char} (h : c.isDigit = true) :
    Nat.digitChar (c.toNat - 48) = c ∧ c.toNat - 48 < 10 := by
  rw [Char.isDigit, Bool.and_eq_true, decide_eq_true_eq, decide_eq_true_eq] at h
  have hlow : 48 ≤ c.toNat := h.1
  have hhigh : c.toNat ≤ 57 := h.2
  have hall : ∀ n : Fin 10, Nat.digitChar n.val = Char.ofNat (n.val + 48) := by decide
  refine ⟨?_, by omega⟩
  rw [hall ⟨c.toNat - 48, by omega⟩]
  show Char.ofNat (c.toNat - 48 + 48) = c
  rw [Nat.sub_add_cancel hlow, Char.ofNat_toNat]

/-- Digits without a zero before other digits are those of their number. By induction from the last
digit, which is the remainder modulo ten; a zero in front would be lost. -/
theorem toDigits_ofDigitChars {cs : List Char} (hne : cs ≠ [])
    (hdigit : ∀ c ∈ cs, c.isDigit = true) (hzero : cs.head? = some '0' → cs = ['0']) :
    Nat.toDigits 10 (Nat.ofDigitChars 10 cs 0) = cs := by
  induction cs using List.reverseRecOn with
  | nil => exact absurd rfl hne
  | append_singleton cs c ih =>
    obtain ⟨hchar, hlt⟩ := digitChar_of_isDigit (hdigit c (by simp))
    have hvalue : Nat.ofDigitChars 10 (cs ++ [c]) 0 =
        10 * Nat.ofDigitChars 10 cs 0 + (c.toNat - 48) := by
      rw [Nat.ofDigitChars_append, Nat.ofDigitChars_cons, Nat.ofDigitChars_nil]
      rfl
    rcases List.eq_nil_or_concat' cs with rfl | ⟨cs', d, rfl⟩
    · rw [hvalue, Nat.ofDigitChars_nil, Nat.mul_zero, Nat.zero_add, Nat.toDigits_of_lt_base hlt,
        hchar]
      rfl
    · have hhead : (cs' ++ [d] ++ [c]).head? = (cs' ++ [d]).head? := by simp
      have hnot : (cs' ++ [d]).head? ≠ some '0' := by
        intro h
        have := congrArg List.length (hzero (hhead.trans h))
        simp at this
      have hcs := ih (by simp) (fun c' hc' => hdigit c' (List.mem_append_left _ hc'))
        fun h => absurd h hnot
      have hpos : 0 < Nat.ofDigitChars 10 (cs' ++ [d]) 0 := by
        refine Nat.pos_of_ne_zero fun h => hnot ?_
        rw [h] at hcs
        rw [← hcs]
        rfl
      rw [hvalue, ← Nat.toDigits_append_toDigits (by decide) hpos hlt, hcs,
        Nat.toDigits_of_lt_base hlt, hchar]

/-- The digits of a positive number do not begin with a zero. -/
theorem head?_toDigits {n : Nat} (h : 0 < n) : (Nat.toDigits 10 n).head? ≠ some '0' := by
  induction n using Nat.strongRecOn with
  | ind n ih =>
    rcases Nat.lt_or_ge n 10 with hlt | hge
    · have hall : ∀ n : Fin 10, 0 < n.val → Nat.digitChar n.val ≠ '0' := by decide
      rw [Nat.toDigits_of_lt_base hlt]
      simpa using hall ⟨n, hlt⟩ h
    · rw [Nat.toDigits_of_base_le (by decide) hge,
        List.head?_append_of_ne_nil _ Nat.toDigits_ne_nil]
      exact ih (n / 10) (by omega) (by omega)

/-- A number of 64 bits is written in the canonical decimal form. It is what tells a number that was
written from another text of the same number, as `+5` or `05`. -/
theorem isDecimal_toString (n : UInt64) : IsDecimal (toString n) := by
  have hchars : (toString n).toList = Nat.toDigits 10 n.toNat := Nat.toList_repr
  refine ⟨?_, ?_, ?_⟩
  · rw [Ne, ← String.toList_inj, hchars]
    exact Nat.toDigits_ne_nil
  · rw [hchars]
    exact fun c => isDigit_of_mem_digits
  · intro hhead
    rw [hchars] at hhead
    rcases Nat.eq_zero_or_pos n.toNat with hzero | hpos
    · rw [← String.toList_inj, hchars, hzero]
      rfl
    · exact absurd hhead (head?_toDigits hpos)

/-- What `parseU64` reads off digits. Without a sign the digits are all there is, and their number
is checked against the width. -/
theorem parseU64_of_digits {s : String} (hne : s ≠ "") (h : ∀ c ∈ s.toList, c.isDigit = true) :
    parseU64 s = if Nat.ofDigitChars 10 s.toList 0 < 2 ^ 64 then
      some (UInt64.ofNat (Nat.ofDigitChars 10 s.toList 0)) else none := by
  have hchars : s.toList ≠ [] := by simpa using hne
  have hall : s.toList.all Char.isDigit = true := List.all_eq_true.2 h
  unfold parseU64
  extract_lets digits n
  have hdigits : digits = s.toList := by
    dsimp only [digits]
    split
    · next cs heq => exact absurd (h '+' (by simp [heq])) (by decide)
    · rfl
  have hn : n = Nat.ofDigitChars 10 s.toList 0 := by
    dsimp only [n]
    rw [hdigits]
    rfl
  simp only [hdigits, hn, hchars, hall, ne_eq, not_false_eq_true, true_and]

/-- A 64-bit number is parsed from its text. -/
theorem parseU64_toString (n : UInt64) : parseU64 (toString n) = some n := by
  have hchars : (toString n).toList = Nat.toDigits 10 n.toNat := Nat.toList_repr
  obtain ⟨hne, hdigit, -⟩ := isDecimal_toString n
  rw [parseU64_of_digits hne hdigit, hchars, Nat.ofDigitChars_ten_toDigits, if_pos n.toNat_lt,
    UInt64.ofNat_toNat]

/-- A number that is parsed is written as its text is if and only if the text is how numbers are
written. -/
theorem toString_eq_iff_isDecimal {s : String} {n : UInt64} (h : parseU64 s = some n) :
    toString n = s ↔ IsDecimal s := by
  constructor
  · rintro rfl
    exact isDecimal_toString n
  · rintro ⟨hne, hdigit, hzero⟩
    rw [parseU64_of_digits hne hdigit] at h
    split at h
    · next hlt =>
      cases h
      have hchars : (toString (UInt64.ofNat (Nat.ofDigitChars 10 s.toList 0))).toList =
          Nat.toDigits 10 (UInt64.ofNat (Nat.ofDigitChars 10 s.toList 0)).toNat := Nat.toList_repr
      rw [← String.toList_inj, hchars, UInt64.toNat_ofNat_of_lt' hlt]
      refine toDigits_ofDigitChars (by simpa using hne) hdigit fun hhead => ?_
      rw [hzero hhead]
      rfl
    · cases h

end Sigstore
