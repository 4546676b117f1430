import LocalCert.Inspection.Serial
import LocalCert.Proofs.Text.Numerals
import LocalCert.Proofs.Text.Pieces

/-
  The text of a serial number.  A number of no sign is
  written in as few bytes as hold it, two upper case digits
  for each, and is read back from them.  The digit that is
  put in front of an odd number of them is no digit of the
  number, so different numbers, of either sign, never have
  the same text.

  Main declarations:
    * `Serial.splitAll_text`
    * `Serial.ofText?_text`
    * `Serial.length_groups_le_iff`
    * `Serial.text_inj`
    * `Serial.text_loses_nothing`
-/

------------------------------------------------------------
-- Digits
------------------------------------------------------------

namespace LocalCert

namespace Serial

variable {cs ds : List Char}
variable {c d : Char}
variable {i j : Int}

/- The digits of base sixteen. -/
def upperDigits : List Char := "0123456789ABCDEF".toList

/- The digits of a number without its sign. -/
def numeral
    (n : Nat) : List Char :=
  (Nat.toDigits 16 n).map Char.toUpper

theorem digits_of_neg
    (hSign : i < 0) :
    digits i = '-' :: numeral i.natAbs := by
  simp [digits, numeral, hSign]

theorem digits_of_not_neg
    (hSign : ¬ i < 0) :
    digits i = numeral i.natAbs := by
  simp [digits, numeral, hSign]

theorem digits_natCast
    (n : Nat) :
    digits n = numeral n :=
  digits_of_not_neg (Int.not_lt.mpr (Int.natCast_nonneg n))

theorem upperDigit_mem :
    ∀ v < 16, (Nat.digitChar v).toUpper ∈ upperDigits := by
  decide

theorem hexValue_upperDigit :
    ∀ v < 16,
      Text.hexValue (Nat.digitChar v).toUpper = some v := by
  decide

/- The digits stand for values that make up the number. -/
theorem exists_values_numeral
    (n : Nat) :
    ∃ vs : List Nat,
      numeral n =
          vs.map (fun v => (Nat.digitChar v).toUpper) ∧
        (∀ v ∈ vs, v < 16) ∧
        vs.foldl (fun n v => 16 * n + v) 0 = n ∧
        (vs.head? = some 0 → n = 0) := by
  rcases Text.exists_values_toDigits n with
    ⟨vs, hDigits, hRest⟩
  refine ⟨vs, ?_, hRest⟩
  rw [numeral, hDigits, List.map_map]
  rfl

theorem numeral_ne_nil
    (n : Nat) :
    numeral n ≠ [] := by
  simp [numeral, Nat.toDigits_ne_nil]

theorem numeral_subset
    (n : Nat) :
    numeral n ⊆ upperDigits := by
  rcases exists_values_numeral n with
    ⟨vs, hDigits, hSmall, _⟩
  intro c hChar
  rw [hDigits] at hChar
  rcases List.mem_map.mp hChar with ⟨v, hValue, rfl⟩
  exact upperDigit_mem v (hSmall v hValue)

/- The digits are read back as the number. -/
theorem ofDigits?_numeral
    (n : Nat) :
    ofDigits? (numeral n) = some n := by
  rcases exists_values_numeral n with
    ⟨vs, hDigits, hSmall, hValue, _⟩
  rw [ofDigits?, hDigits,
    Text.mapM_hexValue_map hexValue_upperDigit hSmall,
    Option.map_some, hValue]

/- No number but zero starts with a zero. -/
theorem eq_zero_of_head?_numeral
    {n : Nat}
    (hHead : (numeral n).head? = some '0') :
    n = 0 := by
  rcases exists_values_numeral n with
    ⟨vs, hDigits, hSmall, _, hZero⟩
  rw [hDigits, List.head?_map, Option.map_eq_some_iff] at hHead
  rcases hHead with ⟨v, hFirst, hChar⟩
  have hValue :=
    hexValue_upperDigit v
      (hSmall v (List.mem_of_mem_head? hFirst))
  rw [hChar] at hValue
  cases hValue
  exact hZero hFirst

theorem numeral_inj
    {m n : Nat} :
    numeral m = numeral n ↔ m = n := by
  constructor
  · intro hDigits
    have hRead := ofDigits?_numeral m
    rw [hDigits, ofDigits?_numeral] at hRead
    exact (Option.some.inj hRead).symm
  · rintro rfl
    rfl

------------------------------------------------------------
-- Signs
------------------------------------------------------------

/- What a number is written with, a sign at the most. -/
theorem digits_subset
    (i : Int) :
    digits i ⊆ '-' :: upperDigits := by
  have hDigits := numeral_subset i.natAbs
  by_cases hSign : i < 0
  · rw [digits_of_neg hSign]
    exact List.cons_subset_cons '-' hDigits
  · rw [digits_of_not_neg hSign]
    exact List.subset_cons_of_subset '-' hDigits

theorem digits_ne_nil
    (i : Int) :
    digits i ≠ [] := by
  by_cases hSign : i < 0
  · simp [digits_of_neg hSign]
  · rw [digits_of_not_neg hSign]
    exact numeral_ne_nil i.natAbs

/- Nothing but the number zero starts with a zero. -/
theorem eq_zero_of_head?_digits
    (hHead : (digits i).head? = some '0') :
    i = 0 := by
  by_cases hSign : i < 0
  · rw [digits_of_neg hSign, List.head?_cons] at hHead
    cases hHead
  · rw [digits_of_not_neg hSign] at hHead
    exact Int.natAbs_eq_zero.mp
      (eq_zero_of_head?_numeral hHead)

/- A minus sign tells the negative numbers. -/
theorem minus_mem_digits_iff :
    '-' ∈ digits i ↔ i < 0 := by
  by_cases hSign : i < 0
  · simp [digits_of_neg hSign, hSign]
  · have hMinus : '-' ∉ numeral i.natAbs := by
      intro hMinus
      have hOther : '-' ∉ upperDigits := by decide
      exact hOther (numeral_subset _ hMinus)
    simp [digits_of_not_neg hSign, hMinus, hSign]

/- A number is known by its digits and its sign. -/
theorem digits_inj :
    digits i = digits j ↔ i = j := by
  constructor
  · intro hDigits
    have hSigns : i < 0 ↔ j < 0 := by
      rw [← minus_mem_digits_iff, hDigits,
        minus_mem_digits_iff]
    have hSame : i.natAbs = j.natAbs := by
      apply numeral_inj.mp
      by_cases hSign : i < 0
      · have hOther := hSigns.mp hSign
        rw [digits_of_neg hSign,
          digits_of_neg hOther] at hDigits
        exact (List.cons.inj hDigits).2
      · have hOther := mt hSigns.mpr hSign
        rw [digits_of_not_neg hSign,
          digits_of_not_neg hOther] at hDigits
        exact hDigits
    omega
  · rintro rfl
    rfl

------------------------------------------------------------
-- Pairs
------------------------------------------------------------

theorem flatten_pairs
    (cs : List Char) :
    (pairs cs).flatten = cs := by
  fun_induction pairs cs with
  | case1 => rfl
  | case2 c => rfl
  | case3 c d cs ih => simp [ih]

theorem length_pairs
    (cs : List Char) :
    (pairs cs).length = (cs.length + 1) / 2 := by
  fun_induction pairs cs with
  | case1 => rfl
  | case2 c => simp
  | case3 c d cs ih =>
      simp only [List.length_cons, ih]
      omega

/- An even number of characters leaves none alone. -/
theorem exists_of_mem_pairs
    {group : List Char}
    (hEven : cs.length % 2 = 0)
    (hGroup : group ∈ pairs cs) :
    ∃ c d, group = [c, d] ∧ c ∈ cs ∧ d ∈ cs := by
  fun_induction pairs cs with
  | case1 => cases hGroup
  | case2 c => simp at hEven
  | case3 c d cs ih =>
      rcases List.mem_cons.mp hGroup with rfl | hLater
      · exact ⟨c, d, rfl, by simp, by simp⟩
      · have hRest : cs.length % 2 = 0 := by
          simp only [List.length_cons] at hEven
          omega
        rcases ih hRest hLater with
          ⟨a, b, hPair, hFirst, hSecond⟩
        exact ⟨a, b, hPair, by simp [hFirst],
          by simp [hSecond]⟩

/- The first pair starts the characters. -/
theorem exists_of_head?_pairs
    (hHead : (pairs cs).head? = some [c, d]) :
    ∃ rest, cs = c :: d :: rest := by
  cases hPairs : pairs cs with
  | nil => simp [hPairs] at hHead
  | cons group groups =>
      have hFlat := flatten_pairs cs
      rw [hPairs, List.head?_cons] at hHead
      rw [hPairs, Option.some.inj hHead,
        List.flatten_cons] at hFlat
      exact ⟨groups.flatten, hFlat.symm⟩

------------------------------------------------------------
-- Padding
------------------------------------------------------------

theorem length_padded
    (cs : List Char) :
    (padded cs).length = cs.length + cs.length % 2 := by
  unfold padded
  split
  · next hOdd => simp [eq_of_beq hOdd]
  · next hEven =>
      rw [beq_iff_eq] at hEven
      omega

theorem padded_subset
    (cs : List Char) :
    padded cs ⊆ '0' :: cs := by
  unfold padded
  split
  · exact List.Subset.refl _
  · exact List.subset_cons_self '0' cs

/- A zero in front leaves the number as it is. -/
theorem ofDigits?_padded
    (cs : List Char) :
    ofDigits? (padded cs) = ofDigits? cs := by
  unfold padded
  split
  · rw [ofDigits?, ofDigits?, List.mapM_cons]
    have hZero : Text.hexValue '0' = some 0 := by decide
    rw [hZero]
    cases cs.mapM Text.hexValue with
    | none => rfl
    | some vs => rfl
  · rfl

/-
  The zero in front can be told from the digits: a single
  digit is the only one that may be a zero itself.
-/
theorem padded_inj
    (hFirst : cs.head? = some '0' → cs.length = 1)
    (hSecond : ds.head? = some '0' → ds.length = 1) :
    padded cs = padded ds ↔ cs = ds := by
  constructor
  · intro hPadded
    unfold padded at hPadded
    split at hPadded
    · next hOdd =>
        split at hPadded
        · exact (List.cons.inj hPadded).2
        · next hEven =>
            have hHead : ds.head? = some '0' := by
              rw [← hPadded]
              rfl
            simp [hSecond hHead] at hEven
    · next hEven =>
        split at hPadded
        · next hOdd =>
            have hHead : cs.head? = some '0' := by
              rw [hPadded]
              rfl
            simp [hFirst hHead] at hEven
        · exact hPadded
  · rintro rfl
    rfl

------------------------------------------------------------
-- The Text
------------------------------------------------------------

/- The digits of a number in pairs. -/
def groups
    (i : Int) : List (List Char) :=
  pairs (padded (digits i))

/- What a number is written with, besides the colons. -/
theorem padded_digits_subset
    (i : Int) :
    padded (digits i) ⊆ '-' :: upperDigits := by
  have hZero : '0' ∈ '-' :: upperDigits := by decide
  exact List.Subset.trans (padded_subset _)
    (List.cons_subset.mpr ⟨hZero, digits_subset i⟩)

theorem colon_not_mem_of_mem_groups
    {group : List Char}
    (hGroup : group ∈ groups i) :
    ':' ∉ group := by
  intro hColon
  have hMember : ':' ∈ padded (digits i) := by
    rw [← flatten_pairs (padded (digits i))]
    exact List.mem_flatten_of_mem hGroup hColon
  have hOther : ':' ∉ '-' :: upperDigits := by decide
  exact hOther (padded_digits_subset i hMember)

theorem groups_ne_nil
    (i : Int) :
    groups i ≠ [] := by
  intro hNone
  have hLength := length_pairs (padded (digits i))
  rw [length_padded] at hLength
  rw [groups] at hNone
  rw [hNone, List.length_nil] at hLength
  have hSome := List.length_pos_iff.mpr (digits_ne_nil i)
  omega

/- Colons part the text into the pairs. -/
theorem splitAll_text
    (i : Int) :
    Text.splitAll ':' (text i).toList = groups i := by
  have hSome : (groups i).map String.ofList ≠ [] := by
    simp [groups_ne_nil]
  have hFree :
      ∀ s ∈ (groups i).map String.ofList,
        ':' ∉ s.toList := by
    intro s hText
    rcases List.mem_map.mp hText with ⟨group, hGroup, rfl⟩
    rw [String.toList_ofList]
    exact colon_not_mem_of_mem_groups hGroup
  have hSplit := Text.splitAll_joinWith hSome hFree
  have hColon : String.singleton ':' = ":" := by decide
  rw [hColon, List.map_map] at hSplit
  have hChars :
      String.toList ∘ String.ofList = id := by
    funext cs
    exact String.toList_ofList
  rw [hChars, List.map_id] at hSplit
  exact hSplit

/- Without the colons the text has the digits. -/
theorem filter_text
    (i : Int) :
    (text i).toList.filter (· != ':') =
      padded (digits i) := by
  rw [← Text.flatten_splitAll, splitAll_text, groups,
    flatten_pairs]

theorem ofText?_text
    (n : Nat) :
    ofText? (text n) = some n := by
  rw [ofText?, filter_text, ofDigits?_padded, digits_natCast,
    ofDigits?_numeral]

/- Each pair of a number without a sign is a byte. -/
theorem exists_of_mem_groups
    {n : Nat}
    {group : List Char}
    (hGroup : group ∈ groups n) :
    ∃ c d,
      group = [c, d] ∧ c ∈ upperDigits ∧
        d ∈ upperDigits := by
  have hEven : (padded (digits n)).length % 2 = 0 := by
    rw [length_padded]
    omega
  have hDigits : padded (digits n) ⊆ upperDigits := by
    have hZero : '0' ∈ upperDigits := by decide
    rw [digits_natCast]
    exact List.Subset.trans (padded_subset _)
      (List.cons_subset.mpr ⟨hZero, numeral_subset n⟩)
  rcases exists_of_mem_pairs hEven hGroup with
    ⟨c, d, hPair, hFirst, hSecond⟩
  exact ⟨c, d, hPair, hDigits hFirst, hDigits hSecond⟩

/- There are no more bytes than the number needs. -/
theorem length_groups_le_iff
    {m n : Nat} :
    (groups n).length ≤ m ↔ 0 < m ∧ n < Nat.pow 256 m := by
  have hSome := List.length_pos_iff.mpr (numeral_ne_nil n)
  have hBytes :
      (groups n).length ≤ m ↔ (numeral n).length ≤ 2 * m := by
    rw [groups, length_pairs, length_padded, digits_natCast]
    omega
  rw [hBytes]
  by_cases hPositive : 0 < m
  · have hCount :=
      Nat.length_toDigits_le_iff (b := 16) (n := n)
        (k := 2 * m) (by decide) (by omega)
    rw [Nat.pow_mul] at hCount
    rw [numeral, List.length_map, hCount]
    exact (and_iff_right hPositive).symm
  · have hNone : ¬ (numeral n).length ≤ 2 * m := by omega
    simp [hNone, hPositive]

theorem head?_groups_iff
    {n : Nat} :
    (groups n).head? = some ['0', '0'] ↔ n = 0 := by
  constructor
  · intro hHead
    rcases exists_of_head?_pairs hHead with ⟨rest, hChars⟩
    have hDigits : (digits n).head? = some '0' := by
      unfold padded at hChars
      split at hChars
      · simp [(List.cons.inj hChars).2]
      · simp [hChars]
    exact Int.ofNat_eq_zero.mp
      (eq_zero_of_head?_digits hDigits)
  · rintro rfl
    decide

/- Different numbers have different texts. -/
theorem text_inj :
    text i = text j ↔ i = j := by
  have hZero :
      ∀ k : Int,
        (digits k).head? = some '0' →
          (digits k).length = 1 := by
    intro k hHead
    rw [eq_zero_of_head?_digits hHead]
    decide
  constructor
  · intro hText
    have hPadded := filter_text i
    rw [hText, filter_text j] at hPadded
    have hDigits :=
      (padded_inj (hZero j) (hZero i)).mp hPadded
    exact (digits_inj.mp hDigits).symm
  · rintro rfl
    rfl

------------------------------------------------------------
-- Serial Numbers
------------------------------------------------------------

/-
  The text of a number without a sign parts at its colons
  into bytes of two upper case digits, as few as hold the
  number, and its digits read back as the number.  Among all
  numbers, negative ones too, each is known by its text.
-/
theorem text_loses_nothing :
    (∀ n : Nat,
      ∃ bytes : List (List Char),
        Text.splitAll ':' (text n).toList = bytes ∧
          bytes ≠ [] ∧
          (∀ byte ∈ bytes, ∃ c d,
            byte = [c, d] ∧ c ∈ upperDigits ∧
              d ∈ upperDigits) ∧
          ofText? (text n) = some n ∧
          (bytes.head? = some ['0', '0'] ↔ n = 0) ∧
          ∀ m,
            bytes.length ≤ m ↔ 0 < m ∧ n < Nat.pow 256 m) ∧
      Function.Injective text := by
  constructor
  · intro n
    refine ⟨groups n, splitAll_text n, groups_ne_nil n, ?_,
      ofText?_text n, head?_groups_iff, ?_⟩
    · intro byte hByte
      exact exists_of_mem_groups hByte
    · intro m
      exact length_groups_le_iff
  · intro i j hText
    exact text_inj.mp hText

/- The sign counts as a digit when the digits are paired. -/
example : text 2748 = "0A:BC" ∧ text (-16) = "0-:10" := by
  decide

end Serial

end LocalCert
