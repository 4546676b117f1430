import LocalCert.Json.Writer
import LocalCert.Proofs.Json.Members
import LocalCert.Proofs.Json.Reading
import LocalCert.Proofs.Text.Decoding

/-
  Writing agrees with the grammar: what is written of a
  standard value denotes it, and it is printable ASCII, so
  it is one line whatever texts the value holds.

  Main declarations:
    * `Text.IsPrintable`
    * `Json.units_flatMap_escape`
    * `Json.joinUnits_flatMap_unitsOf`
    * `Json.IsStandard`
    * `Json.IsStandard.denotes`
    * `Json.IsStandard.isPrintable`
-/

------------------------------------------------------------
-- Printable Characters
------------------------------------------------------------

namespace LocalCert

/- Characters between the blank and the tilde. -/
def Text.IsPrintable
    (cs : List Char) : Prop :=
  ∀ c ∈ cs, ' ' ≤ c ∧ c ≤ '~'

namespace Text.IsPrintable

variable {c : Char}
variable {cs others : List Char}

@[simp] theorem nil :
    IsPrintable [] := by
  simp [IsPrintable]

@[simp] theorem cons_iff :
    IsPrintable (c :: cs) ↔
      (' ' ≤ c ∧ c ≤ '~') ∧ IsPrintable cs := by
  simp [IsPrintable]

@[simp] theorem append_iff :
    IsPrintable (cs ++ others) ↔
      IsPrintable cs ∧ IsPrintable others :=
  List.forall_mem_append

end Text.IsPrintable

namespace Json

------------------------------------------------------------
-- Hexadecimal Digits
------------------------------------------------------------

theorem hexValue_hexDigit
    (n : Nat)
    (hDigit : n < 16) :
    Text.hexValue (Text.hexDigit n) = some n := by
  revert n
  decide

theorem isPrintable_hexDigit
    (n : Nat)
    (hDigit : n < 16) :
    ' ' ≤ Text.hexDigit n ∧ Text.hexDigit n ≤ '~' := by
  revert n
  decide

/- Four digits are read as the unit they are written for. -/
theorem unitOfDigits?_hexDigit
    {n : Nat}
    (hUnit : n < 0x10000) :
    unitOfDigits?
        (Text.hexDigit (n / 16 / 16 / 16 % 16))
        (Text.hexDigit (n / 16 / 16 % 16))
        (Text.hexDigit (n / 16 % 16))
        (Text.hexDigit (n % 16)) =
      some n := by
  have hDigit :
      ∀ m : Nat,
        Text.hexValue (Text.hexDigit (m % 16)) =
          some (m % 16) := by
    intro m
    exact hexValue_hexDigit _ (Nat.mod_lt _ (by decide))
  have hValue :
      ((n / 16 / 16 / 16 % 16 * 16 + n / 16 / 16 % 16) *
              16 +
            n / 16 % 16) *
          16 +
        n % 16 =
      n := by
    omega
  simp only [unitOfDigits?, hDigit, hValue]

theorem escapeUnit_eq
    (n : Nat) :
    escapeUnit n =
      ['\x5c', 'u',
        Text.hexDigit (n / 16 / 16 / 16 % 16),
        Text.hexDigit (n / 16 / 16 % 16),
        Text.hexDigit (n / 16 % 16),
        Text.hexDigit (n % 16)] := by
  rfl

/- An escaped unit is the unit, whatever follows it. -/
theorem units_escapeUnit
    {n : Nat}
    {cs : List Char}
    {ns : List Nat}
    (hUnit : n < 0x10000)
    (hRest : Units cs ns) :
    Units (escapeUnit n ++ cs) (n :: ns) := by
  rw [escapeUnit_eq]
  exact .digits (unitOfDigits?_hexDigit hUnit) hRest

theorem isPrintable_escapeUnit
    (n : Nat) :
    Text.IsPrintable (escapeUnit n) := by
  have hDigit :
      ∀ m : Nat,
        ' ' ≤ Text.hexDigit (m % 16) ∧
          Text.hexDigit (m % 16) ≤ '~' := by
    intro m
    exact isPrintable_hexDigit _ (Nat.mod_lt _ (by decide))
  rw [escapeUnit_eq]
  simp only [Text.IsPrintable.cons_iff, hDigit,
    Text.IsPrintable.nil]
  decide

------------------------------------------------------------
-- Strings
------------------------------------------------------------

/- The UTF-16 code units of a character. -/
def unitsOf
    (c : Char) : List Nat :=
  if c.toNat < 0x10000 then
    [c.toNat]
  else
    [0xD800 + (c.toNat - 0x10000) / 0x400,
      0xDC00 + (c.toNat - 0x10000) % 0x400]

/- The ways in which a character is written. -/
inductive Escapes
    (c : Char) : List Char → Prop where
  | letter
      {e : Char}
      (meaning : letterMeaning? e = some c.toNat)
      (low : c.toNat < 0x10000)
      (shown : Text.IsPrintable [e]) :
      Escapes c ['\x5c', e]
  | plain
      (shown : Text.IsPrintable [c])
      (quote : c ≠ '\x22')
      (backslash : c ≠ '\x5c') :
      Escapes c [c]
  | unit
      (low : c.toNat < 0x10000) :
      Escapes c (escapeUnit c.toNat)
  | pair
      (high : 0x10000 ≤ c.toNat) :
      Escapes c
        (escapeUnit (0xD800 + (c.toNat - 0x10000) / 0x400) ++
          escapeUnit
            (0xDC00 + (c.toNat - 0x10000) % 0x400))

theorem escapes_escape
    (c : Char) :
    Escapes c (escape c) := by
  unfold escape
  simp only [Bool.or_eq_true, beq_iff_eq,
    Bool.and_eq_true, decide_eq_true_eq]
  split
  · next hQuoted =>
      rcases hQuoted with rfl | rfl
      · exact .letter rfl (by decide) (by simp)
      · exact .letter rfl (by decide) (by simp)
  split
  · next hLine =>
      subst hLine
      exact .letter rfl (by decide) (by simp)
  split
  · next hReturn =>
      subst hReturn
      exact .letter rfl (by decide) (by simp)
  split
  · next hTab =>
      subst hTab
      exact .letter rfl (by decide) (by simp)
  split
  · next hBack =>
      exact .letter (by rw [hBack]; rfl) (by omega) (by simp)
  split
  · next hFeed =>
      exact .letter (by rw [hFeed]; rfl) (by omega) (by simp)
  split
  · next hQuoted _ _ _ _ _ hShown =>
      rw [not_or] at hQuoted
      refine .plain ?_ hQuoted.1 hQuoted.2
      exact Text.IsPrintable.cons_iff.mpr ⟨hShown, .nil⟩
  split
  · next hLow => exact .unit hLow
  · next hHigh => exact .pair (Nat.not_lt.mp hHigh)

/-
  What is written for a character stands for its units,
  whatever follows it.
-/
theorem units_escape
    {c : Char}
    {cs : List Char}
    {ns : List Nat}
    (hRest : Units cs ns) :
    Units (escape c ++ cs) (unitsOf c ++ ns) := by
  have hLast := Text.toNat_lt c
  have hEscapes := escapes_escape c
  generalize escape c = es at hEscapes ⊢
  cases hEscapes with
  | letter hMeaning hLow _ =>
      rw [unitsOf, if_pos hLow]
      exact .letter hMeaning hRest
  | plain hShown hQuote hBackslash =>
      rcases hShown c List.mem_cons_self with ⟨hLow, hHigh⟩
      have hFirst : 32 ≤ c.toNat := hLow
      have hUnit : c.toNat < 0x10000 :=
        Nat.lt_of_le_of_lt hHigh (by decide)
      rw [unitsOf, if_pos hUnit]
      exact .plain hFirst hQuote hBackslash hRest
  | unit hLow =>
      rw [unitsOf, if_pos hLow]
      exact units_escapeUnit hLow hRest
  | pair hHigh =>
      rw [unitsOf, if_neg (Nat.not_lt.mpr hHigh),
        List.append_assoc]
      exact units_escapeUnit (by omega)
        (units_escapeUnit (by omega) hRest)

theorem isPrintable_escape
    (c : Char) :
    Text.IsPrintable (escape c) := by
  have hEscapes := escapes_escape c
  generalize escape c = es at hEscapes ⊢
  cases hEscapes with
  | letter _ _ hShown =>
      exact Text.IsPrintable.cons_iff.mpr
        ⟨by decide, hShown⟩
  | plain hShown _ _ => exact hShown
  | unit _ => exact isPrintable_escapeUnit _
  | pair _ =>
      exact Text.IsPrintable.append_iff.mpr
        ⟨isPrintable_escapeUnit _, isPrintable_escapeUnit _⟩

theorem units_flatMap_escape
    (cs : List Char) :
    Units (cs.flatMap escape) (cs.flatMap unitsOf) := by
  induction cs with
  | nil => exact .nil
  | cons c cs ih => exact units_escape ih

/- A unit that is no first half of a pair is a character. -/
theorem joinUnits_cons
    {n : Nat}
    (ns : List Nat)
    (hHigh : Text.Symbol.isHigh n = false) :
    joinUnits (n :: ns) = .ofCode n :: joinUnits ns := by
  cases ns with
  | nil => rfl
  | cons m ns => simp [joinUnits, hHigh]

theorem ofCode_toNat
    (c : Char) :
    Text.Symbol.ofCode c.toNat = .char c := by
  have hWhole := Text.not_surrogate c
  have hHalf :
      (Text.Symbol.isHigh c.toNat ||
        Text.Symbol.isLow c.toNat) = false := by
    simp only [Text.Symbol.isHigh, Text.Symbol.isLow,
      Bool.or_eq_false_iff, Bool.and_eq_false_imp,
      decide_eq_true_eq, decide_eq_false_iff_not]
    omega
  simp [Text.Symbol.ofCode, hHalf]

/- The units of a character are joined to it again. -/
theorem joinUnits_unitsOf
    (c : Char)
    (ns : List Nat) :
    joinUnits (unitsOf c ++ ns) =
      .char c :: joinUnits ns := by
  have hWhole := Text.not_surrogate c
  have hLast := Text.toNat_lt c
  by_cases hLow : c.toNat < 0x10000
  · have hHigh : Text.Symbol.isHigh c.toNat = false := by
      simp only [Text.Symbol.isHigh, Bool.and_eq_false_imp,
        decide_eq_true_eq, decide_eq_false_iff_not]
      omega
    rw [unitsOf, if_pos hLow]
    exact (joinUnits_cons ns hHigh).trans
      (by rw [ofCode_toNat])
  · rw [unitsOf, if_neg hLow]
    have hFirst :
        Text.Symbol.isHigh
            (0xD800 + (c.toNat - 0x10000) / 0x400) =
          true := by
      simp only [Text.Symbol.isHigh, Bool.and_eq_true,
        decide_eq_true_eq]
      omega
    have hSecond :
        Text.Symbol.isLow
            (0xDC00 + (c.toNat - 0x10000) % 0x400) =
          true := by
      simp only [Text.Symbol.isLow, Bool.and_eq_true,
        decide_eq_true_eq]
      omega
    have hCode :
        0x10000 +
              (0xD800 + (c.toNat - 0x10000) / 0x400 -
                  0xD800) *
                0x400 +
            (0xDC00 + (c.toNat - 0x10000) % 0x400 -
              0xDC00) =
          c.toNat := by
      omega
    simp only [List.cons_append, List.nil_append, joinUnits,
      hFirst, hSecond, Bool.and_self, if_true, hCode,
      Char.ofNat_toNat]

theorem joinUnits_flatMap_unitsOf
    (cs : List Char) :
    joinUnits (cs.flatMap unitsOf) = cs.map .char := by
  induction cs with
  | nil => rfl
  | cons c cs ih =>
      rw [List.flatMap_cons, joinUnits_unitsOf, ih,
        List.map_cons]

theorem chars?_map_char
    (cs : List Char) :
    Text.chars? (cs.map .char) = some cs := by
  induction cs with
  | nil => rfl
  | cons c cs ih =>
      rw [Text.chars?] at ih ⊢
      rw [List.map_cons, List.mapM_cons, ih]
      rfl

theorem chars?_joinUnits
    (cs : List Char) :
    Text.chars? (joinUnits (cs.flatMap unitsOf)) =
      some cs := by
  rw [joinUnits_flatMap_unitsOf, chars?_map_char]

/- A text is written as a string that denotes it. -/
theorem denotes_quote
    (s : String) :
    Denotes (quote s.toList) (.value (.text s)) := by
  have hText :
      ofSymbols (joinUnits (s.toList.flatMap unitsOf)) =
        .text s := by
    simp [ofSymbols, chars?_joinUnits]
  rw [← hText]
  exact .text (units_flatMap_escape s.toList)

theorem isPrintable_quote
    (cs : List Char) :
    Text.IsPrintable (quote cs) := by
  have hInside : Text.IsPrintable (cs.flatMap escape) := by
    intro c hMember
    rcases List.mem_flatMap.mp hMember with ⟨d, _, hEscape⟩
    exact isPrintable_escape d c hEscape
  simp only [quote, Text.IsPrintable.cons_iff,
    Text.IsPrintable.append_iff, Text.IsPrintable.nil,
    hInside]
  decide

------------------------------------------------------------
-- Whole Numbers
------------------------------------------------------------

theorem isDigits_decimalDigits
    (n : Nat) :
    IsDigits (Text.decimalDigits n) := by
  constructor
  · exact Nat.toDigits_ne_nil
  · intro d hDigit
    have hBoth : d.isDigit = true :=
      Nat.isDigit_of_mem_toDigits (by decide) (by decide)
        hDigit
    have hBounds : 48 ≤ d.val ∧ d.val ≤ 57 := by
      simpa [Char.isDigit] using hBoth
    exact hBounds

theorem ofDecimalDigits_decimalDigits
    (n : Nat) :
    Text.ofDecimalDigits (Text.decimalDigits n) = n := by
  have hDigits :
      Nat.ofDigitChars 10 (Nat.toDigits 10 n) 0 = n :=
    Nat.ofDigitChars_toDigits (by decide) (by decide)
  rwa [Nat.ofDigitChars_eq_foldl] at hDigits

/- No zero stands in front of other digits. -/
theorem isWhole_decimalDigits
    (n : Nat) :
    IsWhole (Text.decimalDigits n) := by
  refine ⟨isDigits_decimalDigits n, ?_⟩
  induction n using Nat.strongRecOn with
  | ind n ih =>
      intro hZero
      by_cases hDigit : n < 10
      · rw [Text.decimalDigits,
          Nat.toDigits_of_lt_base hDigit] at hZero ⊢
        rw [Option.some.inj hZero]
      · have hLarge : 10 ≤ n := Nat.not_lt.mp hDigit
        rw [Text.decimalDigits,
          Nat.toDigits_of_base_le (by decide) hLarge,
          List.head?_append_of_ne_nil _
            Nat.toDigits_ne_nil] at hZero
        have hFront := ih (n / 10) (by omega) hZero
        have hValue :=
          ofDecimalDigits_decimalDigits (n / 10)
        rw [hFront] at hValue
        have hNone : 0 = n / 10 := hValue
        omega

theorem signed_decimalDigits
    (negative : Bool)
    (n : Nat) :
    signed negative (Text.decimalDigits n) =
      if negative then -(n : Int) else n := by
  rw [signed, ofDecimalDigits_decimalDigits]
  rfl

/- A whole number denotes itself. -/
theorem denotes_intText
    (i : Int) :
    Denotes (Text.intText i).toList (.value (.whole i)) := by
  cases i with
  | ofNat n =>
      have hNumeral :
          Numeral false (Text.decimalDigits n)
            (.whole (signed false (Text.decimalDigits n))) :=
        .whole (isWhole_decimalDigits n)
      rw [signed_decimalDigits] at hNumeral
      rw [Text.intText, String.toList_ofList]
      exact .positive hNumeral
  | negSucc n =>
      have hNumeral :
          Numeral true (Text.decimalDigits (n + 1))
            (.whole
              (signed true (Text.decimalDigits (n + 1)))) :=
        .whole (isWhole_decimalDigits (n + 1))
      rw [signed_decimalDigits] at hNumeral
      rw [Text.intText, String.toList_ofList]
      exact .negative hNumeral

theorem isPrintable_intText
    (i : Int) :
    Text.IsPrintable (Text.intText i).toList := by
  have hDigits :
      ∀ n, Text.IsPrintable (Text.decimalDigits n) := by
    intro n d hDigit
    rcases (isDigits_decimalDigits n).2 d hDigit with
      ⟨hLow, hHigh⟩
    exact ⟨Char.le_trans (by decide) hLow,
      Char.le_trans hHigh (by decide)⟩
  cases i with
  | ofNat n =>
      rw [Text.intText, String.toList_ofList]
      exact hDigits n
  | negSucc n =>
      rw [Text.intText, String.toList_ofList]
      exact Text.IsPrintable.cons_iff.mpr
        ⟨by decide, hDigits (n + 1)⟩

------------------------------------------------------------
-- Standard Values
------------------------------------------------------------

/-
  The values that the standard has words for, with whole
  numbers only, and objects that have no key twice.
-/
inductive IsStandard : Json → Prop where
  | null : IsStandard .null
  | bool (b : Bool) : IsStandard (.bool b)
  | whole (i : Int) : IsStandard (.whole i)
  | text (s : String) : IsStandard (.text s)
  | list
      {items : List Json}
      (all : ∀ item ∈ items, IsStandard item) :
      IsStandard (.list items)
  | object
      {members : Members}
      (once : (keys members).Nodup)
      (all : ∀ m ∈ members, IsStandard m.2) :
      IsStandard (.object members)

/- Members without a key twice are put as they are. -/
theorem putAll_of_nodup
    {members others : Members}
    (hOnce : (keys (members ++ others)).Nodup) :
    putAll members others = members ++ others := by
  induction others generalizing members with
  | nil => simp [putAll]
  | cons m others ih =>
      have hNew : m.1 ∉ keys members := by
        simp only [keys, List.map_append, List.map_cons,
          List.nodup_append] at hOnce
        intro hThere
        exact hOnce.2.2 _ hThere _ List.mem_cons_self rfl
      have hPut : put members m.1 m.2 = members ++ [m] := by
        rw [put, if_neg (mt hasKey_iff.mp hNew)]
      have hRest :
          (keys ((members ++ [m]) ++ others)).Nodup := by
        simpa using hOnce
      have hAll := ih hRest
      rw [putAll] at hAll ⊢
      rw [List.foldl_cons, hPut, hAll]
      simp

theorem IsSpace.nil :
    IsSpace [] := by
  simp [IsSpace]

theorem IsSpace.blank :
    IsSpace [' '] := by
  simp [IsSpace]

/- A value with blanks in front. -/
theorem Denotes.afterBlanks
    {before cs : List Char}
    {v : Json}
    (hFront : IsSpace before)
    (hValue : Denotes cs (.value v)) :
    Denotes (before ++ cs) (.element v) := by
  have hElement := Denotes.element hFront hValue .nil
  rwa [List.append_nil] at hElement

/-
  What is written for items, up to the closing bracket.
  Each item but the first has a blank in front of it.
-/
theorem denotes_writeItems
    {items : List Json}
    (hSome : items ≠ [])
    (hAll :
      ∀ item ∈ items, Denotes item.write (.value item)) :
    ∃ cs,
      writeItems items = cs ++ [']'] ∧
        ∀ before,
          IsSpace before →
          Denotes (before ++ cs) (.elements items) := by
  induction items with
  | nil => exact absurd rfl hSome
  | cons item items ih =>
      have hItem := hAll item List.mem_cons_self
      cases items with
      | nil =>
          refine ⟨item.write, rfl, ?_⟩
          intro before hBefore
          exact .lastElement (.afterBlanks hBefore hItem)
      | cons next items =>
          have hOthers :
              ∀ other ∈ next :: items,
                Denotes other.write (.value other) := by
            intro other hOther
            exact hAll other (List.mem_cons_of_mem _ hOther)
          rcases ih (by simp) hOthers with
            ⟨cs, hWrite, hDenotes⟩
          refine ⟨item.write ++ ',' :: ' ' :: cs, ?_, ?_⟩
          · simp [writeItems, hWrite]
          · intro before hBefore
            rw [← List.append_assoc]
            exact .elements (.afterBlanks hBefore hItem)
              (hDenotes [' '] .blank)

/- A key and its value, with blanks in front of the key. -/
theorem denotes_member
    {before : List Char}
    {v : Json}
    (key : String)
    (hFront : IsSpace before)
    (hValue : Denotes v.write (.value v)) :
    Denotes
      (before ++ (quote key.toList ++ ':' :: ' ' :: v.write))
      (.member key v) := by
  have hElement : Denotes (' ' :: v.write) (.element v) :=
    .afterBlanks .blank hValue
  have hMember :=
    Denotes.member hFront
      (units_flatMap_escape key.toList)
      (chars?_joinUnits key.toList) .nil hElement
  simpa [quote] using hMember

/- What is written for members, up to the closing brace. -/
theorem denotes_writeMembers
    {members : Members}
    (hSome : members ≠ [])
    (hAll :
      ∀ m ∈ members, Denotes m.2.write (.value m.2)) :
    ∃ cs,
      writeMembers members = cs ++ ['\x7d'] ∧
        ∀ before,
          IsSpace before →
          Denotes (before ++ cs) (.members members) := by
  induction members with
  | nil => exact absurd rfl hSome
  | cons m members ih =>
      have hFirst := hAll m List.mem_cons_self
      cases members with
      | nil =>
          refine
            ⟨quote m.1.toList ++ ':' :: ' ' :: m.2.write,
              ?_, ?_⟩
          · simp [writeMembers]
          · intro before hBefore
            exact .lastMember
              (denotes_member m.1 hBefore hFirst)
      | cons next members =>
          have hOthers :
              ∀ other ∈ next :: members,
                Denotes other.2.write (.value other.2) := by
            intro other hOther
            exact hAll other (List.mem_cons_of_mem _ hOther)
          rcases ih (by simp) hOthers with
            ⟨cs, hWrite, hDenotes⟩
          refine
            ⟨quote m.1.toList ++
                ':' :: ' ' :: (m.2.write ++ ',' :: ' ' :: cs),
              ?_, ?_⟩
          · simp [writeMembers, hWrite]
          · intro before hBefore
            have hBoth :=
              Denotes.members
                (denotes_member m.1 hBefore hFirst)
                (hDenotes [' '] .blank)
            simpa using hBoth

/- What is written of a standard value denotes it. -/
theorem IsStandard.denotes
    {v : Json}
    (hStandard : v.IsStandard) :
    Denotes v.write (.value v) := by
  induction hStandard with
  | null => exact .null
  | bool b =>
      cases b with
      | true => exact .isTrue
      | false => exact .isFalse
  | whole i => exact denotes_intText i
  | text s => exact denotes_quote s
  | @list items _ ih =>
      cases items with
      | nil => exact .emptyList .nil
      | cons item items =>
          rcases denotes_writeItems (by simp) ih with
            ⟨cs, hWrite, hDenotes⟩
          rw [write, hWrite]
          exact .list (hDenotes [] .nil)
  | @object members hOnce _ ih =>
      have hPut : putAll [] members = members :=
        putAll_of_nodup hOnce
      cases members with
      | nil => exact .emptyObject .nil
      | cons m members =>
          rcases denotes_writeMembers (by simp) ih with
            ⟨cs, hWrite, hDenotes⟩
          have hObject :=
            Denotes.object (hDenotes [] .nil)
          rw [hPut] at hObject
          rwa [write, hWrite]

/- So is a line of a standard value. -/
theorem IsStandard.denotes_line
    {v : Json}
    (hStandard : v.IsStandard) :
    Denotes (line v).toList (.element v) := by
  rw [line, String.toList_ofList]
  exact .afterBlanks .nil hStandard.denotes

------------------------------------------------------------
-- One Line
------------------------------------------------------------

theorem isPrintable_writeItems
    {items : List Json}
    (hAll : ∀ item ∈ items, Text.IsPrintable item.write) :
    Text.IsPrintable (writeItems items) := by
  induction items with
  | nil => simp [writeItems]
  | cons item items ih =>
      have hItem := hAll item List.mem_cons_self
      have hMore :=
        ih (fun other hOther =>
          hAll other (List.mem_cons_of_mem _ hOther))
      cases items with
      | nil => simp [writeItems, hItem]
      | cons next items => simp [writeItems, hItem, hMore]

theorem isPrintable_writeMembers
    {members : Members}
    (hAll : ∀ m ∈ members, Text.IsPrintable m.2.write) :
    Text.IsPrintable (writeMembers members) := by
  induction members with
  | nil => simp [writeMembers]
  | cons m members ih =>
      have hFirst := hAll m List.mem_cons_self
      have hKey := isPrintable_quote m.1.toList
      have hMore :=
        ih (fun other hOther =>
          hAll other (List.mem_cons_of_mem _ hOther))
      cases members with
      | nil => simp [writeMembers, hFirst, hKey]
      | cons next members =>
          simp [writeMembers, hFirst, hKey, hMore]

/- Nothing that is written breaks its line. -/
theorem IsStandard.isPrintable
    {v : Json}
    (hStandard : v.IsStandard) :
    Text.IsPrintable v.write := by
  induction hStandard with
  | null => simp [write]
  | bool b => cases b <;> simp [write]
  | whole i => exact isPrintable_intText i
  | text s => exact isPrintable_quote s.toList
  | list _ ih =>
      rw [write]
      exact Text.IsPrintable.cons_iff.mpr
        ⟨by decide, isPrintable_writeItems ih⟩
  | object _ _ ih =>
      rw [write]
      exact Text.IsPrintable.cons_iff.mpr
        ⟨by decide, isPrintable_writeMembers ih⟩

end Json

end LocalCert
