import LocalCert.Json.Grammar

/-
  Reading agrees with the grammar: what a text denotes is
  what is read from it.  So a text denotes one value at
  most.

  Main declarations:
    * `Json.readText_of_units`
    * `Json.readUnsigned_of_numeral`
    * `Json.Phrase.IsRead`
    * `Json.Denotes.isRead`
    * `Json.Denotes.ofText?_eq`
-/

------------------------------------------------------------
-- Blanks
------------------------------------------------------------

namespace LocalCert

namespace Json

variable {cs rest : List Char}

theorem IsSpace.isBlank
    {s : List Char}
    (hSpace : IsSpace s) :
    ∀ c ∈ s, isBlank c = true := by
  intro c hc
  rcases hSpace c hc with rfl | rfl | rfl | rfl <;> rfl

/- Blanks in front are skipped. -/
theorem skipBlanks_append
    {s : List Char}
    (hSpace : IsSpace s) :
    skipBlanks (s ++ cs) = skipBlanks cs :=
  List.dropWhile_append_of_pos hSpace.isBlank

/- Nothing is skipped where no blank stands. -/
theorem skipBlanks_cons
    {c : Char}
    (hBlank : isBlank c = false) :
    skipBlanks (c :: cs) = c :: cs :=
  List.dropWhile_cons_of_neg (by simp [hBlank])

theorem skipBlanks_skipBlanks
    (cs : List Char) :
    skipBlanks (skipBlanks cs) = skipBlanks cs := by
  induction cs with
  | nil => rfl
  | cons c cs ih =>
      cases hBlank : isBlank c with
      | true => simpa [skipBlanks, hBlank] using ih
      | false => simp [skipBlanks, hBlank]

/- A value is read from where the blanks end. -/
theorem readValue_skipBlanks
    (fuel : Nat)
    (cs : List Char) :
    readValue fuel (skipBlanks cs) = readValue fuel cs := by
  cases fuel with
  | zero => rfl
  | succ fuel =>
      simp only [readValue, skipBlanks_skipBlanks]

theorem readItems_skipBlanks
    (fuel : Nat)
    (cs : List Char) :
    readItems fuel (skipBlanks cs) = readItems fuel cs := by
  cases fuel with
  | zero => rfl
  | succ fuel =>
      simp only [readItems, readValue_skipBlanks]

theorem readMembers_skipBlanks
    (fuel : Nat)
    (cs : List Char) :
    readMembers fuel (skipBlanks cs) =
      readMembers fuel cs := by
  cases fuel with
  | zero => rfl
  | succ fuel =>
      simp only [readMembers, skipBlanks_skipBlanks]

------------------------------------------------------------
-- Strings
------------------------------------------------------------

/- A string is read up to its closing quote. -/
theorem readUnits_of_units
    {ns : List Nat}
    (hUnits : Units cs ns) :
    readUnits (cs ++ '\x22' :: rest) = some (ns, rest) := by
  induction hUnits with
  | nil => rfl
  | @plain c cs ns hControl hQuote hBackslash _ ih =>
      have hLow : ¬ c.toNat < 32 := Nat.not_lt.mpr hControl
      simp [readUnits, ih, hBackslash, hLow]
  | @letter e n cs ns hMeaning _ ih =>
      have hOther : e ≠ 'u' := by
        rintro rfl
        cases hMeaning
      simp [readUnits, ih, hMeaning, hOther]
  | digits hUnit _ ih =>
      simp [readUnits, ih, hUnit]

theorem readText_of_units
    {ns : List Nat}
    (hUnits : Units cs ns) :
    readText (cs ++ '\x22' :: rest) =
      some (joinUnits ns, rest) := by
  rw [readText, readUnits_of_units hUnits]
  rfl

------------------------------------------------------------
-- Digits
------------------------------------------------------------

theorem IsDigits.isDigit
    {ds : List Char}
    (hDigits : IsDigits ds) :
    ∀ d ∈ ds, Text.isDigit d = true := by
  intro d hd
  rcases hDigits.2 d hd with ⟨hLow, hHigh⟩
  have hFirst : 48 ≤ d.toNat := hLow
  have hLast : d.toNat ≤ 57 := hHigh
  simp [Text.isDigit, hFirst, hLast]

/- What follows digits, if it does not start with one. -/
def EndsDigits
    (rest : List Char) : Prop :=
  ∀ c ∈ rest.head?, Text.isDigit c = false

section

variable {ds : List Char}

theorem takeWhile_isDigit
    (hDigits : ∀ d ∈ ds, Text.isDigit d = true)
    (hRest : EndsDigits rest) :
    (ds ++ rest).takeWhile Text.isDigit = ds := by
  rw [List.takeWhile_append_of_pos hDigits]
  cases rest with
  | nil => simp
  | cons c rest => simp [hRest c rfl]

theorem dropWhile_isDigit
    (hDigits : ∀ d ∈ ds, Text.isDigit d = true)
    (hRest : EndsDigits rest) :
    (ds ++ rest).dropWhile Text.isDigit = rest := by
  rw [List.dropWhile_append_of_pos hDigits]
  cases rest with
  | nil => rfl
  | cons c rest => simp [hRest c rfl]

end

------------------------------------------------------------
-- Numbers
------------------------------------------------------------

/-
  What follows a value, if it cannot go on with a number: it
  starts with no digit, point or mark of an exponent.
-/
def EndsNumber
    (rest : List Char) : Prop :=
  ∀ c ∈ rest.head?,
    Text.isDigit c = false ∧ c ≠ '.' ∧ c ≠ 'e' ∧ c ≠ 'E'

theorem EndsNumber.endsDigits
    (hRest : EndsNumber rest) :
    EndsDigits rest := by
  intro c hc
  exact (hRest c hc).1

/- A fraction is read up to where its digits end. -/
theorem readFraction_of_fraction
    {fraction : Option (List Char)}
    (hFraction : Fraction cs fraction)
    (hRest : EndsDigits rest)
    (hPoint : '.' ∉ rest.head?) :
    readFraction (cs ++ rest) = some (fraction, rest) := by
  cases hFraction with
  | absent =>
      cases rest with
      | nil => rfl
      | cons c rest =>
          have hOther : c ≠ '.' := by
            simpa [eq_comm] using hPoint
          simp [readFraction, hOther]
  | @present ds hDigits =>
      have hSome : ds ≠ [] := hDigits.1
      simp [readFraction,
        takeWhile_isDigit hDigits.isDigit hRest,
        dropWhile_isDigit hDigits.isDigit hRest, hSome]

/- A digit is none of the characters of another kind. -/
theorem IsDigits.head_ne
    {d c : Char}
    {ds : List Char}
    (hDigits : IsDigits (d :: ds))
    (hOther : Text.isDigit c = false) :
    d ≠ c := by
  rintro rfl
  have hDigit := hDigits.isDigit d List.mem_cons_self
  rw [hOther] at hDigit
  cases hDigit

/- Signed digits are read as the number they are. -/
theorem exponentOfText?_signed
    {ds : List Char}
    (negative : Bool)
    (hDigits : IsDigits ds) :
    Double.exponentOfText?
        ((if negative then ['-'] else []) ++ ds) =
      some (signed negative ds) := by
  have hAll : ds.all Text.isDigit = true := by
    simpa using hDigits.isDigit
  rcases List.exists_cons_of_ne_nil hDigits.1 with
    ⟨d, rest, rfl⟩
  have hMinus : d ≠ '-' := hDigits.head_ne rfl
  have hPlus : d ≠ '+' := hDigits.head_ne rfl
  unfold Double.exponentOfText?
  cases negative with
  | true =>
      simp only [if_true, List.singleton_append, hAll,
        List.isEmpty_cons, Bool.not_true, Bool.or_self,
        Bool.false_eq_true, if_false, signed]
  | false =>
      simp only [Bool.false_eq_true, if_false,
        List.nil_append]
      split
      · simp_all
      · simp_all
      · simp only [hAll, List.isEmpty_cons, Bool.not_true,
          Bool.or_self, Bool.false_eq_true, if_false,
          signed]

/- An exponent is read up to where its digits end. -/
theorem readExponent_of_exponent
    {exponent : Option Int}
    (hExponent : Exponent cs exponent)
    (hRest : EndsNumber rest) :
    readExponent (cs ++ rest) = some (exponent, rest) := by
  cases hExponent with
  | absent =>
      cases rest with
      | nil => rfl
      | cons c rest =>
          rcases hRest c rfl with ⟨_, _, hLower, hUpper⟩
          simp [readExponent, hLower, hUpper]
  | @present e sign ds negative hMark hSign hDigits =>
      have hEither : (e == 'e' || e == 'E') = true := by
        simpa using hMark
      have hTake :=
        takeWhile_isDigit hDigits.isDigit hRest.endsDigits
      have hDrop :=
        dropWhile_isDigit hDigits.isDigit hRest.endsDigits
      have hValue := exponentOfText?_signed negative hDigits
      simp only [List.cons_append, List.append_assoc]
      cases hSign with
      | absent =>
          rcases List.exists_cons_of_ne_nil hDigits.1 with
            ⟨d, more, rfl⟩
          have hMinus : d ≠ '-' := hDigits.head_ne rfl
          have hPlus : d ≠ '+' := hDigits.head_ne rfl
          simp only [readExponent, hEither, if_true,
            List.nil_append]
          split
          · simp_all
          · simp_all
          · simp only [List.cons_append] at hTake hDrop
            simpa [hTake, hDrop] using hValue
      | plus =>
          simpa [readExponent, hEither, hTake, hDrop] using hValue
      | minus =>
          simpa [readExponent, hEither, hTake, hDrop] using hValue

/- What follows the digits before an exponent. -/
theorem Exponent.endsDigits
    {exponent : Option Int}
    (hExponent : Exponent cs exponent)
    (hRest : EndsNumber rest) :
    EndsDigits (cs ++ rest) ∧ '.' ∉ (cs ++ rest).head? := by
  cases hExponent with
  | absent =>
      refine ⟨hRest.endsDigits, ?_⟩
      intro hPoint
      exact (hRest '.' hPoint).2.1 rfl
  | present hMark _ _ =>
      rcases hMark with rfl | rfl
      · simp [EndsDigits, Text.isDigit]
      · simp [EndsDigits, Text.isDigit]

/- What follows the digits before a fraction. -/
theorem Fraction.endsDigits
    {fraction : Option (List Char)}
    (hFraction : Fraction cs fraction)
    (hRest : EndsDigits rest) :
    EndsDigits (cs ++ rest) := by
  cases hFraction with
  | absent => exact hRest
  | present _ => simp [EndsDigits, Text.isDigit]

/- The digits, the fraction and the exponent of a number. -/
theorem readUnsigned_append
    {ds fs es : List Char}
    {fraction : Option (List Char)}
    {exponent : Option Int}
    (negative : Bool)
    (hWhole : IsWhole ds)
    (hFraction : Fraction fs fraction)
    (hExponent : Exponent es exponent)
    (hRest : EndsNumber rest) :
    readUnsigned negative (ds ++ (fs ++ (es ++ rest))) =
      some
        (if fraction.isNone && exponent.isNone then
            .whole (signed negative ds)
          else
            .real
              (Double.Unsigned.toDouble negative
                ⟨ds, fraction.getD [], exponent.getD 0⟩),
          rest) := by
  rcases hExponent.endsDigits hRest with ⟨hEnds, hPoint⟩
  have hAfter := hFraction.endsDigits hEnds
  have hPlain :
      (ds.isEmpty ||
        (1 < ds.length && ds.head? == some '0')) = false := by
    rcases hWhole with ⟨⟨hSome, _⟩, hZero⟩
    by_cases hFirst : ds.head? = some '0'
    · simp [hZero hFirst]
    · simp [hSome, hFirst]
  simp only [readUnsigned,
    takeWhile_isDigit hWhole.1.isDigit hAfter,
    dropWhile_isDigit hWhole.1.isDigit hAfter, hPlain,
    readFraction_of_fraction hFraction hEnds hPoint,
    readExponent_of_exponent hExponent hRest, bind,
    Option.bind_some, Bool.false_eq_true, if_false]
  cases hNone : fraction.isNone && exponent.isNone with
  | false => rfl
  | true => rfl

/- A number is read up to where it ends. -/
theorem readUnsigned_of_numeral
    {negative : Bool}
    {v : Json}
    (hNumeral : Numeral negative cs v)
    (hRest : EndsNumber rest) :
    readUnsigned negative (cs ++ rest) = some (v, rest) := by
  cases hNumeral with
  | whole hWhole =>
      exact readUnsigned_append negative hWhole .absent
        .absent hRest
  | @real ds fs es fraction exponent hWhole hFraction
      hExponent hMore =>
      have hNone :
          (fraction.isNone && exponent.isNone) = false := by
        cases fraction <;> cases exponent <;> simp_all
      rw [List.append_assoc, List.append_assoc,
        readUnsigned_append negative hWhole hFraction
          hExponent hRest, hNone]
      rfl

------------------------------------------------------------
-- Words
------------------------------------------------------------

theorem readPlain_null :
    readPlain ('n' :: 'u' :: 'l' :: 'l' :: rest) =
      some (.null, rest) := by
  simp [readPlain, words, afterWord?]

theorem readPlain_true :
    readPlain ('t' :: 'r' :: 'u' :: 'e' :: rest) =
      some (.bool true, rest) := by
  simp [readPlain, words, afterWord?]

theorem readPlain_false :
    readPlain ('f' :: 'a' :: 'l' :: 's' :: 'e' :: rest) =
      some (.bool false, rest) := by
  simp [readPlain, words, afterWord?]

/- A word does not start with another character than its own. -/
theorem afterWord?_cons_of_ne
    {w c : Char}
    {ws : List Char}
    (hOther : w ≠ c) :
    afterWord? (w :: ws) (c :: cs) = none := by
  simp [afterWord?, hOther]

/- No word starts with a digit or a sign. -/
theorem readPlain_of_number
    {c : Char}
    (hNumber : Text.isDigit c = true ∨ c = '-') :
    readPlain (c :: cs) = readNumber (c :: cs) := by
  have hWords :
      ∀ w ∈ words, afterWord? w.1.toList (c :: cs) = none := by
    have hFirst :
        ∀ w ∈ words,
          ∃ f ws, w.1.toList = f :: ws ∧
            Text.isDigit f = false ∧ f ≠ '-' := by
      simp [words, Text.isDigit]
    intro w hw
    rcases hFirst w hw with ⟨f, ws, hText, hDigit, hSign⟩
    rw [hText]
    apply afterWord?_cons_of_ne
    rintro rfl
    simp_all
  have hNone :
      words.findSome? (fun w =>
        (afterWord? w.1.toList (c :: cs)).map
          (fun rest => (w.2, rest))) = none := by
    rw [List.findSome?_eq_none_iff]
    intro w hw
    rw [hWords w hw]
    rfl
  rw [readPlain, hNone]

/- A number starts with a digit. -/
theorem Numeral.exists_cons
    {negative : Bool}
    {v : Json}
    (hNumeral : Numeral negative cs v) :
    ∃ d ds, cs = d :: ds ∧ Text.isDigit d = true := by
  cases hNumeral with
  | whole hWhole =>
      rcases List.exists_cons_of_ne_nil hWhole.1.1 with
        ⟨d, ds, rfl⟩
      exact ⟨d, ds, rfl, hWhole.1.isDigit d (by simp)⟩
  | real hWhole _ _ _ =>
      rcases List.exists_cons_of_ne_nil hWhole.1.1 with
        ⟨d, ds, rfl⟩
      exact ⟨d, _, rfl, hWhole.1.isDigit d (by simp)⟩

theorem readPlain_of_positive
    {v : Json}
    (hNumeral : Numeral false cs v)
    (hRest : EndsNumber rest) :
    readPlain (cs ++ rest) = some (v, rest) := by
  have hRead := readUnsigned_of_numeral hNumeral hRest
  rcases hNumeral.exists_cons with ⟨d, ds, rfl, hDigit⟩
  have hMinus : d ≠ '-' := by
    rintro rfl
    cases hDigit
  have hWord :
      afterWord? "-Infinity".toList (d :: (ds ++ rest)) =
        none := by
    simp [afterWord?, Ne.symm hMinus]
  rw [List.cons_append] at hRead ⊢
  rw [readPlain_of_number (.inl hDigit)]
  unfold readNumber
  simp only [hWord]
  split
  · next hSign =>
      exact absurd (List.head_eq_of_cons_eq hSign) hMinus
  · exact hRead

theorem readPlain_of_negative
    {v : Json}
    (hNumeral : Numeral true cs v)
    (hRest : EndsNumber rest) :
    readPlain ('-' :: (cs ++ rest)) = some (v, rest) := by
  have hRead := readUnsigned_of_numeral hNumeral hRest
  rcases hNumeral.exists_cons with ⟨d, ds, rfl, hDigit⟩
  have hLetter : 'I' ≠ d := by
    rintro rfl
    cases hDigit
  have hWord :
      afterWord? "-Infinity".toList
          ('-' :: (d :: ds ++ rest)) = none := by
    simp [afterWord?, hLetter]
  rw [readPlain_of_number (.inr rfl), readNumber, hWord]
  exact hRead

------------------------------------------------------------
-- Phrases
------------------------------------------------------------

/- How a key and its value are read, and what follows. -/
inductive ReadsMember
    (fuel : Nat)
    (cs : List Char) :
    String → Json → List Char → Prop where
  | intro
      {r after tail left key : List Char}
      {symbols : List Text.Symbol}
      {v : Json}
      (quote : skipBlanks cs = '\x22' :: r)
      (text : readText r = some (symbols, after))
      (name : Text.chars? symbols = some key)
      (colon : skipBlanks after = ':' :: tail)
      (value : readValue fuel tail = some (v, left)) :
      ReadsMember fuel cs (String.ofList key) v left

section

variable {fuel : Nat}
variable {key : String}
variable {v : Json}
variable {left : List Char}

/- Before a closing brace a member is the last one. -/
theorem ReadsMember.last
    (hMember : ReadsMember fuel cs key v left)
    (hBrace : skipBlanks left = '\x7d' :: rest) :
    readMembers (fuel + 1) cs = some ([(key, v)], rest) := by
  cases hMember with
  | intro hQuote hText hName hColon hValue =>
      simp [readMembers, hQuote, hText, hName, hColon,
        hValue, hBrace]

/- Before a comma there are more. -/
theorem ReadsMember.more
    {next : List Char}
    {ms : Members}
    (hMember : ReadsMember fuel cs key v left)
    (hComma : skipBlanks left = ',' :: next)
    (hMore : readMembers fuel next = some (ms, rest)) :
    readMembers (fuel + 1) cs =
      some ((key, v) :: ms, rest) := by
  cases hMember with
  | intro hQuote hText hName hColon hValue =>
      simp [readMembers, hQuote, hText, hName, hColon,
        hValue, hComma, hMore]

end

/-
  How a phrase is read, with fuel for its length and before
  what cannot belong to it.  Blanks behind a value are left.
-/
def Phrase.IsRead
    (cs : List Char) : Phrase → Prop
  | .value v =>
      ∀ fuel rest,
        cs.length ≤ fuel →
        EndsNumber rest →
        readValue fuel (cs ++ rest) = some (v, rest)
  | .element v =>
      ∀ fuel rest,
        cs.length ≤ fuel →
        EndsNumber rest →
        ∃ left,
          readValue fuel (cs ++ rest) = some (v, left) ∧
            skipBlanks left = skipBlanks rest
  | .elements vs =>
      ∀ fuel rest,
        cs.length < fuel →
        readItems fuel (cs ++ ']' :: rest) = some (vs, rest)
  | .member key v =>
      ∀ fuel rest,
        cs.length ≤ fuel →
        EndsNumber rest →
        ∃ left,
          ReadsMember fuel (cs ++ rest) key v left ∧
            skipBlanks left = skipBlanks rest
  | .members ms =>
      ∀ fuel rest,
        cs.length < fuel →
        readMembers fuel (cs ++ '\x7d' :: rest) =
          some (ms, rest)

/- Blanks and then the end of a value. -/
theorem IsSpace.endsNumber
    {s : List Char}
    (hSpace : IsSpace s)
    (hRest : EndsNumber rest) :
    EndsNumber (s ++ rest) := by
  cases s with
  | nil => exact hRest
  | cons c s =>
      rintro d ⟨⟩
      rcases hSpace c List.mem_cons_self with
        rfl | rfl | rfl | rfl <;> decide

theorem endsNumber_cons
    {c : Char}
    (hMark : c ∈ [',', ']', '\x7d']) :
    EndsNumber (c :: rest) := by
  rintro d ⟨⟩
  simp only [List.mem_cons, List.not_mem_nil,
    or_false] at hMark
  rcases hMark with rfl | rfl | rfl <;> decide

------------------------------------------------------------
-- Reading Phrases
------------------------------------------------------------

section

variable {v : Json}

/- What opens no string, list or object is plain. -/
theorem readValue_of_plain
    {fuel : Nat}
    {c : Char}
    (hBlank : isBlank c = false)
    (hPlain : c ∉ ['\x22', '[', '\x7b']) :
    readValue (fuel + 1) (c :: cs) = readPlain (c :: cs) := by
  have hStart : skipBlanks (c :: cs) = c :: cs :=
    skipBlanks_cons hBlank
  simp only [List.mem_cons, List.not_mem_nil, or_false,
    not_or] at hPlain
  rcases hPlain with ⟨hQuote, hBracket, hBrace⟩
  simp [readValue, hStart, hQuote, hBracket, hBrace]

/- A value that is one token is read with any fuel. -/
theorem isRead_of_readPlain
    {c : Char}
    (hBlank : isBlank c = false)
    (hPlain : c ∉ ['\x22', '[', '\x7b'])
    (hRead :
      ∀ rest,
        EndsNumber rest →
        readPlain (c :: cs ++ rest) = some (v, rest)) :
    (Phrase.value v).IsRead (c :: cs) := by
  intro fuel rest hFuel hRest
  cases fuel with
  | zero => simp at hFuel
  | succ fuel =>
      rw [List.cons_append, readValue_of_plain hBlank hPlain]
      exact hRead rest hRest

/- A digit is no blank, and it opens nothing. -/
theorem isBlank_of_digit
    {d : Char}
    (hDigit : Text.isDigit d = true) :
    isBlank d = false := by
  rw [← Bool.not_eq_true]
  intro hBlank
  simp only [isBlank, Bool.or_eq_true, beq_iff_eq] at hBlank
  rcases hBlank with ((rfl | rfl) | rfl) | rfl <;>
    cases hDigit

theorem not_opens_of_digit
    {d : Char}
    (hDigit : Text.isDigit d = true) :
    d ∉ ['\x22', '[', '\x7b'] := by
  intro hOpens
  simp only [List.mem_cons, List.not_mem_nil,
    or_false] at hOpens
  rcases hOpens with rfl | rfl | rfl <;> cases hDigit

theorem isRead_text
    {ns : List Nat}
    (hUnits : Units cs ns) :
    (Phrase.value (.ofSymbols (joinUnits ns))).IsRead
      ('\x22' :: (cs ++ ['\x22'])) := by
  intro fuel rest hFuel _
  cases fuel with
  | zero => simp at hFuel
  | succ fuel =>
      have hText :
          readText (cs ++ '\x22' :: rest) =
            some (joinUnits ns, rest) :=
        readText_of_units hUnits
      simp [readValue, skipBlanks, isBlank, hText]

/- No list of elements starts with a closing bracket. -/
theorem readItems_of_bracket
    (fuel : Nat)
    (hClose : skipBlanks cs = ']' :: rest) :
    readItems fuel cs = none := by
  have hPlain : readPlain (']' :: rest) = none := by
    simp [readPlain, words, afterWord?, readNumber,
      readUnsigned, Text.isDigit]
  rw [← readItems_skipBlanks, hClose]
  cases fuel with
  | zero => rfl
  | succ fuel =>
      cases fuel with
      | zero => rfl
      | succ fuel =>
          rw [readItems, readValue_of_plain rfl (by decide),
            hPlain]
          rfl

/- No list of members starts with a closing brace. -/
theorem readMembers_of_brace
    (fuel : Nat)
    (hClose : skipBlanks cs = '\x7d' :: rest) :
    readMembers fuel cs = none := by
  cases fuel with
  | zero => rfl
  | succ fuel => simp [readMembers, hClose]

/- An opening bracket before elements. -/
theorem readValue_of_elements
    {fuel : Nat}
    {vs : List Json}
    (hItems : readItems fuel cs = some (vs, rest)) :
    readValue (fuel + 1) ('[' :: cs) =
      some (.list vs, rest) := by
  have hOpen : skipBlanks ('[' :: cs) = '[' :: cs :=
    skipBlanks_cons rfl
  simp only [readValue, hOpen]
  split
  · next hClose =>
      rw [readItems_of_bracket fuel hClose] at hItems
      cases hItems
  · rw [readItems_skipBlanks, hItems]
    rfl

/- An opening brace before members. -/
theorem readValue_of_members
    {fuel : Nat}
    {ms : Members}
    (hMembers : readMembers fuel cs = some (ms, rest)) :
    readValue (fuel + 1) ('\x7b' :: cs) =
      some (.object (putAll [] ms), rest) := by
  have hOpen : skipBlanks ('\x7b' :: cs) = '\x7b' :: cs :=
    skipBlanks_cons rfl
  simp only [readValue, hOpen]
  split
  · next hClose =>
      rw [readMembers_of_brace fuel hClose] at hMembers
      cases hMembers
  · rw [readMembers_skipBlanks, hMembers]
    rfl

theorem isRead_emptyList
    {s : List Char}
    (hSpace : IsSpace s) :
    (Phrase.value (.list [])).IsRead
      ('[' :: (s ++ [']'])) := by
  intro fuel rest hFuel _
  cases fuel with
  | zero => simp at hFuel
  | succ fuel =>
      have hClose :
          skipBlanks (s ++ ']' :: rest) = ']' :: rest := by
        rw [skipBlanks_append hSpace, skipBlanks_cons rfl]
      simp [readValue, skipBlanks_cons, isBlank, hClose]

theorem isRead_emptyObject
    {s : List Char}
    (hSpace : IsSpace s) :
    (Phrase.value (.object [])).IsRead
      ('\x7b' :: (s ++ ['\x7d'])) := by
  intro fuel rest hFuel _
  cases fuel with
  | zero => simp at hFuel
  | succ fuel =>
      have hClose :
          skipBlanks (s ++ '\x7d' :: rest) =
            '\x7d' :: rest := by
        rw [skipBlanks_append hSpace, skipBlanks_cons rfl]
      simp [readValue, skipBlanks_cons, isBlank, hClose]

theorem isRead_list
    {vs : List Json}
    (hRead : (Phrase.elements vs).IsRead cs) :
    (Phrase.value (.list vs)).IsRead
      ('[' :: (cs ++ [']'])) := by
  intro fuel rest hFuel _
  simp only [List.length_cons, List.length_append,
    List.length_nil] at hFuel
  obtain ⟨fuel, rfl⟩ : ∃ n, fuel = n + 1 :=
    ⟨fuel - 1, by omega⟩
  rw [List.cons_append, List.append_assoc]
  exact readValue_of_elements (hRead fuel rest (by omega))

theorem isRead_object
    {ms : Members}
    (hRead : (Phrase.members ms).IsRead cs) :
    (Phrase.value (.object (putAll [] ms))).IsRead
      ('\x7b' :: (cs ++ ['\x7d'])) := by
  intro fuel rest hFuel _
  simp only [List.length_cons, List.length_append,
    List.length_nil] at hFuel
  obtain ⟨fuel, rfl⟩ : ∃ n, fuel = n + 1 :=
    ⟨fuel - 1, by omega⟩
  rw [List.cons_append, List.append_assoc]
  exact readValue_of_members (hRead fuel rest (by omega))

theorem isRead_element
    {before after : List Char}
    (hFront : IsSpace before)
    (hBack : IsSpace after)
    (hRead : (Phrase.value v).IsRead cs) :
    (Phrase.element v).IsRead
      (before ++ (cs ++ after)) := by
  intro fuel rest hFuel hRest
  simp only [List.length_append] at hFuel
  refine ⟨after ++ rest, ?_, skipBlanks_append hBack⟩
  rw [List.append_assoc, List.append_assoc,
    ← readValue_skipBlanks, skipBlanks_append hFront,
    readValue_skipBlanks]
  exact hRead fuel _ (by omega) (hBack.endsNumber hRest)

theorem isRead_lastElement
    (hRead : (Phrase.element v).IsRead cs) :
    (Phrase.elements [v]).IsRead cs := by
  intro fuel rest hFuel
  obtain ⟨fuel, rfl⟩ : ∃ n, fuel = n + 1 :=
    ⟨fuel - 1, by omega⟩
  rcases hRead fuel (']' :: rest) (by omega)
      (endsNumber_cons (by decide)) with
    ⟨left, hValue, hLeft⟩
  rw [skipBlanks_cons rfl] at hLeft
  simp [readItems, hValue, hLeft]

theorem isRead_elements
    {next : List Char}
    {vs : List Json}
    (hRead : (Phrase.element v).IsRead cs)
    (hMore : (Phrase.elements vs).IsRead next) :
    (Phrase.elements (v :: vs)).IsRead
      (cs ++ ',' :: next) := by
  intro fuel rest hFuel
  simp only [List.length_append,
    List.length_cons] at hFuel
  obtain ⟨fuel, rfl⟩ : ∃ n, fuel = n + 1 :=
    ⟨fuel - 1, by omega⟩
  rcases hRead fuel (',' :: (next ++ ']' :: rest))
      (by omega) (endsNumber_cons (by decide)) with
    ⟨left, hValue, hLeft⟩
  have hItems := hMore fuel rest (by omega)
  rw [skipBlanks_cons rfl] at hLeft
  simp [readItems, hValue, hLeft, hItems]

theorem isRead_member
    {before ks after key : List Char}
    {ns : List Nat}
    (hFront : IsSpace before)
    (hUnits : Units ks ns)
    (hName : Text.chars? (joinUnits ns) = some key)
    (hBack : IsSpace after)
    (hRead : (Phrase.element v).IsRead cs) :
    (Phrase.member (String.ofList key) v).IsRead
      (before ++
        ('\x22' :: (ks ++ '\x22' :: (after ++ ':' :: cs)))) := by
  intro fuel rest hFuel hRest
  simp only [List.length_append,
    List.length_cons] at hFuel
  rcases hRead fuel rest (by omega) hRest with
    ⟨left, hValue, hLeft⟩
  have hQuote :
      skipBlanks
          (before ++
            ('\x22' ::
              (ks ++
                '\x22' :: (after ++ ':' :: (cs ++ rest))))) =
        '\x22' ::
          (ks ++ '\x22' :: (after ++ ':' :: (cs ++ rest))) :=
    (skipBlanks_append hFront).trans (skipBlanks_cons rfl)
  have hText :
      readText
          (ks ++ '\x22' :: (after ++ ':' :: (cs ++ rest))) =
        some (joinUnits ns, after ++ ':' :: (cs ++ rest)) :=
    readText_of_units hUnits
  have hColon :
      skipBlanks (after ++ ':' :: (cs ++ rest)) =
        ':' :: (cs ++ rest) :=
    (skipBlanks_append hBack).trans (skipBlanks_cons rfl)
  refine ⟨left, ?_, hLeft⟩
  simp only [List.append_assoc, List.cons_append]
  exact .intro hQuote hText hName hColon hValue

theorem isRead_lastMember
    {key : String}
    (hRead : (Phrase.member key v).IsRead cs) :
    (Phrase.members [(key, v)]).IsRead cs := by
  intro fuel rest hFuel
  obtain ⟨fuel, rfl⟩ : ∃ n, fuel = n + 1 :=
    ⟨fuel - 1, by omega⟩
  rcases hRead fuel ('\x7d' :: rest) (by omega)
      (endsNumber_cons (by decide)) with
    ⟨left, hMember, hLeft⟩
  rw [skipBlanks_cons rfl] at hLeft
  exact hMember.last hLeft

theorem isRead_members
    {next : List Char}
    {key : String}
    {ms : Members}
    (hRead : (Phrase.member key v).IsRead cs)
    (hMore : (Phrase.members ms).IsRead next) :
    (Phrase.members ((key, v) :: ms)).IsRead
      (cs ++ ',' :: next) := by
  intro fuel rest hFuel
  simp only [List.length_append,
    List.length_cons] at hFuel
  obtain ⟨fuel, rfl⟩ : ∃ n, fuel = n + 1 :=
    ⟨fuel - 1, by omega⟩
  rcases hRead fuel (',' :: (next ++ '\x7d' :: rest))
      (by omega) (endsNumber_cons (by decide)) with
    ⟨left, hMember, hLeft⟩
  rw [skipBlanks_cons rfl] at hLeft
  rw [List.append_assoc]
  exact hMember.more hLeft (hMore fuel rest (by omega))

end

/- What a phrase denotes is what is read. -/
theorem Denotes.isRead
    {p : Phrase}
    (hDenotes : Denotes cs p) :
    p.IsRead cs := by
  induction hDenotes with
  | null =>
      refine isRead_of_readPlain rfl (by decide) ?_
      intro rest _
      exact readPlain_null
  | isTrue =>
      refine isRead_of_readPlain rfl (by decide) ?_
      intro rest _
      exact readPlain_true
  | isFalse =>
      refine isRead_of_readPlain rfl (by decide) ?_
      intro rest _
      exact readPlain_false
  | positive hNumeral =>
      rcases hNumeral.exists_cons with ⟨d, ds, rfl, hDigit⟩
      refine isRead_of_readPlain (isBlank_of_digit hDigit)
        (not_opens_of_digit hDigit) ?_
      intro rest hRest
      exact readPlain_of_positive hNumeral hRest
  | negative hNumeral =>
      refine isRead_of_readPlain rfl (by decide) ?_
      intro rest hRest
      exact readPlain_of_negative hNumeral hRest
  | text hUnits => exact isRead_text hUnits
  | emptyList hSpace => exact isRead_emptyList hSpace
  | list _ ih => exact isRead_list ih
  | emptyObject hSpace => exact isRead_emptyObject hSpace
  | object _ ih => exact isRead_object ih
  | element hFront _ hBack ih =>
      exact isRead_element hFront hBack ih
  | lastElement _ ih => exact isRead_lastElement ih
  | elements _ _ ih ihMore => exact isRead_elements ih ihMore
  | member hFront hUnits hName hBack _ ih =>
      exact isRead_member hFront hUnits hName hBack ih
  | lastMember _ ih => exact isRead_lastMember ih
  | members _ _ ih ihMore => exact isRead_members ih ihMore

/- A text is read as what it denotes. -/
theorem Denotes.ofText?_eq
    {s : String}
    {v : Json}
    (hDenotes : Denotes s.toList (.element v)) :
    ofText? s = some v := by
  have hEnd : EndsNumber [] := by
    rintro c ⟨⟩
  rcases hDenotes.isRead (s.toList.length + 1) []
      (Nat.le_succ _) hEnd with
    ⟨left, hRead, hLeft⟩
  rw [List.append_nil] at hRead
  have hBlank : skipBlanks left = [] := hLeft
  simp [ofText?, hRead, hBlank]

/- So a text denotes one value at most. -/
theorem Denotes.element_unique
    {s : String}
    {v w : Json}
    (hFirst : Denotes s.toList (.element v))
    (hSecond : Denotes s.toList (.element w)) :
    v = w := by
  have hSame := hFirst.ofText?_eq.symm.trans
    hSecond.ofText?_eq
  exact Option.some.inj hSame

end Json

end LocalCert
