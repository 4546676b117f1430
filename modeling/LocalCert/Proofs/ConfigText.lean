import LocalCert.ConfigText
import LocalCert.Proofs.Text.Pieces
import Mathlib.Data.List.Basic
import Mathlib.Tactic.ByContra

/-
  Reading configuration text: a line with a name and a value
  reads as the two, and a value reads as itself, whatever
  variables mean, exactly if it holds no character with a
  meaning of its own.

  Main declarations:
    * `ConfigText.Line.ofChars_entry`
    * `ConfigText.isSpecial`
    * `ConfigText.readValue_eq_self_iff`
    * `ConfigText.valueIn?`
-/

------------------------------------------------------------
-- Margins
------------------------------------------------------------

namespace LocalCert

namespace Text

variable {drops : Char → Bool}
variable {c : Char}
variable {cs : List Char}

/- Nothing is dropped if both ends are to stay. -/
theorem trimBy_eq_self
    (hFirst : ∀ a ∈ cs.head?, drops a = false)
    (hLast : ∀ a ∈ cs.getLast?, drops a = false) :
    trimBy drops cs = cs := by
  have hStays :
      ∀ ds : List Char,
        (∀ a ∈ ds.head?, drops a = false) →
        ds.dropWhile drops = ds := by
    intro ds hHead
    cases ds with
    | nil => rfl
    | cons a ds =>
        exact List.dropWhile_cons_of_neg
          (by simpa using hHead a rfl)
  have hBack : ∀ a ∈ cs.reverse.head?, drops a = false := by
    rw [List.head?_reverse]
    exact hLast
  simp only [trimBy]
  rw [hStays cs hFirst, hStays cs.reverse hBack,
    List.reverse_reverse]

/- A first character that is to go makes no difference. -/
theorem trimBy_cons
    (hDrops : drops c = true) :
    trimBy drops (c :: cs) = trimBy drops cs := by
  simp only [trimBy]
  rw [List.dropWhile_cons_of_pos hDrops]

/- Nor does a last one. -/
theorem trimBy_concat
    (hDrops : drops c = true) :
    trimBy drops (cs ++ [c]) = trimBy drops cs := by
  simp only [trimBy, List.dropWhile_append]
  split
  · next hEmpty =>
      have hFront : cs.dropWhile drops = [] := by
        simpa using hEmpty
      simp [hFront, hDrops]
  · simp [hDrops]

end Text

------------------------------------------------------------
-- Lines
------------------------------------------------------------

namespace ConfigText

/-
  Characters that start and end without a blank, of which
  there are some.
-/
structure Tight
    (cs : List Char) : Prop where
  nonempty : cs ≠ []
  first : ∀ c ∈ cs.head?, Text.isBlank c = false
  last : ∀ c ∈ cs.getLast?, Text.isBlank c = false

theorem Tight.of_forall
    {cs : List Char}
    (hSome : cs ≠ [])
    (hPlain : ∀ c ∈ cs, Text.isBlank c = false) :
    Tight cs where
  nonempty := hSome
  first := fun c hc => hPlain c (List.mem_of_mem_head? hc)
  last := fun c hc => hPlain c (List.mem_of_getLast? hc)

theorem Tight.trim
    {cs : List Char}
    (hTight : Tight cs) :
    Text.trimBy Text.isBlank cs = cs :=
  Text.trimBy_eq_self hTight.first hTight.last

/- What starts and ends a text without a blank does so. -/
theorem Tight.append
    {front rest : List Char}
    (hFront : Tight front)
    (middle : List Char)
    (hRest : Tight rest) :
    Tight (front ++ middle ++ rest) where
  nonempty := by simp [hFront.nonempty]
  first := by
    intro c hc
    rw [List.append_assoc, List.head?_append_of_ne_nil _
      hFront.nonempty] at hc
    exact hFront.first c hc
  last := by
    intro c hc
    rw [List.getLast?_append_of_ne_nil _
      hRest.nonempty] at hc
    exact hRest.last c hc

/- What stands around the first equals sign. -/
theorem Line.ofChars_parted
    {left right : List Char}
    (hLine : Tight (left ++ '=' :: right))
    (hFree : '=' ∉ left)
    (hHead : (left ++ '=' :: right).head? ≠ some '[') :
    Line.ofChars (left ++ '=' :: right) =
      .entry (Text.trimBy Text.isBlank left)
        (Text.trimBy Text.isBlank right) := by
  unfold Line.ofChars
  simp only [hLine.trim]
  split
  · next hNone => simp at hNone
  · next rest hBracket =>
      rw [hBracket] at hHead
      exact absurd rfl hHead
  · rw [Text.splitFirst?_append_cons hFree]

/- A name and a value around an equals sign. -/
theorem Line.ofChars_entry
    {name value : List Char}
    (hName : Tight name)
    (hFree : '=' ∉ name)
    (hHead : name.head? ≠ some '[')
    (hValue : Tight value) :
    Line.ofChars (name ++ '=' :: value) =
      .entry name value := by
  have hLine := hName.append ['='] hValue
  have hBoth :
      name ++ ['='] ++ value = name ++ '=' :: value := by
    simp
  rw [hBoth] at hLine
  rw [Line.ofChars_parted hLine hFree, hName.trim,
    hValue.trim]
  rw [List.head?_append_of_ne_nil _ hName.nonempty]
  exact hHead

/- The same with a blank on either side of the sign. -/
theorem Line.ofChars_spacedEntry
    {name value : List Char}
    (hName : Tight name)
    (hFree : '=' ∉ name)
    (hHead : name.head? ≠ some '[')
    (hValue : Tight value) :
    Line.ofChars (name ++ ' ' :: '=' :: ' ' :: value) =
      .entry name value := by
  have hSpace : Text.isBlank ' ' = true := by decide
  have hLine := hName.append [' ', '=', ' '] hValue
  have hAll :
      name ++ ' ' :: '=' :: ' ' :: value =
        (name ++ [' ']) ++ '=' :: ' ' :: value := by
    simp
  have hBoth :
      name ++ [' ', '=', ' '] ++ value =
        (name ++ [' ']) ++ '=' :: ' ' :: value := by
    simp
  rw [hBoth] at hLine
  rw [hAll, Line.ofChars_parted hLine (by simpa using hFree),
    Text.trimBy_concat hSpace, hName.trim,
    Text.trimBy_cons hSpace, hValue.trim]
  rw [List.append_assoc,
    List.head?_append_of_ne_nil _ hName.nonempty]
  exact hHead

/- A name in brackets. -/
theorem Line.ofChars_header
    {name : List Char}
    (hName : Tight name) :
    Line.ofChars ('[' :: (name ++ [']'])) =
      .header name := by
  have hLine : Tight ('[' :: (name ++ [']'])) := by
    refine ⟨by simp, ?_, ?_⟩
    · intro c hc
      cases hc
      decide
    · intro c hc
      rw [← List.cons_append, List.getLast?_concat] at hc
      cases hc
      decide
  unfold Line.ofChars
  simp only [hLine.trim, List.getLast?_concat,
    List.dropLast_concat, hName.trim]
  simp

------------------------------------------------------------
-- Values
------------------------------------------------------------

/- A character that means something outside quotes. -/
def isSpecial
    (c : Char) : Bool :=
  c == '#' || c == '$' || c == '\x5c' || isQuote c

theorem readPlain_of_not_special
    {c : Char}
    (hPlain : isSpecial c = false) :
    readPlain c = (.plain, [c]) := by
  simp only [isSpecial, Bool.or_eq_false_iff] at hPlain
  simp [readPlain, hPlain]

/- A special character adds nothing to the value. -/
theorem readPlain_of_special
    {c : Char}
    (hSpecial : isSpecial c = true) :
    (readPlain c).2 = [] := by
  unfold readPlain
  simp only [isSpecial, Bool.or_eq_true] at hSpecial
  split
  · rfl
  · split
    · rfl
    · split
      · rfl
      · split
        · rfl
        · simp_all

/- A character adds no more than itself, at any rate. -/
theorem length_readPlain_le
    (c : Char) :
    (readPlain c).2.length ≤ 1 := by
  cases hSpecial : isSpecial c with
  | true => simp [readPlain_of_special hSpecial]
  | false => simp [readPlain_of_not_special hSpecial]

variable {cs : List Char}

theorem readValue_of_plain
    (meaning : Variables)
    (hPlain : ∀ c ∈ cs, isSpecial c = false) :
    readValue meaning .plain cs = cs := by
  induction cs with
  | nil => rfl
  | cons c cs ih =>
      simp only [List.forall_mem_cons] at hPlain
      simp [readValue, readChar,
        readPlain_of_not_special hPlain.1, ih hPlain.2]

/- The meaning that all variables are empty. -/
def noVariables : Variables :=
  fun _ => []

/- Without variables a value never gets longer. -/
theorem length_readValue_le
    (mode : Mode)
    (cs : List Char) :
    (readValue noVariables mode cs).length ≤ cs.length := by
  induction cs generalizing mode with
  | nil => cases mode <;> simp [readValue, readEnd, noVariables]
  | cons c cs ih =>
      have hAdded :
          (readChar noVariables c mode).2.length ≤ 1 := by
        cases mode with
        | plain => exact length_readPlain_le c
        | escaped => simp [readChar]
        | comment => simp [readChar]
        | quoted q =>
            simp only [readChar]
            split <;> simp
        | «variable» name =>
            simp only [readChar, noVariables]
            split
            · simp
            · simpa using length_readPlain_le c
      have hRest := ih (readChar noVariables c mode).1
      simp only [readValue, List.length_append,
        List.length_cons]
      omega

/- A special character makes it shorter. -/
theorem length_readValue_lt
    {c : Char}
    (hChar : c ∈ cs)
    (hSpecial : isSpecial c = true) :
    (readValue noVariables .plain cs).length < cs.length := by
  induction cs with
  | nil => cases hChar
  | cons d cs ih =>
      cases hHere : isSpecial d with
      | true =>
          have hRest :=
            length_readValue_le (readPlain d).1 cs
          simp only [readValue, readChar,
            readPlain_of_special hHere, List.nil_append,
            List.length_cons]
          omega
      | false =>
          have hLater : c ∈ cs := by
            rcases List.mem_cons.mp hChar with rfl | hLater
            · rw [hSpecial] at hHere
              cases hHere
            · exact hLater
          simpa [readValue, readChar,
            readPlain_of_not_special hHere] using ih hLater

/-
  What a value reads as does not depend on variables and is
  the value itself exactly if nothing in it is special.
-/
theorem readValue_eq_self_iff :
    (∀ meaning, readValue meaning .plain cs = cs) ↔
      ∀ c ∈ cs, isSpecial c = false := by
  constructor
  · intro hRead c hChar
    by_contra hSpecial
    have hShorter :=
      length_readValue_lt hChar
        (Bool.not_eq_false _ ▸ hSpecial)
    rw [hRead noVariables] at hShorter
    exact Nat.lt_irrefl _ hShorter
  · intro hPlain meaning
    exact readValue_of_plain meaning hPlain

------------------------------------------------------------
-- Named Values
------------------------------------------------------------

/- The value of a line, as read, if it has the name. -/
def Line.valueOf?
    (meaning : Variables)
    (name : List Char) : Line → Option (List Char)
  | .entry n value =>
      if n = name then
        some (readValue meaning .plain value)
      else
        none
  | _ => none

/- The first value of a name in a text, as it is read. -/
def valueIn?
    (meaning : Variables)
    (name text : String) : Option String :=
  ((lines text).findSome?
    (Line.valueOf? meaning name.toList)).map String.ofList

end ConfigText

end LocalCert
