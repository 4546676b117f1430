import LocalCert.Proofs.Files.Views
import LocalCert.Proofs.Workspace.Lifetime
import Mathlib.Data.Nat.Digits.Defs

/-
  The names of workspaces.  Names that are tried at
  different times differ, whichever attempt they are for,
  and lead into the directory that they are tried in.

  Main declarations:
    * `Workspace.starts`
    * `Workspace.number_unique`
    * `Workspace.ofText_nameAt`
    * `Workspace.mem_wayTo_nameAt`
    * `Workspace.exists_parts_nameAt`
    * `Workspace.LeadsToNumber`
-/

------------------------------------------------------------
-- Numbers
------------------------------------------------------------

namespace LocalCert

namespace Text

/- A number reads back whatever width it is written with. -/
theorem ofDigitChars_paddedDecimal
    (width n : Nat) :
    Nat.ofDigitChars 10 (paddedDecimal width n) 0 = n := by
  have hZeros :
      ∀ count,
        Nat.ofDigitChars 10 (List.replicate count '0') 0 =
          0 := by
    intro count
    induction count with
    | zero => rfl
    | succ count ih =>
        rw [List.replicate_succ, Nat.ofDigitChars_cons]
        exact ih
  rw [paddedDecimal, Nat.ofDigitChars_append, hZeros]
  exact Nat.ofDigitChars_toDigits (by decide) (by decide)

end Text

namespace Workspace

------------------------------------------------------------
-- Names
------------------------------------------------------------

/- The starts of the names of all attempts. -/
def starts : List String :=
  [Trusted.workspaceStart, Manual.workspaceStart]

variable {start : String}

/- The digits that a name ends in are those of its number. -/
theorem takeWhile_reverse_name
    (front : String)
    (n : Nat) :
    (front ++ uniquePart n).toList.reverse.takeWhile
        Char.isDigit =
      (Text.paddedDecimal 6 n).reverse := by
  have hDigits :
      ∀ c ∈ (Text.paddedDecimal 6 n).reverse,
        c.isDigit = true := by
    intro c hChar
    exact Text.isDigit_of_mem_paddedDecimal
      (List.mem_reverse.mp hChar)
  have hName :
      (front ++ uniquePart n).toList.reverse =
        (Text.paddedDecimal 6 n).reverse ++
          's' :: 'w' :: front.toList.reverse := by
    simp [uniquePart]
  rw [hName, List.takeWhile_append_of_pos hDigits,
    List.takeWhile_cons_of_neg (by decide),
    List.append_nil]

/- A name tells the number under which it was tried. -/
theorem number_unique
    {front other : String}
    {m n : Nat}
    (hSame : front ++ uniquePart m = other ++ uniquePart n) :
    m = n := by
  have hDigits :
      Text.paddedDecimal 6 m = Text.paddedDecimal 6 n := by
    rw [← List.reverse_inj, ← takeWhile_reverse_name front,
      hSame, takeWhile_reverse_name]
  rw [← Text.ofDigitChars_paddedDecimal 6 m, hDigits,
    Text.ofDigitChars_paddedDecimal]

theorem slash_not_mem_uniquePart
    (n : Nat) :
    '/' ∉ (uniquePart n).toList := by
  have hDigits : '/' ∉ Text.paddedDecimal 6 n := by
    intro hSlash
    have hDigit := Text.isDigit_of_mem_paddedDecimal hSlash
    revert hDigit
    decide
  simp [uniquePart, hDigits]

/- A name is one part of a path, and leads down. -/
theorem isPart_append_uniquePart
    (front : String)
    (n : Nat)
    (hFront : '/' ∉ front.toList) :
    Path.IsPart (front ++ uniquePart n) ∧
      front ++ uniquePart n ≠ ".." := by
  have hLength : 2 < (front ++ uniquePart n).toList.length := by
    simp only [uniquePart, Text.paddedDecimal,
      String.toList_append, String.toList_ofList,
      List.length_append, List.length_replicate]
    omega
  have hLong :
      ∀ s : String,
        s.toList.length ≤ 2 → front ++ uniquePart n ≠ s := by
    rintro s hShort rfl
    exact absurd hShort (Nat.not_le.mpr hLength)
  refine ⟨⟨hLong "" (by decide), hLong "." (by decide), ?_⟩,
    hLong ".." (by decide)⟩
  rw [String.toList_append, List.mem_append, not_or]
  exact ⟨hFront, slash_not_mem_uniquePart n⟩

/- The names of attempts are such parts. -/
theorem isPart_name
    (n : Nat)
    (hStart : start ∈ starts) :
    Path.IsPart (start ++ uniquePart n) ∧
      start ++ uniquePart n ≠ ".." := by
  apply isPart_append_uniquePart
  revert start
  decide

------------------------------------------------------------
-- Paths
------------------------------------------------------------

variable {cwd : Files.Location}
variable {directory : String}

/- The path of a workspace is its name in a directory. -/
theorem ofText_nameAt
    (n : Nat)
    (hStart : start ∈ starts) :
    Path.ofText (nameAt directory start n) =
      ⟨(Path.ofText directory).root,
        (Path.ofText directory).parts ++
          [start ++ uniquePart n]⟩ := by
  have hPart := (isPart_name n hStart).1
  have hHead :
      (start ++ uniquePart n).toList[0]? ≠ some '/' := by
    intro hSlash
    exact hPart.2.2 (List.mem_of_getElem? hSlash)
  have hRelative :
      (Path.ofText (start ++ uniquePart n)).root =
        .relative :=
    (Path.rootOfChars_eq_relative_iff _).mpr hHead
  rw [nameAt, Path.ofText_joinText hRelative]
  have hParts :
      (Path.ofText (start ++ uniquePart n)).parts =
        [start ++ uniquePart n] :=
    Path.partsOfChars_toList hPart
  rw [hParts]

/- A workspace stands in the directory it is made in. -/
theorem destination_nameAt
    (n : Nat)
    (hStart : start ∈ starts) :
    Files.destination cwd
        (Path.ofText (nameAt directory start n)) =
      Files.destination cwd (Path.ofText directory) ++
        [start ++ uniquePart n] := by
  rw [ofText_nameAt n hStart]
  exact Files.destination_child cwd _
    (isPart_name n hStart).2

/- No workspace lies in another one beside it. -/
theorem destination_nameAt_eq
    {other : String}
    {m n : Nat}
    (hStart : start ∈ starts)
    (hOther : other ∈ starts)
    (hPrefix :
      Files.destination cwd
          (Path.ofText (nameAt directory start m)) <+:
        Files.destination cwd
          (Path.ofText (nameAt directory other n))) :
    Files.destination cwd
        (Path.ofText (nameAt directory start m)) =
      Files.destination cwd
        (Path.ofText (nameAt directory other n)) := by
  apply hPrefix.eq_of_length
  rw [destination_nameAt m hStart,
    destination_nameAt n hOther]
  simp

/- The way to a workspace is that to its directory and it. -/
theorem mem_wayTo_nameAt
    {n : Nat}
    {m : Files.Location}
    (hStart : start ∈ starts)
    (hWay :
      m ∈ Files.wayTo cwd
        (Path.ofText (nameAt directory start n))) :
    m ∈ Files.wayTo cwd (Path.ofText directory) ∨
      m =
        Files.destination cwd (Path.ofText directory) ++
          [start ++ uniquePart n] := by
  rw [ofText_nameAt n hStart] at hWay
  rcases Files.mem_way_append.mp hWay with hFront | hRest
  · exact .inl hFront
  · have hDown :
        (start ++ uniquePart n == "..") = false := by
      simpa using (isPart_name n hStart).2
    simp only [Files.way, Files.descend, hDown,
      Bool.false_eq_true, if_false, List.mem_cons,
      List.not_mem_nil, or_false] at hRest
    rcases hRest with rfl | rfl
    · exact .inl
        (Files.destination_mem_wayTo cwd
          (Path.ofText directory))
    · exact .inr rfl

------------------------------------------------------------
-- Names At The End Of Paths
------------------------------------------------------------

/- Whether a name was tried under a number. -/
def IsNumbered
    (n : Nat)
    (name : String) : Prop :=
  ∃ front, '/' ∉ front.toList ∧ name = front ++ uniquePart n

/- What is between the last slash and the end. -/
theorem exists_afterSlash
    (cs : List Char) :
    ∃ front, '/' ∉ front ∧
      (cs = front ∨ ∃ above, cs = above ++ '/' :: front) := by
  induction cs using List.reverseRecOn with
  | nil => exact ⟨[], by simp, .inl rfl⟩
  | append_singleton cs c ih =>
      by_cases hSlash : c = '/'
      · exact ⟨[], by simp, .inr ⟨cs, by rw [hSlash]⟩⟩
      · rcases ih with ⟨front, hFront, hWhole⟩
        have hMore : '/' ∉ front ++ [c] := by
          simp [hFront, Ne.symm hSlash]
        refine ⟨front ++ [c], hMore, ?_⟩
        rcases hWhole with rfl | ⟨above, rfl⟩
        · exact .inl rfl
        · exact .inr ⟨above, by simp⟩

theorem exists_toList_joinText
    (a b : String) :
    ∃ front,
      (Path.joinText a b).toList = front ++ b.toList := by
  unfold Path.joinText
  split
  · exact ⟨[], rfl⟩
  · split
    · exact ⟨a.toList, by simp⟩
    · exact ⟨a.toList ++ ['/'], by simp⟩

/-
  The last part of the path of a workspace is a name that
  tells its number, whatever the start and the directory.
-/
theorem exists_parts_nameAt
    (directory start : String)
    (n : Nat) :
    ∃ above name,
      (Path.ofText (nameAt directory start n)).parts =
          above ++ [name] ∧
        IsNumbered n name := by
  rcases exists_toList_joinText directory
      (start ++ uniquePart n) with ⟨first, hFirst⟩
  rcases exists_afterSlash (first ++ start.toList) with
    ⟨front, hFront, hWhole⟩
  have hPart :=
    (isPart_append_uniquePart (String.ofList front) n
      (by simpa using hFront)).1
  have hName :
      Path.partsOfChars
          (front ++ (uniquePart n).toList) =
        [String.ofList front ++ uniquePart n] := by
    rw [← Path.partsOfChars_toList hPart]
    simp
  have hText :
      (nameAt directory start n).toList =
        first ++ start.toList ++ (uniquePart n).toList := by
    rw [nameAt, hFirst]
    simp
  have hNumbered :
      IsNumbered n (String.ofList front ++ uniquePart n) :=
    ⟨String.ofList front, by simpa using hFront, rfl⟩
  simp only [Path.ofText, hText]
  rcases hWhole with hWhole | ⟨above, hWhole⟩
  · rw [hWhole, hName]
    exact ⟨[], _, rfl, hNumbered⟩
  · rw [hWhole, List.append_assoc, List.cons_append,
      Path.partsOfChars_append_cons, hName]
    exact ⟨_, _, rfl, hNumbered⟩

/- Whether a path leads to a name tried under a number. -/
def LeadsToNumber
    (n : Nat)
    (l : Files.Location) : Prop :=
  ∃ above name, l = above ++ [name] ∧ IsNumbered n name

theorem leadsToNumber_nameAt
    (cwd : Files.Location)
    (directory start : String)
    (n : Nat) :
    LeadsToNumber n
      (Files.destination cwd
        (Path.ofText (nameAt directory start n))) := by
  rcases exists_parts_nameAt directory start n with
    ⟨above, name, hParts, hNumbered⟩
  have hDown : name ≠ ".." := by
    rcases hNumbered with ⟨front, hFront, rfl⟩
    exact (isPart_append_uniquePart front n hFront).2
  rw [Files.destination, hParts, Files.resolve_append,
    Files.resolve_of_not_mem (by simpa using Ne.symm hDown)]
  exact ⟨_, name, rfl, hNumbered⟩

/- A place has one number at most. -/
theorem LeadsToNumber.unique
    {m n : Nat}
    {l : Files.Location}
    (hFirst : LeadsToNumber m l)
    (hNext : LeadsToNumber n l) :
    m = n := by
  rcases hFirst with ⟨above, _, hFirst, _, _, rfl⟩
  rcases hNext with ⟨_, _, hNext, _, _, rfl⟩
  rw [hFirst] at hNext
  have hNames := (List.append_inj' hNext rfl).2
  exact number_unique (List.head_eq_of_cons_eq hNames)

theorem LeadsToNumber.ne_nil
    {n : Nat}
    {l : Files.Location}
    (hNumber : LeadsToNumber n l) :
    l ≠ [] := by
  rcases hNumber with ⟨above, name, rfl, _⟩
  simp

end Workspace

end LocalCert
