import LocalCert.Text.Newline

/-
  Texts in pieces: splitting at a separator is the library's
  splitting, and joining the pieces undoes it.

  Main declarations:
    * `Text.splitAll_eq_splitOn`
    * `Text.splitAll_append_cons`
    * `Text.not_mem_of_mem_splitAll`
    * `Text.join_splitAll`
    * `Text.splitAll_joinWith`
    * `Text.splitAll_append_flatMap_cons`
    * `Text.splitFirst?_eq_some_iff`
    * `Text.isSome_mapM_iff`
    * `Text.mem_intercalate`
-/

------------------------------------------------------------
-- Splitting
------------------------------------------------------------

namespace LocalCert

namespace Text

/- Splitting at a separator is the library's splitting. -/
theorem splitAll_eq_splitOn
    (separator : Char)
    (cs : List Char) :
    splitAll separator cs = cs.splitOn separator := by
  induction cs with
  | nil => rfl
  | cons c cs ih =>
      rw [List.splitOn_cons_eq_if_modifyHead]
      by_cases hSeparator : c = separator
      · simp [splitAll, hSeparator, ih]
      · have hPieces := List.splitOn_ne_nil separator cs
        cases hSplit : cs.splitOn separator with
        | nil => exact absurd hSplit hPieces
        | cons p ps =>
            simp [splitAll, hSeparator, ih, hSplit]

/- There is always a piece. -/
theorem splitAll_ne_nil
    (separator : Char)
    (cs : List Char) :
    splitAll separator cs ≠ [] := by
  rw [splitAll_eq_splitOn]
  exact List.splitOn_ne_nil separator cs

/- The pieces around a separator follow one another. -/
theorem splitAll_append_cons
    (separator : Char)
    (front rest : List Char) :
    splitAll separator (front ++ separator :: rest) =
      splitAll separator front ++
        splitAll separator rest := by
  simp only [splitAll_eq_splitOn]
  exact List.splitOn_append_cons_self front rest

/- A text without the separator is one piece. -/
theorem splitAll_of_not_mem
    {separator : Char}
    {cs : List Char}
    (hFree : separator ∉ cs) :
    splitAll separator cs = [cs] := by
  rw [splitAll_eq_splitOn]
  exact List.splitOn_eq_singleton hFree

/- No piece holds the separator. -/
theorem not_mem_of_mem_splitAll
    {separator : Char}
    {cs piece : List Char}
    (hPiece : piece ∈ splitAll separator cs) :
    separator ∉ piece := by
  induction cs generalizing piece with
  | nil =>
      simp only [splitAll, List.mem_singleton] at hPiece
      simp [hPiece]
  | cons c cs ih =>
      by_cases hSeparator : c = separator
      · simp only [splitAll, hSeparator, beq_self_eq_true,
          if_true, List.mem_cons] at hPiece
        rcases hPiece with rfl | hPiece
        · simp
        · exact ih hPiece
      · cases hSplit : splitAll separator cs with
        | nil => exact absurd hSplit (splitAll_ne_nil _ _)
        | cons p ps =>
            simp only [splitAll, beq_eq_false_iff_ne.mpr
              hSeparator, Bool.false_eq_true, if_false,
              hSplit, List.mem_cons] at hPiece
            rcases hPiece with rfl | hPiece
            · have hFirst : separator ∉ p :=
                ih (by simp [hSplit])
              simp [Ne.symm hSeparator, hFirst]
            · exact ih (by simp [hSplit, hPiece])

/- The pieces are the text without the separators. -/
theorem flatten_splitAll
    (separator : Char)
    (cs : List Char) :
    (splitAll separator cs).flatten =
      cs.filter (· != separator) := by
  induction cs with
  | nil => rfl
  | cons c cs ih =>
      by_cases hSeparator : c = separator
      · simp [splitAll, hSeparator, ih]
      · cases hSplit : splitAll separator cs with
        | nil => exact absurd hSplit (splitAll_ne_nil _ _)
        | cons p ps =>
            rw [hSplit, List.flatten_cons] at ih
            simp [splitAll, hSeparator, hSplit, ih]

/- Joining the pieces gives the text back. -/
theorem join_splitAll
    (separator : Char)
    (cs : List Char) :
    [separator].intercalate (splitAll separator cs) =
      cs := by
  rw [splitAll_eq_splitOn]
  exact List.intercalate_splitOn separator

/- Splitting texts that were joined gives them back. -/
theorem splitAll_joinWith
    {separator : Char}
    {texts : List String}
    (hSome : texts ≠ [])
    (hFree : ∀ s ∈ texts, separator ∉ s.toList) :
    splitAll separator
        (joinWith (String.singleton separator)
          texts).toList =
      texts.map String.toList := by
  have hPieces :
      ∀ p ∈ texts.map String.toList, separator ∉ p := by
    simpa using hFree
  rw [joinWith, String.toList_intercalate,
    splitAll_eq_splitOn, String.toList_singleton]
  exact List.splitOn_intercalate separator hPieces
    (by simpa using hSome)

/-
  Pieces that each have a separator in front are parted by
  it, behind the one that has none.
-/
theorem splitAll_append_flatMap_cons
    {separator : Char}
    {first : List Char}
    {pieces : List (List Char)}
    (hFirst : separator ∉ first)
    (hFree : ∀ p ∈ pieces, separator ∉ p) :
    splitAll separator
        (first ++ pieces.flatMap (separator :: ·)) =
      first :: pieces := by
  induction pieces generalizing first with
  | nil =>
      rw [List.flatMap_nil, List.append_nil]
      exact splitAll_of_not_mem hFirst
  | cons p ps ih =>
      rw [List.forall_mem_cons] at hFree
      rw [List.flatMap_cons, List.cons_append,
        splitAll_append_cons, splitAll_of_not_mem hFirst,
        ih hFree.1 hFree.2, List.singleton_append]

/- The first separator parts what stands around it. -/
theorem splitFirst?_append_cons
    {separator : Char}
    {front : List Char}
    (hFree : separator ∉ front)
    (rest : List Char) :
    splitFirst? separator (front ++ separator :: rest) =
      some (front, rest) := by
  induction front with
  | nil => simp [splitFirst?]
  | cons c front ih =>
      simp only [List.mem_cons, not_or] at hFree
      have hOther : (c == separator) = false := by
        simpa using Ne.symm hFree.1
      simp [splitFirst?, hOther, ih hFree.2]

/- Without the separator there is nothing to part. -/
theorem splitFirst?_of_not_mem
    {separator : Char}
    {cs : List Char}
    (hFree : separator ∉ cs) :
    splitFirst? separator cs = none := by
  induction cs with
  | nil => rfl
  | cons c cs ih =>
      simp only [List.mem_cons, not_or] at hFree
      have hOther : (c == separator) = false := by
        simpa using Ne.symm hFree.1
      simp [splitFirst?, hOther, ih hFree.2]

/- A text is parted at the first separator only. -/
theorem splitFirst?_eq_some_iff
    {separator : Char}
    {cs front rest : List Char} :
    splitFirst? separator cs = some (front, rest) ↔
      cs = front ++ separator :: rest ∧
        separator ∉ front := by
  constructor
  · intro hParts
    by_cases hMember : separator ∈ cs
    · rcases List.eq_append_cons_of_mem hMember with
        ⟨first, behind, rfl, hFirst⟩
      rw [splitFirst?_append_cons hFirst] at hParts
      cases hParts
      exact ⟨rfl, hFirst⟩
    · rw [splitFirst?_of_not_mem hMember] at hParts
      cases hParts
  · rintro ⟨rfl, hFree⟩
    exact splitFirst?_append_cons hFree rest

------------------------------------------------------------
-- Rows
------------------------------------------------------------

/- A row is read if each of its members is. -/
theorem isSome_mapM_iff
    {α β : Type}
    {f : α → Option β}
    {as : List α} :
    (as.mapM f).isSome = true ↔
      ∀ a ∈ as, (f a).isSome = true := by
  induction as with
  | nil => simp
  | cons a as ih =>
      rw [List.forall_mem_cons, ← ih, List.mapM_cons]
      cases f a with
      | none => simp
      | some b =>
          cases as.mapM f with
          | none => simp
          | some bs => simp

------------------------------------------------------------
-- Characters
------------------------------------------------------------

/- A property that can be checked of each of the members. -/
theorem forall_mem_of_all
    {α : Type}
    {P : α → Prop}
    [DecidablePred P]
    {members : List α}
    (hAll : members.all (fun a => decide (P a)) = true) :
    ∀ a ∈ members, P a := by
  simpa using hAll

/- A character of joined pieces is in one or between them. -/
theorem mem_intercalate
    {c : Char}
    {separator : List Char}
    {pieces : List (List Char)}
    (hChar : c ∈ separator.intercalate pieces) :
    c ∈ separator ∨ ∃ p ∈ pieces, c ∈ p := by
  induction pieces with
  | nil => simp at hChar
  | cons p ps ih =>
      cases ps with
      | nil =>
          apply Or.inr
          exact ⟨p, List.mem_cons_self, by simpa using hChar⟩
      | cons q qs =>
          rw [List.intercalate_cons_cons] at hChar
          simp only [List.mem_append] at hChar
          rcases hChar with (hChar | hChar) | hChar
          · exact .inr ⟨p, List.mem_cons_self, hChar⟩
          · exact .inl hChar
          · rcases ih hChar with hBetween | ⟨r, hr, hIn⟩
            · exact .inl hBetween
            · exact .inr ⟨r, List.mem_cons_of_mem p hr, hIn⟩

theorem mem_intercalate_of_mem
    {c : Char}
    {separator piece : List Char}
    {pieces : List (List Char)}
    (hPiece : piece ∈ pieces)
    (hChar : c ∈ piece) :
    c ∈ separator.intercalate pieces := by
  induction pieces with
  | nil => cases hPiece
  | cons p ps ih =>
      cases ps with
      | nil =>
          rw [List.mem_singleton] at hPiece
          simpa [← hPiece] using hChar
      | cons q qs =>
          rw [List.intercalate_cons_cons]
          rcases List.mem_cons.mp hPiece with rfl | hPiece
          · simp [hChar]
          · simp [ih hPiece]

/- A character of a piece is one of the text. -/
theorem mem_of_mem_splitAll
    {separator c : Char}
    {cs piece : List Char}
    (hPiece : piece ∈ splitAll separator cs)
    (hChar : c ∈ piece) :
    c ∈ cs := by
  rw [← join_splitAll separator cs]
  exact mem_intercalate_of_mem hPiece hChar

end Text

end LocalCert
