import LocalCert.Files.Tree.Basic
import LocalCert.Proofs.Text.Pieces
import Mathlib.Algebra.GroupWithZero.Nat

/-
  Path texts and paths: reading the text of a path gives the
  path back when its parts say something, which those of a
  path that was read always do.  The text of a path that was
  read is no longer than the text it was read from.

  Main declarations:
    * `Path.IsNormal`
    * `Path.ofText_text`
    * `Path.ofText_joinText`
    * `Path.byteLength_text_le`
-/

------------------------------------------------------------
-- Parts
------------------------------------------------------------

namespace LocalCert

namespace Path

open Files.Tree (byteLength)

/- A part that says something and holds no slash. -/
def IsPart
    (part : String) : Prop :=
  part ≠ "" ∧ part ≠ "." ∧ '/' ∉ part.toList

instance
    (part : String) :
    Decidable (IsPart part) := by
  unfold IsPart
  infer_instance

/- A path all of whose parts say something. -/
def IsNormal
    (p : Path) : Prop :=
  ∀ part ∈ p.parts, IsPart part

/- The parts around a slash follow one another. -/
theorem partsOfChars_append_cons
    (front rest : List Char) :
    partsOfChars (front ++ '/' :: rest) =
      partsOfChars front ++ partsOfChars rest := by
  simp [partsOfChars, Text.splitAll_append_cons]

/- No characters have no parts. -/
@[simp] theorem partsOfChars_nil :
    partsOfChars [] = [] := rfl

/- A part reads as itself. -/
theorem partsOfChars_toList
    {part : String}
    (hPart : IsPart part) :
    partsOfChars part.toList = [part] := by
  rcases hPart with ⟨hEmpty, hDot, hSlash⟩
  simp [partsOfChars, Text.splitAll_of_not_mem hSlash,
    hEmpty, hDot]

/- The parts that are read say something. -/
theorem isPart_of_mem_partsOfChars
    {cs : List Char}
    {part : String}
    (hPart : part ∈ partsOfChars cs) :
    IsPart part := by
  simp only [partsOfChars, List.mem_filter, List.mem_map,
    Bool.and_eq_true, bne_iff_ne] at hPart
  rcases hPart with ⟨⟨piece, hPiece, rfl⟩, hEmpty, hDot⟩
  refine ⟨hEmpty, hDot, ?_⟩
  rw [String.toList_ofList]
  exact Text.not_mem_of_mem_splitAll hPiece

/- A path that was read is normal. -/
theorem isNormal_ofText
    (s : String) :
    (ofText s).IsNormal := by
  intro part hPart
  exact isPart_of_mem_partsOfChars hPart

/- A part inside a normal path makes a normal path. -/
theorem IsNormal.child
    {p : Path}
    {name : String}
    (hNormal : p.IsNormal)
    (hName : IsPart name) :
    (p.child name).IsNormal := by
  intro part hPart
  simp only [Path.child, List.mem_append,
    List.mem_singleton] at hPart
  rcases hPart with hPart | rfl
  · exact hNormal part hPart
  · exact hName

/- The path above a normal path is normal. -/
theorem IsNormal.parent
    {p : Path}
    (hNormal : p.IsNormal) :
    p.parent.IsNormal := by
  intro part hPart
  exact hNormal part (List.dropLast_subset _ hPart)

/- Joined parts read as themselves. -/
theorem partsOfChars_joinWith
    {parts : List String}
    (hParts : ∀ part ∈ parts, IsPart part) :
    partsOfChars (Text.joinWith "/" parts).toList =
      parts := by
  induction parts with
  | nil => rfl
  | cons part rest ih =>
      have hFirst : IsPart part := hParts part (by simp)
      have hRest : ∀ q ∈ rest, IsPart q := by
        intro q hq
        exact hParts q (by simp [hq])
      cases rest with
      | nil =>
          simpa [Text.joinWith] using
            partsOfChars_toList hFirst
      | cons q rest =>
          have hText :
              (Text.joinWith "/"
                  (part :: q :: rest)).toList =
                part.toList ++
                  '/' :: (Text.joinWith "/"
                    (q :: rest)).toList := by
            simp [Text.joinWith]
          rw [hText, partsOfChars_append_cons,
            partsOfChars_toList hFirst, ih hRest]
          rfl

------------------------------------------------------------
-- Roots
------------------------------------------------------------

/- The root of a text by its first three characters. -/
theorem rootOfChars_eq
    (cs : List Char) :
    rootOfChars cs =
      if cs[0]? = some '/' then
        if cs[1]? = some '/' ∧ cs[2]? ≠ some '/' then
          .twoSlashes
        else
          .root
      else
        .relative := by
  fun_cases rootOfChars cs with
  | case1 => simp
  | case2 tail => cases tail <;> simp_all
  | case3 tail => cases tail <;> simp_all
  | case4 => cases cs <;> simp_all

/- A text that starts with no slash is relative. -/
theorem rootOfChars_eq_relative_iff
    (cs : List Char) :
    rootOfChars cs = .relative ↔ cs[0]? ≠ some '/' := by
  rw [rootOfChars_eq]
  grind

/- What follows decides no root if it has no slash first. -/
theorem rootOfChars_append
    {front rest : List Char}
    (hFront : front ≠ [])
    (hRest : rest[0]? ≠ some '/') :
    rootOfChars (front ++ rest) = rootOfChars front := by
  simp only [rootOfChars_eq]
  rcases front with _ | ⟨a, _ | ⟨b, _ | ⟨c, front⟩⟩⟩
  · exact absurd rfl hFront
  · simp [hRest]
  · simp [hRest]
  · simp

/- What follows decides no root after another character. -/
theorem rootOfChars_append_of_getLast
    {front rest : List Char}
    (hFront : front ≠ [])
    (hLast : front.getLast? ≠ some '/') :
    rootOfChars (front ++ rest) = rootOfChars front := by
  simp only [rootOfChars_eq]
  rcases front with _ | ⟨a, _ | ⟨b, _ | ⟨c, front⟩⟩⟩
  · exact absurd rfl hFront
  · simp_all
  · simp_all
  · simp

------------------------------------------------------------
-- Reading The Text Of A Path
------------------------------------------------------------

/- Joined parts start with no slash. -/
theorem joinWith_getElem_zero
    {parts : List String}
    (hParts : ∀ part ∈ parts, IsPart part) :
    (Text.joinWith "/" parts).toList[0]? ≠ some '/' := by
  cases parts with
  | nil => simp [Text.joinWith]
  | cons part rest =>
      rcases hParts part (by simp) with ⟨hEmpty, _, hSlash⟩
      cases hChars : part.toList with
      | nil =>
          exact absurd
            (String.toList_eq_nil_iff.mp hChars) hEmpty
      | cons c cs =>
          have hFirst : c ≠ '/' := by
            rintro rfl
            exact hSlash (by simp [hChars])
          cases rest <;>
            simp [Text.joinWith, hChars, hFirst]

/- Joined parts say something. -/
theorem joinWith_ne_empty
    {parts : List String}
    (hParts : ∀ part ∈ parts, IsPart part)
    (hSome : parts ≠ []) :
    Text.joinWith "/" parts ≠ "" := by
  intro hText
  have hRead := partsOfChars_joinWith hParts
  rw [hText] at hRead
  exact hSome hRead.symm

/- The text of a normal path reads as the path. -/
theorem ofText_text
    {p : Path}
    (hNormal : p.IsNormal) :
    ofText p.text = p := by
  rcases p with ⟨start, parts⟩
  have hFirst := joinWith_getElem_zero hNormal
  have hRead := partsOfChars_joinWith hNormal
  cases start with
  | relative =>
      cases parts with
      | nil => decide
      | cons part rest =>
          have hRoot :=
            (rootOfChars_eq_relative_iff _).mpr hFirst
          simp only [text, rootText, List.isEmpty_cons,
            Bool.and_false, Bool.false_eq_true, if_false,
            String.empty_append, ofText]
          rw [hRoot, hRead]
  | root =>
      have hRoot :
          rootOfChars
              ('/' ::
                (Text.joinWith "/" parts).toList) =
            .root := by
        rw [rootOfChars_eq]
        simp_all
      have hParts :
          partsOfChars
              ('/' ::
                (Text.joinWith "/" parts).toList) =
            parts :=
        (partsOfChars_append_cons [] _).trans hRead
      simpa [text, rootText, ofText] using
        ⟨hRoot, hParts⟩
  | twoSlashes =>
      have hRoot :
          rootOfChars
              ('/' :: '/' ::
                (Text.joinWith "/" parts).toList) =
            .twoSlashes := by
        rw [rootOfChars_eq]
        simp_all
      have hParts :
          partsOfChars
              ('/' :: '/' ::
                (Text.joinWith "/" parts).toList) =
            parts :=
        (partsOfChars_append_cons ['/'] _).trans hRead
      simpa [text, rootText, ofText] using
        ⟨hRoot, hParts⟩

/- The text of a normal path is not empty. -/
theorem text_ne_empty
    {p : Path}
    (hNormal : p.IsNormal) :
    p.text ≠ "" := by
  rcases p with ⟨start, parts⟩
  cases start with
  | relative =>
      cases parts with
      | nil => decide
      | cons part rest =>
          simpa [text, rootText] using
            joinWith_ne_empty hNormal (by simp)
  | root => simp [text, rootText]
  | twoSlashes => simp [text, rootText]

/- A relative text after another one adds its parts. -/
theorem ofText_joinText
    {a b : String}
    (hRelative : (ofText b).root = .relative) :
    ofText (joinText a b) =
      ⟨(ofText a).root,
        (ofText a).parts ++ (ofText b).parts⟩ := by
  have hFirst : b.toList[0]? ≠ some '/' :=
    (rootOfChars_eq_relative_iff _).mp hRelative
  have hHead : (b.toList.head? == some '/') = false := by
    simpa [List.head?_eq_getElem?] using hFirst
  by_cases hEmpty : a = ""
  · subst hEmpty
    have hJoin : joinText "" b = b := by
      simp [joinText, hHead]
    rw [hJoin]
    simp only [ofText] at hRelative ⊢
    rw [hRelative]
    rfl
  · have hChars : a.toList ≠ [] := by
      simpa using hEmpty
    by_cases hLast : a.toList.getLast? = some '/'
    · have hJoin : joinText a b = a ++ b := by
        simp [joinText, hHead, hLast]
      rcases List.getLast?_eq_some_iff.mp hLast with
        ⟨front, hFront⟩
      have hParts :
          partsOfChars (a.toList ++ b.toList) =
            partsOfChars a.toList ++
              partsOfChars b.toList := by
        simp [hFront, partsOfChars_append_cons]
      simp only [ofText, hJoin, String.toList_append,
        rootOfChars_append hChars hFirst, hParts]
    · have hJoin : joinText a b = a ++ "/" ++ b := by
        simp [joinText, hHead, hEmpty, hLast]
      have hText :
          (a ++ "/" ++ b).toList =
            a.toList ++ '/' :: b.toList := by
        simp
      simp only [ofText, hJoin, hText,
        rootOfChars_append_of_getLast hChars hLast,
        partsOfChars_append_cons]

/- The last of several joined parts stands after a slash. -/
theorem joinWith_concat
    (part : String)
    (parts : List String)
    (name : String) :
    Text.joinWith "/" (part :: (parts ++ [name])) =
      Text.joinWith "/" (part :: parts) ++ "/" ++ name := by
  induction parts generalizing part with
  | nil => simp [Text.joinWith]
  | cons q parts ih =>
      have hText :
          ∀ rest,
            Text.joinWith "/" (part :: q :: rest) =
              part ++ "/" ++
                Text.joinWith "/" (q :: rest) := by
        intro rest
        simp [Text.joinWith]
      rw [List.cons_append, hText, ih, hText]
      simp only [String.append_assoc]

theorem text_child
    (p : Path)
    (name : String) :
    (p.child name).text.toList = name.toList ∨
      ∃ front,
        (p.child name).text.toList =
          front ++ '/' :: name.toList := by
  rcases p with ⟨start, _ | ⟨part, parts⟩⟩
  · cases start with
    | relative =>
        refine .inl ?_
        simp [text, child, rootText, Text.joinWith]
    | root =>
        refine .inr ⟨[], ?_⟩
        simp [text, child, rootText, Text.joinWith]
    | twoSlashes =>
        refine .inr ⟨['/'], ?_⟩
        simp [text, child, rootText, Text.joinWith]
  · refine .inr
      ⟨(rootText start ++
        Text.joinWith "/" (part :: parts)).toList, ?_⟩
    simp [text, child, joinWith_concat]

/- The text of a path in a directory ends with its name. -/
theorem getLast?_parts_child
    {name : String}
    (p : Path)
    (hName : IsPart name) :
    (ofText (p.child name).text).parts.getLast? =
      some name := by
  simp only [ofText]
  rcases text_child p name with hText | ⟨front, hText⟩
  · rw [hText, partsOfChars_toList hName]
    rfl
  · rw [hText, partsOfChars_append_cons,
      partsOfChars_toList hName]
    simp

------------------------------------------------------------
-- Characters
------------------------------------------------------------

theorem mem_text
    {p : Path}
    {c : Char}
    (hChar : c ∈ p.text.toList) :
    c = '/' ∨ c = '.' ∨ ∃ part ∈ p.parts, c ∈ part.toList := by
  unfold text at hChar
  split at hChar
  · exact .inr (.inl (by simpa using hChar))
  · rw [String.toList_append] at hChar
    rcases List.mem_append.mp hChar with hRoot | hJoined
    · apply Or.inl
      cases hStart : p.root <;>
        simp_all [rootText]
    · rw [Text.joinWith, String.toList_intercalate] at hJoined
      rcases Text.mem_intercalate hJoined with
        hSlash | ⟨cs, hPart, hIn⟩
      · exact .inl (by simpa using hSlash)
      · rcases List.mem_map.mp hPart with ⟨part, hp, rfl⟩
        exact .inr (.inr ⟨part, hp, hIn⟩)

theorem mem_of_mem_parts_ofText
    {s part : String}
    {c : Char}
    (hPart : part ∈ (ofText s).parts)
    (hChar : c ∈ part.toList) :
    c ∈ s.toList := by
  simp only [ofText, partsOfChars, List.mem_filter,
    List.mem_map] at hPart
  rcases hPart with ⟨⟨piece, hPiece, rfl⟩, _⟩
  rw [String.toList_ofList] at hChar
  exact Text.mem_of_mem_splitAll hPiece hChar

------------------------------------------------------------
-- Lengths
------------------------------------------------------------

/- The number of bytes of parts with a slash after each. -/
def slashedBytes
    (parts : List String) : Nat :=
  (parts.map (fun p => byteLength p + 1)).sum

/- The bytes of a text are those of its two halves. -/
theorem byteLength_append
    (a b : String) :
    byteLength (a ++ b) = byteLength a + byteLength b := by
  simp [byteLength, Text.Utf8.encodeText, Text.Utf8.encode]

/- Joined parts have one slash less than slashed ones. -/
theorem byteLength_joinWith
    (parts : List String) :
    byteLength (Text.joinWith "/" parts) =
      slashedBytes parts - 1 := by
  induction parts with
  | nil => rfl
  | cons part rest ih =>
      cases rest with
      | nil => simp [Text.joinWith, slashedBytes]
      | cons q rest =>
          have hText :
              Text.joinWith "/" (part :: q :: rest) =
                part ++ "/" ++
                  Text.joinWith "/" (q :: rest) := by
            simp [Text.joinWith]
          have hSlash : byteLength "/" = 1 := by decide
          rw [hText, byteLength_append, byteLength_append,
            ih, hSlash]
          simp only [slashedBytes, List.map_cons,
            List.sum_cons]
          omega

/- The pieces of a text, with a slash after each. -/
theorem slashedBytes_splitAll
    (cs : List Char) :
    slashedBytes
        ((Text.splitAll '/' cs).map String.ofList) =
      (Text.Utf8.encode cs).length + 1 := by
  induction cs with
  | nil => decide
  | cons c cs ih =>
      by_cases hSlash : c = '/'
      · subst hSlash
        simp [Text.splitAll, slashedBytes] at ih ⊢
        rw [ih]
        simp [byteLength, Text.Utf8.encodeText,
          Text.Utf8.encode, Text.Utf8.encodeChar]
        omega
      · cases hSplit : Text.splitAll '/' cs with
        | nil =>
            exact absurd hSplit (Text.splitAll_ne_nil _ _)
        | cons p ps =>
            simp [Text.splitAll, hSlash, hSplit,
              slashedBytes, byteLength,
              Text.Utf8.encodeText, Text.Utf8.encode] at ih ⊢
            omega

/- Some of the parts have no more bytes than all. -/
theorem slashedBytes_filter_le
    (keeps : String → Bool)
    (parts : List String) :
    slashedBytes (parts.filter keeps) ≤
      slashedBytes parts := by
  induction parts with
  | nil => simp
  | cons part rest ih =>
      cases hKeeps : keeps part <;>
        simp [slashedBytes, hKeeps] at ih ⊢ <;>
        omega

/- The parts of a text join to no more bytes. -/
theorem byteLength_joinWith_partsOfChars_le
    (cs : List Char) :
    byteLength (Text.joinWith "/" (partsOfChars cs)) ≤
      (Text.Utf8.encode cs).length := by
  have hFilter :=
    slashedBytes_filter_le (fun p => p != "" && p != ".")
      ((Text.splitAll '/' cs).map String.ofList)
  rw [slashedBytes_splitAll] at hFilter
  rw [byteLength_joinWith, partsOfChars]
  omega

/- Every character has a byte. -/
theorem length_encode_pos
    {cs : List Char}
    (hSome : cs ≠ []) :
    0 < (Text.Utf8.encode cs).length := by
  cases cs with
  | nil => exact absurd rfl hSome
  | cons c cs =>
      simp only [Text.Utf8.encode, List.flatMap_cons,
        List.length_append]
      have hChar : 0 < (Text.Utf8.encodeChar c).length := by
        unfold Text.Utf8.encodeChar
        grind
      omega

/- A text is the text of its root, then its parts. -/
theorem exists_rootText_append
    (cs : List Char) :
    ∃ rest,
      cs = (rootText (rootOfChars cs)).toList ++ rest ∧
        partsOfChars cs = partsOfChars rest := by
  fun_cases rootOfChars cs with
  | case1 tail =>
      refine ⟨'/' :: '/' :: tail, by simp [rootText], ?_⟩
      exact partsOfChars_append_cons [] _
  | case2 tail =>
      refine ⟨tail, by simp [rootText], ?_⟩
      exact partsOfChars_append_cons ['/'] _
  | case3 tail =>
      refine ⟨tail, by simp [rootText], ?_⟩
      exact partsOfChars_append_cons [] _
  | case4 =>
      exact ⟨cs, by simp [rootText], rfl⟩

/- The text of a path that was read is no longer. -/
theorem byteLength_text_le
    {s : String}
    (hSome : s ≠ "") :
    byteLength (ofText s).text ≤ byteLength s := by
  have hPos : 0 < byteLength s :=
    length_encode_pos (by simpa using hSome)
  by_cases hDot :
      ((ofText s).root == .relative &&
        (ofText s).parts.isEmpty) = true
  · have hText : (ofText s).text = "." := if_pos hDot
    have hOne : byteLength "." = 1 := by decide
    rw [hText, hOne]
    exact hPos
  · rcases exists_rootText_append s.toList with
      ⟨rest, hChars, hParts⟩
    have hText :
        (ofText s).text =
          rootText (ofText s).root ++
            Text.joinWith "/" (partsOfChars rest) := by
      rw [← hParts]
      exact if_neg hDot
    have hRest := byteLength_joinWith_partsOfChars_le rest
    have hBytes :
        byteLength s =
          byteLength (rootText (ofText s).root) +
            (Text.Utf8.encode rest).length := by
      have hEncode := congrArg Text.Utf8.encode hChars
      simp only [Text.Utf8.encode,
        List.flatMap_append] at hEncode
      simp only [byteLength, Text.Utf8.encodeText, ofText,
        Text.Utf8.encode, hEncode, List.length_append]
    rw [hText, byteLength_append]
    omega

end Path

end LocalCert
