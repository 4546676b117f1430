import LocalCert.Proofs.Net.Octets

/-
  Addresses of eight groups.  The pieces between colons read
  as groups in a row, the gap parts them in two sides, and
  exactly the texts of the grammar are read.

  Main declarations:
    * `Net.Ipv6.row?`
    * `Net.Ipv6.groups_of_row?`
    * `Net.Ipv6.row?_of_groups`
    * `Net.Ipv6.sideRow`
    * `Net.Ipv6.expand?_eq_some_iff`
    * `Net.Ipv6.isSome_ofChars?_iff`
-/

------------------------------------------------------------
-- Single Groups
------------------------------------------------------------

namespace LocalCert

namespace Net

variable {ds cs : List Char}

theorem isSome_hexValue_iff
    {c : Char} :
    (Text.hexValue c).isSome = true ↔ IsHexDigit c := by
  have hRange :
      IsHexDigit c ↔
        (48 ≤ c.toNat ∧ c.toNat ≤ 57) ∨
          (97 ≤ c.toNat ∧ c.toNat ≤ 102) ∨
          (65 ≤ c.toNat ∧ c.toNat ≤ 70) := Iff.rfl
  rw [hRange]
  unfold Text.hexValue
  simp only [Bool.and_eq_true, decide_eq_true_eq]
  split
  · next hDigit => simp [hDigit]
  · next hNotDigit =>
      split
      · next hLower => simp [hLower]
      · next hNotLower =>
          split
          · next hUpper => simp [hUpper]
          · next hNotUpper =>
              simp [hNotDigit, hNotLower, hNotUpper]

theorem IsGroup.not_mem
    {c : Char}
    (hGroup : IsGroup ds)
    (hOther : Text.hexValue c = none) :
    c ∉ ds := by
  intro hChar
  have hDigit :=
    isSome_hexValue_iff.2 (hGroup.2.2 c hChar)
  rw [hOther] at hDigit
  cases hDigit

namespace Ipv6

/- Exactly the groups of the grammar are read. -/
theorem isSome_group?_iff :
    (group? ds).isSome = true ↔ IsGroup ds := by
  unfold group? IsGroup
  simp only [← isSome_hexValue_iff, ← Text.isSome_mapM_iff]
  split
  · next hBad =>
      simp only [Bool.or_eq_true, List.isEmpty_iff,
        decide_eq_true_eq] at hBad
      rw [← List.length_eq_zero_iff] at hBad
      simp only [Option.isSome_none, Bool.false_eq_true,
        false_iff]
      omega
  · next hGood =>
      simp only [Bool.or_eq_true, List.isEmpty_iff,
        decide_eq_true_eq] at hGood
      rw [← List.length_eq_zero_iff] at hGood
      rw [Option.isSome_map]
      constructor
      · intro hDigits
        exact ⟨by omega, by omega, hDigits⟩
      · exact fun hAll => hAll.2.2

/- A group in its shortest form is read back. -/
theorem group?_toDigits
    (g : UInt16) :
    group? (Nat.toDigits 16 g.toNat) = some g := by
  rcases Text.mapM_hexValue_toDigits g.toNat with
    ⟨vs, hDigits, hValue⟩
  have hShort :
      (Nat.toDigits 16 g.toNat).length ≤ 4 :=
    (Nat.length_toDigits_le_iff (by decide)
      (by decide)).mpr g.toNat_lt
  have hSome : Nat.toDigits 16 g.toNat ≠ [] :=
    Nat.toDigits_ne_nil
  simp [group?, hSome, Nat.not_lt.mpr hShort, hDigits,
    hValue]

------------------------------------------------------------
-- Pieces
------------------------------------------------------------

theorem piece?_eq_none_iff :
    piece? ds = some none ↔ ds = [] := by
  unfold piece?
  cases ds with
  | nil => simp
  | cons d ds => simp

theorem piece?_eq_some_iff
    {g : UInt16} :
    piece? ds = some (some g) ↔ group? ds = some g := by
  cases ds with
  | nil => simp [piece?, group?]
  | cons d ds => simp [piece?]

/- No piece but four octets holds a dot. -/
theorem dot_not_mem_of_piece?
    {x : Option UInt16}
    (hPiece : piece? ds = some x) :
    '.' ∉ ds := by
  cases x with
  | none =>
      rw [piece?_eq_none_iff.1 hPiece]
      exact List.not_mem_nil
  | some g =>
      have hGroup : IsGroup ds :=
        isSome_group?_iff.1
          (by rw [piece?_eq_some_iff.1 hPiece]; rfl)
      exact hGroup.not_mem (by decide)

variable {dottedEnd : Bool}
variable {ps qs rs : List (List Char)}
variable {xs ys zs : List (Option UInt16)}
variable {gs : List UInt16}

/-
  Read pieces in a row; where a dotted end is allowed, four
  octets may be the last of them.
-/
def row?
    (dottedEnd : Bool)
    (ps : List (List Char)) :
    Option (List (Option UInt16)) :=
  if dottedEnd then pieces? ps else ps.mapM piece?

@[simp] theorem row?_nil :
    row? dottedEnd [] = some [] := by
  cases dottedEnd <;> rfl

/-
  The first piece is read alone, unless it is the last one
  and may be dotted.
-/
theorem row?_cons
    (hPlain : dottedEnd = false ∨ ps ≠ []) :
    row? dottedEnd (ds :: ps) =
      (piece? ds).bind
        (fun x => (row? dottedEnd ps).map (x :: ·)) := by
  have hBoth :
      ∀ (first : Option (Option UInt16))
        (rest : Option (List (Option UInt16))),
        (do let x ← first
            let xs ← rest
            return x :: xs) =
          first.bind (fun x => rest.map (x :: ·)) := by
    intro first rest
    cases first <;> cases rest <;> rfl
  cases dottedEnd with
  | false => exact (List.mapM_cons).trans (hBoth _ _)
  | true =>
      match ps, hPlain with
      | [], hPlain => simp at hPlain
      | p :: ps, _ =>
          exact hBoth (piece? ds) (pieces? (p :: ps))

theorem row?_cons_eq_some
    (hPlain : dottedEnd = false ∨ ps ≠ [])
    (hRow : row? dottedEnd (ds :: ps) = some xs) :
    ∃ x rest,
      piece? ds = some x ∧
        row? dottedEnd ps = some rest ∧ x :: rest = xs := by
  rw [row?_cons hPlain, Option.bind_eq_some_iff] at hRow
  rcases hRow with ⟨x, hPiece, hRest⟩
  rcases Option.map_eq_some_iff.mp hRest with
    ⟨rest, hRow, hParts⟩
  exact ⟨x, rest, hPiece, hRow, hParts⟩

/- A row of one piece: the piece, or four octets. -/
theorem row?_singleton_iff :
    row? dottedEnd [ds] = some xs ↔
      (∃ x, piece? ds = some x ∧ [x] = xs) ∨
        dottedEnd = true ∧
          ∃ a, Ipv4.ofChars? ds = some a ∧
            a.groups.map some = xs := by
  rw [← Option.map_eq_some_iff, ← Option.map_eq_some_iff]
  cases dottedEnd with
  | false =>
      cases hRead : piece? ds <;> simp [row?, hRead]
  | true =>
      simp only [row?, pieces?, if_true, true_and]
      by_cases hDot : '.' ∈ ds
      · have hNone : piece? ds = none := by
          cases hRead : piece? ds with
          | none => rfl
          | some x =>
              exact (dot_not_mem_of_piece? hRead hDot).elim
        simp [hDot, hNone]
      · have hNone : Ipv4.ofChars? ds = none := by
          cases hRead : Ipv4.ofChars? ds with
          | none => rfl
          | some a =>
              have hIs : IsFour ds :=
                Ipv4.isSome_ofChars?_iff.1
                  (by rw [hRead]; rfl)
              exact (hDot hIs.dot_mem).elim
        simp [hDot, hNone]

------------------------------------------------------------
-- Groups In A Row
------------------------------------------------------------

/- Pieces that all read as groups are groups. -/
theorem groups_of_row?
    (hSome : ps ≠ [])
    (hRow : row? dottedEnd ps = some (gs.map some)) :
    Groups dottedEnd gs.length ([':'].intercalate ps) := by
  induction ps generalizing gs with
  | nil => exact absurd rfl hSome
  | cons p ps ih =>
      by_cases hLast : ps = []
      · subst hLast
        rw [List.intercalate_singleton]
        rcases row?_singleton_iff.1 hRow with
          ⟨x, hPiece, hGroups⟩ | ⟨hAllowed, a, hFour, hGroups⟩
        · rcases List.map_eq_singleton_iff.mp hGroups.symm
            with ⟨g, rfl, rfl⟩
          exact .one (isSome_group?_iff.1
            (by rw [piece?_eq_some_iff.1 hPiece]; rfl))
        · have hSame : a.groups = gs :=
            (List.map_inj_right
              (fun _ _ => Option.some.inj)).mp hGroups
          rw [← hSame]
          exact .two hAllowed (Ipv4.isSome_ofChars?_iff.1
            (by rw [hFour]; rfl))
      · rcases row?_cons_eq_some (.inr hLast) hRow with
          ⟨x, rest, hPiece, hRow, hGroups⟩
        cases gs with
        | nil => cases hGroups
        | cons g gs =>
            rcases List.cons.inj hGroups with ⟨rfl, rfl⟩
            rw [List.intercalate_cons_of_ne_nil hLast,
              List.append_assoc, List.singleton_append]
            exact .more
              (isSome_group?_iff.1
                (by rw [piece?_eq_some_iff.1 hPiece]; rfl))
              (ih hLast hRow)

/- Groups read as a row of that many. -/
theorem row?_of_groups
    {n : Nat}
    (hGroups : Groups dottedEnd n cs) :
    ∃ gs : List UInt16,
      gs.length = n ∧
        row? dottedEnd (Text.splitAll ':' cs) =
          some (gs.map some) := by
  have hAlone :
      ∀ {ds}, IsGroup ds → Text.splitAll ':' ds = [ds] := by
    intro ds hGroup
    exact Text.splitAll_of_not_mem
      (hGroup.not_mem (by decide))
  have hRead :
      ∀ {ds}, IsGroup ds →
        ∃ g, piece? ds = some (some g) := by
    intro ds hGroup
    rcases Option.isSome_iff_exists.mp
        (isSome_group?_iff.2 hGroup) with ⟨g, hg⟩
    exact ⟨g, piece?_eq_some_iff.2 hg⟩
  induction hGroups with
  | one hGroup =>
      rcases hRead hGroup with ⟨g, hPiece⟩
      refine ⟨[g], rfl, ?_⟩
      rw [hAlone hGroup]
      exact row?_singleton_iff.2
        (.inl ⟨some g, hPiece, rfl⟩)
  | two hAllowed hFour =>
      rcases Option.isSome_iff_exists.mp
          (Ipv4.isSome_ofChars?_iff.2 hFour) with ⟨a, ha⟩
      refine ⟨a.groups, rfl, ?_⟩
      rw [Text.splitAll_of_not_mem
        (hFour.not_mem (by decide) (by decide))]
      exact row?_singleton_iff.2
        (.inr ⟨hAllowed, a, ha, rfl⟩)
  | more hGroup _ ih =>
      rcases hRead hGroup with ⟨g, hPiece⟩
      rcases ih with ⟨gs, rfl, hRow⟩
      refine ⟨g :: gs, rfl, ?_⟩
      rw [Text.splitAll_append_cons, hAlone hGroup,
        List.singleton_append,
        row?_cons (.inr (Text.splitAll_ne_nil _ _)), hPiece,
        hRow]
      rfl

/- An empty piece with others behind it parts a row. -/
theorem exists_of_row?_append
    (hMore : zs ≠ [])
    (hRow : row? dottedEnd ps = some (ys ++ none :: zs)) :
    ∃ qs rs,
      ps = qs ++ [] :: rs ∧
        row? false qs = some ys ∧
        row? dottedEnd rs = some zs := by
  induction ps generalizing ys with
  | nil =>
      rw [row?_nil] at hRow
      cases ys <;> cases hRow
  | cons p ps ih =>
      by_cases hLast : ps = []
      · subst hLast
        rcases row?_singleton_iff.1 hRow with
          ⟨x, _, hOne⟩ | ⟨_, a, _, hGroups⟩
        · have hLength := congrArg List.length hOne
          have hPositive := List.length_pos_iff.mpr hMore
          simp only [List.length_append, List.length_cons,
            List.length_nil] at hLength
          omega
        · have hMember : none ∈ a.groups.map some := by
            rw [hGroups]
            simp
          simp at hMember
      · rcases row?_cons_eq_some (.inr hLast) hRow with
          ⟨x, rest, hPiece, hBehind, hParts⟩
        cases ys with
        | nil =>
            rcases List.cons.inj hParts with ⟨rfl, rfl⟩
            refine ⟨[], ps, ?_, row?_nil, hBehind⟩
            rw [piece?_eq_none_iff.1 hPiece]
            rfl
        | cons y ys =>
            rcases List.cons.inj hParts with ⟨rfl, rfl⟩
            rcases ih hBehind with
              ⟨qs, rs, rfl, hFront, hBack⟩
            refine ⟨p :: qs, rs, rfl, ?_, hBack⟩
            rw [row?_cons (.inl rfl), hPiece, hFront]
            rfl

/- Rows one after the other read as one. -/
theorem row?_append
    (hSome : rs ≠ [])
    (hFront : row? false qs = some ys)
    (hBack : row? dottedEnd rs = some zs) :
    row? dottedEnd (qs ++ rs) = some (ys ++ zs) := by
  induction qs generalizing ys with
  | nil =>
      rw [row?_nil] at hFront
      cases hFront
      exact hBack
  | cons q qs ih =>
      rcases row?_cons_eq_some (.inl rfl) hFront with
        ⟨y, rest, hPiece, hRow, rfl⟩
      rw [List.cons_append,
        row?_cons (.inr (List.append_ne_nil_of_right_ne_nil
          _ hSome)), hPiece, ih hRow]
      rfl

------------------------------------------------------------
-- Sides Of The Gap
------------------------------------------------------------

/- The row of a side: an empty side is one empty piece. -/
def sideRow
    (gs : List UInt16) : List (Option UInt16) :=
  if gs.isEmpty then [none] else gs.map some

theorem sideRow_ne_nil
    (gs : List UInt16) :
    sideRow gs ≠ [] := by
  cases gs <;> simp [sideRow]

theorem mapM_id_eq_some_iff :
    xs.mapM id = some gs ↔ xs = gs.map some := by
  induction xs generalizing gs with
  | nil => cases gs <;> simp
  | cons x xs ih =>
      cases x with
      | none => cases gs <;> simp
      | some g =>
          rw [List.mapM_cons]
          cases gs with
          | nil =>
              cases hRest : xs.mapM id <;> simp
          | cons h gs =>
              rw [List.map_cons, List.cons.injEq, ← ih]
              cases hRest : xs.mapM id <;> simp

/- A side that is not empty reads as its row. -/
theorem side?_eq_some_iff
    (hSome : xs ≠ []) :
    side? xs = some gs ↔ xs = sideRow gs := by
  unfold side? sideRow
  by_cases hEmpty : xs = [none]
  · subst hEmpty
    cases gs with
    | nil => simp
    | cons g gs => simp
  · rw [if_neg (by simpa using hEmpty), mapM_id_eq_some_iff]
    cases gs with
    | nil => simp [hSome, hEmpty]
    | cons g gs => simp

/- Inside a side no piece is empty. -/
theorem sideRow_getElem?
    {i : Nat}
    (hNone : (sideRow gs)[i]? = some none) :
    i = 0 ∧ (sideRow gs).length = 1 := by
  unfold sideRow at hNone ⊢
  cases gs with
  | nil =>
      cases i with
      | zero => simp
      | succ i => simp at hNone
  | cons g gs =>
      have hMember := List.mem_of_getElem? hNone
      simp at hMember

------------------------------------------------------------
-- The Gap
------------------------------------------------------------

theorem mem_innerGaps_iff
    {i : Nat} :
    i ∈ innerGaps xs ↔
      0 < i ∧ i + 1 < xs.length ∧ xs[i]? = some none := by
  simp only [innerGaps, List.mem_filter, List.mem_range,
    Bool.and_eq_true, decide_eq_true_eq, beq_iff_eq]
  constructor
  · rintro ⟨_, ⟨hFirst, hLast⟩, hNone⟩
    exact ⟨hFirst, hLast, hNone⟩
  · rintro ⟨hFirst, hLast, hNone⟩
    exact ⟨by omega, ⟨hFirst, hLast⟩, hNone⟩

theorem innerGaps_map_some
    (gs : List UInt16) :
    innerGaps (gs.map some) = [] := by
  rw [List.eq_nil_iff_forall_not_mem]
  intro i hGap
  rw [mem_innerGaps_iff] at hGap
  simp at hGap

theorem innerGaps_nodup
    (xs : List (Option UInt16)) :
    (innerGaps xs).Nodup :=
  List.nodup_range.filter _

/- Between two sides there is exactly one gap. -/
theorem mem_innerGaps_sides_iff
    {high low : List UInt16}
    {i : Nat} :
    i ∈ innerGaps (sideRow high ++ none :: sideRow low) ↔
      i = (sideRow high).length := by
  have hHigh := List.length_pos_iff.mpr (sideRow_ne_nil high)
  have hLow := List.length_pos_iff.mpr (sideRow_ne_nil low)
  rw [mem_innerGaps_iff]
  simp only [List.length_append, List.length_cons]
  constructor
  · rintro ⟨hFirst, hLast, hNone⟩
    by_cases hFront : i < (sideRow high).length
    · rw [List.getElem?_append_left hFront] at hNone
      have hZero := (sideRow_getElem? hNone).1
      omega
    · by_cases hMiddle : i = (sideRow high).length
      · exact hMiddle
      · have hBehind :
            i - (sideRow high).length =
              i - (sideRow high).length - 1 + 1 := by
          omega
        rw [List.getElem?_append_right (by omega), hBehind,
          List.getElem?_cons_succ] at hNone
        have hOnly := sideRow_getElem? hNone
        omega
  · rintro rfl
    refine ⟨hHigh, by omega, ?_⟩
    rw [List.getElem?_append_right (Nat.le_refl _),
      Nat.sub_self]
    rfl

theorem innerGaps_sides
    (high low : List UInt16) :
    innerGaps (sideRow high ++ none :: sideRow low) =
      [(sideRow high).length] := by
  have hOnce :=
    innerGaps_nodup (sideRow high ++ none :: sideRow low)
  have hMembers :
      ∀ i,
        i ∈ innerGaps (sideRow high ++ none :: sideRow low) ↔
          i = (sideRow high).length :=
    fun _ => mem_innerGaps_sides_iff
  match innerGaps (sideRow high ++ none :: sideRow low),
    hOnce, hMembers with
  | [], _, hMembers =>
      have hGap := (hMembers _).mpr rfl
      cases hGap
  | [i], _, hMembers =>
      rw [(hMembers i).mp List.mem_cons_self]
  | i :: j :: is, hOnce, hMembers =>
      have hFirst := (hMembers i).mp (by simp)
      have hSecond := (hMembers j).mp (by simp)
      simp [hFirst, hSecond] at hOnce

/- Only at a gap a row is parted. -/
theorem eq_append_of_innerGaps
    {i : Nat}
    (hGap : i ∈ innerGaps xs) :
    xs = xs.take i ++ none :: xs.drop (i + 1) ∧
      xs.take i ≠ [] ∧ xs.drop (i + 1) ≠ [] := by
  rcases mem_innerGaps_iff.1 hGap with
    ⟨hFirst, hLast, hNone⟩
  refine ⟨?_, ?_, ?_⟩
  · rcases List.getElem?_eq_some_iff.mp hNone with
      ⟨hInside, hValue⟩
    rw [← hValue, ← List.drop_eq_getElem_cons hInside,
      List.take_append_drop]
  · rw [Ne, List.take_eq_nil_iff]
    rintro (hZero | rfl)
    · omega
    · cases hNone
  · rw [Ne, List.drop_eq_nil_iff]
    omega

/-
  The groups of a row: all its pieces, or the two sides of
  a gap with zeros between them.
-/
theorem expand?_eq_some_iff :
    expand? xs = some gs ↔
      xs = gs.map some ∨
        ∃ high low : List UInt16,
          xs = sideRow high ++ none :: sideRow low ∧
            high.length + low.length < 8 ∧
            high ++
                List.replicate
                  (8 - (high.length + low.length)) 0 ++
                low =
              gs := by
  unfold expand?
  split
  · next hNone =>
      rw [mapM_id_eq_some_iff]
      constructor
      · exact .inl
      · rintro (hAll | ⟨high, low, rfl, _⟩)
        · exact hAll
        · rw [innerGaps_sides] at hNone
          cases hNone
  · next i hOne =>
      constructor
      · intro hRead
        rcases eq_append_of_innerGaps (i := i)
            (by rw [hOne]; exact List.mem_cons_self) with
          ⟨hParts, hFront, hBack⟩
        rcases Option.bind_eq_some_iff.mp hRead with
          ⟨high, hHigh, hRest⟩
        rcases Option.bind_eq_some_iff.mp hRest with
          ⟨low, hLow, hLast⟩
        rw [side?_eq_some_iff hFront] at hHigh
        rw [side?_eq_some_iff hBack] at hLow
        rw [hHigh, hLow] at hParts
        split at hLast
        · next hFew =>
            exact .inr ⟨high, low, hParts, hFew,
              Option.some.inj hLast⟩
        · cases hLast
      · rintro (rfl | ⟨high, low, rfl, hFew, hGroups⟩)
        · rw [innerGaps_map_some] at hOne
          cases hOne
        · rw [innerGaps_sides] at hOne
          cases hOne
          have hHigh :
              side? (sideRow high) = some high :=
            (side?_eq_some_iff (sideRow_ne_nil high)).mpr
              rfl
          have hLow : side? (sideRow low) = some low :=
            (side?_eq_some_iff (sideRow_ne_nil low)).mpr rfl
          rw [List.take_left, ← List.drop_drop,
            List.drop_left, List.drop_one, List.tail_cons,
            hHigh, hLow, ← hGroups]
          exact if_pos hFew
  · next hSome hMany =>
      constructor
      · intro hRead
        cases hRead
      · rintro (rfl | ⟨high, low, rfl, _⟩)
        · exact (hSome (innerGaps_map_some gs)).elim
        · exact (hMany _ (innerGaps_sides high low)).elim

------------------------------------------------------------
-- Addresses
------------------------------------------------------------

theorem ofGroups?_eq_some_iff
    {a : Ipv6} :
    ofGroups? gs = some a ↔ a.groups.toList = gs := by
  rcases a with ⟨⟨⟨groups⟩, hLength⟩⟩
  unfold ofGroups?
  split
  · next hEight =>
      simp [eq_comm]
  · next hOther =>
      simp only [reduceCtorEq, false_iff]
      rintro rfl
      exact hOther hLength

/- An address is read as the groups of its row. -/
theorem ofChars?_eq_some_iff
    {a : Ipv6} :
    ofChars? cs = some a ↔
      ∃ xs,
        row? true (Text.splitAll ':' cs) = some xs ∧
          expand? xs = some a.groups.toList := by
  simp only [ofChars?, row?, if_true, Option.bind_eq_bind,
    Option.bind_eq_some_iff, ofGroups?_eq_some_iff]
  simp

theorem eq_nil_of_row?
    (hRow : row? dottedEnd ps = some []) :
    ps = [] := by
  cases ps with
  | nil => rfl
  | cons p ps =>
      by_cases hLast : ps = []
      · subst hLast
        rcases row?_singleton_iff.1 hRow with
          ⟨x, _, hOne⟩ | ⟨_, a, _, hGroups⟩
        · cases hOne
        · cases hGroups
      · rcases row?_cons_eq_some (.inr hLast) hRow with
          ⟨x, rest, _, _, hParts⟩
        cases hParts

/- Only one empty piece reads as an empty side. -/
theorem eq_of_row?_none
    (hRow : row? dottedEnd ps = some [none]) :
    ps = [[]] := by
  cases ps with
  | nil =>
      rw [row?_nil] at hRow
      cases hRow
  | cons p ps =>
      by_cases hLast : ps = []
      · subst hLast
        rcases row?_singleton_iff.1 hRow with
          ⟨x, hPiece, hOne⟩ | ⟨_, a, _, hGroups⟩
        · cases hOne
          rw [piece?_eq_none_iff.1 hPiece]
        · have hLength := congrArg List.length hGroups
          cases hLength
      · rcases row?_cons_eq_some (.inr hLast) hRow with
          ⟨x, rest, _, hBehind, hParts⟩
        cases hParts
        exact absurd (eq_nil_of_row? hBehind) hLast

/- The sides of a gap are what reads as their rows. -/
theorem side_iff
    {n : Nat} :
    Side dottedEnd n cs ↔
      ∃ gs : List UInt16,
        gs.length = n ∧
          row? dottedEnd (Text.splitAll ':' cs) =
            some (sideRow gs) := by
  constructor
  · rintro (⟨rfl, rfl⟩ | hGroups)
    · refine ⟨[], rfl, ?_⟩
      exact row?_singleton_iff.2
        (.inl ⟨none, piece?_eq_none_iff.2 rfl, rfl⟩)
    · rcases row?_of_groups hGroups with ⟨gs, rfl, hRow⟩
      refine ⟨gs, rfl, ?_⟩
      cases gs with
      | nil => cases hGroups
      | cons g gs => exact hRow
  · rintro ⟨gs, rfl, hRow⟩
    cases gs with
    | nil =>
        have hPiece := eq_of_row?_none hRow
        have hText := Text.join_splitAll ':' cs
        rw [hPiece] at hText
        exact .inl ⟨rfl, hText.symm⟩
    | cons g gs =>
        have hGroups :=
          groups_of_row? (Text.splitAll_ne_nil ':' cs) hRow
        rw [Text.join_splitAll] at hGroups
        exact .inr hGroups

/- A gap is a double colon between the two sides. -/
theorem row?_sides_iff
    {high low : List UInt16} :
    row? true (Text.splitAll ':' cs) =
        some (sideRow high ++ none :: sideRow low) ↔
      ∃ front back,
        cs = front ++ ':' :: ':' :: back ∧
          row? false (Text.splitAll ':' front) =
            some (sideRow high) ∧
          row? true (Text.splitAll ':' back) =
            some (sideRow low) := by
  have hGap :
      ∀ front back,
        Text.splitAll ':' (front ++ ':' :: ':' :: back) =
          Text.splitAll ':' front ++
            [] :: Text.splitAll ':' back := by
    intro front back
    rw [Text.splitAll_append_cons]
    exact congrArg _ (Text.splitAll_append_cons ':' [] back)
  constructor
  · intro hRow
    rcases exists_of_row?_append (sideRow_ne_nil low) hRow
      with ⟨qs, rs, hSplit, hFront, hBack⟩
    have hAgain :
        ∀ ts, ts ≠ [] → ts ⊆ Text.splitAll ':' cs →
          Text.splitAll ':' ([':'].intercalate ts) = ts := by
      intro ts hSome hWithin
      rw [Text.splitAll_eq_splitOn]
      refine List.splitOn_intercalate ':' ?_ hSome
      intro t ht
      exact Text.not_mem_of_mem_splitAll (hWithin ht)
    have hQs : qs ≠ [] := by
      rintro rfl
      rw [row?_nil] at hFront
      exact sideRow_ne_nil high (Option.some.inj hFront).symm
    have hRs : rs ≠ [] := by
      rintro rfl
      rw [row?_nil] at hBack
      exact sideRow_ne_nil low (Option.some.inj hBack).symm
    have hFrontAgain := hAgain qs hQs (by simp [hSplit])
    have hBackAgain := hAgain rs hRs
      (by
        rw [hSplit]
        exact List.subset_append_of_subset_right _
          (List.subset_cons_self _ _))
    refine
      ⟨[':'].intercalate qs, [':'].intercalate rs, ?_, ?_, ?_⟩
    · rw [← Text.join_splitAll ':' cs, hSplit,
        ← Text.join_splitAll ':'
          ([':'].intercalate qs ++
            ':' :: ':' :: [':'].intercalate rs),
        hGap, hFrontAgain, hBackAgain]
    · rw [hFrontAgain, hFront]
    · rw [hBackAgain, hBack]
  · rintro ⟨front, back, rfl, hFront, hBack⟩
    rw [hGap]
    refine row?_append (by simp) hFront ?_
    rw [row?_cons (.inr (Text.splitAll_ne_nil _ _)), hBack,
      piece?_eq_none_iff.2 rfl]
    rfl

/- Exactly the texts of the grammar are read. -/
theorem isSome_ofChars?_iff :
    (ofChars? cs).isSome = true ↔ IsSix cs := by
  rw [Option.isSome_iff_exists]
  constructor
  · rintro ⟨a, hRead⟩
    have hEight : a.groups.toList.length = 8 := by simp
    rcases ofChars?_eq_some_iff.1 hRead with
      ⟨xs, hRow, hExpand⟩
    rcases expand?_eq_some_iff.1 hExpand with
      rfl | ⟨high, low, rfl, hFew, _⟩
    · have hGroups :=
        groups_of_row? (Text.splitAll_ne_nil ':' cs) hRow
      rw [Text.join_splitAll, hEight] at hGroups
      exact .inl hGroups
    · rcases row?_sides_iff.1 hRow with
        ⟨front, back, hText, hFront, hBack⟩
      exact .inr ⟨_, _, front, back,
        side_iff.2 ⟨high, rfl, hFront⟩,
        side_iff.2 ⟨low, rfl, hBack⟩, hFew, hText⟩
  · have hRead :
        ∀ xs gs,
          row? true (Text.splitAll ':' cs) = some xs →
          expand? xs = some gs → gs.length = 8 →
          ∃ a, ofChars? cs = some a := by
      intro xs gs hRow hExpand hEight
      exact ⟨⟨⟨gs.toArray, hEight⟩⟩,
        ofChars?_eq_some_iff.2 ⟨xs, hRow, hExpand⟩⟩
    rintro (hGroups | ⟨m, n, front, back, hFront, hBack, hFew,
      hText⟩)
    · rcases row?_of_groups hGroups with ⟨gs, hEight, hRow⟩
      exact hRead _ gs hRow
        (expand?_eq_some_iff.2 (.inl rfl)) hEight
    · rcases side_iff.1 hFront with ⟨high, rfl, hHigh⟩
      rcases side_iff.1 hBack with ⟨low, rfl, hLow⟩
      refine hRead _ _
        (row?_sides_iff.2 ⟨front, back, hText, hHigh, hLow⟩)
        (expand?_eq_some_iff.2
          (.inr ⟨high, low, rfl, hFew, rfl⟩)) ?_
      simp only [List.length_append, List.length_replicate]
      omega

end Ipv6

end Net

end LocalCert
