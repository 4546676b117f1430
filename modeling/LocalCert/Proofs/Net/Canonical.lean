import LocalCert.Proofs.Net.Literals

/-
  The canonical text of an address of eight groups.  The
  first of the longest runs of zeros is left out if it has
  two groups or more; there is one such text for every
  address, and it is read back as the address.

  Main declarations:
    * `Net.Ipv6.ZeroRun`
    * `Net.Ipv6.LongestRun`
    * `Net.Ipv6.longestRun_longestZeros`
    * `Net.Ipv6.IsCanonical`
    * `Net.Ipv6.isCanonical_iff`
    * `Net.Ipv6.ofChars?_text`
    * `Net.Address.ofText?_six_text`
    * `Net.Address.four_or_six_of_ofText?`
-/

------------------------------------------------------------
-- Runs Of Zeros
------------------------------------------------------------

namespace LocalCert

namespace Net

namespace Ipv6

variable {gs : List UInt16}
variable {start run : Nat}

/- From a place on, so many groups are zero. -/
def ZeroRun
    (gs : List UInt16)
    (start run : Nat) : Prop :=
  ∀ i < run, gs[start + i]? = some 0

/- No run of zeros is longer, and none as long is before. -/
structure LongestRun
    (gs : List UInt16)
    (start run : Nat) : Prop where
  zeros : ZeroRun gs start run
  longest : ∀ s r, ZeroRun gs s r → r ≤ run
  first : ∀ s, ZeroRun gs s run → start ≤ s

theorem LongestRun.unique
    {s r : Nat}
    (hRun : LongestRun gs start run)
    (hOther : LongestRun gs s r) :
    start = s ∧ run = r := by
  have hSame : run = r :=
    Nat.le_antisymm (hOther.longest _ _ hRun.zeros)
      (hRun.longest _ _ hOther.zeros)
  subst hSame
  exact ⟨Nat.le_antisymm (hRun.first _ hOther.zeros)
    (hOther.first _ hRun.zeros), rfl⟩

theorem le_leadingZeros_iff :
    run ≤ leadingZeros gs ↔ ∀ i < run, gs[i]? = some 0 := by
  induction gs generalizing run with
  | nil =>
      cases run with
      | zero => simp
      | succ run =>
          simp only [leadingZeros, List.takeWhile_nil,
            List.length_nil, List.getElem?_nil]
          constructor
          · omega
          · intro hZeros
            cases hZeros 0 (by omega)
  | cons g gs ih =>
      cases run with
      | zero => simp
      | succ run =>
          by_cases hZero : g = 0
          · have hNext :
                leadingZeros (g :: gs) =
                  leadingZeros gs + 1 := by
              simp [leadingZeros, hZero]
            rw [hNext, Nat.add_le_add_iff_right, ih]
            constructor
            · intro hZeros i hi
              cases i with
              | zero => simp [hZero]
              | succ i => exact hZeros i (by omega)
            · intro hZeros i hi
              exact hZeros (i + 1) (by omega)
          · have hNone : leadingZeros (g :: gs) = 0 := by
              simp [leadingZeros, hZero]
            rw [hNone]
            constructor
            · omega
            · intro hZeros
              have hFirst := hZeros 0 (by omega)
              exact (hZero (Option.some.inj hFirst)).elim

theorem zeroRun_iff :
    ZeroRun gs start run ↔
      run ≤ leadingZeros (gs.drop start) := by
  simp only [ZeroRun, le_leadingZeros_iff,
    List.getElem?_drop]

/- A run that is not empty ends inside. -/
theorem ZeroRun.le_length
    (hZeros : ZeroRun gs start run)
    (hSome : 0 < run) :
    start + run ≤ gs.length := by
  have hLast := hZeros (run - 1) (by omega)
  have hInside :=
    (List.getElem?_eq_some_iff.mp hLast).choose
  omega

/- A run stands between what is before and behind it. -/
theorem ZeroRun.parts
    (hZeros : ZeroRun gs start run)
    (hInside : start + run ≤ gs.length) :
    gs.take start ++ List.replicate run 0 ++
        gs.drop (start + run) =
      gs := by
  have hRun :
      (gs.drop start).take run = List.replicate run 0 := by
    rw [List.eq_replicate_iff]
    refine ⟨by simp; omega, ?_⟩
    intro g hg
    rcases List.mem_iff_getElem?.mp hg with ⟨i, hi⟩
    rw [List.getElem?_take] at hi
    split at hi
    · next hShort =>
        rw [List.getElem?_drop, hZeros i hShort] at hi
        exact (Option.some.inj hi).symm
    · cases hi
  rw [← hRun, List.append_assoc, ← List.drop_drop,
    List.take_append_drop, List.take_append_drop]

/-
  The search keeps the first of the longest runs that begin
  at the places it has seen; the induction is on how many of
  them there are.
-/
theorem longestRun_longestZeros
    (gs : List UInt16) :
    LongestRun gs (longestZeros gs).1
      (longestZeros gs).2 := by
  let step := fun (best : Nat × Nat) (i : Nat) =>
    if best.2 < leadingZeros (gs.drop i) then
      (i, leadingZeros (gs.drop i))
    else
      best
  have hSeen :
      ∀ n,
        let best := (List.range n).foldl step (0, 0)
        best.1 ≤ n ∧ ZeroRun gs best.1 best.2 ∧
          (∀ s < n, ∀ r, ZeroRun gs s r → r ≤ best.2) ∧
          ∀ s < n, ZeroRun gs s best.2 → best.1 ≤ s := by
    intro n
    induction n with
    | zero => simp [ZeroRun]
    | succ n ih =>
        rw [List.range_succ, List.foldl_append,
          List.foldl_cons, List.foldl_nil]
        generalize (List.range n).foldl step (0, 0) = best
          at ih
        rcases ih with ⟨hPlace, hZeros, hLongest, hFirst⟩
        have hHere :
            ∀ r, ZeroRun gs n r →
              r ≤ leadingZeros (gs.drop n) :=
          fun r hRun => zeroRun_iff.mp hRun
        by_cases hLonger :
            best.2 < leadingZeros (gs.drop n)
        · simp only [step, hLonger, if_true]
          refine ⟨by omega, zeroRun_iff.mpr (Nat.le_refl _),
            ?_, ?_⟩
          · intro s hs r hRun
            by_cases hLast : s = n
            · subst hLast
              exact hHere r hRun
            · have hOld := hLongest s (by omega) r hRun
              omega
          · intro s hs hRun
            by_cases hLast : s = n
            · omega
            · have hOld := hLongest s (by omega) _ hRun
              omega
        · simp only [step, hLonger, if_false]
          refine ⟨by omega, hZeros, ?_, ?_⟩
          · intro s hs r hRun
            by_cases hLast : s = n
            · subst hLast
              have hNew := hHere r hRun
              omega
            · exact hLongest s (by omega) r hRun
          · intro s hs hRun
            by_cases hLast : s = n
            · omega
            · exact hFirst s (by omega) hRun
  rcases hSeen gs.length with
    ⟨hPlace, hZeros, hLongest, hFirst⟩
  refine ⟨hZeros, ?_, ?_⟩
  · intro s r hRun
    by_cases hInside : s < gs.length
    · exact hLongest s hInside r hRun
    · by_cases hSome : 0 < r
      · have hEnd := hRun.le_length hSome
        omega
      · omega
  · intro s hRun
    by_cases hInside : s < gs.length
    · exact hFirst s hInside hRun
    · exact Nat.le_trans hPlace (Nat.not_lt.mp hInside)

------------------------------------------------------------
-- Canonical Texts
------------------------------------------------------------

/-
  All groups, each in its shortest form; or the groups
  around the longest run, which has at least two.
-/
def IsCanonical
    (gs : List UInt16)
    (s : String) : Prop :=
  ∃ start run,
    LongestRun gs start run ∧
      ((run < 2 ∧ s = groupsText gs) ∨
        (2 ≤ run ∧
          s = groupsText (gs.take start) ++ "::" ++
            groupsText (gs.drop (start + run))))

/- Each address has this one canonical text. -/
theorem isCanonical_iff
    {a : Ipv6}
    {s : String} :
    IsCanonical a.groups.toList s ↔ s = a.text := by
  have hLongest := longestRun_longestZeros a.groups.toList
  unfold text
  simp only
  constructor
  · rintro ⟨start, run, hRun, hText⟩
    rcases hRun.unique hLongest with ⟨rfl, rfl⟩
    rcases hText with ⟨hShort, rfl⟩ | ⟨hLong, rfl⟩
    · rw [if_pos hShort]
    · rw [if_neg (Nat.not_lt.mpr hLong)]
  · rintro rfl
    refine ⟨_, _, hLongest, ?_⟩
    split
    · next hShort => exact .inl ⟨hShort, rfl⟩
    · next hLong => exact .inr ⟨Nat.not_lt.mp hLong, rfl⟩

------------------------------------------------------------
-- Reading Back
------------------------------------------------------------

/- Groups in their shortest form read as themselves. -/
theorem row?_digits
    (dottedEnd : Bool)
    (gs : List UInt16) :
    row? dottedEnd
        (gs.map (fun g => Nat.toDigits 16 g.toNat)) =
      some (gs.map some) := by
  have hPiece :
      ∀ g : UInt16,
        piece? (Nat.toDigits 16 g.toNat) = some (some g) :=
    fun g => piece?_eq_some_iff.mpr (group?_toDigits g)
  induction gs with
  | nil => exact row?_nil
  | cons g gs ih =>
      rw [List.map_cons, List.map_cons]
      by_cases hLast : gs = []
      · subst hLast
        exact row?_singleton_iff.mpr
          (.inl ⟨_, hPiece g, rfl⟩)
      · rw [row?_cons (.inr (by simpa using hLast)),
          hPiece, ih]
        rfl

/- The text of some groups, or of none, is a side. -/
theorem row?_groupsText
    (dottedEnd : Bool)
    (gs : List UInt16) :
    row? dottedEnd
        (Text.splitAll ':' (groupsText gs).toList) =
      some (sideRow gs) := by
  by_cases hNone : gs = []
  · subst hNone
    exact row?_singleton_iff.mpr
      (.inl ⟨none, piece?_eq_none_iff.mpr rfl, rfl⟩)
  · have hFree :
        ∀ s ∈ gs.map
            (fun g =>
              String.ofList (Nat.toDigits 16 g.toNat)),
          ':' ∉ s.toList := by
      intro s hs
      rcases List.mem_map.mp hs with ⟨g, _, rfl⟩
      have hGroup : IsGroup (Nat.toDigits 16 g.toNat) :=
        isSome_group?_iff.mp (by rw [group?_toDigits]; rfl)
      rw [String.toList_ofList]
      exact hGroup.not_mem (by decide)
    have hSplit :=
      Text.splitAll_joinWith (by simpa using hNone) hFree
    have hColon : String.singleton ':' = ":" := by decide
    rw [hColon, List.map_map] at hSplit
    have hSide : sideRow gs = gs.map some := by
      simp [sideRow, hNone]
    rw [groupsText, hSplit, hSide, ← row?_digits dottedEnd]
    simp [Function.comp_def]

/- The canonical text is read back as its address. -/
theorem ofChars?_text
    (a : Ipv6) :
    ofChars? a.text.toList = some a := by
  have hEight : a.groups.toList.length = 8 := by simp
  rw [ofChars?_eq_some_iff]
  rcases isCanonical_iff.mpr (rfl : a.text = a.text) with
    ⟨start, run, hRun, ⟨_, hText⟩ | ⟨hLong, hText⟩⟩
  · refine ⟨_, ?_, expand?_eq_some_iff.mpr (.inl rfl)⟩
    have hSome : a.groups.toList ≠ [] := by
      rw [← List.length_pos_iff]
      omega
    rw [hText, row?_groupsText]
    simp [sideRow, hSome]
  · have hInside := hRun.zeros.le_length (by omega)
    let high := a.groups.toList.take start
    let low := a.groups.toList.drop (start + run)
    have hHigh : high.length = start := by
      simp only [high, List.length_take]
      omega
    have hLow : low.length = 8 - (start + run) := by
      simp only [low, List.length_drop]
      omega
    have hGap : 8 - (high.length + low.length) = run := by
      omega
    refine ⟨sideRow high ++ none :: sideRow low,
      row?_sides_iff.mpr
        ⟨(groupsText high).toList, (groupsText low).toList,
          ?_, row?_groupsText _ high,
          row?_groupsText _ low⟩,
      expand?_eq_some_iff.mpr
        (.inr ⟨high, low, rfl, by omega, ?_⟩)⟩
    · rw [hText]
      simp [high, low]
    · rw [hGap]
      exact hRun.zeros.parts hInside

end Ipv6

------------------------------------------------------------
-- Addresses
------------------------------------------------------------

theorem IsSix.colon_mem
    {cs : List Char}
    (hSix : IsSix cs) :
    ':' ∈ cs := by
  rcases hSix with hGroups | ⟨m, n, high, low, _, _, _, rfl⟩
  · cases hGroups
    simp
  · simp

/- No text is read as addresses of both versions. -/
theorem IsSix.not_isFour
    {cs : List Char}
    (hSix : IsSix cs) :
    ¬ IsFour cs :=
  fun hFour =>
    hFour.not_mem (by decide) (by decide) hSix.colon_mem

namespace Address

/- Eight groups are an address without a zone. -/
theorem ofText?_eq_six
    {s : String}
    {a : Ipv6}
    (hRead : Ipv6.ofChars? s.toList = some a) :
    ofText? s = some (.six a none) := by
  have hSix : IsSix s.toList :=
    Ipv6.isSome_ofChars?_iff.mp (by rw [hRead]; rfl)
  have hFour : Ipv4.ofChars? s.toList = none := by
    rw [← Option.not_isSome_iff_eq_none,
      Ipv4.isSome_ofChars?_iff]
    exact hSix.not_isFour
  have hSlash : '/' ∉ s.toList :=
    hSix.not_mem (by decide) (by decide) (by decide)
  simp [ofText?, hFour, sixOfChars?, hSlash, hRead,
    Text.splitFirst?_of_not_mem hSix.percent_not_mem]

/- The text of an address of either version is read back. -/
theorem ofText?_six_text
    (a : Ipv6) :
    ofText? a.text = some (.six a none) :=
  ofText?_eq_six (Ipv6.ofChars?_text a)

theorem ofText?_four_text
    (a : Ipv4) :
    ofText? a.text = some (.four a) := by
  rw [ofText?, Ipv4.ofChars?_text]

/-
  Without a percent sign an address is four octets, which
  have no other text, or eight groups without a zone.
-/
theorem four_or_six_of_ofText?
    {s : String}
    {address : Address}
    (hPercent : '%' ∉ s.toList)
    (hRead : ofText? s = some address) :
    (∃ a, address = .four a ∧ a.text = s) ∨
      ∃ a, address = .six a none := by
  unfold ofText? at hRead
  split at hRead
  · next a hFour =>
      cases hRead
      exact .inl ⟨a, rfl, String.toList_inj.mp
        (Ipv4.text_of_ofChars? hFour)⟩
  · simp only [sixOfChars?,
      Text.splitFirst?_of_not_mem hPercent] at hRead
    split at hRead
    · cases hRead
    · rcases Option.map_eq_some_iff.mp hRead with
        ⟨a, _, rfl⟩
      exact .inr ⟨a, rfl⟩

end Address

end Net

end LocalCert
