import LocalCert.Files.WellFormed
import Mathlib.Data.List.Induction
import Mathlib.Tactic.ByContra

/-
  What putting a node and cutting a location do to a file
  tree: to its locations, to what stands at each of them,
  and to what is left when a location above is cut.

  Main declarations:
    * `Files.Tree.at?_put`
    * `Files.Tree.at?_cut`
    * `Files.Tree.cut_put`
    * `Files.Tree.WellFormed.cut_eq_self`
-/

------------------------------------------------------------
-- Locations
------------------------------------------------------------

namespace LocalCert

namespace Files

namespace Tree

variable {t : Tree}
variable {l m : Location}
variable {node : Node}

@[simp] theorem at?_nil
    (t : Tree) :
    t.at? [] = some (.directory 0o755) := rfl

/- Below the root directory, the nodes are looked through. -/
theorem at?_of_ne_nil
    (hBelow : l ≠ []) :
    t.at? l =
      (t.nodes.find? (fun n => n.1 == l)).map
        Prod.snd := by
  simp [at?, hBelow]

/- Nothing stands where no node is, and only there. -/
theorem at?_eq_none_iff
    (hBelow : l ≠ []) :
    t.at? l = none ↔ l ∉ t.locations := by
  rw [at?_of_ne_nil hBelow]
  simp only [locations, Option.map_eq_none_iff,
    List.find?_eq_none, List.mem_map, beq_iff_eq,
    not_exists, not_and]

/- A free location is not that of the root directory. -/
theorem ne_nil_of_at?_eq_none
    (hFree : t.at? l = none) :
    l ≠ [] := by
  rintro rfl
  simp at hFree

/- A file is not the root directory. -/
theorem ne_nil_of_at?_eq_file
    {mode : Nat}
    {bytes : List UInt8}
    (hFile : t.at? l = some (.file mode bytes)) :
    l ≠ [] := by
  rintro rfl
  simp at hFile

/- A file is one of the nodes. -/
theorem mem_locations_of_at?_eq_file
    {mode : Nat}
    {bytes : List UInt8}
    (hFile : t.at? l = some (.file mode bytes)) :
    l ∈ t.locations := by
  have hBelow := ne_nil_of_at?_eq_file hFile
  by_contra hFree
  rw [(at?_eq_none_iff hBelow).mpr hFree] at hFile
  cases hFile

theorem occupied_iff :
    t.occupied l = true ↔ l ∈ t.locations := by
  simp only [occupied, locations, List.any_eq_true,
    List.mem_map, beq_iff_eq]

/- Directories are what stands as one. -/
theorem hasDirectory_iff :
    t.HasDirectory l ↔
      ∃ mode, t.at? l = some (.directory mode) := by
  unfold HasDirectory
  cases hNode : t.at? l with
  | none => simp
  | some node =>
      cases node <;> simp [Node.isDirectory]

/- A directory is not free. -/
theorem HasDirectory.at?_ne_none
    (hDirectory : t.HasDirectory l) :
    t.at? l ≠ none := by
  rcases hasDirectory_iff.mp hDirectory with ⟨mode, hNode⟩
  simp [hNode]

/- Whoever may use a directory finds it there. -/
theorem hasDirectory_of_check
    {p : Permission}
    (hCheck : t.check p l = .ok ()) :
    t.HasDirectory l := by
  rw [hasDirectory_iff]
  unfold check at hCheck
  split at hCheck
  · cases hCheck
  · cases hCheck
  · exact ⟨_, ‹_›⟩

/- Whoever may make a name finds its directory there. -/
theorem hasDirectory_of_checkParent
    (hParent : t.checkParent l = .ok ()) :
    t.HasDirectory l.dropLast := by
  unfold checkParent at hParent
  split at hParent
  · cases hParent
  · exact hasDirectory_of_check hParent

------------------------------------------------------------
-- Putting
------------------------------------------------------------

theorem locations_put :
    (t.put l node).locations =
      if l ∈ t.locations then
        t.locations
      else
        t.locations ++ [l] := by
  by_cases hThere : l ∈ t.locations
  · rw [if_pos hThere, put,
      if_pos (occupied_iff.mpr hThere)]
    simp only [locations, List.map_map]
    refine List.map_congr_left ?_
    intro n _
    by_cases hHere : n.1 = l <;> simp [hHere]
  · rw [if_neg hThere, put,
      if_neg (mt occupied_iff.mp hThere)]
    simp [locations]

/- The node that was put, and the others as they were. -/
theorem at?_put
    (hBelow : l ≠ []) :
    (t.put l node).at? m =
      if m = l then some node else t.at? m := by
  by_cases hRoot : m = []
  · subst hRoot
    simp [Ne.symm hBelow]
  rw [at?_of_ne_nil hRoot, at?_of_ne_nil hRoot]
  by_cases hThere : l ∈ t.locations
  · rw [put, if_pos (occupied_iff.mpr hThere)]
    have hKeeps :
        ((fun n : Location × Node => n.1 == m) ∘
            fun n => if n.1 == l then (l, node) else n) =
          fun n => n.1 == m := by
      funext n
      by_cases hHere : n.1 = l <;> simp [hHere]
    rw [List.find?_map, hKeeps]
    cases hFind : t.nodes.find? (fun n => n.1 == m) with
    | none =>
        have hOther : m ≠ l := by
          rintro rfl
          simp only [List.find?_eq_none, beq_iff_eq] at hFind
          rcases List.mem_map.mp hThere with ⟨n, hn, hHere⟩
          exact hFind n hn hHere
        simp [hOther]
    | some n =>
        have hHere : n.1 = m := by
          simpa using List.find?_some hFind
        by_cases hSame : m = l <;> simp [hHere, hSame]
  · rw [put, if_neg (mt occupied_iff.mp hThere),
      List.find?_append]
    by_cases hSame : m = l
    · subst hSame
      have hNone :=
        (at?_eq_none_iff hBelow).mpr hThere
      rw [at?_of_ne_nil hBelow,
        Option.map_eq_none_iff] at hNone
      simp [hNone]
    · simp [hSame, Ne.symm hSame]

/- A node that is put below a cut is cut away. -/
theorem cut_put
    (hAbove : l <+: m) :
    (t.put m node).cut l = t.cut l := by
  have hCut : l.isPrefixOf m = true :=
    List.isPrefixOf_iff_prefix.mpr hAbove
  unfold put
  split
  · have hKeeps :
        ((fun n : Location × Node => !l.isPrefixOf n.1) ∘
            fun n => if n.1 == m then (m, node) else n) =
          fun n => !l.isPrefixOf n.1 := by
      funext n
      by_cases hHere : n.1 = m <;> simp [hHere]
    simp only [cut, List.filter_map, Tree.mk.injEq, hKeeps]
    refine (List.map_congr_left ?_).trans (List.map_id _)
    intro n hn
    have hOther : n.1 ≠ m := by
      rintro hSame
      simp [hSame, hCut] at hn
    simp [hOther]
  · simp [cut, hCut]

------------------------------------------------------------
-- Cutting
------------------------------------------------------------

theorem isPrefixOf_eq_false_iff :
    l.isPrefixOf m = false ↔ ¬ l <+: m := by
  rw [Bool.eq_false_iff, ne_eq, List.isPrefixOf_iff_prefix]

theorem locations_cut :
    (t.cut l).locations =
      t.locations.filter (fun m => !l.isPrefixOf m) := by
  simp only [locations, cut, List.filter_map]
  rfl

theorem locations_cutBelow :
    (t.cutBelow l).locations =
      t.locations.filter
        (fun m => m == l || !l.isPrefixOf m) := by
  simp only [locations, cutBelow, List.filter_map]
  rfl

/- Leaving out locations leaves the others as they were. -/
theorem at?_filter
    (keeps : Location → Bool)
    (hBelow : m ≠ []) :
    (Tree.mk
        (t.nodes.filter (fun n => keeps n.1))).at? m =
      if keeps m then t.at? m else none := by
  rw [at?_of_ne_nil hBelow, at?_of_ne_nil hBelow,
    List.find?_filter]
  have hBoth :
      (fun n : Location × Node =>
          decide (keeps n.1 = true ∧ (n.1 == m) = true)) =
        fun n => keeps m && n.1 == m := by
    funext n
    by_cases hHere : n.1 = m <;> simp [hHere]
  rw [hBoth]
  cases hKeeps : keeps m <;> simp

/- Nothing stands below a cut, and the rest is as it was. -/
theorem at?_cut
    (hBelow : l ≠ []) :
    (t.cut l).at? m =
      if l <+: m then none else t.at? m := by
  by_cases hRoot : m = []
  · subst hRoot
    simp [hBelow]
  · rw [cut, at?_filter (fun n => !l.isPrefixOf n) hRoot]
    by_cases hAbove : l <+: m
    · simp [hAbove, List.isPrefixOf_iff_prefix.mpr hAbove]
    · simp [hAbove, isPrefixOf_eq_false_iff.mpr hAbove]

/- A cut below a location leaves the location. -/
theorem at?_cutBelow :
    (t.cutBelow l).at? m =
      if l <+: m ∧ m ≠ l then none else t.at? m := by
  by_cases hRoot : m = []
  · subst hRoot
    cases l <;> simp
  · rw [cutBelow,
      at?_filter (fun n => n == l || !l.isPrefixOf n) hRoot]
    by_cases hSame : m = l
    · simp [hSame]
    · by_cases hAbove : l <+: m
      · simp [hSame, hAbove,
          List.isPrefixOf_iff_prefix.mpr hAbove]
      · simp [hAbove, isPrefixOf_eq_false_iff.mpr hAbove]

/- A cut below another one is part of it. -/
theorem cut_cut
    (hAbove : l <+: m) :
    (t.cut m).cut l = t.cut l := by
  simp only [cut, List.filter_filter, Tree.mk.injEq]
  refine List.filter_congr ?_
  intro n _
  by_cases hCut : l <+: n.1
  · simp [List.isPrefixOf_iff_prefix.mpr hCut]
  · have hOther : ¬ m <+: n.1 := by
      intro hBelow
      exact hCut (hAbove.trans hBelow)
    simp [isPrefixOf_eq_false_iff.mpr hOther]

theorem cut_cutBelow
    (hAbove : l <+: m) :
    (t.cutBelow m).cut l = t.cut l := by
  simp only [cut, cutBelow, List.filter_filter,
    Tree.mk.injEq]
  refine List.filter_congr ?_
  intro n _
  by_cases hCut : l <+: n.1
  · simp [List.isPrefixOf_iff_prefix.mpr hCut]
  · have hOther : ¬ m <+: n.1 := by
      intro hBelow
      exact hCut (hAbove.trans hBelow)
    simp [isPrefixOf_eq_false_iff.mpr hOther]

/- Trees that are the same after a cut agree outside it. -/
theorem at?_eq_of_cut_eq
    {u : Tree}
    (hBelow : l ≠ [])
    (hCut : t.cut l = u.cut l)
    (hOutside : ¬ l <+: m) :
    t.at? m = u.at? m := by
  have hNode := congrArg (fun v => v.at? m) hCut
  simpa [at?_cut hBelow, hOutside] using hNode

------------------------------------------------------------
-- Well-Formed Trees
------------------------------------------------------------

/- What stands somewhere stands in a directory. -/
theorem WellFormed.hasDirectory_dropLast
    (hTree : t.WellFormed)
    (hThere : t.at? m ≠ none) :
    t.HasDirectory m.dropLast := by
  by_cases hRoot : m = []
  · subst hRoot
    simp [hasDirectory_iff]
  · have hMember : m ∈ t.locations := by
      by_contra hFree
      exact hThere ((at?_eq_none_iff hRoot).mpr hFree)
    exact (hTree.2 m hMember).2

/- Nothing stands below a free location. -/
theorem WellFormed.at?_eq_none_of_prefix
    (hTree : t.WellFormed)
    (hFree : t.at? l = none)
    (hAbove : l <+: m) :
    t.at? m = none := by
  induction m using List.reverseRecOn with
  | nil =>
      rw [List.prefix_nil.mp hAbove] at hFree
      exact hFree
  | append_singleton front name ih =>
      rcases List.prefix_concat_iff.mp hAbove with
        rfl | hFront
      · exact hFree
      · by_contra hThere
        have hDirectory := hTree.hasDirectory_dropLast hThere
        rw [List.dropLast_concat] at hDirectory
        exact hDirectory.at?_ne_none (ih hFront)

/- A cut at a free location takes nothing away. -/
theorem WellFormed.cut_eq_self
    (hTree : t.WellFormed)
    (hFree : t.at? l = none) :
    t.cut l = t := by
  rcases hNodes : t with ⟨nodes⟩
  simp only [cut, Tree.mk.injEq, List.filter_eq_self,
    Bool.not_eq_true', Bool.eq_false_iff, ne_eq,
    List.isPrefixOf_iff_prefix]
  intro n hn hAbove
  have hMember : n.1 ∈ t.locations := by
    rw [hNodes]
    exact List.mem_map_of_mem hn
  have hNone := hTree.at?_eq_none_of_prefix hFree hAbove
  have hBelow := (hTree.2 n.1 hMember).1
  exact (at?_eq_none_iff hBelow).mp hNone hMember

end Tree

end Files

end LocalCert
