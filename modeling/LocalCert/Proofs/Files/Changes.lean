import LocalCert.Proofs.Files.Nodes
import Mathlib.Logic.Relation

/-
  The changes that file operations are made of, each at one
  location, and what any number of them keep: a well-formed
  tree stays well-formed, and changes below a location are
  cut away with it.

  Main declarations:
    * `Files.Tree.Change`
    * `Files.Tree.Evolves`
    * `Files.Tree.Evolves.wellFormed`
    * `Files.Tree.Evolves.cut_eq`
-/

------------------------------------------------------------
-- Single Changes
------------------------------------------------------------

namespace LocalCert

namespace Files

namespace Tree

/-
  One change at a location: something new is made there, a
  node gives way to one of its kind, or the location is cut
  or cleared.
-/
inductive Change
    (m : Location)
    (t : Tree) : Tree → Prop where
  | make (node : Node)
      (hFree : t.at? m = none)
      (hDirectory : t.HasDirectory m.dropLast) :
      Change m t (t.put m node)
  | alter (old node : Node)
      (hThere : m ∈ t.locations)
      (hOld : t.at? m = some old)
      (hKind : node.isDirectory = old.isDirectory) :
      Change m t (t.put m node)
  | cut : Change m t (t.cut m)
  | clear : Change m t (t.cutBelow m)

variable {t u : Tree}
variable {l m : Location}

/- What stands as before is a directory as before. -/
theorem HasDirectory.of_at?_eq
    (hDirectory : t.HasDirectory m)
    (hNode : u.at? m = t.at? m) :
    u.HasDirectory m := by
  unfold HasDirectory at hDirectory ⊢
  rw [hNode]
  exact hDirectory

/- No location below the root directory is the one above. -/
theorem dropLast_ne_self
    (hBelow : m ≠ []) :
    m.dropLast ≠ m := by
  intro hSame
  have hLength := congrArg List.length hSame
  have hPos := List.length_pos_iff.mpr hBelow
  rw [List.length_dropLast] at hLength
  omega

/- Making something new keeps directories. -/
theorem HasDirectory.put_free
    {node : Node}
    (hFree : t.at? l = none)
    (hDirectory : t.HasDirectory m) :
    (t.put l node).HasDirectory m := by
  have hOther : m ≠ l := by
    rintro rfl
    exact hDirectory.at?_ne_none hFree
  refine hDirectory.of_at?_eq ?_
  rw [at?_put (ne_nil_of_at?_eq_none hFree), if_neg hOther]

/- A node of the same kind keeps directories. -/
theorem HasDirectory.put_kind
    {old node : Node}
    (hBelow : l ≠ [])
    (hOld : t.at? l = some old)
    (hKind : node.isDirectory = old.isDirectory)
    (hDirectory : t.HasDirectory m) :
    (t.put l node).HasDirectory m := by
  by_cases hSame : m = l
  · subst hSame
    unfold HasDirectory at hDirectory ⊢
    rw [hOld] at hDirectory
    rw [at?_put hBelow, if_pos rfl]
    simpa [hKind] using hDirectory
  · refine hDirectory.of_at?_eq ?_
    rw [at?_put hBelow, if_neg hSame]

/- Well-formed trees with some locations left out. -/
theorem WellFormed.filter
    {keeps : Location → Bool}
    (hTree : t.WellFormed)
    (hLocations : u.locations = t.locations.filter keeps)
    (hNodes :
      ∀ m ∈ u.locations, u.at? m.dropLast = t.at? m.dropLast) :
    u.WellFormed := by
  refine ⟨?_, ?_⟩
  · rw [hLocations]
    exact hTree.1.filter _
  · intro m hm
    have hMember : m ∈ t.locations := by
      rw [hLocations] at hm
      exact (List.mem_filter.mp hm).1
    rcases hTree.2 m hMember with ⟨hBelow, hDirectory⟩
    exact ⟨hBelow, hDirectory.of_at?_eq (hNodes m hm)⟩

/- Each change keeps trees well-formed. -/
theorem Change.wellFormed
    (hChange : Change m t u)
    (hTree : t.WellFormed) :
    u.WellFormed := by
  cases hChange with
  | make node hFree hDirectory =>
      have hBelow := ne_nil_of_at?_eq_none hFree
      have hNew := (at?_eq_none_iff hBelow).mp hFree
      have hLocations :
          (t.put m node).locations =
            t.locations ++ [m] := by
        rw [locations_put, if_neg hNew]
      refine ⟨?_, ?_⟩
      · rw [hLocations, List.nodup_append]
        refine ⟨hTree.1, by simp, ?_⟩
        rintro k hk _ hSame rfl
        rw [List.mem_singleton.mp hSame] at hk
        exact hNew hk
      · intro k hk
        rw [hLocations, List.mem_append,
          List.mem_singleton] at hk
        rcases hk with hk | rfl
        · rcases hTree.2 k hk with ⟨hRoot, hAbove⟩
          exact ⟨hRoot, hAbove.put_free hFree⟩
        · exact ⟨hBelow, hDirectory.put_free hFree⟩
  | alter old node hThere hOld hKind =>
      have hBelow := (hTree.2 m hThere).1
      have hLocations :
          (t.put m node).locations = t.locations := by
        rw [locations_put, if_pos hThere]
      refine ⟨?_, ?_⟩
      · rw [hLocations]
        exact hTree.1
      · intro k hk
        rw [hLocations] at hk
        rcases hTree.2 k hk with ⟨hRoot, hAbove⟩
        exact ⟨hRoot, hAbove.put_kind hBelow hOld hKind⟩
  | cut =>
      by_cases hRoot : m = []
      · subst hRoot
        refine hTree.filter locations_cut ?_
        intro k hk
        rw [locations_cut] at hk
        simp at hk
      · refine hTree.filter locations_cut ?_
        intro k hk
        have hOutside : ¬ m <+: k := by
          rw [locations_cut] at hk
          simpa [isPrefixOf_eq_false_iff] using
            (List.mem_filter.mp hk).2
        have hAbove : ¬ m <+: k.dropLast := by
          intro hPrefix
          exact hOutside
            (hPrefix.trans (List.dropLast_prefix k))
        rw [at?_cut hRoot, if_neg hAbove]
  | clear =>
      refine hTree.filter locations_cutBelow ?_
      intro k hk
      have hMember : k ∈ t.locations := by
        rw [locations_cutBelow] at hk
        exact (List.mem_filter.mp hk).1
      have hRoot := (hTree.2 k hMember).1
      have hKept : k = m ∨ ¬ m <+: k := by
        rw [locations_cutBelow] at hk
        simpa [isPrefixOf_eq_false_iff] using
          (List.mem_filter.mp hk).2
      have hAbove : ¬ (m <+: k.dropLast ∧ k.dropLast ≠ m) := by
        rintro ⟨hPrefix, hOther⟩
        rcases hKept with rfl | hOutside
        · exact dropLast_ne_self hRoot
            ((List.dropLast_prefix k).eq_of_length_le
              hPrefix.length_le)
        · exact hOutside
            (hPrefix.trans (List.dropLast_prefix k))
      rw [at?_cutBelow, if_neg hAbove]

/- Each change below a location is cut away with it. -/
theorem Change.cut_eq
    (hChange : Change m t u)
    (hAbove : l <+: m) :
    u.cut l = t.cut l := by
  cases hChange with
  | make node => exact cut_put hAbove
  | alter old node => exact cut_put hAbove
  | cut => exact cut_cut hAbove
  | clear => exact cut_cutBelow hAbove

------------------------------------------------------------
-- Any Number Of Changes
------------------------------------------------------------

/- Any number of changes, at locations of some sort. -/
def Evolves
    (P : Location → Prop) : Tree → Tree → Prop :=
  Relation.ReflTransGen (fun t u => ∃ m, P m ∧ Change m t u)

namespace Evolves

variable {P : Location → Prop}

theorem refl
    (t : Tree) :
    Evolves P t t :=
  Relation.ReflTransGen.refl

theorem trans
    {v : Tree}
    (hFirst : Evolves P t u)
    (hNext : Evolves P u v) :
    Evolves P t v :=
  Relation.ReflTransGen.trans hFirst hNext

instance : IsPreorder Tree (Evolves P) where
  refl := refl
  trans _ _ _ := trans

theorem single
    (hHere : P m)
    (hChange : Change m t u) :
    Evolves P t u :=
  Relation.ReflTransGen.single ⟨m, hHere, hChange⟩

/- Well-formed trees evolve into well-formed ones. -/
theorem wellFormed
    (hEvolves : Evolves P t u)
    (hTree : t.WellFormed) :
    u.WellFormed := by
  induction hEvolves with
  | refl => exact hTree
  | tail _ hLast ih =>
      rcases hLast with ⟨m, _, hChange⟩
      exact hChange.wellFormed ih

/- What evolves below a location is cut away with it. -/
theorem cut_eq
    (hEvolves : Evolves (l <+: ·) t u) :
    u.cut l = t.cut l := by
  induction hEvolves with
  | refl => rfl
  | tail _ hLast ih =>
      rcases hLast with ⟨m, hAbove, hChange⟩
      exact (hChange.cut_eq hAbove).trans ih

end Evolves

end Tree

end Files

end LocalCert
