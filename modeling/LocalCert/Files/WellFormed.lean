import LocalCert.Files.Content

/-
  Well-formed file trees: no location twice, and everything
  stands in a directory that is there.  Contents that stay
  beside the file they are written with.

  Key definitions include:
    * `Files.Tree.WellFormed`
    * `Files.Tree.SameOutside`
    * `Files.IsPlainName`
-/

------------------------------------------------------------
-- Trees
------------------------------------------------------------

namespace LocalCert

namespace Files

namespace Tree

/- The locations of a tree, in the order of its nodes. -/
def locations
    (t : Tree) : List Location :=
  t.nodes.map Prod.fst

/- Whether a location is that of a directory. -/
def HasDirectory
    (t : Tree)
    (l : Location) : Prop :=
  (t.at? l).any Node.isDirectory = true

instance
    (t : Tree)
    (l : Location) :
    Decidable (t.HasDirectory l) := by
  unfold HasDirectory
  infer_instance

/-
  No location occurs twice, the root directory is not among
  the nodes, and each node stands in a directory.
-/
def WellFormed
    (t : Tree) : Prop :=
  t.locations.Nodup ∧
    ∀ l ∈ t.locations,
      l ≠ [] ∧ t.HasDirectory l.dropLast

instance
    (t : Tree) :
    Decidable t.WellFormed := by
  unfold WellFormed
  infer_instance

/-
  Whether two trees agree at every location that is not the
  given one and does not lie below it.
-/
def SameOutside
    (l : Location)
    (t u : Tree) : Prop :=
  ∀ m, l.isPrefixOf m = false → t.at? m = u.at? m

end Tree

------------------------------------------------------------
-- Names
------------------------------------------------------------

/-
  A name whose parts go down only: it does not start at the
  root and has no double dots, so that what is written under
  it stays in its directory.
-/
def IsPlainName
    (name : String) : Prop :=
  let path := Path.ofText name
  path.root = .relative ∧ path.parts ≠ [] ∧
    ".." ∉ path.parts

instance
    (name : String) :
    Decidable (IsPlainName name) := by
  unfold IsPlainName
  infer_instance

end Files

end LocalCert
