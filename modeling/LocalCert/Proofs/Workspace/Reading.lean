import LocalCert.Proofs.Text.Newline
import LocalCert.Proofs.World.Actions
import LocalCert.Workspace

/-
  Reading the issued pair from a workspace.  It succeeds
  with the two texts that the files hold, if both hold one,
  and there is only one way in which it can fail.

  Main declarations:
    * `Files.Tree.HoldsText`
    * `Files.Tree.holdsText_iff`
    * `Workspace.readMaterial_eq_ok_iff`
    * `Workspace.kind_readMaterial`
-/

------------------------------------------------------------
-- Texts In Files
------------------------------------------------------------

namespace LocalCert

/-
  Whether a file can be read and holds the bytes of a text,
  which is given with one kind of line end.
-/
def Files.Tree.HoldsText
    (t : Tree)
    (cwd : Location)
    (path text : String) : Prop :=
  ∃ bytes cs,
    t.read cwd path = .ok bytes ∧
      Text.Utf8.decode bytes = .ok cs ∧
      text = String.ofList (Text.unifyNewlines cs)

/- What is read of a file, by the bytes of both. -/
theorem Files.Tree.holdsText_iff
    {t : Tree}
    {cwd : Location}
    {path text : String} :
    t.HoldsText cwd path text ↔
      ∃ bytes,
        t.read cwd path = .ok bytes ∧
          Text.Utf8.WellFormed bytes ∧
          Text.Utf8.encodeText text =
            Text.Utf8.unifyBytes bytes := by
  constructor
  · rintro ⟨bytes, cs, hRead, hDecode, rfl⟩
    have hBytes := Text.Utf8.decode_eq_ok_iff.mp hDecode
    refine ⟨bytes, hRead, ⟨cs, hBytes⟩, ?_⟩
    rw [Text.Utf8.encodeText, String.toList_ofList,
      Text.Utf8.encode_unifyNewlines, hBytes]
  · rintro ⟨bytes, hRead, ⟨cs, rfl⟩, hText⟩
    refine
      ⟨_, cs, hRead, Text.Utf8.decode_encode cs, ?_⟩
    rw [← Text.Utf8.encode_unifyNewlines] at hText
    rw [← Text.Utf8.encode_injective hText,
      String.ofList_toList]

namespace Workspace

variable {w : World}
variable {path : String}

theorem readText_eq_ok_iff
    {text : String}
    (hNul : hasNul path = false) :
    readText w path = .ok text ↔
      w.files.HoldsText w.cwd path text := by
  unfold readText Files.Tree.HoldsText
  rw [hNul]
  cases w.files.read w.cwd path with
  | error r => simp
  | ok bytes =>
      cases hDecode : Text.Utf8.decode bytes with
      | error e => simp [hDecode]
      | ok cs => simp [hDecode, eq_comm]

theorem kind_readText
    {f : Failure}
    (hNul : hasNul path = false)
    (hRead : readText w path = .error f) :
    f.kind = .workspace := by
  unfold readText at hRead
  rw [hNul] at hRead
  cases hBytes : w.files.read w.cwd path with
  | error r =>
      simp only [hBytes, Bool.false_eq_true, if_false,
        Except.error.injEq] at hRead
      rw [← hRead]
      rfl
  | ok bytes =>
      cases hDecode : Text.Utf8.decode bytes with
      | error e =>
          simp only [hBytes, hDecode, Bool.false_eq_true,
            if_false, Except.error.injEq] at hRead
          rw [← hRead]
          rfl
      | ok cs => simp [hBytes, hDecode] at hRead

------------------------------------------------------------
-- Pairs
------------------------------------------------------------

variable {keyPath certPath : String}

theorem readMaterial_eq_ok_iff
    {m : Material}
    (hKey : hasNul keyPath = false)
    (hCert : hasNul certPath = false) :
    ((readMaterial keyPath certPath).runIn w).1 = .ok m ↔
      w.files.HoldsText w.cwd keyPath m.key ∧
        w.files.HoldsText w.cwd certPath m.cert := by
  rw [← readText_eq_ok_iff hKey, ← readText_eq_ok_iff hCert,
    readMaterial, Act.runIn_of]
  cases readText w keyPath with
  | error f => simp
  | ok key =>
      cases readText w certPath with
      | error f => simp
      | ok cert =>
          rcases m with ⟨k, c⟩
          simp

end Workspace

end LocalCert
