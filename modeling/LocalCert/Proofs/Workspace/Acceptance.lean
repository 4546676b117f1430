import LocalCert.Proofs.Text.Defects
import LocalCert.Proofs.Workspace.Reading
import Mathlib.Data.List.Basic

/-
  Which files are accepted as an issued pair: exactly those
  that can be read and are valid UTF-8.  The first of the
  two that is not is blamed, and if it can be read, the
  message tells where it stops being valid.

  Main declarations:
    * `Files.Tree.OffersText`
    * `Workspace.Blames`
    * `Workspace.readText_cases`
    * `Workspace.readMaterial_accepts_valid_text`
-/

------------------------------------------------------------
-- Files That Can Be Read
------------------------------------------------------------

namespace LocalCert

namespace Files

namespace Tree

variable {t : Tree}
variable {cwd : Location}
variable {path : String}

/-
  Whether a path names a regular file with the given bytes
  that its owner may read.
-/
def Offers
    (t : Tree)
    (cwd : Location)
    (path : String)
    (bytes : List UInt8) : Prop :=
  ∃ l mode,
    t.locate cwd path = .ok l ∧
      t.at? l = some (.file mode bytes) ∧
      grants mode .read = true

/- Such a file that is valid UTF-8. -/
def OffersText
    (t : Tree)
    (cwd : Location)
    (path : String) : Prop :=
  ∃ bytes,
    t.Offers cwd path bytes ∧ bytes.toByteArray.IsValidUTF8

/- What can be read are the bytes of such a file. -/
theorem read_eq_ok_iff
    {bytes : List UInt8} :
    t.read cwd path = .ok bytes ↔
      t.Offers cwd path bytes := by
  unfold Offers read
  cases hLocate : t.locate cwd path with
  | error r => simp [bind, Except.bind]
  | ok l =>
      simp only [bind, Except.bind, Except.ok.injEq]
      cases hNode : t.at? l with
      | none => simp [hNode]
      | some node =>
          cases node with
          | directory mode =>
              cases hGrants : grants mode .read <;>
                simp [Node.mode, hGrants, hNode]
          | file mode content =>
              cases hGrants : grants mode .read <;>
                simp [Node.mode, hGrants, hNode, pure,
                  Except.pure, and_assoc]

end Tree

end Files

------------------------------------------------------------
-- Blame
------------------------------------------------------------

namespace Workspace

variable {w : World}
variable {path : String}

/- The words in front of the reason why a pair is refused. -/
def unreadableWords : String :=
  "failed to read issued key/certificate: "

/-
  Whether a failure is due to the file at a path: it cannot
  be read, or its bytes are no text.  Then the message tells
  where the longest valid part of them ends.
-/
inductive Blames
    (w : World)
    (path : String) : Failure → Prop where
  | unread
      {r : Files.Refusal}
      (hRead : w.files.read w.cwd path = .error r) :
      Blames w path
        (.materialUnreadable (.fault (.ofRefusal r path)))
  | undecoded
      {bytes front : List UInt8}
      {byte : UInt8}
      {told : String}
      {e : Text.Utf8.DecodeError}
      (hFile : w.files.Offers w.cwd path bytes)
      (hLongest : Text.Utf8.LongestSound bytes front)
      (hByte : bytes[front.length]? = some byte)
      (hPlace :
        Text.Utf8.TellsPlace front.length byte told)
      (hMessage :
        (Failure.materialUnreadable
            (.undecodable e)).message =
          unreadableWords ++ told) :
      Blames w path (.materialUnreadable (.undecodable e))

/- Such a failure is a failure of workspaces. -/
theorem Blames.kind_eq
    {f : Failure}
    (hBlames : Blames w path f) :
    f.kind = .workspace := by
  cases hBlames with
  | unread => rfl
  | undecoded => rfl

/- A file is read as a text, or it is blamed. -/
theorem readText_cases
    (hNul : hasNul path = false) :
    (w.files.OffersText w.cwd path ∧
        ∃ s, readText w path = .ok s) ∨
      (¬ w.files.OffersText w.cwd path ∧
        ∃ f, readText w path = .error f ∧
          Blames w path f) := by
  unfold readText
  rw [hNul]
  cases hRead : w.files.read w.cwd path with
  | error r =>
      apply Or.inr
      constructor
      · rintro ⟨bytes, hFile, _⟩
        rw [Files.Tree.read_eq_ok_iff.mpr hFile] at hRead
        cases hRead
      · exact ⟨_, rfl, .unread hRead⟩
  | ok bytes =>
      have hFile := Files.Tree.read_eq_ok_iff.mp hRead
      cases hDecode : Text.Utf8.decode bytes with
      | ok cs =>
          have hSound : Text.Utf8.WellFormed bytes :=
            ⟨cs, Text.Utf8.decode_eq_ok_iff.mp hDecode⟩
          apply Or.inl
          constructor
          · exact ⟨bytes, hFile,
              Text.Utf8.wellFormed_iff_isValidUTF8.mp hSound⟩
          · simp [hDecode]
      | error e =>
          apply Or.inr
          constructor
          · rintro ⟨others, hOther, hValid⟩
            have hSame :=
              Files.Tree.read_eq_ok_iff.mpr hOther
            rw [hRead] at hSame
            cases hSame
            rcases (Text.Utf8.wellFormed_iff_isValidUTF8.mpr
                hValid).exists_decode with ⟨cs, hText⟩
            rw [hDecode] at hText
            cases hText
          · rcases Text.Utf8.longestSound_of_decode hDecode
              with ⟨front, hLongest, hOffset, hByte⟩
            have hPlace := e.tellsPlace_message
            rw [hOffset] at hPlace hByte
            refine
              ⟨.materialUnreadable (.undecodable e), ?_,
                .undecoded hFile hLongest hByte hPlace rfl⟩
            simp [hDecode]

------------------------------------------------------------
-- Pairs
------------------------------------------------------------

variable {keyPath certPath : String}

theorem readMaterial_of_key_error
    {f : Failure}
    (certPath : String)
    (hKey : readText w keyPath = .error f) :
    ((readMaterial keyPath certPath).runIn w).1 =
      .error f := by
  rw [readMaterial, Act.runIn_of, hKey]

theorem readMaterial_of_key_ok
    {key : String}
    (certPath : String)
    (hKey : readText w keyPath = .ok key) :
    ((readMaterial keyPath certPath).runIn w).1 =
      (readText w certPath).map (fun cert => ⟨key, cert⟩) := by
  rw [readMaterial, Act.runIn_of, hKey]
  cases readText w certPath with
  | error f => rfl
  | ok cert => rfl

/-
  A text is read alike in all worlds in which its file is.
-/
theorem readText_congr
    {other : World}
    (hSame :
      other.files.read other.cwd path =
        w.files.read w.cwd path) :
    readText other path = readText w path := by
  unfold readText
  rw [hSame]

/-
  A pair is read exactly from two files that can be read and
  are valid UTF-8, and otherwise there is a failure of
  workspaces.  If the key is no such file, it is blamed, in
  all worlds in which it reads alike and whatever is to be
  the certificate; if only the certificate is none, it is
  blamed.
-/
theorem readMaterial_accepts_valid_text
    (w : World)
    (hKey : hasNul keyPath = false)
    (hCert : hasNul certPath = false) :
    let result :=
      ((readMaterial keyPath certPath).runIn w).1
    let keyOffered := w.files.OffersText w.cwd keyPath
    let certOffered := w.files.OffersText w.cwd certPath
    ((∃ m, result = .ok m) ↔ keyOffered ∧ certOffered) ∧
      (¬ (keyOffered ∧ certOffered) →
        ∃ f, result = .error f ∧ f.kind = .workspace) ∧
      (¬ keyOffered →
        ∃ f, Blames w keyPath f ∧
          ∀ (other : World) (otherCert : String),
            other.files.read other.cwd keyPath =
                w.files.read w.cwd keyPath →
              ((readMaterial keyPath otherCert).runIn
                other).1 = .error f) ∧
      (keyOffered → ¬ certOffered →
        ∃ f, Blames w certPath f ∧ result = .error f) := by
  intro result keyOffered certOffered
  rcases readText_cases (w := w) hKey with
    ⟨hOffered, key, hRead⟩ | ⟨hRefused, f, hRead, hBlames⟩
  · have hResult : result = _ :=
      readMaterial_of_key_ok certPath hRead
    rcases readText_cases (w := w) hCert with
      ⟨hBoth, cert, hNext⟩ | ⟨hOther, f, hNext, hBlames⟩
    · rw [hNext] at hResult
      refine ⟨⟨fun _ => ⟨hOffered, hBoth⟩,
        fun _ => ⟨_, hResult⟩⟩, ?_, ?_, ?_⟩
      · exact fun hNot => (hNot ⟨hOffered, hBoth⟩).elim
      · exact fun hNot => (hNot hOffered).elim
      · exact fun _ hNot => (hNot hBoth).elim
    · rw [hNext] at hResult
      refine ⟨⟨?_, fun hAll => (hOther hAll.2).elim⟩,
        ?_, ?_, ?_⟩
      · rintro ⟨m, hRead'⟩
        rw [hResult] at hRead'
        cases hRead'
      · exact fun _ => ⟨f, hResult, hBlames.kind_eq⟩
      · exact fun hNot => (hNot hOffered).elim
      · exact fun _ _ => ⟨f, hBlames, hResult⟩
  · have hResult : result = _ :=
      readMaterial_of_key_error certPath hRead
    refine ⟨⟨?_, fun hAll => (hRefused hAll.1).elim⟩,
      ?_, ?_, ?_⟩
    · rintro ⟨m, hRead'⟩
      rw [hResult] at hRead'
      cases hRead'
    · exact fun _ => ⟨f, hResult, hBlames.kind_eq⟩
    · refine fun _ => ⟨f, hBlames, ?_⟩
      intro other otherCert hSame
      exact readMaterial_of_key_error otherCert
        ((readText_congr hSame).trans hRead)
    · exact fun hAll => (hRefused hAll).elim

/- A key that is broken off within its second character. -/
def truncatedWorld : World where
  files :=
    ⟨[(["key.pem"], .file 0o600 [0x61, 0xE2, 0x82]),
      (["cert.pem"], .file 0o644 [0x62])]⟩
  cwd := []
  tempDir := "/tmp"

/- It is blamed where its second character starts. -/
theorem readMaterial_blames_truncated_key :
    hasNul "key.pem" = false ∧
      hasNul "cert.pem" = false ∧
      ¬ truncatedWorld.files.OffersText [] "key.pem" ∧
      Blames truncatedWorld "key.pem"
        (.materialUnreadable
          (.undecodable ⟨1, 0xE2, 2, .endOfData⟩)) := by
  have hKey : hasNul "key.pem" = false := by decide
  have hCert : hasNul "cert.pem" = false := by decide
  have hResult :
      ((readMaterial "key.pem" "cert.pem").runIn
          truncatedWorld).1 =
        .error (.materialUnreadable
          (.undecodable ⟨1, 0xE2, 2, .endOfData⟩)) := by
    decide +kernel
  have hOffered :
      truncatedWorld.files.OffersText [] "cert.pem" :=
    ⟨[0x62], ⟨["cert.pem"], 0o644, by decide, by decide,
      by decide⟩, ⟨['b'], by decide⟩⟩
  rcases readMaterial_accepts_valid_text truncatedWorld
      hKey hCert with ⟨hAccepts, _, hBlames, _⟩
  have hRefused :
      ¬ truncatedWorld.files.OffersText [] "key.pem" := by
    intro hBoth
    rcases hAccepts.mpr ⟨hBoth, hOffered⟩ with ⟨m, hRead⟩
    rw [hResult] at hRead
    cases hRead
  rcases hBlames hRefused with ⟨f, hBlamed, hEverywhere⟩
  have hSame := hEverywhere truncatedWorld "cert.pem" rfl
  rw [hResult] at hSame
  cases hSame
  exact ⟨hKey, hCert, hRefused, hBlamed⟩

end Workspace

end LocalCert
