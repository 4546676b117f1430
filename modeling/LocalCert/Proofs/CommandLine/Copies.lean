import LocalCert.Proofs.CommandLine.Frame
import LocalCert.Proofs.Provisioner.Fallback
import LocalCert.Proofs.Strategy.Issuers

/-
  How issued material copies the files of the tools.  It has
  their bytes but for the line ends, which are all written
  as line feeds; so it has exactly their bytes if there is
  no carriage return among them.

  Main declarations:
    * `Material.Copies`
    * `Material.Copies.hasBytes_iff`
    * `Issuer.AskedAt`
    * `CommandLine.LeavesCopy`
    * `CommandLine.pairs_are_copied_but_for_line_ends`
-/

------------------------------------------------------------
-- Copies
------------------------------------------------------------

namespace LocalCert

open Text.Utf8
  (WellFormed encodeText returnByte unifyBytes)

namespace Material

/- Whether material has the bytes of two files. -/
def HasBytes
    (m : Material)
    (key cert : List UInt8) : Prop :=
  encodeText m.key = key ∧ encodeText m.cert = cert

/- Whether it has them but for the line ends. -/
def Copies
    (m : Material)
    (key cert : List UInt8) : Prop :=
  m.HasBytes (unifyBytes key) (unifyBytes cert)

variable {m n : Material}
variable {key cert : List UInt8}

/- A copy is exact if there is no carriage return. -/
theorem Copies.hasBytes_iff
    (hCopies : m.Copies key cert) :
    m.HasBytes key cert ↔
      returnByte ∉ key ∧ returnByte ∉ cert := by
  rw [HasBytes, hCopies.1, hCopies.2,
    Text.Utf8.unifyBytes_eq_self_iff,
    Text.Utf8.unifyBytes_eq_self_iff]

theorem eq_of_encodeText
    {s t : String}
    (hSame : encodeText s = encodeText t) :
    s = t :=
  String.toList_inj.mp (Text.Utf8.encode_injective hSame)

/- Copies are equal if the files agree but for line ends. -/
theorem Copies.eq_iff
    {otherKey otherCert : List UInt8}
    (hFirst : m.Copies key cert)
    (hSecond : n.Copies otherKey otherCert) :
    m = n ↔
      unifyBytes key = unifyBytes otherKey ∧
        unifyBytes cert = unifyBytes otherCert := by
  rw [← hFirst.1, ← hFirst.2, ← hSecond.1, ← hSecond.2]
  constructor
  · rintro rfl
    exact ⟨rfl, rfl⟩
  · rintro ⟨hKey, hCert⟩
    have hSameKey := eq_of_encodeText hKey
    have hSameCert := eq_of_encodeText hCert
    cases m
    cases n
    simp only at hSameKey hSameCert
    rw [hSameKey, hSameCert]

/- Well-formed bytes have a copy. -/
theorem exists_copies
    (hKey : WellFormed key)
    (hCert : WellFormed cert) :
    ∃ m : Material, m.Copies key cert := by
  rcases hKey with ⟨ks, rfl⟩
  rcases hCert with ⟨cs, rfl⟩
  refine
    ⟨⟨String.ofList (Text.unifyNewlines ks),
      String.ofList (Text.unifyNewlines cs)⟩, ?_, ?_⟩
  · rw [encodeText, String.toList_ofList,
      Text.Utf8.encode_unifyNewlines]
  · rw [encodeText, String.toList_ofList,
      Text.Utf8.encode_unifyNewlines]

end Material

namespace Issuer

variable {i : Issuer}
variable {config : Config}
variable {hostname : String}
variable {w : World}
variable {m : Material}
variable {key cert : List UInt8}

/- What the tools leave is issued as a copy. -/
theorem issue_of_supplies
    (hSupplies : i.Supplies config hostname w key cert)
    (hKey : WellFormed key)
    (hCert : WellFormed cert)
    (hCopies : m.Copies key cert) :
    ((i.issue config hostname).runIn w).1 = .ok m :=
  issue_eq_ok_iff.mpr
    ⟨key, cert, hSupplies, ⟨hKey, hCopies.1⟩, hCert,
      hCopies.2⟩

/- What is issued is a copy of what the tools left. -/
theorem supplies_of_issue
    (hIssue :
      ((i.issue config hostname).runIn w).1 = .ok m) :
    ∃ key cert,
      i.Supplies config hostname w key cert ∧
        m.Copies key cert := by
  rcases issue_eq_ok_iff.mp hIssue with
    ⟨key, cert, hSupplies, ⟨_, hKey⟩, _, hCert⟩
  exact ⟨key, cert, hSupplies, hKey, hCert⟩

/- The issuers in the order in which they are asked. -/
def inOrder : List Issuer := [.trusted, .manual]

/- An issuer that uses the configuration of the world. -/
def strategy : Issuer → Strategy
  | trusted => .trusted World.config
  | manual => .manual World.config

theorem strategy_issue
    (i : Issuer)
    (hostname : String)
    (w : World) :
    (i.strategy.issue hostname).runIn w =
      (i.issue w.config hostname).runIn w := by
  cases i with
  | trusted => exact Act.runIn_bind_ok (Act.runIn_look _ w)
  | manual => exact Act.runIn_bind_ok (Act.runIn_look _ w)

/-
  Whether an issuer is asked for a hostname in a world, with
  those before it having failed one after another.
-/
def AskedAt
    (i : Issuer)
    (hostname : String)
    (w asked : World) : Prop :=
  ∃ tried rest failures,
    inOrder = tried ++ i :: rest ∧
      Provisioner.FallsThrough hostname w
        (tried.map strategy) failures asked

/- What is provisioned is issued by one that is asked. -/
theorem askedAt_of_provision
    {after : World}
    (hProvision :
      ((Provisioner.standard World.config).provision
          hostname).runIn w = (.ok m, after)) :
    ∃ i asked,
      AskedAt i hostname w asked ∧
        ((i.issue asked.config hostname).runIn asked).1 =
          .ok m := by
  rw [Provisioner.provision] at hProvision
  cases hValid : Hostname.validate hostname with
  | error d =>
      rw [hValid] at hProvision
      cases hProvision
  | ok passed =>
      cases Hostname.validate_eq_ok hValid
      rw [hValid] at hProvision
      rcases Provisioner.tryEach_fallsThrough hostname
          (.manual World.config) [.trusted World.config] w
        with ⟨tried, s, rest, failures, asked, result, _,
          hList, hFalls, hRun, _, hTry⟩
      cases hTry.symm.trans hProvision
      have hMapped :
          inOrder.map strategy = tried ++ s :: rest := hList
      rcases List.map_eq_append_iff.mp hMapped with
        ⟨before, others, hOrder, rfl, hOthers⟩
      rcases List.map_eq_cons_iff.mp hOthers with
        ⟨i, later, rfl, rfl, _⟩
      refine
        ⟨i, asked, ⟨before, later, failures, hOrder, hFalls⟩,
          ?_⟩
      rw [← strategy_issue, hRun]

end Issuer

------------------------------------------------------------
-- The Program
------------------------------------------------------------

namespace CommandLine

/- Whether the output directory has two files of bytes. -/
def HoldsBytes
    (w : World)
    (dir : Path)
    (key cert : List UInt8) : Prop :=
  w.files.at? (Output.keyPlace w.cwd dir) =
      some (.file Output.keyMode key) ∧
    ∃ mode,
      w.files.at? (Output.certPlace w.cwd dir) =
        some (.file mode cert)

theorem HoldsBytes.unique
    {w : World}
    {dir : Path}
    {key cert otherKey otherCert : List UInt8}
    (hFirst : HoldsBytes w dir key cert)
    (hOther : HoldsBytes w dir otherKey otherCert) :
    key = otherKey ∧ cert = otherCert := by
  rcases hFirst with ⟨hKey, _, hCert⟩
  rcases hOther with ⟨hKey', _, hCert'⟩
  cases hKey.symm.trans hKey'
  cases hCert.symm.trans hCert'
  exact ⟨rfl, rfl⟩

/- Unified files are the files if these have no returns. -/
theorem HoldsBytes.verbatim_iff
    {w : World}
    {dir : Path}
    {key cert : List UInt8}
    (hHolds :
      HoldsBytes w dir (unifyBytes key)
        (unifyBytes cert)) :
    HoldsBytes w dir key cert ↔
      returnByte ∉ key ∧ returnByte ∉ cert := by
  rw [← Text.Utf8.unifyBytes_eq_self_iff,
    ← Text.Utf8.unifyBytes_eq_self_iff]
  constructor
  · intro hSame
    exact hHolds.unique hSame
  · rintro ⟨hKey, hCert⟩
    rw [hKey, hCert] at hHolds
    exact hHolds

/-
  Whether the output directory has the files that an issuer
  was supplied with, but for the line ends, and so exactly
  if there are no carriage returns.
-/
def LeavesCopy
    (o : Options)
    (w after : World) : Prop :=
  ∃ dir ∈ o.outputDir, ∃ i asked key cert,
    Issuer.AskedAt i (o.hostname.getD "")
        ((prepare o w).report
          (.requested (o.hostname.getD droppedText)))
        asked ∧
      i.Supplies asked.config (o.hostname.getD "") asked
          key cert ∧
      HoldsBytes after dir (unifyBytes key)
          (unifyBytes cert) ∧
      (HoldsBytes after dir key cert ↔
        returnByte ∉ key ∧ returnByte ∉ cert)

/- A run that finishes well has left a copy. -/
theorem leavesCopy_of_finished
    {arguments : List String}
    {w after : World}
    (hRun : run arguments w = (.finished 0, after)) :
    ∃ o,
      options arguments = .ok o ∧ LeavesCopy o w after := by
  unfold run at hRun
  cases hOptions : options arguments with
  | error s =>
      rw [hOptions] at hRun
      cases hRun
  | ok o =>
      simp only [hOptions] at hRun
      have hDone :=
        perform_finished (congrArg Prod.fst hRun)
      rw [hRun, fulfil_eq] at hDone
      rcases Act.runIn_bind_eq_ok hDone with
        ⟨m, made, hAcquire, hFinish⟩
      rcases Act.runIn_bind_eq_ok hAcquire with
        ⟨_, _, ⟨⟩, hProvision⟩
      rcases Issuer.askedAt_of_provision hProvision with
        ⟨i, asked, hAsked, hIssue⟩
      rcases Issuer.supplies_of_issue hIssue with
        ⟨key, cert, hSupplies, hCopies⟩
      rcases holds_of_finish (isNormal_outputDir hOptions)
          hFinish with
        ⟨dir, hDir, hHolds⟩
      have hBytes :
          HoldsBytes after dir (unifyBytes key)
            (unifyBytes cert) := by
        rw [← hCopies.1, ← hCopies.2]
        exact ⟨hHolds.key, hHolds.cert⟩
      exact
        ⟨o, rfl, dir, hDir, i, asked, key, cert, hAsked,
          hSupplies, hBytes, hBytes.verbatim_iff⟩

/-
  From well-formed files of the tools material is issued
  that copies them but for the line ends, so exactly if they
  are without carriage returns.  Two pairs of files give the
  same material exactly if they agree but for line ends.
  What the program leaves when it finishes well is a copy.
-/
theorem pairs_are_copied_but_for_line_ends
    (i : Issuer)
    (config : Config)
    (hostname : String)
    (arguments : List String)
    (w : World) :
    (∀ key cert,
      i.Supplies config hostname w key cert →
      WellFormed key →
      WellFormed cert →
      ∃ m,
        ((i.issue config hostname).runIn w).1 = .ok m ∧
          m.Copies key cert ∧
          (m.HasBytes key cert ↔
            returnByte ∉ key ∧ returnByte ∉ cert)) ∧
    (∀ (m n : Material) key cert otherKey otherCert,
      m.Copies key cert →
      n.Copies otherKey otherCert →
      (m = n ↔
        unifyBytes key = unifyBytes otherKey ∧
          unifyBytes cert = unifyBytes otherCert)) ∧
    ∀ after,
      run arguments w = (.finished 0, after) →
      ∃ o,
        options arguments = .ok o ∧
          LeavesCopy o w after := by
  refine ⟨?_, ?_, fun _ => leavesCopy_of_finished⟩
  · intro key cert hSupplies hKey hCert
    rcases Material.exists_copies hKey hCert with
      ⟨m, hCopies⟩
    exact
      ⟨m,
        Issuer.issue_of_supplies hSupplies hKey hCert
          hCopies,
        hCopies, hCopies.hasBytes_iff⟩
  · intro m n key cert otherKey otherCert hFirst hSecond
    exact hFirst.eq_iff hSecond

------------------------------------------------------------
-- Files With Carriage Returns
------------------------------------------------------------

/- Lines that all end in a carriage return and line feed. -/
def returned
    (lines : List String) : List UInt8 :=
  Text.Utf8.encode
    (lines.flatMap (fun l => l.toList ++ ['\r', '\n']))

/- A key of one line that ends so. -/
def returnedKey : List UInt8 :=
  returned ["key"]

/- A certificate whose lines end so. -/
def returnedCert : List UInt8 :=
  returned
    ["-----BEGIN CERTIFICATE-----",
      "MEYwOgIBATAFBgMrZXAwADAeFw0yNDAxMDIwMzA0MDVaFw0yNDAyMDEwMzA0MDVa",
      "MAAwCjAFBgMrZXADAQAwBQYDK2VwAwEA",
      "-----END CERTIFICATE-----"]

/- A world in which the first tool writes the two. -/
def returnedWorld : World where
  files := ⟨[(["tmp"], .directory 0o777)]⟩
  cwd := []
  tempDir := "/tmp"
  script :=
    [{ files :=
        [("key.pem", { body := .bytes returnedKey }),
          ("cert.pem", { body := .bytes returnedCert })] }]

/- The first issuer is supplied with the two. -/
theorem supplies_returnedWorld :
    Issuer.trusted.Supplies {} "localhost" returnedWorld
      returnedKey returnedCert := by
  let made :=
    ((Workspace.create Issuer.trusted.start none).runIn
      returnedWorld).2
  refine
    ⟨Path.ofText "/tmp/dev-certs-trusted-ws000001", made,
      Prod.ext ?_ rfl, ?_, ?_, ?_⟩
  · decide +kernel
  · decide +kernel
  · decide +kernel
  · decide +kernel

theorem run_returnedWorld :
    (run [] returnedWorld).1 = .finished 0 := by
  decide +kernel

theorem returned_ne_unifyBytes :
    unifyBytes returnedKey ≠ returnedKey := by
  decide +kernel

/-
  They are issued without the carriage returns, and the
  program finishes well and leaves a copy of some files.
-/
theorem returned_pair_is_copied :
    (∃ m,
      ((Issuer.trusted.issue {} "localhost").runIn
            returnedWorld).1 = .ok m ∧
        m.Copies returnedKey returnedCert ∧
        ¬ m.HasBytes returnedKey returnedCert) ∧
    ∃ o,
      options [] = .ok o ∧
        LeavesCopy o returnedWorld
          (run [] returnedWorld).2 := by
  rcases pairs_are_copied_but_for_line_ends .trusted {}
      "localhost" [] returnedWorld with
    ⟨hIssues, _, hLeaves⟩
  constructor
  · rcases hIssues returnedKey returnedCert
        supplies_returnedWorld ⟨_, rfl⟩ ⟨_, rfl⟩ with
      ⟨m, hIssue, hCopies, _⟩
    refine ⟨m, hIssue, hCopies, ?_⟩
    intro hBytes
    exact returned_ne_unifyBytes
      (hCopies.1.symm.trans hBytes.1)
  · rcases hRun : run [] returnedWorld with ⟨result, after⟩
    have hFinished := run_returnedWorld
    rw [hRun] at hFinished
    cases hFinished
    exact hLeaves after hRun

/- So material need not have the bytes of the files. -/
theorem not_always_verbatim :
    ¬ ∀ (i : Issuer) config hostname w key cert m,
      i.Supplies config hostname w key cert →
      WellFormed key →
      WellFormed cert →
      ((i.issue config hostname).runIn w).1 = .ok m →
      m.HasBytes key cert := by
  intro hVerbatim
  have hKey : WellFormed returnedKey := ⟨_, rfl⟩
  have hCert : WellFormed returnedCert := ⟨_, rfl⟩
  rcases Material.exists_copies hKey hCert with
    ⟨m, hCopies⟩
  have hIssue :=
    Issuer.issue_of_supplies supplies_returnedWorld hKey
      hCert hCopies
  have hBytes :=
    hVerbatim _ _ _ _ _ _ m supplies_returnedWorld hKey
      hCert hIssue
  exact returned_ne_unifyBytes
    (hCopies.1.symm.trans hBytes.1)

end CommandLine

end LocalCert
