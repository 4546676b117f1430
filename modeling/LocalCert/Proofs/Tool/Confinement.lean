import LocalCert.Proofs.World.Course

/-
  Processes that touch nothing outside a workspace, and why
  those are among them that are told to write into the
  workspace and leave files under plain names.

  Main declarations:
    * `Tool.StaysIn`
    * `Tool.staysIn_of_plain`
    * `Trusted.outputs_command`
    * `Manual.outputs_keyCommand`
    * `Manual.outputs_requestCommand`
    * `Manual.outputs_signCommand`
-/

------------------------------------------------------------
-- Below A Workspace
------------------------------------------------------------

namespace LocalCert

/- Whether a text leads into a directory and not up again. -/
def Path.LeadsInto
    (ws : Path)
    (text : String) : Prop :=
  ∃ rest,
    ".." ∉ rest ∧
      Path.ofText text = ⟨ws.root, ws.parts ++ rest⟩

namespace Files

namespace Tree

variable {before t : Tree}
variable {cwd l : Location}
variable {ws : Path}
variable {text : String}

theorem HasPlace.destination_eq
    (hPlace : before.HasPlace cwd ws.text l)
    (hNormal : ws.IsNormal) :
    destination cwd ws = l := by
  have hLocate := locate_eq_ok hPlace.located
  rw [Path.ofText_text hNormal] at hLocate
  exact hLocate.symm

/- What is placed in a workspace is cut away with it. -/
theorem HasPlace.cut_place
    (hPlace : before.HasPlace cwd ws.text l)
    (hBefore : before.WellFormed)
    (hNormal : ws.IsNormal)
    (hInto : ws.LeadsInto text)
    (hCut : t.cut l = before)
    (content : Content) :
    (t.place cwd text content).cut l = before := by
  have hMore :=
    hBefore.extends_of_cut_eq hPlace.free hCut
  have hEvolves :
      Evolves (l <+: ·) t (t.place cwd text content) := by
    refine place_evolves
      (G := fun p =>
        p.IsNormal ∧
          ∃ rest, ".." ∉ rest ∧
            p = ⟨ws.root, ws.parts ++ rest⟩) ?_ ?_ ?_
    · rintro p ⟨hRead, rest, hPlain, rfl⟩
      rw [Path.ofText_text hRead, destination_append,
        hPlace.destination_eq hNormal,
        resolve_of_not_mem hPlain]
      exact List.prefix_append _ _
    · rintro p ⟨hRead, rest, hPlain, rfl⟩ hMissing
      cases rest with
      | nil =>
          rw [List.append_nil] at hMissing
          exact absurd hMissing
            (makeDirectory_of_located
              (hMore.locate hPlace.located)
              (hMore.checkParent hPlace.allowed))
      | cons part rest =>
          refine ⟨hRead.parent, (part :: rest).dropLast,
            ?_, ?_⟩
          · intro hDots
            exact hPlain (List.dropLast_subset _ hDots)
          · simp [Path.parent,
              List.dropLast_append_of_ne_nil]
    · rcases hInto with ⟨rest, hPlain, hText⟩
      exact ⟨Path.isNormal_ofText text, rest, hPlain, hText⟩
  rw [hEvolves.cut_eq, hCut]

theorem HasPlace.cut_removeAll
    (hPlace : before.HasPlace cwd ws.text l)
    (hNormal : ws.IsNormal)
    (hCut : t.cut l = before) :
    (t.removeAll cwd ws.text).2.cut l = before := by
  have hEvolves :
      Evolves (l <+: ·) t (t.removeAll cwd ws.text).2 := by
    have hHere :
        destination cwd (Path.ofText ws.text) = l := by
      rw [Path.ofText_text hNormal]
      exact hPlace.destination_eq hNormal
    apply removeAll_evolves
    exact ⟨[], by rw [List.append_nil, hHere]⟩
  rw [hEvolves.cut_eq, hCut]

end Tree

end Files

------------------------------------------------------------
-- Processes
------------------------------------------------------------

namespace Tool

/-
  Whether a process leaves everything outside a workspace as
  it was, however the workspace itself looks when the
  process starts: cutting the workspace gives the same files
  before and after.
-/
def StaysIn
    (before : Files.Tree)
    (cwd : Files.Location)
    (ws : Path)
    (argv : List String)
    (b : Behaviour) : Prop :=
  ∀ l t,
    before.HasPlace cwd ws.text l →
    t.WellFormed →
    t.cut l = before →
    (leaveFiles argv b cwd t).cut l = before

variable {before : Files.Tree}
variable {cwd : Files.Location}
variable {ws : Path}
variable {argv : List String}
variable {b : Behaviour}

/- A plain name beside an output stays in its directory. -/
theorem leadsInto_besides
    {name : String}
    (hNormal : ws.IsNormal)
    (hName : Path.IsPart name)
    (hFiles : ∀ f ∈ b.files, Files.IsPlainName f.1) :
    ∀ c ∈ besides (ws.child name).text b.files,
      ws.LeadsInto c.1 := by
  intro c hc
  simp only [besides, List.mem_map] at hc
  rcases hc with ⟨f, hf, rfl⟩
  rcases hFiles f hf with ⟨hRelative, _, hPlain⟩
  have hDirectory : (ws.child name).parent = ws := by
    simp [Path.child, Path.parent]
  refine ⟨_, hPlain, ?_⟩
  rw [Path.ofText_text (hNormal.child hName), hDirectory,
    Path.ofText_joinText hRelative,
    Path.ofText_text hNormal]

theorem leadsInto_child
    {name : String}
    (hNormal : ws.IsNormal)
    (hName : Path.IsPart name)
    (hUp : name ≠ "..") :
    ws.LeadsInto (ws.child name).text := by
  refine ⟨[name], by simpa using Ne.symm hUp, ?_⟩
  rw [Path.ofText_text (hNormal.child hName)]
  rfl

theorem fst_mem_outputs
    {c : String × Files.Content}
    (hContent : c ∈ usualContents argv b) :
    c.1 ∈ outputs argv := by
  simp only [usualContents, List.mem_filterMap] at hContent
  rcases hContent with ⟨o, ho, hText⟩
  split at hText
  · cases hText
  · simp only [Option.map_eq_some_iff] at hText
    rcases hText with ⟨text, _, rfl⟩
    exact ho

/- The files that the commands write in a workspace. -/
def workspaceFiles : List String :=
  ["key.pem", "cert.csr", "cert.pem"]

/-
  With outputs that are files of a workspace and plain names
  beside them, all contents go into the workspace, which is
  the directory of the outputs.
-/
theorem leadsInto_of_plain
    {names : List String}
    {output : String}
    {rest : List String}
    (hNormal : ws.IsNormal)
    (hNames : names ⊆ workspaceFiles)
    (hOutputs :
      outputs argv =
        names.map (fun name => (ws.child name).text))
    (hFiles : ∀ f ∈ b.files, Files.IsPlainName f.1)
    (hArgv : outputs argv = output :: rest) :
    (∀ c ∈ besides output b.files ++ usualContents argv b,
        ws.LeadsInto c.1) ∧
      (Path.ofText output).parent = ws := by
  have hParts :
      ∀ o ∈ outputs argv,
        ∃ name, Path.IsPart name ∧ name ≠ ".." ∧
          o = (ws.child name).text := by
    intro o ho
    rw [hOutputs, List.mem_map] at ho
    rcases ho with ⟨name, hName, rfl⟩
    have hUsual := hNames hName
    simp only [workspaceFiles, List.mem_cons,
      List.not_mem_nil, or_false] at hUsual
    refine ⟨name, ?_, ?_, rfl⟩
    · rcases hUsual with rfl | rfl | rfl <;> decide
    · rcases hUsual with rfl | rfl | rfl <;> decide
  rcases hParts output (by simp [hArgv]) with
    ⟨first, hFirst, _, rfl⟩
  constructor
  · intro c hc
    rcases List.mem_append.mp hc with hc | hc
    · exact leadsInto_besides hNormal hFirst hFiles c hc
    · rcases hParts c.1 (fst_mem_outputs hc) with
        ⟨name, hName, hUp, hText⟩
      rw [hText]
      exact leadsInto_child hNormal hName hUp
  · rw [Path.ofText_text (hNormal.child hFirst)]
    simp [Path.child, Path.parent]

/-
  A process stays in a workspace if its outputs are files of
  the workspace and its other files have plain names.
-/
theorem staysIn_of_plain
    (names : List String)
    (hBefore : before.WellFormed)
    (hNormal : ws.IsNormal)
    (hNames : names ⊆ workspaceFiles)
    (hOutputs :
      outputs argv =
        names.map (fun name => (ws.child name).text))
    (hFiles : ∀ f ∈ b.files, Files.IsPlainName f.1) :
    StaysIn before cwd ws argv b := by
  intro l t hPlace hTree hCut
  refine leaveFiles_keeps
    (Q := fun v => v.cut l = before) ?_ ?_ hCut
  · intro output rest hArgv v c hc hv
    have hInto :=
      (leadsInto_of_plain hNormal hNames hOutputs hFiles
        hArgv).1 c hc
    exact hPlace.cut_place hBefore hNormal hInto hv c.2
  · intro output rest hArgv v hv
    have hDirectory :=
      (leadsInto_of_plain hNormal hNames hOutputs hFiles
        hArgv).2
    rw [hDirectory]
    exact hPlace.cut_removeAll hNormal hv

------------------------------------------------------------
-- What The Commands Write
------------------------------------------------------------

/- The flags by which a command says where to write. -/
def outputFlags : List String :=
  ["-key-file", "-cert-file", "-out"]

/- A file of a workspace is no flag. -/
theorem child_text_not_mem_outputFlags
    {name : String}
    (hNormal : ws.IsNormal)
    (hName : Path.IsPart name)
    (hOther : name ∉ outputFlags) :
    (ws.child name).text ∉ outputFlags := by
  intro hFlag
  have hParts :
      (Path.ofText (ws.child name).text).parts =
        [(ws.child name).text] := by
    simp only [outputFlags, List.mem_cons,
      List.not_mem_nil, or_false] at hFlag
    rcases hFlag with hText | hText | hText <;>
      rw [hText] <;> decide
  rw [Path.ofText_text (hNormal.child hName)] at hParts
  have hLast := congrArg List.getLast? hParts
  simp only [Path.child, List.getLast?_concat,
    List.getLast?_singleton, Option.some.injEq] at hLast
  rw [hLast] at hOther
  exact hOther hFlag

end Tool

/- Whether no tool and no curve is named like a flag. -/
def Config.NamesNoFlag
    (c : Config) : Prop :=
  c.trustedTool ∉ Tool.outputFlags ∧
    c.cryptoTool ∉ Tool.outputFlags ∧
    c.curve ∉ Tool.outputFlags

instance
    (c : Config) :
    Decidable c.NamesNoFlag := by
  unfold Config.NamesNoFlag
  infer_instance

variable {config : Config}
variable {ws : Path}

theorem Trusted.outputs_command
    (hConfig : config.NamesNoFlag)
    (hNormal : ws.IsNormal)
    (hostname : String) :
    Tool.outputs (command config ws hostname).argv =
      [(ws.child "key.pem").text,
        (ws.child "cert.pem").text] := by
  rcases hConfig with ⟨hTool, _, _⟩
  have hKey :
      (ws.child "key.pem").text ∉ Tool.outputFlags :=
    Tool.child_text_not_mem_outputFlags hNormal
      (by decide) (by decide)
  simp only [Tool.outputFlags, List.mem_cons,
    List.not_mem_nil, or_false, not_or] at hTool hKey
  simp [Tool.outputs, Tool.argumentAfter?, command,
    hTool.1, hTool.2.1, hKey.2.1]

namespace Tool

theorem argumentAfter?_append
    {flag output : String}
    {front rest : List String}
    (hFront : flag ∉ front) :
    argumentAfter? flag (front ++ flag :: output :: rest) =
      some output := by
  induction front with
  | nil => simp [argumentAfter?]
  | cons a front ih =>
      simp only [List.mem_cons, not_or] at hFront
      simp [argumentAfter?, Ne.symm hFront.1, ih hFront.2]

theorem outputs_of_out
    {output : String}
    {rest : List String}
    (front : List String)
    (hFront : "-out" ∉ front)
    (hNoFlag :
      "-key-file" ∉ front ++ "-out" :: output :: rest) :
    outputs (front ++ "-out" :: output :: rest) =
      [output] := by
  have hOther :
      (front ++ "-out" :: output :: rest).contains
        "-key-file" = false := by
    simpa using hNoFlag
  rw [outputs, hOther, argumentAfter?_append hFront]
  rfl

/- The text of an integer has digits and minus signs. -/
theorem mem_intText
    {i : Int}
    {c : Char}
    (hChar : c ∈ (Text.intText i).toList) :
    c = '-' ∨ c.isDigit = true := by
  have hDigits :
      ∀ n, c ∈ Text.decimalDigits n → c.isDigit = true := by
    intro n hc
    exact Nat.isDigit_of_mem_toDigits
      (by decide) (by decide) hc
  unfold Text.intText at hChar
  cases i with
  | ofNat n =>
      rw [String.toList_ofList] at hChar
      exact .inr (hDigits n hChar)
  | negSucc n =>
      rw [String.toList_ofList, List.mem_cons] at hChar
      rcases hChar with rfl | hChar
      · exact .inl rfl
      · exact .inr (hDigits _ hChar)

/- A text with another character is not that of an integer. -/
theorem intText_ne
    {i : Int}
    {s : String}
    {c : Char}
    (hChar : c ∈ s.toList)
    (hOther : c ≠ '-' ∧ c.isDigit = false) :
    Text.intText i ≠ s := by
  rintro rfl
  rcases mem_intText hChar with hDash | hDigit
  · exact hOther.1 hDash
  · rw [hOther.2] at hDigit
    cases hDigit

/- The text of an integer is no flag. -/
theorem intText_not_mem_outputFlags
    (i : Int) :
    Text.intText i ∉ outputFlags := by
  intro hFlag
  simp only [outputFlags, List.mem_cons, List.not_mem_nil,
    or_false] at hFlag
  rcases hFlag with hText | hText | hText
  · exact intText_ne (c := 'k') (by decide) (by decide) hText
  · exact intText_ne (c := 'c') (by decide) (by decide) hText
  · exact intText_ne (c := 'o') (by decide) (by decide) hText

/- A text that starts with another character is no flag. -/
theorem not_mem_outputFlags_of_head
    {s : String}
    (hHead : s.toList.head? ≠ some '-') :
    s ∉ outputFlags := by
  intro hFlag
  simp only [outputFlags, List.mem_cons, List.not_mem_nil,
    or_false] at hFlag
  rcases hFlag with rfl | rfl | rfl <;>
    exact hHead (by decide)

theorem subject_text_not_mem_outputFlags
    (dn : Subject.DistinguishedName) :
    dn.text ∉ outputFlags := by
  refine not_mem_outputFlags_of_head ?_
  simp [Subject.DistinguishedName.text,
    Subject.DistinguishedName.attributes,
    Subject.DistinguishedName.attributeText, String.join]

end Tool

namespace Manual

theorem outputs_keyCommand
    (hConfig : config.NamesNoFlag)
    (hNormal : ws.IsNormal) :
    Tool.outputs (keyCommand config ws).argv =
      [keyFile ws] := by
  rcases hConfig with ⟨_, hTool, hCurve⟩
  have hKey : keyFile ws ∉ Tool.outputFlags :=
    Tool.child_text_not_mem_outputFlags hNormal
      (by decide) (by decide)
  simp only [Tool.outputFlags, List.mem_cons,
    List.not_mem_nil, or_false, not_or] at hTool hCurve hKey
  refine Tool.outputs_of_out
      [config.cryptoTool, "ecparam", "-genkey", "-noout",
        "-name", config.curve] ?_ ?_
  · simp [Ne.symm hTool.2.2, Ne.symm hCurve.2.2]
  · simp [Ne.symm hTool.1, Ne.symm hCurve.1,
      Ne.symm hKey.1]

theorem outputs_requestCommand
    (hConfig : config.NamesNoFlag)
    (hNormal : ws.IsNormal)
    (hostname : String) :
    Tool.outputs (requestCommand config hostname ws).argv =
      [requestFile ws] := by
  rcases hConfig with ⟨_, hTool, _⟩
  have hKey : keyFile ws ∉ Tool.outputFlags :=
    Tool.child_text_not_mem_outputFlags hNormal
      (by decide) (by decide)
  have hRequest : requestFile ws ∉ Tool.outputFlags :=
    Tool.child_text_not_mem_outputFlags hNormal
      (by decide) (by decide)
  have hSubject :=
    Tool.subject_text_not_mem_outputFlags
      (config.subject hostname)
  have hNames :
      "subjectAltName=" ++ Subject.altNamesText hostname ∉
        Tool.outputFlags := by
    refine Tool.not_mem_outputFlags_of_head ?_
    simp
  simp only [Tool.outputFlags, List.mem_cons,
    List.not_mem_nil, or_false, not_or]
    at hTool hKey hRequest hSubject hNames
  refine Tool.outputs_of_out
      [config.cryptoTool, "req", "-new", "-key",
        keyFile ws] ?_ ?_
  · simp [Ne.symm hTool.2.2, Ne.symm hKey.2.2]
  · simp [Ne.symm hTool.1, Ne.symm hKey.1,
      Ne.symm hRequest.1, Ne.symm hSubject.1,
      Ne.symm hNames.1]

theorem outputs_signCommand
    (hConfig : config.NamesNoFlag)
    (hNormal : ws.IsNormal)
    (hostname : String) :
    Tool.outputs (signCommand config hostname ws).argv =
      [certFile ws] := by
  rcases hConfig with ⟨_, hTool, _⟩
  have hKey : keyFile ws ∉ Tool.outputFlags :=
    Tool.child_text_not_mem_outputFlags hNormal
      (by decide) (by decide)
  have hRequest : requestFile ws ∉ Tool.outputFlags :=
    Tool.child_text_not_mem_outputFlags hNormal
      (by decide) (by decide)
  have hCert : certFile ws ∉ Tool.outputFlags :=
    Tool.child_text_not_mem_outputFlags hNormal
      (by decide) (by decide)
  have hDays :=
    Tool.intText_not_mem_outputFlags config.validityDays
  simp only [Tool.outputFlags, List.mem_cons,
    List.not_mem_nil, or_false, not_or]
    at hTool hKey hRequest hCert hDays
  refine Tool.outputs_of_out
      [config.cryptoTool, "x509", "-req", "-sha256",
        "-days", Text.intText config.validityDays,
        "-in", requestFile ws,
        "-signkey", keyFile ws] ?_ ?_
  · simp [Ne.symm hTool.2.2, Ne.symm hDays.2.2,
      Ne.symm hRequest.2.2, Ne.symm hKey.2.2]
  · simp [Ne.symm hTool.1, Ne.symm hDays.1,
      Ne.symm hRequest.1, Ne.symm hKey.1, Ne.symm hCert.1,
      Subject.extensionSection]

end Manual

end LocalCert
