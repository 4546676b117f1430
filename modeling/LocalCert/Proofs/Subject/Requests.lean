import LocalCert.Proofs.ConfigText
import LocalCert.Proofs.Hostname
import LocalCert.Proofs.Tool.Confinement
import LocalCert.Subject.Reading

/-
  The names that are requested.  The trusted tool is given
  them one by one, the request has them in one argument, and
  the signing has them in a configuration text.  For every
  hostname that passes, the three say the same, and reading
  the last two gives the first back.

  Main declarations:
    * `Subject.readPairs?_map`
    * `Subject.readPairs?_altNamesText`
    * `Subject.lines_extensionText`
    * `Subject.names_requested_alike`
-/

------------------------------------------------------------
-- The List Of Names
------------------------------------------------------------

namespace LocalCert

namespace Subject

variable {hostname : String}

theorem mem_names_iff
    {name : String} :
    name ∈ names hostname ↔
      name = hostname ∨ name = "localhost" ∨
        name = "127.0.0.1" := by
  simp only [names, loopbackNames, List.mem_cons,
    List.mem_filter, List.not_mem_nil, or_false, bne_iff_ne]
  constructor
  · rintro (hHost | ⟨hLoopback, _⟩)
    · exact .inl hHost
    · exact .inr hLoopback
  · rintro (hHost | hLoopback)
    · exact .inl hHost
    · by_cases hHost : name = hostname
      · exact .inl hHost
      · exact .inr ⟨hLoopback, hHost⟩

/- No name is requested twice. -/
theorem names_nodup
    (hostname : String) :
    (names hostname).Nodup := by
  have hLoopback : loopbackNames.Nodup := by decide
  refine List.nodup_cons.mpr ⟨?_, hLoopback.filter _⟩
  simp

/- What holds of the hostname and the loopback names. -/
theorem forall_mem_names
    {P : String → Prop}
    (hHost : P hostname)
    (hLoopback : ∀ name ∈ loopbackNames, P name) :
    ∀ name ∈ names hostname, P name := by
  intro name hName
  rcases List.mem_cons.mp hName with rfl | hName
  · exact hHost
  · exact hLoopback name (List.mem_filter.mp hName).1

------------------------------------------------------------
-- The Text Of The Names
------------------------------------------------------------

/- The label in front of a name. -/
def label
    (name : String) : String :=
  if (Net.Address.ofText? name).isSome then "IP" else "DNS"

theorem text_ofName
    (name : String) :
    (AltName.ofName name).text = label name ++ ":" ++ name := by
  unfold AltName.ofName label
  split
  · rfl
  · rfl

/- The characters that the text of any names may hold. -/
def ownChars : List Char :=
  ",:DNSIPlocalhost127.0".toList

theorem label_subset
    (name : String) :
    (label name).toList ⊆ ownChars := by
  unfold label
  split
  · decide
  · decide

/-
  What holds of the characters of the hostname, and of those
  that stand in every text, holds of all characters.
-/
theorem forall_mem_altNamesText
    {P : Char → Prop}
    (hOwn : ∀ c ∈ ownChars, P c)
    (hHost : ∀ c ∈ hostname.toList, P c) :
    ∀ c ∈ (altNamesText hostname).toList, P c := by
  have hLoopback :
      ∀ name ∈ loopbackNames, name.toList ⊆ ownChars := by
    decide
  have hNames :
      ∀ name ∈ names hostname, ∀ c ∈ name.toList, P c := by
    refine forall_mem_names
      (P := fun name => ∀ c ∈ name.toList, P c) hHost ?_
    intro name hName c hChar
    exact hOwn c (hLoopback name hName hChar)
  intro c hChar
  rw [altNamesText, Text.joinWith,
    String.toList_intercalate] at hChar
  rcases Text.mem_intercalate hChar with
    hComma | ⟨piece, hPiece, hIn⟩
  · have hOnly : ",".toList ⊆ ownChars := by decide
    exact hOwn c (hOnly hComma)
  · simp only [altNames, List.map_map, List.mem_map,
      Function.comp_apply] at hPiece
    rcases hPiece with ⟨name, hName, rfl⟩
    simp only [text_ofName, String.toList_append,
      List.mem_append] at hIn
    rcases hIn with (hLabel | hColon) | hName'
    · exact hOwn c (label_subset name hLabel)
    · have hOnly : ":".toList ⊆ ownChars := by decide
      exact hOwn c (hOnly hColon)
    · exact hNames name hName c hName'

/- The hostname with its label is part of the text. -/
theorem mem_altNamesText_of_mem
    {c : Char}
    (hChar : c ∈ (AltName.ofName hostname).text.toList) :
    c ∈ (altNamesText hostname).toList := by
  rw [altNamesText, Text.joinWith, String.toList_intercalate]
  refine Text.mem_intercalate_of_mem ?_ hChar
  simp [altNames, names]

------------------------------------------------------------
-- Reading The Names Back
------------------------------------------------------------

/- Pairs written with a mark in between are read back. -/
theorem readPairs?_map
    {mark : Char}
    {pairs : List (String × String)}
    (hFree : ∀ pair ∈ pairs, mark ∉ pair.1.toList) :
    readPairs? mark
        (pairs.map (fun pair =>
          pair.1.toList ++ mark :: pair.2.toList)) =
      some pairs := by
  rw [readPairs?]
  induction pairs with
  | nil => rfl
  | cons pair pairs ih =>
      rw [List.forall_mem_cons] at hFree
      have hPair :=
        Text.splitFirst?_append_cons hFree.1 pair.2.toList
      simp [hPair, ih hFree.2]

/- Each name reads back with its label. -/
theorem readPairs?_altNamesText
    (hFits : Hostname.Fits hostname) :
    readPairs? ':'
        (Text.splitAll ',' (altNamesText hostname).toList) =
      some ((names hostname).map
        (fun name => (label name, name))) := by
  have hNames :
      ∀ name ∈ names hostname, ',' ∉ name.toList :=
    forall_mem_names (hFits.not_mem (by decide)) (by decide)
  have hLabels :
      ∀ name, ',' ∉ (label name).toList ∧
        ':' ∉ (label name).toList := by
    intro name
    unfold label
    split <;> decide
  have hFree :
      ∀ s ∈ (altNames hostname).map AltName.text,
        ',' ∉ s.toList := by
    intro s hs
    simp only [altNames, List.map_map, List.mem_map,
      Function.comp_apply] at hs
    rcases hs with ⟨name, hName, rfl⟩
    simp [text_ofName, (hLabels name).1, hNames name hName]
  have hSplit :=
    Text.splitAll_joinWith
      (by simp [altNames, names]) hFree
  have hComma : String.singleton ',' = "," := by decide
  rw [hComma] at hSplit
  have hPieces :
      ((altNames hostname).map AltName.text).map
          String.toList =
        ((names hostname).map
            (fun name => (label name, name))).map
          (fun pair =>
            pair.1.toList ++ ':' :: pair.2.toList) := by
    simp [altNames, text_ofName]
  rw [altNamesText, hSplit, hPieces]
  apply readPairs?_map
  intro pair hPair
  rcases List.mem_map.mp hPair with ⟨name, _, rfl⟩
  exact (hLabels name).2

/- The text starts and ends without a blank. -/
theorem tight_altNamesText
    (hFits : Hostname.Fits hostname) :
    ConfigText.Tight (altNamesText hostname).toList := by
  refine .of_forall ?_ ?_
  · have hColon :
        ':' ∈ (AltName.ofName hostname).text.toList := by
      simp [text_ofName]
    exact List.ne_nil_of_mem
      (mem_altNamesText_of_mem hColon)
  · exact forall_mem_altNamesText
      (Text.forall_mem_of_all (by decide))
      hFits.isBlank_eq_false

/- So does the name of its entry. -/
theorem tight_subjectAltName :
    ConfigText.Tight "subjectAltName".toList :=
  .of_forall (by decide) (Text.forall_mem_of_all (by decide))

/- The text is a single line. -/
theorem newline_not_mem_altNamesText
    (hFits : Hostname.Fits hostname) :
    '\n' ∉ (altNamesText hostname).toList := by
  intro hIn
  have hOther :=
    forall_mem_altNamesText (P := (· ≠ '\n'))
      (Text.forall_mem_of_all (by decide))
      (by
        rintro c hChar rfl
        exact hFits.not_mem (by decide) hChar)
  exact hOther _ hIn rfl

/- The lines of the text, whatever the hostname is. -/
theorem lines_extensionText
    (hFits : Hostname.Fits hostname) :
    ConfigText.lines (extensionText hostname) =
      [.header extensionSection.toList,
        .entry "keyUsage".toList
          "critical, digitalSignature, keyAgreement".toList,
        .entry "extendedKeyUsage".toList "serverAuth".toList,
        .entry "subjectAltName".toList
          (altNamesText hostname).toList,
        .blank] := by
  have hNewline := newline_not_mem_altNamesText hFits
  have hFree :
      ∀ s ∈ extensionLines hostname, '\n' ∉ s.toList := by
    simp only [extensionLines, List.forall_mem_cons,
      List.not_mem_nil, false_implies, implies_true,
      and_true, String.toList_append, List.mem_append,
      not_or]
    exact ⟨by decide, by decide, by decide,
      ⟨by decide, hNewline⟩, by decide⟩
  have hSplit :=
    Text.splitAll_joinWith (by simp [extensionLines]) hFree
  have hMark : String.singleton '\n' = "\n" := by decide
  have hSection : ConfigText.Tight extensionSection.toList :=
    .of_forall (by decide)
      (Text.forall_mem_of_all (by decide))
  have hHeader := ConfigText.Line.ofChars_header hSection
  have hEntry :=
    ConfigText.Line.ofChars_spacedEntry tight_subjectAltName
      (by decide) (by decide) (tight_altNamesText hFits)
  rw [hMark] at hSplit
  rw [ConfigText.lines, extensionText, hSplit]
  simp only [extensionLines, List.map_cons, List.map_nil,
    List.cons.injEq, and_true]
  refine ⟨?_, by decide, by decide, ?_, by decide⟩
  · simpa using hHeader
  · simpa using hEntry

------------------------------------------------------------
-- The Three Requests
------------------------------------------------------------

end Subject

/- A path in a directory, unless it ends in another way. -/
theorem Path.text_child_ne
    {name s : String}
    (p : Path)
    (hName : name.toList ≠ [])
    (hEnd : name.toList.getLast? ≠ s.toList.getLast?) :
    (p.child name).text ≠ s := by
  rintro rfl
  apply hEnd
  rcases text_child p name with hText | ⟨front, hText⟩
  · rw [hText]
  · rw [hText, ← List.singleton_append, ← List.append_assoc,
      List.getLast?_append_of_ne_nil _ hName]

namespace Tool

/- The arguments after a mark. -/
def argumentsAfter
    (mark : String)
    (arguments : List String) : List String :=
  (arguments.dropWhile (· != mark)).tail

end Tool

variable {hostname : String}

/- The trusted tool is given the names after two dashes. -/
theorem Trusted.argumentsAfter_command
    (config : Config)
    (ws : Path)
    (hostname : String) :
    Tool.argumentsAfter "--"
        (command config ws hostname).argv.tail =
      Subject.names hostname := by
  have hKey : (ws.child "key.pem").text ≠ "--" :=
    ws.text_child_ne (by decide) (by decide)
  have hCert : (ws.child "cert.pem").text ≠ "--" :=
    ws.text_child_ne (by decide) (by decide)
  simp [Tool.argumentsAfter, command, hKey, hCert]

/- The request has them behind the flag for extensions. -/
theorem Manual.argumentAfter?_requestCommand
    (config : Config)
    (ws : Path)
    (hostname : String) :
    Tool.argumentAfter? "-addext"
        (requestCommand config hostname ws).argv.tail =
      some ("subjectAltName=" ++
        Subject.altNamesText hostname) := by
  have hKey : keyFile ws ≠ "-addext" :=
    ws.text_child_ne (by decide) (by decide)
  have hRequest : requestFile ws ≠ "-addext" :=
    ws.text_child_ne (by decide) (by decide)
  have hSubject :
      (config.subject hostname).text ≠ "-addext" := by
    intro hText
    have hHead :=
      congrArg (fun s => s.toList.head?) hText
    simp [Subject.DistinguishedName.text,
      Subject.DistinguishedName.attributes,
      Subject.DistinguishedName.attributeText,
      String.join] at hHead
  have hFront :
      "-addext" ∉
        ["req", "-new", "-key", keyFile ws, "-out",
          requestFile ws, "-subj",
          (config.subject hostname).text] := by
    simp [Ne.symm hKey, Ne.symm hRequest, Ne.symm hSubject]
  exact Tool.argumentAfter?_append hFront

/- The signing is told which section of its text to read. -/
theorem Manual.argumentAfter?_signCommand
    (config : Config)
    (ws : Path)
    (hostname : String) :
    Tool.argumentAfter? "-extensions"
        (signCommand config hostname ws).argv.tail =
      some Subject.extensionSection := by
  have hKey : keyFile ws ≠ "-extensions" :=
    ws.text_child_ne (by decide) (by decide)
  have hRequest : requestFile ws ≠ "-extensions" :=
    ws.text_child_ne (by decide) (by decide)
  have hCert : certFile ws ≠ "-extensions" :=
    ws.text_child_ne (by decide) (by decide)
  have hDays :
      Text.intText config.validityDays ≠ "-extensions" :=
    Tool.intText_ne (c := 'x') (by decide) (by decide)
  have hFront :
      "-extensions" ∉
        ["x509", "-req", "-sha256", "-days",
          Text.intText config.validityDays, "-in",
          requestFile ws, "-signkey", keyFile ws, "-out",
          certFile ws] := by
    simp [Ne.symm hKey, Ne.symm hRequest, Ne.symm hCert,
      Ne.symm hDays]
  exact Tool.argumentAfter?_append hFront

namespace Subject

/-
  The names that the trusted tool is given are the hostname
  and the loopback names, each once and none like a flag.
  The request and the text for the signing ask for the same
  names: their one value is read back as these, in order,
  and the text is one section with three entries.
-/
theorem names_requested_alike
    (config : Config)
    (trusted manual : Path)
    (hValid : Hostname.validate hostname = .ok hostname) :
    let requested :=
      Tool.argumentsAfter "--"
        (Trusted.command config trusted hostname).argv.tail
    let request :=
      Manual.requestCommand config hostname manual
    let signing := Manual.signCommand config hostname manual
    (requested.head? = some hostname ∧
        requested.Nodup ∧
        (∀ name,
          name ∈ requested ↔
            name = hostname ∨ name = "localhost" ∨
              name = "127.0.0.1") ∧
        ∀ name ∈ requested, name.toList.head? ≠ some '-') ∧
      ∃ value text sectionName,
        Tool.argumentAfter? "-addext" request.argv.tail =
            some ("subjectAltName=" ++ value) ∧
          readPairs? ':' (Text.splitAll ',' value.toList) =
            some (requested.map
              (fun name => (label name, name))) ∧
          signing.input = some text ∧
          Tool.argumentAfter? "-extensions"
              signing.argv.tail =
            some sectionName ∧
          ConfigText.lines text =
            [.header sectionName.toList,
              .entry "keyUsage".toList
                ("critical, digitalSignature, " ++
                  "keyAgreement").toList,
              .entry "extendedKeyUsage".toList
                "serverAuth".toList,
              .entry "subjectAltName".toList value.toList,
              .blank] := by
  have hFits := Hostname.validate_eq_ok_iff.mp hValid
  intro requested request signing
  have hRequested : requested = names hostname :=
    Trusted.argumentsAfter_command config trusted hostname
  rw [hRequested]
  refine ⟨⟨rfl, names_nodup hostname, fun _ => mem_names_iff,
    ?_⟩, altNamesText hostname, extensionText hostname,
    extensionSection, ?_, ?_, rfl, ?_, ?_⟩
  · exact forall_mem_names hFits.undashed (by decide)
  · exact
      Manual.argumentAfter?_requestCommand config manual
        hostname
  · exact readPairs?_altNamesText hFits
  · exact
      Manual.argumentAfter?_signCommand config manual hostname
  · exact lines_extensionText hFits

/- A hostname with colons, which reads as an address. -/
theorem names_requested_alike_for_address :
    Hostname.validate "::1" = .ok "::1" ∧
      ∃ value,
        Tool.argumentAfter? "-addext"
            (Manual.requestCommand {} "::1"
              ⟨.root, ["w"]⟩).argv.tail =
            some ("subjectAltName=" ++ value) ∧
          readPairs? ':' (Text.splitAll ',' value.toList) =
            some [("IP", "::1"), ("DNS", "localhost"),
              ("IP", "127.0.0.1")] := by
  have hValid : Hostname.validate "::1" = .ok "::1" := by
    decide
  rcases names_requested_alike {} ⟨.root, ["v"]⟩
      ⟨.root, ["w"]⟩ hValid with
    ⟨_, value, _, _, hRequest, hRead, _⟩
  refine ⟨hValid, value, hRequest, hRead.trans ?_⟩
  decide

end Subject

end LocalCert
