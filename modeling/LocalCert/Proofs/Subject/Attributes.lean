import LocalCert.Proofs.Subject.Requests

/-
  The subject that is requested.  Its text has a slash in
  front of each attribute, and an equals sign between the
  short name and the value.  The short names hold neither,
  and no hostname that passes holds a slash.  So the six
  attributes are read back from the text as long as the
  configured fields hold no slash, whatever else they hold.

  Main declarations:
    * `Subject.readAttributes?_text`
    * `Subject.text_inj`
    * `Manual.argumentAfter?_subject`
    * `Subject.attributes_read_back`
-/

------------------------------------------------------------
-- The Text Of A Subject
------------------------------------------------------------

namespace LocalCert

namespace Subject

variable {dn other : DistinguishedName}

/- Whether no value of a subject holds a slash. -/
def DistinguishedName.IsUnslashed
    (dn : DistinguishedName) : Prop :=
  ∀ field ∈ dn.attributes, '/' ∉ field.2.toList

/- The short names hold neither of the two marks. -/
theorem not_mem_shortName :
    ∀ field ∈ dn.attributes,
      '/' ∉ field.1.toList ∧ '=' ∉ field.1.toList := by
  simp [DistinguishedName.attributes]

/- The attributes, each behind a slash. -/
theorem toList_text
    (dn : DistinguishedName) :
    dn.text.toList =
      (dn.attributes.map (fun field =>
        field.1.toList ++ '=' :: field.2.toList)).flatMap
          ('/' :: ·) := by
  simp [DistinguishedName.text,
    DistinguishedName.attributeText, List.flatMap_map]

/- Slashes part the text into its attributes. -/
theorem splitAll_text
    (hSlash : dn.IsUnslashed) :
    Text.splitAll '/' dn.text.toList =
      [] :: dn.attributes.map (fun field =>
        field.1.toList ++ '=' :: field.2.toList) := by
  have hFree :
      ∀ piece ∈ dn.attributes.map (fun field =>
          field.1.toList ++ '=' :: field.2.toList),
        '/' ∉ piece := by
    intro piece hPiece
    rcases List.mem_map.mp hPiece with ⟨field, hField, rfl⟩
    have hName := (not_mem_shortName field hField).1
    have hValue := hSlash field hField
    simp [hName, hValue]
  rw [toList_text]
  exact
    Text.splitAll_append_flatMap_cons List.not_mem_nil hFree

/- The attributes are read back. -/
theorem readAttributes?_text
    (hSlash : dn.IsUnslashed) :
    readAttributes? dn.text = some dn.attributes := by
  rw [readAttributes?, splitAll_text hSlash]
  apply readPairs?_map
  intro field hField
  exact (not_mem_shortName field hField).2

/- A subject is known by its attributes. -/
theorem attributes_inj :
    dn.attributes = other.attributes ↔ dn = other := by
  cases dn
  cases other
  simp [DistinguishedName.attributes]

/- A subject without slashes is known by its text. -/
theorem text_inj
    (hSlash : dn.IsUnslashed)
    (hOther : other.IsUnslashed) :
    dn.text = other.text ↔ dn = other := by
  constructor
  · intro hText
    have hRead := readAttributes?_text hSlash
    rw [hText, readAttributes?_text hOther] at hRead
    exact attributes_inj.mp (Option.some.inj hRead).symm
  · rintro rfl
    rfl

end Subject

------------------------------------------------------------
-- Configured Subjects
------------------------------------------------------------

namespace Config

variable {config other : Config}
variable {hostname otherHost : String}

/- The fields that are taken over into a subject. -/
def subjectFields
    (c : Config) : List String :=
  [c.country, c.state, c.locality, c.organization,
    c.organizationalUnit]

/- A hostname that passes brings no slash. -/
theorem subject_isUnslashed
    (hFields :
      ∀ value ∈ config.subjectFields, '/' ∉ value.toList)
    (hFits : Hostname.Fits hostname) :
    (config.subject hostname).IsUnslashed := by
  have hHost : '/' ∉ hostname.toList :=
    hFits.not_mem (by decide)
  simpa [Subject.DistinguishedName.IsUnslashed,
    Subject.DistinguishedName.attributes, subject,
    subjectFields, hHost] using hFields

/- A subject is known by the fields and the hostname. -/
theorem subject_inj :
    config.subject hostname = other.subject otherHost ↔
      config.subjectFields = other.subjectFields ∧
        hostname = otherHost := by
  simp [subject, subjectFields, and_assoc]

end Config

/- The request has the subject behind the flag for it. -/
theorem Manual.argumentAfter?_subject
    (config : Config)
    (ws : Path)
    (hostname : String) :
    Tool.argumentAfter? "-subj"
        (requestCommand config hostname ws).argv.tail =
      some (config.subject hostname).text := by
  have hKey : keyFile ws ≠ "-subj" :=
    ws.text_child_ne (by decide) (by decide)
  have hRequest : requestFile ws ≠ "-subj" :=
    ws.text_child_ne (by decide) (by decide)
  have hFront :
      "-subj" ∉
        ["req", "-new", "-key", keyFile ws, "-out",
          requestFile ws] := by
    simp [Ne.symm hKey, Ne.symm hRequest]
  exact Tool.argumentAfter?_append hFront

------------------------------------------------------------
-- Requested Subjects
------------------------------------------------------------

namespace Subject

variable {config other : Config}
variable {hostname otherHost : String}

/-
  The request carries the six attributes: its subject parts
  at the slashes into an empty piece and six more, and these
  part at their first equals sign into the short names and
  the values.  Two requests have the same subject exactly if
  they agree on the fields and on the hostname, and the
  common name is the first name that is asked for.
-/
theorem attributes_read_back
    (ws otherWs : Path)
    (hFields :
      ∀ value ∈ config.subjectFields, '/' ∉ value.toList)
    (hValid : Hostname.validate hostname = .ok hostname)
    (hOtherFields :
      ∀ value ∈ other.subjectFields, '/' ∉ value.toList)
    (hOtherValid :
      Hostname.validate otherHost = .ok otherHost) :
    let arguments :=
      (Manual.requestCommand config hostname ws).argv.tail
    let otherArguments :=
      (Manual.requestCommand other otherHost
        otherWs).argv.tail
    (∃ subject pieces attributes value requested,
      Tool.argumentAfter? "-subj" arguments = some subject ∧
        Text.splitAll '/' subject.toList = [] :: pieces ∧
        pieces.length = 6 ∧
        readPairs? '=' pieces = some attributes ∧
        attributes =
          [("C", config.country), ("ST", config.state),
            ("L", config.locality),
            ("O", config.organization),
            ("OU", config.organizationalUnit),
            ("CN", hostname)] ∧
        Tool.argumentAfter? "-addext" arguments =
          some ("subjectAltName=" ++ value) ∧
        readPairs? ':' (Text.splitAll ',' value.toList) =
          some requested ∧
        attributes.lookup "CN" =
          requested.head?.map Prod.snd) ∧
      (Tool.argumentAfter? "-subj" arguments =
          Tool.argumentAfter? "-subj" otherArguments ↔
        config.subjectFields = other.subjectFields ∧
          hostname = otherHost) := by
  have hFits := Hostname.validate_eq_ok_iff.mp hValid
  have hOtherFits :=
    Hostname.validate_eq_ok_iff.mp hOtherValid
  have hSlash := Config.subject_isUnslashed hFields hFits
  have hOtherSlash :=
    Config.subject_isUnslashed hOtherFields hOtherFits
  have hSplit := splitAll_text hSlash
  have hRead := readAttributes?_text hSlash
  rw [readAttributes?, hSplit] at hRead
  intro arguments otherArguments
  constructor
  · refine ⟨(config.subject hostname).text, _, _,
      altNamesText hostname, _,
      Manual.argumentAfter?_subject config ws hostname,
      hSplit, rfl, hRead, rfl,
      Manual.argumentAfter?_requestCommand config ws hostname,
      readPairs?_altNamesText hFits, ?_⟩
    rfl
  · rw [Manual.argumentAfter?_subject,
      Manual.argumentAfter?_subject, Option.some.injEq,
      text_inj hSlash hOtherSlash, Config.subject_inj]

/-
  Values that look like other attributes are values all the
  same, and a sign that moves from one field to the next
  makes another subject.
-/
theorem lookalikes_read_back :
    let config : Config :=
      { organization := "x=CN", organizationalUnit := "a" }
    let other : Config :=
      { organization := "x", organizationalUnit := "CN=a" }
    let arguments :=
      (Manual.requestCommand config "dev.test"
        ⟨.root, ["v"]⟩).argv.tail
    let otherArguments :=
      (Manual.requestCommand other "dev.test"
        ⟨.root, ["w"]⟩).argv.tail
    (∀ value ∈ config.subjectFields, '/' ∉ value.toList) ∧
      (∀ value ∈ other.subjectFields, '/' ∉ value.toList) ∧
      Hostname.validate "dev.test" = .ok "dev.test" ∧
      (∃ subject pieces,
        Tool.argumentAfter? "-subj" arguments =
            some subject ∧
          Text.splitAll '/' subject.toList = [] :: pieces ∧
          readPairs? '=' pieces =
            some [("C", "US"), ("ST", "Test"),
              ("L", "Test"), ("O", "x=CN"), ("OU", "a"),
              ("CN", "dev.test")]) ∧
      Tool.argumentAfter? "-subj" arguments ≠
        Tool.argumentAfter? "-subj" otherArguments := by
  intro config other arguments otherArguments
  have hFields :
      ∀ value ∈ config.subjectFields,
        '/' ∉ value.toList := by
    decide
  have hOther :
      ∀ value ∈ other.subjectFields,
        '/' ∉ value.toList := by
    decide
  have hValid :
      Hostname.validate "dev.test" = .ok "dev.test" := by
    decide
  rcases attributes_read_back ⟨.root, ["v"]⟩ ⟨.root, ["w"]⟩
      hFields hValid hOther hValid with
    ⟨⟨subject, pieces, _, _, _, hSubject, hSplit, _, hRead,
      rfl, _⟩, hSame⟩
  refine ⟨hFields, hOther, hValid,
    ⟨subject, pieces, hSubject, hSplit, hRead⟩, ?_⟩
  intro hArguments
  have hEqual := (hSame.mp hArguments).1
  revert hEqual
  decide

end Subject

end LocalCert
