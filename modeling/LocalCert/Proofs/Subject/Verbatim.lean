import LocalCert.Proofs.Subject.Requests

/-
  What a tool reads the requested names as.  A hostname that
  passes may hold characters with a meaning of their own in
  configuration text; exactly without them are the names
  read as they are.

  Main declarations:
    * `Subject.valueIn?_extensionText`
    * `Subject.valueIn?_argument`
    * `Subject.read_verbatim_iff`
-/

------------------------------------------------------------
-- The Value As It Is Read
------------------------------------------------------------

namespace LocalCert

namespace Subject

variable {hostname : String}

/- The value of the text for the signing, as it is read. -/
theorem valueIn?_extensionText
    (hFits : Hostname.Fits hostname)
    (meaning : ConfigText.Variables) :
    ConfigText.valueIn? meaning "subjectAltName"
        (extensionText hostname) =
      some (ConfigText.valueOf meaning
        (altNamesText hostname)) := by
  have hKey : "keyUsage".toList ≠ "subjectAltName".toList := by
    decide
  have hExtended :
      "extendedKeyUsage".toList ≠
        "subjectAltName".toList := by
    decide
  rw [ConfigText.valueIn?, lines_extensionText hFits]
  simp only [List.findSome?, ConfigText.Line.valueOf?, hKey,
    hExtended, if_false, if_true, Option.map_some,
    ConfigText.valueOf]

/- The value of the argument of the request is the same. -/
theorem valueIn?_argument
    (hFits : Hostname.Fits hostname)
    (meaning : ConfigText.Variables) :
    ConfigText.valueIn? meaning "subjectAltName"
        ("subjectAltName=" ++ altNamesText hostname) =
      some (ConfigText.valueOf meaning
        (altNamesText hostname)) := by
  have hNewline :
      '\n' ∉
        ("subjectAltName=" ++
          altNamesText hostname).toList := by
    rw [String.toList_append, List.mem_append, not_or]
    exact ⟨by decide, newline_not_mem_altNamesText hFits⟩
  have hEntry :=
    ConfigText.Line.ofChars_entry tight_subjectAltName
      (by decide) (by decide) (tight_altNamesText hFits)
  have hChars :
      ("subjectAltName=" ++ altNamesText hostname).toList =
        "subjectAltName".toList ++
          '=' :: (altNamesText hostname).toList := by
    simp
  rw [ConfigText.valueIn?, ConfigText.lines,
    Text.splitAll_of_not_mem hNewline, hChars,
    List.map_singleton, hEntry]
  simp [ConfigText.Line.valueOf?, ConfigText.valueOf]

------------------------------------------------------------
-- Names With A Meaning
------------------------------------------------------------

/-
  Both texts are read as asking for the names as they are,
  whatever variables mean, exactly if the hostname holds no
  character that starts a comment, a variable or a quoted
  span.  Such hostnames pass all the same.
-/
theorem read_verbatim_iff
    (hValid : Hostname.validate hostname = .ok hostname) :
    (∀ meaning, ∀ text ∈
        [extensionText hostname,
          "subjectAltName=" ++ altNamesText hostname],
        ConfigText.valueIn? meaning "subjectAltName" text =
          some (altNamesText hostname)) ↔
      ∀ c ∈ ['#', '$', '\x27', '\x60'],
        c ∉ hostname.toList := by
  have hFits := Hostname.validate_eq_ok_iff.mp hValid
  have hRead :
      (∀ meaning, ∀ text ∈
          [extensionText hostname,
            "subjectAltName=" ++ altNamesText hostname],
          ConfigText.valueIn? meaning "subjectAltName" text =
            some (altNamesText hostname)) ↔
        ∀ meaning,
          ConfigText.readValue meaning .plain
              (altNamesText hostname).toList =
            (altNamesText hostname).toList := by
    refine forall_congr' ?_
    intro meaning
    simp only [List.forall_mem_cons, List.not_mem_nil,
      false_implies, implies_true, and_true,
      valueIn?_extensionText hFits,
      valueIn?_argument hFits, and_self, Option.some.injEq,
      ConfigText.valueOf, ← String.toList_inj,
      String.toList_ofList]
  rw [hRead, ConfigText.readValue_eq_self_iff]
  have hSpecial :
      ∀ c, ConfigText.isSpecial c = true ↔
        c ∈ ['\x5c', '\x22', '#', '$', '\x27', '\x60'] := by
    intro c
    simp only [ConfigText.isSpecial, ConfigText.isQuote,
      Bool.or_eq_true, beq_iff_eq, List.mem_cons,
      List.not_mem_nil, or_false]
    tauto
  constructor
  · intro hPlain c hListed hChar
    have hIn :
        c ∈ (AltName.ofName hostname).text.toList := by
      simp [text_ofName, hChar]
    have hOther :=
      hPlain c (mem_altNamesText_of_mem hIn)
    rw [(hSpecial c).mpr
      (List.mem_cons_of_mem _
        (List.mem_cons_of_mem _ hListed))] at hOther
    cases hOther
  · intro hFree
    refine forall_mem_altNamesText
      (Text.forall_mem_of_all (by decide)) ?_
    intro c hChar
    by_contra hMeans
    have hListed :=
      (hSpecial c).mp (Bool.not_eq_false _ ▸ hMeans)
    rcases List.mem_cons.mp hListed with rfl | hListed
    · exact hFits.not_mem (by decide) hChar
    · rcases List.mem_cons.mp hListed with rfl | hListed
      · exact hFits.not_mem (by decide) hChar
      · exact hFree c hListed hChar

/- A plain hostname is asked for, whatever variables mean. -/
theorem read_verbatim_for_plain :
    Hostname.validate "a.test" = .ok "a.test" ∧
      ∀ meaning, ∀ text ∈
        [extensionText "a.test",
          "subjectAltName=" ++ altNamesText "a.test"],
        ConfigText.valueIn? meaning "subjectAltName" text =
          some (altNamesText "a.test") := by
  have hValid :
      Hostname.validate "a.test" = .ok "a.test" := by
    decide
  refine ⟨hValid, (read_verbatim_iff hValid).mpr ?_⟩
  exact Text.forall_mem_of_all (by decide)

/- A number sign takes all the names after it along. -/
theorem cut_short_by_number_sign :
    Hostname.validate "a#b" = .ok "a#b" ∧
      altNamesText "a#b" =
        "DNS:a#b,DNS:localhost,IP:127.0.0.1" ∧
      ∀ meaning, ∀ text ∈
        [extensionText "a#b",
          "subjectAltName=" ++ altNamesText "a#b"],
        ConfigText.valueIn? meaning "subjectAltName" text =
          some "DNS:a" := by
  have hValid : Hostname.validate "a#b" = .ok "a#b" := by
    decide
  have hFits := Hostname.validate_eq_ok_iff.mp hValid
  have hText :
      altNamesText "a#b" =
        "DNS:a#b,DNS:localhost,IP:127.0.0.1" := by
    decide
  have hRead :
      ∀ meaning,
        ConfigText.valueOf meaning (altNamesText "a#b") =
          "DNS:a" := by
    intro meaning
    rw [hText]
    rfl
  refine ⟨hValid, hText, ?_⟩
  intro meaning
  simp only [List.forall_mem_cons, List.not_mem_nil,
    false_implies, implies_true,
    valueIn?_extensionText hFits, valueIn?_argument hFits,
    hRead, and_self]

end Subject

end LocalCert
