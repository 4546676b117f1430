import LocalCert.Journal.Record
import LocalCert.Proofs.Json.Members

/-
  The fields of the line of a record: those that are allowed
  and no others, each once.  A caller may add context to a
  line, but neither the level of the record nor its time can
  be talked over by an extra.

  Main declarations:
    * `Record.Writable`
    * `Record.valueOf?_fields`
    * `Record.Selects`
    * `Record.Writable.exists_fields`
    * `Record.fields_selected`
-/

------------------------------------------------------------
-- Records That Have A Line
------------------------------------------------------------

namespace LocalCert

namespace Record

/-
  Whether a record can be written: its arguments fit its
  message, what was raised with it can be shown, and it
  happened at a moment that has a date.
-/
structure Writable
    (r : Record) : Prop where
  message : ∃ text, r.message.text = .ok text
  raised :
    r.raised.isTruthy = true →
    ∃ text, Raised.text r.raised = .ok text
  moment : ∃ moment, Moment.ofSeconds r.created = .ok moment

/- The moment from which moments are counted has a date. -/
theorem moment_blank :
    ∃ moment,
      Moment.ofSeconds blank.created = .ok moment := by
  have hDate :
      (Moment.ofSeconds blank.created).toOption.isSome =
        true := by
    decide +kernel
  cases hMoment : Moment.ofSeconds blank.created with
  | ok moment => exact ⟨moment, rfl⟩
  | error e =>
      rw [hMoment] at hDate
      cases hDate

variable {r : Record}
variable {text : List Text.Symbol}
variable {told : Option Json}
variable {moment : Moment}
variable {key : String}

/- What was raised, or else a text, is told if it is there. -/
theorem exceptionText_cases
    (r : Record) :
    (r.tellsOfException = true ∧
      r.exceptionText = .ok none) ∨
    (r.tellsOfException = false ∧
      r.raised.isTruthy = true ∧
      r.exceptionText =
        (Raised.text r.raised).map
          (fun s => some (.text s))) ∨
    (r.raised.isTruthy = false ∧
      r.exception.isTruthy = true ∧
      r.exceptionText = .ok (some r.exception)) ∨
    (r.raised.isTruthy = false ∧
      r.exception.isTruthy = false ∧
      r.exceptionText = .ok none) := by
  unfold exceptionText
  cases r.tellsOfException <;>
    cases r.raised.isTruthy <;>
      cases r.exception.isTruthy <;> simp

theorem Writable.exceptionText
    (hWritable : r.Writable) :
    ∃ told, r.exceptionText = .ok told := by
  rcases exceptionText_cases r with
    ⟨_, hTold⟩ | ⟨_, hRaised, hTold⟩ | ⟨_, _, hTold⟩ |
      ⟨_, _, hTold⟩
  · exact ⟨none, hTold⟩
  · rcases hWritable.raised hRaised with ⟨s, hText⟩
    rw [hText] at hTold
    exact ⟨some (.text s), hTold⟩
  · exact ⟨some r.exception, hTold⟩
  · exact ⟨none, hTold⟩

/- An exception is told of if there is one to tell of. -/
theorem tells_iff
    (hTold : r.exceptionText = .ok told) :
    told.isSome = true ∨
        "exc_info" ∈ Json.keys r.message.members ↔
      r.exception.isTruthy = true ∨
        r.raised.isTruthy = true ∨
        "exc_info" ∈ Json.keys r.message.members := by
  have hMember :
      r.tellsOfException = true →
      "exc_info" ∈ Json.keys r.message.members := by
    intro hTells
    rw [Json.mem_keys_iff]
    unfold tellsOfException at hTells
    revert hTells
    cases Json.valueOf? r.message.members "exc_info" <;>
      simp
  rcases exceptionText_cases r with
    ⟨hTells, hText⟩ | ⟨_, hRaised, hText⟩ |
      ⟨hRaised, hException, hText⟩ |
      ⟨hRaised, hException, hText⟩
  · simp [hMember hTells]
  · rw [hText] at hTold
    cases hShown : Raised.text r.raised with
    | error e =>
        rw [hShown] at hTold
        cases hTold
    | ok s =>
        rw [hShown] at hTold
        cases hTold
        simp [hRaised]
  · rw [hText] at hTold
    cases hTold
    simp [hException]
  · rw [hText] at hTold
    cases hTold
    simp [hRaised, hException]

------------------------------------------------------------
-- Values Of Fields
------------------------------------------------------------

/- What the message says, and what is told beside it. -/
theorem lastValueOf?_withException :
    Json.lastValueOf? (r.withException told) key =
      if key = "exc_info" then
        told.or
          (Json.lastValueOf? r.message.members "exc_info")
      else
        Json.lastValueOf? r.message.members key := by
  cases told with
  | none =>
      by_cases hKey : key = "exc_info" <;>
        simp [withException, hKey]
  | some value =>
      rw [withException, Json.lastValueOf?_put]
      by_cases hKey : key = "exc_info" <;> simp [hKey]

/- Extras add no field whose name they cannot use. -/
theorem lastValueOf?_addedExtras :
    Json.lastValueOf? r.addedExtras key =
      if !reservedNames.contains key &&
          key.toList.head? != some '_' then
        Json.lastValueOf? r.extras key
      else
        none := by
  exact Json.lastValueOf?_filter
    (fun name =>
      !reservedNames.contains name &&
        name.toList.head? != some '_')

theorem valueOf?_collected :
    Json.valueOf? (r.collected text told moment) key =
      if key = "timestamp" then
        some (.text moment.text)
      else
        (Json.lastValueOf? r.addedExtras key).or
          ((Json.lastValueOf? (r.withException told) key).or
            (Json.valueOf? (r.baseFields text) key)) := by
  simp only [collected, Json.valueOf?_put,
    Json.valueOf?_putAll]

/- The level is what it is called before it is renamed. -/
theorem valueOf?_collected_levelname :
    Json.valueOf? (r.collected text told moment)
        "levelname" =
      some
        ((Json.lastValueOf? r.message.members
          "levelname").getD r.level) := by
  have hExtra :
      Json.lastValueOf? r.addedExtras "levelname" = none := by
    rw [lastValueOf?_addedExtras]
    exact if_neg (by decide)
  have hBase :
      Json.valueOf? (r.baseFields text) "levelname" =
        some r.level := rfl
  rw [valueOf?_collected, if_neg (by decide), hExtra, hBase,
    lastValueOf?_withException, if_neg (by decide)]
  cases Json.lastValueOf? r.message.members "levelname" <;>
    rfl

theorem valueOf?_renameLevel
    {members : Json.Members}
    {level : Json}
    (hLevel :
      Json.valueOf? members "levelname" = some level) :
    Json.valueOf? (renameLevel members) key =
      if key = "level" then
        some level
      else if key = "levelname" then
        none
      else
        Json.valueOf? members key := by
  have hErase :
      Json.valueOf? (Json.erase members "levelname") key =
        if key != "levelname" then
          Json.valueOf? members key
        else
          none :=
    Json.valueOf?_filter (fun name => name != "levelname")
  rw [renameLevel, hLevel]
  simp only [Json.valueOf?_put, hErase, bne_iff_ne, ne_eq,
    ite_not]

theorem valueOf?_keepAllowed
    {members : Json.Members} :
    Json.valueOf? (keepAllowed members) key =
      if allowedFields.contains key then
        Json.valueOf? members key
      else
        none :=
  Json.valueOf?_filter (fun name =>
    allowedFields.contains name)

/- A record that can be written has a line. -/
theorem fields_eq_ok_iff
    {members : Json.Members} :
    r.fields = .ok members ↔
      ∃ text told moment,
        r.message.text = .ok text ∧
          r.exceptionText = .ok told ∧
          Moment.ofSeconds r.created = .ok moment ∧
          members =
            keepAllowed
              (renameLevel
                (r.collected text told moment)) := by
  unfold fields
  cases r.message.text with
  | error e => simp
  | ok text =>
      cases r.exceptionText with
      | error e => simp
      | ok told =>
          cases Moment.ofSeconds r.created with
          | error e => simp
          | ok moment => simp [eq_comm]

/-
  The value of each field of a line: the level and the time
  are the record's, and for all else the extras come before
  the message, and the message before the record.
-/
theorem valueOf?_fields :
    Json.valueOf?
        (keepAllowed
          (renameLevel (r.collected text told moment))) key =
      if allowedFields.contains key then
        if key = "level" then
          some
            ((Json.lastValueOf? r.message.members
              "levelname").getD r.level)
        else if key = "timestamp" then
          some (.text moment.text)
        else
          (Json.lastValueOf? r.addedExtras key).or
            ((Json.lastValueOf? (r.withException told)
                key).or
              (Json.valueOf? (r.baseFields text) key))
      else
        none := by
  rw [valueOf?_keepAllowed,
    valueOf?_renameLevel valueOf?_collected_levelname,
    valueOf?_collected]
  by_cases hAllowed : allowedFields.contains key = true
  · have hOther : key ≠ "levelname" := by
      rintro rfl
      revert hAllowed
      decide
    rw [if_pos hAllowed, if_pos hAllowed, if_neg hOther]
  · rw [if_neg hAllowed, if_neg hAllowed]

/- No field of a line is there twice. -/
theorem nodup_keys_fields :
    (Json.keys
      (keepAllowed
        (renameLevel
          (r.collected text told moment)))).Nodup := by
  have hBase : (Json.keys (r.baseFields text)).Nodup := by
    simp [baseFields, Json.keys]
  have hCollected :
      (Json.keys (r.collected text told moment)).Nodup :=
    Json.nodup_keys_put
      (Json.nodup_keys_putAll
        (Json.nodup_keys_putAll hBase))
  refine Json.nodup_keys_filter ?_
  unfold renameLevel
  split
  · exact hCollected
  · exact Json.nodup_keys_put
      (Json.nodup_keys_filter hCollected)

------------------------------------------------------------
-- Selected Fields
------------------------------------------------------------

/-
  Whether members are what a line may show of a record: the
  base fields, the context that was supplied, an exception
  if there is one, and nothing else.
-/
structure Selects
    (r : Record)
    (members : Json.Members) : Prop where
  allowed :
    ∀ key ∈ Json.keys members,
      key ∈
        ["timestamp", "level", "message", "exc_info",
          "funcName", "lineno", "strategy", "hostname",
          "tool"]
  once : (Json.keys members).Nodup
  base :
    ["timestamp", "level", "message", "funcName",
      "lineno"] ⊆ Json.keys members
  context :
    ∀ key ∈ ["strategy", "hostname", "tool"],
      Json.valueOf? members key =
        (Json.lastValueOf? r.extras key).or
          (Json.lastValueOf? r.message.members key)
  exception :
    "exc_info" ∈ Json.keys members ↔
      r.exception.isTruthy = true ∨
        r.raised.isTruthy = true ∨
        "exc_info" ∈ Json.keys r.message.members
  level :
    "levelname" ∉ Json.keys r.message.members →
    Json.valueOf? members "level" = some r.level

/- The context is what the extras or the message supply. -/
theorem valueOf?_context
    (hKey : key ∈ contextFields) :
    Json.valueOf?
        (keepAllowed
          (renameLevel (r.collected text told moment))) key =
      (Json.lastValueOf? r.extras key).or
        (Json.lastValueOf? r.message.members key) := by
  have hNames :
      ∀ name ∈ contextFields,
        allowedFields.contains name = true ∧
          name ≠ "level" ∧ name ≠ "timestamp" ∧
          name ≠ "exc_info" ∧
          (!reservedNames.contains name &&
            name.toList.head? != some '_') = true ∧
          name ∉
            ["timestamp", "levelname", "funcName", "lineno",
              "message"] := by
    decide
  rcases hNames key hKey with
    ⟨hAllowed, hLevel, hTime, hException, hFree, hOther⟩
  have hBase :
      Json.valueOf? (r.baseFields text) key = none :=
    Json.valueOf?_eq_none_iff.mpr hOther
  rw [valueOf?_fields, if_pos hAllowed, if_neg hLevel,
    if_neg hTime, lastValueOf?_addedExtras, if_pos hFree,
    lastValueOf?_withException, if_neg hException, hBase,
    Option.or_none]

/- An exception is shown if it is told of. -/
theorem exception_mem_keys :
    "exc_info" ∈
        Json.keys
          (keepAllowed
            (renameLevel
              (r.collected text told moment))) ↔
      told.isSome = true ∨
        "exc_info" ∈ Json.keys r.message.members := by
  have hExtra :
      Json.lastValueOf? r.addedExtras "exc_info" = none := by
    rw [lastValueOf?_addedExtras]
    exact if_neg (by decide)
  have hBase :
      Json.valueOf? (r.baseFields text) "exc_info" =
        none := rfl
  have hSaid :
      "exc_info" ∈ Json.keys r.message.members ↔
        (Json.lastValueOf? r.message.members
          "exc_info").isSome = true := by
    rw [Option.isSome_iff_ne_none, ne_eq,
      Json.lastValueOf?_eq_none_iff, not_not]
  rw [Json.mem_keys_iff, valueOf?_fields,
    if_pos (by decide), if_neg (by decide),
    if_neg (by decide), hExtra, hBase,
    lastValueOf?_withException, if_pos rfl, hSaid]
  simp

theorem base_subset_keys :
    ["timestamp", "level", "message", "funcName",
        "lineno"] ⊆
      Json.keys
        (keepAllowed
          (renameLevel
            (r.collected text told moment))) := by
  have hThere :
      ∀ name ∈ ["message", "funcName", "lineno"],
        (Json.valueOf? (r.baseFields text) name).isSome =
          true := by
    simp [baseFields, Json.valueOf?]
  have hAllowed :
      ∀ name ∈ ["timestamp", "level", "message", "funcName",
          "lineno"],
        allowedFields.contains name = true := by
    decide
  intro name hName
  rw [Json.mem_keys_iff, valueOf?_fields,
    if_pos (hAllowed name hName)]
  split
  · rfl
  · split
    · rfl
    · have hBase := hThere name (by simp_all)
      simp [hBase]

/- A record that can be written has fields. -/
theorem Writable.exists_fields
    (hWritable : r.Writable) :
    ∃ members, r.fields = .ok members ∧ r.Selects members := by
  rcases hWritable.message with ⟨text, hText⟩
  rcases hWritable.exceptionText with ⟨told, hTold⟩
  rcases hWritable.moment with ⟨moment, hMoment⟩
  have hFields :=
    fields_eq_ok_iff.mpr
      ⟨text, told, moment, hText, hTold, hMoment, rfl⟩
  refine ⟨_, hFields, ?_⟩
  constructor
  · intro key hKey
    rw [Json.mem_keys_iff, valueOf?_fields] at hKey
    by_cases hAllowed : allowedFields.contains key = true
    · simpa [allowedFields, contextFields] using hAllowed
    · rw [if_neg hAllowed] at hKey
      cases hKey
  · exact nodup_keys_fields
  · exact base_subset_keys
  · intro key hKey
    exact valueOf?_context hKey
  · rw [exception_mem_keys, tells_iff hTold]
  · intro hSilent
    rw [valueOf?_fields, if_pos (by decide), if_pos rfl,
      Json.lastValueOf?_eq_none_iff.mpr hSilent]
    rfl

/-
  A record that can be written has a line, which is one
  object, and its members are what a line may show of it.
-/
theorem fields_selected
    (r : Record)
    (hWritable : r.Writable) :
    ∃ members,
      r.line? = .ok (Json.line (.object members)) ∧
        r.Selects members := by
  rcases hWritable.exists_fields with
    ⟨members, hFields, hSelects⟩
  refine ⟨members, ?_, hSelects⟩
  rw [line?, hFields]
  rfl

/- A message and extras that name what is not theirs. -/
theorem fields_selected_of_collisions :
    let r : Record :=
      { Record.blank with
        level := .text "WARNING"
        message :=
          .named
            [("level", .text "DEBUG"),
              ("timestamp", .whole 0),
              ("password", .text "secret"),
              ("tool", .text "said"),
              ("hostname", .text "said")]
        exception := .text "Traceback"
        extras :=
          [("level", .text "DEBUG"), ("exc_info", .whole 1),
            ("_tool", .whole 1),
            ("hostname", .text "added")] }
    r.Writable ∧
      ∃ members,
        r.line? = .ok (Json.line (.object members)) ∧
          r.Selects members := by
  intro r
  have hWritable : r.Writable :=
    { message := ⟨[], rfl⟩
      raised := by
        intro hRaised
        cases hRaised
      moment := moment_blank }
  exact ⟨hWritable, fields_selected r hWritable⟩

end Record

end LocalCert
