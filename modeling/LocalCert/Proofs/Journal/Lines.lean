import LocalCert.Journal.Event
import LocalCert.Proofs.Journal.Fields
import LocalCert.Proofs.Json.Writing

/-
  What a line gives back.  The line of a record is one line
  of printable ASCII and denotes one object, in which the
  texts of the record are found as they were, so that
  records with different texts have different lines.

  Main declarations:
    * `Record.Texts`
    * `Record.Carries`
    * `Record.Plain`
    * `Record.line_gives_back_texts`
    * `Event.exists_line`
-/

------------------------------------------------------------
-- Texts
------------------------------------------------------------

namespace LocalCert

namespace Record

/- The texts that a record is made for. -/
structure Texts where
  message : String
  strategy : Option String := none
  hostname : Option String := none
  tool : Option String := none
  exception : Option String := none
  deriving DecidableEq, Repr

namespace Texts

/- The members of a line that hold the texts. -/
structure AreIn
    (t : Texts)
    (members : Json.Members) : Prop where
  message :
    Json.valueOf? members "message" = some (.text t.message)
  strategy :
    Json.valueOf? members "strategy" =
      t.strategy.map .text
  hostname :
    Json.valueOf? members "hostname" =
      t.hostname.map .text
  tool : Json.valueOf? members "tool" = t.tool.map .text
  exception :
    Json.valueOf? members "exc_info" =
      t.exception.map .text

theorem map_text_injective
    {s u : Option String}
    (hSame : s.map Json.text = u.map Json.text) :
    s = u := by
  refine Option.map_injective ?_ hSame
  intro x y hText
  exact Json.text.inj hText

/- Members hold the texts of one record only. -/
theorem AreIn.unique
    {t u : Texts}
    {members : Json.Members}
    (hFirst : t.AreIn members)
    (hSecond : u.AreIn members) :
    t = u := by
  have hMessage : t.message = u.message := by
    have hSame := hFirst.message.symm.trans hSecond.message
    exact Json.text.inj (Option.some.inj hSame)
  have hStrategy : t.strategy = u.strategy :=
    map_text_injective
      (hFirst.strategy.symm.trans hSecond.strategy)
  have hHostname : t.hostname = u.hostname :=
    map_text_injective
      (hFirst.hostname.symm.trans hSecond.hostname)
  have hTool : t.tool = u.tool :=
    map_text_injective (hFirst.tool.symm.trans hSecond.tool)
  have hException : t.exception = u.exception :=
    map_text_injective
      (hFirst.exception.symm.trans hSecond.exception)
  cases t
  cases u
  simp_all

end Texts

/-
  Whether a record was made for texts: its message is the
  text itself, without arguments, the extras supply the
  context, and an exception is given by a text, which is not
  empty.
-/
structure Carries
    (r : Record)
    (t : Texts) : Prop where
  message :
    r.message = .template (.text t.message) (.list [])
  strategy :
    Json.lastValueOf? r.extras "strategy" =
      t.strategy.map .text
  hostname :
    Json.lastValueOf? r.extras "hostname" =
      t.hostname.map .text
  tool :
    Json.lastValueOf? r.extras "tool" = t.tool.map .text
  raised : r.raised.isTruthy = false
  exception :
    r.exception = (t.exception.map Json.text).getD .null
  told : t.exception ≠ some ""

/-
  Whether what a record tells besides is plain: its level,
  its place and a moment that has a date.
-/
structure Plain
    (r : Record) : Prop where
  level : r.level.IsStandard
  function : r.function.IsStandard
  line : r.line.IsStandard
  moment : ∃ moment, Moment.ofSeconds r.created = .ok moment

------------------------------------------------------------
-- Fields
------------------------------------------------------------

variable {r : Record}
variable {t : Texts}
variable {moment : Moment}
variable {key : String}

namespace Carries

theorem messageText
    (hCarries : r.Carries t) :
    r.message.text =
      .ok (t.message.toList.map .char) := by
  rw [hCarries.message]
  rfl

theorem exceptionText
    (hCarries : r.Carries t) :
    r.exceptionText =
      .ok (t.exception.map .text) := by
  have hSilent : r.tellsOfException = false := by
    rw [tellsOfException, hCarries.message]
    rfl
  have hRaised := hCarries.raised
  have hException := hCarries.exception
  have hTold := hCarries.told
  cases hText : t.exception with
  | none =>
      have hTruth : r.exception.isTruthy = false := by
        rw [hException, hText]
        rfl
      simp [Record.exceptionText, hSilent, hRaised, hTruth]
  | some s =>
      have hSome : s ≠ "" := by
        rintro rfl
        exact hTold hText
      have hShown : r.exception = .text s := by
        rw [hException, hText]
        rfl
      have hTruth : (Json.text s).isTruthy = true := by
        simp [Json.isTruthy, hSome]
      simp [Record.exceptionText, hSilent, hRaised, hShown,
        hTruth]

theorem fields_eq
    (hCarries : r.Carries t)
    (hMoment : Moment.ofSeconds r.created = .ok moment) :
    r.fields =
      .ok
        (keepAllowed
          (renameLevel
            (r.collected (t.message.toList.map .char)
              (t.exception.map .text) moment))) :=
  fields_eq_ok_iff.mpr
    ⟨_, _, _, hCarries.messageText, hCarries.exceptionText,
      hMoment, rfl⟩

end Carries

/- The members of the line of a record with such texts. -/
def membersOf
    (r : Record)
    (t : Texts)
    (moment : Moment) : Json.Members :=
  keepAllowed
    (renameLevel
      (r.collected (t.message.toList.map .char)
        (t.exception.map .text) moment))

theorem ofSymbols_map_char
    (s : String) :
    Json.ofSymbols (s.toList.map .char) = .text s := by
  simp [Json.ofSymbols, Json.chars?_map_char]

/- Base fields are the record's own. -/
theorem Carries.valueOf?_base
    (hCarries : r.Carries t)
    (hKey : key ∈ ["message", "funcName", "lineno"]) :
    Json.valueOf? (r.membersOf t moment) key =
      Json.valueOf?
        (r.baseFields (t.message.toList.map .char)) key := by
  have hNames :
      ∀ name ∈ ["message", "funcName", "lineno"],
        allowedFields.contains name = true ∧
          name ≠ "level" ∧ name ≠ "timestamp" ∧
          name ≠ "exc_info" ∧
          (!reservedNames.contains name &&
            name.toList.head? != some '_') = false := by
    decide
  rcases hNames key hKey with
    ⟨hAllowed, hLevel, hTime, hException, hReserved⟩
  have hSilent :
      Json.lastValueOf? r.message.members key = none := by
    rw [hCarries.message]
    rfl
  rw [membersOf, valueOf?_fields, if_pos hAllowed,
    if_neg hLevel, if_neg hTime, lastValueOf?_addedExtras,
    if_neg (Bool.eq_false_iff.mp hReserved),
    lastValueOf?_withException, if_neg hException, hSilent]
  rfl

theorem Carries.valueOf?_exception
    (hCarries : r.Carries t) :
    Json.valueOf? (r.membersOf t moment) "exc_info" =
      t.exception.map .text := by
  have hExtra :
      Json.lastValueOf? r.addedExtras "exc_info" = none := by
    rw [lastValueOf?_addedExtras]
    exact if_neg (by decide)
  have hSilent :
      Json.lastValueOf? r.message.members "exc_info" =
        none := by
    rw [hCarries.message]
    rfl
  have hBase :
      Json.valueOf?
          (r.baseFields (t.message.toList.map .char))
          "exc_info" =
        none := rfl
  rw [membersOf, valueOf?_fields, if_pos (by decide),
    if_neg (by decide), if_neg (by decide), hExtra, hBase,
    lastValueOf?_withException, if_pos rfl, hSilent]
  simp

theorem Carries.valueOf?_extra
    (hCarries : r.Carries t)
    (hKey : key ∈ contextFields) :
    Json.valueOf? (r.membersOf t moment) key =
      Json.lastValueOf? r.extras key := by
  have hSilent :
      Json.lastValueOf? r.message.members key = none := by
    rw [hCarries.message]
    rfl
  rw [membersOf, valueOf?_context hKey, hSilent,
    Option.or_none]

/- The fields of a line hold the texts. -/
theorem Carries.areIn
    (hCarries : r.Carries t) :
    t.AreIn (r.membersOf t moment) where
  message := by
    rw [hCarries.valueOf?_base (by decide),
      ← ofSymbols_map_char]
    rfl
  strategy := by
    rw [hCarries.valueOf?_extra (by decide),
      hCarries.strategy]
  hostname := by
    rw [hCarries.valueOf?_extra (by decide),
      hCarries.hostname]
  tool := by
    rw [hCarries.valueOf?_extra (by decide), hCarries.tool]
  exception := hCarries.valueOf?_exception

------------------------------------------------------------
-- Lines
------------------------------------------------------------

theorem isStandard_of_map_text
    {s : Option String}
    {v : Json}
    (hText : s.map Json.text = some v) :
    v.IsStandard := by
  cases s with
  | none => cases hText
  | some s =>
      cases hText
      exact .text s

/- Every value in the line is one that JSON has. -/
theorem Plain.isStandard
    (hPlain : r.Plain)
    (hCarries : r.Carries t) :
    (Json.object (r.membersOf t moment)).IsStandard := by
  refine .object nodup_keys_fields ?_
  rintro ⟨key, v⟩ hMember
  have hValue :
      Json.valueOf? (r.membersOf t moment) key = some v :=
    Json.valueOf?_eq_some_of_mem nodup_keys_fields hMember
  have hAllowed : allowedFields.contains key = true :=
    (List.mem_filter.mp hMember).2
  have hTexts : t.AreIn (r.membersOf t moment) :=
    hCarries.areIn
  simp only [allowedFields, contextFields, List.cons_append,
    List.nil_append, List.contains_iff_mem, List.mem_cons,
    List.not_mem_nil, or_false] at hAllowed
  rcases hAllowed with
    rfl | rfl | rfl | rfl | rfl | rfl | rfl | rfl | rfl
  · rw [membersOf, valueOf?_fields] at hValue
    cases hValue
    exact .text _
  · rw [membersOf, valueOf?_fields, hCarries.message]
      at hValue
    cases hValue
    exact hPlain.level
  · rw [hTexts.message] at hValue
    cases hValue
    exact .text _
  · exact isStandard_of_map_text
      (hTexts.exception.symm.trans hValue)
  · rw [hCarries.valueOf?_base (by decide)] at hValue
    cases hValue
    exact hPlain.function
  · rw [hCarries.valueOf?_base (by decide)] at hValue
    cases hValue
    exact hPlain.line
  · exact isStandard_of_map_text
      (hTexts.strategy.symm.trans hValue)
  · exact isStandard_of_map_text
      (hTexts.hostname.symm.trans hValue)
  · exact isStandard_of_map_text
      (hTexts.tool.symm.trans hValue)

/-
  What can be said of the line of a record for texts: it is
  one line, it denotes one value, and this is an object that
  holds the texts.
-/
structure GivesBack
    (s : String)
    (t : Texts)
    (members : Json.Members) : Prop where
  printable : ∀ c ∈ s.toList, ' ' ≤ c ∧ c ≤ '~'
  denotes :
    Json.Denotes s.toList (.element (.object members))
  only :
    ∀ v, Json.Denotes s.toList (.element v) →
      v = .object members
  read : Json.ofText? s = some (.object members)
  texts : t.AreIn members

theorem Plain.exists_line
    (hPlain : r.Plain)
    (hCarries : r.Carries t) :
    ∃ s members,
      r.line? = .ok s ∧ GivesBack s t members := by
  rcases hPlain.moment with ⟨moment, hMoment⟩
  have hStandard :
      (Json.object (r.membersOf t moment)).IsStandard :=
    hPlain.isStandard hCarries
  have hDenotes := hStandard.denotes_line
  refine ⟨_, _, ?_, ?_, hDenotes, ?_, hDenotes.ofText?_eq,
    hCarries.areIn⟩
  · rw [line?, hCarries.fields_eq hMoment]
    rfl
  · rw [Json.line, String.toList_ofList]
    exact hStandard.isPrintable
  · intro v hOther
    exact hOther.element_unique hDenotes

/-
  The line of every record for texts, whatever characters
  they have, is one line of printable ASCII that denotes one
  object with exactly these texts.  So no record for other
  texts has the same line.
-/
theorem line_gives_back_texts
    (r : Record)
    (t : Texts)
    (hPlain : r.Plain)
    (hCarries : r.Carries t) :
    ∃ s members,
      r.line? = .ok s ∧
        GivesBack s t members ∧
        ∀ (other : Record) (u : Texts),
          other.Plain →
          other.Carries u →
          u ≠ t →
          other.line? ≠ .ok s := by
  rcases hPlain.exists_line hCarries with
    ⟨s, members, hLine, hGives⟩
  refine ⟨s, members, hLine, hGives, ?_⟩
  intro other u hOther hTexts hDiffer hSame
  rcases hOther.exists_line hTexts with
    ⟨s', others, hOtherLine, hBack⟩
  have hText : s' = s :=
    Except.ok.inj (hOtherLine.symm.trans hSame)
  subst hText
  have hMembers : others = members := by
    have hObject := hGives.only _ hBack.denotes
    exact Json.object.inj hObject
  subst hMembers
  exact hDiffer (hBack.texts.unique hGives.texts)

/- Texts with line breaks, quotes and rare characters. -/
theorem line_gives_back_texts_of_rare_characters :
    let t : Texts :=
      { message := "a\nb\x22, \x22c\x22: \x22d\x5c"
        hostname := some "\x00\x7f\r\n\u2028"
        tool := some ""
        exception := some "Trace\n\tof é and 😀" }
    let r : Record :=
      { Record.blank with
        level := .text "WARNING"
        message := .template (.text t.message) (.list [])
        exception := .text "Trace\n\tof é and 😀"
        extras :=
          [("other", .real .notNumber),
            ("hostname", .text "\x00\x7f\r\n\u2028"),
            ("tool", .text "")] }
    r.Plain ∧
      r.Carries t ∧
      ∃ s members,
        r.line? = .ok s ∧
          GivesBack s t members ∧
          ∀ (other : Record) (u : Texts),
            other.Plain →
            other.Carries u →
            u ≠ t →
            other.line? ≠ .ok s := by
  intro t r
  have hPlain : r.Plain :=
    { level := .text "WARNING"
      function := .null
      line := .whole 0
      moment := moment_blank }
  have hCarries : r.Carries t :=
    { message := rfl
      strategy := rfl
      hostname := rfl
      tool := rfl
      raised := rfl
      exception := rfl
      told := by decide }
  exact
    ⟨hPlain, hCarries,
      line_gives_back_texts r t hPlain hCarries⟩

end Record

------------------------------------------------------------
-- Lines Of Events
------------------------------------------------------------

namespace Event

/- A text in the context of an event. -/
def contextText?
    (e : Event)
    (key : String) : Option String :=
  match Json.lastValueOf? e.context key with
  | some (.text s) => some s
  | _ => none

/- The texts of an event. -/
def texts
    (e : Event) : Record.Texts where
  message := e.message
  strategy := e.contextText? "strategy"
  hostname := e.contextText? "hostname"
  tool := e.contextText? "tool"

theorem carries_texts
    (e : Event)
    (created : Double) :
    (e.record created).Carries e.texts where
  message := rfl
  strategy := by cases e <;> rfl
  hostname := by cases e <;> rfl
  tool := by cases e <;> rfl
  raised := rfl
  exception := rfl
  told := by simp [texts]

/-
  So what the program reports is one line that gives back
  its texts, whatever a hostname or a tool brought into it.
-/
theorem exists_line
    {created : Double}
    (e : Event)
    (hDate :
      ∃ moment, Moment.ofSeconds created = .ok moment) :
    ∃ s members,
      (e.record created).line? = .ok s ∧
        Record.GivesBack s e.texts members := by
  have hPlain : (e.record created).Plain :=
    { level := .text _
      function := .null
      line := .whole 0
      moment := hDate }
  exact hPlain.exists_line (e.carries_texts created)

end Event

end LocalCert
