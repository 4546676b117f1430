import LocalCert.Proofs.Session.Steps
import LocalCert.Proofs.World.Actions
import Mathlib.Data.List.Forall2

/-
  Falling back: the strategies that are asked are those up
  to the first that does not fail, each once and in order.
  Each failure before it is told as a warning, and only an
  interrupt stops the search early.

  Main declarations:
    * `Failure.isRecoverable_iff`
    * `Provisioner.FallsThrough`
    * `Provisioner.FallsBack`
    * `Provisioner.fallsBack_tryEach`
    * `Session.run_falls_back`
-/

------------------------------------------------------------
-- Failures That Are Followed
------------------------------------------------------------

namespace LocalCert

/- Only an interrupt belongs to no wider kind. -/
theorem Failure.Kind.isA_any_iff
    (k : Kind) :
    k.isA .any = true ↔ k ≠ .interrupt := by
  cases k with
  | tool stage => cases stage <;> decide
  | fault c => cases c <;> decide
  | inspection d => cases d <;> decide
  | _ => decide

theorem Failure.isRecoverable_iff
    (f : Failure) :
    f.isRecoverable = true ↔ f.kind ≠ .interrupt :=
  f.kind.isA_any_iff

/- A hostname that passes is handed on unchanged. -/
theorem Hostname.validate_eq_ok
    {hostname passed : String}
    (hValid : validate hostname = .ok passed) :
    passed = hostname := by
  simp only [validate] at hValid
  split at hValid
  · cases hValid
  · split at hValid
    · cases hValid
    · split at hValid
      · cases hValid
      · split at hValid
        · cases hValid
        · split at hValid
          · cases hValid
          · cases hValid
            rfl

namespace Provisioner

------------------------------------------------------------
-- Falling Through
------------------------------------------------------------

/-
  Strategies that are asked one after another and all fail,
  with their failures.  Each failure is told before the next
  strategy is asked.
-/
inductive FallsThrough
    (hostname : String) :
    World → List Strategy → List Failure → World → Prop
  where
  | nil (w : World) :
      FallsThrough hostname w [] [] w
  | cons
      {w v middle : World}
      {s : Strategy}
      {f : Failure}
      {tried : List Strategy}
      {failures : List Failure}
      (hRun : (s.issue hostname).runIn w = (.error f, v))
      (hFollowed : f.kind ≠ .interrupt)
      (hRest :
        FallsThrough hostname
          (v.report (.fellBack s.name hostname f))
          tried failures middle) :
      FallsThrough hostname w (s :: tried) (f :: failures)
        middle

/- Trying strategies asks some that fail and one more. -/
theorem tryEach_fallsThrough
    (hostname : String)
    (last : Strategy)
    (strategies : List Strategy)
    (w : World) :
    ∃ tried s rest failures middle result after,
      strategies ++ [last] = tried ++ s :: rest ∧
        FallsThrough hostname w tried failures middle ∧
        (s.issue hostname).runIn middle = (result, after) ∧
        (rest = [] ∨
          ∀ f, result = .error f → f.kind = .interrupt) ∧
        (tryEach hostname last strategies).runIn w =
          (result, after) := by
  induction strategies generalizing w with
  | nil =>
      exact ⟨[], last, [], [], w, _, _, rfl, .nil w, rfl,
        .inl rfl, rfl⟩
  | cons s ss ih =>
      rw [tryEach, Act.runIn_orElseWith]
      cases hRun : (s.issue hostname).runIn w with
      | mk result v =>
          cases result with
          | ok m =>
              refine ⟨[], s, ss ++ [last], [], w, .ok m, v,
                rfl, .nil w, hRun, .inr ?_, rfl⟩
              intro f hFailed
              cases hFailed
          | error f =>
              by_cases hFollowed : f.kind = .interrupt
              · have hStop : f.isRecoverable = false := by
                  simpa [hFollowed] using
                    f.isRecoverable_iff
                refine ⟨[], s, ss ++ [last], [], w,
                  .error f, v, rfl, .nil w, hRun,
                  .inr ?_, ?_⟩
                · intro g hFailed
                  cases hFailed
                  exact hFollowed
                · simp [hStop]
              · have hNext : f.isRecoverable = true :=
                  f.isRecoverable_iff.mpr hFollowed
                rcases ih
                    (v.report (.fellBack s.name hostname f))
                  with ⟨tried, stop, rest, failures, middle,
                    result, after, hList, hFalls, hStop,
                    hLast, hTry⟩
                refine ⟨s :: tried, stop, rest,
                  f :: failures, middle, result, after, ?_,
                  .cons hRun hFollowed hFalls, hStop, hLast,
                  ?_⟩
                · rw [List.cons_append, hList,
                    List.cons_append]
                · simp only [hNext, if_true, Act.runIn_bind,
                    Act.runIn_report]
                  exact hTry

------------------------------------------------------------
-- Calls And Warnings
------------------------------------------------------------

end Provisioner

/-
  A strategy that notes the calls of it, and otherwise does
  anything but note calls, report, or set the logger.
-/
structure Strategy.Recorded
    (s : Strategy)
    (position : Nat) : Prop where
  calls :
    ∀ hostname w,
      ((s.issue hostname).runIn w).2.calls =
        w.calls ++ [.strategy position s.name hostname]
  journal :
    ∀ hostname w,
      ((s.issue hostname).runIn w).2.journal = w.journal
  logger :
    ∀ hostname w,
      ((s.issue hostname).runIn w).2.logger = w.logger

theorem Strategy.recorded_scripted
    (position : Nat)
    (a : Answers) :
    (scripted position a).Recorded position where
  calls _ _ := rfl
  journal _ _ := rfl
  logger _ _ := rfl

/-
  Whether an event warns of the failure of a strategy, with
  its name, the text of its failure, and the hostname.
-/
def Event.Warns
    (e : Event)
    (strategy hostname : String)
    (f : Failure) : Prop :=
  e.level = Level.warning ∧
    e.message =
      strategy ++ " strategy failed, falling back: " ++
        f.message ∧
    e.context =
      [("strategy", .text strategy),
        ("hostname", .text hostname)]

theorem Event.fellBack_warns
    (strategy hostname : String)
    (f : Failure) :
    (fellBack strategy hostname f).Warns strategy hostname
      f :=
  ⟨rfl, rfl, rfl⟩

namespace Provisioner

/- The calls of strategies from a position on. -/
def callsFrom
    (hostname : String)
    (position : Nat)
    (strategies : List Strategy) : List Call :=
  (strategies.zipIdx position).map
    (fun s => .strategy s.2 s.1.name hostname)

variable {hostname : String}
variable {w middle : World}
variable {tried : List Strategy}
variable {failures : List Failure}

/- Each failed strategy was called once, in order. -/
theorem FallsThrough.calls
    {position : Nat}
    (hFalls : FallsThrough hostname w tried failures middle)
    (hRecorded :
      ∀ s ∈ tried.zipIdx position, s.1.Recorded s.2) :
    middle.calls =
      w.calls ++ callsFrom hostname position tried := by
  induction hFalls generalizing position with
  | nil w => simp [callsFrom]
  | @cons w v middle s f tried failures hRun _ _ ih =>
      simp only [List.zipIdx_cons,
        List.forall_mem_cons] at hRecorded
      have hCalls := hRecorded.1.calls hostname w
      rw [hRun] at hCalls
      rw [ih hRecorded.2, World.report_calls, hCalls]
      simp [callsFrom, List.zipIdx_cons]

/- Each failure was told once, in order, and nothing else. -/
theorem FallsThrough.journal
    {position : Nat}
    (hFalls : FallsThrough hostname w tried failures middle)
    (hRecorded :
      ∀ s ∈ tried.zipIdx position, s.1.Recorded s.2) :
    middle.logger = w.logger ∧
      middle.journal =
        w.journal ++
          if w.logger.isEnabled Level.warning then
            List.zipWith
              (fun s f => .fellBack s.name hostname f)
              tried failures
          else
            [] := by
  induction hFalls generalizing position with
  | nil w => simp
  | @cons w v middle s f tried failures hRun _ _ ih =>
      simp only [List.zipIdx_cons,
        List.forall_mem_cons] at hRecorded
      have hJournal := hRecorded.1.journal hostname w
      have hLogger := hRecorded.1.logger hostname w
      rw [hRun] at hJournal hLogger
      rcases ih hRecorded.2 with ⟨hLater, hTold⟩
      rw [World.report_logger] at hLater hTold
      rw [World.report_journal] at hTold
      have hLevel :
          (Event.fellBack s.name hostname f).level =
            Level.warning := rfl
      simp only at hJournal hLogger
      rw [hJournal, hLogger, hLevel] at hTold
      refine ⟨hLater.trans hLogger, ?_⟩
      rw [hTold]
      cases w.logger.isEnabled Level.warning <;> simp

/-
  What a request for a hostname comes to: of the strategies,
  some fail one after another, and the next one decides.  It
  is the last one, or it does not fail, or an interrupt
  comes out of it.  If the strategies note the calls of them
  and report nothing, exactly these calls are noted, and one
  warning for each of the failures before the last attempt
  is all that is reported.
-/
def FallsBack
    (strategies : List Strategy)
    (hostname : String)
    (before : World)
    (result : Except Failure Material)
    (after : World) : Prop :=
  ∃ tried s rest failures middle,
    strategies = tried ++ s :: rest ∧
      FallsThrough hostname before tried failures middle ∧
      (s.issue hostname).runIn middle = (result, after) ∧
      (rest = [] ∨
        ∀ f, result = .error f → f.kind = .interrupt) ∧
      ((∀ x ∈ strategies.zipIdx, x.1.Recorded x.2) →
        after.calls =
            before.calls ++
              callsFrom hostname 0 (tried ++ [s]) ∧
          (before.logger.isEnabled Level.warning = true →
            ∃ warnings,
              after.journal = before.journal ++ warnings ∧
                List.Forall₂
                  (fun x e =>
                    Event.Warns e x.1.name hostname x.2)
                  (tried.zip failures) warnings ∧
                warnings.length = tried.length))

theorem FallsThrough.length_eq
    (hFalls :
      FallsThrough hostname w tried failures middle) :
    failures.length = tried.length := by
  induction hFalls with
  | nil w => rfl
  | cons _ _ _ ih => simp [ih]

/- Warnings of given strategies and failures. -/
theorem forall₂_fellBack
    (hostname : String)
    (tried : List Strategy)
    (failures : List Failure) :
    List.Forall₂
      (fun x e => Event.Warns e x.1.name hostname x.2)
      (tried.zip failures)
      (List.zipWith
        (fun s f => .fellBack s.name hostname f)
        tried failures) := by
  induction tried generalizing failures with
  | nil => exact .nil
  | cons s tried ih =>
      cases failures with
      | nil => exact .nil
      | cons f failures =>
          exact .cons (Event.fellBack_warns _ _ _)
            (ih failures)

theorem fallsBack_tryEach
    (hostname : String)
    (last : Strategy)
    (strategies : List Strategy)
    (w : World) :
    FallsBack (strategies ++ [last]) hostname w
      ((tryEach hostname last strategies).runIn w).1
      ((tryEach hostname last strategies).runIn w).2 := by
  rcases tryEach_fallsThrough hostname last strategies w with
    ⟨tried, s, rest, failures, middle, result, after, hList,
      hFalls, hRun, hLast, hTry⟩
  rw [hTry]
  refine ⟨tried, s, rest, failures, middle, hList, hFalls,
    hRun, hLast, ?_⟩
  intro hRecorded
  rw [hList, List.zipIdx_append, List.zipIdx_cons] at hRecorded
  have hTried :
      ∀ x ∈ tried.zipIdx, x.1.Recorded x.2 := by
    intro x hx
    exact hRecorded x (List.mem_append_left _ hx)
  have hStop := hRecorded (s, 0 + tried.length) (by simp)
  have hCalls := hStop.calls hostname middle
  have hJournal := hStop.journal hostname middle
  rw [hRun] at hCalls hJournal
  refine ⟨?_, ?_⟩
  · rw [hCalls, hFalls.calls hTried]
    simp [callsFrom, List.zipIdx_append]
  · intro hEnabled
    have hTold := (hFalls.journal hTried).2
    rw [hEnabled, if_pos rfl] at hTold
    refine ⟨_, hJournal.trans hTold,
      forall₂_fellBack _ _ _, ?_⟩
    simp [hFalls.length_eq]

end Provisioner

------------------------------------------------------------
-- Sessions
------------------------------------------------------------

namespace Session

/-
  Whether a request falls back through strategies, or is
  refused with the defect of its hostname and nothing done.
  Other steps are not spoken of.
-/
def FallsBack
    (strategies : List Strategy)
    (before : World)
    (s : Step)
    (r : Except Error (Option Material) × World) : Prop :=
  ∀ requested,
    s = .provision requested →
    let hostname :=
      requested.getD Provisioner.defaultHostname
    match Hostname.validate hostname with
    | .error d =>
        r = (.error (.failure (.hostname d)), before)
    | .ok _ =>
        ∃ result,
          r.1 = told result ∧
            Provisioner.FallsBack strategies hostname before
              result r.2

/-
  A provisioner of any strategies, at least one, answers
  every request of every session by falling back through
  them in order.
-/
theorem run_falls_back
    (strategies : List Strategy)
    (hSome : strategies ≠ []) :
    ∃ p,
      Provisioner.ofStrategies strategies = .ok p ∧
        ∀ steps w,
          Follows (FallsBack strategies) w steps
            (run (.kept p) steps w) := by
  have hLast := List.getLast?_eq_some_getLast hSome
  refine ⟨⟨strategies.dropLast, strategies.getLast hSome⟩,
    ?_, ?_⟩
  · rw [Provisioner.ofStrategies, hLast]
  · intro steps w
    refine run_follows ?_ steps w
    rintro before s requested rfl
    simp only [step, request, issued_eq,
      Provisioner.provision]
    cases hValid :
        Hostname.validate
          (requested.getD Provisioner.defaultHostname) with
    | error d => rfl
    | ok passed =>
        have hSame := Hostname.validate_eq_ok hValid
        have hFalls :=
          Provisioner.fallsBack_tryEach passed
            (strategies.getLast hSome) strategies.dropLast
            before
        rw [List.dropLast_append_getLast] at hFalls
        rw [hSame] at hFalls ⊢
        exact ⟨_, rfl, hFalls⟩

/- A strategy that fails and one that issues. -/
theorem run_falls_back_to_second :
    let strategies : List Strategy :=
      [.scripted 0 ⟨"first", [.error (.runtime "broken")]⟩,
        .scripted 1 ⟨"second", [.ok ⟨"key", "cert"⟩]⟩]
    strategies ≠ [] ∧
      (∀ x ∈ strategies.zipIdx, x.1.Recorded x.2) ∧
      ∃ p,
        Provisioner.ofStrategies strategies = .ok p ∧
          ∀ steps w,
            Follows (FallsBack strategies) w steps
              (run (.kept p) steps w) := by
  intro strategies
  have hSome : strategies ≠ [] := by simp [strategies]
  refine ⟨hSome, ?_, run_falls_back strategies hSome⟩
  simp only [strategies, List.zipIdx_cons, List.zipIdx_nil,
    List.forall_mem_cons]
  exact ⟨Strategy.recorded_scripted _ _,
    Strategy.recorded_scripted _ _, by simp⟩

end Session

end LocalCert
