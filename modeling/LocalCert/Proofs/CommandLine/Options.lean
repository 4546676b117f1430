import LocalCert.CommandLine.Options
import LocalCert.Proofs.Files.Paths
import Mathlib.Tactic.SplitIfs

/-
  The options of a command line that is accepted: what holds
  of them because every switch keeps it, and what the switch
  for details changes.

  Main declarations:
    * `CommandLine.options_eq_ok`
    * `CommandLine.options_of_keeps`
    * `CommandLine.isNormal_outputDir`
    * `CommandLine.options_verbose`
-/

------------------------------------------------------------
-- Accepted Command Lines
------------------------------------------------------------

namespace LocalCert

namespace CommandLine

/- The words are read, carried out, and none is left over. -/
theorem options_eq_ok
    {arguments : List String}
    {o : Options}
    (hOptions : options arguments = .ok o) :
    ∃ ps,
      parts arguments = .ok ps ∧
        collect {} ps = .ok (o, []) := by
  unfold options at hOptions
  cases hParts : parts arguments with
  | error s =>
      rw [hParts] at hOptions
      cases hOptions
  | ok ps =>
      refine ⟨ps, rfl, ?_⟩
      cases hCollect : collect {} ps with
      | error s =>
          simp only [hParts, hCollect, bind,
            Except.bind] at hOptions
          cases hOptions
      | ok r =>
          simp only [hParts, hCollect, bind,
            Except.bind] at hOptions
          by_cases hNone : r.2.isEmpty
          · rw [if_pos hNone] at hOptions
            cases hOptions
            rw [← List.isEmpty_iff.mp hNone]
          · rw [if_neg hNone] at hOptions
            cases hOptions

------------------------------------------------------------
-- What Every Switch Keeps
------------------------------------------------------------

variable {P : Options → Prop}

/- What each switch keeps, a switch with a value keeps. -/
theorem attach_keeps
    {o p : Options}
    {s : Switch}
    {attached : Attached}
    (hAssign :
      ∀ value, o.assign s value = .ok p → P p)
    (hDrop : P (o.drop s))
    (hTurnOn : o.turnOn s = .ok p → P p)
    (hAttach : o.attach s attached = .ok p) :
    P p := by
  unfold Options.attach at hAttach
  by_cases hValue : s.takesValue
  · rw [if_pos hValue] at hAttach
    split_ifs at hAttach
    · cases hAttach
      exact hDrop
    · exact hAssign _ hAttach
  · rw [if_neg hValue] at hAttach
    cases hMisfit : misfit? attached with
    | some rest =>
        rw [hMisfit] at hAttach
        cases hAttach
    | none =>
        rw [hMisfit] at hAttach
        exact hTurnOn hAttach

/- What each switch keeps, a command line keeps. -/
theorem collect_keeps
    {o p : Options}
    {ps : List Part}
    {left : List String}
    (hAssign :
      ∀ o s value p,
        P o → Options.assign o s value = .ok p → P p)
    (hDrop : ∀ o s, P o → P (Options.drop o s))
    (hTurnOn :
      ∀ o s p, P o → Options.turnOn o s = .ok p → P p)
    (hStart : P o)
    (hCollect : collect o ps = .ok (p, left)) :
    P p := by
  fun_induction collect o ps generalizing left with
  | case1 o =>
      cases hCollect
      exact hStart
  | case2 o word s attached rest ih =>
      cases hFirst : o.attach s attached with
      | error e =>
          rw [hFirst] at hCollect
          cases hCollect
      | ok next =>
          rw [hFirst] at hCollect
          refine ih next ?_ hCollect
          exact attach_keeps
            (fun value => hAssign o s value next hStart)
            (hDrop o s hStart) (hTurnOn o s next hStart)
            hFirst
  | case3 o word s hValue value rest ih =>
      cases hFirst : o.assign s value with
      | error e =>
          rw [hFirst] at hCollect
          cases hCollect
      | ok next =>
          rw [hFirst] at hCollect
          exact ih next
            (hAssign o s value next hStart hFirst) hCollect
  | case4 o word s rest hValue hNone => cases hCollect
  | case5 o word s rest hValue ih =>
      cases hFirst : o.turnOn s with
      | error e =>
          rw [hFirst] at hCollect
          cases hCollect
      | ok next =>
          rw [hFirst] at hCollect
          exact ih next (hTurnOn o s next hStart hFirst)
            hCollect
  | case6 o word role rest hAttached hAlone ih =>
      cases hRest : collect o rest with
      | error e =>
          rw [hRest] at hCollect
          cases hCollect
      | ok r =>
          rw [hRest] at hCollect
          cases hCollect
          exact ih hStart hRest

/- What is kept by all switches holds of all options. -/
theorem options_of_keeps
    {arguments : List String}
    {o : Options}
    (hAssign :
      ∀ o s value p,
        P o → Options.assign o s value = .ok p → P p)
    (hDrop : ∀ o s, P o → P (Options.drop o s))
    (hTurnOn :
      ∀ o s p, P o → Options.turnOn o s = .ok p → P p)
    (hDefault : P {})
    (hOptions : options arguments = .ok o) :
    P o := by
  rcases options_eq_ok hOptions with ⟨ps, _, hCollect⟩
  exact collect_keeps hAssign hDrop hTurnOn hDefault
    hCollect

/- The output directory has been read from a text. -/
theorem isNormal_outputDir
    {arguments : List String}
    {o : Options}
    (hOptions : options arguments = .ok o) :
    ∀ dir ∈ o.outputDir, dir.IsNormal := by
  refine options_of_keeps
    (P := fun o => ∀ dir ∈ o.outputDir, dir.IsNormal)
    ?_ ?_ ?_ ?_ hOptions
  · intro o s value p hStart hAssign
    cases s with
    | outputDir =>
        cases hAssign
        rintro _ ⟨⟩
        exact Path.isNormal_ofText value
    | timeout =>
        simp only [Options.assign] at hAssign
        split at hAssign
        · cases hAssign
          exact hStart
        · cases hAssign
    | _ =>
        cases hAssign
        exact hStart
  · intro o s hStart
    cases s with
    | outputDir => rintro _ ⟨⟩
    | _ => exact hStart
  · intro o s p hStart hOn
    cases s with
    | help => cases hOn
    | _ =>
        cases hOn
        exact hStart
  · rintro _ ⟨⟩
    exact Path.isNormal_ofText "certs"

------------------------------------------------------------
-- The Verbose Switch
------------------------------------------------------------

/- Options that also ask for details. -/
def Options.withDetails
    (o : Options) : Options :=
  { o with verbose := true }

theorem Options.assign_withDetails
    (o : Options)
    (s : Switch)
    (value : String) :
    o.withDetails.assign s value =
      (o.assign s value).map withDetails := by
  cases s with
  | timeout =>
      simp only [assign]
      cases Double.ofText? value <;> rfl
  | _ => rfl

theorem Options.turnOn_withDetails
    (o : Options)
    (s : Switch) :
    o.withDetails.turnOn s =
      (o.turnOn s).map withDetails := by
  cases s <;> rfl

theorem Options.drop_withDetails
    (o : Options)
    (s : Switch) :
    o.withDetails.drop s = (o.drop s).withDetails := by
  cases s <;> rfl

theorem Options.attach_withDetails
    (o : Options)
    (s : Switch)
    (attached : Attached) :
    o.withDetails.attach s attached =
      (o.attach s attached).map withDetails := by
  unfold attach
  simp only [drop_withDetails, assign_withDetails]
  by_cases hValue : s.takesValue
  · rw [if_pos hValue, if_pos hValue]
    split_ifs <;> rfl
  · rw [if_neg hValue, if_neg hValue]
    cases misfit? attached with
    | some rest => rfl
    | none => exact turnOn_withDetails o s

/- What the words ask for, and for details too. -/
def alsoDetails
    (r : Except Stop (Options × List String)) :
    Except Stop (Options × List String) :=
  r.map (fun x => (x.1.withDetails, x.2))

/- Options are read from a word, and then from the rest. -/
theorem collect_rest_withDetails
    {rest : List Part}
    (hRest :
      ∀ o : Options,
        collect o.withDetails rest =
          alsoDetails (collect o rest))
    (r : Except Stop Options) :
    (r.map Options.withDetails >>= fun o => collect o rest) =
      alsoDetails (r >>= fun o => collect o rest) := by
  cases r with
  | error s => rfl
  | ok o => exact hRest o

/- The details do not matter to what else is asked for. -/
theorem collect_withDetails
    (o : Options)
    (ps : List Part) :
    collect o.withDetails ps =
      alsoDetails (collect o ps) := by
  fun_induction collect o ps with
  | case1 o => rfl
  | case2 o word s attached rest ih =>
      rw [collect, Options.attach_withDetails]
      exact collect_rest_withDetails ih _
  | case3 o word s hValue value rest ih =>
      rw [collect, if_pos hValue,
        Options.assign_withDetails]
      exact collect_rest_withDetails ih _
  | case4 o word s rest hValue hNone =>
      rw [collect, if_pos hValue]
      · rfl
      · exact hNone
  | case5 o word s rest hValue ih =>
      rw [collect.eq_def]
      simp only [if_neg hValue, Options.turnOn_withDetails]
      exact collect_rest_withDetails ih _
  | case6 o word role rest hAttached hAlone ih =>
      rw [collect, ih]
      · cases collect o rest <;> rfl
      · exact hAttached
      · exact hAlone

/- The switch in front of words that are accepted. -/
theorem options_verbose
    {arguments : List String}
    {o : Options}
    (hOptions : options arguments = .ok o) :
    options ("--verbose" :: arguments) =
      .ok o.withDetails := by
  have hRole :
      roleOf "--verbose" = .ok (.switch .verbose none) :=
    rfl
  have hParts :
      parts ("--verbose" :: arguments) =
        (parts arguments).map
          (("--verbose", .switch .verbose none) :: ·) := by
    rw [parts, hRole]
  rcases options_eq_ok hOptions with ⟨ps, hRead, hCollect⟩
  have hLeft :
      collect {} (("--verbose", .switch .verbose none) :: ps) =
        .ok (o.withDetails, []) := by
    have hRest := collect_withDetails {} ps
    rw [hCollect] at hRest
    rw [collect.eq_def]
    exact hRest
  unfold options
  rw [hParts, hRead]
  simp only [Except.map, bind, Except.bind, hLeft]
  rfl

end CommandLine

end LocalCert
