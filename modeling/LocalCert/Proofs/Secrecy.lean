import LocalCert.Proofs.CommandLine.Alike

/-
  Secrecy of keys.  Two worlds differ only in the texts that
  tools are to write into key files.  Whatever a session or
  the program does in both, the two runs can be told apart
  by the keys of issued pairs, and by the key file that the
  program leaves, only.

  Main declarations:
    * `World.Twin`
    * `Session.SameButKeys`
    * `Session.alike_run`
    * `CommandLine.alike_perform_but_output`
    * `keys_stay_secret`
-/

------------------------------------------------------------
-- Twin Worlds And Sessions
------------------------------------------------------------

namespace LocalCert

/-
  The same world, but for the texts that tools are to write
  into key files.
-/
def World.Twin
    (w v : World) : Prop :=
  v = { w with script := v.script } ∧
    List.Forall₂ Behaviour.Alike w.script v.script

theorem World.Twin.alike
    {w v : World}
    (D : Files.Difference)
    (hTwin : w.Twin v) :
    w.Alike D v :=
  ⟨w.files, v.script, hTwin.1, .refl _, hTwin.2⟩

/- The same certificate and the same shown form. -/
def Material.SameButKey
    (m n : Material) : Prop :=
  m.cert = n.cert ∧ m.shown = n.shown

theorem Strategy.Known.hidesKeys
    {s : Strategy}
    (hKnown : s.Known) :
    s.HidesKeys := by
  cases hKnown with
  | trusted =>
      exact hidesKeys_trusted
        (fun _ _ hWorlds => hWorlds.config_eq)
  | manual =>
      exact hidesKeys_manual
        (fun _ _ hWorlds => hWorlds.config_eq)
  | scripted position a =>
      exact hidesKeys_scripted position a

namespace Session

/-
  The same step, but for the texts that tools are to write
  into key files.
-/
inductive Step.Alike : Step → Step → Prop where
  | same (s : Step) : Alike s s
  | behaviours
      (bs cs : List Behaviour)
      (hScripts : List.Forall₂ Behaviour.Alike bs cs) :
      Alike (.addBehaviours bs) (.addBehaviours cs)

/-
  Results of one step in two runs, with all that was logged
  and all calls up to then, that differ in keys only.
-/
structure SameButKeys
    (r s : Except Error (Option Material) × World) : Prop
  where
  result :
    Match (Option.Rel Material.SameButKey) r.1 s.1
  journal : s.2.journal = r.2.journal
  calls : s.2.calls = r.2.calls
  worlds : r.2.Alike Files.KeyTexts s.2

variable {keeper : Keeper}
variable {w v : World}

theorem sameButKeys_of_alike
    {r s : Except Error (Option Material) × World}
    (hResult :
      Match (Option.Rel Material.SameButKey) r.1 s.1)
    (hWorlds : r.2.Alike Files.KeyTexts s.2) :
    SameButKeys r s := by
  refine ⟨hResult, ?_, ?_, hWorlds⟩
  · rcases hWorlds with ⟨files, script, hTwin, _, _⟩
    rw [hTwin]
  · rcases hWorlds with ⟨files, script, hTwin, _, _⟩
    rw [hTwin]

/- Pairs issued in both worlds have one certificate. -/
theorem sameButKeys_issued
    {act twin : Act Material}
    (hActs :
      Act.Relates (World.Alike Files.KeyTexts)
        Material.SameCert act twin)
    (hWorlds : w.Alike Files.KeyTexts v) :
    SameButKeys (issued act w) (issued twin v) := by
  rcases hActs w v hWorlds with ⟨hResults, hAfter⟩
  rw [issued_eq, issued_eq]
  refine sameButKeys_of_alike ?_ hAfter
  rcases hResults.cases with
    ⟨f, hRun, hTwin⟩ | ⟨m, n, hRun, hTwin, hPairs⟩
  · rw [hRun, hTwin]
    exact rfl
  · rw [hRun, hTwin]
    refine Option.Rel.some ⟨hPairs, ?_⟩
    unfold Material.shown
    rw [hPairs]

theorem relates_request
    (hKeeper : keeper.Known)
    (hostname : String)
    (hWorlds : w.Alike Files.KeyTexts v) :
    Act.Relates (World.Alike Files.KeyTexts)
      Material.SameCert (request keeper hostname w)
      (request keeper hostname v) := by
  cases keeper with
  | kept p =>
      refine Provisioner.relates_provision
        Act.relates_report ?_
      intro s hs
      exact (hKeeper s hs).hidesKeys
  | fresh =>
      have hRequest :
          request .fresh hostname v =
            request .fresh hostname w := by
        simp only [request, hWorlds.config_eq]
      rw [hRequest]
      exact Provisioner.relates_standard
        (fun _ _ _ => rfl) hostname

/- One step in both worlds. -/
theorem alike_step
    {s twin : Step}
    (hKeeper : keeper.Known)
    (hSteps : s.Alike twin)
    (hWorlds : w.Alike Files.KeyTexts v) :
    SameButKeys (step keeper s w) (step keeper twin v) := by
  have hBoth := hWorlds
  rcases hWorlds with ⟨files, script, rfl, hFiles, hScript⟩
  cases hSteps with
  | behaviours bs cs hScripts =>
      exact sameButKeys_of_alike .none
        ⟨files, script ++ cs, rfl, hFiles,
          List.rel_append hScript hScripts⟩
  | same =>
      cases s with
      | provision hostname =>
          simp only [step]
          exact sameButKeys_issued
            (relates_request hKeeper _ hBoth) hBoth
      | trusted hostname =>
          simp only [step]
          exact sameButKeys_issued
            (Strategy.Known.hidesKeys .trusted hostname)
            hBoth
      | manual hostname =>
          simp only [step]
          exact sameButKeys_issued
            (Strategy.Known.hidesKeys .manual hostname)
            hBoth
      | assign settings =>
          exact sameButKeys_of_alike .none
            ⟨files, script, rfl, hFiles, hScript⟩
      | setLevel level =>
          simp only [step, setLevel]
          cases w.logger.setLevel level with
          | ok logger =>
              exact sameButKeys_of_alike .none
                ⟨files, script, rfl, hFiles, hScript⟩
          | error e => exact sameButKeys_of_alike rfl hBoth
      | addBehaviours bs =>
          refine sameButKeys_of_alike .none
            ⟨files, script ++ bs, rfl, hFiles, ?_⟩
          exact List.rel_append hScript
            (List.forall₂_same.mpr (fun b _ => .refl b))
      | setRemovalFault words =>
          exact sameButKeys_of_alike .none
            ⟨files, script, rfl, hFiles, hScript⟩

/- Whole runs in both worlds, by their steps. -/
theorem alike_run
    {steps twins : List Step}
    (hKeeper : keeper.Known)
    (hSteps : List.Forall₂ Step.Alike steps twins)
    (hWorlds : w.Alike Files.KeyTexts v) :
    List.Forall₂ SameButKeys (run keeper steps w)
      (run keeper twins v) := by
  induction hSteps generalizing w v with
  | nil => exact .nil
  | cons hFirst _ ih =>
      have hStep := alike_step hKeeper hFirst hWorlds
      rw [run_cons, run_cons]
      exact .cons hStep (ih hStep.worlds)

------------------------------------------------------------
-- Undisturbed Sessions
------------------------------------------------------------

/-
  Whether in every step the tools keep to their workspaces,
  and no removal of a workspace fails.
-/
def Undisturbed
    (w : World)
    (results : List (Except Error (Option Material) × World)) :
    Prop :=
  List.IsChain
    (fun before after =>
      before.Confined ∧ before.Cleared after)
    (w :: results.map Prod.snd)

theorem undisturbed_nil
    (keeper : Keeper)
    (w : World) :
    Undisturbed w (run keeper [] w) :=
  .singleton w

theorem undisturbed_cons
    {s : Step}
    {ss : List Step} :
    Undisturbed w (run keeper (s :: ss) w) ↔
      (w.Confined ∧ w.Cleared (step keeper s w).2) ∧
        Undisturbed (step keeper s w).2
          (run keeper ss (step keeper s w).2) := by
  unfold Undisturbed
  rw [run_cons, List.map_cons, List.isChain_cons_cons]

/- In an undisturbed session the files stay as they are. -/
theorem run_files_eq
    {steps : List Step}
    (hKeeper : keeper.Known)
    (hFiles : w.files.WellFormed)
    (hRun : Undisturbed w (run keeper steps w)) :
    ∀ r ∈ run keeper steps w, r.2.files = w.files := by
  induction steps generalizing w with
  | nil =>
      intro r hr
      cases hr
  | cons s ss ih =>
      rcases undisturbed_cons.mp hRun with
        ⟨⟨hConfined, hCleared⟩, hRest⟩
      rcases step_restores hKeeper s w hFiles with
        ⟨hAfter, hRestored⟩
      have hFirst := hRestored hConfined hCleared
      intro r hr
      rw [run_cons] at hr
      rcases List.mem_cons.mp hr with rfl | hr
      · exact hFirst
      · rw [ih hAfter hRest r hr, hFirst]

end Session

------------------------------------------------------------
-- Undisturbed Programs
------------------------------------------------------------

namespace CommandLine

/- What a key may change at last: the output key file. -/
def OutputKey
    (cwd : Files.Location)
    (o : Options) : Files.Difference :=
  fun l _ _ =>
    ∃ dir ∈ o.outputDir,
      l =
        Files.destination cwd
          (Path.ofText (Output.keyPath dir).text)

variable {o : Options}
variable {w v : World}

/- In twin worlds as many removals of workspaces fail. -/
theorem cleared_acquire
    (hTwin : w.Twin v)
    (hCleared : (prepare o w).Cleared (perform o w).2) :
    (prepare o w).Cleared
        ((acquire o).runIn (prepare o w)).2 ∧
      (prepare o v).Cleared
        ((acquire o).runIn (prepare o v)).2 := by
  have hAlike := alike_prepare o (hTwin.alike Files.KeyTexts)
  have hFaults := perform_meetsNone o w
  rcases (relates_acquire o _ _ hAlike).2 with
    ⟨files, script, hAfter, _, _⟩
  rcases hAlike with ⟨start, rest, hStart, _, _⟩
  unfold World.Cleared World.MeetsNone at *
  rw [hFaults] at hCleared
  constructor
  · exact hCleared
  · rw [hAfter, hStart]
    exact hCleared

/-
  If tools keep to their workspaces and no removal fails,
  the files that are left differ in the output key only.
-/
theorem alike_perform_but_output
    (hTwin : w.Twin v)
    (hFiles : w.files.WellFormed)
    (hConfined : (prepare o w).Confined)
    (hTwinConfined : (prepare o v).Confined)
    (hCleared : (prepare o w).Cleared (perform o w).2) :
    AnswersAlike (OutputKey w.cwd o) (perform o w)
      (perform o v) := by
  have hAlike := alike_prepare o (hTwin.alike Files.KeyTexts)
  rcases cleared_acquire hTwin hCleared with
    ⟨hFirst, hSecond⟩
  have hSameFiles : v.files = w.files := by
    rw [hTwin.1]
  have hRestores := restores_acquire o (prepare o w)
  have hLeft :
      ((acquire o).runIn (prepare o w)).2.files = w.files :=
    hRestores.files hFiles hConfined hFirst
  have hTwinLeft :
      ((acquire o).runIn (prepare o v)).2.files =
        w.files := by
    rw [← hSameFiles] at hFiles ⊢
    exact (restores_acquire o (prepare o v)).files hFiles
      hTwinConfined hSecond
  rcases relates_acquire o _ _ hAlike with
    ⟨hPairs, files, script, hAfter, _, hScript⟩
  have hSame :
      files = ((acquire o).runIn (prepare o w)).2.files := by
    rw [hAfter] at hTwinLeft
    rw [hLeft]
    exact hTwinLeft
  refine alike_perform_of_acquire hPairs ?_ ?_
  · refine ⟨files, script, hAfter, ?_, hScript⟩
    rw [hSame]
    exact .refl _
  · intro dir hDir k k'
    refine ⟨dir, hDir, ?_⟩
    rw [hRestores.leads.cwd]
    rfl

/-
  Results of the program in two runs, with all that was
  logged and all calls, that differ in key files only.  What
  is printed and the exit status are read off the result.
-/
structure SameButKeys
    (r s : Result × World) : Prop where
  result : s.1 = r.1
  journal : s.2.journal = r.2.journal
  calls : s.2.calls = r.2.calls
  worlds : r.2.Alike Files.KeyTexts s.2

theorem sameButKeys_run
    (arguments : List String)
    (hWorlds : w.Alike Files.KeyTexts v) :
    SameButKeys (run arguments w) (run arguments v) := by
  have hAnswers :
      AnswersAlike Files.KeyTexts (run arguments w)
        (run arguments v) := by
    unfold run
    cases options arguments with
    | error s => exact ⟨rfl, hWorlds⟩
    | ok o => exact alike_perform o hWorlds
  rcases hAnswers with ⟨hResult, hLeft⟩
  have hRecord := hLeft
  rcases hRecord with ⟨files, script, hAfter, _, _⟩
  exact ⟨hResult, by rw [hAfter], by rw [hAfter], hLeft⟩

end CommandLine

------------------------------------------------------------
-- Secrecy
------------------------------------------------------------

/-
  Nothing but the keys of issued pairs depends on the texts
  that tools write into key files.  In a session every step
  gives the same failure or the same certificate, and leaves
  the same journal and calls; the program gives the same
  answer.  Files differ only where a key is written: if the
  tools keep to their workspaces and these are removed, then
  in a session nowhere, and after the program in the output
  key file.
-/
theorem keys_stay_secret
    (keeper : Session.Keeper)
    (hKeeper : keeper.Known)
    (w v : World)
    (hTwin : w.Twin v) :
    (∀ steps twins : List Session.Step,
      List.Forall₂ Session.Step.Alike steps twins →
      List.Forall₂ Session.SameButKeys
          (Session.run keeper steps w)
          (Session.run keeper twins v) ∧
        (w.files.WellFormed →
          Session.Undisturbed w
            (Session.run keeper steps w) →
          Session.Undisturbed v
            (Session.run keeper twins v) →
          ∀ r ∈ Session.run keeper steps w ++
              Session.run keeper twins v,
            r.2.files = w.files)) ∧
      ∀ arguments : List String,
        let answer := CommandLine.run arguments w
        let twin := CommandLine.run arguments v
        CommandLine.SameButKeys answer twin ∧
          ∀ o,
            CommandLine.options arguments = .ok o →
            w.files.WellFormed →
            (CommandLine.prepare o w).Confined →
            (CommandLine.prepare o v).Confined →
            (CommandLine.prepare o w).Cleared answer.2 →
            answer.2.files.Alike
              (CommandLine.OutputKey w.cwd o)
              twin.2.files := by
  have hSameFiles : v.files = w.files := by
    rw [hTwin.1]
  constructor
  · intro steps twins hSteps
    refine ⟨Session.alike_run hKeeper hSteps
      (hTwin.alike _), ?_⟩
    intro hFiles hRun hTwinRun r hr
    rcases List.mem_append.mp hr with hr | hr
    · exact Session.run_files_eq hKeeper hFiles hRun r hr
    · rw [← hSameFiles] at hFiles ⊢
      exact Session.run_files_eq hKeeper hFiles hTwinRun r hr
  · intro arguments answer twin
    refine ⟨CommandLine.sameButKeys_run arguments
      (hTwin.alike _), ?_⟩
    intro o hOptions hFiles hConfined hTwinConfined hCleared
    have hRun :
        ∀ u, CommandLine.run arguments u =
          CommandLine.perform o u := by
      intro u
      unfold CommandLine.run
      rw [hOptions]
    simp only [answer, twin, hRun] at hCleared ⊢
    rcases (CommandLine.alike_perform_but_output hTwin
        hFiles hConfined hTwinConfined hCleared).2 with
      ⟨files, script, hAfter, hLeft, _⟩
    rw [hAfter]
    exact hLeft

/-
  Tools that write one key and tools that write another, in
  a session of one step and in the program.
-/
theorem two_keys_stay_secret :
    let world (key : String) : World :=
      { files := ⟨[(["tmp"], .directory 0o777)]⟩
        cwd := []
        tempDir := "/tmp"
        script :=
          [{ files :=
              [("key.pem", .ofText key),
               ("cert.pem", .ofText "c")] }] }
    let session (key : String) :=
      Session.run .fresh [.trusted "a"] (world key)
    let keys (key : String) :=
      (session key).filterMap
        (fun r => r.1.toOption.join.map Material.key)
    let answer (key : String) :=
      CommandLine.run [] (world key)
    (world "one").Twin (world "two") ∧
      (keys "one" = ["one"] ∧ keys "two" = ["two"]) ∧
      List.Forall₂ Session.SameButKeys (session "one")
        (session "two") ∧
      (∀ r ∈ session "one" ++ session "two",
        r.2.files = (world "one").files) ∧
      CommandLine.SameButKeys (answer "one") (answer "two") ∧
      (answer "one").2.files.Alike
        (CommandLine.OutputKey (world "one").cwd {})
        (answer "two").2.files := by
  intro world session keys answer
  have hTwin : (world "one").Twin (world "two") :=
    ⟨rfl, .cons ⟨rfl, rfl,
      .cons (.key _ _ _ _ (by decide))
        (.cons (.same _) .nil)⟩ .nil⟩
  have hFiles : (world "one").files.WellFormed := by
    decide
  have hPlain :
      ∀ key, ∀ b ∈ (world key).script,
        ∀ f ∈ b.files, Files.IsPlainName f.1 := by
    intro key b hb f hf
    rw [List.mem_singleton.mp hb] at hf
    have hNames :
        ∀ name ∈ ["key.pem", "cert.pem"],
          Files.IsPlainName name := by
      decide
    refine hNames f.1 ?_
    exact List.mem_map_of_mem (f := Prod.fst) hf
  have hConfig : ({} : Config).NamesNoFlag := by
    decide
  have hConfined : ∀ key, (world key).Confined := by
    intro key
    exact World.confined_of_plain hFiles hConfig
      (hPlain key)
  have hPrepared :
      ∀ key,
        (CommandLine.prepare {} (world key)).Confined := by
    intro key
    exact World.confined_of_plain hFiles hConfig
      (hPlain key)
  have hUndisturbed :
      ∀ key,
        (world key).Cleared
          (Session.step .fresh (.trusted "a")
            (world key)).2 →
        Session.Undisturbed (world key) (session key) := by
    intro key hCleared
    exact Session.undisturbed_cons.mpr
      ⟨⟨hConfined key, hCleared⟩,
        Session.undisturbed_nil _ _⟩
  have hSecret :=
    keys_stay_secret .fresh trivial (world "one")
      (world "two") hTwin
  rcases hSecret.1 [.trusted "a"] [.trusted "a"]
      (.cons (.same _) .nil) with ⟨hSame, hRestored⟩
  rcases hSecret.2 [] with ⟨hAnswer, hLeft⟩
  have hOne :
      keys "one" = ["one"] ∧
        (world "one").Cleared
          (Session.step .fresh (.trusted "a")
            (world "one")).2 := by
    decide +kernel
  have hTwo :
      keys "two" = ["two"] ∧
        (world "two").Cleared
          (Session.step .fresh (.trusted "a")
            (world "two")).2 := by
    decide +kernel
  refine ⟨hTwin, ⟨hOne.1, hTwo.1⟩, hSame, ?_, hAnswer, ?_⟩
  · exact hRestored hFiles (hUndisturbed "one" hOne.2)
      (hUndisturbed "two" hTwo.2)
  · have hOptions : CommandLine.options [] = .ok {} := by
      decide +kernel
    have hCleared :
        (CommandLine.prepare {} (world "one")).Cleared
          (CommandLine.run [] (world "one")).2 := by
      decide +kernel
    have hFinal :=
      hLeft {} hOptions hFiles (hPrepared "one")
        (hPrepared "two") hCleared
    simp only [answer]
    exact hFinal

end LocalCert
