import Manifest.CommandLine.Run
import Manifest.Proofs.Json.Finite

/-!
# What a run of a document prints

The words of a run name a document, and the file of the settings if there is an option for it
(`runWords`). When the settings are found and accepted, the document can be read, and it loads as a
value (`Loads`), the run prints the value in full and as data; otherwise it prints nothing. What is
evaluated always has data, and the numbers in them are finite.

One thing stands in the way: the settings may ask for an indentation that does not fit a machine
word. This is noticed after the value was printed in full, and the run breaks off there
(`run_document`, `run_tooWide`).
-/

namespace Manifest.CommandLine

/-! ### The words -/

/-- A dash alone, or a word that does not start with one. -/
def IsPlain (word : String) : Prop := word = "-" ∨ word.toList.head? ≠ some '-'

/-- The words that run a document, with the file of the settings if one is named. -/
def runWords (config : Option String) (path : String) : List String :=
  config.elim [] (fun file ↦ ["--config", file]) ++ ["run", path]

/-- What these words ask for. -/
def runOptions (config : Option String) : Options := ⟨false, config.elim .usual .named⟩

private theorem roleOf_isPlain (known : Spellings) {word : String} (plain : IsPlain word) :
    roleOf known word = .ok .plain := by
  unfold roleOf
  split
  · next second tail start =>
    obtain rfl | other := plain
    · cases start
    · rw [start] at other
      exact absurd rfl other
  · rfl

private theorem wordsOf_isPlain {known : Spellings} {word : String} (plain : IsPlain word)
    {rest : List String} {words : List MarkedWord} (others : wordsOf known rest = .ok words) :
    wordsOf known (word :: rest) = .ok (⟨word, .plain⟩ :: words) := by
  have other : word ≠ "--" := by
    rintro rfl
    obtain same | start := plain
    · exact absurd same (by decide)
    · exact absurd rfl start
  rw [wordsOf, if_neg other, roleOf_isPlain known plain, others]

variable {config : Option String} {path : String}

private theorem readProgram_run (options : Options) (plain : IsPlain path) :
    readProgram options [] [⟨"run", .plain⟩, ⟨path, .plain⟩] =
      .ok (.perform options .run (some path)) := by
  have found : Command.ofName? "run" = some .run := Command.ofName?_name .run
  have words : wordsOf (Level.command .run).spellings [path] = .ok [⟨path, .plain⟩] :=
    wordsOf_isPlain plain rfl
  rw [readProgram, readChoice, found]
  dsimp only
  rw [readCommand, List.map_cons, List.map_nil, words]
  rfl

/-- The words of a run ask for it. -/
theorem ofArguments_runWords (named : ∀ file, config = some file → IsPlain file)
    (plain : IsPlain path) :
    Request.ofArguments (runWords config path) =
      .ok (.perform (runOptions config) .run (some path)) := by
  have command : wordsOf Level.program.spellings ["run", path] =
      .ok [⟨"run", .plain⟩, ⟨path, .plain⟩] :=
    wordsOf_isPlain (.inr (by decide)) (wordsOf_isPlain plain rfl)
  rw [Request.ofArguments]
  cases config with
  | none =>
    have words : wordsOf Level.program.spellings (runWords none path) = _ := command
    rw [words]
    exact readProgram_run _ plain
  | some file =>
    have option : roleOf Level.program.spellings "--config" = .ok (.option .config .nothing) := by
      decide
    have words : wordsOf Level.program.spellings (runWords (some file) path) =
        .ok [⟨"--config", .option .config .nothing⟩, ⟨file, .plain⟩, ⟨"run", .plain⟩,
          ⟨path, .plain⟩] := by
      change wordsOf _ ["--config", file, "run", path] = _
      rw [wordsOf, if_neg (by decide), option, wordsOf_isPlain (named file rfl) command]
    rw [words]
    exact readProgram_run (runOptions (some file)) plain

/-! ### The end -/

/-- The run shows nothing, and it does not end well. -/
def Ending.Fails (ending : Ending) : Prop :=
  ending.output = "" ∧ ¬ (ending.exit = 0 ∧ ending.interruption = none)

namespace Ending

private theorem fails_failed (errors : String) : (failed errors).Fails :=
  ⟨rfl, fun well ↦ absurd well.1 Nat.one_ne_zero⟩

private theorem fails_broken (interruption : Interruption) (errors : String) :
    (broken interruption errors).Fails :=
  ⟨rfl, fun well ↦ by cases well.2⟩

end Ending

variable {workspace : Workspace} {input : String} {settings : Settings} {state : StandardState}
  {source : String} {v : Value}

/-- The settings are found, they give a state, and the document can be read. -/
structure Opens (workspace : Workspace) (input : String) (config : Option String) (path : String)
    (settings : Settings) (state : StandardState) (source : String) : Prop where
  found : Settings.load workspace config = .ok settings
  built : DispatchState.build settings [] [] () = .ok state
  read : readSource workspace.files input (some path) = .ok source

/-- A document that can be read, with the settings that are found, loads as a value. -/
def Loads (workspace : Workspace) (input : String) (config : Option String) (path : String)
    (settings : Settings) (v : Value) : Prop :=
  ∃ (state : StandardState) (source : String),
    Opens workspace input config path settings state source ∧
      (state.load standardHost source).outcome = .ok (.ok v)

private theorem fails_readSource {files : Files} {ending : Ending}
    (unread : readSource files input (some path) = .error ending) : ending.Fails := by
  unfold readSource at unread
  dsimp only at unread
  split at unread
  · cases unread
  · split at unread
    · cases unread
      exact Ending.fails_failed _
    · cases text : files.readText ((some path).getD "-") with
      | ok source =>
        rw [text] at unread
        cases unread
      | error fault =>
        rw [text] at unread
        cases unread
        exact Ending.fails_broken _ _

/-- A run carries its command out on a document that can be read, or it fails for lack of one. -/
theorem withDocument_cases (workspace : Workspace) (input : String) (config : Option String)
    (path : String) (command : Settings → StandardState → String → Ending) :
    let ending := withDocument workspace input (runOptions config) (some path) command
    (∃ settings state source errors, Opens workspace input config path settings state source ∧
      ending = .after errors (command settings state source)) ∨
    (ending.Fails ∧ ∀ settings state source,
      ¬ Opens workspace input config path settings state source) := by
  have place : (runOptions config).settings ≠ .nowhere ∧
      (runOptions config).settings.path? = config := by
    cases config <;> exact ⟨by simp [runOptions], rfl⟩
  intro ending
  have same : ending = withDocument workspace input (runOptions config) (some path) command := rfl
  rw [withDocument, prepare, if_neg place.1, place.2] at same
  cases found : Settings.load workspace config with
  | error fault =>
    rw [found] at same
    refine .inr ⟨same ▸ Ending.fails_failed _, fun settings state source opens ↦ ?_⟩
    cases found.symm.trans opens.found
  | ok settings =>
    rw [found] at same
    dsimp only [bind, Except.bind] at same
    cases built : (DispatchState.build settings [] [] () : Except Fault StandardState) with
    | error fault =>
      rw [built] at same
      refine .inr ⟨same ▸ Ending.fails_failed _, fun settings state source opens ↦ ?_⟩
      cases found.symm.trans opens.found
      cases built.symm.trans opens.built
    | ok state =>
      rw [built] at same
      cases read : readSource workspace.files input (some path) with
      | error missing =>
        rw [read] at same
        refine .inr ⟨same ▸ fails_readSource read, fun settings state source opens ↦ ?_⟩
        cases read.symm.trans opens.read
      | ok source =>
        rw [read] at same
        exact .inl ⟨settings, state, source, _, ⟨found, built, read⟩, same⟩

private theorem Opens.unique {otherSettings : Settings} {otherState : StandardState}
    {otherSource : String} (opens : Opens workspace input config path settings state source)
    (other : Opens workspace input config path otherSettings otherState otherSource) :
    otherSettings = settings ∧ otherState = state ∧ otherSource = source := by
  obtain rfl := Except.ok.inj (other.found.symm.trans opens.found)
  obtain rfl := Except.ok.inj (other.built.symm.trans opens.built)
  exact ⟨rfl, rfl, Except.ok.inj (other.read.symm.trans opens.read)⟩

private theorem Loads.unique {otherSettings : Settings} {w : Value}
    (loads : Loads workspace input config path settings v)
    (other : Loads workspace input config path otherSettings w) :
    otherSettings = settings ∧ w = v := by
  obtain ⟨state, source, opens, loaded⟩ := loads
  obtain ⟨otherState, otherSource, others, again⟩ := other
  obtain ⟨rfl, rfl, rfl⟩ := opens.unique others
  exact ⟨rfl, Except.ok.inj (Except.ok.inj (again.symm.trans loaded))⟩

/-- The standard functions make no floats. -/
theorem keepsFloats_standardHost : Host.KeepsFloats standardHost :=
  Callee.keepsFloats_act fun function ↦ nomatch function

/-- A document that loads is shown in full and then, if the indentation fits, as data; one that
does not load makes the run fail. -/
theorem runDocument_cases (options : Options) (settings : Settings) (state : StandardState)
    (source : String) :
    let ending := runDocument options settings state source
    match (state.load standardHost source).outcome with
    | .ok (.ok v) => ending.exit = 0 ∧ ∃ data, v.project = .ok data ∧
      (∀ x ∈ data.reals, x.isFinite = true) ∧
      if Json.Spacing.admits settings.indent then
        ending.interruption = none ∧
          ending.output = v.describe ++ "\n" ++ data.text settings.indent ++ "\n"
      else ending.interruption = some .indentation ∧ ending.output = v.describe ++ "\n"
    | _ => ending.Fails := by
  intro ending
  have same : ending = runDocument options settings state source := rfl
  rw [runDocument] at same
  cases loaded : (state.load standardHost source).outcome with
  | error fault =>
    rw [loaded] at same
    exact same ▸ Ending.fails_broken _ _
  | ok outcome =>
    rw [loaded] at same
    cases outcome with
    | error failure => exact same ▸ Ending.fails_failed _
    | ok v =>
      -- What is evaluated has data, so that only the indentation may break the writing off.
      obtain ⟨data, projected, finite⟩ :=
        DispatchState.finite_of_load keepsFloats_standardHost loaded
      have written : writeData settings.indent (.value v) =
          if Json.Spacing.admits settings.indent then .ok ((Json.object data).text settings.indent)
          else .error .indentation := by
        rw [writeData, Datum.toJson_of_project projected]
        change Except.mapError _ (if Json.Spacing.admits settings.indent then _ else _) = _
        split <;> rfl
      dsimp only at same ⊢
      rw [written] at same
      by_cases fits : Json.Spacing.admits settings.indent = true
      · rw [if_pos fits] at same
        refine ⟨same ▸ rfl, .object data, projected, finite, ?_⟩
        rw [if_pos fits, same]
        exact ⟨rfl, rfl⟩
      · rw [if_neg fits] at same
        refine ⟨same ▸ rfl, .object data, projected, finite, ?_⟩
        rw [if_neg fits, same]
        exact ⟨rfl, rfl⟩

/-- Either a run shows the document that loads, or nothing loads, and it prints nothing and does
not end well. -/
theorem run_cases (workspace : Workspace) (input : String)
    (named : ∀ file, config = some file → IsPlain file) (plain : IsPlain path) :
    let report := run workspace input (runWords config path)
    (∃ settings v data, Loads workspace input config path settings v ∧ report.exit = 0 ∧
      v.project = .ok data ∧ (∀ x ∈ data.reals, x.isFinite = true) ∧
      if Json.Spacing.admits settings.indent then
        report.interruption = none ∧
          report.output = v.describe ++ "\n" ++ data.text settings.indent ++ "\n"
      else report.interruption = some .indentation ∧ report.output = v.describe ++ "\n") ∨
    ((∀ settings v, ¬ Loads workspace input config path settings v) ∧ report.output = "" ∧
      ¬ (report.exit = 0 ∧ report.interruption = none)) := by
  intro report
  have same : report = (withDocument workspace input (runOptions config) (some path)
      (runDocument (runOptions config))).report workspace.files := by
    change run workspace input (runWords config path) = _
    rw [run, ofArguments_runWords named plain]
    rfl
  rw [same]
  obtain ⟨settings, state, source, errors, opens, ended⟩ | ⟨fails, lacking⟩ :=
    withDocument_cases workspace input config path (runDocument (runOptions config))
  · rw [ended]
    have shown := runDocument_cases (runOptions config) settings state source
    split at shown
    · next v loaded =>
      obtain ⟨exit, data, projected, finite, shown⟩ := shown
      have loads : Loads workspace input config path settings v := ⟨state, source, opens, loaded⟩
      exact .inl ⟨settings, v, data, loads, exit, projected, finite, shown⟩
    · next other =>
      refine .inr ⟨fun settings v ⟨state, source, others, loaded⟩ ↦ ?_, shown⟩
      obtain ⟨rfl, rfl, rfl⟩ := opens.unique others
      exact other v loaded
  · refine .inr ⟨fun settings v ⟨state, source, opens, _⟩ ↦ ?_, fails⟩
    exact lacking settings state source opens

/-- A run of a document goes well exactly when the settings are found and give a state, the
document can be read and loads as a value, and the indentation fits a machine word. Then it prints
the value in full and as data, all of whose floating point numbers are finite. If only the
indentation does not fit, the run breaks off after the value was printed in full. In all other
cases it prints nothing. -/
theorem run_document (workspace : Workspace) (input : String)
    (named : ∀ file, config = some file → IsPlain file) (plain : IsPlain path) :
    let report := run workspace input (runWords config path)
    (report.exit = 0 ∧ report.interruption = none ↔
      ∃ settings v, Loads workspace input config path settings v ∧
        Json.Spacing.admits settings.indent = true) ∧
    (∀ settings v, Loads workspace input config path settings v →
      ∃ data, v.project = .ok data ∧ (∀ x ∈ data.reals, x.isFinite = true) ∧
        if Json.Spacing.admits settings.indent then
          report.output = v.describe ++ "\n" ++ data.text settings.indent ++ "\n"
        else report.interruption = some .indentation ∧ report.output = v.describe ++ "\n") ∧
    ((∀ settings v, ¬ Loads workspace input config path settings v) → report.output = "") := by
  intro report
  obtain ⟨settings, v, data, loads, exit, projected, finite, shown⟩ | ⟨lacking, nothing, failed⟩ :=
    run_cases workspace input named plain
  · have only : ∀ others w, Loads workspace input config path others w →
        others = settings ∧ w = v := fun _ _ other ↦ loads.unique other
    refine ⟨⟨fun well ↦ ⟨settings, v, loads, ?_⟩, ?_⟩, ?_,
      fun lacking ↦ absurd loads (lacking _ _)⟩
    · by_contra wide
      rw [if_neg wide] at shown
      cases shown.1.symm.trans well.2
    · rintro ⟨others, w, other, fits⟩
      obtain ⟨rfl, rfl⟩ := only others w other
      rw [if_pos fits] at shown
      exact ⟨exit, shown.1⟩
    · intro others w other
      obtain ⟨rfl, rfl⟩ := only others w other
      refine ⟨data, projected, finite, ?_⟩
      split at shown
      · next fits =>
        rw [if_pos fits]
        exact shown.2
      · next wide =>
        rw [if_neg wide]
        exact shown
  · refine ⟨⟨fun well ↦ absurd well failed, fun ⟨settings, v, loads, _⟩ ↦ ?_⟩,
      fun settings v loads ↦ absurd loads (lacking settings v), fun _ ↦ nothing⟩
    exact absurd loads (lacking settings v)

private def withSettings (text : String) : Workspace :=
  ⟨⟨[(["c"], .file (text.toList.map fun c ↦ UInt8.ofNat c.toNat))]⟩, "/"⟩

private theorem isPlain_file : ∀ file, some "c" = some file → IsPlain file := by
  rintro file ⟨⟩
  exact .inr (by decide)

private def standardState : StandardState := .ofLibrary (Callee.library [] []) languageVersion ()

private def unindented : Workspace := withSettings "\x7b\"indent\": 0\x7d"

private def sevenText : String := "x = @number \"7\" y = 0.5"

private def seven : Value :=
  .object [.record "x" (.number 7), .record "y" (.float (.signed false 0x3f000000 (by decide)))]

private theorem loads_seven :
    Loads unindented sevenText (some "c") "-" ⟨languageVersion, none, none, 0⟩ seven := by
  refine ⟨standardState, sevenText, ⟨by decide +kernel, rfl, rfl⟩, by decide +kernel⟩

/-- A call and a float are printed in full and, without an indentation, as data. -/
theorem run_document_seven :
    let report := run unindented sevenText ["--config", "c", "run", "-"]
    report.exit = 0 ∧ report.interruption = none ∧
      report.output = "Object(entries=(Record(id='x', value=Number(value=7)), " ++
        "Record(id='y', value=Float(value=0.5))))\n\x7b\n\"x\": 7,\n\"y\": 0.5\n\x7d\n" := by
  intro report
  obtain ⟨well, shown, -⟩ := run_document unindented sevenText isPlain_file (.inl rfl)
  obtain ⟨exit, finished⟩ := well.mpr ⟨_, _, loads_seven, rfl⟩
  obtain ⟨data, projected, -, printed⟩ := shown _ _ loads_seven
  cases projected
  exact ⟨exit, finished, printed.trans (by decide +kernel)⟩

private def tooWide : Workspace := withSettings "\x7b\"indent\": 9223372036854775808\x7d"

/-- The indentation 2^63 is accepted with the settings, and the empty document loads. Its run
breaks off between the two things that it should print. -/
theorem run_tooWide :
    Loads tooWide "" (some "c") "-" ⟨languageVersion, none, none, 9223372036854775808⟩
      (.object []) ∧
      let report := run tooWide "" ["--config", "c", "run", "-"]
      report.interruption = some .indentation ∧ report.output = "Object(entries=())\n" := by
  have loads : Loads tooWide "" (some "c") "-" ⟨languageVersion, none, none, 9223372036854775808⟩
      (.object []) :=
    ⟨standardState, "", ⟨by decide +kernel, rfl, rfl⟩, by decide +kernel⟩
  obtain ⟨settings, v, data, other, -, -, -, shown⟩ | ⟨lacking, -⟩ :=
    run_cases tooWide "" isPlain_file (.inl rfl)
  · obtain ⟨rfl, rfl⟩ := loads.unique other
    rw [if_neg (by decide)] at shown
    exact ⟨loads, shown⟩
  · exact absurd loads (lacking _ _)

end Manifest.CommandLine
