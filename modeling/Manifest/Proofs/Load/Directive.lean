import Manifest.Proofs.Dispatch.Idempotence
import Manifest.Proofs.Dispatch.Selection
import Manifest.Proofs.Dispatch.Standard
import Manifest.Proofs.Document.Printing
import Manifest.Proofs.Load.Confinement

/-!
# Selections by a directive

The functions active at the start can be named in the settings, or by a directive in front of a
document (`Document.directive`). Either way they are selected for the calls that stand for a value
and then for those that stand for a record (`DispatchState.selectBoth`): the settings do so when
the state is built (`build_named`), the directive when it is evaluated (`evaluate_directive`), with
the same tables at the end, and the same name at fault when the library lacks one
(`load_directive`).
-/

namespace Manifest

/-! ### The text -/

namespace Document

/-- Names between quotes, with a space before each. -/
def quotedNames (names : List String) : List Char :=
  names.flatMap fun name ↦ ' ' :: '"' :: (name.toList ++ ['"'])

/-- The directive that names the functions to be active, in one array for each kind of call. -/
def directive (values records : List String) : String :=
  "#meta-eval \x7b value = [" ++ String.ofList (quotedNames values) ++ " ] record = [" ++
    String.ofList (quotedNames records) ++ " ] \x7d"

/-- What the directive says of one kind of call. -/
def directiveEntry (id : String) (names : List String) : Entry :=
  .record id (.array (names.map .text))

/-- What the directive calls its function with. -/
def directiveEntries (values records : List String) : List Entry :=
  [directiveEntry "value" values, directiveEntry "record" records]

private theorem written_names (names : List String) :
    Token.written (Value.itemWords (names.map .text)) = quotedNames names := by
  induction names with
  | nil => rfl
  | cons name names ih =>
    rw [List.map_cons, Value.itemWords, Value.words, Token.written, List.flatMap_append]
    rw [Token.written] at ih
    rw [ih]
    simp [quotedNames]

private theorem itemsLiteral_names {names : List String}
    (plain : ∀ name ∈ names, '"' ∉ name.toList) :
    Value.itemsLiteral (names.map .text) = true := by
  induction names with
  | nil => rfl
  | cons name names ih =>
    obtain ⟨first, others⟩ := List.forall_mem_cons.mp plain
    rw [List.map_cons, Value.itemsLiteral, ih others]
    simpa [Value.isLiteral] using first

private theorem itemsNesting_names (names : List String) :
    Value.itemsNesting (names.map .text) = 0 := by
  induction names with
  | nil => rfl
  | cons name names ih =>
    rw [List.map_cons, Value.itemsNesting, ih]
    rfl

private theorem itemsResolved_names (names : List String) :
    Value.itemsResolved (names.map .text) = true := by
  induction names with
  | nil => rfl
  | cons name names ih =>
    rw [List.map_cons, Value.itemsResolved, ih]
    rfl

variable {values records : List String}

private theorem written_directive (values records : List String) :
    Token.written (Value.words (.object (directiveEntries values records))) =
      " \x7b value = [".toList ++ quotedNames values ++ " ] record = [".toList ++
        quotedNames records ++ " ] \x7d".toList := by
  have start : Token.written [⟨.openBrace, "\x7b"⟩, ⟨.identifier, "value"⟩, ⟨.assign, "="⟩,
        ⟨.openBracket, "["⟩] = " \x7b value = [".toList := by decide
  have middle : Token.written [⟨.closeBracket, "]"⟩, ⟨.identifier, "record"⟩, ⟨.assign, "="⟩,
      ⟨.openBracket, "["⟩] = " ] record = [".toList := by decide
  have stop : Token.written [⟨.closeBracket, "]"⟩, ⟨.closeBrace, "\x7d"⟩] = " ] \x7d".toList := by
    decide
  rw [← written_names, ← written_names, ← start, ← middle, ← stop]
  simp only [Token.written, ← List.flatMap_append]
  simp [directiveEntries, directiveEntry, Value.words, Value.entryWords]

private theorem toList_directive (values records : List String) :
    (directive values records).toList = ['#'] ++ ("meta-eval".toList ++
      Token.written (Value.words (.object (directiveEntries values records)))) := by
  have start : "#meta-eval \x7b value = [".toList =
      ['#'] ++ ("meta-eval".toList ++ " \x7b value = [".toList) := by decide
  have text : directive values records =
      "#meta-eval \x7b value = [" ++ String.ofList (quotedNames values) ++ " ] record = [" ++
        String.ofList (quotedNames records) ++ " ] \x7d" := rfl
  simp only [text, String.toList_append, String.toList_ofList]
  rw [written_directive, start]
  simp only [List.append_assoc]

private theorem spells_directive (values records : List String)
    (lexical : ∀ w ∈ Value.words (.object (directiveEntries values records)), w.IsLexical) :
    Token.Spells 0 (directive values records).toList
      (Value.entryWords [.call "meta-eval" (.object (directiveEntries values records))]) := by
  have mark : Word.IsLexical ⟨.recordMark, "#"⟩ := Token.isLexical_mark rfl rfl
  have name : Word.IsLexical ⟨.identifier, "meta-eval"⟩ := (Token.isName_iff _).mp (by decide)
  have argument := Token.spells_written (0 + 1 + 9) lexical
  have called : Token.Spells (0 + 1) _ (⟨.identifier, "meta-eval"⟩ :: _) :=
    argument.lexeme name (Token.goesOn_written .identifier _)
  rw [toList_directive, Value.entryWords, Value.entryWords, List.append_nil]
  exact called.lexeme mark fun _ _ ↦ rfl

/-- A directive is read as the call of the function that selects. -/
theorem ofSource_directive (plain : ∀ name ∈ values ++ records, '"' ∉ name.toList) :
    ofSource (directive values records) =
      .ok (.object [.call "meta-eval" (.object (directiveEntries values records))]) := by
  obtain ⟨first, second⟩ := List.forall_mem_append.mp plain
  have names : Token.isName "meta-eval" = true ∧ Token.isName "value" = true ∧
      Token.isName "record" = true := by decide
  have literal :
      Value.entriesLiteral [.call "meta-eval" (.object (directiveEntries values records))] =
        true := by
    simp [Value.entriesLiteral, Value.isLiteral, directiveEntries, directiveEntry, names,
      itemsLiteral_names first, itemsLiteral_names second]
  have readable := Value.readable_entryWords _ literal
  have spells := spells_directive values records fun w inside ↦
    (readable w (by simp [Value.entryWords, inside])).lexical
  refine ofSource_of_spells spells readable (derived_entryWords _ literal) ?_
  simp [Value.entriesNesting, Value.nesting, directiveEntries, directiveEntry, itemsNesting_names,
    maxDepth]

end Document

/-! ### The selection -/

/-- The fault that settings report for one of a selection. -/
def Fault.inSettings : Fault → Fault
  | .unknownFunction (some kind) name =>
    .settings ("unknown function " ++ kind.sigil ++ name ++ " in config")
  | fault => fault

variable {F H M : Type}

namespace DispatchState

/-- Select the active functions of either kind. -/
def selectBoth (s : DispatchState F M) (values records : List String) :
    Except Fault (DispatchState F M) :=
  (s.select .value values).bind fun t ↦ t.select .record records

/-- Both selections fail for a name that the library lacks. -/
theorem selectBoth_eq_error {s : DispatchState F M} {values records : List String} {fault : Fault}
    (failed : s.selectBoth values records = .error fault) :
    ∃ kind name, fault = .unknownFunction (some kind) name := by
  unfold selectBoth at failed
  cases first : s.select .value values with
  | error cause =>
    rw [first] at failed
    cases failed
    obtain ⟨_, name, _, -, -, -, same⟩ := select_eq_error_iff.mp first
    exact ⟨_, name, same⟩
  | ok t =>
    rw [first] at failed
    obtain ⟨_, name, _, -, -, -, same⟩ := select_eq_error_iff.mp failed
    exact ⟨_, name, same⟩

/-- Selecting does not look at the version. -/
theorem select_version (s : DispatchState F M) (version : Double) (kind : CallKind)
    (names : List String) :
    ({ s with version } : DispatchState F M).select kind names =
      (s.select kind names).map ({ · with version }) := by
  unfold select
  dsimp only
  cases choose (s.library.of kind) kind names [] <;> rfl

private theorem selectBoth_version (s : DispatchState F M) (version : Double)
    (values records : List String) :
    ({ s with version } : DispatchState F M).selectBoth values records =
      (s.selectBoth values records).map ({ · with version }) := by
  unfold selectBoth
  rw [select_version]
  cases s.select .value values with
  | error fault => rfl
  | ok t => exact select_version t version .record records

end DispatchState

namespace Standard

/-- Taking the entries of a directive is selecting the functions of either kind. -/
theorem selectAll_directive (values records : List String) (s : DispatchState F M) :
    match s.selectBoth values records with
    | .ok t => selectAll (Entry.records (Document.directiveEntries values records)) s = (.ok (), t)
    | .error fault =>
      (selectAll (Entry.records (Document.directiveEntries values records)) s).1 =
        .error fault := by
  have entries : Entry.records (Document.directiveEntries values records) =
      [("value", .array (values.map .text)), ("record", .array (records.map .text))] := rfl
  have kinds : selectedKind? "value" = some .value ∧ selectedKind? "record" = some .record := by
    decide
  unfold DispatchState.selectBoth
  rw [entries]
  cases first : s.select .value values with
  | error fault =>
    simp [selectAll, kinds, functionNames, textsOf_texts, first, Except.bind]
  | ok t =>
    cases second : t.select .record records <;>
      simp [selectAll, kinds, functionNames, textsOf_texts, first, second, Except.bind]

end Standard

namespace DispatchState

private theorem configure_named (settings : Settings) (kind : CallKind) {names : List String}
    (named : settings.selection kind = some names) (s : DispatchState F M) :
    s.configure settings kind = (s.select kind names).mapError Fault.inSettings := by
  unfold configure
  rw [named]
  dsimp only
  cases selected : s.select kind names with
  | ok t => rfl
  | error fault =>
    obtain ⟨_, name, _, -, -, -, rfl⟩ := select_eq_error_iff.mp selected
    rfl

/-- Settings that name the functions of either kind select them. -/
theorem build_named (version : Double) (indent : Int) (chosenValues chosenRecords : List String)
    (values records : Table H) (memory : M) :
    build ⟨version, some chosenValues, some chosenRecords, indent⟩ values records memory =
      ((ofLibrary (Callee.library values records) version memory).selectBoth chosenValues
        chosenRecords).mapError Fault.inSettings := by
  unfold build selectBoth
  dsimp only
  rw [configure_named _ .value rfl]
  cases (ofLibrary (Callee.library values records) version memory).select .value chosenValues with
  | error fault => rfl
  | ok s =>
    exact configure_named ⟨version, some chosenValues, some chosenRecords, indent⟩ .record rfl s

/-- A directive selects the functions of either kind, or fails as the selection does. -/
theorem evaluate_directive (host : HostAction H M) {start : DispatchState (Callee H) M}
    (bound : start.resolve .record "meta-eval" = some (.standard .selection))
    (values records : List String) :
    let ended := start.evaluate (Callee.act host)
      (.value (.object [.call "meta-eval" (.object (Document.directiveEntries values records))]))
    match start.selectBoth values records with
    | .ok t => ended = ⟨.ok (.object []), t, [⟨.record, "meta-eval"⟩]⟩
    | .error fault => ended.outcome = .error fault := by
  have resolved : (Value.object (Document.directiveEntries values records)).isResolved = true := by
    simp [Document.directiveEntries, Document.directiveEntry, Value.isResolved,
      Value.entriesResolved, Document.itemsResolved_names]
  have taken := Standard.selectAll_directive values records start
  have acts : Callee.act host (.standard .selection)
      (.object (Document.directiveEntries values records)) start =
        let selected :=
          Standard.selectAll (Entry.records (Document.directiveEntries values records)) start
        (selected.1.map fun _ ↦ .plain .null, selected.2) :=
    rfl
  have one : Value.evaluateEntries (Callee.act host)
      [.call "meta-eval" (.object (Document.directiveEntries values records))] =
        (Evaluation.dispatch (Callee.act host) .record "meta-eval"
          (.object (Document.directiveEntries values records)) >>=
            fun answer ↦ Evaluation.lift (answer.acceptRecord "meta-eval")) >>=
              fun record ↦ pure record.toList := by
    simp only [Value.evaluateEntries, Value.evaluate_of_isResolved _ _ resolved, pure_bind,
      bind_assoc, List.append_nil]
  dsimp only
  rw [evaluate_oneCall bound one, acts]
  cases selected : start.selectBoth values records with
  | ok t =>
    rw [selected] at taken
    rw [taken]
    rfl
  | error fault =>
    rw [selected] at taken
    obtain ⟨kind, name, rfl⟩ := selectBoth_eq_error selected
    dsimp only at taken ⊢
    rw [taken]
    rfl

private theorem reported_iff {S L : Type} {kind other : CallKind} {name different : String} :
    (.error (.settings ("unknown function " ++ kind.sigil ++ name ++ " in config")) :
        Except Fault S) =
        .error (.settings ("unknown function " ++ other.sigil ++ different ++ " in config")) ↔
      (.ok (.error ⟨.unknownFunction, "invalid function " ++ kind.sigil ++ name, none, none⟩) :
          Except Fault (Except Failure L)) =
        .ok (.error
          ⟨.unknownFunction, "invalid function " ++ other.sigil ++ different, none, none⟩) := by
  simp only [Except.error.injEq, Except.ok.injEq, Fault.settings.injEq, Failure.mk.injEq, and_true,
    true_and, String.append_left_inj]
  simp only [String.append_assoc, String.append_right_inj]

/-- Naming the functions that are active at the start in the settings is the same as doing so in a
directive that is loaded first, if the function that selects is the standard one and no name has a
quote in it. Either the state that is built is the one that the load leaves, but for the version in
the settings, or both fail for the same unknown function. -/
theorem load_directive (host : HostAction H M) (version : Double) (indent : Int)
    (values records : Table H) (memory : M) (chosenValues chosenRecords : List String)
    (standard : "meta-eval" ∉ records.names)
    (plain : ∀ name ∈ chosenValues ++ chosenRecords, '"' ∉ name.toList) :
    ∃ start : DispatchState (Callee H) M, build .standard values records memory = .ok start ∧
      let built :=
        build ⟨version, some chosenValues, some chosenRecords, indent⟩ values records memory
      let text := Document.directive chosenValues chosenRecords
      let loaded := start.load (Callee.act host) text
      ((∃ s, built = .ok s ∧ loaded.outcome = .ok (.ok (.object [])) ∧
          loaded.state = { s with version := languageVersion }) ∨
        ∃ kind name,
          built = .error (.settings ("unknown function " ++ kind.sigil ++ name ++ " in config")) ∧
          (start.interpret (Callee.act host) text).outcome =
            .error (.unknownFunction (some kind) name)) ∧
      ∀ (kind : CallKind) (name : String),
        built = .error (.settings ("unknown function " ++ kind.sigil ++ name ++ " in config")) ↔
          loaded.outcome = .ok (.error
            ⟨.unknownFunction, "invalid function " ++ kind.sigil ++ name, none, none⟩) := by
  let start : DispatchState (Callee H) M :=
    ofLibrary (Callee.library values records) languageVersion memory
  refine ⟨start, rfl, ?_⟩
  intro built text loaded
  have bound : start.resolve .record "meta-eval" = some (.standard .selection) := by
    refine Table.get?_update_of_not_mem _ ?_
    rw [Table.names, List.map_map]
    exact standard
  have chosen : built = ((start.selectBoth chosenValues chosenRecords).map
      ({ · with version })).mapError Fault.inSettings := by
    rw [← selectBoth_version]
    exact build_named version indent chosenValues chosenRecords values records memory
  have ended := start.load_evaluated (Callee.act host) text
  have interpreted := start.interpret_evaluated (Callee.act host) text
  have selects := evaluate_directive host bound chosenValues chosenRecords
  rw [Document.ofSource_directive plain] at ended interpreted
  dsimp only at ended interpreted selects
  cases selected : start.selectBoth chosenValues chosenRecords with
  | ok t =>
    rw [selected] at chosen selects
    dsimp only at selects
    rw [selects] at ended
    have version_eq := start.selectBoth_version languageVersion chosenValues chosenRecords
    have same : t = { t with version := languageVersion } :=
      Except.ok.inj ((selected.symm.trans version_eq).trans (congrArg _ selected))
    refine ⟨.inl ⟨_, chosen, ended.2, ended.1.trans same⟩, fun kind name ↦ ?_⟩
    rw [chosen, ended.2]
    exact ⟨fun failed ↦ (by cases failed), fun failed ↦ (by cases failed)⟩
  | error fault =>
    rw [selected] at chosen selects
    obtain ⟨kind, name, rfl⟩ := selectBoth_eq_error selected
    dsimp only at selects
    rw [selects] at ended
    have stopped := (congrArg Evaluated.outcome interpreted).trans selects
    refine ⟨.inr ⟨kind, name, chosen, stopped⟩, fun other different ↦ ?_⟩
    rw [chosen, ended.2]
    exact reported_iff

private def uncalled : HostAction Unit Unit := fun _ _ s ↦ (.error .uncategorized, s)

/-- A name that is given twice keeps its first place, and the first unknown name of several is the
one at fault. -/
theorem load_directive_shout :
    (∃ start : DispatchState (Callee Unit) Unit,
      build .standard [("shout", ())] [("number", ())] () = .ok start ∧
      (start.load (Callee.act uncalled)
        (Document.directive ["shout", "number", "shout"] [])).state.active =
          ⟨[("shout", .host ()), ("number", .standard .number)], []⟩) ∧
    ∃ start : DispatchState (Callee Unit) Unit,
      build .standard [("shout", ())] [("number", ())] () = .ok start ∧
      (start.load (Callee.act uncalled)
        (Document.directive ["shout"] ["number", "\n", "shout"])).outcome =
          .ok (.error ⟨.unknownFunction, "invalid function #\n", none, none⟩) := by
  have standard : "meta-eval" ∉ Table.names [("number", ())] := by decide
  constructor
  · obtain ⟨start, begins, ⟨s, built, -, left⟩ | ⟨kind, name, failed, -⟩, -⟩ :=
      load_directive uncalled .nan 2 [("shout", ())] [("number", ())] ()
        ["shout", "number", "shout"] [] standard (by decide)
    · refine ⟨start, begins, ?_⟩
      rw [left]
      cases built
      rfl
    · cases failed
  · obtain ⟨start, begins, -, same⟩ :=
      load_directive uncalled .nan 2 [("shout", ())] [("number", ())] ()
        ["shout"] ["number", "\n", "shout"] standard (by decide)
    exact ⟨start, begins, (same .record "\n").mp rfl⟩

end DispatchState
end Manifest
