import Manifest.Proofs.Dispatch.Selection

/-!
# Entries that select functions

An entry names a kind of call and lists functions. It is taken when the library has them all
(`Standard.Admits`), and then exactly these are active for the kind (`Table.Selects`); for whatever
else it is refused (`Standard.Refuses`) and changes nothing. Entries are taken in their order up to
the first that is refused, so that the last one taken of a kind decides (`Standard.Taken`).

The function that selects takes the entries of an object (`Standard.selectFunctions_iff`). What was
active before plays no part in it.
-/

namespace Manifest

variable {F M : Type} {fault : Fault}

/-- The table binds names as a library does: each once, in the order in which they are first
named. -/
structure Table.Selects (table library : Table F) (names : List String) : Prop where
  names_eq : table.names = names.eraseDups
  bound : ∀ name ∈ names, ∃ f, library.get? name = some f ∧ table.get? name = some f

namespace DispatchState

variable {library chosen table : Table F} {kind : CallKind} {names : List String}
  {s t : DispatchState F M}

private theorem names_choose (ended : choose library kind names chosen = .ok table) :
    table.names = chosen.names ++ (names.filter (· ∉ chosen.names)).eraseDups := by
  induction names generalizing chosen with
  | nil =>
    cases ended
    simp
  | cons name rest ih =>
    rw [choose] at ended
    cases found : library.get? name with
    | none =>
      rw [found] at ended
      cases ended
    | some f =>
      rw [found] at ended
      exact (ih ended).trans (chosen.names_set_append name f rest)

/-- What is chosen from a library binds the names as the library does. -/
theorem selects_choose (ended : choose library kind names [] = .ok table) :
    table.Selects library names := by
  have nothing : Table.names ([] : Table F) = [] := rfl
  have named : table.names = names.eraseDups := by
    have names_eq := names_choose ended
    rwa [nothing, List.nil_append, List.filter_eq_self.mpr (by simp)] at names_eq
  have empty : Table.SubTable ([] : Table F) library := fun _ _ found ↦ by cases found
  refine ⟨named, fun name inside ↦ ?_⟩
  have here : name ∈ table.names := by rwa [named, List.mem_eraseDups]
  obtain ⟨f, found⟩ := Option.isSome_iff_exists.mp ((table.get?_isSome_iff name).mpr here)
  exact ⟨f, (choose_eq_ok (by rw [nothing]; exact .nil) empty ended).2 name f found, found⟩

/-- A choice fails for the first name that the library lacks. -/
theorem choose_eq_error_iff :
    choose library kind names chosen = .error fault ↔
      ∃ before name after, names = before ++ name :: after ∧
        (∀ other ∈ before, other ∈ library.names) ∧
        name ∉ library.names ∧ fault = .unknownFunction (some kind) name := by
  induction names generalizing chosen with
  | nil => simp [choose]
  | cons name rest ih =>
    rw [choose]
    cases found : library.get? name with
    | none =>
      have lacking : name ∉ library.names := by
        rw [← Table.get?_isSome_iff, found]
        exact Bool.false_ne_true
      constructor
      · rintro ⟨⟩
        exact ⟨[], name, rest, rfl, List.forall_mem_nil _, lacking, rfl⟩
      · rintro ⟨before, other, after, same, known, -, rfl⟩
        cases before with
        | nil =>
          cases same
          rfl
        | cons first before =>
          cases same
          exact absurd (known name List.mem_cons_self) lacking
    | some f =>
      have there : name ∈ library.names := by
        rw [← Table.get?_isSome_iff, found]
        rfl
      refine ih.trans ⟨?_, ?_⟩
      · rintro ⟨before, other, after, rfl, known, rest⟩
        exact ⟨name :: before, other, after, rfl, List.forall_mem_cons.mpr ⟨there, known⟩, rest⟩
      · rintro ⟨before, other, after, same, known, lacking, rfl⟩
        cases before with
        | nil =>
          cases same
          exact absurd there lacking
        | cons first before =>
          cases same
          exact ⟨before, other, after, rfl, (List.forall_mem_cons.mp known).2, lacking, rfl⟩

/-- A selection fails for the first name that the library lacks. -/
theorem select_eq_error_iff :
    s.select kind names = .error fault ↔
      ∃ before name after, names = before ++ name :: after ∧
        (∀ other ∈ before, other ∈ (s.library.of kind).names) ∧ name ∉ (s.library.of kind).names ∧
        fault = .unknownFunction (some kind) name := by
  have ended : s.select kind names = .error fault ↔
      choose (s.library.of kind) kind names [] = .error fault := by
    rw [select]
    cases choose (s.library.of kind) kind names [] with
    | error cause => simp [Except.map]
    | ok table => simp [Except.map]
  exact ended.trans choose_eq_error_iff

/-- A selection replaces the active table of a kind by one that binds the names as the library
does. -/
theorem select_eq_ok (selected : s.select kind names = .ok t) :
    ∃ table : Table F, table.Selects (s.library.of kind) names ∧
      t = { s with active := s.active.replace kind table } := by
  unfold select at selected
  cases chosen : choose (s.library.of kind) kind names [] with
  | error cause =>
    rw [chosen] at selected
    cases selected
  | ok table =>
    rw [chosen] at selected
    cases selected
    exact ⟨table, selects_choose chosen, rfl⟩

end DispatchState

namespace Standard

variable {library : FunctionTables F} {entry : String × Value} {s t u : DispatchState F M}
  {names : List String} {v : Value}

/-! ### One entry -/

/-- A value lists names, as the texts of an array or as the identifiers of an object. -/
inductive Lists : Value → List String → Prop
  | texts (names : List String) : Lists (.array (names.map .text)) names
  | identifiers (entries : List Entry) :
    Lists (.object entries) ((Entry.records entries).map Prod.fst)

/-- An entry that names a kind of call and lists functions that the library has. -/
def Admits (library : FunctionTables F) (entry : String × Value) : Prop :=
  ∃ (kind : CallKind) (names : List String), entry.1 = kind.name ∧ Lists entry.2 names ∧
    ∀ name ∈ names, name ∈ (library.of kind).names

/-- How an entry is at fault: it names no kind of call, it lists nothing, an item of its array is
no text, or the library lacks a function that it lists. Of several items or functions the first is
at fault, and of an item and a function the item. -/
inductive Refuses (library : FunctionTables F) : String × Value → Fault → Prop
  | notKind {id : String} {v : Value} : (∀ kind : CallKind, id ≠ kind.name) →
    Refuses library (id, v) (.invalidEntry id)
  | notList {kind : CallKind} {v : Value} : (∀ items, v ≠ .array items) →
    (∀ entries, v ≠ .object entries) → Refuses library (kind.name, v) (.invalidData v)
  | notText {kind : CallKind} {names : List String} {item : Value} {rest : List Value} :
    (∀ s, item ≠ .text s) →
    Refuses library (kind.name, .array (names.map .text ++ item :: rest)) (.invalidData item)
  | unknown {kind : CallKind} {v : Value} {before after : List String} {name : String} :
    Lists v (before ++ name :: after) → (∀ other ∈ before, other ∈ (library.of kind).names) →
    name ∉ (library.of kind).names →
    Refuses library (kind.name, v) (.unknownFunction (some kind) name)

/-- The state that an entry leaves when it is taken. -/
def take (entry : String × Value) (s : DispatchState F M) : Except Fault (DispatchState F M) :=
  match selectedKind? entry.1 with
  | none => .error (.invalidEntry entry.1)
  | some kind => (functionNames entry.2).bind (s.select kind)

/-- Selections are taken one by one, up to the first that is refused. -/
theorem selectAll_cons (entry : String × Value) (rest : List (String × Value))
    (s : DispatchState F M) :
    selectAll (entry :: rest) s =
      match take entry s with
      | .error fault => (.error fault, s)
      | .ok t => selectAll rest t := by
  rw [selectAll, take]
  cases selectedKind? entry.1 with
  | none => rfl
  | some kind => rfl

/-- The entries of a kind of call are those under its name. -/
theorem selectedKind?_eq_some_iff {id : String} {kind : CallKind} :
    selectedKind? id = some kind ↔ id = kind.name := by
  unfold selectedKind?
  cases kind <;> split <;> simp_all [CallKind.name]

/-- Texts are the names that they are made of. -/
theorem textsOf_texts (names : List String) : textsOf (names.map .text) = .ok names := by
  induction names with
  | nil => rfl
  | cons name names ih =>
    rw [List.map_cons, textsOf, ih]
    rfl

private theorem textsOf_eq_ok {items : List Value} (found : textsOf items = .ok names) :
    items = names.map .text := by
  induction items generalizing names with
  | nil =>
    cases found
    rfl
  | cons item rest ih =>
    cases item with
    | text name =>
      rw [textsOf] at found
      cases others : textsOf rest with
      | error cause =>
        rw [others] at found
        cases found
      | ok more =>
        rw [others] at found
        cases found
        rw [List.map_cons, ← ih others]
    | _ => cases found

private theorem textsOf_eq_error_iff {items : List Value} :
    textsOf items = .error fault ↔
      ∃ names item rest, items = List.map .text names ++ item :: rest ∧
      (∀ s, item ≠ .text s) ∧ fault = .invalidData item := by
  constructor
  · intro failed
    induction items with
    | nil => cases failed
    | cons item rest ih =>
      cases item with
      | text name =>
        rw [textsOf] at failed
        cases others : textsOf rest with
        | ok names =>
          rw [others] at failed
          cases failed
        | error cause =>
          rw [others] at failed
          cases failed
          obtain ⟨names, item, more, rfl, noText, same⟩ := ih others
          exact ⟨name :: names, item, more, rfl, noText, same⟩
      | _ =>
        cases failed
        exact ⟨[], _, rest, rfl, nofun, rfl⟩
  · rintro ⟨names, item, rest, rfl, noText, rfl⟩
    induction names with
    | nil =>
      cases item with
      | text s => exact absurd rfl (noText s)
      | _ => rfl
    | cons name names ih =>
      rw [List.map_cons, List.cons_append, textsOf, ih]
      rfl

/-- The names of functions are those that a value lists. -/
theorem functionNames_eq_ok_iff : functionNames v = .ok names ↔ Lists v names := by
  constructor
  · intro found
    cases v with
    | array items =>
      rw [textsOf_eq_ok found]
      exact .texts names
    | object entries =>
      cases found
      exact .identifiers entries
    | _ => cases found
  · rintro (⟨names⟩ | ⟨entries⟩)
    · exact textsOf_texts names
    · rfl

/-- A value lists no names when it is neither an array nor an object, or an item of it is no
text. -/
theorem functionNames_eq_error_iff :
    functionNames v = .error fault ↔
      ((∀ items, v ≠ .array items) ∧ (∀ entries, v ≠ .object entries) ∧ fault = .invalidData v) ∨
      ∃ names item rest, v = .array (List.map .text names ++ item :: rest) ∧
        (∀ s, item ≠ .text s) ∧
        fault = .invalidData item := by
  cases v with
  | array items => simpa [functionNames] using textsOf_eq_error_iff
  | object entries => simp [functionNames]
  | _ => simp [functionNames, eq_comm]

/-- An entry is refused as the library has it. -/
theorem take_eq_error_iff : take entry s = .error fault ↔ Refuses s.library entry fault := by
  obtain ⟨id, v⟩ := entry
  constructor
  · intro failed
    unfold take at failed
    cases asked : selectedKind? id with
    | none =>
      rw [asked] at failed
      cases failed
      refine .notKind fun kind same ↦ ?_
      rw [selectedKind?_eq_some_iff.mpr same] at asked
      cases asked
    | some kind =>
      obtain rfl := selectedKind?_eq_some_iff.mp asked
      rw [asked] at failed
      dsimp only at failed
      cases found : functionNames v with
      | error cause =>
        rw [found] at failed
        cases failed
        obtain ⟨noArray, noObject, rfl⟩ | ⟨names, item, rest, rfl, noText, rfl⟩ :=
          functionNames_eq_error_iff.mp found
        · exact .notList noArray noObject
        · exact .notText noText
      | ok names =>
        rw [found] at failed
        obtain ⟨before, name, after, rfl, known, lacking, rfl⟩ :=
          DispatchState.select_eq_error_iff.mp failed
        exact .unknown (functionNames_eq_ok_iff.mp found) known lacking
  · have asked (kind : CallKind) : selectedKind? kind.name = some kind :=
      selectedKind?_eq_some_iff.mpr rfl
    rintro (@⟨_, _, noKind⟩ | ⟨noArray, noObject⟩ | ⟨noText⟩ | ⟨lists, known, lacking⟩)
    · have noKind : selectedKind? id = none := by
        refine Option.eq_none_iff_forall_ne_some.mpr fun kind same ↦ ?_
        exact noKind kind (selectedKind?_eq_some_iff.mp same)
      rw [take, noKind]
    · rw [take, asked, functionNames_eq_error_iff.mpr (.inl ⟨noArray, noObject, rfl⟩)]
      rfl
    · rw [take, asked, functionNames_eq_error_iff.mpr (.inr ⟨_, _, _, rfl, noText, rfl⟩)]
      rfl
    · rw [take, asked, functionNames_eq_ok_iff.mpr lists]
      exact DispatchState.select_eq_error_iff.mpr ⟨_, _, _, rfl, known, lacking, rfl⟩

private theorem take_eq_ok (taken : take entry s = .ok t) :
    ∃ (kind : CallKind) (names : List String) (table : Table F), entry.1 = kind.name ∧
      Lists entry.2 names ∧ table.Selects (s.library.of kind) names ∧
      t = { s with active := s.active.replace kind table } := by
  unfold take at taken
  cases asked : selectedKind? entry.1 with
  | none =>
    rw [asked] at taken
    cases taken
  | some kind =>
    rw [asked] at taken
    dsimp only at taken
    cases found : functionNames entry.2 with
    | error cause =>
      rw [found] at taken
      cases taken
    | ok names =>
      rw [found] at taken
      obtain ⟨table, selects, rfl⟩ := DispatchState.select_eq_ok taken
      exact ⟨kind, names, table, selectedKind?_eq_some_iff.mp asked,
        functionNames_eq_ok_iff.mp found, selects, rfl⟩

private theorem library_take (taken : take entry s = .ok t) : t.library = s.library := by
  obtain ⟨kind, names, table, -, -, -, rfl⟩ := take_eq_ok taken
  rfl

/-- An entry is taken when the library admits it. -/
theorem exists_take_iff : (∃ t, take entry s = .ok t) ↔ Admits s.library entry := by
  constructor
  · rintro ⟨t, taken⟩
    obtain ⟨kind, names, table, named, lists, selects, -⟩ := take_eq_ok taken
    refine ⟨kind, names, named, lists, fun name inside ↦ ?_⟩
    obtain ⟨f, found, -⟩ := selects.bound name inside
    rw [← Table.get?_isSome_iff, found]
    rfl
  · rintro ⟨kind, names, named, lists, known⟩
    rw [take, selectedKind?_eq_some_iff.mpr named]
    dsimp only
    rw [functionNames_eq_ok_iff.mpr lists]
    cases selected : s.select kind names with
    | ok t => exact ⟨t, selected⟩
    | error fault =>
      obtain ⟨before, name, after, rfl, -, lacking, -⟩ :=
        DispatchState.select_eq_error_iff.mp selected
      exact absurd (known name (by simp)) lacking

/-! ### Entries one after the other -/

/-- The state after the entries: the active functions of a kind are those that the last entry of
the kind lists, or what they were where there is none, and nothing else has changed. -/
structure Taken (s : DispatchState F M) (entries : List (String × Value)) (t : DispatchState F M) :
    Prop where
  library_eq : t.library = s.library
  version_eq : t.version = s.version
  memory_eq : t.memory = s.memory
  unnamed : ∀ kind : CallKind, (∀ entry ∈ entries, entry.1 ≠ kind.name) →
    t.active.of kind = s.active.of kind
  named : ∀ (kind : CallKind) (before after : List (String × Value)) (v : Value)
    (names : List String), entries = before ++ (kind.name, v) :: after →
    (∀ entry ∈ after, entry.1 ≠ kind.name) → Lists v names →
    (t.active.of kind).Selects (s.library.of kind) names

/-- No entries leave the state as it is. -/
theorem Taken.nil (s : DispatchState F M) : Taken s [] s :=
  ⟨rfl, rfl, rfl, fun _ _ ↦ rfl, fun _ before _ _ _ same ↦ by cases before <;> cases same⟩

/-- An entry is taken before the others. -/
theorem Taken.cons {rest : List (String × Value)} (first : take entry s = .ok t)
    (others : Taken t rest u) : Taken s (entry :: rest) u := by
  obtain ⟨kind, names, table, named, lists, selects, rfl⟩ := take_eq_ok first
  refine ⟨others.library_eq, others.version_eq, others.memory_eq, fun other unnamed ↦ ?_,
    fun other before after v listed same last listing ↦ ?_⟩
  · obtain ⟨differs, unnamed⟩ := List.forall_mem_cons.mp unnamed
    rw [others.unnamed other unnamed]
    exact FunctionTables.of_replace_of_ne _ (fun same ↦ differs (by rw [same, named])) table
  · cases before with
    | cons _ before =>
      exact others.named other before after v listed (List.cons.inj same).2 last listing
    | nil =>
      -- This entry is the last of its kind, so that the others leave the table that it selects.
      obtain ⟨rfl, rfl⟩ := List.cons.inj same
      obtain rfl : other = kind := Option.some.inj
        ((selectedKind?_eq_some_iff.mpr rfl).symm.trans (selectedKind?_eq_some_iff.mpr named))
      obtain rfl : listed = names := Except.ok.inj
        ((functionNames_eq_ok_iff.mpr listing).symm.trans (functionNames_eq_ok_iff.mpr lists))
      rw [others.unnamed other last, FunctionTables.of_replace_self]
      exact selects

/-- Selections are all taken, or they end at the first that is refused. -/
theorem selectAll_cases (selections : List (String × Value)) (s : DispatchState F M) :
    match selectAll selections s with
    | (.ok _, t) => (∀ entry ∈ selections, Admits s.library entry) ∧ Taken s selections t
    | (.error fault, t) => ∃ before entry after, selections = before ++ entry :: after ∧
      (∀ other ∈ before, Admits s.library other) ∧ Refuses s.library entry fault ∧
      Taken s before t := by
  induction selections generalizing s with
  | nil => exact ⟨List.forall_mem_nil _, .nil s⟩
  | cons entry rest ih =>
    rw [selectAll_cons]
    cases first : take entry s with
    | error fault =>
      exact ⟨[], entry, rest, rfl, List.forall_mem_nil _, take_eq_error_iff.mp first, .nil s⟩
    | ok t =>
      have admits := exists_take_iff.mp ⟨t, first⟩
      have ended := ih t
      rw [library_take first] at ended
      dsimp only
      revert ended
      rcases selectAll rest t with ⟨fault | _, u⟩
      · rintro ⟨before, refused, after, rfl, others, refuses, taken⟩
        exact ⟨entry :: before, refused, after, rfl, List.forall_mem_cons.mpr ⟨admits, others⟩,
          refuses, .cons first taken⟩
      · rintro ⟨others, taken⟩
        exact ⟨List.forall_mem_cons.mpr ⟨admits, others⟩, .cons first taken⟩

private theorem selectAll_append {before : List (String × Value)}
    (admitted : ∀ entry ∈ before, Admits s.library entry) (rest : List (String × Value)) :
    ∃ t, t.library = s.library ∧ selectAll (before ++ rest) s = selectAll rest t := by
  induction before generalizing s with
  | nil => exact ⟨s, rfl, rfl⟩
  | cons first before ih =>
    obtain ⟨admits, others⟩ := List.forall_mem_cons.mp admitted
    obtain ⟨t, taken⟩ := exists_take_iff.mpr admits
    have same := library_take taken
    rw [← same] at others
    obtain ⟨u, still, ended⟩ := ih others
    exact ⟨u, still.trans same, by rw [List.cons_append, selectAll_cons, taken, ← ended]⟩

/-- Selections fail exactly with the fault of the first that is refused. -/
theorem selectAll_eq_error_iff {selections : List (String × Value)} :
    (selectAll selections s).1 = .error fault ↔
      ∃ before entry after, selections = before ++ entry :: after ∧
        (∀ other ∈ before, Admits s.library other) ∧ Refuses s.library entry fault := by
  constructor
  · intro failed
    have ended := selectAll_cases selections s
    revert failed ended
    rcases selectAll selections s with ⟨cause | _, t⟩
    · rintro ⟨⟩ ⟨before, entry, after, same, others, refuses, -⟩
      exact ⟨before, entry, after, same, others, refuses⟩
    · rintro ⟨⟩
  · rintro ⟨before, entry, after, rfl, others, refuses⟩
    obtain ⟨t, same, ended⟩ := selectAll_append others (entry :: after)
    rw [← same] at refuses
    rw [ended, selectAll_cons, take_eq_error_iff.mpr refuses]

/-- Selections are all taken exactly when the library admits each. -/
theorem selectAll_eq_ok_iff {selections : List (String × Value)} :
    (selectAll selections s).1 = .ok () ↔ ∀ entry ∈ selections, Admits s.library entry := by
  constructor
  · intro succeeds
    have ended := selectAll_cases selections s
    revert succeeds ended
    rcases selectAll selections s with ⟨fault | _, t⟩
    · rintro ⟨⟩
    · exact fun _ ended ↦ ended.1
  · intro admitted
    obtain ⟨t, -, ended⟩ := selectAll_append admitted []
    rw [List.append_nil] at ended
    rw [ended]
    rfl

/-! ### The function that selects -/

private theorem fst_selectFunctions_eq_ok_iff {entries : List Entry} {answer : Datum} :
    (selectFunctions (.object entries) s).1 = .ok answer ↔
      answer = .plain .null ∧ ∀ entry ∈ Entry.records entries, Admits s.library entry := by
  rw [← selectAll_eq_ok_iff, selectFunctions]
  rcases selectAll (Entry.records entries) s with ⟨fault | _, t⟩
  · exact ⟨nofun, And.rec nofun⟩
  · exact ⟨fun succeeds ↦ ⟨(Except.ok.inj succeeds).symm, rfl⟩,
      fun nothing ↦ by rw [nothing.1]; rfl⟩

private theorem fst_selectFunctions_eq_error_iff {entries : List Entry} :
    (selectFunctions (.object entries) s).1 = .error fault ↔
      ∃ before entry after, Entry.records entries = before ++ entry :: after ∧
        (∀ other ∈ before, Admits s.library other) ∧ Refuses s.library entry fault := by
  rw [← selectAll_eq_error_iff, selectFunctions]
  rcases selectAll (Entry.records entries) s with ⟨cause | _, t⟩
  · exact ⟨fun failed ↦ by cases failed; rfl, fun failed ↦ by cases failed; rfl⟩
  · exact ⟨nofun, nofun⟩

private theorem selectFunctions_of_ne (other : ∀ entries, v ≠ .object entries)
    (s : DispatchState F M) : selectFunctions v s = (.error (.expectedObject v), s) := by
  cases v with
  | object entries => exact absurd rfl (other entries)
  | _ => rfl

private theorem object_or_other (v : Value) :
    (∃ entries, v = .object entries) ∨ ∀ entries, v ≠ .object entries := by
  cases v with
  | object entries => exact .inl ⟨entries, rfl⟩
  | _ => exact .inr nofun

private theorem selectFunctions_eq_ok_iff {answer : Datum} :
    (selectFunctions v s).1 = .ok answer ↔ answer = .plain .null ∧
      ∃ entries, v = .object entries ∧
        ∀ entry ∈ Entry.records entries, Admits s.library entry := by
  obtain ⟨entries, rfl⟩ | other := object_or_other v
  · simp [fst_selectFunctions_eq_ok_iff]
  · simp [selectFunctions_of_ne other, other]

/-- The function that selects fails for what is no object, and for an object with the fault of the
first record that is refused. -/
theorem selectFunctions_eq_error_iff :
    (selectFunctions v s).1 = .error fault ↔
      ((∀ entries, v ≠ .object entries) ∧ fault = .expectedObject v) ∨
      ∃ entries before entry after, v = .object entries ∧
        Entry.records entries = before ++ entry :: after ∧
        (∀ other ∈ before, Admits s.library other) ∧ Refuses s.library entry fault := by
  obtain ⟨entries, rfl⟩ | other := object_or_other v
  · rw [fst_selectFunctions_eq_error_iff]
    constructor
    · rintro ⟨before, entry, after, split⟩
      exact .inr ⟨entries, before, entry, after, rfl, split⟩
    · rintro (⟨other, -⟩ | ⟨_, before, entry, after, ⟨⟩, split⟩)
      · exact absurd rfl (other entries)
      · exact ⟨before, entry, after, split⟩
  · simp [selectFunctions_of_ne other, other, eq_comm]

/-- Whether it fails or not, the function that selects leaves what the records select that it took:
those before the one that is refused, or all. -/
theorem taken_selectFunctions (v : Value) (s : DispatchState F M) :
    match selectFunctions v s with
    | (.ok _, t) => Taken s (Entry.records v.entries) t
    | (.error fault, t) =>
      ∃ before, (∀ entry ∈ before, Admits s.library entry) ∧ Taken s before t ∧
      (((∀ entries, v ≠ .object entries) ∧ before = [] ∧ fault = .expectedObject v) ∨
        ∃ entries entry after, v = .object entries ∧
          Entry.records entries = before ++ entry :: after ∧ Refuses s.library entry fault) := by
  obtain ⟨entries, rfl⟩ | other := object_or_other v
  · have ended := selectAll_cases (Entry.records entries) s
    rw [selectFunctions]
    revert ended
    rcases selectAll (Entry.records entries) s with ⟨fault | _, t⟩
    · rintro ⟨before, entry, after, split, admits, refuses, taken⟩
      exact ⟨before, admits, taken, .inr ⟨entries, entry, after, rfl, split, refuses⟩⟩
    · rintro ⟨-, taken⟩
      exact taken
  · rw [selectFunctions_of_ne other]
    exact ⟨[], List.forall_mem_nil _, .nil s, .inl ⟨other, rfl, rfl⟩⟩

/-- The function that selects succeeds exactly for an object whose records are all entries that the
library admits. It answers nothing then, and the last entry of each kind decides which functions
are active. It fails exactly for any other value, and for an object with the fault of the first
record that is refused. What is active before makes no difference to this. -/
theorem selectFunctions_iff (v : Value) (s : DispatchState F M) :
    ((∃ answer, (selectFunctions v s).1 = .ok answer) ↔
      ∃ entries, v = .object entries ∧ ∀ entry ∈ Entry.records entries, Admits s.library entry) ∧
    (∀ answer, (selectFunctions v s).1 = .ok answer →
      answer = .plain .null ∧ Taken s (Entry.records v.entries) (selectFunctions v s).2) ∧
    ∀ fault, (selectFunctions v s).1 = .error fault ↔
      ((∀ entries, v ≠ .object entries) ∧ fault = .expectedObject v) ∨
      ∃ entries before entry after, v = .object entries ∧
        Entry.records entries = before ++ entry :: after ∧
        (∀ other ∈ before, Admits s.library other) ∧ Refuses s.library entry fault := by
  refine ⟨?_, fun answer succeeds ↦ ⟨(selectFunctions_eq_ok_iff.mp succeeds).1, ?_⟩,
    fun fault ↦ selectFunctions_eq_error_iff⟩
  · constructor
    · rintro ⟨answer, succeeds⟩
      exact (selectFunctions_eq_ok_iff.mp succeeds).2
    · intro admits
      exact ⟨_, selectFunctions_eq_ok_iff.mpr ⟨rfl, admits⟩⟩
  · have taken := taken_selectFunctions v s
    revert succeeds taken
    rcases selectFunctions v s with ⟨fault | _, t⟩
    · rintro ⟨⟩
    · exact fun _ taken ↦ taken

end Standard
end Manifest
