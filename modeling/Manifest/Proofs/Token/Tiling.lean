import Manifest.Proofs.Token.Lexeme

/-!
# The tokens of a text tile it

`StandsIn` says what makes a token one of a text, without the scanner: its span holds its lexeme,
which is one of its kind and as long as it can be. Tokens tile a text when they stand in it one
after the other and nothing but layout is between them (`Tiles`).

A text has at most one tiling. Scanning finds it, and fails only where there is none
(`scan_eq_ok_iff_tiles`). What the proof needs of a single lexeme is that the front of a text has
exactly one that cannot be continued (`munch?_eq_some_iff`), and none where it is layout.
-/

namespace Manifest.Token

open Manifest.Text

/-- The characters that a lexeme of a kind takes in as long as they follow: a run of digits every
digit, a name every character of names. -/
def Kind.goesOn (kind : Kind) (c : Char) : Bool :=
  match kind with
  | .integer => Numeral.isAsciiDigit c
  | .identifier => isNameChar c
  | _ => false

/-- A token of a text: its span holds at least one character, its lexeme is the text there and one
of its kind, and the text does not go on with it. -/
structure StandsIn (token : Token) (text : List Char) : Prop where
  start_nonneg : 0 ≤ token.span.start
  start_lt_stop : token.span.start < token.span.stop
  stop_le : token.span.stop ≤ text.length
  lexeme_eq : token.lexeme.toList =
    (text.take token.span.stop.toNat).drop token.span.start.toNat
  lexical : token.IsLexical
  maximal : ∀ c, text[token.span.stop.toNat]? = some c → token.kind.goesOn c = false

/-- Tokens that tile a text from a place on: they stand in it there, each after the one before it,
and every character in none of them is layout. -/
structure Tiles (text : List Char) (place : Nat) (tokens : List Token) : Prop where
  stands : ∀ t ∈ tokens, t.StandsIn text
  after : ∀ t ∈ tokens, (place : Int) ≤ t.span.start
  ordered : tokens.Pairwise fun t u ↦ t.span.stop ≤ u.span.start
  layout : ∀ (i : Nat) (c : Char), place ≤ i → text[i]? = some c →
    (∀ t ∈ tokens, ¬ (t.span.start ≤ i ∧ i < t.span.stop)) → isLayout c = true

variable {text rest : List Char} {place : Nat} {tokens : List Token} {token : Token} {c : Char}

/-! ### One lexeme -/

private theorem toNat_of_isNameChar (h : isNameChar c = true) : 32 < c.toNat ∧ c.toNat < 127 := by
  simp only [isNameChar, Bool.or_eq_true, Bool.and_eq_true, decide_eq_true_eq, beq_iff_eq,
    Numeral.isAsciiDigit_iff, Char.le_def, UInt32.le_iff_toNat_le] at h
  obtain (((digit | upper) | lower) | rfl) | rfl := h
  · omega
  · have : 65 ≤ c.toNat ∧ c.toNat ≤ 90 := upper
    omega
  · have : 97 ≤ c.toNat ∧ c.toNat ≤ 122 := lower
    omega
  · decide
  · decide

/-- Digits are characters of names. -/
theorem isNameChar_of_isAsciiDigit (h : Numeral.isAsciiDigit c = true) :
    isNameChar c = true := by
  simp [isNameChar, h]

/-- Layout is no character of names. -/
theorem isNameChar_of_isLayout (h : isLayout c = true) : isNameChar c = false := by
  rw [← Bool.not_eq_true]
  intro name
  have range := toNat_of_isNameChar name
  have blank := isBlank_of_isLayout h
  simp only [isBlank, isWhiteSpace, inRanges, whiteSpaceRanges, List.any_cons, List.any_nil,
    Bool.or_eq_true, Bool.and_eq_true, decide_eq_true_eq, Bool.or_false] at blank
  omega

/-- A mark is neither layout, nor a character of names, nor a quote. -/
theorem markKind?_eq_some {kind : Kind} (h : markKind? c = some kind) :
    isLayout c = false ∧ isNameChar c = false ∧ c ≠ '"' := by
  unfold markKind? at h
  split at h <;> first | decide | cases h

/-- Layout starts no lexeme. -/
theorem munch?_of_isLayout (h : isLayout c = true) (rest : List Char) : munch? c rest = none := by
  have name := isNameChar_of_isLayout h
  have digit : ¬ Numeral.isAsciiDigit c = true := fun digit ↦ by
    rw [isNameChar_of_isAsciiDigit digit] at name
    cases name
  have quote : c ≠ '"' := by
    rintro rfl
    exact absurd h (by decide)
  unfold munch?
  rw [if_neg digit, if_neg (by simp [name]), if_neg quote]
  cases mark : markKind? c with
  | none => rfl
  | some kind =>
    rw [(markKind?_eq_some mark).1] at h
    cases h

private theorem goesOn_of_munch? {m : Munch} (h : munch? c rest = some m) :
    ∀ x ∈ m.rest.head?, m.kind.goesOn x = false := by
  intro x first
  unfold munch? at h
  split at h
  · cases h
    have := List.head?_dropWhile_not Numeral.isAsciiDigit rest
    rw [show (rest.dropWhile Numeral.isAsciiDigit).head? = some x from first] at this
    simpa [Kind.goesOn] using this
  split at h
  · cases h
    have := List.head?_dropWhile_not isNameChar rest
    rw [show (rest.dropWhile isNameChar).head? = some x from first] at this
    simpa [Kind.goesOn] using this
  split at h
  · split at h <;> cases h
    rfl
  · obtain ⟨kind, mark, rfl⟩ := Option.map_eq_some_iff.mp h
    unfold markKind? at mark
    split at mark <;> cases mark <;> rfl

private theorem munch?_of_isLexeme {m : Munch} (whole : m.lexeme ++ m.rest = c :: rest)
    (lexeme : m.kind.IsLexeme m.lexeme) (stop : ∀ x ∈ m.rest.head?, m.kind.goesOn x = false) :
    munch? c rest = some m := by
  obtain ⟨kind, lexeme', after⟩ := m
  dsimp only at whole lexeme stop
  cases kind with
  | integer =>
    obtain ⟨first, digits, rfl⟩ := List.exists_cons_of_ne_nil lexeme.nonempty
    rw [List.cons_append] at whole
    obtain ⟨rfl, rfl⟩ := List.cons.inj whole
    have digit := lexeme.digits first List.mem_cons_self
    have run := Numeral.takeWhile_all (p := Numeral.isAsciiDigit)
      (fun x hx ↦ lexeme.digits x (List.mem_cons_of_mem first hx)) after stop
    rw [munch?, if_pos digit, run.1, run.2]
  | identifier =>
    obtain ⟨first, letters, rfl, name, noDigit, names⟩ := lexeme
    rw [List.cons_append] at whole
    obtain ⟨rfl, rfl⟩ := List.cons.inj whole
    have run := Numeral.takeWhile_all names after stop
    rw [munch?, if_neg (by simp [noDigit]), if_pos name, run.1, run.2]
  | quoted =>
    obtain ⟨content, rfl, inside⟩ := lexeme
    rw [List.cons_append, List.append_assoc, List.singleton_append] at whole
    obtain ⟨rfl, rfl⟩ := List.cons.inj whole
    have other : ∀ x ∈ content, (x != '"') = true := fun x hx ↦
      bne_iff_ne.mpr fun same ↦ inside (same ▸ hx)
    have run := Numeral.takeWhile_all other ('"' :: after) (by simp)
    rw [munch?, if_neg (by decide), if_neg (by decide), if_pos rfl, run.1, run.2]
  | _ =>
    obtain ⟨mark, rfl, kind⟩ := lexeme
    rw [List.singleton_append] at whole
    obtain ⟨rfl, rfl⟩ := List.cons.inj whole
    obtain ⟨-, name, quote⟩ := markKind?_eq_some kind
    have digit : ¬ Numeral.isAsciiDigit mark = true := fun digit ↦ by
      rw [isNameChar_of_isAsciiDigit digit] at name
      cases name
    rw [munch?, if_neg digit, if_neg (by simp [name]), if_neg quote, kind]
    rfl

/-- What is taken from the front of a text is the one lexeme there that the text does not go on
with. -/
theorem munch?_eq_some_iff {m : Munch} :
    munch? c rest = some m ↔ m.lexeme ++ m.rest = c :: rest ∧ m.kind.IsLexeme m.lexeme ∧
      ∀ x ∈ m.rest.head?, m.kind.goesOn x = false :=
  ⟨fun h ↦ ⟨munch?_append h, isLexeme_of_munch? h, goesOn_of_munch? h⟩,
    fun ⟨whole, lexeme, stop⟩ ↦ munch?_of_isLexeme whole lexeme stop⟩

/-! ### One token of a text -/

private theorem StandsIn.append (stands : token.StandsIn text) :
    token.lexeme.toList ++ text.drop token.span.stop.toNat = text.drop token.span.start.toNat := by
  have nonneg := stands.start_nonneg
  have order := stands.start_lt_stop
  have within := stands.stop_le
  have inside : token.span.start.toNat ≤ (text.take token.span.stop.toNat).length := by
    rw [List.length_take]
    omega
  rw [stands.lexeme_eq, ← List.drop_append_of_le_length inside, List.take_append_drop]

private theorem StandsIn.stop_eq (stands : token.StandsIn text) :
    token.span.stop = token.span.start + token.lexeme.toList.length := by
  have nonneg := stands.start_nonneg
  have order := stands.start_lt_stop
  have within := stands.stop_le
  rw [stands.lexeme_eq, List.length_drop, List.length_take]
  omega

private theorem StandsIn.munch? (stands : token.StandsIn text)
    (here : text.drop token.span.start.toNat = c :: rest) :
    munch? c rest = some ⟨token.kind, token.lexeme.toList, text.drop token.span.stop.toNat⟩ := by
  refine munch?_eq_some_iff.mpr ⟨stands.append.trans here, stands.lexical, fun x first ↦ ?_⟩
  rw [List.head?_drop] at first
  exact stands.maximal x first

private theorem standsIn_of_munch? {m : Munch} (found : Token.munch? c rest = some m)
    (here : text.drop place = c :: rest) :
    StandsIn ⟨m.kind, String.ofList m.lexeme, ⟨place, (place + m.lexeme.length : Nat)⟩⟩ text := by
  obtain ⟨whole, lexeme, stop⟩ := munch?_eq_some_iff.mp found
  have positive := List.length_pos_iff.mpr (lexeme_ne_nil_of_munch? found)
  have rest' : text.drop (place + m.lexeme.length) = m.rest := by
    rw [← List.drop_drop, here, ← whole, List.drop_left]
  have length : (text.drop place).length = m.lexeme.length + m.rest.length := by
    rw [here, ← whole, List.length_append]
  rw [List.length_drop] at length
  refine ⟨Int.natCast_nonneg _, ?_, ?_, ?_, ?_, ?_⟩
  · show (place : Int) < (place + m.lexeme.length : Nat)
    omega
  · show ((place + m.lexeme.length : Nat) : Int) ≤ text.length
    omega
  · show (String.ofList m.lexeme).toList = (text.take (place + m.lexeme.length)).drop place
    rw [String.toList_ofList, List.drop_take, here, ← whole, Nat.add_sub_cancel_left,
      List.take_left]
  · rwa [IsLexical, String.toList_ofList]
  · intro x next
    refine stop x ?_
    rw [← rest', List.head?_drop]
    exact next

/-! ### Tilings -/

private theorem tiles_nil_iff (ended : text.length ≤ place) :
    Tiles text place tokens ↔ tokens = [] := by
  constructor
  · intro tiling
    refine List.eq_nil_iff_forall_not_mem.mpr fun t inside ↦ ?_
    have stands := tiling.stands t inside
    have := stands.start_lt_stop
    have := stands.stop_le
    have := tiling.after t inside
    omega
  · rintro rfl
    refine ⟨by simp, by simp, .nil, fun i c later found ↦ ?_⟩
    rw [List.getElem?_eq_none (by omega)] at found
    cases found

private theorem getElem?_of_drop (here : text.drop place = c :: rest) :
    text[place]? = some c := by
  rw [← List.head?_drop, here, List.head?_cons]

private theorem drop_succ (here : text.drop place = c :: rest) :
    text.drop (place + 1) = rest ∧ place < text.length := by
  refine ⟨by rw [← List.drop_drop, here, List.drop_one, List.tail_cons], ?_⟩
  have length := congrArg List.length here
  rw [List.length_drop, List.length_cons] at length
  omega

private theorem tiles_layout_iff (here : text.drop place = c :: rest)
    (layout : isLayout c = true) :
    Tiles text place tokens ↔ Tiles text (place + 1) tokens := by
  constructor
  · intro tiling
    refine ⟨tiling.stands, fun t inside ↦ ?_, tiling.ordered, fun i x later ↦
      tiling.layout i x (by omega)⟩
    have after := tiling.after t inside
    by_cases first : t.span.start.toNat = place
    · -- The lexeme of such a tile would start with layout.
      have found := (tiling.stands t inside).munch? (first ▸ here)
      rw [munch?_of_isLayout layout] at found
      cases found
    · omega
  · intro tiling
    refine ⟨tiling.stands, fun t inside ↦ ?_, tiling.ordered, fun i x later found outside ↦ ?_⟩
    · have := tiling.after t inside
      omega
    · obtain rfl | further := Nat.eq_or_lt_of_le later
      · rw [getElem?_of_drop here] at found
        cases found
        exact layout
      · exact tiling.layout i x further found outside

private theorem tiles_cons_iff (start : token.span.start = place) :
    Tiles text place (token :: tokens) ↔
      token.StandsIn text ∧ Tiles text token.span.stop.toNat tokens := by
  constructor
  · intro tiling
    have stands := tiling.stands token List.mem_cons_self
    have long := stands.start_lt_stop
    obtain ⟨ordered, others⟩ := List.pairwise_cons.mp tiling.ordered
    refine ⟨stands, fun t inside ↦ tiling.stands t (List.mem_cons_of_mem token inside),
      fun t inside ↦ ?_, others, fun i x later found outside ↦ ?_⟩
    · have := ordered t inside
      omega
    · refine tiling.layout i x (by omega) found fun t inside ↦ ?_
      obtain rfl | inside := List.mem_cons.mp inside
      · omega
      · exact outside t inside
  · rintro ⟨stands, tiling⟩
    have long := stands.start_lt_stop
    have nonneg := stands.start_nonneg
    have later (t : Token) (inside : t ∈ tokens) : token.span.stop ≤ t.span.start := by
      have := tiling.after t inside
      omega
    refine ⟨List.forall_mem_cons.mpr ⟨stands, tiling.stands⟩,
      List.forall_mem_cons.mpr ⟨by omega, fun t inside ↦ ?_⟩,
      List.pairwise_cons.mpr ⟨later, tiling.ordered⟩, fun i x after found outside ↦ ?_⟩
    · have := later t inside
      omega
    · obtain ⟨notFirst, outside⟩ := List.forall_mem_cons.mp outside
      exact tiling.layout i x (by omega) found outside

private theorem Tiles.exists_cons (tiling : Tiles text place tokens)
    (here : text.drop place = c :: rest) (noLayout : ¬ isLayout c = true) :
    ∃ token others, tokens = token :: others ∧ token.span.start = place := by
  obtain ⟨t, inside, covers⟩ : ∃ t ∈ tokens, t.span.start ≤ place ∧ place < t.span.stop := by
    apply Classical.byContradiction
    intro uncovered
    refine noLayout (tiling.layout place c (Nat.le_refl place) (getElem?_of_drop here) ?_)
    exact fun t inside covers ↦ uncovered ⟨t, inside, covers⟩
  have start := tiling.after t inside
  cases tokens with
  | nil => cases inside
  | cons token others =>
    refine ⟨token, others, rfl, ?_⟩
    have first := tiling.after token List.mem_cons_self
    have long := (tiling.stands token List.mem_cons_self).start_lt_stop
    obtain rfl | later := List.mem_cons.mp inside
    · omega
    · have := (List.pairwise_cons.mp tiling.ordered).1 t later
      omega

/-! ### Scanning -/

/-- The tokens that are scanned from a place of a text tile it from there on. -/
theorem tiles_of_scanFrom (scanned : scanFrom place rest = .ok tokens)
    (here : text.drop place = rest) (within : place ≤ text.length) :
    ∃ tiles, tokens = tiles ++ [endAt text.length] ∧ Tiles text place tiles := by
  fun_induction scanFrom place rest generalizing tokens with
  | case1 place =>
    cases scanned
    have ended : text.length = place := Nat.le_antisymm (List.drop_eq_nil_iff.mp here) within
    exact ⟨[], by rw [ended, List.nil_append], (tiles_nil_iff (Nat.le_of_eq ended)).mpr rfl⟩
  | case2 place c rest layout ih =>
    obtain ⟨next, further⟩ := drop_succ here
    obtain ⟨tiles, rfl, tiling⟩ := ih scanned next further
    exact ⟨tiles, rfl, (tiles_layout_iff here layout).mpr tiling⟩
  | case3 place c rest layout none => cases scanned
  | case4 place c rest layout m found =>
    rename_i after ih
    have stands := standsIn_of_munch? found here
    have next : text.drop after = m.rest := by
      rw [← List.drop_drop, here, ← munch?_append found, List.drop_left]
    cases others : scanFrom after m.rest with
    | error fault =>
      rw [others] at scanned
      cases scanned
    | ok following =>
      rw [others] at scanned
      cases scanned
      obtain ⟨tiles, rfl, tiling⟩ := ih others next (Int.ofNat_le.mp stands.stop_le)
      exact ⟨_ :: tiles, rfl, (tiles_cons_iff rfl).mpr ⟨stands, tiling⟩⟩

/-- A tiling of a text from a place on is what is scanned there. -/
theorem scanFrom_of_tiles (tiling : Tiles text place tokens) (here : text.drop place = rest)
    (within : place ≤ text.length) :
    scanFrom place rest = .ok (tokens ++ [endAt text.length]) := by
  fun_induction scanFrom place rest generalizing tokens with
  | case1 place =>
    have ended : text.length = place := Nat.le_antisymm (List.drop_eq_nil_iff.mp here) within
    rw [(tiles_nil_iff (Nat.le_of_eq ended)).mp tiling, ended, List.nil_append]
  | case2 place c rest layout ih =>
    obtain ⟨next, further⟩ := drop_succ here
    exact ih ((tiles_layout_iff here layout).mp tiling) next further
  | case3 place c rest layout none =>
    obtain ⟨token, others, rfl, start⟩ := tiling.exists_cons here layout
    have stands := ((tiles_cons_iff start).mp tiling).1
    have front : text.drop token.span.start.toNat = c :: rest := by
      rwa [start, Int.toNat_natCast]
    have found := stands.munch? front
    rw [none] at found
    cases found
  | case4 place c rest layout m found =>
    rename_i after ih
    obtain ⟨token, others, rfl, start⟩ := tiling.exists_cons here layout
    obtain ⟨stands, following⟩ := (tiles_cons_iff start).mp tiling
    have front : text.drop token.span.start.toNat = c :: rest := by
      rwa [start, Int.toNat_natCast]
    have same := stands.munch? front
    rw [found] at same
    cases same
    have stop : token.span.stop = (after : Nat) := by
      rw [stands.stop_eq, start]
      exact (Int.natCast_add _ _).symm
    have last : token.span.stop.toNat = after := by omega
    have whole : token = ⟨token.kind, String.ofList token.lexeme.toList, ⟨place, after⟩⟩ := by
      rw [String.ofList_toList, ← start, ← stop]
    have within' := stands.stop_le
    rw [ih (last ▸ following) (by rw [last]) (by omega)]
    exact congrArg (fun t ↦ Except.ok (t :: (others ++ [endAt text.length]))) whole.symm

/-- The tokens of a text tile it, up to the end. -/
theorem tiles_of_scan {source : String} (scanned : scan source = .ok tokens) :
    ∃ tiles, tokens = tiles ++ [endAt source.length] ∧ Tiles source.toList 0 tiles := by
  rw [← String.length_toList]
  exact tiles_of_scanFrom scanned rfl (Nat.zero_le _)

/-- Scanning a text gives the one list of tokens that tiles it, closed by the end of the text, and
fails only when no tokens tile the text. -/
theorem scan_eq_ok_iff_tiles (source : String) :
    (∀ tokens, scan source = .ok tokens ↔
      ∃ tiles, tokens = tiles ++ [endAt source.length] ∧ Tiles source.toList 0 tiles) ∧
    ((∃ fault, scan source = .error fault) ↔ ¬ ∃ tiles, Tiles source.toList 0 tiles) := by
  have scanned (tokens : List Token) : scan source = .ok tokens ↔
      ∃ tiles, tokens = tiles ++ [endAt source.length] ∧ Tiles source.toList 0 tiles := by
    constructor
    · exact tiles_of_scan
    · rintro ⟨tiles, rfl, tiling⟩
      rw [← String.length_toList]
      exact scanFrom_of_tiles tiling rfl (Nat.zero_le _)
  refine ⟨scanned, ?_, ?_⟩
  · rintro ⟨fault, failed⟩ ⟨tiles, tiling⟩
    have found := (scanned _).mpr ⟨tiles, rfl, tiling⟩
    rw [failed] at found
    cases found
  · intro untiled
    cases found : scan source with
    | error fault => exact ⟨fault, rfl⟩
    | ok tokens =>
      obtain ⟨tiles, -, tiling⟩ := (scanned tokens).mp found
      exact absurd ⟨tiles, tiling⟩ untiled

end Manifest.Token
