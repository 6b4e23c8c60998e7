import Manifest.Proofs.Document.Literal
import Manifest.Proofs.Document.Printing

/-!
# Texts that assign one value

A text that assigns a run of digits is read as the number that the run denotes, up to the greatest
of 32 bits (`Document.ofSource_integer`). A greater one is a fault with its span, and one of more
digits than are read is a fault without (`Document.ofSource_outOfRange`,
`Document.ofSource_tooLong`). A text that assigns the call of a function with a text in quotes is
read as that (`Document.ofSource_textCall`).
-/

namespace Manifest.Document

open Numeral (IsRun valueOf maxDigits)

variable {digits : List Char}

/-- The tokens of a text that assigns a whole number. -/
theorem scan_assigned {digits : List Char} (run : IsRun digits) :
    Token.scan ("x = " ++ String.ofList digits) = .ok ([⟨.identifier, "x", ⟨0, 1⟩⟩,
      ⟨.assign, "=", ⟨2, 3⟩⟩] ++
        ⟨.integer, String.ofList digits, ⟨4, (4 + digits.length : Nat)⟩⟩ ::
        [Token.endAt (4 + digits.length)]) := by
  obtain ⟨first, rest, rfl⟩ := List.exists_cons_of_ne_nil run.nonempty
  have text : ("x = " ++ String.ofList (first :: rest)).toList =
      'x' :: ' ' :: '=' :: ' ' :: first :: rest := by
    simp
  have name : Token.munch? 'x' (' ' :: '=' :: ' ' :: first :: rest) =
      some ⟨.identifier, ['x'], ' ' :: '=' :: ' ' :: first :: rest⟩ := rfl
  have mark :
      Token.munch? '=' (' ' :: first :: rest) = some ⟨.assign, ['='], ' ' :: first :: rest⟩ :=
    rfl
  have number : Token.munch? first rest = some ⟨.integer, first :: rest, []⟩ :=
    Token.munch?_eq_some_iff.mpr ⟨List.append_nil _, run, by simp⟩
  have noLayout : ¬ Text.isLayout first = true := by
    intro layout
    rw [Token.munch?_of_isLayout layout] at number
    cases number
  have blank (offset : Nat) (more : List Char) :
      Token.scanFrom offset (' ' :: more) = Token.scanFrom (offset + 1) more := by
    rw [Token.scanFrom, if_pos (by decide)]
  rw [Token.scan, text, Token.scanFrom_cons (by decide) name, blank,
    Token.scanFrom_cons (by decide) mark, blank, Token.scanFrom_cons noLayout number,
    Token.scanFrom]
  rfl

/-- A run of digits is read as the number that it denotes, up to the greatest of 32 bits. -/
theorem ofSource_integer (run : IsRun digits) (short : digits.length ≤ maxDigits)
    (small : (valueOf digits : Int) ≤ maxInteger) :
    ofSource ("x = " ++ String.ofList digits) =
      .ok (.object [.record "x" (.number (Int32.ofInt (valueOf digits)))]) := by
  let name : Token := ⟨.identifier, "x", ⟨0, 1⟩⟩
  let mark : Token := ⟨.assign, "=", ⟨2, 3⟩⟩
  let literal : Token := ⟨.integer, String.ofList digits, ⟨4, (4 + digits.length : Nat)⟩⟩
  have lexeme : literal.lexeme.toList = digits := String.toList_ofList
  have value : integerValue literal = .ok (.number (Int32.ofInt (valueOf digits))) := by
    have read : integerValue literal = _ :=
      integerValue_isRun (by rwa [lexeme]) (by rwa [lexeme]) (by rwa [lexeme])
    rwa [lexeme] at read
  have admits : Admits literal :=
    ⟨valueOf literal.lexeme.toList,
      Numeral.readInteger_of_isRun (by rwa [lexeme]) (by rwa [lexeme]),
      by rwa [lexeme]⟩
  have read : Reads 0 (.entries [.record name.lexeme (.number (Int32.ofInt (valueOf digits)))])
      [name, mark, literal] [] :=
    .record rfl rfl (.integer rfl admits value noPoint_nil) .noEntries
  have more : ∀ t ∈ [name, mark, literal], t.kind ≠ .endOfInput := by simp [name, mark, literal]
  rw [ofSource, scan_assigned run]
  exact (ofTokens_eq_ok_iff_reads more rfl).mpr ⟨[], _, by simp [AreClosers], read, rfl⟩

/-- A run of digits beyond the greatest number of 32 bits is a fault with its span. -/
theorem ofSource_outOfRange (run : IsRun digits) (short : digits.length ≤ maxDigits)
    (great : maxInteger < (valueOf digits : Int)) :
    ofSource ("x = " ++ String.ofList digits) =
      .error
        (.lex (.outOfRange ⟨.integer, String.ofList digits, ⟨4, (4 + digits.length : Nat)⟩⟩)) := by
  apply ofSource_literal (scan_assigned run) (awaitsNumber_assigned rfl rfl) rfl
  rw [refusal?_of_lt (by rwa [String.toList_ofList]), String.toList_ofList,
    if_neg (Nat.not_lt.mpr short)]

/-- A run of more digits than are read is a fault without a place. -/
theorem ofSource_tooLong (run : IsRun digits)
    (long : maxDigits < digits.length) :
    ofSource ("x = " ++ String.ofList digits) = .error (.numeral (.tooLong digits.length)) := by
  refine ofSource_literal (scan_assigned run) (awaitsNumber_assigned rfl rfl) rfl ?_
  rw [Token.refusal?, String.toList_ofList, if_pos long]

/-- The call of a function with a text in quotes is read as that. -/
theorem ofSource_textCall {name : String} (named : Token.isName name = true) {text : List Char}
    (plain : '"' ∉ text) :
    ofSource ("x = @" ++ name ++ " \"" ++ String.ofList text ++ "\"") =
      .ok (.object [.record "x" (.call name (.text (String.ofList text)))]) := by
  have literal :
      Value.entriesLiteral [.record "x" (.call name (.text (String.ofList text)))] = true := by
    have x : Token.isName "x" = true := by decide
    simpa [Value.entriesLiteral, Value.isLiteral, x, named] using plain
  have readable := Value.readable_entryWords _ literal
  have spells : Token.Spells 0 ("x = @" ++ name ++ " \"" ++ String.ofList text ++ "\"").toList
      (Value.entryWords [.record "x" (.call name (.text (String.ofList text)))]) := by
    have lexical := fun w inside ↦ (readable w inside).lexical
    simp only [Value.entryWords, Value.words, List.append_nil, List.forall_mem_cons] at lexical
    obtain ⟨x, assign, mark, function, quoted, -⟩ := lexical
    have space : ∀ c ∈ [' '], Text.isLayout c = true := List.forall_mem_singleton.mpr (by decide)
    have parts : ("x = @" ++ name ++ " \"" ++ String.ofList text ++ "\"").toList =
        "x".toList ++ ([' '] ++ ("=".toList ++ ([' '] ++ ("@".toList ++ (name.toList ++ ([' '] ++
          ((String.ofList ('"' :: ((String.ofList text).toList ++ ['"']))).toList
            ++ []))))))) := by
      simp
    rw [parts]
    refine Token.Spells.lexeme (Token.Spells.layout (Token.Spells.lexeme (Token.Spells.layout
      (Token.Spells.lexeme (Token.Spells.lexeme (Token.Spells.layout (Token.Spells.lexeme
        (Token.spells_nil _) quoted ?_) space) function ?_) mark ?_) space) assign ?_) space) x ?_
    all_goals simp [Token.Kind.goesOn]
    all_goals decide
  exact ofSource_of_spells spells readable (derived_entryWords _ literal)
    (by simp [Value.entriesNesting, Value.nesting, maxDepth])

end Manifest.Document
