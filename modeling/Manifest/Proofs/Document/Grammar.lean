import Manifest.Document.Reading

/-!
# The grammar of documents

The reference grammar, as a relation between parts of a tree and the tokens that derive them. A
document is a list of entries; an entry is a record, a call after the record mark, or a separator;
a value is a number, a quoted text, an object, an array, or a call after the value mark. Separators
stand for nothing.

The grammar bounds neither the whole part of a number nor the levels of a tree. `Derives` therefore
lists the tokens that state whole numbers, and `Value.nesting` counts levels. A number of a tree
has 32 bits, so that there is no tree for an integer literal that needs more.
-/

namespace Manifest

namespace Value

mutual

/-- How many objects, arrays and calls for a value are nested in one another. -/
def nesting : Value → Nat
  | number _ | float _ | text _ => 0
  | array items => itemsNesting items + 1
  | object entries => entriesNesting entries + 1
  | call _ x => nesting x + 1
  | typed _ x => nesting x

/-- The deepest nesting of the items. -/
def itemsNesting : List Value → Nat
  | [] => 0
  | item :: rest => max (nesting item) (itemsNesting rest)

/-- The deepest nesting of the entries. A call for a record opens no level of its own. -/
def entriesNesting : List Entry → Nat
  | [] => 0
  | .record _ x :: rest => max (nesting x) (entriesNesting rest)
  | .call _ x :: rest => max (nesting x) (entriesNesting rest)

end

end Value

namespace Document

/-- A part of a tree that a list of tokens may stand for. -/
inductive Phrase
  | value (v : Value)
  /-- The entries of a document or of an object. -/
  | entries (es : List Entry)
  /-- The items of an array. -/
  | items (vs : List Value)

/-- How many levels are nested in a part of a tree. -/
def Phrase.nesting : Phrase → Nat
  | value v => v.nesting
  | entries es => Value.entriesNesting es
  | items vs => Value.itemsNesting vs

/-- The number of a whole part and a fraction: their digits with a point between them, as the
nearest double, as the nearest single. -/
def realOf (whole fraction : Token) : Single :=
  let digits := whole.lexeme.toList ++ fraction.lexeme.toList
  let decimal : Decimal := ⟨Numeral.valueOf digits, -(fraction.lexeme.toList.length : Int)⟩
  (Binary.ofDecimal false decimal : Double).convert .single

/-- `Derives p ts ws`: the tokens `ts` derive the part `p` of a tree, and `ws` are those of them
that state a whole number, be it an integer literal or the whole part of a number with a
fraction. -/
inductive Derives : Phrase → List Token → List Token → Prop
  | integer {digits : Token} {n : Int32} :
    digits.kind = .integer → n.toInt = Numeral.valueOf digits.lexeme.toList →
    Derives (.value (.number n)) [digits] [digits]
  | real {whole point fraction : Token} :
    whole.kind = .integer → point.kind = .point → fraction.kind = .integer →
    Derives (.value (.float (realOf whole fraction))) [whole, point, fraction] [whole]
  | quoted {token : Token} :
    token.kind = .quoted → Derives (.value (.text token.content)) [token] []
  | object {start stop : Token} {es : List Entry} {ts ws : List Token} :
    start.kind = .openBrace → Derives (.entries es) ts ws → stop.kind = .closeBrace →
    Derives (.value (.object es)) (start :: (ts ++ [stop])) ws
  | array {start stop : Token} {vs : List Value} {ts ws : List Token} :
    start.kind = .openBracket → Derives (.items vs) ts ws → stop.kind = .closeBracket →
    Derives (.value (.array vs)) (start :: (ts ++ [stop])) ws
  | call {mark name : Token} {v : Value} {ts ws : List Token} :
    mark.kind = .valueMark → name.kind = .identifier → Derives (.value v) ts ws →
    Derives (.value (.call name.lexeme v)) (mark :: name :: ts) ws
  | noEntries : Derives (.entries []) [] []
  | record {id mark : Token} {v : Value} {es : List Entry} {ts us ws xs : List Token} :
    id.kind = .identifier → mark.kind = .assign → Derives (.value v) ts ws →
    Derives (.entries es) us xs →
    Derives (.entries (.record id.lexeme v :: es)) (id :: mark :: (ts ++ us)) (ws ++ xs)
  | recordCall {mark name : Token} {v : Value} {es : List Entry} {ts us ws xs : List Token} :
    mark.kind = .recordMark → name.kind = .identifier → Derives (.value v) ts ws →
    Derives (.entries es) us xs →
    Derives (.entries (.call name.lexeme v :: es)) (mark :: name :: (ts ++ us)) (ws ++ xs)
  | betweenEntries {token : Token} {es : List Entry} {ts ws : List Token} :
    token.kind = .separator → Derives (.entries es) ts ws →
    Derives (.entries es) (token :: ts) ws
  | noItems : Derives (.items []) [] []
  | item {v : Value} {vs : List Value} {ts us ws xs : List Token} :
    Derives (.value v) ts ws → Derives (.items vs) us xs →
    Derives (.items (v :: vs)) (ts ++ us) (ws ++ xs)
  | betweenItems {token : Token} {vs : List Value} {ts ws : List Token} :
    token.kind = .separator → Derives (.items vs) ts ws →
    Derives (.items vs) (token :: ts) ws

end Document
end Manifest
