import WholeMatch.Token

/-!
# Expressions in post-order

A `Postorder` lists the tokens of an expression with every operator after its operands, so no
grouping is needed. Any token list is allowed: whether the operators find their operands is
decided where an automaton is assembled from it. Main statement: writing the tokens read from a
text gives the text back (`Postorder.text_ofText`).
-/

namespace WholeMatch

/-- A sequence of tokens, operators after their operands. -/
structure Postorder where
  tokens : List Token
  deriving DecidableEq

namespace Postorder

/-- Reads text that is already in post-order, one token per character. -/
def ofText (text : String) : Postorder := ⟨text.toList.map Token.ofChar⟩

/-- The text of the tokens, one character each. -/
def text (p : Postorder) : String := String.ofList (p.tokens.map Token.symbol)

/-- The number of tokens. -/
def size (p : Postorder) : Nat := p.tokens.length

/-- Tells whether there is no token at all. -/
def isEmpty (p : Postorder) : Bool := p.tokens.isEmpty

theorem toList_text (p : Postorder) : p.text.toList = p.tokens.map Token.symbol := by
  simp [text]

theorem text_ofText (s : String) : (ofText s).text = s := by
  simp [text, ofText, Function.comp_def]

end Postorder

end WholeMatch
