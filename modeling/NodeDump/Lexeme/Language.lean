import NodeDump.Text.Character
import NodeDump.Token

/-!
What the tokens of each kind look like, without regard to the text around them.
-/

namespace NodeDump.Lexeme

inductive LiteralBody : List Char → Prop
  | nil : LiteralBody []
  | escaped {c : Char} {rest : List Char} (special : c = '"' ∨ c = '\\') (inner : LiteralBody rest) :
      LiteralBody ('\\' :: c :: rest)
  | plain {c : Char} {rest : List Char} (quote : c ≠ '"') (backslash : c ≠ '\\') (feed : c ≠ '\n')
      (inner : LiteralBody rest) : LiteralBody (c :: rest)

def Run (p : Char → Bool) (text : List Char) : Prop := ∀ c ∈ text, p c = true

def IsNumber (text : List Char) : Prop :=
  ∃ blanks sign digits fraction, text = blanks ++ sign ++ digits ++ fraction ∧
    Run Char.isWhitespace blanks ∧ (sign = [] ∨ sign = ['-']) ∧ digits ≠ [] ∧ Run Char.isDigit digits ∧
    (fraction = [] ∨ ∃ decimals, fraction = '.' :: decimals ∧ Run Char.isDigit decimals)

/-- A number cannot be followed by something that it could have gone on with. -/
def EndsNumber (rest : List Char) : Prop := ∀ c, rest.head? = some c → c.isDigit = false ∧ c ≠ '.'

inductive Numbers : List Char → Prop
  | blanks {text : List Char} (run : Run Char.isWhitespace text) : Numbers text
  | cons {number rest : List Char} (isNumber : IsNumber number) (ends : EndsNumber rest)
      (numbers : Numbers rest) : Numbers (number ++ rest)

def IsNumberList (text : List Char) : Prop :=
  ∃ blanks inside, text = blanks ++ '[' :: inside ++ [']'] ∧ Run Char.isWhitespace blanks ∧ Numbers inside

def IsAtomPart (text : List Char) : Prop :=
  (text ≠ [] ∧ Run Text.isWordChar text) ∨ IsNumberList text

/-- The texts of the tokens of a kind. -/
def Language : Kind → List Char → Prop
  | .nodeStart, text => ∃ name, text = '{' :: name ∧ name ≠ [] ∧ Run Text.isNameChar name
  | .nodeEnd, text => text = ['}']
  | .arrayStart, text => text = ['('] ∨ ∃ tag, text = ['(', tag] ∧ tag.isLower = true
  | .arrayEnd, text => text = [')']
  | .key, text => ∃ name, text = ':' :: name ∧ name ≠ [] ∧ Run Text.isNameChar name
  | .string, text => ∃ body, text = '"' :: body ++ ['"'] ∧ LiteralBody body
  | .atom, text => ∃ parts, text = parts.flatten ∧ parts ≠ [] ∧ ∀ part ∈ parts, IsAtomPart part
  | .endOfInput, _ => False

end NodeDump.Lexeme
