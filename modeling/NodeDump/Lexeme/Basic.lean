import NodeDump.Lexeme.Atom
import NodeDump.Lexeme.Literal
import NodeDump.Token

/-!
The front of a text cut into a lexeme and the rest. The first character decides what kind of lexeme can
stand there, and the lexeme then reaches as far as it can.
-/

namespace NodeDump

structure Lexeme where
  kind : Kind
  text : List Char
  rest : List Char
  deriving DecidableEq, Repr

namespace Lexeme

def named? (kind : Kind) (opening : Char) (tail : List Char) : Option Lexeme :=
  match tail.takeWhile Text.isNameChar with
  | [] => none
  | c :: name => some ⟨kind, opening :: c :: name, tail.dropWhile Text.isNameChar⟩

/-- Only a letter directly behind the parenthesis is the tag of an array. -/
def arrayStart (tail : List Char) : Lexeme :=
  match tail with
  | [] => ⟨.arrayStart, ['('], []⟩
  | c :: rest => if c.isLower then ⟨.arrayStart, ['(', c], rest⟩ else ⟨.arrayStart, ['('], tail⟩

def atom? (cs : List Char) : Option Lexeme :=
  match Atom.parts cs with
  | ([], _) => none
  | (part :: later, rest) => some ⟨.atom, part ++ later.flatten, rest⟩

def string? (cs : List Char) : Option Lexeme :=
  (Literal.split? cs).map fun (text, rest) => ⟨.string, text, rest⟩

/-- The lexeme at the front of a text. None starts with a blank. -/
def first? : List Char → Option Lexeme
  | [] => none
  | c :: tail =>
    if c.isWhitespace then none
    else if c = '"' then string? (c :: tail)
    else if c = ':' then named? .key c tail
    else if c = '{' then named? .nodeStart c tail
    else if c = '}' then some ⟨.nodeEnd, [c], tail⟩
    else if c = '(' then some (arrayStart tail)
    else if c = ')' then some ⟨.arrayEnd, [c], tail⟩
    else atom? (c :: tail)

end Lexeme

end NodeDump
