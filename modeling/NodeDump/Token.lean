/-!
The words of a dump. A token has a kind, the place where it starts and the text as it stands in the
source. The kind `endOfInput` belongs to the token that stands behind all others and has no text.
-/

namespace NodeDump

inductive Kind where
  | nodeStart | nodeEnd | arrayStart | arrayEnd | key | string | atom | endOfInput
  deriving DecidableEq, Repr, Inhabited

namespace Kind

def name : Kind → String
  | nodeStart => "nodeStart"
  | nodeEnd => "nodeEnd"
  | arrayStart => "arrayStart"
  | arrayEnd => "arrayEnd"
  | key => "key"
  | string => "string"
  | atom => "atom"
  | endOfInput => "end of input"

def isScalar : Kind → Bool
  | string | atom => true
  | _ => false

end Kind

structure Token where
  kind : Kind
  line : Int
  column : Int
  text : String
  deriving DecidableEq, Repr, Inhabited

namespace Token

def isEnd (token : Token) : Bool := token.kind == .endOfInput

/-- What follows the opening parenthesis of an array: a letter, or nothing. -/
def tag (token : Token) : String := String.ofList token.text.toList.tail

inductive Class where
  | any
  | scalar
  | only (kind : Kind)
  deriving DecidableEq, Repr, Inhabited

namespace Class

/-- The two wider classes have no kind of their own and share one name. -/
def name : Class → String
  | any | scalar => "token"
  | only kind => kind.name

def accepts : Class → Kind → Bool
  | any, _ => true
  | scalar, kind => kind.isScalar
  | only expected, kind => expected == kind

def describe (label : Class) (line column : Int) (text : String) : String :=
  let place := s!"{line}:{column}"
  if label = only .endOfInput then "end of input at " ++ place
  else s!"token '{label.name}' at " ++ place ++ ": " ++ text

end Class

def describe (token : Token) : String :=
  (Class.only token.kind).describe token.line token.column token.text

end Token

end NodeDump
