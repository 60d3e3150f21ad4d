import NodeDump.Token

/-!
Dumps as trees. `words` gives the tokens that a tree is spelled with, `render` its layout when it is
printed from the tree and not while it is read, and `height` how many constructs are open at once.
-/

namespace NodeDump

mutual

inductive Dump where
  | string (text : String)
  | atom (text : String)
  | array (tag : String) (elements : Elements)
  | node (opening : String) (attributes : Attributes)

inductive Elements where
  | nil
  | cons (first : Dump) (later : Elements)

inductive Attributes where
  | nil
  | bare (key : String) (later : Attributes)
  | valued (key : String) (value : Dump) (later : Attributes)

end

mutual

def Dump.words : Dump → List (Kind × String)
  | .string text => [(.string, text)]
  | .atom text => [(.atom, text)]
  | .array tag elements => (.arrayStart, "(" ++ tag) :: elements.words ++ [(.arrayEnd, ")")]
  | .node opening attributes => (.nodeStart, opening) :: attributes.words ++ [(.nodeEnd, "\x7d")]

def Elements.words : Elements → List (Kind × String)
  | .nil => []
  | .cons first later => first.words ++ later.words

def Attributes.words : Attributes → List (Kind × String)
  | .nil => []
  | .bare key later => (.key, key) :: later.words
  | .valued key value later => (.key, key) :: value.words ++ later.words

end

mutual

def Dump.height : Dump → Nat
  | .string _ | .atom _ => 0
  | .array _ elements => elements.height + 1
  | .node _ attributes => attributes.height + 1

def Elements.height : Elements → Nat
  | .nil => 0
  | .cons first later => max first.height later.height

def Attributes.height : Attributes → Nat
  | .nil => 0
  | .bare _ later => later.height
  | .valued _ value later => max value.height later.height

end

mutual

/-- `newLine` gives the line break in front of a line that stands at a depth. -/
def Dump.render (newLine : Int → String) (depth : Int) : Dump → String
  | .string text | .atom text => text
  | .array tag .nil => "(" ++ tag ++ ")"
  | .array tag elements =>
    if tag = "" then "(" ++ elements.renderLines newLine (depth + 1) ++ newLine depth ++ ")"
    else "(" ++ tag ++ elements.renderRow newLine (depth + 1) ++ ")"
  | .node opening .nil => opening ++ "\x7d"
  | .node opening attributes =>
    opening ++ attributes.render newLine (depth + 1) ++ newLine depth ++ "\x7d"

def Elements.renderLines (newLine : Int → String) (depth : Int) : Elements → String
  | .nil => ""
  | .cons first later => newLine depth ++ first.render newLine depth ++ later.renderLines newLine depth

def Elements.renderRow (newLine : Int → String) (depth : Int) : Elements → String
  | .nil => ""
  | .cons first later => " " ++ first.render newLine depth ++ later.renderRow newLine depth

/-- The blank behind a key is there with and without a value. -/
def Attributes.render (newLine : Int → String) (depth : Int) : Attributes → String
  | .nil => ""
  | .bare key later => newLine depth ++ key ++ " " ++ later.render newLine depth
  | .valued key value later =>
    newLine depth ++ key ++ " " ++ value.render newLine depth ++ later.render newLine depth

end

end NodeDump
