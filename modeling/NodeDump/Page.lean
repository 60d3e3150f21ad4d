/-!
A page is what has been laid out up to now, together with how far the next line is to be set in. The
depth may be put to anything by hand, so it and its product with the width can be negative; a line then
gets no indentation unless the product is positive.
-/

namespace NodeDump

structure Page where
  text : String := ""
  depth : Int := 0
  /-- How many columns one level is worth. -/
  width : Int := 2
  deriving DecidableEq, Repr

namespace Page

def write (page : Page) (more : String) : Page := { page with text := page.text ++ more }

def lineBreak (page : Page) : String :=
  String.ofList ('\n' :: List.replicate (page.depth * page.width).toNat ' ')

/-- An empty page is already at the start of a line. -/
def startLine (page : Page) (more : String) : Page :=
  if page.text = "" then page.write more else page.write (page.lineBreak ++ more)

def shift (page : Page) (levels : Int) : Page := { page with depth := page.depth + levels }

@[simp] theorem text_write (page : Page) (more : String) : (page.write more).text = page.text ++ more :=
  rfl

@[simp] theorem depth_write (page : Page) (more : String) : (page.write more).depth = page.depth := rfl

@[simp] theorem width_write (page : Page) (more : String) : (page.write more).width = page.width := rfl

@[simp] theorem text_shift (page : Page) (levels : Int) : (page.shift levels).text = page.text := rfl

@[simp] theorem depth_shift (page : Page) (levels : Int) :
    (page.shift levels).depth = page.depth + levels := rfl

@[simp] theorem width_shift (page : Page) (levels : Int) : (page.shift levels).width = page.width := rfl

@[simp] theorem depth_startLine (page : Page) (more : String) :
    (page.startLine more).depth = page.depth := by
  unfold startLine
  split <;> rfl

@[simp] theorem width_startLine (page : Page) (more : String) :
    (page.startLine more).width = page.width := by
  unfold startLine
  split <;> rfl

theorem startLine_of_ne_empty {page : Page} (begun : page.text ≠ "") (more : String) :
    page.startLine more = page.write (page.lineBreak ++ more) := if_neg begun

end Page

end NodeDump
