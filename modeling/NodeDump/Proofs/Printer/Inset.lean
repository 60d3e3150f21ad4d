import NodeDump.Proofs.Printer.Rendered
import NodeDump.Proofs.Printer.Viable

/-!
A value at a depth. Behind whatever is open, a value is arranged as it is alone, with as many more blanks behind
each line break as the constructs around it are worth.
-/

namespace NodeDump

def inset (count : Nat) (text : List Char) : List Char :=
  text.flatMap fun c => if c = '\n' then c :: List.replicate count ' ' else [c]

/-- The line feeds inside an atom are its own. -/
def Word.inset (count : Nat) (word : Word) : Word :=
  if word.1 = .atom then word else (word.1, String.ofList (NodeDump.inset count word.2.toList))

def insetItems (count : Nat) (items : List (List Char × Word)) : List (List Char × Word) :=
  items.map fun item => (inset count item.1, item.2.inset count)

theorem inset_of_not_mem {text : List Char} (flat : '\n' ∉ text) (count : Nat) : inset count text = text := by
  induction text with
  | nil => rfl
  | cons c text ih =>
    have other : c ≠ '\n' := (List.ne_of_not_mem_cons flat).symm
    have rest := ih (List.not_mem_of_not_mem_cons flat)
    rw [inset] at rest
    rw [inset, List.flatMap_cons, rest, if_neg other]
    rfl

theorem inset_append (count : Nat) (first second : List Char) :
    inset count (first ++ second) = inset count first ++ inset count second :=
  List.flatMap_append

theorem Lexeme.LiteralBody.not_mem {body : List Char} (literal : LiteralBody body) : '\n' ∉ body := by
  induction literal with
  | nil => simp
  | escaped special _ ih =>
    rcases special with rfl | rfl <;> simpa using ih
  | plain _ _ feed _ ih => exact List.not_mem_cons_of_ne_of_not_mem (Ne.symm feed) ih

theorem Lexical.not_mem_of_ne_atom {word : Word} (lexical : Lexical word) (other : word.1 ≠ .atom) :
    '\n' ∉ word.2.toList := by
  obtain ⟨kind, text⟩ := word
  have language := lexical.language
  cases kind with
  | atom => contradiction
  | nodeStart | key =>
    obtain ⟨name, same, -, run⟩ := language
    have flat : '\n' ∉ name := run.not_mem (by decide)
    simpa [same] using flat
  | string =>
    obtain ⟨body, same, literal⟩ := language
    simpa [same] using literal.not_mem
  | arrayStart =>
    rcases language with same | ⟨tag, same, lower⟩
    · simp [same]
    · have letter : '\n' ≠ tag := by
        rintro rfl
        contradiction
      simpa [same] using letter
  | nodeEnd | arrayEnd => simp [show text.toList = _ from language]
  | endOfInput => exact language.elim

theorem Word.inset_of_lexical {word : Word} (lexical : Lexical word) (count : Nat) : word.inset count = word := by
  unfold Word.inset
  split
  · rfl
  · rw [inset_of_not_mem (lexical.not_mem_of_ne_atom ‹_›), String.ofList_toList]

theorem inset_newLine (width depth : Nat) {levels : Int} (inside : 0 ≤ levels) :
    inset (width * depth) (Page.newLine width levels).toList = (Page.newLine width (depth + levels)).toList := by
  have flat : '\n' ∉ List.replicate (levels * width).toNat ' ' := by simp
  have columns : ((depth + levels) * width : Int).toNat = width * depth + (levels * width).toNat := by
    have inner : 0 ≤ levels * width := Int.mul_nonneg inside (Int.natCast_nonneg width)
    have outer : (depth * width : Int) = (width * depth : Nat) := by
      rw [Int.natCast_mul, Int.mul_comm]
    rw [Int.add_mul, outer]
    omega
  rw [Page.newLine, Page.newLine, String.toList_ofList, String.toList_ofList, columns, List.replicate_add,
    ← List.singleton_append, inset_append, inset_of_not_mem flat]
  simp [inset]

section Deeper

variable {outer inner : List Word} {frames : List Frame} {words : List Word}

theorem Word.enclose_append {middle : List Frame} {openings : List Word} {word : Word}
    (place : follow? frames word = some middle) (level : frames.length = openings.length) (outer : List Word) :
    Word.enclose (openings ++ outer) word = Word.enclose openings word ++ outer ∧
      middle.length = (Word.enclose openings word).length := by
  have levels := length_follow? place
  by_cases opening : word.Opening
  · rw [Word.rise_of_opening opening] at levels
    rw [Word.enclose_of_opening opening, Word.enclose_of_opening opening, List.length_cons]
    exact ⟨rfl, by omega⟩
  · by_cases closing : word.Closing
    · obtain ⟨frame, rfl⟩ := Spine.follow?_closing closing place
      obtain ⟨first, openings, rfl⟩ := List.exists_cons_of_length_eq_add_one level.symm
      rw [Word.enclose_of_closing closing, Word.enclose_of_closing closing]
      exact ⟨rfl, by simpa using level⟩
    · rw [Word.rise_of_other opening closing] at levels
      rw [Word.enclose_of_other opening closing, Word.enclose_of_other opening closing]
      exact ⟨rfl, by omega⟩

theorem foldl_enclose_append {inner : List Frame} (walked : walk? frames words = some inner)
    {openings : List Word} (level : frames.length = openings.length) (outer : List Word) :
    words.foldl Word.enclose (openings ++ outer) = words.foldl Word.enclose openings ++ outer := by
  induction words generalizing frames openings with
  | nil => rfl
  | cons word words ih =>
    rw [walk?_cons] at walked
    obtain ⟨middle, place, behind⟩ := Option.bind_eq_some_iff.1 walked
    obtain ⟨kept, same⟩ := Word.enclose_append place level outer
    rw [List.foldl_cons, List.foldl_cons, kept, ih behind same]

theorem openWords_append_of_walk (walked : walk? [] inner = some frames) (outer : List Word) :
    openWords (outer ++ inner) = openWords inner ++ openWords outer := by
  have alone : ([] : List Frame).length = ([] : List Word).length := rfl
  rw [openWords_append, openWords]
  exact foldl_enclose_append walked alone _

theorem inset_trail (count : Nat) (before : List Word) :
    inset count (trail before).toList = (trail before).toList := by
  unfold trail
  split <;> exact inset_of_not_mem (by simp) count

theorem Spine.openLevels_pos (spine : Spine none frames inner) (some_word : inner ≠ []) : 0 < openLevels inner := by
  have some_frame : frames ≠ [] := by
    rintro rfl
    exact some_word spine.eq_nil
  have levels := levels_of_walk spine.walk
  have some_level := List.length_pos_iff.2 some_frame
  rw [List.length_nil] at levels
  omega

theorem setting?_append (spine : Spine none frames inner) (some_word : inner ≠ []) (outer : List Word) :
    setting? (outer ++ inner) = setting? inner := by
  have length := length_openWords spine.walk
  have deeper := spine.openLevels_pos some_word
  have inside : openWords inner ≠ [] := by
    intro bare
    rw [bare, List.length_nil] at length
    omega
  rw [setting?, setting?, openWords_append_of_walk spine.walk, List.head?_append_of_ne_nil _ inside]

theorem separator_append {width depth : Nat} (spine : Spine none frames inner) (some_word : inner ≠ [])
    (level : openLevels outer = depth) (word : Word) :
    (separator width (outer ++ inner) word).toList = inset (width * depth) (separator width inner word).toList := by
  have deeper := spine.openLevels_pos some_word
  have setting := setting?_append spine some_word outer
  have just : JustOpened (outer ++ inner) ↔ JustOpened inner := by
    rw [JustOpened, JustOpened, List.getLast?_append_of_ne_nil _ some_word]
  have starts : StartsLine (outer ++ inner) word ↔ StartsLine inner word := by rw [StartsLine, StartsLine, setting]
  have ends : EndsLines (outer ++ inner) word ↔ EndsLines inner word := by rw [EndsLines, EndsLines, setting, just]
  have element : StartsElement (outer ++ inner) word ↔ StartsElement inner word := by
    rw [StartsElement, StartsElement, setting]
  unfold separator
  simp only [starts, ends, element, openLevels_append, level]
  split_ifs
  · exact (inset_newLine width depth (by omega)).symm
  -- An end stands one level further out, which is still inside the constructs around the dump.
  · rw [inset_newLine width depth (by omega), Int.add_sub_assoc]
  · exact (inset_of_not_mem (by simp) _).symm
  · exact (inset_of_not_mem (by simp) _).symm

theorem lead_append {width depth : Nat} (spine : Spine none frames inner) (some_word : inner ≠ [])
    (level : openLevels outer = depth) (word : Word) :
    (lead width (outer ++ inner) word).toList = inset (width * depth) (lead width inner word).toList := by
  have trails : trail (outer ++ inner) = trail inner := by
    rw [trail, trail, List.getLast?_append_of_ne_nil _ some_word]
  rw [lead_of_ne_nil (by simp [some_word]), lead_of_ne_nil some_word, trails, String.toList_append,
    String.toList_append, inset_append, inset_trail, separator_append spine some_word level]

/-- Behind its first word a dump is laid out as if nothing stood in front of it, only further in. -/
theorem arrange_append_inset {width depth : Nat} {dump : Dump} (lexical : dump.Lexical) (some_word : inner ≠ [])
    (same : dump.words = inner ++ words) (level : openLevels outer = depth) :
    arrange width (outer ++ inner) words = insetItems (width * depth) (arrange width inner words) := by
  induction words generalizing inner with
  | nil => rfl
  | cons word words ih =>
    obtain ⟨frames, spine⟩ := Spine.of_prefix lexical same
    have grown : dump.words = (inner ++ [word]) ++ words := by simpa using same
    have next := ih (by simp) grown
    have kept := Word.inset_of_lexical (lexical word (by simp [same])) (width * depth)
    rw [arrange, arrange, List.append_assoc, next, lead_append spine some_word level]
    simp only [insetItems, List.map_cons, kept]

theorem spell_arrange_inset {width depth : Nat} {dump : Dump} (lexical : dump.Lexical) {word : Word}
    (starting : word.Starting) (level : openLevels outer = depth) :
    spell (arrange width outer dump.words) [] = (lead width outer word).toList ++
      spell (insetItems (width * depth) (arrange width [] dump.words)) [] := by
  obtain ⟨first, later, same, starting'⟩ := dump.words_head
  have kept := Word.inset_of_lexical (lexical first (by simp [same])) (width * depth)
  have behind : arrange width (outer ++ [first]) later = insetItems (width * depth) (arrange width [first] later) :=
    arrange_append_inset lexical (by simp) same level
  have alone : insetItems (width * depth) (arrange width [] (first :: later)) =
      ([], first) :: insetItems (width * depth) (arrange width [first] later) := by
    rw [arrange, insetItems, List.map_cons, kept]
    rfl
  rw [same, spell_arrange_cons, lead_of_starting starting' starting, behind, alone]
  rfl

end Deeper

theorem openLevels_replicate {word : Word} (opening : word.Opening) (depth : Nat) :
    openLevels (List.replicate depth word) = depth := by
  induction depth with
  | zero => rfl
  | succ depth ih =>
    rw [List.replicate_succ, openLevels, ih, Word.rise_of_opening opening]
    omega

theorem render_inset {dump : Dump} (lexical : dump.Lexical) (width depth : Nat) :
    (dump.render (Page.newLine width) depth).toList =
      spell (insetItems (width * depth) (arrange width [] dump.words)) [] := by
  -- The depth is that of a value with so many constructs around it.
  have opening : Word.Opening (.arrayStart, "(") := Or.inr rfl
  have level := openLevels_replicate opening depth
  have rendered := dump.spell_arrange width (Word.starting_atom "") (List.replicate depth (.arrayStart, "(")) []
  rw [spell_arrange_inset lexical (Word.starting_atom "") level, level, List.append_nil] at rendered
  exact (List.append_cancel_left rendered).symm

end NodeDump
