import NodeDump.Proofs.Printer.Arrangement
import NodeDump.Proofs.Printer.Balance

/-!
The rendering of a dump against the arrangement of its words. Behind any words, those of a dump are arranged as the
dump is rendered from its tree at the depth of these words.
-/

namespace NodeDump

theorem openWords_append (first second : List Word) :
    openWords (first ++ second) = second.foldl Word.enclose (openWords first) :=
  List.foldl_append

mutual

theorem Dump.foldl_enclose (dump : Dump) (openings : List Word) :
    dump.words.foldl Word.enclose openings = openings := by
  match dump with
  | .string _ | .atom _ => rfl
  | .array tag elements =>
    rw [Dump.words, List.cons_append, List.foldl_cons, List.foldl_append, Elements.foldl_enclose elements]
    rfl
  | .node opening attributes =>
    rw [Dump.words, List.cons_append, List.foldl_cons, List.foldl_append, Attributes.foldl_enclose attributes]
    rfl

theorem Elements.foldl_enclose (elements : Elements) (openings : List Word) :
    elements.words.foldl Word.enclose openings = openings := by
  match elements with
  | .nil => rfl
  | .cons first later =>
    rw [Elements.words, List.foldl_append, Dump.foldl_enclose first, Elements.foldl_enclose later]

theorem Attributes.foldl_enclose (attributes : Attributes) (openings : List Word) :
    attributes.words.foldl Word.enclose openings = openings := by
  match attributes with
  | .nil => rfl
  | .bare key later =>
    rw [Attributes.words, List.foldl_cons, Attributes.foldl_enclose later]
    rfl
  | .valued key value later =>
    rw [Attributes.words, List.cons_append, List.foldl_cons, List.foldl_append, Dump.foldl_enclose value,
      Attributes.foldl_enclose later]
    rfl

end

/-- The words leave open what was open in front of them. -/
structure Closes (words : List Word) : Prop where
  openings : ∀ before, openWords (before ++ words) = openWords before
  levels : ∀ before, openLevels (before ++ words) = openLevels before

theorem Closes.of_foldl {words : List Word} (closed : ∀ openings, words.foldl Word.enclose openings = openings)
    {frames inner : List Frame} (walked : walk? frames words = some inner)
    (same : inner.length = frames.length) : Closes words where
  openings before := by rw [openWords_append, closed]
  levels before := by
    have levels := levels_of_walk walked
    rw [openLevels_append]
    omega

theorem Closes.setting?_eq {words : List Word} (closes : Closes words) (before : List Word) :
    setting? (before ++ words) = setting? before := by
  rw [setting?, setting?, closes.openings]

theorem Dump.closes (dump : Dump) : Closes dump.words := .of_foldl dump.foldl_enclose dump.walk rfl

theorem Elements.closes (elements : Elements) : Closes elements.words :=
  .of_foldl elements.foldl_enclose (walk?_elements elements false false []) rfl

theorem Attributes.closes (attributes : Attributes) : Closes attributes.words :=
  .of_foldl attributes.foldl_enclose (walk?_attributes attributes .start []) rfl

theorem closes_key (key : String) : Closes [(.key, key)] := by
  have walked : walk? [.node .start] [(.key, key)] = some [.node .key] := rfl
  exact .of_foldl (fun _ => rfl) walked rfl

theorem Dump.trail_append (dump : Dump) (before : List Word) : trail (before ++ dump.words) = "" := by
  obtain ⟨front, last, words, noKey, -⟩ := dump.words_last
  rw [words, ← List.append_assoc, trail_concat, if_neg noKey]

theorem Dump.not_justOpened_append (dump : Dump) (before : List Word) : ¬JustOpened (before ++ dump.words) := by
  obtain ⟨front, last, words, -, other⟩ := dump.words_last
  rwa [words, ← List.append_assoc, justOpened_concat]

theorem Elements.trail_append (elements : Elements) {before : List Word} (noKey : trail before = "") :
    trail (before ++ elements.words) = "" := by
  match elements with
  | .nil => simpa [Elements.words] using noKey
  | .cons first later =>
    rw [Elements.words, ← List.append_assoc]
    exact Elements.trail_append later (first.trail_append before)

theorem Elements.justOpened_append (elements : Elements) (before : List Word) :
    JustOpened (before ++ elements.words) ↔ elements.words = [] ∧ JustOpened before := by
  match elements with
  | .nil => simp [Elements.words]
  | .cons first later =>
    rw [Elements.words, ← List.append_assoc, Elements.justOpened_append later]
    simp [first.not_justOpened_append, first.words_ne_nil]

theorem Attributes.justOpened_append (attributes : Attributes) (before : List Word) :
    JustOpened (before ++ attributes.words) ↔ attributes.words = [] ∧ JustOpened before := by
  match attributes with
  | .nil => simp [Attributes.words]
  | .bare key later =>
    rw [Attributes.words, List.append_cons, Attributes.justOpened_append later, justOpened_concat]
    simp [Word.Opening]
  | .valued key value later =>
    have ended := value.not_justOpened_append (before ++ [(.key, key)])
    rw [List.append_assoc, List.singleton_append] at ended
    rw [Attributes.words, ← List.append_assoc, Attributes.justOpened_append later]
    simp [ended]

theorem setting?_opening {word : Word} (opening : word.Opening) (before : List Word) :
    setting? (before ++ [word]) = some word.setting := by
  rw [setting?, openWords_concat, Word.enclose_of_opening opening]
  rfl

theorem openLevels_opening {word : Word} (opening : word.Opening) (before : List Word) :
    openLevels (before ++ [word]) = openLevels before + 1 := by
  rw [openLevels_concat, Word.rise_of_opening opening]

theorem ne_nil_of_setting? {before : List Word} {setting : Setting} (inside : setting? before = some setting) :
    before ≠ [] := by
  rintro rfl
  contradiction

theorem spell_arrange_cons (width : Int) (before : List Word) (word : Word) (later : List Word)
    (last : List Char) :
    spell (arrange width before (word :: later)) last =
      (lead width before word).toList ++ (word.2.toList ++ spell (arrange width (before ++ [word]) later) last) :=
  rfl

theorem spell_arrange_append (width : Int) (before first second : List Word) (last : List Char) :
    spell (arrange width before (first ++ second)) last =
      spell (arrange width before first) (spell (arrange width (before ++ first) second) last) := by
  rw [arrange_append, spell_append]

theorem lead_of_starting {first second : Word} (starting : first.Starting) (other : second.Starting)
    (width : Int) (before : List Word) : lead width before first = lead width before second := by
  cases before with
  | nil => rfl
  | cons word later =>
    rw [lead_of_ne_nil (by simp), lead_of_ne_nil (by simp), separator_of_starting starting,
      separator_of_starting other]

/-- What is inside a construct is arranged behind its opening word, and its end is broken off just where the
construct is neither empty nor in a row. -/
theorem spell_arrange_construct {opening closing : Word} {inside : List Word} {broken : Prop} [Decidable broken]
    (opens : opening.Opening) (ends : closing.Closing) (closes : Closes inside) (width : Int) {before : List Word}
    (breaks : broken ↔ opening.setting ≠ .row ∧ ¬JustOpened (before ++ [opening] ++ inside)) (last : List Char) :
    spell (arrange width before (opening :: inside ++ [closing])) last =
      (lead width before opening).toList ++ (opening.2.toList ++
        spell (arrange width (before ++ [opening]) inside)
          ((trail (before ++ [opening] ++ inside)).toList ++
            ((if broken then Page.newLine width (openLevels before) else "").toList ++
              (closing.2.toList ++ last)))) := by
  have setting : setting? (before ++ [opening] ++ inside) = some opening.setting := by
    rw [closes.setting?_eq, setting?_opening opens]
  have levels : openLevels (before ++ [opening] ++ inside) - 1 = openLevels before := by
    rw [closes.levels, openLevels_opening opens, Int.add_sub_cancel]
  have onLines : (setting? (before ++ [opening] ++ inside) = some .attributes ∨
      setting? (before ++ [opening] ++ inside) = some .lines) ↔ opening.setting ≠ .row := by
    rw [setting]
    cases opening.setting <;> simp
  rw [List.cons_append, spell_arrange_cons, spell_arrange_append, spell_arrange_cons,
    lead_of_ne_nil (ne_nil_of_setting? setting), separator_of_closing ends, levels]
  simp only [onLines, breaks]
  rw [String.toList_append, List.append_assoc]
  rfl

mutual

/-- A dump is rendered as its words are arranged, behind whatever stands in front of a value there. -/
theorem Dump.spell_arrange (dump : Dump) (width : Int) {word : Word} (starting : word.Starting)
    (before : List Word) (last : List Char) :
    spell (arrange width before dump.words) last =
      (lead width before word).toList ++
        ((dump.render (Page.newLine width) (openLevels before)).toList ++ last) := by
  match dump with
  | .string text =>
    rw [Dump.words, spell_arrange_cons, lead_of_starting (Or.inr (Or.inl rfl)) starting]
    rfl
  | .atom text =>
    rw [Dump.words, spell_arrange_cons, lead_of_starting (Word.starting_atom text) starting]
    rfl
  | .array tag elements =>
    have opening : Word.Opening (.arrayStart, "(" ++ tag) := Or.inr rfl
    have kind : Word.setting (.arrayStart, "(" ++ tag) = if tag = "" then .lines else .row := by
      simp [Word.setting, Word.tag]
    have setting : setting? (before ++ [(.arrayStart, "(" ++ tag)]) = some (if tag = "" then .lines else .row) := by
      rw [setting?_opening opening, kind]
    have noKey : trail (before ++ [(.arrayStart, "(" ++ tag)]) = "" := by simp [trail_concat]
    have ended : trail (before ++ [(.arrayStart, "(" ++ tag)] ++ elements.words) = "" :=
      elements.trail_append noKey
    have broken : tag = "" ∧ elements.words ≠ [] ↔ Word.setting (.arrayStart, "(" ++ tag) ≠ .row ∧
        ¬JustOpened (before ++ [(.arrayStart, "(" ++ tag)] ++ elements.words) := by
      rw [elements.justOpened_append, justOpened_concat, kind]
      by_cases bare : tag = "" <;> simp [bare, Word.Opening]
    rw [Dump.words, spell_arrange_construct opening (Or.inr rfl) elements.closes width broken,
      lead_of_starting (Or.inl opening) starting, ended,
      Elements.spell_arrange elements width noKey setting, openLevels_opening opening]
    cases elements with
    | nil => simp [Elements.words, Elements.renderLines, Elements.renderRow, Dump.render]
    | cons first later => by_cases bare : tag = "" <;> simp [bare, Elements.words, first.words_ne_nil, Dump.render]
  | .node opening attributes =>
    have opens : Word.Opening (.nodeStart, opening) := Or.inl rfl
    have noKey : trail (before ++ [(.nodeStart, opening)]) = "" := by simp [trail_concat]
    have broken : attributes.words ≠ [] ↔ Word.setting (.nodeStart, opening) ≠ .row ∧
        ¬JustOpened (before ++ [(.nodeStart, opening)] ++ attributes.words) := by
      rw [attributes.justOpened_append, justOpened_concat]
      simp [Word.setting, Word.Opening]
    rw [Dump.words, spell_arrange_construct opens (Or.inl rfl) attributes.closes width broken,
      lead_of_starting (Or.inl opens) starting,
      Attributes.spell_arrange attributes width (setting?_opening opens before),
      openLevels_opening opens, noKey]
    cases attributes <;> simp [Attributes.words, Attributes.render, Dump.render]

theorem Elements.spell_arrange (elements : Elements) (width : Int) {before : List Word} {bare : Prop}
    [Decidable bare] (noKey : trail before = "")
    (inside : setting? before = some (if bare then .lines else .row)) (last : List Char) :
    spell (arrange width before elements.words) last =
      (if bare then elements.renderLines (Page.newLine width) (openLevels before)
        else elements.renderRow (Page.newLine width) (openLevels before)).toList ++ last := by
  match elements with
  | .nil => simp [Elements.words, Elements.renderLines, Elements.renderRow, arrange, spell]
  | .cons first later =>
    have same : setting? (before ++ first.words) = some (if bare then .lines else .row) := by
      rw [first.closes.setting?_eq, inside]
    rw [Elements.words, spell_arrange_append, Dump.spell_arrange first width (Word.starting_atom ""),
      Elements.spell_arrange later width (first.trail_append before) same, first.closes.levels,
      lead_of_ne_nil (ne_nil_of_setting? inside), noKey,
      separator_of_starting (Word.starting_atom ""), inside]
    by_cases lines : bare <;> simp [lines, Elements.renderLines, Elements.renderRow]

theorem Attributes.spell_arrange (attributes : Attributes) (width : Int) {before : List Word}
    (inside : setting? before = some .attributes) (last : List Char) :
    spell (arrange width before attributes.words) ((trail (before ++ attributes.words)).toList ++ last) =
      (trail before).toList ++ ((attributes.render (Page.newLine width) (openLevels before)).toList ++ last) := by
  match attributes with
  | .nil => simp [Attributes.words, Attributes.render, arrange, spell]
  | .bare key later =>
    have keyed : setting? (before ++ [(.key, key)]) = some .attributes := by
      rw [(closes_key key).setting?_eq, inside]
    rw [Attributes.words, List.append_cons, spell_arrange_cons, Attributes.spell_arrange later width keyed,
      (closes_key key).levels, lead_of_ne_nil (ne_nil_of_setting? inside), separator_of_key rfl, trail_concat]
    simp [Attributes.render]
  | .valued key value later =>
    have keyed : setting? (before ++ [(.key, key)]) = some .attributes := by
      rw [(closes_key key).setting?_eq, inside]
    have same : setting? ((before ++ [(.key, key)]) ++ value.words) = some .attributes := by
      rw [value.closes.setting?_eq, keyed]
    have ended := value.trail_append (before ++ [(.key, key)])
    have parts : before ++ (.key, key) :: (value.words ++ later.words) =
        before ++ [(.key, key)] ++ value.words ++ later.words := by simp
    rw [Attributes.words, List.cons_append, spell_arrange_cons, spell_arrange_append, parts,
      Attributes.spell_arrange later width same, Dump.spell_arrange value width (Word.starting_atom ""),
      value.closes.levels, (closes_key key).levels,
      lead_of_ne_nil (ne_nil_of_setting? inside), lead_of_ne_nil (ne_nil_of_setting? keyed),
      separator_of_key rfl, separator_of_starting (Word.starting_atom ""), keyed, trail_concat, ended]
    simp [Attributes.render]

end

end NodeDump
