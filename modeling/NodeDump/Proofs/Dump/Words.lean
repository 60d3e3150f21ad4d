import NodeDump.Dump
import NodeDump.Proofs.Word

/-!
The words of a dump determine it. Where the words of one dump start a text of words, no other dump does, so a dump
can be read in one way only and its words go on to the words of no other.
-/

namespace NodeDump

theorem Dump.words_head (dump : Dump) :
    ∃ (word : Word) (later : List Word), dump.words = word :: later ∧ word.Starting := by
  cases dump with
  | string text => exact ⟨_, _, rfl, Or.inr (Or.inl rfl)⟩
  | atom text => exact ⟨_, _, rfl, Or.inr (Or.inr rfl)⟩
  | array tag elements => exact ⟨_, _, rfl, Or.inl (Or.inr rfl)⟩
  | node opening attributes => exact ⟨_, _, rfl, Or.inl (Or.inl rfl)⟩

theorem Dump.words_ne_nil (dump : Dump) : dump.words ≠ [] := by
  obtain ⟨word, later, same, -⟩ := dump.words_head
  simp [same]

theorem Dump.words_of_last_atom {dump : Dump} {word : Word} (last : dump.words.getLast? = some word)
    (atom : word.1 = .atom) : dump.words = [word] := by
  cases dump with
  | string text | atom text => simpa [Dump.words] using last
  | array tag elements | node opening attributes =>
    rw [Dump.words, List.getLast?_concat, Option.some.injEq] at last
    rw [← last] at atom
    contradiction

theorem Dump.words_of_first_atom {dump : Dump} {word : Word} (first : dump.words.head? = some word)
    (atom : word.1 = .atom) : dump.words = [word] := by
  cases dump with
  | string text | atom text => simpa [Dump.words] using first
  | array tag elements | node opening attributes =>
    simp only [Dump.words, List.cons_append, List.head?_cons, Option.some.injEq] at first
    rw [← first] at atom
    contradiction

/-- The words of a dump never stand where a text of words starts with something else. -/
theorem Dump.words_append_ne {dump : Dump} {word : Word} (other : ¬word.Starting) {rest later : List Word} :
    dump.words ++ rest ≠ word :: later := by
  obtain ⟨first, behind, same, starting⟩ := dump.words_head
  intro equal
  rw [same, List.cons_append] at equal
  exact other ((List.cons.inj equal).1 ▸ starting)

theorem Attributes.words_ne (attributes : Attributes) {text : String} {dump : Dump} {rest behind : List Word} :
    dump.words ++ behind ≠ attributes.words ++ ((.nodeEnd, text) :: rest) := by
  cases attributes with
  | nil => exact Dump.words_append_ne (Word.Closing.not_starting (Or.inl rfl))
  | bare key later => exact Dump.words_append_ne (Word.not_starting_of_key rfl)
  | valued key value later => exact Dump.words_append_ne (Word.not_starting_of_key rfl)

mutual

/-- A dump ends where its words say, whatever follows. -/
theorem Dump.words_append_inj (dump other : Dump) {rest behind : List Word}
    (same : dump.words ++ rest = other.words ++ behind) : dump = other ∧ rest = behind := by
  match dump, other with
  | .string text, .string text' | .atom text, .atom text' =>
    simp only [Dump.words, List.cons_append, List.nil_append, List.cons.injEq, Prod.mk.injEq, true_and] at same
    exact ⟨by rw [same.1], same.2⟩
  | .array tag elements, .array tag' elements' =>
    simp only [Dump.words, List.cons_append, List.append_assoc, List.cons.injEq, Prod.mk.injEq,
      true_and] at same
    have tags : tag = tag' := (String.append_right_inj _).1 same.1
    obtain ⟨inside, after⟩ := Elements.words_append_inj elements elements' same.2
    exact ⟨by rw [tags, inside], after⟩
  | .node opening attributes, .node opening' attributes' =>
    simp only [Dump.words, List.cons_append, List.append_assoc, List.cons.injEq, Prod.mk.injEq,
      true_and] at same
    obtain ⟨inside, after⟩ := Attributes.words_append_inj attributes attributes' same.2
    exact ⟨by rw [same.1, inside], after⟩
  -- Any other two trees differ in the kind of their first word.
  | .string _, .atom _ | .string _, .array .. | .string _, .node .. | .atom _, .string _
  | .atom _, .array .. | .atom _, .node .. | .array .., .string _ | .array .., .atom _
  | .array .., .node .. | .node .., .string _ | .node .., .atom _ | .node .., .array .. =>
    simp [Dump.words] at same

theorem Elements.words_append_inj (elements others : Elements) {rest behind : List Word}
    (same : elements.words ++ ((.arrayEnd, ")") :: rest) = others.words ++ ((.arrayEnd, ")") :: behind)) :
    elements = others ∧ rest = behind := by
  match elements, others with
  | .nil, .nil => exact ⟨rfl, (List.cons.inj same).2⟩
  | .nil, .cons first later =>
    rw [Elements.words, Elements.words, List.append_assoc] at same
    exact absurd same.symm (Dump.words_append_ne (Word.Closing.not_starting (Or.inr rfl)))
  | .cons first later, .nil =>
    rw [Elements.words, Elements.words, List.append_assoc] at same
    exact absurd same (Dump.words_append_ne (Word.Closing.not_starting (Or.inr rfl)))
  | .cons first later, .cons first' later' =>
    rw [Elements.words, Elements.words, List.append_assoc, List.append_assoc] at same
    obtain ⟨heads, tails⟩ := Dump.words_append_inj first first' same
    obtain ⟨inside, after⟩ := Elements.words_append_inj later later' tails
    exact ⟨by rw [heads, inside], after⟩

theorem Attributes.words_append_inj (attributes others : Attributes) {rest behind : List Word}
    (same : attributes.words ++ ((.nodeEnd, "\x7d") :: rest) =
      others.words ++ ((.nodeEnd, "\x7d") :: behind)) :
    attributes = others ∧ rest = behind := by
  match attributes, others with
  | .nil, .nil => exact ⟨rfl, (List.cons.inj same).2⟩
  | .nil, .bare key later | .nil, .valued key value later => simp [Attributes.words] at same
  | .bare key later, .nil | .valued key value later, .nil => simp [Attributes.words] at same
  | .bare key later, .bare key' later' =>
    simp only [Attributes.words, List.cons_append, List.cons.injEq, Prod.mk.injEq, true_and] at same
    obtain ⟨inside, after⟩ := Attributes.words_append_inj later later' same.2
    exact ⟨by rw [same.1, inside], after⟩
  | .bare key later, .valued key' value later' =>
    simp only [Attributes.words, List.cons_append, List.append_assoc, List.cons.injEq] at same
    exact absurd same.2.symm (Attributes.words_ne later)
  | .valued key value later, .bare key' later' =>
    simp only [Attributes.words, List.cons_append, List.append_assoc, List.cons.injEq] at same
    exact absurd same.2 (Attributes.words_ne later')
  | .valued key value later, .valued key' value' later' =>
    simp only [Attributes.words, List.cons_append, List.append_assoc, List.cons.injEq, Prod.mk.injEq,
      true_and] at same
    obtain ⟨values, tails⟩ := Dump.words_append_inj value value' same.2
    obtain ⟨inside, after⟩ := Attributes.words_append_inj later later' tails
    exact ⟨by rw [same.1, values, inside], after⟩

end

end NodeDump
