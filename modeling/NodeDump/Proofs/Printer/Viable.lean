import NodeDump.Proofs.Printer.Spine

/-!
Beginnings of dumps. A word is in place exactly if a dump can go on with it, and behind a whole dump nothing but the
end of the input can stand.
-/

namespace NodeDump

def Dump.Lexical (dump : Dump) : Prop := ∀ word ∈ dump.words, NodeDump.Lexical word

/-- The words are the beginning of a dump, which may have the end of the input behind it. -/
def Viable (words : List Word) : Prop :=
  ∃ dump : Dump, dump.Lexical ∧ words <+: dump.words ++ [(.endOfInput, "")]

def Complete (words : List Word) : Prop := ∃ dump : Dump, dump.Lexical ∧ dump.words = words

/-- The words end directly inside a node and not with a key, so that a key or the end of the node comes
next. -/
def InsideNode (words : List Word) : Prop :=
  ∃ (before : List Word) (opening : String) (attributes : Attributes),
    words = before ++ (.nodeStart, opening) :: attributes.words ∧
      ∀ last, words.getLast? = some last → last.1 ≠ .key

theorem Viable.of_prefix {front words : List Word} (viable : Viable words) (le : front <+: words) :
    Viable front := by
  obtain ⟨dump, lexical, starts⟩ := viable
  exact ⟨dump, lexical, le.trans starts⟩

theorem Complete.viable {words : List Word} (complete : Complete words) : Viable words := by
  obtain ⟨dump, lexical, rfl⟩ := complete
  exact ⟨dump, lexical, List.prefix_append _ _⟩

theorem Complete.not_viable {words : List Word} (complete : Complete words) {word : Word}
    (more : word.1 ≠ .endOfInput) : ¬Viable (words ++ [word]) := by
  obtain ⟨dump, -, rfl⟩ := complete
  rintro ⟨other, -, starts⟩
  rcases List.prefix_concat_iff.1 starts with same | ⟨rest, same⟩
  · have last := (List.append_inj' same rfl).2
    simp only [List.cons.injEq, and_true] at last
    simp [last] at more
  · have equal : dump.words ++ (word :: rest) = other.words ++ [] := by simpa using same
    have none := (Dump.words_append_inj dump other equal).2
    contradiction

theorem walk?_complete {words : List Word} (complete : Complete words) : walk? [] words = some [] := by
  obtain ⟨dump, -, rfl⟩ := complete
  exact dump.walk

theorem awaitsKey_of_insideNode {words : List Word} {frames : List Frame}
    (walked : walk? [] words = some frames) (inside : InsideNode words) : AwaitsKey frames := by
  obtain ⟨before, opening, attributes, rfl, noKey⟩ := inside
  rw [walk?_append] at walked
  obtain ⟨outer, -, walked⟩ := Option.bind_eq_some_iff.1 walked
  rw [walk?_cons] at walked
  obtain ⟨entered, place, walked⟩ := Option.bind_eq_some_iff.1 walked
  obtain ⟨middle, -, begun⟩ := receive?_of_follow (Or.inl (Or.inl rfl)) place
  obtain rfl : .node .start :: middle = entered := by simpa [begin?] using begun
  rw [walk?_attributes] at walked
  obtain rfl : .node (attributes.ending .start) :: middle = frames := by simpa using walked
  intro key
  have last := (attributes.ending_eq_key_iff (.nodeStart, opening) .start (by simp)).1 key
  have some_word : (.nodeStart, opening) :: attributes.words ≠ [] := by simp
  have final := List.getLast?_eq_some_getLast some_word
  refine noKey _ ?_ (last _ final)
  rw [List.getLast?_append, final]
  rfl

theorem Complete.not_insideNode {words : List Word} (complete : Complete words) : ¬InsideNode words :=
  fun inside => awaitsKey_of_insideNode (walk?_complete complete) inside

namespace Spine

variable {limit : Option Nat} {frames inner : List Frame} {words : List Word} {word : Word}

theorem viable (spine : Spine limit frames words) (lexical : ∀ word ∈ words, Lexical word) :
    Viable words := by
  obtain ⟨dump, more, same, closing⟩ := spine.completes
  refine ⟨dump, ?_, more ++ [(.endOfInput, "")], by simp [same]⟩
  intro word member
  rw [same] at member
  rcases List.mem_append.1 member with before | after
  · exact lexical word before
  · exact closing word after

theorem viable_of_follow (spine : Spine limit frames words) (lexical : ∀ other ∈ words ++ [word], Lexical other)
    (place : follow? frames word = some inner) : Viable (words ++ [word]) := by
  rcases spine.unlimited.grow (lexical word (by simp)) place fun _ => within_none _ with
    ⟨-, deeper⟩ | ⟨-, dump, same, -⟩
  · exact deeper.viable lexical
  · exact Complete.viable ⟨dump, by rwa [Dump.Lexical, same], same⟩

theorem of_prefix {dump : Dump} (lexical : dump.Lexical) {later : List Word}
    (same : dump.words = words ++ word :: later) : ∃ frames, Spine none frames words := by
  induction words using List.reverseRecOn generalizing word later with
  | nil => exact ⟨[], .start⟩
  | append_singleton front last ih =>
    have earlier : dump.words = front ++ last :: (word :: later) := by simpa using same
    obtain ⟨frames, spine⟩ := ih earlier
    have walked := dump.walk
    rw [earlier, walk?_append, spine.walk, Option.bind_some, walk?_cons] at walked
    obtain ⟨middle, place, -⟩ := Option.bind_eq_some_iff.1 walked
    rcases spine.grow (lexical last (by simp [earlier])) place (fun _ => within_none _) with
      ⟨-, deeper⟩ | ⟨-, other, whole, -⟩
    · exact ⟨middle, deeper⟩
    · have longer : other.words ++ word :: later = dump.words ++ [] := by rw [whole, same, List.append_nil]
      have none := (Dump.words_append_inj other dump longer).2
      contradiction

theorem not_complete (spine : Spine limit frames words) : ¬Complete words := by
  intro complete
  have bare := walk?_complete complete
  rw [spine.walk, Option.some.injEq] at bare
  subst bare
  obtain ⟨dump, -, same⟩ := complete
  exact dump.words_ne_nil (same.trans spine.eq_nil)

theorem not_viable (spine : Spine limit frames words) (place : follow? frames word = none) :
    ¬Viable (words ++ [word]) := by
  rintro ⟨dump, lexical, starts⟩
  rcases List.prefix_concat_iff.1 starts with same | ⟨rest, same⟩
  · exact spine.not_complete ⟨dump, lexical, ((List.append_inj' same rfl).1).symm⟩
  · have walked := dump.walk
    rw [← same, List.append_assoc, walk?_append, spine.walk, Option.bind_some, List.singleton_append,
      walk?_cons, place] at walked
    contradiction

theorem insideNode (spine : Spine limit frames words) (awaits : AwaitsKey frames) : InsideNode words := by
  cases spine with
  | start => exact awaits.elim
  | array => exact awaits.elim
  | @node outer frames before spine received opening attributes =>
    refine ⟨before, opening, attributes, rfl, fun last final key => awaits ?_⟩
    refine (attributes.ending_eq_key_iff (.nodeStart, opening) .start (by simp)).2 fun other found => ?_
    rw [List.getLast?_append, found] at final
    obtain rfl : other = last := by simpa using final
    exact key

end Spine

end NodeDump
