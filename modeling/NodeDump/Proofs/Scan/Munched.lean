import NodeDump.Proofs.Scan.Division

/-!
Words that are munched one after the other, and what may stand behind a word. Nothing that comes to stand behind the
last word changes where the others end, so it is enough that it does not go on with the last.
-/

namespace NodeDump
open Lexeme

/-- Behind a word only the first character counts, and for an atom the list of numbers it could go on with. -/
theorem ends_of_front {word : Word} {c : Char} {rest rest' : List Char}
    (noList : word.1 = .atom → NumberList.split? (c :: rest') = none)
    (ends : Ends word.1 word.2.toList (c :: rest)) : Ends word.1 word.2.toList (c :: rest') := by
  obtain ⟨kind, text⟩ := word
  cases kind with
  | nodeStart | key => exact stops_cons.2 (stops_cons.1 ends)
  | arrayStart => exact fun bare => stops_cons.2 (stops_cons.1 (ends bare))
  | atom =>
    have stops := (Atom.part?_eq_none_iff.1 ends).1
    exact Atom.part?_eq_none_iff.2 ⟨stops_cons.2 (stops_cons.1 stops), noList rfl⟩
  | nodeEnd | arrayEnd | string | endOfInput => trivial

theorem ends_of_gap {word : Word} {c : Char} {gap gap' rest rest' : List Char} (blank : Run Char.isWhitespace gap')
    (open_still : gap' = [] → gap = []) (noList : word.1 = .atom → NumberList.split? (c :: rest') = none)
    (ends : Ends word.1 word.2.toList (gap ++ c :: rest)) : Ends word.1 word.2.toList (gap' ++ c :: rest') := by
  cases gap' with
  | nil =>
    rw [open_still rfl] at ends
    exact ends_of_front noList ends
  | cons d gap' =>
    refine ends_of_fenced ?_ fun atom => ?_
    · intro other front
      obtain rfl : d = other := by simpa using front
      exact Or.inl (blank d List.mem_cons_self)
    · rw [NumberList.split?_blanks_eq_none blank]
      exact noList atom

theorem ends_of_blank (word : Word) {rest : List Char} (blank : Run Char.isWhitespace rest) :
    Ends word.1 word.2.toList rest :=
  ends_of_fenced (Fenced.of_run blank) fun _ => split?_blank blank

theorem lexical_of_munched {last : List Char} {items : List (List Char × Word)} (munched : Munched last items) :
    ∀ item ∈ items, Lexical item.2 := by
  induction items with
  | nil => simp
  | cons item items ih =>
    obtain ⟨-, consumes, behind⟩ := munched
    exact List.forall_mem_cons.2 ⟨⟨consumes.language, consumes.solid⟩, ih behind⟩

theorem blank_of_munched {items : List (List Char × Word)} {last : List Char} (munched : Munched last items) :
    ∀ item ∈ items, Run Char.isWhitespace item.1 := by
  induction items with
  | nil => simp
  | cons item items ih =>
    obtain ⟨blank, -, behind⟩ := munched
    exact List.forall_mem_cons.2 ⟨blank, ih behind⟩

theorem ends_of_munched {items : List (List Char × Word)} {last : List Char} (munched : Munched last items) :
    ∀ item, items.getLast? = some item → Ends item.2.1 item.2.2.toList last := by
  induction items with
  | nil => simp
  | cons item items ih =>
    intro other final
    obtain ⟨-, consumes, behind⟩ := munched
    cases items with
    | nil =>
      obtain rfl : item = other := by simpa using final
      exact (first?_sound (consumes_iff.1 consumes)).2
    | cons next later =>
      rw [List.getLast?_cons_cons] at final
      exact ih behind other final

theorem munched_of_isChain {items : List (List Char × Word)} {last : List Char}
    (blank : ∀ item ∈ items, Run Char.isWhitespace item.1) (lexical : ∀ item ∈ items, Lexical item.2)
    (separated : items.IsChain Separated)
    (ends : ∀ item, items.getLast? = some item → Ends item.2.1 item.2.2.toList last) : Munched last items := by
  induction items with
  | nil => trivial
  | cons item items ih =>
    have word := lexical item List.mem_cons_self
    have inner : ∀ other ∈ items, Lexical other.2 := fun other member =>
      lexical other (List.mem_cons_of_mem item member)
    have gaps : ∀ other ∈ items, Run Char.isWhitespace other.1 := fun other member =>
      blank other (List.mem_cons_of_mem item member)
    refine ⟨blank item List.mem_cons_self, consumes_iff.2 (first?_complete word.language word.solid ?_), ?_⟩
    · cases items with
      | nil => exact ends item rfl
      | cons next later =>
        exact (List.isChain_cons_cons.1 separated).1.ends (gaps next List.mem_cons_self)
          (inner next List.mem_cons_self) _
    · apply ih gaps inner separated.tail
      intro other final
      apply ends other
      rw [List.getLast?_cons, final]
      rfl

/-- Words that are apart stay munched in front of any text that does not go on with the last of them. -/
theorem Munched.change_last {last last' : List Char} {items : List (List Char × Word)} (munched : Munched last items)
    (apart : (items.map Prod.snd).IsChain Apart)
    (ends : ∀ item, items.getLast? = some item → Ends item.2.1 item.2.2.toList last') : Munched last' items := by
  induction items with
  | nil => trivial
  | cons item items ih =>
    obtain ⟨front, consumes, behind⟩ := munched
    refine ⟨front, consumes_iff.2 (first?_complete consumes.language consumes.solid ?_), ?_⟩
    · cases items with
      | nil => exact ends item rfl
      | cons next later =>
        have lexical := lexical_of_munched behind next List.mem_cons_self
        have here := (first?_sound (consumes_iff.1 consumes)).2
        have noList := fun atom rest =>
          split?_of_apart (List.isChain_cons_cons.1 apart).1 atom lexical rest
        obtain ⟨c, tail, text⟩ := List.exists_cons_of_ne_nil lexical.ne_nil
        simp only [spell, text, List.cons_append] at here noList ⊢
        exact ends_of_gap behind.1 id (fun atom => noList atom _) here
    · apply ih behind apart.tail
      intro other final
      apply ends other
      rw [List.getLast?_cons, final]
      rfl

end NodeDump
