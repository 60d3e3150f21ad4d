import NodeDump.Proofs.Scan.Spelling
import NodeDump.Proofs.Scan.Stream

/-!
Any words written one after the other with blanks between them. An atom that opens with a list of numbers is taken
in by an atom in front of it, blanks included, and this is the only way in which words come together. A text of
words is scanned into these words exactly if none of them is taken in.
-/

namespace NodeDump
open Lexeme

def Joins (before after : Word) : Prop :=
  before.1 = .atom ∧ after.1 = .atom ∧ after.2.toList.head? = some '['

instance (before after : Word) : Decidable (Joins before after) :=
  inferInstanceAs (Decidable (_ ∧ _ ∧ _))

theorem not_joins_iff {before after : Word} : ¬Joins before after ↔ Apart before after := by
  simp only [Joins, Apart, not_and, ne_eq]

/-- Words with a blank at least between two of them. -/
structure Spread (items : List (List Char × Word)) (last : List Char) : Prop where
  blank : ∀ item ∈ items, Run Char.isWhitespace item.1
  between : ∀ item ∈ items.tail, item.1 ≠ []
  lastBlank : Run Char.isWhitespace last
  lexical : ∀ item ∈ items, Lexical item.2

/-- The item in front of the others, with the word of the next one if that is taken in. -/
def absorb (item : List Char × Word) : List (List Char × Word) → List (List Char × Word)
  | [] => [item]
  | next :: later =>
    if Joins item.2 next.2 then
      (item.1, .atom, item.2.2 ++ String.ofList next.1 ++ next.2.2) :: later
    else item :: next :: later

def joined (items : List (List Char × Word)) : List (List Char × Word) := items.foldr absorb []

theorem spell_absorb (item : List Char × Word) (items : List (List Char × Word)) (last : List Char) :
    spell (absorb item items) last = spell (item :: items) last := by
  cases items with
  | nil => rfl
  | cons next later =>
    rw [absorb]
    split
    · simp [spell]
    · rfl

theorem spell_joined (items : List (List Char × Word)) (last : List Char) :
    spell (joined items) last = spell items last := by
  induction items with
  | nil => rfl
  | cons item items ih =>
    calc
      spell (joined (item :: items)) last = spell (item :: joined items) last := spell_absorb item _ last
      _ = spell (item :: items) last := by rw [spell, spell, ih]

theorem absorb_eq_cons (item : List Char × Word) (items : List (List Char × Word)) :
    ∃ (text : String) (later : List (List Char × Word)),
      absorb item items = (item.1, item.2.1, text) :: later ∧ item.2.2.toList <+: text.toList := by
  cases items with
  | nil => exact ⟨item.2.2, [], rfl, List.prefix_rfl⟩
  | cons next later =>
    rw [absorb]
    split
    · rename_i joins
      refine ⟨_, later, by rw [joins.1], ?_⟩
      rw [String.append_assoc, String.toList_append]
      exact List.prefix_append _ _
    · exact ⟨item.2.2, next :: later, rfl, List.prefix_rfl⟩

theorem exists_mem_absorb (item : List Char × Word) (items : List (List Char × Word)) :
    ∀ other ∈ items, ∃ whole ∈ absorb item items,
      whole.2.1 = other.2.1 ∧ other.2.2.toList <:+: whole.2.2.toList := by
  intro other member
  cases items with
  | nil => contradiction
  | cons next later =>
    rw [absorb]
    split
    · rename_i joins
      rcases List.mem_cons.1 member with rfl | behind
      · refine ⟨_, List.mem_cons_self, joins.2.1.symm, ?_⟩
        rw [String.toList_append]
        exact (List.suffix_append _ _).isInfix
      · exact ⟨other, List.mem_cons_of_mem _ behind, rfl, List.infix_rfl⟩
    · exact ⟨other, List.mem_cons_of_mem item member, rfl, List.infix_rfl⟩

theorem exists_mem_joined (front items : List (List Char × Word)) :
    ∀ other ∈ joined items, ∃ whole ∈ joined (front ++ items),
      whole.2.1 = other.2.1 ∧ other.2.2.toList <:+: whole.2.2.toList := by
  induction front with
  | nil => exact fun other member => ⟨other, member, rfl, List.infix_rfl⟩
  | cons item front ih =>
    intro other member
    obtain ⟨middle, among, kind, inside⟩ := ih other member
    obtain ⟨whole, last, same, outside⟩ := exists_mem_absorb item (joined (front ++ items)) middle among
    exact ⟨whole, last, same.trans kind, inside.trans outside⟩

/-- Two words of which the first takes in the second are in one word in the end. -/
theorem exists_joined_of_joins {first second : List Char × Word} (joins : Joins first.2 second.2)
    (front back : List (List Char × Word)) :
    ∃ whole ∈ joined (front ++ first :: second :: back), whole.2.1 = .atom ∧
      first.2.2.toList ++ second.1 ++ second.2.2.toList <:+: whole.2.2.toList := by
  obtain ⟨text, later, absorbed, longer⟩ := absorb_eq_cons second (joined back)
  obtain ⟨more, rfl⟩ : ∃ more, text = second.2.2 ++ String.ofList more := by
    obtain ⟨more, same⟩ := longer
    exact ⟨more, String.toList_injective (by simp [same])⟩
  have bracket : (second.2.2 ++ String.ofList more).toList.head? = some '[' := by
    rw [String.toList_append, List.head?_append, joins.2.2]
    rfl
  have taken : Joins first.2 (second.2.1, second.2.2 ++ String.ofList more) := ⟨joins.1, joins.2.1, bracket⟩
  have here : joined (first :: second :: back) =
      (first.1, .atom, first.2.2 ++ String.ofList second.1 ++ (second.2.2 ++ String.ofList more)) :: later := by
    show absorb first (absorb second (joined back)) = _
    rw [absorbed, absorb, if_pos taken]
  obtain ⟨whole, member, kind, inside⟩ := exists_mem_joined front (first :: second :: back) _
    (here ▸ List.mem_cons_self)
  refine ⟨whole, member, kind, List.IsInfix.trans ?_ inside⟩
  refine List.IsPrefix.isInfix ⟨more, ?_⟩
  simp

theorem joined_of_isChain {items : List (List Char × Word)} (apart : (items.map Prod.snd).IsChain Apart) :
    joined items = items := by
  induction items with
  | nil => rfl
  | cons item items ih =>
    show absorb item (joined items) = item :: items
    rw [ih apart.tail]
    cases items with
    | nil => rfl
    | cons next later =>
      rw [absorb, if_neg (not_joins_iff.2 (List.isChain_cons_cons.1 apart).1)]

theorem Language.atom_append {first second gap : List Char} (left : Language .atom first)
    (right : Language .atom second) (bracket : second.head? = some '[') (blank : Run Char.isWhitespace gap) :
    Language .atom (first ++ gap ++ second) := by
  obtain ⟨pieces, rfl, some_piece, all⟩ := left
  obtain ⟨list, later, rfl, isList, allLater⟩ := right.exists_list bracket
  obtain ⟨blanks, inside, rfl, blank', numbers⟩ := isList
  refine ⟨pieces ++ (gap ++ (blanks ++ '[' :: inside ++ [']'])) :: later, ?_, by simp, ?_⟩
  · simp
  · intro piece member
    rcases List.mem_append.1 member with before | here
    · exact all piece before
    · rcases List.mem_cons.1 here with rfl | behind
      · exact Or.inr ⟨gap ++ blanks, inside, by simp, blank.append blank', numbers⟩
      · exact allLater piece behind

theorem Lexical.join {first second : Word} {gap : List Char} (left : Lexical first) (right : Lexical second)
    (joins : Joins first second) (blank : Run Char.isWhitespace gap) :
    Lexical (.atom, first.2 ++ String.ofList gap ++ second.2) where
  language := by
    obtain ⟨one, two, bracket⟩ := joins
    have languages := And.intro left.language right.language
    rw [one, two] at languages
    simpa using Language.atom_append languages.1 languages.2 bracket blank
  solid := by
    obtain ⟨c, tail, same⟩ := List.exists_cons_of_ne_nil left.ne_nil
    have solid := left.solid
    rw [same, stops_cons] at solid
    simp [same, solid]

namespace Spread

variable {item : List Char × Word} {items : List (List Char × Word)} {last : List Char}

theorem tail (spread : Spread (item :: items) last) : Spread items last where
  blank other member := spread.blank other (List.mem_cons_of_mem item member)
  between other member := spread.between other (List.mem_of_mem_tail member)
  lastBlank := spread.lastBlank
  lexical other member := spread.lexical other (List.mem_cons_of_mem item member)

theorem spaced (spread : Spread items last) (apart : (items.map Prod.snd).IsChain Apart) :
    Spaced items last where
  blank := spread.blank
  lastBlank := spread.lastBlank
  lexical := spread.lexical
  separated := isChain_separated spread.between apart

theorem cons_absorb (spread : Spread (item :: items) last) (apart : (items.map Prod.snd).IsChain Apart) :
    Spread (absorb item items) last ∧ ((absorb item items).map Prod.snd).IsChain Apart := by
  cases items with
  | nil => exact ⟨spread, .singleton _⟩
  | cons next later =>
    rw [absorb]
    split
    · rename_i joins
      have first := spread.lexical item List.mem_cons_self
      have second := spread.tail.lexical next List.mem_cons_self
      have gap := spread.tail.blank next List.mem_cons_self
      refine ⟨⟨?_, spread.tail.between, spread.lastBlank, ?_⟩, ?_⟩
      · exact List.forall_mem_cons.2 ⟨spread.blank item List.mem_cons_self, spread.tail.tail.blank⟩
      · exact List.forall_mem_cons.2 ⟨first.join second joins gap, spread.tail.tail.lexical⟩
      · -- What the second word was apart from, the whole is apart from too.
        refine List.isChain_cons.2 ⟨fun other front atom => ?_, apart.tail⟩
        exact (List.isChain_cons.1 apart).1 other front joins.2.1
    · rename_i other
      exact ⟨spread, .cons_cons (not_joins_iff.1 other) apart⟩

theorem spread_joined (spread : Spread items last) :
    Spread (joined items) last ∧ ((joined items).map Prod.snd).IsChain Apart := by
  induction items with
  | nil => exact ⟨spread, .nil⟩
  | cons item items ih =>
    obtain ⟨rest, apart⟩ := ih spread.tail
    have front : Spread (item :: joined items) last := by
      refine ⟨?_, ?_, spread.lastBlank, ?_⟩
      · exact List.forall_mem_cons.2 ⟨spread.blank item List.mem_cons_self, rest.blank⟩
      · intro other member
        cases items with
        | nil => contradiction
        | cons next later =>
          obtain ⟨text, more, same, -⟩ := absorb_eq_cons next (joined later)
          have whole : joined (next :: later) = (next.1, next.2.1, text) :: more := same
          rw [List.tail_cons, whole] at member
          rcases List.mem_cons.1 member with rfl | behind
          · exact spread.between next List.mem_cons_self
          · rw [whole] at rest
            exact rest.between other behind
      · exact List.forall_mem_cons.2 ⟨spread.lexical item List.mem_cons_self, rest.lexical⟩
    exact front.cons_absorb apart

theorem tokenise (spread : Spread items last) {source : String} (text : source.toList = spell items last) :
    ∃ tokens, tokenise source = .ok tokens ∧ tokens.map Token.word = (joined items).map Prod.snd := by
  obtain ⟨rest, apart⟩ := spread.spread_joined
  have whole : (Reader.ofSource source {}).rest = spell (joined items) last := by
    rw [spell_joined]
    exact text
  obtain ⟨words, token, ended⟩ := Scan.words_of_spell (rest.spaced apart) whole
  exact ⟨_, Scan.tokenise_of_ending ended, words⟩

end Spread

/-- Words that are not taken in are scanned into themselves, whatever the blanks. Nothing else is ever
scanned, for a word that is taken in becomes a part of an atom with the blanks in front of it. -/
theorem tokenise_spell :
    (∀ items last source, Spread items last → (items.map Prod.snd).IsChain Apart →
      source.toList = spell items last →
      ∃ tokens, tokenise source = .ok tokens ∧ tokens.map Token.word = items.map Prod.snd) ∧
    (∀ source tokens, tokenise source = .ok tokens →
      (∀ token ∈ tokens, Lexical token.word) ∧ (tokens.map Token.word).IsChain Apart) ∧
    (∀ front first second back last source, Joins first.2 second.2 →
      Spread (front ++ first :: second :: back) last →
      source.toList = spell (front ++ first :: second :: back) last →
      ∃ tokens, tokenise source = .ok tokens ∧ ∃ token ∈ tokens, token.kind = .atom ∧
        first.2.2.toList ++ second.1 ++ second.2.2.toList <:+: token.text.toList) ∧
    ∀ gap between last first second source, Joins first second → Lexical first → Lexical second →
      Run Char.isWhitespace gap → Run Char.isWhitespace between → Run Char.isWhitespace last →
      source.toList = gap ++ first.2.toList ++ between ++ second.2.toList ++ last →
      ∃ token, tokenise source = .ok [token] ∧
        token.word = (.atom, first.2 ++ String.ofList between ++ second.2) := by
  refine ⟨?_, ?_, ?_, ?_⟩
  · intro items last source spread apart text
    obtain ⟨tokens, scanned, words⟩ := spread.tokenise text
    exact ⟨tokens, scanned, by rw [words, joined_of_isChain apart]⟩
  · intro source tokens scanned
    obtain ⟨rfl, -⟩ := Scan.ending_of_tokenise scanned
    exact ⟨Scan.lexical_of_mem, Scan.isChain_words _⟩
  · intro front first second back last source joins spread text
    obtain ⟨tokens, scanned, words⟩ := spread.tokenise text
    obtain ⟨whole, member, kind, inside⟩ := exists_joined_of_joins joins front back
    have among : whole.2 ∈ tokens.map Token.word := by
      rw [words]
      exact List.mem_map_of_mem member
    obtain ⟨token, here, same⟩ := List.mem_map.1 among
    rw [← same] at kind inside
    exact ⟨tokens, scanned, token, here, kind, inside⟩
  · intro gap between last first second source joins left right blank middle lastBlank text
    let word : Word := (.atom, first.2 ++ String.ofList between ++ second.2)
    have spread : Spread [(gap, word)] last :=
      ⟨by simpa using blank, by simp, lastBlank, by simpa using left.join right joins middle⟩
    have whole : source.toList = spell [(gap, word)] last := by simp [text, spell, word]
    obtain ⟨tokens, scanned, words⟩ := spread.tokenise whole
    obtain ⟨token, rfl, same⟩ := List.map_eq_singleton_iff.1 words
    exact ⟨token, scanned, same⟩

end NodeDump
