import NodeDump.Proofs.Format.Arranged
import NodeDump.Proofs.Format.Kept

/-!
Layouts that are broken off. What has been laid out depends on nothing but the tokens it shows, so two sources that
begin with the same tokens are laid out alike as far as both show them.
-/

namespace NodeDump
open Lexeme

/-- What is put in front of a word depends on the words in front of it alone. -/
theorem take_arrange (width : Int) (before words : List Word) (count : Nat) :
    (arrange width before words).take count = arrange width before (words.take count) := by
  induction words generalizing before count with
  | nil => simp [arrange]
  | cons word words ih =>
    cases count with
    | zero => rfl
    | succ count => rw [arrange, List.take_succ_cons, List.take_succ_cons, arrange, ih]

theorem spell_take_prefix (items : List (List Char × Word)) (last : List Char) (count : Nat) :
    spell (items.take count) [] <+: spell items last := by
  refine ⟨spell (items.drop count) last, ?_⟩
  rw [← spell_last_append, List.nil_append, ← spell_append, List.take_append_drop]

theorem division_of_format (source : String) (width : Int) (limit : Option Nat) :
    ∃ words last, words <+: (Scan.ofSource source).words ∧
      Division (format source width limit).text.toList (arrange width [] words) last ∧
      tokenise (format source width limit).text = .ok (placed {} (arrange width [] words)) := by
  obtain ⟨done, ⟨⟨tokens, scanned, same⟩, halts⟩, last, whole, -, plain⟩ := stands_arranged source width limit
  refine ⟨done.map Token.word, last, halts.prefix_tokens.map _, division_of_arranged scanned same whole plain, ?_⟩
  rw [← tokenise_of_arranged scanned same whole plain, scanned]

/-- Two layouts are the same up to the end of a token that both show if the sources are the same that far. So what
a broken layout shows up to its last token stands at the beginning of any other one that shows these tokens. -/
theorem format_faithful (source other : String) (width : Int) (limit limit' : Option Nat) :
    ∃ items last items' last',
      Division (format source width limit).text.toList items last ∧
      tokenise (format source width limit).text = .ok (placed {} items) ∧
      Division (format other width limit').text.toList items' last' ∧
      tokenise (format other width limit').text = .ok (placed {} items') ∧
      (∀ count, count ≤ items.length → count ≤ items'.length →
        (Scan.ofSource source).words.take count = (Scan.ofSource other).words.take count →
        spell (items.take count) [] = spell (items'.take count) []) ∧
      (items.map Prod.snd <+: (Scan.ofSource other).words → items.length ≤ items'.length →
        spell items [] <+: (format other width limit').text.toList) := by
  obtain ⟨words, last, ⟨rest, front⟩, division, scanned⟩ := division_of_format source width limit
  obtain ⟨words', last', ⟨rest', front'⟩, division', scanned'⟩ := division_of_format other width limit'
  have alike (count : Nat) (shown : count ≤ words.length) (shown' : count ≤ words'.length)
      (same : (Scan.ofSource source).words.take count = (Scan.ofSource other).words.take count) :
      (arrange width [] words).take count = (arrange width [] words').take count := by
    rw [← front, ← front', List.take_append_of_le_length shown, List.take_append_of_le_length shown'] at same
    rw [take_arrange, take_arrange, same]
  refine ⟨_, last, _, last', division, scanned, division', scanned', ?_, ?_⟩
  · intro count shown shown' same
    rw [length_arrange] at shown shown'
    rw [alike count shown shown' same]
  · rw [map_snd_arrange, length_arrange, length_arrange]
    rintro ⟨more, begins⟩ fewer
    have same : (Scan.ofSource source).words.take words.length = (Scan.ofSource other).words.take words.length := by
      rw [← front, ← begins, List.take_left, List.take_left]
    have whole : (arrange width [] words).take words.length = arrange width [] words := by
      rw [take_arrange, List.take_length]
    have text : (format other width limit').text.toList = spell (arrange width [] words') last' := division'.whole
    rw [← whole, alike _ le_rfl fewer same, text]
    exact spell_take_prefix _ _ _

end NodeDump
