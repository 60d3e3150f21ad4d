import NodeDump.Printer.Basic
import NodeDump.Proofs.Dump.Words

/-!
How an unfinished node or array ends, and how it grows by a key, a value or an element at its end.
-/

namespace NodeDump

def Attributes.ending (before : NodeEnding) : Attributes → NodeEnding
  | .nil => before
  | .bare _ later => later.ending .key
  | .valued _ _ later => later.ending .value

theorem Attributes.ending_ne_start (attributes : Attributes) {before : NodeEnding} (other : before ≠ .start) :
    attributes.ending before ≠ .start := by
  match attributes with
  | .nil => exact other
  | .bare _ later => exact Attributes.ending_ne_start later (by decide)
  | .valued _ _ later => exact Attributes.ending_ne_start later (by decide)

def Elements.filled (before : Bool) : Elements → Bool
  | .nil => before
  | .cons _ _ => true

theorem Elements.add_value (elements : Elements) (value : Dump) :
    ∃ more : Elements, more.words = elements.words ++ value.words ∧
      more.height = max elements.height value.height ∧ ∀ before, more.filled before = true := by
  match elements with
  | .nil => exact ⟨.cons value .nil, by simp [Elements.words], by simp [Elements.height], fun _ => rfl⟩
  | .cons first later =>
    obtain ⟨more, words, height, -⟩ := Elements.add_value later value
    exact ⟨.cons first more, by simp [Elements.words, words], by simp [Elements.height, height, Nat.max_assoc],
      fun _ => rfl⟩

theorem Attributes.add_key (attributes : Attributes) (key : String) :
    ∃ more : Attributes, more.words = attributes.words ++ [(.key, key)] ∧
      more.height = attributes.height ∧ ∀ before, more.ending before = .key := by
  match attributes with
  | .nil => exact ⟨.bare key .nil, rfl, rfl, fun _ => rfl⟩
  | .bare first later =>
    obtain ⟨more, words, height, ending⟩ := Attributes.add_key later key
    exact ⟨.bare first more, by simp [Attributes.words, words], by simp [Attributes.height, height],
      fun _ => ending .key⟩
  | .valued first value later =>
    obtain ⟨more, words, height, ending⟩ := Attributes.add_key later key
    exact ⟨.valued first value more, by simp [Attributes.words, words],
      by simp [Attributes.height, height], fun _ => ending .value⟩

theorem Attributes.add_value (attributes : Attributes) (value : Dump) (before : NodeEnding)
    (other : before ≠ .key) (bare : attributes.ending before = .key) :
    ∃ more : Attributes, more.words = attributes.words ++ value.words ∧
      more.height = max attributes.height value.height ∧ ∀ before, more.ending before = .value := by
  match attributes with
  | .nil => exact absurd bare other
  | .bare first .nil =>
    exact ⟨.valued first value .nil, by simp [Attributes.words], by simp [Attributes.height], fun _ => rfl⟩
  | .bare first (.bare second later) =>
    obtain ⟨more, words, height, ending⟩ :=
      Attributes.add_value (.bare second later) value .start (by decide) bare
    exact ⟨.bare first more, by simp [Attributes.words, words], by simpa [Attributes.height] using height,
      fun _ => ending .key⟩
  | .bare first (.valued second inner later) =>
    obtain ⟨more, words, height, ending⟩ :=
      Attributes.add_value (.valued second inner later) value .start (by decide) bare
    exact ⟨.bare first more, by simp [Attributes.words, words], by simpa [Attributes.height] using height,
      fun _ => ending .key⟩
  | .valued first inner later =>
    obtain ⟨more, words, height, ending⟩ := Attributes.add_value later value .value (by decide) bare
    exact ⟨.valued first inner more, by simp [Attributes.words, words],
      by simp [Attributes.height, height, Nat.max_assoc], fun _ => ending .value⟩

theorem Dump.words_last (dump : Dump) :
    ∃ (front : List Word) (last : Word), dump.words = front ++ [last] ∧ last.1 ≠ .key ∧ ¬last.Opening := by
  cases dump with
  | string text => exact ⟨[], _, rfl, by simp, by simp [Word.Opening]⟩
  | atom text => exact ⟨[], _, rfl, by simp, by simp [Word.Opening]⟩
  | array tag elements => exact ⟨_, _, rfl, by simp, by decide⟩
  | node opening attributes => exact ⟨_, _, rfl, by simp, by decide⟩

theorem Attributes.ending_eq_key_iff (attributes : Attributes) (word : Word) (before : NodeEnding)
    (start : before = .key ↔ word.1 = .key) :
    attributes.ending before = .key ↔
      ∀ last, (word :: attributes.words).getLast? = some last → last.1 = .key := by
  match attributes with
  | .nil => simp [Attributes.ending, Attributes.words, start]
  | .bare key later =>
    have rest := Attributes.ending_eq_key_iff later (.key, key) .key (by simp)
    simpa [Attributes.ending, Attributes.words] using rest
  | .valued key value later =>
    -- The last word of the value takes the place of the word in front of the rest.
    obtain ⟨front, last, words, other, -⟩ := value.words_last
    have rest := Attributes.ending_eq_key_iff later last .value (by simp [other])
    rw [Attributes.ending, rest, Attributes.words, words]
    have same : word :: ((.key, key) :: (front ++ [last]) ++ later.words) =
        (word :: (.key, key) :: front) ++ (last :: later.words) := by simp
    rw [same, List.getLast?_append]
    simp

end NodeDump
