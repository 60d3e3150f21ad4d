import NodeDump.Proofs.Dump.Ending
import NodeDump.Proofs.Printer.Step
import NodeDump.Proofs.Scan.Spelling

/-!
What the open constructs stand for. They are the spine of a dump of which only the words up to some point are known.
Printing a word in place makes the spine grow or completes a dump, the words of a dump are all in place one after
the other, and every spine can be completed.
-/

namespace NodeDump

/-- What is open once a value has been put inside the innermost construct, if one is in place. -/
def receive? : List Frame → Option (List Frame)
  | [] => some []
  | .node ending :: outer => if ending = .key then some (.node .value :: outer) else none
  | .array tagged _ :: outer => some (.array tagged true :: outer)

def walk? (frames : List Frame) (words : List Word) : Option (List Frame) := words.foldlM follow? frames

theorem walk?_cons (frames : List Frame) (word : Word) (words : List Word) :
    walk? frames (word :: words) = (follow? frames word).bind fun inner => walk? inner words :=
  List.foldlM_cons

theorem walk?_append (frames : List Frame) (first second : List Word) :
    walk? frames (first ++ second) = (walk? frames first).bind fun inner => walk? inner second :=
  List.foldlM_append

theorem length_receive? {frames outer : List Frame} (received : receive? outer = some frames) :
    frames.length = outer.length := by
  unfold receive? at received
  split at received
  · cases received
    rfl
  · split at received
    · cases received
      rfl
    · contradiction
  · cases received
    rfl

theorem follow?_starting (frames : List Frame) {word : Word} (starting : word.Starting) :
    follow? frames word = (receive? frames).bind fun inner => begin? inner word := by
  have noKey : word.1 ≠ .key := fun key => Word.not_starting_of_key key starting
  have noNode : word.1 ≠ .nodeEnd := fun last => Word.Closing.not_starting (Or.inl last) starting
  have noArray : word.1 ≠ .arrayEnd := fun last => Word.Closing.not_starting (Or.inr last) starting
  cases frames with
  | nil => rfl
  | cons frame outer =>
    cases frame with
    | array tagged filled => simp [follow?, receive?, noArray]
    | node ending =>
      rw [follow?, receive?]
      split
      · exact absurd ‹_› noKey
      · exact absurd ‹_› noNode
      · by_cases key : ending = .key <;> simp [key]

/-- A value is put inside the innermost construct before it is begun. -/
theorem receive?_of_follow {outer frames : List Frame} {word : Word} (starting : word.Starting)
    (place : follow? outer word = some frames) :
    ∃ inner, receive? outer = some inner ∧ begin? inner word = some frames := by
  rw [follow?_starting outer starting] at place
  exact Option.bind_eq_some_iff.1 place

mutual

theorem walk?_dump (dump : Dump) {outer frames : List Frame} (received : receive? outer = some frames) :
    walk? outer dump.words = some frames := by
  match dump with
  | .string text =>
    rw [Dump.words, walk?_cons, follow?_starting outer (Or.inr (Or.inl rfl)), received]
    rfl
  | .atom text =>
    rw [Dump.words, walk?_cons, follow?_starting outer (Or.inr (Or.inr rfl)), received]
    rfl
  | .array tag elements =>
    rw [Dump.words, List.cons_append, walk?_cons, follow?_starting outer (Or.inl (Or.inr rfl)), received,
      Option.bind_some, begin?, Option.bind_some, walk?_append, walk?_elements elements]
    rfl
  | .node opening attributes =>
    rw [Dump.words, List.cons_append, walk?_cons, follow?_starting outer (Or.inl (Or.inl rfl)), received,
      Option.bind_some, begin?, Option.bind_some, walk?_append, walk?_attributes attributes]
    rfl

theorem walk?_elements (elements : Elements) (tagged filled : Bool) (outer : List Frame) :
    walk? (.array tagged filled :: outer) elements.words =
      some (.array tagged (elements.filled filled) :: outer) := by
  match elements with
  | .nil => rfl
  | .cons first later =>
    have value : walk? (.array tagged filled :: outer) first.words = some (.array tagged true :: outer) :=
      walk?_dump first rfl
    rw [Elements.words, walk?_append, value, Option.bind_some, walk?_elements later]
    cases later <;> rfl

theorem walk?_attributes (attributes : Attributes) (ending : NodeEnding) (outer : List Frame) :
    walk? (.node ending :: outer) attributes.words =
      some (.node (attributes.ending ending) :: outer) := by
  match attributes with
  | .nil => rfl
  | .bare key later =>
    rw [Attributes.words, walk?_cons, follow?, Option.bind_some, walk?_attributes later]
    rfl
  | .valued key value later =>
    have inner : walk? (.node .key :: outer) value.words = some (.node .value :: outer) :=
      walk?_dump value rfl
    rw [Attributes.words, List.cons_append, walk?_cons, follow?, Option.bind_some, walk?_append, inner,
      Option.bind_some, walk?_attributes later]
    rfl

end

theorem Dump.walk (dump : Dump) : walk? [] dump.words = some [] := walk?_dump dump rfl

/-- The open constructs after a text of words that is the start of a dump. -/
inductive Spine (limit : Option Nat) : List Frame → List Word → Prop
  | start : Spine limit [] []
  | node {outer frames : List Frame} {before : List Word} (spine : Spine limit outer before)
      (received : receive? outer = some frames) (opening : String) (attributes : Attributes)
      (room : Within limit (frames.length + (attributes.height + 1))) :
      Spine limit (.node (attributes.ending .start) :: frames)
        (before ++ (.nodeStart, opening) :: attributes.words)
  | array {outer frames : List Frame} {before : List Word} (spine : Spine limit outer before)
      (received : receive? outer = some frames) (tag : String) (elements : Elements)
      (room : Within limit (frames.length + (elements.height + 1))) :
      Spine limit (.array (tag ≠ "") (elements.filled false) :: frames)
        (before ++ (.arrayStart, "(" ++ tag) :: elements.words)

namespace Spine

variable {limit : Option Nat} {frames outer : List Frame} {words : List Word}

theorem eq_nil (spine : Spine limit [] words) : words = [] := by
  cases spine
  rfl

theorem room (spine : Spine limit frames words) : Within limit frames.length := by
  cases spine with
  | start => exact fun bound _ => Nat.zero_le bound
  | node _ _ opening attributes enough => exact enough.mono (by simp)
  | array _ _ tag elements enough => exact enough.mono (by simp)

theorem unlimited (spine : Spine limit frames words) : Spine none frames words := by
  induction spine with
  | start => exact .start
  | node _ received opening attributes _ ih => exact .node ih received opening attributes (within_none _)
  | array _ received tag elements _ ih => exact .array ih received tag elements (within_none _)

theorem walk (spine : Spine limit frames words) : walk? [] words = some frames := by
  induction spine with
  | start => rfl
  | node _ received opening attributes _ ih =>
    rw [walk?_append, ih, Option.bind_some, walk?_cons, follow?_starting _ (Or.inl (Or.inl rfl)), received,
      Option.bind_some, begin?, Option.bind_some, walk?_attributes]
  | array _ received tag elements _ ih =>
    rw [walk?_append, ih, Option.bind_some, walk?_cons, follow?_starting _ (Or.inl (Or.inr rfl)), received,
      Option.bind_some, begin?, Option.bind_some, walk?_elements]
    simp [Word.tag]

/-- Either the words are a whole dump or there is a spine for them. -/
def Grown (limit : Option Nat) (frames : List Frame) (words : List Word) : Prop :=
  (frames ≠ [] ∧ Spine limit frames words) ∨
    (frames = [] ∧ ∃ dump : Dump, dump.words = words ∧ Within limit dump.height)

theorem add_value (spine : Spine limit outer words) (received : receive? outer = some frames) (value : Dump)
    (room : Within limit (frames.length + value.height)) :
    Grown limit frames (words ++ value.words) := by
  cases spine with
  | start =>
    obtain rfl : [] = frames := by simpa [receive?] using received
    exact Or.inr ⟨rfl, value, rfl, room.mono (by simp)⟩
  | node spine behind opening attributes inside =>
    simp only [receive?, Option.ite_none_right_eq_some, Option.some.injEq] at received
    obtain ⟨bare, rfl⟩ := received
    obtain ⟨more, added, height, ending⟩ := attributes.add_value value .start (by decide) bare
    refine Or.inl ⟨by simp, ?_⟩
    have grown := Spine.node spine behind opening more fun bound known => by
      have enough := inside bound known
      have enough' := room bound known
      simp only [List.length_cons] at enough'
      omega
    rw [ending, added] at grown
    simpa using grown
  | array spine behind tag elements inside =>
    simp only [receive?, Option.some.injEq] at received
    subst received
    obtain ⟨more, added, height, filled⟩ := elements.add_value value
    refine Or.inl ⟨by simp, ?_⟩
    have grown := Spine.array spine behind tag more fun bound known => by
      have enough := inside bound known
      have enough' := room bound known
      simp only [List.length_cons] at enough'
      omega
    rw [filled, added] at grown
    simpa using grown

theorem text_of_arrayStart {text : String} (lexical : Lexical (.arrayStart, text)) :
    text = "(" ++ Word.tag (.arrayStart, text) := by
  apply String.toList_inj.1
  rcases lexical.language with same | ⟨tag, same, -⟩ <;> simp only at same <;> simp [Word.tag, same]

theorem text_of_arrayEnd {text : String} (lexical : Lexical (.arrayEnd, text)) : text = ")" := by
  have sign : text.toList = [')'] := lexical.language
  apply String.toList_inj.1
  rw [sign]
  rfl

theorem text_of_nodeEnd {text : String} (lexical : Lexical (.nodeEnd, text)) : text = "\x7d" := by
  have sign : text.toList = ['}'] := lexical.language
  apply String.toList_inj.1
  rw [sign]
  rfl

theorem follow?_key {text : String} (place : follow? outer (.key, text) = some frames) :
    ∃ ending inner, outer = .node ending :: inner ∧ frames = .node .key :: inner := by
  unfold follow? at place
  split at place
  · simp [begin?] at place
  · rename_i ending inner
    exact ⟨ending, inner, rfl, by simpa using place.symm⟩
  · simp [begin?] at place

theorem follow?_nodeEnd {text : String} (place : follow? outer (.nodeEnd, text) = some frames) :
    ∃ ending, outer = .node ending :: frames := by
  unfold follow? at place
  split at place
  · simp [begin?] at place
  · rename_i ending inner
    exact ⟨ending, by simpa using place⟩
  · simp [begin?] at place

theorem follow?_arrayEnd {text : String} (place : follow? outer (.arrayEnd, text) = some frames) :
    ∃ tagged filled, outer = .array tagged filled :: frames := by
  unfold follow? at place
  split at place
  · simp [begin?] at place
  · simp [begin?] at place
  · rename_i tagged filled inner
    exact ⟨tagged, filled, by simpa using place⟩

theorem follow?_closing {word : Word} (closing : word.Closing) (place : follow? outer word = some frames) :
    ∃ frame, outer = frame :: frames := by
  obtain ⟨kind, text⟩ := word
  rcases closing with rfl | rfl
  · obtain ⟨ending, rfl⟩ := follow?_nodeEnd place
    exact ⟨_, rfl⟩
  · obtain ⟨tagged, filled, rfl⟩ := follow?_arrayEnd place
    exact ⟨_, rfl⟩

theorem grow {word : Word} (spine : Spine limit outer words) (lexical : Lexical word)
    (place : follow? outer word = some frames)
    (room : word.Opening → Within limit (outer.length + 1)) : Grown limit frames (words ++ [word]) := by
  obtain ⟨kind, text⟩ := word
  cases kind with
  | nodeStart =>
    have opening : Word.Opening (.nodeStart, text) := Or.inl rfl
    obtain ⟨inner, received, begun⟩ := receive?_of_follow (Or.inl opening) place
    obtain rfl : .node .start :: inner = frames := by simpa [begin?] using begun
    have enough : Within limit (inner.length + (0 + 1)) := by
      rw [length_receive? received]
      exact room opening
    exact Or.inl ⟨by simp, .node spine received text .nil enough⟩
  | arrayStart =>
    have opening : Word.Opening (.arrayStart, text) := Or.inr rfl
    obtain ⟨inner, received, begun⟩ := receive?_of_follow (Or.inl opening) place
    have enough : Within limit (inner.length + (0 + 1)) := by
      rw [length_receive? received]
      exact room opening
    have grown := Spine.array spine received (Word.tag (.arrayStart, text)) .nil enough
    rw [← text_of_arrayStart lexical] at grown
    obtain rfl : _ = frames := Option.some.inj begun
    exact Or.inl ⟨by simp, grown⟩
  | string =>
    obtain ⟨inner, received, begun⟩ := receive?_of_follow (Or.inr (Or.inl rfl)) place
    obtain rfl : inner = frames := by simpa [begin?] using begun
    exact spine.add_value received (.string text) (length_receive? received ▸ spine.room)
  | atom =>
    obtain ⟨inner, received, begun⟩ := receive?_of_follow (Or.inr (Or.inr rfl)) place
    obtain rfl : inner = frames := by simpa [begin?] using begun
    exact spine.add_value received (.atom text) (length_receive? received ▸ spine.room)
  | key =>
    obtain ⟨ending, inner, rfl, rfl⟩ := follow?_key place
    cases spine with
    | node spine received opening attributes enough =>
      obtain ⟨more, added, height, last⟩ := attributes.add_key text
      rw [← height] at enough
      have grown := Spine.node spine received opening more enough
      rw [last, added] at grown
      exact Or.inl ⟨by simp, by simpa using grown⟩
  | nodeEnd =>
    obtain ⟨ending, rfl⟩ := follow?_nodeEnd place
    cases spine with
    | node spine received opening attributes enough =>
      have grown := spine.add_value received (.node opening attributes) enough
      rw [text_of_nodeEnd lexical]
      simpa [Dump.words] using grown
  | arrayEnd =>
    obtain ⟨tagged, filled, rfl⟩ := follow?_arrayEnd place
    cases spine with
    | array spine received tag elements enough =>
      have grown := spine.add_value received (.array tag elements) enough
      rw [text_of_arrayEnd lexical]
      simpa [Dump.words] using grown
  | endOfInput => exact lexical.language.elim

/-- Every spine is the start of a dump, which takes no more than to close what is open. -/
theorem completes (spine : Spine limit frames words) :
    ∃ (dump : Dump) (more : List Word), dump.words = words ++ more ∧ ∀ word ∈ more, Lexical word := by
  induction levels : frames.length generalizing frames words with
  | zero =>
    obtain rfl := List.length_eq_zero_iff.1 levels
    exact ⟨.string "\"\"", [(.string, "\"\"")], by simp [spine.eq_nil, Dump.words],
      by simpa using Lexical.quotes⟩
  | succ bound ih =>
    -- With the innermost construct closed, fewer are open or the dump is whole.
    have inner {frames : List Frame} {words : List Word} {last : Word} (fewer : frames.length = bound)
        (closing : Lexical last) (grown : Grown limit frames (words ++ [last])) :
        ∃ (dump : Dump) (more : List Word), dump.words = words ++ more ∧ ∀ word ∈ more, Lexical word := by
      rcases grown with ⟨-, deeper⟩ | ⟨-, dump, same, -⟩
      · obtain ⟨dump, more, same, lexical⟩ := ih deeper fewer
        exact ⟨dump, last :: more, by simp [same], by simpa [closing] using lexical⟩
      · exact ⟨dump, [last], same, by simpa using closing⟩
    cases spine with
    | start => contradiction
    | node spine received opening attributes enough =>
      have grown := spine.add_value received (.node opening attributes) enough
      exact inner (by simpa using levels) .nodeEnd (by simpa [Dump.words] using grown)
    | array spine received tag elements enough =>
      have grown := spine.add_value received (.array tag elements) enough
      exact inner (by simpa using levels) .arrayEnd (by simpa [Dump.words] using grown)

end Spine

end NodeDump
