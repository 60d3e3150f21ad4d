import NodeDump.Proofs.Format.Dumps
import NodeDump.Proofs.Format.Kept
import NodeDump.Proofs.Printer.Viable

/-!
Which fault is reported. The fault names the first token that no dump goes on with, unless a stray character has
been met before that token was looked at.
-/

namespace NodeDump

/-- The words are the beginning of a dump up to the one at the index, and no further. -/
def FirstMisplaced (words : List Word) (index : Nat) : Prop :=
  index < words.length ∧ ¬Viable (words.take (index + 1)) ∧ ∀ earlier < index, Viable (words.take (earlier + 1))

namespace FirstMisplaced

theorem unique {words : List Word} {first second : Nat} (one : FirstMisplaced words first)
    (other : FirstMisplaced words second) : first = second := by
  rcases lt_trichotomy first second with before | same | after
  · exact absurd (other.2.2 first before) one.2.1
  · exact same
  · exact absurd (one.2.2 second after) other.2.1

theorem of_append {front : List Word} {word : Word} (later : List Word) (viable : Viable front)
    (stuck : ¬Viable (front ++ [word])) : FirstMisplaced (front ++ word :: later) front.length := by
  refine ⟨by simp, ?_, fun earlier before => ?_⟩
  · rwa [List.append_cons, List.take_left' (by simp)]
  · rw [List.take_append_of_le_length (by omega)]
    exact viable.of_prefix (List.take_prefix _ _)

theorem not_viable {words : List Word} {index : Nat} (first : FirstMisplaced words index) :
    ¬Viable words :=
  fun viable => first.2.1 (viable.of_prefix (List.take_prefix _ _))

end FirstMisplaced

namespace Scan

/-- The end of the input counts as a word here. -/
def streamWords (scan : Scan) : List Word := scan.stream.map Token.word

/-- The token at the index is taken before it is looked at, and a stray character stands behind it. -/
def Hidden (scan : Scan) (index : Nat) : Prop :=
  (∃ fault, scan.ending = .error fault) ∧ index + 1 = scan.tokens.length ∧
    InsideNode (scan.streamWords.take index)

theorem stream_of_error {scan : Scan} {fault : Fault} (ending : scan.ending = .error fault) :
    scan.stream = scan.tokens := by
  rw [stream, ending]

theorem streamWords_append {scan : Scan} {done later : List Token} {token : Token}
    (stream : scan.stream = done ++ token :: later) :
    scan.streamWords = done.map Token.word ++ token.word :: later.map Token.word := by
  simp [streamWords, stream]

theorem take_streamWords {scan : Scan} {done later : List Token} {token : Token}
    (stream : scan.stream = done ++ token :: later) :
    scan.streamWords.take done.length = done.map Token.word := by
  rw [streamWords_append stream]
  exact List.take_left' (by simp)

end Scan

structure Blames (fault : Fault) (before : List Word) (token : Token) : Prop where
  named : fault.token? = some token
  complete : Complete before → fault.message = "Unexpected " ++ token.describe ++ " after end of value"
  broken : ¬Complete before → fault.message = "Unexpected " ++ token.describe

/-- What is reported for a scan that is no dump. -/
structure Reports (scan : Scan) (fault : Fault) : Prop where
  misplaced : ∀ index, FirstMisplaced scan.streamWords index → ¬scan.Hidden index →
    ∃ token, scan.stream[index]? = some token ∧ Blames fault (scan.streamWords.take index) token
  stray : (∀ index, FirstMisplaced scan.streamWords index → scan.Hidden index) → scan.ending = .error fault

namespace Reports

variable {scan : Scan} {fault : Fault} {done later : List Token} {token : Token}

theorem of_blames (stream : scan.stream = done ++ token :: later) (viable : Viable (done.map Token.word))
    (stuck : ¬Viable (done.map Token.word ++ [token.word])) (seen : ¬scan.Hidden done.length)
    (blames : Blames fault (done.map Token.word) token) : Reports scan fault := by
  have first : FirstMisplaced scan.streamWords done.length := by
    have found := FirstMisplaced.of_append (later.map Token.word) viable stuck
    rwa [← Scan.streamWords_append stream, List.length_map] at found
  refine ⟨fun index other _ => ?_, fun hidden => absurd (hidden _ first) seen⟩
  obtain rfl := first.unique other
  refine ⟨token, by simp [stream], ?_⟩
  rwa [Scan.take_streamWords stream]

theorem of_hidden (ending : scan.ending = .error fault) (tokens : scan.tokens = done ++ [token])
    (viable : Viable (done.map Token.word))
    (inside : ¬Viable (done.map Token.word ++ [token.word]) → InsideNode (done.map Token.word)) :
    Reports scan fault := by
  refine ⟨fun index first seen => ?_, fun _ => ending⟩
  have stream : scan.stream = done ++ [token] := by rw [Scan.stream_of_error ending, tokens]
  have words : scan.streamWords = done.map Token.word ++ [token.word] := Scan.streamWords_append stream
  -- Everything up to the last word is viable, so only the last word can be misplaced.
  have stuck : ¬Viable (done.map Token.word ++ [token.word]) := by
    have whole := first.not_viable
    rwa [words] at whole
  have found := FirstMisplaced.of_append [] viable stuck
  rw [← words, List.length_map] at found
  obtain rfl := found.unique first
  refine absurd ⟨⟨fault, ending⟩, by simp [tokens], ?_⟩ seen
  rw [Scan.take_streamWords stream]
  exact inside stuck

end Reports

theorem Halts.reports {limit : Option Nat} {reader : Reader} {done : List Token} {fault : Fault}
    (halts : Halts limit (.ofReader reader) done (some fault)) (shallow : ∀ token, fault ≠ .tooDeep token) :
    Reports (.ofReader reader) fault := by
  have lexical : ∀ word ∈ done.map Token.word, Lexical word := fun word member =>
    Scan.lexical_of_mem_words word ((halts.prefix_tokens.map Token.word).subset member)
  cases halts with
  | @trailing dump token later same tokens =>
    have complete : Complete (done.map Token.word) := ⟨dump, by rwa [Dump.Lexical, same], same⟩
    have more : token.word.1 ≠ .endOfInput := by
      have member : token ∈ (Scan.ofReader reader).tokens := by simp [tokens]
      have solid := (Scan.lexical_of_mem token member).isEnd_eq_false
      simpa [Token.isEnd, Token.word] using solid
    obtain ⟨last, stream⟩ := (Scan.ofReader reader).tokens_prefix_stream
    rw [tokens, List.append_assoc, List.cons_append] at stream
    refine .of_blames stream.symm complete.viable (complete.not_viable more) ?_ ?_
    · rintro ⟨-, -, inside⟩
      rw [Scan.take_streamWords stream.symm] at inside
      exact complete.not_insideNode inside
    · exact ⟨rfl, fun _ => rfl, fun broken => absurd complete broken⟩
  | @unexpected frames token later spine place stream seen =>
    refine .of_blames stream (spine.viable lexical) (spine.not_viable place) ?_ ?_
    · rintro ⟨⟨stray, ending⟩, length, inside⟩
      rw [Scan.take_streamWords stream] at inside
      -- Such a token is taken first, which is possible only if the text behind it can be scanned.
      rcases seen (awaitsKey_of_insideNode spine.walk inside) with some_token | ⟨last, reached⟩
      · rw [← Scan.stream_of_error ending, stream] at length
        have none : later.length = 0 := by
          simp only [List.length_append, List.length_cons] at length
          omega
        exact some_token (List.length_eq_zero_iff.1 none)
      · rw [ending] at reached
        contradiction
    · exact ⟨rfl, fun complete => absurd complete spine.not_complete, fun _ => rfl⟩
  | @hidden frames token _ spine wanted tokens ending =>
    refine .of_hidden ending tokens (spine.viable lexical) fun stuck => ?_
    rcases wanted with place | awaits
    · obtain ⟨inner, place⟩ := Option.ne_none_iff_exists'.1 place
      have whole : (Scan.ofReader reader).words = done.map Token.word ++ [token.word] := by
        simp [Scan.words, tokens]
      exact absurd (spine.viable_of_follow (whole ▸ Scan.lexical_of_mem_words) place) stuck
    · exact spine.insideNode awaits
  | stuck none tokens ending =>
    refine ⟨fun index first => ?_, fun _ => ending⟩
    have bound := first.1
    rw [Scan.streamWords, Scan.stream_of_error ending, tokens] at bound
    contradiction
  | tooDeep => exact absurd rfl (shallow _)

/-- A token that no dump goes on with is named by the fault. A stray character comes first only if no such
token stands before it, or if the token has to be taken before it is looked at. -/
theorem fault_of_firstMisplaced (source : String) (width : Int) (limit : Option Nat) (fault : Fault)
    (failed : (format source width limit).fault? = some fault) (shallow : ∀ token, fault ≠ .tooDeep token) :
    (∀ index, FirstMisplaced (Scan.ofSource source).streamWords index → ¬(Scan.ofSource source).Hidden index →
      ∃ token, (Scan.ofSource source).stream[index]? = some token ∧
        Blames fault ((Scan.ofSource source).streamWords.take index) token) ∧
    ((∀ index, FirstMisplaced (Scan.ofSource source).streamWords index →
      (Scan.ofSource source).Hidden index) → tokenise source = .error fault) := by
  obtain ⟨done, -, halts⟩ := stands_format source width limit
  rw [failed] at halts
  have reports := halts.reports shallow
  exact ⟨reports.misplaced, fun hidden => Scan.tokenise_of_stuck (reports.stray hidden)⟩

/-- A node cannot go on with an atom. -/
theorem fault_of_atom_in_node :
    (format "\x7bA 1").fault? = some (.unexpected ⟨.atom, 1, 3, "1"⟩) ∧
      ∀ index, FirstMisplaced (Scan.ofSource "\x7bA 1").streamWords index →
        ¬(Scan.ofSource "\x7bA 1").Hidden index →
        ∃ token, (Scan.ofSource "\x7bA 1").stream[index]? = some token ∧
          Blames (.unexpected ⟨.atom, 1, 3, "1"⟩) ((Scan.ofSource "\x7bA 1").streamWords.take index) token := by
  have failed : (format "\x7bA 1").fault? = some (.unexpected ⟨.atom, 1, 3, "1"⟩) := by decide +kernel
  exact ⟨failed, (fault_of_firstMisplaced _ _ _ _ failed (by simp)).1⟩

end NodeDump
