import NodeDump.Proofs.Printer.Progress

/-!
What is left of a source in its layout. The text that has been laid out is scanned into the tokens of the source up
to the place where the printing ended, and into nothing else.
-/

namespace NodeDump

namespace Scan

theorem length_stream_le (scan : Scan) : scan.stream.length ≤ scan.tokens.length + 1 := by
  unfold stream
  split
  · simp
  · omega

/-- So many tokens are printed when the printing ends with the fault or without one. -/
def Printed (scan : Scan) (count : Nat) : Option Fault → Prop
  | none => count = scan.tokens.length
  | some (.unexpected token) | some (.trailing token) => scan.stream[count]? = some token
  | some (.strayCharacter ..) => count = scan.tokens.length - 1
  | some (.tooDeep _) => count < scan.tokens.length
  | some (.mismatch ..) => False

end Scan

namespace Halts

variable {limit : Option Nat} {scan : Scan} {done : List Token} {fault? : Option Fault}

theorem prefix_tokens (halts : Halts limit scan done fault?) : done <+: scan.tokens := by
  cases halts with
  | whole _ _ tokens => exact tokens ▸ List.prefix_rfl
  | trailing _ tokens => exact tokens ▸ List.prefix_append _ _
  | unexpected _ _ stream =>
    have longer := scan.length_stream_le
    have front : done <+: scan.stream := stream ▸ List.prefix_append _ _
    rw [stream, List.length_append, List.length_cons] at longer
    exact List.prefix_of_prefix_length_le front scan.tokens_prefix_stream (by omega)
  | hidden _ _ tokens => exact tokens ▸ List.prefix_append _ _
  | stuck none => exact none ▸ List.nil_prefix
  | tooDeep _ _ _ _ tokens => exact tokens ▸ List.prefix_append _ _

theorem words_take (halts : Halts limit scan done fault?) :
    scan.words.take done.length = done.map Token.word := by
  have front := List.prefix_iff_eq_take.1 halts.prefix_tokens
  rw [Scan.words, ← List.map_take, ← front]

theorem printed {reader : Reader} (halts : Halts limit (.ofReader reader) done fault?) :
    (Scan.ofReader reader).Printed done.length fault? := by
  cases halts with
  | whole _ _ tokens => simp [Scan.Printed, tokens]
  | trailing _ tokens =>
    obtain ⟨more, same⟩ := (Scan.ofReader reader).tokens_prefix_stream
    rw [Scan.Printed, ← same, tokens]
    simp
  | unexpected _ _ stream => simp [Scan.Printed, stream]
  | hidden _ _ tokens ending =>
    obtain ⟨c, line, column, rfl⟩ := Scan.stray_of_ending ending
    simp [Scan.Printed, tokens]
  | stuck none tokens ending =>
    obtain ⟨c, line, column, rfl⟩ := Scan.stray_of_ending ending
    simp [Scan.Printed, none, tokens]
  | tooDeep _ _ _ _ tokens => simp [Scan.Printed, tokens]

end Halts

/-- No layout, whole or broken off, loses, merges, splits, alters, doubles or reorders a token. -/
theorem format_keeps_words (source : String) (width : Int) (limit : Option Nat) :
    ∃ tokens count, tokenise (format source width limit).text = .ok tokens ∧
      tokens.map Token.word = (Scan.ofSource source).words.take count ∧
      (Scan.ofSource source).Printed count (format source width limit).fault? := by
  obtain ⟨done, ⟨tokens, scanned, same⟩, halts⟩ := stands_format source width limit
  refine ⟨tokens, done.length, scanned, ?_, halts.printed⟩
  rw [same, halts.words_take]

end NodeDump
