import NodeDump.Proofs.Lexeme.Newline
import NodeDump.Proofs.Scan.Respaced

/-!
Line breaks on the way in, and the scan. As long as no token holds a carriage return, the text that has been read is
divided into the same words, and it is scanned into the same but for the places.
-/

namespace NodeDump
open Lexeme Text

theorem head?_ne_lineFeed {text : List Char} (some_char : text ≠ []) (solid : Stops Char.isWhitespace text)
    (rest : List Char) : (text ++ rest).head? ≠ some '\n' := by
  obtain ⟨c, tail, rfl⟩ := List.exists_cons_of_ne_nil some_char
  intro feed
  obtain rfl : c = '\n' := by simpa using feed
  have outside := stops_cons.1 solid
  contradiction

theorem newlines_spell {items : List (List Char × Word)} {last : List Char} (munched : Munched last items)
    (clean : ∀ item ∈ items, '\r' ∉ item.2.2.toList) :
    newlines (spell items last) = spell (items.map (Prod.map newlines id)) (newlines last) := by
  induction items with
  | nil => rfl
  | cons item items ih =>
    obtain ⟨-, consumes, behind⟩ := munched
    have front := head?_ne_lineFeed consumes.ne_nil consumes.solid (spell items last)
    calc
      newlines (spell (item :: items) last) = newlines item.1 ++ newlines (item.2.2.toList ++ spell items last) :=
        newlinesAfter_append '\n' item.1 front
      _ = newlines item.1 ++ (item.2.2.toList ++ newlines (spell items last)) := by
        rw [newlines_append (clean item List.mem_cons_self)]
      _ = _ := by
        rw [ih behind fun other member => clean other (List.mem_cons_of_mem item member)]
        rfl

theorem Munched.newlines {items : List (List Char × Word)} {last : List Char} (munched : Munched last items)
    (clean : ∀ item ∈ items, '\r' ∉ item.2.2.toList) :
    Munched (newlines last) (items.map (Prod.map Text.newlines id)) := by
  induction items with
  | nil => trivial
  | cons item items ih =>
    obtain ⟨blank, consumes, behind⟩ := munched
    have others : ∀ other ∈ items, '\r' ∉ other.2.2.toList := fun other member =>
      clean other (List.mem_cons_of_mem item member)
    refine ⟨(run_newlines_iff (by decide)).2 blank, ?_, ih behind others⟩
    have ends := (first?_sound (consumes_iff.1 consumes)).2
    show Consumes item.2.1 item.2.2.toList _
    rw [← newlines_spell behind others]
    exact consumes_iff.2 (first?_complete consumes.language consumes.solid ((ends_newlines_iff _ _ _).2 ends))

theorem Leftover.newlines {last : List Char} (leftover : Leftover last) : Leftover (newlines last) := by
  cases leftover with
  | blank blank => exact .blank ((run_newlines_iff (by decide)).2 blank)
  | @stray gap rest c blank stray =>
    have other : (c :: rest).head? ≠ some '\n' :=
      head?_ne_lineFeed (List.cons_ne_nil c []) (stops_cons.2 stray.1) rest
    have kept : c ≠ '\r' := by
      rintro rfl
      exact absurd stray.1 (by decide)
    rw [Text.newlines, newlinesAfter_append '\n' gap other, newlines_cons kept]
    exact .stray ((run_newlines_iff (by decide)).2 blank) stray.newlines

theorem firstLeft?_newlines (last : List Char) : firstLeft? (newlines last) = firstLeft? last := by
  rw [firstLeft?, firstLeft?, dropWhile_newlines (by decide)]
  have solid : Stops Char.isWhitespace (last.dropWhile Char.isWhitespace) := stops_dropWhile last
  cases cut : last.dropWhile Char.isWhitespace with
  | nil => rfl
  | cons c rest =>
    rw [cut, stops_cons] at solid
    exact (head?_newlines_iff solid).2 rfl

theorem Division.newlines {text last : List Char} {items : List (List Char × Word)}
    (division : Division text items last) (clean : ∀ item ∈ items, '\r' ∉ item.2.2.toList) :
    Division (newlines text) (items.map (Prod.map Text.newlines id)) (newlines last) where
  whole := by rw [division.whole, newlines_spell division.munched clean]
  munched := division.munched.newlines clean
  leftover := division.leftover.newlines

/-- A text whose tokens hold no carriage return is scanned into the same but for the places once it has been read. -/
theorem Scan.placeless_unifyNewlines {text : String}
    (clean : ∀ token ∈ (Scan.ofSource text).tokens, '\r' ∉ token.text.toList) :
    (Scan.ofSource text).placeless = (Scan.ofSource (unifyNewlines text)).placeless := by
  obtain ⟨items, last, division, words, -⟩ := (Reader.ofSource text {}).division
  have clean_words : ∀ item ∈ items, '\r' ∉ item.2.2.toList := by
    intro item member
    have among : item.2 ∈ (Scan.ofSource text).words := words ▸ List.mem_map_of_mem member
    obtain ⟨token, here, same⟩ := List.mem_map.1 among
    rw [← same]
    exact clean token here
  have read : (unifyNewlines text).toList = newlines text.toList := String.toList_ofList
  apply Division.placeless_eq division (read ▸ division.newlines clean_words)
  · simp [Function.comp_def]
  · exact (firstLeft?_newlines last).symm

end NodeDump
