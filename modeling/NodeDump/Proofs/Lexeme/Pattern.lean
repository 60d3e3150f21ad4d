import Mathlib.Data.List.Basic
import NodeDump.Proofs.Lexeme.Run

/-!
Regular expressions as they are matched with backtracking. All ways to match the front of a text are listed, the one
tried first in front, so that an expression that comes later can make a matcher go on to the next. A run of one
class in front of something that cannot start inside it is matched as a whole or not at all, and at the end of an
expression the first way to repeat is to take the first way again and again.
-/

namespace NodeDump
open Lexeme

/-- Alternatives are tried from left to right, and a repetition is tried with as much as possible first. -/
inductive Pattern where
  | one (p : Char → Bool)
  | empty
  | seq (first second : Pattern)
  | either (first second : Pattern)
  | star (inner : Pattern)
  | notAhead (inner : Pattern)

namespace Pattern

/-- The ways to match over and over, each with its pieces. Nothing is matched again behind a piece that is empty. -/
def repeats (ways : List Char → List (List Char × List Char)) (cs : List Char) :
    List (List (List Char) × List Char) :=
  ((ways cs).flatMap fun way =>
    if _ : way.2.length < cs.length then (repeats ways way.2).map fun more => (way.1 :: more.1, more.2)
    else [([way.1], way.2)]) ++ [([], cs)]
termination_by cs.length

/-- The ways to match the front of a text, each with what it takes and what it leaves. -/
def ways : Pattern → List Char → List (List Char × List Char)
  | one _, [] => []
  | one p, c :: rest => if p c then [([c], rest)] else []
  | empty, cs => [([], cs)]
  | seq first second, cs =>
    (first.ways cs).flatMap fun way => (second.ways way.2).map fun more => (way.1 ++ more.1, more.2)
  | either first second, cs => first.ways cs ++ second.ways cs
  | star inner, cs => (repeats inner.ways cs).map fun many => (many.1.flatten, many.2)
  | notAhead inner, cs => if inner.ways cs = [] then [([], cs)] else []

def maybe (inner : Pattern) : Pattern := either inner empty

def plus (inner : Pattern) : Pattern := seq inner (star inner)

def char (c : Char) : Pattern := one (· = c)

/-- What the ways leave, which tells what they take. -/
def rests (pattern : Pattern) (cs : List Char) : List (List Char) := (pattern.ways cs).map Prod.snd

variable {p : Char → Bool} {first second inner pattern : Pattern} {c : Char} {cs rest : List Char}

theorem append_of_repeats {ways : List Char → List (List Char × List Char)}
    (whole : ∀ cs, ∀ way ∈ ways cs, way.1 ++ way.2 = cs) (cs : List Char) :
    ∀ many ∈ repeats ways cs, many.1.flatten ++ many.2 = cs := by
  intro many member
  fun_induction repeats ways cs generalizing many with
  | case1 cs ih =>
    rcases List.mem_append.1 member with some_piece | none
    · obtain ⟨way, here, among⟩ := List.mem_flatMap.1 some_piece
      split at among
      · rename_i shorter
        obtain ⟨more, later, rfl⟩ := List.mem_map.1 among
        rw [List.flatten_cons, List.append_assoc, ih way shorter more later, whole cs way here]
      · obtain rfl := List.mem_singleton.1 among
        simpa using whole cs way here
    · obtain rfl := List.mem_singleton.1 none
      rfl

theorem append_of_ways : ∀ way ∈ pattern.ways cs, way.1 ++ way.2 = cs := by
  intro way member
  induction pattern generalizing cs way with
  | one p =>
    cases cs with
    | nil => simp [ways] at member
    | cons c rest =>
      rw [ways] at member
      split at member
      · obtain rfl := List.mem_singleton.1 member
        rfl
      · simp at member
  | empty =>
    obtain rfl := List.mem_singleton.1 member
    rfl
  | seq first second ihFirst ihSecond =>
    obtain ⟨front, here, among⟩ := List.mem_flatMap.1 member
    obtain ⟨more, later, rfl⟩ := List.mem_map.1 among
    rw [List.append_assoc, ihSecond more later, ihFirst front here]
  | either first second ihFirst ihSecond =>
    rcases List.mem_append.1 member with left | right
    · exact ihFirst way left
    · exact ihSecond way right
  | star inner ih =>
    obtain ⟨many, among, rfl⟩ := List.mem_map.1 member
    exact append_of_repeats (fun _ => ih) cs many among
  | notAhead inner ih =>
    rw [ways] at member
    split at member
    · obtain rfl := List.mem_singleton.1 member
      rfl
    · simp at member

/-- Two lists of ways through one text are the same if they leave the same. -/
theorem ways_eq_of_rests {others : List (List Char × List Char)} (whole : ∀ way ∈ others, way.1 ++ way.2 = cs)
    (same : pattern.rests cs = others.map Prod.snd) : pattern.ways cs = others := by
  let taken (rest : List Char) : List Char × List Char := (cs.take (cs.length - rest.length), rest)
  have known : ∀ ways : List (List Char × List Char), (∀ way ∈ ways, way.1 ++ way.2 = cs) →
      (ways.map Prod.snd).map taken = ways := by
    intro ways all
    rw [List.map_map]
    refine (List.map_congr_left fun way member => ?_).trans (List.map_id ways)
    obtain rfl := all way member
    simp [taken]
  rw [← known _ append_of_ways, ← known _ whole]
  exact congrArg (List.map taken) same

theorem head?_ways {text : List Char} (front : (pattern.rests cs).head? = some rest) (whole : text ++ rest = cs) :
    (pattern.ways cs).head? = some (text, rest) := by
  rw [rests, List.head?_map, Option.map_eq_some_iff] at front
  obtain ⟨way, is_first, same⟩ := front
  have taken := append_of_ways way (List.mem_of_head? is_first)
  rw [← whole, same, List.append_cancel_right_eq] at taken
  rw [is_first, ← taken, ← same]

theorem head?_ways_of_cut {cut : Option (List Char × List Char)} (whole : ∀ way ∈ cut, way.1 ++ way.2 = cs)
    (same : (pattern.rests cs).head? = cut.map Prod.snd) : (pattern.ways cs).head? = cut := by
  cases cut with
  | none => simpa [rests] using same
  | some way => exact head?_ways same (whole way rfl)

@[simp] theorem rests_one_nil : (one p).rests [] = [] := rfl

@[simp] theorem rests_one_cons : (one p).rests (c :: rest) = if p c then [rest] else [] := by
  unfold rests ways
  split <;> rfl

@[simp] theorem rests_empty : empty.rests cs = [cs] := rfl

@[simp] theorem rests_seq : (seq first second).rests cs = (first.rests cs).flatMap second.rests := by
  simp only [rests, ways, List.map_flatMap, List.flatMap_map, List.map_map, Function.comp_def]

@[simp] theorem rests_either : (either first second).rests cs = first.rests cs ++ second.rests cs := by
  simp only [rests, ways, List.map_append]

@[simp] theorem rests_notAhead :
    (notAhead inner).rests cs = if inner.rests cs = [] then [cs] else [] := by
  simp only [rests, ways, List.map_eq_nil_iff]
  split <;> rfl

theorem rests_star :
    (star inner).rests cs = (inner.rests cs).flatMap (fun rest =>
      if rest.length < cs.length then (star inner).rests rest else [rest]) ++ [cs] := by
  have step : (star inner).rests cs = (repeats inner.ways cs).map Prod.snd := by
    simp only [rests, ways, List.map_map, Function.comp_def]
  rw [step, repeats, List.map_append, List.map_flatMap, rests, List.flatMap_map]
  congr 1
  refine List.flatMap_congr fun way _ => ?_
  split
  · simp only [rests, ways, List.map_map, Function.comp_def]
  · rfl

theorem rests_star_seq : (seq (star inner) second).rests cs =
    (inner.rests cs).flatMap (fun rest =>
      if rest.length < cs.length then (seq (star inner) second).rests rest else second.rests rest) ++
      second.rests cs := by
  rw [rests_seq, rests_star, List.flatMap_append, List.flatMap_singleton, List.flatMap_assoc]
  congr 1
  refine List.flatMap_congr fun rest _ => ?_
  split
  · rw [rests_seq]
  · rw [List.flatMap_singleton]

theorem rests_star_seq_of_nil (stuck : inner.rests cs = []) : (seq (star inner) second).rests cs = second.rests cs := by
  rw [rests_star_seq, stuck]
  rfl

theorem rests_star_seq_of_singleton (single : inner.rests cs = [rest]) (shorter : rest.length < cs.length)
    (inside : second.rests cs = []) : (seq (star inner) second).rests cs = (seq (star inner) second).rests rest := by
  rw [rests_star_seq, single, List.flatMap_singleton, if_pos shorter, inside, List.append_nil]

/-- Of the ways to match a run only the longest counts if what comes behind it cannot start inside it. -/
theorem rests_run_seq (outside : ∀ c rest, p c = true → second.rests (c :: rest) = []) :
    (seq (star (one p)) second).rests cs = second.rests (cs.dropWhile p) := by
  induction cs with
  | nil => simp [rests_star]
  | cons c cs ih =>
    rw [rests_seq] at ih ⊢
    rw [rests_star, rests_one_cons]
    by_cases more : p c = true
    · -- To stop in front of `c` comes last, and nothing goes on from there.
      simp [more, ih, outside c cs more]
    · simp [more]

theorem head?_rests_run : ((star (one p)).rests cs).head? = some (cs.dropWhile p) := by
  induction cs with
  | nil => simp [rests_star]
  | cons c cs ih =>
    rw [rests_star, rests_one_cons]
    by_cases more : p c = true
    · simp [more, ih]
    · simp [more]

theorem head?_rests_plus : ((plus (one p)).rests cs).head? =
    if cs.takeWhile p = [] then none else some (cs.dropWhile p) := by
  cases cs with
  | nil => rfl
  | cons c cs => by_cases front : p c = true <;> simp [plus, front, head?_rests_run]

theorem repeats_of_nil {ways : List Char → List (List Char × List Char)} (stuck : ways cs = []) :
    repeats ways cs = [([], cs)] := by
  rw [repeats, stuck]
  rfl

theorem head?_repeats {ways : List Char → List (List Char × List Char)} {taken last : List Char}
    {pieces : List (List Char)} (front : (ways cs).head? = some (taken, rest)) (shorter : rest.length < cs.length)
    (later : (repeats ways rest).head? = some (pieces, last)) :
    (repeats ways cs).head? = some (taken :: pieces, last) := by
  obtain ⟨others, first⟩ := List.head?_eq_some_iff.1 front
  rw [repeats, first, List.flatMap_cons, dif_pos shorter, List.append_assoc, List.head?_append, List.head?_map, later]
  rfl

theorem head?_plus {taken last : List Char} {pieces : List (List Char)}
    (front : (inner.ways cs).head? = some (taken, rest))
    (later : (repeats inner.ways rest).head? = some (pieces, last)) :
    ((plus inner).ways cs).head? = some (taken ++ pieces.flatten, last) := by
  obtain ⟨others, first⟩ := List.head?_eq_some_iff.1 front
  rw [plus, ways, first, List.flatMap_cons, List.head?_append, List.head?_map, ways, List.head?_map, later]
  rfl

end Pattern

end NodeDump
