import NodeDump.Proofs.Format.Arranged
import NodeDump.Proofs.Format.Dumps
import NodeDump.Proofs.Printer.Inset
import NodeDump.Proofs.Session.Follows
import NodeDump.Proofs.Session.Value

/-!
The layout of a part of a dump. A value that can be laid out alone is laid out alike wherever it stands, only set in
by the constructs around it.
-/

namespace NodeDump

/-- The second text is the first with blanks put behind each line feed that is not inside an atom. -/
def Inset (count : Nat) (text more : List Char) : Prop :=
  ∃ items last, Division text items last ∧ more = spell (insetItems count items) (inset count last)

theorem text_render (dump : Dump) (width : Int) :
    (dump.render (Page.newLine width) 0).toList = spell (arrange width [] dump.words) [] := by
  rw [dump.spell_arrange width (Word.starting_atom ""), List.append_nil]
  rfl

theorem division_of_accepted {source : String} {width : Int} {limit : Option Nat}
    (accepted : (format source width limit).fault? = none) :
    ∃ (dump : Dump) (last : Token), dump.Lexical ∧ (Scan.ofSource source).words = dump.words ∧
      (Scan.ofSource source).ending = .ok last ∧
      Division (format source width limit).text.toList (arrange width [] dump.words) [] := by
  obtain ⟨dump, room, same⟩ := dump_of_format accepted
  obtain ⟨words, last, ended⟩ := same source (by simp)
  obtain ⟨again, final, closed⟩ := same (format source width limit).text (by simp)
  refine ⟨dump, last, ?_, words, ended, ?_⟩
  · intro word member
    rw [← words] at member
    exact Scan.lexical_of_mem_words word member
  · refine division_of_arranged (Scan.tokenise_of_ending closed) again ?_ plain_nil
    rw [format_of_dump words ended room, text_render]

theorem Session.printValue_of_dump {source : String} {dump : Dump} {last : Token}
    (words : (Scan.ofSource source).words = dump.words) (ended : (Scan.ofSource source).ending = .ok last)
    (page : Page) :
    ∃ session after, Session.start source {} page = .ok session ∧ session.printValue = .ok none after ∧
      after.page = page.write (dump.render (Page.newLine page.width) page.depth) := by
  obtain ⟨cursor, begun, coming⟩ := Cursor.exists_ofSource ended
  rw [words] at coming
  have ready : Scan.Ready ⟨[], .ok last⟩ := Or.inr ⟨last, rfl⟩
  obtain ⟨after, -, printed⟩ := Printer.finish_value (.of_source begun) coming ready page (within_none _)
  refine ⟨⟨cursor, page⟩, ⟨after, page.write (dump.render (Page.newLine page.width) page.depth)⟩,
    start_eq (Cursor.ofStart_default_iff.2 begun) page, ?_, rfl⟩
  rw [Session.printValue, Printer.finishOn, printed]

/-- A value that is laid out alone is laid out alike on any page and in any other layout. Behind each line break
outside its atoms it is only set in by as many levels as the page is deep or as there are constructs around it. -/
theorem format_inset (source : String) (width : Nat) (limit : Option Nat)
    (accepted : (format source width limit).fault? = none) :
    (∀ (text : String) (depth : Nat), ∃ session after more,
      Session.start source {} ⟨text, depth, width⟩ = .ok session ∧ session.printValue = .ok none after ∧
      after.page = ⟨text ++ more, depth, width⟩ ∧
      Inset (width * depth) (format source width limit).text.toList more.toList) ∧
    ∀ (whole : String) (limit' : Option Nat) (front later : List Word),
      (format whole width limit').fault? = none →
      (Scan.ofSource whole).words = front ++ (Scan.ofSource source).words ++ later →
      ∃ items inside behind gap more,
        Division (format whole width limit').text.toList (items ++ inside ++ behind) [] ∧
        items.map Prod.snd = front ∧ inside.map Prod.snd = (Scan.ofSource source).words ∧
        behind.map Prod.snd = later ∧ spell inside [] = gap ++ more ∧ Plain gap ∧
        Inset (width * (openWords front).length) (format source width limit).text.toList more := by
  obtain ⟨dump, last, lexical, words, ended, division⟩ := division_of_accepted accepted
  have set_in (depth : Nat) : Inset (width * depth) (format source width limit).text.toList
      (spell (insetItems (width * depth) (arrange width [] dump.words)) []) := ⟨_, [], division, rfl⟩
  constructor
  · intro text depth
    obtain ⟨session, after, begun, printed, page⟩ := Session.printValue_of_dump words ended ⟨text, depth, width⟩
    refine ⟨session, after, dump.render (Page.newLine width) depth, begun, printed, page, ?_⟩
    rw [render_inset lexical]
    exact set_in depth
  · intro whole limit' front later accepted' same
    obtain ⟨outer, -, -, words', -, division'⟩ := division_of_accepted accepted'
    have walked := outer.walk
    have parts : outer.words = front ++ dump.words ++ later := by rw [← words', same, words]
    rw [parts, List.append_assoc, walk?_append] at walked
    obtain ⟨frames, walked, -⟩ := Option.bind_eq_some_iff.1 walked
    have level := (length_openWords walked).symm
    rw [parts, arrange_append, arrange_append, List.nil_append] at division'
    exact ⟨_, _, _, _, _, division', map_snd_arrange _ _ _, by rw [map_snd_arrange, words], map_snd_arrange _ _ _,
      spell_arrange_inset lexical (Word.starting_atom "") level, plain_lead _ _ _, set_in _⟩

/-- A node is set in on a page and in a row, and the line that an atom goes on with is left as it is. -/
theorem format_inset_row :
    (format "\x7bA :k 1\n[2]\x7d" (2 : Nat)).fault? = none ∧
    (∃ session after, Session.start "\x7bA :k 1\n[2]\x7d" {} ⟨"x", 1, 2⟩ = .ok session ∧
      session.printValue = .ok none after ∧ after.page = ⟨"x\x7bA\n    :k 1\n[2]\n  \x7d", 1, 2⟩ ∧
      Inset 2 "\x7bA\n  :k 1\n[2]\n\x7d".toList "\x7bA\n    :k 1\n[2]\n  \x7d".toList) ∧
    ∃ items inside behind gap more,
      Division "(o \x7bA\n    :k 1\n[2]\n  \x7d)".toList (items ++ inside ++ behind) [] ∧
      items.map Prod.snd = [(.arrayStart, "(o")] ∧ behind.map Prod.snd = [(.arrayEnd, ")")] ∧
      spell inside [] = gap ++ more ∧ Plain gap ∧ Inset 2 "\x7bA\n  :k 1\n[2]\n\x7d".toList more := by
  have text : format "\x7bA :k 1\n[2]\x7d" (2 : Nat) = ⟨"\x7bA\n  :k 1\n[2]\n\x7d", none⟩ := by decide +kernel
  have row : format "(o \x7bA :k 1\n[2]\x7d)" (2 : Nat) = ⟨"(o \x7bA\n    :k 1\n[2]\n  \x7d)", none⟩ := by
    decide +kernel
  have words : (Scan.ofSource "(o \x7bA :k 1\n[2]\x7d)").words =
      [(.arrayStart, "(o")] ++ (Scan.ofSource "\x7bA :k 1\n[2]\x7d").words ++ [(.arrayEnd, ")")] := by decide +kernel
  have seen : (Session.start "\x7bA :k 1\n[2]\x7d" {} ⟨"x", 1, 2⟩).toOption.map
      (fun session => (left session.printValue).page) =
        some ⟨"x\x7bA\n    :k 1\n[2]\n  \x7d", 1, 2⟩ := by decide +kernel
  have accepted : (format "\x7bA :k 1\n[2]\x7d" (2 : Nat)).fault? = none := by rw [text]
  have accepted' : (format "(o \x7bA :k 1\n[2]\x7d)" (2 : Nat)).fault? = none := by rw [row]
  obtain ⟨printed, within_row⟩ := format_inset "\x7bA :k 1\n[2]\x7d" 2 _ accepted
  refine ⟨accepted, ?_, ?_⟩
  · obtain ⟨session, after, more, begun, ended, page, set_in⟩ := printed "x" 1
    have printing : Session.start "\x7bA :k 1\n[2]\x7d" {} ⟨"x", 1, 2⟩ = .ok session := begun
    rw [printing, Except.toOption, Option.map_some, ended, Option.some.injEq] at seen
    have same : "x" ++ more = "x" ++ "\x7bA\n    :k 1\n[2]\n  \x7d" := congrArg Page.text (page.symm.trans seen)
    obtain rfl := (String.append_right_inj _).1 same
    rw [text] at set_in
    exact ⟨session, after, begun, ended, seen, set_in⟩
  · obtain ⟨items, inside, behind, gap, more, division, front, -, later, whole, plain, set_in⟩ :=
      within_row _ _ _ _ accepted' words
    rw [row] at division
    rw [text] at set_in
    exact ⟨items, inside, behind, gap, more, division, front, later, whole, plain, set_in⟩

end NodeDump
