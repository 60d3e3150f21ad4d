import NodeDump.Proofs.Printer.Limit

/-!
The layout of a source under a limit, beside its layout without one. They differ only if the limit is reported,
which depends on the levels that are open when a construct is entered and on nothing else.
-/

namespace NodeDump

/-- The words that have been printed at some point of a layout without a limit, and the printer there. -/
def Prints (source : String) (width : Int) (words : List Word) (printer : Printer) : Prop :=
  ∃ cursor, Cursor.ofSource source = .ok cursor ∧ Printer.Reaches ⟨cursor, { width }, []⟩ words printer

namespace Prints

variable {source : String} {width : Int} {words : List Word} {printer : Printer}

theorem adds (prints : Prints source width words printer) : Page.Adds { width } printer.page words := by
  obtain ⟨cursor, -, reaches⟩ := prints
  exact reaches.adds (.refl _)

theorem levels (prints : Prints source width words printer) : openLevels words = printer.frames.length := by
  obtain ⟨cursor, -, reaches⟩ := prints
  have levels := reaches.levels
  simpa using levels.symm

end Prints

namespace Rendering

def TooDeep (rendering : Rendering) : Prop := ∃ token, rendering.fault? = some (.tooDeep token)

theorem tooDeep_ofOutcome {outcome : Printer.Outcome} :
    (ofOutcome outcome).TooDeep ↔ ∃ token left, outcome = .error (.tooDeep token) left := by
  constructor
  · rintro ⟨token, fault⟩
    cases outcome with
    | ok _ after =>
      simp only [ofOutcome, ofPrinted] at fault
      split at fault
      · contradiction
      · cases fault
    | error found after =>
      cases fault
      exact ⟨token, after, rfl⟩
  · rintro ⟨token, left, rfl⟩
    exact ⟨token, rfl⟩

end Rendering

variable {source : String} {width : Int} {cursor : Cursor} {bound : Nat} {words : List Word}
  {printer : Printer}

theorem format_of_cursor (begun : Cursor.ofSource source = .ok cursor) (limit : Option Nat) :
    format source width limit = Rendering.ofOutcome (Printer.finish ⟨cursor, { width }, []⟩ limit) := by
  rw [format, begun]
  rfl

theorem format_of_stray {fault : Fault} (failed : Cursor.ofSource source = .error fault) (limit : Option Nat) :
    format source width limit = ⟨"", some fault⟩ := by
  rw [format, failed]

theorem not_tooDeep_unlimited (source : String) (width : Int) : ¬(format source width none).TooDeep := by
  cases begun : Cursor.ofSource source with
  | error fault =>
    have scan := Cursor.scan_of_ofReader_error begun
    obtain ⟨c, line, column, rfl⟩ := Scan.stray_of_ending (congrArg Scan.ending scan)
    rintro ⟨token, same⟩
    rw [format_of_stray begun] at same
    cases same
  | ok cursor =>
    rw [format_of_cursor begun, Rendering.tooDeep_ofOutcome]
    rintro ⟨token, left, ended⟩
    exact Printer.finish_ne_tooDeep _ token left ended

/-- A layout is broken off where it would be too deep, on a page that it has without a limit too. -/
theorem tooDeep_of_full (prints : Prints source width words printer) (full : printer.Full bound) :
    (format source width (some bound)).TooDeep ∧
      ∃ more, (format source width none).text = (format source width (some bound)).text ++ more := by
  obtain ⟨cursor, begun, reaches⟩ := prints
  obtain ⟨token, left, ended, text⟩ := Printer.breaks_of_reaches reaches full
  rw [format_of_cursor begun, format_of_cursor begun, ended]
  exact ⟨⟨token, rfl⟩, text⟩

theorem format_of_room (room : ∀ words printer, Prints source width words printer → ¬printer.Full bound) :
    format source width (some bound) = format source width none := by
  cases begun : Cursor.ofSource source with
  | error fault => rw [format_of_stray begun, format_of_stray begun]
  | ok cursor =>
    have inside := Printer.finish_of_room fun words last reaches => room words last ⟨cursor, begun, reaches⟩
    rw [format_of_cursor begun, format_of_cursor begun, inside]

theorem tooDeep_iff : (format source width (some bound)).TooDeep ↔
    ∃ words printer, Prints source width words printer ∧ printer.Full bound := by
  constructor
  · intro reported
    by_contra nowhere
    have same : format source width (some bound) = format source width none :=
      format_of_room fun words printer prints full => nowhere ⟨words, printer, prints, full⟩
    rw [same] at reported
    exact not_tooDeep_unlimited source width reported
  · rintro ⟨words, printer, prints, full⟩
    exact (tooDeep_of_full prints full).1

/-- Unless the limit is reported, it changes nothing. It is not reported if no construct is entered with as
many open, and reported on a part of the same text if more than so many are ever open, whatever follows. -/
theorem format_limit (source : String) (width : Int) (bound : Nat) :
    (¬(format source width (some bound)).TooDeep →
      format source width (some bound) = format source width none) ∧
    ((∀ words printer, Prints source width words printer → printer.Enters → openLevels words < bound) →
      ¬(format source width (some bound)).TooDeep) ∧
    (∀ words printer, Prints source width words printer → bound < openLevels words →
      (format source width (some bound)).TooDeep ∧
        ∃ more, (format source width none).text = (format source width (some bound)).text ++ more) := by
  refine ⟨fun passed => ?_, fun room reported => ?_, fun words printer prints deep => ?_⟩
  · exact format_of_room fun words printer prints full => passed (tooDeep_iff.2 ⟨words, printer, prints, full⟩)
  · obtain ⟨words, printer, prints, enters, reached⟩ := tooDeep_iff.1 reported
    have levels := prints.levels
    have fewer := room words printer prints enters
    omega
  · have levels := prints.levels
    obtain ⟨cursor, begun, reaches⟩ := prints
    obtain ⟨before, now, reached, full⟩ := reaches.exists_full (Nat.zero_le bound) (by omega)
    exact tooDeep_of_full ⟨cursor, begun, reached⟩ full

-- A level that has been closed is open to the next element again.
example : (format "((1) (2) (((3))))" 1 (some 2)).text = "(\n (\n  1\n )\n (\n  2\n )\n (\n  " := by
  decide +kernel

end NodeDump
