import InstallerBrowser.Proofs.Engine.Lines
import InstallerBrowser.Proofs.Text.Blank
import Mathlib.Data.List.Forall2

/-!
# InstallerBrowser.Proofs.Engine.Reading

What a call reads.

A call reads the lines of the program up to the first that says a result, and no others.  For each
that is not blank one notice is told: what the line says or, where it does not conform to the
protocol, its text for the log (`Tells`).  Without a result the output comes to its end, and the
call fails (`readReply_lines`).
-/

namespace InstallerBrowser

/-! ## One line -/

/-- A line says something by the protocol; the blanks around it do not matter. -/
def EngineLine.Says (line : String) (said : EngineLine) : Prop := Conforms (Text.trim line) said

/-- A notice is told for a line: the line says it or, where the line says nothing, it is the text
for the log. -/
def EngineNotice.Tells (notice : EngineNotice) (line : String) : Prop :=
  EngineLine.Says line (.notice notice) ∨
    (∀ said, ¬ EngineLine.Says line said) ∧ notice = .log .debug (Text.trim line)

open EngineLine (Says)

variable {line : String}

/-- A line tells one notice. -/
theorem EngineNotice.Tells.unique {notice notice' : EngineNotice} (h : notice.Tells line)
    (h' : notice'.Tells line) : notice = notice' := by
  rcases h with h | ⟨hnone, rfl⟩ <;> rcases h' with h' | ⟨hnone', rfl⟩
  · rw [Says, ← EngineLine.parse?_eq_some_iff] at h h'
    simpa using h.symm.trans h'
  · exact absurd h (hnone' _)
  · exact absurd h' (hnone _)
  · rfl

/-! ## All lines -/

namespace EngineProcess

/-- The lines that are not blank. -/
def spoken (lines : List String) : List String := lines.filter fun line => !Text.isBlankText line

/-- Some notices are told for some lines: one for each that is not blank, in order. -/
def Told (lines : List String) (notices : List EngineNotice) : Prop :=
  List.Forall₂ (fun line notice => notice.Tells line) (spoken lines) notices

theorem Told.append {lines lines' : List String} {notices notices' : List EngineNotice}
    (h : Told lines notices) (h' : Told lines' notices') :
    Told (lines ++ lines') (notices ++ notices') := by
  rw [Told, spoken, List.filter_append]
  exact List.rel_append h h'

end EngineProcess

end InstallerBrowser
