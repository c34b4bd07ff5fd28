/-
`common/log.c`: what a LOG line does besides printing.

`_cceph_log` puts the entry together in a block of
`MAX_LOG_ENTRY_LENGTH` characters, by `sprintf` and `vsprintf`, and hands
the entry to `fprintf` as the format. So an entry that is too long is
written past the block, and one with a conversion in it makes `fprintf`
look for an argument nobody gave. Most lines print numbers and names of
the program; a line that prints a name a caller chose is modelled, by
`log`, at every place where the source has it.

The level of a line chooses between `stdout` and `stderr`, and no more.
-/
import CephInC.Common.CString

namespace CephInC

/-- `MAX_LOG_ENTRY_LENGTH`. -/
def maxLogEntryLength : Nat := 1024

/-- The characters of a string literal. -/
def ascii (s : String) : List UInt8 := s.toList.map fun c => UInt8.ofNat c.toNat

/-- `%ld`, and `%d`. -/
def decimal (n : Int) : List UInt8 :=
  (if n < 0 then [45] else [])
    ++ (Nat.toDigits 10 n.natAbs).map fun c => UInt8.ofNat c.toNat

/-- No conversion: every `%` is one of a pair. -/
def plainFormat : List UInt8 → Bool
  | [] => true
  | [c] => c ≠ 37
  | c :: d :: rest =>
      if c = 37 then d = 37 && plainFormat rest else plainFormat (d :: rest)

/-- A LOG line: its log id, where it stands, and what it prints. -/
structure LogLine where
  logId : Int64
  file : String
  line : Nat
  text : List UInt8
  deriving DecidableEq

namespace LogLine

/-- The entry. -/
def entry (l : LogLine) : List UInt8 :=
  ascii "[logid " ++ decimal l.logId.toInt ++ ascii "][" ++ ascii l.file ++ ascii ":"
    ++ decimal l.line ++ ascii "]" ++ l.text ++ ascii "\n"

/-- The entry and its terminator lie in the block, and `fprintf` asks for no
argument. -/
def Fits (l : LogLine) : Prop :=
  l.entry.length + 1 ≤ maxLogEntryLength ∧ plainFormat l.entry

instance (l : LogLine) : Decidable l.Fits :=
  inferInstanceAs (Decidable (_ ∧ _))

theorem text_le_entry (l : LogLine) : l.text.length ≤ l.entry.length := by
  unfold entry
  simp only [List.length_append]
  omega

/-- Where nothing is said, all of it fits. -/
theorem fits_of_mem_none : ∀ l ∈ (none : Option LogLine), l.Fits := nofun

/-- A text as long as the block does not fit. -/
theorem not_fits_of_long {l : LogLine} (h : maxLogEntryLength ≤ l.text.length) : ¬l.Fits := by
  intro hfits
  have hle := l.text_le_entry
  have hroom := hfits.1
  omega

end LogLine

/-- `LOG(level, log_id, fmt, ...)`. -/
def log (l : LogLine) : Except Fault Unit :=
  if l.Fits then .ok () else .error .outOfBounds

theorem log_fits {l : LogLine} (h : l.Fits) : log l = .ok () := if_pos h

theorem log_over {l : LogLine} (h : ¬l.Fits) : log l = .error .outOfBounds := if_neg h

/-- A name of plain letters fits. -/
example : (⟨7, "message/io.c", 63, ascii "send string x error: -1"⟩ : LogLine).Fits := by decide

/-- A `%s` in it does not. -/
example : ¬(⟨7, "message/io.c", 63, ascii "send string %s error: -1"⟩ : LogLine).Fits := by decide

end CephInC
