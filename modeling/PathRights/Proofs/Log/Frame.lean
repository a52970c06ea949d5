import PathRights.Log.Journal

/-! What writing to a log does. Lines go to files and files change their places, but the directory
that relative paths start from stays where it is, and the console gets each line once. So a journal
that records messages writes the lines of those that it admits to the console, in their order. -/

namespace PathRights

namespace Disk

@[simp] theorem workingDirectory_rename (disk : Disk) (source target : List Text) :
    (disk.rename source target).workingDirectory = disk.workingDirectory := by
  unfold rename
  split <;> rfl

theorem absolute_congr {disk disk' : Disk} (h : disk.workingDirectory = disk'.workingDirectory)
    (path : Text) : disk.absolute path = disk'.absolute path := by
  unfold absolute
  rw [h]

end Disk

namespace Log

/-- Two outputs whose disks start relative paths from one directory. -/
def Output.SameStart (output output' : Output) : Prop :=
  output.disk.workingDirectory = output'.disk.workingDirectory

namespace Output

/-- Two outputs that differ at most in files: what is on the console and the directory that relative
paths start from are the same. -/
structure Beside (output output' : Output) : Prop where
  console : output.console = output'.console
  start : output.SameStart output'

theorem Beside.refl (output : Output) : output.Beside output := ⟨rfl, rfl⟩

theorem Beside.trans {output output' output'' : Output} (h : output.Beside output')
    (h' : output'.Beside output'') : output.Beside output'' :=
  ⟨h.console.trans h'.console, h.start.trans h'.start⟩

theorem beside_append (output : Output) (stream : Stream) (text : Text) :
    Beside (output.append stream text) output := by
  cases stream with
  | placed place => exact ⟨rfl, rfl⟩
  | displaced number => exact ⟨rfl, rfl⟩

theorem beside_move (output : Output) (source target : List Text) :
    Beside (output.move source target) output :=
  ⟨rfl, output.disk.workingDirectory_rename source target⟩

theorem beside_shiftBackups (file : LogFile) (output : Output) (count : Nat) :
    Beside (shiftBackups file output count) output := by
  induction count generalizing output with
  | zero => exact .refl _
  | succ number ih =>
    unfold shiftBackups
    refine (ih _).trans ?_
    split
    · have hmove := beside_move (output.discard (file.backupPlace (number + 2)))
        (file.backupPlace (number + 1)) (file.backupPlace (number + 2))
      exact ⟨hmove.console, hmove.start⟩
    · exact .refl _

theorem beside_makeBackup (file : LogFile) (output : Output) :
    Beside (makeBackup file output) output := by
  unfold makeBackup
  split
  · exact .refl _
  · have hmove := beside_move ((shiftBackups file output (file.backups - 1)).discard
      (file.backupPlace 1)) file.place (file.backupPlace 1)
    have hshift := beside_shiftBackups file output (file.backups - 1)
    exact ⟨hmove.console.trans hshift.console, hmove.start.trans hshift.start⟩

theorem beside_writeTo (line : Text) (output : Output) (number : Nat) :
    Beside (writeTo line output number) output := by
  unfold writeTo
  split
  · exact .refl _
  · next file _ =>
    split
    · have hbackup := beside_makeBackup file output
      have happend := beside_append (output.rotate number file) (.placed file.place) line
      exact ⟨happend.console.trans hbackup.console, happend.start.trans hbackup.start⟩
    · exact beside_append _ _ _

theorem beside_foldl_writeTo (line : Text) (numbers : List Nat) (output : Output) :
    Beside (numbers.foldl (writeTo line) output) output := by
  induction numbers generalizing output with
  | nil => exact .refl _
  | cons number numbers ih => exact (ih _).trans (beside_writeTo line output number)

theorem sameStart_write (output : Output) (line : Text) : SameStart (output.write line) output :=
  (beside_foldl_writeTo (line ++ "\n") _ { output with console := output.console ++ [line] }).start

theorem console_write (output : Output) (line : Text) :
    (output.write line).console = output.console ++ [line] :=
  (beside_foldl_writeTo (line ++ "\n") _
    { output with console := output.console ++ [line] }).console

end Output

theorem Journal.sameStart_emit (journal : Journal) (record : Record) (mark : Text)
    (output : Output) : (journal.emit record mark output).SameStart output := by
  unfold emit
  split
  · exact Output.sameStart_write _ _
  · exact Eq.refl _

theorem Journal.sameStart_log (journal : Journal) (level : Level) (message : Text)
    (context : Context) (output : Output) :
    (journal.log level message context output).SameStart output := journal.sameStart_emit _ _ _

theorem Journal.sameStart_foldl_log {α : Type} (journal : Journal) (level : Level)
    (message : α → Text) (items : List α) (output : Output) :
    Output.SameStart
      (items.foldl (fun output item => journal.log level (message item) [] output) output)
      output := by
  induction items generalizing output with
  | nil => exact Eq.refl _
  | cons item items ih => exact (ih _).trans (journal.sameStart_log _ _ _ _)

/-! ### Messages in a row -/

namespace Journal

/-- The line of a message that has no values of its own. -/
def line (journal : Journal) (entry : Level × Text) : Text :=
  Record.line ⟨entry.1, entry.2, journal.context⟩ journal.time journal.title

/-- Records messages one after the other, each at its level. -/
def logAll (journal : Journal) (entries : List (Level × Text)) (output : Output) : Output :=
  entries.foldl (fun output entry => journal.log entry.1 entry.2 [] output) output

theorem logAll_append (journal : Journal) (entries more : List (Level × Text)) (output : Output) :
    journal.logAll (entries ++ more) output = journal.logAll more (journal.logAll entries output) :=
  List.foldl_append

theorem foldl_log {α : Type} (journal : Journal) (level : Level) (message : α → Text)
    (items : List α) (output : Output) :
    items.foldl (fun output item => journal.log level (message item) [] output) output =
      journal.logAll (items.map fun item => (level, message item)) output := by
  unfold logAll
  rw [List.foldl_map]

theorem console_emit (journal : Journal) (record : Record) (mark : Text) (output : Output) :
    (journal.emit record mark output).console =
      output.console ++
        if journal.admits record.level then [record.line journal.time journal.title ++ mark]
        else [] := by
  unfold emit
  split
  · exact Output.console_write _ _
  · exact (List.append_nil _).symm

theorem console_log (journal : Journal) (level : Level) (message : Text) (output : Output) :
    (journal.log level message [] output).console =
      output.console ++ if journal.admits level then [journal.line (level, message)] else [] := by
  have hconsole := journal.console_emit ⟨level, message, journal.context⟩ [] output
  rw [List.append_nil] at hconsole
  exact hconsole

/-- The console gets the lines of the messages that are admitted, in their order. -/
theorem console_logAll (journal : Journal) (entries : List (Level × Text)) (output : Output) :
    (journal.logAll entries output).console =
      output.console ++ (entries.filter fun entry => journal.admits entry.1).map journal.line := by
  induction entries generalizing output with
  | nil => exact (List.append_nil _).symm
  | cons entry entries ih =>
    have hrest := ih (journal.log entry.1 entry.2 [] output)
    rw [console_log] at hrest
    show (journal.logAll entries (journal.log entry.1 entry.2 [] output)).console = _
    rw [hrest, List.filter_cons]
    cases journal.admits entry.1 with
    | true => simp
    | false => simp

end Journal

end Log

end PathRights
