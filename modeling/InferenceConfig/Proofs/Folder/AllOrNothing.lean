import InferenceConfig.Proofs.Folder.Conversion

/-!
# What an Operation on Files Changes

Reading a message changes no file. Writing one changes the file that its path denotes and no
other one, and if it fails it changes nothing. A conversion reads before it writes, so it
writes the message as the input held it before, even if the output is the same file.

Five things can be wrong with a conversion, and each is wrong or not whatever the others are.
The error that is reported is the first of them, in the order in which the conversion proceeds.

## Main definitions

* `Folder.Overwrites` — one file has new bytes, and everything else is as before;
* `FileTask.ConvertFault` — what can be wrong with a conversion, stage by stage;
* `Command.Succeeds`, `Command.leaves`, `Command.output?` — whether a command's operation
  succeeds, the folder that it leaves behind, and the file that it writes;
* `Run.folderAfter` — the folder after runs of the program, one after another.

## Main results

* `FileTask.value_run_convert_eq_error_iff` — the error that a conversion reports;
* `FileTask.all_or_nothing` — operations on files, and runs of the program, as a whole;
* `Run.node?_folderAfter` — what no run writes to is the same after all of them.
-/

namespace InferenceConfig

/-- One file has new bytes, and everything else is as before. -/
structure Folder.Overwrites (before after : Folder) (location : Location)
    (bytes : List UInt8) : Prop where
  /-- The path denotes a place, where the bytes are afterwards. -/
  nodes : ∃ place, before.target location = .ok place ∧ ∀ other,
    after.node? other = if other = place then some (.file bytes) else before.node? other
  /-- The bytes are read back. -/
  read : after.read location = .ok bytes

/-- Writing a file overwrites it. -/
theorem Folder.overwrites_of_write {folder changed : Folder} {location : Location}
    {bytes : List UInt8} (h : folder.write location bytes = .ok changed) :
    folder.Overwrites changed location bytes := by
  obtain ⟨place, htarget, hnode, rfl⟩ := write_eq_ok_iff.mp h
  exact ⟨⟨place, htarget, node?_put (ne_nil_of_node? hnode) (.file bytes)⟩, read_of_write h⟩

namespace FileTask

variable {kind : Kind} {folder changed : Folder} {input output location : Location}
  {explicit source target : Option Format} {e : FileError}

/-! ### Tasks that fail -/

/-- Why no message is read from a file. -/
theorem value_run_readMessage_eq_error_iff :
    ((readMessage kind location explicit).run folder).value = .error e ↔
      Format.resolve? explicit location = none ∧ .unknownFormat location = e ∨
      ∃ format, Format.resolve? explicit location = some format ∧
        ((∃ cause, folder.read location = .error cause ∧ .read location cause = e) ∨
          ∃ bytes cause, folder.read location = .ok bytes ∧
            Document.decode kind format bytes = .error cause ∧
            .malformed location cause = e) := by
  rw [readMessage]
  cases Format.resolve? explicit location with
  | none => simp [run]
  | some format =>
      simp only [run]
      cases folder.read location with
      | error cause => simp [run]
      | ok bytes =>
          simp only [run, run_logAll, Document.snd_decodeTraced]
          cases hdecode : Document.decode kind format bytes <;> simp [run, hdecode]

/-- Why a message is not written to a file, and that nothing is changed then. -/
theorem run_writeMessage_eq_error_iff {message : Message kind} :
    ((writeMessage message location explicit).run folder).value = .error e ∧
        ((writeMessage message location explicit).run folder).folder = changed ↔
      folder = changed ∧
        (Format.resolve? explicit location = none ∧ .unknownFormat location = e ∨
          ∃ format cause, Format.resolve? explicit location = some format ∧
            folder.write location (Document.encode format message) = .error cause ∧
            .write location cause = e) := by
  rw [writeMessage]
  cases Format.resolve? explicit location with
  | none => simp [run, and_comm]
  | some format =>
      simp only [run]
      split
      · next hwrite => simp [hwrite, and_comm]
      · next hwrite => simp [hwrite]

/-- A conversion fails exactly if no message is read, or it is read and not written. Nothing is
changed then. -/
theorem run_convert_eq_error_iff :
    ((convert kind input source output target).run folder).value = .error e ∧
        ((convert kind input source output target).run folder).folder = changed ↔
      folder = changed ∧
        (((readMessage kind input source).run folder).value = .error e ∨
          ∃ message : Message kind,
            ((readMessage kind input source).run folder).value = .ok message ∧
            ((writeMessage message output target).run folder).value = .error e) := by
  rw [convert, run_bind]
  simp only [folder_run_readMessage]
  cases ((readMessage kind input source).run folder).value with
  | error cause => simp [run, and_comm]
  | ok message =>
      have hfolder (hvalue : ((writeMessage message output target).run folder).value = .error e) :
          folder = ((writeMessage message output target).run folder).folder :=
        (run_writeMessage_eq_error_iff.mp ⟨hvalue, rfl⟩).1
      simp only [reduceCtorEq, Except.ok.injEq, exists_eq_left', false_or]
      constructor
      · rintro ⟨hvalue, rfl⟩
        exact ⟨hfolder hvalue, hvalue⟩
      · rintro ⟨rfl, hvalue⟩
        exact ⟨hvalue, (hfolder hvalue).symm⟩

/-! ### The error of a conversion -/

/-- What can be wrong with a conversion, with the stage at which it is noticed and the error
that it is reported as. -/
inductive ConvertFault (kind : Kind) (folder : Folder) (input : Location)
    (source : Option Format) (output : Location) (target : Option Format) :
    (stage : Nat) → FileError → Prop
  | inputFormat : Format.resolve? source input = none →
      ConvertFault kind folder input source output target 0 (.unknownFormat input)
  | unreadable {cause : IoError} : folder.read input = .error cause →
      ConvertFault kind folder input source output target 1 (.read input cause)
  | malformed {format : Format} {bytes : List UInt8} {cause : Document.Error} :
      Format.resolve? source input = some format → folder.read input = .ok bytes →
      Document.decode kind format bytes = .error cause →
      ConvertFault kind folder input source output target 2 (.malformed input cause)
  | outputFormat : Format.resolve? target output = none →
      ConvertFault kind folder input source output target 3 (.unknownFormat output)
  | unwritable {cause : IoError} : (∀ bytes, folder.write output bytes = .error cause) →
      ConvertFault kind folder input source output target 4 (.write output cause)

/-- A fault is the first one of a conversion. -/
def FirstConvertFault (kind : Kind) (folder : Folder) (input : Location)
    (source : Option Format) (output : Location) (target : Option Format) (e : FileError) :
    Prop :=
  ∃ stage, ConvertFault kind folder input source output target stage e ∧
    ∀ earlier < stage, ∀ other,
      ¬ ConvertFault kind folder input source output target earlier other

/-- At each stage there is one fault at most. -/
theorem ConvertFault.unique {stage : Nat} {other : FileError}
    (h : ConvertFault kind folder input source output target stage e)
    (hother : ConvertFault kind folder input source output target stage other) : e = other := by
  cases h with
  | inputFormat _ => cases hother; rfl
  | unreadable hread =>
      cases hother with
      | unreadable hread' =>
          rw [hread, Except.error.injEq] at hread'
          rw [hread']
  | malformed hformat hread hdecode =>
      cases hother with
      | malformed hformat' hread' hdecode' =>
          rw [hformat, Option.some.injEq] at hformat'
          rw [hread, Except.ok.injEq] at hread'
          rw [← hformat', ← hread', hdecode, Except.error.injEq] at hdecode'
          rw [hdecode']
  | outputFormat _ => cases hother; rfl
  | unwritable hwrite =>
      cases hother with
      | unwritable hwrite' =>
          have hcause := (hwrite []).symm.trans (hwrite' [])
          rw [Except.error.inj hcause]

/-- A conversion has at most one first fault. -/
theorem FirstConvertFault.unique {other : FileError}
    (h : FirstConvertFault kind folder input source output target e)
    (hother : FirstConvertFault kind folder input source output target other) : e = other := by
  obtain ⟨stage, hfault, hfirst⟩ := h
  obtain ⟨stage', hfault', hfirst'⟩ := hother
  rcases Nat.lt_trichotomy stage stage' with hlt | rfl | hlt
  · exact absurd hfault (hfirst' stage hlt e)
  · exact hfault.unique hfault'
  · exact absurd hfault' (hfirst stage' hlt other)

/-- If a message is read then the first three stages are without fault. -/
theorem not_convertFault_of_read {message : Message kind}
    (h : ((readMessage kind input source).run folder).value = .ok message) {stage : Nat}
    (hstage : stage < 3) :
    ¬ ConvertFault kind folder input source output target stage e := by
  obtain ⟨format, bytes, hformat, hread, hdecode⟩ := value_run_readMessage_eq_ok_iff.mp h
  intro hfault
  cases hfault with
  | inputFormat hnone => simp [hformat] at hnone
  | unreadable hread' => simp [hread] at hread'
  | malformed hformat' hread' hdecode' =>
      rw [hformat, Option.some.injEq] at hformat'
      rw [hread, Except.ok.injEq] at hread'
      rw [← hformat', ← hread', hdecode] at hdecode'
      simp at hdecode'
  | outputFormat _ => omega
  | unwritable _ => omega

/-- The error of a conversion is its first fault. One case for each stage. -/
theorem firstConvertFault_of_run
    (h : ((convert kind input source output target).run folder).value = .error e) :
    FirstConvertFault kind folder input source output target e := by
  obtain ⟨-, hread | ⟨message, hread, hwrite⟩⟩ := run_convert_eq_error_iff.mp ⟨h, rfl⟩
  · rcases value_run_readMessage_eq_error_iff.mp hread with
      ⟨hnone, rfl⟩ | ⟨format, hformat, ⟨cause, hcause, rfl⟩ | ⟨bytes, cause, hbytes, hcause, rfl⟩⟩
    · exact ⟨0, .inputFormat hnone, fun earlier hearlier => absurd hearlier earlier.not_lt_zero⟩
    · refine ⟨1, .unreadable hcause, fun earlier hearlier other hfault => ?_⟩
      cases hfault with
      | inputFormat hnone => simp [hformat] at hnone
      | _ => omega
    · refine ⟨2, .malformed hformat hbytes hcause, fun earlier hearlier other hfault => ?_⟩
      cases hfault with
      | inputFormat hnone => simp [hformat] at hnone
      | unreadable hunreadable => simp [hbytes] at hunreadable
      | _ => omega
  · obtain ⟨-, ⟨hnone, rfl⟩ | ⟨format, cause, hformat, hcause, rfl⟩⟩ :=
      run_writeMessage_eq_error_iff.mp ⟨hwrite, rfl⟩
    · exact ⟨3, .outputFormat hnone, fun earlier hearlier other =>
        not_convertFault_of_read hread hearlier⟩
    · have hunwritable (bytes : List UInt8) : folder.write output bytes = .error cause :=
        Folder.write_eq_error_iff.mpr (Folder.write_eq_error_iff.mp hcause)
      refine ⟨4, .unwritable hunwritable, fun earlier hearlier other hfault => ?_⟩
      rcases Nat.lt_or_eq_of_le (Nat.lt_succ_iff.mp hearlier) with hlt | rfl
      · exact not_convertFault_of_read hread hlt hfault
      · cases hfault with
        | outputFormat hnone => simp [hformat] at hnone

/-- A conversion that succeeds has no fault. -/
theorem not_convertFault_of_run {stage : Nat}
    (h : ((convert kind input source output target).run folder).value = .ok ()) :
    ¬ ConvertFault kind folder input source output target stage e := by
  obtain ⟨message, format, hread, hformat, hwrite⟩ := run_convert_eq_ok_iff.mp ⟨h, rfl⟩
  intro hfault
  have hlate : ¬ stage < 3 := fun hstage => not_convertFault_of_read hread hstage hfault
  cases hfault with
  | outputFormat hnone => simp [hformat] at hnone
  | unwritable hunwritable => simp [hunwritable] at hwrite
  | _ => omega

/-- The error of a conversion is exactly its first fault. -/
theorem value_run_convert_eq_error_iff :
    ((convert kind input source output target).run folder).value = .error e ↔
      FirstConvertFault kind folder input source output target e := by
  refine ⟨firstConvertFault_of_run, fun hfirst => ?_⟩
  cases hvalue : ((convert kind input source output target).run folder).value with
  | ok result =>
      obtain ⟨stage, hfault, -⟩ := hfirst
      exact absurd hfault (not_convertFault_of_run hvalue)
  | error found => rw [(firstConvertFault_of_run hvalue).unique hfirst]

end FileTask

/-! ### Commands -/

/-- The operation of a command succeeds. -/
def Command.Succeeds (folder : Folder) : (command : Command) → Prop
  | .convert kind input source output target =>
    ((FileTask.convert kind input source output target).run folder).value = .ok ()
  | .report kind input source =>
    ∃ message, ((FileTask.readMessage kind input source).run folder).value = .ok message

/-- The file that a command writes, if any. -/
def Command.output? : (command : Command) → Option Location
  | .convert _ _ _ output _ => some output
  | .report _ _ _ => none

/-- The folder that the operation of a command leaves behind. -/
def Command.leaves (folder : Folder) : (command : Command) → Folder
  | .convert kind input source output target =>
    ((FileTask.convert kind input source output target).run folder).folder
  | .report _ _ _ => folder

namespace Command

variable {folder : Folder}

/-- A conversion that succeeds overwrites its output with the message that the input held
before. -/
theorem exists_overwrites_of_convert {kind : Kind} {input output : Location}
    {source target : Option Format} {result : FileTask.Result (Except FileError Unit)}
    (hresult : (FileTask.convert kind input source output target).run folder = result)
    (h : result.value = .ok ()) :
    ∃ format bytes, Format.resolve? source input = some format ∧
      folder.read input = .ok bytes ∧
      ∃ message, Document.decode kind format bytes = .ok message ∧
        ∃ format', Format.resolve? target output = some format' ∧
          folder.Overwrites result.folder output (Document.encode format' message) := by
  subst hresult
  obtain ⟨message, format', hread, hformat', hwrite⟩ :=
    FileTask.run_convert_eq_ok_iff.mp ⟨h, rfl⟩
  obtain ⟨format, bytes, hformat, hbytes, hdecode⟩ :=
    FileTask.value_run_readMessage_eq_ok_iff.mp hread
  exact ⟨format, bytes, hformat, hbytes, message, hdecode, format', hformat',
    Folder.overwrites_of_write hwrite⟩

/-- A command leaves the folder as it is, or puts a file where its output was no directory. -/
theorem leaves_eq_self_or_put (command : Command) (folder : Folder) :
    command.leaves folder = folder ∨
      ∃ output place bytes, command.output? = some output ∧
        folder.target output = .ok place ∧ folder.node? place ≠ some .directory ∧
        folder.put place (.file bytes) = command.leaves folder := by
  cases command with
  | convert kind input source output target =>
      cases hvalue : ((FileTask.convert kind input source output target).run folder).value with
      | error e => exact .inl (FileTask.run_convert_eq_error_iff.mp ⟨hvalue, rfl⟩).1.symm
      | ok result =>
          obtain ⟨message, format, -, -, hwrite⟩ :=
            FileTask.run_convert_eq_ok_iff.mp ⟨hvalue, rfl⟩
          obtain ⟨place, htarget, hnode, hput⟩ := Folder.write_eq_ok_iff.mp hwrite
          exact .inr ⟨output, place, _, rfl, htarget, hnode, hput⟩
  | report kind input source => exact .inl rfl

/-- The folder after a command is the one that its operation leaves behind. -/
theorem folder_run_task (command : Command) (folder : Folder) :
    (command.task.run folder).folder = command.leaves folder := by
  cases command with
  | convert kind input source output target =>
      rw [task, FileTask.run_bind, leaves]
      dsimp only
      split <;> rfl
  | report kind input source =>
      rw [task, FileTask.run_bind]
      dsimp only
      split <;> exact FileTask.folder_run_readMessage kind input source folder

/-- A command whose operation succeeds ends with the exit code 0. -/
theorem exit_run_task_of_succeeds {command : Command} (h : command.Succeeds folder) :
    (command.task.run folder).value.exit = 0 := by
  cases command with
  | convert kind input source output target =>
      have hvalue : ((FileTask.convert kind input source output target).run folder).value =
        .ok () := h
      rw [task, FileTask.run_bind]
      simp only [hvalue, FileTask.run]
  | report kind input source =>
      obtain ⟨message, hvalue⟩ := h
      rw [FileTask.value_run_report, hvalue]

/-- A command whose operation fails ends with a report on its error, and changes nothing. -/
theorem run_task_of_not_succeeds {command : Command} (h : ¬ command.Succeeds folder) :
    ∃ e, (command.task.run folder).value = .failed e ∧ command.leaves folder = folder := by
  cases command with
  | convert kind input source output target =>
      cases hvalue : ((FileTask.convert kind input source output target).run folder).value with
      | ok result => exact absurd hvalue h
      | error e =>
          refine ⟨e, ?_, (FileTask.run_convert_eq_error_iff.mp ⟨hvalue, rfl⟩).1.symm⟩
          rw [task, FileTask.run_bind]
          simp only [hvalue, FileTask.run]
  | report kind input source =>
      cases hvalue : ((FileTask.readMessage kind input source).run folder).value with
      | ok message => exact absurd ⟨message, hvalue⟩ h
      | error e => exact ⟨e, by rw [FileTask.value_run_report, hvalue], rfl⟩

end Command

/-! ### Runs of the program -/

namespace Run

variable {folder : Folder} {arguments : List String}

/-- A run with valid usage leaves behind what its command does, and ends as it does. -/
theorem ofArguments_of_parse {invocation : Invocation}
    (h : Invocation.parse arguments = .ok invocation) :
    (ofArguments folder arguments).folder = invocation.command.leaves folder ∧
      (ofArguments folder arguments).outcome =
        (invocation.command.task.run folder).value := by
  simp only [ofArguments, plan, h, Command.folder_run_task, and_self]

/-- A run without valid usage leaves the folder as it is. -/
theorem folder_ofArguments_of_error {detour : Detour}
    (h : Invocation.parse arguments = .error detour) :
    (ofArguments folder arguments).folder = folder := by
  simp only [ofArguments, plan, h, FileTask.run]

/-- A run leaves the folder as it is, or puts a file where the output of its command was no
directory. -/
theorem folder_ofArguments_eq_self_or_put (folder : Folder) (arguments : List String) :
    (ofArguments folder arguments).folder = folder ∨
      ∃ invocation output place bytes, Invocation.parse arguments = .ok invocation ∧
        invocation.command.output? = some output ∧
        folder.target output = .ok place ∧ folder.node? place ≠ some .directory ∧
        folder.put place (.file bytes) = (ofArguments folder arguments).folder := by
  cases hparse : Invocation.parse arguments with
  | error detour => exact .inl (folder_ofArguments_of_error hparse)
  | ok invocation =>
      rw [(ofArguments_of_parse hparse).1]
      rcases invocation.command.leaves_eq_self_or_put folder with
        hsame | ⟨output, place, bytes, houtput, htarget, hnode, hput⟩
      · exact .inl hsame
      · exact .inr ⟨invocation, output, place, bytes, rfl, houtput, htarget, hnode, hput⟩

/-- A run does not change which place a path denotes. -/
theorem target_ofArguments_iff {location : Location} {place : Place} :
    (ofArguments folder arguments).folder.target location = .ok place ↔
      folder.target location = .ok place := by
  rcases folder_ofArguments_eq_self_or_put folder arguments with
    hsame | ⟨_, _, written, bytes, _, _, _, hnode, hput⟩
  · rw [hsame]
  · rw [← hput, Folder.target_put_file_iff hnode]

/-- The folder after runs of the program, one after another. -/
def folderAfter (folder : Folder) (runs : List (List String)) : Folder :=
  runs.foldl (fun folder arguments => (ofArguments folder arguments).folder) folder

/-- A place that no run writes to is the same after all of them. Induction on the runs: which
places they write to is decided in the first folder. -/
theorem node?_folderAfter {runs : List (List String)} {place : Place}
    (h : ∀ arguments ∈ runs, ∀ invocation output,
      Invocation.parse arguments = .ok invocation → invocation.command.output? = some output →
        folder.target output ≠ .ok place) :
    (folderAfter folder runs).node? place = folder.node? place := by
  induction runs generalizing folder with
  | nil => rfl
  | cons arguments runs ih =>
      have hlater : ∀ later ∈ runs, ∀ invocation output,
          Invocation.parse later = .ok invocation → invocation.command.output? = some output →
            (ofArguments folder arguments).folder.target output ≠ .ok place := by
        intro later hmem invocation output hparse houtput htarget
        exact h later (List.mem_cons_of_mem _ hmem) invocation output hparse houtput
          (target_ofArguments_iff.mp htarget)
      rw [folderAfter, List.foldl_cons, ← folderAfter, ih hlater]
      rcases folder_ofArguments_eq_self_or_put folder arguments with
        hsame | ⟨invocation, output, written, bytes, hparse, houtput, htarget, hnode, hput⟩
      · rw [hsame]
      · have hother : place ≠ written := by
          rintro rfl
          exact h arguments List.mem_cons_self invocation output hparse houtput htarget
        rw [← hput, Folder.node?_put (Folder.ne_nil_of_node? hnode), if_neg hother]

end Run

/-- **Operations on files are all or nothing.** Reading a message changes nothing. Writing one,
or converting a file, overwrites the output with the document of the message and changes
nothing else, or fails and changes nothing at all. The message of a conversion is what the
input held before, also if the output is the same file, and the error that it reports is the
first of its faults.

With valid usage a run of the program leaves behind what its operation does, and ends with the
exit code 0 if the operation succeeds and with 1 if it fails; then nothing is printed on
standard output. -/
theorem FileTask.all_or_nothing (folder : Folder) (kind : Kind) :
    (∀ location explicit, ((readMessage kind location explicit).run folder).folder = folder) ∧
    (∀ (message : Message kind) location explicit,
      let result := (writeMessage message location explicit).run folder
      (∀ e, result.value = .error e → result.folder = folder) ∧
      (result.value = .ok () → ∃ format, Format.resolve? explicit location = some format ∧
        folder.Overwrites result.folder location (Document.encode format message))) ∧
    (∀ input source output target,
      let result := (convert kind input source output target).run folder
      (∀ e, result.value = .error e → result.folder = folder) ∧
      (∀ e, result.value = .error e ↔
        FirstConvertFault kind folder input source output target e) ∧
      (result.value = .ok () → ∃ format bytes, Format.resolve? source input = some format ∧
        folder.read input = .ok bytes ∧
        ∃ message, Document.decode kind format bytes = .ok message ∧
          ∃ format', Format.resolve? target output = some format' ∧
            folder.Overwrites result.folder output (Document.encode format' message))) ∧
    (∀ arguments invocation, Invocation.parse arguments = .ok invocation →
      let run := Run.ofArguments folder arguments
      run.folder = invocation.command.leaves folder ∧
      (run.outcome.exit = 0 ↔ invocation.command.Succeeds folder) ∧
      (run.outcome.exit = 1 ↔ ¬ invocation.command.Succeeds folder) ∧
      (run.outcome.exit = 1 → run.outcome.output = "" ∧ run.folder = folder)) := by
  refine ⟨fun location explicit => folder_run_readMessage kind location explicit folder,
    fun message location explicit => ⟨fun e h => ?_, fun h => ?_⟩,
    fun input source output target => ⟨fun e h => ?_, fun e => value_run_convert_eq_error_iff,
      Command.exists_overwrites_of_convert rfl⟩, fun arguments invocation h => ?_⟩
  · exact (run_writeMessage_eq_error_iff.mp ⟨h, rfl⟩).1.symm
  · obtain ⟨format, hformat, hwrite⟩ := run_writeMessage_eq_ok_iff.mp ⟨h, rfl⟩
    exact ⟨format, hformat, Folder.overwrites_of_write hwrite⟩
  · exact (run_convert_eq_error_iff.mp ⟨h, rfl⟩).1.symm
  · obtain ⟨hfolder, houtcome⟩ := @Run.ofArguments_of_parse folder _ _ h
    simp only [hfolder, houtcome]
    by_cases hsucceeds : invocation.command.Succeeds folder
    · simp [Command.exit_run_task_of_succeeds hsucceeds, hsucceeds]
    · obtain ⟨e, hvalue, hleaves⟩ := Command.run_task_of_not_succeeds hsucceeds
      simp [hvalue, hsucceeds, hleaves, Outcome.failed]

open FileTask in
/-- A text file becomes a binary file in place. It cannot be shown as a message of the other
kind, and then it stays as it is. -/
theorem FileTask.all_or_nothing_in_place :
    let text := Utf8.encode "tag: \"é\"\n".toList
    let folder : Folder := ⟨[([[0x61]], .file text)]⟩
    let converted := Run.ofArguments folder
      ["convert", "--kind=model", "-i", "a", "-o", "a", "--from", "text", "--to", "binary"]
    let refused := Run.ofArguments folder ["show", "--kind=data", "-i", "a", "--from=text"]
    converted.outcome.exit = 0 ∧
      folder.Overwrites converted.folder ⟨[0x61]⟩ [0x2A, 0x02, 0xC3, 0xA9] ∧
      refused.outcome.exit = 1 ∧ refused.outcome.output = "" ∧ refused.folder = folder := by
  intro text folder converted refused
  obtain ⟨-, -, hconvert, hrun⟩ := all_or_nothing folder .model
  have hparse : Invocation.parse ["convert", "--kind=model", "-i", "a", "-o", "a", "--from",
      "text", "--to", "binary"] =
        .ok ⟨"warn", .convert .model ⟨[0x61]⟩ (some .text) ⟨[0x61]⟩ (some .binary)⟩ := by
    decide +kernel
  have hrefused : Invocation.parse ["show", "--kind=data", "-i", "a", "--from=text"] =
      .ok ⟨"warn", .report .data ⟨[0x61]⟩ (some .text)⟩ := by
    decide +kernel
  have hconverted : ((convert .model ⟨[0x61]⟩ (some .text) ⟨[0x61]⟩ (some .binary)).run
      folder).value = .ok () := by decide +kernel
  have hmessage : Document.decode .model .text text = .ok ⟨[], ["é"]⟩ := by decide +kernel
  have hread : folder.read ⟨[0x61]⟩ = .ok text := by decide +kernel
  have hnone : ((readMessage .data ⟨[0x61]⟩ (some .text)).run folder).value.toOption = none := by
    decide +kernel
  have hfails : ¬ (Command.report .data ⟨[0x61]⟩ (some .text)).Succeeds folder := by
    rintro ⟨message, hvalue⟩
    rw [hvalue] at hnone
    exact Option.some_ne_none message hnone
  obtain ⟨-, -, hoverwrites⟩ := hconvert ⟨[0x61]⟩ (some .text) ⟨[0x61]⟩ (some .binary)
  obtain ⟨format, bytes, hsource, hbytes, message, hdecode, target, htarget, hoverwrites⟩ :=
    hoverwrites hconverted
  obtain rfl : .text = format := Option.some.inj hsource
  obtain rfl : .binary = target := Option.some.inj htarget
  obtain rfl : text = bytes := Except.ok.inj (hread.symm.trans hbytes)
  obtain rfl : ⟨[], ["é"]⟩ = message := Except.ok.inj (hmessage.symm.trans hdecode)
  have hbinary : @Document.encode .model .binary ⟨[], ["é"]⟩ = [0x2A, 0x02, 0xC3, 0xA9] := by
    decide +kernel
  rw [hbinary] at hoverwrites
  obtain ⟨hleaves, hzero, -, -⟩ := hrun _ _ hparse
  obtain ⟨-, -, hone, hsame⟩ := hrun _ _ hrefused
  have hexit := hone.mpr hfails
  exact ⟨hzero.mpr hconverted, hleaves ▸ hoverwrites, hexit, hsame hexit⟩

end InferenceConfig
