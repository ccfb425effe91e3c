import InferenceConfig.Cli.Run
import InferenceConfig.Proofs.Document.Conversion
import InferenceConfig.Proofs.Folder.Writing

/-!
# Conversions of Files

Converting a file is reading it, converting its document and writing the result. What has been
written is read back, so two conversions in a row that both succeed leave behind what one
conversion would have, as long as the second one reads the file in the format that the first
one wrote. The files may be the same: the first conversion may overwrite its own input, and the
second one may overwrite either file.

## Main results

* `FileTask.run_convert_eq_ok_iff` — what a conversion that succeeds does;
* `conversions_compose` — conversions of documents and of files compose.
-/

namespace InferenceConfig

namespace FileTask

variable {kind : Kind} {folder changed : Folder}

/-! ### Reading, writing and converting -/

/-- Reading a message changes nothing. -/
theorem folder_run_readMessage (kind : Kind) (location : Location) (explicit : Option Format)
    (folder : Folder) : ((readMessage kind location explicit).run folder).folder = folder := by
  rw [readMessage]
  cases Format.resolve? explicit location with
  | none => rfl
  | some format =>
      simp only [run]
      cases folder.read location with
      | error e => rfl
      | ok bytes =>
          simp only [run, run_logAll]
          split <;> rfl

/-- A message is read exactly from a file that holds its document. -/
theorem value_run_readMessage_eq_ok_iff {location : Location} {explicit : Option Format}
    {message : Message kind} :
    ((readMessage kind location explicit).run folder).value = .ok message ↔
      ∃ format bytes, Format.resolve? explicit location = some format ∧
        folder.read location = .ok bytes ∧
        Document.decode kind format bytes = .ok message := by
  rw [readMessage]
  cases Format.resolve? explicit location with
  | none => simp [run]
  | some format =>
      simp only [run]
      cases folder.read location with
      | error e => simp [run]
      | ok bytes =>
          simp only [run, run_logAll, Document.snd_decodeTraced, Option.some.injEq,
            Except.ok.injEq, exists_eq_left', exists_and_left]
          cases Document.decode kind format bytes with
          | error e => simp [run]
          | ok found => simp [run]

/-- A message is written exactly if its document can be written to the file. -/
theorem run_writeMessage_eq_ok_iff {message : Message kind} {location : Location}
    {explicit : Option Format} :
    ((writeMessage message location explicit).run folder).value = .ok () ∧
        ((writeMessage message location explicit).run folder).folder = changed ↔
      ∃ format, Format.resolve? explicit location = some format ∧
        folder.write location (Document.encode format message) = .ok changed := by
  rw [writeMessage]
  cases Format.resolve? explicit location with
  | none => simp [run]
  | some format =>
      simp only [run, Option.some.injEq, exists_eq_left']
      split
      · next hwrite => simp [hwrite]
      · next hwrite => simp [hwrite]

/-- A conversion succeeds exactly if the message can be read and written, and then it leaves
the folder with the written file. -/
theorem run_convert_eq_ok_iff {input output : Location} {source target : Option Format} :
    ((convert kind input source output target).run folder).value = .ok () ∧
        ((convert kind input source output target).run folder).folder = changed ↔
      ∃ (message : Message kind) (format : Format),
        ((readMessage kind input source).run folder).value = .ok message ∧
        Format.resolve? target output = some format ∧
        folder.write output (Document.encode format message) = .ok changed := by
  rw [convert, run_bind]
  simp only [folder_run_readMessage]
  cases ((readMessage kind input source).run folder).value with
  | error e => simp [run]
  | ok message =>
      simp only [Except.ok.injEq, run_writeMessage_eq_ok_iff, exists_and_left, exists_eq_left']

/-! ### Two conversions in a row -/

/-- What has been written is read back as the message that was written. -/
theorem value_run_readMessage_of_write {message : Message kind} {location : Location}
    {explicit : Option Format} {format : Format} (hfits : Wire.LengthsFit message)
    (hformat : Format.resolve? explicit location = some format)
    (hwrite : folder.write location (Document.encode format message) = .ok changed) :
    ((readMessage kind location explicit).run changed).value = .ok message :=
  value_run_readMessage_eq_ok_iff.mpr ⟨format, _, hformat, Folder.read_of_write hwrite,
    Document.decode_encode hfits format⟩

/-- The message of a file of less than `2 ^ 64` bytes has lengths of at most 64 bits. -/
theorem lengthsFit_of_run_readMessage {message : Message kind} {location : Location}
    {explicit : Option Format}
    (hsize : ∀ bytes, folder.read location = .ok bytes → bytes.length < 0x10000000000000000)
    (h : ((readMessage kind location explicit).run folder).value = .ok message) :
    Wire.LengthsFit message := by
  obtain ⟨format, bytes, -, hread, hdecode⟩ := value_run_readMessage_eq_ok_iff.mp h
  exact Document.lengthsFit_of_decode (hsize bytes hread) hdecode

/-- The report on a file depends on its message only. -/
theorem value_run_report (kind : Kind) (location : Location) (explicit : Option Format)
    (folder : Folder) :
    ((Command.report kind location explicit).task.run folder).value =
      match ((readMessage kind location explicit).run folder).value with
      | .error e => .failed e
      | .ok message => { exit := 0, output := message.report } := by
  rw [Command.task, run_bind]
  dsimp only
  cases ((readMessage kind location explicit).run folder).value <;> rfl

variable {input middle output : Location} {source target again later : Option Format}

/-- After two conversions in a row, the second of which reads the file in the format that the
first one wrote, the last file holds what one conversion would have written to it. -/
theorem run_convert_convert
    (hsize : ∀ bytes, folder.read input = .ok bytes → bytes.length < 0x10000000000000000)
    (hformat : Format.resolve? again middle = Format.resolve? target middle)
    (hfirst : ((convert kind input source middle target).run folder).value = .ok ())
    (hsecond : ((convert kind middle again output later).run
      ((convert kind input source middle target).run folder).folder).value = .ok ()) :
    ((convert kind input source output later).run folder).value = .ok () ∧
      ∃ bytes,
        ((convert kind input source output later).run folder).folder.read output =
          .ok bytes ∧
        ((convert kind middle again output later).run
          ((convert kind input source middle target).run folder).folder).folder.read output =
          .ok bytes := by
  obtain ⟨message, format, hread, hmiddle, hwrite⟩ := run_convert_eq_ok_iff.mp ⟨hfirst, rfl⟩
  obtain ⟨found, last, hfound, hlast, hlater⟩ := run_convert_eq_ok_iff.mp ⟨hsecond, rfl⟩
  -- The second conversion reads back what the first one wrote.
  have hkept := value_run_readMessage_of_write (lengthsFit_of_run_readMessage hsize hread)
    (hformat.trans hmiddle) hwrite
  obtain rfl : message = found := Except.ok.inj (hkept.symm.trans hfound)
  obtain ⟨direct, hdirect⟩ := Folder.exists_write_of_write hwrite hlater
  obtain ⟨hvalue, hfolder⟩ := run_convert_eq_ok_iff.mpr ⟨message, last, hread, hlast, hdirect⟩
  exact ⟨hvalue, _, hfolder ▸ Folder.read_of_write hdirect, Folder.read_of_write hlater⟩

/-- A file that has been converted is reported on as the file that it was converted from. -/
theorem run_convert_report
    (hsize : ∀ bytes, folder.read input = .ok bytes → bytes.length < 0x10000000000000000)
    (hformat : Format.resolve? again middle = Format.resolve? target middle)
    (hfirst : ((convert kind input source middle target).run folder).value = .ok ()) :
    ((Command.report kind middle again).task.run
        ((convert kind input source middle target).run folder).folder).value =
      ((Command.report kind input source).task.run folder).value := by
  obtain ⟨message, format, hread, hmiddle, hwrite⟩ := run_convert_eq_ok_iff.mp ⟨hfirst, rfl⟩
  have hkept := value_run_readMessage_of_write (lengthsFit_of_run_readMessage hsize hread)
    (hformat.trans hmiddle) hwrite
  rw [value_run_report, value_run_report, hkept, hread]

end FileTask

open Document FileTask in
/-- **Conversions compose and lose nothing.** A document can be converted exactly if it can be
decoded. If it has less than `2 ^ 64` bytes, as all have that a memory can hold, then what it
is converted to holds the same message, is converted further as the document itself would be,
and is reported on in the same way. So a chain of conversions does what its last one would do
alone, and converting to the same format again changes nothing.

The same is true of files: after two conversions that succeed, the second of which reads the
file in the format that the first one wrote, the last file holds what one conversion would have
written to it in the folder as it was before. Any of the files may be the same. -/
theorem conversions_compose (kind : Kind) :
    (∀ (source target : Format) (bytes : List UInt8),
      (∃ converted, transcode kind source target bytes = .ok converted) ↔
        ∃ message, decode kind source bytes = .ok message) ∧
    (∀ (source target later : Format) (bytes : List UInt8),
      bytes.length < 0x10000000000000000 →
        (∀ converted, transcode kind source target bytes = .ok converted →
          decode kind target converted = decode kind source bytes ∧
          transcode kind target later converted = transcode kind source later bytes ∧
          (decode kind target converted).map Message.report =
            (decode kind source bytes).map Message.report) ∧
        (∀ targets, transcodeThrough kind source (targets ++ [later]) bytes =
          transcode kind source later bytes) ∧
        (∀ converted, transcode kind source source bytes = .ok converted →
          transcode kind source source converted = .ok converted)) ∧
    (∀ (folder : Folder) (input middle output : Location)
        (source target again later : Option Format),
      (∀ bytes, folder.read input = .ok bytes → bytes.length < 0x10000000000000000) →
      Format.resolve? again middle = Format.resolve? target middle →
      let first := (convert kind input source middle target).run folder
      let second := (convert kind middle again output later).run first.folder
      let direct := (convert kind input source output later).run folder
      first.value = .ok () →
        ((Command.report kind middle again).task.run first.folder).value =
          ((Command.report kind input source).task.run folder).value ∧
        (second.value = .ok () →
          direct.value = .ok () ∧ ∃ bytes, direct.folder.read output = .ok bytes ∧
            second.folder.read output = .ok bytes)) := by
  refine ⟨fun _ _ _ => exists_transcode_iff, ?_, ?_⟩
  · intro source target later bytes hsize
    refine ⟨fun converted h => ?_, fun targets => ?_, fun converted h => ?_⟩
    · have hkept := decode_of_transcode hsize h
      exact ⟨hkept, transcode_congr hkept later, by rw [hkept]⟩
    · exact transcodeThrough_eq targets later fun _ => lengthsFit_of_decode hsize
    · rw [transcode_congr (decode_of_transcode hsize h) source, h]
  · intro folder input middle output source target again later hsize hformat
    dsimp only
    intro hfirst
    exact ⟨run_convert_report hsize hformat hfirst, run_convert_convert hsize hformat hfirst⟩

open Document FileTask in
/-- A text file becomes a binary file in place, and then a JSON file is made of it. The chain
that ends in binary gives the bytes of the binary file. -/
theorem conversions_compose_in_place :
    let text := Utf8.encode "tag: \"é\"\n".toList
    let folder : Folder := ⟨[([[0x61]], .file text)]⟩
    let first := (convert .model ⟨[0x61]⟩ (some .text) ⟨[0x61]⟩ (some .binary)).run folder
    let second :=
      (convert .model ⟨[0x61]⟩ (some .binary) ⟨[0x62]⟩ (some .json)).run first.folder
    let direct := (convert .model ⟨[0x61]⟩ (some .text) ⟨[0x62]⟩ (some .json)).run folder
    first.folder.read ⟨[0x61]⟩ = .ok [0x2A, 0x02, 0xC3, 0xA9] ∧
      direct.folder.read ⟨[0x62]⟩ = second.folder.read ⟨[0x62]⟩ ∧
      transcodeThrough .model .text [.binary, .json, .binary] text =
        .ok [0x2A, 0x02, 0xC3, 0xA9] := by
  intro text folder first second direct
  obtain ⟨-, hdocument, hfile⟩ := conversions_compose .model
  have hread : folder.read ⟨[0x61]⟩ = .ok text := by decide +kernel
  have hshort : text.length < 0x10000000000000000 := by decide +kernel
  have hsize (bytes : List UInt8) (h : folder.read ⟨[0x61]⟩ = .ok bytes) :
      bytes.length < 0x10000000000000000 :=
    Except.ok.inj (hread.symm.trans h) ▸ hshort
  have hfirst : first.value = .ok () := by decide +kernel
  have hsecond : second.value = .ok () := by decide +kernel
  obtain ⟨-, hdirect⟩ := hfile folder ⟨[0x61]⟩ ⟨[0x61]⟩ ⟨[0x62]⟩ (some .text) (some .binary)
    (some .binary) (some .json) hsize rfl hfirst
  obtain ⟨-, bytes, hdirectly, hthrough⟩ := hdirect hsecond
  obtain ⟨-, hchain, -⟩ := hdocument .text .binary .binary text hshort
  have hbinary : transcode .model .text .binary text = .ok [0x2A, 0x02, 0xC3, 0xA9] := by
    decide +kernel
  exact ⟨by decide +kernel, hdirectly.trans hthrough.symm,
    (hchain [.binary, .json]).trans hbinary⟩

end InferenceConfig
