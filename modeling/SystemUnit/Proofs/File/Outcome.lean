import SystemUnit.Proofs.File.Outcome.Text
import SystemUnit.Proofs.File.Outcome.Binary

namespace SystemUnit

/-!
# Outcomes of operations on files

The code that an operation leaves is that of its own outcome, whatever code was there before it; the code of a
failure is never that of success, `HostError.toCode_ne_success`.

* `result_perform` — every operation on a binary file or a text file leaves the code of its outcome, but for a
  question about the position of a text file that succeeds;
* `eof_keeps_failure` — after such a question, the code of a failure before it may still be there.
-/

open FileM

/-- **An operation leaves the code of its own outcome**, whatever was left before it, on every binary file and
    on every text file.  Only a question about the position of a text file leaves nothing if it succeeds, so that
    the code of the operation before it stays. -/
theorem result_perform (c : FileContext) :
    (∀ (f : BinaryFile) (op : BinaryFile.Operation),
      (perform op.act (f, c)).2.2.result = f.outcome c.volume c.mode op) ∧
    ∀ (f : TextFile) (op : TextFile.Operation),
      (perform op.act (f, c)).2.2.result =
        if op.asksPosition = true ∧ f.outcome c.volume op = .success then c.result
        else f.outcome c.volume op := by
  refine ⟨fun f op => BinaryFile.result_operation f c op, fun f op => ?_⟩
  cases asks : op.asksPosition with
  | true => simpa using TextFile.result_question f c asks
  | false => simpa using TextFile.result_operation f c asks

/-- A word is written and then read as a number. -/
def misread : List TextFile.Operation :=
  [.assign (.singleton 0x61), .create, .write (.text ⟨[0x78, 0x20, 0x79]⟩), .close, .reset,
    .read (.whole .integer)]

/-- **A question may leave the code of a failure before it**: after a word was no number, the file is not at its
    end, and the question whether it is succeeds, but the failure is still there behind it. -/
theorem eof_keeps_failure :
    let (f, c) := after ((default, default) : TextFile × FileContext) (misread.map TextFile.Operation.act)
    c.result = .ioError ∧ f.outcome c.volume .eof = .success ∧ (perform TextFile.eof (f, c)).1 = false ∧
      (perform TextFile.eof (f, c)).2.2.result = .ioError := by
  decide +kernel

end SystemUnit
