import RelaxDoc.Loader
import RelaxDoc.Proofs.Text.Utf8

/-! Loading from a file, from a text and from a stream. All of the input is read, or it is refused for
its size; only where the largest size leaves no number for one byte more, a stream is not read at all. -/
namespace RelaxDoc

/-- The kinds of failures. -/
inductive Failure where
  | invocation
  | inputNotFound
  | malformed
  | wrongNamespace
  | violation
  | unsupportedFormat
  | interrupted
  | limitExceeded
  | resource
  | output
  | io
  deriving DecidableEq, Repr

/-- The kind of a failure. -/
def Error.failure : Error → Failure
  | .invocation _ => .invocation
  | .inputNotFound _ => .inputNotFound
  | .malformed _ => .malformed
  | .wrongNamespace _ _ => .wrongNamespace
  | .violation _ => .violation
  | .unsupportedFormat _ => .unsupportedFormat
  | .interrupted => .interrupted
  | .limitExceeded _ => .limitExceeded
  | .resource _ => .resource
  | .output _ => .output
  | .io _ => .io

namespace Run

variable {α β : Type}

/-- What a run comes to, with no more than the kind of a failure. -/
def outcome (run : Run α) : Except Failure α := run.result.mapError Error.failure

theorem outcome_ofExcept_ok (a : α) (next : α → Run β) :
    (ofExcept (.ok a) >>= next).outcome = (next a).outcome := rfl

theorem outcome_ofExcept_error (error : Error) (next : α → Run β) :
    (ofExcept (.error error) >>= next).outcome = .error error.failure := rfl

theorem outcome_ofExcept_bind {γ : Type} (first : Except Error γ) (further : γ → Except Error α)
    (next : α → Run β) : (ofExcept (first >>= further) >>= next).outcome =
      (ofExcept first >>= fun c => ofExcept (further c) >>= next).outcome := by
  cases first <;> rfl

theorem outcome_say (level : Level) (text : String) (next : Unit → Run β) :
    (say level text >>= next).outcome = (next ()).outcome := rfl

end Run

namespace Loader

variable {loader : Loader} {tree : FileTree} {path : String} {bytes : List UInt8}

/-- What loading comes to if all of the input is read. -/
def whole (loader : Loader) (bytes : List UInt8) : Except Failure Grammar :=
  if loader.limits.maxSize < bytes.length then .error .limitExceeded
  else match Text.decode bytes with
    | .ok text => (loader.parse text).outcome
    | .error _ => .error .malformed

/-- Bytes are looked at for their number and then read as a text, which is parsed. -/
theorem outcome_of_bytes (source : Option String) (bytes : List UInt8) :
    (Run.ofExcept (loader.limits.checkSize bytes.length) >>= fun _ =>
      Run.ofExcept (decode source bytes) >>= loader.parse).outcome = loader.whole bytes := by
  rw [whole, Limits.checkSize]
  split
  · rw [Run.outcome_ofExcept_error]
    rfl
  · rw [Run.outcome_ofExcept_ok, decode]
    cases Text.decode bytes with
    | error error =>
      rw [Run.outcome_ofExcept_error]
      rfl
    | ok text => rw [Run.outcome_ofExcept_ok]

theorem text_of_read (read : tree.read path = .ok bytes) : loader.text tree (.path path) =
    (loader.limits.checkSize bytes.length >>= fun _ => decode (some path) bytes) := by
  have present : tree.has path = true := by
    rw [FileTree.has]
    cases found : tree.stat path with
    | ok entry => rfl
    | error e =>
      rw [FileTree.read, found] at read
      cases read
  simp only [text, present, read]
  rfl

theorem outcome_load_path (read : tree.read path = .ok bytes) :
    (loader.load tree (.path path)).outcome = loader.whole bytes := by
  rw [load, Run.outcome_say, text_of_read read, Run.outcome_ofExcept_bind]
  exact outcome_of_bytes (some path) bytes

theorem outcome_load_text (tree : FileTree) (content : String) :
    (loader.load tree (.text content)).outcome = loader.whole (Text.encode content) := by
  have decoded : decode none (Text.encode content) = .ok content := by
    rw [decode, Text.decode_eq_ok_iff.2 rfl]
  rw [← outcome_of_bytes none, Text.length_encode, decoded, load, Run.outcome_say, text,
    Run.outcome_ofExcept_bind]
  rfl

theorem outcome_loadBytes (bytes : List UInt8) :
    (loader.loadBytes bytes).outcome = loader.whole (bytes.take loader.streamBound) :=
  outcome_of_bytes none _

/-- One byte more than allowed shows as well as all of them that there are too many. -/
theorem whole_take (room : loader.limits.maxSize + 1 < UInt64.size) (bytes : List UInt8) :
    loader.whole (bytes.take loader.streamBound) = loader.whole bytes := by
  have bound : loader.streamBound = loader.limits.maxSize + 1 := by
    rw [streamBound, Nat.toUInt64, UInt64.toNat_ofNat_of_lt' room]
  rw [bound]
  by_cases large : loader.limits.maxSize < bytes.length
  · rw [whole, whole, if_pos large, if_pos]
    rw [List.length_take]
    omega
  · rw [List.take_of_length_le (by omega)]

/-- No bytes are no document. -/
theorem whole_nil (loader : Loader) : loader.whole [] = .error .malformed := by
  -- Which fault it is does not count.
  have broken : (Xml.Document.ofText "").toOption.isNone = true := by decide +kernel
  have small : ¬ loader.limits.maxSize < ([] : List UInt8).length := Nat.not_lt_zero _
  have decoded : Text.decode [] = .ok "" := rfl
  rw [whole, if_neg small, decoded]
  dsimp only
  rw [parse, document]
  cases found : Xml.Document.ofText "" with
  | error fault => rfl
  | ok document =>
    rw [found] at broken
    cases broken

/-- Where there is no number for one byte more, nothing of a stream is read. -/
theorem outcome_loadBytes_of_full (full : loader.limits.maxSize + 1 = UInt64.size)
    (bytes : List UInt8) : (loader.loadBytes bytes).outcome = .error .malformed := by
  have bound : loader.streamBound = 0 := by
    rw [streamBound, full]
    rfl
  rw [outcome_loadBytes, bound, List.take_zero, whole_nil]

/-- A file, a text and a stream of the same bytes come to the same: all of them are read, or refused
for their number. A stream is an exception where the largest size is the greatest number of 64 bits,
as nothing of it is read then; it comes to the same there too only if the bytes are no document. -/
theorem outcomes_of_same_bytes (fits : loader.limits.maxSize < UInt64.size)
    (read : tree.read path = .ok bytes) :
    (loader.load tree (.path path)).outcome = loader.whole bytes ∧
    (∀ other content, Text.encode content = bytes →
      (loader.load other (.text content)).outcome = loader.whole bytes) ∧
    ((loader.loadBytes bytes).outcome = loader.whole bytes ↔
      loader.limits.maxSize + 1 < UInt64.size ∨ loader.whole bytes = .error .malformed) := by
  refine ⟨outcome_load_path read, ?_, ?_⟩
  · rintro other content rfl
    exact outcome_load_text other content
  · by_cases room : loader.limits.maxSize + 1 < UInt64.size
    · simp only [room, true_or, iff_true]
      rw [outcome_loadBytes, whole_take room]
    · have full : loader.limits.maxSize + 1 = UInt64.size := by omega
      rw [outcome_loadBytes_of_full full]
      simp only [room, false_or]
      exact eq_comm

/-- A schema of two nodes. -/
def shortText : String :=
  "<element name=\"foo\" xmlns=\"http://relaxng.org/ns/structure/1.0\"><text/></element>"

/-- The schema in a file of the working directory. -/
def shortTree : FileTree := ⟨["w"], [(["w", "foo.rng"], .file (Text.encode shortText))]⟩

/-- Loading with the greatest number of 64 bits as the largest size. -/
def unbounded : Loader := { limits := { Limits.standard with maxSize := UInt64.size - 1 } }

theorem short_read : shortTree.read "foo.rng" = .ok (Text.encode shortText) := rfl

theorem short_whole : unbounded.whole (Text.encode shortText) ≠ .error .malformed := by
  have loads : (unbounded.whole (Text.encode shortText)).toOption.isSome = true := by
    rw [← outcome_load_text .empty]
    decide +kernel
  intro malformed
  rw [malformed] at loads
  cases loads

theorem short_outcomes : unbounded.limits.maxSize < UInt64.size ∧
    shortTree.read "foo.rng" = .ok (Text.encode shortText) ∧
    (unbounded.load .empty (.text shortText)).outcome =
      (unbounded.load shortTree (.path "foo.rng")).outcome ∧
    (unbounded.loadBytes (Text.encode shortText)).outcome ≠
      (unbounded.load shortTree (.path "foo.rng")).outcome ∧
    ({ : Loader }.loadBytes (Text.encode shortText)).outcome =
      ({ : Loader }.load shortTree (.path "foo.rng")).outcome := by
  have fits : unbounded.limits.maxSize < UInt64.size := by decide
  have standard : ({} : Loader).limits.maxSize < UInt64.size := by decide
  obtain ⟨file, text, stream⟩ := outcomes_of_same_bytes fits short_read
  obtain ⟨usual, _, also⟩ := outcomes_of_same_bytes standard short_read
  refine ⟨fits, short_read, (text .empty shortText rfl).trans file.symm, fun same => ?_, ?_⟩
  · rcases stream.1 (same.trans file) with room | malformed
    · exact absurd room (by decide)
    · exact short_whole malformed
  · rw [usual, also]
    exact .inl (by decide)

/-- A stream may come to something else than a file of the same bytes. -/
theorem exists_stream_unread : ¬ ∀ (loader : Loader) (tree : FileTree) (path : String)
    (bytes : List UInt8), loader.limits.maxSize < UInt64.size → tree.read path = .ok bytes →
      (loader.loadBytes bytes).outcome = (loader.load tree (.path path)).outcome := by
  intro always
  have same := always unbounded shortTree "foo.rng" _ (by decide) short_read
  rw [outcome_load_path short_read, outcome_loadBytes_of_full (by decide)] at same
  exact short_whole same.symm

end Loader

end RelaxDoc
